/-!
# Reference kinds

The nine ways in which a symbolic reference uses a member, with their numbers.
-/

set_option autoImplicit false

namespace HandleCalculus

/-- A way of using a field or method. -/
inductive RefKind where
  | getField | getStatic | putField | putStatic
  | invokeVirtual | invokeStatic | invokeSpecial | newInvokeSpecial | invokeInterface
  deriving DecidableEq, Repr

namespace RefKind

/-- The kind of a number from 1 to 9. -/
def ofNat? : Nat → Option RefKind
  | 1 => some getField
  | 2 => some getStatic
  | 3 => some putField
  | 4 => some putStatic
  | 5 => some invokeVirtual
  | 6 => some invokeStatic
  | 7 => some invokeSpecial
  | 8 => some newInvokeSpecial
  | 9 => some invokeInterface
  | _ => none

/-- The name of a kind, as trace lines print it. -/
def name : RefKind → String
  | getField => "GetField"
  | getStatic => "GetStatic"
  | putField => "PutField"
  | putStatic => "PutStatic"
  | invokeVirtual => "InvokeVirtual"
  | invokeStatic => "InvokeStatic"
  | invokeSpecial => "InvokeSpecial"
  | newInvokeSpecial => "NewInvokeSpecial"
  | invokeInterface => "InvokeInterface"

/-- Kinds that use a field. -/
def isField : RefKind → Bool
  | getField | getStatic | putField | putStatic => true
  | _ => false

/-- Kinds that use a static member. -/
def isStatic : RefKind → Bool
  | getStatic | putStatic | invokeStatic => true
  | _ => false

/-- Kinds that read a field. -/
def isGetter : RefKind → Bool
  | getField | getStatic => true
  | _ => false

/-- Kinds that write a field. -/
def isSetter : RefKind → Bool
  | putField | putStatic => true
  | _ => false

/-- Kinds whose first argument is an existing receiver. -/
def hasReceiver : RefKind → Bool
  | getField | putField | invokeVirtual | invokeSpecial | invokeInterface => true
  | _ => false

end RefKind

end HandleCalculus
