import HandleCalculus.Shape

/-!
# Types

A type is primitive, `void`, a class or an array. A class is named by its number in the class
graph and never by its text, so two classes of one name in different loaders are different types.
-/

set_option autoImplicit false

namespace HandleCalculus

/-- The number of a class in the class graph. -/
abbrev ClassId := Nat

/-- A type. -/
inductive Ty where
  | prim (p : Prim)
  | void
  | cls (c : ClassId)
  | array (component : Ty)
  deriving DecidableEq, Repr

namespace Ty

def boolean : Ty := prim .boolean

/-- Whether values of the type are references. -/
def isReference : Ty → Bool
  | cls _ | array _ => true
  | _ => false

def isPrimitive : Ty → Bool
  | prim _ => true
  | _ => false

def isVoid : Ty → Bool
  | void => true
  | _ => false

def isArray : Ty → Bool
  | array _ => true
  | _ => false

/-- The component type of an array type. -/
def component? : Ty → Option Ty
  | array c => some c
  | _ => none

/-- The class that governs access to the type: the class itself, or the innermost element class
of an array. -/
def elementClass? : Ty → Option ClassId
  | cls c => some c
  | array c => c.elementClass?
  | _ => none

/-- The carrier of the type once erased. -/
def carrier : Ty → Carrier
  | prim p => p.carrier
  | void => .V
  | _ => .L

/-- Argument slots taken by a value of the type. -/
def slots : Ty → Nat
  | prim p => p.slots
  | void => 0
  | _ => 1

theorem slots_carrier (t : Ty) : t.carrier.slots = t.slots := by
  cases t with
  | prim p => exact p.slots_carrier
  | _ => rfl

theorem slots_pos {t : Ty} (ht : t ≠ .void) : 0 < t.slots := by
  cases t with
  | prim p => cases p <;> decide
  | void => exact absurd rfl ht
  | cls c => exact Nat.one_pos
  | array c => exact Nat.one_pos

end Ty

/-- Argument slots of a list of types. -/
def slotCount (ts : List Ty) : Nat := (ts.map Ty.slots).foldr (· + ·) 0

theorem slotCount_cons (t : Ty) (ts : List Ty) : slotCount (t :: ts) = t.slots + slotCount ts := rfl

theorem slotCount_append (ts us : List Ty) : slotCount (ts ++ us) = slotCount ts + slotCount us := by
  induction ts with
  | nil => simp [slotCount]
  | cons t ts ih => rw [List.cons_append, slotCount_cons, slotCount_cons, ih, Nat.add_assoc]

theorem slotCount_replicate (n : Nat) (t : Ty) :
    slotCount (List.replicate n t) = n * t.slots := by
  induction n with
  | zero => exact (Nat.zero_mul _).symm
  | succ n ih => rw [List.replicate_succ, slotCount_cons, ih, Nat.succ_mul, Nat.add_comm]

/-- What a method declares: parameter types and a result type, with no limit on either. -/
structure Descriptor where
  params : List Ty
  ret : Ty
  deriving DecidableEq, Repr

end HandleCalculus
