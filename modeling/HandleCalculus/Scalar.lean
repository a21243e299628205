import HandleCalculus.Prim
import HandleCalculus.Binary.Shortest
import HandleCalculus.Text.Quoted

/-!
# Primitive values

A value of each primitive type. Floating-point values are their bit patterns, so two of them are
equal only if they agree in every bit. Widening keeps the value of an integral type and rounds to
nearest towards the floating-point types.
-/

set_option autoImplicit false

namespace HandleCalculus

/-- A primitive value. -/
inductive Scalar where
  | boolean (b : Bool)
  | byte (n : Int8)
  | short (n : Int16)
  | char (n : UInt16)
  | int (n : Int32)
  | long (n : Int64)
  | float (bits : UInt32)
  | double (bits : UInt64)
  deriving DecidableEq

namespace Scalar

/-- The type of a primitive value. -/
def type : Scalar → Prim
  | boolean _ => .boolean
  | byte _ => .byte
  | short _ => .short
  | char _ => .char
  | int _ => .int
  | long _ => .long
  | float _ => .float
  | double _ => .double

/-- The value that a slot of the type starts with. -/
def zero : Prim → Scalar
  | .boolean => boolean false
  | .byte => byte 0
  | .short => short 0
  | .char => char 0
  | .int => int 0
  | .long => long 0
  | .float => float 0
  | .double => double 0

theorem type_zero (p : Prim) : (zero p).type = p := by
  cases p <;> rfl

/-- The number that a value of an integral type stands for. -/
def integer? : Scalar → Option Int
  | byte n => some n.toInt
  | short n => some n.toInt
  | char n => some n.toNat
  | int n => some n.toInt
  | long n => some n.toInt
  | _ => none

/-- An integer as a value of a wider type than the one it comes from. -/
def ofInteger? (z : Int) : Prim → Option Scalar
  | .short => some (short (Int16.ofInt z))
  | .int => some (int (Int32.ofInt z))
  | .long => some (long (Int64.ofInt z))
  | .float => some (float (UInt32.ofNat (Binary.ofInt Binary.single z)))
  | .double => some (double (UInt64.ofNat (Binary.ofInt Binary.double z)))
  | _ => none

/-- The value converted to a type that its own type is or widens to. -/
def widen? (s : Scalar) (p : Prim) : Option Scalar :=
  if s.type = p then some s
  else if s.type.widensTo p then
    match s with
    | float bits => some (double (UInt64.ofNat (Binary.doubleOfSingle bits.toNat)))
    | _ => s.integer?.bind (ofInteger? · p)
  else none

/-- A value as messages print it: its number, and a letter for the types other than `int` and
`boolean`; a `char` by its code. -/
def text : Scalar → String
  | boolean b => if b then "true" else "false"
  | byte n => toString n.toInt ++ "b"
  | short n => toString n.toInt ++ "s"
  | char n => "'\\u" ++ Text.hexPadded 4 n.toNat ++ "'"
  | int n => toString n.toInt
  | long n => toString n.toInt ++ "L"
  | float bits => Binary.text Binary.single bits.toNat ++ "f"
  | double bits => Binary.text Binary.double bits.toNat ++ "d"

end Scalar

end HandleCalculus
