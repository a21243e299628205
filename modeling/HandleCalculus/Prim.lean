/-!
# Primitive types

The eight primitive types, the slots they fill, the kind of slot they travel in once a type is
erased, their spellings, and the identity and widening conversions between them (`widensTo`).
-/

set_option autoImplicit false

namespace HandleCalculus

/-- The kind of slot in which a value travels once its static type is erased. -/
inductive Carrier where
  | L | I | J | F | D | V
  deriving DecidableEq, Repr

namespace Carrier

/-- The letter of a carrier: `L` for every reference, `V` for no value at all. -/
def letter : Carrier → Char
  | L => 'L'
  | I => 'I'
  | J => 'J'
  | F => 'F'
  | D => 'D'
  | V => 'V'

/-- Argument slots taken by a carrier: two for the wide ones, none for `V`. -/
def slots : Carrier → Nat
  | J | D => 2
  | V => 0
  | _ => 1

/-- The carrier of a letter. -/
def ofLetter? : Char → Option Carrier
  | 'L' => some L
  | 'I' => some I
  | 'J' => some J
  | 'F' => some F
  | 'D' => some D
  | 'V' => some V
  | _ => none

theorem ofLetter?_letter (c : Carrier) : ofLetter? c.letter = some c := by
  cases c <;> rfl

end Carrier

/-- A primitive type. -/
inductive Prim where
  | boolean | byte | short | char | int | long | float | double
  deriving DecidableEq, Repr

namespace Prim

/-- All primitive types in their declared order. -/
def all : List Prim := [boolean, byte, short, char, int, long, float, double]

theorem mem_all (p : Prim) : p ∈ all := by
  cases p <;> decide

/-- The place of a primitive type in the declared order. -/
def rank : Prim → Nat
  | boolean => 0
  | byte => 1
  | short => 2
  | char => 3
  | int => 4
  | long => 5
  | float => 6
  | double => 7

/-- Argument slots taken by a value of the type. -/
def slots : Prim → Nat
  | long | double => 2
  | _ => 1

/-- The one-letter descriptor of the type. -/
def descriptor : Prim → Char
  | boolean => 'Z'
  | byte => 'B'
  | short => 'S'
  | char => 'C'
  | int => 'I'
  | long => 'J'
  | float => 'F'
  | double => 'D'

/-- The keyword that names the type in source text. -/
def keyword : Prim → String
  | boolean => "boolean"
  | byte => "byte"
  | short => "short"
  | char => "char"
  | int => "int"
  | long => "long"
  | float => "float"
  | double => "double"

/-- The capitalised name of the type, as conversion plans print it. -/
def title : Prim → String
  | boolean => "Boolean"
  | byte => "Byte"
  | short => "Short"
  | char => "Char"
  | int => "Int"
  | long => "Long"
  | float => "Float"
  | double => "Double"

/-- The full name of the class whose objects hold one value of the type. -/
def wrapperName : Prim → String
  | boolean => "java/lang/Boolean"
  | byte => "java/lang/Byte"
  | short => "java/lang/Short"
  | char => "java/lang/Character"
  | int => "java/lang/Integer"
  | long => "java/lang/Long"
  | float => "java/lang/Float"
  | double => "java/lang/Double"

/-- Types below `int` travel as an `int`. -/
def carrier : Prim → Carrier
  | boolean | byte | short | char | int => .I
  | long => .J
  | float => .F
  | double => .D

theorem slots_carrier (p : Prim) : p.carrier.slots = p.slots := by
  cases p <;> rfl

/-- Every primitive type but `boolean` is numeric. -/
def isNumeric : Prim → Bool
  | boolean => false
  | _ => true

/-- The primitive type that a keyword names. -/
def ofKeyword? (s : String) : Option Prim := all.find? (·.keyword == s)

/-- The primitive types that a type widens to, itself apart. -/
def wider : Prim → List Prim
  | boolean => []
  | byte => [short, int, long, float, double]
  | short | char => [int, long, float, double]
  | int => [long, float, double]
  | long => [float, double]
  | float => [double]
  | double => []

/-- Identity or widening conversion between primitive types. -/
def widensTo (a b : Prim) : Bool := a == b || a.wider.contains b

theorem widensTo_refl (a : Prim) : a.widensTo a = true := by
  cases a <;> rfl

end Prim

end HandleCalculus
