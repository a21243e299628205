import HandleCalculus.Prim

/-!
# Erased shapes

The shape of a signature keeps one carrier for each parameter and one for the result, so all
reference types collapse to `L`. Code generated for a shape serves every signature of that shape.
-/

set_option autoImplicit false

namespace HandleCalculus

/-- The erased form of a signature. -/
structure Shape where
  params : List Carrier
  ret : Carrier
  deriving DecidableEq, Repr

namespace Shape

/-- Argument slots of the whole shape. -/
def slots (s : Shape) : Nat := (s.params.map Carrier.slots).foldr (· + ·) 0

/-- The written form: one letter for each parameter, an underscore, the letter of the result. -/
def text (s : Shape) : String :=
  String.ofList (s.params.map Carrier.letter) ++ "_" ++ s.ret.letter.toString

end Shape

/-- A signature has at most this many argument slots. -/
def maxArgumentSlots : Nat := 255

/-- A generic call passes at most this many arguments. -/
def maxGenericArguments : Nat := 253

end HandleCalculus
