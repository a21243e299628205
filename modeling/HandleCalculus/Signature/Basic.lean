import HandleCalculus.ClassGraph.Basic

/-!
# Signatures

The type of a handle: parameter types and a result type. No parameter is `void` and the
parameters take at most 255 argument slots; both are part of the type, so every signature at hand
is valid. Two signatures are the same exactly if their types are.
-/

set_option autoImplicit false

namespace HandleCalculus

/-- A valid list of parameter types and a result type. -/
structure Signature where
  params : List Ty
  ret : Ty
  noVoid : Ty.void ∉ params
  slots_le : slotCount params ≤ maxArgumentSlots
  deriving DecidableEq

namespace Signature

@[ext]
theorem ext' {s t : Signature} (hp : s.params = t.params) (hr : s.ret = t.ret) : s = t := by
  cases s; cases t; simp_all

/-- Argument slots taken by all parameters. -/
def slots (s : Signature) : Nat := slotCount s.params

def arity (s : Signature) : Nat := s.params.length

/-- The erased form. -/
def shape (s : Signature) : Shape := ⟨s.params.map Ty.carrier, s.ret.carrier⟩

theorem slots_shape (s : Signature) : s.shape.slots = s.slots := by
  simp [shape, Shape.slots, slots, slotCount, Function.comp_def, Ty.slots_carrier]

/-- The type of the last parameter. -/
def last? (s : Signature) : Option Ty := s.params.getLast?

/-- The type of a parameter; `void` where there is none. -/
def param (s : Signature) (i : Nat) : Ty := s.params[i]?.getD .void

def descriptor (s : Signature) : Descriptor := ⟨s.params, s.ret⟩

/-- Whether the result or a parameter is primitive. -/
def hasPrimitives (s : Signature) : Bool := s.ret.isPrimitive || s.params.any Ty.isPrimitive

/-- Whether the result or a parameter is a wrapper class. -/
def hasWrappers (s : Signature) : Bool :=
  s.ret.unwrapped?.isSome || s.params.any fun t => t.unwrapped?.isSome

/-- A signature in source form, parameters between commas. -/
def text (G : ClassGraph) (s : Signature) : String :=
  "(" ++ ",".intercalate (s.params.map (·.source G)) ++ ")" ++ s.ret.source G

end Signature

end HandleCalculus
