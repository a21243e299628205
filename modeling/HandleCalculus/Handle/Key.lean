import HandleCalculus.Handle.Basic

/-!
# Thunk keys

The canonical shape of a handle: its erased signature, its variant and the few numbers on which
the entry routine depends. Handles with equal keys share one compiled thunk.
-/

set_option autoImplicit false

namespace HandleCalculus

/-- What one compiled thunk is for. -/
structure ThunkKey where
  shape : Shape
  variant : Variant
  layout : List Nat
  deriving DecidableEq, Repr

namespace ThunkKey

/-- A key as trace lines print it. -/
def text (k : ThunkKey) : String :=
  "ThunkKey \x7b shape: ErasedShape \x7b params: " ++
    Text.bracketed (k.shape.params.map (·.letter.toString)) ++
    ", ret: " ++ k.shape.ret.letter.toString ++ " \x7d, tag: " ++ k.variant.name ++
    ", layout: " ++ Text.bracketed (k.layout.map fun n => toString n) ++ " \x7d"

end ThunkKey

/-- The numbers of a node on which its entry routine depends. -/
def Node.layout : Node Handle → List Nat
  | .direct _ .static => [0]
  | .direct _ .special => [1]
  | .direct _ .construct => [2]
  | .virtual _ _ interface => [interface.toNat]
  | .getField _ isStatic _ | .setField _ isStatic _ => [isStatic.toNat]
  | .insert _ pos values => [pos, values.length]
  | .permute _ reorder => reorder
  | .collect _ pos count _ | .spread _ pos count _ => [pos, count]
  | .filterArgs _ pos filters => pos :: filters.map fun f => f.isSome.toNat
  | .fold _ pos combiner => [pos, combiner.type.arity]
  | .guarded test _ _ => [test.type.arity]
  | .catching _ _ handler => [handler.type.arity]
  | .convert _ args _ => [args.length]
  | .filterReturn .. | .constant .. | .identity | .varargs .. | .invoker .. | .unlinked ..
  | .throwing => []

/-- The thunk key of a handle. -/
def Handle.key (h : Handle) : ThunkKey := ⟨h.type.shape, h.variant, h.node.layout⟩

end HandleCalculus
