import HandleCalculus.Signature.Edit

/-!
# Combinators

Handles made from handles. Each combinator checks that the signatures fit, computes the signature
of the result and puts one node on top; a combinator that would change nothing answers its target
itself. New nodes take their identity from `stamp`; a combinator that makes two nodes takes
`stamp` for the result and `stamp + 1` for the inner one.

Positions and counts are natural numbers, and so are their sums. In `insertArguments`,
`filterArguments`, `foldArguments` and `collectArguments`, as in `asSpreaderAt`, a program adds words
of 64 bits, which is the same as long as the sum is below `2 ^ 64`. The sums in range are far below it,
since no signature has more than 255 parameters.
-/

set_option autoImplicit false

namespace HandleCalculus.Handle

/-- The same behaviour under another signature, which must erase alike. -/
def retype (stamp : Stamp) (h : Handle) (t : Signature) : Except Error Handle :=
  if t.shape = h.type.shape then .ok ⟨stamp, t, h.node⟩
  else .error (.misfit (.erasure t h.type))

/-! ## Binding -/

/-- Values converted to the parameter types that they are bound to. -/
def coerceAll (G : ClassGraph) : List Value → List Ty → Except Error (List Value)
  | v :: vs, t :: ts =>
    match v.coerce G t with
    | .error e => .error (.value (.cannotBind t e))
    | .ok w =>
      match coerceAll G vs ts with
      | .error e => .error e
      | .ok ws => .ok (w :: ws)
  | _, _ => .ok []

/-- Binds `values` to the parameters from `pos` on. -/
def insertArguments (G : ClassGraph) (stamp : Stamp) (target : Handle) (pos : Nat)
    (values : List Value) : Except Error Handle := do
  let old := target.type
  if pos + values.length > old.arity then
    throw (.signature (.cannotInsert values.length pos old))
  let bound ← coerceAll G values (old.params.drop pos)
  if bound.isEmpty then return target
  let new ← old.dropParams pos (pos + bound.length)
  return ⟨stamp, new, .insert target pos bound⟩

/-- Binds the first parameter. -/
def bindTo (G : ClassGraph) (stamp : Stamp) (target : Handle) (v : Value) :
    Except Error Handle :=
  if target.type.arity = 0 then .error (.value (.nothingToBind target.type))
  else insertArguments G stamp target 0 [v]

/-! ## Reordering -/

/-- Whether a reordering leaves each argument at its place. -/
def isIdentityOrder (reorder : List Nat) : Bool := reorder == List.range reorder.length

/-- Whether each incoming argument exists and is of the type of the parameter it goes to, the
parameters being those from `i` on. -/
def checkReorder (new : Signature) : List Nat → List Ty → Except Error Unit
  | j :: js, t :: ts =>
    if j ≥ new.arity then .error (.signature (.reorderIndex j new))
    else if new.param j ≠ t then .error (.misfit (.reordered j new t))
    else checkReorder new js ts
  | _, _ => .ok ()

/-- Passes to `target` as argument `i` the incoming argument `reorder[i]`; arguments may be
duplicated or ignored. A permutation of a permutation becomes one. -/
def permuteArguments (stamp : Stamp) (target : Handle) (new : Signature) (reorder : List Nat) :
    Except Error Handle := do
  let old := target.type
  if reorder.length ≠ old.arity then throw (.signature (.reorderLength reorder.length old))
  if new.ret ≠ old.ret then throw (.misfit (.returnTypes new old))
  checkReorder new reorder old.params
  if new = old ∧ isIdentityOrder reorder then return target
  match target.node with
  | .permute inner innerOrder =>
    let combined := innerOrder.map fun j => reorder[j]?.getD 0
    if combined.length = new.arity ∧ isIdentityOrder combined then
      if new = inner.type then return inner else retype stamp inner new
    else return ⟨stamp, new, .permute inner combined⟩
  | _ => return ⟨stamp, new, .permute target reorder⟩

/-- Adds ignored parameters in front of parameter `pos`. -/
def dropArguments (stamp : Stamp) (target : Handle) (pos : Nat) (types : List Ty) :
    Except Error Handle := do
  if types.isEmpty then return target
  let new ← target.type.insertParams pos types
  let reorder := (List.range target.type.arity).map fun i =>
    if i < pos then i else i + types.length
  permuteArguments stamp target new reorder

/-! ## Filters -/

/-- The signature after filters have been put on the parameters from `pos` on, starting from the
signature `acc` reached so far. -/
def filteredType (old : Signature) (pos : Nat) :
    Nat → List (Option Handle) → Signature → Except Error Signature
  | _, [], acc => .ok acc
  | i, none :: fs, acc => filteredType old pos (i + 1) fs acc
  | i, some f :: fs, acc =>
    if f.type.arity ≠ 1 ∨ f.type.ret ≠ old.param (pos + i) then
      .error (.misfit (.argumentFilter f.type (pos + i) old))
    else
      match acc.changeParam (pos + i) (f.type.param 0) with
      | .error e => .error e
      | .ok acc => filteredType old pos (i + 1) fs acc

/-- Passes the arguments from `pos` on through unary filters; `none` leaves an argument alone. It says
nothing about a sum of `pos` and the number of filters from `2 ^ 64` on: a program stops there, or
compares that sum modulo `2 ^ 64`. -/
def filterArguments (stamp : Stamp) (target : Handle) (pos : Nat)
    (filters : List (Option Handle)) : Except Error Handle := do
  let old := target.type
  if pos + filters.length > old.arity then throw (.signature (.tooManyFilters old))
  let new ← filteredType old pos 0 filters old
  if filters.all Option.isNone then return target
  return ⟨stamp, new, .filterArgs target pos filters⟩

/-- Passes the result of the target, nothing if it is `void`, through a filter. -/
def filterReturnValue (stamp : Stamp) (target filter : Handle) : Except Error Handle := do
  let old := target.type
  let taken := if old.ret = .void then [] else [old.ret]
  if filter.type.params ≠ taken then throw (.misfit (.returnFilter filter.type old))
  let new ← old.changeReturn filter.type.ret
  return ⟨stamp, new, .filterReturn target filter⟩

/-! ## Folding -/

/-- Runs `combiner` on the arguments at `pos` and, unless it answers nothing, passes its result to
the target in front of them. -/
def foldArguments (stamp : Stamp) (target : Handle) (pos : Nat) (combiner : Handle) :
    Except Error Handle := do
  let old := target.type
  let inner := combiner.type
  let answers := inner.ret ≠ .void
  let skip := if answers then 1 else 0
  if pos + skip + inner.arity > old.arity then
    throw (.misfit (.combinerLength inner old pos))
  if answers ∧ old.param pos ≠ inner.ret then
    throw (.misfit (.combinerResult inner.ret pos old))
  if inner.params ≠ (old.params.drop (pos + skip)).take inner.arity then
    throw (.misfit (.combinerArguments inner old))
  let new ← if answers then old.dropParams pos (pos + 1) else pure old
  return ⟨stamp, new, .fold target pos combiner⟩

/-- Replaces parameter `pos` by the parameters of `filter`, whose result, if it has one, is passed
on at `pos`. -/
def collectArguments (stamp : Stamp) (target : Handle) (pos : Nat) (filter : Handle) :
    Except Error Handle := do
  let skip := if filter.type.ret = .void then 0 else 1
  let widened ← dropArguments (stamp + 1) target (pos + skip) filter.type.params
  foldArguments stamp widened pos filter

/-! ## Choices -/

/-- Calls `target` or `fallback` by what `test` says of the first arguments. -/
def guardWithTest (stamp : Stamp) (test target fallback : Handle) : Except Error Handle := do
  if target.type ≠ fallback.type then throw (.misfit (.branches target.type fallback.type))
  if test.type.ret ≠ .boolean then throw (.misfit (.testResult test.type))
  if test.type.arity > target.type.arity ∨
      test.type.params ≠ target.type.params.take test.type.arity then
    throw (.misfit (.testArguments test.type target.type))
  return ⟨stamp, target.type, .guarded test target fallback⟩

/-- Calls `handler` with a throwable of class `c` that `target` raised and the first arguments. -/
def catchException (G : ClassGraph) (stamp : Stamp) (target : Handle) (c : ClassId)
    (handler : Handle) : Except Error Handle := do
  if !G.isSubclass c ClassId.throwable then throw (.misfit (.notThrowable c))
  if handler.type.ret ≠ target.type.ret then
    throw (.misfit (.handlerResult handler.type target.type))
  match handler.type.params with
  | [] => throw (.misfit (.handlerException handler.type c))
  | first :: leading =>
    if !G.isAssignable (.cls c) first then throw (.misfit (.handlerException handler.type c))
    if leading.length > target.type.arity ∨
        leading ≠ target.type.params.take leading.length then
      throw (.misfit (.handlerArguments handler.type target.type))
    return ⟨stamp, target.type, .catching target c handler⟩

/-! ## Leaves -/

/-- Answers `value`, converted to `t`, to no arguments. -/
def constant (G : ClassGraph) (stamp : Stamp) (t : Ty) (value : Value) : Except Error Handle :=
  match value.coerce G t with
  | .error e => .error (.conversion e)
  | .ok v => do
    let s ← Signature.of t []
    return ⟨stamp, s, .constant v⟩

/-- Answers its argument. -/
def identity (stamp : Stamp) (t : Ty) : Except Error Handle := do
  let s ← Signature.of t [t]
  return ⟨stamp, s, .identity⟩

/-- Throws its argument, a throwable of class `c`. -/
def throwException (G : ClassGraph) (stamp : Stamp) (ret : Ty) (c : ClassId) :
    Except Error Handle := do
  if !G.isSubclass c ClassId.throwable then throw (.misfit (.notThrowable c))
  let s ← Signature.of ret [.cls c]
  return ⟨stamp, s, .throwing⟩

/-- Fails with `message` whenever it is called. -/
def unlinked (stamp : Stamp) (s : Signature) (message : String) : Handle :=
  ⟨stamp, s, .unlinked message⟩

end HandleCalculus.Handle
