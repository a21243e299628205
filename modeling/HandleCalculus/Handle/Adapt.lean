import HandleCalculus.Handle.Combinators

/-!
# Adapting signatures and arity

Handles seen under another signature: conversion of arguments and result (`convertTo`), arguments
collected into an array and spread from one, and variable arity, which decides at each adaptation
how many arguments to collect.
-/

set_option autoImplicit false

namespace HandleCalculus.Handle

/-- The conversions of several static types to others, pairwise. -/
def plans? (G : ClassGraph) : List Ty → List Ty → Option (List Conversion)
  | s :: ss, t :: ts => do
    let c ← Conversion.plan? G s t
    let cs ← plans? G ss ts
    return c :: cs
  | _, _ => some []

/-- The handle under another signature of the same arity, each argument and the result converted;
if nothing needs converting only the signature changes. -/
def convertTo (G : ClassGraph) (stamp : Stamp) (h : Handle) (new : Signature) :
    Except Error Handle :=
  let old := h.type
  let refused : Except Error Handle := .error (.misfit (.adaptation old new))
  if new = old then .ok h
  else if new.arity ≠ old.arity then refused
  else
    match plans? G new.params old.params, Conversion.plan? G old.ret new.ret with
    | some args, some ret =>
      if args.all Conversion.isKeep && ret.isKeep then retype stamp h new
      else .ok ⟨stamp, new, .convert h args ret⟩
    | _, _ => refused

/-- Passes `count` arguments from `pos` on as one fresh array. -/
def asCollectorAt (G : ClassGraph) (stamp : Stamp) (h : Handle) (pos : Nat) (array : Ty)
    (count : Nat) : Except Error Handle := do
  let old := h.type
  if pos ≥ old.arity then throw (.signature (.collectorPosition pos old))
  match array.component? with
  | none => throw (.misfit (.notArrayType array))
  | some component =>
    if !G.isAssignable array (old.param pos) then
      throw (.misfit (.cannotPassAs array (old.param pos)))
    let dropped ← old.dropParams pos (pos + 1)
    let new ← dropped.insertParams pos (List.replicate count component)
    return ⟨stamp, new, .collect h pos count array⟩

/-- Passes the last `count` arguments as one fresh array. -/
def asCollector (G : ClassGraph) (stamp : Stamp) (h : Handle) (array : Ty) (count : Nat) :
    Except Error Handle :=
  match h.type.arity with
  | 0 => .error (.misfit (.noTrailingArray h.type))
  | n + 1 => asCollectorAt G stamp h n array count

/-- Takes an array at `pos` and passes its elements as `count` arguments. As with the combinators, the
sum of the two is a natural number. -/
def asSpreaderAt (G : ClassGraph) (stamp : Stamp) (h : Handle) (pos : Nat) (array : Ty)
    (count : Nat) : Except Error Handle := do
  let old := h.type
  if pos + count > old.arity then throw (.signature (.cannotSpread count pos old))
  match array.component? with
  | none => throw (.misfit (.notArrayType array))
  | some component =>
    match ((old.params.drop pos).take count).find? fun t =>
        (Conversion.plan? G component t).isNone with
    | some t => throw (.misfit (.elementsCannotPassAs array t))
    | none =>
      let dropped ← old.dropParams pos (pos + count)
      let new ← dropped.insertParams pos [array]
      return ⟨stamp, new, .spread h pos count array⟩

/-- Takes an array as last argument and passes its elements as `count` arguments. -/
def asSpreader (G : ClassGraph) (stamp : Stamp) (h : Handle) (array : Ty) (count : Nat) :
    Except Error Handle :=
  if count ≤ h.type.arity then asSpreaderAt G stamp h (h.type.arity - count) array count
  else .error (.misfit (.tooFewParameters h.type count))

/-- Whether the handle collects trailing arguments into `array`. -/
def collectsInto (h : Handle) (array : Ty) : Bool :=
  match h.node with
  | .varargs _ existing _ => existing == array
  | _ => false

/-- The handle as one of variable arity, which collects trailing arguments into `array`. -/
def asVarargsCollector (G : ClassGraph) (stamp : Stamp) (h : Handle) (array : Ty) :
    Except Error Handle :=
  if h.collectsInto array then .ok h
  else
    match h.type.last? with
    | none => .error (.misfit (.noTrailingArray h.type))
    | some last =>
      if array.isArray && G.isAssignable array last then
        .ok ⟨stamp, h.type, .varargs h.asFixedArity array stamp⟩
      else .error (.misfit (.cannotCollectInto array last))

end HandleCalculus.Handle
