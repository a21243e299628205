import HandleCalculus.Machine

/-!
# Invocation

What calling a handle does. `Node.perform` is one step of a call: the work of a node, over the
function `call` by which it calls the handles it holds. A call proper (`Handle.invokeBasic`) looks
the handle's thunk up and runs the entry routine of the variant that the thunk was compiled for
(`Handle.enter`), down to a given depth; the routine refuses a handle of another variant, except
that the two routines which only look at their arguments take any handle.

`invokeExact` checks the arguments first; `invokeAs` and `invokeGeneric` adapt the handle to the
signature of the caller.
-/

set_option autoImplicit false

namespace HandleCalculus

/-- A method body: from the arguments, receiver first, to a value or a thrown object. What it can change
is the store: the slots of instances and classes and the targets of sites. The elements of an array are
no part of that, so a body finds an array as it was made and leaves it so; bodies that write to one
are not among these. -/
abbrev Body := List Value → EStateM Object Store Value

/-- The classes of a program and the bodies of their methods. -/
structure Program where
  graph : ClassGraph
  body : MethodRef → Body

/-- The function by which a node calls the handles it holds. -/
abbrev Caller := Handle → List Value → Run Value

/-! ## Members -/

/-- Runs a method body, which the machine records. -/
def Program.runBody (P : Program) (m : MethodRef) (args : List Value) : Run Value := fun s =>
  let s := { s with calls := s.calls.push ⟨m, args⟩ }
  match P.body m args s.store with
  | .ok v store => .ok v { s with store := store }
  | .error o store => .error (.error (.thrown o)) { s with store := store }

/-- Runs a method, which needs a body. -/
def Program.callMethod (P : Program) (m : MethodRef) (args : List Value) : Run Value :=
  if (P.graph.method m).hasBody then P.runBody m args
  else Run.fail (.resolution (.abstractMethod m))

/-- The receiver among the arguments. -/
def receiver (member : MemberRef) (args : List Value) : Except Error Object :=
  match args with
  | .obj o :: _ => .ok o
  | .null :: _ | [] => .error (.nullReceiver member)
  | v :: _ => .error (.receiver (.notObject v))

/-- Calls a method without dispatch. -/
def Program.callDirect (P : Program) (m : MethodRef) (mode : DirectMode) (args : List Value) :
    Run Value :=
  match mode with
  | .static => P.callMethod m args
  | .special => do
    let _ ← Run.ofExcept (receiver (.method m) args)
    P.callMethod m args
  | .construct => do
    let o ← Run.alloc (·.newInstance P.graph m.cls)
    let _ ← P.callMethod m (.obj o :: args)
    return .obj o

/-- The method that a call reaches on a receiver, unless that is abstract. -/
def ClassGraph.implementation? (G : ClassGraph) (c : ClassId) (m : MethodRef) :
    Option MethodRef :=
  (G.selectMethod? c m).filter fun s => !(G.method s).flags.isAbstract

/-- Calls the method that the receiver's class selects. -/
def Program.callVirtual (P : Program) (m : MethodRef) (dispatch : ClassId) (args : List Value) :
    Run Value := do
  let o ← Run.ofExcept (receiver (.method m) args)
  if !o.isInstance P.graph (.cls dispatch) then
    Run.fail (.receiver (.notInstance o dispatch))
  else
    match P.graph.implementation? o.cls m with
    | some s => P.callMethod s args
    | none => Run.fail (.resolution (.noImplementation m o.cls))

/-- Reads a field, of the receiver unless it is static. Whatever slot access a node carries, the slots
are those of the store: every access there is reads and writes these, and which one it is tells handles
apart and nothing else. -/
def Program.getField (P : Program) (f : FieldRef) (isStatic : Bool) (args : List Value) :
    Run Value :=
  let offset := P.graph.fieldOffset f
  if isStatic then Run.readStore (·.readStatic f.cls offset)
  else do
    let o ← Run.ofExcept (receiver (.field f) args)
    Run.readStore (·.readField o offset)

/-- Writes the last argument to a field, of the receiver unless it is static. -/
def Program.setField (P : Program) (f : FieldRef) (isStatic : Bool) (args : List Value)
    (v : Value) : Run Value := do
  let offset := P.graph.fieldOffset f
  if isStatic then Run.writeStore (·.writeStatic f.cls offset v)
  else
    let o ← Run.ofExcept (receiver (.field f) args)
    Run.writeStore (·.writeField o offset v)
  return .void

/-! ## Arguments -/

/-- The arguments at the places `order` lists, if they all exist. -/
def pick? (args : List Value) : List Nat → Option (List Value)
  | [] => some []
  | i :: is => do
    let v ← args[i]?
    let vs ← pick? args is
    return v :: vs

/-- The elements of the array that is to be spread as `count` arguments; null counts as an empty
array. -/
def spreadElements (count : Nat) (v : Value) : Except Error (List Value) :=
  match v with
  | .null => if count = 0 then .ok [] else .error (.arity count 0)
  | .obj o =>
    match o.elements? with
    | none => .error (.value (.notArray v))
    | some es => if es.length = count then .ok es else .error (.arity count es.length)
  | _ => .error (.value (.notArray v))

/-- Values converted one by one to the types beside them. -/
def coerceElements (G : ClassGraph) : List Value → List Ty → Except Error (List Value)
  | v :: vs, t :: ts =>
    match v.coerce G t with
    | .error e => .error (.conversion e)
    | .ok w =>
      match coerceElements G vs ts with
      | .error e => .error e
      | .ok ws => .ok (w :: ws)
  | _, _ => .ok []

/-- The failed conversion of an argument. The first argument of a handle that dispatches on it is
a bad receiver, unless it is null. -/
def argumentFailure (asReceiver : Bool) (e : ConversionError) : Error :=
  if asReceiver && !e.isNullPointer then .receiver (.conversion e) else .conversion e

/-- Arguments converted one by one, the first as a receiver if so asked. -/
def convertArguments (G : ClassGraph) (asReceiver : Bool) :
    List Value → List Conversion → Except Error (List Value)
  | v :: vs, c :: cs =>
    match c.apply G v with
    | .error e => .error (argumentFailure asReceiver e)
    | .ok w =>
      match convertArguments G false vs cs with
      | .error e => .error e
      | .ok ws => .ok (w :: ws)
  | _, _ => .ok []

/-- Arguments from `pos` on passed through filters. -/
def passFilters (call : Caller) : Nat → List (Option Handle) → List Value → Run (List Value)
  | _, [], args => pure args
  | pos, none :: fs, args => passFilters call (pos + 1) fs args
  | pos, some f :: fs, args =>
    match args[pos]? with
    | none => Run.fault .filterArgs
    | some v => do
      let w ← call f [v]
      passFilters call (pos + 1) fs (args.set pos w)

/-! ## Nodes -/

/-- Whether a handle dispatches on its first argument. -/
def Handle.dispatches (h : Handle) : Bool := h.variant == .virtual

/-- The throwable of an error that a handler for class `c` takes, made now if the error is one of
the runtime. -/
def caught? (G : ClassGraph) (c : ClassId) (e : Error) : Run (Option Object) :=
  match e with
  | .thrown o => pure (if o.isInstance G (.cls c) then some o else none)
  | e =>
    match e.exceptionClass? with
    | some k =>
      if G.isSubclass k c then do
        let o ← Run.alloc (·.newThrowable k (some (e.message G)))
        return some o
      else pure none
    | none => pure none

/-- Answers the first argument. -/
def answerFirst (h : Handle) (args : List Value) : Run Value :=
  match args with
  | v :: _ => pure v
  | [] => Run.fail (.wrongThunk h.type h.variant)

/-- Throws the first argument. -/
def throwFirst (h : Handle) (args : List Value) : Run Value :=
  match args with
  | .obj o :: _ => Run.fail (.thrown o)
  | .null :: _ => Run.fail .throwNull
  | _ => Run.fail (.wrongThunk h.type h.variant)

/-- The work of a handle's own node, over the function by which it calls the handles it holds. -/
def Handle.perform (P : Program) (call : Caller) (h : Handle) (args : List Value) : Run Value :=
  match h.node with
  | .direct m mode => P.callDirect m mode args
  | .virtual m dispatch _ => P.callVirtual m dispatch args
  | .getField f isStatic _ => P.getField f isStatic args
  | .setField f isStatic _ =>
    match args.getLast? with
    | some v => P.setField f isStatic args.dropLast v
    | none => Run.fail (.wrongThunk h.type h.variant)
  | .insert target pos values =>
    if pos ≤ args.length then call target (args.take pos ++ values ++ args.drop pos)
    else Run.fault .insert
  | .permute target reorder =>
    match pick? args reorder with
    | some picked => call target picked
    | none => Run.fault .permute
  | .collect target pos count array =>
    match array.component? with
    | none => Run.fail (.wrongThunk h.type h.variant)
    | some component =>
      if pos + count ≤ args.length then do
        let o ← Run.alloc (·.newArray component ((args.drop pos).take count))
        call target (args.take pos ++ .obj o :: args.drop (pos + count))
      else Run.fault .collect
  | .spread target pos count _ =>
    match args[pos]? with
    | none => Run.fault .spread
    | some v => do
      let elements ← Run.ofExcept (spreadElements count v)
      if pos + count ≤ target.type.arity then
        let spread ← Run.ofExcept
          (coerceElements P.graph elements ((target.type.params.drop pos).take count))
        call target (args.take pos ++ spread ++ args.drop (pos + 1))
      else Run.fault .spread
  | .filterArgs target pos filters => do
    let filtered ← passFilters call pos filters args
    call target filtered
  | .filterReturn target filter => do
    let v ← call target args
    call filter (if target.type.ret = .void then [] else [v])
  | .fold target pos combiner =>
    if pos + combiner.type.arity ≤ args.length then do
      let v ← call combiner ((args.drop pos).take combiner.type.arity)
      if combiner.type.ret = .void then call target args
      else call target (args.take pos ++ v :: args.drop pos)
    else Run.fault .fold
  | .guarded test target fallback =>
    if test.type.arity ≤ args.length then do
      match ← call test (args.take test.type.arity) with
      | .prim (.boolean true) => call target args
      | .prim (.boolean false) => call fallback args
      | v => Run.fail (.value (.guardResult v))
    else Run.fault .guarded
  | .catching target c handler =>
    if 1 ≤ handler.type.arity ∧ handler.type.arity ≤ args.length + 1 then do
      match ← Run.attempt (call target args) with
      | .ok v => return v
      | .error e =>
        match ← caught? P.graph c e with
        | some o => call handler (.obj o :: args.take (handler.type.arity - 1))
        | none => Run.fail e
    else Run.fault .catching
  | .convert target conversions ret => do
    let converted ← Run.ofExcept
      (convertArguments P.graph target.dispatches args conversions)
    let v ← call target converted
    match ret.apply P.graph v with
    | .ok w => return w
    | .error e => Run.fail (.conversion e)
  | .constant v => pure v
  | .identity => answerFirst h args
  | .varargs target _ _ => call target args
  | .invoker site => do
    let target ← Run.readStore (·.getTarget site)
    call target args
  | .unlinked message => Run.fail (.illegalState message)
  | .throwing => throwFirst h args

/-- The entry routine of a variant, applied to a handle of whatever variant. -/
def Handle.enter (P : Program) (call : Caller) (v : Variant) (h : Handle) (args : List Value) :
    Run Value :=
  match v with
  | .identity => answerFirst h args
  | .throwing => throwFirst h args
  | v => if h.variant = v then h.perform P call args else Run.fail (.wrongThunk h.type h.variant)

/-! ## Calls -/

/-- Calls a handle without checking the arguments, through its compiled thunk, to a depth of
`depth` handles at most. -/
def Handle.invokeBasic (P : Program) : Nat → Handle → List Value → Run Value
  | 0, _, _ => throw .exhausted
  | depth + 1, h, args => do
    let thunk ← h.thunk
    h.enter P (Handle.invokeBasic P depth) thunk.key.variant args

/-- Whether each argument fits its parameter, those from `i` on. -/
def checkArguments (G : ClassGraph) (s : Signature) :
    Nat → List Value → List Ty → Except Error Unit
  | i, v :: vs, t :: ts =>
    if v.fits G t then checkArguments G s (i + 1) vs ts else .error (.argument (.mismatch i s v))
  | _, _, _ => .ok ()

/-- Whether the arguments are those that a signature takes. -/
def Signature.check (G : ClassGraph) (s : Signature) (args : List Value) : Except Error Unit :=
  if args.length ≠ s.arity then .error (.argument (.count s.arity s args.length))
  else checkArguments G s 0 args s.params

/-- Calls a handle with arguments that must fit its signature as they are. -/
def Handle.invokeExact (P : Program) (depth : Nat) (h : Handle) (args : List Value) :
    Run Value := do
  Run.ofExcept (h.type.check P.graph args)
  h.invokeBasic P depth args

/-- Calls a handle from a call of another signature. -/
def Handle.invokeAs (P : Program) (depth : Nat) (h : Handle) (caller : Signature)
    (args : List Value) : Run Value :=
  if caller = h.type then h.invokeExact P depth args
  else do
    let adapted ← Run.link (h.asType P.graph caller)
    adapted.invokeExact P depth args

/-- The handle adapted to take and answer references only. -/
def Handle.toGeneric (G : ClassGraph) (h : Handle) (count : Nat) : Link Handle := do
  if count > maxGenericArguments then
    throw (.signature (.tooManyArguments count))
  let generic ← Link.ofExcept (Signature.generic count)
  try h.asType G generic
  catch _ => throw (.argument (.cannotCall h.type count))

/-- Calls a handle through the generic signature: primitives are boxed on the way in and out, and
nothing comes back as null. -/
def Handle.invokeGeneric (P : Program) (depth : Nat) (h : Handle) (args : List Value) :
    Run Value := do
  let adapted ← Run.link (h.toGeneric P.graph args.length)
  adapted.invokeExact P depth (args.map Value.boxed)

end HandleCalculus
