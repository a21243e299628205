import HandleCalculus.Proofs.EquivalentCalls

/-!
# The work of a node as a tree

What a node does is written as a tree (`Work`): it answers, stops, goes on from what a step on the
store answers, or runs a handle or a method body and goes on from the value that this answers. A tree
has no way to go on from a failure. That the work of each node but one is such a tree
(`Handle.perform_eq_work`) is thus what is to be said of failures there: what a tree runs and does not
answer is how the tree ends (`Work.Reaches.stops`), and whatever bodies run are run by what the tree
comes to run (`Work.exists_reaches_of_calls`). The other node is the one that catches.
-/

set_option autoImplicit false

namespace HandleCalculus

/-- The receiver among arguments is the first one. -/
theorem receiver_eq_ok {member : MemberRef} {args : List Value} {o : Object}
    (h : receiver member args = .ok o) : ∃ rest, args = .obj o :: rest := by
  unfold receiver at h
  split at h
  · next rest =>
    obtain rfl := Except.ok.inj h
    exact ⟨rest, rfl⟩
  all_goals cases h

/-! ## Trees -/

/-- What a node can run. -/
inductive Callee where
  | handle (h : Handle)
  | body (m : MethodRef)

/-- Runs a callee, a handle by the function given for that. -/
def Callee.run (P : Program) (call : Caller) : Callee → List Value → Run Value
  | .handle h, args => call h args
  | .body m, args => P.runBody m args

/-- The work of a node. -/
inductive Work : Type 1 where
  | answer (v : Value)
  | stop (s : Stop)
  /-- Go on from what a step on the store answers, if it does not fail. -/
  | effect {α : Type} (f : Store → Except Error (α × Store)) (next : α → Work)
  /-- Run a callee and go on from the value that it answers. -/
  | run (c : Callee) (args : List Value) (next : Value → Work)

namespace Work

variable {α : Type}

/-- Does the work, over the function by which the handles in it are called. -/
def perform (P : Program) (call : Caller) : Work → Run Value
  | answer v => pure v
  | stop s => throw s
  | effect f next => fun m =>
    match f m.store with
    | .ok (a, s) => (next a).perform P call { m with store := s }
    | .error e => .error (.error e) m
  | run c args next => c.run P call args >>= fun v => (next v).perform P call

def fail (e : Error) : Work := stop (.error e)

/-- Goes on from a result of the pure calculus. -/
def ofExcept (x : Except Error α) (next : α → Work) : Work :=
  match x with
  | .ok a => next a
  | .error e => fail e

/-- Goes on from an object that is made. -/
def alloc (f : Store → Object × Store) (next : Object → Work) : Work :=
  effect (fun s => .ok (f s)) next

/-- Goes on from what is read. -/
def read (f : Store → Except Error α) (next : α → Work) : Work :=
  effect (fun s => (f s).map (·, s)) next

/-- Writes and goes on. -/
def write (f : Store → Except Error Store) (next : Work) : Work :=
  effect (fun s => (f s).map ((), ·)) fun _ => next

/-- Calls a handle and answers what it does. -/
def pass (h : Handle) (args : List Value) : Work := run (.handle h) args answer

/-- Runs a method, which needs a body. -/
def method (G : ClassGraph) (m : MethodRef) (args : List Value) (next : Value → Work) : Work :=
  if (G.method m).hasBody then run (.body m) args next
  else fail (.resolution (.abstractMethod m))

/-- Passes arguments from `pos` on through filters and goes on from them. -/
def filter : Nat → List (Option Handle) → List Value → (List Value → Work) → Work
  | _, [], args, next => next args
  | pos, none :: fs, args, next => filter (pos + 1) fs args next
  | pos, some f :: fs, args, next =>
    match args[pos]? with
    | none => stop (.fault .filterArgs)
    | some v => run (.handle f) [v] fun w => filter (pos + 1) fs (args.set pos w) next

end Work

/-- Whether a handle's node is one that catches. -/
def Handle.Catches (h : Handle) : Prop := ∃ target c handler, h.node = .catching target c handler

/-- The work of a handle's node, unless it is one that catches. -/
def Handle.work (G : ClassGraph) (h : Handle) (args : List Value) : Work :=
  match h.node with
  | .direct m .static => .method G m args .answer
  | .direct m .special =>
    .ofExcept (receiver (.method m) args) fun _ => .method G m args .answer
  | .direct m .construct =>
    .alloc (·.newInstance G m.cls) fun o =>
      .method G m (.obj o :: args) fun _ => .answer (.obj o)
  | .virtual m dispatch _ =>
    .ofExcept (receiver (.method m) args) fun o =>
      if !o.isInstance G (.cls dispatch) then .fail (.receiver (.notInstance o dispatch))
      else
        match G.implementation? o.cls m with
        | some s => .method G s args .answer
        | none => .fail (.resolution (.noImplementation m o.cls))
  | .getField f true _ => .read (·.readStatic f.cls (G.fieldOffset f)) .answer
  | .getField f false _ =>
    .ofExcept (receiver (.field f) args) fun o =>
      .read (·.readField o (G.fieldOffset f)) .answer
  | .setField f isStatic _ =>
    match args.getLast?, isStatic with
    | some v, true => .write (·.writeStatic f.cls (G.fieldOffset f) v) (.answer .void)
    | some v, false =>
      .ofExcept (receiver (.field f) args.dropLast) fun o =>
        .write (·.writeField o (G.fieldOffset f) v) (.answer .void)
    | none, _ => .fail (.wrongThunk h.type h.variant)
  | .insert target pos values =>
    if pos ≤ args.length then .pass target (args.take pos ++ values ++ args.drop pos)
    else .stop (.fault .insert)
  | .permute target reorder =>
    match pick? args reorder with
    | some picked => .pass target picked
    | none => .stop (.fault .permute)
  | .collect target pos count array =>
    match array.component? with
    | none => .fail (.wrongThunk h.type h.variant)
    | some component =>
      if pos + count ≤ args.length then
        .alloc (·.newArray component ((args.drop pos).take count)) fun o =>
          .pass target (args.take pos ++ .obj o :: args.drop (pos + count))
      else .stop (.fault .collect)
  | .spread target pos count _ =>
    match args[pos]? with
    | none => .stop (.fault .spread)
    | some v =>
      .ofExcept (spreadElements count v) fun elements =>
        if pos + count ≤ target.type.arity then
          .ofExcept (coerceElements G elements ((target.type.params.drop pos).take count))
            fun spread => .pass target (args.take pos ++ spread ++ args.drop (pos + 1))
        else .stop (.fault .spread)
  | .filterArgs target pos filters => .filter pos filters args (.pass target)
  | .filterReturn target filter =>
    .run (.handle target) args fun v => .pass filter (if target.type.ret = .void then [] else [v])
  | .fold target pos combiner =>
    if pos + combiner.type.arity ≤ args.length then
      .run (.handle combiner) ((args.drop pos).take combiner.type.arity) fun v =>
        if combiner.type.ret = .void then .pass target args
        else .pass target (args.take pos ++ v :: args.drop pos)
    else .stop (.fault .fold)
  | .guarded test target fallback =>
    if test.type.arity ≤ args.length then
      .run (.handle test) (args.take test.type.arity) fun
        | .prim (.boolean true) => .pass target args
        | .prim (.boolean false) => .pass fallback args
        | v => .fail (.value (.guardResult v))
    else .stop (.fault .guarded)
  | .catching .. => .stop (.fault .catching)
  | .convert target conversions ret =>
    .ofExcept (convertArguments G target.dispatches args conversions) fun converted =>
      .run (.handle target) converted fun v =>
        match ret.apply G v with
        | .ok w => .answer w
        | .error e => .fail (.conversion e)
  | .constant v => .answer v
  | .identity =>
    match args with
    | v :: _ => .answer v
    | [] => .fail (.wrongThunk h.type h.variant)
  | .varargs target _ _ => .pass target args
  | .invoker site => .read (·.getTarget site) (.pass · args)
  | .unlinked message => .fail (.illegalState message)
  | .throwing =>
    match args with
    | .obj o :: _ => .fail (.thrown o)
    | .null :: _ => .fail .throwNull
    | _ => .fail (.wrongThunk h.type h.variant)

/-! ## Nodes as trees -/

namespace Work

variable {α : Type} (P : Program) (call : Caller)

theorem perform_ofExcept (x : Except Error α) (next : α → Work) :
    (ofExcept x next).perform P call = Run.ofExcept x >>= fun a => (next a).perform P call := by
  cases x <;> rfl

theorem perform_alloc (f : Store → Object × Store) (next : Object → Work) :
    (alloc f next).perform P call = Run.alloc f >>= fun o => (next o).perform P call := rfl

theorem perform_read (f : Store → Except Error α) (next : α → Work) :
    (read f next).perform P call = Run.readStore f >>= fun a => (next a).perform P call := by
  funext m
  show _ = EStateM.bind (Run.readStore f) _ m
  simp only [read, perform, EStateM.bind, Run.readStore]
  cases f m.store <;> rfl

theorem perform_read_answer (f : Store → Except Error Value) :
    (read f answer).perform P call = Run.readStore f :=
  (perform_read P call f answer).trans (bind_pure _)

theorem perform_write (f : Store → Except Error Store) (next : Work) :
    (write f next).perform P call = Run.writeStore f >>= fun _ => next.perform P call := by
  funext m
  show _ = EStateM.bind (Run.writeStore f) _ m
  simp only [write, perform, EStateM.bind, Run.writeStore]
  cases f m.store <;> rfl

/-- To answer what is run answers is to run it. -/
theorem perform_run_answer (c : Callee) (args : List Value) :
    (run c args answer).perform P call = c.run P call args :=
  bind_pure (c.run P call args)

theorem perform_pass (h : Handle) (args : List Value) : (pass h args).perform P call = call h args :=
  perform_run_answer P call (.handle h) args

theorem perform_method (m : MethodRef) (args : List Value) (next : Value → Work) :
    (method P.graph m args next).perform P call =
      P.callMethod m args >>= fun v => (next v).perform P call := by
  unfold method Program.callMethod
  split <;> rfl

theorem perform_method_answer (m : MethodRef) (args : List Value) :
    (method P.graph m args answer).perform P call = P.callMethod m args :=
  (perform_method P call m args answer).trans (bind_pure _)

theorem perform_filter (pos : Nat) (filters : List (Option Handle)) (args : List Value)
    (next : List Value → Work) :
    (filter pos filters args next).perform P call =
      passFilters call pos filters args >>= fun vs => (next vs).perform P call := by
  induction filters generalizing pos args with
  | nil => rfl
  | cons f fs ih =>
    cases f with
    | none => exact ih (pos + 1) args
    | some f =>
      unfold filter passFilters
      cases args[pos]? with
      | none => rfl
      | some v =>
        show (call f [v] >>= fun w => _) = (call f [v] >>= fun w => _) >>= _
        rw [bind_assoc]
        exact bind_congr fun w => ih (pos + 1) (args.set pos w)

end Work

/-- **The work of a node is a tree**, unless the node is one that catches. -/
theorem Handle.perform_eq_work (P : Program) (call : Caller) {h : Handle} (hnode : ¬ h.Catches)
    (args : List Value) :
    h.perform P call args = (h.work P.graph args).perform P call := by
  obtain ⟨stamp, type, node⟩ := h
  unfold perform work
  cases node with
  | direct m mode =>
    cases mode with
    | static => exact (Work.perform_method_answer P call m args).symm
    | special =>
      simp only [Work.perform_ofExcept, Work.perform_method_answer]
      rfl
    | construct =>
      rw [Work.perform_alloc]
      simp only [Work.perform_method]
      rfl
  | virtual m dispatch interface =>
    simp only [Program.callVirtual, Work.perform_ofExcept]
    refine bind_congr fun o => ?_
    split
    · rfl
    · cases P.graph.implementation? o.cls m with
      | some s => exact (Work.perform_method_answer P call s args).symm
      | none => rfl
  | getField f isStatic =>
    cases isStatic with
    | true =>
      dsimp only
      rw [Work.perform_read_answer]
      rfl
    | false =>
      simp only [Work.perform_ofExcept, Work.perform_read_answer]
      rfl
  | setField f isStatic =>
    dsimp only
    cases args.getLast? with
    | none => rfl
    | some v =>
      cases isStatic with
      | true =>
        simp only [Work.perform_write]
        rfl
      | false =>
        simp only [Program.setField, Work.perform_ofExcept, Work.perform_write]
        rfl
  | insert target pos values =>
    dsimp only
    split
    · exact (Work.perform_pass P call target _).symm
    · rfl
  | permute target reorder =>
    dsimp only
    cases pick? args reorder with
    | some picked => exact (Work.perform_pass P call target picked).symm
    | none => rfl
  | collect target pos count array =>
    dsimp only
    cases array.component? with
    | none => rfl
    | some component =>
      dsimp only
      split
      · rw [Work.perform_alloc]
        simp only [Work.perform_pass]
      · rfl
  | spread target pos count array =>
    dsimp only
    cases args[pos]? with
    | none => rfl
    | some v =>
      simp only [Work.perform_ofExcept]
      refine bind_congr fun elements => ?_
      split
      · simp only [Work.perform_ofExcept, Work.perform_pass]
      · rfl
  | filterArgs target pos filters => simp only [Work.perform_filter, Work.perform_pass]
  | filterReturn target filter =>
    exact bind_congr fun v => (Work.perform_pass P call filter _).symm
  | fold target pos combiner =>
    dsimp only
    split
    · refine bind_congr fun v => ?_
      split
      · exact (Work.perform_pass P call target _).symm
      · exact (Work.perform_pass P call target _).symm
    · rfl
  | guarded test target fallback =>
    dsimp only
    split
    · refine bind_congr fun v => ?_
      cases v with
      | prim s =>
        cases s with
        | boolean b =>
          cases b with
          | true => exact (Work.perform_pass P call target args).symm
          | false => exact (Work.perform_pass P call fallback args).symm
        | _ => rfl
      | _ => rfl
    · rfl
  | catching target c handler => exact absurd ⟨target, c, handler, rfl⟩ hnode
  | convert target conversions ret =>
    simp only [Work.perform_ofExcept]
    refine bind_congr fun converted => bind_congr fun v => ?_
    dsimp only
    cases ret.apply P.graph v <;> rfl
  | constant v => rfl
  | identity => cases args <;> rfl
  | varargs target array cell => exact (Work.perform_pass P call target args).symm
  | invoker site => simp only [Work.perform_read, Work.perform_pass]
  | unlinked message => rfl
  | throwing =>
    cases args with
    | nil => rfl
    | cons v vs => cases v <;> rfl

/-! ## What the trees of nodes are made of -/

/-- The steps on the store that nodes take: they make instances and arrays, read and write slots, and
read targets. -/
inductive Store.Primitive : {α : Type} → (Store → Except Error (α × Store)) → Prop where
  | newInstance (G : ClassGraph) (c : ClassId) : Primitive fun s => .ok (s.newInstance G c)
  | newArray (component : Ty) (elems : List Value) : Primitive fun s => .ok (s.newArray component elems)
  | readStatic (c : ClassId) (offset : Nat) : Primitive fun s => (s.readStatic c offset).map (·, s)
  | readField (o : Object) (offset : Nat) : Primitive fun s => (s.readField o offset).map (·, s)
  | getTarget (site : SiteId) : Primitive fun s => (s.getTarget site).map (·, s)
  | writeStatic (c : ClassId) (offset : Nat) (v : Value) :
    Primitive fun s => (s.writeStatic c offset v).map ((), ·)
  | writeField (o : Object) (offset : Nat) (v : Value) :
    Primitive fun s => (s.writeField o offset v).map ((), ·)

namespace Work

variable {α : Type}

/-- Whether some work takes no other steps on the store than those, and does not stop for want of
depth. -/
def Plain : Work → Prop
  | answer _ => True
  | stop s => s ≠ .exhausted
  | effect f next => Store.Primitive f ∧ ∀ a, (next a).Plain
  | run _ _ next => ∀ v, (next v).Plain

theorem plain_fail (e : Error) : (fail e).Plain := nofun

theorem plain_ofExcept {x : Except Error α} {next : α → Work} (h : ∀ a, (next a).Plain) :
    (ofExcept x next).Plain := by
  cases x with
  | ok a => exact h a
  | error e => exact plain_fail e

theorem plain_pass (h : Handle) (args : List Value) : (pass h args).Plain := fun _ => trivial

theorem plain_method {G : ClassGraph} {m : MethodRef} {args : List Value} {next : Value → Work}
    (h : ∀ v, (next v).Plain) : (method G m args next).Plain := by
  unfold method
  split
  · exact h
  · exact plain_fail _

theorem plain_filter {next : List Value → Work} (h : ∀ vs, (next vs).Plain) (pos : Nat)
    (filters : List (Option Handle)) (args : List Value) : (filter pos filters args next).Plain := by
  induction filters generalizing pos args with
  | nil => exact h args
  | cons f fs ih =>
    cases f with
    | none => exact ih (pos + 1) args
    | some f =>
      unfold filter
      split
      · exact nofun
      · exact fun w => ih (pos + 1) _

end Work

/-- The work of every node is plain. -/
theorem Handle.plain_work (G : ClassGraph) (h : Handle) (args : List Value) :
    (h.work G args).Plain := by
  obtain ⟨stamp, type, node⟩ := h
  unfold work
  cases node with
  | direct m mode =>
    cases mode with
    | static => exact Work.plain_method fun _ => trivial
    | special => exact Work.plain_ofExcept fun _ => Work.plain_method fun _ => trivial
    | construct => exact ⟨.newInstance G m.cls, fun _ => Work.plain_method fun _ => trivial⟩
  | virtual m dispatch interface =>
    refine Work.plain_ofExcept fun o => ?_
    split
    · exact Work.plain_fail _
    · split
      · exact Work.plain_method fun _ => trivial
      · exact Work.plain_fail _
  | getField f isStatic =>
    cases isStatic with
    | true => exact ⟨.readStatic _ _, fun _ => trivial⟩
    | false => exact Work.plain_ofExcept fun o => ⟨.readField o _, fun _ => trivial⟩
  | setField f isStatic =>
    dsimp only
    split
    · exact ⟨.writeStatic _ _ _, fun _ => trivial⟩
    · exact Work.plain_ofExcept fun o => ⟨.writeField o _ _, fun _ => trivial⟩
    · exact Work.plain_fail _
  | insert target pos values =>
    dsimp only
    split
    · exact Work.plain_pass target _
    · exact nofun
  | permute target reorder =>
    dsimp only
    split
    · exact Work.plain_pass target _
    · exact nofun
  | collect target pos count array =>
    dsimp only
    split
    · exact Work.plain_fail _
    · split
      · exact ⟨.newArray _ _, fun _ => Work.plain_pass target _⟩
      · exact nofun
  | spread target pos count array =>
    dsimp only
    split
    · exact nofun
    · refine Work.plain_ofExcept fun elements => ?_
      split
      · exact Work.plain_ofExcept fun _ => Work.plain_pass target _
      · exact nofun
  | filterArgs target pos filters =>
    exact Work.plain_filter (fun _ => Work.plain_pass target _) pos filters args
  | filterReturn target filter => exact fun _ => Work.plain_pass filter _
  | fold target pos combiner =>
    dsimp only
    split
    · intro v
      split
      · exact Work.plain_pass target _
      · exact Work.plain_pass target _
    · exact nofun
  | guarded test target fallback =>
    dsimp only
    split
    · intro v
      dsimp only
      split
      · exact Work.plain_pass target args
      · exact Work.plain_pass fallback args
      · exact Work.plain_fail _
    · exact nofun
  | catching target c handler => exact nofun
  | convert target conversions ret =>
    refine Work.plain_ofExcept fun converted v => ?_
    dsimp only
    split
    · exact trivial
    · exact Work.plain_fail _
  | constant v => exact trivial
  | identity =>
    dsimp only
    split
    · exact trivial
    · exact Work.plain_fail _
  | varargs target array cell => exact Work.plain_pass target args
  | invoker site => exact ⟨.getTarget site, fun _ => Work.plain_pass _ args⟩
  | unlinked message => exact Work.plain_fail _
  | throwing =>
    dsimp only
    split <;> exact Work.plain_fail _

/-! ## What a tree comes to run -/

/-- Whether the work, started on the first machine, comes to run the callee on the arguments, on the
second machine. -/
inductive Work.Reaches (P : Program) (call : Caller) :
    Work → Machine → Callee → List Value → Machine → Prop where
  | here (c : Callee) (args : List Value) (next : Value → Work) (m : Machine) :
    Reaches P call (.run c args next) m c args m
  | effect {α : Type} {f : Store → Except Error (α × Store)} {next : α → Work} {m n : Machine}
      {a : α} {s : Store} {c : Callee} {args : List Value} (step : f m.store = .ok (a, s))
      (rest : Reaches P call (next a) { m with store := s } c args n) :
    Reaches P call (.effect f next) m c args n
  | later {d : Callee} {vs : List Value} {next : Value → Work} {m m' n : Machine} {v : Value}
      {c : Callee} {args : List Value} (before : d.run P call vs m = .ok v m')
      (rest : Reaches P call (next v) m' c args n) :
    Reaches P call (.run d vs next) m c args n

section Reaches

variable {P : Program} {call : Caller}

/-- What a tree comes to run and does not answer is how the tree ends. -/
theorem Work.Reaches.stops {w : Work} {m n n' : Machine} {c : Callee} {args : List Value} {s : Stop}
    (h : w.Reaches P call m c args n) (hrun : c.run P call args n = .error s n') :
    w.perform P call m = .error s n' := by
  -- on the way that the tree takes to it
  induction h with
  | here c args next m => exact bind_eq_of_error hrun _
  | effect step rest ih => simp only [perform, step, ih hrun]
  | later before rest ih => exact (bind_eq_of_ok before _).trans (ih hrun)

end Reaches

/-! ## The record of bodies run -/

/-- Whether the bodies recorded on a machine are recorded on the other, as the first ones. -/
def Machine.Precedes (m m' : Machine) : Prop := m.calls.toList <+: m'.calls.toList

namespace Machine.Precedes

variable {l m n : Machine}

theorem of_eq (h : n.calls = m.calls) : m.Precedes n :=
  ⟨[], by rw [List.append_nil, h]⟩

theorem trans (h : l.Precedes m) (h' : m.Precedes n) : l.Precedes n := List.IsPrefix.trans h h'

theorem getElem? (h : m.Precedes n) {i : Nat} (hi : i < m.calls.size) :
    n.calls[i]? = m.calls[i]? := by
  obtain ⟨t, ht⟩ := h
  rw [← Array.getElem?_toList, ← Array.getElem?_toList, ← ht]
  exact List.getElem?_append_left hi

end Machine.Precedes

namespace Run

variable {α β : Type} {x : Run α} {m m' : Machine} {a : α} {e : Stop}

theorem leaves_of_ok (h : x m = .ok a m') : x.leaves m = m' := by rw [leaves, h]

theorem leaves_of_error (h : x m = .error e m') : x.leaves m = m' := by rw [leaves, h]

theorem leaves_bind_of_ok (h : x m = .ok a m') (f : α → Run β) :
    (x >>= f).leaves m = (f a).leaves m' := by
  unfold leaves
  rw [bind_eq_of_ok h]

theorem leaves_bind_of_error (h : x m = .error e m') (f : α → Run β) :
    (x >>= f).leaves m = x.leaves m := by
  unfold leaves
  rw [bind_eq_of_error h, h]

/-- Whether a computation keeps the record of bodies run, and adds to it at most. -/
def Records (x : Run α) : Prop := ∀ m : Machine, m.Precedes (x.leaves m)

theorem Records.bind {f : α → Run β} (hx : x.Records) (hf : ∀ a, (f a).Records) :
    (x >>= f).Records := by
  intro m
  have hm := hx m
  cases hxm : x m with
  | ok a m' =>
    rw [leaves_bind_of_ok hxm]
    rw [leaves_of_ok hxm] at hm
    exact hm.trans (hf a m')
  | error e m' =>
    rw [leaves_bind_of_error hxm]
    exact hm

end Run

/-- A body that is run is recorded, however it ends. -/
theorem Program.calls_runBody (P : Program) (m : MethodRef) (args : List Value) (n : Machine) :
    ((P.runBody m args).leaves n).calls = n.calls.push ⟨m, args⟩ := by
  simp only [Run.leaves, runBody]
  cases P.body m args n.store <;> rfl

section Record

variable {P : Program} {call : Caller} (hcall : ∀ h args, (call h args).Records)

include hcall

theorem Callee.records_run (c : Callee) (args : List Value) : (c.run P call args).Records := by
  cases c with
  | handle h => exact hcall h args
  | body m =>
    intro n
    refine ⟨[⟨m, args⟩], ?_⟩
    show _ = ((P.runBody m args).leaves n).calls.toList
    rw [P.calls_runBody, Array.toList_push]

theorem Work.records_perform (w : Work) : (w.perform P call).Records := by
  induction w with
  | answer v => exact fun m => .of_eq rfl
  | stop s => exact fun m => .of_eq rfl
  | effect f next ih =>
    intro m
    unfold Run.leaves perform
    cases hf : f m.store with
    | ok p => exact ih p.1 { m with store := p.2 }
    | error e => exact .of_eq rfl
  | run c args next ih => exact .bind (c.records_run hcall args) ih

/-- Every body that runs while a tree is at work is run by something that the tree comes to run. -/
theorem Work.exists_reaches_of_calls {w : Work} {m : Machine} {i : Nat} {k : Call}
    (hi : m.calls.size ≤ i) (hk : ((w.perform P call).leaves m).calls[i]? = some k) :
    ∃ c args n, w.Reaches P call m c args n ∧ n.calls.size ≤ i ∧
      ((c.run P call args).leaves n).calls[i]? = some k := by
  have hnone : ∀ {m : Machine}, m.calls.size ≤ i → m.calls[i]? ≠ some k := by
    intro m hi
    rw [Array.getElem?_eq_none hi]
    exact nofun
  induction w generalizing m with
  | answer v => exact absurd hk (hnone hi)
  | stop s => exact absurd hk (hnone hi)
  | effect f next ih =>
    unfold Run.leaves perform at hk
    cases hf : f m.store with
    | ok p =>
      rw [hf] at hk
      obtain ⟨c, args, n, hreach, hn⟩ := ih p.1 (m := { m with store := p.2 }) hi hk
      exact ⟨c, args, n, .effect hf hreach, hn⟩
    | error e =>
      rw [hf] at hk
      exact absurd hk (hnone hi)
  | run c args next ih =>
    have hk : ((c.run P call args >>= fun v => (next v).perform P call).leaves m).calls[i]? =
      some k := hk
    cases hrun : c.run P call args m with
    | error s m' =>
      rw [Run.leaves_bind_of_error hrun] at hk
      exact ⟨c, args, m, .here c args next m, hi, hk⟩
    | ok v m' =>
      rw [Run.leaves_bind_of_ok hrun] at hk
      by_cases hi' : m'.calls.size ≤ i
      · -- it has run after the callee had answered
        obtain ⟨d, vs, n, hreach, hn⟩ := ih v hi' hk
        exact ⟨d, vs, n, .later hrun hreach, hn⟩
      · refine ⟨c, args, m, .here c args next m, hi, ?_⟩
        have hrecords := (next v).records_perform (P := P) hcall m'
        rw [Run.leaves_of_ok hrun, ← hrecords.getElem? (Nat.lt_of_not_le hi'), hk]

end Record

end HandleCalculus
