import HandleCalculus.Proofs.RunTyping

/-!
# Calls of typed handles

What a node does with the arguments that it takes: each handle that it holds is called with arguments
that that one takes, and the node's own result is of its type. There is one lemma for each kind of
node, over the function by which the node calls what it holds.
-/

set_option autoImplicit false

namespace HandleCalculus

/-! ## Arguments that are taken -/

/-- Whether a node of the parameters takes the arguments: as many, and each of its type. A node that
calls a method on its first argument takes any reference there, which the call looks at itself. -/
def Node.takes (G : ClassGraph) (n : Node Handle) (ts : List Ty) (args : List Value) : Bool :=
  match n.receives, args, ts with
  | true, v :: vs, _ :: ts => v.isReference && Value.fitAll G vs ts
  | _, vs, ts => Value.fitAll G vs ts

/-- Whether a handle takes the arguments. -/
def Handle.takes (G : ClassGraph) (h : Handle) (args : List Value) : Bool :=
  h.node.takes G h.type.params args

section Takes

variable {G : ClassGraph} {W : Extent} {n : Node Handle} {ts : List Ty} {args : List Value}

theorem Node.takes_of_not_receives (hn : n.receives = false) :
    n.takes G ts args = Value.fitAll G args ts := by
  simp [takes, hn]

theorem Node.takes_cons (hn : n.receives = true) {t : Ty} {v : Value} :
    n.takes G (t :: ts) (v :: args) = (v.isReference && Value.fitAll G args ts) := by
  simp [takes, hn]

/-- Of a typed node that calls a method on its first argument, that argument is a reference. -/
theorem Node.Typed.of_receives {p : Descriptor} (hp : Node.Typed G W n p) (hn : n.receives = true) :
    ∃ r ts, p.params = r :: ts ∧ r.isReference = true := by
  cases hp <;> first
    | exact ⟨_, _, rfl, ‹_›⟩
    | cases hn

/-- What is taken by a view of a node is taken by the node. -/
theorem Node.takes_of_sub {p q : Descriptor} (hp : Node.Typed G W n p) (hsub : p.Sub G q)
    (h : n.takes G q.params args = true) : n.takes G p.params args = true := by
  -- a node that looks at its receiver itself does not care how the view types it
  cases hn : n.receives with
  | false =>
    rw [takes_of_not_receives hn] at h ⊢
    exact Value.fitAll_of_isAssignable h hsub.params
  | true =>
    obtain ⟨r, ts, hparams, -⟩ := hp.of_receives hn
    have hall := hsub.params
    rw [hparams] at hall ⊢
    cases args with
    | nil =>
      have hlength := Value.length_eq_of_fitAll (by simpa [takes, hn] using h)
      rw [← hall.length_eq] at hlength
      cases hlength
    | cons v vs =>
      generalize q.params = us at h hall
      cases hall with
      | cons _ htail =>
        rw [takes_cons hn, Bool.and_eq_true] at h ⊢
        exact ⟨h.1, Value.fitAll_of_isAssignable h.2 htail⟩

/-- Arguments that fit the signature are taken. -/
theorem Handle.Typed.takes_of_fitAll {h : Handle} (ht : h.Typed G W)
    (hargs : Value.fitAll G args h.type.params = true) : h.takes G args = true := by
  obtain ⟨hnode, hsub⟩ := ht
  unfold Handle.takes
  cases hn : h.node.receives with
  | false =>
    rw [Node.takes_of_not_receives hn]
    exact hargs
  | true =>
    obtain ⟨r, ts, hparams, hr⟩ := hnode.of_receives hn
    have hall := hsub.params
    rw [hparams] at hall
    have hparams' : h.type.params = h.type.descriptor.params := rfl
    rw [hparams'] at hargs ⊢
    generalize h.type.descriptor.params = us at hall hargs
    cases hall with
    | cons hfirst htail =>
      cases args with
      | nil => cases hargs
      | cons v vs =>
        rw [Value.fitAll, Bool.and_eq_true] at hargs
        rw [Node.takes_cons hn, Bool.and_eq_true]
        have hreference := (ClassGraph.isReference_of_isAssignable hfirst).trans hr
        exact ⟨Value.isReference_of_fits hreference hargs.1, hargs.2⟩

end Takes

/-! ## Calls under watch -/

/-- A caller that stops with a fault if a handle is called with arguments that it does not take,
answers what is not of its type, or fails with an internal error. -/
def Caller.watched (G : ClassGraph) (call : Caller) : Caller := fun h args m =>
  if h.takes G args then
    match call h args m with
    | .ok v m => if v.isResultOf G h.type.ret then .ok v m else .error (.fault h.variant) m
    | .error (.error e) m =>
      if e.isInternal then .error (.fault h.variant) m else .error (.error e) m
    | .error s m => .error s m
  else .error (.fault h.variant) m

/-- One step of a call: the work of a handle, through its thunk, over the function by which it calls the
handles it holds. -/
def Handle.invokeVia (P : Program) (call : Caller) : Caller := fun h args => do
  let thunk ← h.thunk
  h.enter P call thunk.key.variant args

theorem Handle.invokeBasic_succ (P : Program) (depth : Nat) :
    Handle.invokeBasic P (depth + 1) = Handle.invokeVia P (Handle.invokeBasic P depth) := rfl

/-- The call of a handle with every call on the way under watch. -/
def Handle.invokeWatched (P : Program) : Nat → Caller
  | 0 => fun _ _ => throw .exhausted
  | depth + 1 => Caller.watched P.graph (Handle.invokeVia P (Handle.invokeWatched P depth))

/-- Whether two callers do the same with typed handles that take the arguments, and it goes well, from
the extent on. -/
def Caller.Sound (G : ClassGraph) (W : Extent) (call call' : Caller) : Prop :=
  ∀ W' : Extent, W.Grows W' → ∀ (h : Handle) (args : List Value), h.Typed G W' →
    h.takes G args = true → Value.AllLive W'.classes args →
    Run.Sound G W' (call h args) (call' h args) (Value.Answers G h.type.ret)

/-- The same of arguments that fit the signature, as all nodes but one pass them on. -/
def Caller.Serves (G : ClassGraph) (W : Extent) (call call' : Caller) : Prop :=
  ∀ W' : Extent, W.Grows W' → ∀ (h : Handle) (args : List Value), h.Typed G W' →
    Value.fitAll G args h.type.params = true → Value.AllLive W'.classes args →
    Run.Sound G W' (call h args) (call' h args) (Value.Answers G h.type.ret)

namespace Caller

variable {G : ClassGraph} {W W' : Extent} {call call' : Caller}

theorem Serves.grow (hcall : Serves G W call call') (hW : W.Grows W') : Serves G W' call call' :=
  fun _ hW' => hcall _ (hW.trans hW')

/-- A typed handle called with arguments that fit its signature. -/
theorem Serves.run (hcall : Serves G W call call') {h : Handle} {args : List Value}
    (ht : h.Typed G W) (hargs : Value.fitAll G args h.type.params = true)
    (hlive : Value.AllLive W.classes args) :
    Run.Sound G W (call h args) (call' h args) (Value.Answers G h.type.ret) :=
  hcall W (.refl W) h args ht hargs hlive

theorem Sound.serves (hcall : Sound G W call call') : Serves G W call call' :=
  fun W' hW h args ht hargs hlive => hcall W' hW h args ht (ht.takes_of_fitAll hargs) hlive

theorem Sound.grow (hcall : Sound G W call call') (hW : W.Grows W') : Sound G W' call call' :=
  fun _ hW' => hcall _ (hW.trans hW')

theorem Sound.run (hcall : Sound G W call call') {h : Handle} {args : List Value}
    (ht : h.Typed G W) (hargs : Value.fitAll G args h.type.params = true)
    (hlive : Value.AllLive W.classes args) :
    Run.Sound G W (call h args) (call' h args) (Value.Answers G h.type.ret) :=
  hcall.serves.run ht hargs hlive

/-- A call that goes well goes on when it is watched. -/
theorem sound_watched {h : Handle} {args : List Value} (htakes : h.takes G args = true)
    (hcall : Run.Sound G W (call h args) (call' h args) (Value.Answers G h.type.ret)) :
    Run.Sound G W (call h args) (watched G call' h args) (Value.Answers G h.type.ret) := by
  intro m hm
  obtain ⟨hsame, hends⟩ := hcall m hm
  refine ⟨?_, hends⟩
  unfold watched
  rw [if_pos htakes, hsame]
  generalize call h args m = r at hends
  cases r with
  | ok v m' =>
    obtain ⟨W', -, -, hv⟩ := hends
    exact if_pos hv.result
  | error e m' =>
    cases e with
    | error e =>
      obtain ⟨W', -, -, he⟩ := hends
      exact if_neg (by simp [he.internal])
    | fault v => exact hends.elim
    | exhausted => rfl

end Caller

/-! ## Method bodies -/

/-- Whether the arguments fit the declared parameters of a method, after a receiver or without. -/
def ClassGraph.TakesArguments (G : ClassGraph) (m : MethodRef) (args : List Value) : Prop :=
  Value.fitAll G args (G.method m).desc.params = true ∨ ∃ (o : Object) (rest : List Value),
    args = .obj o :: rest ∧ Value.fitAll G rest (G.method m).desc.params = true

/-- Whether the method bodies keep to their declarations. Run on live arguments that fit, in a store
whose slots are well typed, a body answers a live value of the declared type, and the slots are well
typed again; or it throws. What it may do to call sites is to add some and to retarget them, to the
handles listed. -/
structure Program.Honest (P : Program) (hs : List Handle) : Prop where
  answers : ∀ (m : MethodRef) (args : List Value) (s s' : Store) (v : Value),
    P.graph.TakesArguments m args → Value.AllLive s.live args → s.Holds P.graph →
    P.body m args s = .ok v s' →
      v.isResultOf P.graph (P.graph.method m).desc.ret = true ∧ v.Lives s'.live ∧
        s.Becomes P.graph hs s'
  throws : ∀ (m : MethodRef) (args : List Value) (s s' : Store) (o : Object),
    P.graph.TakesArguments m args → Value.AllLive s.live args → s.Holds P.graph →
    P.body m args s = .error o s' → o.Lives s'.live ∧ s.Becomes P.graph hs s'

section Members

variable {P : Program} {W : Extent} {hs : List Handle}

theorem Program.sound_callMethod (hP : P.Honest hs) (hhs : ∀ h ∈ hs, h.Typed P.graph W)
    {m : MethodRef} {args : List Value} (hargs : P.graph.TakesArguments m args)
    (hlive : Value.AllLive W.classes args) :
    Run.Sound P.graph W (P.callMethod m args) (P.callMethod m args)
      (Value.Answers P.graph (P.graph.method m).desc.ret) := by
  unfold callMethod
  split
  · intro s hs'
    refine ⟨rfl, ?_⟩
    -- the call is recorded first, which changes nothing that typing is about
    have hcalls : ({ s with calls := s.calls.push ⟨m, args⟩ } : Machine).Typed P.graph W :=
      ⟨hs'.store, hs'.cells, hs'.thunks, hs'.collectors, hs'.members⟩
    have hargsLive : Value.AllLive s.store.live args := by
      rw [hs'.store.live_eq]
      exact hlive
    unfold runBody
    dsimp only
    cases hbody : P.body m args s.store with
    | ok v store =>
      obtain ⟨hv, hvlive, hbecomes⟩ :=
        hP.answers m args s.store store v hargs hargsLive hs'.store.holds hbody
      obtain ⟨hW, hstore⟩ := hs'.store.becomes hbecomes hhs
      exact ⟨_, hW, hcalls.withStore hW hstore, hv, hvlive⟩
    | error o store =>
      obtain ⟨holive, hbecomes⟩ :=
        hP.throws m args s.store store o hargs hargsLive hs'.store.holds hbody
      obtain ⟨hW, hstore⟩ := hs'.store.becomes hbecomes hhs
      refine ⟨_, hW, hcalls.withStore hW hstore, rfl, fun o' ho => ?_⟩
      obtain rfl := Error.thrown.inj ho
      exact holive
  · exact .fail (Error.safe_of_isPlain rfl)

/-- The receiver is the first argument. -/
theorem sound_receiver {G : ClassGraph} (member : MemberRef) (args : List Value) :
    Run.Sound G W (Run.ofExcept (receiver member args)) (Run.ofExcept (receiver member args))
      (fun _ o => ∃ rest, args = .obj o :: rest) := by
  refine .ofExcept (fun o ho => ?_) (fun e he => ?_)
  · unfold receiver at ho
    split at ho
    · obtain rfl := Except.ok.inj ho
      exact ⟨_, rfl⟩
    · cases ho
    · cases ho
    · cases ho
  · unfold receiver at he
    split at he
    · cases he
    all_goals
      obtain rfl := Except.error.inj he
      exact Error.safe_of_isPlain rfl

theorem Program.sound_callDirect (hP : P.Honest hs) (hhs : ∀ h ∈ hs, h.Typed P.graph W)
    {m : MethodRef} {mode : DirectMode} {p : Descriptor} {args : List Value}
    (hp : Node.Typed P.graph W (.direct m mode) p)
    (htakes : Node.takes P.graph (.direct m mode) p.params args = true)
    (hlive : Value.AllLive W.classes args) :
    Run.Sound P.graph W (P.callDirect m mode args) (P.callDirect m mode args)
      (Value.Answers P.graph p.ret) := by
  cases hp with
  | static =>
    rw [Node.takes_of_not_receives rfl] at htakes
    exact P.sound_callMethod hP hhs (.inl htakes) hlive
  | special =>
    refine .bind (sound_receiver (.method m) args) fun W' o hW ho => ?_
    obtain ⟨rest, rfl⟩ := ho
    rw [Node.takes_cons rfl, Bool.and_eq_true] at htakes
    have hlive' : Value.AllLive W'.classes (.obj o :: rest) := hlive.mono hW.classes
    exact P.sound_callMethod hP (fun h hh => (hhs h hh).mono hW)
      (.inr ⟨o, rest, rfl, htakes.2⟩) hlive'
  | construct =>
    rw [Node.takes_of_not_receives rfl] at htakes
    -- the instance is live as soon as it has been made
    refine .bind (Q := fun W' o => o.Lives W'.classes ∧ o.runtimeType = .cls m.cls)
      (.alloc (fun s hs' => ?_) fun s W' hs' _ hclasses => ?_) fun W' o hW ⟨ho, hcls⟩ => ?_
    · have hgrows : s.live <+: (s.newInstance P.graph m.cls).2.live := by
        rw [Store.Holds.live_newInstance]
        exact List.prefix_append _ _
      exact .of_sites (hs'.holds.newInstance m.cls).1 hgrows rfl
    · rw [hclasses]
      exact ⟨(hs'.holds.newInstance m.cls).2, rfl⟩
    · have hargs : Value.AllLive W'.classes (.obj o :: args) := ⟨ho, hlive.mono hW.classes⟩
      refine .bind (P.sound_callMethod hP (fun h hh => (hhs h hh).mono hW)
        (.inr ⟨o, args, rfl, htakes⟩) hargs) fun W'' v hW' _ => ?_
      refine .pure ⟨?_, ho.mono hW'.classes⟩
      exact Value.isResultOf_of_fits (Value.fits_of_runtimeType hcls rfl)

/-- The method that the receiver's class selects is declared like the one that is called. -/
theorem ClassGraph.desc_of_implementation? {G : ClassGraph} (hG : G.MembersNumbered) {c : ClassId}
    {m s : MethodRef} (h : G.implementation? c m = some s) :
    (G.method s).desc = (G.method m).desc := by
  obtain ⟨hselect, -⟩ := Option.filter_eq_some_iff.1 h
  have hhere : ∀ {k : ClassId}, G.methodHere? k (G.method m).name (G.method m).desc = some s →
      (G.method s).desc = (G.method m).desc := by
    intro k hk
    exact (methodHere?_eq_some hG.methods hk).2.2.2
  unfold selectMethod? at hselect
  split at hselect
  · obtain rfl := Option.some.inj hselect
    rfl
  · simp only [Option.orElse_eq_orElse, Option.orElse_eq_or, Option.or_eq_some_iff] at hselect
    rcases hselect with hclass | ⟨-, hinterface⟩
    · obtain ⟨k, -, hk⟩ := List.exists_of_findSome?_eq_some hclass
      exact hhere (Option.filter_eq_some_iff.1 hk).1
    · obtain ⟨k, -, hk⟩ := List.exists_of_findSome?_eq_some hinterface
      exact hhere (Option.filter_eq_some_iff.1 hk).1

theorem Program.sound_callVirtual (hG : P.graph.MembersNumbered) (hP : P.Honest hs)
    (hhs : ∀ h ∈ hs, h.Typed P.graph W) {m : MethodRef} {dispatch : ClassId} {interface : Bool}
    {p : Descriptor} {args : List Value}
    (hp : Node.Typed P.graph W (.virtual m dispatch interface) p)
    (htakes : Node.takes P.graph (.virtual m dispatch interface) p.params args = true)
    (hlive : Value.AllLive W.classes args) :
    Run.Sound P.graph W (P.callVirtual m dispatch args) (P.callVirtual m dispatch args)
      (Value.Answers P.graph p.ret) := by
  cases hp with
  | virtual =>
    refine .bind (sound_receiver (.method m) args) fun W' o hW ho => ?_
    obtain ⟨rest, rfl⟩ := ho
    rw [Node.takes_cons rfl, Bool.and_eq_true] at htakes
    have hlive' : Value.AllLive W'.classes (.obj o :: rest) := hlive.mono hW.classes
    split
    · exact .fail (Error.safe_of_isPlain rfl)
    · split
      · next s hs' =>
        -- what is selected is declared alike, so the arguments fit it too
        have hdesc := ClassGraph.desc_of_implementation? hG hs'
        have hcall := P.sound_callMethod hP (fun h hh => (hhs h hh).mono hW) (m := s)
          (.inr ⟨o, rest, rfl, by rw [hdesc]; exact htakes.2⟩) hlive'
        rw [hdesc] at hcall
        exact hcall
      · exact .fail (Error.safe_of_isPlain rfl)

/-! ## Fields -/

theorem Store.error_readStatic {s : Store} {c : ClassId} {offset : Nat} {e : Error}
    (h : s.readStatic c offset = .error e) : e = .missingSlot offset (.cls c) := by
  unfold Store.readStatic at h
  split at h
  · cases h
  · exact (Except.error.inj h).symm

theorem Store.error_readField {s : Store} {o : Object} {offset : Nat} {e : Error}
    (h : s.readField o offset = .error e) : e = .missingSlot offset (.object o) := by
  unfold Store.readField at h
  split at h
  · cases h
  · exact (Except.error.inj h).symm

theorem Store.error_writeStatic {s : Store} {c : ClassId} {offset : Nat} {v : Value} {e : Error}
    (h : s.writeStatic c offset v = .error e) : e = .missingSlot offset (.cls c) := by
  unfold Store.writeStatic at h
  split at h
  · split at h
    · cases h
    · exact (Except.error.inj h).symm
  · exact (Except.error.inj h).symm

theorem Store.error_writeField {s : Store} {o : Object} {offset : Nat} {v : Value} {e : Error}
    (h : s.writeField o offset v = .error e) : e = .missingSlot offset (.object o) := by
  unfold Store.writeField at h
  split at h
  · split at h
    · cases h
    · exact (Except.error.inj h).symm
  · exact (Except.error.inj h).symm

theorem Program.sound_getField (hI : P.graph.InterfacesBare) {f : FieldRef} {isStatic : Bool} {access : AccessId}
    {p : Descriptor} {args : List Value} (hp : Node.Typed P.graph W (.getField f isStatic access) p)
    (hargs : Value.fitAll P.graph args p.params = true) (hlive : Value.AllLive W.classes args) :
    Run.Sound P.graph W (P.getField f isStatic args) (P.getField f isStatic args)
      (Value.Answers P.graph p.ret) := by
  cases hp with
  | getStatic hd hs =>
    unfold getField
    rw [if_pos rfl]
    refine .readStore (fun s v hs' hv => ?_) fun s e he => ?_
    · obtain ⟨hresult, hvlive⟩ :=
        hs'.holds.readStatic (P.graph.staticTypes_fieldOffset hd hs) hv
      rw [hs'.live_eq] at hvlive
      exact ⟨hresult, hvlive⟩
    · rw [Store.error_readStatic he]
      exact Error.safe_of_isPlain rfl
  | getInstance hd hs =>
    refine .bind (sound_receiver (.field f) args) fun W' o hW ho => ?_
    obtain ⟨rest, rfl⟩ := ho
    rw [Value.fitAll, Bool.and_eq_true] at hargs
    have ho : o.Lives W'.classes := hlive.1.mono hW.classes
    refine .readStore (fun s v hs' hv => ?_) fun s e he => ?_
    · rw [← hs'.live_eq] at ho
      obtain ⟨hresult, hvlive⟩ :=
        hs'.holds.readField hI ho hargs.1 (P.graph.layout_fieldOffset hd hs) hv
      rw [hs'.live_eq] at hvlive
      exact ⟨hresult, hvlive⟩
    · rw [Store.error_readField he]
      exact Error.safe_of_isPlain rfl

theorem Program.sound_setField (hI : P.graph.InterfacesBare) {f : FieldRef} {isStatic : Bool}
    {access : AccessId} {p : Descriptor} {args : List Value} {v : Value}
    (hp : Node.Typed P.graph W (.setField f isStatic access) p)
    (hargs : Value.fitAll P.graph (args ++ [v]) p.params = true)
    (hlive : Value.AllLive W.classes (args ++ [v])) :
    Run.Sound P.graph W (P.setField f isStatic args v) (P.setField f isStatic args v)
      (Value.Answers P.graph p.ret) := by
  obtain ⟨hargsLive, hvlive, -⟩ := Value.allLive_append.1 hlive
  cases hp with
  | @setStatic _ d _ hd hs =>
    have hv : v.fits P.graph d.type = true ∧ args = [] := by
      cases args with
      | nil => exact ⟨by simpa [Value.fitAll] using hargs, rfl⟩
      | cons w ws => simp [Value.fitAll] at hargs
    refine .bind (Q := fun _ _ => True) (.writeStore (fun s s' hs' hw => ?_) fun s e he => ?_)
      fun W' _ _ _ => .pure ⟨rfl, trivial⟩
    · rw [← hs'.live_eq] at hvlive
      obtain ⟨hholds, hlive', hsites⟩ := hs'.holds.writeStatic
        (P.graph.staticTypes_fieldOffset hd hs) (Value.isResultOf_of_fits hv.1) hvlive hw
      exact .of_sites hholds (hlive' ▸ List.prefix_rfl) hsites
    · rw [Store.error_writeStatic he]
      exact Error.safe_of_isPlain rfl
  | @setInstance _ d _ hd hs =>
    refine .bind (sound_receiver (.field f) args) fun W' o hW ho => ?_
    obtain ⟨rest, rfl⟩ := ho
    -- a receiver and the new value, no more
    have hparts : rest = [] ∧ (Value.obj o).fits P.graph (.cls f.cls) = true ∧
        v.fits P.graph d.type = true := by
      cases rest with
      | nil => exact ⟨rfl, by simpa [Value.fitAll] using hargs⟩
      | cons w ws => cases ws <;> simp [Value.fitAll] at hargs
    obtain ⟨rfl, hreceiver, hv⟩ := hparts
    have ho : o.Lives W'.classes := hargsLive.1.mono hW.classes
    have hvlive' : v.Lives W'.classes := hvlive.mono hW.classes
    refine .bind (Q := fun _ _ => True) (.writeStore (fun s s' hs' hw => ?_) fun s e he => ?_)
      fun W' _ _ _ => .pure ⟨rfl, trivial⟩
    · rw [← hs'.live_eq] at ho hvlive'
      obtain ⟨hholds, hlive', hsites⟩ := hs'.holds.writeField hI ho hreceiver
        (P.graph.layout_fieldOffset hd hs) (Value.isResultOf_of_fits hv) hvlive' hw
      exact .of_sites hholds (hlive' ▸ List.prefix_rfl) hsites
    · rw [Store.error_writeField he]
      exact Error.safe_of_isPlain rfl

end Members

end HandleCalculus
