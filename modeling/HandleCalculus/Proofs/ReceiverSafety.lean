import HandleCalculus.Proofs.ActivationTyping
import HandleCalculus.Proofs.AdaptedCalls
import HandleCalculus.Proofs.ReceiverLaw

/-!
# Receivers of the bodies that run

Take any handle that has been made from what untrusted lookups have found. Whenever a call of it
runs the body of a method, the method is static, or its first argument is an instance of the class
that declares it (`Dealings.receives`).

A node runs a body in few ways (`Node.Engages`), and in each of them looks at no more than the
arguments of that one call. So what has to be carried through a call is that the arguments of each
activation fit parameters under which its node obeys the law on receivers (`Activation.Heeds`).
Nodes pass on what fits the signature of what they call, since calls of typed activations are typed.
Those of variable arity pass on what they are given, and for them the law asks of the target twice.

All of this rests on values that are what they are declared to be, and `Dealings.not_receives` shows
that it has to: nobody checks what a body answers, and the slots of an interface are not kept apart
from those of the classes below it.
-/

set_option autoImplicit false

namespace HandleCalculus

/-! ## What a tree runs -/

namespace Work

variable {G : ClassGraph} {P : Program} {call : Caller} {Q : Callee → List Value → Prop} {α : Type}

/-- Whether all that a tree runs passes, whatever the answers on the way are. -/
def Runs (Q : Callee → List Value → Prop) : Work → Prop
  | answer _ | stop _ => True
  | effect f next => ∀ s a s', f s = .ok (a, s') → (next a).Runs Q
  | run c args next => Q c args ∧ ∀ v, (next v).Runs Q

theorem Reaches.runs {w : Work} {m n : Machine} {c : Callee} {args : List Value}
    (h : w.Reaches P call m c args n) (hw : w.Runs Q) : Q c args := by
  induction h with
  | here => exact hw.1
  | effect step _ ih => exact ih (hw _ _ _ step)
  | later _ _ ih => exact ih (hw.2 _)

theorem runs_pass {h : Handle} {args : List Value} (hQ : Q (.handle h) args) : (pass h args).Runs Q :=
  ⟨hQ, fun _ => trivial⟩

theorem runs_ofExcept {x : Except Error α} {next : α → Work}
    (hnext : ∀ a, x = .ok a → (next a).Runs Q) : (ofExcept x next).Runs Q := by
  cases x with
  | ok a => exact hnext a rfl
  | error e => exact trivial

theorem runs_method {m : MethodRef} {args : List Value} {next : Value → Work} (hQ : Q (.body m) args)
    (hnext : ∀ v, (next v).Runs Q) : (method G m args next).Runs Q := by
  unfold method
  split
  · exact ⟨hQ, hnext⟩
  · exact trivial

theorem runs_filter {filters : List (Option Handle)} {next : List Value → Work}
    (hfilters : ∀ f, some f ∈ filters → ∀ vs, Q (.handle f) vs) (hnext : ∀ vs, (next vs).Runs Q)
    (pos : Nat) (args : List Value) : (filter pos filters args next).Runs Q := by
  induction filters generalizing pos args with
  | nil => exact hnext args
  | cons f fs ih =>
    have hrest := ih fun g hg => hfilters g (List.mem_cons_of_mem _ hg)
    cases f with
    | none => exact hrest (pos + 1) args
    | some f =>
      unfold filter
      split
      · exact trivial
      · exact ⟨hfilters f List.mem_cons_self _, fun w => hrest (pos + 1) _⟩

end Work

/-! ## What a node runs -/

/-- What a node can run on its arguments, and on which ones: a handle that it holds, on whatever
arguments; or the body of a method, on those that it has been given or on a new object in front of
them. -/
inductive Node.Engages (G : ClassGraph) : Node Handle → List Value → Callee → List Value → Prop where
  | held {n : Node Handle} {k : Handle} {args vs : List Value} (child : k ∈ n.children) :
    Engages G n args (.handle k) vs
  | static {m : MethodRef} {args : List Value} : Engages G (.direct m .static) args (.body m) args
  | special {m : MethodRef} {o : Object} {rest : List Value} :
    Engages G (.direct m .special) (.obj o :: rest) (.body m) (.obj o :: rest)
  | construct {m : MethodRef} {o : Object} {args : List Value} (made : o.cls = m.cls) :
    Engages G (.direct m .construct) args (.body m) (.obj o :: args)
  | virtual {m s : MethodRef} {d : ClassId} {interface : Bool} {o : Object} {rest : List Value}
      (receiver : o.isInstance G (.cls d) = true) (selected : G.implementation? o.cls m = some s) :
    Engages G (.virtual m d interface) (.obj o :: rest) (.body s) (.obj o :: rest)

theorem Node.Engages.child {G : ClassGraph} {n : Node Handle} {k : Handle} {args vs : List Value}
    (h : n.Engages G args (.handle k) vs) : k ∈ n.children := by
  cases h with
  | held child => exact child

/-- Nothing else is run by a node, call sites left aside. -/
theorem Handle.runs_work (G : ClassGraph) {h : Handle} (hunsited : h.node.variant ≠ .invoker)
    (args : List Value) : (h.work G args).Runs (h.node.Engages G args) := by
  obtain ⟨stamp, type, node⟩ := h
  have hfirst : ∀ {k : Handle} {ks : List Handle} {vs : List Value}, node.children = k :: ks →
      node.Engages G args (.handle k) vs := by
    intro k ks vs hnode
    exact .held (by rw [hnode]; exact List.mem_cons_self)
  have hsecond : ∀ {k l : Handle} {ks : List Handle} {vs : List Value},
      node.children = k :: l :: ks → node.Engages G args (.handle l) vs := by
    intro k l ks vs hnode
    exact .held (by rw [hnode]; exact List.mem_cons_of_mem _ List.mem_cons_self)
  unfold work
  cases node with
  | direct m mode =>
    cases mode with
    | static => exact Work.runs_method .static fun _ => trivial
    | special =>
      refine Work.runs_ofExcept fun o ho => ?_
      obtain ⟨rest, rfl⟩ := receiver_eq_ok ho
      exact Work.runs_method .special fun _ => trivial
    | construct =>
      intro s o s' ho
      refine Work.runs_method (.construct ?_) fun _ => trivial
      obtain ⟨rfl, -⟩ := Prod.mk.inj (Except.ok.inj ho)
      rfl
  | virtual m d interface =>
    refine Work.runs_ofExcept fun o ho => ?_
    obtain ⟨rest, rfl⟩ := receiver_eq_ok ho
    split
    · exact trivial
    · next hinstance =>
      split
      · next s hs =>
        exact Work.runs_method (.virtual (by simpa using hinstance) hs) fun _ => trivial
      · exact trivial
  | getField f isStatic =>
    cases isStatic with
    | true => exact fun _ _ _ _ => trivial
    | false => exact Work.runs_ofExcept fun _ _ _ _ _ _ => trivial
  | setField f isStatic =>
    dsimp only
    cases args.getLast? with
    | none => exact trivial
    | some v =>
      cases isStatic with
      | true => exact fun _ _ _ _ => trivial
      | false => exact Work.runs_ofExcept fun _ _ _ _ _ _ => trivial
  | insert target pos values =>
    dsimp only
    split
    · exact Work.runs_pass (hfirst rfl)
    · exact trivial
  | permute target reorder =>
    dsimp only
    cases pick? args reorder with
    | some picked => exact Work.runs_pass (hfirst rfl)
    | none => exact trivial
  | collect target pos count array =>
    dsimp only
    cases array.component? with
    | none => exact trivial
    | some component =>
      dsimp only
      split
      · exact fun _ _ _ _ => Work.runs_pass (hfirst rfl)
      · exact trivial
  | spread target pos count array =>
    dsimp only
    cases args[pos]? with
    | none => exact trivial
    | some v =>
      refine Work.runs_ofExcept fun elements _ => ?_
      split
      · exact Work.runs_ofExcept fun spread _ => Work.runs_pass (hfirst rfl)
      · exact trivial
  | filterArgs target pos filters =>
    refine Work.runs_filter (fun f hf vs => .held ?_) (fun vs => Work.runs_pass (hfirst rfl)) pos args
    exact List.mem_cons_of_mem _ (List.mem_filterMap.2 ⟨some f, hf, rfl⟩)
  | filterReturn target filter => exact ⟨hfirst rfl, fun v => Work.runs_pass (hsecond rfl)⟩
  | fold target pos combiner =>
    dsimp only
    split
    · refine ⟨hsecond rfl, fun v => ?_⟩
      split
      · exact Work.runs_pass (hfirst rfl)
      · exact Work.runs_pass (hfirst rfl)
    · exact trivial
  | guarded test target fallback =>
    dsimp only
    split
    · refine ⟨hfirst rfl, fun v => ?_⟩
      dsimp only
      split
      · exact Work.runs_pass (hsecond rfl)
      · exact Work.runs_pass (.held (by simp [Node.children]))
      · exact trivial
    · exact trivial
  | catching target c handler => exact trivial
  | convert target conversions ret =>
    refine Work.runs_ofExcept fun converted _ => ⟨hfirst rfl, fun v => ?_⟩
    dsimp only
    cases ret.apply G v <;> exact trivial
  | constant v => exact trivial
  | identity => cases args <;> exact trivial
  | varargs target array cell => exact Work.runs_pass (hfirst rfl)
  | invoker site => exact absurd rfl hunsited
  | unlinked message => exact trivial
  | throwing =>
    dsimp only
    split <;> exact trivial

/-! ## Bodies on their receivers -/

/-- Whether the body of a method runs on an instance of the class that declares it, or needs none.
-/
def Call.Received (G : ClassGraph) (c : Call) : Prop :=
  (G.method c.method).flags.isStatic = true ∨
    ∃ o rest, c.args = .obj o :: rest ∧ o.isInstance G (.cls c.method.cls) = true

section Received

variable {G : ClassGraph} {m s : MethodRef} {o : Object} {d : ClassId}

/-- Selection stays among the supertypes of the receiver's class. -/
theorem ClassGraph.isInstance_of_implementation? (hG : G.MembersNumbered)
    (hd : G.isSubclass d m.cls = true) (ho : o.isInstance G (.cls d) = true)
    (hs : G.implementation? o.cls m = some s) : o.isInstance G (.cls s.cls) = true := by
  have hselected : G.selectMethod? o.cls m = some s := (Option.filter_eq_some_iff.1 hs).1
  cases hprivate : (G.method m).flags.isPrivate with
  | true =>
    -- a private method selects itself
    rw [selectMethod?, if_pos hprivate] at hselected
    obtain rfl := Option.some.inj hselected
    exact G.isAssignable_trans ho hd
  | false =>
    have habove := (implements_of_selectMethod? hG.methods hprivate hselected).above
    exact G.isAssignable_trans (o.isInstance_cls G) habove

/-- A node that obeys the law runs bodies on their receivers, on arguments that fit the parameters.
-/
theorem Node.Obeys.received (hG : G.MembersNumbered) {n : Node Handle} {ps : List Ty}
    (hn : Node.Obeys (receiverLaw G true) n ps) {args vs : List Value}
    (hfits : Value.fitAll G args ps = true) (hengages : n.Engages G args (.body m) vs) :
    Call.Received G ⟨m, vs⟩ := by
  cases hn with
  | varargs => cases hengages
  | plain _ _ law =>
    cases hengages with
    | static => exact Or.inl (law m rfl)
    | @special _ o rest =>
      obtain ⟨p, hp, hassign⟩ := law m rfl rfl
      cases ps with
      | nil => cases hp
      | cons q qs =>
        obtain rfl := Option.some.inj hp
        rw [Value.fitAll, Bool.and_eq_true] at hfits
        exact Or.inr ⟨o, rest, rfl, Value.fits_of_isAssignable hfits.1 hassign⟩
    | @construct _ o _ made =>
      refine Or.inr ⟨o, args, rfl, ?_⟩
      rw [← made]
      exact o.isInstance_cls G
    | @virtual a _ d _ o rest ho hs =>
      exact Or.inr ⟨o, rest, rfl, ClassGraph.isInstance_of_implementation? hG (law a rfl).2 ho hs⟩

end Received

namespace Activation

variable {P : Program} {W : Extent} {a b root : Activation} {p : Position}

/-- Whether the law on receivers holds of the node of an activation, under parameters that its
arguments fit. -/
def Heeds (G : ClassGraph) (a : Activation) : Prop :=
  ∃ ps, Node.Obeys (receiverLaw G true) a.handle.node ps ∧ Value.fitAll G a.args ps = true

/-- What is called is a handle that the node holds, call sites left aside. -/
theorem Calls.held (hcall : a.Calls P p b) (hunsited : a.handle.node.variant ≠ .invoker) :
    b.handle ∈ a.handle.node.children := by
  have htarget : ∀ {c : ClassId} {k : Handle} {b : Activation}, a.Calls P (.target c k) b →
      b.handle ∈ a.handle.node.children ∧ k ∈ a.handle.node.children := by
    intro c k b hcall
    cases hcall with
    | target _ node _ =>
      rw [node]
      exact ⟨List.mem_cons_self, List.mem_cons_of_mem _ List.mem_cons_self⟩
  cases hcall with
  | plain comes =>
    obtain ⟨m, -, -, hreach⟩ := comes
    exact (hreach.runs (Handle.runs_work P.graph hunsited a.args)).child
  | target starts node handles => exact (htarget (.target starts node handles)).1
  | handler target failed caught => exact (htarget target).2

section Stacks

variable {hs : List Handle} (hG : P.graph.MembersNumbered) (hI : P.graph.InterfacesBare)
  (hP : P.Honest hs)
include hG hI hP

/-- One call keeps the law. -/
theorem Calls.heeds (hhs : ∀ h ∈ hs, h.Typed P.graph W) (ha : a.Typed P.graph W)
    (hheeds : a.Heeds P.graph) (hcall : a.Calls P p b) : b.Heeds P.graph := by
  obtain ⟨ps, hn, hfits⟩ := hheeds
  cases hvarargs : a.handle.isVarargs with
  | true =>
    obtain ⟨hargs, -, array, cell, hnode⟩ := hcall.of_isVarargs hvarargs
    rw [hnode] at hn
    cases hn with
    | plain fixed => exact absurd rfl fixed
    | varargs _ passed =>
      refine ⟨ps, passed, ?_⟩
      rw [hargs]
      exact hfits
  | false =>
    obtain ⟨W', -, -, hb⟩ := hcall.typed hG hI hP hhs ha
    exact ⟨_, hn.child (hcall.held hn.unsited), hb hvarargs⟩

/-- So do all calls on a stack. -/
theorem Stack.heeds (hhs : ∀ h ∈ hs, h.Typed P.graph W) (hroot : root.Typed P.graph W)
    (hheeds : root.Heeds P.graph) {S : List (Activation × Position)} (hS : Stack P root S b) :
    b.Heeds P.graph := by
  -- on the stack, from the outside
  induction hS with
  | nil => exact hheeds
  | cons outer call ih =>
    obtain ⟨W', hW, ha⟩ := outer.typed hG hI hP hhs hroot
    exact call.heeds hG hI hP (fun h hh => (hhs h hh).mono hW) ha ih

/-- Whatever body runs while a typed activation that keeps to the law is at work, it runs on its
receiver. -/
theorem Typed.received (hhs : ∀ h ∈ hs, h.Typed P.graph W) (ha : a.Typed P.graph W)
    (hheeds : a.Heeds P.graph) {i : Nat} {c : Call} (hi : a.machine.calls.size ≤ i)
    (hc : (a.leaves P).calls[i]? = some c) : c.Received P.graph := by
  obtain ⟨S, b, d, n, hS, ⟨m, -, -, hreach⟩, -⟩ := a.exists_stack_of_calls hi hc
  obtain ⟨ps, hn, hfits⟩ := hS.heeds hG hI hP hhs ha hheeds
  exact hn.received hG hfits (hreach.runs (Handle.runs_work P.graph hn.unsited b.args))

end Stacks

end Activation

/-! ## Safety -/

/-- Whether each body that a call of one of the handles runs, in whatever form on live arguments,
runs on its receiver. -/
def Program.Receives (P : Program) (m : Machine) (hs : List Handle) : Prop :=
  ∀ h ∈ hs, ∀ (args : List Value) (depth : Nat) (form : CallForm) (i : Nat) (c : Call),
    Value.AllLive m.store.live args → m.calls.size ≤ i →
    ((h.callThrough P (Handle.invokeBasic P depth) args form).leaves m).calls[i]? = some c →
    c.Received P.graph

namespace Dealings

variable {P : Program} {own : Lookup → Prop} {m : Machine} {hs : List Handle}
  (hG : P.graph.MembersNumbered) (hI : P.graph.InterfacesBare) (hP : P.Honest hs)
include hG hI hP

/-- A call that comes to an end is one of the things that can happen. -/
theorem called (hD : Dealings P.graph own m hs) {h : Handle} (hh : h ∈ hs) {args : List Value}
    (hargs : Value.AllLive m.store.live args) {depth : Nat}
    (hends : ∀ n, h.invokeExact P depth args m ≠ .error .exhausted n) :
    Dealings P.graph own ((h.invokeExact P depth args).leaves m) hs := by
  obtain ⟨hm, hhs⟩ := hD.typed hG
  have hsound := (Handle.sound_invokeExact hG hI hP hhs depth (hhs h hh) hargs m hm).2
  obtain ⟨hsettled, hremembers⟩ :=
    hD.settled.leaves (Handle.alike_invokeExact P depth h.coincides_refl args)
  have htyped : ∃ W, m.store.extent.Grows W ∧
      ((h.invokeExact P depth args).leaves m).Typed P.graph W := by
    unfold Run.leaves
    cases hcall : h.invokeExact P depth args m with
    | ok v n =>
      rw [hcall] at hsound
      obtain ⟨W, hW, hn, -⟩ := hsound
      exact ⟨W, hW, hn⟩
    | error s n =>
      rw [hcall] at hsound
      cases s with
      | error e =>
        obtain ⟨W, hW, hn, -⟩ := hsound
        exact ⟨W, hW, hn⟩
      | fault v => exact absurd hsound id
      | exhausted => exact absurd hcall (hends n)
  obtain ⟨W, hW, hn⟩ := htyped
  obtain rfl := hn.extent_eq
  exact .other hD hn hW hsettled hremembers.members hremembers.collectors

/-- **Receivers are safe.** Take handles that have been made, call sites left aside, from what
untrusted lookups have found, whatever else the member cache has been filled with. In whatever form
one of them is called, each body that runs is that of a static method, or its first argument is an
instance of the class that declares it. -/
theorem receives (hD : Dealings P.graph (fun l => l.trusted = false) m hs) : P.Receives m hs := by
  intro h hh args depth form i c hargs hi hc
  obtain ⟨hm, hhs⟩ := hD.typed hG
  obtain ⟨hmLawful, hhsLawful⟩ : m.Obeys (receiverLaw P.graph true) ∧
      ∀ h ∈ hs, h.Obeys (receiverLaw P.graph true) := hD.obeys_receiverLaw hG fun l hl _ => hl
  have hcall := h.callThrough_eq P (Handle.invokeBasic P depth) args form m
  have hcalls := h.stays_entry P.graph args form m
  unfold Link.start at hcalls
  unfold Run.leaves at hc
  cases hentry : h.entry P.graph args form m with
  | error e m' =>
    -- nothing has run
    rw [hentry] at hcall hcalls
    rw [hcall, hcalls, Array.getElem?_eq_none hi] at hc
    cases hc
  | ok kvs m' =>
    obtain ⟨k, vs⟩ := kvs
    rw [hentry] at hcall hcalls
    rw [hcall] at hc
    obtain ⟨hmade, hfits, hvs⟩ := Handle.entry_eq_ok hentry
    obtain ⟨hm', hk, hlawful⟩ : m'.Typed P.graph m.store.extent ∧ k.Typed P.graph m.store.extent ∧
        k.Obeys (receiverLaw P.graph true) := by
      rcases hmade with ⟨rfl, rfl⟩ | ⟨new, htype⟩
      · exact ⟨hm, hhs k hh, hhsLawful k hh⟩
      · have hyields := yields_asType (hhs h hh) new m hm
        have hlawful := Handle.lawful_asType (hhsLawful h hh) new m hmLawful
        rw [htype] at hyields hlawful
        exact ⟨hyields.1, hyields.2, hlawful.2⟩
    have hlive : Value.AllLive m.store.extent.classes vs := by
      rcases hvs with rfl | rfl
      · exact hargs
      · exact Value.allLive_boxed hargs
    have hroot : Activation.Typed P.graph m.store.extent ⟨k, vs, depth, m'⟩ :=
      ⟨hm', hk, hk.takes_of_fitAll hfits, hlive⟩
    refine hroot.received hG hI hP hhs ⟨_, hlawful, hfits⟩ (i := i) ?_ hc
    show m'.calls.size ≤ i
    rw [hcalls]
    exact hi

end Dealings

theorem ClassGraph.siblings_bare : siblings.InterfacesBare := by
  intro c i hi
  have hnone : siblings.interfaces c = [] :=
    forall_decl (p := fun d => d.interfaces = []) (by decide) (by decide) rfl c
  rw [hnone] at hi
  cases hi

/-- The handle that the lookup of `q/B` finds for the method of `p/A`. -/
def Handle.siblingM : Handle :=
  ⟨2, ⟨[.cls (bootstrapCount + 1)], .prim .int, by decide, by decide⟩,
    .virtual ⟨bootstrapCount, 0⟩ bootstrapCount false⟩

/-- On any machine with its thunks in order, a call of that handle runs the method. -/
theorem Handle.calls_siblingM {m : Machine} (hm : m.Settled) :
    let o : Value := .obj (.inst 0 (bootstrapCount + 1))
    ((siblingM.callThrough (.zeros .siblings) (invokeBasic (.zeros .siblings) 1) [o] .exact).leaves
      m).calls = m.calls.push ⟨⟨bootstrapCount, 0⟩, [o]⟩ := by
  intro o
  obtain ⟨n, -, hcalls, -, hperform⟩ := siblingM.invokeBasic_of_settled (P := .zeros .siblings) hm 0
  have hcall : siblingM.callThrough (.zeros .siblings) (invokeBasic (.zeros .siblings) 1) [o] .exact m =
      .ok (.prim (.int 0)) { n with calls := n.calls.push ⟨⟨bootstrapCount, 0⟩, [o]⟩ } :=
    hperform [o]
  rw [Run.leaves_of_ok hcall, ← hcalls]

/-- A call of that handle runs the method on an instance of `q/B`, which is one of `p/A`. -/
theorem Dealings.receives_of_siblings : ∃ m : Machine,
    Dealings .siblings (fun l => l.trusted = false) m [.siblingM] ∧
      (let call : Call := ⟨⟨bootstrapCount, 0⟩, [.obj (.inst 0 (bootstrapCount + 1))]⟩
       ((Handle.siblingM.callThrough (.zeros .siblings) (Handle.invokeBasic (.zeros .siblings) 1)
          call.args .exact).leaves m).calls = #[call] ∧ call.Received .siblings) := by
  -- a store with one instance of `q/B`
  have hstore := (Store.Holds.initial .siblings).newInstance (bootstrapCount + 1)
  obtain ⟨m, hD, hlive, hnone⟩ : ∃ m, Dealings .siblings (fun l => l.trusted = false) m [.siblingM] ∧
      m.store.live = [bootstrapCount + 1] ∧ m.calls = #[] := by
    have hstart : Dealings .siblings (fun l => l.trusted = false) _ [] := .start true hstore.1 rfl
    have hfound := hstart.found .initial (.full (bootstrapCount + 1)) (.siblingM bootstrapCount)
      (h := .siblingM) trivial trivial rfl rfl
    exact ⟨_, hfound, rfl, rfl⟩
  have hargs : Value.AllLive m.store.live [.obj (.inst 0 (bootstrapCount + 1))] := by
    rw [hlive]
    exact ⟨hstore.2, trivial⟩
  have hcalls := Handle.calls_siblingM hD.settled
  rw [hnone] at hcalls
  refine ⟨m, hD, hcalls, ?_⟩
  have hreceives := Dealings.receives (P := .zeros .siblings) ClassGraph.siblings_numbered
    ClassGraph.siblings_bare (Program.honest_zeros _ _) hD
  refine hreceives _ List.mem_cons_self _ 1 .exact 0 _ hargs ?_ (congrArg (·[0]?) hcalls)
  rw [hnone]
  exact Nat.zero_le _

/-! ## Where receivers are not safe

The theorem rests on values that are what they are declared to be. A body that does not keep to its
signature, or a slot of an interface that is taken for another one, has a method called without
dispatch on whatever object there is. -/

namespace Handle

/-- A handle on the first method of the first class, called without dispatch. -/
def privateM : Handle :=
  ⟨0, ⟨[.cls bootstrapCount], .prim .int, by decide, by decide⟩, .direct ⟨bootstrapCount, 0⟩ .special⟩

/-- The same behind a handle that it has its receiver from. -/
def behind (f : Handle) (type : Signature) (s : Stamp) : Handle :=
  ⟨s, type, .filterArgs privateM 0 [some f]⟩

/-- The method runs on whatever object it is handed. -/
theorem calls_behind {P : Program} (hbody : (P.graph.method ⟨bootstrapCount, 0⟩).hasBody = true)
    {m : Machine} (hm : m.Settled) {f : Handle} {type : Signature} (s : Stamp) {v : Value} {o : Object}
    (hcheck : type.check P.graph [v] = .ok ())
    (hf : ∀ n : Machine, n.Settled → n.store.instances = m.store.instances → ∃ n' : Machine,
      n'.Settled ∧ n.calls.size ≤ n'.calls.size ∧ invokeBasic P 1 f [v] n = .ok (.obj o) n') :
    ∃ i, m.calls.size ≤ i ∧ (((f.behind type s).callThrough P (invokeBasic P 2) [v] .exact).leaves
      m).calls[i]? = some ⟨⟨bootstrapCount, 0⟩, [.obj o]⟩ := by
  obtain ⟨n, hn, hcalls, hslots, hperform⟩ := (f.behind type s).invokeBasic_of_settled (P := P) hm 1
  obtain ⟨n₁, hn₁, hcalls₁, hfilter⟩ := hf n hn hslots
  obtain ⟨n₂, -, hcalls₂, -, hmethod⟩ := privateM.invokeBasic_of_settled (P := P) hn₁ 0
  have hrun : (f.behind type s).callThrough P (invokeBasic P 2) [v] .exact m =
      P.runBody ⟨bootstrapCount, 0⟩ [.obj o] n₂ := by
    have hpassed : passFilters (invokeBasic P 1) 0 [some f] [v] n = .ok [.obj o] n₁ :=
      bind_eq_of_ok hfilter _
    have hchecked : Run.ofExcept (type.check P.graph [v]) m = .ok () m := by rw [hcheck]; rfl
    have hmethod : invokeBasic P 1 privateM [.obj o] n₁ = P.callMethod ⟨bootstrapCount, 0⟩ [.obj o] n₂ :=
      hmethod _
    rw [Program.callMethod, if_pos hbody] at hmethod
    refine (bind_eq_of_ok hchecked _).trans ((hperform [v]).trans ?_)
    exact (bind_eq_of_ok hpassed _).trans hmethod
  refine ⟨n₂.calls.size, ?_, ?_⟩
  · rw [hcalls₂, ← hcalls]
    exact hcalls₁
  · rw [Run.leaves, hrun]
    show ((P.runBody _ _).leaves n₂).calls[_]? = _
    rw [P.calls_runBody, Array.getElem?_push_size]

end Handle

/-- The class `p/A` with a private method and with a static method `f` that is declared to answer an
instance of it, and a class `p/B`. -/
def ClassGraph.vouching : ClassGraph where
  defined := #[
    ⟨"p/A", ⟨0x0001⟩, .bootstrap, some ClassId.object, [],
      [.withBody "m" ⟨[], .prim .int⟩ ⟨0x0002⟩,
        .withBody "f" ⟨[.object], .cls bootstrapCount⟩ ⟨0x0009⟩], []⟩,
    ⟨"p/B", ⟨0x0001⟩, .bootstrap, some ClassId.object, [], [], []⟩]
  older := ClassGraph.older_of_lt (by decide)

/-- The class `p/A` with a private method, an interface `p/I` with an instance field `x` for an
instance of it, and a class `p/B` below the interface with a field of its own. -/
def ClassGraph.slotted : ClassGraph where
  defined := #[
    ⟨"p/A", ⟨0x0001⟩, .bootstrap, some ClassId.object, [],
      [.withBody "m" ⟨[], .prim .int⟩ ⟨0x0002⟩], []⟩,
    ⟨"p/I", ⟨0x0601⟩, .bootstrap, some ClassId.object, [], [],
      [⟨"x", .cls bootstrapCount, ⟨0x0001⟩⟩]⟩,
    ⟨"p/B", ⟨0x0001⟩, .bootstrap, some ClassId.object, [bootstrapCount + 1], [],
      [⟨"y", .object, ⟨0x0001⟩⟩]⟩]
  older := ClassGraph.older_of_lt (by decide)

/-- The program whose bodies answer their first argument. -/
def Program.echoes (G : ClassGraph) : Program := ⟨G, fun _ args => pure (args.headD .void)⟩

/-- A handle on `f`. -/
def Handle.vouch : Handle :=
  ⟨2, ⟨[.object], .cls bootstrapCount, by decide, by decide⟩, .direct ⟨bootstrapCount, 1⟩ .static⟩

/-- A handle that reads `x`. -/
def Handle.readX : Handle :=
  ⟨2, ⟨[.cls (bootstrapCount + 1)], .cls bootstrapCount, by decide, by decide⟩,
    .getField ⟨bootstrapCount + 1, 0⟩ false 0⟩

/-- A store with an instance of `p/B` that holds itself. -/
def Store.reflexive : Store :=
  { Store.initial with
    instances := #[#[.obj (.inst 0 (bootstrapCount + 2))]], classes := #[bootstrapCount + 2] }

theorem Store.Holds.reflexive : Store.reflexive.Holds .slotted := by
  refine ⟨rfl, fun id slots c hslots hc => ?_, fun c slots hslots =>
    ((initial .slotted).statics c slots hslots).mono List.nil_prefix⟩
  cases id with
  | succ id => cases hslots
  | zero =>
    obtain rfl := Option.some.inj hslots
    obtain rfl := Option.some.inj hc
    refine ⟨rfl, fun i v t hv ht => ?_⟩
    cases i with
    | succ i => cases hv
    | zero =>
      obtain rfl := Option.some.inj hv
      obtain rfl := Option.some.inj ht
      exact ⟨rfl, rfl⟩

/-- A handle that runs the private method on no instance of `p/A`. -/
theorem Program.not_receives_of_behind {P : Program} {m : Machine} {hs : List Handle} {f : Handle}
    {type : Signature} {s : Stamp} {c : ClassId}
    (hbody : (P.graph.method ⟨bootstrapCount, 0⟩).hasBody = true)
    (hstatic : (P.graph.method ⟨bootstrapCount, 0⟩).flags.isStatic = false)
    (hc : P.graph.isSubclass c bootstrapCount = false) (hm : m.Settled) (hh : f.behind type s ∈ hs)
    (hlive : m.store.live = [c]) (hcheck : type.check P.graph [.obj (.inst 0 c)] = .ok ())
    (hf : ∀ n : Machine, n.Settled → n.store.instances = m.store.instances → ∃ n' : Machine,
      n'.Settled ∧ n.calls.size ≤ n'.calls.size ∧
        Handle.invokeBasic P 1 f [.obj (.inst 0 c)] n = .ok (.obj (.inst 0 c)) n') :
    ¬ P.Receives m hs := by
  intro hreceives
  obtain ⟨i, hi, hcall⟩ := Handle.calls_behind hbody hm s hcheck hf
  have hargs : Value.AllLive m.store.live [.obj (.inst 0 c)] := by
    rw [hlive]
    exact ⟨rfl, trivial⟩
  rcases hreceives _ hh _ 2 .exact i _ hargs hi hcall with hreceiver | ⟨o, rest, ho, hreceiver⟩
  · cases hstatic.symm.trans hreceiver
  · cases ho
    cases hc.symm.trans (Object.isSubclass_of_isInstance hreceiver)

/-- The lookup of `p/A` finds the private method, and what it is called behind: a body that answers
what it is given, or a field that is read from the slot of another one. Both times it runs on an
instance of `p/B`. -/
theorem Dealings.not_receives :
    (∃ (m : Machine) (hs : List Handle), Dealings .vouching (fun l => l.trusted = false) m hs ∧
      ¬ (Program.echoes .vouching).Receives m hs) ∧
    ∃ (m : Machine) (hs : List Handle), Dealings .slotted (fun l => l.trusted = false) m hs ∧
      ¬ (Program.zeros .slotted).Receives m hs := by
  constructor
  · have hstore := (Store.Holds.initial .vouching).newInstance (bootstrapCount + 1)
    obtain ⟨m, hD, hlive⟩ : ∃ m, Dealings .vouching (fun l => l.trusted = false) m
        [.vouch, .privateM] ∧ m.store.live = [bootstrapCount + 1] := by
      have hstart : Dealings .vouching (fun l => l.trusted = false) _ [] := .start true hstore.1 rfl
      have hm := hstart.found .initial (.full bootstrapCount) (h := .privateM)
        (.findVirtual bootstrapCount "m" ⟨[], .prim .int, by decide, by decide⟩) trivial trivial rfl rfl
      have hf := hm.found .initial (.full bootstrapCount) (h := .vouch)
        (.findStatic bootstrapCount "f" ⟨[.object], .cls bootstrapCount, by decide, by decide⟩) trivial
        trivial rfl rfl
      exact ⟨_, hf, rfl⟩
    have hbehind := @Dealings.made _ _ m _ _ (.filterArguments .privateM 0 [some .vouch]) _ hD
      ⟨fun h hh => by simpa using (List.mem_pair.1 hh).symm, trivial, nofun⟩ rfl nofun rfl
    refine ⟨_, _, hbehind, Program.not_receives_of_behind (f := .vouch) rfl rfl (by decide)
      hbehind.settled List.mem_cons_self hlive rfl fun n hn _ => ?_⟩
    obtain ⟨n₁, hn₁, hcalls, -, hbody⟩ :=
      Handle.vouch.invokeBasic_of_settled (P := .echoes .vouching) hn 0
    refine ⟨{ n₁ with calls := n₁.calls.push ⟨⟨bootstrapCount, 1⟩, _⟩ }, ⟨hn₁.table, hn₁.cells⟩, ?_,
      hbody _⟩
    show n.calls.size ≤ (n₁.calls.push _).size
    rw [Array.size_push, hcalls]
    exact Nat.le_succ _
  · obtain ⟨m, hD, hlive, hslots⟩ : ∃ m, Dealings .slotted (fun l => l.trusted = false) m
        [.readX, .privateM] ∧ m.store.live = [bootstrapCount + 2] ∧
          m.store.instances = Store.reflexive.instances := by
      have hstart : Dealings .slotted (fun l => l.trusted = false) _ [] :=
        .start true Store.Holds.reflexive rfl
      have hm := hstart.found .initial (.full bootstrapCount) (h := .privateM)
        (.findVirtual bootstrapCount "m" ⟨[], .prim .int, by decide, by decide⟩) trivial trivial rfl rfl
      have hx := hm.found .initial (.full bootstrapCount) (h := .readX)
        (.findGetter (bootstrapCount + 1) "x" (.cls bootstrapCount)) trivial trivial rfl rfl
      exact ⟨_, hx, rfl, rfl⟩
    have hbehind := @Dealings.made _ _ m _ _ (.filterArguments .privateM 0 [some .readX]) _ hD
      ⟨fun h hh => by simpa using (List.mem_pair.1 hh).symm, trivial, nofun⟩ rfl nofun rfl
    refine ⟨_, _, hbehind, Program.not_receives_of_behind (f := .readX) rfl rfl (by decide)
      hbehind.settled List.mem_cons_self hlive rfl fun n hn hsame => ?_⟩
    obtain ⟨n₁, hn₁, hcalls, hsame₁, hread⟩ :=
      Handle.readX.invokeBasic_of_settled (P := .zeros .slotted) hn 0
    refine ⟨n₁, hn₁, Nat.le_of_eq (congrArg Array.size hcalls.symm), (hread _).trans ?_⟩
    have hslot : n₁.store.readField (.inst 0 (bootstrapCount + 2))
        (ClassGraph.slotted.fieldOffset ⟨bootstrapCount + 1, 0⟩) =
          .ok (.obj (.inst 0 (bootstrapCount + 2))) := by
      unfold Store.readField Store.slotsOf?
      rw [hsame₁.trans (hsame.trans hslots)]
      rfl
    show Run.readStore (·.readField (.inst 0 _) (ClassGraph.slotted.fieldOffset _)) n₁ = _
    unfold Run.readStore
    dsimp only
    rw [hslot]

end HandleCalculus
