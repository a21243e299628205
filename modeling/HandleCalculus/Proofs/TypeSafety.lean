import HandleCalculus.Proofs.LookupTyping
import HandleCalculus.Proofs.NodeCalls

/-!
# Well-typed calls do not go wrong

A session makes handles in all the ways there are, changes the store and calls what it has made, in
any order (`Session`). Whatever it has made is typed, so a call with arguments that fit the signature
answers a value of the result type, or fails with an error, and on the way no handle is called with
arguments that it does not take.

What is assumed of the method bodies is that each keeps to its own declaration (`Program.Honest`), and
of the classes that members have numbers and interfaces have no slots. The induction over a session
carries that the machine and every handle made so far are typed; that over the depth of a call, that
calls of typed handles are sound.
-/

set_option autoImplicit false

namespace HandleCalculus

/-! ## Calls -/

/-- A typed handle that takes the arguments is called soundly, to any depth. -/
theorem Handle.sound_invokeBasic {P : Program} (hG : P.graph.MembersNumbered)
    (hI : P.graph.InterfacesBare) {hs : List Handle} (hP : P.Honest hs) {W : Extent}
    (hhs : ∀ h ∈ hs, h.Typed P.graph W) (depth : Nat) :
    Caller.Sound P.graph W (Handle.invokeBasic P depth) (Handle.invokeWatched P depth) := by
  -- on the depth; at each level the thunk leads to the work of the node, whose calls are one deeper
  induction depth with
  | zero =>
    intro W' _ h args _ _ _ m _
    exact ⟨rfl, trivial⟩
  | succ depth ih =>
    intro W' hW h args ht htakes hlive
    rw [Handle.invokeBasic_succ]
    refine Caller.sound_watched htakes (.bind h.sound_thunk fun W'' thunk hW' hkey => ?_)
    have hvariant : thunk.key.variant = h.variant := by rw [hkey]; rfl
    rw [hvariant, h.enter_variant, h.enter_variant]
    have hgrows := hW.trans hW'
    exact Handle.sound_perform hG hI hP (fun t hmem => (hhs t hmem).mono hgrows) (ih.grow hgrows)
      (ht.mono hW') htakes (hlive.mono hW'.classes)

namespace Signature

variable {G : ClassGraph} {s : Signature}

theorem checkArguments_eq_ok_iff {i : Nat} {vs : List Value} {ts : List Ty}
    (hlength : vs.length = ts.length) :
    checkArguments G s i vs ts = .ok () ↔ Value.fitAll G vs ts = true := by
  induction vs generalizing i ts with
  | nil =>
    cases ts with
    | nil => simp [checkArguments, Value.fitAll]
    | cons t ts => cases hlength
  | cons v vs ih =>
    cases ts with
    | nil => cases hlength
    | cons t ts =>
      unfold checkArguments
      rw [Value.fitAll, Bool.and_eq_true]
      by_cases hv : v.fits G t = true
      · rw [if_pos hv, ih (by simpa using hlength)]
        exact ⟨fun h => ⟨hv, h⟩, fun h => h.2⟩
      · rw [if_neg hv]
        constructor
        · intro h
          cases h
        · intro h
          exact absurd h.1 hv

theorem eq_argument_of_checkArguments {i : Nat} {vs : List Value} {ts : List Ty} {e : Error}
    (h : checkArguments G s i vs ts = .error e) : ∃ a, e = .argument a := by
  induction vs generalizing i ts with
  | nil => cases h
  | cons v vs ih =>
    cases ts with
    | nil => cases h
    | cons t ts =>
      unfold checkArguments at h
      split at h
      · exact ih h
      · exact ⟨_, (Except.error.inj h).symm⟩

/-- The arguments are checked as they should be. -/
theorem check_eq_ok_iff {args : List Value} :
    s.check G args = .ok () ↔ Value.fitAll G args s.params = true := by
  unfold check
  by_cases hlength : args.length = s.arity
  · rw [if_neg (not_not.2 hlength)]
    exact checkArguments_eq_ok_iff hlength
  · rw [if_pos hlength]
    constructor
    · intro h
      cases h
    · intro h
      exact absurd (Value.length_eq_of_fitAll h) hlength

/-- What is refused is refused as wrong arguments. -/
theorem eq_argument_of_check {args : List Value} {e : Error} (h : s.check G args = .error e) :
    ∃ a, e = .argument a := by
  unfold check at h
  split at h
  · exact ⟨_, (Except.error.inj h).symm⟩
  · exact eq_argument_of_checkArguments h

end Signature

/-- An exact call with arguments that fit calls the handle with them. -/
theorem Handle.invokeExact_of_check {P : Program} {h : Handle} {args : List Value}
    (hcheck : h.type.check P.graph args = .ok ()) (depth : Nat) :
    h.invokeExact P depth args = h.invokeBasic P depth args := by
  unfold invokeExact
  rw [hcheck]
  rfl

/-- With arguments that do not it fails, and nothing else happens. -/
theorem Handle.invokeExact_of_refused {P : Program} {h : Handle} {args : List Value} {e : Error}
    (hcheck : h.type.check P.graph args = .error e) (depth : Nat) (m : Machine) :
    h.invokeExact P depth args m = .error (.error e) m := by
  unfold invokeExact
  rw [hcheck]
  rfl

/-- The call of a handle with arguments that it checks, every call on the way under watch. -/
def Handle.invokeExactWatched (P : Program) (depth : Nat) (h : Handle) (args : List Value) :
    Run Value := do
  Run.ofExcept (h.type.check P.graph args)
  h.invokeWatched P depth args

theorem Handle.sound_invokeExact {P : Program} (hG : P.graph.MembersNumbered)
    (hI : P.graph.InterfacesBare) {hs : List Handle} (hP : P.Honest hs) {W : Extent}
    (hhs : ∀ h ∈ hs, h.Typed P.graph W) (depth : Nat) {h : Handle} (ht : h.Typed P.graph W)
    {args : List Value} (hlive : Value.AllLive W.classes args) :
    Run.Sound P.graph W (h.invokeExact P depth args) (h.invokeExactWatched P depth args)
      (Value.Answers P.graph h.type.ret) := by
  refine .bind (.ofExcept (Q := fun _ _ => h.type.check P.graph args = .ok ())
    (fun _ hchecked => hchecked) fun e he => ?_) fun W' _ hW hchecked => ?_
  · obtain ⟨a, rfl⟩ := Signature.eq_argument_of_check he
    exact Error.safe_of_isPlain rfl
  · have hfits := Signature.check_eq_ok_iff.1 hchecked
    have hcall := Handle.sound_invokeBasic hG hI hP hhs depth
    exact (hcall.grow hW).run (ht.mono hW) hfits (hlive.mono hW.classes)

/-! ## Making handles -/

/-- A way to make a handle: a look-up of a member, a combinator, an adaptation, or a call site. -/
inductive Making where
  | member (table : ClassTable) (l : Lookup) (op : MemberOp)
  | insertArguments (h : Handle) (pos : Nat) (values : List Value)
  | bindTo (h : Handle) (v : Value)
  | permuteArguments (h : Handle) (new : Signature) (reorder : List Nat)
  | dropArguments (h : Handle) (pos : Nat) (types : List Ty)
  | filterArguments (h : Handle) (pos : Nat) (filters : List (Option Handle))
  | filterReturnValue (h filter : Handle)
  | foldArguments (h : Handle) (pos : Nat) (combiner : Handle)
  | collectArguments (h : Handle) (pos : Nat) (filter : Handle)
  | guardWithTest (test h fallback : Handle)
  | catchException (h : Handle) (c : ClassId) (handler : Handle)
  | constant (t : Ty) (v : Value)
  | identity (t : Ty)
  | throwException (ret : Ty) (c : ClassId)
  | unlinked (s : Signature) (message : String)
  | asType (h : Handle) (new : Signature)
  | asCollectorAt (h : Handle) (pos : Nat) (array : Ty) (count : Nat)
  | asCollector (h : Handle) (array : Ty) (count : Nat)
  | asSpreaderAt (h : Handle) (pos : Nat) (array : Ty) (count : Nat)
  | asSpreader (h : Handle) (array : Ty) (count : Nat)
  | asVarargsCollector (h : Handle) (array : Ty)
  | asFixedArity (h : Handle)
  /-- The current target of a call site. -/
  | target (site : SiteId)
  /-- A handle that calls whatever the target of a call site is by then. -/
  | invoker (site : SiteId)

namespace Making

/-- Makes the handle. -/
def run (G : ClassGraph) : Making → Link Handle
  | member table l op => l.perform ⟨G, table⟩ op
  | insertArguments h pos values => Link.build fun s => h.insertArguments G s pos values
  | bindTo h v => Link.build fun s => h.bindTo G s v
  | permuteArguments h new reorder => Link.build fun s => h.permuteArguments s new reorder
  | dropArguments h pos types => Link.build fun s => h.dropArguments s pos types
  | filterArguments h pos filters => Link.build fun s => h.filterArguments s pos filters
  | filterReturnValue h filter => Link.build fun s => h.filterReturnValue s filter
  | foldArguments h pos combiner => Link.build fun s => h.foldArguments s pos combiner
  | collectArguments h pos filter => Link.build fun s => h.collectArguments s pos filter
  | guardWithTest test h fallback => Link.build fun s => Handle.guardWithTest s test h fallback
  | catchException h c handler => Link.build fun s => h.catchException G s c handler
  | constant t v => Link.build fun s => Handle.constant G s t v
  | identity t => Link.build fun s => Handle.identity s t
  | throwException ret c => Link.build fun s => Handle.throwException G s ret c
  | unlinked t message => Link.build fun s => .ok (Handle.unlinked s t message)
  | asType h new => h.asType G new
  | asCollectorAt h pos array count => Link.build fun s => h.asCollectorAt G s pos array count
  | asCollector h array count => Link.build fun s => h.asCollector G s array count
  | asSpreaderAt h pos array count => Link.build fun s => h.asSpreaderAt G s pos array count
  | asSpreader h array count => Link.build fun s => h.asSpreader G s array count
  | asVarargsCollector h array => Link.build fun s => h.asVarargsCollector G s array
  | asFixedArity h => pure h.asFixedArity
  | target site => fun m => Link.ofExcept (m.store.getTarget site) m
  | invoker site => fun m => Link.build (fun s => m.store.dynamicInvoker site s) m

/-- The handles that the new one is made from. -/
def handles : Making → List Handle
  | insertArguments h .. | bindTo h _ | permuteArguments h .. | dropArguments h .. | asType h _
  | asCollectorAt h .. | asCollector h .. | asSpreaderAt h .. | asSpreader h ..
  | asVarargsCollector h _ | asFixedArity h => [h]
  | filterArguments h _ filters => h :: filters.filterMap id
  | filterReturnValue h f | foldArguments h _ f | collectArguments h _ f | catchException h _ f =>
    [h, f]
  | guardWithTest test h fallback => [test, h, fallback]
  | member .. | constant .. | identity _ | throwException .. | unlinked .. | target _
  | invoker _ => []

/-- The values that the new handle holds. -/
def values : Making → List Value
  | member _ _ op => op.values
  | insertArguments _ _ values => values
  | bindTo _ v | constant _ v => [v]
  | _ => []

/-- Whether a handle can be made this way from the handles listed: it is made from these and from live
values, and members at hand are declared. -/
structure Uses (G : ClassGraph) (mk : Making) (m : Machine) (hs : List Handle) : Prop where
  handles : ∀ h ∈ mk.handles, h ∈ hs
  live : Value.AllLive m.store.live mk.values
  valid : ∀ table l op, mk = member table l op → op.IsValid G

/-- From typed handles and live values, a typed handle is made. -/
theorem yields_run {G : ClassGraph} (hG : G.MembersNumbered) {W : Extent} {mk : Making}
    (hhandles : ∀ h ∈ mk.handles, h.Typed G W) (hlive : Value.AllLive W.classes mk.values)
    (hvalid : ∀ table l op, mk = member table l op → op.IsValid G) :
    Link.Yields G W (mk.run G) (Handle.Typed G W) := by
  have hfirst : ∀ {h : Handle} {hs : List Handle}, mk.handles = h :: hs → h.Typed G W :=
    fun hmk => hhandles _ (by rw [hmk]; exact List.mem_cons_self)
  have hsecond : ∀ {h k : Handle} {hs : List Handle}, mk.handles = h :: k :: hs → k.Typed G W :=
    fun hmk => hhandles _ (by rw [hmk]; exact List.mem_cons_of_mem _ List.mem_cons_self)
  have build : ∀ {f : Stamp → Except Error Handle},
      (∀ s a, f s = .ok a → a.Typed G W) → Link.Yields G W (Link.build f) (Handle.Typed G W) :=
    fun hf => .build hf
  unfold run
  cases mk with
  | member table l op => exact l.yields_perform ⟨G, table⟩ hG op (hvalid table l op rfl) hlive
  | insertArguments h pos values =>
    refine build fun s a ha => ?_
    exact Handle.typed_insertArguments (hfirst rfl) hlive ha
  | bindTo h v =>
    refine build fun s a ha => ?_
    exact Handle.typed_bindTo (hfirst rfl) hlive.1 ha
  | permuteArguments h new reorder =>
    refine build fun s a ha => ?_
    exact Handle.typed_permuteArguments (hfirst rfl) ha
  | dropArguments h pos types =>
    refine build fun s a ha => ?_
    exact Handle.typed_dropArguments (hfirst rfl) ha
  | filterArguments h pos filters =>
    refine build fun s a ha => Handle.typed_filterArguments (hfirst rfl) (fun f hf => ?_) ha
    refine hhandles f (List.mem_cons_of_mem _ ?_)
    exact List.mem_filterMap.2 ⟨some f, hf, rfl⟩
  | filterReturnValue h f =>
    refine build fun s a ha => ?_
    exact Handle.typed_filterReturnValue (hfirst rfl) (hsecond rfl) ha
  | foldArguments h pos c =>
    refine build fun s a ha => ?_
    exact Handle.typed_foldArguments (hfirst rfl) (hsecond rfl) ha
  | collectArguments h pos f =>
    refine build fun s a ha => ?_
    exact Handle.typed_collectArguments (hfirst rfl) (hsecond rfl) ha
  | guardWithTest test h fallback =>
    have hfallback : fallback.Typed G W := hhandles fallback (by simp [handles])
    refine build fun s a ha => ?_
    exact Handle.typed_guardWithTest (hfirst rfl) (hsecond rfl) hfallback ha
  | catchException h c handler =>
    refine build fun s a ha => ?_
    exact Handle.typed_catchException (hfirst rfl) (hsecond rfl) ha
  | constant t v =>
    refine build fun s a ha => ?_
    exact Handle.typed_constant hlive.1 ha
  | identity t =>
    refine build fun s a ha => ?_
    exact Handle.typed_identity ha
  | throwException ret c =>
    refine build fun s a ha => ?_
    exact Handle.typed_throwException ha
  | unlinked t message =>
    refine build fun s a ha => ?_
    obtain rfl := Except.ok.inj ha
    exact Handle.typed_unlinked t message
  | asType h new => exact yields_asType (hfirst rfl) new
  | asCollectorAt h pos array count =>
    refine build fun s a ha => ?_
    exact Handle.typed_asCollectorAt (hfirst rfl) ha
  | asCollector h array count =>
    refine build fun s a ha => ?_
    exact Handle.typed_asCollector (hfirst rfl) ha
  | asSpreaderAt h pos array count =>
    refine build fun s a ha => ?_
    exact Handle.typed_asSpreaderAt (hfirst rfl) ha
  | asSpreader h array count =>
    refine build fun s a ha => ?_
    exact Handle.typed_asSpreader (hfirst rfl) ha
  | asVarargsCollector h array =>
    refine build fun s a ha => ?_
    exact Handle.typed_asVarargsCollector (hfirst rfl) ha
  | asFixedArity h => exact .pure (Handle.typed_asFixedArity (hfirst rfl))
  | target site =>
    intro m hm
    have hfound := Link.Yields.ofExcept (G := G) (W := W) (m.store.getTarget site)
    exact hfound.mono (fun t ht => (hm.store.getTarget ht).2) m hm
  | invoker site =>
    intro m hm
    have hmade : Link.Yields G W (Link.build fun s => m.store.dynamicInvoker site s)
        (Handle.Typed G W) := .build fun s a ha => hm.store.dynamicInvoker ha
    exact hmade m hm

end Making

/-! ## Sessions -/

/-- What a program can do with handles, in any order: the machine it has reached, and the handles it
has made. It starts with well-typed slots and no call sites, and changes the store only as method
bodies may. All classes are there from the start, but which of them are found by name may differ from
one look-up to the next. -/
inductive Session (G : ClassGraph) : Machine → List Handle → Prop where
  | start (memberCache : Bool) {s : Store} (holds : s.Holds G) (sites : s.sites = #[]) :
    Session G { Machine.initial memberCache with store := s } []
  | made {m m' : Machine} {hs : List Handle} {mk : Making} {h : Handle} (before : Session G m hs)
      (uses : mk.Uses G m hs) (result : mk.run G m = .ok h m') : Session G m' (h :: hs)
  | refused {m m' : Machine} {hs : List Handle} {mk : Making} {e : Error} (before : Session G m hs)
      (uses : mk.Uses G m hs) (result : mk.run G m = .error e m') : Session G m' hs
  | stored {m : Machine} {hs : List Handle} {s : Store} (before : Session G m hs)
      (becomes : m.store.Becomes G hs s) : Session G { m with store := s } hs
  | called {m m' : Machine} {hs : List Handle} {P : Program} {depth : Nat} {h : Handle}
      {args : List Value} {v : Value} (before : Session G m hs) (graph : P.graph = G)
      (honest : P.Honest hs) (mem : h ∈ hs) (live : Value.AllLive m.store.live args)
      (result : h.invokeExact P depth args m = .ok v m') : Session G m' hs
  | failed {m m' : Machine} {hs : List Handle} {P : Program} {depth : Nat} {h : Handle}
      {args : List Value} {e : Error} (before : Session G m hs) (graph : P.graph = G)
      (honest : P.Honest hs) (mem : h ∈ hs) (live : Value.AllLive m.store.live args)
      (result : h.invokeExact P depth args m = .error (.error e) m') : Session G m' hs

/-- The extent that a machine is typed over is that of its store. -/
theorem Machine.Typed.extent_eq {G : ClassGraph} {W : Extent} {m : Machine} (hm : m.Typed G W) :
    m.store.extent = W := hm.store.extent

/-- Handles stay typed while the extent grows. -/
theorem Machine.Typed.withHandles {G : ClassGraph} {W W' : Extent} {m : Machine} {hs : List Handle}
    (hm : m.Typed G W') (hW : W.Grows W') (hhs : ∀ h ∈ hs, h.Typed G W) :
    m.Typed G m.store.extent ∧ ∀ h ∈ hs, h.Typed G m.store.extent := by
  rw [hm.extent_eq]
  exact ⟨hm, fun h hh => (hhs h hh).mono hW⟩

/-- Whatever happens in a session, the machine and the handles made are typed. -/
theorem Session.typed {G : ClassGraph} (hG : G.MembersNumbered) (hI : G.InterfacesBare)
    {m : Machine} {hs : List Handle} (hS : Session G m hs) :
    m.Typed G m.store.extent ∧ ∀ h ∈ hs, h.Typed G m.store.extent := by
  -- what is carried along: the machine is typed over its own extent, and every handle made is
  induction hS with
  | start memberCache holds sites =>
    refine ⟨⟨⟨holds, rfl, fun id site h hsite _ => ?_⟩, ?_, ?_, ?_, ?_⟩, fun h hh => ?_⟩
    · rw [sites] at hsite
      cases hsite
    · intro k t hk
      cases hk
    · intro k t hk
      cases hk
    · intro cell n h hk
      cases hk
    · intro k h hk
      cases hk
    · cases hh
  | @made m m' hs mk h _ uses result ih =>
    obtain ⟨hm, hhs⟩ := ih
    have hyields := Making.yields_run hG (fun h hh => hhs h (uses.handles h hh)) uses.live uses.valid
    have hstep := hyields m hm
    rw [result] at hstep
    obtain ⟨hm', hh⟩ := hstep
    rw [hm'.extent_eq]
    refine ⟨hm', fun t ht => ?_⟩
    rcases List.mem_cons.1 ht with rfl | ht
    · exact hh
    · exact hhs t ht
  | @refused m m' hs mk e _ uses result ih =>
    obtain ⟨hm, hhs⟩ := ih
    have hyields := Making.yields_run hG (fun h hh => hhs h (uses.handles h hh)) uses.live uses.valid
    have hstep := hyields m hm
    rw [result] at hstep
    exact hstep.withHandles (.refl _) hhs
  | @stored m hs s _ becomes ih =>
    obtain ⟨hm, hhs⟩ := ih
    obtain ⟨hW, hs'⟩ := hm.store.becomes becomes hhs
    exact (hm.withStore hW hs').withHandles hW hhs
  | @called m m' hs P depth h args v _ graph honest mem live result ih =>
    subst graph
    obtain ⟨hm, hhs⟩ := ih
    have hends := (Handle.sound_invokeExact hG hI honest hhs depth (hhs h mem) live m hm).2
    rw [result] at hends
    obtain ⟨W', hW, hm', -⟩ := hends
    exact hm'.withHandles hW hhs
  | @failed m m' hs P depth h args e _ graph honest mem live result ih =>
    subst graph
    obtain ⟨hm, hhs⟩ := ih
    have hends := (Handle.sound_invokeExact hG hI honest hhs depth (hhs h mem) live m hm).2
    rw [result] at hends
    obtain ⟨W', hW, hm', -⟩ := hends
    exact hm'.withHandles hW hhs

/-! ## Safety -/

/-- How the call of a handle may end: with a live value of the result type, or with an error other than
the internal ones, the slots being well typed both times; or because the depth allowed was used up. It
never ends with a fault. -/
def Handle.EndsWell (P : Program) (h : Handle) : EStateM.Result Stop Machine Value → Prop
  | .ok v m =>
    v.isResultOf P.graph h.type.ret = true ∧ v.Lives m.store.live ∧ m.store.Holds P.graph
  | .error (.error e) m => e.isInternal = false ∧ m.store.Holds P.graph
  | .error (.fault _) _ => False
  | .error .exhausted _ => True

/-- **Well-typed calls do not go wrong.** However a handle has been made, its call ends well, and just
as it does under watch: no handle on the way is called with arguments that it does not take, answers
what is not of its type, or fails with an internal error. Arguments that do not fit the signature are
refused as wrong arguments, and nothing else happens. -/
theorem Session.invokeExact_safe {P : Program} (hG : P.graph.MembersNumbered)
    (hI : P.graph.InterfacesBare) {m : Machine} {hs : List Handle} (hS : Session P.graph m hs)
    (hP : P.Honest hs) {h : Handle} (hh : h ∈ hs) {args : List Value}
    (hargs : Value.AllLive m.store.live args) (depth : Nat) :
    h.EndsWell P (h.invokeExact P depth args m) ∧
      h.invokeExact P depth args m = h.invokeExactWatched P depth args m ∧
      (Value.fitAll P.graph args h.type.params = false →
        ∃ a, h.invokeExact P depth args m = .error (.error (.argument a)) m) := by
  obtain ⟨hm, hhs⟩ := hS.typed hG hI
  obtain ⟨hsame, hends⟩ := Handle.sound_invokeExact hG hI hP hhs depth (hhs h hh) hargs m hm
  refine ⟨?_, hsame.symm, fun hrefused => ?_⟩
  · generalize h.invokeExact P depth args m = r at hends
    cases r with
    | ok v m' =>
      obtain ⟨W', -, hm', hv⟩ := hends
      refine ⟨hv.result, ?_, hm'.store.holds⟩
      rw [hm'.store.live_eq]
      exact hv.lives
    | error e m' =>
      cases e with
      | error e =>
        obtain ⟨W', -, hm', he⟩ := hends
        exact ⟨he.internal, hm'.store.holds⟩
      | fault v => exact hends
      | exhausted => exact trivial
  · cases hchecked : h.type.check P.graph args with
    | ok u =>
      rw [Signature.check_eq_ok_iff.1 hchecked] at hrefused
      cases hrefused
    | error e =>
      obtain ⟨a, rfl⟩ := Signature.eq_argument_of_check hchecked
      refine ⟨a, ?_⟩
      show EStateM.bind (Run.ofExcept (h.type.check P.graph args)) _ m = _
      rw [hchecked]
      rfl

/-- The program whose bodies answer the zero of their result type. -/
def Program.zeros (G : ClassGraph) : Program := ⟨G, fun m _ => pure (.zero (G.method m).desc.ret)⟩

theorem Program.honest_zeros (G : ClassGraph) (hs : List Handle) : (zeros G).Honest hs where
  answers m args s s' v _ _ hholds hbody := by
    obtain ⟨rfl, rfl⟩ : .zero (G.method m).desc.ret = v ∧ s = s' := by
      simpa [zeros, pure, EStateM.pure] using hbody
    exact ⟨Value.isResultOf_zero _ _, Value.lives_zero _ _, .of_sites hholds List.prefix_rfl rfl⟩
  throws m args s s' o _ _ _ hbody := by
    simp [zeros, pure, EStateM.pure] at hbody

theorem twins_bare : twins.InterfacesBare := by
  intro c i hi
  have hnone : twins.interfaces c = [] :=
    ClassGraph.forall_decl (p := fun d => d.interfaces = []) (by decide) (by decide) rfl c
  rw [hnone] at hi
  cases hi

/-- A handle on one of the twins, looked up with all rights and seen as answering an object, answers a
boxed zero. -/
theorem Session.invokeExact_safe_of_twins : ∃ (m m' : Machine) (h k : Handle),
    Session twins m [h, k] ∧ h.EndsWell (.zeros twins) (h.invokeExact (.zeros twins) 3 [] m) ∧
      h.invokeExact (.zeros twins) 3 [] m = .ok (.boxed (.prim (.int 0))) m' := by
  have hstart := Session.start true (Store.Holds.initial twins) rfl
  have hlook := @Session.made twins _ _ _
    (.member .initial .trustedLookup (.unreflect ⟨bootstrapCount, 0⟩)) _ hstart
    ⟨fun h hh => absurd hh List.not_mem_nil, trivial, fun t l op hop => by
      obtain rfl : MemberOp.unreflect ⟨bootstrapCount, 0⟩ = op := (Making.member.inj hop).2.2
      exact Nat.succ_pos 1⟩ rfl
  have hbox := @Session.made twins _ _ _ (.asType _ ⟨[], .object, by simp, by decide⟩) _ hlook
    ⟨fun h hh => hh, trivial, fun t l op hop => Making.noConfusion hop⟩ rfl
  have hnone : ∀ m : Machine, Value.AllLive m.store.live [] := fun _ => trivial
  have hsafe := hbox.invokeExact_safe (P := .zeros twins) twins_numbered twins_bare
    (Program.honest_zeros twins _) List.mem_cons_self (hnone _) 3
  exact ⟨_, _, _, _, hbox, hsafe.1, rfl⟩

end HandleCalculus
