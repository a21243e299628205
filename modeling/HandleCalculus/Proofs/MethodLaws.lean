import HandleCalculus.Proofs.CollectorMemory

/-!
# Laws for handles on methods

Something may be said of the node of a handle on a method and of the parameters that it is seen
under (`MethodLaw`). It is then said of all such nodes that a handle is made of (`Handle.Obeys`),
wherever a call of the handle may come to them. No combinator makes a node that calls a method: it
puts a node of its own on top of the handles it is given, or sees the node of one of them under
parameters that ask for more. So a law that look-ups keep is kept by whatever is made of what they
find (`Making.lawful_run`).

A variable-arity handle passes its arguments on as they are, so its target is seen under two lists
of parameters, its own and those of the handle. Of a handle that calls a call site nothing can be
said here: its target may be any other one by the time it is called.
-/

set_option autoImplicit false

namespace HandleCalculus

/-! ## Laws -/

/-- Something said of nodes that call a method, each seen under some parameters. It stays true under
parameters that ask for more. -/
structure MethodLaw (G : ClassGraph) where
  holds : Node Handle → List Ty → Prop
  view : ∀ {n : Node Handle} {ps qs : List Ty}, holds n ps →
    List.Forall₂ (fun p q => G.isAssignable q p = true) ps qs → holds n qs

/-- Whether a law holds of a node that is seen under the parameters, and of all nodes below it. -/
inductive Node.Obeys {G : ClassGraph} (L : MethodLaw G) : Node Handle → List Ty → Prop where
  | plain {n : Node Handle} {ps : List Ty} (fixed : n.variant ≠ .varargs)
      (unsited : n.variant ≠ .invoker)
      (law : ∀ m, n.member? = some (.method m) → L.holds n ps)
      (children : ∀ k ∈ n.children, Node.Obeys L k.node k.type.params) : Node.Obeys L n ps
  | varargs {k : Handle} {array : Ty} {cell : Stamp} {ps : List Ty}
      (target : Node.Obeys L k.node k.type.params) (passed : Node.Obeys L k.node ps) :
    Node.Obeys L (.varargs k array cell) ps

/-- Whether a law holds of all nodes that a handle is made of. -/
def Handle.Obeys {G : ClassGraph} (L : MethodLaw G) (h : Handle) : Prop :=
  Node.Obeys L h.node h.type.params

section Obeys

variable {G : ClassGraph} {L : MethodLaw G}

theorem Node.Obeys.view {n : Node Handle} {ps qs : List Ty} (hn : Node.Obeys L n ps)
    (hview : List.Forall₂ (fun p q => G.isAssignable q p = true) ps qs) : Node.Obeys L n qs := by
  induction hn with
  | plain fixed unsited law children =>
    exact .plain fixed unsited (fun m hm => L.view (law m hm) hview) children
  | varargs target passed _ ih => exact .varargs target (ih hview)

/-- The law holds of the handles that a node holds. -/
theorem Node.Obeys.child {n : Node Handle} {ps : List Ty} (hn : Node.Obeys L n ps) {k : Handle}
    (hk : k ∈ n.children) : k.Obeys L := by
  cases hn with
  | plain _ _ _ children => exact children k hk
  | varargs target _ =>
    obtain rfl := List.mem_singleton.1 hk
    exact target

theorem Node.Obeys.unsited {n : Node Handle} {ps : List Ty} (hn : Node.Obeys L n ps) :
    n.variant ≠ .invoker := by
  cases hn with
  | plain _ unsited => exact unsited
  | varargs => exact nofun

namespace Handle

variable {W : Extent} {h h' : Handle} {s : Stamp}

/-- A node that does not call a method itself. -/
theorem Obeys.of_node {t : Signature} {n : Node Handle} (hn : n.member? = none)
    (fixed : n.variant ≠ .varargs) (unsited : n.variant ≠ .invoker)
    (children : ∀ k ∈ n.children, k.Obeys L) : (⟨s, t, n⟩ : Handle).Obeys L := by
  refine .plain fixed unsited (fun m hm => ?_) children
  rw [hn] at hm
  cases hm

/-- A node that holds one handle. -/
theorem Obeys.of_target (hh : h.Obeys L) {t : Signature} {n : Node Handle} (hn : n.member? = none)
    (fixed : n.variant ≠ .varargs) (unsited : n.variant ≠ .invoker) (hchildren : n.children = [h]) :
    (⟨s, t, n⟩ : Handle).Obeys L := by
  refine .of_node hn fixed unsited fun k hk => ?_
  rw [hchildren] at hk
  obtain rfl := List.mem_singleton.1 hk
  exact hh

/-- A node that holds two handles. -/
theorem Obeys.of_two (hh : h.Obeys L) {k : Handle} (hk : k.Obeys L) {t : Signature}
    {n : Node Handle} (hn : n.member? = none) (fixed : n.variant ≠ .varargs)
    (unsited : n.variant ≠ .invoker) (hchildren : n.children = [h, k]) :
    (⟨s, t, n⟩ : Handle).Obeys L := by
  refine .of_node hn fixed unsited fun c hc => ?_
  rw [hchildren] at hc
  simp only [List.mem_cons, List.not_mem_nil, or_false] at hc
  rcases hc with rfl | rfl
  · exact hh
  · exact hk

/-! ## Combinators -/

theorem obeys_retype (hh : h.Obeys L) {t : Signature} (hmade : h.retype s t = .ok h')
    (hview : List.Forall₂ (fun p q => G.isAssignable q p = true) h.type.params t.params) :
    h'.Obeys L := by
  obtain ⟨hnode, rfl⟩ := retype_eq_ok hmade
  unfold Obeys
  rw [hnode]
  exact Node.Obeys.view hh hview

theorem obeys_insertArguments (hh : h.Obeys L) {pos : Nat} {vs : List Value}
    (hmade : h.insertArguments G s pos vs = .ok h') : h'.Obeys L := by
  rcases insertArguments_eq_ok hmade with rfl | ⟨t, bound, rfl⟩
  · exact hh
  · exact hh.of_target rfl nofun nofun rfl

theorem obeys_bindTo (hh : h.Obeys L) {v : Value} (hmade : h.bindTo G s v = .ok h') :
    h'.Obeys L :=
  obeys_insertArguments hh (insertArguments_of_bindTo hmade)

/-- What a reordering makes obeys the law; if two orders cancel out, it is the inner handle, perhaps seen
under parameters that ask for more. -/
theorem obeys_permuteArguments (ht : h.Typed G W) (hh : h.Obeys L) {new : Signature}
    {reorder : List Nat} (hmade : h.permuteArguments s new reorder = .ok h') : h'.Obeys L := by
  obtain ⟨hroutes, hpermuted⟩ := permuteArguments_eq_ok hmade
  have hchild : ∀ {inner : Handle} {order : List Nat}, h.node = .permute inner order →
      inner.Obeys L :=
    fun hnode => Node.Obeys.child hh (by rw [hnode]; exact List.mem_singleton_self _)
  cases hpermuted with
  | same _ _ => exact hh
  | fresh _ => exact hh.of_target rfl nofun nofun rfl
  | collapsed hnode => exact (hchild hnode).of_target rfl nofun nofun rfl
  | cancelled hnode _ _ _ => exact hchild hnode
  | retyped hnode hlength hidentity _ =>
    obtain ⟨-, hcombined, hret⟩ := ht.combined hroutes hnode
    have hview := sub_of_isIdentityOrder hcombined hlength hidentity hret
    have hinner := hchild hnode
    exact Node.Obeys.view hinner hview.params

theorem obeys_dropArguments (ht : h.Typed G W) (hh : h.Obeys L) {pos : Nat} {types : List Ty}
    (hmade : h.dropArguments s pos types = .ok h') : h'.Obeys L := by
  rcases dropArguments_eq_ok hmade with rfl | ⟨new, reorder, hmade⟩
  · exact hh
  · exact obeys_permuteArguments ht hh hmade

theorem obeys_filterArguments (hh : h.Obeys L) {pos : Nat} {filters : List (Option Handle)}
    (hf : ∀ f, some f ∈ filters → f.Obeys L)
    (hmade : h.filterArguments s pos filters = .ok h') : h'.Obeys L := by
  rcases filterArguments_eq_ok hmade with rfl | ⟨t, rfl⟩
  · exact hh
  refine .of_node rfl nofun nofun fun k hk => ?_
  rcases List.mem_cons.1 hk with rfl | hk
  · exact hh
  · obtain ⟨f, hmem, rfl⟩ := List.mem_filterMap.1 hk
    exact hf k hmem

theorem obeys_filterReturnValue {f : Handle} (hh : h.Obeys L) (hf : f.Obeys L)
    (hmade : h.filterReturnValue s f = .ok h') : h'.Obeys L := by
  obtain ⟨t, rfl⟩ := filterReturnValue_eq_ok hmade
  exact hh.of_two hf rfl nofun nofun rfl

theorem obeys_foldArguments {c : Handle} (hh : h.Obeys L) (hc : c.Obeys L) {pos : Nat}
    (hmade : h.foldArguments s pos c = .ok h') : h'.Obeys L := by
  obtain ⟨t, rfl⟩ := foldArguments_eq_ok hmade
  exact hh.of_two hc rfl nofun nofun rfl

theorem obeys_collectArguments {f : Handle} (ht : h.Typed G W) (hh : h.Obeys L) (hf : f.Obeys L)
    {pos : Nat} (hmade : h.collectArguments s pos f = .ok h') : h'.Obeys L := by
  obtain ⟨_, _, widened, t, hwidened, rfl⟩ := collectArguments_eq_ok hmade
  exact (obeys_dropArguments ht hh hwidened).of_two hf rfl nofun nofun rfl

theorem obeys_guardWithTest {test fallback : Handle} (htest : test.Obeys L) (hh : h.Obeys L)
    (hf : fallback.Obeys L) (hmade : guardWithTest s test h fallback = .ok h') : h'.Obeys L := by
  obtain rfl := guardWithTest_eq_ok hmade
  refine .of_node rfl nofun nofun fun k hk => ?_
  simp only [Node.children, List.mem_cons, List.not_mem_nil, or_false] at hk
  rcases hk with rfl | rfl | rfl
  · exact htest
  · exact hh
  · exact hf

theorem obeys_catchException {c : ClassId} {handler : Handle} (hh : h.Obeys L)
    (hk : handler.Obeys L) (hmade : h.catchException G s c handler = .ok h') : h'.Obeys L := by
  obtain rfl := catchException_eq_ok hmade
  exact hh.of_two hk rfl nofun nofun rfl

/-! ## Leaves -/

/-- A leaf that calls no method and no call site. -/
theorem Obeys.of_leaf {t : Signature} {n : Node Handle} (hn : n.member? = none)
    (fixed : n.variant ≠ .varargs) (unsited : n.variant ≠ .invoker) (hchildren : n.children = []) :
    (⟨s, t, n⟩ : Handle).Obeys L := by
  refine .of_node hn fixed unsited fun k hk => ?_
  rw [hchildren] at hk
  cases hk

theorem obeys_constant {t : Ty} {v : Value} (hmade : constant G s t v = .ok h') : h'.Obeys L := by
  obtain ⟨type, w, rfl⟩ := constant_eq_ok hmade
  exact .of_leaf rfl nofun nofun rfl

theorem obeys_identity {t : Ty} (hmade : identity s t = .ok h') : h'.Obeys L := by
  obtain ⟨type, rfl⟩ := identity_eq_ok hmade
  exact .of_leaf rfl nofun nofun rfl

theorem obeys_throwException {ret : Ty} {c : ClassId}
    (hmade : throwException G s ret c = .ok h') : h'.Obeys L := by
  obtain ⟨type, rfl⟩ := throwException_eq_ok hmade
  exact .of_leaf rfl nofun nofun rfl

/-! ## Adaptation -/

theorem obeys_convertTo (hh : h.Obeys L) {new : Signature} (hmade : h.convertTo G s new = .ok h') :
    h'.Obeys L := by
  rcases convertTo_eq_ok hmade with rfl | ⟨args, ret, hlength, hargs, -, ⟨hkeep, -, hretype⟩ | rfl⟩
  · exact hh
  · exact obeys_retype hh hretype (forall₂_of_plans? hlength hargs hkeep)
  · exact hh.of_target rfl nofun nofun rfl

theorem obeys_asCollectorAt (hh : h.Obeys L) {pos count : Nat} {array : Ty}
    (hmade : h.asCollectorAt G s pos array count = .ok h') : h'.Obeys L := by
  obtain ⟨c, t, -, -, -, hnode, -⟩ := asCollectorAt_eq_ok hmade
  obtain ⟨stamp, type, node⟩ := h'
  obtain rfl : node = .collect h pos count array := hnode
  exact hh.of_target rfl nofun nofun rfl

theorem obeys_asCollector (hh : h.Obeys L) {count : Nat} {array : Ty}
    (hmade : h.asCollector G s array count = .ok h') : h'.Obeys L := by
  obtain ⟨pos, hmade⟩ := asCollectorAt_of_asCollector hmade
  exact obeys_asCollectorAt hh hmade

theorem obeys_asSpreaderAt (hh : h.Obeys L) {pos count : Nat} {array : Ty}
    (hmade : h.asSpreaderAt G s pos array count = .ok h') : h'.Obeys L := by
  obtain ⟨t, rfl⟩ := asSpreaderAt_made hmade
  exact hh.of_target rfl nofun nofun rfl

theorem obeys_asSpreader (hh : h.Obeys L) {count : Nat} {array : Ty}
    (hmade : h.asSpreader G s array count = .ok h') : h'.Obeys L := by
  obtain ⟨pos, hmade⟩ := asSpreaderAt_of_asSpreader hmade
  exact obeys_asSpreaderAt hh hmade

/-- Without its variable arity, a handle obeys under its own parameters as well as under those of
the target. -/
theorem Obeys.asFixedArity (hh : h.Obeys L) :
    h.asFixedArity.Obeys L ∧ Node.Obeys L h.asFixedArity.node h.type.params := by
  unfold Handle.asFixedArity
  split
  · next k array cell hnode =>
    unfold Obeys at hh
    rw [hnode] at hh
    cases hh with
    | plain fixed => exact absurd rfl fixed
    | varargs target passed => exact ⟨target, passed⟩
  · exact ⟨hh, hh⟩

theorem obeys_asVarargsCollector (hh : h.Obeys L) {array : Ty}
    (hmade : h.asVarargsCollector G s array = .ok h') : h'.Obeys L := by
  rcases asVarargsCollector_eq_ok hmade with rfl | rfl
  · exact hh
  · exact .varargs hh.asFixedArity.1 hh.asFixedArity.2

end Handle

end Obeys

/-! ## Making handles -/

/-- Whether the collectors that variable-arity handles remember obey the law. -/
def Machine.Obeys {G : ClassGraph} (L : MethodLaw G) (m : Machine) : Prop :=
  ∀ cell n h, m.collectors.lookup cell = some (n, h) → h.Obeys L

/-- Whether a computation on a machine that obeys a law leaves it so, and makes a handle that does.
-/
def Link.Lawful {G : ClassGraph} (L : MethodLaw G) (x : Link Handle) : Prop :=
  ∀ m : Machine, m.Obeys L →
    match x m with
    | .ok h m' => m'.Obeys L ∧ h.Obeys L
    | .error _ m' => m'.Obeys L

section Lawful

variable {G : ClassGraph} {L : MethodLaw G} {W : Extent}

namespace Link.Lawful

theorem pure {h : Handle} (hh : h.Obeys L) : Link.Lawful L (Pure.pure h) := fun _ hm => ⟨hm, hh⟩

theorem bind {x : Link Handle} {f : Handle → Link Handle} (hx : Link.Lawful L x)
    (hf : ∀ h, h.Obeys L → Link.Lawful L (f h)) : Link.Lawful L (x >>= f) := by
  intro m hm
  have hstep := hx m hm
  show match EStateM.bind x f m with
    | .ok h m' => m'.Obeys L ∧ h.Obeys L
    | .error _ m' => m'.Obeys L
  unfold EStateM.bind
  cases hxm : x m with
  | ok h m' =>
    rw [hxm] at hstep
    exact hf h hstep.2 m' hstep.1
  | error e m' =>
    rw [hxm] at hstep
    exact hstep

theorem build {f : Stamp → Except Error Handle} (hf : ∀ s h, f s = .ok h → h.Obeys L) :
    Link.Lawful L (Link.build f) := by
  intro m hm
  unfold Link.build
  cases hfm : f m.nextStamp with
  | ok h => exact ⟨hm, hf _ h hfm⟩
  | error e => exact hm

end Link.Lawful

theorem lawful_freshCollector {k : Handle} (hk : k.Obeys L) (array : Ty) (cell : Stamp)
    (count : Nat) : Link.Lawful L (freshCollector G k array cell count) := by
  have hbuild : Link.Lawful L (Link.build fun s => k.asCollector G s array count) :=
    .build fun s h hh => Handle.obeys_asCollector hk hh
  intro m hm
  have hstep := hbuild m hm
  unfold freshCollector
  cases hmade : Link.build (fun s => k.asCollector G s array count) m with
  | error e m' =>
    rw [hmade] at hstep
    exact hstep
  | ok h m' =>
    rw [hmade] at hstep
    obtain ⟨hm', hh⟩ := hstep
    have hcollectors : ∀ c e, ((cell, count, h) :: m'.collectors).lookup c = some e →
        e.2.Obeys L := forall_lookup_cons (fun c e => hm' c e.1 e.2) hh
    exact ⟨fun c n h' => hcollectors c (n, h'), hh⟩

theorem lawful_collectorFor {k : Handle} (hk : k.Obeys L) (array : Ty) (cell : Stamp)
    (count : Nat) : Link.Lawful L (collectorFor G k array cell count) := by
  intro m hm
  rcases collectorFor_cases G k array cell count m with ⟨h, hfound, hh⟩ | hfresh
  · rw [hh]
    exact ⟨hm, hm cell count h hfound⟩
  · rw [hfresh]
    exact lawful_freshCollector hk array cell count m hm

theorem Handle.lawful_asType {h : Handle} (hh : h.Obeys L) (new : Signature) :
    Link.Lawful L (h.asType G new) := by
  have hconvert : ∀ k : Handle, k.Obeys L →
      Link.Lawful L (Link.build fun s => k.convertTo G s new) :=
    fun k hk => .build fun s h' hmade => obeys_convertTo hk hmade
  unfold asType
  split
  · exact .pure hh
  split
  · next k array cell hnode =>
    have hk : k.Obeys L := Node.Obeys.child hh (by rw [hnode]; exact List.mem_singleton_self _)
    extract_lets passesArray
    split
    · exact hconvert k hk
    · split
      · exact fun m hm => hm
      · exact .bind (lawful_collectorFor hk array cell _) fun c hc => hconvert c hc
  · exact hconvert h hh

/-- The call site that a handle is made from, if it is. -/
def Making.site? : Making → Option SiteId
  | .target site | .invoker site => some site
  | _ => none

/-- Whatever is made from handles that obey a law obeys it, look-ups and call sites left aside. -/
theorem Making.lawful_run {mk : Making} (hsite : mk.site? = none)
    (hmember : ∀ table l op, mk ≠ .member table l op) (htyped : ∀ h ∈ mk.handles, h.Typed G W)
    (hhandles : ∀ h ∈ mk.handles, h.Obeys L) : Link.Lawful L (mk.run G) := by
  have hfirst : ∀ {h : Handle} {hs : List Handle}, mk.handles = h :: hs →
      h.Typed G W ∧ h.Obeys L := by
    intro h hs hmk
    have hmem : h ∈ mk.handles := by
      rw [hmk]
      exact List.mem_cons_self
    exact ⟨htyped h hmem, hhandles h hmem⟩
  have hsecond : ∀ {h k : Handle} {hs : List Handle}, mk.handles = h :: k :: hs → k.Obeys L :=
    fun hmk => hhandles _ (by rw [hmk]; exact List.mem_cons_of_mem _ List.mem_cons_self)
  have build : ∀ {f : Stamp → Except Error Handle}, (∀ s a, f s = .ok a → a.Obeys L) →
      Link.Lawful L (Link.build f) := fun hf => .build hf
  unfold run
  cases mk with
  | member table l op => exact absurd rfl (hmember table l op)
  | insertArguments => exact build fun s a ha => Handle.obeys_insertArguments (hfirst rfl).2 ha
  | bindTo => exact build fun s a ha => Handle.obeys_bindTo (hfirst rfl).2 ha
  | permuteArguments =>
    exact build fun s a ha => Handle.obeys_permuteArguments (hfirst rfl).1 (hfirst rfl).2 ha
  | dropArguments =>
    exact build fun s a ha => Handle.obeys_dropArguments (hfirst rfl).1 (hfirst rfl).2 ha
  | filterArguments h pos filters =>
    refine build fun s a ha => Handle.obeys_filterArguments (hfirst rfl).2 (fun f hf => ?_) ha
    refine hhandles f (List.mem_cons_of_mem _ ?_)
    exact List.mem_filterMap.2 ⟨some f, hf, rfl⟩
  | filterReturnValue =>
    exact build fun s a ha => Handle.obeys_filterReturnValue (hfirst rfl).2 (hsecond rfl) ha
  | foldArguments =>
    exact build fun s a ha => Handle.obeys_foldArguments (hfirst rfl).2 (hsecond rfl) ha
  | collectArguments =>
    exact build fun s a ha =>
      Handle.obeys_collectArguments (hfirst rfl).1 (hfirst rfl).2 (hsecond rfl) ha
  | guardWithTest test h fallback =>
    have hfallback : fallback.Obeys L := hhandles fallback (by simp [handles])
    exact build fun s a ha =>
      Handle.obeys_guardWithTest (hfirst rfl).2 (hsecond rfl) hfallback ha
  | catchException =>
    exact build fun s a ha => Handle.obeys_catchException (hfirst rfl).2 (hsecond rfl) ha
  | constant => exact build fun s a ha => Handle.obeys_constant ha
  | identity => exact build fun s a ha => Handle.obeys_identity ha
  | throwException => exact build fun s a ha => Handle.obeys_throwException ha
  | unlinked =>
    refine build fun s a ha => ?_
    obtain rfl := Except.ok.inj ha
    refine .of_leaf rfl ?_ ?_ rfl <;> intro h <;> cases h
  | asType h new => exact Handle.lawful_asType (hfirst rfl).2 new
  | asCollectorAt => exact build fun s a ha => Handle.obeys_asCollectorAt (hfirst rfl).2 ha
  | asCollector => exact build fun s a ha => Handle.obeys_asCollector (hfirst rfl).2 ha
  | asSpreaderAt => exact build fun s a ha => Handle.obeys_asSpreaderAt (hfirst rfl).2 ha
  | asSpreader => exact build fun s a ha => Handle.obeys_asSpreader (hfirst rfl).2 ha
  | asVarargsCollector =>
    exact build fun s a ha => Handle.obeys_asVarargsCollector (hfirst rfl).2 ha
  | asFixedArity => exact .pure (hfirst rfl).2.asFixedArity.1
  | target site => cases hsite
  | invoker site => cases hsite

/-- What a look-up does to the handle that it has found. -/
theorem MemberOp.obeys_finish {op : MemberOp} {a h : Handle} {m m' : Machine} (ha : a.Obeys L)
    (hh : op.finish G a m = .ok h m') : h.Obeys L :=
  of_finish (fun hk => hk.asFixedArity.1) (fun hk hmade => Handle.obeys_bindTo hk hmade)
    (fun hk hmade => Handle.obeys_asVarargsCollector hk hmade) ha hh

/-- Asking for members leaves the collectors alone. -/
theorem Lookup.sameCollectors_perform (C : Classes) (l : Lookup) (op : MemberOp) :
    (l.perform C op).Stays fun m n => n.collectors = m.collectors := by
  have hallows : Machine.Allows fun m n => n.collectors = m.collectors :=
    ⟨fun _ => rfl, fun h h' => h'.trans h, fun _ _ => rfl, fun _ _ => rfl⟩
  refine stays_perform hallows l op fun u key _ _ m => ?_
  obtain ⟨h, members, n, e, hm⟩ := exists_of_cached (Use.makes_make key.type) m
  rw [Link.start, hm]
  rfl

/-- A machine stays lawful whatever is made from lawful handles, and whichever members are asked
for. -/
theorem Making.obeys_start {mk : Making} (hsite : mk.site? = none)
    (htyped : ∀ h ∈ mk.handles, h.Typed G W) (hhandles : ∀ h ∈ mk.handles, h.Obeys L) {m : Machine}
    (hm : m.Obeys L) : ((mk.run G).start m).2.Obeys L := by
  by_cases hmember : ∃ table l op, mk = .member table l op
  · obtain ⟨table, l, op, rfl⟩ := hmember
    have hsame := l.sameCollectors_perform ⟨G, table⟩ op m
    intro cell n h hfind
    rw [show (((member table l op).run G).start m).2.collectors = m.collectors from hsame] at hfind
    exact hm cell n h hfind
  · have hstep := mk.lawful_run (G := G) hsite (fun table l op h => hmember ⟨table, l, op, h⟩) htyped
      hhandles m hm
    unfold Link.start
    cases hrun : mk.run G m with
    | ok h m' =>
      rw [hrun] at hstep
      exact hstep.1
    | error e m' =>
      rw [hrun] at hstep
      exact hstep

end Lawful

/-! ## Dealings -/

/-- What a program can do that gets its handles from lookups of one kind: the machine it has
reached, and the handles that it has. From these it makes others, call sites left aside. It may try
anything, with lookups of whatever kind, and let go of the outcome. And whatever else happens, calls
among it, leaves slots, call sites and thunks in order, and does not touch what is remembered of
handles. -/
inductive Dealings (G : ClassGraph) (own : Lookup → Prop) : Machine → List Handle → Prop where
  | start (memberCache : Bool) {s : Store} (holds : s.Holds G) (sites : s.sites = #[]) :
    Dealings G own { Machine.initial memberCache with store := s } []
  | made {m m' : Machine} {hs : List Handle} {mk : Making} {h : Handle} (before : Dealings G own m hs)
      (uses : mk.Uses G m hs) (unsited : mk.site? = none)
      (lookup : ∀ table l op, mk = .member table l op → own l) (result : mk.run G m = .ok h m') :
    Dealings G own m' (h :: hs)
  | tried {m : Machine} {hs : List Handle} {mk : Making} (before : Dealings G own m hs)
      (uses : mk.Uses G m hs) (unsited : mk.site? = none) :
    Dealings G own ((mk.run G).start m).2 hs
  | other {m n : Machine} {hs : List Handle} (before : Dealings G own m hs)
      (typed : n.Typed G n.store.extent) (grows : m.store.extent.Grows n.store.extent)
      (settled : n.Settled) (members : n.members = m.members)
      (collectors : n.collectors = m.collectors) :
    Dealings G own n hs

namespace Dealings

variable {G : ClassGraph} {own : Lookup → Prop} {m : Machine} {hs : List Handle}

/-- A member is asked for. -/
theorem found (hD : Dealings G own m hs) (table : ClassTable) (l : Lookup) (op : MemberOp)
    {h : Handle} {m' : Machine} (hop : op.IsValid G) (hlive : Value.AllLive m.store.live op.values)
    (hl : own l) (hh : l.perform ⟨G, table⟩ op m = .ok h m') : Dealings G own m' (h :: hs) := by
  refine @made _ _ _ _ _ (.member table l op) _ hD
    ⟨fun k hk => absurd hk List.not_mem_nil, hlive, fun table' l' op' hmk => ?_⟩ rfl
    (fun table' l' op' hmk => ?_) hh
  · obtain rfl := (Making.member.inj hmk).2.2
    exact hop
  · obtain rfl := (Making.member.inj hmk).2.1
    exact hl

/-- Whatever is done, the machine and the handles are typed. -/
theorem typed (hG : G.MembersNumbered) (hD : Dealings G own m hs) :
    m.Typed G m.store.extent ∧ ∀ h ∈ hs, h.Typed G m.store.extent := by
  induction hD with
  | start memberCache holds sites =>
    refine ⟨⟨⟨holds, rfl, fun id site h hsite _ => ?_⟩, ?_, ?_, ?_, ?_⟩, fun h hh => ?_⟩
    · rw [sites] at hsite
      cases hsite
    · intro k t hk
      cases hk
    · intro k t hk
      cases hk
    · intro cell n h hk
      cases hk
    · intro k h hk
      cases hk
    · cases hh
  | @made m m' hs mk h _ uses _ _ result ih =>
    obtain ⟨hm, hhs⟩ := ih
    have hstep := Making.yields_run hG (fun h hh => hhs h (uses.handles h hh)) uses.live uses.valid m hm
    rw [result] at hstep
    obtain ⟨hm', hh⟩ := hstep
    rw [hm'.extent_eq]
    refine ⟨hm', fun t ht => ?_⟩
    rcases List.mem_cons.1 ht with rfl | ht
    · exact hh
    · exact hhs t ht
  | @tried m hs mk _ uses _ ih =>
    obtain ⟨hm, hhs⟩ := ih
    have hstep := Making.yields_run hG (fun h hh => hhs h (uses.handles h hh)) uses.live uses.valid m hm
    unfold Link.start
    cases hrun : mk.run G m with
    | ok h m' =>
      rw [hrun] at hstep
      exact hstep.1.withHandles (.refl _) hhs
    | error e m' =>
      rw [hrun] at hstep
      exact hstep.withHandles (.refl _) hhs
  | other _ typed grows _ _ _ ih => exact ⟨typed, fun h hh => (ih.2 h hh).mono grows⟩

/-- So are the thunks in order. -/
theorem settled (hD : Dealings G own m hs) : m.Settled := by
  induction hD with
  | start memberCache _ _ =>
    have hinitial := (Machine.Reached.start memberCache).settled
    exact ⟨hinitial.table, hinitial.cells⟩
  | @made m m' hs mk h _ _ _ _ result ih =>
    have hsame := mk.sameThunks_run G m
    rw [Link.start_of_ok result] at hsame
    exact hsame.settled ih
  | @tried m hs mk _ _ _ ih => exact (mk.sameThunks_run G m).settled ih
  | other _ _ _ settled => exact settled

/-- **Laws are kept.** A law that holds of what the lookups find holds of whatever handles come of
it. -/
theorem obeys (hG : G.MembersNumbered) {L : MethodLaw G}
    (hfound : ∀ {m m' : Machine} {table : ClassTable} {l : Lookup} {op : MemberOp} {h : Handle},
      own l → op.IsValid G → m.Typed G m.store.extent → l.perform ⟨G, table⟩ op m = .ok h m' →
      h.Obeys L) (hD : Dealings G own m hs) : m.Obeys L ∧ ∀ h ∈ hs, h.Obeys L := by
  induction hD with
  | start memberCache holds sites => exact ⟨nofun, nofun⟩
  | @made m m' hs mk h before uses unsited lookup result ih =>
    obtain ⟨hm, hhs⟩ := ih
    obtain ⟨hmTyped, htyped⟩ := before.typed hG
    have hhandles : ∀ k ∈ mk.handles, k.Obeys L := fun k hk => hhs k (uses.handles k hk)
    have htypes : ∀ k ∈ mk.handles, k.Typed G m.store.extent := fun k hk => htyped k (uses.handles k hk)
    have hm' := mk.obeys_start unsited htypes hhandles hm
    rw [Link.start_of_ok result] at hm'
    refine ⟨hm', fun k hk => ?_⟩
    rcases List.mem_cons.1 hk with rfl | hk
    · by_cases hmember : ∃ table l op, mk = .member table l op
      · obtain ⟨table, l, op, rfl⟩ := hmember
        exact hfound (lookup table l op rfl) (uses.valid table l op rfl) hmTyped result
      · have hstep := mk.lawful_run (G := G) unsited (fun table l op h => hmember ⟨table, l, op, h⟩)
          htypes hhandles m hm
        rw [result] at hstep
        exact hstep.2
    · exact hhs k hk
  | tried before uses unsited ih =>
    obtain ⟨hm, hhs⟩ := ih
    have htyped := (before.typed hG).2
    exact ⟨Making.obeys_start unsited (fun k hk => htyped k (uses.handles k hk))
      (fun k hk => hhs k (uses.handles k hk)) hm, hhs⟩
  | other _ _ _ _ _ collectors ih =>
    refine ⟨fun cell n h hfind => ?_, ih.2⟩
    rw [collectors] at hfind
    exact ih.1 cell n h hfind

end Dealings

end HandleCalculus
