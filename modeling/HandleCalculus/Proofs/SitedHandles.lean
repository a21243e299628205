import HandleCalculus.Proofs.MakingHistory
import HandleCalculus.Proofs.ReceiverNarrowing

/-!
# The call sites of a handle

The invokers that a handle is made of say which call sites a call of it may come to, whatever the
targets on the way are. No combinator puts in an invoker of its own, and no look-up answers one; only
a site hands them out, and only one whose target can change. So a program that makes handles of those
it has cannot name a site before that is there, nor one that is constant (`Making.sited_run`).
-/

set_option autoImplicit false

namespace HandleCalculus

/-! ## The call sites of a handle -/

/-- Whether all invokers that a handle is made of are of certain sites. -/
inductive Handle.Sited (S : SiteId → Prop) : Handle → Prop where
  | intro {h : Handle} (own : ∀ site, h.node = .invoker site → S site)
      (held : ∀ k ∈ h.children, k.Sited S) : h.Sited S

namespace Handle

variable {G : ClassGraph} {S S' : SiteId → Prop} {s : Stamp} {h h' k : Handle}

namespace Sited

theorem held (hh : h.Sited S) (hk : k ∈ h.children) : k.Sited S := by
  cases hh with
  | intro _ held => exact held k hk

theorem own (hh : h.Sited S) {site : SiteId} (hnode : h.node = .invoker site) : S site := by
  cases hh with
  | intro own _ => exact own site hnode

theorem congr (hh : h.Sited S) (hnode : h'.node = h.node) : h'.Sited S := by
  refine .intro (fun site hn => hh.own (hnode.symm.trans hn)) fun k hk => hh.held ?_
  rwa [children, ← hnode]

theorem mono (hh : h.Sited S) (hS : ∀ site, S site → S' site) : h.Sited S' := by
  induction hh with
  | intro own _ ih => exact .intro (fun site hn => hS site (own site hn)) ih

/-- A node that is no invoker itself. -/
theorem of_node {t : Signature} {n : Node Handle} (hn : n.variant ≠ .invoker)
    (hchildren : ∀ k ∈ n.children, k.Sited S) : (⟨s, t, n⟩ : Handle).Sited S := by
  refine .intro (fun site hnode => absurd ?_ hn) hchildren
  obtain rfl : n = .invoker site := hnode
  rfl

/-- A node that holds nothing. -/
theorem of_leaf {t : Signature} {n : Node Handle} (hn : n.variant ≠ .invoker)
    (hchildren : n.children = []) : (⟨s, t, n⟩ : Handle).Sited S := by
  refine of_node hn fun k hk => ?_
  rw [hchildren] at hk
  cases hk

/-- A node that holds one handle. -/
theorem of_target (hh : h.Sited S) {t : Signature} {n : Node Handle} (hn : n.variant ≠ .invoker)
    (hchildren : n.children = [h]) : (⟨s, t, n⟩ : Handle).Sited S := by
  refine of_node hn fun k hk => ?_
  rw [hchildren] at hk
  obtain rfl := List.mem_singleton.1 hk
  exact hh

/-- A node that holds two handles. -/
theorem of_two (hh : h.Sited S) (hk : k.Sited S) {t : Signature} {n : Node Handle}
    (hn : n.variant ≠ .invoker) (hchildren : n.children = [h, k]) :
    (⟨s, t, n⟩ : Handle).Sited S := by
  refine of_node hn fun c hc => ?_
  rw [hchildren] at hc
  simp only [List.mem_cons, List.not_mem_nil, or_false] at hc
  rcases hc with rfl | rfl
  · exact hh
  · exact hk

theorem asFixedArity (hh : h.Sited S) : h.asFixedArity.Sited S := by
  unfold Handle.asFixedArity
  split
  · next k array cell hnode =>
    exact hh.held (by rw [children, hnode]; exact List.mem_singleton_self _)
  · exact hh

end Sited

/-! ### Combinators -/

theorem sited_insertArguments (hh : h.Sited S) {pos : Nat} {vs : List Value}
    (hmade : h.insertArguments G s pos vs = .ok h') : h'.Sited S := by
  rcases insertArguments_eq_ok hmade with rfl | ⟨t, bound, rfl⟩
  · exact hh
  · exact hh.of_target nofun rfl

theorem sited_bindTo (hh : h.Sited S) {v : Value} (hmade : h.bindTo G s v = .ok h') : h'.Sited S :=
  sited_insertArguments hh (insertArguments_of_bindTo hmade)

theorem sited_permuteArguments (hh : h.Sited S) {new : Signature} {reorder : List Nat}
    (hmade : h.permuteArguments s new reorder = .ok h') : h'.Sited S := by
  have hinner : ∀ {inner : Handle} {order : List Nat}, h.node = .permute inner order →
      inner.Sited S :=
    fun hnode => hh.held (by rw [children, hnode]; exact List.mem_singleton_self _)
  cases (permuteArguments_eq_ok hmade).2 with
  | same _ _ => exact hh
  | fresh _ => exact hh.of_target nofun rfl
  | collapsed hnode => exact (hinner hnode).of_target nofun rfl
  | cancelled hnode _ _ _ => exact hinner hnode
  | retyped hnode _ _ _ => exact (hinner hnode).congr rfl

theorem sited_dropArguments (hh : h.Sited S) {pos : Nat} {types : List Ty}
    (hmade : h.dropArguments s pos types = .ok h') : h'.Sited S := by
  rcases dropArguments_eq_ok hmade with rfl | ⟨new, reorder, hmade⟩
  · exact hh
  · exact sited_permuteArguments hh hmade

theorem sited_filterArguments (hh : h.Sited S) {pos : Nat} {filters : List (Option Handle)}
    (hf : ∀ f, some f ∈ filters → f.Sited S) (hmade : h.filterArguments s pos filters = .ok h') :
    h'.Sited S := by
  rcases filterArguments_eq_ok hmade with rfl | ⟨t, rfl⟩
  · exact hh
  refine .of_node nofun fun k hk => ?_
  rcases List.mem_cons.1 hk with rfl | hk
  · exact hh
  · obtain ⟨f, hmem, rfl⟩ := List.mem_filterMap.1 hk
    exact hf k hmem

theorem sited_convertTo (hh : h.Sited S) {new : Signature} (hmade : h.convertTo G s new = .ok h') :
    h'.Sited S := by
  rcases convertTo_eq_ok hmade with rfl | ⟨args, ret, -, -, -, ⟨-, -, hretype⟩ | rfl⟩
  · exact hh
  · exact hh.congr (retype_eq_ok hretype).1
  · exact hh.of_target nofun rfl

theorem sited_asCollectorAt (hh : h.Sited S) {pos count : Nat} {array : Ty}
    (hmade : h.asCollectorAt G s pos array count = .ok h') : h'.Sited S := by
  obtain ⟨c, t, -, -, -, hnode, -⟩ := asCollectorAt_eq_ok hmade
  obtain ⟨stamp, type, node⟩ := h'
  obtain rfl : node = .collect h pos count array := hnode
  exact hh.of_target nofun rfl

theorem sited_asCollector (hh : h.Sited S) {count : Nat} {array : Ty}
    (hmade : h.asCollector G s array count = .ok h') : h'.Sited S := by
  obtain ⟨pos, hmade⟩ := asCollectorAt_of_asCollector hmade
  exact sited_asCollectorAt hh hmade

theorem sited_asVarargsCollector (hh : h.Sited S) {array : Ty}
    (hmade : h.asVarargsCollector G s array = .ok h') : h'.Sited S := by
  rcases asVarargsCollector_eq_ok hmade with rfl | rfl
  · exact hh
  · exact hh.asFixedArity.of_target nofun rfl

/-- Under another signature, a handle has no other call sites. -/
theorem SeenAs.sited {new : Signature} (hseen : h.SeenAs G new h') (hh : h.Sited S) : h'.Sited S := by
  have htarget : ∀ {k : Handle} {array : Ty} {cell : Stamp}, h.node = .varargs k array cell →
      k.Sited S := fun hnode => hh.held (by rw [children, hnode]; exact List.mem_singleton_self _)
  cases hseen with
  | same => exact hh
  | converted _ hmade => exact sited_convertTo hh hmade
  | passed hnode hmade => exact sited_convertTo (htarget hnode) hmade
  | collected hnode hcollector hmade =>
    exact sited_convertTo (sited_asCollector (htarget hnode) hcollector) hmade

end Handle

/-! ### Look-ups -/

/-- The node of a handle on a method is one of two. -/
theorem Lookup.methodNode_eq_or (G : ClassGraph) (kind : RefKind) (ref : ClassId) (m : MethodRef) :
    (∃ mode, methodNode G kind ref m = .direct m mode) ∨
      ∃ interface, methodNode G kind ref m = .virtual m ref interface := by
  by_cases hp : (G.method m).flags.isPrivate = true <;> cases kind <;> simp [methodNode, hp]

/-- A handle on a member calls no call site. -/
theorem Use.sited_handle {G : ClassGraph} {S : SiteId → Prop} (u : Use) (t : Signature) (s : Stamp) :
    (u.handle G t s).Sited S := by
  have hnode : ∀ (s : Stamp) (t : Signature), (⟨s, t, u.node G⟩ : Handle).Sited S := by
    intro s t
    obtain ⟨kind, ref, caller, m | f⟩ := u
    · rcases Lookup.methodNode_eq_or G kind ref m with ⟨mode, hm⟩ | ⟨interface, hm⟩
      all_goals
        simp only [node, hm]
        exact .of_leaf (fun hv => by cases hv) rfl
    · unfold node
      dsimp only
      split <;> exact .of_leaf (fun hv => by cases hv) rfl
  unfold handle
  split
  · exact (hnode _ _).of_target (fun hv => by cases hv) rfl
  · exact hnode _ _

/-- What a look-up answers calls no call site, whether it is kept or made. -/
theorem Lookup.sited_of_perform {C : Classes} {l : Lookup} {op : MemberOp} {T : Cells}
    {hs : List Handle} {m m' : Machine} {h : Handle} {S : SiteId → Prop}
    (hm : m.Registers C.graph T hs) (hh : l.perform C op m = .ok h m') : h.Sited S := by
  obtain ⟨u, key, es, -, -, -, hanswer⟩ := exists_use_of_perform hh
  obtain ⟨a, m₁, hnode, -, hfinish⟩ := MemberOp.exists_base_of_answer hanswer
  have hbase : ((m.reports es).handleOf C.graph u key).Sited S := by
    refine Machine.handleOf_of (fun k hk => ?_) fun s => u.sited_handle _ s
    obtain ⟨v, s, -, rfl⟩ := ((hm.reports es).members key k hk).2
    exact v.sited_handle _ s
  exact MemberOp.of_finish (fun hk => hk.asFixedArity) (fun hk hmade => Handle.sited_bindTo hk hmade)
    (fun hk hmade => Handle.sited_asVarargsCollector hk hmade) (hbase.congr hnode) hfinish

/-! ### Sites that have invokers -/

/-- Whether a site hands out invokers: it is there, and its target can change. -/
def Store.HasInvoker (s : Store) (site : SiteId) : Prop :=
  ∃ c, s.sites[site]? = some c ∧ c.kind ≠ .constant

section Makings

variable {G : ClassGraph} {T : Cells} {ks : List Handle} {m m' : Machine} {S : SiteId → Prop}

/-- What is made of handles that call certain sites only, and of sites among these, calls no
others. -/
theorem Making.sited_run {mk : Making} {h : Handle} (hm : m.Registers G T ks)
    (hmem : ∀ k ∈ mk.handles, k ∈ ks) (hhandles : ∀ k ∈ mk.handles, k.Sited S)
    (htargets : ∀ site k, m.store.getTarget site = .ok k → k.Sited S)
    (hsites : ∀ site, m.store.HasInvoker site → S site) (hmade : mk.run G m = .ok h m') :
    h.Sited S := by
  have hfirst : ∀ {k : Handle} {l : List Handle}, mk.handles = k :: l → k.Sited S :=
    fun hmk => hhandles _ (by rw [hmk]; exact List.mem_cons_self)
  have hsecond : ∀ {j k : Handle} {l : List Handle}, mk.handles = j :: k :: l → k.Sited S :=
    fun hmk => hhandles _ (by rw [hmk]; exact List.mem_cons_of_mem _ List.mem_cons_self)
  unfold run at hmade
  cases mk with
  | member table l op => exact Lookup.sited_of_perform (C := ⟨G, table⟩) hm hmade
  | insertArguments =>
    exact Handle.sited_insertArguments (hfirst rfl) (Link.exists_of_build hmade).1
  | bindTo => exact Handle.sited_bindTo (hfirst rfl) (Link.exists_of_build hmade).1
  | permuteArguments =>
    exact Handle.sited_permuteArguments (hfirst rfl) (Link.exists_of_build hmade).1
  | dropArguments => exact Handle.sited_dropArguments (hfirst rfl) (Link.exists_of_build hmade).1
  | filterArguments j pos filters =>
    refine Handle.sited_filterArguments (hfirst rfl) (fun f hf => ?_) (Link.exists_of_build hmade).1
    exact hhandles f (List.mem_cons_of_mem _ (List.mem_filterMap.2 ⟨some f, hf, rfl⟩))
  | filterReturnValue =>
    obtain ⟨t, rfl⟩ := Handle.filterReturnValue_eq_ok (Link.exists_of_build hmade).1
    exact (hfirst rfl).of_two (hsecond rfl) nofun rfl
  | foldArguments =>
    obtain ⟨t, rfl⟩ := Handle.foldArguments_eq_ok (Link.exists_of_build hmade).1
    exact (hfirst rfl).of_two (hsecond rfl) nofun rfl
  | collectArguments =>
    obtain ⟨_, _, widened, t, hwidened, rfl⟩ :=
      Handle.collectArguments_eq_ok (Link.exists_of_build hmade).1
    exact (Handle.sited_dropArguments (hfirst rfl) hwidened).of_two (hsecond rfl) nofun rfl
  | guardWithTest test j fallback =>
    obtain rfl := Handle.guardWithTest_eq_ok (Link.exists_of_build hmade).1
    exact .of_node nofun hhandles
  | catchException =>
    obtain rfl := Handle.catchException_eq_ok (Link.exists_of_build hmade).1
    exact (hfirst rfl).of_two (hsecond rfl) nofun rfl
  | constant =>
    obtain ⟨t, v, rfl⟩ := Handle.constant_eq_ok (Link.exists_of_build hmade).1
    exact .of_leaf nofun rfl
  | identity =>
    obtain ⟨t, rfl⟩ := Handle.identity_eq_ok (Link.exists_of_build hmade).1
    exact .of_leaf nofun rfl
  | throwException =>
    obtain ⟨t, rfl⟩ := Handle.throwException_eq_ok (Link.exists_of_build hmade).1
    exact .of_leaf nofun rfl
  | unlinked t message =>
    obtain rfl := Except.ok.inj (Link.exists_of_build hmade).1
    exact .of_leaf nofun rfl
  | asType j new =>
    have hmade : j.asType G new m = .ok h m' := hmade
    obtain ⟨T', -, hseen⟩ := Handle.registers_asType (hmem j List.mem_cons_self) new m hm
    rw [hmade] at hseen
    exact hseen.2.sited (hfirst rfl)
  | asCollectorAt => exact Handle.sited_asCollectorAt (hfirst rfl) (Link.exists_of_build hmade).1
  | asCollector => exact Handle.sited_asCollector (hfirst rfl) (Link.exists_of_build hmade).1
  | asSpreaderAt =>
    obtain ⟨t, rfl⟩ := Handle.asSpreaderAt_made (Link.exists_of_build hmade).1
    exact (hfirst rfl).of_target nofun rfl
  | asSpreader =>
    obtain ⟨pos, hat⟩ := Handle.asSpreaderAt_of_asSpreader (Link.exists_of_build hmade).1
    obtain ⟨t, rfl⟩ := Handle.asSpreaderAt_made hat
    exact (hfirst rfl).of_target nofun rfl
  | asVarargsCollector =>
    exact Handle.sited_asVarargsCollector (hfirst rfl) (Link.exists_of_build hmade).1
  | asFixedArity j =>
    cases hmade
    exact (hfirst rfl).asFixedArity
  | target site =>
    have hmade : Link.ofExcept (m.store.getTarget site) m = .ok h m' := hmade
    refine htargets site h ?_
    cases hcurrent : m.store.getTarget site with
    | ok k =>
      rw [hcurrent] at hmade
      cases hmade
      rfl
    | error e =>
      rw [hcurrent] at hmade
      cases hmade
  | invoker site =>
    have hmade : Link.build (fun s => m.store.dynamicInvoker site s) m = .ok h m' := hmade
    rcases Store.dynamicInvoker_eq_ok (Link.exists_of_build hmade).1 with
      hcurrent | ⟨c, hsite, hkind, rfl⟩
    · exact htargets site h hcurrent
    · refine .intro (fun i hnode => ?_) nofun
      obtain rfl := Node.invoker.inj hnode
      exact hsites _ ⟨c, hsite, hkind⟩

end Makings

end HandleCalculus
