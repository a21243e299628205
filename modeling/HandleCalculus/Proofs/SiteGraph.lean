import HandleCalculus.Proofs.SiteHistory
import Mathlib.Data.Finset.Card
import Mathlib.Logic.Relation
import Mathlib.Order.WellFounded

/-!
# Ways through call sites

A call of a handle may go on to the handles that it holds, and a call of an invoker to the target
that its call site has by then (`Store.Next`). The handles that a handle holds are fixed when it is
made, so these ways end by themselves. What can lead back is a target, and nobody who sets one looks
where it leads.

Where no way leads back every way ends, as there are finitely many sites (`Store.AcyclicFrom.acc`). A
change of one target leaves the store without ways back if and only if the new target does not lead
to the site (`Store.Acyclic.iff_of_target`), whatever the old one was.
-/

set_option autoImplicit false

namespace HandleCalculus

open Relation (ReflTransGen TransGen)

/-! ## Handles as trees -/

/-- The handles that a handle holds are smaller. -/
theorem Handle.sizeOf_lt_of_mem_children {h k : Handle} (hk : k ∈ h.children) :
    sizeOf k < sizeOf h := by
  obtain ⟨stamp, type, node⟩ := h
  have hnode : sizeOf node < sizeOf (⟨stamp, type, node⟩ : Handle) := by
    rw [Handle.mk.sizeOf_spec]
    omega
  refine Nat.lt_trans ?_ hnode
  unfold children at hk
  cases node with
  | filterArgs target pos filters =>
    rw [Node.filterArgs.sizeOf_spec]
    rcases List.mem_cons.1 hk with rfl | hk
    · omega
    · obtain ⟨f, hf, rfl⟩ := List.mem_filterMap.1 hk
      have hlt := List.sizeOf_lt_of_mem hf
      rw [Option.some.sizeOf_spec] at hlt
      omega
  | filterReturn | fold | guarded | catching =>
    simp only [Node.children, List.mem_cons, List.not_mem_nil, or_false] at hk
    rcases hk with rfl | rfl | rfl <;> simp <;> omega
  | insert | permute | collect | spread | convert | varargs =>
    obtain rfl := List.mem_singleton.1 hk
    simp
    omega
  | _ => cases hk

/-- What holds of a handle if it holds of those that it holds, holds of all handles. -/
@[elab_as_elim]
theorem Handle.children_induction {motive : Handle → Prop}
    (step : ∀ h, (∀ k ∈ h.children, motive k) → motive h) (h : Handle) : motive h :=
  step h fun k hk =>
    have := sizeOf_lt_of_mem_children hk
    children_induction step k
termination_by sizeOf h

/-! ## Ways -/

namespace Store

/-- Whether a call of the first handle may call the second one next: it holds it, or calls the target
of a site, which it is. -/
inductive Next (s : Store) (h k : Handle) : Prop where
  | held (child : k ∈ h.children) : Next s h k
  | target {site : SiteId} (node : h.node = .invoker site) (current : s.getTarget site = .ok k) :
    Next s h k

/-- Whether calls may come from a handle to an invoker of the site. -/
def Leads (s : Store) (h : Handle) (site : SiteId) : Prop :=
  ∃ k, ReflTransGen s.Next h k ∧ k.node = .invoker site

/-- Whether calls that follow handles held and targets never come back to a handle. -/
def Acyclic (s : Store) : Prop := ∀ h, ¬ TransGen s.Next h h

/-- Whether they do not from one handle on. -/
def AcyclicFrom (s : Store) (h : Handle) : Prop :=
  ∀ k, ReflTransGen s.Next h k → ¬ TransGen s.Next k k

section Ways

variable {s s' : Store} {h k : Handle} {site : SiteId}

/-- Only targets matter. -/
theorem next_of_getTarget (htargets : ∀ i, s'.getTarget i = s.getTarget i) : s'.Next = s.Next := by
  funext h k
  refine propext ⟨fun hn => ?_, fun hn => ?_⟩
  · cases hn with
    | held child => exact .held child
    | target node current => exact .target node ((htargets _).symm.trans current)
  · cases hn with
    | held child => exact .held child
    | target node current => exact .target node ((htargets _).trans current)

theorem next_congr (hsites : s'.sites = s.sites) : s'.Next = s.Next :=
  next_of_getTarget fun i => by rw [getTarget, getTarget, hsites]

theorem Acyclic.congr (hs : s.Acyclic) (hnext : s'.Next = s.Next) : s'.Acyclic := by
  unfold Acyclic
  rw [hnext]
  exact hs

theorem Acyclic.from (hs : s.Acyclic) (h : Handle) : s.AcyclicFrom h := fun k _ => hs k

theorem AcyclicFrom.step (hs : s.AcyclicFrom h) (hn : s.Next h k) : s.AcyclicFrom k :=
  fun j hkj => hs j (.head hn hkj)

theorem Leads.step (hn : s.Next h k) (hk : s.Leads k site) : s.Leads h site := by
  obtain ⟨j, hkj, hj⟩ := hk
  exact ⟨j, .head hn hkj, hj⟩

/-- The target of a site that leads to the site leads to itself. -/
theorem Leads.returns (hk : s.Leads k site) (hcurrent : s.getTarget site = .ok k) :
    TransGen s.Next k k := by
  obtain ⟨j, hkj, hj⟩ := hk
  exact TransGen.tail' hkj (.target hj hcurrent)

theorem lt_size_of_getTarget (hcurrent : s.getTarget site = .ok k) : site < s.sites.size := by
  by_contra hge
  rw [getTarget, Array.getElem?_eq_none (Nat.le_of_not_lt hge)] at hcurrent
  cases hcurrent

/-! ### All ways end -/

/-- **Where nothing leads back, all ways end:** behind each target there are fewer sites left. -/
theorem AcyclicFrom.acc (hs : s.AcyclicFrom h) : Acc (fun k h => s.Next h k) h := by
  classical
  let ahead : Handle → Finset SiteId := fun h => (Finset.range s.sites.size).filter (s.Leads h)
  have mono : ∀ {h k : Handle}, s.Next h k → ahead k ⊆ ahead h := by
    intro h k hn
    exact Finset.monotone_filter_right _ fun site _ hk => hk.step hn
  have fewer : ∀ {h k : Handle} {site : SiteId}, s.AcyclicFrom k → h.node = .invoker site →
      s.getTarget site = .ok k → (ahead k).card < (ahead h).card := by
    intro h k site hs hnode hcurrent
    refine Finset.card_lt_card ⟨mono (.target hnode hcurrent), fun hsub => ?_⟩
    have hmem : site ∈ ahead h := Finset.mem_filter.2
      ⟨Finset.mem_range.2 (lt_size_of_getTarget hcurrent), h, .refl, hnode⟩
    exact hs k .refl ((Finset.mem_filter.1 (hsub hmem)).2.returns hcurrent)
  suffices key : ∀ n h, s.AcyclicFrom h → (ahead h).card < n → Acc (fun k h => s.Next h k) h from
    key _ h hs (Nat.lt_succ_self _)
  intro n
  induction n with
  | zero => exact fun h _ hn => absurd hn (Nat.not_lt_zero _)
  | succ n ih =>
    -- on the handle as a tree; only targets make the number of sites go down
    intro h
    induction h using Handle.children_induction with
    | step h ihchildren =>
      intro hs hn
      refine ⟨h, fun k hk => ?_⟩
      have hsk := hs.step hk
      cases hk with
      | held child =>
        exact ihchildren k child hsk
          (Nat.lt_of_le_of_lt (Finset.card_le_card (mono (.held child))) hn)
      | target node current =>
        exact ih k hsk (Nat.lt_of_lt_of_le (fewer hsk node current) (Nat.le_of_lt_succ hn))

theorem Acyclic.wellFounded (hs : s.Acyclic) : WellFounded fun k h => s.Next h k :=
  ⟨fun h => (hs.from h).acc⟩

/-- Where all ways end, nothing leads back. -/
theorem acyclic_of_wellFounded (hs : WellFounded fun k h => s.Next h k) : s.Acyclic := by
  intro h hback
  rw [← Relation.transGen_swap] at hback
  exact hs.transGen.irrefl.irrefl h hback

/-- Where there are no targets, ways only lead into handles. -/
theorem acyclic_of_getTarget (hnone : ∀ i k, s.getTarget i ≠ .ok k) : s.Acyclic := by
  have hsize : WellFounded fun k h : Handle => sizeOf k < sizeOf h := (measure sizeOf).wf
  refine acyclic_of_wellFounded (Subrelation.wf (fun {k h} hn => ?_) hsize)
  cases hn with
  | held child => exact Handle.sizeOf_lt_of_mem_children child
  | target _ current => exact absurd current (hnone _ _)

/-! ### One target is changed -/

section Change

variable (hcurrent : s'.getTarget site = .ok h)
  (hother : ∀ i, i ≠ site → s'.getTarget i = s.getTarget i)

include hother

/-- Only the way on from the invokers of the site is another one. -/
theorem next_iff_of_ne {g : Handle} (hg : g.node ≠ .invoker site) (k : Handle) :
    s'.Next g k ↔ s.Next g k := by
  have hsame : ∀ {i : SiteId}, g.node = .invoker i → s'.getTarget i = s.getTarget i := by
    intro i hi
    refine hother i ?_
    rintro rfl
    exact hg hi
  constructor
  · intro hn
    cases hn with
    | held child => exact .held child
    | target node current => exact .target node ((hsame node).symm.trans current)
  · intro hn
    cases hn with
    | held child => exact .held child
    | target node current => exact .target node ((hsame node).trans current)

/-- What leads to the site leads there still. -/
theorem Leads.of_target {g : Handle} (hg : s.Leads g site) : s'.Leads g site := by
  obtain ⟨j, hgj, hj⟩ := hg
  -- along the way, up to the first invoker of the site
  induction hgj using ReflTransGen.head_induction_on with
  | refl => exact ⟨j, .refl, hj⟩
  | @head g k hn _ ih =>
    by_cases hnode : g.node = .invoker site
    · exact ⟨g, .refl, hnode⟩
    · exact ih.step ((next_iff_of_ne hother hnode k).2 hn)

include hcurrent

/-- **A target closes a way back if and only if it leads to its site.** -/
theorem Acyclic.iff_of_target (hs : s.Acyclic) : s'.Acyclic ↔ ¬ s.Leads h site := by
  constructor
  · intro hs' hleads
    exact hs' h ((hleads.of_target hother).returns hcurrent)
  · intro hclear
    -- first what does not lead to the site, which goes the ways that it went before
    have hapart : ∀ g, ¬ s.Leads g site → Acc (fun k h => s'.Next h k) g := by
      intro g
      induction g using hs.wellFounded.induction with
      | _ g ih =>
        intro hg
        refine ⟨g, fun k hk => ?_⟩
        have hn := (next_iff_of_ne hother (fun hnode => hg ⟨g, .refl, hnode⟩) k).1 hk
        exact ih k hn fun hk => hg (hk.step hn)
    refine acyclic_of_wellFounded ⟨fun g => ?_⟩
    induction g using hs.wellFounded.induction with
    | _ g ih =>
      refine ⟨g, fun k hk => ?_⟩
      by_cases hnode : g.node = .invoker site
      · -- from the site on it is the new target
        cases hk with
        | held child =>
          rw [Handle.children, hnode] at child
          cases child
        | target node current =>
          obtain rfl := Node.invoker.inj (hnode.symm.trans node)
          obtain rfl := Except.ok.inj (hcurrent.symm.trans current)
          exact hapart h hclear
      · exact ih k ((next_iff_of_ne hother hnode k).1 hk)

end Change

/-- How the targets are after a site has been replaced. -/
theorem getTarget_set {new : CallSite} (hlt : site < s.sites.size)
    (hsites : s'.sites = s.sites.setIfInBounds site new) :
    s'.getTarget site = new.getTarget ∧ ∀ i, i ≠ site → s'.getTarget i = s.getTarget i := by
  refine ⟨?_, fun i hi => ?_⟩
  · rw [getTarget, hsites, Array.getElem?_setIfInBounds_self_of_lt hlt]
  · rw [getTarget, hsites, Array.getElem?_setIfInBounds_ne hi.symm, ← getTarget]

theorem serve_setTarget (hset : s.setTarget site h = .ok s') :
    (s.serve (.setTarget site h)).2 = s' := by
  simp only [serve, settle, hset]

theorem getTarget_setTarget (hset : s.setTarget site h = .ok s') :
    s'.getTarget site = .ok h ∧ ∀ i, i ≠ site → s'.getTarget i = s.getTarget i := by
  obtain ⟨old, new, inPlace, hold, hnew, hsites⟩ := setTarget_eq_ok hset
  have hset := getTarget_set (Array.getElem?_eq_some_iff.1 hold).1 hsites
  obtain ⟨-, -, ⟨-, rfl⟩ | rfl⟩ := CallSite.setTarget_eq_ok hnew <;> exact hset

theorem getTarget_bindTarget (hbind : s.bindTarget site h = .ok s') :
    s'.getTarget site = .ok h ∧ ∀ i, i ≠ site → s'.getTarget i = s.getTarget i := by
  obtain ⟨old, new, hold, hnew, rfl⟩ := bindTarget_eq_ok hbind
  have hset := @getTarget_set s { s with sites := s.sites.setIfInBounds site new } site new
    (Array.getElem?_eq_some_iff.1 hold).1 rfl
  obtain ⟨-, -, rfl⟩ := CallSite.bind_eq_ok hnew
  exact hset

theorem getTarget_addSite (s : Store) (new : CallSite) :
    (s.addSite new).2.getTarget s.sites.size = new.getTarget ∧
      ∀ i, i ≠ s.sites.size → (s.addSite new).2.getTarget i = s.getTarget i := by
  refine ⟨?_, fun i hi => ?_⟩
  · simp only [addSite, getTarget, Array.getElem?_push_size]
  · simp only [addSite, getTarget, Array.getElem?_push, if_neg hi]

/-- A site that is not constant takes every target of its signature. -/
theorem exists_setTarget {c : CallSite} (hsite : s.sites[site]? = some c) (hkind : c.kind ≠ .constant)
    (htype : h.type = c.type) : ∃ s', s.setTarget site h = .ok s' := by
  obtain ⟨p, hp⟩ : ∃ p, c.setTarget h = .ok p := by
    unfold CallSite.setTarget CallSite.checkTarget
    rw [if_neg hkind, if_pos htype]
    dsimp only
    split <;> exact ⟨_, rfl⟩
  unfold setTarget
  rw [hsite]
  dsimp only
  rw [hp]
  exact ⟨_, rfl⟩

/-- **Retargeting closes a way back if and only if the new target leads to the site.** -/
theorem Acyclic.setTarget_iff (hs : s.Acyclic) (hset : s.setTarget site h = .ok s') :
    s'.Acyclic ↔ ¬ s.Leads h site :=
  have htargets := getTarget_setTarget hset
  hs.iff_of_target htargets.1 htargets.2

end Ways

end Store

end HandleCalculus
