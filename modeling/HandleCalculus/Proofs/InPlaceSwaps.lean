import HandleCalculus.Proofs.EquivalentCalls
import HandleCalculus.Proofs.SiteHistory
import Mathlib.Data.List.Forall2
import Mathlib.Data.Option.Basic

/-!
# Swaps in place need no new code

A call site exchanges its target in place if the new one is equivalent to the old one. Code was made
for the old target and for the handles below it, under their thunk keys; the new target is called with
what is there.

What equivalent handles hold is pairwise equivalent (`Handle.forall₂_children_of_equivalent`, one case
for each kind of node), so the same way down from both leads to equivalent handles
(`Handle.rel_under?_of_equivalent`, by induction on the way), and equivalent handles have one key. What
a table of thunks has for the one is then the thunk of the other (`Handle.ServedBy`).
-/

set_option autoImplicit false

namespace HandleCalculus

/-! ## Handles below a handle -/

namespace Handle

/-- The handle that a way down leads to; each number on it picks one of the handles held. -/
def under? (h : Handle) : List Nat → Option Handle
  | [] => some h
  | i :: path => h.children[i]?.bind fun k => k.under? path

theorem under?_cons (h : Handle) (i : Nat) (path : List Nat) :
    h.under? (i :: path) = h.children[i]?.bind fun k => k.under? path := rfl

/-- Filters that are equivalent, without the places where there is none. -/
theorem forall₂_filters_of_equivalent {fs gs : List (Option Handle)}
    (h : Filters.equivalent fs gs = true) :
    List.Forall₂ (fun a b => a.equivalent b = true) (fs.filterMap id) (gs.filterMap id) := by
  induction fs generalizing gs with
  | nil =>
    rw [Filters.equivalentBy_nil_iff.1 h]
    exact .nil
  | cons f fs ih =>
    cases f with
    | none =>
      obtain ⟨gs, rfl, hgs⟩ := Filters.equivalentBy_none_cons_iff.1 h
      rw [List.filterMap_cons_none rfl, List.filterMap_cons_none rfl]
      exact ih hgs
    | some f =>
      obtain ⟨g, gs, rfl, hg, hgs⟩ := Filters.equivalentBy_some_cons_iff.1 h
      exact .cons hg (ih hgs)

theorem forall₂_node_children_of_equivalent {m n : Node Handle} (h : Node.equivalent m n = true) :
    List.Forall₂ (fun a b => a.equivalent b = true) m.children n.children := by
  cases m with
  -- a leaf is equivalent only to a leaf
  | direct =>
    rw [Node.equivalentBy_direct_iff.1 h]
    exact .nil
  | virtual =>
    rw [Node.equivalentBy_virtual_iff.1 h]
    exact .nil
  | getField =>
    rw [Node.equivalentBy_getField_iff.1 h]
    exact .nil
  | setField =>
    rw [Node.equivalentBy_setField_iff.1 h]
    exact .nil
  | constant =>
    obtain ⟨w, rfl, -⟩ := Node.equivalentBy_constant_iff.1 h
    exact .nil
  | identity =>
    rw [Node.equivalentBy_identity_iff.1 h]
    exact .nil
  | invoker =>
    rw [Node.equivalentBy_invoker_iff.1 h]
    exact .nil
  | unlinked =>
    rw [Node.equivalentBy_unlinked_iff.1 h]
    exact .nil
  | throwing =>
    rw [Node.equivalentBy_throwing_iff.1 h]
    exact .nil
  | insert =>
    obtain ⟨k, ws, rfl, -, hk⟩ := Node.equivalentBy_insert_iff.1 h
    exact .cons hk .nil
  | permute =>
    obtain ⟨k, rfl, hk⟩ := Node.equivalentBy_permute_iff.1 h
    exact .cons hk .nil
  | collect =>
    obtain ⟨k, rfl, hk⟩ := Node.equivalentBy_collect_iff.1 h
    exact .cons hk .nil
  | spread =>
    obtain ⟨k, rfl, hk⟩ := Node.equivalentBy_spread_iff.1 h
    exact .cons hk .nil
  | filterArgs =>
    obtain ⟨k, gs, rfl, hgs, hk⟩ := Node.equivalentBy_filterArgs_iff.1 h
    exact .cons hk (forall₂_filters_of_equivalent hgs)
  | filterReturn =>
    obtain ⟨k, g, rfl, hk, hg⟩ := Node.equivalentBy_filterReturn_iff.1 h
    exact .cons hk (.cons hg .nil)
  | fold =>
    obtain ⟨k, d, rfl, hk, hd⟩ := Node.equivalentBy_fold_iff.1 h
    exact .cons hk (.cons hd .nil)
  | guarded =>
    obtain ⟨d, k, g, rfl, hd, hk, hg⟩ := Node.equivalentBy_guarded_iff.1 h
    exact .cons hd (.cons hk (.cons hg .nil))
  | catching =>
    obtain ⟨k, f, rfl, hk, hf⟩ := Node.equivalentBy_catching_iff.1 h
    exact .cons hk (.cons hf .nil)
  | convert =>
    obtain ⟨k, rfl, hk⟩ := Node.equivalentBy_convert_iff.1 h
    exact .cons hk .nil
  | varargs =>
    obtain ⟨k, _, rfl, hk⟩ := Node.equivalentBy_varargs_iff.1 h
    exact .cons hk .nil

/-- What equivalent handles hold is pairwise equivalent. -/
theorem forall₂_children_of_equivalent {a b : Handle} (h : a.equivalent b = true) :
    List.Forall₂ (fun c d => c.equivalent d = true) a.children b.children :=
  forall₂_node_children_of_equivalent (equivalentBy_iff.1 h).2

/-- The same way down from equivalent handles ends at equivalent handles, or for both at none. -/
theorem rel_under?_of_equivalent {a b : Handle} (h : a.equivalent b = true) (path : List Nat) :
    Option.Rel (fun c d => c.equivalent d = true) (a.under? path) (b.under? path) := by
  induction path generalizing a b with
  | nil => exact .some h
  | cons i path ih =>
    rw [under?_cons, under?_cons]
    have hchildren := forall₂_children_of_equivalent h
    by_cases hi : i < a.children.length
    · have hj : i < b.children.length := hchildren.length_eq ▸ hi
      rw [List.getElem?_eq_getElem hi, List.getElem?_eq_getElem hj]
      exact ih ((List.forall₂_iff_get.1 hchildren).2 i hi hj)
    · have hj : ¬ i < b.children.length := hchildren.length_eq ▸ hi
      rw [List.getElem?_eq_none (Nat.not_lt.1 hi), List.getElem?_eq_none (Nat.not_lt.1 hj)]
      exact .none

/-- Handles that one way down leads to from equivalent handles are equivalent and called through one
thunk. -/
theorem rel_key_under?_of_equivalent {a b : Handle} (h : a.equivalent b = true) (path : List Nat) :
    Option.Rel (fun c d => c.isEquivalent d = true ∧ c.key = d.key)
      (a.under? path) (b.under? path) := by
  have hrel := rel_under?_of_equivalent h path
  generalize a.under? path = o at hrel
  generalize b.under? path = p at hrel
  cases hrel with
  | none => exact .none
  | some hcd => exact .some ⟨by rwa [isEquivalent_eq], key_eq_of_equivalent hcd⟩

end Handle

/-! ## Thunks that serve for another handle -/

/-- A handle whose key the table has a thunk for is called through it; nothing is compiled, and
nothing changes but that the handle keeps it. -/
theorem Machine.Settled.thunk_of_find? {m : Machine} (hm : m.Settled) {h : Handle} {t : Thunk}
    (ht : m.thunks.cache.find? h.key = some (.ready t)) :
    ∃ cells, h.thunk m = .ok t { m with cells := cells } := by
  have hget : m.thunks.get h.key = (.ok t, m.thunks, []) := by
    simp [ThunkTable.get, CompileOnce.Cache.peek?, ht]
  obtain ⟨t', table, events, cells, hget', hthunk, -⟩ := hm.thunk h
  rw [hget] at hget'
  obtain ⟨rfl, rfl, rfl⟩ : t = t' ∧ m.thunks = table ∧ ([] : List Event) = events := by
    simpa using hget'
  exact ⟨cells, hthunk⟩

/-- Whether the code made for the second handle is all that the first one needs. -/
structure Handle.ServedBy (c d : Handle) : Prop where
  /-- The two are called through one thunk. -/
  key : c.key = d.key
  /-- Fetching the thunk of the second, compiled or not, leaves it in the table. -/
  fetch : ∀ m : Machine, m.Settled → ∃ t m', d.thunk m = .ok t m' ∧ m'.Settled ∧
    m'.thunks.cache.find? d.key = some (.ready t)
  /-- Wherever the table has the thunk of the second, the first one takes it as it is. -/
  reuse : ∀ (m : Machine) (t : Thunk), m.Settled → m.thunks.cache.find? d.key = some (.ready t) →
    ∃ cells, c.thunk m = .ok t { m with cells := cells }

theorem Handle.ServedBy.of_key {c d : Handle} (h : c.key = d.key) : c.ServedBy d where
  key := h
  fetch m hm := by
    obtain ⟨t, table, events, cells, hget, hthunk, hsettled⟩ := hm.thunk d
    obtain ⟨t', table', events', hget', hfind, -⟩ := hm.table.get d.slots_key
    rw [hget] at hget'
    obtain ⟨rfl, rfl, rfl⟩ : t = t' ∧ table = table' ∧ events = events' := by
      simpa using hget'
    refine ⟨t, _, hthunk, ?_, ?_⟩
    · rw [Machine.reports_store]
      exact ⟨hsettled.table, hsettled.cells⟩
    · rw [Machine.reports_store]
      exact hfind
  reuse m t hm ht := hm.thunk_of_find? (by rwa [h])

/-! ## Swaps in place -/

/-- A retargeting that was counted as a swap in place found an equivalent target. -/
theorem CallSite.exists_equivalent_of_fastSwap {site site' : CallSite} {new : Handle} {inPlace : Bool}
    (hset : site.setTarget new = .ok (site', inPlace))
    (hswap : site'.fastSwaps = site.fastSwaps + 1) :
    site'.target = some new ∧ ∃ old, site.target = some old ∧ old.equivalent new = true := by
  obtain ⟨-, -, ⟨he, rfl⟩ | rfl⟩ := setTarget_eq_ok hset
  · refine ⟨rfl, ?_⟩
    unfold isEquivalentTo at he
    split at he
    · next old hold => exact ⟨old, hold, by rwa [Handle.isEquivalent_eq] at he⟩
    · cases he
  · -- an invalidation counts no swap
    exact absurd hswap (Nat.ne_of_lt (Nat.lt_succ_self _))

/-- **A swap in place never needs new code.** Equivalent handles have one thunk key, and so has every
pair of handles that one way down leads to from both. If a call site counts a swap in place, then each
handle below the new target has its counterpart below the old one, and the thunk of the counterpart
serves: wherever it has been compiled, the new target's part takes it, and compiles nothing. -/
theorem no_new_code_of_isEquivalent :
    (∀ a b : Handle, a.isEquivalent b = true → a.key = b.key ∧
      ∀ path, Option.Rel (fun c d => c.isEquivalent d = true ∧ c.key = d.key)
        (a.under? path) (b.under? path)) ∧
    ∀ (s s' : Store) (id : SiteId) (new : Handle) (site site' : CallSite),
      s.sites[id]? = some site → s.setTarget id new = .ok s' → s'.sites[id]? = some site' →
      site'.fastSwaps = site.fastSwaps + 1 →
      ∃ old, s.getTarget id = .ok old ∧ s'.getTarget id = .ok new ∧
        ∀ path c, new.under? path = some c → ∃ d, old.under? path = some d ∧ c.ServedBy d := by
  refine ⟨fun a b h => ?_, fun s s' id new site site' hsite hset hsite' hswap => ?_⟩
  · rw [Handle.isEquivalent_eq] at h
    exact ⟨Handle.key_eq_of_equivalent h, Handle.rel_key_under?_of_equivalent h⟩
  · obtain ⟨_, target, inPlace, hold, hnew, hsites⟩ := Store.setTarget_eq_ok hset
    obtain rfl := Option.some.inj (hsite.symm.trans hold)
    -- what stands in the new store is what the retargeting made
    have hlt : id < s.sites.size := (Array.getElem?_eq_some_iff.1 hsite).1
    obtain rfl : target = site' := by
      rw [hsites, Array.getElem?_setIfInBounds_self_of_lt hlt] at hsite'
      exact Option.some.inj hsite'
    obtain ⟨htarget, old, holdTarget, hequivalent⟩ :=
      CallSite.exists_equivalent_of_fastSwap hnew hswap
    refine ⟨old, ?_, ?_, fun path c hc => ?_⟩
    · rw [Store.getTarget, hsite]
      exact CallSite.getTarget_eq_ok_iff.2 holdTarget
    · rw [Store.getTarget, hsite']
      exact CallSite.getTarget_eq_ok_iff.2 htarget
    · have hrel := Handle.rel_key_under?_of_equivalent hequivalent path
      rw [hc] at hrel
      generalize old.under? path = o at hrel
      cases hrel with
      | some hcd => exact ⟨_, rfl, .of_key hcd.2.symm⟩

/-- A site swaps one twin for the other in place, built from nothing shared, and the code of the method
below the old twin serves for the method below the new one. -/
theorem no_new_code_of_isEquivalent_of_boxedTwin :
    let site := CallSite.ofTarget .mutable (.boxedTwin 0)
    let s : Store := { Store.initial with sites := #[site] }
    ∃ s' c d, s.setTarget 0 (.boxedTwin 2) = .ok s' ∧ (Handle.boxedTwin 2).under? [0] = some c ∧
      (Handle.boxedTwin 0).under? [0] = some d ∧ c.variant = .direct ∧ c.isSame d = false ∧
      c.ServedBy d := by
  intro site s
  let swapped : CallSite := { site with target := some (.boxedTwin 2), fastSwaps := 1 }
  obtain ⟨old, hold, -, hbelow⟩ := no_new_code_of_isEquivalent.2 s _ 0 (.boxedTwin 2) site swapped
    rfl rfl rfl rfl
  obtain rfl : Handle.boxedTwin 0 = old := Except.ok.inj hold
  obtain ⟨d, hd, hserved⟩ := hbelow [0] _ rfl
  obtain rfl := Option.some.inj hd
  exact ⟨_, _, _, rfl, rfl, rfl, rfl, rfl, hserved⟩

end HandleCalculus
