import HandleCalculus.ClassTable
import Mathlib.Data.Fintype.EquivFin
import Mathlib.Order.WellFoundedSet

/-!
# Chains of loaders

A loader delegates to its parent, that one to its own, and so on up to the bootstrap loader. The
walk is written as a loop without a bound, and no table of the loaders visited is kept. Nothing
stops it where the loaders delegate in a circle, and nothing stops a program from making a circle: a
new loader may name as its parent a number that is given out later, its own included.

`LoaderTree.Chain` is the walk that arrives. Everything follows from it: that it is the walk the
bounded search finds (`ancestry_eq_some_iff`), that it exists exactly if no loader on the way is
its own ancestor (`exists_chain_iff`), and which creations keep all chains ending
(`chainsEnd_add`).
-/

set_option autoImplicit false

namespace HandleCalculus.LoaderTree

/-- The first loader delegates to the second. -/
def Delegates (t : LoaderTree) (l p : Loader) : Prop := t.parent? l = some p

/-- The first loader is the second or delegates to it in turn. -/
def Reaches (t : LoaderTree) : Loader → Loader → Prop := Relation.ReflTransGen t.Delegates

/-- A loader whose parent delegates back to it. -/
def OwnAncestor (t : LoaderTree) (l : Loader) : Prop := ∃ p, t.Delegates l p ∧ t.Reaches p l

/-- The loaders from `l` up to the bootstrap loader, each followed by its parent. -/
inductive Chain (t : LoaderTree) : Loader → List Loader → Prop
  | bootstrap : t.Chain .bootstrap [.bootstrap]
  | cons {l p : Loader} {rest : List Loader} :
      t.Delegates l p → t.Chain p rest → t.Chain l (l :: rest)

/-- Whether there is a chain from every loader. -/
def ChainsEnd (t : LoaderTree) : Prop := ∀ l, ∃ chain, t.Chain l chain

/-- The tree after user loaders with these parents have been added in turn. -/
def ofParents (parents : List Loader) : LoaderTree :=
  parents.foldl (fun t p => (t.add p).2) empty

variable {t t' : LoaderTree} {l k p : Loader} {chain rest : List Loader} {steps : Nat}

/-! ## Chains -/

theorem parent?_eq_none_iff : t.parent? l = none ↔ l = .bootstrap := by
  cases l with
  | bootstrap => simp [parent?]
  | user index => simp [parent?]

theorem not_delegates_bootstrap : ¬ t.Delegates .bootstrap p := by
  simp [Delegates, parent?]

theorem Chain.eq_bootstrap (h : t.Chain .bootstrap chain) : chain = [.bootstrap] := by
  cases h with
  | bootstrap => rfl
  | cons hp _ => exact absurd hp not_delegates_bootstrap

theorem Chain.eq_cons (h : t.Chain l chain) (hp : t.Delegates l p) :
    ∃ rest, chain = l :: rest ∧ t.Chain p rest := by
  cases h with
  | bootstrap => exact absurd hp not_delegates_bootstrap
  | cons hq hrest =>
    obtain rfl := Option.some.inj (hp.symm.trans hq)
    exact ⟨_, rfl, hrest⟩

theorem Chain.unique (h : t.Chain l chain) : ∀ {chain'}, t.Chain l chain' → chain' = chain := by
  induction h with
  | bootstrap => exact fun h' => h'.eq_bootstrap
  | cons hp _ ih =>
    intro chain' h'
    obtain ⟨rest', rfl, hrest'⟩ := h'.eq_cons hp
    rw [ih hrest']

theorem Chain.head?_eq (h : t.Chain l chain) : chain.head? = some l := by
  cases h <;> rfl

theorem Chain.getLast?_eq (h : t.Chain l chain) : chain.getLast? = some .bootstrap := by
  induction h with
  | bootstrap => rfl
  | cons _ hrest ih =>
    rw [List.getLast?_cons, ih]
    rfl

/-- What stands from a loader on in a chain is the chain from that loader. -/
theorem Chain.of_append {before : List Loader} (h : t.Chain l (before ++ k :: rest)) :
    t.Chain k (k :: rest) := by
  induction before generalizing l with
  | nil =>
    obtain rfl : k = l := by simpa using h.head?_eq
    exact h
  | cons b before ih =>
    obtain rfl : b = l := by simpa using h.head?_eq
    cases hp : t.parent? b with
    | none =>
      obtain rfl := parent?_eq_none_iff.1 hp
      exact absurd h.eq_bootstrap (by simp)
    | some p =>
      obtain ⟨rest', hrest', htail⟩ := h.eq_cons hp
      obtain rfl := (List.cons.inj hrest').2
      exact ih htail

theorem Chain.mem_iff (h : t.Chain l chain) : k ∈ chain ↔ t.Reaches l k := by
  induction h with
  | bootstrap =>
    rw [List.mem_singleton]
    constructor
    · rintro rfl
      exact .refl
    · intro hreach
      rcases hreach.cases_head with rfl | ⟨p, hp, -⟩
      · rfl
      · exact absurd hp not_delegates_bootstrap
  | @cons l p rest hp _ ih =>
    rw [List.mem_cons, ih]
    constructor
    · rintro (rfl | hreach)
      · exact .refl
      · exact .head hp hreach
    · intro hreach
      rcases hreach.cases_head with rfl | ⟨q, hq, hreach⟩
      · exact .inl rfl
      · obtain rfl := Option.some.inj (hp.symm.trans hq)
        exact .inr hreach

/-- A loader on a chain does not come back further up: its own chain would be shorter than
itself. -/
theorem Chain.not_mem (h : t.Chain l (l :: rest)) : l ∉ rest := by
  intro hmem
  obtain ⟨before, after, rfl⟩ := List.append_of_mem hmem
  rw [← List.cons_append] at h
  have hshort : t.Chain l (l :: after) := h.of_append
  have hlength := congrArg List.length (h.unique hshort)
  simp at hlength
  omega

theorem Chain.nodup (h : t.Chain l chain) : chain.Nodup := by
  induction h with
  | bootstrap => simp
  | cons hp hrest ih => exact List.nodup_cons.2 ⟨(Chain.cons hp hrest).not_mem, ih⟩

theorem Chain.not_ownAncestor (h : t.Chain l chain) (hreach : t.Reaches l k) :
    ¬ t.OwnAncestor k := by
  rintro ⟨p, hp, hback⟩
  obtain ⟨before, after, rfl⟩ := List.append_of_mem (h.mem_iff.2 hreach)
  have hk := h.of_append
  obtain ⟨rest, hrest, hchain⟩ := hk.eq_cons hp
  obtain rfl := (List.cons.inj hrest).2
  exact hk.not_mem (hchain.mem_iff.2 hback)

theorem Chain.congr (h : t.Chain l chain) (hsame : ∀ k ∈ chain, t'.parent? k = t.parent? k) :
    t'.Chain l chain := by
  induction h with
  | bootstrap => exact .bootstrap
  | cons hp _ ih =>
    exact .cons ((hsame _ List.mem_cons_self).trans hp)
      (ih fun k hk => hsame k (List.mem_cons_of_mem _ hk))

/-! ## The search with a bound

Only the loader below the bootstrap loader can have a number that was not given out, so a chain has
at most two loaders more than there are. -/

theorem climb_bootstrap_eq_some_iff :
    t.climb steps .bootstrap = some chain ↔ t.Chain .bootstrap chain ∧ chain.length ≤ steps + 1 := by
  have hclimb : t.climb steps .bootstrap = some [.bootstrap] := by cases steps <;> rfl
  rw [hclimb]
  constructor
  · intro h
    obtain rfl := Option.some.inj h
    exact ⟨.bootstrap, by simp⟩
  · rintro ⟨h, -⟩
    rw [h.eq_bootstrap]

theorem climb_eq_some_iff :
    t.climb steps l = some chain ↔ t.Chain l chain ∧ chain.length ≤ steps + 1 := by
  induction steps generalizing l chain with
  | zero =>
    cases hp : t.parent? l with
    | none =>
      obtain rfl := parent?_eq_none_iff.1 hp
      exact climb_bootstrap_eq_some_iff
    | some p =>
      unfold climb
      rw [hp]
      constructor
      · intro h
        cases h
      · rintro ⟨h, hlength⟩
        obtain ⟨rest, rfl, hrest⟩ := h.eq_cons hp
        obtain rfl : rest = [] := by simpa using hlength
        cases hrest
  | succ steps ih =>
    cases hp : t.parent? l with
    | none =>
      obtain rfl := parent?_eq_none_iff.1 hp
      exact climb_bootstrap_eq_some_iff
    | some p =>
      unfold climb
      rw [hp]
      show Option.map (l :: ·) (t.climb steps p) = some chain ↔ _
      rw [Option.map_eq_some_iff]
      constructor
      · rintro ⟨rest, hrest, rfl⟩
        obtain ⟨hchain, hlength⟩ := ih.1 hrest
        exact ⟨.cons hp hchain, Nat.succ_le_succ hlength⟩
      · rintro ⟨h, hlength⟩
        obtain ⟨rest, rfl, hrest⟩ := h.eq_cons hp
        exact ⟨rest, ih.2 ⟨hrest, Nat.le_of_succ_le_succ hlength⟩, rfl⟩

theorem parent?_user_of_ge {index : Nat} (h : t.size ≤ index) :
    t.parent? (.user index) = some .bootstrap := by
  have hnone : t.parents[index]? = none := Array.getElem?_eq_none h
  simp [parent?, hnone]

/-- All loaders on a chain have been given out, but for the bootstrap loader and one more. -/
theorem Chain.subset (h : t.Chain l chain) :
    ∃ index, chain ⊆ .bootstrap :: .user index :: (List.range t.size).map .user := by
  induction h with
  | bootstrap => exact ⟨0, by simp⟩
  | @cons l p rest hp hrest ih =>
    cases l with
    | bootstrap => exact absurd hp not_delegates_bootstrap
    | user index =>
      by_cases hindex : index < t.size
      · obtain ⟨other, hsub⟩ := ih
        refine ⟨other, List.cons_subset.2 ⟨?_, hsub⟩⟩
        simp [hindex]
      · -- a number that was not given out delegates to the bootstrap loader, which ends the chain
        obtain rfl : p = .bootstrap :=
          Option.some.inj (hp.symm.trans (parent?_user_of_ge (Nat.le_of_not_lt hindex)))
        refine ⟨index, ?_⟩
        rw [hrest.eq_bootstrap]
        simp

theorem Chain.length_le (h : t.Chain l chain) : chain.length ≤ t.size + 2 := by
  obtain ⟨index, hsub⟩ := h.subset
  calc chain.length
      ≤ (Loader.bootstrap :: .user index :: (List.range t.size).map .user).length :=
        (List.subperm_of_subset h.nodup hsub).length_le
    _ = t.size + 2 := by simp

/-- The bounded search finds the chain wherever there is one. -/
theorem ancestry_eq_some_iff : t.ancestry l = some chain ↔ t.Chain l chain := by
  unfold ancestry
  rw [climb_eq_some_iff]
  exact ⟨fun h => h.1, fun h => ⟨h, h.length_le⟩⟩

theorem isSome_ancestry_iff : (t.ancestry l).isSome ↔ ∃ chain, t.Chain l chain := by
  simp only [Option.isSome_iff_exists, ancestry_eq_some_iff]

/-! ## Circles -/

theorem finite_setOf_reaches (t : LoaderTree) (l : Loader) : {k | t.Reaches l k}.Finite := by
  refine Set.Finite.subset (List.finite_toSet (l :: .bootstrap :: t.parents.toList)) ?_
  intro k hk
  rcases hk.cases_tail with rfl | ⟨j, -, hj⟩
  · simp
  · cases j with
    | bootstrap => exact absurd hj not_delegates_bootstrap
    | user index =>
      have hj : t.parents[index]?.getD .bootstrap = k := Option.some.inj hj
      cases hget : t.parents[index]? with
      | none => simp [← hj, hget]
      | some parent =>
        obtain rfl : parent = k := by simpa [hget] using hj
        simp [Array.mem_of_getElem? hget]

/-- Of two loaders on the way up from `l`, the first is an ancestor of the second. -/
def Above (t : LoaderTree) (l : Loader) (j k : {k // t.Reaches l k}) : Prop :=
  Relation.TransGen t.Delegates k.1 j.1

/-- There are finitely many loaders on the way, so that one can go on upwards only in a circle. -/
theorem wellFounded_above (hfree : ∀ k, t.Reaches l k → ¬ t.OwnAncestor k) :
    WellFounded (t.Above l) := by
  have : Finite {k // t.Reaches l k} := finite_setOf_reaches t l
  have : IsTrans _ (t.Above l) := ⟨fun _ _ _ hab hbc => hbc.trans hab⟩
  have : Std.Irrefl (t.Above l) := ⟨fun k hk => by
    obtain ⟨p, hp, hback⟩ := Relation.TransGen.head'_iff.1 hk
    exact hfree k.1 k.2 ⟨p, hp, hback⟩⟩
  exact Finite.wellFounded_of_trans_of_irrefl _

/-- There is a chain exactly if no loader on the way is its own ancestor. -/
theorem exists_chain_iff :
    (∃ chain, t.Chain l chain) ↔ ∀ k, t.Reaches l k → ¬ t.OwnAncestor k := by
  constructor
  · rintro ⟨chain, h⟩ k hk
    exact h.not_ownAncestor hk
  · intro hfree
    suffices h : ∀ k : {k // t.Reaches l k}, ∃ chain, t.Chain k.1 chain from h ⟨l, .refl⟩
    intro k
    -- from above, where the chains are shorter
    induction k using (wellFounded_above hfree).induction with
    | h k ih =>
      cases hp : t.parent? k.1 with
      | none =>
        rw [parent?_eq_none_iff.1 hp]
        exact ⟨_, .bootstrap⟩
      | some p =>
        obtain ⟨chain, hchain⟩ := ih ⟨p, k.2.tail hp⟩ (.single hp)
        exact ⟨_, .cons hp hchain⟩

/-! ## Creating loaders -/

theorem parent?_add :
    (t.add p).2.parent? l = if l = .user t.size then some p else t.parent? l := by
  cases l with
  | bootstrap => rfl
  | user index =>
    by_cases h : index = t.size
    · subst h
      simp [add, parent?, size]
    · have hne : Loader.user index ≠ .user t.size := fun heq => h (Loader.user.inj heq)
      rw [if_neg hne]
      simp only [add, parent?, Array.getElem?_push]
      rw [if_neg (show index ≠ t.parents.size from h)]

theorem delegates_add_of_ne (h : l ≠ .user t.size) :
    (t.add p).2.Delegates l k ↔ t.Delegates l k := by
  unfold Delegates
  rw [parent?_add, if_neg h]

theorem delegates_add_fresh : (t.add p).2.Delegates (.user t.size) p := by
  unfold Delegates
  rw [parent?_add, if_pos rfl]

/-- Before a loader is created its number delegates to the bootstrap loader. -/
theorem delegates_fresh : t.Delegates (.user t.size) .bootstrap :=
  parent?_user_of_ge (Nat.le_refl _)

theorem reaches_add_fresh (h : t.Reaches l (.user t.size)) :
    (t.add p).2.Reaches l (.user t.size) := by
  induction h using Relation.ReflTransGen.head_induction_on with
  | refl => exact .refl
  | @head a b hab _ ih =>
    by_cases ha : a = .user t.size
    · rw [ha]
      exact .refl
    · exact .head ((delegates_add_of_ne ha).2 hab) ih

/-- All chains end after a creation exactly if they did before and the parent named does not
delegate to the number that is given out. -/
theorem chainsEnd_add :
    (t.add p).2.ChainsEnd ↔ t.ChainsEnd ∧ ¬ t.Reaches p (.user t.size) := by
  constructor
  · intro h
    refine ⟨fun l => ?_, fun hreach => ?_⟩
    · obtain ⟨chain, hchain⟩ := h l
      induction hchain with
      | bootstrap => exact ⟨_, .bootstrap⟩
      | @cons l q rest hq _ ih =>
        by_cases hl : l = .user t.size
        · subst hl
          exact ⟨_, .cons delegates_fresh .bootstrap⟩
        · obtain ⟨chain, hchain⟩ := ih
          exact ⟨_, .cons ((delegates_add_of_ne hl).1 hq) hchain⟩
    · obtain ⟨chain, hchain⟩ := h (.user t.size)
      exact hchain.not_ownAncestor .refl ⟨p, delegates_add_fresh, reaches_add_fresh hreach⟩
  · rintro ⟨h, hreach⟩ l
    -- the chain from the parent avoids the new loader, so that the creation leaves it alone
    obtain ⟨above, habove⟩ := h p
    have hfresh : (t.add p).2.Chain (.user t.size) (.user t.size :: above) := by
      refine .cons delegates_add_fresh (habove.congr fun k hk => ?_)
      have hne : k ≠ .user t.size := by
        rintro rfl
        exact hreach (habove.mem_iff.1 hk)
      rw [parent?_add, if_neg hne]
    obtain ⟨chain, hchain⟩ := h l
    induction hchain with
    | bootstrap => exact ⟨_, .bootstrap⟩
    | @cons l q rest hq _ ih =>
      by_cases hl : l = .user t.size
      · subst hl
        exact ⟨_, hfresh⟩
      · obtain ⟨chain, hchain⟩ := ih
        exact ⟨_, .cons ((delegates_add_of_ne hl).2 hq) hchain⟩

/-! ## Sequences of creations -/

theorem ofParents_concat (parents : List Loader) (p : Loader) :
    ofParents (parents ++ [p]) = ((ofParents parents).add p).2 := by
  simp [ofParents]

theorem parents_ofParents (parents : List Loader) :
    (ofParents parents).parents = parents.toArray := by
  induction parents using List.reverseRecOn with
  | nil => rfl
  | append_singleton parents p ih =>
    rw [ofParents_concat]
    simp [add, ih]

theorem size_ofParents (parents : List Loader) : (ofParents parents).size = parents.length := by
  simp [size, parents_ofParents]

theorem chainsEnd_empty : empty.ChainsEnd := by
  intro l
  cases l with
  | bootstrap => exact ⟨_, .bootstrap⟩
  | user index => exact ⟨_, .cons (parent?_user_of_ge (Nat.zero_le _)) .bootstrap⟩

/-- All chains end exactly if no creation names a parent that delegates to the new loader. -/
theorem chainsEnd_ofParents_iff (parents : List Loader) :
    (ofParents parents).ChainsEnd ↔
      ∀ (i : Nat) (p : Loader), parents[i]? = some p →
        ¬ (ofParents (parents.take i)).Reaches p (.user i) := by
  induction parents using List.reverseRecOn with
  | nil => exact ⟨fun _ i p hp => by simp at hp, fun _ => chainsEnd_empty⟩
  | append_singleton parents p ih =>
    rw [ofParents_concat, chainsEnd_add, ih, size_ofParents]
    constructor
    · rintro ⟨hbefore, hlast⟩ i q hq
      rcases Nat.lt_trichotomy i parents.length with hi | rfl | hi
      · rw [List.getElem?_append_left hi] at hq
        rw [List.take_append_of_le_length (Nat.le_of_lt hi)]
        exact hbefore i q hq
      · obtain rfl : p = q := by simpa using hq
        simpa using hlast
      · rw [List.getElem?_eq_none (by simp; omega)] at hq
        cases hq
    · intro h
      refine ⟨fun i q hq => ?_, ?_⟩
      · have hi : i < parents.length := (List.getElem?_eq_some_iff.1 hq).1
        have := h i q (by rwa [List.getElem?_append_left hi])
        rwa [List.take_append_of_le_length (Nat.le_of_lt hi)] at this
      · simpa using h parents.length p (by simp)

/-- All chains end if every parent named has been created before. -/
theorem chainsEnd_of_earlier {parents : List Loader}
    (h : ∀ i j : Nat, parents[i]? = some (Loader.user j) → j < i) : (ofParents parents).ChainsEnd := by
  intro l
  cases l with
  | bootstrap => exact ⟨_, .bootstrap⟩
  | user i =>
    induction i using Nat.strongRecOn with
    | ind i ih =>
      cases hp : parents[i]? with
      | none =>
        have hsize : (ofParents parents).size ≤ i := by
          rw [size_ofParents]
          exact List.getElem?_eq_none_iff.1 hp
        exact ⟨_, .cons (parent?_user_of_ge hsize) .bootstrap⟩
      | some p =>
        have hdelegates : (ofParents parents).Delegates (.user i) p := by
          simp [Delegates, parent?, parents_ofParents, hp]
        cases p with
        | bootstrap => exact ⟨_, .cons hdelegates .bootstrap⟩
        | user j =>
          obtain ⟨chain, hchain⟩ := ih j (h i j hp)
          exact ⟨_, .cons hdelegates hchain⟩

/-! ## What walks along chains -/

theorem isAncestor_eq_true_iff :
    t.isAncestor k l = true ↔ (t.ancestry l).isSome ∧ t.Reaches l k := by
  unfold isAncestor
  cases h : t.ancestry l with
  | none => simp
  | some chain => simp [(ancestry_eq_some_iff.1 h).mem_iff]

/-- A loader finds the class of the uppermost of its ancestors that has one of the name. -/
theorem lookupClass_eq_some_iff {table : ClassTable} {name : String} {c : ClassId} :
    table.lookupClass l name = some c ↔ (table.loaders.ancestry l).isSome ∧
      ∃ k, table.loaders.Reaches l k ∧ table.registered? k name = some c ∧
        ∀ j, table.loaders.Reaches k j → j ≠ k → table.registered? j name = none := by
  unfold ClassTable.lookupClass
  cases h : table.loaders.ancestry l with
  | none => simp
  | some chain =>
    have hchain := ancestry_eq_some_iff.1 h
    simp only [Option.isSome_some, true_and]
    rw [List.findSome?_eq_some_iff]
    constructor
    · rintro ⟨above, k, below, hsplit, hk, hnone⟩
      have hsplit : chain = below.reverse ++ k :: above.reverse := by
        rw [← List.reverse_reverse chain, hsplit]
        simp
      subst hsplit
      refine ⟨k, hchain.mem_iff.1 (by simp), hk, fun j hj hne => hnone j ?_⟩
      have hmem := hchain.of_append.mem_iff.2 hj
      simpa [hne] using hmem
    · rintro ⟨k, hreach, hk, hnone⟩
      obtain ⟨below, above, rfl⟩ := List.append_of_mem (hchain.mem_iff.2 hreach)
      refine ⟨above.reverse, k, below.reverse, by simp, hk, fun j hj => ?_⟩
      have hj : j ∈ above := List.mem_reverse.1 hj
      have hkChain := hchain.of_append
      refine hnone j (hkChain.mem_iff.1 (List.mem_cons_of_mem _ hj)) ?_
      rintro rfl
      exact hkChain.not_mem hj

/-- Which walks up the loaders end, whatever user loaders have been created. A walk ends exactly if
no loader on its way is its own ancestor, and then it has no loader twice; all end exactly if no
creation names a parent that, at that moment, delegates to the number being given out, so in
particular if every parent named exists. Where the walk of a loader never ends, neither does the
search for a class nor the test for an ancestor, which begin with it; elsewhere they answer what
delegation says. -/
theorem ancestry_of_parents (parents : List Loader) :
    (∀ l, (ofParents parents).ancestry l = none ↔
      ∀ steps, (ofParents parents).climb steps l = none) ∧
    (∀ l, ((ofParents parents).ancestry l).isSome ↔
      ∀ k, (ofParents parents).Reaches l k → ¬ (ofParents parents).OwnAncestor k) ∧
    ((∀ l, ((ofParents parents).ancestry l).isSome) ↔
      ∀ (i : Nat) (p : Loader), parents[i]? = some p →
        ¬ (ofParents (parents.take i)).Reaches p (.user i)) ∧
    ((∀ i j : Nat, parents[i]? = some (Loader.user j) → j < i) →
      ∀ l, ((ofParents parents).ancestry l).isSome) ∧
    (∀ l chain, (ofParents parents).ancestry l = some chain →
      chain.head? = some l ∧ chain.getLast? = some .bootstrap ∧ chain.Nodup ∧
        ∀ k, k ∈ chain ↔ (ofParents parents).Reaches l k) ∧
    (∀ k l, (ofParents parents).isAncestor k l = true ↔
      ((ofParents parents).ancestry l).isSome ∧ (ofParents parents).Reaches l k) ∧
    ∀ table : ClassTable, table.loaders = ofParents parents → ∀ l name c,
      table.lookupClass l name = some c ↔ ((ofParents parents).ancestry l).isSome ∧
        ∃ k, (ofParents parents).Reaches l k ∧ table.registered? k name = some c ∧
          ∀ j, (ofParents parents).Reaches k j → j ≠ k → table.registered? j name = none := by
  have hends : (∀ l, ((ofParents parents).ancestry l).isSome) ↔ (ofParents parents).ChainsEnd :=
    forall_congr' fun _ => isSome_ancestry_iff
  refine ⟨fun l => ⟨fun hnone steps => ?_, fun h => h _⟩, fun l => ?_, ?_, fun h => ?_, ?_, ?_, ?_⟩
  · rw [Option.eq_none_iff_forall_ne_some] at hnone ⊢
    intro chain h
    exact hnone chain (ancestry_eq_some_iff.2 (climb_eq_some_iff.1 h).1)
  · rw [isSome_ancestry_iff, exists_chain_iff]
  · rw [hends, chainsEnd_ofParents_iff]
  · exact hends.2 (chainsEnd_of_earlier h)
  · intro l chain h
    have hchain := ancestry_eq_some_iff.1 h
    exact ⟨hchain.head?_eq, hchain.getLast?_eq, hchain.nodup, fun k => hchain.mem_iff⟩
  · exact fun k l => isAncestor_eq_true_iff
  · intro table htable l name c
    rw [← htable]
    exact lookupClass_eq_some_iff

/-- The first loader may name itself as its parent: then it is its own ancestor, and the walk goes
on in every number of steps. -/
theorem ancestry_of_parents_of_own :
    (ofParents [.user 0]).OwnAncestor (.user 0) ∧
      ∀ steps, (ofParents [.user 0]).climb steps (.user 0) = none := by
  have hown : (ofParents [.user 0]).OwnAncestor (.user 0) := ⟨.user 0, rfl, .refl⟩
  obtain ⟨hloop, hfree, -⟩ := ancestry_of_parents [.user 0]
  refine ⟨hown, (hloop _).1 ?_⟩
  by_contra hsome
  exact (hfree _).1 (Option.isSome_iff_ne_none.2 hsome) _ .refl hown

end HandleCalculus.LoaderTree
