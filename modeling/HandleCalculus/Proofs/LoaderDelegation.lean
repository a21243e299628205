import HandleCalculus.Proofs.LoadingHistory

/-!
# Loaders that delegate to earlier ones

Where each user loader names as its parent the bootstrap loader or a loader created before it, loaders
form a tree that only grows at its leaves. "Is an ancestor of" is then a partial order with the bootstrap
loader below all others, in which the ancestors of one loader stand in a row (`LoaderTree.Reaches.total`);
and a search, which begins at the bootstrap loader, finds the first class of its name in that row. What an
ancestor finds is therefore found by all that delegate to it.

The order is read off the chains of loaders. That the chains of a tree do not change when it grows is shown
once for trees (`ancestry_ofParents_append`) and holds of histories because these create their loaders one
after the other (`Classes.loaders_run`).
-/

set_option autoImplicit false

namespace HandleCalculus

namespace LoaderTree

variable {t : LoaderTree} {a b k l : Loader}

/-! ## The order of the ancestors -/

theorem isAncestor_iff (hends : t.ChainsEnd) : t.isAncestor k l = true ↔ t.Reaches l k := by
  rw [isAncestor_eq_true_iff, isSome_ancestry_iff]
  exact and_iff_right (hends l)

theorem reaches_bootstrap (hends : t.ChainsEnd) (l : Loader) : t.Reaches l .bootstrap := by
  obtain ⟨chain, hchain⟩ := hends l
  exact hchain.mem_iff.1 (List.mem_of_getLast? hchain.getLast?_eq)

/-- Loaders that delegate to each other are the same, or each would be its own ancestor. -/
theorem Reaches.antisymm (hends : t.ChainsEnd) (hab : t.Reaches a b) (hba : t.Reaches b a) :
    a = b := by
  rcases hab.cases_head with heq | ⟨p, hp, hpb⟩
  · exact heq
  · obtain ⟨chain, hchain⟩ := hends a
    exact absurd ⟨p, hp, hpb.trans hba⟩ (hchain.not_ownAncestor .refl)

/-- Of two loaders that one delegates to, one delegates to the other. -/
theorem Reaches.total (ha : t.Reaches l a) (hb : t.Reaches l b) :
    t.Reaches a b ∨ t.Reaches b a :=
  Relation.ReflTransGen.total_of_right_unique
    (fun _ _ _ hp hq => Option.some.inj (hp.symm.trans hq)) ha hb

/-! ## Growing at the leaves -/

/-- Whether the loader has been created. -/
def Has (t : LoaderTree) (l : Loader) : Prop := ∀ i, l = .user i → i < t.size

theorem has_bootstrap : t.Has .bootstrap := nofun

/-- The parents that creations name, each a loader that is there by then. -/
def Earlier (parents : List Loader) : Prop :=
  ∀ i j : Nat, parents[i]? = some (.user j) → j < i

instance (parents : List Loader) : Decidable (Earlier parents) :=
  let index? : Loader → Option Nat
    | .bootstrap => none
    | .user j => some j
  decidable_of_iff (∀ x ∈ parents.zipIdx, ∀ j ∈ index? x.1, j < x.2) <| by
    constructor
    · intro h i j hij
      exact h (.user j, i) (List.mem_zipIdx_iff_getElem?.2 hij) j rfl
    · rintro h ⟨_ | j, i⟩ hx k hk
      · cases hk
      · obtain rfl := Option.some.inj hk
        exact h i j (List.mem_zipIdx_iff_getElem?.1 hx)

variable {parents more : List Loader}

theorem parent?_ofParents_append (hl : (ofParents parents).Has l) :
    (ofParents (parents ++ more)).parent? l = (ofParents parents).parent? l := by
  cases l with
  | bootstrap => rfl
  | user i =>
    have hi : i < parents.length := size_ofParents parents ▸ hl i rfl
    simp [parent?, parents_ofParents, List.getElem?_append_left hi]

/-- Whatever a loader that is there delegates to is there. -/
theorem Chain.has (hearlier : Earlier parents) {chain : List Loader}
    (h : (ofParents parents).Chain l chain) (hl : (ofParents parents).Has l) :
    ∀ k ∈ chain, (ofParents parents).Has k := by
  induction h with
  | bootstrap =>
    intro k hk
    rw [List.mem_singleton.1 hk]
    exact has_bootstrap
  | @cons l p rest hp _ ih =>
    have hparent : (ofParents parents).Has p := by
      rintro j rfl
      cases l with
      | bootstrap => exact absurd hp not_delegates_bootstrap
      | user i =>
        have hi := hl i rfl
        have hget : parents[i]? = some (.user j) := by
          have hi : i < parents.length := size_ofParents parents ▸ hi
          have hp : (parents[i]?).getD .bootstrap = .user j := by
            simpa [Delegates, parent?, parents_ofParents] using hp
          rw [List.getElem?_eq_getElem hi] at hp ⊢
          exact congrArg some hp
        exact (hearlier i j hget).trans hi
    intro k hk
    rcases List.mem_cons.1 hk with rfl | hk
    · exact hl
    · exact ih hparent k hk

/-- A chain does not change when loaders are added. -/
theorem ancestry_ofParents_append (hearlier : Earlier parents) (hl : (ofParents parents).Has l) :
    (ofParents (parents ++ more)).ancestry l = (ofParents parents).ancestry l := by
  obtain ⟨chain, hchain⟩ := chainsEnd_of_earlier hearlier l
  rw [ancestry_eq_some_iff.2 hchain, ancestry_eq_some_iff]
  exact hchain.congr fun k hk => parent?_ofParents_append (hchain.has hearlier hl k hk)

end LoaderTree

/-! ## Searching for a class -/

namespace ClassTable

variable {t : ClassTable} {k l : Loader} {name : String} {c : ClassId}

/-- A search finds the class of the uppermost loader that has one of the name. -/
theorem lookupClass_eq_some_iff (hends : t.loaders.ChainsEnd) :
    t.lookupClass l name = some c ↔ ∃ k, t.loaders.Reaches l k ∧ t.registered? k name = some c ∧
      ∀ j, t.loaders.Reaches k j → j ≠ k → t.registered? j name = none := by
  rw [LoaderTree.lookupClass_eq_some_iff, LoaderTree.isSome_ancestry_iff]
  exact and_iff_right (hends l)

theorem isSome_lookupClass_iff (hends : t.loaders.ChainsEnd) :
    (t.lookupClass l name).isSome ↔
      ∃ k, t.loaders.Reaches l k ∧ (t.registered? k name).isSome := by
  obtain ⟨chain, hchain⟩ := hends l
  unfold lookupClass
  rw [LoaderTree.ancestry_eq_some_iff.2 hchain]
  simp only [List.findSome?_isSome_iff, List.mem_reverse, hchain.mem_iff]

/-- Every other loader on the way that has the name delegates to the uppermost one. -/
theorem reaches_of_uppermost {j : Loader} (hk : t.loaders.Reaches l k)
    (huppermost : ∀ j, t.loaders.Reaches k j → j ≠ k → t.registered? j name = none)
    (hj : t.loaders.Reaches l j) (hname : (t.registered? j name).isSome) :
    t.loaders.Reaches j k := by
  rcases hj.total hk with hjk | hkj
  · exact hjk
  · by_cases heq : j = k
    · rw [heq]
      exact .refl
    · rw [huppermost j hkj heq] at hname
      cases hname

end ClassTable

namespace Classes

open LoaderTree

/-- The parents that the creations of a history name, in their order. -/
def parentsNamed (changes : List Change) : List Loader := changes.filterMap Change.parent?

theorem loaders_run_initial (changes : List Change) :
    (initial.run changes).table.loaders = ofParents (parentsNamed changes) :=
  initial.loaders_run changes

theorem chainsEnd_run {changes : List Change} (hearlier : Earlier (parentsNamed changes)) :
    (initial.run changes).table.loaders.ChainsEnd := by
  rw [loaders_run_initial]
  exact chainsEnd_of_earlier hearlier

/-- **Delegation is coherent.** At any moment of any history whose creations name the bootstrap loader or
a loader created before: "is an ancestor of" is a partial order with the bootstrap loader below all
others, and of two ancestors of one loader one is an ancestor of the other. A loader finds what its
ancestors find. It finds a class exactly if it or an ancestor has registered one of the name, and then
the class is that of the one nearest to the bootstrap loader, which is visible from all classes of the
loader. The chain of a loader is the same at any later moment. -/
theorem delegation_coherent (before between : List Change)
    (hearlier : Earlier (parentsNamed (before ++ between))) :
    let C := initial.run before
    let T := C.table.loaders
    (∀ l, T.isAncestor l l = true) ∧
    (∀ a b, T.isAncestor a b = true → T.isAncestor b a = true → a = b) ∧
    (∀ a b l, T.isAncestor a b = true → T.isAncestor b l = true → T.isAncestor a l = true) ∧
    (∀ l, T.isAncestor .bootstrap l = true) ∧
    (∀ a b l, T.isAncestor a l = true → T.isAncestor b l = true →
      T.isAncestor a b = true ∨ T.isAncestor b a = true) ∧
    (∀ a l name c, T.isAncestor a l = true → C.table.lookupClass a name = some c →
      C.table.lookupClass l name = some c) ∧
    (∀ l name, (C.table.lookupClass l name).isSome ↔
      ∃ k, T.isAncestor k l = true ∧ (C.table.registered? k name).isSome) ∧
    (∀ l name c, C.table.lookupClass l name = some c →
      C.graph.name c = name ∧ C.table.registered? (C.graph.loader c) name = some c ∧
        T.isAncestor (C.graph.loader c) l = true ∧
        (∀ j, T.isAncestor j l = true → (C.table.registered? j name).isSome →
          T.isAncestor (C.graph.loader c) j = true) ∧
        ∀ user, C.graph.loader user = l → C.graph.typeVisible T (.cls c) user = true) ∧
    ∀ l, T.Has l →
      (initial.run (before ++ between)).table.loaders.ancestry l = T.ancestry l := by
  intro C T
  have hsplit : parentsNamed (before ++ between) = parentsNamed before ++ parentsNamed between :=
    List.filterMap_append
  have hT : T = ofParents (parentsNamed before) := loaders_run_initial before
  have hbefore : Earlier (parentsNamed before) := by
    intro i j hj
    refine hearlier i j ?_
    rw [hsplit, List.getElem?_append_left (List.getElem?_eq_some_iff.1 hj).1, hj]
  have hends : T.ChainsEnd := chainsEnd_run hbefore
  simp only [isAncestor_iff hends]
  refine ⟨fun l => .refl, fun a b hba hab => Reaches.antisymm hends hab hba,
    fun a b l hba hlb => hlb.trans hba, reaches_bootstrap hends, fun a b l hla hlb => ?_,
    fun a l name c hla hc => ?_, fun l name => ClassTable.isSome_lookupClass_iff hends,
    fun l name c hc => ?_, fun l hl => ?_⟩
  · exact (hlb.total hla)
  · obtain ⟨k, hak, hk, huppermost⟩ := (ClassTable.lookupClass_eq_some_iff hends).1 hc
    exact (ClassTable.lookupClass_eq_some_iff hends).2 ⟨k, hla.trans hak, hk, huppermost⟩
  · obtain ⟨k, hlk, hk, huppermost⟩ := (ClassTable.lookupClass_eq_some_iff hends).1 hc
    obtain ⟨-, rfl, hname⟩ := named_run before k name c hk
    refine ⟨hname, hk, hlk, fun j hlj hj =>
      ClassTable.reaches_of_uppermost hlk huppermost hlj hj, fun user huser => ?_⟩
    show T.isAncestor (C.graph.loader c) (C.graph.loader user) = true
    rw [huser, isAncestor_iff hends]
    exact hlk
  · rw [loaders_run_initial, hsplit, hT]
    exact ancestry_ofParents_append hbefore (hT ▸ hl)

/-- Of two loaders one of which delegates to the other, both with a class of one name, each finds the
class of the ancestor. -/
theorem delegation_coherent_of_both :
    let thing (loader : Loader) : ClassDecl :=
      ⟨"app/Thing", ⟨0⟩, loader, some ClassId.object, [], [], []⟩
    let changes : List Change := [.newLoader .bootstrap, .newLoader (.user 0),
      .define (thing (.user 1)), .define (thing (.user 0))]
    (initial.run changes).table.registered? (.user 1) "app/Thing" = some 23 ∧
      (initial.run changes).table.lookupClass (.user 0) "app/Thing" = some 24 ∧
      (initial.run changes).table.lookupClass (.user 1) "app/Thing" = some 24 := by
  intro thing changes
  have hown : (initial.run changes).table.registered? (.user 1) "app/Thing" = some 23 := by decide
  have hancestor : (initial.run changes).table.loaders.isAncestor (.user 0) (.user 1) = true := by decide
  have hfound : (initial.run changes).table.lookupClass (.user 0) "app/Thing" = some 24 := by decide
  have hearlier : Earlier (parentsNamed (changes ++ [])) := by decide
  obtain ⟨-, -, -, -, -, hdown, -⟩ := delegation_coherent changes [] hearlier
  exact ⟨hown, hfound, hdown _ _ _ _ hancestor hfound⟩

end Classes

end HandleCalculus
