import HandleCalculus.Proofs.LoaderDelegation

/-!
# What becomes of a class found

A loader does not record what it has found. A class that is registered later in one of its ancestors
therefore hides, for the loader too, the class of that name found before
(`Classes.not_lookupClass_stable`). That is the only way in which an answer changes: registrations stay and
what a loader reaches it goes on to reach, as long as the loaders form a tree; so a name once found is
always found, and the class is another one exactly if a loader above that of the first class has the name
by then. The search only moves up.
-/

set_option autoImplicit false

namespace HandleCalculus

namespace LoaderTree

variable {t : LoaderTree} {k l p : Loader}

/-- What a loader reaches it reaches after a creation, though the creation may turn a number that was not
given out, and that some loader on the way has named, away from the bootstrap loader. -/
theorem Reaches.add (hends : (t.add p).2.ChainsEnd) (h : t.Reaches l k) :
    (t.add p).2.Reaches l k := by
  induction h with
  | refl => exact .refl
  | @tail b c _ hbc ih =>
    by_cases hb : b = .user t.size
    · subst hb
      obtain rfl : .bootstrap = c := Option.some.inj (delegates_fresh.symm.trans hbc)
      exact reaches_bootstrap hends l
    · exact ih.tail ((delegates_add_of_ne hb).2 hbc)

end LoaderTree

namespace Classes

open LoaderTree

variable {C D : Classes} {k l : Loader} {name : String} {c d : ClassId}

/-! ## From one moment to a later one -/

/-- If the loaders form a tree they always have, and what a loader reached it still reaches. -/
theorem Later.reaches (h : C.Later D) (hends : D.table.loaders.ChainsEnd) :
    C.table.loaders.ChainsEnd ∧
      ∀ l k, C.table.loaders.Reaches l k → D.table.loaders.Reaches l k := by
  induction h using Relation.ReflTransGen.head_induction_on with
  | refl => exact ⟨hends, fun _ _ hk => hk⟩
  | head hstep _ ih =>
    obtain ⟨hends, hreaches⟩ := ih
    cases hstep with
    | newLoader parent =>
      exact ⟨(chainsEnd_add.1 hends).1, fun l k hk => hreaches l k (hk.add hends)⟩
    | built d older => exact ⟨hends, hreaches⟩
    | registered there free => exact ⟨hends, hreaches⟩

/-- The loader of a class found is the uppermost that has the name. -/
theorem uppermost_of_lookupClass (hC : C.Named) (hends : C.table.loaders.ChainsEnd)
    (hc : C.table.lookupClass l name = some c) :
    C.table.loaders.Reaches l (C.graph.loader c) ∧
      C.table.registered? (C.graph.loader c) name = some c ∧
      ∀ j, C.table.loaders.Reaches (C.graph.loader c) j → j ≠ C.graph.loader c →
        C.table.registered? j name = none := by
  obtain ⟨k, hlk, hk, huppermost⟩ := (ClassTable.lookupClass_eq_some_iff hends).1 hc
  obtain ⟨-, rfl, -⟩ := hC k name c hk
  exact ⟨hlk, hk, huppermost⟩

/-- A name that was found is found later, in a loader that is not below the one it was found in. -/
theorem Later.lookupClass (h : C.Later D) (hC : C.Named) (hends : D.table.loaders.ChainsEnd)
    (hc : C.table.lookupClass l name = some c) :
    ∃ d, D.table.lookupClass l name = some d ∧
      D.table.loaders.Reaches (C.graph.loader c) (D.graph.loader d) := by
  obtain ⟨hendsC, hreaches⟩ := h.reaches hends
  obtain ⟨hlk, hk, -⟩ := uppermost_of_lookupClass hC hendsC hc
  have hkD := h.registered? hk
  have hsome : (D.table.lookupClass l name).isSome := by
    rw [ClassTable.isSome_lookupClass_iff hends]
    exact ⟨_, hreaches _ _ hlk, Option.isSome_of_eq_some hkD⟩
  obtain ⟨d, hd⟩ := Option.isSome_iff_exists.1 hsome
  obtain ⟨hlj, -, huppermost⟩ := uppermost_of_lookupClass (h.named hC) hends hd
  exact ⟨d, hd, ClassTable.reaches_of_uppermost hlj huppermost (hreaches _ _ hlk)
    (Option.isSome_of_eq_some hkD)⟩

/-- It is the same class exactly if no loader above the one it was found in has the name. -/
theorem Later.eq_iff (h : C.Later D) (hC : C.Named) (hends : D.table.loaders.ChainsEnd)
    (hc : C.table.lookupClass l name = some c) (hd : D.table.lookupClass l name = some d) :
    d = c ↔ ∀ k, D.table.loaders.Reaches (C.graph.loader c) k → k ≠ C.graph.loader c →
      D.table.registered? k name = none := by
  obtain ⟨hendsC, hreaches⟩ := h.reaches hends
  obtain ⟨hlk, hk, -⟩ := uppermost_of_lookupClass hC hendsC hc
  have hkD := h.registered? hk
  obtain ⟨hlj, hj, huppermost⟩ := uppermost_of_lookupClass (h.named hC) hends hd
  constructor
  · rintro rfl
    have hloader : D.graph.loader d = C.graph.loader d := ((h.named hC) _ _ _ hkD).2.1
    rwa [hloader] at huppermost
  · intro hnone
    have hreach := ClassTable.reaches_of_uppermost hlj huppermost (hreaches _ _ hlk)
      (Option.isSome_of_eq_some hkD)
    by_cases heq : D.graph.loader d = C.graph.loader c
    · rw [heq, hkD] at hj
      exact (Option.some.inj hj).symm
    · rw [hnone _ hreach heq] at hj
      cases hj

/-- Where the loader delegates as it did, a class that has taken the place of another has been registered
since. -/
theorem Later.registered_since (h : C.Later D) (hC : C.Named) (hends : D.table.loaders.ChainsEnd)
    (hc : C.table.lookupClass l name = some c) (hd : D.table.lookupClass l name = some d)
    (hne : d ≠ c) (hsame : D.table.loaders.ancestry l = C.table.loaders.ancestry l) :
    C.table.registered? (D.graph.loader d) name = none := by
  obtain ⟨hendsC, hreaches⟩ := h.reaches hends
  obtain ⟨hlk, hk, huppermostC⟩ := uppermost_of_lookupClass hC hendsC hc
  obtain ⟨hlj, hj, huppermost⟩ := uppermost_of_lookupClass (h.named hC) hends hd
  have hkD := h.registered? hk
  have hljC : C.table.loaders.Reaches l (D.graph.loader d) := by
    obtain ⟨chain, hchain⟩ := hendsC l
    have hchainD := ancestry_eq_some_iff.1 (hsame.trans (ancestry_eq_some_iff.2 hchain))
    exact hchain.mem_iff.1 (hchainD.mem_iff.2 hlj)
  rw [← Option.not_isSome_iff_eq_none]
  intro hold
  -- then each of the two loaders would be above the other
  have hdown := hreaches _ _ (ClassTable.reaches_of_uppermost hlk huppermostC hljC hold)
  have hup := ClassTable.reaches_of_uppermost hlj huppermost (hreaches _ _ hlk)
    (Option.isSome_of_eq_some hkD)
  rw [Reaches.antisymm hends hdown hup, hkD] at hj
  exact hne (Option.some.inj hj).symm

/-! ## Registrations that fail -/

theorem register_eq_error {e : ResolutionError} (h : C.register c = .error e) :
    e = .duplicateClass (C.graph.name c) (C.graph.loader c) := by
  unfold register ClassTable.register at h
  split at h
  · exact (Except.error.inj h).symm
  · cases h

theorem after_register_of_error {e : ResolutionError} (h : C.register c = .error e) :
    C.after (.register c) = C := by
  unfold after
  dsimp only
  rw [h]
  split <;> rfl

theorem decl_add_size {G : ClassGraph} {d : ClassDecl} (older : ∀ s ∈ d.supers, s < G.size) :
    (G.add d older).decl G.size = d := by
  have hlater : ¬ bootstrapCount + G.defined.size < bootstrapCount := by
    exact Nat.not_lt.2 (Nat.le_add_right _ _)
  unfold ClassGraph.decl ClassGraph.size
  rw [if_neg hlater, Nat.add_sub_cancel_left]
  show ((G.defined.push d)[G.defined.size]?).getD _ = d
  rw [Array.getElem?_push_size]
  rfl

theorem define?_eq_error {d : ClassDecl} {e : ResolutionError} (h : C.define? d = some (.error e)) :
    e = .duplicateClass d.name d.loader ∧ C.after (.define d) = C := by
  constructor
  · unfold define? at h
    cases hbuild : C.build? d with
    | none =>
      rw [hbuild] at h
      cases h
    | some built =>
      obtain ⟨c, B⟩ := built
      obtain ⟨older, rfl, rfl⟩ := build?_eq_some hbuild
      rw [hbuild, Option.map_some, Option.some_inj] at h
      dsimp only at h
      cases hregister : register _ C.graph.size with
      | error e' =>
        rw [hregister] at h
        obtain rfl := Except.error.inj h
        have he := register_eq_error hregister
        unfold ClassGraph.name ClassGraph.loader at he
        dsimp only at he
        rwa [decl_add_size] at he
      | ok D =>
        rw [hregister] at h
        cases h
  · unfold after
    dsimp only
    rw [h]

/-! ## The law of the search -/

/-- An answer need not stay: a loader that delegates to the bootstrap loader finds a class of its own,
until the bootstrap loader registers one of the same name. -/
theorem not_lookupClass_stable :
    ¬ ∀ (before between : List Change) (l : Loader) (name : String) (c : ClassId),
      (initial.run (before ++ between)).table.loaders.ChainsEnd →
      (initial.run before).table.lookupClass l name = some c →
      (initial.run (before ++ between)).table.lookupClass l name = some c := by
  intro hstable
  let thing (loader : Loader) : ClassDecl := ⟨"p/A", ⟨0⟩, loader, some ClassId.object, [], [], []⟩
  let before : List Change := [.newLoader .bootstrap, .define (thing (.user 0))]
  let between : List Change := [.define (thing .bootstrap)]
  have hends : (initial.run (before ++ between)).table.loaders.ChainsEnd := chainsEnd_run (by decide)
  have hfound : (initial.run before).table.lookupClass (.user 0) "p/A" = some 23 := by decide
  have hlater : (initial.run (before ++ between)).table.lookupClass (.user 0) "p/A" = some 24 := by
    decide
  have hsame := hstable before between (.user 0) "p/A" 23 hends hfound
  rw [hlater] at hsame
  cases hsame

/-- **A name once found is always found, and the search only moves up.** At any later moment of any
history whose loaders form a tree, a loader that found a class finds one of the name. It is the same class
exactly if no proper ancestor, by then, of the loader of that class has registered the name by then;
otherwise it is the class of the uppermost that has, which was registered in the meantime if the loader
delegates as it did. A registration that fails, because the loader has a class of the name, changes
nothing. -/
theorem lookupClass_moves_up (before between : List Change)
    (hends : (initial.run (before ++ between)).table.loaders.ChainsEnd) :
    let C := initial.run before
    let D := initial.run (before ++ between)
    let T := D.table.loaders
    (∀ l name c, C.table.lookupClass l name = some c →
      ∃ d, D.table.lookupClass l name = some d ∧
        (d = c ↔ ∀ k, T.isAncestor k (C.graph.loader c) = true → k ≠ C.graph.loader c →
          D.table.registered? k name = none) ∧
        T.isAncestor (D.graph.loader d) (C.graph.loader c) = true ∧
        D.table.registered? (D.graph.loader d) name = some d ∧
        (∀ k, T.isAncestor k (D.graph.loader d) = true → k ≠ D.graph.loader d →
          D.table.registered? k name = none) ∧
        (d ≠ c → T.ancestry l = C.table.loaders.ancestry l →
          C.table.registered? (D.graph.loader d) name = none)) ∧
    (∀ c e, C.register c = .error e →
      e = .duplicateClass (C.graph.name c) (C.graph.loader c) ∧ C.after (.register c) = C) ∧
    ∀ d e, C.define? d = some (.error e) →
      e = .duplicateClass d.name d.loader ∧ C.after (.define d) = C := by
  intro C D T
  have hlater : C.Later D := by
    show C.Later (initial.run (before ++ between))
    rw [run_append]
    exact C.later_run between
  have hnamed : C.Named := named_run before
  have hT : T.ChainsEnd := hends
  simp only [isAncestor_iff hT]
  refine ⟨fun l name c hc => ?_, fun c e h => ⟨register_eq_error h, after_register_of_error h⟩,
    fun d e h => define?_eq_error h⟩
  · obtain ⟨d, hd, hup⟩ := hlater.lookupClass hnamed hends hc
    obtain ⟨-, hj, huppermost⟩ := uppermost_of_lookupClass (hlater.named hnamed) hends hd
    exact ⟨d, hd, hlater.eq_iff hnamed hends hc hd, hup, hj, huppermost,
      hlater.registered_since hnamed hends hc hd⟩

/-- A loader below another finds a class of its own until the other one registers the name. -/
theorem lookupClass_moves_up_of_late :
    let thing (loader : Loader) : ClassDecl :=
      ⟨"p/A", ⟨0⟩, loader, some ClassId.object, [], [], []⟩
    let before : List Change := [.newLoader .bootstrap, .newLoader (.user 0),
      .define (thing (.user 1))]
    let between : List Change := [.define (thing (.user 0))]
    (initial.run before).table.lookupClass (.user 1) "p/A" = some 23 ∧
      ∃ d, (initial.run (before ++ between)).table.lookupClass (.user 1) "p/A" = some d ∧
        d ≠ 23 := by
  intro thing before between
  have hends : (initial.run (before ++ between)).table.loaders.ChainsEnd := chainsEnd_run (by decide)
  have hfound : (initial.run before).table.lookupClass (.user 1) "p/A" = some 23 := by decide
  have habove : (initial.run (before ++ between)).table.loaders.isAncestor (.user 0)
      ((initial.run before).graph.loader 23) = true := by decide
  have hlate : (initial.run (before ++ between)).table.registered? (.user 0) "p/A" ≠ none := by
    decide
  obtain ⟨d, hd, hsame, -⟩ := (lookupClass_moves_up before between hends).1 _ _ _ hfound
  exact ⟨hfound, d, hd, fun heq => hlate (hsame.1 heq _ habove (by decide))⟩

end Classes

end HandleCalculus
