import HandleCalculus.Access
import HandleCalculus.Proofs.Dispatch

/-!
# Package-private methods

Selection asks of a declaration that it be neither static nor private, and nothing else: a
package-private method is selected like a public one. So the packages of the classes between a method
and a receiver do not matter, and a class of another package takes a package-private method over
(`taken_over_of_leaving`). What is selected is in the package of the method called exactly if no class of
another package has the last word: each that declares such a method has a class of the package in front of
it that declares one again (`Program.package_private_dispatch`).
-/

set_option autoImplicit false

namespace HandleCalculus

theorem Flags.isPrivate_of_isPackagePrivate {f : Flags} (h : f.isPackagePrivate = true) :
    f.isPrivate = false := by
  have hnone : f.modifiers = 0 := by simpa [isPackagePrivate, has, modifiers] using h
  rw [isPrivate, f.has_eq_modifiers (by decide), hnone]
  decide

namespace ClassGraph

variable {G : ClassGraph} {c d j k : ClassId} {name : String} {desc : Descriptor}
  {m s : MethodRef}

/-! ## The chain above a class -/

/-- The superclasses of a class on a chain are the rest of the chain. -/
theorem superclasses_of_append {below above : List ClassId}
    (h : G.superclasses d = below ++ c :: above) : G.superclasses c = c :: above := by
  induction below generalizing d with
  | nil =>
    obtain rfl : d = c := by
      rw [superclasses_eq] at h
      exact (List.cons.inj h).1
    exact h
  | cons b below ih =>
    rw [superclasses_eq] at h
    have htail := (List.cons.inj h).2
    cases hp : G.parent? d with
    | none =>
      rw [hp] at htail
      exact absurd htail.symm (List.append_ne_nil_of_right_ne_nil below (List.cons_ne_nil c above))
    | some p =>
      rw [hp] at htail
      exact ih htail

theorem IsNearest.declares (h : G.IsNearest d name desc s) :
    s.cls ∈ G.superclasses d ∧ G.instanceHere? s.cls name desc ≠ none := by
  obtain ⟨below, above, hsplit, hs, -⟩ := h
  rw [hsplit, hs]
  exact ⟨List.mem_append_right below List.mem_cons_self, Option.some_ne_none s⟩

/-- The classes of the chain that declare a method are above the nearest one that does. -/
theorem IsNearest.mem_superclasses (h : G.IsNearest d name desc s) (hk : k ∈ G.superclasses d)
    (hdeclares : G.instanceHere? k name desc ≠ none) : k ∈ G.superclasses s.cls := by
  obtain ⟨below, above, hsplit, -, hbelow⟩ := h
  rw [superclasses_of_append hsplit]
  rw [hsplit] at hk
  rcases List.mem_append.1 hk with hk | hk
  · exact absurd (hbelow k hk) hdeclares
  · exact hk

/-- Where a class of the chain declares a method, the nearest one that does is selected. -/
theorem exists_nearest (hprivate : (G.method m).flags.isPrivate = false) (hk : k ∈ G.superclasses d)
    (hdeclares : G.instanceHere? k (G.method m).name (G.method m).desc ≠ none) :
    ∃ s, G.selectMethod? d m = some s ∧ G.IsNearest d (G.method m).name (G.method m).desc s := by
  have hsome : ((G.superclasses d).findSome?
      (G.instanceHere? · (G.method m).name (G.method m).desc)).isSome := by
    rw [List.findSome?_isSome_iff]
    exact ⟨k, hk, Option.isSome_iff_ne_none.2 hdeclares⟩
  obtain ⟨s, hs⟩ := Option.isSome_iff_exists.1 hsome
  have hnearest := isNearest_iff.2 hs
  exact ⟨s, (selectMethod?_eq_some_iff hprivate).2 (.inl hnearest), hnearest⟩

/-! ## Overriding within a package -/

/-- Whether a class of the package of `c` declares the method again in front of `k`, on the chain of
`d`. -/
def Reclaimed (G : ClassGraph) (d c k : ClassId) (name : String) (desc : Descriptor) : Prop :=
  ∃ j ∈ G.superclasses d, j ≠ k ∧ k ∈ G.superclasses j ∧ G.samePackage j c = true ∧
    G.instanceHere? j name desc ≠ none

/-- The nearest declaration is in a package exactly if every declaration outside has one of the package
in front of it. -/
theorem IsNearest.samePackage_iff (h : G.IsNearest d name desc s) :
    G.samePackage s.cls c = true ↔ ∀ k ∈ G.superclasses d, G.instanceHere? k name desc ≠ none →
      G.samePackage k c = false → G.Reclaimed d c k name desc := by
  obtain ⟨hmem, hdeclares⟩ := h.declares
  constructor
  · intro hsame k hk hkdeclares houtside
    refine ⟨s.cls, hmem, ?_, h.mem_superclasses hk hkdeclares, hsame, hdeclares⟩
    rintro rfl
    exact absurd (hsame.symm.trans houtside) (by decide)
  · intro hreclaimed
    refine Decidable.byContradiction fun houtside => ?_
    obtain ⟨j, hj, hne, habove, -, hjdeclares⟩ :=
      hreclaimed s.cls hmem hdeclares (Bool.eq_false_iff.2 houtside)
    -- a declaration in front of the nearest one would be nearer
    have hbelow := h.mem_superclasses hj hjdeclares
    exact hne (isSubclass_antisymm (isSubclass_of_mem_superclasses habove)
      (isSubclass_of_mem_superclasses hbelow))

end ClassGraph

/-- **Selection does not look at packages.** Take a package-private instance method. A class selects the
nearest of the instance methods of that name and descriptor that its superclasses declare, or else the
first default of its superinterfaces. If the method's class is a superclass of the class, the selected
method is declared between the two, and it is in the method's package exactly if every declaration
outside that package has one inside in front of it. A call runs what the class of the receiver selects.
What a class declares is its first method of the kind, by its number of sixteen bits
(`ClassGraph.instanceHere?`). -/
theorem Program.package_private_dispatch (P : Program) {m : MethodRef}
    (hpackage : (P.graph.method m).flags.isPackagePrivate = true)
    (hstatic : (P.graph.method m).flags.isStatic = false)
    (hhere : P.graph.methodHere? m.cls (P.graph.method m).name (P.graph.method m).desc = some m) :
    (∀ d s, P.graph.selectMethod? d m = some s ↔
      P.graph.IsNearest d (P.graph.method m).name (P.graph.method m).desc s ∨
        (∀ k ∈ P.graph.superclasses d,
          P.graph.instanceHere? k (P.graph.method m).name (P.graph.method m).desc = none) ∧
        P.graph.IsFirstDefault d (P.graph.method m).name (P.graph.method m).desc s) ∧
    (∀ d, m.cls ∈ P.graph.superclasses d →
      ∃ s, P.graph.selectMethod? d m = some s ∧
        s.cls ∈ P.graph.superclasses d ∧ m.cls ∈ P.graph.superclasses s.cls ∧
        (P.graph.samePackage s.cls m.cls = true ↔ ∀ k ∈ P.graph.superclasses d,
          P.graph.instanceHere? k (P.graph.method m).name (P.graph.method m).desc ≠ none →
          P.graph.samePackage k m.cls = false →
          P.graph.Reclaimed d m.cls k (P.graph.method m).name (P.graph.method m).desc)) ∧
    ∀ (o : Object) (c : ClassId) (s : MethodRef), o.isInstance P.graph (.cls c) = true →
      P.graph.selectMethod? o.cls m = some s → (P.graph.method s).flags.isAbstract = false →
      ∀ args n, P.callVirtual m c (.obj o :: args) n = P.callMethod s (.obj o :: args) n := by
  have hprivate := Flags.isPrivate_of_isPackagePrivate hpackage
  have hdeclares : P.graph.instanceHere? m.cls (P.graph.method m).name (P.graph.method m).desc ≠
      none := by
    rw [ClassGraph.instanceHere?_eq_some_iff.2 ⟨hhere, hstatic, hprivate⟩]
    exact Option.some_ne_none m
  refine ⟨fun d s => ClassGraph.selectMethod?_eq_some_iff hprivate, fun d hd => ?_,
    fun o c s ho hs habstract => callVirtual_of_selectMethod? ho hs habstract⟩
  obtain ⟨s, hs, hnearest⟩ := ClassGraph.exists_nearest hprivate hd hdeclares
  exact ⟨s, hs, hnearest.declares.1, hnearest.mem_superclasses hd hdeclares, hnearest.samePackage_iff⟩

namespace ClassGraph

/-- A class `p/A` with a package-private method `m`, a class `q/B` that extends it and a class `p/C` that
extends `q/B`, each with a method `m` of its own. -/
def leaving : ClassGraph where
  defined := #[
    ⟨"p/A", ⟨0x0001⟩, .bootstrap, some ClassId.object, [],
      [.withBody "m" ⟨[], .prim .int⟩ ⟨0x0000⟩], []⟩,
    ⟨"q/B", ⟨0x0001⟩, .bootstrap, some bootstrapCount, [],
      [.withBody "m" ⟨[], .prim .int⟩ ⟨0x0001⟩], []⟩,
    ⟨"p/C", ⟨0x0001⟩, .bootstrap, some (bootstrapCount + 1), [],
      [.withBody "m" ⟨[], .prim .int⟩ ⟨0x0000⟩], []⟩]
  older := ClassGraph.older_of_lt (by decide)

/-- The subclass in the other package selects its own method, for the package-private one that is found
in the class above. -/
theorem taken_over_of_leaving :
    leaving.findMethod? bootstrapCount "m" ⟨[], .prim .int⟩ = some ⟨bootstrapCount, 0⟩ ∧
      (leaving.method ⟨bootstrapCount, 0⟩).flags.isPackagePrivate = true ∧
      (leaving.method ⟨bootstrapCount, 0⟩).flags.isStatic = false ∧
      leaving.isSubclass (bootstrapCount + 1) bootstrapCount = true ∧
      ¬ ∀ s, leaving.selectMethod? (bootstrapCount + 1) ⟨bootstrapCount, 0⟩ = some s →
        s.cls = bootstrapCount ∨ leaving.samePackage s.cls bootstrapCount = true := by
  refine ⟨rfl, rfl, rfl, rfl, fun hall => ?_⟩
  have hselected : leaving.selectMethod? (bootstrapCount + 1) ⟨bootstrapCount, 0⟩ =
      some ⟨bootstrapCount + 1, 0⟩ := rfl
  exact absurd (hall _ hselected) (by decide)

end ClassGraph

/-- The class in the package again selects its own method, in front of the one outside: the selected
method is in the package. -/
theorem Program.package_private_dispatch_of_leaving :
    ∃ s, ClassGraph.leaving.selectMethod? (bootstrapCount + 2) ⟨bootstrapCount, 0⟩ = some s ∧
      bootstrapCount ∈ ClassGraph.leaving.superclasses s.cls ∧
      ClassGraph.leaving.samePackage s.cls bootstrapCount = true := by
  have hdispatch := package_private_dispatch ⟨.leaving, fun _ _ => pure .void⟩
    (m := ⟨bootstrapCount, 0⟩) rfl rfl rfl
  obtain ⟨s, hs, -, habove, hinside⟩ := hdispatch.2.1 (bootstrapCount + 2) (by decide)
  refine ⟨s, hs, habove, hinside.2 fun k hk hdeclares houtside => ?_⟩
  have hchain : ClassGraph.leaving.superclasses (bootstrapCount + 2) =
      [bootstrapCount + 2, bootstrapCount + 1, bootstrapCount, ClassId.object] := rfl
  simp only [hchain, List.mem_cons, List.not_mem_nil, or_false] at hk
  rcases hk with rfl | rfl | rfl | rfl
  · exact absurd houtside (by decide)
  · exact ⟨bootstrapCount + 2, by decide, by decide, by decide, by decide, by decide⟩
  · exact absurd houtside (by decide)
  · exact absurd rfl hdeclares

end HandleCalculus
