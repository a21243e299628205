import HandleCalculus.Proofs.Dispatch

/-!
# Default methods

A class that has no method of its own under a name and descriptor takes a default: a method with a
body from one of its superinterfaces. It takes the first one that the search meets, not the most
specific one. An interface may be met before an interface that extends it and overrides the method,
and then the overriding method is bypassed (`bypassed_of_relisted`).

`default_met_first` says when this can happen. Whatever is bypassed is met later, in the order in
which interfaces are listed. And the search goes up from subinterfaces, so that it meets an
interface ahead of one that extends it only in two ways: a class lists the interface itself, or
another interface that extends it directly leaves the method alone.
-/

set_option autoImplicit false

namespace HandleCalculus.ClassGraph

/-- Whether a search among the superinterfaces of a class meets `i` before it meets `j`. -/
def MetBefore (G : ClassGraph) (d i j : ClassId) : Prop :=
  (G.superinterfaces d).idxOf i < (G.superinterfaces d).idxOf j

variable {G : ClassGraph} {d : ClassId} {name : String} {desc : Descriptor} {s : MethodRef}

/-! ## The order of the search -/

/-- The first class that a search takes comes before every other class that it would take. -/
theorem idxOf_lt_of_findSome? {β : Type} {l : List ClassId} {f : ClassId → Option β} {b : β}
    (h : l.findSome? f = some b) : ∃ i ∈ l, f i = some b ∧
      ∀ j, j ≠ i → f j ≠ none → l.idxOf i < l.idxOf j := by
  obtain ⟨before, i, after, rfl, hi, hbefore⟩ := List.findSome?_eq_some_iff.1 h
  refine ⟨i, by simp, hi, fun j hne hj => ?_⟩
  have hiBefore : i ∉ before := by
    intro hmem
    rw [hbefore i hmem] at hi
    cases hi
  have hjBefore : j ∉ before := fun hmem => hj (hbefore j hmem)
  have hj : (i :: after).idxOf j = after.idxOf j + 1 := by
    rw [List.idxOf_cons, beq_false_of_ne hne.symm, cond_false]
  rw [List.idxOf_append, List.idxOf_append, if_neg hiBefore, if_neg hjBefore,
    List.idxOf_cons_self, hj]
  omega

/-- The interface of the default taken is listed by the class or a superclass itself, or by a
superinterface that declares no default. -/
theorem listed_of_default (hG : G.InterfacesRooted)
    (h : (G.superinterfaces d).findSome? (G.defaultHere? · name desc) = some s) :
    (∃ k ∈ G.superclasses d, s.cls ∈ G.interfaces k) ∨
      ∃ k ∈ G.superinterfaces d, s.cls ∈ G.interfaces k ∧ G.defaultHere? k name desc = none := by
  induction d using Nat.strongRecOn with
  | ind d ih =>
    rw [findSome?_superinterfaces, Option.or_eq_some_iff] at h
    rcases h with hinterface | ⟨-, hparent⟩
    · obtain ⟨i, hi, hs⟩ := List.exists_of_findSome?_eq_some hinterface
      rcases Option.or_eq_some_iff.1 hs with hhere | ⟨hnone, habove⟩
      · -- the interface is one that the class lists
        obtain rfl := cls_of_instanceHere? (defaultHere?_eq_some_iff.1 hhere).1
        exact Or.inl ⟨d, (G.mem_superclasses_iff).2 (Or.inl rfl), hi⟩
      · rcases ih i (G.lt_of_mem_interfaces hi) habove with ⟨k, hk, hlists⟩ | ⟨k, hk, hlists⟩
        · -- above an interface only the interface itself lists any
          rcases (G.mem_superclasses_iff).1 hk with rfl | ⟨p, hp, hkp⟩
          · exact Or.inr
              ⟨k, (G.mem_superinterfaces_iff).2 (Or.inl ⟨k, hi, Or.inl rfl⟩), hlists, hnone⟩
          · obtain rfl : p = ClassId.object := Option.some.inj (hp.symm.trans (hG d i hi))
            rw [superclasses_object, List.mem_singleton] at hkp
            subst hkp
            exact absurd (G.lt_of_mem_interfaces hlists) (Nat.not_lt_zero _)
        · exact Or.inr
            ⟨k, (G.mem_superinterfaces_iff).2 (Or.inl ⟨i, hi, Or.inr hk⟩), hlists⟩
    · obtain ⟨p, hp, hs⟩ := Option.bind_eq_some_iff.1 hparent
      rcases ih p (G.lt_of_parent? hp) hs with ⟨k, hk, hlists⟩ | ⟨k, hk, hlists⟩
      · exact Or.inl ⟨k, (G.mem_superclasses_iff).2 (Or.inr ⟨p, hp, hk⟩), hlists⟩
      · exact Or.inr ⟨k, (G.mem_superinterfaces_iff).2 (Or.inr ⟨p, hp, hk⟩), hlists⟩

/-! ## The default taken -/

/-- The default that is selected is the first that the search among superinterfaces takes. -/
theorem default_of_selectMethod? {m : MethodRef}
    (hchain : ∀ k ∈ G.superclasses d,
      G.instanceHere? k (G.method m).name (G.method m).desc = none)
    (hprivate : (G.method s).flags.isPrivate = false) (h : G.selectMethod? d m = some s) :
    (G.superinterfaces d).findSome? (G.defaultHere? · (G.method m).name (G.method m).desc) =
      some s := by
  have hm : (G.method m).flags.isPrivate = false := by
    cases hmPrivate : (G.method m).flags.isPrivate with
    | false => rfl
    | true =>
      -- a private method is selected as it is, but is no default
      obtain rfl : m = s := by simpa [selectMethod?, hmPrivate] using h
      rw [hmPrivate] at hprivate
      cases hprivate
  rwa [selectMethod?_eq hm, List.findSome?_eq_none_iff.2 hchain, Option.none_or] at h

/-- The same for the default that is found. -/
theorem default_of_findMethod?
    (hchain : ∀ k ∈ G.superclasses d, G.instanceHere? k name desc = none)
    (hstatic : (G.method s).flags.isStatic = false)
    (hprivate : (G.method s).flags.isPrivate = false) (hbody : (G.method s).hasBody = true)
    (h : G.findMethod? d name desc = some s) :
    (G.superinterfaces d).findSome? (G.defaultHere? · name desc) = some s := by
  rw [findMethod?_eq] at h
  rcases Option.or_eq_some_iff.1 h with hclass | ⟨-, hinterface⟩
  · obtain ⟨k, hk, hs⟩ := List.exists_of_findSome?_eq_some hclass
    have hnone := hchain k hk
    rw [instanceHere?_eq_some_iff.2 ⟨hs, hstatic, hprivate⟩] at hnone
    cases hnone
  · exact findSome?_defaultHere?_of_hasBody hbody hinterface

/-- **The default met first wins.** Take a class without a declaration of its own or inherited from a
superclass, and the default that a call selects or a look-up finds. Every other interface above the
class that declares a default, and so every one that overrides the one taken, is met later. Where
interfaces extend the root class alone, the interface taken is listed by the class or a superclass
itself, or by a superinterface that declares no default. What a class declares is
its first method of the kind, by its number of sixteen bits (`instanceHere?`). -/
theorem default_met_first
    (hchain : ∀ k ∈ G.superclasses d, G.instanceHere? k name desc = none)
    (hstatic : (G.method s).flags.isStatic = false)
    (hprivate : (G.method s).flags.isPrivate = false) (hbody : (G.method s).hasBody = true)
    (h : (∃ m, (G.method m).name = name ∧ (G.method m).desc = desc ∧
        G.selectMethod? d m = some s) ∨ G.findMethod? d name desc = some s) :
    s.cls ∈ G.superinterfaces d ∧
      (∀ j, j ≠ s.cls → G.defaultHere? j name desc ≠ none → G.MetBefore d s.cls j) ∧
      (G.InterfacesRooted → (∃ k ∈ G.superclasses d, s.cls ∈ G.interfaces k) ∨
        ∃ k ∈ G.superinterfaces d, s.cls ∈ G.interfaces k ∧
          G.defaultHere? k name desc = none) := by
  have hdefault :
      (G.superinterfaces d).findSome? (G.defaultHere? · name desc) = some s := by
    rcases h with ⟨m, rfl, rfl, hselect⟩ | hfind
    · exact default_of_selectMethod? hchain hprivate hselect
    · exact default_of_findMethod? hchain hstatic hprivate hbody hfind
  obtain ⟨i, hi, hs, hfirst⟩ := idxOf_lt_of_findSome? hdefault
  obtain rfl := cls_of_instanceHere? (defaultHere?_eq_some_iff.1 hs).1
  exact ⟨hi, hfirst, fun hG => listed_of_default hG hdefault⟩

/-! ## A default bypassed -/

/-- An interface `p/I` with a default method `m`, an interface `p/J` that extends it and overrides
`m`, and a class `p/D` that lists both, `p/I` first. -/
def relisted : ClassGraph where
  defined := #[
    ⟨"p/I", ⟨0x0601⟩, .bootstrap, some ClassId.object, [],
      [.withBody "m" ⟨[], .prim .int⟩ ⟨0x0001⟩], []⟩,
    ⟨"p/J", ⟨0x0601⟩, .bootstrap, some ClassId.object, [bootstrapCount],
      [.withBody "m" ⟨[], .prim .int⟩ ⟨0x0001⟩], []⟩,
    ⟨"p/D", ⟨0x0001⟩, .bootstrap, some ClassId.object, [bootstrapCount, bootstrapCount + 1], [], []⟩]
  older := ClassGraph.older_of_lt (by decide)

/-- The class lists `p/I` first, and takes its default although `p/J` overrides it. -/
theorem bypassed_of_relisted :
    (∀ k ∈ relisted.superclasses (bootstrapCount + 2),
      ¬ relisted.DeclaresInstance k "m" ⟨[], .prim .int⟩) ∧
      relisted.selectMethod? (bootstrapCount + 2) ⟨bootstrapCount, 0⟩ =
        some ⟨bootstrapCount, 0⟩ ∧
      relisted.findMethod? (bootstrapCount + 2) "m" ⟨[], .prim .int⟩ =
        some ⟨bootstrapCount, 0⟩ ∧
      bootstrapCount + 1 ∈ relisted.superinterfaces (bootstrapCount + 2) ∧
      relisted.isSubclass (bootstrapCount + 1) bootstrapCount = true ∧
      relisted.defaultHere? (bootstrapCount + 1) "m" ⟨[], .prim .int⟩ =
        some ⟨bootstrapCount + 1, 0⟩ := by
  refine ⟨?_, rfl, rfl, by decide, rfl, rfl⟩
  intro k hk
  have hchain : relisted.superclasses (bootstrapCount + 2) =
      [bootstrapCount + 2, ClassId.object] := rfl
  have hk : k = bootstrapCount + 2 ∨ k = ClassId.object := by simpa [hchain] using hk
  rcases hk with rfl | rfl <;> rintro ⟨d, hd, -⟩ <;> cases hd

/-- The interface taken is met before the one that overrides it, and the class lists it itself. -/
theorem default_met_first_of_relisted :
    relisted.MetBefore (bootstrapCount + 2) bootstrapCount (bootstrapCount + 1) ∧
      relisted.InterfacesRooted ∧
        ((∃ k ∈ relisted.superclasses (bootstrapCount + 2), bootstrapCount ∈ relisted.interfaces k) ∨
          ∃ k ∈ relisted.superinterfaces (bootstrapCount + 2), bootstrapCount ∈ relisted.interfaces k ∧
            relisted.defaultHere? k "m" ⟨[], .prim .int⟩ = none) := by
  have hchain : ∀ k ∈ relisted.superclasses (bootstrapCount + 2),
      relisted.instanceHere? k "m" ⟨[], .prim .int⟩ = none := by decide
  have hrooted : relisted.InterfacesRooted :=
    forall_decl (p := fun d => ∀ i ∈ d.interfaces, relisted.parent? i = some ClassId.object)
      (by decide) (by decide) (by decide)
  obtain ⟨-, hfirst, hlisted⟩ :=
    default_met_first (s := ⟨bootstrapCount, 0⟩) hchain rfl rfl rfl (Or.inr rfl)
  exact ⟨hfirst (bootstrapCount + 1) (by decide) (by decide), hrooted, hlisted hrooted⟩

end HandleCalculus.ClassGraph
