import HandleCalculus.ClassName
import HandleCalculus.Proofs.DerivedLookups
import Mathlib.Data.List.DropRight

/-!
# Nest-mates by name

Which classes are nest-mates is read off their names: what comes before the first dollar sign of the
simple name is taken for the name of the class around them. For most names that is a top level name which
encloses both. But a simple name may be empty or start with the dollar sign. Then nothing comes before it,
and all such classes of a package and loader are nest-mates of each other, though no name encloses them
both. Private access crosses between them as between any nest-mates
(`Lookup.private_access_by_name`).
-/

set_option autoImplicit false

namespace HandleCalculus

namespace ClassName

variable {c : Char} {l top cs : List Char} {a b name : String}

/-! ## The name before the first dollar sign -/

/-- What comes before the first `c` is all there is, or is followed by it. -/
theorem takeWhile_ne_eq_iff :
    l.takeWhile (· ≠ c) = top ↔ c ∉ top ∧ (l = top ∨ ∃ rest, l = top ++ c :: rest) := by
  induction l generalizing top with
  | nil => cases top <;> simp
  | cons x xs ih =>
    by_cases hx : x = c
    · subst hx
      cases top <;> simp +contextual [eq_comm]
    · cases top with
      | nil => simp [hx]
      | cons t ts =>
        have htail := @ih ts
        simp only [ne_eq, decide_not] at htail
        simp [hx, htail]
        grind

/-- What comes before the first dollar sign of the simple name. -/
def topChars (cs : List Char) : List Char := (simpleChars cs).takeWhile (· ≠ '$')

theorem slash_notMem_topChars (cs : List Char) : '/' ∉ topChars cs := fun h =>
  slash_notMem_simpleChars cs ((List.takeWhile_prefix _).subset h)

/-- Whether `top` is a top level name that a class has or is nested in: it is not empty, and the simple
name is `top` or goes on with a dollar sign. -/
structure Encloses (top : List Char) (name : String) : Prop where
  ne_nil : top ≠ []
  dollar : '$' ∉ top
  starts : simpleChars name.toList = top ∨ ∃ rest, simpleChars name.toList = top ++ '$' :: rest

/-- Whether the simple name of a class is empty or starts with a dollar sign. -/
def Nameless (name : String) : Prop :=
  simpleChars name.toList = [] ∨ ∃ rest, simpleChars name.toList = '$' :: rest

theorem encloses_iff : Encloses top name ↔ top ≠ [] ∧ topChars name.toList = top := by
  rw [topChars, takeWhile_ne_eq_iff]
  exact ⟨fun h => ⟨h.ne_nil, h.dollar, h.starts⟩, fun h => ⟨h.1, h.2.1, h.2.2⟩⟩

theorem nameless_iff : Nameless name ↔ topChars name.toList = [] := by
  rw [topChars, takeWhile_ne_eq_iff]
  simp [Nameless]

/-- A class has one top level name around it, or is nameless. -/
theorem topChars_eq_iff : topChars a.toList = topChars b.toList ↔
    (∃ top, Encloses top a ∧ Encloses top b) ∨ Nameless a ∧ Nameless b := by
  simp only [encloses_iff, nameless_iff]
  constructor
  · intro h
    by_cases hb : topChars b.toList = []
    · exact .inr ⟨h.trans hb, hb⟩
    · exact .inl ⟨topChars b.toList, ⟨hb, h⟩, hb, rfl⟩
  · rintro (⟨top, ⟨-, ha⟩, -, hb⟩ | ⟨ha, hb⟩)
    · exact ha.trans hb.symm
    · exact ha.trans hb.symm

/-! ## The name of the outermost class -/

/-- A qualifier stays one in front of another simple name. -/
theorem qualifierChars_append (h : '/' ∉ l) :
    qualifierChars (qualifierChars cs ++ l) = qualifierChars cs := by
  have hall : ∀ x ∈ l.reverse, decide (x ≠ '/') = true := by
    intro x hx
    rw [decide_eq_true_iff]
    rintro rfl
    exact h (List.mem_reverse.1 hx)
  rw [qualifierChars, List.reverse_append, List.dropWhile_append_of_pos hall, qualifierChars,
    List.reverse_reverse, List.dropWhile_idempotent]

theorem outermost_eq (name : String) :
    outermost name = String.ofList (qualifierChars name.toList ++ topChars name.toList) := rfl

/-- Outermost names agree if the qualifiers do and what comes before the first dollar sign. -/
theorem outermost_eq_iff : outermost a = outermost b ↔
    qualifierChars a.toList = qualifierChars b.toList ∧ topChars a.toList = topChars b.toList := by
  rw [outermost_eq, outermost_eq, String.ofList_inj]
  constructor
  · intro h
    have hqualifier : qualifierChars a.toList = qualifierChars b.toList := by
      rw [← qualifierChars_append (slash_notMem_topChars a.toList), h,
        qualifierChars_append (slash_notMem_topChars b.toList)]
    rw [hqualifier] at h
    exact ⟨hqualifier, List.append_cancel_left h⟩
  · rintro ⟨hqualifier, htop⟩
    rw [hqualifier, htop]

/-- The qualifier determines the package. The converse fails for no qualifier and a lone slash alone. -/
theorem package_eq (h : qualifierChars a.toList = qualifierChars b.toList) : package a = package b := by
  rw [package, package, h]

end ClassName

namespace ClassGraph

open ClassName

variable {G : ClassGraph} {a b ref owner user : ClassId} {mods : Flags} {modes : Modes}

/-! ## Nests -/

/-- Whether the names of two classes of one loader put them into one package, and there either into one
top level class or into none. -/
structure NamedTogether (G : ClassGraph) (a b : ClassId) : Prop where
  loader : G.loader a = G.loader b
  qualifier : qualifierChars (G.name a).toList = qualifierChars (G.name b).toList
  enclosed : (∃ top, Encloses top (G.name a) ∧ Encloses top (G.name b)) ∨
    Nameless (G.name a) ∧ Nameless (G.name b)

theorem sameNest_iff_named : G.sameNest a b = true ↔ a = b ∨ G.NamedTogether a b := by
  rw [G.sameNest_iff]
  refine or_congr_right ?_
  simp only [samePackage, Bool.and_eq_true, beq_iff_eq]
  constructor
  · rintro ⟨⟨hloader, -⟩, houtermost⟩
    obtain ⟨hqualifier, htop⟩ := outermost_eq_iff.1 houtermost
    exact ⟨hloader, hqualifier, topChars_eq_iff.1 htop⟩
  · rintro ⟨hloader, hqualifier, henclosed⟩
    exact ⟨⟨hloader, package_eq hqualifier⟩,
      outermost_eq_iff.2 ⟨hqualifier, topChars_eq_iff.2 henclosed⟩⟩

/-- A private member is reached from its own nest only, whatever other flags it has. -/
theorem Reaches.sameNest (h : G.Reaches ref owner mods user modes) (hprivate : mods.isPrivate = true) :
    G.sameNest owner user = true := by
  have hbit : mods.modifiers &&& Flags.privateBit ≠ 0 := by
    rwa [Flags.isPrivate, mods.has_eq_modifiers (by decide), bne_iff_ne] at hprivate
  have hne : ∀ b : UInt16, b &&& Flags.privateBit = 0 → mods.modifiers ≠ b := by
    rintro b hb rfl
    exact hbit hb
  rcases h with ⟨howner, -⟩ | hm | ⟨hm, -⟩ | ⟨-, -, hnest⟩ | ⟨hm, -⟩
  · exact G.sameNest_iff.2 (.inl howner)
  · exact absurd hm (hne _ (by decide))
  · exact absurd hm (hne _ (by decide))
  · exact hnest
  · exact absurd hm (hne _ (by decide))

end ClassGraph

namespace Lookup

/-- Judging a constructor does not make it less private. -/
theorem isPrivate_judgedFlags (kind : RefKind) (mods : Flags) :
    (judgedFlags kind mods).isPrivate = mods.isPrivate := by
  have hmask : ~~~Flags.protectedBit &&& Flags.privateBit = Flags.privateBit := by decide
  unfold judgedFlags
  split
  · rw [Flags.isPrivate, Flags.has, Flags.without, UInt16.and_assoc, hmask]
    rfl
  · rfl

/-- **Private access stays within a nest, and a nest is what the names make it.** Two classes are
nest-mates exactly if they have one loader and one package and either a top level name encloses both or
neither has a name in front of the first dollar sign; so nest-mates are in one package, and one that is
not nameless shares a top level name with the others. A member that is private, whatever its other flags,
can be used from the nest of its class only, and a lookup that is not trusted finds no others. -/
theorem private_access_by_name (C : Classes) :
    (∀ a b, C.graph.sameNest a b = true ↔ a = b ∨ C.graph.NamedTogether a b) ∧
    (∀ a b, C.graph.NamedTogether a b → C.graph.samePackage a b = true) ∧
    (∀ a b, C.graph.NamedTogether a b → ¬ ClassName.Nameless (C.graph.name a) →
      ∃ top, ClassName.Encloses top (C.graph.name a) ∧ ClassName.Encloses top (C.graph.name b)) ∧
    (∀ ref owner mods user modes, mods.isPrivate = true →
      C.graph.memberAccessible ref owner mods user modes = true →
      owner = user ∨ C.graph.NamedTogether owner user) ∧
    ∀ (l : Lookup) (op : MemberOp) (m m' : Machine) (h : Handle), l.trusted = false →
      l.perform C op m = .ok h m' →
      ∃ u, op.use? C.graph = some u ∧ ((u.flags C.graph).isPrivate = true →
        u.owner = l.cls ∨ C.graph.NamedTogether u.owner l.cls) := by
  have haccess : ∀ ref owner (mods : Flags) user modes, mods.isPrivate = true →
      C.graph.memberAccessible ref owner mods user modes = true →
      owner = user ∨ C.graph.NamedTogether owner user := by
    intro ref owner mods user modes hprivate h
    obtain ⟨-, hreaches⟩ := ClassGraph.memberAccessible_iff.1 h
    exact ClassGraph.sameNest_iff_named.1 (hreaches.sameNest hprivate)
  refine ⟨fun a b => ClassGraph.sameNest_iff_named, fun a b h => ?_, fun a b h hname => ?_, haccess,
    fun l op m m' h hl hperform => ?_⟩
  · exact C.graph.samePackage_of_sameNest (ClassGraph.sameNest_iff_named.2 (.inr h))
  · rcases h.enclosed with henclosed | ⟨hnameless, -⟩
    · exact henclosed
    · exact absurd hnameless hname
  · obtain ⟨u, -, -, hu, -, hgranted, -⟩ := exists_use_of_perform hperform
    refine ⟨u, hu, fun hprivate => ?_⟩
    rcases hgranted with htrusted | hpermits
    · rw [hl] at htrusted
      cases htrusted
    · exact haccess _ _ _ _ _ ((isPrivate_judgedFlags _ _).trans hprivate) hpermits.member

end Lookup

/-- The class `p/$A` with a private static method `f` that takes nothing and answers an `int`, and the
class `p/$B`. -/
def ClassGraph.dollars : ClassGraph where
  defined := #[
    ⟨"p/$A", ⟨0x0001⟩, .bootstrap, some ClassId.object, [],
      [.withBody "f" ⟨[], .prim .int⟩ ⟨0x000a⟩], []⟩,
    ⟨"p/$B", ⟨0x0001⟩, .bootstrap, some ClassId.object, [], [], []⟩]
  older := ClassGraph.older_of_lt (by decide)

/-- The lookup of `p/$B` finds the private method of `p/$A`: the two classes are nest-mates, and there is
no top level name that encloses both. -/
theorem Lookup.private_access_by_name_of_dollars :
    (∃ h m', (full (bootstrapCount + 1)).perform ⟨.dollars, .initial⟩ .nestMatesF (.initial true) =
        .ok h m') ∧
      ClassGraph.dollars.NamedTogether bootstrapCount (bootstrapCount + 1) ∧
      ¬ ∃ top, ClassName.Encloses top (ClassGraph.dollars.name bootstrapCount) ∧
        ClassName.Encloses top (ClassGraph.dollars.name (bootstrapCount + 1)) := by
  obtain ⟨h, m', hperform⟩ : ∃ h m', (full (bootstrapCount + 1)).perform ⟨.dollars, .initial⟩ .nestMatesF
      (.initial true) = .ok h m' := ⟨_, _, rfl⟩
  have huse : MemberOp.nestMatesF.use? .dollars =
      some ⟨.invokeStatic, bootstrapCount, none, .method ⟨bootstrapCount, 0⟩⟩ := rfl
  obtain ⟨-, -, -, -, hfinds⟩ := private_access_by_name ⟨.dollars, .initial⟩
  obtain ⟨u, hu, htogether⟩ := hfinds _ _ _ _ _ rfl hperform
  obtain rfl := Option.some.inj (huse.symm.trans hu)
  refine ⟨⟨h, m', hperform⟩, (htogether (by decide)).resolve_left (by decide), ?_⟩
  rintro ⟨top, hA, -⟩
  have hnone : ClassName.topChars (ClassGraph.dollars.name bootstrapCount).toList = [] := by decide
  obtain ⟨hne, htop⟩ := ClassName.encloses_iff.1 hA
  exact hne (htop.symm.trans hnone)

end HandleCalculus
