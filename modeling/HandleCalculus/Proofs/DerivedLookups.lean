import HandleCalculus.Proofs.LookupSteps

/-!
# Derived lookups have no more rights

`Lookup.inClass` moves a lookup to another class. The modes only shrink, but the access rules compare
members with the lookup class as well, and that class changes, so that the new lookup can do no more
is not a matter of the modes alone. What makes it true is that each mode that is left ties the two
classes to each other: whoever still reaches a package is of the package it came from, and whoever
still reaches private members is of the nest it came from (`Lookup.Below`).
-/

set_option autoImplicit false

namespace HandleCalculus

/-! ## Modes -/

namespace Modes

variable {m n k : Modes} {mask b : UInt8}

/-- No bit is set in the first that is not set in the second. -/
def Within (m n : Modes) : Prop := m.bits &&& n.bits = m.bits

theorem Within.refl (m : Modes) : m.Within m := UInt8.and_self

theorem Within.trans (h : m.Within n) (h' : n.Within k) : m.Within k := by
  have h : m.bits &&& n.bits = m.bits := h
  have h' : n.bits &&& k.bits = n.bits := h'
  show m.bits &&& k.bits = m.bits
  calc m.bits &&& k.bits
      = m.bits &&& n.bits &&& k.bits := by rw [h]
    _ = m.bits &&& (n.bits &&& k.bits) := UInt8.and_assoc ..
    _ = m.bits &&& n.bits := by rw [h']
    _ = m.bits := h

theorem within_none (m : Modes) : none.Within m := UInt8.zero_and

theorem within_and (m : Modes) (b : UInt8) : (⟨m.bits &&& b⟩ : Modes).Within m := by
  show m.bits &&& b &&& m.bits = m.bits &&& b
  calc m.bits &&& b &&& m.bits
      = m.bits &&& (m.bits &&& b) := UInt8.and_comm ..
    _ = m.bits &&& m.bits &&& b := (UInt8.and_assoc ..).symm
    _ = m.bits &&& b := by rw [UInt8.and_self]

theorem within_without (m : Modes) (b : UInt8) : (m.without b).Within m := m.within_and (~~~b)

theorem Within.has (h : m.Within n) (hm : m.has mask = true) : n.has mask = true := by
  have hn : m.bits &&& n.bits = m.bits := h
  simp only [Modes.has, bne_iff_ne, ne_eq] at hm ⊢
  intro hzero
  apply hm
  calc m.bits &&& mask
      = m.bits &&& n.bits &&& mask := by rw [hn]
    _ = m.bits &&& (n.bits &&& mask) := UInt8.and_assoc ..
    _ = 0 := by rw [hzero, UInt8.and_zero]

theorem Within.isEmpty (h : m.Within n) (hm : m.isEmpty = false) : n.isEmpty = false := by
  have hn : m.bits &&& n.bits = m.bits := h
  simp only [Modes.isEmpty, beq_eq_false_iff_ne, ne_eq] at hm ⊢
  intro hzero
  apply hm
  rw [← hn, hzero, UInt8.and_zero]

/-- Bits that are not cleared stay. -/
theorem has_without (hmask : ~~~b &&& mask = mask) : (m.without b).has mask = m.has mask := by
  rw [has, has, without, UInt8.and_assoc, hmask]

/-- Bits that are cleared are gone. -/
theorem not_has_without (hmask : ~~~b &&& mask = 0) : ¬ (m.without b).has mask = true := by
  rw [has, without, UInt8.and_assoc, hmask, UInt8.and_zero]
  decide

theorem not_has_none : ¬ none.has mask = true := by
  simp [has, none]

end Modes

namespace ClassGraph

variable (G : ClassGraph) {a b c : ClassId}

/-! ## Packages and nests -/

theorem samePackage_refl (a : ClassId) : G.samePackage a a = true := by
  simp [samePackage]

theorem samePackage_symm (h : G.samePackage a b = true) : G.samePackage b a = true := by
  simp only [samePackage, Bool.and_eq_true, beq_iff_eq] at h ⊢
  exact ⟨h.1.symm, h.2.symm⟩

theorem samePackage_trans (h : G.samePackage a b = true) (h' : G.samePackage b c = true) :
    G.samePackage a c = true := by
  simp only [samePackage, Bool.and_eq_true, beq_iff_eq] at h h' ⊢
  exact ⟨h.1.trans h'.1, h.2.trans h'.2⟩

theorem sameNest_iff : G.sameNest a b = true ↔
    a = b ∨ G.samePackage a b = true ∧ G.outermost a = G.outermost b := by
  simp [sameNest]

theorem samePackage_of_sameNest (h : G.sameNest a b = true) : G.samePackage a b = true := by
  rcases G.sameNest_iff.1 h with rfl | ⟨h, -⟩
  · exact G.samePackage_refl a
  · exact h

theorem sameNest_symm (h : G.sameNest a b = true) : G.sameNest b a = true := by
  rcases G.sameNest_iff.1 h with rfl | ⟨hp, ho⟩
  · exact h
  · exact G.sameNest_iff.2 (.inr ⟨G.samePackage_symm hp, ho.symm⟩)

theorem sameNest_trans (h : G.sameNest a b = true) (h' : G.sameNest b c = true) :
    G.sameNest a c = true := by
  rcases G.sameNest_iff.1 h with rfl | ⟨hp, ho⟩
  · exact h'
  rcases G.sameNest_iff.1 h' with rfl | ⟨hp', ho'⟩
  · exact h
  · exact G.sameNest_iff.2 (.inr ⟨G.samePackage_trans hp hp', ho.trans ho'⟩)

end ClassGraph

namespace Lookup

variable {G : ClassGraph} {l d : Lookup}

/-! ## The chain -/

/-- The lookup that is left after moving from class to class. -/
def inClasses (G : ClassGraph) (l : Lookup) (cs : List ClassId) : Lookup :=
  cs.foldl (inClass G) l

/-- What a move to another class leaves of the modes. -/
structure Moved (G : ClassGraph) (l : Lookup) (c : ClassId) (d : Lookup) : Prop where
  cls : d.cls = c
  untrusted : d.trusted = false
  within : d.modes.Within l.modes
  package : d.modes.has Modes.packageBit = true → G.samePackage l.cls c = true
  nest : d.modes.has Modes.privateBit = true → G.sameNest l.cls c = true ∧
    (l.modes.has Modes.packageBit = true → d.modes.has Modes.packageBit = true)
  inherits : d.modes.has Modes.protectedBit = false

theorem moved_inClass (hl : l.trusted = false) {c : ClassId} (hc : c ≠ l.cls) :
    Moved G l c (l.inClass G c) := by
  unfold inClass
  rw [if_neg (by simp [hl]), if_neg hc]
  extract_lets m₁ m₂ m₃ m₄ m₅
  have h₂ : m₂.Within l.modes := (m₁.within_and _).trans (l.modes.within_without _)
  have hkept : m₂.has Modes.packageBit = l.modes.has Modes.packageBit := by
    rw [Modes.has, Modes.has, UInt8.and_assoc]
    exact Modes.has_without (by decide)
  have hcleared : ¬ m₂.has Modes.protectedBit = true := by
    rw [Modes.has, UInt8.and_assoc]
    exact Modes.not_has_without (by decide)
  have h₃ : m₃.Within m₂ ∧ (m₃.has Modes.packageBit = true → G.samePackage l.cls c = true) ∧
      (m₃.has Modes.privateBit = true → m₂.has Modes.packageBit = true →
        m₃.has Modes.packageBit = true) := by
    simp only [m₃]
    split
    · exact ⟨m₂.within_without _, fun h => absurd h (Modes.not_has_without (by decide)),
        fun h => absurd h (Modes.not_has_without (by decide))⟩
    · next hp => exact ⟨.refl _, fun h => by simpa [h] using hp, fun _ h => h⟩
  have h₄ : m₄.Within m₃ ∧ m₄.has Modes.packageBit = m₃.has Modes.packageBit ∧
      (m₄.has Modes.privateBit = true → G.sameNest l.cls c = true) := by
    simp only [m₄]
    split
    · exact ⟨m₃.within_without _, Modes.has_without (by decide),
        fun h => absurd h (Modes.not_has_without (by decide))⟩
    · next hn => exact ⟨.refl _, rfl, fun h => by simpa [h] using hn⟩
  have h₅ : m₅.Within m₄ ∧ ∀ mask, m₅.has mask = true → m₅ = m₄ := by
    simp only [m₅]
    split
    · exact ⟨m₄.within_none, fun mask h => absurd h Modes.not_has_none⟩
    · exact ⟨.refl _, fun _ _ => rfl⟩
  have hwithin : m₅.Within m₂ := h₅.1.trans (h₄.1.trans h₃.1)
  refine ⟨rfl, rfl, hwithin.trans h₂, ?_, ?_, ?_⟩
  · intro h
    exact h₃.2.1 (h₄.1.has (h₅.1.has h))
  · intro h
    have heq : m₅ = m₄ := h₅.2 _ h
    refine ⟨h₄.2.2 (h₅.1.has h), fun hpackage => ?_⟩
    show m₅.has _ = true
    rw [heq, h₄.2.1]
    exact h₃.2.2 (h₄.1.has (h₅.1.has h)) (hkept.trans hpackage)
  · show m₅.has _ = false
    rw [Bool.eq_false_iff]
    intro h
    exact hcleared (hwithin.has h)

/-- The second lookup may do no more than the first, and each mode that it has ties its class to the
class of the first. -/
structure Below (G : ClassGraph) (l d : Lookup) : Prop where
  untrusted : d.trusted = false
  within : d.modes.Within l.modes
  package : d.modes.has Modes.packageBit = true → G.samePackage l.cls d.cls = true
  nest : d.modes.has Modes.privateBit = true →
    G.sameNest l.cls d.cls = true ∧ d.modes.has Modes.packageBit = true
  same : d.modes.has Modes.protectedBit = true → d = l

/-- Whether the lookup is one that chains start from: of a class on its own behalf, or public. -/
def IsOriginal (l : Lookup) : Prop := l = publicLookup ∨ ∃ c, l = full c

theorem IsOriginal.below (hl : l.IsOriginal) : Below G l l := by
  have hmodes : l.trusted = false ∧
      (l.modes.has Modes.privateBit = true → l.modes.has Modes.packageBit = true) := by
    rcases hl with rfl | ⟨c, rfl⟩
    · exact ⟨rfl, by decide⟩
    · exact ⟨rfl, fun _ => show Modes.all.has Modes.packageBit = true by decide⟩
  exact ⟨hmodes.1, .refl _, fun _ => G.samePackage_refl _,
    fun h => ⟨G.sameNest_iff.2 (.inl rfl), hmodes.2 h⟩, fun _ => rfl⟩

/-- One move keeps a lookup below. -/
theorem Below.inClass (h : Below G l d) (c : ClassId) : Below G l (d.inClass G c) := by
  by_cases hc : c = d.cls
  · have hstay : d.inClass G c = d := by
      rw [Lookup.inClass, if_neg (by simp [h.untrusted]), if_pos hc]
    rw [hstay]
    exact h
  · have hmoved := moved_inClass (G := G) h.untrusted hc
    refine ⟨hmoved.untrusted, hmoved.within.trans h.within, ?_, ?_, ?_⟩
    · intro hp
      rw [hmoved.cls]
      exact G.samePackage_trans (h.package (hmoved.within.has hp)) (hmoved.package hp)
    · intro hn
      obtain ⟨hnest, hpackage⟩ := h.nest (hmoved.within.has hn)
      obtain ⟨hnest', hpackage'⟩ := hmoved.nest hn
      rw [hmoved.cls]
      exact ⟨G.sameNest_trans hnest hnest', hpackage' hpackage⟩
    · intro hi
      rw [hmoved.inherits] at hi
      cases hi

theorem Below.inClasses (h : Below G l d) (cs : List ClassId) : Below G l (d.inClasses G cs) := by
  induction cs generalizing d with
  | nil => exact h
  | cons c cs ih => exact ih (h.inClass c)

end Lookup

/-! ## The access rules -/

namespace Modes

theorem has_or (m : Modes) (a b : UInt8) :
    m.has (a ||| b) = true ↔ m.has a = true ∨ m.has b = true := by
  have hdistrib : m.bits &&& (a ||| b) = m.bits &&& a ||| m.bits &&& b :=
    UInt8.toBitVec_inj.1 (by simp [BitVec.and_or_distrib_left])
  simp only [has, hdistrib, bne_iff_ne, ne_eq, UInt8.or_eq_zero_iff]
  exact Classical.not_and_iff_not_or_not

end Modes

/-- Whether the flags have one access modifier or none. -/
def Flags.AtMostOneModifier (f : Flags) : Prop :=
  f.modifiers = 0 ∨ f.modifiers = Flags.publicBit ∨ f.modifiers = Flags.privateBit ∨
    f.modifiers = Flags.protectedBit

theorem Flags.AtMostOneModifier.modifiers_eq {f : Flags} (h : f.AtMostOneModifier)
    (hprotected : f.isProtected = true) : f.modifiers = Flags.protectedBit := by
  have hbit : f.modifiers &&& Flags.protectedBit ≠ 0 := by
    rwa [Flags.isProtected, f.has_eq_modifiers (by decide), bne_iff_ne] at hprotected
  rcases h with hm | hm | hm | hm
  · exact absurd (by rw [hm]; decide) hbit
  · exact absurd (by rw [hm]; decide) hbit
  · exact absurd (by rw [hm]; decide) hbit
  · exact hm

namespace ClassGraph

variable {G : ClassGraph} {ref owner user : ClassId} {mods : Flags} {modes : Modes}

theorem classAccessible_iff : G.classAccessible ref user modes = true ↔
    modes.isEmpty = false ∧ ((G.flags ref).isPublic = true ∨
      modes.has Modes.packageBit = true ∧ G.samePackage user ref = true) := by
  simp [classAccessible]

/-- The ways in which a member can be reached, apart from the class that it is used through. -/
def Reaches (G : ClassGraph) (ref owner : ClassId) (mods : Flags) (user : ClassId)
    (modes : Modes) : Prop :=
  owner = user ∧ modes.has Modes.privateBit = true ∨
  mods.modifiers = Flags.publicBit ∨
  mods.modifiers = Flags.protectedBit ∧
    ((modes.has Modes.packageBit = true ∨ modes.has Modes.protectedBit = true) ∧
        G.samePackage owner user = true ∨
      modes.has Modes.protectedBit = true ∧
        (mods.isStatic = true → ref = user ∨ G.isRelated ref user = true) ∧
        G.isSubclass user owner = true) ∨
  mods.modifiers = Flags.privateBit ∧ modes.has Modes.privateBit = true ∧
    G.sameNest owner user = true ∨
  mods.modifiers = 0 ∧ modes.has Modes.packageBit = true ∧ G.samePackage owner user = true

theorem memberAccessible_iff : G.memberAccessible ref owner mods user modes = true ↔
    G.classAccessible ref user modes = true ∧ G.Reaches ref owner mods user modes := by
  have hdistinct : Flags.publicBit ≠ Flags.protectedBit ∧ Flags.publicBit ≠ Flags.privateBit ∧
      Flags.publicBit ≠ 0 ∧ Flags.protectedBit ≠ Flags.privateBit ∧ Flags.protectedBit ≠ 0 ∧
      Flags.privateBit ≠ 0 := by decide
  by_cases hc : G.classAccessible ref user modes = true
  · have hmodes := (classAccessible_iff.1 hc).1
    simp only [memberAccessible, hc, hmodes, Reaches, true_and]
    grind [Modes.has_or]
  · simp only [memberAccessible, hc]
    simp

end ClassGraph

namespace Lookup.Below

variable {G : ClassGraph} {l d : Lookup} {ref owner : ClassId} {mods : Flags}

theorem classAccessible (h : Below G l d) (hd : G.classAccessible ref d.cls d.modes = true) :
    G.classAccessible ref l.cls l.modes = true := by
  obtain ⟨hmodes, hclass⟩ := ClassGraph.classAccessible_iff.1 hd
  refine ClassGraph.classAccessible_iff.2 ⟨h.within.isEmpty hmodes, ?_⟩
  rcases hclass with hpublic | ⟨hpackage, hsame⟩
  · exact .inl hpublic
  · exact .inr ⟨h.within.has hpackage, G.samePackage_trans (h.package hpackage) hsame⟩

/-- Members of the lookup class itself, which private access opens, are of the nest of the first. -/
theorem sameNest_owner (h : Below G l d) (howner : owner = d.cls)
    (hprivate : d.modes.has Modes.privateBit = true) : G.sameNest owner l.cls = true := by
  rw [howner]
  exact G.sameNest_symm (h.nest hprivate).1

theorem samePackage_owner (h : Below G l d) (hpackage : d.modes.has Modes.packageBit = true)
    (howner : G.samePackage owner d.cls = true) : G.samePackage owner l.cls = true :=
  G.samePackage_trans howner (G.samePackage_symm (h.package hpackage))

/-- What the second lookup reaches the first does, if the member has one access modifier at most.
One with two is open to its own class alone. -/
theorem reaches (h : Below G l d) (hmods : mods.AtMostOneModifier)
    (hd : G.Reaches ref owner mods d.cls d.modes) : G.Reaches ref owner mods l.cls l.modes := by
  by_cases hsame : d.modes.has Modes.protectedBit = true
  · rw [← h.same hsame]
    exact hd
  have hnest : d.modes.has Modes.privateBit = true → G.sameNest owner l.cls = true →
      G.Reaches ref owner mods l.cls l.modes := by
    intro hprivate hnest
    have hpackage := h.within.has (h.nest hprivate).2
    have hshared := G.samePackage_of_sameNest hnest
    rcases hmods with hm | hm | hm | hm
    · exact .inr (.inr (.inr (.inr ⟨hm, hpackage, hshared⟩)))
    · exact .inr (.inl hm)
    · exact .inr (.inr (.inr (.inl ⟨hm, h.within.has hprivate, hnest⟩)))
    · exact .inr (.inr (.inl ⟨hm, .inl ⟨.inl hpackage, hshared⟩⟩))
  rcases hd with ⟨howner, hprivate⟩ | hpublic | ⟨hprotected, hinherits⟩ |
    ⟨hmod, hprivate, howner⟩ | ⟨hmod, hpackage, howner⟩
  · exact hnest hprivate (h.sameNest_owner howner hprivate)
  · exact .inr (.inl hpublic)
  · rcases hinherits with ⟨hpackage | hno, howner⟩ | ⟨hno, -, -⟩
    · exact .inr (.inr (.inl ⟨hprotected,
        .inl ⟨.inl (h.within.has hpackage), h.samePackage_owner hpackage howner⟩⟩))
    · exact absurd hno hsame
    · exact absurd hno hsame
  · exact .inr (.inr (.inr (.inl ⟨hmod, h.within.has hprivate,
      G.sameNest_trans howner (G.sameNest_symm (h.nest hprivate).1)⟩)))
  · exact .inr (.inr (.inr (.inr ⟨hmod, h.within.has hpackage,
      h.samePackage_owner hpackage howner⟩)))

theorem memberAccessible (h : Below G l d) (hmods : mods.AtMostOneModifier)
    (hd : G.memberAccessible ref owner mods d.cls d.modes = true) :
    G.memberAccessible ref owner mods l.cls l.modes = true := by
  obtain ⟨hclass, hreaches⟩ := ClassGraph.memberAccessible_iff.1 hd
  exact ClassGraph.memberAccessible_iff.2 ⟨h.classAccessible hclass, h.reaches hmods hreaches⟩

/-- A lookup that has been moved never narrows a receiver: the protected members that it reaches are
of its own package, which is the package of the first lookup too. -/
theorem restrictsReceiver (h : Below G l d) (hmods : mods.AtMostOneModifier)
    (hd : G.memberAccessible ref owner mods d.cls d.modes = true) :
    d = l ∨ l.restrictsReceiver G owner mods = false ∧ d.restrictsReceiver G owner mods = false := by
  by_cases hsame : d.modes.has Modes.protectedBit = true
  · exact .inl (h.same hsame)
  right
  by_cases hprotected : mods.isProtected = true
  · have hmod := hmods.modifiers_eq hprotected
    have hshared : G.samePackage owner l.cls = true ∧ G.samePackage owner d.cls = true := by
      rcases (ClassGraph.memberAccessible_iff.1 hd).2 with ⟨howner, hprivate⟩ | hpublic |
        ⟨-, hinherits⟩ | ⟨hother, -⟩ | ⟨hother, -⟩
      · refine ⟨G.samePackage_of_sameNest (h.sameNest_owner howner hprivate), ?_⟩
        rw [howner]
        exact G.samePackage_refl _
      · exact absurd (hmod.symm.trans hpublic) (by decide)
      · rcases hinherits with ⟨hpackage | hno, howner⟩ | ⟨hno, -, -⟩
        · exact ⟨h.samePackage_owner hpackage howner, howner⟩
        · exact absurd hno hsame
        · exact absurd hno hsame
      · exact absurd (hmod.symm.trans hother) (by decide)
      · exact absurd (hmod.symm.trans hother) (by decide)
    simp [Lookup.restrictsReceiver, hshared]
  · simp [Lookup.restrictsReceiver, hprotected]

end Lookup.Below

/-! ## Look-ups -/

/-- A constructor that counts as package-private still has one modifier at most. -/
theorem Flags.AtMostOneModifier.judged {f : Flags} (h : f.AtMostOneModifier) (kind : RefKind) :
    (Lookup.judgedFlags kind f).AtMostOneModifier := by
  unfold Lookup.judgedFlags
  split
  · have hcleared : (f.without Flags.protectedBit).modifiers =
        f.modifiers &&& ~~~Flags.protectedBit := by
      rw [modifiers, modifiers, without, UInt16.and_assoc, UInt16.and_assoc,
        UInt16.and_comm (~~~protectedBit)]
    rw [AtMostOneModifier, hcleared]
    rcases h with hm | hm | hm | hm
    · rw [hm]; decide
    · rw [hm]; decide
    · rw [hm]; decide
    · rw [hm]; decide
  · exact h

namespace MemberOp

/-- Whether the look-up answers a handle on the member as it is, called with dispatch or without a
receiver. The others are made for a caller or bind a receiver. -/
def isPlain : MemberOp → Bool
  | findSpecial .. | unreflectSpecial .. | bind .. => false
  | _ => true

theorem caller_eq_none {G : ClassGraph} {op : MemberOp} (hop : op.isPlain = true) {u : Use}
    (hu : op.use? G = some u) : u.caller = none := by
  have hmethod : ∀ {x : Except ResolutionError MethodRef} {kind : RefKind} {ref : ClassId},
      x.toOption.map (fun m => (⟨kind, ref, none, .method m⟩ : Use)) = some u → u.caller = none := by
    intro x kind ref h
    obtain ⟨m, -, rfl⟩ := Option.map_eq_some_iff.1 h
    rfl
  have hfield : ∀ {kind : RefKind} {ref : ClassId} {name : String} {type : Ty},
      fieldUse? G kind ref name type = some u → u.caller = none := by
    intro kind ref name type h
    obtain ⟨f, -, rfl⟩ := Option.map_eq_some_iff.1 h
    rfl
  cases op with
  | findStatic => exact hmethod hu
  | findVirtual ref name type =>
    simp only [use?, instanceUse?] at hu
    split at hu
    · exact hmethod hu
    · exact hmethod hu
  | findConstructor ref type =>
    simp only [use?] at hu
    split at hu
    · cases hu
    · exact hmethod hu
  | findGetter => exact hfield hu
  | findSetter => exact hfield hu
  | findStaticGetter => exact hfield hu
  | findStaticSetter => exact hfield hu
  | unreflect => exact Option.some.inj hu ▸ rfl
  | unreflectConstructor m =>
    simp only [use?] at hu
    split at hu
    · cases hu
    · split at hu
      · cases hu
      · exact Option.some.inj hu ▸ rfl
  | unreflectGetter => exact Option.some.inj hu ▸ rfl
  | unreflectSetter => exact Option.some.inj hu ▸ rfl
  | findSpecial => cases hop
  | unreflectSpecial => cases hop
  | bind => cases hop

theorem answer_of_isPlain {C : Classes} {l : Lookup} {op : MemberOp} (hop : op.isPlain = true)
    (u : Use) (key : MemberKey) : op.answer C l u key = l.handleFor C u key true := by
  cases op <;> first
    | exact bind_pure _
    | cases hop

end MemberOp

namespace Lookup

variable {C : Classes} {l d : Lookup} {u : Use} {key : MemberKey} {m n : Machine}

theorem Below.permits (h : Below C.graph l d) (hmods : (u.flags C.graph).AtMostOneModifier)
    (hcaller : u.caller = none) (hd : d.Permits C u) : l.Permits C u where
  ref := h.classAccessible hd.ref
  member := h.memberAccessible (hmods.judged u.kind) hd.member
  signature := hd.signature
  notFinal := hd.notFinal
  special c hc := by
    rw [hcaller] at hc
    cases hc

/-- Narrowing is the one thing that depends on the lookup once its rights are granted, and both
lookups narrow, being the same, or neither does. -/
theorem Below.eq_or_narrows (h : Below C.graph l d) (hmods : (u.flags C.graph).AtMostOneModifier)
    (hd : d.Permits C u) :
    d = l ∨ l.narrows C.graph u = false ∧ d.narrows C.graph u = false := by
  by_cases hreceiver : u.kind.hasReceiver = true
  · have hjudged : judgedFlags u.kind (u.flags C.graph) = u.flags C.graph := by
      rw [judgedFlags, if_neg]
      intro hkind
      rw [hkind] at hreceiver
      cases hreceiver
    have hmember := hd.member
    rw [hjudged] at hmember
    rcases h.restrictsReceiver hmods hmember with hsame | ⟨hl, hd⟩
    · exact .inl hsame
    · exact .inr ⟨by rw [narrows, hl, Bool.and_false], by rw [narrows, hd, Bool.and_false]⟩
  · exact .inr ⟨by simp [narrows, hreceiver], by simp [narrows, hreceiver]⟩

/-- Without narrowing the handle is what the member cache answers. -/
theorem start_handleFor (hn : l.narrows C.graph u = false) :
    (l.handleFor C u key true).start m =
      (cached key (u.make C.graph key.type)).start m := by
  have hplain : l.handleFor C u key true = cached key (u.make C.graph key.type) := by
    rw [handleFor, hn]
    exact bind_pure _
  rw [hplain]

/-- Where neither lookup narrows they answer the same handle, whatever each has reported. -/
theorem start_handleFor_eq (hl : l.narrows C.graph u = false) (hd : d.narrows C.graph u = false)
    (es fs : List Event) : ((l.handleFor C u key true).start (m.reports es)).1 =
      ((d.handleFor C u key true).start (m.reports fs)).1 := by
  have hvalue : ∀ gs, ((cached key (u.make C.graph key.type)).start (m.reports gs)).1 =
      .ok ((m.kept? key).getD (u.handle C.graph key.type m.nextStamp)) := by
    intro gs
    rw [(start_cached (Use.makes_make key.type) _).1, m.kept?_reports, m.nextStamp_reports]
  rw [start_handleFor hl, start_handleFor hd, hvalue es, hvalue fs]

theorem agree_narrow {a b : Handle} (h : a.Equiv b) :
    Agree Handle.Equiv ((l.narrow a).start m).1 ((l.narrow b).start n).1 := by
  rw [narrow, narrow, (Link.start_build _ m).1, (Link.start_build _ n).1,
    Handle.type_eq_of_equivalent h]
  show Agree _ (Except.bind _ _) (Except.bind _ _)
  cases b.type.changeParam 0 (.cls l.cls) with
  | error e => exact .error e
  | ok t => exact Handle.agree_retype h t

/-- What the cache answers later is equivalent to what it has answered. -/
theorem equiv_of_cached {m' : Machine} {base base' : Handle}
    (hm : (cached key (u.make C.graph key.type)).start m = (.ok base, m'))
    (hn : ((cached key (u.make C.graph key.type)).start n).1 = .ok base')
    (hgrows : m'.members.Grows n.members) : base'.Equiv base := by
  obtain ⟨hbase, hgrown, hkept⟩ := start_cached (Use.makes_make (G := C.graph) (u := u) key.type) m
  obtain ⟨hbase', -, -⟩ := start_cached (Use.makes_make (G := C.graph) (u := u) key.type) n
  rw [hm] at hbase hgrown hkept
  obtain rfl := Except.ok.inj hbase
  obtain rfl := Except.ok.inj (hn.symm.trans hbase')
  by_cases henabled : m.members.enabled = true
  · -- the entry is there to stay
    have hon : m'.members.enabled = true := hgrown.enabled.trans henabled
    have hentry := hkept henabled
    rw [Machine.kept?, if_pos hon] at hentry
    have hlater : n.kept? key = some ((m.kept? key).getD (u.handle C.graph key.type m.nextStamp)) := by
      rw [Machine.kept?, if_pos (hgrows.enabled.trans hon)]
      exact hgrows.find? _ _ hentry
    rw [hlater]
    exact Handle.equivalent_refl _
  · have hoff : ¬ n.members.enabled = true := by
      rw [hgrows.enabled, hgrown.enabled]
      exact henabled
    rw [Machine.kept?, Machine.kept?, if_neg henabled, if_neg hoff]
    exact Use.handle_equivalent _ _ _

/-- Asked again, on a machine whose member cache has gained entries at most, the same lookup answers
an equivalent handle, or fails as it did. -/
theorem agree_handleFor (hn : ((l.handleFor C u key true).start m).2.members.Grows n.members) :
    Agree Handle.Equiv ((l.handleFor C u key true).start m).1
      ((l.handleFor C u key true).start n).1 := by
  obtain ⟨base, m₁, hbase⟩ : ∃ base m₁,
      (cached key (u.make C.graph key.type)).start m = (.ok base, m₁) :=
    ⟨_, _, Prod.ext (start_cached (Use.makes_make key.type) m).1 rfl⟩
  obtain ⟨base', n₁, hbase'⟩ : ∃ base' n₁,
      (cached key (u.make C.graph key.type)).start n = (.ok base', n₁) :=
    ⟨_, _, Prod.ext (start_cached (Use.makes_make key.type) n).1 rfl⟩
  rw [handleFor, Link.start_bind, hbase] at hn ⊢
  rw [Link.start_bind, hbase']
  dsimp only at hn ⊢
  have hequiv : m₁.members.Grows n.members → base.Equiv base' :=
    fun h => Handle.equivalent_symm (equiv_of_cached hbase (congrArg Prod.fst hbase') h)
  split at hn
  · next hnarrow =>
    rw [if_pos hnarrow, if_pos hnarrow]
    have hmembers : ((l.narrow base).start m₁).2.members = m₁.members := (Link.start_build _ m₁).2
    rw [hmembers] at hn
    exact agree_narrow (hequiv hn)
  · next hnarrow =>
    rw [if_neg hnarrow, if_neg hnarrow]
    exact .ok (hequiv hn)

theorem exists_equivalent_of_handleFor {h : Handle} {m' : Machine}
    (hm : (l.handleFor C u key true).start m = (.ok h, m')) (hn : m'.members.Grows n.members) :
    ∃ k, ((l.handleFor C u key true).start n).1 = .ok k ∧ k.Equiv h := by
  have hagree : Agree Handle.Equiv ((l.handleFor C u key true).start m).1
      ((l.handleFor C u key true).start n).1 := agree_handleFor (by rw [hm]; exact hn)
  rw [hm] at hagree
  generalize ((l.handleFor C u key true).start n).1 = r at hagree ⊢
  cases hagree with
  | ok hk => exact ⟨_, rfl, Handle.equivalent_symm hk⟩

theorem start_eq_ok {α : Type} {x : Link α} {a : α} {m' : Machine} :
    x.start m = (.ok a, m') ↔ x m = .ok a m' := by
  unfold Link.start
  cases x m <;> simp

theorem exists_ok_of_start {α : Type} {x : Link α} {a : α} (h : (x.start m).1 = .ok a) :
    ∃ n, x m = .ok a n :=
  ⟨_, start_eq_ok.1 (Prod.ext h rfl)⟩

/-- `inClass` never gains rights. A look-up that succeeds with a lookup made by any chain of moves
from a full or public one succeeds with that one too: on the same machine it answers the very same
handle, and asked afterwards, whatever has been looked up meanwhile, one that is equivalent. -/
theorem perform_of_inClasses (hl : l.IsOriginal) (cs : List ClassId) {op : MemberOp}
    (hop : op.isPlain = true)
    (hmods : ∀ u, op.use? C.graph = some u → (u.flags C.graph).AtMostOneModifier)
    {h : Handle} {m' : Machine}
    (hd : (l.inClasses C.graph cs).perform C op m = .ok h m') :
    (∃ n, l.perform C op m = .ok h n) ∧
      ∀ meanwhile : List (Lookup × MemberOp), ∃ k n,
        l.perform C op (m'.afterLookups C meanwhile) = .ok k n ∧
          k.isEquivalent h = true ∧ k.type = h.type ∧ k.member? = h.member? := by
  have hbelow : Below C.graph l (l.inClasses C.graph cs) := hl.below.inClasses cs
  generalize l.inClasses C.graph cs = d at hbelow hd
  obtain ⟨u, key, es, hu, hkey, hgranted, hanswer⟩ := exists_use_of_perform hd
  have hpermitted : d.Permits C u := by
    rcases hgranted with htrusted | hpermits
    · rw [hbelow.untrusted] at htrusted
      cases htrusted
    · exact hpermits
  have hpermits : l.Permits C u :=
    hbelow.permits (hmods u hu) (MemberOp.caller_eq_none hop hu) hpermitted
  have hl : ∀ n, ∃ fs, l.perform C op n = l.handleFor C u key true (n.reports fs) := by
    intro n
    rw [← MemberOp.answer_of_isPlain hop]
    exact perform_of_permits hu hkey (.inr hpermits) n
  rw [MemberOp.answer_of_isPlain hop, ← start_eq_ok] at hanswer
  have halike := hbelow.eq_or_narrows (hmods u hu) hpermitted
  refine ⟨?_, fun meanwhile => ?_⟩
  · rcases halike with rfl | ⟨hnarrow, hnarrow'⟩
    · exact ⟨m', hd⟩
    · obtain ⟨fs, hfs⟩ := hl m
      rw [hfs]
      apply exists_ok_of_start
      rw [start_handleFor_eq hnarrow hnarrow' fs es, hanswer]
  · obtain ⟨fs, hfs⟩ := hl (m'.afterLookups C meanwhile)
    have hgrows : m'.members.Grows ((m'.afterLookups C meanwhile).reports fs).members := by
      rw [Machine.members_reports]
      exact m'.grows_afterLookups C meanwhile
    obtain ⟨k, hk, hequiv⟩ := exists_equivalent_of_handleFor hanswer hgrows
    have hsame : l.handleFor C u key true = d.handleFor C u key true := by
      rcases halike with rfl | ⟨hnarrow, hnarrow'⟩
      · rfl
      · rw [handleFor, handleFor, hnarrow, hnarrow']
        rfl
    obtain ⟨n, hn⟩ := exists_ok_of_start hk
    exact ⟨k, n, by rw [hfs, hsame, hn], (Handle.isEquivalent_eq k h).trans hequiv,
      Handle.type_eq_of_equivalent hequiv, Handle.member?_eq_of_equivalent hequiv⟩

end Lookup

/-- The class `p/D` with a private static method `f` that takes nothing and answers an `int`, and a
class `p/D$E` of its nest. -/
def ClassGraph.nestMates : ClassGraph where
  defined := #[
    ⟨"p/D", ⟨0x0001⟩, .bootstrap, some ClassId.object, [],
      [.withBody "f" ⟨[], .prim .int⟩ ⟨0x000a⟩], []⟩,
    ⟨"p/D$E", ⟨0x0000⟩, .bootstrap, some ClassId.object, [], [], []⟩]
  older := by
    have hobject : ∀ i, ClassId.object < bootstrapCount + i := fun i =>
      Nat.lt_of_lt_of_le (by decide) (Nat.le_add_right _ i)
    rintro (_ | _ | i) d hd s hs
    · obtain rfl := Option.some.inj hd
      obtain rfl : s = ClassId.object := by simpa [ClassDecl.supers] using hs
      exact hobject _
    · obtain rfl := Option.some.inj hd
      obtain rfl : s = ClassId.object := by simpa [ClassDecl.supers] using hs
      exact hobject _
    · simp at hd

/-- The look-up of the private method. -/
def MemberOp.nestMatesF : MemberOp :=
  .findStatic bootstrapCount "f" ⟨[], .prim .int, by decide, by decide⟩

/-- The lookup of `p/D`, moved to its nest-mate, still reaches the private method, as it does
itself. -/
theorem Lookup.perform_of_inClasses_of_nestMates :
    ((full bootstrapCount).inClasses .nestMates [bootstrapCount + 1]).cls = bootstrapCount + 1 ∧
      ∃ h m', ((full bootstrapCount).inClasses .nestMates [bootstrapCount + 1]).perform
          ⟨.nestMates, .initial⟩ .nestMatesF (.initial true) = .ok h m' ∧
        ∃ n, (full bootstrapCount).perform ⟨.nestMates, .initial⟩ .nestMatesF (.initial true) =
          .ok h n := by
  have huse : MemberOp.nestMatesF.use? .nestMates =
      some ⟨.invokeStatic, bootstrapCount, none, .method ⟨bootstrapCount, 0⟩⟩ := rfl
  refine ⟨by decide, _, _, rfl, ?_⟩
  refine (perform_of_inClasses (.inr ⟨_, rfl⟩) [bootstrapCount + 1] rfl (fun u hu => ?_) rfl).1
  obtain rfl := Option.some.inj (huse.symm.trans hu)
  exact .inr (.inr (.inl rfl))

end HandleCalculus
