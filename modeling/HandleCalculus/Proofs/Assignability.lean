import HandleCalculus.ClassGraph.Members

/-!
# Assignability and layout

Being assignable is a preorder. The one case that is not plain transitivity is an array that stands
for an object: nothing is above the root class, so what an array stands for it stands for through
every step. Classes above a class are older, so no two are below each other.

A slot keeps its place from a class to its subclasses: parents come first in the layout, and
interfaces add nothing to it as long as they have no slots of their own (`InterfacesBare`).
-/

set_option autoImplicit false

namespace HandleCalculus.ClassGraph

/-! ## Subclasses -/

theorem isSubclass_iff {G : ClassGraph} {c d : ClassId} :
    G.isSubclass c d = true ↔ d ∈ G.supertypes c := by
  simp [isSubclass]

/-- A class is below another one if it is that class or if an interface or the parent is below. -/
theorem isSubclass_cases {G : ClassGraph} {c d : ClassId} (h : G.isSubclass c d = true) :
    d = c ∨ (∃ i ∈ G.interfaces c, G.isSubclass i d = true) ∨
      ∃ p, G.parent? c = some p ∧ G.isSubclass p d = true := by
  rw [isSubclass_iff, mem_supertypes_iff] at h
  simpa only [isSubclass_iff] using h

theorem isSubclass_of_interface {G : ClassGraph} {c i d : ClassId} (hi : i ∈ G.interfaces c)
    (h : G.isSubclass i d = true) : G.isSubclass c d = true := by
  rw [isSubclass_iff, mem_supertypes_iff]
  exact Or.inr (Or.inl ⟨i, hi, isSubclass_iff.1 h⟩)

theorem isSubclass_of_parent {G : ClassGraph} {c p d : ClassId} (hp : G.parent? c = some p)
    (h : G.isSubclass p d = true) : G.isSubclass c d = true := by
  rw [isSubclass_iff, mem_supertypes_iff]
  exact Or.inr (Or.inr ⟨p, hp, isSubclass_iff.1 h⟩)

theorem isSubclass_trans (G : ClassGraph) {a b c : ClassId} (hab : G.isSubclass a b = true)
    (hbc : G.isSubclass b c = true) : G.isSubclass a c = true := by
  -- supertypes are older, so the induction is on the number of the class below
  induction a using Nat.strongRecOn with
  | ind a ih =>
    rcases isSubclass_cases hab with rfl | ⟨i, hi, hib⟩ | ⟨p, hp, hpb⟩
    · exact hbc
    · have hic := ih i (G.lt_of_mem_interfaces hi) hib
      exact isSubclass_of_interface hi hic
    · have hpc := ih p (G.lt_of_parent? hp) hpb
      exact isSubclass_of_parent hp hpc

theorem mem_superclasses_self (G : ClassGraph) (c : ClassId) : c ∈ G.superclasses c :=
  G.mem_superclasses_iff.2 (.inl rfl)

theorem superclasses_subset {G : ClassGraph} {c d : ClassId} (h : c ∈ G.superclasses d) :
    G.superclasses c ⊆ G.superclasses d := by
  induction d using Nat.strongRecOn with
  | ind d ih =>
    rcases (G.mem_superclasses_iff).1 h with rfl | ⟨p, hp, hc⟩
    · exact List.Subset.refl _
    · intro k hk
      have hk := ih p (G.lt_of_parent? hp) hc hk
      exact (G.mem_superclasses_iff).2 (Or.inr ⟨p, hp, hk⟩)

theorem isSubclass_of_mem_superclasses {G : ClassGraph} {c d : ClassId}
    (h : c ∈ G.superclasses d) : G.isSubclass d c = true := by
  induction d using Nat.strongRecOn with
  | ind d ih =>
    rcases (G.mem_superclasses_iff).1 h with rfl | ⟨p, hp, hc⟩
    · exact G.isSubclass_refl c
    · exact isSubclass_of_parent hp (ih p (G.lt_of_parent? hp) hc)

/-- The classes above a class are older. -/
theorem le_of_isSubclass {G : ClassGraph} {c d : ClassId} (h : G.isSubclass c d = true) :
    d ≤ c := by
  induction c using Nat.strongRecOn with
  | ind c ih =>
    rcases isSubclass_cases h with rfl | ⟨i, hi, hid⟩ | ⟨p, hp, hpd⟩
    · exact Nat.le_refl _
    · have hlt := G.lt_of_mem_interfaces hi
      exact Nat.le_trans (ih i hlt hid) (Nat.le_of_lt hlt)
    · have hlt := G.lt_of_parent? hp
      exact Nat.le_trans (ih p hlt hpd) (Nat.le_of_lt hlt)

theorem isSubclass_antisymm {G : ClassGraph} {a b : ClassId} (hab : G.isSubclass a b = true)
    (hba : G.isSubclass b a = true) : a = b :=
  Nat.le_antisymm (le_of_isSubclass hba) (le_of_isSubclass hab)

/-- Only the root class is above the root class. -/
theorem eq_object_of_isSubclass {G : ClassGraph} {c : ClassId}
    (h : G.isSubclass ClassId.object c = true) : c = ClassId.object := by
  rcases isSubclass_cases h with hc | ⟨i, hi, -⟩ | ⟨p, hp, -⟩
  · exact hc
  · exact absurd (G.lt_of_mem_interfaces hi) (Nat.not_lt_zero _)
  · exact absurd (G.lt_of_parent? hp) (Nat.not_lt_zero _)

/-! ## Types -/

/-- What a primitive type or `void` is assignable to is the type itself. -/
theorem eq_of_isAssignable {G : ClassGraph} {s t : Ty} (hs : s.isReference = false)
    (h : G.isAssignable s t = true) : s = t := by
  cases s with
  | prim p => simpa [isAssignable] using h
  | void => simpa [isAssignable] using h
  | cls c => cases hs
  | array c => cases hs

theorem eq_of_isAssignable' {G : ClassGraph} {s t : Ty} (ht : t.isReference = false)
    (h : G.isAssignable s t = true) : s = t := by
  cases t with
  | prim p => cases s <;> simp_all [isAssignable]
  | void => cases s <;> simp_all [isAssignable]
  | cls c => cases ht
  | array c => cases ht

theorem isReference_of_isAssignable {G : ClassGraph} {s t : Ty} (h : G.isAssignable s t = true) :
    s.isReference = t.isReference := by
  cases hs : s.isReference with
  | false => rw [← eq_of_isAssignable hs h, hs]
  | true =>
    cases ht : t.isReference with
    | false => rw [eq_of_isAssignable' ht h, ht] at hs; exact hs.symm
    | true => rfl

theorem isAssignable_trans (G : ClassGraph) {r s t : Ty} (hrs : G.isAssignable r s = true)
    (hst : G.isAssignable s t = true) : G.isAssignable r t = true := by
  -- on the last type: arrays compare by their components
  induction t generalizing r s with
  | prim p =>
    obtain rfl := eq_of_isAssignable' rfl hst
    exact hrs
  | void =>
    obtain rfl := eq_of_isAssignable' rfl hst
    exact hrs
  | cls c =>
    cases s with
    | prim p => cases eq_of_isAssignable rfl hst
    | void => cases eq_of_isAssignable rfl hst
    | cls b =>
      cases r with
      | prim p => cases eq_of_isAssignable rfl hrs
      | void => cases eq_of_isAssignable rfl hrs
      | cls a => exact G.isSubclass_trans hrs hst
      | array a =>
        -- the one class above an array has no class above it
        obtain rfl : b = ClassId.object := by simpa [isAssignable] using hrs
        have hc := eq_object_of_isSubclass hst
        simpa [isAssignable] using hc
    | array b =>
      cases r with
      | prim p => cases eq_of_isAssignable rfl hrs
      | void => cases eq_of_isAssignable rfl hrs
      | cls a => cases hrs
      | array a => exact hst
  | array c ih =>
    cases s with
    | prim p => cases eq_of_isAssignable rfl hst
    | void => cases eq_of_isAssignable rfl hst
    | cls b => cases hst
    | array b =>
      cases r with
      | prim p => cases eq_of_isAssignable rfl hrs
      | void => cases eq_of_isAssignable rfl hrs
      | cls a => cases hrs
      | array a =>
        simp only [isAssignable, Bool.or_eq_true, Bool.and_eq_true, beq_iff_eq] at hrs hst ⊢
        rcases hrs with rfl | ⟨⟨ha, hb⟩, hab⟩
        · exact hst
        · rcases hst with rfl | ⟨⟨-, hc⟩, hbc⟩
          · exact Or.inr ⟨⟨ha, hb⟩, hab⟩
          · exact Or.inr ⟨⟨ha, hc⟩, ih hab hbc⟩

/-! ## The root class -/

/-- Whether every class but the root extends one. -/
def Parented (G : ClassGraph) : Prop := ∀ c, G.parent? c = none → c = ClassId.object

private theorem bootstrap_parented : ∀ c < bootstrapCount,
    (bootstrapClasses[c]?.getD ClassGraph.outside).parent = none → c = ClassId.object := by
  decide

/-- It is enough that the classes defined do. -/
theorem parented_of_defined {G : ClassGraph} (hG : ∀ d ∈ G.defined, d.parent ≠ none) :
    G.Parented := by
  intro c hc
  unfold parent? decl at hc
  split at hc
  · next hlt => exact bootstrap_parented c hlt hc
  · cases hd : G.defined[c - bootstrapCount]? with
    | none =>
      rw [hd] at hc
      cases hc
    | some d =>
      rw [hd] at hc
      exact absurd hc (hG d (Array.mem_of_getElem? hd))

theorem Parented.isSubclass_object {G : ClassGraph} (hG : G.Parented) (c : ClassId) :
    G.isSubclass c ClassId.object = true := by
  induction c using Nat.strongRecOn with
  | ind c ih =>
    cases hp : G.parent? c with
    | none =>
      rw [hG c hp]
      exact G.isSubclass_refl _
    | some p => exact isSubclass_of_parent hp (ih p (G.lt_of_parent? hp))

/-- Every reference may stand for one of the root class. -/
theorem Parented.isAssignable_object {G : ClassGraph} (hG : G.Parented) {t : Ty}
    (ht : t.isReference = true) : G.isAssignable t .object = true := by
  cases t with
  | prim _ | void => cases ht
  | cls c => exact hG.isSubclass_object c
  | array _ => rfl

/-! ## Layout -/

/-- No class that another one implements has instance slots, its own or inherited. -/
def InterfacesBare (G : ClassGraph) : Prop := ∀ c, ∀ i ∈ G.interfaces c, G.layout i = []

/-- The slots of a class come first among the slots of the classes below it. -/
theorem layout_prefix (G : ClassGraph) (hI : G.InterfacesBare) {c d : ClassId}
    (h : G.isSubclass c d = true) : G.layout d <+: G.layout c := by
  induction c using Nat.strongRecOn with
  | ind c ih =>
    rcases isSubclass_cases h with rfl | ⟨i, hi, hid⟩ | ⟨p, hp, hpd⟩
    · exact List.prefix_rfl
    · -- what an interface is below has no slots either, being a prefix of none
      have hbelow := ih i (G.lt_of_mem_interfaces hi) hid
      rw [hI c i hi, List.prefix_nil] at hbelow
      rw [hbelow]
      exact List.nil_prefix
    · have hbelow := ih p (G.lt_of_parent? hp) hpd
      rw [G.layout_eq c, hp]
      exact hbelow.trans (List.prefix_append _ _)

/-- Filtering commutes with counting what was before. -/
private theorem getElem?_filter_of_take {α : Type} {l : List α} {p : α → Bool} {i : Nat} {a : α}
    (hi : l[i]? = some a) (ha : p a = true) :
    (l.filter p)[((l.take i).filter p).length]? = some a := by
  have hsplit : l = l.take i ++ a :: l.drop (i + 1) := by
    obtain ⟨hlt, rfl⟩ := List.getElem?_eq_some_iff.1 hi
    rw [List.getElem_cons_drop, List.take_append_drop]
  have hfilter : l.filter p = (l.take i).filter p ++ a :: (l.drop (i + 1)).filter p := by
    conv => lhs; rw [hsplit]
    rw [List.filter_append, List.filter_cons_of_pos ha]
  rw [hfilter, List.getElem?_append_right (Nat.le_refl _)]
  simp

/-- A static field is at its offset among the static slots of its class. -/
theorem staticTypes_fieldOffset (G : ClassGraph) {f : FieldRef} {d : FieldDecl}
    (hd : (G.decl f.cls).fields[f.index.toNat]? = some d) (hs : d.isStatic = true) :
    (G.decl f.cls).staticTypes[G.fieldOffset f]? = some d.type := by
  have hf : G.field f = d := by simp [field, hd]
  have hslot := getElem?_filter_of_take hd hs
  unfold fieldOffset ClassDecl.staticTypes
  rw [hf, if_pos hs, List.getElem?_map, hslot]
  rfl

/-- An instance field is at its offset among the slots of its class. -/
theorem layout_fieldOffset (G : ClassGraph) {f : FieldRef} {d : FieldDecl}
    (hd : (G.decl f.cls).fields[f.index.toNat]? = some d) (hs : d.isStatic = false) :
    (G.layout f.cls)[G.fieldOffset f]? = some d.type := by
  have hf : G.field f = d := by simp [field, hd]
  have hslot := getElem?_filter_of_take (p := fun f : FieldDecl => !f.isStatic) hd (by simp [hs])
  obtain ⟨inherited, hlayout, hlength⟩ : ∃ ts, G.layout f.cls = ts ++ (G.decl f.cls).instanceTypes ∧
      G.inheritedSlots f.cls = ts.length := by
    refine ⟨_, G.layout_eq f.cls, ?_⟩
    unfold inheritedSlots
    cases G.parent? f.cls <;> rfl
  unfold fieldOffset
  rw [hf, if_neg (by simp [hs]), hlayout, hlength, List.getElem?_append_right (by omega),
    Nat.add_sub_cancel_left, ClassDecl.instanceTypes, List.getElem?_map, hslot]
  rfl

end HandleCalculus.ClassGraph
