import HandleCalculus.Proofs.Assignability
import HandleCalculus.Proofs.MemberSearch

/-!
# Offsets of fields

The layout of a class extends that of its parent, so instance fields of one class and of its
superclasses never share an offset (`fieldOffset_inj`), and every slot is that of one of them
(`exists_field_of_layout`). An instance has a slot for a field exactly if the class that declares the
field is among the superclasses of its own (`ownsSlot_iff`).

A search for a field goes through interfaces too, which add nothing to the layout. A field found there
has an offset all the same, and whatever the instance has at that offset belongs to another field.
-/

set_option autoImplicit false

namespace HandleCalculus

/-! ## Counting what was before -/

section Counting

variable {α : Type} {l : List α} {p : α → Bool}

/-- As far as the count goes there are elements with that count before them. -/
private theorem exists_of_lt_length_filter {n : Nat} (h : n < (l.filter p).length) :
    ∃ i a, l[i]? = some a ∧ p a = true ∧ ((l.take i).filter p).length = n := by
  induction l generalizing n with
  | nil => cases h
  | cons b l ih =>
    by_cases hb : p b = true
    · rw [List.filter_cons_of_pos hb, List.length_cons] at h
      cases n with
      | zero => exact ⟨0, b, rfl, hb, rfl⟩
      | succ n =>
        obtain ⟨i, a, hi, ha, hcount⟩ := ih (Nat.lt_of_succ_lt_succ h)
        refine ⟨i + 1, a, hi, ha, ?_⟩
        rw [List.take_succ_cons, List.filter_cons_of_pos hb, List.length_cons, hcount]
    · rw [List.filter_cons_of_neg hb] at h
      obtain ⟨i, a, hi, ha, hcount⟩ := ih h
      refine ⟨i + 1, a, hi, ha, ?_⟩
      rw [List.take_succ_cons, List.filter_cons_of_neg hb, hcount]

/-- The count grows past an element that is counted. -/
private theorem length_filter_take_lt {i j : Nat} {a : α} (hi : l[i]? = some a) (ha : p a = true)
    (hij : i < j) : ((l.take i).filter p).length < ((l.take j).filter p).length := by
  have hnext : l.take (i + 1) = l.take i ++ [a] := by
    rw [List.take_add_one, hi]
    rfl
  have hsub : (l.take (i + 1)).Sublist (l.take j) := List.take_sublist_take_left hij
  calc ((l.take i).filter p).length
      < ((l.take i).filter p).length + 1 := Nat.lt_succ_self _
    _ = ((l.take (i + 1)).filter p).length := by
        rw [hnext, List.filter_append, List.filter_cons_of_pos ha, List.length_append]
        rfl
    _ ≤ ((l.take j).filter p).length := (hsub.filter p).length_le

private theorem eq_of_length_filter_take {i j : Nat} {a b : α} (hi : l[i]? = some a)
    (ha : p a = true) (hj : l[j]? = some b) (hb : p b = true)
    (h : ((l.take i).filter p).length = ((l.take j).filter p).length) : i = j := by
  rcases Nat.lt_trichotomy i j with hlt | heq | hlt
  · have := length_filter_take_lt hi ha hlt
    omega
  · exact heq
  · have := length_filter_take_lt hj hb hlt
    omega

end Counting

namespace ClassGraph

variable {G : ClassGraph}

/-! ## Superclasses -/

/-- The slots of a class come first among those of the classes that extend it. -/
theorem layout_prefix_of_mem_superclasses {c d : ClassId} (h : d ∈ G.superclasses c) :
    G.layout d <+: G.layout c := by
  induction c using Nat.strongRecOn with
  | ind c ih =>
    rcases G.mem_superclasses_iff.1 h with rfl | ⟨p, hp, hpd⟩
    · exact List.prefix_rfl
    · rw [G.layout_eq c, hp]
      exact (ih p (G.lt_of_parent? hp) hpd).trans (List.prefix_append _ _)

/-- A class above another one is among its superclasses, or is reached through an interface that one
of these lists. -/
theorem mem_superclasses_or_of_isSubclass {c d : ClassId} (h : G.isSubclass c d = true) :
    d ∈ G.superclasses c ∨
      ∃ k ∈ G.superclasses c, ∃ i ∈ G.interfaces k, G.isSubclass i d = true := by
  induction c using Nat.strongRecOn with
  | ind c ih =>
    rcases isSubclass_cases h with rfl | ⟨i, hi, hid⟩ | ⟨p, hp, hpd⟩
    · exact .inl (G.mem_superclasses_self d)
    · exact .inr ⟨c, G.mem_superclasses_self c, i, hi, hid⟩
    · have hpc : p ∈ G.superclasses c :=
        G.mem_superclasses_iff.2 (.inr ⟨p, hp, G.mem_superclasses_self p⟩)
      rcases ih p (G.lt_of_parent? hp) hpd with hsuper | ⟨k, hk, i, hi, hid⟩
      · exact .inl (superclasses_subset hpc hsuper)
      · exact .inr ⟨k, superclasses_subset hpc hk, i, hi, hid⟩

/-! ## Offsets -/

/-- Whether a field is one that its class declares, and every instance has for itself. -/
structure HasInstanceField (G : ClassGraph) (f : FieldRef) : Prop where
  has : G.HasField f
  notStatic : (G.field f).isStatic = false

theorem eq_of_index {f g : FieldRef} (hcls : f.cls = g.cls)
    (hindex : f.index.toNat = g.index.toNat) : f = g := by
  obtain ⟨c, i⟩ := f
  obtain ⟨d, j⟩ := g
  obtain rfl : c = d := hcls
  obtain rfl : i = j := UInt16.toNat_inj.1 hindex
  rfl

theorem inheritedSlots_of_parent {c p : ClassId} (hp : G.parent? c = some p) :
    G.inheritedSlots c = (G.layout p).length := by
  unfold inheritedSlots
  rw [hp]

namespace HasInstanceField

variable {f g : FieldRef}

theorem layout (hf : G.HasInstanceField f) :
    (G.layout f.cls)[G.fieldOffset f]? = some (G.field f).type :=
  G.layout_fieldOffset (getElem?_of_hasField hf.has) hf.notStatic

/-- The offset counts the inherited slots and the instance fields before. -/
theorem fieldOffset_eq (hf : G.HasInstanceField f) :
    G.fieldOffset f = G.inheritedSlots f.cls +
      (((G.decl f.cls).fields.take f.index.toNat).filter (!·.isStatic)).length := by
  unfold fieldOffset
  rw [if_neg (by rw [hf.notStatic]; exact Bool.false_ne_true)]

theorem inheritedSlots_le (hf : G.HasInstanceField f) : G.inheritedSlots f.cls ≤ G.fieldOffset f := by
  rw [hf.fieldOffset_eq]
  exact Nat.le_add_right _ _

/-- A field is at its offset among the slots of every class that extends its own. -/
theorem layout_of_mem_superclasses (hf : G.HasInstanceField f) {c : ClassId}
    (hc : f.cls ∈ G.superclasses c) : (G.layout c)[G.fieldOffset f]? = some (G.field f).type := by
  obtain ⟨more, hmore⟩ := layout_prefix_of_mem_superclasses hc
  have hlt := (List.getElem?_eq_some_iff.1 hf.layout).1
  rw [← hmore, List.getElem?_append_left hlt]
  exact hf.layout

/-- What a parent has comes before what the class declares. -/
theorem fieldOffset_lt (hf : G.HasInstanceField f) (hg : G.HasInstanceField g) {p : ClassId}
    (hp : G.parent? f.cls = some p) (hgp : g.cls ∈ G.superclasses p) :
    G.fieldOffset g < G.fieldOffset f :=
  calc G.fieldOffset g
      < (G.layout p).length :=
        (List.getElem?_eq_some_iff.1 (hg.layout_of_mem_superclasses hgp)).1
    _ = G.inheritedSlots f.cls := (inheritedSlots_of_parent hp).symm
    _ ≤ G.fieldOffset f := hf.inheritedSlots_le

/-- Instance fields of one class are at different offsets. -/
theorem eq_of_cls_eq (hf : G.HasInstanceField f) (hg : G.HasInstanceField g) (hcls : f.cls = g.cls)
    (h : G.fieldOffset f = G.fieldOffset g) : f = g := by
  rw [hf.fieldOffset_eq, hg.fieldOffset_eq, hcls] at h
  have hgetf := getElem?_of_hasField hf.has
  rw [hcls] at hgetf
  refine eq_of_index hcls (eq_of_length_filter_take (p := fun d : FieldDecl => !d.isStatic) hgetf
    ?_ (getElem?_of_hasField hg.has) ?_ (Nat.add_left_cancel h))
  · rw [hf.notStatic, Bool.not_false]
  · rw [hg.notStatic, Bool.not_false]

/-- Instance fields that a class declares or inherits are at different offsets. -/
theorem fieldOffset_inj (hf : G.HasInstanceField f) (hg : G.HasInstanceField g) {c : ClassId}
    (hfc : f.cls ∈ G.superclasses c) (hgc : g.cls ∈ G.superclasses c)
    (h : G.fieldOffset f = G.fieldOffset g) : f = g := by
  -- up the superclasses, to the first one that declares one of the two
  induction c using Nat.strongRecOn with
  | ind c ih =>
    rcases G.mem_superclasses_iff.1 hfc with hf' | ⟨p, hp, hfp⟩
    · rcases G.mem_superclasses_iff.1 hgc with hg' | ⟨p, hp, hgp⟩
      · exact hf.eq_of_cls_eq hg (hf'.trans hg'.symm) h
      · have hlt := hf.fieldOffset_lt hg (hf' ▸ hp) hgp
        omega
    · rcases G.mem_superclasses_iff.1 hgc with hg' | ⟨q, hq, hgq⟩
      · have hlt := hg.fieldOffset_lt hf (hg' ▸ hp) hfp
        omega
      · obtain rfl : p = q := Option.some.inj (hp.symm.trans hq)
        exact ih p (G.lt_of_parent? hp) hfp hgq

end HasInstanceField

/-- Static fields of one class are at different offsets among its static slots. -/
theorem fieldOffset_inj_of_static {f g : FieldRef} (hf : G.HasField f) (hg : G.HasField g)
    (hfs : (G.field f).isStatic = true) (hgs : (G.field g).isStatic = true) (hcls : f.cls = g.cls)
    (h : G.fieldOffset f = G.fieldOffset g) : f = g := by
  unfold fieldOffset at h
  rw [if_pos hfs, if_pos hgs, hcls] at h
  have hgetf := getElem?_of_hasField hf
  rw [hcls] at hgetf
  exact eq_of_index hcls (eq_of_length_filter_take hgetf hfs (getElem?_of_hasField hg) hgs h)

/-- Every slot of an instance is that of a field that its class declares or inherits. -/
theorem exists_field_of_layout (hG : ∀ c, (G.decl c).fields.length ≤ 65536) {c : ClassId}
    {offset : Nat} (h : offset < (G.layout c).length) :
    ∃ f, G.HasInstanceField f ∧ f.cls ∈ G.superclasses c ∧ G.fieldOffset f = offset := by
  induction c using Nat.strongRecOn with
  | ind c ih =>
    by_cases hown : offset < G.inheritedSlots c
    · -- an inherited slot
      cases hp : G.parent? c with
      | none =>
        unfold inheritedSlots at hown
        rw [hp] at hown
        cases hown
      | some p =>
        rw [inheritedSlots_of_parent hp] at hown
        obtain ⟨f, hf, hfp, hoffset⟩ := ih p (G.lt_of_parent? hp) hown
        exact ⟨f, hf, G.mem_superclasses_iff.2 (.inr ⟨p, hp, hfp⟩), hoffset⟩
    · have hlength : (G.layout c).length =
          G.inheritedSlots c + ((G.decl c).fields.filter (!·.isStatic)).length := by
        rw [G.layout_eq c, List.length_append, ClassDecl.instanceTypes, List.length_map]
        unfold inheritedSlots
        cases G.parent? c <;> rfl
      rw [hlength] at h
      obtain ⟨i, d, hi, hd, hcount⟩ := exists_of_lt_length_filter
        (show offset - G.inheritedSlots c < ((G.decl c).fields.filter (!·.isStatic)).length by omega)
      obtain ⟨hhas, hfield, hnat⟩ := hasField_ofNat hG hi
      have hf : G.HasInstanceField ⟨c, UInt16.ofNat i⟩ := by
        refine ⟨hhas, ?_⟩
        rw [← hfield]
        exact Bool.not_eq_true' _ ▸ hd
      refine ⟨_, hf, G.mem_superclasses_self c, ?_⟩
      rw [hf.fieldOffset_eq, hnat, hcount]
      exact Nat.add_sub_cancel' (Nat.le_of_not_lt hown)

/-! ## Slots of one's own -/

/-- Whether the instances of a class have a slot for an instance field alone: there is one at its
offset, the declared type of the slot is that of the field, and of the fields that the class declares
or inherits no other one is there. -/
structure OwnsSlot (G : ClassGraph) (c : ClassId) (f : FieldRef) : Prop where
  type : (G.layout c)[G.fieldOffset f]? = some (G.field f).type
  alone : ∀ g, G.HasInstanceField g → g.cls ∈ G.superclasses c →
    G.fieldOffset g = G.fieldOffset f → g = f

/-- An instance has a slot for a field exactly if its class extends the one that declares the field. -/
theorem HasInstanceField.ownsSlot_iff (hG : ∀ c, (G.decl c).fields.length ≤ 65536) {f : FieldRef}
    (hf : G.HasInstanceField f) {c : ClassId} : G.OwnsSlot c f ↔ f.cls ∈ G.superclasses c := by
  constructor
  · intro h
    -- whatever field of the class is at the offset is this one
    obtain ⟨g, hg, hgc, hoffset⟩ :=
      exists_field_of_layout hG (List.getElem?_eq_some_iff.1 h.type).1
    rw [← h.alone g hg hgc hoffset]
    exact hgc
  · intro h
    exact ⟨hf.layout_of_mem_superclasses h, fun g hg hgc hoffset => hg.fieldOffset_inj hf hgc h hoffset⟩

/-- Where interfaces have no instance slots, a class below one that has extends it. -/
theorem InterfacesBare.mem_superclasses (hI : G.InterfacesBare) {f : FieldRef}
    (hf : G.HasInstanceField f) {c : ClassId} (hc : G.isSubclass c f.cls = true) :
    f.cls ∈ G.superclasses c := by
  rcases mem_superclasses_or_of_isSubclass hc with h | ⟨k, -, i, hi, hif⟩
  · exact h
  · -- the slots of what is above an interface are among its own, of which there are none
    have hbelow := G.layout_prefix hI hif
    rw [hI k i hi, List.prefix_nil] at hbelow
    have hslot := hf.layout
    rw [hbelow] at hslot
    cases hslot

/-! ## Resolved fields -/

theorem resolveField_eq_ok (hG : ∀ c, (G.decl c).fields.length ≤ 65536) {c : ClassId} {name : String}
    {type : Ty} {isStatic : Bool} {f : FieldRef} (h : G.resolveField c name type isStatic = .ok f) :
    G.HasField f ∧ (G.field f).type = type ∧ (G.field f).isStatic = isStatic ∧
      G.isSubclass c f.cls = true := by
  unfold resolveField at h
  split at h
  · cases h
  · next f' hfind =>
    split at h
    · next hstatic =>
      obtain rfl := Except.ok.inj h
      obtain ⟨hhas, -, htype⟩ := findField?_eq_some hG hfind
      exact ⟨hhas, htype, hstatic, (fieldHere?_of_findField? hfind).2⟩
    · cases h

end ClassGraph

end HandleCalculus
