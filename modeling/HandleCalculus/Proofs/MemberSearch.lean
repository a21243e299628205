import HandleCalculus.ClassGraph.Resolution

/-!
# What a search for a member finds

A method or field at hand is one that its class declares (`HasMethod`, `HasField`). A search by name
and descriptor answers one at hand wherever one is declared that looks so.

Members are numbered, and a number has sixteen bits. Past the first 65536 members of a class the
numbers come round, and one that has come round is that of a member before the one it was meant for
(`numbered`). So what is answered looks as asked exactly if one of the first 65536 members does
(`ReachesMethod`, `ReachesField`), and always where a class has no more members than that
(`MembersNumbered`).
-/

set_option autoImplicit false

namespace HandleCalculus

/-- Whether a method has the name and the descriptor. -/
def MethodDecl.LooksLike (d : MethodDecl) (name : String) (desc : Descriptor) : Prop :=
  d.name = name ∧ d.desc = desc

/-- Whether a field has the name and the type. -/
def FieldDecl.LooksLike (d : FieldDecl) (name : String) (type : Ty) : Prop :=
  d.name = name ∧ d.type = type

namespace ClassGraph

/-- A method at hand is one that its class declares. -/
def HasMethod (G : ClassGraph) (m : MethodRef) : Prop :=
  m.index.toNat < (G.decl m.cls).methods.length

/-- A field at hand is one that its class declares. -/
def HasField (G : ClassGraph) (f : FieldRef) : Prop :=
  f.index.toNat < (G.decl f.cls).fields.length

/-- Whether a class declares a method that looks so. -/
def DeclaresMethod (G : ClassGraph) (c : ClassId) (name : String) (desc : Descriptor) : Prop :=
  ∃ d ∈ (G.decl c).methods, d.LooksLike name desc

/-- Whether a class declares a field that looks so. -/
def DeclaresField (G : ClassGraph) (c : ClassId) (name : String) (type : Ty) : Prop :=
  ∃ d ∈ (G.decl c).fields, d.LooksLike name type

/-- Whether one of the methods that a class declares first looks so. -/
def ReachesMethod (G : ClassGraph) (c : ClassId) (name : String) (desc : Descriptor) : Prop :=
  ∃ d ∈ (G.decl c).methods.take 65536, d.LooksLike name desc

/-- Whether one of the fields that a class declares first looks so. -/
def ReachesField (G : ClassGraph) (c : ClassId) (name : String) (type : Ty) : Prop :=
  ∃ d ∈ (G.decl c).fields.take 65536, d.LooksLike name type

/-- Every member has a number of its own. -/
structure MembersNumbered (G : ClassGraph) : Prop where
  methods : ∀ c, (G.decl c).methods.length ≤ 65536
  fields : ∀ c, (G.decl c).fields.length ≤ 65536

variable {G : ClassGraph}

/-! ## Numbers -/

theorem toNat_ofNat_of_lt {α : Type} {l : List α} {i : Nat} (hl : l.length ≤ 65536)
    (hi : i < l.length) : (UInt16.ofNat i).toNat = i := by
  rw [UInt16.toNat_ofNat']
  omega

/-- The number of the first member that fits is that of some member. This one fits exactly if one of
the first 65536 does. -/
private theorem numbered {α : Type} {l : List α} {p : α → Bool} {i : Nat}
    (h : l.findIdx? p = some i) :
    ∃ a, l[(UInt16.ofNat i).toNat]? = some a ∧ (p a = true ↔ ∃ b ∈ l.take 65536, p b = true) := by
  obtain ⟨hi, hfits, hbefore⟩ := List.findIdx?_eq_some_iff_getElem.1 h
  have hmod : (UInt16.ofNat i).toNat = i % 65536 := UInt16.toNat_ofNat'
  have hlt : (UInt16.ofNat i).toNat < l.length := by omega
  refine ⟨l[(UInt16.ofNat i).toNat], List.getElem?_eq_getElem hlt, ?_⟩
  constructor
  · intro ha
    -- no member before the first one fits, so its number has not come round
    rcases Nat.lt_or_ge i 65536 with hlow | hhigh
    · have hmem : l[i] ∈ l.take 65536 := List.mem_take_iff_getElem.2 ⟨i, by omega, rfl⟩
      exact ⟨l[i], hmem, hfits⟩
    · exact absurd ha (hbefore _ (by omega))
  · rintro ⟨b, hb, hbfits⟩
    obtain ⟨j, hj, rfl⟩ := List.mem_take_iff_getElem.1 hb
    rcases Nat.lt_or_ge j i with hji | hij
    · exact absurd hbfits (hbefore j hji)
    · have hsame : (UInt16.ofNat i).toNat = i := by omega
      simpa only [hsame] using hfits

/-! ## Methods -/

theorem method_eq {m : MethodRef} {d : MethodDecl}
    (h : (G.decl m.cls).methods[m.index.toNat]? = some d) : G.method m = d := by
  simp [method, h]

theorem getElem?_of_hasMethod {m : MethodRef} (h : G.HasMethod m) :
    (G.decl m.cls).methods[m.index.toNat]? = some (G.method m) := by
  unfold method
  rw [List.getElem?_eq_getElem h]
  rfl

/-- The members declared are at hand under their numbers. -/
theorem hasMethod_ofNat (hG : ∀ c, (G.decl c).methods.length ≤ 65536) {c : ClassId} {i : Nat}
    {d : MethodDecl} (hi : (G.decl c).methods[i]? = some d) : G.HasMethod ⟨c, UInt16.ofNat i⟩ ∧
      d = G.method ⟨c, UInt16.ofNat i⟩ ∧ (UInt16.ofNat i).toNat = i := by
  obtain ⟨hlt, -⟩ := List.getElem?_eq_some_iff.1 hi
  have hNat := toNat_ofNat_of_lt (hG c) hlt
  refine ⟨?_, (method_eq ?_).symm, hNat⟩
  · rwa [HasMethod, hNat]
  · rwa [hNat]

/-- No method is found exactly if none is declared. -/
theorem methodHere?_eq_none_iff {c : ClassId} {name : String} {desc : Descriptor} :
    G.methodHere? c name desc = none ↔ ¬ G.DeclaresMethod c name desc := by
  simp [methodHere?, DeclaresMethod, MethodDecl.LooksLike]

theorem declaresMethod_of_methodHere? {c : ClassId} {name : String} {desc : Descriptor}
    {m : MethodRef} (h : G.methodHere? c name desc = some m) : G.DeclaresMethod c name desc := by
  by_cases hdeclares : G.DeclaresMethod c name desc
  · exact hdeclares
  · rw [methodHere?_eq_none_iff.2 hdeclares] at h
    cases h

/-- A class reaches all its methods if every one has a number of its own. -/
theorem reachesMethod_of_declares (hG : ∀ c, (G.decl c).methods.length ≤ 65536) {c : ClassId}
    {name : String} {desc : Descriptor} (h : G.DeclaresMethod c name desc) :
    G.ReachesMethod c name desc := by
  rwa [ReachesMethod, List.take_of_length_le (hG c)]

theorem cls_of_methodHere? {c : ClassId} {name : String} {desc : Descriptor} {m : MethodRef}
    (h : G.methodHere? c name desc = some m) : m.cls = c := by
  obtain ⟨i, -, rfl⟩ := Option.map_eq_some_iff.1 h
  rfl

/-- The method found is one that the class declares. It looks as asked if such a one is reached, and
only then. -/
theorem hasMethod_of_methodHere? {c : ClassId} {name : String} {desc : Descriptor} {m : MethodRef}
    (h : G.methodHere? c name desc = some m) :
    G.HasMethod m ∧ ((G.method m).LooksLike name desc ↔ G.ReachesMethod c name desc) := by
  unfold methodHere? at h
  obtain ⟨i, hi, rfl⟩ := Option.map_eq_some_iff.1 h
  obtain ⟨d, hget, hd⟩ := numbered hi
  obtain ⟨hlt, -⟩ := List.getElem?_eq_some_iff.1 hget
  refine ⟨hlt, ?_⟩
  rw [method_eq hget]
  simpa [ReachesMethod, MethodDecl.LooksLike] using hd

theorem methodHere?_eq_some (hG : ∀ c, (G.decl c).methods.length ≤ 65536) {c : ClassId}
    {name : String} {desc : Descriptor} {m : MethodRef}
    (h : G.methodHere? c name desc = some m) :
    m.cls = c ∧ G.HasMethod m ∧ (G.method m).name = name ∧ (G.method m).desc = desc := by
  obtain ⟨hhas, hlooks⟩ := hasMethod_of_methodHere? h
  have hreaches := reachesMethod_of_declares hG (declaresMethod_of_methodHere? h)
  exact ⟨cls_of_methodHere? h, hhas, hlooks.2 hreaches⟩

/-- A declared method is found, or one before it that looks the same. -/
theorem exists_methodHere? {m : MethodRef} (hm : G.HasMethod m) :
    ∃ m', G.methodHere? m.cls (G.method m).name (G.method m).desc = some m' := by
  have hmem := List.mem_of_getElem? (getElem?_of_hasMethod hm)
  cases hfound : G.methodHere? m.cls (G.method m).name (G.method m).desc with
  | none => exact absurd ⟨G.method m, hmem, rfl, rfl⟩ (methodHere?_eq_none_iff.1 hfound)
  | some m' => exact ⟨m', rfl⟩

theorem findMethod?_of_methodHere? {c : ClassId} {name : String} {desc : Descriptor}
    {m : MethodRef} (h : G.methodHere? c name desc = some m) :
    G.findMethod? c name desc = some m := by
  unfold findMethod?
  rw [superclasses_eq, List.findSome?_cons, h]
  rfl

/-- What is found for a class is declared by a superclass or by a superinterface. -/
theorem methodHere?_of_findMethod? {c : ClassId} {name : String} {desc : Descriptor}
    {m : MethodRef} (h : G.findMethod? c name desc = some m) :
    G.methodHere? m.cls name desc = some m ∧
      (m.cls ∈ G.superclasses c ∨ m.cls ∈ G.superinterfaces c) := by
  have hinter : ∀ wantBody, G.findInSuperinterfaces? c name desc wantBody = some m →
      G.methodHere? m.cls name desc = some m ∧ m.cls ∈ G.superinterfaces c := by
    intro wantBody hi
    obtain ⟨k, hk, hm⟩ := List.exists_of_findSome?_eq_some hi
    have hhere := (Option.filter_eq_some_iff.1 hm).1
    obtain rfl := cls_of_methodHere? hhere
    exact ⟨hhere, hk⟩
  unfold findMethod? at h
  simp only [Option.orElse_eq_orElse, Option.orElse_eq_or, Option.or_eq_some_iff] at h
  rcases h with hclass | ⟨-, hdefault | ⟨-, hinterface⟩⟩
  · obtain ⟨k, hk, hhere⟩ := List.exists_of_findSome?_eq_some hclass
    obtain rfl := cls_of_methodHere? hhere
    exact ⟨hhere, Or.inl hk⟩
  · obtain ⟨hhere, hk⟩ := hinter true hdefault
    exact ⟨hhere, Or.inr hk⟩
  · obtain ⟨hhere, hk⟩ := hinter false hinterface
    exact ⟨hhere, Or.inr hk⟩

theorem findMethod?_eq_some (hG : ∀ c, (G.decl c).methods.length ≤ 65536) {c : ClassId}
    {name : String} {desc : Descriptor} {m : MethodRef}
    (h : G.findMethod? c name desc = some m) :
    G.HasMethod m ∧ (G.method m).name = name ∧ (G.method m).desc = desc := by
  exact (methodHere?_eq_some hG (methodHere?_of_findMethod? h).1).2

/-! ## Fields -/

theorem field_eq {f : FieldRef} {d : FieldDecl}
    (h : (G.decl f.cls).fields[f.index.toNat]? = some d) : G.field f = d := by
  simp [field, h]

theorem getElem?_of_hasField {f : FieldRef} (h : G.HasField f) :
    (G.decl f.cls).fields[f.index.toNat]? = some (G.field f) := by
  unfold field
  rw [List.getElem?_eq_getElem h]
  rfl

theorem hasField_ofNat (hG : ∀ c, (G.decl c).fields.length ≤ 65536) {c : ClassId} {i : Nat}
    {d : FieldDecl} (hi : (G.decl c).fields[i]? = some d) : G.HasField ⟨c, UInt16.ofNat i⟩ ∧
      d = G.field ⟨c, UInt16.ofNat i⟩ ∧ (UInt16.ofNat i).toNat = i := by
  obtain ⟨hlt, -⟩ := List.getElem?_eq_some_iff.1 hi
  have hNat := toNat_ofNat_of_lt (hG c) hlt
  refine ⟨?_, (field_eq ?_).symm, hNat⟩
  · rwa [HasField, hNat]
  · rwa [hNat]

/-- No field is found exactly if none is declared. -/
theorem fieldHere?_eq_none_iff {c : ClassId} {name : String} {type : Ty} :
    G.fieldHere? c name type = none ↔ ¬ G.DeclaresField c name type := by
  simp [fieldHere?, DeclaresField, FieldDecl.LooksLike]

theorem declaresField_of_fieldHere? {c : ClassId} {name : String} {type : Ty} {f : FieldRef}
    (h : G.fieldHere? c name type = some f) : G.DeclaresField c name type := by
  by_cases hdeclares : G.DeclaresField c name type
  · exact hdeclares
  · rw [fieldHere?_eq_none_iff.2 hdeclares] at h
    cases h

theorem reachesField_of_declares (hG : ∀ c, (G.decl c).fields.length ≤ 65536) {c : ClassId}
    {name : String} {type : Ty} (h : G.DeclaresField c name type) : G.ReachesField c name type := by
  rwa [ReachesField, List.take_of_length_le (hG c)]

theorem cls_of_fieldHere? {c : ClassId} {name : String} {type : Ty} {f : FieldRef}
    (h : G.fieldHere? c name type = some f) : f.cls = c := by
  obtain ⟨i, -, rfl⟩ := Option.map_eq_some_iff.1 h
  rfl

/-- The field found is one that the class declares. It looks as asked if such a one is reached, and
only then. -/
theorem hasField_of_fieldHere? {c : ClassId} {name : String} {type : Ty} {f : FieldRef}
    (h : G.fieldHere? c name type = some f) :
    G.HasField f ∧ ((G.field f).LooksLike name type ↔ G.ReachesField c name type) := by
  unfold fieldHere? at h
  obtain ⟨i, hi, rfl⟩ := Option.map_eq_some_iff.1 h
  obtain ⟨d, hget, hd⟩ := numbered hi
  obtain ⟨hlt, -⟩ := List.getElem?_eq_some_iff.1 hget
  refine ⟨hlt, ?_⟩
  rw [field_eq hget]
  simpa [ReachesField, FieldDecl.LooksLike] using hd

theorem fieldHere?_eq_some (hG : ∀ c, (G.decl c).fields.length ≤ 65536) {c : ClassId}
    {name : String} {type : Ty} {f : FieldRef} (h : G.fieldHere? c name type = some f) :
    f.cls = c ∧ G.HasField f ∧ (G.field f).name = name ∧ (G.field f).type = type := by
  obtain ⟨hhas, hlooks⟩ := hasField_of_fieldHere? h
  have hreaches := reachesField_of_declares hG (declaresField_of_fieldHere? h)
  exact ⟨cls_of_fieldHere? h, hhas, hlooks.2 hreaches⟩

theorem exists_fieldHere? {f : FieldRef} (hf : G.HasField f) :
    ∃ f', G.fieldHere? f.cls (G.field f).name (G.field f).type = some f' := by
  have hmem := List.mem_of_getElem? (getElem?_of_hasField hf)
  cases hfound : G.fieldHere? f.cls (G.field f).name (G.field f).type with
  | none => exact absurd ⟨G.field f, hmem, rfl, rfl⟩ (fieldHere?_eq_none_iff.1 hfound)
  | some f' => exact ⟨f', rfl⟩

theorem findField?_of_fieldHere? {c : ClassId} {name : String} {type : Ty} {f : FieldRef}
    (h : G.fieldHere? c name type = some f) : G.findField? c name type = some f := by
  unfold findField? supertypes
  rw [List.findSome?_cons, h]

/-- What is found for a class is declared by a class above it. -/
theorem fieldHere?_of_findField? {c : ClassId} {name : String} {type : Ty} {f : FieldRef}
    (h : G.findField? c name type = some f) :
    G.fieldHere? f.cls name type = some f ∧ G.isSubclass c f.cls = true := by
  obtain ⟨k, hk, hhere⟩ := List.exists_of_findSome?_eq_some h
  obtain rfl := cls_of_fieldHere? hhere
  exact ⟨hhere, by simpa [isSubclass] using hk⟩

theorem findField?_eq_some (hG : ∀ c, (G.decl c).fields.length ≤ 65536) {c : ClassId}
    {name : String} {type : Ty} {f : FieldRef} (h : G.findField? c name type = some f) :
    G.HasField f ∧ (G.field f).name = name ∧ (G.field f).type = type := by
  exact (fieldHere?_eq_some hG (fieldHere?_of_findField? h).1).2

/-! ## Members found under their own names -/

/-- What is found under the name of a member that the class declares is declared there too. -/
theorem cls_eq_of_named {ref : ClassId} {m m' : MethodRef} (hm : G.HasMethod m) (hcls : m.cls = ref)
    (hfind : G.findMethod? ref (G.method m).name (G.method m).desc = some m') : m'.cls = ref := by
  obtain ⟨m₀, hm₀⟩ := exists_methodHere? hm
  rw [hcls] at hm₀
  rw [findMethod?_of_methodHere? hm₀] at hfind
  obtain rfl : m₀ = m' := Option.some.inj hfind
  exact cls_of_methodHere? hm₀

theorem fieldCls_eq_of_named {ref : ClassId} {f f' : FieldRef} (hf : G.HasField f)
    (hcls : f.cls = ref)
    (hfind : G.findField? ref (G.field f).name (G.field f).type = some f') : f'.cls = ref := by
  obtain ⟨f₀, hf₀⟩ := exists_fieldHere? hf
  rw [hcls] at hf₀
  rw [findField?_of_fieldHere? hf₀] at hfind
  obtain rfl : f₀ = f' := Option.some.inj hfind
  exact cls_of_fieldHere? hf₀

/-! ## Resolution -/

/-- What resolution answers is found under its own name, and static if that is asked for. -/
theorem resolveMethod_eq_some (hG : G.MembersNumbered) {c : ClassId} {name : String}
    {desc : Descriptor} {search : MethodSearch} {m : MethodRef}
    (h : (G.resolveMethod c name desc search).toOption = some m) :
    G.HasMethod m ∧ G.findMethod? c (G.method m).name (G.method m).desc = some m ∧
      ((G.method m).flags.isStatic = true ↔ search = .static) := by
  unfold resolveMethod at h
  split at h
  · cases h
  · split at h
    · cases h
    · split at h
      · cases h
      · split at h
        · cases h
        · next m' hfind =>
          obtain ⟨hhas, hname, hdesc⟩ := findMethod?_eq_some hG.methods hfind
          have hm : m' = m ∧ ((G.method m').flags.isStatic = true ↔ search = .static) := by
            split at h <;> simp_all [Except.toOption]
          obtain ⟨rfl, hstatic⟩ := hm
          rw [hname, hdesc]
          exact ⟨hhas, hfind, hstatic⟩

theorem resolveField_eq_some (hG : ∀ c, (G.decl c).fields.length ≤ 65536) {c : ClassId}
    {name : String} {type : Ty} {isStatic : Bool} {f : FieldRef}
    (h : (G.resolveField c name type isStatic).toOption = some f) :
    G.HasField f ∧ G.findField? c (G.field f).name (G.field f).type = some f ∧
      (G.field f).isStatic = isStatic := by
  unfold resolveField at h
  split at h
  · cases h
  · next f' hfind =>
    obtain ⟨hhas, hname, htype⟩ := findField?_eq_some hG hfind
    split at h
    · next hstatic =>
      obtain rfl : f' = f := Option.some.inj h
      rw [hname, htype]
      exact ⟨hhas, hfind, hstatic⟩
    · cases h

end ClassGraph

end HandleCalculus
