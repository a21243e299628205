import HandleCalculus.Proofs.MemberCache

/-!
# Classes whose members keys tell apart

The key of the member cache names the class, the member's name, the signature and the way of use,
but not the member. Resolution finds one member under a name and a signature, so by name nobody
notices. A member at hand may be another: a class is free to declare two that look the same, and two
constructors look the same as soon as they take the same, since the handle answers the class
whatever they declare. This module says of a class graph when that happens (`MembersDistinct`).

The argument has two halves. What a look-up can be of is found under its own name or declared by the
class that is asked (`UsesMember`), so two members under one key are of one class and clash; and two
that clash come under one key when they are looked up as they are at hand.
-/

set_option autoImplicit false

namespace HandleCalculus

/-! ## Clashes -/

/-- Whether a method of the descriptor can have a handle with so many leading parameters more. -/
def Descriptor.Fits (d : Descriptor) (more : Nat) : Prop :=
  Ty.void ∉ d.params ∧ slotCount d.params + more ≤ maxArgumentSlots

/-- Two methods of a class that come under one key: of one name and descriptor and both static or
neither, or two constructors that take the same, whatever they answer. -/
def MethodDecl.Clashes (instantiable : Bool) (a b : MethodDecl) : Prop :=
  a.name = b.name ∧ a.desc.params = b.desc.params ∧
    (a.desc.ret = b.desc.ret ∧ a.flags.isStatic = b.flags.isStatic ∧
        a.desc.Fits (if a.flags.isStatic then 0 else 1) ∨
      instantiable = true ∧ a.isConstructor = true ∧ a.desc.Fits 0)

/-- Two fields of a class that come under one key. -/
def FieldDecl.Clashes (a b : FieldDecl) : Prop :=
  a.name = b.name ∧ a.type = b.type ∧ a.isStatic = b.isStatic

namespace ClassGraph

/-- Whether instances of the class can be made. -/
def isInstantiable (G : ClassGraph) (c : ClassId) : Bool :=
  !((G.flags c).isAbstract || (G.flags c).isInterface)

/-- No class declares two members that clash. -/
structure MembersDistinct (G : ClassGraph) : Prop where
  methods : ∀ (c : ClassId) (i j : Nat) (a b : MethodDecl), (G.decl c).methods[i]? = some a →
    (G.decl c).methods[j]? = some b → a.Clashes (G.isInstantiable c) b → i = j
  fields : ∀ (c : ClassId) (i j : Nat) (a b : FieldDecl), (G.decl c).fields[i]? = some a →
    (G.decl c).fields[j]? = some b → a.Clashes b → i = j

variable {G : ClassGraph}

/-! ## What a look-up can be of

A use is of a member that its class declares, or of the one that is found for its class under the
member's own name. The way of use says whether it is static and whether it is a constructor. -/

/-- What is known of the method of a reachable use. -/
structure UsesMethod (G : ClassGraph) (kind : RefKind) (ref : ClassId) (m : MethodRef) : Prop where
  has : G.HasMethod m
  named : m.cls = ref ∨
    kind ≠ .newInvokeSpecial ∧ G.findMethod? ref (G.method m).name (G.method m).desc = some m
  isStatic : kind ≠ .newInvokeSpecial → ((G.method m).flags.isStatic = true ↔ kind = .invokeStatic)
  constructor : kind = .newInvokeSpecial →
    G.isInstantiable ref = true ∧ (G.method m).isConstructor = true
  isField : kind.isField = false

/-- What is known of the field of a reachable use. -/
structure UsesField (G : ClassGraph) (kind : RefKind) (ref : ClassId) (f : FieldRef) : Prop where
  has : G.HasField f
  named : f.cls = ref ∨ G.findField? ref (G.field f).name (G.field f).type = some f
  isStatic : (G.field f).isStatic = kind.isStatic
  isField : kind.isField = true

/-- A method found by name is used in the way it is looked for. -/
theorem usesMethod_of_resolveMethod (hG : G.MembersNumbered) {ref : ClassId} {name : String}
    {desc : Descriptor} {search : MethodSearch} {caller : Option ClassId} {kind : RefKind}
    {u : Use} (hkind : kind ≠ .newInvokeSpecial) (hfield : kind.isField = false)
    (hsearch : search = .static ↔ kind = .invokeStatic)
    (h : (G.resolveMethod ref name desc search).toOption.map (fun m =>
      (⟨kind, ref, caller, .method m⟩ : Use)) = some u) :
    ∃ m, u = ⟨kind, ref, caller, .method m⟩ ∧ G.UsesMethod kind ref m := by
  obtain ⟨m, hm, rfl⟩ := Option.map_eq_some_iff.1 h
  obtain ⟨hhas, hfind, hstatic⟩ := resolveMethod_eq_some hG hm
  exact ⟨m, rfl, hhas, .inr ⟨hkind, hfind⟩, fun _ => hstatic.trans hsearch,
    fun hc => absurd hc hkind, hfield⟩

theorem usesMethod_of_instanceUse? (hG : G.MembersNumbered) {ref : ClassId} {name : String}
    {type : Signature} {u : Use} (h : MemberOp.instanceUse? G ref name type = some u) :
    ∃ kind m, u = ⟨kind, ref, none, .method m⟩ ∧ G.UsesMethod kind ref m := by
  unfold MemberOp.instanceUse? at h
  split at h
  · exact ⟨_, usesMethod_of_resolveMethod hG (by decide) rfl (by simp) h⟩
  · exact ⟨_, usesMethod_of_resolveMethod hG (by decide) rfl (by simp) h⟩

theorem usesMethod_of_resolveConstructor (hG : G.MembersNumbered) {ref : ClassId}
    {desc : Descriptor} {m : MethodRef}
    (h : (G.resolveConstructor ref desc).toOption = some m) :
    G.UsesMethod .newInvokeSpecial ref m := by
  unfold resolveConstructor at h
  split at h
  · cases h
  · next hinst =>
    split at h
    · next m' hm =>
      obtain rfl : m' = m := Option.some.inj h
      obtain ⟨hcls, hhas, hname, -⟩ := methodHere?_eq_some hG.methods hm
      refine ⟨hhas, .inl hcls, fun hc => absurd rfl hc, fun _ => ⟨?_, ?_⟩, rfl⟩
      · simp_all [isInstantiable]
      · simp [MethodDecl.isConstructor, hname]
    · cases h

theorem usesField_of_fieldUse? (hG : G.MembersNumbered) {kind : RefKind} {ref : ClassId}
    {name : String} {type : Ty} {u : Use} (hfield : kind.isField = true)
    (h : MemberOp.fieldUse? G kind ref name type = some u) :
    ∃ f, u = ⟨kind, ref, none, .field f⟩ ∧ G.UsesField kind ref f := by
  obtain ⟨f, hf, rfl⟩ := Option.map_eq_some_iff.1 h
  obtain ⟨hhas, hfind, hstatic⟩ := resolveField_eq_some hG.fields hf
  exact ⟨f, rfl, hhas, .inr hfind, hstatic, hfield⟩

/-- What is known of the member of a use. -/
def UsesMember (G : ClassGraph) (u : Use) : Prop :=
  match u.member with
  | .method m => G.UsesMethod u.kind u.ref m
  | .field f => G.UsesField u.kind u.ref f

theorem usesMember_of_reachable (hG : G.MembersNumbered) {u : Use} (hu : u.Reachable G) :
    G.UsesMember u := by
  have method : ∀ {kind ref caller}, (∃ m, u = ⟨kind, ref, caller, .method m⟩ ∧
      G.UsesMethod kind ref m) → G.UsesMember u := by
    rintro kind ref caller ⟨m, rfl, hm⟩
    exact hm
  have field : ∀ {kind ref}, (∃ f, u = ⟨kind, ref, none, .field f⟩ ∧
      G.UsesField kind ref f) → G.UsesMember u := by
    rintro kind ref ⟨f, rfl, hf⟩
    exact hf
  obtain ⟨op, hop, huse⟩ := hu
  -- a search finds by name and checks the way of use; a member at hand is declared by its class
  cases op with
  | findStatic ref name type =>
    exact method (usesMethod_of_resolveMethod hG (by decide) rfl (by simp) huse)
  | findVirtual ref name type =>
    obtain ⟨kind, hm⟩ := usesMethod_of_instanceUse? hG huse
    exact method hm
  | bind o name type =>
    obtain ⟨kind, hm⟩ := usesMethod_of_instanceUse? hG huse
    exact method hm
  | findSpecial ref name type caller =>
    exact method (usesMethod_of_resolveMethod hG (by decide) rfl (by simp) huse)
  | findConstructor ref type =>
    simp only [MemberOp.use?] at huse
    split at huse
    · cases huse
    · obtain ⟨m, hm, rfl⟩ := Option.map_eq_some_iff.1 huse
      exact usesMethod_of_resolveConstructor hG hm
  | findGetter ref name type => exact field (usesField_of_fieldUse? hG rfl huse)
  | findSetter ref name type => exact field (usesField_of_fieldUse? hG rfl huse)
  | findStaticGetter ref name type => exact field (usesField_of_fieldUse? hG rfl huse)
  | findStaticSetter ref name type => exact field (usesField_of_fieldUse? hG rfl huse)
  | unreflect m =>
    obtain rfl := Option.some.inj huse
    refine ⟨hop, .inl rfl, fun _ => ?_, fun hc => ?_, ?_⟩ <;>
      cases hs : (G.method m).flags.isStatic <;> cases hi : G.isInterface m.cls <;>
        simp_all [RefKind.isField]
  | unreflectSpecial m caller =>
    simp only [MemberOp.use?] at huse
    split at huse
    · cases huse
    · next hs =>
      obtain rfl := Option.some.inj huse
      exact ⟨hop, .inl rfl, fun _ => by simp [hs], fun hc => (by cases hc), rfl⟩
  | unreflectConstructor m =>
    simp only [MemberOp.use?] at huse
    split at huse
    · cases huse
    · next hinst =>
      split at huse
      · cases huse
      · next hinit =>
        obtain rfl := Option.some.inj huse
        exact ⟨hop, .inl rfl, fun hc => absurd rfl hc,
          fun _ => ⟨by simpa [isInstantiable] using hinst, by simpa using hinit⟩, rfl⟩
  | unreflectGetter f =>
    obtain rfl := Option.some.inj huse
    refine ⟨hop, .inl rfl, ?_, ?_⟩ <;> cases (G.field f).isStatic <;>
      simp [RefKind.isField, RefKind.isStatic]
  | unreflectSetter f =>
    obtain rfl := Option.some.inj huse
    refine ⟨hop, .inl rfl, ?_, ?_⟩ <;> cases (G.field f).isStatic <;>
      simp [RefKind.isField, RefKind.isStatic]

end ClassGraph

/-! ## What a key says

The signature of a handle on a method is the declared one with the receiver in front; that of a
handle on a constructor answers the class instead. -/

theorem Ty.void_notMem_cls (c : ClassId) : Ty.void ∉ [Ty.cls c] := by simp

theorem slotCount_cls_le (c : ClassId) : slotCount [.cls c] ≤ maxArgumentSlots :=
  Nat.le_of_ble_eq_true rfl

namespace Use

/-- The receiver that a handle on a method takes. -/
def receiver (kind : RefKind) (ref : ClassId) (caller : Option ClassId) : List Ty :=
  match kind with
  | .invokeStatic | .newInvokeSpecial => []
  | .invokeSpecial => [.cls (caller.getD ref)]
  | _ => [.cls ref]

/-- What a handle on a method answers. -/
def result (kind : RefKind) (ref : ClassId) (d : Descriptor) : Ty :=
  if kind = .newInvokeSpecial then .cls ref else d.ret

variable {G : ClassGraph} {kind : RefKind} {ref : ClassId} {caller : Option ClassId}

theorem slotCount_receiver (ts : List Ty) : slotCount (receiver kind ref caller ++ ts) =
    slotCount ts + (receiver kind ref caller).length := by
  cases kind <;> simp [receiver, slotCount, Ty.slots, Nat.add_comm]

theorem void_notMem_receiver : Ty.void ∉ receiver kind ref caller := by
  cases kind <;> simp [receiver]

theorem type_method_eq_ok_iff {m : MethodRef} {t : Signature} :
    (⟨kind, ref, caller, .method m⟩ : Use).type G = .ok t ↔
      t.params = receiver kind ref caller ++ (G.method m).desc.params ∧
        t.ret = result kind ref (G.method m).desc := by
  have hinsert : ∀ (s : Signature) (ts : List Ty), s.insertParams 0 ts = .ok t ↔
      t.ret = s.ret ∧ t.params = ts ++ s.params := by
    intro s ts
    rw [Signature.insertParams_eq_ok_iff]
    simp
  show (Signature.ofDescriptor (G.method m).desc).bind (Lookup.methodType kind ref caller) = _ ↔ _
  generalize (G.method m).desc = d
  constructor
  · intro h
    cases hdecl : Signature.ofDescriptor d with
    | error e =>
      rw [hdecl] at h
      cases h
    | ok s =>
      rw [hdecl] at h
      have h : Lookup.methodType kind ref caller s = .ok t := h
      obtain ⟨hret, hparams⟩ := Signature.of_eq_ok_iff.1 hdecl
      rw [← hparams, result, ← hret]
      cases kind with
      | invokeStatic =>
        obtain rfl := Except.ok.inj h
        exact ⟨rfl, rfl⟩
      | newInvokeSpecial => exact (Signature.of_eq_ok_iff.1 h).symm
      | _ => exact ((hinsert _ _).1 h).symm
  · rintro ⟨hparams, hret⟩
    -- what `t` carries is enough to make the declared signature, which `t` came from
    have hvoid : Ty.void ∉ d.params := fun hv =>
      t.noVoid (hparams ▸ List.mem_append_right _ hv)
    have hslots : slotCount d.params ≤ maxArgumentSlots := by
      have ht := t.slots_le
      rw [hparams, slotCount_receiver] at ht
      omega
    rw [Signature.ofDescriptor, Signature.of, dif_neg hvoid, dif_pos hslots]
    show Lookup.methodType kind ref caller ⟨d.params, d.ret, hvoid, hslots⟩ = .ok t
    cases kind with
    | invokeStatic => exact congrArg Except.ok (Signature.ext' hparams hret).symm
    | newInvokeSpecial => exact Signature.of_eq_ok_iff.2 ⟨hret, hparams⟩
    | _ => exact (hinsert _ _).2 ⟨hret, hparams⟩

/-- Handles exist exactly on the methods that leave room for the receiver. -/
theorem fits_of_type {m : MethodRef} {t : Signature}
    (h : (⟨kind, ref, caller, .method m⟩ : Use).type G = .ok t) :
    (G.method m).desc.Fits (receiver kind ref caller).length := by
  obtain ⟨hparams, -⟩ := type_method_eq_ok_iff.1 h
  have hslots := t.slots_le
  rw [hparams, slotCount_receiver] at hslots
  exact ⟨fun hv => t.noVoid (hparams ▸ List.mem_append_right _ hv), hslots⟩

theorem exists_type_of_fits {d : Descriptor} (h : d.Fits (receiver kind ref caller).length) :
    ∃ t : Signature, t.params = receiver kind ref caller ++ d.params ∧
      t.ret = result kind ref d := by
  have hvoid : Ty.void ∉ receiver kind ref caller ++ d.params := by
    rw [List.mem_append]
    rintro (hv | hv)
    · exact void_notMem_receiver hv
    · exact h.1 hv
  exact ⟨⟨_, result kind ref d, hvoid, by rw [slotCount_receiver]; exact h.2⟩, rfl, rfl⟩

/-- A handle on a method takes what the method is declared to take, after the receiver. -/
theorem params_eq_of_type {caller' : Option ClassId} {m m' : MethodRef} {t : Signature}
    (h : (⟨kind, ref, caller, .method m⟩ : Use).type G = .ok t)
    (h' : (⟨kind, ref, caller', .method m'⟩ : Use).type G = .ok t) :
    (G.method m).desc.params = (G.method m').desc.params := by
  have hparams := (type_method_eq_ok_iff.1 h).1
  have hparams' := (type_method_eq_ok_iff.1 h').1
  have hlength : (receiver kind ref caller).length = (receiver kind ref caller').length := by
    cases kind <;> rfl
  exact (List.append_inj (hparams.symm.trans hparams') hlength).2

/-- Unless it makes instances, it also answers what the method does. -/
theorem desc_eq_of_type {caller' : Option ClassId} {m m' : MethodRef} {t : Signature}
    (hkind : kind ≠ .newInvokeSpecial) (h : (⟨kind, ref, caller, .method m⟩ : Use).type G = .ok t)
    (h' : (⟨kind, ref, caller', .method m'⟩ : Use).type G = .ok t) :
    (G.method m).desc = (G.method m').desc := by
  have hparams := params_eq_of_type h h'
  have hret := (type_method_eq_ok_iff.1 h).2.symm.trans (type_method_eq_ok_iff.1 h').2
  rw [result, if_neg hkind, result, if_neg hkind] at hret
  cases hd : (G.method m).desc
  cases hd' : (G.method m').desc
  simp_all

/-- A handle on a field answers or takes a value of the field's type. -/
theorem fieldType_eq_of_type {caller' : Option ClassId} {f g : FieldRef} {t : Signature}
    (hkind : kind.isField = true) (hf : (⟨kind, ref, caller, .field f⟩ : Use).type G = .ok t)
    (hg : (⟨kind, ref, caller', .field g⟩ : Use).type G = .ok t) :
    (G.field f).type = (G.field g).type := by
  have hf : Lookup.fieldHandleType kind ref (G.field f).type = .ok t := hf
  have hg : Lookup.fieldHandleType kind ref (G.field g).type = .ok t := hg
  cases kind <;> first
    | exact absurd hkind (by decide)
    | obtain ⟨hr, hp⟩ := Signature.of_eq_ok_iff.1 hf
      obtain ⟨hr', hp'⟩ := Signature.of_eq_ok_iff.1 hg
      simp_all

end Use

namespace ClassGraph

variable {G : ClassGraph}

/-! ## Keys determine members exactly if no two clash -/

theorem MembersDistinct.method_eq (hD : G.MembersDistinct) {m m' : MethodRef} (hm : G.HasMethod m)
    (hm' : G.HasMethod m') (hcls : m.cls = m'.cls)
    (h : (G.method m).Clashes (G.isInstantiable m.cls) (G.method m')) : m = m' := by
  have hi := getElem?_of_hasMethod hm
  have hj := getElem?_of_hasMethod hm'
  rw [← hcls] at hj
  have hindex := UInt16.toNat_inj.1 (hD.methods m.cls _ _ _ _ hi hj h)
  obtain ⟨c, i⟩ := m
  obtain ⟨c', j⟩ := m'
  obtain rfl : c = c' := hcls
  exact congrArg _ hindex

theorem MembersDistinct.field_eq (hD : G.MembersDistinct) {f f' : FieldRef} (hf : G.HasField f)
    (hf' : G.HasField f') (hcls : f.cls = f'.cls) (h : (G.field f).Clashes (G.field f')) :
    f = f' := by
  have hi := getElem?_of_hasField hf
  have hj := getElem?_of_hasField hf'
  rw [← hcls] at hj
  have hindex := UInt16.toNat_inj.1 (hD.fields f.cls _ _ _ _ hi hj h)
  obtain ⟨c, i⟩ := f
  obtain ⟨c', j⟩ := f'
  obtain rfl : c = c' := hcls
  exact congrArg _ hindex

/-- Two methods used under one key are declared by one class, or found under one name and so the
same. -/
theorem UsesMethod.cls_eq_or_eq {kind : RefKind} {ref : ClassId} {m m' : MethodRef}
    (hm : G.UsesMethod kind ref m) (hm' : G.UsesMethod kind ref m')
    (hname : (G.method m).name = (G.method m').name)
    (hdesc : kind ≠ .newInvokeSpecial → (G.method m).desc = (G.method m').desc) :
    m.cls = ref ∧ m'.cls = ref ∨ m = m' := by
  rcases hm.named with hcls | ⟨hkind, hfind⟩
  · rcases hm'.named with hcls' | ⟨hkind, hfind'⟩
    · exact .inl ⟨hcls, hcls'⟩
    · rw [← hname, ← hdesc hkind] at hfind'
      exact .inl ⟨hcls, cls_eq_of_named hm.has hcls hfind'⟩
  · rcases hm'.named with hcls' | ⟨-, hfind'⟩
    · rw [hname, hdesc hkind] at hfind
      exact .inl ⟨cls_eq_of_named hm'.has hcls' hfind, hcls'⟩
    · rw [← hname, ← hdesc hkind, hfind] at hfind'
      exact .inr (Option.some.inj hfind')

theorem UsesField.cls_eq_or_eq {kind : RefKind} {ref : ClassId} {f f' : FieldRef}
    (hf : G.UsesField kind ref f) (hf' : G.UsesField kind ref f')
    (hname : (G.field f).name = (G.field f').name)
    (htype : (G.field f).type = (G.field f').type) :
    f.cls = ref ∧ f'.cls = ref ∨ f = f' := by
  rcases hf.named with hcls | hfind
  · rcases hf'.named with hcls' | hfind'
    · exact .inl ⟨hcls, hcls'⟩
    · rw [← hname, ← htype] at hfind'
      exact .inl ⟨hcls, fieldCls_eq_of_named hf.has hcls hfind'⟩
  · rcases hf'.named with hcls' | hfind'
    · rw [hname, htype] at hfind
      exact .inl ⟨fieldCls_eq_of_named hf'.has hcls' hfind, hcls'⟩
    · rw [← hname, ← htype, hfind] at hfind'
      exact .inr (Option.some.inj hfind')

theorem MembersDistinct.method_eq_of_type (hD : G.MembersDistinct) {kind : RefKind}
    {ref : ClassId} {caller caller' : Option ClassId} {m m' : MethodRef} {t : Signature}
    (hm : G.UsesMethod kind ref m) (hm' : G.UsesMethod kind ref m')
    (hname : (G.method m).name = (G.method m').name)
    (ht : (⟨kind, ref, caller, .method m⟩ : Use).type G = .ok t)
    (ht' : (⟨kind, ref, caller', .method m'⟩ : Use).type G = .ok t) : m = m' := by
  have hfits := Use.fits_of_type ht
  have hdescParams := Use.params_eq_of_type ht ht'
  have hdesc : kind ≠ .newInvokeSpecial → (G.method m).desc = (G.method m').desc :=
    fun hkind => Use.desc_eq_of_type hkind ht ht'
  have hdescRet : kind ≠ .newInvokeSpecial → (G.method m).desc.ret = (G.method m').desc.ret :=
    fun hkind => congrArg Descriptor.ret (hdesc hkind)
  -- declared by one class the two clash; found by one name they are the same
  rcases hm.cls_eq_or_eq hm' hname hdesc with ⟨hcls, hcls'⟩ | heq
  · refine hD.method_eq hm.has hm'.has (hcls.trans hcls'.symm) ⟨hname, hdescParams, ?_⟩
    by_cases hkind : kind = .newInvokeSpecial
    · obtain ⟨hinst, hinit⟩ := hm.constructor hkind
      subst hkind
      exact .inr ⟨hcls ▸ hinst, hinit, hfits⟩
    · refine .inl ⟨hdescRet hkind, ?_, ?_⟩
      · exact Bool.eq_iff_iff.2 ((hm.isStatic hkind).trans (hm'.isStatic hkind).symm)
      · have hstatic := hm.isStatic hkind
        have hfield := hm.isField
        cases kind <;> simp_all [Use.receiver, RefKind.isField]
  · exact heq

theorem MembersDistinct.field_eq_of_type (hD : G.MembersDistinct) {kind : RefKind}
    {ref : ClassId} {caller caller' : Option ClassId} {f f' : FieldRef} {t : Signature}
    (hf : G.UsesField kind ref f) (hf' : G.UsesField kind ref f')
    (hname : (G.field f).name = (G.field f').name)
    (ht : (⟨kind, ref, caller, .field f⟩ : Use).type G = .ok t)
    (ht' : (⟨kind, ref, caller', .field f'⟩ : Use).type G = .ok t) : f = f' := by
  have htype := Use.fieldType_eq_of_type hf.isField ht ht'
  rcases hf.cls_eq_or_eq hf' hname htype with ⟨hcls, hcls'⟩ | heq
  · exact hD.field_eq hf.has hf'.has (hcls.trans hcls'.symm)
      ⟨hname, htype, hf.isStatic.trans hf'.isStatic.symm⟩
  · exact heq

/-- Without clashes, a key says which member it is for. -/
theorem keysDetermineMembers_of_membersDistinct (hG : G.MembersNumbered)
    (hD : G.MembersDistinct) : G.KeysDetermineMembers := by
  rintro ⟨kind, ref, caller, m⟩ ⟨kind', ref', caller', m'⟩ hu hv k hk hk'
  have hm := usesMember_of_reachable hG hu
  have hm' := usesMember_of_reachable hG hv
  obtain ⟨ht, hr, hn, hkind⟩ := Use.key?_eq_some_iff.1 hk
  obtain ⟨ht', hr', hn', hkind'⟩ := Use.key?_eq_some_iff.1 hk'
  obtain rfl : kind = kind' := hkind.symm.trans hkind'
  obtain rfl : ref = ref' := hr.symm.trans hr'
  have hname := hn.symm.trans hn'
  match m, m' with
  | .method m, .method m' =>
    exact congrArg MemberRef.method (hD.method_eq_of_type hm hm' hname ht ht')
  | .field f, .field f' =>
    exact congrArg MemberRef.field (hD.field_eq_of_type hm hm' hname ht ht')
  | .method m, .field f => exact absurd (hm.isField.symm.trans hm'.isField) (by decide)
  | .field f, .method m => exact absurd (hm.isField.symm.trans hm'.isField) (by decide)

/-- Methods that clash share a way of being used when they are at hand. -/
theorem exists_reachable_of_clashes {c : ClassId} {i j : UInt16} (hm : G.HasMethod ⟨c, i⟩)
    (hm' : G.HasMethod ⟨c, j⟩)
    (h : (G.method ⟨c, i⟩).Clashes (G.isInstantiable c) (G.method ⟨c, j⟩)) :
    ∃ kind, (⟨kind, c, none, .method ⟨c, i⟩⟩ : Use).Reachable G ∧
      (⟨kind, c, none, .method ⟨c, j⟩⟩ : Use).Reachable G ∧
      (G.method ⟨c, i⟩).desc.Fits (Use.receiver kind c none).length ∧
      Use.result kind c (G.method ⟨c, i⟩).desc = Use.result kind c (G.method ⟨c, j⟩).desc := by
  obtain ⟨hname, -, ⟨hret, hstatic, hfits⟩ | ⟨hinst, hinit, hfits⟩⟩ := h
  · -- called alike: `unreflect` goes by the flags and the class only
    refine ⟨_, ⟨.unreflect _, hm, rfl⟩, ⟨.unreflect _, hm', ?_⟩, ?_, ?_⟩
    · simp only [MemberOp.use?, hstatic]
    · cases hs : (G.method ⟨c, i⟩).flags.isStatic <;> cases hi : G.isInterface c <;>
        simpa [Use.receiver, hs] using hfits
    · rw [Use.result, Use.result, hret]
  · -- constructors: what they are declared to answer does not count
    have hinst' : ((G.flags c).isAbstract || (G.flags c).isInterface) = false := by
      simpa [isInstantiable] using hinst
    have hinit' : (G.method ⟨c, j⟩).isConstructor = true := by
      simpa [MethodDecl.isConstructor, ← hname] using hinit
    refine ⟨.newInvokeSpecial, ⟨.unreflectConstructor _, hm, ?_⟩,
      ⟨.unreflectConstructor _, hm', ?_⟩, hfits, rfl⟩
    · simp [MemberOp.use?, hinst', hinit]
    · simp [MemberOp.use?, hinst', hinit']

theorem KeysDetermineMembers.method_eq (hK : G.KeysDetermineMembers) {c : ClassId} {i j : UInt16}
    (hm : G.HasMethod ⟨c, i⟩) (hm' : G.HasMethod ⟨c, j⟩)
    (h : (G.method ⟨c, i⟩).Clashes (G.isInstantiable c) (G.method ⟨c, j⟩)) : i = j := by
  obtain ⟨kind, hu, hv, hfits, hresult⟩ := exists_reachable_of_clashes hm hm' h
  obtain ⟨t, hparams, hret⟩ := Use.exists_type_of_fits hfits
  have ht := Use.type_method_eq_ok_iff.2 ⟨hparams, hret⟩
  have ht' := Use.type_method_eq_ok_iff.2 ⟨h.2.1 ▸ hparams, hret.trans hresult⟩
  have hkey : (⟨kind, c, none, .method ⟨c, i⟩⟩ : Use).key? G =
      some ⟨c, (G.method ⟨c, i⟩).name, t, kind⟩ := Use.key?_eq_some_iff.2 ⟨ht, rfl, rfl, rfl⟩
  have hkey' : (⟨kind, c, none, .method ⟨c, j⟩⟩ : Use).key? G =
      some ⟨c, (G.method ⟨c, i⟩).name, t, kind⟩ := Use.key?_eq_some_iff.2 ⟨ht', rfl, h.1, rfl⟩
  have heq := hK _ _ hu hv _ hkey hkey'
  simpa using heq

theorem KeysDetermineMembers.field_eq (hK : G.KeysDetermineMembers) {c : ClassId} {i j : UInt16}
    (hf : G.HasField ⟨c, i⟩) (hf' : G.HasField ⟨c, j⟩)
    (h : (G.field ⟨c, i⟩).Clashes (G.field ⟨c, j⟩)) : i = j := by
  obtain ⟨hname, htype, hstatic⟩ := h
  let kind : RefKind := if (G.field ⟨c, i⟩).isStatic then .getStatic else .getField
  have hu : (⟨kind, c, none, .field ⟨c, i⟩⟩ : Use).Reachable G := ⟨.unreflectGetter _, hf, rfl⟩
  have hv : (⟨kind, c, none, .field ⟨c, j⟩⟩ : Use).Reachable G :=
    ⟨.unreflectGetter _, hf', by simp only [MemberOp.use?, ← hstatic]; rfl⟩
  obtain ⟨t, ht⟩ : ∃ t, Lookup.fieldHandleType kind c (G.field ⟨c, i⟩).type = .ok t := by
    cases hs : (G.field ⟨c, i⟩).isStatic <;> simp only [kind, hs] <;>
      exact ⟨⟨_, _, by simp, by simp [slotCount, Ty.slots, maxArgumentSlots]⟩, rfl⟩
  have ht' : Lookup.fieldHandleType kind c (G.field ⟨c, j⟩).type = .ok t := htype ▸ ht
  have hkey : (⟨kind, c, none, .field ⟨c, i⟩⟩ : Use).key? G =
      some ⟨c, (G.field ⟨c, i⟩).name, t, kind⟩ := Use.key?_eq_some_iff.2 ⟨ht, rfl, rfl, rfl⟩
  have hkey' : (⟨kind, c, none, .field ⟨c, j⟩⟩ : Use).key? G =
      some ⟨c, (G.field ⟨c, i⟩).name, t, kind⟩ := Use.key?_eq_some_iff.2 ⟨ht', rfl, hname, rfl⟩
  have heq := hK _ _ hu hv _ hkey hkey'
  simpa using heq

/-- Members that clash come under one key when they are looked up as they are at hand. -/
theorem membersDistinct_of_keysDetermineMembers (hG : G.MembersNumbered)
    (hK : G.KeysDetermineMembers) : G.MembersDistinct where
  methods c i j a b hi hj h := by
    obtain ⟨hm, rfl, hiNat⟩ := hasMethod_ofNat hG.methods hi
    obtain ⟨hm', rfl, hjNat⟩ := hasMethod_ofNat hG.methods hj
    rw [← hiNat, ← hjNat, hK.method_eq hm hm' h]
  fields c i j a b hi hj h := by
    obtain ⟨hf, rfl, hiNat⟩ := hasField_ofNat hG.fields hi
    obtain ⟨hf', rfl, hjNat⟩ := hasField_ofNat hG.fields hj
    rw [← hiNat, ← hjNat, hK.field_eq hf hf' h]

end ClassGraph

/-- Whether the member cache can be noticed is a matter of the members' keys: of whether a class
declares two members that clash. -/
theorem Classes.cacheInvisible_iff_membersDistinct (C : Classes) :
    (C.CacheInvisible ↔ C.graph.KeysDetermineMembers) ∧
      (C.graph.MembersNumbered → (C.graph.KeysDetermineMembers ↔ C.graph.MembersDistinct)) :=
  ⟨⟨keysDetermineMembers_of_cacheInvisible, cacheInvisible_of_keysDetermineMembers⟩,
    fun hG => ⟨ClassGraph.membersDistinct_of_keysDetermineMembers hG,
      ClassGraph.keysDetermineMembers_of_membersDistinct hG⟩⟩

/-- The class `p/D` with two static methods `f` that take nothing and answer an `int`. -/
def twins : ClassGraph where
  defined := #[⟨"p/D", ⟨0x0001⟩, .bootstrap, some ClassId.object, [],
    [.withBody "f" ⟨[], .prim .int⟩ ⟨0x0009⟩, .withBody "f" ⟨[], .prim .int⟩ ⟨0x0009⟩], []⟩]
  older := by
    rintro (_ | i) d hd s hs
    · obtain rfl := Option.some.inj hd
      obtain rfl : s = ClassId.object := by simpa [ClassDecl.supers] using hs
      decide
    · simp at hd

/-- Every class of the graph declares two members at most. -/
private theorem twins_small (c : ClassId) :
    (twins.decl c).methods.length ≤ 2 ∧ (twins.decl c).fields.length ≤ 2 :=
  ClassGraph.forall_decl (p := fun d => d.methods.length ≤ 2 ∧ d.fields.length ≤ 2) (by decide)
    (by decide) (by decide) c

theorem twins_numbered : twins.MembersNumbered where
  methods c := Nat.le_trans (twins_small c).1 (by decide)
  fields c := Nat.le_trans (twins_small c).2 (by decide)

/-- A class is free to declare twins, and the second of them cannot be reached through the cache
once the first has been looked up. -/
theorem Classes.not_cacheInvisible_of_twins :
    twins.MembersNumbered ∧ ¬ (⟨twins, .initial⟩ : Classes).CacheInvisible := by
  refine ⟨twins_numbered, fun hC => ?_⟩
  obtain ⟨hkeys, hdistinct⟩ := cacheInvisible_iff_membersDistinct ⟨twins, .initial⟩
  have hD := (hdistinct twins_numbered).1 (hkeys.1 hC)
  have hclash := hD.methods bootstrapCount 0 1 _ _ rfl rfl
    ⟨rfl, rfl, .inl ⟨rfl, rfl, by simp [MethodDecl.withBody], by decide⟩⟩
  exact absurd hclash (by decide)

end HandleCalculus
