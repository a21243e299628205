import HandleCalculus.Proofs.LinkTyping

/-!
# Look-ups make typed handles

A handle on a member has the signature that the member's declaration gives it, and its node is of
that type. What the member cache answers may be on another member than the one looked up, but on one
that looks the same, so it is typed too.

The one place where a lookup changes the signature of a handle by itself is the receiver of a
protected member. A handle on a method takes any receiver. A handle on a field does not, and there
the lookup's own class is below the one that declares the field, or else access is refused.
-/

set_option autoImplicit false

namespace HandleCalculus

variable {G : ClassGraph} {W : Extent}

/-! ## Handles on members -/

/-- The node of a handle on a method that is called on a receiver takes any reference as one. -/
theorem Lookup.typed_methodNode {kind : RefKind} (hkind : kind ≠ .invokeStatic)
    (hnew : kind ≠ .newInvokeSpecial) (ref : ClassId) (m : MethodRef) {r : Ty}
    (hr : r.isReference = true) :
    Node.Typed G W (methodNode G kind ref m) ⟨r :: (G.method m).desc.params, (G.method m).desc.ret⟩ ∧
      (methodNode G kind ref m).receives = true := by
  unfold methodNode
  split
  · exact absurd rfl hkind
  · exact absurd rfl hnew
  · exact ⟨.special hr, rfl⟩
  · split
    · exact ⟨.special hr, rfl⟩
    · exact ⟨.virtual hr, rfl⟩

namespace Use

/-- A handle on a method that is called on a receiver, with another class of receivers. -/
theorem typed_receiver {kind : RefKind} {ref : ClassId} {caller : Option ClassId} {m : MethodRef}
    (hkind : kind ≠ .invokeStatic) (hnew : kind ≠ .newInvokeSpecial) {t t' : Signature}
    (ht : (⟨kind, ref, caller, .method m⟩ : Use).type G = .ok t) {r : Ty} (hr : r.isReference = true)
    (hparams : t'.params = r :: t.params.tail) (hret : t'.ret = t.ret) (s s' : Stamp) :
    (⟨s', t', ((⟨kind, ref, caller, .method m⟩ : Use).handle G t s).node⟩ : Handle).Typed G W := by
  obtain ⟨hp, hr'⟩ := type_method_eq_ok_iff.1 ht
  have hreceiver : ∃ c, receiver kind ref caller = [.cls c] := by
    cases kind <;> first
      | exact absurd rfl hkind
      | exact absurd rfl hnew
      | exact ⟨_, rfl⟩
  obtain ⟨c, hc⟩ := hreceiver
  rw [hc] at hp
  have hresult : t.ret = (G.method m).desc.ret := by
    rw [hr', result, if_neg hnew]
  have hplain : ∀ {q : Ty}, q.isReference = true → ∀ {t' : Signature} {s' : Stamp},
      t'.params = q :: t.params.tail → t'.ret = t.ret →
      (⟨s', t', Lookup.methodNode G kind ref m⟩ : Handle).Typed G W := by
    intro q hq t' s' hparams hret
    refine .of_node (Lookup.typed_methodNode hkind hnew ref m hq).1 ?_ (hret.trans hresult)
    rw [hparams, hp]
    rfl
  unfold handle
  split
  · next array harray =>
    -- a variable-arity handle: the plain one inside keeps the signature that was looked up
    have hself : t.params = .cls c :: t.params.tail := by
      rw [hp]
      rfl
    have hinner : (⟨s, t, Lookup.methodNode G kind ref m⟩ : Handle).Typed G W :=
      hplain (q := .cls c) rfl hself rfl
    have hreceives : (Lookup.methodNode G kind ref m).receives = true :=
      (Lookup.typed_methodNode (W := W) hkind hnew ref m hr).2
    have hnode : Node.Typed G W (.varargs ⟨s, t, Lookup.methodNode G kind ref m⟩ array (s + 2))
        ⟨r :: t.params.tail, t.ret⟩ := .varargsOf hinner hreceives hself hr
    exact .of_node hnode hparams hret
  · exact hplain hr hparams hret

/-- A handle on a field, on receivers of a class below the one that declares the field. -/
theorem typed_field {kind : RefKind} {ref c : ClassId} {f : FieldRef}
    (hf : G.UsesField kind ref f) (hc : kind.isStatic = false → G.isSubclass c f.cls = true)
    {t : Signature} (ht : Lookup.fieldHandleType kind c (G.field f).type = .ok t) (s : Stamp) :
    (⟨s, t, (⟨kind, ref, none, .field f⟩ : Use).node G⟩ : Handle).Typed G W := by
  have hd := ClassGraph.getElem?_of_hasField hf.has
  have hs := hf.isStatic
  have hsub : G.isSubclass c f.cls = true → G.isAssignable (.cls c) (.cls f.cls) = true := id
  have hfield := hf.isField
  cases kind with
  | getStatic =>
    obtain ⟨hret, hparams⟩ := Signature.of_eq_ok_iff.1 ht
    exact .of_node (.getStatic hd hs) hparams hret
  | putStatic =>
    obtain ⟨hret, hparams⟩ := Signature.of_eq_ok_iff.1 ht
    exact .of_node (.setStatic hd hs) hparams hret
  | getField =>
    obtain ⟨hret, hparams⟩ := Signature.of_eq_ok_iff.1 ht
    refine .mk (.getInstance hd hs) ⟨?_, ?_⟩
    · show List.Forall₂ _ _ t.params
      rw [hparams]
      exact .cons (hsub (hc rfl)) .nil
    · show G.isAssignable _ t.ret = true
      rw [hret]
      exact G.isAssignable_refl _
  | putField =>
    obtain ⟨hret, hparams⟩ := Signature.of_eq_ok_iff.1 ht
    refine .mk (.setInstance hd hs) ⟨?_, ?_⟩
    · show List.Forall₂ _ _ t.params
      rw [hparams]
      exact .cons (hsub (hc rfl)) (.cons (G.isAssignable_refl _) .nil)
    · show G.isAssignable _ t.ret = true
      rw [hret]
      exact G.isAssignable_refl _
  | invokeVirtual => cases hfield
  | invokeStatic => cases hfield
  | invokeSpecial => cases hfield
  | newInvokeSpecial => cases hfield
  | invokeInterface => cases hfield

/-- The class that declares a field is above every class that the field is found for. -/
theorem isSubclass_of_usesField {kind : RefKind} {ref : ClassId} {f : FieldRef}
    (hf : G.UsesField kind ref f) : G.isSubclass ref f.cls = true := by
  rcases hf.named with hcls | hfind
  · rw [hcls]
    exact G.isAssignable_refl (.cls ref)
  · exact (ClassGraph.fieldHere?_of_findField? hfind).2

/-- A handle on a member is typed. -/
theorem typed_handle {u : Use} (hu : G.UsesMember u) {t : Signature} (ht : u.type G = .ok t)
    (s : Stamp) : (u.handle G t s).Typed G W := by
  obtain ⟨kind, ref, caller, member⟩ := u
  cases member with
  | field f => exact typed_field hu (fun _ => isSubclass_of_usesField hu) ht s
  | method m =>
    have hm : G.UsesMethod kind ref m := hu
    obtain ⟨hp, hr⟩ := type_method_eq_ok_iff.1 ht
    by_cases hreceiver : kind ≠ .invokeStatic ∧ kind ≠ .newInvokeSpecial
    · obtain ⟨hkind, hnew⟩ := hreceiver
      have hparams : ∃ r, r.isReference = true ∧ t.params = r :: t.params.tail := by
        rw [hp]
        cases kind <;> first
          | exact absurd rfl hkind
          | exact absurd rfl hnew
          | exact ⟨_, rfl, rfl⟩
      obtain ⟨r, hr, hparams⟩ := hparams
      -- the handle as it is made is the case where the class of receivers stays
      have hself := typed_receiver (W := W) hkind hnew ht hr hparams rfl s
        ((⟨kind, ref, caller, .method m⟩ : Use).handle G t s).stamp
      have htype := type_handle (G := G) (u := ⟨kind, ref, caller, .method m⟩) t s
      generalize ((⟨kind, ref, caller, .method m⟩ : Use).handle G t s) = h at hself htype ⊢
      obtain ⟨stamp, type, node⟩ := h
      obtain rfl : type = t := htype
      exact hself
    · have hplain : (⟨s, t, Lookup.methodNode G kind ref m⟩ : Handle).Typed G W := by
        rw [Classical.not_and_iff_not_or_not, not_not, not_not] at hreceiver
        rcases hreceiver with rfl | rfl
        · exact .of_node (.static m) hp hr
        · have hcls : m.cls = ref := by
            rcases hm.named with hcls | ⟨hkind, -⟩
            · exact hcls
            · exact absurd rfl hkind
          refine .of_node (.construct m) hp ?_
          rw [hr, hcls]
          rfl
      unfold handle
      split
      · exact .of_node (.varargs hplain) rfl rfl
      · exact hplain

end Use

/-- The values that a look-up binds. -/
def MemberOp.values : MemberOp → List Value
  | .bind receiver _ _ => [.obj receiver]
  | _ => []

/-! ## Rights -/

namespace Lookup

variable (C : Classes) (l : Lookup)

/-- A member whose receiver is restricted has the bit of a protected member. -/
theorem protectedBit_of_restrictsReceiver {owner : ClassId} {mods : Flags}
    (hr : l.restrictsReceiver G owner mods = true) :
    mods.modifiers &&& Flags.protectedBit ≠ 0 := by
  simp only [restrictsReceiver, Bool.and_eq_true] at hr
  have hprotected : mods.isProtected = true := hr.1.1.1.1.1
  rwa [Flags.isProtected, mods.has_eq_modifiers (by decide), bne_iff_ne] at hprotected

/-- A member whose receiver is restricted, and that may be used, has no access modifier but that, and
is one of a class above the lookup class. -/
theorem inherits_of_restrictsReceiver {ref owner : ClassId} {mods : Flags}
    (hr : l.restrictsReceiver G owner mods = true)
    (ha : G.memberAccessible ref owner mods l.cls l.modes = true) :
    mods.modifiers = Flags.protectedBit ∧ G.isSubclass l.cls owner = true := by
  have hbit := l.protectedBit_of_restrictsReceiver hr
  have hne : ∀ b : UInt16, b &&& Flags.protectedBit = 0 → mods.modifiers ≠ b := by
    rintro b hb rfl
    exact hbit hb
  have hpublic := hne Flags.publicBit (by decide)
  have hprivate := hne Flags.privateBit (by decide)
  have hnone := hne 0 (by decide)
  simp only [restrictsReceiver, Bool.and_eq_true, Bool.not_eq_true', bne_iff_ne, ne_eq] at hr
  obtain ⟨⟨⟨⟨⟨-, hstatic⟩, -⟩, hother⟩, hpackage⟩, -⟩ := hr
  -- the one way that is left is by inheritance
  unfold ClassGraph.memberAccessible at ha
  split at ha
  · cases ha
  split at ha
  · cases ha
  split at ha
  · next howner => simp_all
  rw [if_neg (by simpa using hpublic)] at ha
  split at ha
  · next hprotected =>
    refine ⟨by simpa using hprotected, ?_⟩
    split at ha
    · next hsame => simp_all
    split at ha
    · cases ha
    split at ha
    · next hstatic' => simp_all
    · exact ha
  · rw [if_neg (by simpa using hprivate), if_neg (by simpa using hnone)] at ha
    cases ha

theorem isSubclass_of_restrictsReceiver {ref owner : ClassId} {mods : Flags}
    (hr : l.restrictsReceiver G owner mods = true)
    (ha : G.memberAccessible ref owner mods l.cls l.modes = true) :
    G.isSubclass l.cls owner = true := (l.inherits_of_restrictsReceiver hr ha).2

theorem yields_checkClass (c : ClassId) :
    Link.Yields G W (l.checkClass C c) (fun _ => True) := by
  unfold checkClass
  by_cases ht : l.trusted
  · rw [if_pos ht]
    exact .pure trivial
  · rw [if_neg ht]
    refine .bind (.report _) fun _ _ => ?_
    split
    · exact .throw _
    · exact .pure trivial

theorem yields_deny {α : Type} {Q : α → Prop} (d : Denial) : Link.Yields G W (l.deny d) Q :=
  .throw _

/-- A member that passes the check may be used. -/
theorem yields_checkMember (kind : RefKind) (ref owner : ClassId) (mods : Flags)
    (member : MemberRef) :
    Link.Yields G W (l.checkMember C kind ref owner mods member) (fun _ => l.trusted = true ∨
      C.graph.memberAccessible ref owner (judgedFlags kind mods) l.cls l.modes = true) := by
  unfold checkMember
  by_cases ht : l.trusted
  · rw [if_pos ht]
    exact .pure (.inl ht)
  · rw [if_neg ht]
    cases member with
    | method m =>
      refine .bind (.report _) fun _ _ => ?_
      split
      · exact l.yields_deny _
      · next ha => exact .pure (.inr (by simpa using ha))
    | field f =>
      dsimp only
      split
      · exact .bind (Q := fun _ => False) (l.yields_deny _) fun _ h => h.elim
      · refine .bind (.report _) fun _ _ => ?_
        split
        · exact l.yields_deny _
        · next ha => exact .pure (.inr (by simpa using ha))

theorem yields_checkSignature (s : Signature) (ref : ClassId) :
    Link.Yields G W (l.checkSignature C s ref) (fun _ => True) := by
  unfold checkSignature
  split
  · exact .pure trivial
  · exact .throw _

theorem yields_checkSpecialCaller (ref caller : ClassId) :
    Link.Yields G W (l.checkSpecialCaller C ref caller) (fun _ => True) := by
  unfold checkSpecialCaller
  by_cases ht : l.trusted
  · rw [if_pos ht]
    exact .pure trivial
  · rw [if_neg ht]
    dsimp only
    split
    · exact .bind (Q := fun _ => False) (l.yields_deny _) fun _ h => h.elim
    · split
      · exact l.yields_deny _
      · exact .pure trivial

theorem yields_resolved {α : Type} (x : Except ResolutionError α) :
    Link.Yields G W (resolved x) (fun a => x.toOption = some a) := by
  cases x with
  | ok a => exact .pure rfl
  | error e => exact .throw _

/-! ## The member cache -/

/-- What the cache answers under a key is the handle of a use that comes under the key, though
perhaps of another member. -/
theorem yields_cached {u : Use} {key : MemberKey} {make : Link Handle} (hu : G.UsesMember u)
    (hkey : u.key? G = some key) (hmake : Makes G u key.type make) :
    Link.Yields G W (cached key make) (key.Keeps G) := by
  have hmade : ∀ s, key.Keeps G (u.handle G key.type s) := fun s => ⟨u, s, hu, hkey, rfl⟩
  intro m hm
  unfold cached
  by_cases henabled : m.members.enabled = true
  · simp only [henabled, if_true]
    cases hfind : m.members.find? key with
    | some h =>
      simp only [MemberCache.read, hfind]
      have hm' : Machine.Typed G W
          { m with members := { m.members with hits := m.members.hits + 1 } } :=
        hm.withMembers m.nextStamp hm.members
      exact ⟨hm'.report _, hm.members key h hfind⟩
    | none =>
      simp only [MemberCache.read, hfind]
      obtain ⟨n, hn⟩ := hmake
        { m with members := { m.members with misses := m.members.misses + 1 } }
      rw [hn]
      have hnone : ({ m.members with misses := m.members.misses + 1 } : MemberCache).find? key =
          none := hfind
      simp only [MemberCache.insertIfAbsent, hnone]
      refine ⟨(hm.withMembers n ?_).report _, hmade _⟩
      -- the new entry is the handle just made; the others are old
      exact forall_lookup_cons hm.members (hmade _)
  · simp only [henabled]
    obtain ⟨n, hn⟩ := hmake m
    simp only [hn]
    exact ⟨(hm.withMembers n hm.members).report _, hmade _⟩

variable {C l}

theorem typed_of_keeps {key : MemberKey} {h : Handle} (hh : key.Keeps G h) : h.Typed G W := by
  obtain ⟨u, s, hu, hkey, rfl⟩ := hh
  exact Use.typed_handle hu (Use.key?_eq_some_iff.1 hkey).1 s

/-! ## Narrowed receivers -/

/-- A narrowed handle has the node of the handle and the lookup class as its first parameter. -/
theorem yields_narrow {h : Handle} (hnarrow : ∀ (s : Stamp) (t : Signature),
    h.type.changeParam 0 (.cls l.cls) = .ok t → (⟨s, t, h.node⟩ : Handle).Typed G W) :
    Link.Yields G W (l.narrow h) (Handle.Typed G W) := by
  refine .build fun s a ha => ?_
  simp only [Bind.bind, Except.bind] at ha
  split at ha
  · cases ha
  next t ht =>
  unfold Handle.retype at ha
  split at ha
  · obtain rfl := Except.ok.inj ha
    exact hnarrow s t ht
  · cases ha

/-- A handle on a method may be narrowed whatever the lookup class. -/
theorem yields_narrow_method {key : MemberKey} {h : Handle} (hh : key.Keeps G h)
    (hfield : key.kind.isField = false) (hkind : key.kind.hasReceiver = true) :
    Link.Yields G W (l.narrow h) (Handle.Typed G W) := by
  obtain ⟨⟨kind, ref, caller, member⟩, s, hu, hkey, rfl⟩ := hh
  obtain ⟨ht, -, -, hk⟩ := Use.key?_eq_some_iff.1 hkey
  rw [hk] at hfield hkind
  refine yields_narrow fun s' t' ht' => ?_
  obtain ⟨hlt, hret, hparams⟩ := Signature.changeParam_eq_ok_iff.1 ht'
  rw [Use.type_handle] at hlt hret hparams
  cases member with
  | field f =>
    have hf : G.UsesField kind ref f := hu
    exact absurd (hf.isField.symm.trans hfield) (by decide)
  | method m =>
    have hstatic : kind ≠ .invokeStatic := by
      rintro rfl
      cases hkind
    have hnew : kind ≠ .newInvokeSpecial := by
      rintro rfl
      cases hkind
    refine Use.typed_receiver (r := .cls l.cls) hstatic hnew ht rfl ?_ hret s s'
    rw [hparams]
    cases hp : key.type.params with
    | nil => exact absurd hlt (by simp [Signature.arity, hp])
    | cons p ps => rfl

theorem fieldHandleType_narrow {kind : RefKind} {ref c : ClassId} {type : Ty} {t t' : Signature}
    (hfield : kind.isField = true) (hstatic : kind.isStatic = false)
    (ht : fieldHandleType kind ref type = .ok t) (ht' : t.changeParam 0 (.cls c) = .ok t') :
    fieldHandleType kind c type = .ok t' := by
  obtain ⟨-, hret, hparams⟩ := Signature.changeParam_eq_ok_iff.1 ht'
  cases kind <;> first
    | exact absurd hfield (by decide)
    | exact absurd hstatic (by decide)
    | obtain ⟨hr, hp⟩ := Signature.of_eq_ok_iff.1 ht
      refine Signature.of_eq_ok_iff.2 ⟨hret.trans hr, ?_⟩
      rw [hparams, hp]
      rfl

/-- A handle on a field may be narrowed to a class below the one that declares the field; what has
been kept under the same key is declared by the same class. -/
theorem yields_narrow_field {kind : RefKind} {ref : ClassId} {f : FieldRef}
    (hf : G.UsesField kind ref f) {key : MemberKey}
    (hkey : (⟨kind, ref, none, .field f⟩ : Use).key? G = some key) (hstatic : kind.isStatic = false)
    (hsub : G.isSubclass l.cls f.cls = true) {h : Handle} (hh : key.Keeps G h) :
    Link.Yields G W (l.narrow h) (Handle.Typed G W) := by
  obtain ⟨⟨kind', ref', caller, member⟩, s, hu, hkey', rfl⟩ := hh
  obtain ⟨ht, hr, hn, hk⟩ := Use.key?_eq_some_iff.1 hkey
  obtain ⟨ht', hr', hn', hk'⟩ := Use.key?_eq_some_iff.1 hkey'
  obtain rfl : kind = kind' := hk.symm.trans hk'
  obtain rfl : ref = ref' := hr.symm.trans hr'
  refine yields_narrow fun s' t' hnarrow => ?_
  rw [Use.type_handle] at hnarrow
  cases member with
  | method m =>
    have hm : G.UsesMethod kind ref m := hu
    exact absurd (hf.isField.symm.trans hm.isField) (by decide)
  | field f' =>
    have hf' : G.UsesField kind ref f' := hu
    have htype := Use.fieldType_eq_of_type hf.isField ht ht'
    have hcls : f'.cls = f.cls := by
      rcases hf.cls_eq_or_eq hf' (hn.symm.trans hn') htype with ⟨hcls, hcls'⟩ | rfl
      · exact hcls'.trans hcls.symm
      · rfl
    have hsub' : G.isSubclass l.cls f'.cls = true := by
      rw [hcls]
      exact hsub
    exact Use.typed_field hf' (fun _ => hsub')
      (fieldHandleType_narrow hf.isField hstatic ht' hnarrow) s'

/-! ## Look-ups -/

variable (C l)

theorem yields_methodHandle {kind : RefKind} {ref : ClassId} {m : MethodRef}
    {caller : Option ClassId} (hu : C.graph.UsesMember ⟨kind, ref, caller, .method m⟩)
    (restrict : Bool) :
    Link.Yields C.graph W (l.methodHandle C kind ref m caller restrict)
      (Handle.Typed C.graph W) := by
  have hm : C.graph.UsesMethod kind ref m := hu
  unfold methodHandle
  refine .bind (l.yields_checkMember C _ _ _ _ _) fun _ _ => ?_
  refine .bind (.ofExcept _) fun declared hdeclared => ?_
  refine .bind (l.yields_checkSignature C _ _) fun _ _ => ?_
  refine .bind (.ofExcept _) fun type htype => ?_
  have hkey : (⟨kind, ref, caller, .method m⟩ : Use).key? C.graph =
      some ⟨ref, (C.graph.method m).name, type, kind⟩ := by
    refine Use.key?_eq_some_iff.2 ⟨?_, rfl, rfl, rfl⟩
    simp only [Use.type, hdeclared, Except.bind, htype]
  refine .bind (yields_cached hu hkey fun s => makeMethodHandle_eq _ _ _ _ _ _ _) fun h hh => ?_
  split
  · next hnarrow =>
    have hreceiver : kind.hasReceiver = true := by
      simp only [Bool.and_eq_true] at hnarrow
      exact hnarrow.1.1.2
    exact yields_narrow_method hh hm.isField hreceiver
  · exact .pure (typed_of_keeps hh)

theorem yields_fieldHandle {kind : RefKind} {ref : ClassId} {f : FieldRef}
    (hu : C.graph.UsesMember ⟨kind, ref, none, .field f⟩) :
    Link.Yields C.graph W (l.fieldHandle C kind ref f) (Handle.Typed C.graph W) := by
  have hf : C.graph.UsesField kind ref f := hu
  unfold fieldHandle
  refine .bind (l.yields_checkMember C _ _ _ _ _) fun _ haccess => ?_
  refine .bind (.ofExcept _) fun type htype => ?_
  refine .bind (l.yields_checkSignature C _ _) fun _ _ => ?_
  have hkey : (⟨kind, ref, none, .field f⟩ : Use).key? C.graph =
      some ⟨ref, (C.graph.field f).name, type, kind⟩ :=
    Use.key?_eq_some_iff.2 ⟨htype, rfl, rfl, rfl⟩
  refine .bind (yields_cached hu hkey fun s => ⟨_, rfl⟩) fun h hh => ?_
  split
  · next hnarrow =>
    simp only [Bool.and_eq_true, Bool.not_eq_true'] at hnarrow
    obtain ⟨hstatic, hrestricts⟩ := hnarrow
    -- only a restricted receiver is narrowed, so the lookup was checked and inherits the field
    have huntrusted : l.trusted ≠ true := by
      intro ht
      simp [restrictsReceiver, ht] at hrestricts
    have hjudged : judgedFlags kind (C.graph.field f).flags = (C.graph.field f).flags := by
      have hnew : kind ≠ .newInvokeSpecial := by
        rintro rfl
        cases hf.isField
      rw [judgedFlags, if_neg hnew]
    have hallowed := haccess.resolve_left huntrusted
    rw [hjudged] at hallowed
    have hsub := l.isSubclass_of_restrictsReceiver hrestricts hallowed
    exact yields_narrow_field hf hkey hstatic hsub hh
  · exact .pure (typed_of_keeps hh)

variable (hG : C.graph.MembersNumbered)
include hG

theorem yields_findInstance {op : MemberOp} (hop : op.IsValid C.graph) {ref : ClassId}
    {name : String} {type : Signature}
    (huse : op.use? C.graph = MemberOp.instanceUse? C.graph ref name type) (restrict : Bool) :
    Link.Yields C.graph W (l.findInstance C ref name type restrict) (Handle.Typed C.graph W) := by
  unfold findInstance
  refine .bind (l.yields_checkClass C _) fun _ _ => ?_
  unfold MemberOp.instanceUse? at huse
  by_cases hi : C.graph.isInterface ref = true
  · rw [if_pos hi] at huse ⊢
    refine .bind (yields_resolved _) fun m hm => ?_
    have hu : Use.Reachable C.graph ⟨.invokeInterface, ref, none, .method m⟩ :=
      ⟨op, hop, by rw [huse, hm]; rfl⟩
    exact l.yields_methodHandle C (ClassGraph.usesMember_of_reachable hG hu) _
  · rw [if_neg hi] at huse ⊢
    refine .bind (yields_resolved _) fun m hm => ?_
    have hu : Use.Reachable C.graph ⟨.invokeVirtual, ref, none, .method m⟩ :=
      ⟨op, hop, by rw [huse, hm]; rfl⟩
    exact l.yields_methodHandle C (ClassGraph.usesMember_of_reachable hG hu) _

theorem yields_findField {op : MemberOp} (hop : op.IsValid C.graph) {kind : RefKind}
    {ref : ClassId} {name : String} {type : Ty}
    (huse : op.use? C.graph = MemberOp.fieldUse? C.graph kind ref name type) :
    Link.Yields C.graph W (l.findField C kind ref name type) (Handle.Typed C.graph W) := by
  unfold findField
  refine .bind (l.yields_checkClass C _) fun _ _ => ?_
  refine .bind (yields_resolved _) fun f hf => ?_
  have hu : Use.Reachable C.graph ⟨kind, ref, none, .field f⟩ :=
    ⟨op, hop, by rw [huse, MemberOp.fieldUse?, hf]; rfl⟩
  exact l.yields_fieldHandle C (ClassGraph.usesMember_of_reachable hG hu)

theorem yields_unreflectField {op : MemberOp} (hop : op.IsValid C.graph) {kind : RefKind}
    {f : FieldRef} (huse : op.use? C.graph = some ⟨kind, f.cls, none, .field f⟩) :
    Link.Yields C.graph W (l.unreflectField C kind f) (Handle.Typed C.graph W) := by
  unfold unreflectField
  refine .bind (l.yields_checkClass C _) fun _ _ => ?_
  refine .bind (.report _) fun _ _ => ?_
  exact l.yields_fieldHandle C (ClassGraph.usesMember_of_reachable hG ⟨op, hop, huse⟩)

/-- Every look-up makes a typed handle, if the receiver that it binds is live. -/
theorem yields_perform (op : MemberOp) (hop : op.IsValid C.graph)
    (hlive : Value.AllLive W.classes op.values) :
    Link.Yields C.graph W (l.perform C op) (Handle.Typed C.graph W) := by
  have huses : ∀ {u : Use}, op.use? C.graph = some u → C.graph.UsesMember u :=
    fun huse => ClassGraph.usesMember_of_reachable hG ⟨op, hop, huse⟩
  cases op with
  | findStatic ref name type =>
    refine .bind (l.yields_checkClass C _) fun _ _ => ?_
    refine .bind (yields_resolved _) fun m hm => ?_
    exact l.yields_methodHandle C (huses (by rw [MemberOp.use?, hm]; rfl)) _
  | findVirtual ref name type => exact l.yields_findInstance C hG hop rfl true
  | findSpecial ref name type caller =>
    refine .bind (l.yields_checkSpecialCaller C _ _) fun _ _ => ?_
    refine .bind (l.yields_checkClass C _) fun _ _ => ?_
    refine .bind (yields_resolved _) fun m hm => ?_
    exact l.yields_methodHandle C (huses (by rw [MemberOp.use?, hm]; rfl)) _
  | findConstructor ref type =>
    refine .bind (l.yields_checkClass C _) fun _ _ => ?_
    dsimp only
    split
    · exact .throw _
    · next hret =>
      refine .bind (yields_resolved _) fun m hm => ?_
      exact l.yields_methodHandle C (huses (by rw [MemberOp.use?, if_neg hret, hm]; rfl)) _
  | findGetter ref name type => exact l.yields_findField C hG hop rfl
  | findSetter ref name type => exact l.yields_findField C hG hop rfl
  | findStaticGetter ref name type => exact l.yields_findField C hG hop rfl
  | findStaticSetter ref name type => exact l.yields_findField C hG hop rfl
  | bind receiver name type =>
    refine .bind (l.yields_findInstance C hG hop rfl false) fun h hh => ?_
    refine .bind (.build fun s a ha => Handle.typed_bindTo (Handle.typed_asFixedArity hh) hlive.1 ha)
      fun bound hbound => ?_
    split
    · exact .build fun s a ha => Handle.typed_asVarargsCollector hbound ha
    · exact .pure hbound
  | unreflect m =>
    refine .bind (l.yields_checkClass C _) fun _ _ => ?_
    exact l.yields_methodHandle C (huses rfl) _
  | unreflectSpecial m caller =>
    refine .bind (l.yields_checkSpecialCaller C _ _) fun _ _ => ?_
    refine .bind (l.yields_checkClass C _) fun _ _ => ?_
    dsimp only
    split
    · exact .throw _
    · next hstatic =>
      exact l.yields_methodHandle C (huses (by rw [MemberOp.use?, if_neg hstatic])) _
  | unreflectConstructor m =>
    refine .bind (l.yields_checkClass C _) fun _ _ => ?_
    dsimp only
    split
    · exact .throw _
    · next habstract =>
      split
      · exact .throw _
      · next hinit =>
        exact l.yields_methodHandle C
          (huses (by rw [MemberOp.use?, if_neg habstract, if_neg hinit])) _
  | unreflectGetter f => exact l.yields_unreflectField C hG hop rfl
  | unreflectSetter f => exact l.yields_unreflectField C hG hop rfl

end Lookup

end HandleCalculus
