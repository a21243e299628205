import HandleCalculus.Proofs.LookupSteps
import HandleCalculus.Proofs.MemberNames

/-!
# Complete mediation

The member cache is filled by lookups of all rights and hands its handles to every lookup that asks.
Rights are checked on the member that resolution has just found, the handle may have been made for
another look-up. Where keys tell members apart the two are the same member, so whatever handle a
lookup gets is on a member that it may use (`Lookup.mediated`).

One check is made on the use and not on the member. A protected constructor counts as package-private
only if it is used to make instances; taken as a method at hand (`MemberOp.takesConstructor`) it is
judged as a protected method, and a subclass in another package gets a handle on it.
-/

set_option autoImplicit false

namespace HandleCalculus

/-! ## The members of a handle -/

/-- Whether the member is run or accessed by a node of the handle. -/
inductive Handle.Holds : Handle → MemberRef → Prop where
  | here {h : Handle} {r : MemberRef} (hr : h.node.member? = some r) : h.Holds r
  | child {h k : Handle} {r : MemberRef} (hk : k ∈ h.children) (hr : k.Holds r) : h.Holds r

namespace Handle

variable {h k : Handle} {r : MemberRef} {s : Stamp} {t : Signature}

theorem holds_iff : h.Holds r ↔ h.node.member? = some r ∨ ∃ k ∈ h.children, k.Holds r := by
  constructor
  · intro hr
    cases hr with
    | here hr => exact .inl hr
    | child hk hr => exact .inr ⟨_, hk, hr⟩
  · rintro (hr | ⟨k, hk, hr⟩)
    · exact .here hr
    · exact .child hk hr

/-- What a handle holds is a matter of its node. -/
theorem holds_congr (hn : h.node = k.node) : h.Holds r ↔ k.Holds r := by
  rw [holds_iff, holds_iff, children, children, hn]

theorem holds_insert {pos : Nat} {vs : List Value} :
    (⟨s, t, .insert k pos vs⟩ : Handle).Holds r ↔ k.Holds r := by
  rw [holds_iff]
  simp [Node.member?, children, Node.children]

theorem holds_varargs {array : Ty} {cell : Stamp} :
    (⟨s, t, .varargs k array cell⟩ : Handle).Holds r ↔ k.Holds r := by
  rw [holds_iff]
  simp [Node.member?, children, Node.children]

theorem holds_asFixedArity : h.asFixedArity.Holds r ↔ h.Holds r := by
  obtain ⟨s, t, n⟩ := h
  cases n with
  | varargs k array cell => exact holds_varargs.symm
  | _ => exact Iff.rfl

/-- A handle on a member holds that member and no other. -/
theorem holds_of_member? (hm : h.member? = some r) (r' : MemberRef) : h.Holds r' ↔ r' = r := by
  rw [← holds_asFixedArity]
  have hnode : h.asFixedArity.node.member? = some r := hm
  have hchildren : h.asFixedArity.children = [] := by
    rw [children]
    generalize h.asFixedArity.node = n at hnode
    cases n with
    | direct | virtual | getField | setField => rfl
    | _ => cases hnode
  rw [holds_iff, hnode, hchildren]
  simp [eq_comm]

theorem holds_retype {a b : Handle} (hab : a.retype s t = .ok b) : b.Holds r ↔ a.Holds r := by
  unfold retype at hab
  split at hab
  · obtain rfl := Except.ok.inj hab
    exact holds_congr rfl
  · cases hab

theorem holds_bindTo {G : ClassGraph} {a b : Handle} {v : Value} (hab : a.bindTo G s v = .ok b) :
    b.Holds r ↔ a.Holds r := by
  unfold bindTo at hab
  split at hab
  · cases hab
  unfold insertArguments at hab
  simp only [bind, Except.bind, pure, Except.pure, throw, throwThe, MonadExceptOf.throw] at hab
  split at hab
  · cases hab
  split at hab
  · cases hab
  split at hab
  · obtain rfl := Except.ok.inj hab
    exact Iff.rfl
  split at hab
  · cases hab
  · obtain rfl := Except.ok.inj hab
    exact holds_insert

theorem holds_asVarargsCollector {G : ClassGraph} {a b : Handle} {array : Ty}
    (hab : a.asVarargsCollector G s array = .ok b) : b.Holds r ↔ a.Holds r := by
  unfold asVarargsCollector at hab
  split at hab
  · obtain rfl := Except.ok.inj hab
    exact Iff.rfl
  split at hab
  · cases hab
  split at hab
  · obtain rfl := Except.ok.inj hab
    exact holds_varargs.trans holds_asFixedArity
  · cases hab

end Handle

/-! ## What a look-up answers -/

/-- Nothing that is done to a handle after the cache has answered it changes which member it is
on. -/
theorem MemberOp.holds_of_finish {G : ClassGraph} {op : MemberOp} {a b : Handle} {m m' : Machine}
    (hm : op.finish G a m = .ok b m') (r : MemberRef) : b.Holds r ↔ a.Holds r := by
  refine of_finish (p := fun h => h.Holds r ↔ a.Holds r) Handle.holds_asFixedArity.trans
    (fun hh hk => (Handle.holds_bindTo hk).trans hh)
    (fun hh hk => (Handle.holds_asVarargsCollector hk).trans hh) Iff.rfl hm

theorem Lookup.holds_of_narrow {l : Lookup} {a b : Handle} {m m' : Machine}
    (hm : l.narrow a m = .ok b m') (r : MemberRef) : b.Holds r ↔ a.Holds r := by
  have hmade := (Link.exists_of_build hm).1
  simp only [Bind.bind, Except.bind] at hmade
  split at hmade
  · cases hmade
  · exact Handle.holds_retype hmade

/-- What is left of a look-up answers a handle on the member that the cache's handle is on, and for a
call without dispatch that very handle. -/
theorem MemberOp.exists_cached_of_answer {C : Classes} {l : Lookup} {op : MemberOp} {u : Use}
    {key : MemberKey} {m m' : Machine} {h : Handle} (hm : op.answer C l u key m = .ok h m') :
    ∃ base m₁, Lookup.cached key (u.make C.graph key.type) m = .ok base m₁ ∧
      (∀ r, h.Holds r ↔ base.Holds r) ∧
      (u.kind = .invokeSpecial → (∀ k, op.finish C.graph k = pure k) → h = base) := by
  obtain ⟨narrowed, m₂, hnarrowed, hfinish⟩ := Link.exists_of_bind hm
  obtain ⟨base, m₁, hbase, hnarrow⟩ := Link.exists_of_bind hnarrowed
  refine ⟨base, m₁, hbase, fun r => ?_, fun hkind hpure => ?_⟩
  · rw [holds_of_finish hfinish]
    split at hnarrow
    · exact Lookup.holds_of_narrow hnarrow r
    · cases hnarrow
      exact Iff.rfl
  · have hplain : l.narrows C.graph u = false := by
      simp [Lookup.narrows, hkind]
    rw [hplain, Bool.and_false] at hnarrow
    rw [hpure] at hfinish
    cases hnarrow
    cases hfinish
    rfl

/-! ## What the cache answers -/

namespace ClassGraph

/-- No class declares two methods of one name and descriptor or two fields of one name and type, and
constructors are declared to answer nothing. -/
structure NamesUnique (G : ClassGraph) : Prop where
  methods : ∀ (c : ClassId) (i j : Nat) (a b : MethodDecl), (G.decl c).methods[i]? = some a →
    (G.decl c).methods[j]? = some b → a.name = b.name → a.desc = b.desc → i = j
  fields : ∀ (c : ClassId) (i j : Nat) (a b : FieldDecl), (G.decl c).fields[i]? = some a →
    (G.decl c).fields[j]? = some b → a.name = b.name → a.type = b.type → i = j
  constructors : ∀ (c : ClassId) (a : MethodDecl), a ∈ (G.decl c).methods →
    a.isConstructor = true → a.desc.ret = .void

theorem NamesUnique.membersDistinct {G : ClassGraph} (hG : G.NamesUnique) :
    G.MembersDistinct where
  methods c i j a b ha hb := by
    rintro ⟨hname, hparams, halike⟩
    refine hG.methods c i j a b ha hb hname ?_
    have hret : a.desc.ret = b.desc.ret := by
      rcases halike with ⟨hret, -, -⟩ | ⟨-, hinit, -⟩
      · exact hret
      · have hinit' : b.isConstructor = true := by
          simpa [MethodDecl.isConstructor, ← hname] using hinit
        rw [hG.constructors c a (List.mem_of_getElem? ha) hinit,
          hG.constructors c b (List.mem_of_getElem? hb) hinit']
    cases hda : a.desc
    cases hdb : b.desc
    simp_all
  fields c i j a b ha hb := by
    rintro ⟨hname, htype, -⟩
    exact hG.fields c i j a b ha hb hname htype

end ClassGraph

/-- Where keys tell members apart, the cache answers a handle on the member that was looked up,
whatever has been looked up before by whatever lookups. -/
theorem Lookup.member?_of_cached {C : Classes} (hG : C.graph.KeysDetermineMembers) {m m₁ : Machine}
    {on : Bool} (hm : m.members = .empty on) {before : List (Lookup × MemberOp)}
    (hbefore : ∀ p ∈ before, p.2.IsValid C.graph) {u : Use} (hu : u.Reachable C.graph)
    {key : MemberKey} (hkey : u.key? C.graph = some key) {es : List Event} {base : Handle}
    (hbase : cached key (u.make C.graph key.type) ((m.afterLookups C before).reports es) =
      .ok base m₁) : base.type = key.type ∧ base.member? = some u.member := by
  have hvalue := (start_cached (Use.makes_make (G := C.graph) (u := u) key.type)
    ((m.afterLookups C before).reports es)).1
  rw [Link.start, hbase, Machine.kept?_reports] at hvalue
  obtain rfl := Except.ok.inj hvalue
  rw [Machine.kept?]
  -- either the cache is in use and right, or it is not in use and the handle is new
  by_cases hon : on = true
  · have hfaithful : (m.afterLookups C before).members.Faithful C.graph := by
      refine Machine.faithful_afterLookups (n := .initial false) hG ?_ rfl hbefore
      rw [hm, hon]
      exact MemberCache.faithful_empty C.graph
    rw [if_pos hfaithful.enabled]
    cases hfind : (m.afterLookups C before).members.find? key with
    | none => exact ⟨Use.type_handle _ _, u.member?_handle C.graph _ _⟩
    | some h =>
      have hright := hfaithful.right key h hfind u hu hkey
      have htype := Handle.type_eq_of_equivalent hright
      have hmember := Handle.member?_eq_of_equivalent hright
      rw [Use.type_handle] at htype
      rw [Use.member?_handle] at hmember
      exact ⟨htype, hmember⟩
  · have hoff : ¬ (m.afterLookups C before).members.enabled = true := by
      rw [(m.grows_afterLookups C before).enabled, hm]
      exact hon
    rw [if_neg hoff]
    exact ⟨Use.type_handle _ _, u.member?_handle C.graph _ _⟩

/-! ## Mediation -/

/-- The types that a member is declared with. -/
def MemberRef.types (G : ClassGraph) : MemberRef → List Ty
  | .method m => (G.method m).desc.ret :: (G.method m).desc.params
  | .field f => [(G.field f).type]

/-- The flags of a member, a protected constructor counting as package-private. -/
def Use.strictFlags (G : ClassGraph) (u : Use) : Flags :=
  match u.member with
  | .method m =>
    if (G.method m).isConstructor then (u.flags G).without Flags.protectedBit else u.flags G
  | .field _ => u.flags G

/-- Whether the look-up takes a constructor at hand as if it were a method. -/
def MemberOp.takesConstructor (G : ClassGraph) : MemberOp → Bool
  | unreflect m | unreflectSpecial m _ => (G.method m).isConstructor
  | _ => false

namespace MemberOp

variable {G : ClassGraph} {op : MemberOp} {u : Use}

/-- Resolution never answers a constructor under the name of a method. -/
theorem isConstructor_of_resolveMethod (hG : ∀ c, (G.decl c).methods.length ≤ 65536) {c : ClassId}
    {name : String} {desc : Descriptor} {search : MethodSearch} {m : MethodRef}
    (h : (G.resolveMethod c name desc search).toOption = some m) :
    (G.method m).isConstructor = false := by
  unfold ClassGraph.resolveMethod at h
  split at h
  · cases h
  split at h
  · cases h
  split at h
  · cases h
  next hname =>
  split at h
  · cases h
  next m' hfind =>
  have hfound : m' = m := by
    split at h <;> simp_all [Except.toOption]
  subst hfound
  have hnamed := (ClassGraph.findMethod?_eq_some hG hfind).2.1
  simp only [MethodDecl.isConstructor, hnamed, beq_eq_false_iff_ne]
  exact fun heq => hname (.inl heq)

/-- A constructor is used to make instances, or it has been taken as a method. -/
theorem kind_of_isConstructor (hG : ∀ c, (G.decl c).methods.length ≤ 65536)
    (hu : op.use? G = some u) (hop : op.takesConstructor G = false) {m : MethodRef} (hm : u.member = .method m)
    (hinit : (G.method m).isConstructor = true) : u.kind = .newInvokeSpecial := by
  -- found by name the method is no constructor, so only the look-ups of constructors are left
  have hfound : ∀ {c : ClassId} {name : String} {desc : Descriptor} {search : MethodSearch}
      {kind : RefKind} {ref : ClassId} {caller : Option ClassId},
      (G.resolveMethod c name desc search).toOption.map
        (fun m => (⟨kind, ref, caller, .method m⟩ : Use)) = some u → False := by
    intro c name desc search kind ref caller h
    obtain ⟨m', hm', rfl⟩ := Option.map_eq_some_iff.1 h
    obtain rfl : m' = m := MemberRef.method.inj hm
    rw [isConstructor_of_resolveMethod hG hm'] at hinit
    cases hinit
  have hinstance : ∀ {ref : ClassId} {name : String} {type : Signature},
      instanceUse? G ref name type = some u → False := by
    intro ref name type h
    unfold instanceUse? at h
    split at h
    · exact hfound h
    · exact hfound h
  have hfield : ∀ {kind : RefKind} {ref : ClassId} {name : String} {type : Ty},
      fieldUse? G kind ref name type = some u → False := by
    intro kind ref name type h
    obtain ⟨f, -, rfl⟩ := Option.map_eq_some_iff.1 h
    cases hm
  cases op with
  | findStatic => exact (hfound hu).elim
  | findVirtual => exact (hinstance hu).elim
  | findSpecial => exact (hfound hu).elim
  | bind => exact (hinstance hu).elim
  | findGetter => exact (hfield hu).elim
  | findSetter => exact (hfield hu).elim
  | findStaticGetter => exact (hfield hu).elim
  | findStaticSetter => exact (hfield hu).elim
  | findConstructor ref type =>
    simp only [use?] at hu
    split at hu
    · cases hu
    · obtain ⟨m', -, rfl⟩ := Option.map_eq_some_iff.1 hu
      rfl
  | unreflectConstructor m' =>
    simp only [use?] at hu
    split at hu
    · cases hu
    split at hu
    · cases hu
    · obtain rfl := Option.some.inj hu
      rfl
  | unreflect m' =>
    obtain rfl := Option.some.inj hu
    obtain rfl : m' = m := MemberRef.method.inj hm
    exact absurd hinit (by simpa [takesConstructor] using hop)
  | unreflectSpecial m' caller =>
    simp only [use?] at hu
    split at hu
    · cases hu
    · obtain rfl := Option.some.inj hu
      obtain rfl : m' = m := MemberRef.method.inj hm
      exact absurd hinit (by simpa [takesConstructor] using hop)
  | unreflectGetter f =>
    obtain rfl := Option.some.inj hu
    cases hm
  | unreflectSetter f =>
    obtain rfl := Option.some.inj hu
    cases hm

/-- Unless a constructor is taken as a method, what is judged are the member's flags with a protected
constructor counting as package-private. -/
theorem judgedFlags_eq_strictFlags (hG : G.MembersNumbered) (hop : op.IsValid G)
    (hu : op.use? G = some u) (htakes : op.takesConstructor G = false) :
    Lookup.judgedFlags u.kind (u.flags G) = u.strictFlags G := by
  have huses := ClassGraph.usesMember_of_reachable hG ⟨op, hop, hu⟩
  unfold Lookup.judgedFlags Use.strictFlags
  cases hm : u.member with
  | method m =>
    rw [ClassGraph.UsesMember, hm] at huses
    have hmethod : G.UsesMethod u.kind u.ref m := huses
    have hiff : u.kind = .newInvokeSpecial ↔ (G.method m).isConstructor = true :=
      ⟨fun h => (hmethod.constructor h).2, kind_of_isConstructor hG.methods hu htakes hm⟩
    simp only [hiff]
  | field f =>
    rw [ClassGraph.UsesMember, hm] at huses
    have hfield : G.UsesField u.kind u.ref f := huses
    rw [if_neg]
    intro hkind
    have hisField := hfield.isField
    rw [hkind] at hisField
    cases hisField

/-- A call without dispatch names its caller, and the handle found for it is answered as it is. -/
theorem special_of_kind (hu : op.use? G = some u) (hkind : u.kind = .invokeSpecial) :
    (∃ c, u.caller = some c) ∧ ∀ h, op.finish G h = pure h := by
  have hmapped : ∀ {α : Type} {found : Option α} {kind : RefKind} {ref : ClassId}
      {caller : Option ClassId} {member : α → MemberRef},
      found.map (fun a => (⟨kind, ref, caller, member a⟩ : Use)) = some u →
      kind = .invokeSpecial ∧ u.caller = caller := by
    intro α found kind ref caller member h
    obtain ⟨a, -, rfl⟩ := Option.map_eq_some_iff.1 h
    exact ⟨hkind, rfl⟩
  have hinstance : ∀ {ref : ClassId} {name : String} {type : Signature},
      instanceUse? G ref name type = some u → False := by
    intro ref name type h
    unfold instanceUse? at h
    split at h
    · cases (hmapped h).1
    · cases (hmapped h).1
  cases op with
  | findStatic => cases (hmapped hu).1
  | findVirtual => exact (hinstance hu).elim
  | findSpecial ref name type caller => exact ⟨⟨caller, (hmapped hu).2⟩, fun _ => rfl⟩
  | bind => exact (hinstance hu).elim
  | findGetter => cases (hmapped hu).1
  | findSetter => cases (hmapped hu).1
  | findStaticGetter => cases (hmapped hu).1
  | findStaticSetter => cases (hmapped hu).1
  | findConstructor ref type =>
    simp only [use?] at hu
    split at hu
    · cases hu
    · cases (hmapped hu).1
  | unreflectSpecial m caller =>
    simp only [use?] at hu
    split at hu
    · cases hu
    · exact ⟨⟨caller, Option.some.inj hu ▸ rfl⟩, fun _ => rfl⟩
  | unreflect | unreflectConstructor | unreflectGetter | unreflectSetter =>
    simp only [use?] at hu
    grind

end MemberOp

/-- What a lookup is entitled to when it gets a handle for a use: the class is accessible, the member
passes the access rule for the lookup's class and modes, every class that it is declared with is
visible from the class it is used through, a field that is written is not final, and a call without
dispatch is the lookup class's own, on its own instances, with private access. -/
structure Lookup.Entitled (C : Classes) (l : Lookup) (u : Use) (h : Handle) : Prop where
  ref : C.graph.classAccessible u.ref l.cls l.modes = true
  member : C.graph.memberAccessible u.ref u.owner (judgedFlags u.kind (u.flags C.graph)) l.cls
    l.modes = true
  visible : ∀ t ∈ u.member.types C.graph,
    C.graph.typeVisible C.table.loaders t u.ref = true
  notFinal : u.kind.isSetter = true → (u.flags C.graph).isFinal = false
  special : u.kind = .invokeSpecial → l.hasPrivateAccess = true ∧ u.caller = some l.cls ∧
    C.graph.isSubclass l.cls u.ref = true ∧ h.type.params.head? = some (.cls l.cls)

/-- The signature that is checked names every class that the member is declared with. -/
theorem Use.visible_of_signature {C : Classes} {u : Use} (hu : C.graph.UsesMember u)
    {key : MemberKey} (hkey : u.key? C.graph = some key)
    (hs : ∀ s, u.signature C.graph = .ok s → C.signatureVisible s u.ref = true) :
    ∀ t ∈ u.member.types C.graph, C.graph.typeVisible C.table.loaders t u.ref = true := by
  have htypes : ∀ {s : Signature}, C.signatureVisible s u.ref = true → ∀ t,
      t = s.ret ∨ t ∈ s.params → C.graph.typeVisible C.table.loaders t u.ref = true := by
    intro s hvisible t ht
    simp only [Classes.signatureVisible, ClassGraph.signatureVisible, Bool.and_eq_true,
      List.all_eq_true] at hvisible
    rcases ht with rfl | ht
    · exact hvisible.1
    · exact hvisible.2 t ht
  have htype := (key?_eq_some_iff.1 hkey).1
  obtain ⟨kind, ref, caller, m | f⟩ := u
  · -- a method is checked as it is declared
    have htype : (Signature.ofDescriptor (C.graph.method m).desc).bind
        (Lookup.methodType kind ref caller) = .ok key.type := htype
    cases hd : Signature.ofDescriptor (C.graph.method m).desc with
    | error e =>
      rw [hd] at htype
      cases htype
    | ok s =>
      obtain ⟨hret, hparams⟩ := Signature.of_eq_ok_iff.1 hd
      intro t ht
      apply htypes (hs s hd) t
      rw [hret, hparams]
      exact List.mem_cons.1 ht
  · have hf : C.graph.UsesField kind ref f := hu
    intro t ht
    obtain rfl : t = (C.graph.field f).type := List.mem_singleton.1 ht
    have htype : Lookup.fieldHandleType kind ref (C.graph.field f).type = .ok key.type := htype
    apply htypes (hs key.type htype)
    have hfield := hf.isField
    cases kind <;> first
      | exact absurd hfield (by decide)
      | obtain ⟨hret, hparams⟩ := Signature.of_eq_ok_iff.1 htype
        simp [hret, hparams]

/-- A handle that calls without dispatch takes the caller's instances. -/
theorem Use.receiver_of_special {G : ClassGraph} {u : Use} (hu : G.UsesMember u)
    (hkind : u.kind = .invokeSpecial) {c : ClassId} (hc : u.caller = some c) {key : MemberKey}
    (hkey : u.key? G = some key) : key.type.params.head? = some (.cls c) := by
  have htype := (key?_eq_some_iff.1 hkey).1
  obtain ⟨kind, ref, caller, m | f⟩ := u
  · obtain rfl : kind = .invokeSpecial := hkind
    obtain rfl : caller = some c := hc
    rw [(type_method_eq_ok_iff.1 htype).1]
    rfl
  · have hf : G.UsesField kind ref f := hu
    obtain rfl : kind = .invokeSpecial := hkind
    cases hf.isField

/-- **Complete mediation.** Whatever lookups share a member cache and whatever they have looked up, a
handle that a lookup without trust gets is on the one member that its own look-up comes down to, and
to that the lookup is entitled. Protected constructors count as package-private throughout, unless
one is taken as a method. -/
theorem Lookup.mediated {C : Classes} (hG : C.graph.MembersNumbered) (hD : C.graph.NamesUnique)
    {m : Machine} {on : Bool} (hm : m.members = .empty on) {before : List (Lookup × MemberOp)}
    (hbefore : ∀ p ∈ before, p.2.IsValid C.graph) {l : Lookup} (hl : l.trusted = false)
    {op : MemberOp} (hop : op.IsValid C.graph) {h : Handle} {m' : Machine}
    (hh : l.perform C op (m.afterLookups C before) = .ok h m') :
    ∃ u, op.use? C.graph = some u ∧ (∀ r, h.Holds r ↔ r = u.member) ∧ l.Entitled C u h ∧
      (op.takesConstructor C.graph = false →
        C.graph.memberAccessible u.ref u.owner (u.strictFlags C.graph) l.cls l.modes = true) := by
  obtain ⟨u, key, es, hu, hkey, hgranted, hanswer⟩ := exists_use_of_perform hh
  have hpermits : l.Permits C u := by
    rcases hgranted with htrusted | hpermits
    · rw [hl] at htrusted
      cases htrusted
    · exact hpermits
  have hK := ClassGraph.keysDetermineMembers_of_membersDistinct hG hD.membersDistinct
  have hreachable : u.Reachable C.graph := ⟨op, hop, hu⟩
  obtain ⟨base, m₁, hbase, hholds, hsame⟩ := MemberOp.exists_cached_of_answer hanswer
  obtain ⟨htype, hmember⟩ := member?_of_cached hK hm hbefore hreachable hkey hbase
  refine ⟨u, hu, fun r => (hholds r).trans (Handle.holds_of_member? hmember r), ?_, ?_⟩
  · refine ⟨hpermits.ref, hpermits.member, ?_, hpermits.notFinal, fun hkind => ?_⟩
    · exact Use.visible_of_signature (ClassGraph.usesMember_of_reachable hG hreachable) hkey
        hpermits.signature
    · obtain ⟨⟨c, hc⟩, hfinish⟩ := MemberOp.special_of_kind hu hkind
      obtain ⟨hprivate, rfl, hsub⟩ := hpermits.special c hc
      refine ⟨hprivate, hc, hsub, ?_⟩
      rw [hsame hkind hfinish, htype]
      exact Use.receiver_of_special (ClassGraph.usesMember_of_reachable hG hreachable) hkind hc hkey
  · intro htakes
    rw [← MemberOp.judgedFlags_eq_strictFlags hG hop hu htakes]
    exact hpermits.member

/-! ## A constructor taken as a method -/

/-- The class `p/A` with a protected constructor, and a class `q/B` that extends it. -/
def ClassGraph.protectedInit : ClassGraph where
  defined := #[
    ⟨"p/A", ⟨0x0001⟩, .bootstrap, some ClassId.object, [],
      [.withBody MethodDecl.constructorName ⟨[], .void⟩ ⟨0x0004⟩], []⟩,
    ⟨"q/B", ⟨0x0001⟩, .bootstrap, some bootstrapCount, [], [], []⟩]
  older := by
    rintro (_ | _ | i) d hd s hs
    · obtain rfl := Option.some.inj hd
      obtain rfl : s = ClassId.object := by simpa [ClassDecl.supers] using hs
      decide
    · obtain rfl := Option.some.inj hd
      obtain rfl : s = bootstrapCount := by simpa [ClassDecl.supers] using hs
      decide
    · simp at hd

/-- Every class of the graph declares the one constructor or nothing. -/
private theorem ClassGraph.protectedInit_small (c : ClassId) :
    (∀ i a, (protectedInit.decl c).methods[i]? = some a → i = 0 ∧ a.desc.ret = .void) ∧
      (protectedInit.decl c).methods.length ≤ 1 ∧ (protectedInit.decl c).fields = [] := by
  obtain ⟨hlength, hret, hfields⟩ := forall_decl (G := protectedInit)
    (p := fun d => d.methods.length ≤ 1 ∧ (∀ a ∈ d.methods, a.desc.ret = .void) ∧ d.fields = [])
    (by decide) (by decide) (by decide) c
  refine ⟨fun i a ha => ⟨?_, hret a (List.mem_of_getElem? ha)⟩, hlength, hfields⟩
  have hi := (List.getElem?_eq_some_iff.1 ha).1
  omega

theorem ClassGraph.protectedInit_numbered : protectedInit.MembersNumbered where
  methods c := Nat.le_trans (protectedInit_small c).2.1 (by decide)
  fields c := by
    rw [(protectedInit_small c).2.2]
    decide

theorem ClassGraph.protectedInit_unique : protectedInit.NamesUnique where
  methods c i j a b ha hb _ _ := by
    rw [((protectedInit_small c).1 i a ha).1, ((protectedInit_small c).1 j b hb).1]
  fields c i j a b ha := by
    rw [(protectedInit_small c).2.2] at ha
    cases ha
  constructors c a ha _ := by
    obtain ⟨i, hi⟩ := List.mem_iff_getElem?.1 ha
    exact ((protectedInit_small c).1 i a hi).2

/-- The lookup of `q/B` gets a handle on the protected constructor of `p/A` as a method at hand, from
the cache that a trusted lookup has filled. It is entitled to a protected method, but not to the
constructor: taken as what it is the look-up is refused. -/
theorem Lookup.mediated_of_protectedInit :
    ∃ h m' u,
      (full (bootstrapCount + 1)).perform ⟨.protectedInit, .initial⟩ (.unreflect ⟨bootstrapCount, 0⟩)
          ((Machine.initial true).afterLookups ⟨.protectedInit, .initial⟩
            [(.trustedLookup, .unreflect ⟨bootstrapCount, 0⟩)]) = .ok h m' ∧
        (∀ r, h.Holds r ↔ r = .method ⟨bootstrapCount, 0⟩) ∧
        (full (bootstrapCount + 1)).Entitled ⟨.protectedInit, .initial⟩ u h ∧
        ClassGraph.memberAccessible .protectedInit u.ref u.owner (u.strictFlags .protectedInit)
          (bootstrapCount + 1) .all = false ∧
        ∃ d m'', (full (bootstrapCount + 1)).perform ⟨.protectedInit, .initial⟩
          (.unreflectConstructor ⟨bootstrapCount, 0⟩) m' =
            .error (.denied d (full (bootstrapCount + 1))) m'' := by
  obtain ⟨h, m', hh⟩ : ∃ h m', (full (bootstrapCount + 1)).perform ⟨.protectedInit, .initial⟩
      (.unreflect ⟨bootstrapCount, 0⟩) ((Machine.initial true).afterLookups
        ⟨.protectedInit, .initial⟩ [(.trustedLookup, .unreflect ⟨bootstrapCount, 0⟩)]) = .ok h m' :=
    ⟨_, _, rfl⟩
  have hvalid : (MemberOp.unreflect ⟨bootstrapCount, 0⟩).IsValid .protectedInit := Nat.succ_pos 0
  have hempty : (Machine.initial true).members = .empty true := rfl
  have hbefore : ∀ p ∈ [(trustedLookup, MemberOp.unreflect ⟨bootstrapCount, 0⟩)],
      p.2.IsValid .protectedInit := by
    intro p hp
    obtain rfl := List.mem_singleton.1 hp
    exact hvalid
  obtain ⟨u, hu, hholds, hentitled, -⟩ := mediated (C := ⟨.protectedInit, .initial⟩)
    ClassGraph.protectedInit_numbered ClassGraph.protectedInit_unique hempty hbefore rfl hvalid hh
  have huse : (MemberOp.unreflect ⟨bootstrapCount, 0⟩).use? .protectedInit =
      some ⟨.invokeVirtual, bootstrapCount, none, .method ⟨bootstrapCount, 0⟩⟩ := rfl
  obtain rfl := Option.some.inj (huse.symm.trans hu)
  exact ⟨h, m', _, hh, hholds, hentitled, by decide, _, _, rfl⟩

end HandleCalculus
