import HandleCalculus.Proofs.Entries
import HandleCalculus.Proofs.MemberUse

/-!
# When the member cache can be noticed

Two machines run the same look-ups, one with a member cache and one without. The cache is invisible
if each look-up comes out the same on both: one error, or handles that are equivalent. The handles
are never the same handle, as each machine numbers its own, so outcomes are compared by a relation
(`Agree`) and runs by what the relation says of their outcomes (`Link.Alike`).

What carries the runs is that every handle in the cache is the one its key's use would make
(`MemberCache.Faithful`). A look-up leaves that so if the key says which member it is for, and
under that condition the cache is invisible. The other way round, a trusted lookup does nothing but
ask the cache, so with it two members under one key are told from each other at once.
-/

set_option autoImplicit false

namespace HandleCalculus

/-! ## What equivalence is kept by -/

namespace Handle

variable {eq : Value → Value → Bool} {a b : Handle}

theorem type_eq_of_equivalent (h : a.equivalentBy eq b = true) : a.type = b.type :=
  (equivalentBy_iff.1 h).1

theorem variant_eq_of_equivalent (h : a.equivalentBy eq b = true) : a.variant = b.variant :=
  Node.variant_eq_of_equivalent (equivalentBy_iff.1 h).2

theorem isVarargs_eq_variant (h : Handle) : h.isVarargs = (h.variant == .varargs) := by
  obtain ⟨s, t, m⟩ := h
  cases m <;> rfl

theorem isVarargs_eq_of_equivalent (h : a.equivalentBy eq b = true) :
    a.isVarargs = b.isVarargs := by
  rw [isVarargs_eq_variant, isVarargs_eq_variant, variant_eq_of_equivalent h]

theorem asFixedArity_equivalent (h : a.equivalentBy eq b = true) :
    a.asFixedArity.equivalentBy eq b.asFixedArity = true := by
  obtain ⟨s, t, m⟩ := a
  obtain ⟨s', t', n⟩ := b
  have hn : Node.equivalentBy eq m n = true := (equivalentBy_iff.1 h).2
  have hvariant : m.variant = n.variant := Node.variant_eq_of_equivalent hn
  cases m with
  | varargs h a c =>
    obtain ⟨k, c', rfl, hk⟩ := Node.equivalentBy_varargs_iff.1 hn
    exact hk
  | _ =>
    -- neither is of variable arity
    cases n with
    | varargs => cases hvariant
    | _ => exact h

end Handle

/-- Two outcomes that agree: values that `R` relates, or one and the same error. -/
inductive Agree {α : Type} (R : α → α → Prop) : Except Error α → Except Error α → Prop where
  | ok {a b : α} (h : R a b) : Agree R (.ok a) (.ok b)
  | error (e : Error) : Agree R (.error e) (.error e)

theorem Agree.mono {α : Type} {R S : α → α → Prop} {x y : Except Error α} (h : Agree R x y)
    (hRS : ∀ a b, R a b → S a b) : Agree S x y := by
  cases h with
  | ok h => exact .ok (hRS _ _ h)
  | error e => exact .error e

/-- Equivalence of handles as a relation. -/
def Handle.Equiv (a b : Handle) : Prop := a.equivalent b = true

namespace Handle

variable {a b : Handle} {s s' : Stamp}

theorem agree_retype (h : a.Equiv b) (t : Signature) :
    Agree Equiv (a.retype s t) (b.retype s' t) := by
  unfold retype
  rw [type_eq_of_equivalent h]
  split
  · exact .ok (equivalentBy_iff.2 ⟨rfl, (equivalentBy_iff.1 h).2⟩)
  · exact .error _

theorem agree_insertArguments (G : ClassGraph) (h : a.Equiv b) (pos : Nat) (vs : List Value) :
    Agree Equiv (a.insertArguments G s pos vs) (b.insertArguments G s' pos vs) := by
  unfold insertArguments
  rw [type_eq_of_equivalent h]
  simp only [bind, Except.bind, pure, Except.pure, throw, throwThe, MonadExceptOf.throw]
  split
  · exact .error _
  · cases coerceAll G vs (b.type.params.drop pos) with
    | error e => exact .error e
    | ok bound =>
      simp only
      split
      · exact .ok h
      · cases b.type.dropParams pos (pos + bound.length) with
        | error e => exact .error e
        | ok new =>
          exact .ok (equivalentBy_iff.2 ⟨rfl, Node.equivalentBy_insert_iff.2
            ⟨b, _, rfl, List.isEqv_of_refl Value.same_refl bound, h⟩⟩)

theorem agree_bindTo (G : ClassGraph) (h : a.Equiv b) (v : Value) :
    Agree Equiv (a.bindTo G s v) (b.bindTo G s' v) := by
  unfold bindTo
  rw [type_eq_of_equivalent h]
  split
  · exact .error _
  · exact agree_insertArguments G h 0 [v]

private theorem collectsInto_eq_of_equivalent (h : a.equivalent b = true) (t : Ty) :
    a.collectsInto t = b.collectsInto t := by
  obtain ⟨s, t', m⟩ := a
  obtain ⟨s', t'', n⟩ := b
  have hn : Node.equivalent m n = true := (equivalentBy_iff.1 h).2
  have hvariant : m.variant = n.variant := Node.variant_eq_of_equivalent hn
  cases m with
  | varargs h a c =>
    obtain ⟨k, c', rfl, -⟩ := Node.equivalentBy_varargs_iff.1 hn
    rfl
  | _ =>
    cases n with
    | varargs => cases hvariant
    | _ => rfl

theorem agree_asVarargsCollector (G : ClassGraph) (h : a.Equiv b) (t : Ty) :
    Agree Equiv (a.asVarargsCollector G s t) (b.asVarargsCollector G s' t) := by
  unfold asVarargsCollector
  rw [type_eq_of_equivalent h, collectsInto_eq_of_equivalent h]
  split
  · exact .ok h
  · split
    · exact .error _
    · split
      · exact .ok (equivalentBy_iff.2
          ⟨rfl, Node.equivalentBy_varargs_iff.2 ⟨_, _, rfl, asFixedArity_equivalent h⟩⟩)
      · exact .error _

end Handle

/-! ## Two runs of a look-up -/

/-- What a computation that makes handles comes to, and the machine it leaves. -/
def Link.start {α : Type} (x : Link α) (m : Machine) : Except Error α × Machine :=
  match x m with
  | .ok a m => (.ok a, m)
  | .error e m => (.error e, m)

theorem Link.start_of_ok {α : Type} {x : Link α} {m m' : Machine} {a : α} (h : x m = .ok a m') :
    x.start m = (.ok a, m') := by rw [start, h]

theorem Link.start_of_error {α : Type} {x : Link α} {m m' : Machine} {e : Error}
    (h : x m = .error e m') : x.start m = (.error e, m') := by rw [start, h]

/-- The cache is in use, and each handle in it is equivalent to what would be made for any use that
comes under its key. -/
structure MemberCache.Faithful (G : ClassGraph) (c : MemberCache) : Prop where
  enabled : c.enabled = true
  right : ∀ k h, c.find? k = some h → ∀ u : Use, u.Reachable G → u.key? G = some k →
    h.Equiv (u.handle G k.type 0)

/-- A new entry is right for every use that comes under its key, since they are uses of one
member. -/
theorem MemberCache.Faithful.insert {G : ClassGraph} {c : MemberCache} (hc : c.Faithful G)
    (hG : G.KeysDetermineMembers) {u : Use} (hu : u.Reachable G) {key : MemberKey}
    (hkey : u.key? G = some key) (s : Stamp) (hits misses : Nat) :
    (⟨c.enabled, (key, u.handle G key.type s) :: c.entries, hits, misses⟩ :
      MemberCache).Faithful G := by
  refine ⟨hc.enabled, fun k h hfind v hv hvk => ?_⟩
  rcases lookup_cons_cases hfind with ⟨rfl, rfl⟩ | hold
  · obtain ⟨-, hucls, -, hukind⟩ := Use.key?_eq_some_iff.1 hkey
    obtain ⟨-, hvcls, -, hvkind⟩ := Use.key?_eq_some_iff.1 hvk
    have hmember := hG u v hu hv k hkey hvk
    rw [← Use.handle_congr (hukind.symm.trans hvkind) (hucls.symm.trans hvcls) hmember]
    exact Use.handle_equivalent _ _ _
  · exact hc.right k h hold v hv hvk

/-- Run where the member cache is in use, and run where it is not, the two computations come to the
same up to `R`. -/
def Link.Alike {α : Type} (G : ClassGraph) (R : α → α → Prop) (x y : Link α) : Prop :=
  ∀ m n : Machine, m.members.Faithful G → n.members.enabled = false →
    Agree R (x.start m).1 (y.start n).1 ∧ (x.start m).2.members.Faithful G ∧
      (y.start n).2.members.enabled = false

theorem Link.start_bind {α β : Type} (x : Link α) (f : α → Link β) (m : Machine) :
    (x >>= f).start m =
      match x.start m with
      | (.ok a, m) => (f a).start m
      | (.error e, m) => (.error e, m) := by
  simp only [start, Bind.bind, EStateM.bind]
  cases x m <;> rfl

namespace Link.Alike

variable {α β : Type} {G : ClassGraph} {R : α → α → Prop} {S : β → β → Prop}

theorem bind {x y : Link α} {f g : α → Link β} (hx : Link.Alike G R x y)
    (hf : ∀ a b, R a b → Link.Alike G S (f a) (g b)) : Link.Alike G S (x >>= f) (y >>= g) := by
  intro m n hm hn
  obtain ⟨hagree, hm', hn'⟩ := hx m n hm hn
  rw [start_bind, start_bind]
  generalize x.start m = p at hagree hm'
  generalize y.start n = q at hagree hn'
  obtain ⟨r, m'⟩ := p
  obtain ⟨r', n'⟩ := q
  cases hagree with
  | ok h => exact hf _ _ h m' n' hm' hn'
  | error e => exact ⟨.error e, hm', hn'⟩

theorem pure {a b : α} (h : R a b) : Link.Alike G R (Pure.pure a) (Pure.pure b) :=
  fun _ _ hm hn => ⟨.ok h, hm, hn⟩

theorem throw (e : Error) : Link.Alike G R (throw e) (throw e) :=
  fun _ _ hm hn => ⟨.error e, hm, hn⟩

theorem report (e : Event) : Link.Alike G (fun _ _ => True) (Link.report e) (Link.report e) :=
  fun _ _ hm hn => ⟨.ok trivial, hm, hn⟩

/-- A computation that does not look at the machine, with its value known. -/
theorem ofExcept (x : Except Error α) :
    Link.Alike G (fun a b => a = b ∧ x = .ok a) (Link.ofExcept x) (Link.ofExcept x) := by
  intro m n hm hn
  cases x with
  | ok a => exact ⟨.ok ⟨rfl, rfl⟩, hm, hn⟩
  | error e => exact ⟨.error e, hm, hn⟩

/-- Making handles under whatever identities. -/
theorem build {f g : Stamp → Except Error Handle}
    (h : ∀ s s', Agree Handle.Equiv (f s) (g s')) :
    Link.Alike G Handle.Equiv (Link.build f) (Link.build g) := by
  intro m n hm hn
  have hagree := h m.nextStamp n.nextStamp
  unfold Link.start Link.build
  cases hf : f m.nextStamp with
  | ok a =>
    cases hg : g n.nextStamp with
    | ok b =>
      rw [hf, hg] at hagree
      exact ⟨hagree, hm, hn⟩
    | error e =>
      rw [hf, hg] at hagree
      cases hagree
  | error e =>
    rw [hf] at hagree
    generalize g n.nextStamp = r at hagree
    cases hagree
    exact ⟨.error e, hm, hn⟩

end Link.Alike

namespace Lookup

variable {G : ClassGraph} (C : Classes) (l : Lookup)

theorem alike_checkClass (c : ClassId) :
    Link.Alike G (fun _ _ => True) (l.checkClass C c) (l.checkClass C c) := by
  unfold checkClass
  by_cases ht : l.trusted
  · rw [if_pos ht]
    exact .pure trivial
  · rw [if_neg ht]
    refine .bind (.report _) fun _ _ _ => ?_
    split
    · exact .throw _
    · exact .pure trivial

theorem alike_deny {α : Type} {R : α → α → Prop} (d : Denial) :
    Link.Alike G R (l.deny d) (l.deny d) := .throw _

theorem alike_checkMember (kind : RefKind) (ref owner : ClassId) (mods : Flags)
    (member : MemberRef) :
    Link.Alike G (fun _ _ => True) (l.checkMember C kind ref owner mods member)
      (l.checkMember C kind ref owner mods member) := by
  unfold checkMember
  by_cases ht : l.trusted
  · rw [if_pos ht]
    exact .pure trivial
  · rw [if_neg ht]
    cases member with
    | method m =>
      refine .bind (.report _) fun _ _ _ => ?_
      split
      · exact l.alike_deny _
      · exact .pure trivial
    | field f =>
      dsimp only
      split
      · exact .bind (R := fun _ _ => True) (l.alike_deny _) fun _ _ _ =>
          .bind (.report _) fun _ _ _ => by split; exact l.alike_deny _; exact .pure trivial
      · refine .bind (.report _) fun _ _ _ => ?_
        split
        · exact l.alike_deny _
        · exact .pure trivial

theorem alike_checkSignature (s : Signature) (ref : ClassId) :
    Link.Alike G (fun _ _ => True) (l.checkSignature C s ref) (l.checkSignature C s ref) := by
  unfold checkSignature
  split
  · exact .pure trivial
  · exact .throw _

theorem alike_checkSpecialCaller (ref caller : ClassId) :
    Link.Alike G (fun _ _ => True) (l.checkSpecialCaller C ref caller)
      (l.checkSpecialCaller C ref caller) := by
  unfold checkSpecialCaller
  by_cases ht : l.trusted
  · rw [if_pos ht]
    exact .pure trivial
  · rw [if_neg ht]
    dsimp only
    split
    · refine .bind (R := fun _ _ => True) (l.alike_deny _) fun _ _ _ => ?_
      split
      · exact l.alike_deny _
      · exact .pure trivial
    · split
      · exact l.alike_deny _
      · exact .pure trivial

theorem alike_narrow {a b : Handle} (h : a.Equiv b) :
    Link.Alike G Handle.Equiv (l.narrow a) (l.narrow b) := by
  refine .build fun s s' => ?_
  rw [Handle.type_eq_of_equivalent h]
  show Agree _ (Except.bind _ _) (Except.bind _ _)
  cases b.type.changeParam 0 (.cls l.cls) with
  | error e => exact .error e
  | ok t => exact Handle.agree_retype h t

/-- The computation makes the handle of a use and never fails. -/
def Makes (G : ClassGraph) (u : Use) (type : Signature) (make : Link Handle) : Prop :=
  ∀ m, ∃ s, make m = .ok (u.handle G type m.nextStamp) { m with nextStamp := s }

variable {u : Use} {key : MemberKey} {make : Link Handle} {m : Machine}

/-- Without the cache the handle is made. -/
theorem cached_of_disabled (hmake : Makes G u key.type make) (hm : m.members.enabled = false) :
    ((cached key make).start m).1 = .ok (u.handle G key.type m.nextStamp) ∧
      ((cached key make).start m).2.members = m.members := by
  obtain ⟨s, hs⟩ := hmake m
  simp [Link.start, cached, hm, hs, Machine.report]

/-- What is found is answered. -/
theorem cached_of_find? (make : Link Handle) (hm : m.members.enabled = true) {h : Handle}
    (hfind : m.members.find? key = some h) :
    ((cached key make).start m).1 = .ok h ∧
      ((cached key make).start m).2.members =
        { m.members with hits := m.members.hits + 1 } := by
  simp [Link.start, cached, hm, MemberCache.read, hfind, Machine.report]

/-- What is not found is made and kept. -/
theorem cached_of_find?_none (hmake : Makes G u key.type make) (hm : m.members.enabled = true)
    (hfind : m.members.find? key = none) :
    ((cached key make).start m).1 = .ok (u.handle G key.type m.nextStamp) ∧
      ((cached key make).start m).2.members =
        ⟨m.members.enabled, (key, u.handle G key.type m.nextStamp) :: m.members.entries,
          m.members.hits, m.members.misses + 1⟩ := by
  obtain ⟨c, hread, hc, hfind⟩ : ∃ c, m.members.read key = (none, c) ∧
      c = { m.members with misses := m.members.misses + 1 } ∧ c.find? key = none :=
    ⟨_, by rw [MemberCache.read, hfind], rfl, hfind⟩
  obtain ⟨s, hs⟩ := hmake { m with members := c }
  have hmade : ((cached key make).start m).1 = .ok (u.handle G key.type m.nextStamp) ∧
      ((cached key make).start m).2.members =
        ⟨c.enabled, (key, u.handle G key.type m.nextStamp) :: c.entries, c.hits, c.misses⟩ := by
    clear hc
    simp [Link.start, cached, hm, hread, hs, MemberCache.insertIfAbsent, hfind, Machine.report]
  rw [hmade.1, hmade.2, hc]
  exact ⟨rfl, rfl⟩

/-- The handle of a use comes out the same whether it is made or found, if keys determine
members. -/
theorem alike_cached (hG : G.KeysDetermineMembers) (hu : u.Reachable G)
    (hkey : u.key? G = some key) (hmake : Makes G u key.type make) :
    Link.Alike G Handle.Equiv (cached key make) (cached key make) := by
  intro m n hm hn
  obtain ⟨hplain, hplain'⟩ := cached_of_disabled hmake hn
  rw [hplain, hplain']
  cases hfind : m.members.find? key with
  | some h =>
    obtain ⟨hhit, hhit'⟩ := cached_of_find? make hm.enabled hfind
    rw [hhit, hhit']
    have hright := hm.right key h hfind u hu hkey
    exact ⟨.ok (Handle.equivalent_trans hright (Use.handle_equivalent _ _ _)),
      ⟨hm.enabled, hm.right⟩, hn⟩
  | none =>
    obtain ⟨hmiss, hmiss'⟩ := cached_of_find?_none hmake hm.enabled hfind
    rw [hmiss, hmiss']
    exact ⟨.ok (Use.handle_equivalent _ _ _), hm.insert hG hu hkey _ _ _, hn⟩

variable (hG : C.graph.KeysDetermineMembers)
include hG

theorem alike_methodHandle {kind : RefKind} {ref : ClassId} {m : MethodRef}
    {caller : Option ClassId} (hu : Use.Reachable C.graph ⟨kind, ref, caller, .method m⟩)
    (restrict : Bool) :
    Link.Alike C.graph Handle.Equiv (l.methodHandle C kind ref m caller restrict)
      (l.methodHandle C kind ref m caller restrict) := by
  unfold methodHandle
  refine .bind (l.alike_checkMember C _ _ _ _ _) fun _ _ _ => ?_
  refine .bind (.ofExcept _) fun declared _ ⟨heq, hdeclared⟩ => ?_
  subst heq
  refine .bind (l.alike_checkSignature C _ _) fun _ _ _ => ?_
  refine .bind (.ofExcept _) fun type _ ⟨heq, htype⟩ => ?_
  subst heq
  have hkey : (⟨kind, ref, caller, .method m⟩ : Use).key? C.graph =
      some ⟨ref, (C.graph.method m).name, type, kind⟩ := by
    refine Use.key?_eq_some_iff.2 ⟨?_, rfl, rfl, rfl⟩
    simp only [Use.type, hdeclared, Except.bind, htype]
  refine .bind (alike_cached hG hu hkey fun s => makeMethodHandle_eq _ _ _ _ _ _ _)
    fun a b hab => ?_
  split
  · exact l.alike_narrow hab
  · exact .pure hab

theorem alike_fieldHandle {kind : RefKind} {ref : ClassId} {f : FieldRef}
    (hu : Use.Reachable C.graph ⟨kind, ref, none, .field f⟩) :
    Link.Alike C.graph Handle.Equiv (l.fieldHandle C kind ref f) (l.fieldHandle C kind ref f) := by
  unfold fieldHandle
  refine .bind (l.alike_checkMember C _ _ _ _ _) fun _ _ _ => ?_
  refine .bind (.ofExcept _) fun type _ ⟨heq, htype⟩ => ?_
  subst heq
  refine .bind (l.alike_checkSignature C _ _) fun _ _ _ => ?_
  have hkey : (⟨kind, ref, none, .field f⟩ : Use).key? C.graph =
      some ⟨ref, (C.graph.field f).name, type, kind⟩ :=
    Use.key?_eq_some_iff.2 ⟨htype, rfl, rfl, rfl⟩
  refine .bind (alike_cached hG hu hkey fun s => ⟨_, rfl⟩) fun a b hab => ?_
  split
  · exact l.alike_narrow hab
  · exact .pure hab

omit hG in
theorem alike_resolved {α : Type} (x : Except ResolutionError α) :
    Link.Alike G (fun a b => a = b ∧ x.toOption = some a) (resolved x) (resolved x) := by
  cases x with
  | ok a => exact .pure ⟨rfl, rfl⟩
  | error e => exact .throw _

theorem alike_findInstance {op : MemberOp} (hop : op.IsValid C.graph) {ref : ClassId}
    {name : String} {type : Signature}
    (huse : op.use? C.graph = MemberOp.instanceUse? C.graph ref name type) (restrict : Bool) :
    Link.Alike C.graph Handle.Equiv (l.findInstance C ref name type restrict)
      (l.findInstance C ref name type restrict) := by
  unfold findInstance
  refine .bind (l.alike_checkClass C _) fun _ _ _ => ?_
  unfold MemberOp.instanceUse? at huse
  by_cases hi : C.graph.isInterface ref = true
  · rw [if_pos hi] at huse ⊢
    refine .bind (alike_resolved _) fun m _ ⟨heq, hm⟩ => ?_
    subst heq
    exact l.alike_methodHandle C hG ⟨op, hop, by rw [huse, hm]; rfl⟩ _
  · rw [if_neg hi] at huse ⊢
    refine .bind (alike_resolved _) fun m _ ⟨heq, hm⟩ => ?_
    subst heq
    exact l.alike_methodHandle C hG ⟨op, hop, by rw [huse, hm]; rfl⟩ _

theorem alike_findField {op : MemberOp} (hop : op.IsValid C.graph) {kind : RefKind}
    {ref : ClassId} {name : String} {type : Ty}
    (huse : op.use? C.graph = MemberOp.fieldUse? C.graph kind ref name type) :
    Link.Alike C.graph Handle.Equiv (l.findField C kind ref name type)
      (l.findField C kind ref name type) := by
  unfold findField
  refine .bind (l.alike_checkClass C _) fun _ _ _ => ?_
  refine .bind (alike_resolved _) fun f _ ⟨heq, hf⟩ => ?_
  subst heq
  exact l.alike_fieldHandle C hG ⟨op, hop, by rw [huse, MemberOp.fieldUse?, hf]; rfl⟩

theorem alike_unreflectField {op : MemberOp} (hop : op.IsValid C.graph) {kind : RefKind}
    {f : FieldRef} (huse : op.use? C.graph = some ⟨kind, f.cls, none, .field f⟩) :
    Link.Alike C.graph Handle.Equiv (l.unreflectField C kind f) (l.unreflectField C kind f) := by
  unfold unreflectField
  refine .bind (l.alike_checkClass C _) fun _ _ _ => ?_
  refine .bind (.report _) fun _ _ _ => ?_
  exact l.alike_fieldHandle C hG ⟨op, hop, huse⟩

/-- Every look-up comes to the same with the cache and without. -/
theorem alike_perform (op : MemberOp) (hop : op.IsValid C.graph) :
    Link.Alike C.graph Handle.Equiv (l.perform C op) (l.perform C op) := by
  -- both runs check the same and resolve the same member, which is then asked of the cache
  cases op with
  | findStatic ref name type =>
    refine .bind (l.alike_checkClass C _) fun _ _ _ => ?_
    refine .bind (alike_resolved _) fun m _ ⟨heq, hm⟩ => ?_
    subst heq
    exact l.alike_methodHandle C hG ⟨_, hop, by rw [MemberOp.use?, hm]; rfl⟩ _
  | findVirtual ref name type => exact l.alike_findInstance C hG hop rfl true
  | findSpecial ref name type caller =>
    refine .bind (l.alike_checkSpecialCaller C _ _) fun _ _ _ => ?_
    refine .bind (l.alike_checkClass C _) fun _ _ _ => ?_
    refine .bind (alike_resolved _) fun m _ ⟨heq, hm⟩ => ?_
    subst heq
    exact l.alike_methodHandle C hG ⟨_, hop, by rw [MemberOp.use?, hm]; rfl⟩ _
  | findConstructor ref type =>
    refine .bind (l.alike_checkClass C _) fun _ _ _ => ?_
    dsimp only
    split
    · exact .throw _
    · next hret =>
      refine .bind (alike_resolved _) fun m _ ⟨heq, hm⟩ => ?_
      subst heq
      exact l.alike_methodHandle C hG ⟨_, hop, by rw [MemberOp.use?, if_neg hret, hm]; rfl⟩ _
  | findGetter ref name type => exact l.alike_findField C hG hop rfl
  | findSetter ref name type => exact l.alike_findField C hG hop rfl
  | findStaticGetter ref name type => exact l.alike_findField C hG hop rfl
  | findStaticSetter ref name type => exact l.alike_findField C hG hop rfl
  | bind receiver name type =>
    refine .bind (l.alike_findInstance C hG hop rfl false) fun a b hab => ?_
    refine .bind (.build fun s s' => Handle.agree_bindTo C.graph
      (Handle.asFixedArity_equivalent hab) (.obj receiver)) fun x y hxy => ?_
    rw [Handle.isVarargs_eq_of_equivalent hab, Handle.type_eq_of_equivalent hxy]
    split
    · exact .build fun s s' => Handle.agree_asVarargsCollector C.graph hxy _
    · exact .pure hxy
  | unreflect m =>
    refine .bind (l.alike_checkClass C _) fun _ _ _ => ?_
    exact l.alike_methodHandle C hG ⟨_, hop, rfl⟩ _
  | unreflectSpecial m caller =>
    refine .bind (l.alike_checkSpecialCaller C _ _) fun _ _ _ => ?_
    refine .bind (l.alike_checkClass C _) fun _ _ _ => ?_
    dsimp only
    split
    · exact .throw _
    · next hstatic =>
      exact l.alike_methodHandle C hG ⟨_, hop, by rw [MemberOp.use?, if_neg hstatic]⟩ _
  | unreflectConstructor m =>
    refine .bind (l.alike_checkClass C _) fun _ _ _ => ?_
    dsimp only
    split
    · exact .throw _
    · next habstract =>
      split
      · exact .throw _
      · next hinit =>
        exact l.alike_methodHandle C hG
          ⟨_, hop, by rw [MemberOp.use?, if_neg habstract, if_neg hinit]⟩ _
  | unreflectGetter f => exact l.alike_unreflectField C hG hop rfl
  | unreflectSetter f => exact l.alike_unreflectField C hG hop rfl

end Lookup

/-! ## Runs -/

/-- The machine after look-ups by any lookups, whatever came of them. -/
def Machine.afterLookups (C : Classes) (m : Machine) (ops : List (Lookup × MemberOp)) : Machine :=
  ops.foldl (fun m p => ((p.1.perform C p.2).start m).2) m

/-- The cache cannot be noticed: whatever has been looked up before, a look-up comes to the same as
in a fresh machine without the cache. -/
def Classes.CacheInvisible (C : Classes) : Prop :=
  ∀ (m n : Machine) (before : List (Lookup × MemberOp)) (l : Lookup) (op : MemberOp),
    m.members = .empty true → n.members = .empty false →
    (∀ p ∈ before, p.2.IsValid C.graph) → op.IsValid C.graph →
    Agree (fun a b => a.isEquivalent b = true)
      ((l.perform C op).start (m.afterLookups C before)).1 ((l.perform C op).start n).1

theorem MemberCache.faithful_empty (G : ClassGraph) : (MemberCache.empty true).Faithful G :=
  ⟨rfl, fun k h hk => by simp [MemberCache.find?, MemberCache.empty] at hk⟩

theorem Machine.faithful_afterLookups {C : Classes} (hG : C.graph.KeysDetermineMembers)
    {m n : Machine} {ops : List (Lookup × MemberOp)} (hm : m.members.Faithful C.graph)
    (hn : n.members.enabled = false) (hops : ∀ p ∈ ops, p.2.IsValid C.graph) :
    (m.afterLookups C ops).members.Faithful C.graph := by
  induction ops generalizing m with
  | nil => exact hm
  | cons p ops ih =>
    have hp := p.1.alike_perform C hG p.2 (hops p List.mem_cons_self) m n hm hn
    exact ih hp.2.1 fun q hq => hops q (List.mem_cons_of_mem _ hq)

theorem Classes.cacheInvisible_of_keysDetermineMembers {C : Classes}
    (hG : C.graph.KeysDetermineMembers) : C.CacheInvisible := by
  intro m n before l op hm hn hbefore hop
  have hplain : n.members.enabled = false := by rw [hn]; rfl
  have hfaithful : (m.afterLookups C before).members.Faithful C.graph :=
    Machine.faithful_afterLookups hG (hm ▸ MemberCache.faithful_empty C.graph) hplain hbefore
  obtain ⟨hagree, -, -⟩ := l.alike_perform C hG op hop _ n hfaithful hplain
  exact hagree.mono fun a b hab => (Handle.isEquivalent_eq a b).trans hab

/-! ## A trusted lookup notices

What a trusted lookup does is to look in the cache and nowhere else, so two members under one key
can be told from each other by looking one up after the other. -/

/-- A use is reached by a look-up other than `bind`, which does more. -/
theorem Use.Reachable.unbound {G : ClassGraph} {u : Use} (hu : u.Reachable G) :
    ∃ op : MemberOp, op.IsValid G ∧ op.use? G = some u ∧ ∀ o name type, op ≠ .bind o name type := by
  obtain ⟨op, hop, huse⟩ := hu
  by_cases hb : ∃ o name type, op = .bind o name type
  · obtain ⟨o, name, type, rfl⟩ := hb
    exact ⟨.findVirtual o.cls name type, trivial, huse, fun _ _ _ h => by cases h⟩
  · exact ⟨op, hop, huse, fun o name type h => hb ⟨o, name, type, h⟩⟩

/-- The member that a node runs or accesses by itself. -/
def Node.member? : Node Handle → Option MemberRef
  | .direct m _ | .virtual m .. => some (.method m)
  | .getField f .. | .setField f .. => some (.field f)
  | _ => none

theorem Node.member?_eq_of_equivalent {m n : Node Handle} (h : Node.equivalent m n = true) :
    m.member? = n.member? := by
  cases m with
  | direct => rw [equivalentBy_direct_iff.1 h]
  | virtual => rw [equivalentBy_virtual_iff.1 h]
  | getField => rw [equivalentBy_getField_iff.1 h]
  | setField => rw [equivalentBy_setField_iff.1 h]
  | _ =>
    -- the other node is of the same variant, so it has no member either
    have hvariant := variant_eq_of_equivalent h
    cases n <;> first
      | rfl
      | cases hvariant

/-- The member that a handle runs or accesses, whatever its arity. -/
def Handle.member? (h : Handle) : Option MemberRef := h.asFixedArity.node.member?

theorem Use.member?_node (G : ClassGraph) (u : Use) : (u.node G).member? = some u.member := by
  obtain ⟨kind, ref, caller, m | f⟩ := u
  · unfold node Lookup.methodNode
    cases kind <;> dsimp only <;> try rfl
    all_goals split <;> rfl
  · unfold node
    dsimp only
    split <;> rfl

theorem Use.member?_handle (G : ClassGraph) (u : Use) (t : Signature) (s : Stamp) :
    (u.handle G t s).member? = some u.member := by
  have hnode := u.member?_node G
  unfold handle
  split
  · exact hnode
  · unfold Handle.member? Handle.asFixedArity
    dsimp only
    split
    · next h => simp [h, Node.member?] at hnode
    · exact hnode

/-- Handles for uses of two members are never equivalent. -/
theorem Use.member_eq_of_equivalent {G : ClassGraph} {u v : Use} {t t' : Signature} {s s' : Stamp}
    (h : (u.handle G t s).equivalent (v.handle G t' s') = true) : u.member = v.member := by
  have hfixed := Handle.asFixedArity_equivalent h
  have hmember := Node.member?_eq_of_equivalent (Handle.equivalentBy_iff.1 hfixed).2
  have hu := u.member?_handle G t s
  have hv := v.member?_handle G t' s'
  exact Option.some.inj (hu.symm.trans (hmember.trans hv))

namespace Lookup

variable {C : Classes} {key : MemberKey}

theorem restrictsReceiver_trusted (G : ClassGraph) (owner : ClassId) (mods : Flags) :
    trustedLookup.restrictsReceiver G owner mods = false := by
  simp [restrictsReceiver, trustedLookup]

theorem methodHandle_trusted {kind : RefKind} {ref : ClassId} {m : MethodRef}
    {caller : Option ClassId} {type : Signature}
    (htype : (⟨kind, ref, caller, .method m⟩ : Use).type C.graph = .ok type) (restrict : Bool) :
    trustedLookup.methodHandle C kind ref m caller restrict =
      cached ⟨ref, (C.graph.method m).name, type, kind⟩
        (makeMethodHandle C.graph kind ref m type) := by
  unfold Use.type at htype
  dsimp only at htype
  cases hd : Signature.ofDescriptor (C.graph.method m).desc with
  | error e =>
    rw [hd] at htype
    cases htype
  | ok declared =>
    rw [hd] at htype
    have htype : methodType kind ref caller declared = .ok type := htype
    unfold methodHandle
    simp only [restrictsReceiver_trusted, Bool.and_false, Bool.false_eq_true, if_false, hd, htype,
      bind_pure, Link.ofExcept_ok_bind]
    rfl

theorem fieldHandle_trusted {kind : RefKind} {ref : ClassId} {f : FieldRef} {type : Signature}
    (htype : (⟨kind, ref, none, .field f⟩ : Use).type C.graph = .ok type) :
    trustedLookup.fieldHandle C kind ref f =
      cached ⟨ref, (C.graph.field f).name, type, kind⟩ (Link.build fun s =>
        .ok ((⟨kind, ref, none, .field f⟩ : Use).handle C.graph type s)) := by
  have htype : fieldHandleType kind ref (C.graph.field f).type = .ok type := htype
  unfold fieldHandle
  simp only [restrictsReceiver_trusted, Bool.and_false, Bool.false_eq_true, if_false, htype,
    bind_pure]
  rfl

/-- The computation asks the cache for a use and does nothing else that could fail. -/
def Asks (G : ClassGraph) (x : Link Handle) (u : Use) (type : Signature) : Prop :=
  ∃ (make : Link Handle) (before : Machine → Machine), Makes G u type make ∧
    (∀ m, (before m).members = m.members) ∧
    ∀ m, x m = cached ⟨u.ref, u.name G, type, u.kind⟩ make (before m)

variable {u : Use} {type : Signature}

theorem asks_methodHandle {kind : RefKind} {ref : ClassId} {m : MethodRef}
    {caller : Option ClassId} (hu : ⟨kind, ref, caller, .method m⟩ = u)
    (htype : u.type C.graph = .ok type) (restrict : Bool) :
    Asks C.graph (trustedLookup.methodHandle C kind ref m caller restrict) u type := by
  subst hu
  exact ⟨_, id, fun s => makeMethodHandle_eq _ _ _ _ _ _ _, fun _ => rfl,
    congrFun (methodHandle_trusted htype restrict)⟩

theorem asks_fieldHandle {kind : RefKind} {ref : ClassId} {f : FieldRef}
    (hu : ⟨kind, ref, none, .field f⟩ = u) (htype : u.type C.graph = .ok type) :
    Asks C.graph (trustedLookup.fieldHandle C kind ref f) u type := by
  subst hu
  exact ⟨_, id, fun s => ⟨_, rfl⟩, fun _ => rfl, congrFun (fieldHandle_trusted htype)⟩

theorem asks_resolved {α : Type} {x : Except ResolutionError α} {use : α → Use}
    {f : α → Link Handle} (hx : x.toOption.map use = some u)
    (hf : ∀ a, use a = u → Asks C.graph (f a) u type) :
    Asks C.graph (resolved x >>= f) u type := by
  cases x with
  | error e => cases hx
  | ok a => exact hf a (Option.some.inj hx)

theorem asks_findInstance {ref : ClassId} {name : String} {type' : Signature}
    (hu : MemberOp.instanceUse? C.graph ref name type' = some u)
    (htype : u.type C.graph = .ok type) (restrict : Bool) :
    Asks C.graph (trustedLookup.findInstance C ref name type' restrict) u type := by
  unfold MemberOp.instanceUse? at hu
  unfold findInstance
  show Asks C.graph (_ >>= _) u type
  by_cases hi : C.graph.isInterface ref = true
  · rw [if_pos hi] at hu ⊢
    exact asks_resolved hu fun m hm => asks_methodHandle hm htype restrict
  · rw [if_neg hi] at hu ⊢
    exact asks_resolved hu fun m hm => asks_methodHandle hm htype restrict

theorem asks_unreflectField {kind : RefKind} {f : FieldRef} (hu : ⟨kind, f.cls, none, .field f⟩ = u)
    (htype : u.type C.graph = .ok type) :
    Asks C.graph (trustedLookup.unreflectField C kind f) u type := by
  subst hu
  exact ⟨_, fun m => m.report (.unreflecting f kind), fun s => ⟨_, rfl⟩, fun _ => rfl,
    fun m => congrFun (fieldHandle_trusted htype) (m.report (.unreflecting f kind))⟩

/-- With a trusted lookup, every look-up but `bind` asks the cache for its use and no more. -/
theorem asks_perform {op : MemberOp} (huse : op.use? C.graph = some u)
    (hb : ∀ o name type, op ≠ .bind o name type) (htype : u.type C.graph = .ok type) :
    Asks C.graph (trustedLookup.perform C op) u type := by
  -- a trusted lookup passes every check, so what is left is the question to the cache
  cases op with
  | bind o name type => exact absurd rfl (hb o name type)
  | findStatic ref name type' =>
    exact asks_resolved huse fun m hm => asks_methodHandle hm htype true
  | findVirtual ref name type' => exact asks_findInstance huse htype true
  | findSpecial ref name type' caller =>
    exact asks_resolved huse fun m hm => asks_methodHandle hm htype true
  | findConstructor ref type' =>
    by_cases hret : type'.ret ≠ .void
    · simp [MemberOp.use?, hret] at huse
    · rw [MemberOp.use?, if_neg hret] at huse
      have hperform : trustedLookup.findConstructor C ref type' =
          resolved (C.graph.resolveConstructor ref type'.descriptor) >>= fun m =>
            trustedLookup.methodHandle C .newInvokeSpecial ref m none true := by
        simp only [findConstructor, if_neg hret]
        rfl
      show Asks C.graph (trustedLookup.findConstructor C ref type') u type
      rw [hperform]
      exact asks_resolved huse fun m hm => asks_methodHandle hm htype true
  | findGetter ref name t => exact asks_resolved huse fun f hf => asks_fieldHandle hf htype
  | findSetter ref name t => exact asks_resolved huse fun f hf => asks_fieldHandle hf htype
  | findStaticGetter ref name t => exact asks_resolved huse fun f hf => asks_fieldHandle hf htype
  | findStaticSetter ref name t => exact asks_resolved huse fun f hf => asks_fieldHandle hf htype
  | unreflect m => exact asks_methodHandle (Option.some.inj huse) htype true
  | unreflectSpecial m caller =>
    by_cases hstatic : (C.graph.method m).flags.isStatic = true
    · simp [MemberOp.use?, hstatic] at huse
    · rw [MemberOp.use?, if_neg hstatic] at huse
      have hperform : trustedLookup.unreflectSpecial C m caller =
          trustedLookup.methodHandle C .invokeSpecial m.cls m (some caller) true := by
        simp only [unreflectSpecial, if_neg hstatic]
        rfl
      show Asks C.graph (trustedLookup.unreflectSpecial C m caller) u type
      rw [hperform]
      exact asks_methodHandle (Option.some.inj huse) htype true
  | unreflectConstructor m =>
    simp only [MemberOp.use?] at huse
    split at huse
    · cases huse
    · next hinst =>
      split at huse
      · cases huse
      · next hinit =>
        have hperform : trustedLookup.unreflectConstructor C m =
            trustedLookup.methodHandle C .newInvokeSpecial m.cls m none true := by
          simp only [unreflectConstructor, if_neg hinst, if_neg hinit]
          rfl
        show Asks C.graph (trustedLookup.unreflectConstructor C m) u type
        rw [hperform]
        exact asks_methodHandle (Option.some.inj huse) htype true
  | unreflectGetter f => exact asks_unreflectField (Option.some.inj huse) htype
  | unreflectSetter f => exact asks_unreflectField (Option.some.inj huse) htype

end Lookup

/-- Of two members under one key, the one looked up second comes out as the one looked up first. -/
theorem Classes.keysDetermineMembers_of_cacheInvisible {C : Classes} (hC : C.CacheInvisible) :
    C.graph.KeysDetermineMembers := by
  intro u v hu hv k huk hvk
  obtain ⟨first, hfirst, hfuse, hfb⟩ := hu.unbound
  obtain ⟨second, hsecond, hsuse, hsb⟩ := hv.unbound
  obtain ⟨hutype, hucls, huname, hukind⟩ := Use.key?_eq_some_iff.1 huk
  obtain ⟨hvtype, hvcls, hvname, hvkind⟩ := Use.key?_eq_some_iff.1 hvk
  obtain ⟨make, before, hmake, hbefore, hask⟩ := Lookup.asks_perform hfuse hfb hutype
  obtain ⟨make', before', hmake', hbefore', hask'⟩ := Lookup.asks_perform hsuse hsb hvtype
  have hkey : (⟨u.ref, u.name C.graph, k.type, u.kind⟩ : MemberKey) = k := by
    rw [← hucls, ← huname, ← hukind]
  have hkey' : (⟨v.ref, v.name C.graph, k.type, v.kind⟩ : MemberKey) = k := by
    rw [← hvcls, ← hvname, ← hvkind]
  rw [hkey] at hask
  rw [hkey'] at hask'
  -- the first look-up leaves its handle under the key
  let m : Machine := .initial true
  let n : Machine := .initial false
  let after := m.afterLookups C [(.trustedLookup, first)]
  have hafter : after.members.enabled = true ∧
      after.members.find? k = some (u.handle C.graph k.type (before m).nextStamp) := by
    have hmiss := (Lookup.cached_of_find?_none (m := before m) hmake
      (by rw [hbefore]; rfl) (by rw [hbefore]; rfl)).2
    have hstart : after.members = ((Lookup.cached k make).start (before m)).2.members := by
      show ((Lookup.trustedLookup.perform C first).start m).2.members = _
      rw [Link.start, hask]
      rfl
    rw [hstart, hmiss, hbefore]
    exact ⟨rfl, by simp [MemberCache.find?]⟩
  have hcached : ((Lookup.trustedLookup.perform C second).start after).1 =
      .ok (u.handle C.graph k.type (before m).nextStamp) := by
    rw [Link.start, hask']
    exact (Lookup.cached_of_find? make' (m := before' after) (by rw [hbefore']; exact hafter.1)
      (by rw [hbefore']; exact hafter.2)).1
  have hplain : ((Lookup.trustedLookup.perform C second).start n).1 =
      .ok (v.handle C.graph k.type (before' n).nextStamp) := by
    rw [Link.start, hask']
    exact (Lookup.cached_of_disabled (m := before' n) hmake' (by rw [hbefore']; rfl)).1
  have hagree := hC m n [(.trustedLookup, first)] .trustedLookup second rfl rfl
    (by simpa using hfirst) hsecond
  rw [hcached, hplain] at hagree
  cases hagree with
  | ok h =>
    rw [Handle.isEquivalent_eq] at h
    exact Use.member_eq_of_equivalent h

end HandleCalculus
