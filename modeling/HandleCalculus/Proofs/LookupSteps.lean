import HandleCalculus.Proofs.MemberCache

/-!
# What a look-up comes to

A look-up checks rights, resolves a member and checks again before it makes a handle, and it reports
as it goes. Taken apart it is two things: the rights that it asks for (`Lookup.Permits`), which are a
property of the use of a member that it comes down to, and what is left once they are granted
(`MemberOp.answer`), which is the question to the member cache and what is done to the handle found.
The first part only reports, the second does not look at reports, so what is to be said of a look-up
is said of these two (`Lookup.guarded_perform`, `Lookup.refuses_perform`).
-/

set_option autoImplicit false

namespace HandleCalculus

/-! ## One computation after another -/

section Bind

variable {E S α β : Type} {x : EStateM E S α} {s s' : S}

theorem bind_eq_of_ok {a : α} (h : x s = .ok a s') (f : α → EStateM E S β) :
    (x >>= f) s = f a s' := by
  show EStateM.bind x f s = f a s'
  rw [EStateM.bind, h]

theorem bind_eq_of_error {e : E} (h : x s = .error e s') (f : α → EStateM E S β) :
    (x >>= f) s = .error e s' := by
  show EStateM.bind x f s = .error e s'
  rw [EStateM.bind, h]

end Bind

/-! ## Reports -/

/-- The machine after so many reports more. -/
def Machine.reports (m : Machine) (es : List Event) : Machine := es.foldl Machine.report m

namespace Machine

variable (m : Machine) (es : List Event)

theorem reports_reports (fs : List Event) : (m.reports es).reports fs = m.reports (es ++ fs) :=
  List.foldl_append.symm

/-- Reports go to the log and nowhere else. -/
theorem reports_eq : ∃ log, m.reports es = { m with store := { m.store with log := log } } := by
  induction es generalizing m with
  | nil => exact ⟨m.store.log, rfl⟩
  | cons e es ih =>
    obtain ⟨log, hlog⟩ := ih (m.report e)
    exact ⟨log, hlog⟩

theorem members_reports : (m.reports es).members = m.members := by
  obtain ⟨log, hlog⟩ := m.reports_eq es
  rw [hlog]

theorem nextStamp_reports : (m.reports es).nextStamp = m.nextStamp := by
  obtain ⟨log, hlog⟩ := m.reports_eq es
  rw [hlog]

theorem calls_reports : (m.reports es).calls = m.calls := by
  obtain ⟨log, hlog⟩ := m.reports_eq es
  rw [hlog]

end Machine

namespace Link

variable {α : Type} {p q : Prop} {x y : Link α}

/-- The computation reports and goes on as the other. -/
def Becomes (x y : Link α) : Prop := ∀ m : Machine, ∃ es, x m = y (m.reports es)

/-- The computation reports and fails. -/
def Refuses (x : Link α) : Prop := ∀ m : Machine, ∃ e es, x m = .error e (m.reports es)

/-- The computation goes on as the other if the condition holds, and fails if not. -/
structure Guarded (p : Prop) (x y : Link α) : Prop where
  passes : p → x.Becomes y
  refuses : ¬ p → x.Refuses

theorem Becomes.refl (x : Link α) : x.Becomes x := fun _ => ⟨[], rfl⟩

theorem Refuses.throw (e : Error) : (throw e : Link α).Refuses := fun _ => ⟨e, [], rfl⟩

theorem Refuses.bind {β : Type} (hx : x.Refuses) (f : α → Link β) : (x >>= f).Refuses := by
  intro m
  obtain ⟨e, es, hm⟩ := hx m
  exact ⟨e, es, bind_eq_of_error hm f⟩

namespace Guarded

theorem of_true (hp : p) (x : Link α) : Guarded p x x :=
  ⟨fun _ => .refl x, fun h => absurd hp h⟩

theorem of_false (hp : ¬ p) (hx : x.Refuses) : Guarded p x y :=
  ⟨fun h => absurd h hp, fun _ => hx⟩

theorem congr (h : Guarded p x y) (hpq : p ↔ q) : Guarded q x y :=
  ⟨fun hq => h.passes (hpq.2 hq), fun hq => h.refuses fun hp => hq (hpq.1 hp)⟩

theorem report (e : Event) : Guarded True (Link.report e) (Pure.pure ()) :=
  ⟨fun _ _ => ⟨[e], rfl⟩, fun h => absurd trivial h⟩

/-- A check in front of a guarded computation adds its condition. -/
theorem bind {x : Link Unit} {f : Unit → Link α} (hx : Guarded p x (Pure.pure ()))
    (hf : Guarded q (f ()) y) : Guarded (p ∧ q) (x >>= f) y := by
  -- a check that is passed leaves the machine with reports, from which the rest goes on
  have hpassed : p → ∀ m, ∃ es, (x >>= f) m = f () (m.reports es) := by
    intro hp m
    obtain ⟨es, hes⟩ := hx.passes hp m
    exact ⟨es, bind_eq_of_ok hes f⟩
  constructor
  · rintro ⟨hp, hq⟩ m
    obtain ⟨es, hes⟩ := hpassed hp m
    obtain ⟨fs, hfs⟩ := hf.passes hq (m.reports es)
    exact ⟨es ++ fs, by rw [hes, hfs, Machine.reports_reports]⟩
  · intro hpq
    by_cases hp : p
    · intro m
      obtain ⟨es, hes⟩ := hpassed hp m
      obtain ⟨e, fs, hfs⟩ := hf.refuses (fun hq => hpq ⟨hp, hq⟩) (m.reports es)
      exact ⟨e, es ++ fs, by rw [hes, hfs, Machine.reports_reports]⟩
    · exact (hx.refuses hp).bind f

/-- A check in front of a computation that fails changes nothing about that. -/
theorem refuses_bind {x : Link Unit} {f : Unit → Link α} (hx : Guarded p x (Pure.pure ()))
    (hf : (f ()).Refuses) : (x >>= f).Refuses :=
  (hx.bind (of_false (p := False) (y := f ()) id hf)).refuses fun h => h.2

/-- What follows a guarded computation is guarded by the same condition. -/
theorem andThen {β : Type} (h : Guarded p x y) (f : α → Link β) :
    Guarded p (x >>= f) (y >>= f) := by
  refine ⟨fun hp m => ?_, fun hp => (h.refuses hp).bind f⟩
  obtain ⟨es, hes⟩ := h.passes hp m
  refine ⟨es, ?_⟩
  show EStateM.bind x f m = EStateM.bind y f _
  rw [EStateM.bind, EStateM.bind, hes]

end Guarded

/-- A computation in two steps that succeeds has succeeded in each. -/
theorem exists_of_bind {β : Type} {f : α → Link β} {m m' : Machine} {b : β}
    (h : (x >>= f) m = .ok b m') : ∃ a m₁, x m = .ok a m₁ ∧ f a m₁ = .ok b m' := by
  have h : EStateM.bind x f m = .ok b m' := h
  unfold EStateM.bind at h
  cases hx : x m with
  | ok a m₁ =>
    rw [hx] at h
    exact ⟨a, m₁, rfl, h⟩
  | error e m₁ =>
    rw [hx] at h
    cases h

theorem exists_of_build {f : Stamp → Except Error Handle} {m m' : Machine} {h : Handle}
    (hm : Link.build f m = .ok h m') :
    f m.nextStamp = .ok h ∧ m' = { m with nextStamp := m.nextStamp + 2 } := by
  unfold Link.build at hm
  cases hf : f m.nextStamp with
  | ok a =>
    rw [hf] at hm
    cases hm
    exact ⟨rfl, rfl⟩
  | error e =>
    rw [hf] at hm
    cases hm

end Link

/-! ## The rights that a use asks for -/

namespace Use

variable (G : ClassGraph) (u : Use)

/-- The class that declares the member. -/
def owner : ClassId :=
  match u.member with
  | .method m => m.cls
  | .field f => f.cls

/-- The flags that the member is declared with. -/
def flags : Flags :=
  match u.member with
  | .method m => (G.method m).flags
  | .field f => (G.field f).flags

/-- The signature whose classes must be visible: a method's as it is declared, a field's as its
handle has it. -/
def signature : Except Error Signature :=
  match u.member with
  | .method m => Signature.ofDescriptor (G.method m).desc
  | .field f => Lookup.fieldHandleType u.kind u.ref (G.field f).type

/-- A new handle on the member. -/
def make (type : Signature) : Link Handle :=
  match u.member with
  | .method m => Lookup.makeMethodHandle G u.kind u.ref m type
  | .field _ => Link.build fun s => .ok ⟨s, type, u.node G⟩

variable {G u}

theorem key?_eq_none {e : Error} (h : u.type G = .error e) : u.key? G = none := by
  rw [key?, h]

theorem makes_make (type : Signature) : Lookup.Makes G u type (u.make G type) := by
  obtain ⟨kind, ref, caller, m | f⟩ := u
  · exact fun s => Lookup.makeMethodHandle_eq _ _ _ _ _ _ _
  · exact fun s => ⟨_, rfl⟩

end Use

namespace Lookup

/-- Whether the lookup has the rights that a use asks for. A call without dispatch is made by the
lookup class itself, with private access, on a class above it. -/
structure Permits (C : Classes) (l : Lookup) (u : Use) : Prop where
  ref : C.graph.classAccessible u.ref l.cls l.modes = true
  member : C.graph.memberAccessible u.ref u.owner (judgedFlags u.kind (u.flags C.graph)) l.cls
    l.modes = true
  signature : ∀ s, u.signature C.graph = .ok s → C.signatureVisible s u.ref = true
  notFinal : u.kind.isSetter = true → (u.flags C.graph).isFinal = false
  special : ∀ c, u.caller = some c →
    l.hasPrivateAccess = true ∧ c = l.cls ∧ C.graph.isSubclass c u.ref = true

/-- Whether the lookup narrows the receiver of a use. -/
def narrows (G : ClassGraph) (l : Lookup) (u : Use) : Bool :=
  u.kind.hasReceiver && u.kind != .invokeSpecial && l.restrictsReceiver G u.owner (u.flags G)

/-- The handle of a use that is permitted. -/
def handleFor (C : Classes) (l : Lookup) (u : Use) (key : MemberKey) (restrict : Bool) :
    Link Handle := do
  let h ← cached key (u.make C.graph key.type)
  if restrict && l.narrows C.graph u then l.narrow h else return h

end Lookup

namespace MemberOp

/-- What a look-up does to the handle it has found: `bind` binds the receiver and keeps the variable
arity if a parameter is left, the others do nothing. -/
def finish (G : ClassGraph) (h : Handle) : MemberOp → Link Handle
  | bind receiver _ _ => do
    let bound ← Link.build fun s => h.asFixedArity.bindTo G s (.obj receiver)
    match h.isVarargs, bound.type.last? with
    | true, some last => Link.build fun s => bound.asVarargsCollector G s last
    | _, _ => return bound
  | _ => pure h

/-- What holds of a handle found, and is kept by taking it at fixed arity, binding a value and collecting
trailing arguments, holds of what the look-up answers. -/
theorem of_finish {G : ClassGraph} {p : Handle → Prop} (hfixed : ∀ {h}, p h → p h.asFixedArity)
    (hbind : ∀ {s h k} {v : Value}, p h → h.bindTo G s v = .ok k → p k)
    (hvarargs : ∀ {s h k} {array : Ty}, p h → h.asVarargsCollector G s array = .ok k → p k)
    {op : MemberOp} {a b : Handle} {m m' : Machine} (ha : p a) (hm : op.finish G a m = .ok b m') :
    p b := by
  cases op with
  | bind receiver name type =>
    obtain ⟨bound, m₁, hbound, hfinish⟩ := Link.exists_of_bind hm
    have hlast := hbind (hfixed ha) (Link.exists_of_build hbound).1
    generalize a.isVarargs = varargs at hfinish
    generalize bound.type.last? = last at hfinish
    match varargs, last with
    | true, some t => exact hvarargs hlast (Link.exists_of_build hfinish).1
    | true, none =>
      cases hfinish
      exact hlast
    | false, _ =>
      cases hfinish
      exact hlast
  | _ =>
    cases hm
    exact ha

/-- Whether the look-up narrows receivers. -/
def restricts : MemberOp → Bool
  | bind .. => false
  | _ => true

/-- What is left of a look-up once its rights are granted. -/
def answer (C : Classes) (l : Lookup) (op : MemberOp) (u : Use) (key : MemberKey) : Link Handle :=
  l.handleFor C u key op.restricts >>= (op.finish C.graph ·)

end MemberOp

namespace Lookup

open Link

variable (C : Classes) (l : Lookup)

/-! ## The checks -/

theorem guarded_checkClass (c : ClassId) :
    Guarded (l.trusted = true ∨ C.graph.classAccessible c l.cls l.modes = true)
      (l.checkClass C c) (pure ()) := by
  unfold checkClass
  by_cases ht : l.trusted = true
  · rw [if_pos ht]
    exact .of_true (.inl ht) _
  · rw [if_neg ht]
    refine (Guarded.bind (.report _) (q := C.graph.classAccessible c l.cls l.modes = true) ?_).congr
      (by simp [ht])
    split
    · next ha => exact .of_false (by simpa using ha) (.throw _)
    · next ha => exact .of_true (by simpa using ha) _

theorem guarded_checkMember (kind : RefKind) (ref owner : ClassId) (mods : Flags)
    (member : MemberRef) (hkind : (∃ m, member = .method m) → kind.isSetter = false) :
    Guarded (l.trusted = true ∨ (kind.isSetter = true → mods.isFinal = false) ∧
        C.graph.memberAccessible ref owner (judgedFlags kind mods) l.cls l.modes = true)
      (l.checkMember C kind ref owner mods member) (pure ()) := by
  unfold checkMember
  by_cases ht : l.trusted = true
  · rw [if_pos ht]
    exact .of_true (.inl ht) _
  rw [if_neg ht]
  cases member with
  | method m =>
    have hsetter := hkind ⟨m, rfl⟩
    refine (Guarded.bind (.report _)
      (q := C.graph.memberAccessible ref owner (judgedFlags kind mods) l.cls l.modes = true)
      ?_).congr (by simp [ht, hsetter])
    split
    · next ha => exact .of_false (by simpa using ha) (.throw _)
    · next ha => exact .of_true (by simpa using ha) _
  | field f =>
    dsimp only
    split
    · next hfinal => exact .of_false (by simp_all) ((Refuses.throw _).bind _)
    · next hfinal =>
      refine (Guarded.bind (.report _)
        (q := C.graph.memberAccessible ref owner (judgedFlags kind mods) l.cls l.modes = true)
        ?_).congr (by simp_all)
      split
      · next ha => exact .of_false (by simpa using ha) (.throw _)
      · next ha => exact .of_true (by simpa using ha) _

theorem guarded_checkSignature (s : Signature) (ref : ClassId) :
    Guarded (l.trusted = true ∨ C.signatureVisible s ref = true) (l.checkSignature C s ref)
      (pure ()) := by
  unfold checkSignature
  split
  · next h => exact .of_true (by simpa using h) _
  · next h => exact .of_false (by simpa using h) (.throw _)

theorem guarded_checkSpecialCaller (ref caller : ClassId) :
    Guarded (l.trusted = true ∨
        l.hasPrivateAccess = true ∧ caller = l.cls ∧ C.graph.isSubclass caller ref = true)
      (l.checkSpecialCaller C ref caller) (pure ()) := by
  unfold checkSpecialCaller
  by_cases ht : l.trusted = true
  · rw [if_pos ht]
    exact .of_true (.inl ht) _
  rw [if_neg ht]
  dsimp only
  split
  · next h => exact .of_false (by grind) ((Refuses.throw _).bind _)
  · next h =>
    split
    · next h' => exact .of_false (by simp_all) (.throw _)
    · next h' => exact .of_true (by simp_all) _

/-! ## Look-ups -/

/-- The computation looks for the handle of a use. If there is such a use, with a key, it answers
with what is given for it where the use is granted; everywhere else it fails. -/
structure Seeks (use? : Option Use) (granted : Use → Prop) (x : Link Handle)
    (y : Use → MemberKey → Link Handle) : Prop where
  found : ∀ u key, use? = some u → u.key? C.graph = some key → Guarded (granted u) x (y u key)
  missed : (∀ u key, use? = some u → u.key? C.graph ≠ some key) → x.Refuses

namespace Seeks

variable {C} {use? : Option Use} {granted granted' : Use → Prop} {x : Link Handle}
  {y y' : Use → MemberKey → Link Handle}

theorem refuses (hx : x.Refuses) : Seeks C none granted x y where
  found _ _ hu := by cases hu
  missed _ := hx

theorem keyed {u : Use} {key : MemberKey} (hkey : u.key? C.graph = some key)
    (hx : Guarded (granted u) x (y u key)) : Seeks C (some u) granted x y where
  found _ _ hu hkey' := by
    obtain rfl := Option.some.inj hu
    obtain rfl := Option.some.inj (hkey.symm.trans hkey')
    exact hx
  missed hnone := absurd hkey (hnone u key rfl)

theorem unkeyed {u : Use} (hkey : u.key? C.graph = none) (hx : x.Refuses) :
    Seeks C (some u) granted x y where
  found _ _ hu hkey' := by
    obtain rfl := Option.some.inj hu
    cases hkey.symm.trans hkey'
  missed _ := hx

theorem check {p : Prop} {x : Link Unit} {f : Unit → Link Handle} (hx : Guarded p x (pure ()))
    (hf : Seeks C use? granted (f ()) y) :
    Seeks C use? (fun u => p ∧ granted u) (x >>= f) y where
  found u key hu hkey := hx.bind (hf.found u key hu hkey)
  missed hnone := hx.refuses_bind (hf.missed hnone)

theorem resolved {α : Type} {r : Except ResolutionError α} {use : α → Use}
    {f : α → Link Handle} (hf : ∀ a, r.toOption = some a → Seeks C (some (use a)) granted (f a) y) :
    Seeks C (r.toOption.map use) granted (Lookup.resolved r >>= f) y := by
  cases r with
  | error e => exact refuses ((Refuses.throw _).bind f)
  | ok a => exact hf a rfl

theorem congr (h : Seeks C use? granted x y)
    (hgranted : ∀ u, use? = some u → (granted u ↔ granted' u))
    (hy : ∀ u key, y u key = y' u key) : Seeks C use? granted' x y' where
  found u key hu hkey := hy u key ▸ (h.found u key hu hkey).congr (hgranted u hu)
  missed := h.missed

theorem andThen (h : Seeks C use? granted x y) (f : Handle → Link Handle) :
    Seeks C use? granted (x >>= f) fun u key => y u key >>= f where
  found u key hu hkey := (h.found u key hu hkey).andThen f
  missed hnone := (h.missed hnone).bind f

end Seeks

/-- Whether the member of a use may be used, apart from the class that it is used through. -/
def PermitsMember (u : Use) : Prop :=
  ((u.kind.isSetter = true → (u.flags C.graph).isFinal = false) ∧
      C.graph.memberAccessible u.ref u.owner (judgedFlags u.kind (u.flags C.graph)) l.cls
        l.modes = true) ∧
    ∀ s, u.signature C.graph = .ok s → C.signatureVisible s u.ref = true

theorem seeks_methodHandle {kind : RefKind} {ref : ClassId} {m : MethodRef}
    {caller : Option ClassId} (hkind : kind.isSetter = false) (restrict : Bool) :
    Seeks C (some ⟨kind, ref, caller, .method m⟩) (fun u => l.trusted = true ∨ l.PermitsMember C u)
      (l.methodHandle C kind ref m caller restrict) fun u key => l.handleFor C u key restrict := by
  have hmember := l.guarded_checkMember C kind ref m.cls (C.graph.method m).flags (.method m)
    fun _ => hkind
  have htype : (⟨kind, ref, caller, .method m⟩ : Use).type C.graph =
      (Signature.ofDescriptor (C.graph.method m).desc).bind (methodType kind ref caller) := rfl
  unfold methodHandle
  cases hd : Signature.ofDescriptor (C.graph.method m).desc with
  | error e =>
    rw [hd] at htype
    exact .unkeyed (Use.key?_eq_none htype) (hmember.refuses_bind ((Refuses.throw e).bind _))
  | ok declared =>
    rw [hd] at htype
    have hsignature := l.guarded_checkSignature C declared ref
    cases ht : methodType kind ref caller declared with
    | error e =>
      exact .unkeyed (Use.key?_eq_none (htype.trans ht))
        (hmember.refuses_bind (hsignature.refuses_bind (by
          rw [ht]
          exact (Refuses.throw e).bind _)))
    | ok type =>
      have hkey : (⟨kind, ref, caller, .method m⟩ : Use).key? C.graph =
          some ⟨ref, (C.graph.method m).name, type, kind⟩ :=
        Use.key?_eq_some_iff.2 ⟨htype.trans ht, rfl, rfl, rfl⟩
      refine .keyed hkey ?_
      have hanswer : l.handleFor C ⟨kind, ref, caller, .method m⟩
          ⟨ref, (C.graph.method m).name, type, kind⟩ restrict =
            cached ⟨ref, (C.graph.method m).name, type, kind⟩
              (makeMethodHandle C.graph kind ref m type) >>= fun h =>
                if restrict && kind.hasReceiver && kind != .invokeSpecial &&
                  l.restrictsReceiver C.graph m.cls (C.graph.method m).flags then l.narrow h
                else pure h := by
        simp only [handleFor, narrows, Bool.and_assoc]
        rfl
      simp only [hanswer, ht, Link.ofExcept_ok_bind]
      refine (hmember.bind (hsignature.bind (.of_true trivial _))).congr ?_
      have hdeclared : (∀ s, Signature.ofDescriptor (C.graph.method m).desc = .ok s →
          C.signatureVisible s ref = true) ↔ C.signatureVisible declared ref = true := by
        simp [hd]
      rw [and_true, ← or_and_left, ← hdeclared]
      rfl

theorem seeks_fieldHandle {kind : RefKind} {ref : ClassId} {f : FieldRef}
    (hkind : kind.isField = true) :
    Seeks C (some ⟨kind, ref, none, .field f⟩) (fun u => l.trusted = true ∨ l.PermitsMember C u)
      (l.fieldHandle C kind ref f) fun u key => l.handleFor C u key true := by
  have hmember := l.guarded_checkMember C kind ref f.cls (C.graph.field f).flags (.field f)
    fun ⟨_, h⟩ => by cases h
  unfold fieldHandle
  cases ht : fieldHandleType kind ref (C.graph.field f).type with
  | error e =>
    have htype : (⟨kind, ref, none, .field f⟩ : Use).type C.graph = .error e := ht
    exact .unkeyed (Use.key?_eq_none htype) (hmember.refuses_bind (by
      rw [ht]
      exact (Refuses.throw e).bind _))
  | ok type =>
    have hsignature := l.guarded_checkSignature C type ref
    have htype : (⟨kind, ref, none, .field f⟩ : Use).type C.graph = .ok type := ht
    have hkey : (⟨kind, ref, none, .field f⟩ : Use).key? C.graph =
        some ⟨ref, (C.graph.field f).name, type, kind⟩ :=
      Use.key?_eq_some_iff.2 ⟨htype, rfl, rfl, rfl⟩
    refine .keyed hkey ?_
    -- of the ways to use a field the ones with a receiver are those that are not static
    have hnarrows : (!kind.isStatic && l.restrictsReceiver C.graph f.cls (C.graph.field f).flags) =
        (true && l.narrows C.graph ⟨kind, ref, none, .field f⟩) := by
      cases kind <;> first
        | rfl
        | cases hkind
    have hanswer : l.handleFor C ⟨kind, ref, none, .field f⟩
        ⟨ref, (C.graph.field f).name, type, kind⟩ true =
          cached ⟨ref, (C.graph.field f).name, type, kind⟩ (Link.build fun s => .ok ⟨s, type,
            if kind.isGetter then .getField f kind.isStatic C.graph.access
            else .setField f kind.isStatic C.graph.access⟩) >>=
            fun h => if !kind.isStatic && l.restrictsReceiver C.graph f.cls (C.graph.field f).flags
              then l.narrow h else pure h := by
      rw [hnarrows]
      rfl
    show Guarded _ _ (l.handleFor C _ _ true)
    simp only [hanswer, ht, Link.ofExcept_ok_bind]
    refine (hmember.bind (hsignature.bind (.of_true trivial _))).congr ?_
    have hdeclared : (∀ s, fieldHandleType kind ref (C.graph.field f).type = .ok s →
        C.signatureVisible s ref = true) ↔ C.signatureVisible type ref = true := by
      simp [ht]
    rw [and_true, ← or_and_left, ← hdeclared]
    rfl

variable {C l}

theorem permits_iff {u : Use} : l.Permits C u ↔
    C.graph.classAccessible u.ref l.cls l.modes = true ∧ l.PermitsMember C u ∧
      ∀ c, u.caller = some c →
        l.hasPrivateAccess = true ∧ c = l.cls ∧ C.graph.isSubclass c u.ref = true :=
  ⟨fun h => ⟨h.ref, ⟨⟨h.notFinal, h.member⟩, h.signature⟩, h.special⟩,
    fun ⟨hr, ⟨⟨hf, hm⟩, hs⟩, hc⟩ => ⟨hr, hm, hs, hf, hc⟩⟩

variable (C l)

/-- A look-up through a class that calls with dispatch or needs no receiver. -/
theorem seeks_checkClass {use? : Option Use} {f : Unit → Link Handle}
    {y : Use → MemberKey → Link Handle} {ref : ClassId}
    (huse : ∀ u, use? = some u → u.ref = ref ∧ u.caller = none)
    (hf : Seeks C use? (fun u => l.trusted = true ∨ l.PermitsMember C u) (f ()) y) :
    Seeks C use? (fun u => l.trusted = true ∨ l.Permits C u) (l.checkClass C ref >>= f) y := by
  refine (hf.check (l.guarded_checkClass C ref)).congr (fun u hu => ?_) fun _ _ => rfl
  obtain ⟨rfl, hcaller⟩ := huse u hu
  rw [permits_iff, hcaller, ← or_and_left]
  simp

/-- A look-up that calls without dispatch. -/
theorem seeks_checkSpecialCaller {use? : Option Use} {f : Unit → Link Handle}
    {y : Use → MemberKey → Link Handle} {ref caller : ClassId}
    (huse : ∀ u, use? = some u → u.ref = ref ∧ u.caller = some caller)
    (hf : Seeks C use? (fun u => l.trusted = true ∨ l.PermitsMember C u) (f ()) y) :
    Seeks C use? (fun u => l.trusted = true ∨ l.Permits C u)
      (l.checkSpecialCaller C ref caller >>= fun _ => l.checkClass C ref >>= f) y := by
  have hcheck := (hf.check (l.guarded_checkClass C ref)).check
    (f := fun _ => l.checkClass C ref >>= f) (l.guarded_checkSpecialCaller C ref caller)
  refine hcheck.congr (fun u hu => ?_) fun _ _ => rfl
  obtain ⟨rfl, hcaller⟩ := huse u hu
  rw [permits_iff, hcaller, ← or_and_left, ← or_and_left]
  simp only [Option.some.injEq, forall_eq']
  exact or_congr Iff.rfl (and_comm.trans and_assoc)

theorem seeks_findInstance (ref : ClassId) (name : String) (type : Signature) (restrict : Bool) :
    Seeks C (MemberOp.instanceUse? C.graph ref name type)
      (fun u => l.trusted = true ∨ l.Permits C u) (l.findInstance C ref name type restrict)
      fun u key => l.handleFor C u key restrict := by
  unfold findInstance MemberOp.instanceUse?
  by_cases hi : C.graph.isInterface ref = true
  · simp only [if_pos hi]
    refine l.seeks_checkClass C (fun u hu => ?_)
      (.resolved fun m _ => l.seeks_methodHandle C rfl restrict)
    obtain ⟨m, -, rfl⟩ := Option.map_eq_some_iff.1 hu
    exact ⟨rfl, rfl⟩
  · simp only [if_neg hi]
    refine l.seeks_checkClass C (fun u hu => ?_)
      (.resolved fun m _ => l.seeks_methodHandle C rfl restrict)
    obtain ⟨m, -, rfl⟩ := Option.map_eq_some_iff.1 hu
    exact ⟨rfl, rfl⟩

theorem seeks_findField {kind : RefKind} (hkind : kind.isField = true) (ref : ClassId)
    (name : String) (type : Ty) :
    Seeks C (MemberOp.fieldUse? C.graph kind ref name type)
      (fun u => l.trusted = true ∨ l.Permits C u) (l.findField C kind ref name type)
      fun u key => l.handleFor C u key true := by
  refine l.seeks_checkClass C (fun u hu => ?_) (.resolved fun f _ => l.seeks_fieldHandle C hkind)
  obtain ⟨f, -, rfl⟩ := Option.map_eq_some_iff.1 hu
  exact ⟨rfl, rfl⟩

theorem seeks_unreflectField {kind : RefKind} (hkind : kind.isField = true) (f : FieldRef) :
    Seeks C (some ⟨kind, f.cls, none, .field f⟩) (fun u => l.trusted = true ∨ l.Permits C u)
      (l.unreflectField C kind f) fun u key => l.handleFor C u key true := by
  refine l.seeks_checkClass C (fun u hu => ?_)
    (((l.seeks_fieldHandle C hkind).check (.report _)).congr (fun _ _ => iff_of_eq (true_and _))
      fun _ _ => rfl)
  obtain rfl := Option.some.inj hu
  exact ⟨rfl, rfl⟩

/-- Every look-up seeks the use that it comes down to, asks for the rights of that use and answers
with what is left then. -/
theorem seeks_perform (op : MemberOp) :
    Seeks C (op.use? C.graph) (fun u => l.trusted = true ∨ l.Permits C u) (l.perform C op)
      (op.answer C l) := by
  have hplain : ∀ {use? : Option Use} {x : Link Handle},
      Seeks C use? (fun u => l.trusted = true ∨ l.Permits C u) x
        (fun u key => l.handleFor C u key true) →
      Seeks C use? (fun u => l.trusted = true ∨ l.Permits C u) x
        (fun u key => l.handleFor C u key true >>= pure) :=
    fun h => h.congr (fun _ _ => Iff.rfl) fun _ _ => (bind_pure _).symm
  -- a member at hand, or found, is used through the class that the look-up asks
  have hnamed : ∀ {kind : RefKind} {ref : ClassId} {caller : Option ClassId} {α : Type}
      {member : α → MemberRef} {found : Option α} (u : Use),
      found.map (fun a => (⟨kind, ref, caller, member a⟩ : Use)) = some u →
      u.ref = ref ∧ u.caller = caller := by
    intro kind ref caller α member found u hu
    obtain ⟨a, -, rfl⟩ := Option.map_eq_some_iff.1 hu
    exact ⟨rfl, rfl⟩
  have hgiven : ∀ {kind : RefKind} {ref : ClassId} {caller : Option ClassId} {member : MemberRef}
      (u : Use), some (⟨kind, ref, caller, member⟩ : Use) = some u →
      u.ref = ref ∧ u.caller = caller := by
    intro kind ref caller member u hu
    obtain rfl := Option.some.inj hu
    exact ⟨rfl, rfl⟩
  cases op with
  | findStatic ref name type =>
    exact hplain (l.seeks_checkClass C hnamed
      (.resolved fun m _ => l.seeks_methodHandle C rfl true))
  | findVirtual ref name type => exact hplain (l.seeks_findInstance C ref name type true)
  | findSpecial ref name type caller =>
    exact hplain (l.seeks_checkSpecialCaller C hnamed
      (.resolved fun m _ => l.seeks_methodHandle C rfl true))
  | findConstructor ref type =>
    refine hplain ?_
    simp only [MemberOp.use?, perform, findConstructor]
    split
    · exact .refuses ((l.guarded_checkClass C ref).refuses_bind ((Refuses.throw _).bind _))
    · exact l.seeks_checkClass C hnamed
        (.resolved fun m _ => l.seeks_methodHandle C rfl true)
  | findGetter ref name type => exact hplain (l.seeks_findField C rfl ref name type)
  | findSetter ref name type => exact hplain (l.seeks_findField C rfl ref name type)
  | findStaticGetter ref name type => exact hplain (l.seeks_findField C rfl ref name type)
  | findStaticSetter ref name type => exact hplain (l.seeks_findField C rfl ref name type)
  | bind receiver name type =>
    exact (l.seeks_findInstance C receiver.cls name type false).andThen _
  | unreflect m =>
    refine hplain (l.seeks_checkClass C hgiven (l.seeks_methodHandle C ?_ true))
    split
    · rfl
    · split <;> rfl
  | unreflectSpecial m caller =>
    refine hplain ?_
    simp only [MemberOp.use?, perform, unreflectSpecial]
    split
    · exact .refuses ((l.guarded_checkSpecialCaller C m.cls caller).refuses_bind
        ((l.guarded_checkClass C m.cls).refuses_bind ((Refuses.throw _).bind _)))
    · exact l.seeks_checkSpecialCaller C hgiven (l.seeks_methodHandle C rfl true)
  | unreflectConstructor m =>
    refine hplain ?_
    simp only [MemberOp.use?, perform, unreflectConstructor]
    split
    · exact .refuses ((l.guarded_checkClass C m.cls).refuses_bind ((Refuses.throw _).bind _))
    · split
      · exact .refuses ((l.guarded_checkClass C m.cls).refuses_bind ((Refuses.throw _).bind _))
      · exact l.seeks_checkClass C hgiven (l.seeks_methodHandle C rfl true)
  | unreflectGetter f =>
    refine hplain (l.seeks_unreflectField C ?_ f)
    split <;> rfl
  | unreflectSetter f =>
    refine hplain (l.seeks_unreflectField C ?_ f)
    split <;> rfl

end Lookup

/-- What is known once a look-up has made a handle. -/
theorem Lookup.exists_use_of_perform {C : Classes} {l : Lookup} {op : MemberOp} {m m' : Machine}
    {h : Handle} (hm : l.perform C op m = .ok h m') :
    ∃ u key es, op.use? C.graph = some u ∧ u.key? C.graph = some key ∧
      (l.trusted = true ∨ l.Permits C u) ∧ op.answer C l u key (m.reports es) = .ok h m' := by
  have hseeks := l.seeks_perform C op
  by_cases hfound : ∃ u key, op.use? C.graph = some u ∧ u.key? C.graph = some key
  · obtain ⟨u, key, hu, hkey⟩ := hfound
    have hguarded := hseeks.found u key hu hkey
    by_cases hgranted : l.trusted = true ∨ l.Permits C u
    · obtain ⟨es, hes⟩ := hguarded.passes hgranted m
      exact ⟨u, key, es, hu, hkey, hgranted, hes.symm.trans hm⟩
    · obtain ⟨e, es, hes⟩ := hguarded.refuses hgranted m
      cases hes.symm.trans hm
  · obtain ⟨e, es, hes⟩ := hseeks.missed (fun u key hu hkey => hfound ⟨u, key, hu, hkey⟩) m
    cases hes.symm.trans hm

/-- A look-up whose rights are granted reports and goes on. -/
theorem Lookup.perform_of_permits {C : Classes} {l : Lookup} {op : MemberOp} {u : Use}
    {key : MemberKey} (hu : op.use? C.graph = some u) (hkey : u.key? C.graph = some key)
    (hgranted : l.trusted = true ∨ l.Permits C u) (m : Machine) :
    ∃ es, l.perform C op m = op.answer C l u key (m.reports es) :=
  ((l.seeks_perform C op).found u key hu hkey).passes hgranted m

/-! ## What the member cache answers

Under a key the cache answers what has been kept there, and what it has answered is kept from then
on, as long as the cache is in use. -/

theorem Handle.member?_eq_of_equivalent {a b : Handle} (h : a.Equiv b) : a.member? = b.member? :=
  Node.member?_eq_of_equivalent (equivalentBy_iff.1 (asFixedArity_equivalent h)).2

/-- The member cache has gained entries at most. -/
structure MemberCache.Grows (c d : MemberCache) : Prop where
  enabled : d.enabled = c.enabled
  find? : ∀ k h, c.find? k = some h → d.find? k = some h

namespace MemberCache.Grows

theorem refl (c : MemberCache) : c.Grows c := ⟨rfl, fun _ _ h => h⟩

theorem trans {c d e : MemberCache} (h : c.Grows d) (h' : d.Grows e) : c.Grows e :=
  ⟨h'.enabled.trans h.enabled, fun k a ha => h'.find? k a (h.find? k a ha)⟩

end MemberCache.Grows

/-- What the member cache has under a key, if it is in use. -/
def Machine.kept? (m : Machine) (key : MemberKey) : Option Handle :=
  if m.members.enabled then m.members.find? key else none

theorem Machine.kept?_reports (m : Machine) (es : List Event) (key : MemberKey) :
    (m.reports es).kept? key = m.kept? key := by
  rw [kept?, members_reports, kept?]

theorem Link.start_build (f : Stamp → Except Error Handle) (m : Machine) :
    ((Link.build f).start m).1 = f m.nextStamp ∧
      ((Link.build f).start m).2.members = m.members := by
  unfold start build
  cases f m.nextStamp <;> exact ⟨rfl, rfl⟩

/-- Whether a relation between machines allows what every way to make handles may do: nothing, one
thing after the other, a report, a new supply of identities. -/
structure Machine.Allows (R : Machine → Machine → Prop) : Prop where
  refl : ∀ m, R m m
  trans : ∀ {l m n}, R l m → R m n → R l n
  report : ∀ m e, R m (m.report e)
  stamp : ∀ m n, R m { m with nextStamp := n }

theorem Machine.Allows.reports {R : Machine → Machine → Prop} (hR : Allows R) (m : Machine)
    (es : List Event) : R m (m.reports es) := by
  induction es generalizing m with
  | nil => exact hR.refl m
  | cons e es ih => exact hR.trans (hR.report m e) (ih (m.report e))

theorem MemberCache.allows_grows : Machine.Allows fun m n => m.members.Grows n.members :=
  ⟨fun m => .refl m.members, fun h h' => h.trans h', fun m _ => .refl m.members,
    fun m _ => .refl m.members⟩

/-- Whether the computation takes each machine to one that the relation allows, however it ends. -/
def Link.Stays {α : Type} (R : Machine → Machine → Prop) (x : Link α) : Prop :=
  ∀ m : Machine, R m (x.start m).2

namespace Link.Stays

variable {α β : Type} {R : Machine → Machine → Prop}

theorem pure (hR : Machine.Allows R) (a : α) : Link.Stays R (Pure.pure a) := fun m => hR.refl m

theorem build (hR : Machine.Allows R) (f : Stamp → Except Error Handle) :
    Link.Stays R (Link.build f) := by
  intro m
  unfold start Link.build
  cases f m.nextStamp with
  | ok h => exact hR.stamp m _
  | error e => exact hR.refl m

theorem bind (hR : Machine.Allows R) {x : Link α} {f : α → Link β} (hx : x.Stays R)
    (hf : ∀ a, (f a).Stays R) : (x >>= f).Stays R := by
  intro m
  have hstays := hx m
  rw [start_bind]
  generalize x.start m = p at hstays
  obtain ⟨r, m'⟩ := p
  cases r with
  | ok a => exact hR.trans hstays (hf a m')
  | error e => exact hstays

theorem of_refuses (hR : Machine.Allows R) {x : Link α} (hx : x.Refuses) : x.Stays R := by
  intro m
  obtain ⟨e, es, hes⟩ := hx m
  rw [start, hes]
  exact hR.reports m es

theorem of_becomes (hR : Machine.Allows R) {x y : Link α} (hx : x.Becomes y) (hy : y.Stays R) :
    x.Stays R := by
  intro m
  obtain ⟨es, hes⟩ := hx m
  rw [start, hes]
  exact hR.trans (hR.reports m es) (hy (m.reports es))

end Link.Stays

namespace Lookup

variable {G : ClassGraph} {u : Use} {key : MemberKey} {make : Link Handle}

/-- The cache answers what it has kept under the key, else a new handle, which is kept. -/
theorem start_cached (hmake : Makes G u key.type make) (m : Machine) :
    ((cached key make).start m).1 =
        .ok ((m.kept? key).getD (u.handle G key.type m.nextStamp)) ∧
      m.members.Grows ((cached key make).start m).2.members ∧
      (m.members.enabled = true → ((cached key make).start m).2.kept? key =
        some ((m.kept? key).getD (u.handle G key.type m.nextStamp))) := by
  by_cases hm : m.members.enabled = true
  · cases hfind : m.members.find? key with
    | some h =>
      obtain ⟨hvalue, hmembers⟩ := cached_of_find? make hm hfind
      have hkept : m.kept? key = some h := by rw [Machine.kept?, if_pos hm, hfind]
      rw [hvalue, hmembers, hkept]
      refine ⟨rfl, ⟨rfl, fun _ _ h => h⟩, fun _ => ?_⟩
      rw [Machine.kept?, hmembers]
      exact (if_pos hm).trans hfind
    | none =>
      obtain ⟨hvalue, hmembers⟩ := cached_of_find?_none hmake hm hfind
      have hkept : m.kept? key = none := by rw [Machine.kept?, if_pos hm, hfind]
      rw [hvalue, hmembers, hkept]
      refine ⟨rfl, ⟨rfl, fun k h hk => ?_⟩, fun _ => ?_⟩
      · exact lookup_cons_of_none hfind hk
      · rw [Machine.kept?, hmembers]
        simp [hm, MemberCache.find?]
  · have hoff : m.members.enabled = false := by simpa using hm
    obtain ⟨hvalue, hmembers⟩ := cached_of_disabled hmake hoff
    have hkept : m.kept? key = none := by rw [Machine.kept?, if_neg hm]
    rw [hvalue, hmembers, hkept]
    exact ⟨rfl, .refl _, fun h => absurd h hm⟩

/-- Asking the cache never fails, and of the machine it changes the cache, the supply of identities
and the log. -/
theorem exists_of_cached (hmake : Makes G u key.type make) (m : Machine) :
    ∃ h members n e, cached key make m =
      .ok h (({ m with members := members, nextStamp := n } : Machine).report e) := by
  unfold cached
  by_cases hm : m.members.enabled = true
  · rw [if_pos hm]
    generalize m.members.read key = r
    obtain ⟨_ | h, members⟩ := r
    · obtain ⟨n, hn⟩ := hmake { m with members := members }
      dsimp only
      rw [hn]
      exact ⟨_, _, n, _, rfl⟩
    · exact ⟨h, members, m.nextStamp, _, rfl⟩
  · rw [if_neg hm]
    obtain ⟨n, hn⟩ := hmake m
    dsimp only
    rw [hn]
    exact ⟨_, m.members, n, _, rfl⟩

/-- What look-ups do to the machine, they do in asking the member cache. -/
theorem stays_perform {R : Machine → Machine → Prop} (hR : Machine.Allows R) {C : Classes}
    (l : Lookup) (op : MemberOp)
    (hcached : ∀ (u : Use) (key : MemberKey), op.use? C.graph = some u →
      u.key? C.graph = some key → (cached key (u.make C.graph key.type)).Stays R) :
    (l.perform C op).Stays R := by
  have hfinish : ∀ h, (op.finish C.graph h).Stays R := by
    intro h
    cases op with
    | bind receiver name type =>
      refine .bind hR (.build hR _) fun bound => ?_
      split
      · exact .build hR _
      · exact .pure hR _
    | _ => exact .pure hR h
  have hanswer : ∀ u key, op.use? C.graph = some u → u.key? C.graph = some key →
      (op.answer C l u key).Stays R := by
    intro u key hu hkey
    refine .bind hR (.bind hR (hcached u key hu hkey) fun h => ?_) hfinish
    split
    · exact .build hR _
    · exact .pure hR h
  have hseeks := l.seeks_perform C op
  by_cases hfound : ∃ u key, op.use? C.graph = some u ∧ u.key? C.graph = some key
  · obtain ⟨u, key, hu, hkey⟩ := hfound
    have hguarded := hseeks.found u key hu hkey
    by_cases hgranted : l.trusted = true ∨ l.Permits C u
    · exact .of_becomes hR (hguarded.passes hgranted) (hanswer u key hu hkey)
    · exact .of_refuses hR (hguarded.refuses hgranted)
  · exact .of_refuses hR (hseeks.missed fun u key hu hkey => hfound ⟨u, key, hu, hkey⟩)

/-- Look-ups leave entries of the member cache as they are. -/
theorem grows_perform (C : Classes) (l : Lookup) (op : MemberOp) :
    (l.perform C op).Stays fun m n => m.members.Grows n.members :=
  stays_perform MemberCache.allows_grows l op
    fun _ key _ _ m => (start_cached (Use.makes_make key.type) m).2.1

end Lookup

theorem Machine.grows_afterLookups (C : Classes) (m : Machine) (ops : List (Lookup × MemberOp)) :
    m.members.Grows (m.afterLookups C ops).members := by
  induction ops generalizing m with
  | nil => exact .refl _
  | cons p ops ih => exact (p.1.grows_perform C p.2 m).trans (ih _)

end HandleCalculus
