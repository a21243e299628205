import HandleCalculus.Proofs.DerivedLookups
import HandleCalculus.Proofs.Mediation
import HandleCalculus.Proofs.ReceiverSafety

/-!
# Members at hand and members by name

A method can be asked for by its name, or be at hand and be asked for as it is. The second way leaves
resolution out and makes some of its checks itself, each in a place of its own. Where a class
declares no two methods of one name and descriptor, the search for a method at hand by its name ends
at once, with that method; so what is left to compare is the checks. They come to the same, but for
one that the second way does not make: resolution does not find a constructor or a class initialiser
under its name, and at hand either can be had as a method (`Lookup.reflects`).

Two look-ups are compared by what they answer, on one machine and one after the other
(`Link.Matches`). The second needs that a look-up repeated answers what it has answered, whatever has
been asked for meanwhile (`Link.Repeats`): its checks do not look at the machine, and the member
cache loses nothing.
-/

set_option autoImplicit false

namespace HandleCalculus

/-! ## Outcomes -/

/-- Whether two outcomes are the same to whoever asks: handles that are equivalent, or errors of one
kind. -/
inductive SameOutcome : Except Error Handle → Except Error Handle → Prop where
  | found {a b : Handle} (h : a.Equiv b) : SameOutcome (.ok a) (.ok b)
  | refused {e f : Error} (h : e.kind = f.kind) : SameOutcome (.error e) (.error f)

namespace SameOutcome

variable {x y z : Except Error Handle}

theorem refl (x : Except Error Handle) : SameOutcome x x := by
  cases x with
  | ok a => exact .found a.equivalent_refl
  | error e => exact .refused rfl

theorem symm (h : SameOutcome x y) : SameOutcome y x := by
  cases h with
  | found h => exact .found (Handle.equivalent_symm h)
  | refused h => exact .refused h.symm

theorem trans (h : SameOutcome x y) (h' : SameOutcome y z) : SameOutcome x z := by
  cases h with
  | found h =>
    cases h' with
    | found h' => exact .found (Handle.equivalent_trans h h')
  | refused h =>
    cases h' with
    | refused h' => exact .refused (h.trans h')

theorem of_agree (h : Agree Handle.Equiv x y) : SameOutcome x y := by
  cases h with
  | ok h => exact .found h
  | error e => exact .refused rfl

end SameOutcome

/-- Whether two look-ups have the same outcome: on one machine, and one after the other, whatever
members are asked for in between. -/
structure Link.Matches (C : Classes) (x y : Link Handle) : Prop where
  same : ∀ m : Machine, SameOutcome (x.start m).1 (y.start m).1
  later : ∀ (m : Machine) (between : List (Lookup × MemberOp)),
    SameOutcome (x.start m).1 (y.start ((x.start m).2.afterLookups C between)).1
  earlier : ∀ (m : Machine) (between : List (Lookup × MemberOp)),
    SameOutcome (x.start ((y.start m).2.afterLookups C between)).1 (y.start m).1

/-! ## Look-ups repeated -/

/-- The one reason why there is no signature is that the types are none. -/
theorem Signature.exists_of_of {ret : Ty} {params : List Ty} {e : Error}
    (h : Signature.of ret params = .error e) : ∃ s, e = .signature s := by
  unfold of at h
  split at h
  · exact ⟨_, (Except.error.inj h).symm⟩
  · split at h
    · cases h
    · exact ⟨_, (Except.error.inj h).symm⟩

theorem Signature.exists_of_changeParam {s : Signature} {i : Nat} {t : Ty} {e : Error}
    (h : s.changeParam i t = .error e) : ∃ s, e = .signature s := by
  unfold changeParam at h
  split at h
  · exact exists_of_of h
  · exact ⟨_, (Except.error.inj h).symm⟩

theorem Lookup.exists_of_methodType {kind : RefKind} {ref : ClassId} {caller : Option ClassId}
    {declared : Signature} {e : Error} (h : methodType kind ref caller declared = .error e) :
    ∃ s, e = .signature s := by
  have hinserted : ∀ ts, declared.insertParams 0 ts = .error e → ∃ s, e = .signature s := by
    intro ts h
    rw [Signature.insertParams, if_pos (Nat.zero_le _)] at h
    exact Signature.exists_of_of h
  unfold methodType at h
  split at h
  · cases h
  · exact Signature.exists_of_of h
  · exact hinserted _ h
  · exact hinserted _ h

namespace Link

variable {α β : Type}

/-- The computation comes to the same on every machine, and only reports; if it fails, then with an
error as said. -/
def Steady (p : Error → Prop) (x : Link α) : Prop :=
  ∃ r, (∀ e, r = .error e → p e) ∧ ∀ m : Machine, ∃ es, x.start m = (r, m.reports es)

namespace Steady

variable {p : Error → Prop}

theorem pure (a : α) : Steady p (Pure.pure a) := ⟨.ok a, nofun, fun _ => ⟨[], rfl⟩⟩

theorem throw {e : Error} (he : p e) : Steady p (throw e : Link α) :=
  ⟨.error e, fun _ h => Except.error.inj h ▸ he, fun _ => ⟨[], rfl⟩⟩

theorem report (e : Event) : Steady p (Link.report e) := ⟨.ok (), nofun, fun _ => ⟨[e], rfl⟩⟩

theorem ofExcept {x : Except Error α} (hx : ∀ e, x = .error e → p e) :
    Steady p (Link.ofExcept x) := by
  cases x with
  | ok a => exact .pure a
  | error e => exact .throw (hx e rfl)

theorem bind {x : Link α} {f : α → Link β} (hx : x.Steady p) (hf : ∀ a, (f a).Steady p) :
    (x >>= f).Steady p := by
  obtain ⟨r, hp, hr⟩ := hx
  cases r with
  | error e =>
    refine ⟨.error e, fun e' h => ?_, fun m => ?_⟩
    · exact Except.error.inj h ▸ hp e rfl
    · obtain ⟨es, hes⟩ := hr m
      exact ⟨es, by rw [start_bind, hes]⟩
  | ok a =>
    obtain ⟨r', hp', hr'⟩ := hf a
    refine ⟨r', hp', fun m => ?_⟩
    obtain ⟨es, hes⟩ := hr m
    obtain ⟨fs, hfs⟩ := hr' (m.reports es)
    refine ⟨es ++ fs, ?_⟩
    rw [start_bind, hes, ← Machine.reports_reports]
    exact hfs

end Steady

/-- The look-up fails with errors as said. Made once more, on a machine whose member cache has gained
entries at most since, it comes to the same. -/
structure Repeats (p : Error → Prop) (x : Link Handle) : Prop where
  fails : ∀ (m : Machine) (e : Error), (x.start m).1 = .error e → p e
  again : ∀ m n : Machine, (x.start m).2.members.Grows n.members →
    Agree Handle.Equiv (x.start m).1 (x.start n).1

theorem Repeats.bind {p : Error → Prop} {x : Link α} {f : α → Link Handle} (hx : x.Steady p)
    (hf : ∀ a, Repeats p (f a)) : Repeats p (x >>= f) := by
  obtain ⟨r, hp, hr⟩ := hx
  constructor
  · intro m e he
    obtain ⟨es, hes⟩ := hr m
    rw [start_bind, hes] at he
    cases r with
    | error e' =>
      obtain rfl := Except.error.inj he
      exact hp e' rfl
    | ok a => exact (hf a).fails _ e he
  · intro m n hgrows
    obtain ⟨es, hes⟩ := hr m
    obtain ⟨fs, hfs⟩ := hr n
    rw [start_bind, hes] at hgrows ⊢
    rw [start_bind, hfs]
    cases r with
    | error e => exact .error e
    | ok a =>
      refine (hf a).again (m.reports es) (n.reports fs) ?_
      rw [n.members_reports]
      exact hgrows

/-- Two look-ups match if one repeats and on each machine they come to the same and leave the same.
-/
theorem Matches.of_repeats {C : Classes} {p : Error → Prop} {x y : Link Handle} (hx : x.Repeats p)
    (h : ∀ m : Machine, SameOutcome (x.start m).1 (y.start m).1 ∧ (x.start m).2 = (y.start m).2) :
    Matches C x y := by
  have hagain : ∀ (m : Machine) between, SameOutcome (x.start m).1
      (x.start ((x.start m).2.afterLookups C between)).1 := fun m between =>
    .of_agree (hx.again m _ (Machine.grows_afterLookups C _ between))
  constructor
  · exact fun m => (h m).1
  · exact fun m between => (hagain m between).trans (h _).1
  · intro m between
    rw [← (h m).2]
    exact (hagain m between).symm.trans (h m).1

theorem Matches.of_eq {C : Classes} {p : Error → Prop} {x y : Link Handle} (hx : x.Repeats p)
    (h : x = y) : Matches C x y := by
  subst h
  exact .of_repeats hx fun m => ⟨.refl _, rfl⟩

end Link

/-- What comes first does not matter if it is the same. -/
theorem Link.sameOutcome_bind {α : Type} (x : Link α) {f g : α → Link Handle}
    (h : ∀ (a : α) (m : Machine), SameOutcome ((f a).start m).1 ((g a).start m).1 ∧
      ((f a).start m).2 = ((g a).start m).2) (m : Machine) :
    SameOutcome ((x >>= f).start m).1 ((x >>= g).start m).1 ∧
      ((x >>= f).start m).2 = ((x >>= g).start m).2 := by
  rw [start_bind, start_bind]
  obtain ⟨r, n⟩ := x.start m
  cases r with
  | error e => exact ⟨.refused rfl, rfl⟩
  | ok a => exact h a n

namespace Lookup

variable (C : Classes) (l : Lookup)

section Checks

variable {p : Error → Prop} (hp : ∀ e : Error, (∀ k, e.kind ≠ .resolution k) → p e)
include hp

theorem steady_deny {α : Type} (d : Denial) : (l.deny d : Link α).Steady p := .throw (hp _ nofun)

theorem steady_checkClass (c : ClassId) : (l.checkClass C c).Steady p := by
  unfold checkClass
  split
  · exact .pure _
  · refine .bind (.report _) fun _ => ?_
    split
    · exact l.steady_deny hp _
    · exact .pure _

theorem steady_checkMethod (kind : RefKind) (ref owner : ClassId) (mods : Flags) (m : MethodRef) :
    (l.checkMember C kind ref owner mods (.method m)).Steady p := by
  unfold checkMember
  split
  · exact .pure _
  · refine .bind (.report _) fun _ => ?_
    split
    · exact l.steady_deny hp _
    · exact .pure _

theorem steady_checkSignature (s : Signature) (ref : ClassId) :
    (l.checkSignature C s ref).Steady p := by
  unfold checkSignature
  split
  · exact .pure _
  · exact l.steady_deny hp _

theorem steady_checkSpecialCaller (ref caller : ClassId) :
    (l.checkSpecialCaller C ref caller).Steady p := by
  have hsub : ∀ r : PUnit, (if (!C.graph.isSubclass caller ref) = true then
      l.deny (.notSubclass caller ref) else pure r : Link PUnit).Steady p := by
    intro r
    split
    · exact l.steady_deny hp _
    · exact .pure _
  unfold checkSpecialCaller
  split
  · exact .pure _
  · dsimp only
    split
    · exact .bind (l.steady_deny hp _) fun r => hsub r
    · exact hsub _

theorem steady_ofExcept {x : Except Error Signature}
    (hx : ∀ e, x = .error e → ∃ s, e = .signature s) : (Link.ofExcept x).Steady p := by
  refine .ofExcept fun e he => ?_
  obtain ⟨s, rfl⟩ := hx e he
  exact hp _ nofun

theorem repeats_handleFor (u : Use) (key : MemberKey) : (l.handleFor C u key true).Repeats p where
  again _ _ hgrows := agree_handleFor hgrows
  fails m e he := by
    obtain ⟨h, m', hcached⟩ : ∃ h m', cached key (u.make C.graph key.type) m = .ok h m' :=
      exists_ok_of_start (start_cached (Use.makes_make key.type) m).1 |>.elim fun m' h => ⟨_, m', h⟩
    have hstart : (l.handleFor C u key true).start m =
        (if true && l.narrows C.graph u then l.narrow h else pure h : Link Handle).start m' := by
      unfold handleFor Link.start
      rw [bind_eq_of_ok hcached]
    rw [hstart] at he
    split at he
    · rw [narrow, (Link.start_build _ m').1] at he
      cases hnarrowed : h.type.changeParam 0 (.cls l.cls) with
      | error e' =>
        rw [hnarrowed] at he
        obtain rfl : e' = e := Except.error.inj he
        obtain ⟨s, rfl⟩ := Signature.exists_of_changeParam hnarrowed
        exact hp _ fun k hk => by cases hk
      | ok t =>
        rw [hnarrowed] at he
        have he : h.retype m'.nextStamp t = .error e := he
        unfold Handle.retype at he
        split at he
        · cases he
        · obtain rfl := Except.error.inj he
          exact hp _ fun k hk => by cases hk
    · cases he

theorem repeats_methodHandle (kind : RefKind) (ref : ClassId) (m : MethodRef)
    (caller : Option ClassId) : (l.methodHandle C kind ref m caller true).Repeats p :=
  .bind (l.steady_checkMethod C hp _ _ _ _ m) fun _ =>
    .bind (steady_ofExcept hp fun _ => Signature.exists_of_of) fun _ =>
      .bind (l.steady_checkSignature C hp _ _) fun _ =>
        .bind (steady_ofExcept hp fun _ => exists_of_methodType) fun type =>
          l.repeats_handleFor C hp ⟨kind, ref, caller, .method m⟩
            ⟨ref, (C.graph.method m).name, type, kind⟩

theorem repeats_unreflect (m : MethodRef) : (l.unreflect C m).Repeats p :=
  .bind (l.steady_checkClass C hp _) fun _ => l.repeats_methodHandle C hp _ _ _ _

theorem repeats_unreflectSpecial (hstatic : ∀ m, p (.resolution (.staticSpecial m))) (m : MethodRef)
    (caller : ClassId) : (l.unreflectSpecial C m caller).Repeats p := by
  refine .bind (l.steady_checkSpecialCaller C hp _ _) fun _ =>
    .bind (l.steady_checkClass C hp _) fun _ => ?_
  dsimp only
  split
  · exact .bind (.throw (hstatic m)) fun _ => l.repeats_methodHandle C hp _ _ _ _
  · exact l.repeats_methodHandle C hp _ _ _ _

end Checks

theorem repeats_unreflectConstructor (m : MethodRef) :
    (l.unreflectConstructor C m).Repeats fun _ => True := by
  have hany : ∀ e : Error, (∀ k, e.kind ≠ .resolution k) → True := fun _ _ => trivial
  have hinit : ∀ r : PUnit, (if (!(C.graph.method m).isConstructor) = true then
      (throw (.resolution (.notConstructor m)) : Link PUnit) >>= fun _ =>
        l.methodHandle C .newInvokeSpecial m.cls m none true
      else l.methodHandle C .newInvokeSpecial m.cls m none true).Repeats fun _ => True := by
    intro r
    split
    · exact .bind (.throw trivial) fun _ => l.repeats_methodHandle C hany _ _ _ _
    · exact l.repeats_methodHandle C hany _ _ _ _
  refine .bind (l.steady_checkClass C hany _) fun _ => ?_
  dsimp only
  split
  · exact .bind (.throw trivial) fun r => hinit r
  · exact hinit ()

end Lookup

/-! ## A declared method under its own name -/

/-- No class declares two methods of one name and descriptor. -/
def ClassGraph.MethodsUnique (G : ClassGraph) : Prop :=
  ∀ (c : ClassId) (i j : Nat) (a b : MethodDecl), (G.decl c).methods[i]? = some a →
    (G.decl c).methods[j]? = some b → a.name = b.name → a.desc = b.desc → i = j

/-- Whether resolution finds methods under the name: constructors and class initialisers it does
not. -/
def MethodDecl.IsNamed (d : MethodDecl) : Prop :=
  d.name ≠ MethodDecl.constructorName ∧ d.name ≠ ClassGraph.initializerName

namespace ClassGraph

variable {G : ClassGraph} {m : MethodRef}

theorem methodHere?_self (hG : G.MethodsUnique) (hm : G.HasMethod m) :
    G.methodHere? m.cls (G.method m).name (G.method m).desc = some m := by
  obtain ⟨m', hm'⟩ := exists_methodHere? hm
  unfold methodHere? at hm' ⊢
  obtain ⟨i, hi, rfl⟩ := Option.map_eq_some_iff.1 hm'
  obtain ⟨hlt, hd, -⟩ := List.findIdx?_eq_some_iff_getElem.1 hi
  rw [Bool.and_eq_true, beq_iff_eq, beq_iff_eq] at hd
  obtain rfl : i = m.index.toNat := hG m.cls i m.index.toNat _ _ (List.getElem?_eq_getElem hlt)
    (getElem?_of_hasMethod hm) hd.1 hd.2
  rw [hi, Option.map_some, UInt16.ofNat_toNat]

/-- The search by name ends with the method, so what is left is whether it is used as it is. -/
theorem resolveMethod_self (hG : G.MethodsUnique) (hm : G.HasMethod m)
    (hnamed : (G.method m).IsNamed) {search : MethodSearch}
    (hvirtual : ¬ (search = .virtual ∧ G.isInterface m.cls = true))
    (hinterface : ¬ (search = .interface ∧ ¬ G.isInterface m.cls = true)) :
    G.resolveMethod m.cls (G.method m).name (G.method m).desc search =
      if (search = .static) = ((G.method m).flags.isStatic = true) then .ok m
      else .error (if search = .static then .notStatic m else .notInstance m) := by
  have hname : ¬ ((G.method m).name = MethodDecl.constructorName ∨
      (G.method m).name = initializerName) := not_or.2 hnamed
  unfold resolveMethod
  rw [if_neg hvirtual, if_neg hinterface, if_neg hname,
    findMethod?_of_methodHere? (methodHere?_self hG hm)]
  dsimp only
  cases search <;> cases (G.method m).flags.isStatic <;> rfl

theorem resolveMethod_of_not_isNamed (hnamed : ¬ (G.method m).IsNamed) {search : MethodSearch}
    {c : ClassId} (hvirtual : ¬ (search = .virtual ∧ G.isInterface c = true))
    (hinterface : ¬ (search = .interface ∧ ¬ G.isInterface c = true)) (desc : Descriptor) :
    G.resolveMethod c (G.method m).name desc search =
      .error (.noSuchMethod c (G.method m).name desc) := by
  have hname : (G.method m).name = MethodDecl.constructorName ∨
      (G.method m).name = initializerName := by
    simpa [MethodDecl.IsNamed, imp_iff_not_or, or_comm] using hnamed
  unfold resolveMethod
  rw [if_neg hvirtual, if_neg hinterface, if_pos hname]

end ClassGraph

namespace Lookup

/-- A method asked for by its name, in the class that declares it. -/
def findNamed (C : Classes) (l : Lookup) (m : MethodRef) (type : Signature) : Link Handle :=
  if (C.graph.method m).flags.isStatic then
    l.findStatic C m.cls (C.graph.method m).name type
  else l.findVirtual C m.cls (C.graph.method m).name type

/-- Whether the lookup may name the class. -/
def MayName (C : Classes) (l : Lookup) (c : ClassId) : Prop :=
  l.trusted = true ∨ C.graph.classAccessible c l.cls l.modes = true

/-- Whether the lookup may call methods of the class without dispatch, as the caller. -/
def MayBypass (C : Classes) (l : Lookup) (c caller : ClassId) : Prop :=
  l.trusted = true ∨
    l.hasPrivateAccess = true ∧ caller = l.cls ∧ C.graph.isSubclass caller c = true

section Self

variable {C : Classes} (l : Lookup) {m : MethodRef} {type : Signature}
  (hG : C.graph.MethodsUnique) (hm : C.graph.HasMethod m)
  (htype : type.descriptor = (C.graph.method m).desc)

/-- The way of looking an instance method up goes by its class, whichever way the method is asked
for. -/
theorem findNamed_eq : l.findNamed C m type =
    l.checkClass C m.cls >>= fun _ =>
      let search : MethodSearch :=
        if (C.graph.method m).flags.isStatic then .static
        else if C.graph.isInterface m.cls then .interface else .virtual
      let kind : RefKind :=
        if (C.graph.method m).flags.isStatic then .invokeStatic
        else if C.graph.isInterface m.cls then .invokeInterface else .invokeVirtual
      resolved (C.graph.resolveMethod m.cls (C.graph.method m).name type.descriptor search) >>=
        fun found => l.methodHandle C kind m.cls found none true := by
  unfold findNamed
  by_cases hstatic : (C.graph.method m).flags.isStatic = true
  · simp only [if_pos hstatic]
    rfl
  · simp only [if_neg hstatic]
    by_cases hinterface : C.graph.isInterface m.cls = true
    · simp only [if_pos hinterface, findVirtual, findInstance]
    · simp only [if_neg hinterface, findVirtual, findInstance]

/-- A method that is not static is called without dispatch as it is found by name, and for one that is
both ways fail. -/
theorem sameOutcome_special (hG : C.graph.MethodsUnique) (hm : C.graph.HasMethod m)
    (htype : type.descriptor = (C.graph.method m).desc) (hnamed : (C.graph.method m).IsNamed)
    (caller : ClassId) (n : Machine) :
    let x := l.unreflectSpecial C m caller
    let y := l.findSpecial C m.cls (C.graph.method m).name type caller
    SameOutcome (x.start n).1 (y.start n).1 ∧ (x.start n).2 = (y.start n).2 := by
  refine Link.sameOutcome_bind _ (fun _ n => Link.sameOutcome_bind _ (fun _ n => ?_) n) n
  dsimp only
  rw [htype, ClassGraph.resolveMethod_self hG hm hnamed (by grind) (by grind)]
  by_cases hstatic : (C.graph.method m).flags.isStatic = true
  · simp only [hstatic]
    exact ⟨.refused rfl, rfl⟩
  · simp only [hstatic]
    exact ⟨.refl _, rfl⟩

include hG hm htype

theorem unreflect_eq_findNamed (hnamed : (C.graph.method m).IsNamed) :
    l.unreflect C m = l.findNamed C m type := by
  have hfound : C.graph.resolveMethod m.cls (C.graph.method m).name (C.graph.method m).desc
      (if (C.graph.method m).flags.isStatic then .static
        else if C.graph.isInterface m.cls then .interface else .virtual) = .ok m := by
    rw [ClassGraph.resolveMethod_self hG hm hnamed (by grind) (by grind)]
    exact if_pos (by grind)
  rw [findNamed_eq, htype]
  refine bind_congr fun _ => ?_
  dsimp only
  rw [hfound]
  rfl

theorem unreflectConstructor_eq_findConstructor (hinit : (C.graph.method m).isConstructor = true)
    (hvoid : type.ret = .void) : l.unreflectConstructor C m = l.findConstructor C m.cls type := by
  have hname : (C.graph.method m).name = MethodDecl.constructorName := by
    simpa [MethodDecl.isConstructor] using hinit
  have hhere := ClassGraph.methodHere?_self hG hm
  rw [hname] at hhere
  have hfound : C.graph.resolveConstructor m.cls type.descriptor =
      if (C.graph.flags m.cls).isAbstract || (C.graph.flags m.cls).isInterface then
        .error (.instantiation m.cls)
      else .ok m := by
    rw [htype, ClassGraph.resolveConstructor, hhere, Bool.or_comm]
  have hret : ¬ type.ret ≠ .void := not_not_intro hvoid
  unfold unreflectConstructor findConstructor
  refine bind_congr fun _ => ?_
  dsimp only
  rw [if_neg hret, hfound, hinit]
  split
  · rfl
  · rfl

end Self

end Lookup

/-! ## Names under which no method is found -/

/-- Where a check refuses, what would have come after it does not matter. -/
theorem Link.Refuses.bind_congr {α β : Type} {x : Link α} (hx : x.Refuses) (f g : α → Link β) :
    x >>= f = x >>= g := by
  funext m
  obtain ⟨e, es, he⟩ := hx m
  rw [bind_eq_of_error he, bind_eq_of_error he]

/-- A look-up that finds no method is not matched by one that does not fail so. -/
theorem Link.not_matches_of_misses {C : Classes} {x y : Link Handle}
    (hx : x.Repeats fun e => e.kind ≠ .resolution .noSuchMethod)
    (hy : ∃ (m : Machine) (e : Error), (y.start m).1 = .error e ∧
      e.kind = .resolution .noSuchMethod) : ¬ Matches C x y := by
  intro h
  obtain ⟨m, e, he, hkind⟩ := hy
  have hsame := h.same m
  rw [he] at hsame
  cases hr : (x.start m).1 with
  | ok a =>
    rw [hr] at hsame
    cases hsame
  | error f =>
    rw [hr] at hsame
    cases hsame with
    | refused h => exact hx.fails m f hr (h.trans hkind)

namespace Lookup

variable {C : Classes} (l : Lookup) {m : MethodRef} {type : Signature}

theorem exists_of_findNamed (hnamed : ¬ (C.graph.method m).IsNamed)
    (hclass : l.MayName C m.cls) (n : Machine) :
    ∃ e, ((l.findNamed C m type).start n).1 = .error e ∧ e.kind = .resolution .noSuchMethod := by
  obtain ⟨es, hes⟩ := (l.guarded_checkClass C m.cls).passes hclass n
  rw [findNamed_eq, Link.start, bind_eq_of_ok hes,
    ClassGraph.resolveMethod_of_not_isNamed hnamed (by grind) (by grind)]
  exact ⟨_, rfl, rfl⟩

theorem exists_of_findSpecial (hnamed : ¬ (C.graph.method m).IsNamed) {caller : ClassId}
    (hcaller : l.MayBypass C m.cls caller) (hclass : l.MayName C m.cls) (n : Machine) :
    ∃ e, ((l.findSpecial C m.cls (C.graph.method m).name type caller).start n).1 = .error e ∧
      e.kind = .resolution .noSuchMethod := by
  obtain ⟨es, hes⟩ := (l.guarded_checkSpecialCaller C m.cls caller).passes hcaller n
  obtain ⟨fs, hfs⟩ := (l.guarded_checkClass C m.cls).passes hclass (n.reports es)
  rw [findSpecial, Link.start, bind_eq_of_ok hes, bind_eq_of_ok hfs,
    ClassGraph.resolveMethod_of_not_isNamed hnamed (by grind) (by grind)]
  exact ⟨_, rfl, rfl⟩

variable (hG : C.graph.MethodsUnique) (hm : C.graph.HasMethod m)
  (htype : type.descriptor = (C.graph.method m).desc)
include hG hm htype

theorem matches_unreflect_iff : Link.Matches C (l.unreflect C m) (l.findNamed C m type) ↔
    (C.graph.method m).IsNamed ∨ ¬ l.MayName C m.cls := by
  have hrepeats : (l.unreflect C m).Repeats fun e => e.kind ≠ .resolution .noSuchMethod :=
    l.repeats_unreflect C (fun _ h => h _) m
  by_cases hnamed : (C.graph.method m).IsNamed
  · exact iff_of_true (.of_eq hrepeats (l.unreflect_eq_findNamed hG hm htype hnamed)) (.inl hnamed)
  · by_cases hclass : l.MayName C m.cls
    · refine iff_of_false (Link.not_matches_of_misses hrepeats ?_) (by simp [hnamed, hclass])
      exact ⟨.initial true, l.exists_of_findNamed hnamed hclass _⟩
    · refine iff_of_true (.of_eq hrepeats ?_) (.inr hclass)
      rw [findNamed_eq]
      exact ((l.guarded_checkClass C m.cls).refuses hclass).bind_congr _ _

theorem matches_unreflectSpecial_iff (caller : ClassId) :
    Link.Matches C (l.unreflectSpecial C m caller)
        (l.findSpecial C m.cls (C.graph.method m).name type caller) ↔
      (C.graph.method m).IsNamed ∨ ¬ (l.MayBypass C m.cls caller ∧ l.MayName C m.cls) := by
  have hrepeats : (l.unreflectSpecial C m caller).Repeats fun e =>
      e.kind ≠ .resolution .noSuchMethod :=
    l.repeats_unreflectSpecial C (fun _ h => h _) (fun _ h => by cases h) m caller
  by_cases hnamed : (C.graph.method m).IsNamed
  · exact iff_of_true (.of_repeats hrepeats (l.sameOutcome_special hG hm htype hnamed caller))
      (.inl hnamed)
  by_cases hcaller : l.MayBypass C m.cls caller
  · by_cases hclass : l.MayName C m.cls
    · refine iff_of_false (Link.not_matches_of_misses hrepeats ?_) (by simp [hnamed, hcaller, hclass])
      exact ⟨.initial true, l.exists_of_findSpecial hnamed hcaller hclass _⟩
    · refine iff_of_true (.of_eq hrepeats ?_) (.inr fun h => hclass h.2)
      exact bind_congr fun _ => ((l.guarded_checkClass C m.cls).refuses hclass).bind_congr _ _
  · refine iff_of_true (.of_eq hrepeats ?_) (.inr fun h => hcaller h.1)
    exact ((l.guarded_checkSpecialCaller C m.cls caller).refuses hcaller).bind_congr _ _

end Lookup

/-! ## Bodies of constructors -/

/-- Whether the look-up is one of those that make instances. -/
def MemberOp.makesInstances : MemberOp → Bool
  | findConstructor .. | unreflectConstructor _ => true
  | _ => false

section Uses

variable {G : ClassGraph} {op : MemberOp} {u v : Use} {key : MemberKey}

/-- The way of use says whether the member is a field, and whether instances are made. -/
theorem MemberOp.kind_of_use (hu : op.use? G = some u) :
    (u.kind.isField = true ↔ ∃ f, u.member = .field f) ∧
      (u.kind = .newInvokeSpecial → op.makesInstances = true) := by
  have hmethod : ∀ {x : Except ResolutionError MethodRef} {kind : RefKind} {ref : ClassId}
      {caller : Option ClassId},
      x.toOption.map (fun m => (⟨kind, ref, caller, .method m⟩ : Use)) = some u →
      kind.isField = false → (u.kind.isField = true ↔ ∃ f, u.member = .field f) ∧ u.kind = kind := by
    intro x kind ref caller h hkind
    obtain ⟨m, -, rfl⟩ := Option.map_eq_some_iff.1 h
    exact ⟨iff_of_false (by simp [hkind]) nofun, rfl⟩
  have hfield : ∀ {kind : RefKind} {ref : ClassId} {name : String} {type : Ty},
      fieldUse? G kind ref name type = some u → kind.isField = true →
      (u.kind.isField = true ↔ ∃ f, u.member = .field f) ∧ u.kind = kind := by
    intro kind ref name type h hkind
    obtain ⟨f, -, rfl⟩ := Option.map_eq_some_iff.1 h
    exact ⟨iff_of_true hkind ⟨f, rfl⟩, rfl⟩
  have hinstance : ∀ {ref : ClassId} {name : String} {type : Signature},
      instanceUse? G ref name type = some u →
      (u.kind.isField = true ↔ ∃ f, u.member = .field f) ∧ u.kind ≠ .newInvokeSpecial := by
    intro ref name type h
    unfold instanceUse? at h
    split at h
    · exact (hmethod h rfl).imp_right fun hk => by simp [hk]
    · exact (hmethod h rfl).imp_right fun hk => by simp [hk]
  have other : ∀ {p : Prop} {kind : RefKind}, p ∧ u.kind = kind → kind ≠ .newInvokeSpecial →
      p ∧ (u.kind = .newInvokeSpecial → op.makesInstances = true) :=
    fun h hkind => ⟨h.1, fun hnew => absurd (h.2.symm.trans hnew) hkind⟩
  cases op with
  | findStatic => exact other (hmethod hu rfl) nofun
  | findVirtual => exact (hinstance hu).imp_right fun hk hnew => absurd hnew hk
  | findSpecial => exact other (hmethod hu rfl) nofun
  | bind => exact (hinstance hu).imp_right fun hk hnew => absurd hnew hk
  | findGetter => exact other (hfield hu rfl) nofun
  | findSetter => exact other (hfield hu rfl) nofun
  | findStaticGetter => exact other (hfield hu rfl) nofun
  | findStaticSetter => exact other (hfield hu rfl) nofun
  | findConstructor ref type =>
    simp only [use?] at hu
    split at hu
    · cases hu
    · exact ⟨(hmethod hu rfl).1, fun _ => rfl⟩
  | unreflectConstructor | unreflect | unreflectSpecial | unreflectGetter | unreflectSetter =>
    simp only [use?] at hu
    grind [RefKind.isField, makesInstances]

/-- Whether the member of a use is no constructor. -/
def Use.IsOrdinary (G : ClassGraph) (u : Use) : Prop :=
  ∀ m, u.member = .method m → (G.method m).isConstructor = false

/-- A look-up that does not ask for a constructor as such does not come down to one. -/
theorem MemberOp.isOrdinary_of_use (hG : ∀ c, (G.decl c).methods.length ≤ 65536)
    (hu : op.use? G = some u) (hmakes : op.makesInstances = false)
    (htakes : op.takesConstructor G = false) : u.IsOrdinary G := by
  intro m hm
  cases hinit : (G.method m).isConstructor with
  | false => rfl
  | true =>
    have hnew := kind_of_isConstructor hG hu htakes hm hinit
    exact absurd (hmakes.symm.trans ((kind_of_use hu).2 hnew)) nofun

/-- A key has the name of the member, so what is kept under the key of a method that is no
constructor is on none. -/
theorem Use.IsOrdinary.of_key? (h : u.IsOrdinary G) (hu : u.Reachable G) (hv : v.Reachable G)
    (hkey : u.key? G = some key) (hvkey : v.key? G = some key) : v.IsOrdinary G := by
  intro b hb
  obtain ⟨-, -, hname, hkind⟩ := key?_eq_some_iff.1 hkey
  obtain ⟨-, -, hvname, hvkind⟩ := key?_eq_some_iff.1 hvkey
  cases hmember : u.member with
  | method a =>
    have hnames : (G.method b).name = (G.method a).name := by
      have hsame := hvname.symm.trans hname
      rwa [name, name, hb, hmember] at hsame
    have ha := h a hmember
    rwa [MethodDecl.isConstructor, ← hnames] at ha
  | field f =>
    -- then the way of use is one of fields, for both
    obtain ⟨op, -, hu⟩ := hu
    obtain ⟨op', -, hv⟩ := hv
    have hfield : u.kind.isField = true := (MemberOp.kind_of_use hu).1.2 ⟨f, hmember⟩
    rw [← hkind, hvkind] at hfield
    obtain ⟨f', hf'⟩ := (MemberOp.kind_of_use hv).1.1 hfield
    cases hb.symm.trans hf'

end Uses

/-- What is promised of a node that runs no constructor: the method that it calls is none. -/
def ordinaryLaw (G : ClassGraph) : MethodLaw G where
  holds n _ := ∀ m, n.member? = some (.method m) → (G.method m).isConstructor = false
  view hn _ := hn

section Law

variable {G : ClassGraph} {n : Node Handle} {ps qs : List Ty}

/-- The parameters do not matter for the law. -/
theorem Node.Obeys.under (hn : Node.Obeys (ordinaryLaw G) n ps) (qs : List Ty) :
    Node.Obeys (ordinaryLaw G) n qs := by
  induction hn with
  | plain fixed unsited law children => exact .plain fixed unsited law children
  | varargs target passed _ ih => exact .varargs target ih

/-- Dispatch stays with the name of the method that is called, so it selects no constructor either.
-/
theorem Node.Obeys.isConstructor (hG : ∀ c, (G.decl c).methods.length ≤ 65536)
    (hn : Node.Obeys (ordinaryLaw G) n ps) {args vs : List Value} {m : MethodRef}
    (hengages : n.Engages G args (.body m) vs) : (G.method m).isConstructor = false := by
  cases hn with
  | varargs => cases hengages
  | plain _ _ law =>
    cases hengages with
    | static => exact law m rfl m rfl
    | special => exact law m rfl m rfl
    | construct => exact law m rfl m rfl
    | @virtual a _ d _ o rest ho hs =>
      have ha := law a rfl a rfl
      have hselected : G.selectMethod? o.cls a = some m := (Option.filter_eq_some_iff.1 hs).1
      cases hprivate : (G.method a).flags.isPrivate with
      | true =>
        rw [ClassGraph.selectMethod?, if_pos hprivate] at hselected
        obtain rfl := Option.some.inj hselected
        exact ha
      | false =>
        have hname := (ClassGraph.implements_of_selectMethod? hG hprivate hselected).name
        rwa [MethodDecl.isConstructor, hname]

theorem Use.obeys_ordinaryLaw {u : Use} (hu : u.IsOrdinary G) (t : Signature) (s : Stamp) :
    (u.handle G t s).Obeys (ordinaryLaw G) := by
  have hnode : ∀ ps, Node.Obeys (ordinaryLaw G) (u.node G) ps := by
    intro ps
    refine .plain ?_ ?_ (fun _ _ m hm => hu m ?_) ?_
    all_goals
      obtain ⟨kind, ref, caller, m | f⟩ := u
      · simp only [node, Lookup.methodNode] at *
        grind [Node.variant, Node.member?, Node.children]
      · simp only [node] at *
        grind [Node.variant, Node.member?, Node.children]
  unfold handle
  split
  · exact .varargs (hnode _) (hnode _)
  · exact hnode _

/-- What an activation calls obeys the law that its own handle obeys, and so does whatever is called
from that. -/
theorem Activation.Stack.obeys {P : Program} {L : MethodLaw P.graph} {root b : Activation}
    {S : List (Activation × Position)} (hS : Stack P root S b) (hroot : root.handle.Obeys L) :
    b.handle.Obeys L := by
  induction hS with
  | nil => exact hroot
  | cons outer call ih => exact Node.Obeys.child ih (call.held (Node.Obeys.unsited ih))

/-- Whether some call of the handle runs the body of a constructor. -/
def Handle.RunsConstructor (G : ClassGraph) (h : Handle) : Prop :=
  ∃ (P : Program) (depth : Nat) (args : List Value) (m : Machine) (i : Nat) (c : Call), P.graph = G ∧
    m.calls.size ≤ i ∧ ((h.invokeExact P depth args).leaves m).calls[i]? = some c ∧
    (G.method c.method).isConstructor = true

theorem Handle.Obeys.not_runsConstructor (hG : ∀ c, (G.decl c).methods.length ≤ 65536) {h : Handle}
    (hh : h.Obeys (ordinaryLaw G)) : ¬ h.RunsConstructor G := by
  rintro ⟨P, depth, args, m, i, c, rfl, hi, hc, hinit⟩
  cases hcheck : h.type.check P.graph args with
  | error e =>
    -- nothing is run
    have hnone : (h.invokeExact P depth args).leaves m = m := by
      unfold invokeExact
      rw [hcheck]
      rfl
    rw [hnone, Array.getElem?_eq_none hi] at hc
    cases hc
  | ok =>
    have hbasic : h.invokeExact P depth args = h.invokeBasic P depth args := by
      unfold invokeExact
      rw [hcheck]
      rfl
    rw [hbasic] at hc
    obtain ⟨S, b, d, n, hS, ⟨m', -, -, hreach⟩, -⟩ :=
      Activation.exists_stack_of_calls (P := P) ⟨h, args, depth, m⟩ hi hc
    have hb := hS.obeys hh
    rw [hb.isConstructor hG (hreach.runs (runs_work P.graph (Node.Obeys.unsited hb) b.args))] at hinit
    cases hinit

end Law

/-- A look-up that does not ask for a constructor, as one or at hand as a method, answers a handle
that runs none, whatever the member cache has been filled with. -/
theorem Lookup.not_runsConstructor_of_perform {G : ClassGraph}
    (hG : ∀ c, (G.decl c).methods.length ≤ 65536) {m m' : Machine} (hm : m.members.Filled G)
    {table : ClassTable} {l : Lookup} {op : MemberOp} (hop : op.IsValid G)
    (hmakes : op.makesInstances = false) (htakes : op.takesConstructor G = false) {h : Handle}
    (hh : l.perform ⟨G, table⟩ op m = .ok h m') : ¬ h.RunsConstructor G := by
  obtain ⟨u, key, es, hu, hkey, -, hanswer⟩ := exists_use_of_perform hh
  obtain ⟨a, m₁, hnode, -, hfinish⟩ := MemberOp.exists_base_of_answer hanswer
  have hordinary := MemberOp.isOrdinary_of_use hG hu hmakes htakes
  have hhandle : ((m.reports es).handleOf G u key).Obeys (ordinaryLaw G) := by
    refine Machine.handleOf_of (fun k hk => ?_) fun s => Use.obeys_ordinaryLaw hordinary _ s
    rw [m.members_reports] at hk
    obtain ⟨v, s, hv, hvkey, rfl⟩ := hm key k hk
    exact Use.obeys_ordinaryLaw (hordinary.of_key? ⟨op, hop, hu⟩ hv hkey hvkey) _ s
  refine (MemberOp.obeys_finish (L := ordinaryLaw G) ?_ hfinish).not_runsConstructor hG
  unfold Handle.Obeys
  rw [hnode]
  exact Node.Obeys.under hhandle _

/-! ## Both ways of looking up -/

/-- **Look-ups by name and of members at hand match.** A method at hand, in a class that declares no
other of its name and descriptor, is answered as it is when it is found by its name, as is a call of
it without dispatch, unless it is a constructor or a class initialiser: these resolution refuses to
find under their names, so the two ways agree exactly if something refuses before that. A constructor
declared to answer nothing is answered the same way at hand and by what it takes. And the constructors
that can be had as methods are those at hand: any other look-up but those two answers a handle that
never runs one, whatever has been looked up before it. -/
theorem Lookup.reflects {C : Classes} (hG : C.graph.MethodsUnique) {m : MethodRef}
    (hm : C.graph.HasMethod m) {type : Signature} (htype : type.descriptor = (C.graph.method m).desc)
    (l : Lookup) :
    (Link.Matches C (l.unreflect C m) (l.findNamed C m type) ↔
      (C.graph.method m).IsNamed ∨ ¬ l.MayName C m.cls) ∧
    (∀ caller, Link.Matches C (l.unreflectSpecial C m caller)
        (l.findSpecial C m.cls (C.graph.method m).name type caller) ↔
      (C.graph.method m).IsNamed ∨ ¬ (l.MayBypass C m.cls caller ∧ l.MayName C m.cls)) ∧
    ((C.graph.method m).isConstructor = true → type.ret = .void →
      Link.Matches C (l.unreflectConstructor C m) (l.findConstructor C m.cls type)) ∧
    ((∀ c, (C.graph.decl c).methods.length ≤ 65536) → ∀ (n n' : Machine) (op : MemberOp) (h : Handle),
      n.Caches C.graph → op.IsValid C.graph → l.perform C op n = .ok h n' → h.RunsConstructor C.graph →
      op.makesInstances = true ∨ op.takesConstructor C.graph = true) := by
  refine ⟨l.matches_unreflect_iff hG hm htype, l.matches_unreflectSpecial_iff hG hm htype,
    fun hinit hvoid => ?_, fun hmany n n' op h hn hop hh hruns => ?_⟩
  · exact .of_eq (l.repeats_unreflectConstructor C m)
      (l.unreflectConstructor_eq_findConstructor hG hm htype hinit hvoid)
  · by_contra hnone
    rw [not_or, Bool.not_eq_true, Bool.not_eq_true] at hnone
    exact not_runsConstructor_of_perform hmany hn.filled hop hnone.1 hnone.2 hh hruns

/-- The constructor of `p/A` as a method that dispatches. -/
def Handle.protectedInit : Handle :=
  ⟨0, ⟨[.cls bootstrapCount], .void, Ty.void_notMem_cls _, slotCount_cls_le _⟩,
    .virtual ⟨bootstrapCount, 0⟩ bootstrapCount false⟩

theorem Handle.protectedInit_runsConstructor :
    Handle.protectedInit.RunsConstructor .protectedInit := by
  let args : List Value := [.obj (.inst 0 bootstrapCount)]
  obtain ⟨n, -, hcalls, -, hperform⟩ := Handle.protectedInit.invokeBasic_of_settled
    (P := .zeros .protectedInit) (Machine.Reached.start true).settled 0
  have hcall : Handle.protectedInit.invokeExact (.zeros .protectedInit) 1 args (.initial true) =
      .ok .void { n with calls := n.calls.push ⟨⟨bootstrapCount, 0⟩, args⟩ } := hperform args
  refine ⟨.zeros .protectedInit, 1, args, .initial true, 0, ⟨⟨bootstrapCount, 0⟩, args⟩, rfl,
    Nat.le_refl 0, ?_, rfl⟩
  rw [Run.leaves_of_ok hcall]
  dsimp only
  rw [hcalls]
  rfl

/-- The lookup of `p/A` is answered the constructor in the same way at hand and by what it takes. But
taken as a method the constructor is answered too, and a call of that handle runs it, while under its
name there is no method. -/
theorem Lookup.reflects_of_protectedInit :
    let C : Classes := ⟨.protectedInit, .initial⟩
    let m : MethodRef := ⟨bootstrapCount, 0⟩
    let type : Signature := ⟨[], .void, by decide, by decide⟩
    let l : Lookup := full bootstrapCount
    Link.Matches C (l.unreflectConstructor C m) (l.findConstructor C m.cls type) ∧
      ¬ Link.Matches C (l.unreflect C m) (l.findNamed C m type) ∧
      ∃ h n, l.perform C (.unreflect m) (.initial true) = .ok h n ∧ h.RunsConstructor C.graph := by
  intro C m type l
  have hm : C.graph.HasMethod m := Nat.succ_pos 0
  obtain ⟨hunreflect, -, hconstructor, -⟩ :=
    @reflects C ClassGraph.protectedInit_unique.methods m hm type rfl l
  obtain ⟨h, n, hn, rfl⟩ : ∃ h n, (full bootstrapCount).perform ⟨.protectedInit, .initial⟩
      (.unreflect ⟨bootstrapCount, 0⟩) (.initial true) = .ok h n ∧ h = .protectedInit := by
    refine ⟨_, _, rfl, ?_⟩
    rfl
  refine ⟨hconstructor rfl rfl, fun h => ?_, .protectedInit, n, hn,
    Handle.protectedInit_runsConstructor⟩
  rcases hunreflect.1 h with hnamed | hclass
  · exact hnamed.1 rfl
  · exact hclass (.inr (by decide))

end HandleCalculus
