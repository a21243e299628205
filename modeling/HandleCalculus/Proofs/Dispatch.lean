import HandleCalculus.Invocation
import HandleCalculus.Proofs.Assignability
import HandleCalculus.Proofs.MemberSearch

/-!
# Dispatch

A method is found by one walk (`findMethod?`) and, once a receiver is there, selected by another
(`selectMethod?`). The first stops at whatever a superclass declares, static or private, and falls
back on interface methods without a body; the second passes all of these over. They still agree:
where the first has found an instance method with a body, the second answers for every class below,
and the same method for the class itself (`Program.dispatch_sound`). So a call that finds nothing to
run has met a declaration that is abstract.

Both walks know a class's methods by name and descriptor, and see the first one of a kind only, by its
number, which comes round after 65536 methods. What a class declares (`instanceHere?`) is meant in this
sense; `declares_iff_of_unique` says when it is the plain one, and `not_nearest_of_doubled` shows that a
second declaration is passed over.

What makes the walks meet is the shape of a graph. Superclasses and superinterfaces of a class are
inherited downwards (`superclasses_subset`, `superinterfaces_subset`), and a way up that has gone
through an interface stays among interfaces or ends in the root class, which declares nothing
(`mem_of_isSubclass`).
-/

set_option autoImplicit false

namespace HandleCalculus

namespace ClassGraph

/-! ## What a class declares -/

/-- The instance method that a class declares under a name and descriptor: the first method that it
has with them, if that is neither static nor private. Methods are numbered in sixteen bits, and where
the first one comes after 65536 others it is the method that its number has come round to. -/
def instanceHere? (G : ClassGraph) (c : ClassId) (name : String) (desc : Descriptor) :
    Option MethodRef :=
  (G.methodHere? c name desc).filter fun s =>
    !(G.method s).flags.isStatic && !(G.method s).flags.isPrivate

/-- The same, if it has a body; here too a number past 65536 methods has come round. -/
def defaultHere? (G : ClassGraph) (c : ClassId) (name : String) (desc : Descriptor) :
    Option MethodRef :=
  (G.instanceHere? c name desc).filter fun s => (G.method s).hasBody

variable {G : ClassGraph} {c d : ClassId} {name : String} {desc : Descriptor} {m s : MethodRef}

theorem instanceHere?_eq_some_iff : G.instanceHere? c name desc = some s ↔
    G.methodHere? c name desc = some s ∧ (G.method s).flags.isStatic = false ∧
      (G.method s).flags.isPrivate = false := by
  simp [instanceHere?, Option.filter_eq_some_iff]

theorem defaultHere?_eq_some_iff : G.defaultHere? c name desc = some s ↔
    G.instanceHere? c name desc = some s ∧ (G.method s).hasBody = true :=
  Option.filter_eq_some_iff

theorem cls_of_instanceHere? (h : G.instanceHere? c name desc = some s) : s.cls = c :=
  cls_of_methodHere? (instanceHere?_eq_some_iff.1 h).1

theorem instanceHere?_of_methodHere?_eq_none (h : G.methodHere? c name desc = none) :
    G.instanceHere? c name desc = none := by
  simp [instanceHere?, h]

/-- The search for a method with a body looks for defaults. -/
theorem findInSuperinterfaces?_true (G : ClassGraph) (c : ClassId) (name : String)
    (desc : Descriptor) : G.findInSuperinterfaces? c name desc true =
      (G.superinterfaces c).findSome? (G.defaultHere? · name desc) := by
  simp [findInSuperinterfaces?, defaultHere?, instanceHere?, Option.filter_filter]

/-- Resolution looks for a declaration of any kind, then for a default, then for any interface
method. -/
theorem findMethod?_eq (G : ClassGraph) (c : ClassId) (name : String) (desc : Descriptor) :
    G.findMethod? c name desc =
      ((G.superclasses c).findSome? (G.methodHere? · name desc)).or
        (((G.superinterfaces c).findSome? (G.defaultHere? · name desc)).or
          (G.findInSuperinterfaces? c name desc false)) := by
  simp [findMethod?, findInSuperinterfaces?_true]

/-- Selection looks for the nearest declaration and then for a default. -/
theorem selectMethod?_eq (hm : (G.method m).flags.isPrivate = false) (c : ClassId) :
    G.selectMethod? c m =
      ((G.superclasses c).findSome? (G.instanceHere? · (G.method m).name (G.method m).desc)).or
        ((G.superinterfaces c).findSome?
          (G.defaultHere? · (G.method m).name (G.method m).desc)) := by
  simp [selectMethod?, hm, findInSuperinterfaces?_true, instanceHere?]

/-! ## Superclasses and superinterfaces -/

theorem isSubclass_of_mem_superinterfaces (h : c ∈ G.superinterfaces d) :
    G.isSubclass d c = true := by
  induction d using Nat.strongRecOn with
  | ind d ih =>
    rcases (G.mem_superinterfaces_iff).1 h with ⟨i, hi, rfl | hc⟩ | ⟨p, hp, hc⟩
    · exact isSubclass_of_interface hi (G.isSubclass_refl c)
    · exact isSubclass_of_interface hi (ih i (G.lt_of_mem_interfaces hi) hc)
    · exact isSubclass_of_parent hp (ih p (G.lt_of_parent? hp) hc)

/-- The class that declares what is found is above the one it is found for. -/
theorem isSubclass_of_findMethod? (h : G.findMethod? c name desc = some m) :
    G.isSubclass c m.cls = true := by
  rcases (methodHere?_of_findMethod? h).2 with hclass | hinterface
  · exact isSubclass_of_mem_superclasses hclass
  · exact isSubclass_of_mem_superinterfaces hinterface

/-- A class has the superinterfaces of every class above it. -/
theorem superinterfaces_subset (h : G.isSubclass d c = true) :
    G.superinterfaces c ⊆ G.superinterfaces d := by
  induction d using Nat.strongRecOn with
  | ind d ih =>
    rcases isSubclass_cases h with rfl | ⟨i, hi, hc⟩ | ⟨p, hp, hc⟩
    · exact List.Subset.refl _
    · intro k hk
      have hk := ih i (G.lt_of_mem_interfaces hi) hc hk
      exact (G.mem_superinterfaces_iff).2 (Or.inl ⟨i, hi, Or.inr hk⟩)
    · intro k hk
      have hk := ih p (G.lt_of_parent? hp) hc hk
      exact (G.mem_superinterfaces_iff).2 (Or.inr ⟨p, hp, hk⟩)

/-- The classes that other classes list as interfaces extend the root class. -/
def InterfacesRooted (G : ClassGraph) : Prop :=
  ∀ c, ∀ i ∈ G.interfaces c, G.parent? i = some ClassId.object

/-- The root class is above every class; any other class above is a superclass, or a superinterface
that extends nothing but the root class. -/
theorem mem_of_isSubclass (hG : G.InterfacesRooted) (h : G.isSubclass d c = true) :
    c = ClassId.object ∨ c ∈ G.superclasses d ∨
      (c ∈ G.superinterfaces d ∧ G.parent? c = some ClassId.object) := by
  induction d using Nat.strongRecOn with
  | ind d ih =>
    rcases isSubclass_cases h with rfl | ⟨i, hi, hc⟩ | ⟨p, hp, hc⟩
    · exact Or.inr (Or.inl ((G.mem_superclasses_iff).2 (Or.inl rfl)))
    · rcases ih i (G.lt_of_mem_interfaces hi) hc with hobject | hclass | ⟨hinterface, hroot⟩
      · exact Or.inl hobject
      · -- the superclasses of an interface are itself and the root class
        rcases (G.mem_superclasses_iff).1 hclass with rfl | ⟨p, hp, hcp⟩
        · exact Or.inr (Or.inr
            ⟨(G.mem_superinterfaces_iff).2 (Or.inl ⟨c, hi, Or.inl rfl⟩), hG d c hi⟩)
        · obtain rfl : p = ClassId.object := Option.some.inj (hp.symm.trans (hG d i hi))
          exact Or.inl (eq_object_of_isSubclass (isSubclass_of_mem_superclasses hcp))
      · exact Or.inr (Or.inr
          ⟨(G.mem_superinterfaces_iff).2 (Or.inl ⟨i, hi, Or.inr hinterface⟩), hroot⟩)
    · rcases ih p (G.lt_of_parent? hp) hc with hobject | hclass | ⟨hinterface, hroot⟩
      · exact Or.inl hobject
      · exact Or.inr (Or.inl ((G.mem_superclasses_iff).2 (Or.inr ⟨p, hp, hclass⟩)))
      · exact Or.inr (Or.inr
          ⟨(G.mem_superinterfaces_iff).2 (Or.inr ⟨p, hp, hinterface⟩), hroot⟩)

/-- The root class declares no methods. -/
theorem methodHere?_object (G : ClassGraph) (name : String) (desc : Descriptor) :
    G.methodHere? ClassId.object name desc = none := rfl

theorem superclasses_object (G : ClassGraph) :
    G.superclasses ClassId.object = [ClassId.object] := rfl

/-- **A method found for a class stays in reach of the classes below it.** -/
theorem mem_of_findMethod? (hG : G.InterfacesRooted) (hsub : G.isSubclass d c = true)
    (hfind : G.findMethod? c name desc = some m) :
    m.cls ∈ G.superclasses d ∨ m.cls ∈ G.superinterfaces d := by
  obtain ⟨hhere, hclass | hinterface⟩ := methodHere?_of_findMethod? hfind
  · have hne : m.cls ≠ ClassId.object := by
      intro hobject
      rw [hobject, methodHere?_object] at hhere
      cases hhere
    rcases mem_of_isSubclass hG hsub with rfl | habove | ⟨habove, hroot⟩
    · rw [superclasses_object, List.mem_singleton] at hclass
      exact absurd hclass hne
    · exact Or.inl (superclasses_subset habove hclass)
    · -- found through an interface, the method is the interface's own
      rcases (G.mem_superclasses_iff).1 hclass with hm | ⟨p, hp, hm⟩
      · exact Or.inr (hm ▸ habove)
      · obtain rfl : p = ClassId.object := Option.some.inj (hp.symm.trans hroot)
        rw [superclasses_object, List.mem_singleton] at hm
        exact absurd hm hne
  · exact Or.inr (superinterfaces_subset hsub hinterface)

/-! ## Selection -/

/-- Whether `s` is the declaration nearest to a class, in it or in a superclass. -/
def IsNearest (G : ClassGraph) (d : ClassId) (name : String) (desc : Descriptor) (s : MethodRef) :
    Prop :=
  ∃ below above, G.superclasses d = below ++ s.cls :: above ∧
    G.instanceHere? s.cls name desc = some s ∧ ∀ k ∈ below, G.instanceHere? k name desc = none

/-- Whether `s` is the default that a search of the superinterfaces of a class meets first. -/
def IsFirstDefault (G : ClassGraph) (d : ClassId) (name : String) (desc : Descriptor)
    (s : MethodRef) : Prop :=
  ∃ before after, G.superinterfaces d = before ++ s.cls :: after ∧
    G.defaultHere? s.cls name desc = some s ∧ ∀ k ∈ before, G.defaultHere? k name desc = none

/-- A search for a method of the class that is looked at stops at the first class that has one. -/
theorem findSome?_cls_iff {l : List ClassId} {f : ClassId → Option MethodRef}
    (hf : ∀ {k}, f k = some s → s.cls = k) : l.findSome? f = some s ↔
      ∃ before after, l = before ++ s.cls :: after ∧ f s.cls = some s ∧ ∀ k ∈ before, f k = none := by
  rw [List.findSome?_eq_some_iff]
  constructor
  · rintro ⟨before, k, after, hsplit, hs, hbefore⟩
    obtain rfl := hf hs
    exact ⟨before, after, hsplit, hs, hbefore⟩
  · rintro ⟨before, after, hsplit, hs, hbefore⟩
    exact ⟨before, s.cls, after, hsplit, hs, hbefore⟩

theorem isNearest_iff : G.IsNearest d name desc s ↔
    (G.superclasses d).findSome? (G.instanceHere? · name desc) = some s :=
  (findSome?_cls_iff cls_of_instanceHere?).symm

theorem isFirstDefault_iff : G.IsFirstDefault d name desc s ↔
    (G.superinterfaces d).findSome? (G.defaultHere? · name desc) = some s :=
  (findSome?_cls_iff fun h => cls_of_instanceHere? (defaultHere?_eq_some_iff.1 h).1).symm

/-- What is selected is the nearest declaration, or the first default if there is no declaration. -/
theorem selectMethod?_eq_some_iff (hm : (G.method m).flags.isPrivate = false) :
    G.selectMethod? d m = some s ↔
      G.IsNearest d (G.method m).name (G.method m).desc s ∨
        (∀ k ∈ G.superclasses d, G.instanceHere? k (G.method m).name (G.method m).desc = none) ∧
          G.IsFirstDefault d (G.method m).name (G.method m).desc s := by
  rw [selectMethod?_eq hm, Option.or_eq_some_iff, isNearest_iff, isFirstDefault_iff,
    List.findSome?_eq_none_iff]

/-- What a call of `m` may reach on a receiver of class `d`: a method of the same name and
descriptor, the nearest that a superclass declares, or else a superinterface's with a body. -/
structure Implements (G : ClassGraph) (d : ClassId) (m s : MethodRef) : Prop where
  name : (G.method s).name = (G.method m).name
  desc : (G.method s).desc = (G.method m).desc
  isStatic : (G.method s).flags.isStatic = false
  isPrivate : (G.method s).flags.isPrivate = false
  above : G.isSubclass d s.cls = true
  nearest : (∃ k ∈ G.superclasses d,
      G.instanceHere? k (G.method m).name (G.method m).desc ≠ none) →
    G.IsNearest d (G.method m).name (G.method m).desc s
  inherited : (∀ k ∈ G.superclasses d,
      G.instanceHere? k (G.method m).name (G.method m).desc = none) →
    s.cls ∈ G.superinterfaces d ∧ (G.method s).hasBody = true

/-- What is selected implements the method called. -/
theorem implements_of_selectMethod? (hG : ∀ c, (G.decl c).methods.length ≤ 65536)
    (hm : (G.method m).flags.isPrivate = false) (h : G.selectMethod? d m = some s) :
    G.Implements d m s := by
  have declared : ∀ {k}, G.instanceHere? k (G.method m).name (G.method m).desc = some s →
      G.isSubclass d s.cls = true →
      ((∃ k ∈ G.superclasses d, G.instanceHere? k (G.method m).name (G.method m).desc ≠ none) →
        G.IsNearest d (G.method m).name (G.method m).desc s) →
      ((∀ k ∈ G.superclasses d, G.instanceHere? k (G.method m).name (G.method m).desc = none) →
        s.cls ∈ G.superinterfaces d ∧ (G.method s).hasBody = true) → G.Implements d m s := by
    intro k hk habove hnearest hinherited
    obtain ⟨hhere, hstatic, hprivate⟩ := instanceHere?_eq_some_iff.1 hk
    obtain ⟨-, -, hname, hdesc⟩ := methodHere?_eq_some hG hhere
    exact ⟨hname, hdesc, hstatic, hprivate, habove, hnearest, hinherited⟩
  rw [selectMethod?_eq hm, Option.or_eq_some_iff] at h
  rcases h with hchain | ⟨hnone, hdefault⟩
  · -- on the chain of superclasses
    obtain ⟨k, hk, hs⟩ := List.exists_of_findSome?_eq_some hchain
    obtain rfl := cls_of_instanceHere? hs
    refine declared hs (isSubclass_of_mem_superclasses hk) (fun _ => isNearest_iff.2 hchain) ?_
    intro hall
    rw [hall _ hk] at hs
    cases hs
  · -- in an interface
    rw [List.findSome?_eq_none_iff] at hnone
    obtain ⟨k, hk, hs⟩ := List.exists_of_findSome?_eq_some hdefault
    obtain ⟨hs, hbody⟩ := defaultHere?_eq_some_iff.1 hs
    obtain rfl := cls_of_instanceHere? hs
    refine declared hs (isSubclass_of_mem_superinterfaces hk) ?_ fun _ => ⟨hk, hbody⟩
    rintro ⟨k', hk', hsome⟩
    exact absurd (hnone k' hk') hsome

/-- A class below the one that a method with a body was found for has an implementation of it. -/
theorem exists_of_selectMethod? (hG : G.InterfacesRooted) (hsub : G.isSubclass d c = true)
    (hfind : G.findMethod? c (G.method m).name (G.method m).desc = some m)
    (hstatic : (G.method m).flags.isStatic = false)
    (hprivate : (G.method m).flags.isPrivate = false) (hbody : (G.method m).hasBody = true) :
    ∃ s, G.selectMethod? d m = some s := by
  obtain ⟨hhere, -⟩ := methodHere?_of_findMethod? hfind
  have hinstance := instanceHere?_eq_some_iff.2 ⟨hhere, hstatic, hprivate⟩
  rw [selectMethod?_eq hprivate, ← Option.isSome_iff_exists, Option.isSome_or, Bool.or_eq_true,
    List.findSome?_isSome_iff, List.findSome?_isSome_iff]
  rcases mem_of_findMethod? hG hsub hfind with hclass | hinterface
  · exact Or.inl ⟨m.cls, hclass, by rw [hinstance]; rfl⟩
  · have hdefault := defaultHere?_eq_some_iff.2 ⟨hinstance, hbody⟩
    exact Or.inr ⟨m.cls, hinterface, by rw [hdefault]; rfl⟩

/-- A method with a body that the interfaces of a class provide is found as a default. -/
theorem findSome?_defaultHere?_of_hasBody (hbody : (G.method s).hasBody = true)
    (h : ((G.superinterfaces c).findSome? (G.defaultHere? · name desc)).or
      (G.findInSuperinterfaces? c name desc false) = some s) :
    (G.superinterfaces c).findSome? (G.defaultHere? · name desc) = some s := by
  rcases Option.or_eq_some_iff.1 h with hwith | ⟨hnone, hwithout⟩
  · exact hwith
  · -- the search that does not ask for a body would have met it before
    obtain ⟨k, hk, hs⟩ := List.exists_of_findSome?_eq_some hwithout
    have hinstance : G.instanceHere? k name desc = some s := by simpa [instanceHere?] using hs
    rw [List.findSome?_eq_none_iff] at hnone
    have hdefault := hnone k hk
    rw [defaultHere?_eq_some_iff.2 ⟨hinstance, hbody⟩] at hdefault
    cases hdefault

/-- The class that a method with a body was found for selects that method. -/
theorem selectMethod?_self
    (hfind : G.findMethod? c (G.method m).name (G.method m).desc = some m)
    (hstatic : (G.method m).flags.isStatic = false)
    (hprivate : (G.method m).flags.isPrivate = false) (hbody : (G.method m).hasBody = true) :
    G.selectMethod? c m = some m := by
  obtain ⟨hhere, -⟩ := methodHere?_of_findMethod? hfind
  rw [selectMethod?_eq hprivate]
  rw [findMethod?_eq] at hfind
  rcases Option.or_eq_some_iff.1 hfind with hclass | ⟨hnone, hinterface⟩
  · -- nothing nearer is declared at all, so nothing nearer is an instance method
    obtain ⟨below, k, above, hsplit, hk, hbelow⟩ := List.findSome?_eq_some_iff.1 hclass
    obtain rfl := cls_of_methodHere? hk
    have hnearest : G.IsNearest c (G.method m).name (G.method m).desc m :=
      ⟨below, above, hsplit, instanceHere?_eq_some_iff.2 ⟨hhere, hstatic, hprivate⟩, fun k hk =>
        instanceHere?_of_methodHere?_eq_none (hbelow k hk)⟩
    rw [isNearest_iff.1 hnearest, Option.some_or]
  · have hchain : (G.superclasses c).findSome?
        (G.instanceHere? · (G.method m).name (G.method m).desc) = none := by
      rw [List.findSome?_eq_none_iff] at hnone ⊢
      exact fun k hk => instanceHere?_of_methodHere?_eq_none (hnone k hk)
    rw [hchain, Option.none_or]
    exact findSome?_defaultHere?_of_hasBody hbody hinterface

end ClassGraph

/-! ## Calls -/

theorem Object.isSubclass_of_isInstance {G : ClassGraph} {o : Object} {c : ClassId}
    (h : o.isInstance G (.cls c) = true) : G.isSubclass o.cls c = true := by
  cases o with
  | array id t vs =>
    obtain rfl : c = ClassId.object := by simpa [isInstance, runtimeType, ClassGraph.isAssignable]
      using h
    exact G.isSubclass_refl _
  | _ => exact h

/-- A method body that fails has thrown. -/
theorem Program.thrown_of_runBody {P : Program} {m : MethodRef} {args : List Value}
    {n n' : Machine} {stop : Stop} (h : P.runBody m args n = .error stop n') :
    ∃ o, stop = .error (.thrown o) := by
  simp only [runBody] at h
  cases hbody : P.body m args n.store with
  | ok v store =>
    rw [hbody] at h
    cases h
  | error o store =>
    rw [hbody] at h
    cases h
    exact ⟨o, rfl⟩

/-- A call on an instance of the class that it goes through runs the method selected, unless that is
abstract. -/
theorem Program.callVirtual_of_selectMethod? {P : Program} {m s : MethodRef} {c : ClassId}
    {o : Object} (ho : o.isInstance P.graph (.cls c) = true)
    (hs : P.graph.selectMethod? o.cls m = some s)
    (habstract : (P.graph.method s).flags.isAbstract = false) (args : List Value) (n : Machine) :
    P.callVirtual m c (.obj o :: args) n = P.callMethod s (.obj o :: args) n := by
  have himplementation : P.graph.implementation? o.cls m = some s := by
    simp [ClassGraph.implementation?, hs, habstract]
  simp [callVirtual, receiver, Run.ofExcept, bind, EStateM.bind, ho, himplementation]

/-- A call that is refused for want of an implementation has selected none, or an abstract one. -/
theorem Program.abstract_of_callVirtual {P : Program} {m s : MethodRef} {c : ClassId} {o : Object}
    {args : List Value} {n n' : Machine} {e : ResolutionError}
    (ho : o.isInstance P.graph (.cls c) = true) (hs : P.graph.selectMethod? o.cls m = some s)
    (h : P.callVirtual m c (.obj o :: args) n = .error (.error (.resolution e)) n') :
    (P.graph.method s).flags.isAbstract = true ∨ (P.graph.method s).hasBody = false := by
  refine Decidable.byContradiction fun hcon => ?_
  obtain ⟨habstract, hbody⟩ := not_or.1 hcon
  rw [callVirtual_of_selectMethod? ho hs (Bool.eq_false_iff.2 habstract), callMethod,
    if_pos (eq_true_of_ne_false hbody)] at h
  obtain ⟨o', ho'⟩ := thrown_of_runBody h
  cases ho'

/-- **Dispatch is sound.** Take a method with a body that is found for a class `c` and is neither
static nor private. Every class below `c` selects an implementation of it, and `c` itself selects the
method. A call on an instance of `c` is refused for want of a method to run only if the declaration
selected is abstract. -/
theorem Program.dispatch_sound {P : Program}
    (hmethods : ∀ c, (P.graph.decl c).methods.length ≤ 65536) (hG : P.graph.InterfacesRooted)
    {c : ClassId} {name : String} {desc : Descriptor} {m : MethodRef}
    (hfind : P.graph.findMethod? c name desc = some m)
    (hstatic : (P.graph.method m).flags.isStatic = false)
    (hprivate : (P.graph.method m).flags.isPrivate = false)
    (hbody : (P.graph.method m).hasBody = true) :
    (∀ d, P.graph.isSubclass d c = true →
      ∃ s, P.graph.selectMethod? d m = some s ∧ P.graph.Implements d m s ∧ (d = c → s = m)) ∧
    ∀ o args n n' e, o.isInstance P.graph (.cls c) = true →
      P.callVirtual m c (.obj o :: args) n = .error (.error (.resolution e)) n' →
      ∃ s, P.graph.selectMethod? o.cls m = some s ∧
        ((P.graph.method s).flags.isAbstract = true ∨ (P.graph.method s).hasBody = false) := by
  obtain ⟨-, hname, hdesc⟩ := ClassGraph.findMethod?_eq_some hmethods hfind
  subst hname hdesc
  refine ⟨fun d hsub => ?_, fun o args n n' e ho hcall => ?_⟩
  · obtain ⟨s, hs⟩ := ClassGraph.exists_of_selectMethod? hG hsub hfind hstatic hprivate hbody
    refine ⟨s, hs, ClassGraph.implements_of_selectMethod? hmethods hprivate hs, ?_⟩
    rintro rfl
    rw [ClassGraph.selectMethod?_self hfind hstatic hprivate hbody] at hs
    exact (Option.some.inj hs).symm
  · have hsub := Object.isSubclass_of_isInstance ho
    obtain ⟨s, hs⟩ := ClassGraph.exists_of_selectMethod? hG hsub hfind hstatic hprivate hbody
    exact ⟨s, hs, abstract_of_callVirtual ho hs hcall⟩

/-! ## Two declarations of one kind -/

namespace ClassGraph

/-- Whether a class declares an instance method with the name and descriptor, first or not. -/
def DeclaresInstance (G : ClassGraph) (c : ClassId) (name : String) (desc : Descriptor) : Prop :=
  ∃ d ∈ (G.decl c).methods, d.name = name ∧ d.desc = desc ∧ d.flags.isStatic = false ∧
    d.flags.isPrivate = false

/-- A class that declares no two methods with one name and descriptor declares what it seems to. -/
theorem declares_iff_of_unique {G : ClassGraph} {c : ClassId} {name : String} {desc : Descriptor}
    (hG : ∀ c, (G.decl c).methods.length ≤ 65536)
    (hunique : ∀ (i j : Nat) (a b : MethodDecl), (G.decl c).methods[i]? = some a →
      (G.decl c).methods[j]? = some b → a.name = b.name → a.desc = b.desc → i = j) :
    G.instanceHere? c name desc ≠ none ↔ G.DeclaresInstance c name desc := by
  rw [Option.ne_none_iff_exists']
  constructor
  · rintro ⟨s, hs⟩
    obtain ⟨hhere, hstatic, hprivate⟩ := instanceHere?_eq_some_iff.1 hs
    obtain ⟨rfl, hhas, hname, hdesc⟩ := methodHere?_eq_some hG hhere
    have hmem := List.mem_of_getElem? (getElem?_of_hasMethod hhas)
    exact ⟨G.method s, hmem, hname, hdesc, hstatic, hprivate⟩
  · rintro ⟨d, hd, rfl, rfl, hstatic, hprivate⟩
    obtain ⟨i, hi⟩ := List.mem_iff_getElem?.1 hd
    obtain ⟨hhas, hdecl, -⟩ := hasMethod_ofNat hG hi
    obtain ⟨s, hs⟩ := exists_methodHere? hhas
    rw [← hdecl] at hs
    obtain ⟨rfl, hshas, hname, hdesc⟩ := methodHere?_eq_some hG hs
    -- the first method of the kind is the only one
    have hplace := hunique _ _ _ _ hi (getElem?_of_hasMethod hshas) hname.symm hdesc.symm
    have hsd : G.method s = d := by
      rw [hplace] at hi
      exact method_eq hi
    rw [← hsd] at hstatic hprivate
    exact ⟨s, instanceHere?_eq_some_iff.2 ⟨hs, hstatic, hprivate⟩⟩

/-- An interface `p/I` with a default method `m`, and a class `p/C` below it that declares `m` twice,
first as a static method. -/
def doubled : ClassGraph where
  defined := #[
    ⟨"p/I", ⟨0x0601⟩, .bootstrap, some ClassId.object, [],
      [.withBody "m" ⟨[], .prim .int⟩ ⟨0x0001⟩], []⟩,
    ⟨"p/C", ⟨0x0001⟩, .bootstrap, some ClassId.object, [bootstrapCount],
      [.withBody "m" ⟨[], .prim .int⟩ ⟨0x0009⟩, .withBody "m" ⟨[], .prim .int⟩ ⟨0x0001⟩], []⟩]
  older := ClassGraph.older_of_lt (by decide)

theorem doubled_methods (c : ClassId) : (doubled.decl c).methods.length ≤ 2 :=
  forall_decl (p := fun d => d.methods.length ≤ 2) (by decide) (by decide) (by decide) c

theorem doubled_rooted : doubled.InterfacesRooted :=
  forall_decl (p := fun d => ∀ i ∈ d.interfaces, doubled.parent? i = some ClassId.object)
    (by decide) (by decide) (by decide)

/-- The class declares an instance method `m` itself and yet selects the default of the interface:
its first method of that name and descriptor is static, and the search sees no other one there. -/
theorem not_nearest_of_doubled :
    (∀ c, (doubled.decl c).methods.length < 65536) ∧ doubled.InterfacesRooted ∧
      doubled.findMethod? bootstrapCount "m" ⟨[], .prim .int⟩ = some ⟨bootstrapCount, 0⟩ ∧
      (doubled.method ⟨bootstrapCount, 0⟩).flags.isStatic = false ∧
      (doubled.method ⟨bootstrapCount, 0⟩).flags.isPrivate = false ∧
      (doubled.method ⟨bootstrapCount, 0⟩).hasBody = true ∧
      doubled.isSubclass (bootstrapCount + 1) bootstrapCount = true ∧
      doubled.DeclaresInstance (bootstrapCount + 1) "m" ⟨[], .prim .int⟩ ∧
      doubled.selectMethod? (bootstrapCount + 1) ⟨bootstrapCount, 0⟩ =
        some ⟨bootstrapCount, 0⟩ ∧
      bootstrapCount ∉ doubled.superclasses (bootstrapCount + 1) := by
  refine ⟨fun c => Nat.lt_of_le_of_lt (doubled_methods c) (by decide), doubled_rooted, rfl, rfl, rfl,
    rfl, rfl, ?_, rfl, by decide⟩
  exact ⟨_, List.mem_cons_of_mem _ List.mem_cons_self, rfl, rfl, rfl, rfl⟩

end ClassGraph

/-- The class selects an implementation of the default all the same. -/
theorem Program.dispatch_sound_of_doubled :
    ∃ s, ClassGraph.doubled.selectMethod? (bootstrapCount + 1) ⟨bootstrapCount, 0⟩ = some s ∧
      ClassGraph.doubled.Implements (bootstrapCount + 1) ⟨bootstrapCount, 0⟩ s := by
  have hmethods : ∀ c, (ClassGraph.doubled.decl c).methods.length ≤ 65536 := fun c =>
    Nat.le_trans (ClassGraph.doubled_methods c) (by decide)
  have hfind : ClassGraph.doubled.findMethod? bootstrapCount "m" ⟨[], .prim .int⟩ =
      some ⟨bootstrapCount, 0⟩ := rfl
  have hsound := dispatch_sound (P := ⟨.doubled, fun _ _ => pure .void⟩) hmethods
    ClassGraph.doubled_rooted hfind rfl rfl rfl
  obtain ⟨s, hs, himplements, -⟩ := hsound.1 (bootstrapCount + 1) rfl
  exact ⟨s, hs, himplements⟩

end HandleCalculus
