import HandleCalculus.ClassGraph.Walk

/-!
# Superclasses, supertypes and assignability

What is above a class, as lists in the order in which members are searched: `superclasses` follows
parents, `supertypes` has a class, then what is above its interfaces, then what is above its
parent; `superinterfaces` has the interfaces alone. `superclasses_eq`, `findSome?_supertypes` and
`findSome?_superinterfaces` say how each is found from those of the classes next above.
-/

set_option autoImplicit false

namespace HandleCalculus.ClassGraph

/-- The class and its superclasses, following `steps` parents at most. -/
def superclassesWithin (G : ClassGraph) : Nat → ClassId → List ClassId
  | 0, c => [c]
  | n + 1, c =>
    match G.parent? c with
    | none => [c]
    | some p => c :: G.superclassesWithin n p

/-- The class, its parent, the parent of that, up to the root. -/
def superclasses (G : ClassGraph) (c : ClassId) : List ClassId := G.superclassesWithin c c

/-- The class and everything above it: its interfaces in declared order and what is above them, then
its parent. -/
def supertypes (G : ClassGraph) (c : ClassId) : List ClassId := c :: G.walk true c

/-- The interfaces of a class in declared order, each followed by what is above it, then those of
its parent. -/
def superinterfaces (G : ClassGraph) (c : ClassId) : List ClassId := G.walk false c

/-! ## The walks without their bounds -/

theorem superclassesWithin_eq (G : ClassGraph) {n c : Nat} (h : c ≤ n) :
    G.superclassesWithin n c = G.superclasses c := by
  induction c using Nat.strongRecOn generalizing n with
  | ind c ih =>
    unfold superclasses
    cases n with
    | zero => obtain rfl : c = 0 := by omega
              rfl
    | succ n =>
      cases c with
      | zero =>
        cases hp : G.parent? 0 with
        | none => simp [superclassesWithin, hp]
        | some p => exact absurd (G.lt_of_parent? hp) (Nat.not_lt_zero _)
      | succ c =>
        simp only [superclassesWithin]
        cases hp : G.parent? (c + 1) with
        | none => rfl
        | some p =>
          have hlt := G.lt_of_parent? hp
          simp only
          rw [ih p hlt (n := n) (by omega), ih p hlt (n := c) (by omega)]

theorem superclasses_eq (G : ClassGraph) (c : ClassId) :
    G.superclasses c = c :: (match G.parent? c with
      | none => []
      | some p => G.superclasses p) := by
  rw [← superclassesWithin_eq G (Nat.le_succ c), superclassesWithin]
  cases hp : G.parent? c with
  | none => rfl
  | some p => simp only [superclassesWithin_eq G (Nat.le_of_lt (G.lt_of_parent? hp))]

/-! ## Searches among supertypes -/

private theorem findSome?_flatMap {α β γ : Type} (l : List α) (g : α → List β)
    (f : β → Option γ) :
    (l.flatMap g).findSome? f = l.findSome? fun a => (g a).findSome? f := by
  induction l with
  | nil => rfl
  | cons a l ih =>
    rw [List.flatMap_cons, List.findSome?_append, ih, List.findSome?_cons]
    cases (g a).findSome? f <;> rfl

private theorem findSome?_paths (G : ClassGraph) (parents : Bool) (c : ClassId) {β : Type}
    (f : ClassId → Option β) :
    (G.paths parents c).findSome? f =
      ((G.interfaces c).findSome? fun i => (f i).or ((G.paths parents i).findSome? f)).or
        ((G.parent? c).bind fun p =>
          (if parents then f p else none).or ((G.paths parents p).findSome? f)) := by
  rw [paths_eq, edges, List.flatMap_append, List.findSome?_append, findSome?_flatMap,
    findSome?_flatMap, List.findSome?_map]
  congr 1
  · congr 1
    funext i
    cases h : f i <;> simp [Edge.stops, h]
  · cases G.parent? c with
    | none => rfl
    | some p => cases parents <;> cases h : f p <;> simp [Edge.stops, h]

/-- A search among the supertypes of a class looks at the class, at the supertypes of each
interface, and at those of the parent. -/
theorem findSome?_supertypes (G : ClassGraph) (c : ClassId) {β : Type}
    (f : ClassId → Option β) :
    (G.supertypes c).findSome? f =
      ((f c).or ((G.interfaces c).findSome? fun i => (G.supertypes i).findSome? f)).or
        ((G.parent? c).bind fun p => (G.supertypes p).findSome? f) := by
  have above : ∀ d, (G.supertypes d).findSome? f =
      (f d).or ((G.paths true d).findSome? f) := fun d => by
    rw [supertypes, List.findSome?_cons, findSome?_walk]
    cases f d <;> rfl
  simp only [above]
  rw [findSome?_paths, Option.or_assoc]
  rfl

/-- A search among the superinterfaces of a class looks at each interface and what is above it, and
at the superinterfaces of the parent. -/
theorem findSome?_superinterfaces (G : ClassGraph) (c : ClassId) {β : Type}
    (f : ClassId → Option β) :
    (G.superinterfaces c).findSome? f =
      ((G.interfaces c).findSome? fun i => (f i).or ((G.superinterfaces i).findSome? f)).or
        ((G.parent? c).bind fun p => (G.superinterfaces p).findSome? f) := by
  simp only [superinterfaces, findSome?_walk]
  rw [findSome?_paths]
  rfl

/-- The supertypes of a class are the class, those of its interfaces and those of its parent. -/
theorem mem_supertypes_iff (G : ClassGraph) {c d : ClassId} :
    d ∈ G.supertypes c ↔
      d = c ∨ (∃ i ∈ G.interfaces c, d ∈ G.supertypes i) ∨
        ∃ p, G.parent? c = some p ∧ d ∈ G.supertypes p := by
  have found : ∀ l : List ClassId,
      (l.findSome? fun x => if x = d then some () else none).isSome ↔ d ∈ l := by
    intro l
    simp [List.findSome?_isSome_iff]
  rw [← found, findSome?_supertypes, Option.isSome_or, Option.isSome_or, Bool.or_eq_true,
    Bool.or_eq_true, or_assoc, List.findSome?_isSome_iff]
  simp only [found]
  refine or_congr ?_ (or_congr Iff.rfl ?_)
  · by_cases h : c = d <;> simp [h, eq_comm]
  · cases G.parent? c with
    | none => simp
    | some p => simp only [Option.bind_some, found, Option.some.injEq, exists_eq_left']

/-- The superinterfaces of a class are its interfaces with theirs, and those of its parent. -/
theorem mem_superinterfaces_iff (G : ClassGraph) {c d : ClassId} :
    d ∈ G.superinterfaces c ↔
      (∃ i ∈ G.interfaces c, d = i ∨ d ∈ G.superinterfaces i) ∨
        ∃ p, G.parent? c = some p ∧ d ∈ G.superinterfaces p := by
  simp only [superinterfaces, mem_walk_iff]
  conv => lhs; rw [paths_eq]
  simp only [edges, List.mem_flatMap, List.mem_append, List.mem_map, Option.mem_toList]
  constructor
  · rintro ⟨e, ⟨i, hi, rfl⟩ | ⟨p, hp, rfl⟩, hd⟩
    · exact Or.inl ⟨i, hi, by simpa [Edge.stops] using hd⟩
    · exact Or.inr ⟨p, hp, by simpa [Edge.stops] using hd⟩
  · rintro (⟨i, hi, hd⟩ | ⟨p, hp, hd⟩)
    · exact ⟨_, Or.inl ⟨i, hi, rfl⟩, by simpa [Edge.stops] using hd⟩
    · exact ⟨_, Or.inr ⟨p, hp, rfl⟩, by simpa [Edge.stops] using hd⟩

/-- The superclasses of a class are the class and those of its parent. -/
theorem mem_superclasses_iff (G : ClassGraph) {c d : ClassId} :
    d ∈ G.superclasses c ↔ d = c ∨ ∃ p, G.parent? c = some p ∧ d ∈ G.superclasses p := by
  rw [superclasses_eq, List.mem_cons]
  cases G.parent? c with
  | none => simp
  | some p => simp

/-! ## Subclasses and assignability -/

/-- Whether `sub` is `sup` or below it; interfaces count. -/
def isSubclass (G : ClassGraph) (sub sup : ClassId) : Bool := (G.supertypes sub).contains sup

/-- Whether one class is the other, above it or below it. -/
def isRelated (G : ClassGraph) (a b : ClassId) : Bool := G.isSubclass a b || G.isSubclass b a

/-- Whether a value of type `from'` may stand where `to'` is expected without conversion. Arrays of
references follow their components; every array is an object. -/
def isAssignable (G : ClassGraph) : Ty → Ty → Bool
  | .cls a, .cls b => G.isSubclass a b
  | .array _, .cls b => b == ClassId.object
  | .array a, .array b =>
    a == b || (a.isReference && b.isReference && G.isAssignable a b)
  | a, b => a == b

theorem isSubclass_refl (G : ClassGraph) (c : ClassId) : G.isSubclass c c = true := by
  simp [isSubclass, supertypes]

theorem isAssignable_refl (G : ClassGraph) (t : Ty) : G.isAssignable t t = true := by
  cases t with
  | cls c => exact G.isSubclass_refl c
  | array t => simp [isAssignable]
  | prim p => simp [isAssignable]
  | void => simp [isAssignable]

end HandleCalculus.ClassGraph
