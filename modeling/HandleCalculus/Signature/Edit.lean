import HandleCalculus.Error

/-!
# Making and editing signatures

Every signature is made by `Signature.of`, which refuses a `void` parameter before it counts
slots. Editing changes the parameter list and makes the signature anew, so an edit fails exactly
if its positions are out of range or the edited list is no signature.
-/

set_option autoImplicit false

namespace HandleCalculus.Signature

/-- The signature of the given types, if they are one. -/
def of (ret : Ty) (params : List Ty) : Except Error Signature :=
  if hv : Ty.void ∈ params then .error (.signature (.voidParameter (params.idxOf Ty.void)))
  else if hs : slotCount params ≤ maxArgumentSlots then .ok ⟨params, ret, hv, hs⟩
  else .error (.signature (.tooManySlots (slotCount params)))

/-- The signature that a descriptor declares. -/
def ofDescriptor (d : Descriptor) : Except Error Signature := of d.ret d.params

/-- The signature with `n` parameters that takes and answers references of any class. -/
def generic (n : Nat) : Except Error Signature := of .object (List.replicate n .object)

/-- Replaces parameter `i`. -/
def changeParam (s : Signature) (i : Nat) (t : Ty) : Except Error Signature :=
  if i < s.arity then of s.ret (s.params.set i t)
  else .error (.signature (.indexOutOfRange i s))

/-- Inserts parameters in front of parameter `i`, or at the end. -/
def insertParams (s : Signature) (i : Nat) (ts : List Ty) : Except Error Signature :=
  if i ≤ s.arity then of s.ret (s.params.take i ++ ts ++ s.params.drop i)
  else .error (.signature (.indexOutOfRange i s))

/-- Adds parameters at the end. -/
def appendParams (s : Signature) (ts : List Ty) : Except Error Signature :=
  s.insertParams s.arity ts

/-- Removes the parameters from `start` up to but without `stop`. -/
def dropParams (s : Signature) (start stop : Nat) : Except Error Signature :=
  if start ≤ stop ∧ stop ≤ s.arity then of s.ret (s.params.take start ++ s.params.drop stop)
  else .error (.signature (.cannotDrop start stop s))

/-- Replaces the result type. -/
def changeReturn (s : Signature) (t : Ty) : Except Error Signature := of t s.params

/-- Every reference type becomes the root class. -/
def erase (s : Signature) : Except Error Signature :=
  let f : Ty → Ty := fun t => if t.isReference then .object else t
  of (f s.ret) (s.params.map f)

/-- The generic signature with as many parameters. -/
def toGeneric (s : Signature) : Except Error Signature := generic s.arity

/-- Every primitive type becomes its wrapper class. -/
def wrap (s : Signature) : Except Error Signature :=
  let f : Ty → Ty := fun t =>
    match t with
    | .prim p => .wrapper p
    | _ => t
  of (f s.ret) (s.params.map f)

/-- Every wrapper class becomes its primitive type. -/
def unwrap (s : Signature) : Except Error Signature :=
  let f : Ty → Ty := fun t =>
    match t.unwrapped? with
    | some p => .prim p
    | none => t
  of (f s.ret) (s.params.map f)

theorem of_eq_ok_iff {ret : Ty} {params : List Ty} {s : Signature} :
    of ret params = .ok s ↔ s.ret = ret ∧ s.params = params := by
  constructor
  · intro h
    unfold of at h
    split at h
    · cases h
    · split at h
      · cases h
        exact ⟨rfl, rfl⟩
      · cases h
  · rintro ⟨rfl, rfl⟩
    unfold of
    rw [dif_neg s.noVoid, dif_pos s.slots_le]

theorem exists_of_iff {ret : Ty} {params : List Ty} :
    (∃ s, of ret params = .ok s) ↔ Ty.void ∉ params ∧ slotCount params ≤ maxArgumentSlots := by
  constructor
  · rintro ⟨s, hs⟩
    obtain ⟨-, rfl⟩ := of_eq_ok_iff.1 hs
    exact ⟨s.noVoid, s.slots_le⟩
  · rintro ⟨hvoid, hslots⟩
    exact ⟨⟨params, ret, hvoid, hslots⟩, of_eq_ok_iff.2 ⟨rfl, rfl⟩⟩

/-- As many references as there are slots are parameters of a signature. -/
theorem exists_generic {n : Nat} (hn : n ≤ maxArgumentSlots) :
    ∃ s, generic n = .ok s ∧ s.params = List.replicate n .object ∧ s.ret = .object := by
  have hvoid : Ty.void ∉ List.replicate n Ty.object := fun h => nomatch List.eq_of_mem_replicate h
  have hslots : slotCount (List.replicate n Ty.object) ≤ maxArgumentSlots := by
    rw [slotCount_replicate, show Ty.object.slots = 1 from rfl, Nat.mul_one]
    exact hn
  exact ⟨⟨_, _, hvoid, hslots⟩, of_eq_ok_iff.2 ⟨rfl, rfl⟩, rfl, rfl⟩

/-! ## What an edit answers -/

variable {s t : Signature}

theorem changeParam_eq_ok_iff {i : Nat} {p : Ty} : s.changeParam i p = .ok t ↔
    i < s.arity ∧ t.ret = s.ret ∧ t.params = s.params.set i p := by
  unfold changeParam
  by_cases hi : i < s.arity
  · simp [hi, of_eq_ok_iff]
  · simp [hi]

theorem insertParams_eq_ok_iff {i : Nat} {ts : List Ty} : s.insertParams i ts = .ok t ↔
    i ≤ s.arity ∧ t.ret = s.ret ∧ t.params = s.params.take i ++ ts ++ s.params.drop i := by
  unfold insertParams
  by_cases hi : i ≤ s.arity
  · rw [if_pos hi, of_eq_ok_iff]
    simp [hi]
  · simp [hi]

theorem dropParams_eq_ok_iff {start stop : Nat} : s.dropParams start stop = .ok t ↔
    start ≤ stop ∧ stop ≤ s.arity ∧ t.ret = s.ret ∧
      t.params = s.params.take start ++ s.params.drop stop := by
  unfold dropParams
  by_cases hi : start ≤ stop ∧ stop ≤ s.arity
  · rw [if_pos hi, of_eq_ok_iff]
    simp [hi]
  · rw [if_neg hi]
    constructor
    · intro h
      cases h
    · rintro ⟨hstart, hstop, -⟩
      exact absurd ⟨hstart, hstop⟩ hi

theorem changeReturn_eq_ok_iff {r : Ty} :
    s.changeReturn r = .ok t ↔ t.ret = r ∧ t.params = s.params := of_eq_ok_iff

end HandleCalculus.Signature
