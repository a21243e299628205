import HandleCalculus.Proofs.TakingTurns
import HandleCalculus.Signature.Interning
import Mathlib.Algebra.GroupWithZero.Nat
import Mathlib.Data.List.Nodup

/-!
# Equal signatures are one

Signatures are told apart by their identity. So a pool must never have a signature twice, though two
calls may look for it at once, find nothing and both set out to insert it. What keeps them from it is
that the insertion looks again (`Pool.insertIfAbsent_cases`): the pool only grows, it has no signature
twice, and what a call is answered stays in its place (`Interning.Sound`).

Each kind of step is a constructor of `Interning.Step`. The invariant is shown for one step, and for all
runs by induction over the moves; how the calls take turns makes no difference.
-/

set_option autoImplicit false

namespace HandleCalculus

/-- The type with every reference seen as one of the root class. -/
def Ty.erased (t : Ty) : Ty := if t.isReference then .object else t

/-- The type with a primitive in its wrapper class. -/
def Ty.wrapped : Ty → Ty
  | prim p => wrapper p
  | t => t

/-- The type with a wrapper class taken off. -/
def Ty.bare (t : Ty) : Ty :=
  match t.unwrapped? with
  | some p => .prim p
  | none => t

namespace Signature

/-! ## What is asked for -/

/-- The result and parameters that a request asks for, if its positions are in range. -/
def Request.types? : Request → Option (Ty × List Ty)
  | of ret params => some (ret, params)
  | ofDescriptor d => some (d.ret, d.params)
  | generic n => some (.object, List.replicate n .object)
  | changeParam s i t => if i < s.arity then some (s.ret, s.params.set i t) else none
  | insertParams s i ts =>
    if i ≤ s.arity then some (s.ret, s.params.take i ++ ts ++ s.params.drop i) else none
  | appendParams s ts => some (s.ret, s.params ++ ts)
  | dropParams s start stop =>
    if start ≤ stop ∧ stop ≤ s.arity then some (s.ret, s.params.take start ++ s.params.drop stop)
    else none
  | changeReturn s t => some (t, s.params)
  | erase s => some (s.ret.erased, s.params.map Ty.erased)
  | toGeneric s => some (.object, List.replicate s.arity .object)
  | wrap s => some (s.ret.wrapped, s.params.map Ty.wrapped)
  | unwrap s => some (s.ret.bare, s.params.map Ty.bare)

/-- Whether there is no such signature: a position is out of range, a parameter is void, or there are too
many slots. -/
def Request.Refused (r : Request) : Prop :=
  ∀ ret params, r.types? = some (ret, params) →
    Ty.void ∈ params ∨ maxArgumentSlots < slotCount params

theorem of_eq_ok_iff_types {ret : Ty} {params : List Ty} {s : Signature} :
    of ret params = .ok s ↔ some (ret, params) = some (s.ret, s.params) := by
  rw [of_eq_ok_iff, Option.some_inj, Prod.mk.injEq, eq_comm, @eq_comm _ s.params]

theorem wrap_eq (s : Signature) : s.wrap = of s.ret.wrapped (s.params.map Ty.wrapped) := by
  have hwrapped : (fun t : Ty => match t with | .prim p => Ty.wrapper p | _ => t) = Ty.wrapped := by
    funext t
    cases t <;> rfl
  exact congrArg (fun f : Ty → Ty => of (f s.ret) (s.params.map f)) hwrapped

/-- A request makes the signature of the types that it asks for. -/
theorem Request.make_eq_ok_iff {r : Request} {s : Signature} :
    r.make = .ok s ↔ r.types? = some (s.ret, s.params) := by
  cases r with
  | changeParam t i p =>
    show t.changeParam i p = _ ↔ (if i < t.arity then _ else _) = _
    by_cases hi : i < t.arity
    · rw [Signature.changeParam, if_pos hi, if_pos hi]
      exact of_eq_ok_iff_types
    · rw [Signature.changeParam, if_neg hi, if_neg hi]
      exact ⟨nofun, nofun⟩
  | insertParams t i ts =>
    show t.insertParams i ts = _ ↔ (if i ≤ t.arity then _ else _) = _
    by_cases hi : i ≤ t.arity
    · rw [Signature.insertParams, if_pos hi, if_pos hi]
      exact of_eq_ok_iff_types
    · rw [Signature.insertParams, if_neg hi, if_neg hi]
      exact ⟨nofun, nofun⟩
  | appendParams t ts =>
    have hle : t.params.length ≤ t.arity := Nat.le_refl _
    show t.insertParams t.params.length ts = _ ↔ some (t.ret, t.params ++ ts) = _
    rw [Signature.insertParams, if_pos hle, List.take_length, List.drop_length,
      List.append_nil]
    exact of_eq_ok_iff_types
  | dropParams t start stop =>
    show t.dropParams start stop = _ ↔ (if start ≤ stop ∧ stop ≤ t.arity then _ else _) = _
    by_cases hi : start ≤ stop ∧ stop ≤ t.arity
    · rw [Signature.dropParams, if_pos hi, if_pos hi]
      exact of_eq_ok_iff_types
    · rw [Signature.dropParams, if_neg hi, if_neg hi]
      exact ⟨nofun, nofun⟩
  | wrap t =>
    show t.wrap = _ ↔ _
    rw [wrap_eq]
    exact of_eq_ok_iff_types
  | _ => exact of_eq_ok_iff_types

theorem Request.refused_iff {r : Request} : r.Refused ↔ ∃ e, r.make = .error e := by
  constructor
  · intro hr
    cases hmake : r.make with
    | error e => exact ⟨e, rfl⟩
    | ok s =>
      rcases hr s.ret s.params (make_eq_ok_iff.1 hmake) with hvoid | hslots
      · exact absurd hvoid s.noVoid
      · exact absurd s.slots_le (Nat.not_le.2 hslots)
  · rintro ⟨e, he⟩ ret params htypes
    by_contra hvalid
    rw [not_or, Nat.not_lt] at hvalid
    have hmake := make_eq_ok_iff (s := ⟨params, ret, hvalid.1, hvalid.2⟩).2 htypes
    cases he.symm.trans hmake

/-! ## The pool -/

namespace Pool

variable {p : Pool} {s : Signature} {x : Nat}

theorem find?_eq_none_iff : p.find? s = none ↔ s ∉ p.entries := List.idxOf?_eq_none_iff

theorem getElem?_of_find? (h : p.find? s = some x) : p.entries[x]? = some s := by
  obtain ⟨hx, hs, -⟩ := List.idxOf?_eq_some_iff.1 h
  rw [List.getElem?_eq_getElem hx, hs]

/-- An insertion looks again: it keeps what is there by then. -/
theorem insertIfAbsent_cases (p : Pool) (s : Signature) :
    (∃ x, p.find? s = some x ∧ p.insertIfAbsent s = (x, p)) ∨
      p.find? s = none ∧ p.insertIfAbsent s = (p.entries.length, ⟨p.entries ++ [s]⟩) := by
  unfold insertIfAbsent
  cases p.find? s with
  | some x => exact .inl ⟨x, rfl, rfl⟩
  | none => exact .inr ⟨rfl, rfl⟩

end Pool

namespace Interning

/-! ## Steps -/

/-- The steps of call `i`: what it asks for is refused, found or missed; what it has missed is there by
now or is inserted. -/
inductive Step (c : Interning) (i : Nat) : Interning → Prop where
  | refused {r : Request} {e : Error} (call : c.askers[i]? = some ⟨r, .asked⟩)
      (made : r.make = .error e) : Step c i (c.advance i r (.answered (.error e)))
  | found {r : Request} {s : Signature} {x : Nat} (call : c.askers[i]? = some ⟨r, .asked⟩)
      (made : r.make = .ok s) (kept : c.pool.find? s = some x) :
    Step c i (c.advance i r (.answered (.ok (s, x))))
  | missed {r : Request} {s : Signature} (call : c.askers[i]? = some ⟨r, .asked⟩)
      (made : r.make = .ok s) (absent : c.pool.find? s = none) :
    Step c i (c.advance i r (.missed s))
  | rivalled {r : Request} {s : Signature} {x : Nat} (call : c.askers[i]? = some ⟨r, .missed s⟩)
      (kept : c.pool.find? s = some x) : Step c i (c.advance i r (.answered (.ok (s, x))))
  | inserted {r : Request} {s : Signature} (call : c.askers[i]? = some ⟨r, .missed s⟩)
      (absent : c.pool.find? s = none) :
    Step c i (({ c with pool := ⟨c.pool.entries ++ [s]⟩ } : Interning).advance i r
      (.answered (.ok (s, c.pool.entries.length))))

variable {c c' : Interning} {i j : Nat} {a b : Asker}

theorem step_of_goOn? (h : c.goOn? i = some c') : c.Step i c' := by
  unfold goOn? at h
  split at h
  · next r hcall =>
    cases hmake : r.make with
    | error e =>
      rw [hmake] at h
      obtain rfl := Option.some.inj h
      exact .refused hcall hmake
    | ok s =>
      rw [hmake] at h
      dsimp only at h
      cases hfind : c.pool.find? s with
      | some x =>
        rw [hfind] at h
        obtain rfl := Option.some.inj h
        exact .found hcall hmake hfind
      | none =>
        rw [hfind] at h
        obtain rfl := Option.some.inj h
        exact .missed hcall hmake hfind
  · next r s hcall =>
    rcases c.pool.insertIfAbsent_cases s with ⟨x, hfind, hinsert⟩ | ⟨hfind, hinsert⟩
    · rw [hinsert] at h
      obtain rfl := Option.some.inj h
      exact .rivalled hcall hfind
    · rw [hinsert] at h
      obtain rfl := Option.some.inj h
      exact .inserted hcall hfind
  · cases h

/-- A move begins a call, is a step of one, or changes nothing. -/
theorem move_cases (c : Interning) (m : Move) :
    (∃ r, m = .ask r ∧ c.move m = { c with askers := c.askers ++ [⟨r, .asked⟩] }) ∨
      ∃ i, m = .goOn i ∧ (c.Step i (c.move m) ∨ c.goOn? i = none ∧ c.move m = c) := by
  cases m with
  | ask r => exact .inl ⟨r, rfl, rfl⟩
  | goOn i =>
    refine .inr ⟨i, rfl, ?_⟩
    unfold move
    dsimp only
    cases hgo : c.goOn? i with
    | some c' => exact .inl (step_of_goOn? hgo)
    | none => exact .inr ⟨rfl, rfl⟩

/-! ## Signatures stay in their places -/

theorem Step.pool_grows (h : c.Step i c') : c.pool.entries <+: c'.pool.entries := by
  cases h with
  | inserted => exact List.prefix_append _ _
  | _ => exact List.prefix_rfl

theorem pool_grows_move (c : Interning) (m : Move) :
    c.pool.entries <+: (c.move m).pool.entries := by
  rcases c.move_cases m with ⟨r, -, hmove⟩ | ⟨i, -, hstep | ⟨-, hmove⟩⟩
  · exact hmove ▸ List.prefix_rfl
  · exact hstep.pool_grows
  · exact ⟨[], by rw [List.append_nil, hmove]⟩

theorem pool_grows_run (c : Interning) (moves : List Move) :
    c.pool.entries <+: (c.run moves).pool.entries := by
  induction moves generalizing c with
  | nil => exact List.prefix_rfl
  | cons m moves ih => exact (c.pool_grows_move m).trans (ih (c.move m))

theorem getElem?_mono {p q : Pool} {s : Signature} {x : Nat} (hpq : p.entries <+: q.entries)
    (h : p.entries[x]? = some s) : q.entries[x]? = some s := by
  obtain ⟨more, hmore⟩ := hpq
  rw [← hmore, List.getElem?_append_left (List.getElem?_eq_some_iff.1 h).1, h]

/-! ## Calls come to their end -/

/-- The steps that a call may have before it. -/
def left (a : Asker) : Nat :=
  match a.phase with
  | .asked => 2
  | .missed _ => 1
  | .answered _ => 0

theorem left_le (a : Asker) : left a ≤ 2 := by
  obtain ⟨r, phase⟩ := a
  cases phase with
  | asked => exact Nat.le_refl 2
  | missed s => exact Nat.le_succ 1
  | answered answer => exact Nat.zero_le 2

/-- A step of a call is seen at no other call, and is one of those that the call has left. -/
theorem Step.call (h : c.Step i c') : ∃ a b, c.askers[i]? = some a ∧
    c'.askers = c.askers.set i b ∧ b.request = a.request ∧ left b < left a := by
  cases h with
  | refused call made => exact ⟨_, _, call, rfl, rfl, Nat.zero_lt_two⟩
  | found call made kept => exact ⟨_, _, call, rfl, rfl, Nat.zero_lt_two⟩
  | missed call made absent => exact ⟨_, _, call, rfl, rfl, Nat.one_lt_two⟩
  | rivalled call kept => exact ⟨_, _, call, rfl, rfl, Nat.one_pos⟩
  | inserted call absent => exact ⟨_, _, call, rfl, rfl, Nat.one_pos⟩

/-- A call that has steps left can go on. -/
theorem left_eq_zero_of_goOn? (hcall : c.askers[i]? = some a) (h : c.goOn? i = none) :
    left a = 0 := by
  obtain ⟨r, phase⟩ := a
  unfold goOn? at h
  rw [hcall] at h
  cases phase with
  | asked =>
    dsimp only at h
    split at h
    · cases h
    · split at h <;> cases h
  | missed s => cases h
  | answered answer => rfl

/-- The call whose turn a move is. -/
def Move.turn : Move → Option Nat
  | ask _ => none
  | goOn i => some i

theorem turn_move (c : Interning) (m : Move) :
    Turn Asker.request left m.turn c.askers (c.move m).askers := by
  rcases c.move_cases m with ⟨r, rfl, hmove⟩ | ⟨i, rfl, hstep | ⟨hnone, hmove⟩⟩
  · rw [hmove]
    exact .begins _ _
  · obtain ⟨a, b, hcall, haskers, hrequest, hless⟩ := hstep.call
    rw [haskers]
    exact .goesOn hcall hrequest hless
  · rw [hmove]
    exact .stays fun a hcall => left_eq_zero_of_goOn? hcall hnone

/-! ## The invariant -/

/-- What is known of a call: what it has missed or been answered is what it asked for, and what it has
been answered is in the pool, at the place that it was told. -/
inductive Fair (p : Pool) : Asker → Prop where
  | asked (r : Request) : Fair p ⟨r, .asked⟩
  | missed {r : Request} {s : Signature} (made : r.make = .ok s) : Fair p ⟨r, .missed s⟩
  | answered {r : Request} {s : Signature} {x : Nat} (made : r.make = .ok s)
      (kept : p.entries[x]? = some s) : Fair p ⟨r, .answered (.ok (s, x))⟩
  | refused {r : Request} {e : Error} (made : r.make = .error e) : Fair p ⟨r, .answered (.error e)⟩

theorem Fair.mono {p q : Pool} (h : Fair p a) (hpq : p.entries <+: q.entries) : Fair q a := by
  cases h with
  | asked r => exact .asked r
  | missed made => exact .missed made
  | answered made kept => exact .answered made (getElem?_mono hpq kept)
  | refused made => exact .refused made

/-- What holds at every moment: the pool has no signature twice and none that was not answered to a call,
and all calls are treated fairly. -/
structure Sound (c : Interning) : Prop where
  nodup : c.pool.entries.Nodup
  fair : ∀ a ∈ c.askers, Fair c.pool a
  answered : ∀ s ∈ c.pool.entries, ∃ r x, ⟨r, .answered (.ok (s, x))⟩ ∈ c.askers

theorem sound_empty : Sound empty where
  nodup := List.nodup_nil
  fair _ ha := absurd ha List.not_mem_nil
  answered _ hs := absurd hs List.not_mem_nil

theorem Step.nodup (h : c.Step i c') (hc : Sound c) : c'.pool.entries.Nodup := by
  cases h with
  | inserted call absent =>
    refine List.nodup_append.2 ⟨hc.nodup, List.nodup_singleton _, fun s hs t ht hst => ?_⟩
    rw [List.mem_singleton.1 ht] at hst
    exact Pool.find?_eq_none_iff.1 absent (hst ▸ hs)
  | _ => exact hc.nodup

/-- The call that made the step is treated fairly, at the pool that the step leaves. -/
theorem Step.fair (h : c.Step i c') (hc : Sound c) : ∀ a ∈ c'.askers, Fair c'.pool a := by
  intro a ha
  have hrest (haold : a ∈ c.askers) : Fair c'.pool a := (hc.fair a haold).mono h.pool_grows
  cases h with
  | refused call made =>
    rcases List.mem_or_eq_of_mem_set ha with haold | rfl
    · exact hrest haold
    · exact .refused made
  | found call made kept =>
    rcases List.mem_or_eq_of_mem_set ha with haold | rfl
    · exact hrest haold
    · exact .answered made (Pool.getElem?_of_find? kept)
  | missed call made absent =>
    rcases List.mem_or_eq_of_mem_set ha with haold | rfl
    · exact hrest haold
    · exact .missed made
  | rivalled call kept =>
    rcases List.mem_or_eq_of_mem_set ha with haold | rfl
    · exact hrest haold
    · cases hc.fair _ (List.mem_of_getElem? call) with
      | missed made => exact .answered made (Pool.getElem?_of_find? kept)
  | inserted call absent =>
    rcases List.mem_or_eq_of_mem_set ha with haold | rfl
    · exact hrest haold
    · cases hc.fair _ (List.mem_of_getElem? call) with
      | missed made => exact .answered made (List.getElem?_concat_length)

theorem Step.answered (h : c.Step i c') (hc : Sound c) :
    ∀ s ∈ c'.pool.entries, ∃ r x, ⟨r, .answered (.ok (s, x))⟩ ∈ c'.askers := by
  -- an answer stands at a call that is over, so the step is one of another call
  have hstays (s : Signature) (hs : s ∈ c.pool.entries) :
      ∃ r x, ⟨r, .answered (.ok (s, x))⟩ ∈ c'.askers := by
    obtain ⟨r, x, hmem⟩ := hc.answered s hs
    obtain ⟨j, hj⟩ := List.mem_iff_getElem?.1 hmem
    obtain ⟨a, b, ha, haskers, -, hleft⟩ := h.call
    have hij : i ≠ j := by
      rintro rfl
      obtain rfl := Option.some.inj (hj.symm.trans ha)
      exact Nat.not_lt_zero _ hleft
    refine ⟨r, x, List.mem_iff_getElem?.2 ⟨j, ?_⟩⟩
    rw [haskers, List.getElem?_set_ne hij, hj]
  intro s hs
  cases h with
  | inserted call absent =>
    rcases List.mem_append.1 hs with hold | hnew
    · exact hstays s hold
    · rw [List.mem_singleton.1 hnew]
      exact ⟨_, _, List.mem_set (List.getElem?_eq_some_iff.1 call).1 _⟩
  | _ => exact hstays s hs

theorem Sound.move (hc : Sound c) (m : Move) : Sound (c.move m) := by
  rcases c.move_cases m with ⟨r, -, hmove⟩ | ⟨i, -, hstep | ⟨-, hmove⟩⟩
  · rw [hmove]
    refine ⟨hc.nodup, fun a ha => ?_, fun s hs => ?_⟩
    · rcases List.mem_append.1 ha with hold | hnew
      · exact hc.fair a hold
      · rw [List.mem_singleton.1 hnew]
        exact .asked r
    · obtain ⟨q, x, hmem⟩ := hc.answered s hs
      exact ⟨q, x, List.mem_append_left _ hmem⟩
  · exact ⟨hstep.nodup hc, hstep.fair hc, hstep.answered hc⟩
  · rwa [hmove]

theorem Sound.run (hc : Sound c) (moves : List Move) : Sound (c.run moves) := by
  induction moves generalizing c with
  | nil => exact hc
  | cons m moves ih => exact ih (hc.move m)

/-- The place of a signature in the pool tells it from all others. -/
theorem Sound.place_eq_iff {s t : Signature} {x y : Nat} (hc : Sound c)
    (hs : c.pool.entries[x]? = some s) (ht : c.pool.entries[y]? = some t) : x = y ↔ s = t := by
  constructor
  · rintro rfl
    exact Option.some.inj (hs.symm.trans ht)
  · rintro rfl
    have hx := (List.getElem?_eq_some_iff.1 hs).1
    exact (List.getElem?_inj hx hc.nodup).1 (hs.trans ht.symm)

/-- A call for what is no signature ends with its next step, which does not touch the pool. -/
theorem Sound.refused {r : Request} {phase : Asking} (hc : Sound c)
    (hcall : c.askers[i]? = some ⟨r, phase⟩) (hr : r.Refused) :
    (c.move (.goOn i)).pool = c.pool ∧
      ∃ e, (c.move (.goOn i)).askers[i]? = some ⟨r, .answered (.error e)⟩ := by
  obtain ⟨e, he⟩ := Request.refused_iff.1 hr
  have hmove : c.move (.goOn i) = (c.goOn? i).getD c := rfl
  have hlength := (List.getElem?_eq_some_iff.1 hcall).1
  cases hc.fair _ (List.mem_of_getElem? hcall) with
  | asked =>
    rw [hmove, goOn?, hcall]
    dsimp only
    rw [he]
    exact ⟨rfl, e, List.getElem?_set_self hlength⟩
  | missed made => cases he.symm.trans made
  | answered made kept => cases he.symm.trans made
  | refused made =>
    rw [hmove, goOn?, hcall]
    exact ⟨rfl, _, hcall⟩

/-- A call that nobody disturbs is `Pool.intern`. -/
theorem run_alone (p : Pool) (ret : Ty) (params : List Ty) :
    (⟨p, []⟩ : Interning).run [.ask (.of ret params), .goOn 0, .goOn 0] =
      ⟨(p.intern ret params).2, [⟨.of ret params, .answered (p.intern ret params).1⟩]⟩ := by
  simp only [run, List.foldl_cons, List.foldl_nil, move, List.nil_append, goOn?, Request.make,
    Pool.intern, List.getElem?_cons_zero]
  cases of ret params with
  | error e => rfl
  | ok s =>
    dsimp only
    cases hfind : p.find? s with
    | some x => rfl
    | none => rfl

/-! ## The guarantee -/

/-- Call `i` is for `r`. -/
def Asks (c : Interning) (i : Nat) (r : Request) : Prop :=
  ∃ phase, c.askers[i]? = some ⟨r, phase⟩

/-- Call `i` was for `r` and is over. -/
def Answered (c : Interning) (i : Nat) (r : Request) (answer : Except Error (Signature × Nat)) :
    Prop :=
  c.askers[i]? = some ⟨r, .answered answer⟩

theorem Sound.of_answered {r : Request} {s : Signature} {x : Nat} (hc : Sound c)
    (h : c.Answered i r (.ok (s, x))) : r.make = .ok s ∧ c.pool.entries[x]? = some s := by
  cases hc.fair _ (List.mem_of_getElem? h) with
  | answered made kept => exact ⟨made, kept⟩

/-- A call that made two steps is over. -/
theorem Asks.answered_run {r : Request} {moves : List Move} (h : c.Asks i r)
    (hmoves : [Move.goOn i, .goOn i].Sublist moves) : ∃ answer, (c.run moves).Answered i r answer := by
  obtain ⟨phase, hcall⟩ := h
  obtain ⟨⟨q, last⟩, hlast, rfl, hzero⟩ := over_of_turns turn_move rfl hcall (left_le _) hmoves
  cases last with
  | answered answer => exact ⟨answer, hlast⟩
  | asked => cases hzero
  | missed s => cases hzero

/-- **Equal signatures are one, however the calls for them take turns.** At any moment of any run of
any calls that began at an empty pool: two calls were answered one signature exactly if results and
parameters are the same; whatever a call was answered has the types that it asked for, no void
parameter, the slots of its parameters, which are 255 at most, and the erased form of each type, with
as many slots; and it is in the pool at its place, now and at any later moment.

A call for what is no signature ends with its next step, in an error, and the pool stays as it is;
no other call ends so. The pool holds nothing but what some call was answered. Two steps of its own
bring any call to its end. -/
theorem interns_exactly (before between : List Move) :
    let now := empty.run before
    let later := now.run between
    (∀ i j r q s t x y, now.Answered i r (.ok (s, x)) → now.Answered j q (.ok (t, y)) →
      (x = y ↔ s.ret = t.ret ∧ s.params = t.params)) ∧
    (∀ i r s x, now.Answered i r (.ok (s, x)) →
      r.types? = some (s.ret, s.params) ∧ Ty.void ∉ s.params ∧
        s.slots = (s.params.map Ty.slots).sum ∧ s.slots ≤ 255 ∧
        s.shape = ⟨s.params.map Ty.carrier, s.ret.carrier⟩ ∧ s.shape.slots = s.slots ∧
        now.pool.entries[x]? = some s ∧ later.pool.entries[x]? = some s) ∧
    (∀ i r, now.Asks i r → r.Refused →
      (now.move (.goOn i)).pool = now.pool ∧ ∃ e, (now.move (.goOn i)).Answered i r (.error e)) ∧
    (∀ i r e, now.Answered i r (.error e) → r.Refused) ∧
    (∀ s ∈ now.pool.entries, ∃ i r x, now.Answered i r (.ok (s, x))) ∧
    ∀ i r, now.Asks i r → [Move.goOn i, .goOn i].Sublist between →
      ∃ answer, later.Answered i r answer := by
  intro now later
  have hc : Sound now := sound_empty.run before
  refine ⟨fun i j r q s t x y hi hj => ?_, fun i r s x hi => ?_,
    fun i r ⟨phase, hi⟩ hr => hc.refused hi hr, fun i r e hi => ?_, fun s hs => ?_,
    fun i r hi hown => hi.answered_run hown⟩
  · rw [hc.place_eq_iff (hc.of_answered hi).2 (hc.of_answered hj).2, Signature.ext'_iff]
    exact And.comm
  · obtain ⟨made, kept⟩ := hc.of_answered hi
    exact ⟨Request.make_eq_ok_iff.1 made, s.noVoid, rfl, s.slots_le, rfl, s.slots_shape, kept,
      getElem?_mono (now.pool_grows_run between) kept⟩
  · cases hc.fair _ (List.mem_of_getElem? hi) with
    | refused made => exact Request.refused_iff.2 ⟨e, made⟩
  · obtain ⟨r, x, hmem⟩ := hc.answered s hs
    obtain ⟨i, hi⟩ := List.mem_iff_getElem?.1 hmem
    exact ⟨i, r, x, hi⟩

/-- Two calls for `(int)int`, one of them an edit of `(int)void`, both find nothing before one of them
inserts it, and are answered one signature; a third, for a void parameter, is refused. -/
theorem interns_exactly_of_rivals :
    let int : Ty := .prim .int
    let unit : Signature := ⟨[int], .void, by decide, by decide⟩
    let begun : List Move := [.ask (.of int [int]), .ask (.changeReturn unit int),
      .ask (.of int [.void]), .goOn 0, .goOn 1]
    let final := empty.run (begun ++ [.goOn 1, .goOn 0, .goOn 2])
    (empty.run begun).pool.entries = [] ∧
      (∃ s t x y, final.Answered 0 (.of int [int]) (.ok (s, x)) ∧
        final.Answered 1 (.changeReturn unit int) (.ok (t, y)) ∧ x = y) ∧
      final.pool.entries.length = 1 ∧ ∃ e, final.Answered 2 (.of int [.void]) (.error e) := by
  intro int unit begun final
  let both : Signature := ⟨[int], int, by decide, by decide⟩
  have hbegun : empty.run begun = ⟨.empty, [⟨.of int [int], .missed both⟩,
      ⟨.changeReturn unit int, .missed both⟩, ⟨.of int [.void], .asked⟩]⟩ := by rfl
  have hfinal : final = ⟨⟨[both]⟩, [⟨.of int [int], .answered (.ok (both, 0))⟩,
      ⟨.changeReturn unit int, .answered (.ok (both, 0))⟩,
      ⟨.of int [.void], .answered (.error (.signature (.voidParameter 0)))⟩]⟩ := by
    show List.foldl move empty (begun ++ _) = _
    rw [List.foldl_append]
    show (empty.run begun).run _ = _
    rw [hbegun]
    rfl
  have hfirst : final.Answered 0 (.of int [int]) (.ok (both, 0)) := by rw [hfinal]; rfl
  have hsecond : final.Answered 1 (.changeReturn unit int) (.ok (both, 0)) := by rw [hfinal]; rfl
  obtain ⟨hsame, -⟩ := interns_exactly (begun ++ [.goOn 1, .goOn 0, .goOn 2]) []
  refine ⟨by rw [hbegun]; rfl, ⟨both, both, 0, 0, hfirst, hsecond,
    (hsame 0 1 _ _ both both 0 0 hfirst hsecond).2 ⟨rfl, rfl⟩⟩, ?_, .signature (.voidParameter 0), ?_⟩
  · rw [hfinal]
    rfl
  · rw [hfinal]
    rfl

end Interning

end Signature

end HandleCalculus
