import HandleCalculus.Proofs.LookupSteps
import HandleCalculus.Proofs.TakingTurns
import HandleCalculus.Sharing
import Mathlib.Data.List.Dedup
import Mathlib.Data.List.Induction

/-!
# One handle for a key

Calls that find no handle under a key have one made, and several may do so at once for one key. The first
to insert decides: an insertion keeps what it finds, so the others discard what they have made, and every
call that succeeds, then or later, is answered the handle that is kept. What holds at every moment
(`Sharing.Sound`) is shown for one step, constructor by constructor, and for all runs by induction over
the moves, the latest last. What a call has read is a matter of the past; it is written down as a moment of
the moves made so far (`Sharing.Read`), so that nothing needs to be recorded for it.
-/

set_option autoImplicit false

namespace HandleCalculus.MemberCache

/-! ## The table -/

section Table

variable {c : MemberCache} {k : MemberKey}

theorem isSome_find?_iff : (c.find? k).isSome = true ↔ k ∈ c.entries.map Prod.fst := by
  rw [← Option.ne_none_iff_isSome, ne_eq, find?, lookup_eq_none_iff_notMem, not_not]

/-- An insertion keeps what it finds. -/
theorem insertIfAbsent_cases (c : MemberCache) (k : MemberKey) (h : Handle) :
    (∃ old, c.find? k = some old ∧ c.insertIfAbsent k h = (old, c)) ∨
      c.find? k = none ∧ c.insertIfAbsent k h = (h, { c with entries := (k, h) :: c.entries }) := by
  unfold insertIfAbsent
  cases c.find? k with
  | some old => exact .inl ⟨old, rfl, rfl⟩
  | none => exact .inr ⟨rfl, rfl⟩

end Table

namespace Taker

/-! ## Calls -/

/-- Whether a call has been counted as a hit. -/
def isHit (t : Taker) : Bool :=
  match t.stage with
  | .answered (.ok (_, true)) => true
  | _ => false

/-- Whether a call has been counted as a miss. -/
def isMiss (t : Taker) : Bool :=
  match t.stage with
  | .making | .made _ | .answered (.error _) | .answered (.ok (_, false)) => true
  | _ => false

/-- Whether the maker of a call has run and made a handle. -/
def succeeded (t : Taker) : Bool :=
  match t.stage with
  | .made _ | .answered (.ok (_, false)) => true
  | _ => false

/-- Whether a call is over. -/
def isOver (t : Taker) : Bool :=
  match t.stage with
  | .answered _ => true
  | _ => false

/-- The steps that a call may have before it. -/
def left (t : Taker) : Nat :=
  match t.stage with
  | .asked => 4
  | .missed => 3
  | .making => 2
  | .found _ | .made _ => 1
  | .answered _ => 0

/-- What a call is for. -/
def asks (t : Taker) : MemberKey × Except Error Handle := (t.key, t.make)

theorem left_le (t : Taker) : t.left ≤ 4 := by
  obtain ⟨k, make, stage⟩ := t
  cases stage <;> simp [left]

/-- A call that is over has been counted once. -/
theorem isMiss_of_isOver {t : Taker} (h : t.isOver = true) : t.isMiss = !t.isHit := by
  obtain ⟨k, make, stage⟩ := t
  cases stage with
  | answered answer =>
    cases answer with
    | error e => rfl
    | ok a =>
      obtain ⟨h, hit⟩ := a
      cases hit <;> rfl
  | _ => cases h

end Taker

namespace Sharing

/-! ## Steps -/

/-- The steps of call `i`: what it asks for is found or missed, and counted; its maker fails or makes a
handle; by then another one is kept, or its own is inserted. Without the cache it does no more than make. -/
inductive Step (c : Sharing) (i : Nat) : Sharing → Prop where
  | found {k : MemberKey} {make : Except Error Handle} {h : Handle}
      (taker : c.takers[i]? = some ⟨k, make, .asked⟩) (enabled : c.cache.enabled = true)
      (kept : c.cache.find? k = some h) : Step c i ⟨c.cache, c.takers.set i ⟨k, make, .found h⟩⟩
  | absent {k : MemberKey} {make : Except Error Handle}
      (taker : c.takers[i]? = some ⟨k, make, .asked⟩) (enabled : c.cache.enabled = true)
      (absent : c.cache.find? k = none) : Step c i ⟨c.cache, c.takers.set i ⟨k, make, .missed⟩⟩
  | unshared {k : MemberKey} {make : Except Error Handle}
      (taker : c.takers[i]? = some ⟨k, make, .asked⟩) (disabled : c.cache.enabled = false) :
    Step c i ⟨c.cache, c.takers.set i ⟨k, make, .making⟩⟩
  | hit {k : MemberKey} {make : Except Error Handle} {h : Handle}
      (taker : c.takers[i]? = some ⟨k, make, .found h⟩) :
    Step c i ⟨c.cache.countHit, c.takers.set i ⟨k, make, .answered (.ok (h, true))⟩⟩
  | miss {k : MemberKey} {make : Except Error Handle}
      (taker : c.takers[i]? = some ⟨k, make, .missed⟩) :
    Step c i ⟨c.cache.countMiss, c.takers.set i ⟨k, make, .making⟩⟩
  | failed {k : MemberKey} {e : Error} (taker : c.takers[i]? = some ⟨k, .error e, .making⟩) :
    Step c i ⟨c.cache, c.takers.set i ⟨k, .error e, .answered (.error e)⟩⟩
  | made {k : MemberKey} {h : Handle} (taker : c.takers[i]? = some ⟨k, .ok h, .making⟩)
      (enabled : c.cache.enabled = true) : Step c i ⟨c.cache, c.takers.set i ⟨k, .ok h, .made h⟩⟩
  | unkept {k : MemberKey} {h : Handle} (taker : c.takers[i]? = some ⟨k, .ok h, .making⟩)
      (disabled : c.cache.enabled = false) :
    Step c i ⟨c.cache, c.takers.set i ⟨k, .ok h, .answered (.ok (h, false))⟩⟩
  | rivalled {k : MemberKey} {make : Except Error Handle} {h old : Handle}
      (taker : c.takers[i]? = some ⟨k, make, .made h⟩) (kept : c.cache.find? k = some old) :
    Step c i ⟨c.cache, c.takers.set i ⟨k, make, .answered (.ok (old, false))⟩⟩
  | inserted {k : MemberKey} {make : Except Error Handle} {h : Handle}
      (taker : c.takers[i]? = some ⟨k, make, .made h⟩) (absent : c.cache.find? k = none) :
    Step c i ⟨{ c.cache with entries := (k, h) :: c.cache.entries },
      c.takers.set i ⟨k, make, .answered (.ok (h, false))⟩⟩

variable {c c' : Sharing} {i j : Nat} {t : Taker}

theorem step_of_goOn? (h : c.goOn? i = some c') : c.Step i c' := by
  unfold goOn? at h
  obtain ⟨⟨k, make, stage⟩, htaker, h⟩ := Option.bind_eq_some_iff.1 h
  cases stage with
  | asked =>
    dsimp only at h
    split at h
    · next henabled =>
      cases hfind : c.cache.find? k with
      | some a =>
        rw [hfind] at h
        obtain rfl := Option.some.inj h
        exact .found htaker henabled hfind
      | none =>
        rw [hfind] at h
        obtain rfl := Option.some.inj h
        exact .absent htaker henabled hfind
    · next hdisabled =>
      obtain rfl := Option.some.inj h
      exact .unshared htaker (Bool.eq_false_iff.2 hdisabled)
  | found a =>
    obtain rfl := Option.some.inj h
    exact .hit htaker
  | missed =>
    obtain rfl := Option.some.inj h
    exact .miss htaker
  | making =>
    cases make with
    | error e =>
      obtain rfl := Option.some.inj h
      exact .failed htaker
    | ok a =>
      dsimp only at h
      split at h
      · next henabled =>
        obtain rfl := Option.some.inj h
        exact .made htaker henabled
      · next hdisabled =>
        obtain rfl := Option.some.inj h
        exact .unkept htaker (Bool.eq_false_iff.2 hdisabled)
  | made a =>
    rcases c.cache.insertIfAbsent_cases k a with ⟨old, hfind, hinsert⟩ | ⟨hfind, hinsert⟩
    · simp only [hinsert] at h
      obtain rfl := Option.some.inj h
      exact .rivalled htaker hfind
    · simp only [hinsert] at h
      obtain rfl := Option.some.inj h
      exact .inserted htaker hfind
  | answered answer => cases h

/-- A move begins a call, is a step of one, or changes nothing. -/
theorem move_cases (c : Sharing) (m : Move) :
    (∃ k make, m = .ask k make ∧ c.move m = { c with takers := c.takers ++ [⟨k, make, .asked⟩] }) ∨
      ∃ i, m = .goOn i ∧ (c.Step i (c.move m) ∨ c.goOn? i = none ∧ c.move m = c) := by
  cases m with
  | ask k make => exact .inl ⟨k, make, rfl, rfl⟩
  | goOn i =>
    refine .inr ⟨i, rfl, ?_⟩
    unfold move
    dsimp only
    cases hgo : c.goOn? i with
    | some c' => exact .inl (step_of_goOn? hgo)
    | none => exact .inr ⟨rfl, rfl⟩

/-- A step of a call is seen at no other call, and is one of those that the call has left. -/
theorem Step.taker (h : c.Step i c') : ∃ a b, c.takers[i]? = some a ∧
    c'.takers = c.takers.set i b ∧ b.asks = a.asks ∧ b.left < a.left := by
  cases h with
  | found taker enabled kept => exact ⟨_, _, taker, rfl, rfl, by simp [Taker.left]⟩
  | absent taker enabled absent => exact ⟨_, _, taker, rfl, rfl, by simp [Taker.left]⟩
  | unshared taker disabled => exact ⟨_, _, taker, rfl, rfl, by simp [Taker.left]⟩
  | hit taker => exact ⟨_, _, taker, rfl, rfl, by simp [Taker.left]⟩
  | miss taker => exact ⟨_, _, taker, rfl, rfl, by simp [Taker.left]⟩
  | failed taker => exact ⟨_, _, taker, rfl, rfl, by simp [Taker.left]⟩
  | made taker enabled => exact ⟨_, _, taker, rfl, rfl, by simp [Taker.left]⟩
  | unkept taker disabled => exact ⟨_, _, taker, rfl, rfl, by simp [Taker.left]⟩
  | rivalled taker kept => exact ⟨_, _, taker, rfl, rfl, by simp [Taker.left]⟩
  | inserted taker absent => exact ⟨_, _, taker, rfl, rfl, by simp [Taker.left]⟩

theorem Step.others (h : c.Step i c') (hij : i ≠ j) : c'.takers[j]? = c.takers[j]? := by
  obtain ⟨a, b, -, htakers, -⟩ := h.taker
  rw [htakers, List.getElem?_set_ne hij]

/-! ## Calls come to their end -/

theorem left_eq_zero_of_goOn? (htaker : c.takers[i]? = some t) (h : c.goOn? i = none) :
    t.left = 0 := by
  obtain ⟨k, make, stage⟩ := t
  unfold goOn? at h
  rw [htaker, Option.bind_some] at h
  cases stage with
  | asked =>
    dsimp only at h
    split at h
    · split at h <;> cases h
    · cases h
  | making =>
    dsimp only at h
    split at h
    · cases h
    · split at h <;> cases h
  | answered answer => rfl
  | _ => cases h

/-- The call whose turn a move is. -/
def Move.turn : Move → Option Nat
  | ask _ _ => none
  | goOn i => some i

theorem turn_move (c : Sharing) (m : Move) :
    Turn Taker.asks Taker.left m.turn c.takers (c.move m).takers := by
  rcases c.move_cases m with ⟨k, make, rfl, hmove⟩ | ⟨i, rfl, hstep | ⟨hnone, hmove⟩⟩
  · rw [hmove]
    exact .begins _ _
  · obtain ⟨a, b, htaker, htakers, hasks, hless⟩ := hstep.taker
    rw [htakers]
    exact .goesOn htaker hasks hless
  · rw [hmove]
    exact .stays fun t htaker => left_eq_zero_of_goOn? htaker hnone

/-- Call `i` asks for the handle of the key. -/
def Asks (c : Sharing) (i : Nat) (k : MemberKey) : Prop :=
  ∃ make stage, c.takers[i]? = some ⟨k, make, stage⟩

/-- Call `i` asked for the handle of the key and is over. -/
def Answered (c : Sharing) (i : Nat) (k : MemberKey) (answer : Except Error (Handle × Bool)) : Prop :=
  ∃ make, c.takers[i]? = some ⟨k, make, .answered answer⟩

/-- A call that made four steps is over. -/
theorem Asks.answered_run {k : MemberKey} {moves : List Move} (h : c.Asks i k)
    (hmoves : (List.replicate 4 (Move.goOn i)).Sublist moves) :
    ∃ answer, (c.run moves).Answered i k answer := by
  obtain ⟨make, stage, htaker⟩ := h
  obtain ⟨⟨k', make', last⟩, hlast, htag, hzero⟩ :=
    over_of_turns turn_move rfl htaker (Taker.left_le _) hmoves
  obtain ⟨rfl, rfl⟩ := Prod.mk.inj htag
  cases last with
  | answered answer => exact ⟨answer, make', hlast⟩
  | _ => cases hzero

/-! ## The table only grows -/

theorem Step.grows (h : c.Step i c') : c.cache.Grows c'.cache := by
  cases h with
  | inserted taker absent => exact ⟨rfl, fun _ _ hkept => lookup_cons_of_none absent hkept⟩
  | _ => exact ⟨rfl, fun _ _ hkept => hkept⟩

theorem Step.entries_suffix (h : c.Step i c') : c.cache.entries <:+ c'.cache.entries := by
  cases h with
  | inserted taker absent => exact List.suffix_cons _ _
  | _ => exact List.suffix_rfl

theorem grows_move (c : Sharing) (m : Move) :
    c.cache.Grows (c.move m).cache ∧ c.cache.entries <:+ (c.move m).cache.entries := by
  rcases c.move_cases m with ⟨k, make, -, hmove⟩ | ⟨i, -, hstep | ⟨-, hmove⟩⟩
  · rw [hmove]
    exact ⟨.refl _, List.suffix_rfl⟩
  · exact ⟨hstep.grows, hstep.entries_suffix⟩
  · rw [hmove]
    exact ⟨.refl _, List.suffix_rfl⟩

theorem grows_run (c : Sharing) (moves : List Move) :
    c.cache.Grows (c.run moves).cache ∧ c.cache.entries <:+ (c.run moves).cache.entries := by
  induction moves generalizing c with
  | nil => exact ⟨.refl _, List.suffix_rfl⟩
  | cons m moves ih =>
    obtain ⟨hgrows, hsuffix⟩ := c.grows_move m
    obtain ⟨hgrows', hsuffix'⟩ := ih (c.move m)
    exact ⟨hgrows.trans hgrows', hsuffix.trans hsuffix'⟩

theorem run_nil (c : Sharing) : c.run [] = c := rfl

theorem run_append (c : Sharing) (moves more : List Move) :
    c.run (moves ++ more) = (c.run moves).run more := List.foldl_append

/-! ## The invariant -/

/-- A cache in use, before any call. -/
def start : Sharing := on (.empty true)

/-- Among the moves made from the start is the one by which call `i` read the table; under its key it
found `kept`. -/
def Read (moves : List Move) (i : Nat) (k : MemberKey) (kept : Option Handle) : Prop :=
  ∃ early late make, moves = early ++ .goOn i :: late ∧
    (start.run early).takers[i]? = some ⟨k, make, .asked⟩ ∧ (start.run early).cache.find? k = kept

theorem Read.append {moves : List Move} {k : MemberKey} {kept : Option Handle}
    (h : Read moves i k kept) (more : List Move) : Read (moves ++ more) i k kept := by
  obtain ⟨early, late, make, rfl, htaker, hkept⟩ := h
  exact ⟨early, late ++ more, make, List.append_assoc _ _ _, htaker, hkept⟩

/-- A call that goes on from where it was about to read is never again about to read. -/
theorem eq_nil_of_asked_again {mid late more : List Move} {k k' : MemberKey}
    {make make' : Except Error Handle} (ht : c.takers[i]? = some ⟨k, make, .asked⟩)
    (ht' : (c.run mid).takers[i]? = some ⟨k', make', .asked⟩) (h : .goOn i :: late = mid ++ more) :
    mid = [] := by
  cases mid with
  | nil => rfl
  | cons m mid =>
    obtain ⟨rfl, -⟩ := List.cons.inj h
    have hown : (Move.goOn i).turn = some i := rfl
    obtain ⟨b, hb, -, hleft, -⟩ := later_of_turns turn_move hown ht (n := 1)
      (List.cons_sublist_cons.2 (List.nil_sublist mid))
    obtain rfl := Option.some.inj (ht'.symm.trans hb)
    exact absurd hleft (by simp [Taker.left])

/-- A call reads the table once. -/
theorem Read.unique {moves : List Move} {k k' : MemberKey} {kept kept' : Option Handle}
    (h : Read moves i k kept) (h' : Read moves i k' kept') : kept = kept' := by
  obtain ⟨early, late, make, rfl, ht, rfl⟩ := h
  obtain ⟨early', late', make', heq, ht', rfl⟩ := h'
  have hsame : early = early' := by
    rcases List.append_eq_append_iff.1 heq with ⟨mid, rfl, hlate⟩ | ⟨mid, rfl, hlate⟩
    · rw [run_append] at ht'
      rw [eq_nil_of_asked_again ht ht' hlate, List.append_nil]
    · rw [run_append] at ht
      rw [eq_nil_of_asked_again ht' ht hlate, List.append_nil]
  subst hsame
  obtain ⟨rfl, -⟩ := Taker.mk.inj (Option.some.inj (ht.symm.trans ht'))
  rfl

/-- What is known of call `i` after the moves: what it has read, what its own maker has made, and that
what it has been answered is in the table. -/
inductive Fair (moves : List Move) (c : MemberCache) (i : Nat) : Taker → Prop where
  | asked (k : MemberKey) (make : Except Error Handle) : Fair moves c i ⟨k, make, .asked⟩
  | found {k : MemberKey} {make : Except Error Handle} {h : Handle} (read : Read moves i k (some h))
      (kept : c.find? k = some h) : Fair moves c i ⟨k, make, .found h⟩
  | missed {k : MemberKey} {make : Except Error Handle} (read : Read moves i k none) :
    Fair moves c i ⟨k, make, .missed⟩
  | making {k : MemberKey} {make : Except Error Handle} (read : Read moves i k none) :
    Fair moves c i ⟨k, make, .making⟩
  | made {k : MemberKey} {h : Handle} (read : Read moves i k none) :
    Fair moves c i ⟨k, .ok h, .made h⟩
  | hit {k : MemberKey} {make : Except Error Handle} {h : Handle} (read : Read moves i k (some h))
      (kept : c.find? k = some h) : Fair moves c i ⟨k, make, .answered (.ok (h, true))⟩
  | miss {k : MemberKey} {own h : Handle} (read : Read moves i k none) (kept : c.find? k = some h) :
    Fair moves c i ⟨k, .ok own, .answered (.ok (h, false))⟩
  | failed {k : MemberKey} {e : Error} (read : Read moves i k none) :
    Fair moves c i ⟨k, .error e, .answered (.error e)⟩

theorem Fair.mono {moves : List Move} {c d : MemberCache} (h : Fair moves c i t) (hgrows : c.Grows d)
    (more : List Move) : Fair (moves ++ more) d i t := by
  cases h with
  | asked k make => exact .asked k make
  | found read kept => exact .found (read.append more) (hgrows.find? _ _ kept)
  | missed read => exact .missed (read.append more)
  | making read => exact .making (read.append more)
  | made read => exact .made (read.append more)
  | hit read kept => exact .hit (read.append more) (hgrows.find? _ _ kept)
  | miss read kept => exact .miss (read.append more) (hgrows.find? _ _ kept)
  | failed read => exact .failed (read.append more)

/-- What holds at every moment, after the moves made from the start: no key is in the table twice, all
calls are treated fairly, what is kept was made and inserted by a call for its key, and the counters count
the calls. -/
structure Sound (moves : List Move) (c : Sharing) : Prop where
  run : c = start.run moves
  enabled : c.cache.enabled = true
  nodup : (c.cache.entries.map Prod.fst).Nodup
  fair : ∀ (i : Nat) t, c.takers[i]? = some t → Fair moves c.cache i t
  origin : ∀ k h, c.cache.find? k = some h →
    ∃ i : Nat, c.takers[i]? = some ⟨k, .ok h, .answered (.ok (h, false))⟩
  hits : c.cache.hits = c.takers.countP Taker.isHit
  misses : c.cache.misses = c.takers.countP Taker.isMiss

theorem sound_start : Sound [] start where
  run := rfl
  enabled := rfl
  nodup := List.nodup_nil
  fair _ _ ht := by cases ht
  origin _ _ hk := by cases hk
  hits := rfl
  misses := rfl

variable {moves : List Move}

theorem Step.nodup (h : c.Step i c') (hc : (c.cache.entries.map Prod.fst).Nodup) :
    (c'.cache.entries.map Prod.fst).Nodup := by
  cases h with
  | inserted taker absent => exact List.nodup_cons.2 ⟨lookup_eq_none_iff_notMem.1 absent, hc⟩
  | _ => exact hc

/-- The call that made the step is treated fairly. -/
theorem Step.fair_own (h : c.Step i c') (hc : Sound moves c) :
    ∃ b, c'.takers = c.takers.set i b ∧ Fair (moves ++ [.goOn i]) c'.cache i b := by
  have reads {k : MemberKey} {make : Except Error Handle} {kept : Option Handle}
      (taker : c.takers[i]? = some ⟨k, make, .asked⟩) (hkept : c.cache.find? k = kept) :
      Read (moves ++ [.goOn i]) i k kept :=
    ⟨moves, [], make, rfl, hc.run ▸ taker, hc.run ▸ hkept⟩
  cases h with
  | found taker enabled kept => exact ⟨_, rfl, .found (reads taker kept) kept⟩
  | absent taker enabled absent => exact ⟨_, rfl, .missed (reads taker absent)⟩
  | unshared taker disabled => cases hc.enabled.symm.trans disabled
  | hit taker =>
    cases hc.fair _ _ taker with
    | found read kept => exact ⟨_, rfl, .hit (read.append _) kept⟩
  | miss taker =>
    cases hc.fair _ _ taker with
    | missed read => exact ⟨_, rfl, .making (read.append _)⟩
  | failed taker =>
    cases hc.fair _ _ taker with
    | making read => exact ⟨_, rfl, .failed (read.append _)⟩
  | made taker enabled =>
    cases hc.fair _ _ taker with
    | making read => exact ⟨_, rfl, .made (read.append _)⟩
  | unkept taker disabled => cases hc.enabled.symm.trans disabled
  | rivalled taker kept =>
    cases hc.fair _ _ taker with
    | made read => exact ⟨_, rfl, .miss (read.append _) kept⟩
  | inserted taker absent =>
    cases hc.fair _ _ taker with
    | made read => exact ⟨_, rfl, .miss (read.append _) List.lookup_cons_self⟩

theorem Step.fair (h : c.Step i c') (hc : Sound moves c) :
    ∀ (j : Nat) t, c'.takers[j]? = some t → Fair (moves ++ [.goOn i]) c'.cache j t := by
  intro j t ht
  by_cases hij : i = j
  · subst hij
    obtain ⟨b, htakers, hfair⟩ := h.fair_own hc
    rw [htakers, List.getElem?_set] at ht
    simp only [if_true] at ht
    split at ht
    · obtain rfl := Option.some.inj ht
      exact hfair
    · cases ht
  · rw [h.others hij] at ht
    exact (hc.fair j t ht).mono h.grows _

theorem Step.origin (h : c.Step i c') (hc : Sound moves c) (k : MemberKey) (a : Handle)
    (hk : c'.cache.find? k = some a) :
    ∃ j : Nat, c'.takers[j]? = some ⟨k, .ok a, .answered (.ok (a, false))⟩ := by
  -- an answer stands at a call that is over, so the step is one of another call
  have hstays (hold : c.cache.find? k = some a) :
      ∃ j : Nat, c'.takers[j]? = some ⟨k, .ok a, .answered (.ok (a, false))⟩ := by
    obtain ⟨j, hj⟩ := hc.origin k a hold
    obtain ⟨b, b', hb, -, -, hless⟩ := h.taker
    have hij : i ≠ j := by
      rintro rfl
      obtain rfl := Option.some.inj (hj.symm.trans hb)
      exact Nat.not_lt_zero _ hless
    exact ⟨j, by rw [h.others hij, hj]⟩
  cases h with
  | @inserted k' make a' taker absent =>
    rcases lookup_cons_cases hk with ⟨rfl, rfl⟩ | hold
    · cases hc.fair _ _ taker with
      | made read => exact ⟨i, List.getElem?_set_self (List.getElem?_eq_some_iff.1 taker).1⟩
    · exact hstays hold
  | _ => exact hstays hk

theorem countP_set_add {p : Taker → Bool} {l : List Taker} {a : Taker} (b : Taker)
    (h : l[i]? = some a) : (l.set i b).countP p + (p a).toNat = l.countP p + (p b).toNat := by
  obtain ⟨hi, rfl⟩ := List.getElem?_eq_some_iff.1 h
  have hle := List.boole_getElem_le_countP (p := p) hi
  rw [List.countP_set hi]
  generalize p l[i] = before at hle ⊢
  generalize p b = after
  cases before <;> cases after <;>
    simp only [Bool.false_eq_true, if_false, if_true, Bool.toNat_false, Bool.toNat_true] at hle ⊢ <;>
    omega

/-- The counters count what the call that made the step has come to be counted as. -/
theorem Step.counts (h : c.Step i c') (henabled : c.cache.enabled = true) :
    ∃ a b, c.takers[i]? = some a ∧ c'.takers = c.takers.set i b ∧
      c'.cache.hits + a.isHit.toNat = c.cache.hits + b.isHit.toNat ∧
      c'.cache.misses + a.isMiss.toNat = c.cache.misses + b.isMiss.toNat := by
  cases h with
  | found taker enabled kept => exact ⟨_, _, taker, rfl, rfl, rfl⟩
  | absent taker enabled absent => exact ⟨_, _, taker, rfl, rfl, rfl⟩
  | unshared taker disabled => cases henabled.symm.trans disabled
  | hit taker => exact ⟨_, _, taker, rfl, rfl, rfl⟩
  | miss taker => exact ⟨_, _, taker, rfl, rfl, rfl⟩
  | failed taker => exact ⟨_, _, taker, rfl, rfl, rfl⟩
  | made taker enabled => exact ⟨_, _, taker, rfl, rfl, rfl⟩
  | unkept taker disabled => cases henabled.symm.trans disabled
  | rivalled taker kept => exact ⟨_, _, taker, rfl, rfl, rfl⟩
  | inserted taker absent => exact ⟨_, _, taker, rfl, rfl, rfl⟩

theorem Step.hits_misses (h : c.Step i c') (hc : Sound moves c) :
    c'.cache.hits = c'.takers.countP Taker.isHit ∧
      c'.cache.misses = c'.takers.countP Taker.isMiss := by
  obtain ⟨a, b, htaker, htakers, hhits, hmisses⟩ := h.counts hc.enabled
  have hhit := countP_set_add (p := Taker.isHit) b htaker
  have hmiss := countP_set_add (p := Taker.isMiss) b htaker
  have holdhits := hc.hits
  have holdmisses := hc.misses
  rw [htakers]
  omega

/-- A call that begins has read and counted nothing yet. -/
theorem Sound.ask (hc : Sound moves c) (k : MemberKey) (make : Except Error Handle) :
    Sound (moves ++ [.ask k make]) { c with takers := c.takers ++ [⟨k, make, .asked⟩] } where
  run := by rw [run_append, ← hc.run]; rfl
  enabled := hc.enabled
  nodup := hc.nodup
  fair i t ht := by
    dsimp only at ht
    rw [List.getElem?_append] at ht
    split at ht
    · exact (hc.fair i t ht).mono ⟨rfl, fun _ _ h => h⟩ _
    · obtain rfl := List.mem_singleton.1 (List.mem_of_getElem? ht)
      exact .asked k make
  origin k' h hk := by
    obtain ⟨i, hi⟩ := hc.origin k' h hk
    exact ⟨i, by rw [List.getElem?_append_left (List.getElem?_eq_some_iff.1 hi).1, hi]⟩
  hits := by
    rw [List.countP_append]
    exact hc.hits
  misses := by
    rw [List.countP_append]
    exact hc.misses

theorem Sound.move (hc : Sound moves c) (m : Move) : Sound (moves ++ [m]) (c.move m) := by
  have hrun : c.move m = start.run (moves ++ [m]) := by
    rw [run_append, ← hc.run]
    rfl
  rcases c.move_cases m with ⟨k, make, rfl, hmove⟩ | ⟨i, rfl, hstep | ⟨-, hmove⟩⟩
  · rw [hmove]
    exact hc.ask k make
  · exact ⟨hrun, hstep.grows.enabled.trans hc.enabled, hstep.nodup hc.nodup, hstep.fair hc,
      hstep.origin hc, (hstep.hits_misses hc).1, (hstep.hits_misses hc).2⟩
  · rw [hmove] at hrun ⊢
    exact ⟨hrun, hc.enabled, hc.nodup, fun i t ht => (hc.fair i t ht).mono ⟨rfl, fun _ _ h => h⟩ _,
      hc.origin, hc.hits, hc.misses⟩

theorem sound_run (moves : List Move) : Sound moves (start.run moves) := by
  induction moves using List.reverseRecOn with
  | nil => exact sound_start
  | append_singleton moves m ih =>
    have hmove : start.run (moves ++ [m]) = (start.run moves).move m := by
      rw [run_append]
      rfl
    exact hmove ▸ ih.move m

/-! ## A call that nobody disturbs -/

/-- The moves of a call alone. -/
def alone (k : MemberKey) (make : Except Error Handle) : List Move :=
  .ask k make :: List.replicate 4 (.goOn 0)

section Alone

variable {c : MemberCache} {k : MemberKey} {h : Handle} (make : Except Error Handle)

theorem run_alone_found (henabled : c.enabled = true) (hfind : c.find? k = some h) :
    (on c).run (alone k make) = ⟨c.countHit, [⟨k, make, .answered (.ok (h, true))⟩]⟩ := by
  simp [alone, run, move, on, goOn?, advance, henabled, hfind]

theorem run_alone_missed (henabled : c.enabled = true) (hfind : c.find? k = none) :
    (on c).run (alone k make) =
      ⟨match make with
        | .ok h => (c.countMiss.insertIfAbsent k h).2
        | .error _ => c.countMiss, [⟨k, make, .answered (make.map (·, false))⟩]⟩ := by
  have hcounted : c.countMiss.find? k = none := hfind
  have hstays : c.countMiss.enabled = true := henabled
  cases make with
  | ok h =>
    simp [alone, run, move, on, goOn?, advance, henabled, hfind, hstays, hcounted, insertIfAbsent,
      Except.map]
  | error e => simp [alone, run, move, on, goOn?, advance, henabled, hfind, Except.map]

theorem run_alone_disabled (hdisabled : c.enabled = false) :
    (on c).run (alone k make) = ⟨c, [⟨k, make, .answered (make.map (·, false))⟩]⟩ := by
  cases make <;> simp [alone, run, move, on, goOn?, advance, hdisabled, Except.map]

end Alone

/-- A call that nobody disturbs, with a maker that leaves the cache to others, is `Lookup.cached`. -/
theorem run_alone (m : Machine) (key : MemberKey) {make : Link Handle}
    (hmake : ∀ n, (make.start n).2.members = n.members) :
    let made := (make.start
      (if m.members.enabled then { m with members := m.members.countMiss } else m)).1
    ∃ answer, (on m.members).run (alone key made) =
        ⟨((Lookup.cached key make).start m).2.members, [⟨key, made, .answered answer⟩]⟩ ∧
      answer.map Prod.fst = ((Lookup.cached key make).start m).1 := by
  cases henabled : m.members.enabled with
  | false =>
    have hm := hmake m
    rw [if_neg (by decide)]
    refine ⟨(make.start m).1.map (·, false), (run_alone_disabled _ henabled).trans ?_, ?_⟩
    · cases hstart : make m <;>
        simp_all [Link.start, Lookup.cached, Machine.report]
    · cases hstart : make m <;> simp [Link.start, Lookup.cached, henabled, hstart, Except.map]
  | true =>
    rw [if_pos rfl]
    cases hfind : m.members.find? key with
    | some h =>
      obtain ⟨hanswer, hmembers⟩ := Lookup.cached_of_find? make henabled hfind
      rw [hanswer, hmembers]
      exact ⟨_, run_alone_found _ henabled hfind, rfl⟩
    | none =>
      have hm := hmake { m with members := m.members.countMiss }
      have hread : m.members.read key = (none, m.members.countMiss) := by
        rw [read, hfind]
        rfl
      refine ⟨(make.start { m with members := m.members.countMiss }).1.map (·, false),
        (run_alone_missed _ henabled hfind).trans ?_, ?_⟩
      · cases hstart : make { m with members := m.members.countMiss } <;>
          simp_all [Link.start, Lookup.cached, Machine.report]
      · have hcounted : m.members.countMiss.find? key = none := hfind
        cases hstart : make { m with members := m.members.countMiss } <;>
          simp_all [Link.start, Lookup.cached, Except.map, insertIfAbsent]

/-! ## The guarantee -/

theorem Sound.of_answered {k : MemberKey} {h : Handle} {hit : Bool} (hc : Sound moves c)
    (hanswered : c.Answered i k (.ok (h, hit))) :
    c.cache.find? k = some h ∧
      ∀ kept, Read moves i k kept ↔ kept = if hit then some h else none := by
  have exactly {kept : Option Handle} (read : Read moves i k kept) (kept' : Option Handle) :
      Read moves i k kept' ↔ kept' = kept :=
    ⟨fun read' => read'.unique read, fun heq => heq ▸ read⟩
  obtain ⟨make, htaker⟩ := hanswered
  cases hc.fair _ _ htaker with
  | hit read kept => exact ⟨kept, exactly read⟩
  | miss read kept => exact ⟨kept, exactly read⟩

/-- A call fails with the error of its own maker only. -/
theorem Sound.own_error {k : MemberKey} {e : Error} (hc : Sound moves c)
    (hanswered : c.Answered i k (.error e)) :
    c.takers[i]? = some ⟨k, .error e, .answered (.error e)⟩ := by
  obtain ⟨make, htaker⟩ := hanswered
  cases hc.fair _ _ htaker with
  | failed read => exact htaker

/-- A call whose maker fails ends with the error. -/
theorem answered_of_failing {k : MemberKey} {e : Error}
    (htaker : c.takers[i]? = some ⟨k, .error e, .making⟩) :
    (c.move (.goOn i)).Answered i k (.error e) := by
  have hmove : c.move (.goOn i) = (c.goOn? i).getD c := rfl
  refine ⟨.error e, ?_⟩
  rw [hmove, goOn?, htaker]
  exact List.getElem?_set_self (List.getElem?_eq_some_iff.1 htaker).1

/-- No step of a call whose maker fails changes the table, or another call. -/
theorem Sound.failing {k : MemberKey} {e : Error} {stage : Stage} (hc : Sound moves c)
    (htaker : c.takers[i]? = some ⟨k, .error e, stage⟩) :
    (c.move (.goOn i)).cache.entries = c.cache.entries ∧
      ∀ j, i ≠ j → (c.move (.goOn i)).takers[j]? = c.takers[j]? := by
  rcases c.move_cases (.goOn i) with ⟨k', make, hmove, -⟩ | ⟨i', hmove, hstep | ⟨-, hsame⟩⟩
  · cases hmove
  · obtain rfl := Move.goOn.inj hmove
    refine ⟨?_, fun j hij => hstep.others hij⟩
    generalize c.move (.goOn i) = c' at hstep
    cases hstep with
    | inserted taker absent =>
      cases hc.fair _ _ taker with
      | made read => cases Option.some.inj (htaker.symm.trans taker)
    | _ => rfl
  · rw [hsame]
    exact ⟨rfl, fun _ _ => rfl⟩

/-- Where all calls are over, the keys in the table are those that a maker has made a handle for. -/
theorem Sound.isSome_find?_iff (hc : Sound moves c) (hover : ∀ t ∈ c.takers, t.isOver = true)
    (k : MemberKey) : (c.cache.find? k).isSome = true ↔
      k ∈ (c.takers.filter Taker.succeeded).map Taker.key := by
  simp only [List.mem_map, List.mem_filter]
  constructor
  · intro hsome
    obtain ⟨h, hh⟩ := Option.isSome_iff_exists.1 hsome
    obtain ⟨i, hi⟩ := hc.origin k h hh
    exact ⟨_, ⟨List.mem_of_getElem? hi, rfl⟩, rfl⟩
  · rintro ⟨t, ⟨ht, hsucceeded⟩, rfl⟩
    obtain ⟨i, hi⟩ := List.mem_iff_getElem?.1 ht
    have hthis := hover t ht
    cases hc.fair i t hi with
    | miss read kept => exact Option.isSome_of_eq_some kept
    | made read => cases hthis
    | _ => cases hsucceeded

theorem Sound.size_eq (hc : Sound moves c) (hover : ∀ t ∈ c.takers, t.isOver = true) :
    c.cache.size = ((c.takers.filter Taker.succeeded).map Taker.key).dedup.length := by
  have hperm : (c.cache.entries.map Prod.fst).Perm
      ((c.takers.filter Taker.succeeded).map Taker.key).dedup := by
    refine (List.perm_ext_iff_of_nodup hc.nodup (List.nodup_dedup _)).2 fun k => ?_
    rw [List.mem_dedup, ← MemberCache.isSome_find?_iff, hc.isSome_find?_iff hover]
  rw [← hperm.length_eq, List.length_map, size]

theorem Sound.hits_add_misses (hc : Sound moves c) (hover : ∀ t ∈ c.takers, t.isOver = true) :
    c.cache.hits + c.cache.misses = c.takers.length := by
  have hmisses : c.takers.countP Taker.isMiss = c.takers.countP fun t => !t.isHit :=
    List.countP_congr fun t ht => by rw [Taker.isMiss_of_isOver (hover t ht)]
  rw [hc.hits, hc.misses, hmisses, List.length_eq_countP_add_countP Taker.isHit]
  simp

/-- **The member cache hands out one handle for a key, however the calls for it take turns.** At any
moment of any run of any calls that began at an empty cache in use: what a call was answered is the handle
that is kept under its key, and what is kept stays, so that calls answered for one key, now or at any later
moment, were answered one handle. What is kept was made for a call for that key, by its own maker, and was
inserted by that call; no key is kept twice, and the table changes only by new entries.

A step of a call whose maker fails changes neither the table nor another call, and a call fails with the
error of its own maker only. A call was a hit exactly if there was something under its key when it read the
table. Where all calls are over, hits and misses add up to the calls, and what is kept are as many handles
as there are keys for which a maker made one. Four steps of its own bring any call to its end. -/
theorem shares_one_handle (before between : List Move) :
    let now := start.run before
    let later := now.run between
    (∀ i k h hit, now.Answered i k (.ok (h, hit)) → now.cache.find? k = some h) ∧
    (∀ k h, now.cache.find? k = some h → later.cache.find? k = some h ∧
      ∃ i : Nat, now.takers[i]? = some ⟨k, .ok h, .answered (.ok (h, false))⟩) ∧
    (∀ i j k h h' hit hit', now.Answered i k (.ok (h, hit)) → later.Answered j k (.ok (h', hit')) →
      h' = h) ∧
    (now.cache.entries <:+ later.cache.entries ∧ (now.cache.entries.map Prod.fst).Nodup) ∧
    (∀ (i : Nat) k e stage, now.takers[i]? = some ⟨k, .error e, stage⟩ →
      (now.move (.goOn i)).cache.entries = now.cache.entries ∧
        ∀ j, i ≠ j → (now.move (.goOn i)).takers[j]? = now.takers[j]?) ∧
    (∀ i k e, now.takers[i]? = some ⟨k, .error e, .making⟩ →
      (now.move (.goOn i)).Answered i k (.error e)) ∧
    (∀ i k e, now.Answered i k (.error e) →
      now.takers[i]? = some ⟨k, .error e, .answered (.error e)⟩) ∧
    (∀ i k h hit, now.Answered i k (.ok (h, hit)) →
      ∀ kept, Read before i k kept ↔ kept = if hit then some h else none) ∧
    ((∀ t ∈ now.takers, t.isOver = true) →
      now.cache.hits + now.cache.misses = now.takers.length ∧
        now.cache.size = ((now.takers.filter Taker.succeeded).map Taker.key).dedup.length) ∧
    ∀ i k, now.Asks i k → (List.replicate 4 (Move.goOn i)).Sublist between →
      ∃ answer, later.Answered i k answer := by
  intro now later
  have hc : Sound before now := sound_run before
  have hlater : Sound (before ++ between) later := by
    have hrun : later = start.run (before ++ between) := (run_append ..).symm
    exact hrun ▸ sound_run _
  obtain ⟨hgrows, hsuffix⟩ := now.grows_run between
  refine ⟨fun i k h hit hi => (hc.of_answered hi).1,
    fun k h hk => ⟨hgrows.find? k h hk, hc.origin k h hk⟩, fun i j k h h' hit hit' hi hj => ?_,
    ⟨hsuffix, hc.nodup⟩, fun i k e stage hi => hc.failing hi, fun i k e hi => answered_of_failing hi,
    fun i k e hi => hc.own_error hi, fun i k h hit hi => (hc.of_answered hi).2, fun hover =>
      ⟨hc.hits_add_misses hover, hc.size_eq hover⟩, fun i k hi hown => hi.answered_run hown⟩
  have hkept := hgrows.find? k h (hc.of_answered hi).1
  exact Option.some.inj ((hlater.of_answered hj).1.symm.trans hkept)

/-- Three calls for one key find nothing. The makers of two make a handle each, and the second is the
first to insert its own; the maker of the third fails. A fourth call is a hit. -/
def rivals (k : MemberKey) (a b : Handle) (e : Error) : List Move :=
  [.ask k (.ok a), .ask k (.ok b), .ask k (.error e), .goOn 0, .goOn 1, .goOn 2, .goOn 0, .goOn 0,
    .goOn 2, .goOn 2, .goOn 1, .goOn 1, .goOn 1, .goOn 0, .ask k (.ok a), .goOn 3, .goOn 3]

theorem run_rivals (k : MemberKey) (a b : Handle) (e : Error) : start.run (rivals k a b e) =
    ⟨⟨true, [(k, b)], 1, 3⟩, [⟨k, .ok a, .answered (.ok (b, false))⟩,
      ⟨k, .ok b, .answered (.ok (b, false))⟩, ⟨k, .error e, .answered (.error e)⟩,
      ⟨k, .ok a, .answered (.ok (b, true))⟩]⟩ := by
  simp [rivals, run, move, start, on, goOn?, advance, find?, insertIfAbsent, countHit, countMiss,
    empty]

/-- All that succeed are answered the handle of the second; only the fourth call has found it there when it
read the table, and there is one entry for the four calls. -/
theorem shares_one_handle_of_rivals :
    let type : Signature := ⟨[.prim .int], .prim .int, by decide, by decide⟩
    let k : MemberKey := ⟨ClassId.object, "m", type, .invokeStatic⟩
    let a : Handle := ⟨0, type, .identity⟩
    let b : Handle := ⟨2, type, .identity⟩
    let moves := rivals k a b .throwNull
    let now := start.run moves
    now.Answered 0 k (.ok (b, false)) ∧ now.Answered 2 k (.error .throwNull) ∧
      (∀ i h hit, now.Answered i k (.ok (h, hit)) → h = b) ∧
      Read moves 3 k (some b) ∧ ¬ Read moves 0 k (some b) ∧
      now.cache.hits + now.cache.misses = 4 ∧
      ((now.takers.filter Taker.succeeded).map Taker.key).dedup.length = 1 := by
  intro type k a b moves now
  have hnow : start.run moves = _ := run_rivals k a b .throwNull
  have hfirst : (start.run moves).Answered 0 k (.ok (b, false)) := ⟨.ok a, by rw [hnow]; rfl⟩
  have hthird : (start.run moves).Answered 2 k (.error .throwNull) :=
    ⟨.error .throwNull, by rw [hnow]; rfl⟩
  have hfourth : (start.run moves).Answered 3 k (.ok (b, true)) := ⟨.ok a, by rw [hnow]; rfl⟩
  have hover : ∀ t ∈ (start.run moves).takers, t.isOver = true := by
    rw [hnow]
    intro t ht
    simp only [List.mem_cons, List.not_mem_nil, or_false] at ht
    rcases ht with rfl | rfl | rfl | rfl <;> rfl
  obtain ⟨-, -, hone, -, -, -, -, hread, hcount, -⟩ := shares_one_handle moves []
  simp only [run_nil] at hone
  obtain ⟨hsum, hsize⟩ := hcount hover
  refine ⟨hfirst, hthird, fun i h hit hi => hone 0 i k b h _ _ hfirst hi,
    (hread 3 k b true hfourth _).2 rfl, fun h => ?_, ?_, ?_⟩
  · cases (hread 0 k b false hfirst _).1 h
  · show now.cache.hits + now.cache.misses = 4
    rw [hsum, hnow]
    rfl
  · rw [← hsize, hnow]
    rfl

end Sharing

end HandleCalculus.MemberCache
