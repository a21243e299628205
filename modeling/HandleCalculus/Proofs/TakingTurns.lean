import Mathlib.Data.List.Basic

/-!
# Calls that take turns

Where many calls are under way at once, a move either begins a call or is a step of one of them (`Turn`).
Each call has a number of steps left, of which a step of its own takes away at least one and those of
others none (`later_of_turns`). So as many steps of its own as it can have left bring it to its end,
however the others take their turns in between (`over_of_turns`), and there it stays.
-/

set_option autoImplicit false

namespace HandleCalculus

variable {α β σ μ : Type} {tag : α → β} {left : α → Nat}

/-- What a move may do to the calls: one begins; the call whose turn it is takes a step, after which it
has fewer left; or that call is over, and nothing changes. What a call is for, its tag, stays. -/
inductive Turn (tag : α → β) (left : α → Nat) : Option Nat → List α → List α → Prop where
  | begins (calls : List α) (a : α) : Turn tag left none calls (calls ++ [a])
  | goesOn {calls : List α} {i : Nat} {a b : α} (call : calls[i]? = some a) (same : tag b = tag a)
      (less : left b < left a) : Turn tag left (some i) calls (calls.set i b)
  | stays {calls : List α} {i : Nat} (ended : ∀ a, calls[i]? = some a → left a = 0) :
    Turn tag left (some i) calls calls

/-- What a move makes of a call: it has no more steps left than before, and fewer if it was its turn. -/
theorem Turn.later {calls calls' : List α} {turn : Option Nat} {j : Nat} {a : α}
    (h : Turn tag left turn calls calls') (hcall : calls[j]? = some a) :
    ∃ b, calls'[j]? = some b ∧ tag b = tag a ∧ left b ≤ left a ∧
      (turn = some j → left b ≤ left a - 1) ∧ (left a = 0 → b = a) := by
  have hj := (List.getElem?_eq_some_iff.1 hcall).1
  cases h with
  | begins calls c =>
    exact ⟨a, by rw [List.getElem?_append_left hj, hcall], rfl, Nat.le_refl _, nofun, fun _ => rfl⟩
  | @goesOn _ i a' b call same less =>
    by_cases hij : i = j
    · subst hij
      obtain rfl : a = a' := Option.some.inj (hcall.symm.trans call)
      exact ⟨b, List.getElem?_set_self hj, same, by omega, fun _ => by omega, fun hzero => by omega⟩
    · refine ⟨a, by rw [List.getElem?_set_ne hij, hcall], rfl, Nat.le_refl _, fun hturn => ?_,
        fun _ => rfl⟩
      exact absurd (Option.some.inj hturn) hij
  | stays ended =>
    refine ⟨a, hcall, rfl, Nat.le_refl _, fun hturn => ?_, fun _ => rfl⟩
    obtain rfl := Option.some.inj hturn
    exact ended a hcall ▸ Nat.zero_le _

/-- A call has no more steps left than it had, less its own turns among the moves; once it is over, it
stays as it is. -/
theorem later_of_turns {move : σ → μ → σ} {calls : σ → List α} {turn : μ → Option Nat}
    (hturn : ∀ c m, Turn tag left (turn m) (calls c) (calls (move c m))) {own : μ} {j : Nat}
    (hown : turn own = some j) {c : σ} {a : α} (hcall : (calls c)[j]? = some a) {n : Nat}
    {moves : List μ} (hmoves : (List.replicate n own).Sublist moves) :
    ∃ b, (calls (moves.foldl move c))[j]? = some b ∧ tag b = tag a ∧ left b ≤ left a - n ∧
      (left a = 0 → b = a) := by
  induction moves generalizing c a n with
  | nil =>
    obtain rfl : n = 0 := by simpa using hmoves.length_le
    exact ⟨a, hcall, rfl, Nat.le_refl _, fun _ => rfl⟩
  | cons m moves ih =>
    obtain ⟨a', hcall', htag, hle, hless, hsame⟩ := (hturn c m).later hcall
    have hover {b : α} (hb : left a' = 0 → b = a') (hzero : left a = 0) : b = a := by
      obtain rfl := hsame hzero
      exact hb hzero
    cases n with
    | zero =>
      obtain ⟨b, hb, hbtag, hbleft, hbsame⟩ := ih (n := 0) hcall' (List.nil_sublist _)
      exact ⟨b, hb, hbtag.trans htag, by omega, hover hbsame⟩
    | succ n =>
      rcases List.sublist_cons_iff.1 hmoves with hrest | ⟨rest, heq, hrest⟩
      · obtain ⟨b, hb, hbtag, hbleft, hbsame⟩ := ih hcall' hrest
        exact ⟨b, hb, hbtag.trans htag, by omega, hover hbsame⟩
      · obtain ⟨rfl, rfl⟩ := List.cons.inj heq
        obtain ⟨b, hb, hbtag, hbleft, hbsame⟩ := ih hcall' hrest
        have hturned := hless hown
        exact ⟨b, hb, hbtag.trans htag, by omega, hover hbsame⟩

/-- As many turns of its own as it has steps left bring a call to its end. -/
theorem over_of_turns {move : σ → μ → σ} {calls : σ → List α} {turn : μ → Option Nat}
    (hturn : ∀ c m, Turn tag left (turn m) (calls c) (calls (move c m))) {own : μ} {j : Nat}
    (hown : turn own = some j) {c : σ} {a : α} (hcall : (calls c)[j]? = some a) {n : Nat}
    (hn : left a ≤ n) {moves : List μ} (hmoves : (List.replicate n own).Sublist moves) :
    ∃ b, (calls (moves.foldl move c))[j]? = some b ∧ tag b = tag a ∧ left b = 0 := by
  obtain ⟨b, hb, htag, hleft, -⟩ := later_of_turns hturn hown hcall hmoves
  exact ⟨b, hb, htag, Nat.le_zero.1 (Nat.sub_eq_zero_of_le hn ▸ hleft)⟩

end HandleCalculus
