import HandleCalculus.Proofs.DroppedArguments

/-!
# What filters and folds accept

A combinator that changes several parameters goes from signature to signature, and each on the way must be
one: filters are put on one after the other, and what `collectArguments` makes is a fold of a target that
has been given the parameters of the filter beside its own. So beside that the filters fit, success asks
that no signature on the way takes too many slots, not only the last one
(`Handle.filterArguments_succeeds_iff`, `Handle.collectArguments_succeeds_iff`). For a filter that answers
nothing the last one is the largest; one that answers a value needs room for its parameters and for the
parameter that they replace.
-/

set_option autoImplicit false

namespace HandleCalculus

/-! ## Slots -/

theorem slotCount_le_of_sublist {ts us : List Ty} (h : ts.Sublist us) : slotCount ts ≤ slotCount us := by
  induction h with
  | slnil => exact Nat.le_refl _
  | cons t _ ih =>
    rw [slotCount_cons]
    omega
  | cons_cons t _ ih =>
    rw [slotCount_cons, slotCount_cons]
    omega

/-- What is put in between adds its slots. -/
theorem slotCount_inserted (ts us : List Ty) (n : Nat) :
    slotCount (ts.take n ++ us ++ ts.drop n) = slotCount ts + slotCount us := by
  have hsplit : slotCount ts = slotCount (ts.take n) + slotCount (ts.drop n) := by
    rw [← slotCount_append, List.take_append_drop]
  rw [slotCount_append, slotCount_append, hsplit]
  omega

/-- Parameters can be put in as long as there are slots for them. -/
theorem Signature.exists_insertParams_iff (s : Signature) {i : Nat} {ts : List Ty} (hts : Ty.void ∉ ts) :
    (∃ t, s.insertParams i ts = .ok t) ↔
      i ≤ s.arity ∧ s.slots + slotCount ts ≤ maxArgumentSlots := by
  have hvoid : Ty.void ∉ s.params.take i ++ ts ++ s.params.drop i := by
    simp only [List.mem_append, not_or]
    exact ⟨⟨fun h => s.noVoid (List.mem_of_mem_take h), hts⟩,
      fun h => s.noVoid (List.mem_of_mem_drop h)⟩
  unfold insertParams
  by_cases hi : i ≤ s.arity
  · rw [if_pos hi, exists_of_iff, and_iff_right hvoid, slotCount_inserted, and_iff_right hi]
    rfl
  · rw [if_neg hi]
    exact ⟨nofun, fun h => absurd h.1 hi⟩

/-- Parameters can always be taken out. -/
theorem Signature.exists_dropParams (s : Signature) {start stop : Nat} (hstart : start ≤ stop)
    (hstop : stop ≤ s.arity) : ∃ t, s.dropParams start stop = .ok t := by
  have hsub : (s.params.take start ++ s.params.drop stop).Sublist s.params := by
    have hdrop : (s.params.drop stop).Sublist (s.params.drop start) :=
      List.drop_sublist_drop_left s.params hstart
    have hsplit := (List.Sublist.refl (s.params.take start)).append hdrop
    rwa [List.take_append_drop] at hsplit
  unfold dropParams
  rw [if_pos ⟨hstart, hstop⟩]
  exact exists_of_iff.2 ⟨fun hvoid => s.noVoid (hsub.subset hvoid),
    Nat.le_trans (slotCount_le_of_sublist hsub) s.slots_le⟩

/-! ## Filters -/

/-- The parameters that filters take in place of those that they are put on, from the first on. -/
def Filters.params : List (Option Handle) → List Ty → List Ty
  | [], ts => ts
  | _ :: _, [] => []
  | none :: fs, t :: ts => t :: Filters.params fs ts
  | some f :: fs, _ :: ts => f.type.param 0 :: Filters.params fs ts

/-- Whether filters can be put on parameters: each takes one argument and answers what the parameter is. -/
def Filters.Fit : List (Option Handle) → List Ty → Prop
  | [], _ => True
  | none :: fs, _ :: ts => Filters.Fit fs ts
  | some f :: fs, t :: ts => f.type.arity = 1 ∧ f.type.ret = t ∧ Filters.Fit fs ts
  | _ :: _, [] => False

/-- The parameters of a signature once filters have been put on those from `pos` on. -/
def Signature.filtered (s : Signature) (pos : Nat) (fs : List (Option Handle)) : List Ty :=
  s.params.take pos ++ Filters.params fs (s.params.drop pos)

theorem Filters.params_of_types {fs : List (Option Handle)} {ps ts : List Ty}
    (h : Filters.types fs ps ts) : ps = Filters.params fs ts := by
  induction fs generalizing ps ts with
  | nil => simpa [Filters.types, Filters.params] using h
  | cons f fs ih =>
    cases ts with
    | nil => cases ps <;> cases f <;> simp [Filters.types] at h
    | cons t ts =>
      cases ps with
      | nil => cases f <;> simp [Filters.types] at h
      | cons p ps =>
        cases f with
        | none =>
          obtain ⟨rfl, hrest⟩ := h
          rw [Filters.params, ih hrest]
        | some f =>
          obtain ⟨hp, -, hrest⟩ := h
          rw [Filters.params, ih hrest, Signature.param, hp]
          rfl

namespace Signature

variable {s t : Signature} {pos : Nat} {fs : List (Option Handle)}

theorem filtered_nil (s : Signature) (pos : Nat) : s.filtered pos [] = s.params := by
  simp [filtered, Filters.params]

/-- Where there is no filter, it is the parameters behind that are filtered. -/
theorem filtered_none (h : pos < s.arity) :
    s.filtered pos (none :: fs) = s.filtered (pos + 1) fs := by
  have h : pos < s.params.length := h
  unfold filtered
  rw [List.drop_eq_getElem_cons h, Filters.params, List.take_succ_eq_append_getElem h,
    List.append_assoc, List.singleton_append]

/-- A filter changes its parameter, then those behind are filtered. -/
theorem filtered_some {f : Handle} (ht : s.changeParam pos (f.type.param 0) = .ok t) :
    s.filtered pos (some f :: fs) = t.filtered (pos + 1) fs := by
  obtain ⟨h, -, hparams⟩ := changeParam_eq_ok_iff.1 ht
  have h : pos < s.params.length := h
  have htake : t.params.take (pos + 1) = s.params.take pos ++ [f.type.param 0] := by
    rw [hparams, List.take_succ_eq_append_getElem (by simpa using h)]
    simp [List.take_set_of_le]
  have hdrop : t.params.drop (pos + 1) = s.params.drop (pos + 1) := by
    rw [hparams, List.drop_set_of_lt (Nat.lt_succ_self pos)]
  unfold filtered
  rw [List.drop_eq_getElem_cons h, Filters.params, htake, hdrop, List.append_assoc,
    List.singleton_append]

/-- A filter can be put on a parameter if the signature then does not take too many slots. -/
theorem exists_changeParam_iff {f : Handle} (h : pos < s.arity) (hf : f.type.arity = 1) :
    (∃ t, s.changeParam pos (f.type.param 0) = .ok t) ↔
      slotCount (s.filtered pos [some f]) ≤ maxArgumentSlots := by
  have hlt : pos < s.params.length := h
  have hset : s.params.set pos (f.type.param 0) = s.filtered pos [some f] := by
    unfold filtered
    rw [List.drop_eq_getElem_cons hlt, Filters.params, Filters.params]
    exact List.set_eq_take_cons_drop (f.type.param 0) hlt
  have hvoid : Ty.void ∉ s.params.set pos (f.type.param 0) := by
    intro hmem
    rcases List.mem_or_eq_of_mem_set hmem with hmem | hparam
    · exact s.noVoid hmem
    · obtain ⟨p, hp⟩ := List.length_eq_one_iff.1 hf
      refine f.type.noVoid ?_
      rw [hparam, param, hp]
      exact List.mem_singleton.2 rfl
  unfold changeParam
  rw [if_pos h, exists_of_iff, hset, and_iff_right (hset ▸ hvoid)]

/-- The first filter is on in all signatures on the way but the one at the start. -/
theorem slots_filtered_cons {f : Option Handle} :
    (∀ n ≤ (f :: fs).length, slotCount (s.filtered pos ((f :: fs).take n)) ≤ maxArgumentSlots) ↔
      ∀ n ≤ fs.length, slotCount (s.filtered pos (f :: fs.take n)) ≤ maxArgumentSlots := by
  constructor
  · intro h n hn
    exact h (n + 1) (by simpa using hn)
  · intro h n hn
    cases n with
    | zero =>
      rw [List.take_zero, filtered_nil]
      exact s.slots_le
    | succ n => exact h n (by simpa using hn)

end Signature

namespace Handle

variable {s : Stamp} {h k f : Handle} {pos : Nat} {filters : List (Option Handle)}

/-- The signatures on the way to that of a filtered handle exist exactly if the filters fit and none of
them takes too many slots. -/
theorem filteredType_succeeds_iff {old acc : Signature} {i : Nat}
    (hlength : pos + i + filters.length ≤ old.arity)
    (hdrop : acc.params.drop (pos + i) = old.params.drop (pos + i)) :
    (∃ new, filteredType old pos i filters acc = .ok new) ↔
      Filters.Fit filters (old.params.drop (pos + i)) ∧ ∀ n ≤ filters.length,
        slotCount (acc.filtered (pos + i) (filters.take n)) ≤ maxArgumentSlots := by
  -- from the left, as the signatures are made: from place `pos + i` on, `acc` is still `old`
  induction filters generalizing i acc with
  | nil =>
    constructor
    · intro _
      refine ⟨trivial, fun n _ => ?_⟩
      rw [List.take_nil, Signature.filtered_nil]
      exact acc.slots_le
    · intro _
      exact ⟨acc, rfl⟩
  | cons f fs ih =>
    rw [List.length_cons] at hlength
    have hlt : pos + i < old.params.length := by
      show pos + i < old.arity
      omega
    have hacc : pos + i < acc.arity := by
      have hrest := congrArg List.length hdrop
      rw [List.length_drop, List.length_drop] at hrest
      show pos + i < acc.params.length
      omega
    have hstep : ∀ {ps : List Ty}, ps.drop (pos + i) = old.params.drop (pos + i) →
        ps.drop (pos + (i + 1)) = old.params.drop (pos + (i + 1)) := by
      intro ps hps
      rw [← Nat.add_assoc, ← List.tail_drop, ← List.tail_drop, hps]
    rw [List.drop_eq_getElem_cons hlt]
    cases f with
    | none =>
      show (∃ new, filteredType old pos (i + 1) fs acc = .ok new) ↔ Filters.Fit fs _ ∧ _
      rw [ih (by omega) (hstep hdrop), Signature.slots_filtered_cons]
      simp only [Signature.filtered_none hacc]
      rfl
    | some f =>
      have hparam : old.param (pos + i) = old.params[pos + i] := by
        rw [Signature.param, List.getElem?_eq_getElem hlt]
        rfl
      show _ ↔ (f.type.arity = 1 ∧ f.type.ret = old.params[pos + i] ∧ Filters.Fit fs _) ∧ _
      rw [filteredType, hparam, Signature.slots_filtered_cons]
      by_cases hfits : f.type.arity = 1 ∧ f.type.ret = old.params[pos + i]
      · have hchange := Signature.exists_changeParam_iff hacc hfits.1
        rw [if_neg (by simp [hfits])]
        cases hnew : acc.changeParam (pos + i) (f.type.param 0) with
        | error e =>
          constructor
          · rintro ⟨new, hmade⟩
            cases hmade
          · intro h
            obtain ⟨t, ht⟩ := hchange.2 (h.2 0 (Nat.zero_le _))
            rw [hnew] at ht
            cases ht
        | ok acc' =>
          obtain ⟨-, -, hparams⟩ := Signature.changeParam_eq_ok_iff.1 hnew
          have hdrop' : acc'.params.drop (pos + (i + 1)) = old.params.drop (pos + (i + 1)) := by
            rw [hparams, List.drop_set_of_lt (by omega)]
            exact hstep hdrop
          show (∃ new, filteredType old pos (i + 1) fs acc' = .ok new) ↔ _
          rw [ih (by omega) hdrop', and_iff_right hfits.1, and_iff_right hfits.2]
          simp only [Signature.filtered_some hnew]
          rfl
      · rw [if_pos (by rwa [← not_and_or])]
        constructor
        · rintro ⟨new, hmade⟩
          cases hmade
        · intro h
          exact absurd ⟨h.1.1, h.1.2.1⟩ hfits

/-- Filters can be put on parameters if there are as many, they fit, and no signature on the way, the
filters being put on one after the other, takes too many slots. -/
theorem filterArguments_succeeds_iff : (∃ k, h.filterArguments s pos filters = .ok k) ↔
    pos + filters.length ≤ h.type.arity ∧ Filters.Fit filters (h.type.params.drop pos) ∧
      ∀ n ≤ filters.length, slotCount (h.type.filtered pos (filters.take n)) ≤ maxArgumentSlots := by
  have hmakes : (∃ k, h.filterArguments s pos filters = .ok k) ↔ pos + filters.length ≤ h.type.arity ∧
      ∃ new, filteredType h.type pos 0 filters h.type = .ok new := by
    constructor
    · rintro ⟨k, hk⟩
      obtain ⟨hcount, new, hnew, -⟩ := filterArguments_eq_ok_iff.1 hk
      exact ⟨hcount, new, hnew⟩
    · rintro ⟨hcount, new, hnew⟩
      cases hnone : filters.all Option.isNone with
      | true => exact ⟨h, filterArguments_eq_ok_iff.2 ⟨hcount, new, hnew, .inl ⟨hnone, rfl⟩⟩⟩
      | false => exact ⟨_, filterArguments_eq_ok_iff.2 ⟨hcount, new, hnew, .inr ⟨hnone, rfl⟩⟩⟩
  rw [hmakes]
  refine and_congr_right fun hcount => ?_
  exact filteredType_succeeds_iff (i := 0) hcount rfl

/-- Where there are no filters, the parameters stay as they are. -/
theorem filtered_of_all_isNone {t : Signature} (hnone : filters.all Option.isNone = true) :
    t.filtered pos filters = t.params := by
  have hparams : ∀ {fs : List (Option Handle)} (ts : List Ty), fs.all Option.isNone = true →
      Filters.params fs ts = ts := by
    intro fs ts hnone
    induction fs generalizing ts with
    | nil => rfl
    | cons f fs ih =>
      cases ts with
      | nil => rfl
      | cons t ts =>
        cases f with
        | none => rw [Filters.params, ih ts hnone]
        | some f => cases hnone
  unfold Signature.filtered
  rw [hparams _ hnone, List.take_append_drop]

/-- The signature of a filtered handle has the parameters of the filters, and the node does the
filtering unless there is nothing to filter. -/
theorem filterArguments_made (hmade : h.filterArguments s pos filters = .ok k) :
    k.type.ret = h.type.ret ∧ k.type.params = h.type.filtered pos filters ∧
      (k = h ∧ filters.all Option.isNone = true ∨ k.node = .filterArgs h pos filters) := by
  obtain ⟨hcount, new, hnew, hcases⟩ := filterArguments_eq_ok_iff.1 hmade
  have hcount : pos + filters.length ≤ h.type.params.length := hcount
  obtain ⟨hret, htake, htypes⟩ := filteredType_eq_ok (i := 0) hcount rfl hnew
  have hparams : new.params = h.type.filtered pos filters := by
    calc new.params = new.params.take pos ++ new.params.drop pos := (List.take_append_drop pos _).symm
      _ = h.type.params.take pos ++ Filters.params filters (h.type.params.drop pos) :=
        congrArg₂ (· ++ ·) htake (Filters.params_of_types htypes)
  rcases hcases with ⟨hnone, rfl⟩ | ⟨-, rfl⟩
  · exact ⟨rfl, (filtered_of_all_isNone hnone).symm, .inl ⟨rfl, hnone⟩⟩
  · exact ⟨hret, hparams, .inr rfl⟩

/-! ## Folds -/

/-- A fold succeeds if what the combiner answers goes on in front of its own arguments. -/
theorem foldArguments_succeeds_iff : (∃ k, h.foldArguments s pos f = .ok k) ↔
    f.FeedsAt h.type pos ∧ f.type.params <+: h.type.params.drop (pos + f.answered) := by
  constructor
  · rintro ⟨k, hk⟩
    obtain ⟨hfeeds, hparams, -⟩ := foldArguments_eq_ok_iff.1 hk
    exact ⟨hfeeds, hparams⟩
  · rintro ⟨hfeeds, hparams⟩
    obtain ⟨new, hnew⟩ := h.type.exists_dropParams (Nat.le_add_right pos _) hfeeds.room
    exact ⟨_, foldArguments_eq_ok_iff.2 ⟨hfeeds, hparams, new, hnew, rfl⟩⟩

/-- The signature of a fold lacks the parameter for what the combiner answers. -/
theorem foldArguments_made (hmade : h.foldArguments s pos f = .ok k) :
    k.node = .fold h pos f ∧ k.type.ret = h.type.ret ∧
      k.type.params = h.type.params.take pos ++ h.type.params.drop (pos + f.answered) := by
  obtain ⟨-, -, new, hnew, rfl⟩ := foldArguments_eq_ok_iff.1 hmade
  obtain ⟨-, -, hret, hparams⟩ := Signature.dropParams_eq_ok_iff.1 hnew
  exact ⟨rfl, hret, hparams⟩

/-! ## Filters of several arguments -/

/-- The parameters of a signature with those of a filter in place of what the filter answers at a
position. -/
def collected (f : Handle) (t : Signature) (pos : Nat) : List Ty :=
  t.params.take pos ++ f.type.params ++ t.params.drop (pos + f.answered)

section Widened

variable {t widened : Signature}
  (hwidened : widened.params =
    t.params.take (pos + f.answered) ++ f.type.params ++ t.params.drop (pos + f.answered))

include hwidened

theorem arity_widened : widened.arity = t.arity + f.type.arity := by
  simp [Signature.arity, hwidened]
  omega

/-- What a filter answers goes to the place that it went to before its own parameters came in. -/
theorem feedsAt_widened_iff (hroom : pos + f.answered ≤ t.arity) :
    f.FeedsAt widened pos ↔ f.FeedsAt t pos := by
  have hwide := arity_widened hwidened
  unfold FeedsAt answered at *
  split
  · simp only [*, if_true] at hroom
    exact ⟨fun _ => hroom, fun _ => by omega⟩
  · next hvoid =>
    simp only [hvoid, if_false] at hwidened hroom
    have hlt : pos < (t.params.take (pos + 1)).length := by
      rw [List.length_take_of_le hroom]
      exact Nat.lt_succ_self pos
    rw [hwidened, List.append_assoc, List.getElem?_append_left hlt,
      List.getElem?_take_of_lt (Nat.lt_succ_self pos)]

end Widened

/-- What is made has the parameters of the filter in place of what the filter answers. -/
theorem collectArguments_made (hmade : h.collectArguments s pos f = .ok k) :
    f.FeedsAt h.type pos ∧ k.type.ret = h.type.ret ∧ k.type.params = f.collected h.type pos ∧
      ∃ widened, h.dropArguments (s + 1) (pos + f.answered) f.type.params = .ok widened ∧
        k.node = .fold widened pos f := by
  obtain ⟨widened, hwidened, hfold⟩ := collectArguments_eq_ok_iff.1 hmade
  obtain ⟨hfeeds, hfirst⟩ := foldArguments_succeeds_iff.1 ⟨k, hfold⟩
  obtain ⟨hnode, hret, hparams⟩ := foldArguments_made hfold
  obtain ⟨-, hwret, hwparams⟩ := dropArguments_type hwidened
  have hroom : pos + f.answered ≤ h.type.arity := by
    have hwide : widened.type.params.length = h.type.arity + f.type.arity := arity_widened hwparams
    have hplace : pos + f.answered ≤ widened.type.params.length := hfeeds.room
    have hlength : f.type.arity ≤ (widened.type.params.drop (pos + f.answered)).length :=
      hfirst.length_le
    rw [List.length_drop] at hlength
    omega
  have hbefore : (h.type.params.take (pos + f.answered)).length = pos + f.answered :=
    List.length_take_of_le hroom
  refine ⟨(feedsAt_widened_iff hwparams hroom).1 hfeeds, hret.trans hwret, ?_, widened, hwidened, hnode⟩
  calc k.type.params
      = widened.type.params.take pos ++ widened.type.params.drop (pos + f.answered) := hparams
    _ = h.type.params.take pos ++ (f.type.params ++ h.type.params.drop (pos + f.answered)) := by
      rw [hwparams, List.append_assoc, List.drop_left' hbefore, List.take_append_of_le_length (by omega),
        List.take_take, Nat.min_eq_left (Nat.le_add_right pos _)]
    _ = f.collected h.type pos := (List.append_assoc _ _ _).symm

/-- A filter of several arguments can be put in if it feeds the position and its parameters can stand
beside all those of the target. -/
theorem collectArguments_succeeds_iff (hh : h.Fitted) : (∃ k, h.collectArguments s pos f = .ok k) ↔
    f.FeedsAt h.type pos ∧ h.type.slots + f.type.slots ≤ maxArgumentSlots := by
  constructor
  · rintro ⟨k, hk⟩
    obtain ⟨hfeeds, -, -, widened, hwidened, -⟩ := collectArguments_made hk
    obtain ⟨-, -, hwparams⟩ := dropArguments_type hwidened
    have hslots := widened.type.slots_le
    rw [hwparams, slotCount_inserted] at hslots
    exact ⟨hfeeds, hslots⟩
  · rintro ⟨hfeeds, hslots⟩
    have hroom := hfeeds.room
    obtain ⟨new, hnew⟩ := (h.type.exists_insertParams_iff f.type.noVoid).2 ⟨hroom, hslots⟩
    obtain ⟨widened, hwidened⟩ := exists_dropArguments hh (s + 1) hnew
    obtain ⟨-, -, hwparams⟩ := dropArguments_type hwidened
    have hfirst : f.type.params <+: widened.type.params.drop (pos + f.answered) := by
      rw [hwparams, List.append_assoc, List.drop_left' (List.length_take_of_le hroom)]
      exact List.prefix_append _ _
    have hwfeeds := (feedsAt_widened_iff hwparams hroom).2 hfeeds
    obtain ⟨k, hk⟩ := foldArguments_succeeds_iff.2 ⟨hwfeeds, hfirst⟩
    exact ⟨k, collectArguments_eq_ok_iff.2 ⟨widened, hwidened, hk⟩⟩

/-- The signature that is asked for in the end takes fewer slots than the one on the way to it, by those
of the parameter that is replaced. -/
theorem slotCount_collected {t : Signature} (hfeeds : f.FeedsAt t pos) :
    slotCount (f.collected t pos) + f.type.ret.slots = t.slots + f.type.slots := by
  have hwide : slotCount (t.params.take (pos + f.answered)) + slotCount f.type.params +
      slotCount (t.params.drop (pos + f.answered)) = t.slots + f.type.slots := by
    rw [← slotCount_append, ← slotCount_append]
    exact slotCount_inserted t.params f.type.params (pos + f.answered)
  have hreplaced : slotCount (t.params.take (pos + f.answered)) =
      slotCount (t.params.take pos) + f.type.ret.slots := by
    unfold FeedsAt at hfeeds
    unfold answered
    by_cases hvoid : f.type.ret = .void
    · rw [if_pos hvoid, hvoid]
      rfl
    · rw [if_neg hvoid] at hfeeds
      obtain ⟨hlt, hparam⟩ := List.getElem?_eq_some_iff.1 hfeeds
      rw [if_neg hvoid, List.take_succ_eq_append_getElem hlt, slotCount_append, hparam]
      rfl
  unfold collected
  rw [slotCount_append, slotCount_append]
  omega

end Handle

/-- **What filters and folds accept**, of whatever handle a program has made. Filters are accepted if they
are in range, fit, and no signature on the way to the last one takes too many slots, as they are put on one
after the other. A filter of several arguments is accepted if what it answers is what is taken at the
position, and if there is room for its parameters beside all those of the handle, the one to be replaced
included. Nothing else is refused, and what is made has the signature asked for.

The range check adds the number of filters to the position, so filters are put on where that sum is still a
word of 64 bits. A filter of several arguments adds one to the position at most, and at the last position
that a word can hold there is no parameter for it to feed. -/
theorem Handling.filters_accepted {G : ClassGraph} {m : Machine} {hs : List Handle}
    (hH : Handling G m hs) {h : Handle} (hh : h ∈ hs) (s : Stamp) (pos : Nat)
    (filters : List (Option Handle)) (f : Handle) :
    (pos + filters.length < UInt64.size →
      ((∃ k, h.filterArguments s pos filters = .ok k) ↔
        pos + filters.length ≤ h.type.arity ∧ Filters.Fit filters (h.type.params.drop pos) ∧
          ∀ n ≤ filters.length,
            slotCount (h.type.filtered pos (filters.take n)) ≤ maxArgumentSlots) ∧
      ∀ k, h.filterArguments s pos filters = .ok k →
        k.type.ret = h.type.ret ∧ k.type.params = h.type.filtered pos filters) ∧
    ((∃ k, h.collectArguments s pos f = .ok k) ↔
      f.FeedsAt h.type pos ∧
        slotCount (f.collected h.type pos) + f.type.ret.slots ≤ maxArgumentSlots) ∧
    ∀ k, h.collectArguments s pos f = .ok k →
      k.type.ret = h.type.ret ∧ k.type.params = f.collected h.type pos := by
  refine ⟨fun _ => ⟨Handle.filterArguments_succeeds_iff, fun k hk => ?_⟩, ?_, fun k hk => ?_⟩
  · obtain ⟨hret, hparams, -⟩ := Handle.filterArguments_made hk
    exact ⟨hret, hparams⟩
  · rw [Handle.collectArguments_succeeds_iff (hH.fitted.1 h hh)]
    exact and_congr_right fun hfeeds => by rw [Handle.slotCount_collected hfeeds]
  · obtain ⟨-, hret, hparams, -⟩ := Handle.collectArguments_made hk
    exact ⟨hret, hparams⟩

/-- A handle that takes as many integers as any can. -/
def Handle.crowded : Handle :=
  ⟨0, ⟨List.replicate 255 (.prim .int), .prim .int, by decide +kernel, by decide +kernel⟩,
    .unlinked "crowded"⟩

/-- The identity on integers. -/
def Handle.sameInt : Handle :=
  ⟨2, ⟨[.prim .int], .prim .int, by decide, by decide⟩, .identity⟩

/-- Where there is no room for another parameter, an integer can be filtered in its place and cannot be
collected from a filter of one argument, although that comes to the same signature. -/
theorem Handling.filters_accepted_of_crowded : ∃ m,
    Handling .bootstrap m [.sameInt, .crowded] ∧
      (∃ k, Handle.crowded.filterArguments 4 0 [some .sameInt] = .ok k) ∧
        Handle.sameInt.collected Handle.crowded.type 0 = Handle.crowded.type.params ∧
          ¬ ∃ k, Handle.crowded.collectArguments 4 0 .sameInt = .ok k := by
  have hcrowded := @Handling.made .bootstrap _ _ _ (.unlinked Handle.crowded.type "crowded") .crowded
    (.start true) nofun rfl
  have hboth := @Handling.made .bootstrap _ _ _ (.identity (.prim .int)) .sameInt hcrowded nofun rfl
  obtain ⟨hword, hcollects, -⟩ := Handling.filters_accepted hboth
    (List.mem_cons_of_mem _ List.mem_cons_self) 4 0 [some .sameInt] .sameInt
  obtain ⟨hfilters, -⟩ := hword (by decide)
  refine ⟨_, hboth, hfilters.2 ⟨by decide +kernel, ⟨rfl, rfl, trivial⟩, fun n hn => ?_⟩, rfl,
    fun h => ?_⟩
  · match n with
    | 0 => decide +kernel
    | 1 => decide +kernel
  · exact absurd (hcollects.1 h).2 (by decide +kernel)

end HandleCalculus
