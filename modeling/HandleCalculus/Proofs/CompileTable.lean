import HandleCalculus.CompileOnce.Cache
import HandleCalculus.Proofs.Entries

/-!
# The entries of a compile-once table

A table is a list with at most one entry for a key. What an operation does to the entry of a key and
to the number of keys compiled is worked out here; nothing later looks at the list.
-/

set_option autoImplicit false

namespace HandleCalculus.CompileOnce

namespace Cache

variable {K D : Type} [DecidableEq K] {c : Cache K D} {k : K} {m : Marker}

/-- Whether somebody is compiling a key. -/
def isInFlight (c : Cache K D) (k : K) : Bool :=
  match c.find? k with
  | some (.inFlight _) => true
  | _ => false

/-- The keys of the entries. -/
def keys (c : Cache K D) : List K := c.entries.map (·.1)

/-! ## What is found -/

private theorem lookup_cons (k' k : K) (x : Entry D) (es : List (K × Entry D)) :
    List.lookup k' ((k, x) :: es) = if k' = k then some x else List.lookup k' es := by
  by_cases h : k' = k
  · simp [h]
  · have hb : (k' == k) = false := by simpa using h
    simp [List.lookup_cons, hb, h]

private theorem lookup_filter (k k' : K) (es : List (K × Entry D)) :
    (es.filter fun e => e.1 ≠ k).lookup k' = if k' = k then none else es.lookup k' := by
  induction es with
  | nil => simp
  | cons e es ih =>
    obtain ⟨j, x⟩ := e
    by_cases hj : j = k
    · rw [List.filter_cons_of_neg (by simpa using hj), ih, lookup_cons, hj]
      split <;> rfl
    · rw [List.filter_cons_of_pos (by simpa using hj), lookup_cons, lookup_cons, ih]
      by_cases hk : k' = k
      · subst hk
        simp [Ne.symm hj]
      · simp [hk]

theorem claim_of_none (hk : c.find? k = none) : (c.claim k).2 = { c with
    entries := (k, .inFlight c.finished.length) :: c.entries
    finished := c.finished ++ [false] } := by
  simp [claim, hk]

theorem find?_claim (hk : c.find? k = none) (k' : K) : (c.claim k).2.find? k' =
    if k' = k then some (.inFlight c.finished.length) else c.find? k' := by
  rw [claim_of_none hk, find?, lookup_cons]
  rfl

theorem find?_publish (c : Cache K D) (k : K) (d : D) (k' : K) :
    (c.publish k d).find? k' = if k' = k then some (.ready d) else c.find? k' := by
  rw [publish, find?, lookup_cons, without, lookup_filter]
  split <;> rfl

theorem find?_abandon (c : Cache K D) (k k' : K) :
    (c.abandon k).find? k' = if k' = k then none else c.find? k' :=
  lookup_filter k k' c.entries

theorem isInFlight_claim (hk : c.find? k = none) (k' : K) :
    (c.claim k).2.isInFlight k' = (decide (k' = k) || c.isInFlight k') := by
  unfold isInFlight
  rw [find?_claim hk]
  by_cases h : k' = k <;> simp [h]

theorem isInFlight_publish (c : Cache K D) (k : K) (d : D) (k' : K) :
    (c.publish k d).isInFlight k' = (!decide (k' = k) && c.isInFlight k') := by
  unfold isInFlight
  rw [find?_publish]
  by_cases h : k' = k <;> simp [h]

theorem isInFlight_abandon (c : Cache K D) (k k' : K) :
    (c.abandon k).isInFlight k' = (!decide (k' = k) && c.isInFlight k') := by
  unfold isInFlight
  rw [find?_abandon]
  by_cases h : k' = k <;> simp [h]

theorem isInFlight_finish (c : Cache K D) (m : Marker) (k : K) :
    (c.finish m).isInFlight k = c.isInFlight k := rfl

theorem peek?_claim (hk : c.find? k = none) (k' : K) : (c.claim k).2.peek? k' = c.peek? k' := by
  unfold peek?
  rw [find?_claim hk]
  by_cases h : k' = k <;> simp [h, hk]

theorem peek?_publish (c : Cache K D) (k : K) (d : D) (k' : K) :
    (c.publish k d).peek? k' = if k' = k then some d else c.peek? k' := by
  unfold peek?
  rw [find?_publish]
  by_cases h : k' = k <;> simp [h]

/-- Abandoning a key takes a marker away and nothing that has been compiled. -/
theorem peek?_abandon (hk : c.find? k = some (.inFlight m)) (k' : K) :
    (c.abandon k).peek? k' = c.peek? k' := by
  unfold peek?
  rw [find?_abandon]
  by_cases h : k' = k <;> simp [h, hk]

theorem peek?_finish (c : Cache K D) (m : Marker) (k : K) : (c.finish m).peek? k = c.peek? k := rfl

/-- What is there after a look-up was there before, or it is what the look-up has compiled. -/
theorem peek?_get {E : Type} {compiled : Except E D} {k' : K} {d : D}
    (h : (c.get k compiled).2.peek? k' = some d) :
    c.peek? k' = some d ∨ k' = k ∧ compiled = .ok d := by
  cases hk : c.find? k with
  | some entry =>
    cases entry with
    | ready d' => exact .inl (by simpa [get, claim, hk] using h)
    | inFlight m => exact .inl (by simpa [get, claim, hk] using h)
  | none =>
    -- the key is marked as in flight, and then published or abandoned
    have hclaim : c.claim k = (.claimed c.finished.length, (c.claim k).2) := by simp [claim, hk]
    have hmarked : (c.claim k).2.find? k = some (.inFlight c.finished.length) := by
      rw [find?_claim hk, if_pos rfl]
    rw [get, hclaim] at h
    cases compiled with
    | ok d' =>
      have h : ((c.claim k).2.publish k d').peek? k' = some d := h
      rw [peek?_publish, peek?_claim hk] at h
      by_cases hk' : k' = k
      · rw [if_pos hk'] at h
        exact .inr ⟨hk', congrArg Except.ok (Option.some.inj h)⟩
      · rw [if_neg hk'] at h
        exact .inl h
    | error e =>
      have h : ((c.claim k).2.abandon k).peek? k' = some d := h
      rw [peek?_abandon hmarked, peek?_claim hk] at h
      exact .inl h

/-- No key is both compiled and in flight. -/
theorem peek?_add_isInFlight_le (c : Cache K D) (k : K) :
    (c.peek? k).isSome.toNat + (c.isInFlight k).toNat ≤ 1 := by
  unfold peek? isInFlight
  rcases c.find? k with _ | _ | _ <;> simp

/-! ## One entry for a key -/

theorem nodup_keys_claim (hc : c.keys.Nodup) (hk : c.find? k = none) :
    (c.claim k).2.keys.Nodup := by
  rw [claim_of_none hk]
  exact List.nodup_cons.2 ⟨lookup_eq_none_iff_notMem.1 hk, hc⟩

theorem nodup_keys_abandon (hc : c.keys.Nodup) (k : K) : (c.abandon k).keys.Nodup :=
  hc.sublist (List.filter_sublist.map _)

theorem nodup_keys_publish (hc : c.keys.Nodup) (k : K) (d : D) : (c.publish k d).keys.Nodup := by
  refine List.nodup_cons.2 ⟨?_, nodup_keys_abandon hc k⟩
  simp [without]

/-! ## Counting what has been compiled -/

private def isReady (e : K × Entry D) : Bool :=
  match e.2 with
  | .ready _ => true
  | .inFlight _ => false

omit [DecidableEq K] in
private theorem size_eq (c : Cache K D) : c.size = c.entries.countP isReady := by
  rw [List.countP_eq_length_filter]
  rfl

private theorem countP_filter {es : List (K × Entry D)} (hes : (es.map (·.1)).Nodup)
    (hk : es.lookup k = some (.inFlight m)) :
    (es.filter fun e => e.1 ≠ k).countP isReady = es.countP isReady := by
  induction es with
  | nil => simp at hk
  | cons e es ih =>
    obtain ⟨j, x⟩ := e
    obtain ⟨hj, hes⟩ := List.nodup_cons.1 hes
    rw [lookup_cons] at hk
    split at hk
    · next hkj =>
      -- the marker goes, and no other entry is of this key
      obtain rfl : x = .inFlight m := by simpa using hk
      have hrest : es.filter (fun e => e.1 ≠ k) = es := by
        rw [List.filter_eq_self]
        intro e he
        have : e.1 ≠ j := fun h => hj (List.mem_map.2 ⟨e, he, h⟩)
        simpa [hkj] using this
      rw [List.filter_cons_of_neg (by simp [hkj]), hrest]
      simp [isReady]
    · next hkj =>
      rw [List.filter_cons_of_pos (by simpa using Ne.symm hkj), List.countP_cons, List.countP_cons,
        ih hes hk]

theorem size_claim (hk : c.find? k = none) : (c.claim k).2.size = c.size := by
  simp [size_eq, claim_of_none hk, isReady]

/-- A key in flight has the marker for its only entry, so nothing compiled goes with it. -/
theorem size_abandon (hc : c.keys.Nodup) (hk : c.find? k = some (.inFlight m)) :
    (c.abandon k).size = c.size := by
  rw [size_eq, size_eq]
  exact countP_filter hc hk

theorem size_publish (hc : c.keys.Nodup) (hk : c.find? k = some (.inFlight m)) (d : D) :
    (c.publish k d).size = c.size + 1 := by
  rw [size_eq, size_eq, publish, List.countP_cons_of_pos (by rfl)]
  exact congrArg (· + 1) (countP_filter hc hk)

end Cache

end HandleCalculus.CompileOnce
