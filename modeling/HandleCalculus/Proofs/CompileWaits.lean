import HandleCalculus.Proofs.CompileOnce

/-!
# Whoever waits is waited for

A look-up waits only while another one is at work for it. A key in flight is being compiled or about to
be settled by some look-up, a marker that is not ended has a look-up at work for it, and whoever sleeps
on a marker has somebody who is still to wake the sleepers. Every step of every thread keeps it so
(`System.Guarded.step`), whether compilers look other keys up or not.
-/

set_option autoImplicit false

namespace HandleCalculus.CompileOnce

variable {K D E : Type}

/-! ## Who is at work for a marker -/

namespace Frame

/-- Whether it is still to end the marker. -/
def works (m : Marker) : Frame K D E → Bool
  | ⟨_, .compiling m'⟩ | ⟨_, .settling m' _⟩ | ⟨_, .ending m' _⟩ => m' = m
  | _ => false

/-- Whether it is still to wake those who sleep on the marker. -/
def wakes (m : Marker) : Frame K D E → Bool
  | ⟨_, .compiling m'⟩ | ⟨_, .settling m' _⟩ | ⟨_, .ending m' _⟩ | ⟨_, .waking m' _⟩ => m' = m
  | _ => false

theorem wakes_of_works (m : Marker) (f : Frame K D E) (hf : f.works m = true) : f.wakes m = true := by
  obtain ⟨k, phase⟩ := f
  cases phase with
  | compiling m' => exact hf
  | settling m' result => exact hf
  | ending m' result => exact hf
  | _ => cases hf

end Frame

variable [DecidableEq K]

/-! ## What a step does to them -/

namespace Step

variable {i : Nat} {c c' : Cache K D} {t t' : Thread K D E} {choice : Choice K D E}
  {e : Option (Happening K D E)}

/-- A key in flight was in flight before, and its look-up has not let go of it, or has just been
claimed. -/
theorem owns_of_inFlight (hstep : Step i c choice t c' t' e) {k : K} {m : Marker}
    (hk : c'.find? k = some (.inFlight m)) :
    c.find? k = some (.inFlight m) ∧
        t.stack.countP (Frame.owns k) ≤ t'.stack.countP (Frame.owns k) ∨
      t.stack.countP (Frame.owns k) < t'.stack.countP (Frame.owns k) := by
  cases hstep with
  | @claim k' hnone ks fs as =>
    rw [Cache.find?_claim hnone] at hk
    split at hk
    · next heq =>
      subst heq
      exact .inr (by simp [Frame.owns])
    · exact .inl ⟨hk, by simp [List.countP_cons, Frame.owns]⟩
  | publish k' m' d ks fs as =>
    rw [Cache.find?_publish] at hk
    split at hk
    · cases hk
    · next hne => exact .inl ⟨hk, by simp [Frame.owns, Ne.symm hne]⟩
  | abandon k' m' e ks fs as =>
    rw [Cache.find?_abandon] at hk
    split at hk
    · cases hk
    · next hne => exact .inl ⟨hk, by simp [Frame.owns, Ne.symm hne]⟩
  | _ => exact .inl ⟨hk, by simp [List.countP_cons, Frame.owns]⟩

/-- A marker that is not ended was not ended before, and who works for it still does, or has just been
given out. -/
theorem works_of_unfinished (hstep : Step i c choice t c' t' e) {m : Marker}
    (hm : c'.isFinished m = false) :
    c.isFinished m = false ∧
        t.stack.countP (Frame.works m) ≤ t'.stack.countP (Frame.works m) ∨
      t.stack.countP (Frame.works m) < t'.stack.countP (Frame.works m) := by
  cases hstep with
  | @claim k hnone ks fs as =>
    rw [Cache.claim_of_none hnone] at hm
    unfold Cache.isFinished at hm ⊢
    rcases Nat.lt_trichotomy m c.finished.length with hlt | rfl | hlt
    · rw [List.getElem?_append_left hlt] at hm
      exact .inl ⟨hm, by simp [List.countP_cons, Frame.works]⟩
    · exact .inr (by simp [Frame.works])
    · rw [List.getElem?_eq_none (by rw [List.length_append]; exact hlt)] at hm
      cases hm
  | finish k m' result ks fs as =>
    unfold Cache.finish Cache.isFinished at hm
    dsimp only at hm
    rw [List.getElem?_set] at hm
    split at hm
    · split at hm <;> cases hm
    · next hne => exact .inl ⟨hm, by simp [Frame.works, hne]⟩
  | _ => exact .inl ⟨hm, by simp [List.countP_cons, Frame.works]⟩

/-- Who is to wake the sleepers on a marker does so before it is answered. -/
theorem wakes_le (hstep : Step i c choice t c' t' e) (m : Marker)
    (hm : ∀ k result rest, t.stack ≠ ⟨k, .waking m result⟩ :: rest) :
    t.stack.countP (Frame.wakes m) ≤ t'.stack.countP (Frame.wakes m) := by
  cases hstep with
  | reply k m' result ks fs as =>
    have hne : m' ≠ m := by
      rintro rfl
      exact hm k result fs rfl
    simp [Frame.wakes, hne]
  | _ => simp [List.countP_cons, Frame.wakes]

/-- Whoever is asleep after the step was asleep before, or has just found the marker not ended. -/
theorem asleep_or (hstep : Step i c choice t c' t' e) {k : K} {m : Marker}
    (hf : ⟨k, .asleep m⟩ ∈ t'.stack) :
    ⟨k, .asleep m⟩ ∈ t.stack ∨ c.isFinished m = false := by
  cases hstep with
  | sleep k' hm ks fs as =>
    rcases List.mem_cons.1 hf with heq | hf
    · cases heq
      exact .inr hm
    · exact .inl (List.mem_cons_of_mem _ hf)
  | start => simp at hf
  | hit => exact .inl (List.mem_cons_of_mem _ hf)
  | reply => exact .inl (List.mem_cons_of_mem _ hf)
  | _ => exact .inl (by simpa using hf)

/-- A thread goes down only to look-ups that look others up. -/
theorem stays_nested (hstep : Step i c choice t c' t' e)
    (ht : ∀ f ∈ t.stack.tail, ∃ k m, f = ⟨k, .compiling m⟩) :
    ∀ f ∈ t'.stack.tail, ∃ k m, f = ⟨k, .compiling m⟩ := by
  cases hstep with
  | start => exact nofun
  | hit hk ks fs as => exact fun f hf => ht f (List.mem_of_mem_tail hf)
  | reply k m result ks fs as => exact fun f hf => ht f (List.mem_of_mem_tail hf)
  | nested k k' m ks fs as =>
    intro f hf
    rcases List.mem_cons.1 hf with rfl | hf
    · exact ⟨k, m, rfl⟩
    · exact ht f hf
  | _ => exact ht

end Step

namespace System

/-! ## Nobody waits for nothing -/

/-- Whether somebody is at work for whatever others wait for. -/
structure Guarded (s : System K D E) : Prop where
  /-- A key in flight is being compiled or about to be settled. -/
  owned : ∀ k m, s.cache.find? k = some (.inFlight m) → 0 < s.frames.countP (Frame.owns k)
  /-- A marker that is not ended is still to be ended. -/
  marked : ∀ m, s.cache.isFinished m = false → 0 < s.frames.countP (Frame.works m)
  /-- Those who sleep on a marker are still to be woken. -/
  watched : ∀ k m, ⟨k, .asleep m⟩ ∈ s.frames → 0 < s.frames.countP (Frame.wakes m)
  /-- Below the innermost look-up of a thread there are only those whose compilers look others up. -/
  nested : ∀ t ∈ s.threads, ∀ f ∈ t.stack.tail, ∃ k m, f = ⟨k, .compiling m⟩

variable {s s' : System K D E} {i : Nat} {choice : Choice K D E}

/-- The end of a wait wakes all sleepers on the marker. -/
theorem step?_waking {k : K} {m : Marker} {result : Except E D} {t : Thread K D E}
    {rest : List (Frame K D E)} (ht : s.threads[i]? = some t)
    (hstack : t.stack = ⟨k, .waking m result⟩ :: rest) :
    s.step? i choice =
      some { s with threads := (s.threads.set i (answer t rest k result true)).map (wake m) } := by
  simp only [step?, ht, hstack]

omit [DecidableEq K] in
theorem tail_wake (m : Marker) (t : Thread K D E) : (wake m t).stack.tail = t.stack.tail := by
  unfold wake
  split
  · next hstack =>
    split
    · rw [hstack]
      rfl
    · rfl
  · rfl

omit [DecidableEq K] in
/-- Who has been woken does not sleep on, unless below others. -/
theorem mem_tail_of_asleep_wake {k : K} {m : Marker} {t : Thread K D E}
    (h : ⟨k, .asleep m⟩ ∈ (wake m t).stack) : ⟨k, .asleep m⟩ ∈ t.stack.tail := by
  unfold wake at h
  split at h
  · next k' n rest hstack =>
    split at h
    · rw [hstack]
      simpa using h
    · next hne =>
      rw [hstack] at h ⊢
      rcases List.mem_cons.1 h with heq | h
      · cases heq
        exact absurd rfl hne
      · exact h
  · next hstack =>
    cases hs : t.stack with
    | nil =>
      rw [hs] at h
      cases h
    | cons f fs =>
      rw [hs] at h
      rcases List.mem_cons.1 h with rfl | h
      · exact absurd hs (hstack k m fs)
      · exact h

/-- A look-up that is not asleep has a step to take. -/
theorem exists_step? (choice : Choice K D E) {k : K} {phase : Phase D E} {t : Thread K D E}
    {rest : List (Frame K D E)} (ht : s.threads[i]? = some t) (hstack : t.stack = ⟨k, phase⟩ :: rest)
    (hawake : ∀ m, phase ≠ .asleep m) : ∃ s', s.step? i choice = some s' := by
  simp only [step?, ht, hstack]
  cases phase with
  | atTable => cases s.cache.claim k with | mk claim cache => cases claim <;> exact ⟨_, rfl⟩
  | compiling m => cases choice <;> exact ⟨_, rfl⟩
  | asleep m => exact absurd rfl (hawake m)
  | _ => exact ⟨_, rfl⟩

namespace Guarded

/-- After a step, too, there are only look-ups that look others up below the innermost. -/
theorem nested_step (hs : s.Guarded) (h : s.step? i choice = some s') :
    ∀ t' ∈ s'.threads, ∀ f ∈ t'.stack.tail, ∃ k m, f = ⟨k, .compiling m⟩ := by
  obtain ⟨t, t', ht, hstep, hthread⟩ := (took_of_step? h).thread
  intro u' hu'
  obtain ⟨j, hj⟩ := List.getElem?_of_mem hu'
  obtain ⟨u, hu, hwoken⟩ := hthread j u' hj
  have hnested : ∀ f ∈ u.stack.tail, ∃ k m, f = ⟨k, .compiling m⟩ := by
    rcases hu with ⟨-, rfl⟩ | hu
    · exact hstep.stays_nested (hs.nested t (List.mem_of_getElem? ht))
    · exact hs.nested u (List.mem_of_getElem? hu)
  rcases hwoken with rfl | ⟨m, rfl⟩
  · exact hnested
  · rw [tail_wake]
    exact hnested

/-- Whoever is asleep after a step was to be woken before. -/
theorem watched_before (hs : s.Guarded) (h : s.step? i choice = some s') {k : K} {m : Marker}
    (hf : ⟨k, .asleep m⟩ ∈ s'.frames) : 0 < s.frames.countP (Frame.wakes m) := by
  obtain ⟨t, t', ht, hstep, hthread⟩ := (took_of_step? h).thread
  obtain ⟨u', hu', hf⟩ := List.mem_flatMap.1 hf
  obtain ⟨j, hj⟩ := List.getElem?_of_mem hu'
  obtain ⟨u, hu, hwoken⟩ := hthread j u' hj
  have hasleep : ⟨k, .asleep m⟩ ∈ u.stack := by
    rcases hwoken with rfl | ⟨n, rfl⟩
    · exact hf
    · rcases mem_stack_wake hf with hf | ⟨k', n', heq, -⟩
      · exact hf
      · cases heq
  rcases hu with ⟨-, rfl⟩ | hu
  · rcases hstep.asleep_or hasleep with hbefore | hm
    · exact hs.watched k m (List.mem_flatMap.2 ⟨t, List.mem_of_getElem? ht, hbefore⟩)
    · exact Nat.lt_of_lt_of_le (hs.marked m hm)
        (List.countP_mono_left fun f _ => Frame.wakes_of_works m f)
  · exact hs.watched k m (List.mem_flatMap.2 ⟨u, List.mem_of_getElem? hu, hasleep⟩)

/-- A step leaves somebody at work for whatever others wait for. -/
theorem step (hs : s.Guarded) (h : s.step? i choice = some s') : s'.Guarded := by
  obtain ⟨t, t', ht, hstep, hcounts, -⟩ := (took_of_step? h).counts
  have hnested := hs.nested_step h
  refine ⟨fun k m hk => ?_, fun m hm => ?_, fun k m hf => ?_, hnested⟩
  · have hcount := hcounts (Frame.owns k) fun _ _ => rfl
    rcases hstep.owns_of_inFlight hk with ⟨hbefore, hle⟩ | hlt
    · have hpos := hs.owned k m hbefore
      omega
    · omega
  · have hcount := hcounts (Frame.works m) fun _ _ => rfl
    rcases hstep.works_of_unfinished hm with ⟨hbefore, hle⟩ | hlt
    · have hpos := hs.marked m hbefore
      omega
    · omega
  · have hcount := hcounts (Frame.wakes m) fun _ _ => rfl
    have hpos := hs.watched_before h hf
    by_cases hwaking : ∃ k₀ result rest, t.stack = ⟨k₀, .waking m result⟩ :: rest
    · -- the step has woken all who slept on the marker
      obtain ⟨k₀, result, rest, hstack⟩ := hwaking
      rw [step?_waking ht hstack] at h
      obtain rfl := Option.some.inj h
      obtain ⟨u', hu', hf⟩ := List.mem_flatMap.1 hf
      obtain ⟨u, -, rfl⟩ := List.mem_map.1 hu'
      have htail := mem_tail_of_asleep_wake hf
      rw [← tail_wake m] at htail
      obtain ⟨k', m', hcompiling⟩ := hnested _ hu' _ htail
      cases hcompiling
    · have hle := hstep.wakes_le m fun k₀ result rest hstack =>
        hwaking ⟨k₀, result, rest, hstack⟩
      omega

/-- Threads that have nothing under way may join. -/
theorem join (hs : s.Guarded) {t : Thread K D E} (ht : t.stack = []) :
    ({ s with threads := s.threads ++ [t] } : System K D E).Guarded := by
  have hframes : ({ s with threads := s.threads ++ [t] } : System K D E).frames = s.frames := by
    simp [frames, ht]
  refine ⟨?_, ?_, ?_, fun u hu f hf => ?_⟩
  · rw [hframes]
    exact hs.owned
  · rw [hframes]
    exact hs.marked
  · rw [hframes]
    exact hs.watched
  · rcases List.mem_append.1 hu with hu | hu
    · exact hs.nested u hu f hf
    · rw [List.mem_singleton.1 hu, ht] at hf
      cases hf

end Guarded

end System

end HandleCalculus.CompileOnce
