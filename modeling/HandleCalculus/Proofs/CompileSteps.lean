import HandleCalculus.CompileOnce.Threads

/-!
# What a step of a thread does

`System.step?` says how to take a step; this module says what has happened when one has been taken.
A step is made by one thread at the top of its stack (`Step`, one constructor per atomic action) and
touches the other threads only by waking them (`step?_eq_some`). What it lets the outside see is a
`Happening`, and a run of a schedule keeps the list of them. Invariants are about frames and about
numbers of frames, so the last section says how such numbers change in a step.
-/

set_option autoImplicit false

namespace HandleCalculus.CompileOnce

variable {K D E : Type}

/-! ## Look-ups under way -/

namespace System

/-- All look-ups under way. -/
def frames (s : System K D E) : List (Frame K D E) := s.threads.flatMap (·.stack)

/-- Waking turns look-ups that are asleep into look-ups that check, and nothing else. -/
theorem mem_stack_wake {m : Marker} {t : Thread K D E} {f : Frame K D E}
    (h : f ∈ (wake m t).stack) : f ∈ t.stack ∨ ∃ k n, f = ⟨k, .checking n⟩ ∧
      ⟨k, .asleep n⟩ ∈ t.stack := by
  unfold wake at h
  split at h
  · next k n rest hs =>
    split at h
    · rcases List.mem_cons.1 h with rfl | h
      · exact Or.inr ⟨k, n, rfl, by simp [hs]⟩
      · exact Or.inl (by simp [hs, h])
    · exact Or.inl h
  · exact Or.inl h

theorem countP_stack_wake {p : Frame K D E → Bool}
    (hp : ∀ k m, p ⟨k, .asleep m⟩ = p ⟨k, .checking m⟩) (m : Marker) (t : Thread K D E) :
    (wake m t).stack.countP p = t.stack.countP p := by
  unfold wake
  split
  · next k n rest h =>
    split
    · simp [h, List.countP_cons, hp]
    · rfl
  · rfl

theorem countP_flatMap_wake {p : Frame K D E → Bool}
    (hp : ∀ k m, p ⟨k, .asleep m⟩ = p ⟨k, .checking m⟩) (m : Marker) (ts : List (Thread K D E)) :
    ((ts.map (wake m)).flatMap (·.stack)).countP p = (ts.flatMap (·.stack)).countP p := by
  induction ts with
  | nil => rfl
  | cons t ts ih => simp [List.countP_append, countP_stack_wake hp, ih]

theorem answers_wake (m : Marker) (t : Thread K D E) : (wake m t).answers = t.answers := by
  unfold wake
  split
  · split <;> rfl
  · rfl

theorem todo_wake (m : Marker) (t : Thread K D E) : (wake m t).todo = t.todo := by
  unfold wake
  split
  · split <;> rfl
  · rfl

/-- Replacing one thread changes a number by what the thread contributes to it. -/
theorem countP_flatMap_set {α : Type} (g : Thread K D E → List α) (p : α → Bool)
    {ts : List (Thread K D E)} {i : Nat} {t : Thread K D E} (ht : ts[i]? = some t)
    (t' : Thread K D E) :
    ((ts.set i t').flatMap g).countP p + (g t).countP p =
      (ts.flatMap g).countP p + (g t').countP p := by
  induction ts generalizing i with
  | nil => simp at ht
  | cons u us ih =>
    cases i with
    | zero =>
      obtain rfl : u = t := by simpa using ht
      simp only [List.set_cons_zero, List.flatMap_cons, List.countP_append]
      omega
    | succ i =>
      have := ih (i := i) (by simpa using ht)
      simp only [List.set_cons_succ, List.flatMap_cons, List.countP_append]
      omega

end System

/-! ## Histories -/

/-- What a step lets the outside see. A run of the compiler is named by its marker. -/
inductive Happening (K D E : Type) where
  /-- Thread `i` begins a run of the compiler. -/
  | begun (i : Nat) (k : K) (m : Marker)
  /-- A run of the compiler ends. -/
  | ended (i : Nat) (k : K) (m : Marker) (result : Except E D)
  /-- A look-up of thread `i` is answered; `own` is the run of the compiler that it made itself, if
  it made one. -/
  | answered (i : Nat) (k : K) (result : Except E D) (own : Option Marker)

/-- Whether it is the beginning of a run of the compiler that `p` holds of. -/
def Happening.begins (p : K → Marker → Bool) : Happening K D E → Bool
  | .begun _ k m => p k m
  | _ => false

/-- Whether it is the end of a run of the compiler that `p` holds of. -/
def Happening.ends (p : K → Marker → Except E D → Bool) : Happening K D E → Bool
  | .ended _ k m result => p k m result
  | _ => false

/-- Whether it is an answer that `p` holds of. -/
def Happening.answers (p : K → Except E D → Bool) : Happening K D E → Bool
  | .answered _ k result _ => p k result
  | _ => false

/-- A step of a schedule: the thread, and how its compiler goes on if the thread is running it. -/
abbrev Move (K D E : Type) := Nat × Choice K D E

namespace System

variable [DecidableEq K]

/-- What the next step of thread `i` lets the outside see. -/
def happening? (s : System K D E) (i : Nat) (choice : Choice K D E) : Option (Happening K D E) :=
  match s.threads[i]?.bind (·.stack.head?) with
  | some ⟨k, .atTable⟩ =>
    match (s.cache.claim k).1 with
    | .ready d => some (.answered i k (.ok d) none)
    | .wait _ => none
    | .claimed m => some (.begun i k m)
  | some ⟨k, .compiling m⟩ =>
    match choice with
    | .compileEnds result => some (.ended i k m result)
    | .lookUp _ => none
  | some ⟨k, .waking m result⟩ => some (.answered i k result (some m))
  | _ => none

/-- The system and what has happened so far, after one more move. A thread that has no step to take
stays where it is. -/
def record (p : System K D E × List (Happening K D E)) (move : Move K D E) :
    System K D E × List (Happening K D E) :=
  match p.1.step? move.1 move.2 with
  | some s => (s, p.2 ++ (p.1.happening? move.1 move.2).toList)
  | none => p

/-- Follows a schedule. -/
def follow (s : System K D E) (moves : List (Move K D E)) :
    System K D E × List (Happening K D E) :=
  moves.foldl record (s, [])

/-- Threads at an empty table, with the keys that each is to look up. -/
def fresh (todos : List (List K)) : System K D E := ⟨.empty, todos.map (⟨·, [], []⟩), 0⟩

end System

/-! ## The steps one by one -/

variable [DecidableEq K]

/-- `Step i c choice t c' t' e`: at the table `c`, thread `i` can go from `t` to `t'`, leaving the table
at `c'`, with `e` to be seen. -/
inductive Step (i : Nat) (c : Cache K D) : Choice K D E → Thread K D E → Cache K D →
    Thread K D E → Option (Happening K D E) → Prop where
  | start (k : K) (ks : List K) (as : List (Answer K D E)) {choice : Choice K D E} :
    Step i c choice ⟨k :: ks, [], as⟩ c ⟨ks, [⟨k, .atTable⟩], as⟩ none
  | hit {k : K} {d : D} (hk : c.find? k = some (.ready d)) (ks : List K)
      (fs : List (Frame K D E)) (as : List (Answer K D E)) {choice : Choice K D E} :
    Step i c choice ⟨ks, ⟨k, .atTable⟩ :: fs, as⟩ c ⟨ks, fs, ⟨k, .ok d, false⟩ :: as⟩
      (some (.answered i k (.ok d) none))
  | busy {k : K} {m : Marker} (hk : c.find? k = some (.inFlight m)) (ks : List K)
      (fs : List (Frame K D E)) (as : List (Answer K D E)) {choice : Choice K D E} :
    Step i c choice ⟨ks, ⟨k, .atTable⟩ :: fs, as⟩ c ⟨ks, ⟨k, .checking m⟩ :: fs, as⟩ none
  | claim {k : K} (hk : c.find? k = none) (ks : List K) (fs : List (Frame K D E))
      (as : List (Answer K D E)) {choice : Choice K D E} :
    Step i c choice ⟨ks, ⟨k, .atTable⟩ :: fs, as⟩ (c.claim k).2
      ⟨ks, ⟨k, .compiling c.finished.length⟩ :: fs, as⟩ (some (.begun i k c.finished.length))
  | compiled (k : K) (m : Marker) (result : Except E D) (ks : List K) (fs : List (Frame K D E))
      (as : List (Answer K D E)) :
    Step i c (.compileEnds result) ⟨ks, ⟨k, .compiling m⟩ :: fs, as⟩ c
      ⟨ks, ⟨k, .settling m result⟩ :: fs, as⟩ (some (.ended i k m result))
  | nested (k k' : K) (m : Marker) (ks : List K) (fs : List (Frame K D E))
      (as : List (Answer K D E)) :
    Step i c (.lookUp k') ⟨ks, ⟨k, .compiling m⟩ :: fs, as⟩ c
      ⟨ks, ⟨k', .atTable⟩ :: ⟨k, .compiling m⟩ :: fs, as⟩ none
  | publish (k : K) (m : Marker) (d : D) (ks : List K) (fs : List (Frame K D E))
      (as : List (Answer K D E)) {choice : Choice K D E} :
    Step i c choice ⟨ks, ⟨k, .settling m (.ok d)⟩ :: fs, as⟩ (c.publish k d)
      ⟨ks, ⟨k, .ending m (.ok d)⟩ :: fs, as⟩ none
  | abandon (k : K) (m : Marker) (e : E) (ks : List K) (fs : List (Frame K D E))
      (as : List (Answer K D E)) {choice : Choice K D E} :
    Step i c choice ⟨ks, ⟨k, .settling m (.error e)⟩ :: fs, as⟩ (c.abandon k)
      ⟨ks, ⟨k, .ending m (.error e)⟩ :: fs, as⟩ none
  | finish (k : K) (m : Marker) (result : Except E D) (ks : List K) (fs : List (Frame K D E))
      (as : List (Answer K D E)) {choice : Choice K D E} :
    Step i c choice ⟨ks, ⟨k, .ending m result⟩ :: fs, as⟩ (c.finish m)
      ⟨ks, ⟨k, .waking m result⟩ :: fs, as⟩ none
  | reply (k : K) (m : Marker) (result : Except E D) (ks : List K) (fs : List (Frame K D E))
      (as : List (Answer K D E)) {choice : Choice K D E} :
    Step i c choice ⟨ks, ⟨k, .waking m result⟩ :: fs, as⟩ c ⟨ks, fs, ⟨k, result, true⟩ :: as⟩
      (some (.answered i k result (some m)))
  | retry (k : K) {m : Marker} (hm : c.isFinished m = true) (ks : List K) (fs : List (Frame K D E))
      (as : List (Answer K D E)) {choice : Choice K D E} :
    Step i c choice ⟨ks, ⟨k, .checking m⟩ :: fs, as⟩ c ⟨ks, ⟨k, .atTable⟩ :: fs, as⟩ none
  | sleep (k : K) {m : Marker} (hm : c.isFinished m = false) (ks : List K) (fs : List (Frame K D E))
      (as : List (Answer K D E)) {choice : Choice K D E} :
    Step i c choice ⟨ks, ⟨k, .checking m⟩ :: fs, as⟩ c ⟨ks, ⟨k, .asleep m⟩ :: fs, as⟩ none

namespace System

/-- Thread `i` has taken a step: it is in another state now, and sleepers may have been woken. -/
structure Took (s : System K D E) (i : Nat) (choice : Choice K D E)
    (e : Option (Happening K D E)) (s' : System K D E) : Prop where
  step : ∃ t t', s.threads[i]? = some t ∧ Step i s.cache choice t s'.cache t' e ∧
    (s'.threads = s.threads.set i t' ∨ ∃ m, s'.threads = (s.threads.set i t').map (wake m))
  runs : s'.runs = s.runs + e.toList.countP (Happening.begins fun _ _ => true)

/-- Everything that a step does. -/
theorem took_of_step? {s s' : System K D E} {i : Nat} {choice : Choice K D E}
    (h : s.step? i choice = some s') : Took s i choice (s.happening? i choice) s' := by
  -- one case for each phase of the look-up at the top, in the order of `step?`
  cases ht : s.threads[i]? with
  | none => simp [step?, ht] at h
  | some t =>
    obtain ⟨ks, stack, as⟩ := t
    cases stack with
    | nil =>
      cases ks with
      | nil => simp [step?, ht] at h
      | cons k ks =>
        simp only [step?, ht, Option.some.injEq] at h
        subst h
        have he : s.happening? i choice = none := by simp [happening?, ht]
        rw [he]
        exact ⟨⟨_, _, ht, .start k ks as, .inl rfl⟩, rfl⟩
    | cons f fs =>
      obtain ⟨k, phase⟩ := f
      cases phase with
      | atTable =>
        cases hk : s.cache.find? k with
        | none =>
          have hc : s.cache.claim k = (.claimed s.cache.finished.length, (s.cache.claim k).2) := by
            simp [Cache.claim, hk]
          simp only [step?, ht] at h
          rw [hc] at h
          obtain rfl := Option.some.inj h
          have hc : (s.cache.claim k).1 = .claimed s.cache.finished.length := by rw [hc]
          have he : s.happening? i choice = some (.begun i k s.cache.finished.length) := by
            simp [happening?, ht, hc]
          rw [he]
          exact ⟨⟨_, _, ht, .claim hk ks fs as, .inl rfl⟩, rfl⟩
        | some entry =>
          cases entry with
          | ready d =>
            have hc : s.cache.claim k = (.ready d, s.cache) := by simp [Cache.claim, hk]
            simp only [step?, ht, hc, Option.some.injEq] at h
            subst h
            have he : s.happening? i choice = some (.answered i k (.ok d) none) := by
              simp [happening?, ht, hc]
            rw [he]
            exact ⟨⟨_, _, ht, .hit hk ks fs as, .inl rfl⟩, rfl⟩
          | inFlight m =>
            have hc : s.cache.claim k = (.wait m, s.cache) := by simp [Cache.claim, hk]
            simp only [step?, ht, hc, Option.some.injEq] at h
            subst h
            have he : s.happening? i choice = none := by simp [happening?, ht, hc]
            rw [he]
            exact ⟨⟨_, _, ht, .busy hk ks fs as, .inl rfl⟩, rfl⟩
      | compiling m =>
        cases choice with
        | compileEnds result =>
          simp only [step?, ht, Option.some.injEq] at h
          subst h
          have he : s.happening? i (.compileEnds result) = some (.ended i k m result) := by
            simp [happening?, ht]
          rw [he]
          exact ⟨⟨_, _, ht, .compiled k m result ks fs as, .inl rfl⟩, rfl⟩
        | lookUp k' =>
          simp only [step?, ht, Option.some.injEq] at h
          subst h
          have he : s.happening? i (.lookUp k') = none := by simp [happening?, ht]
          rw [he]
          exact ⟨⟨_, _, ht, .nested k k' m ks fs as, .inl rfl⟩, rfl⟩
      | settling m result =>
        have he : s.happening? i choice = none := by simp [happening?, ht]
        rw [he]
        cases result with
        | ok d =>
          simp only [step?, ht, Option.some.injEq] at h
          subst h
          exact ⟨⟨_, _, ht, .publish k m d ks fs as, .inl rfl⟩, rfl⟩
        | error e =>
          simp only [step?, ht, Option.some.injEq] at h
          subst h
          exact ⟨⟨_, _, ht, .abandon k m e ks fs as, .inl rfl⟩, rfl⟩
      | ending m result =>
        simp only [step?, ht, Option.some.injEq] at h
        subst h
        have he : s.happening? i choice = none := by simp [happening?, ht]
        rw [he]
        exact ⟨⟨_, _, ht, .finish k m result ks fs as, .inl rfl⟩, rfl⟩
      | waking m result =>
        simp only [step?, ht, Option.some.injEq] at h
        subst h
        have he : s.happening? i choice = some (.answered i k result (some m)) := by
          simp [happening?, ht]
        rw [he]
        exact ⟨⟨_, _, ht, .reply k m result ks fs as, .inr ⟨m, rfl⟩⟩, rfl⟩
      | checking m =>
        have he : s.happening? i choice = none := by simp [happening?, ht]
        rw [he]
        by_cases hm : s.cache.isFinished m = true
        · simp only [step?, ht, if_pos hm, Option.some.injEq] at h
          subst h
          exact ⟨⟨_, _, ht, .retry k hm ks fs as, .inl rfl⟩, rfl⟩
        · simp only [step?, ht, if_neg hm, Option.some.injEq] at h
          subst h
          exact ⟨⟨_, _, ht, .sleep k (by simpa using hm) ks fs as, .inl rfl⟩, rfl⟩
      | asleep m => simp [step?, ht] at h

/-! ## What a step changes -/

namespace Took

variable {s s' : System K D E} {i : Nat} {choice : Choice K D E}
  {e : Option (Happening K D E)}

/-- The step of the thread, and how it changes the numbers of look-ups under way and of answers. -/
theorem counts (h : Took s i choice e s') : ∃ t t', s.threads[i]? = some t ∧
    Step i s.cache choice t s'.cache t' e ∧
    (∀ p : Frame K D E → Bool, (∀ k m, p ⟨k, .asleep m⟩ = p ⟨k, .checking m⟩) →
      s'.frames.countP p + t.stack.countP p = s.frames.countP p + t'.stack.countP p) ∧
    ∀ q : Answer K D E → Bool,
      s'.answers.countP q + t.answers.countP q = s.answers.countP q + t'.answers.countP q := by
  obtain ⟨t, t', ht, hstep, hthreads⟩ := h.step
  refine ⟨t, t', ht, hstep, fun p hp => ?_, fun q => ?_⟩
  · have hset := countP_flatMap_set (·.stack) p ht t'
    rcases hthreads with heq | ⟨m, heq⟩
    · rw [frames, heq]
      exact hset
    · rw [frames, heq, countP_flatMap_wake hp]
      exact hset
  · have hset := countP_flatMap_set (·.answers) q ht t'
    rcases hthreads with heq | ⟨m, heq⟩
    · rw [answers, heq]
      exact hset
    · rw [answers, heq, List.flatMap_map]
      simp only [answers_wake]
      exact hset

/-- Every thread after the step: thread `i` in its new state or another as it was, woken or not. -/
theorem thread (h : Took s i choice e s') : ∃ t t', s.threads[i]? = some t ∧
    Step i s.cache choice t s'.cache t' e ∧ ∀ j u', s'.threads[j]? = some u' →
      ∃ u, (j = i ∧ u = t' ∨ s.threads[j]? = some u) ∧ (u' = u ∨ ∃ m, u' = wake m u) := by
  obtain ⟨t, t', ht, hstep, hthreads⟩ := h.step
  refine ⟨t, t', ht, hstep, fun j u' hu' => ?_⟩
  have hset : ∀ u, (s.threads.set i t')[j]? = some u → j = i ∧ u = t' ∨ s.threads[j]? = some u := by
    intro u hu
    rw [List.getElem?_set] at hu
    split at hu
    · next hij =>
      split at hu
      · cases hu
        exact Or.inl ⟨hij.symm, rfl⟩
      · cases hu
    · exact Or.inr hu
  rcases hthreads with heq | ⟨m, heq⟩
  · rw [heq] at hu'
    exact ⟨u', hset u' hu', Or.inl rfl⟩
  · rw [heq, List.getElem?_map] at hu'
    obtain ⟨u, hu, rfl⟩ := Option.map_eq_some_iff.1 hu'
    exact ⟨u, hset u hu, Or.inr ⟨m, rfl⟩⟩

end Took

/-- What holds at some moment and is kept by every move holds after the moves. -/
theorem record_induction {P : System K D E → List (Happening K D E) → Prop}
    {p : System K D E × List (Happening K D E)} {moves : List (Move K D E)} (h0 : P p.1 p.2)
    (hstep : ∀ move ∈ moves, ∀ s h e s', P s h → Took s move.1 move.2 e s' →
      P s' (h ++ e.toList)) :
    P (moves.foldl record p).1 (moves.foldl record p).2 := by
  induction moves generalizing p with
  | nil => exact h0
  | cons move moves ih =>
    refine ih ?_ fun move hmove => hstep move (List.mem_cons_of_mem _ hmove)
    unfold record
    split
    · next s' hs => exact hstep move List.mem_cons_self _ _ _ _ h0 (took_of_step? hs)
    · exact h0

end System

end HandleCalculus.CompileOnce
