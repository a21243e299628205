import Mathlib.Order.WellFounded
import HandleCalculus.Proofs.CompileWaits

/-!
# Somebody can always go on

Threads at a compile-once table whose compilers look other keys up, though only keys below the one
that they run for. A thread sleeps while another one is at work for its key; that one may sleep in
turn, inside a look-up that its compiler makes. It then sleeps on a smaller key, so of all sleepers
the one with a least key waits for a thread that is awake (`System.exists_awake`).

Two facts are needed beside `System.Guarded`. A marker belongs to one key for good, also after it has
left the table (`System.Named`), so that who works for the marker of a sleeper runs for the sleeper's
key. And the look-ups of a thread go down in the order, the innermost being the least
(`Thread.Descends`).
-/

set_option autoImplicit false

namespace HandleCalculus.CompileOnce

open Relation (TransGen)

variable {K D E : Type}

/-! ## Whose marker it is -/

/-- The marker that a look-up has left in the table, or waits for. -/
def Frame.marker? : Frame K D E → Option Marker
  | ⟨_, .compiling m⟩ | ⟨_, .settling m _⟩ | ⟨_, .ending m _⟩ | ⟨_, .waking m _⟩
  | ⟨_, .checking m⟩ | ⟨_, .asleep m⟩ => some m
  | ⟨_, .atTable⟩ => none

theorem Frame.marker?_of_wakes {m : Marker} {f : Frame K D E} (hf : f.wakes m = true) :
    f.marker? = some m := by
  obtain ⟨k, phase⟩ := f
  cases phase with
  | atTable => cases hf
  | checking m' => cases hf
  | asleep m' => cases hf
  | _ => exact congrArg some (of_decide_eq_true hf)

variable [DecidableEq K]

/-- Whether a table leaves markers for the keys that they are named for. -/
structure Cache.Named (names : List K) (c : Cache K D) : Prop where
  length_eq : names.length = c.finished.length
  entries : ∀ k m, c.find? k = some (.inFlight m) → names[m]? = some k

/-- Whether a look-up has to do with a marker of its own key only. -/
def Frame.Named (names : List K) (f : Frame K D E) : Prop :=
  ∀ m, f.marker? = some m → names[m]? = some f.key

omit [DecidableEq K] in
theorem Frame.Named.extend {names : List K} {f : Frame K D E} (hf : f.Named names) (more : List K) :
    f.Named (names ++ more) := fun m hm => by
  have hname := hf m hm
  rwa [List.getElem?_append_left (List.getElem?_eq_some_iff.1 hname).1]

namespace Step

variable {i : Nat} {c c' : Cache K D} {t t' : Thread K D E} {choice : Choice K D E}
  {e : Option (Happening K D E)} {names : List K}

/-- A step leaves the names of markers, and a marker given out is named for its key. -/
theorem named (hstep : Step i c choice t c' t' e) (hc : c.Named names)
    (ht : ∀ f ∈ t.stack, f.Named names) :
    ∃ more, c'.Named (names ++ more) ∧ ∀ f ∈ t'.stack, f.Named (names ++ more) := by
  -- a look-up that keeps its key and marker, or lets its marker go, needs no new name
  have kept : ∀ {f g : Frame K D E} {fs : List (Frame K D E)}, t.stack = f :: fs →
      t'.stack = g :: fs → g.key = f.key → (∀ m, g.marker? = some m → f.marker? = some m) →
      ∀ f' ∈ t'.stack, f'.Named (names ++ []) := by
    intro f g fs hf hg hkey hmarker f' hf'
    rw [List.append_nil]
    rw [hf] at ht
    rw [hg] at hf'
    rcases List.mem_cons.1 hf' with rfl | hf'
    · intro m hm
      rw [hkey]
      exact ht f List.mem_cons_self m (hmarker m hm)
    · exact ht f' (List.mem_cons_of_mem _ hf')
  have same : c.Named (names ++ []) := by rwa [List.append_nil]
  cases hstep with
  | start k ks as =>
    refine ⟨[], same, fun f hf => ?_⟩
    obtain rfl := List.mem_singleton.1 hf
    exact nofun
  | hit hk ks fs as =>
    exact ⟨[], same, fun f hf => (ht f (List.mem_cons_of_mem _ hf)).extend []⟩
  | @busy k m hk ks fs as =>
    refine ⟨[], same, fun f hf => ?_⟩
    rcases List.mem_cons.1 hf with rfl | hf
    · rintro m' ⟨⟩
      exact same.entries k m hk
    · exact (ht f (List.mem_cons_of_mem _ hf)).extend []
  | @claim k hk ks fs as =>
    have hfresh : (names ++ [k])[c.finished.length]? = some k := by
      rw [← hc.length_eq]
      exact List.getElem?_concat_length
    refine ⟨[k], ⟨?_, fun k' m hk' => ?_⟩, fun f hf => ?_⟩
    · rw [Cache.claim_of_none hk]
      simp [hc.length_eq]
    · rw [Cache.find?_claim hk] at hk'
      split at hk'
      · next heq =>
        obtain rfl : c.finished.length = m := by simpa using hk'
        rw [heq]
        exact hfresh
      · have hname := hc.entries k' m hk'
        rwa [List.getElem?_append_left (List.getElem?_eq_some_iff.1 hname).1]
    · rcases List.mem_cons.1 hf with rfl | hf
      · rintro m ⟨⟩
        exact hfresh
      · exact (ht f (List.mem_cons_of_mem _ hf)).extend [k]
  | compiled k m result ks fs as => exact ⟨[], same, kept rfl rfl rfl fun m hm => hm⟩
  | nested k k' m ks fs as =>
    refine ⟨[], same, fun f hf => ?_⟩
    rcases List.mem_cons.1 hf with rfl | hf
    · exact nofun
    · exact (ht f hf).extend []
  | publish k m d ks fs as =>
    refine ⟨[], ⟨same.length_eq, fun k' m' hk' => ?_⟩, kept rfl rfl rfl fun m hm => hm⟩
    rw [Cache.find?_publish] at hk'
    split at hk'
    · cases hk'
    · exact same.entries k' m' hk'
  | abandon k m e ks fs as =>
    refine ⟨[], ⟨same.length_eq, fun k' m' hk' => ?_⟩, kept rfl rfl rfl fun m hm => hm⟩
    rw [Cache.find?_abandon] at hk'
    split at hk'
    · cases hk'
    · exact same.entries k' m' hk'
  | finish k m result ks fs as =>
    refine ⟨[], ⟨?_, same.entries⟩, kept rfl rfl rfl fun m hm => hm⟩
    simp [Cache.finish, hc.length_eq]
  | reply k m result ks fs as =>
    exact ⟨[], same, fun f hf => (ht f (List.mem_cons_of_mem _ hf)).extend []⟩
  | retry k hm ks fs as => exact ⟨[], same, kept rfl rfl rfl nofun⟩
  | sleep k hm ks fs as => exact ⟨[], same, kept rfl rfl rfl fun m hm => hm⟩

end Step

/-! ## Look-ups inside look-ups -/

/-- Whether each look-up of the thread is of a key below those of the look-ups that it is made for. -/
def Thread.Descends (r : K → K → Prop) (t : Thread K D E) : Prop :=
  (t.stack.map (·.key)).Pairwise (TransGen r)

/-- Whether a move that makes a compiler look a key up makes it look up one below its own. -/
def System.Allows (s : System K D E) (r : K → K → Prop) (i : Nat) (choice : Choice K D E) : Prop :=
  ∀ t k m rest k', s.threads[i]? = some t → t.stack = ⟨k, .compiling m⟩ :: rest →
    choice = .lookUp k' → r k' k

theorem Step.descends {i : Nat} {c c' : Cache K D} {t t' : Thread K D E} {choice : Choice K D E}
    {e : Option (Happening K D E)} {r : K → K → Prop} (hstep : Step i c choice t c' t' e)
    (ht : t.Descends r)
    (hallowed : ∀ k m rest k', t.stack = ⟨k, .compiling m⟩ :: rest → choice = .lookUp k' → r k' k) :
    t'.Descends r := by
  unfold Thread.Descends at ht ⊢
  cases hstep with
  | start k ks as => exact List.pairwise_singleton _ _
  | hit hk ks fs as => exact (List.pairwise_cons.1 ht).2
  | reply k m result ks fs as => exact (List.pairwise_cons.1 ht).2
  | nested k k' m ks fs as =>
    have hbelow : r k' k := hallowed k m fs k' rfl rfl
    refine List.pairwise_cons.2 ⟨fun j hj => ?_, ht⟩
    rcases List.mem_cons.1 hj with rfl | hj
    · exact .single hbelow
    · exact .head hbelow ((List.pairwise_cons.1 ht).1 j hj)
  | _ => exact ht

namespace System

omit [DecidableEq K] in
theorem keys_wake (m : Marker) (t : Thread K D E) :
    (wake m t).stack.map (·.key) = t.stack.map (·.key) := by
  unfold wake
  split
  · next hstack =>
    split
    · rw [hstack]
      rfl
    · rfl
  · rfl

/-! ## All threads at every moment -/

/-- Whether the table and all look-ups have to do with markers of their own keys only. -/
structure Named (s : System K D E) (names : List K) : Prop where
  cache : s.cache.Named names
  frames : ∀ f ∈ s.frames, f.Named names

/-- What holds of threads at a table at every moment. -/
structure Nests (r : K → K → Prop) (s : System K D E) : Prop where
  guarded : s.Guarded
  named : ∃ names, s.Named names
  descends : ∀ t ∈ s.threads, t.Descends r

variable {r : K → K → Prop} {s s' : System K D E} {i : Nat} {choice : Choice K D E}

theorem Named.step {names : List K} (hs : s.Named names) (h : s.step? i choice = some s') :
    ∃ names', s'.Named names' := by
  obtain ⟨t, t', ht, hstep, hthread⟩ := (took_of_step? h).thread
  have hof : ∀ u ∈ s.threads, ∀ f ∈ u.stack, f.Named names := fun u hu f hf =>
    hs.frames f (List.mem_flatMap.2 ⟨u, hu, hf⟩)
  obtain ⟨more, hcache, hstack⟩ := hstep.named hs.cache (hof t (List.mem_of_getElem? ht))
  refine ⟨names ++ more, hcache, fun f hf => ?_⟩
  obtain ⟨u', hu', hf⟩ := List.mem_flatMap.1 hf
  obtain ⟨j, hj⟩ := List.getElem?_of_mem hu'
  obtain ⟨u, hu, hwoken⟩ := hthread j u' hj
  have hnamed : ∀ f ∈ u.stack, f.Named (names ++ more) := by
    rcases hu with ⟨-, rfl⟩ | hu
    · exact hstack
    · exact fun f hf => (hof u (List.mem_of_getElem? hu) f hf).extend more
  rcases hwoken with rfl | ⟨m, rfl⟩
  · exact hnamed f hf
  · -- who has been woken checks the marker that it slept on
    rcases mem_stack_wake hf with hold | ⟨k, n, rfl, hold⟩
    · exact hnamed f hold
    · exact hnamed ⟨k, .asleep n⟩ hold

theorem Nests.step (hs : s.Nests r) (hallows : s.Allows r i choice)
    (h : s.step? i choice = some s') : s'.Nests r := by
  obtain ⟨names, hnames⟩ := hs.named
  refine ⟨hs.guarded.step h, hnames.step h, fun u' hu' => ?_⟩
  obtain ⟨t, t', ht, hstep, hthread⟩ := (took_of_step? h).thread
  obtain ⟨j, hj⟩ := List.getElem?_of_mem hu'
  obtain ⟨u, hu, hwoken⟩ := hthread j u' hj
  have hdescends : u.Descends r := by
    rcases hu with ⟨-, rfl⟩ | hu
    · exact hstep.descends (hs.descends t (List.mem_of_getElem? ht))
        fun k m rest k' hstack hchoice => hallows t k m rest k' ht hstack hchoice
    · exact hs.descends u (List.mem_of_getElem? hu)
  rcases hwoken with rfl | ⟨m, rfl⟩
  · exact hdescends
  · unfold Thread.Descends
    rw [keys_wake]
    exact hdescends

theorem nests_fresh (r : K → K → Prop) (todos : List (List K)) :
    (fresh todos : System K D E).Nests r := by
  have hframes : (fresh todos : System K D E).frames = [] := by
    simp [frames, fresh, List.flatMap_map]
  have hstack : ∀ t ∈ (fresh todos : System K D E).threads, t.stack = [] := by
    intro t ht
    obtain ⟨ks, -, rfl⟩ := List.mem_map.1 ht
    rfl
  have hfind : ∀ k, (fresh todos : System K D E).cache.find? k = none := fun _ => rfl
  refine ⟨⟨fun k m hk => ?_, fun m hm => ?_, fun k m hf => ?_, fun t ht f hf => ?_⟩,
    ⟨[], ⟨rfl, fun k m hk => ?_⟩, fun f hf => ?_⟩, fun t ht => ?_⟩
  · rw [hfind] at hk
    cases hk
  · cases hm
  · rw [hframes] at hf
    cases hf
  · rw [hstack t ht] at hf
    cases hf
  · rw [hfind] at hk
    cases hk
  · rw [hframes] at hf
    cases hf
  · unfold Thread.Descends
    rw [hstack t ht]
    exact .nil

/-- What threads that began at an empty table can have come to, if compilers look up keys below their
own only. -/
inductive Reachable (r : K → K → Prop) (todos : List (List K)) : System K D E → Prop
  | start : Reachable r todos (fresh todos)
  | step {s s' : System K D E} {i : Nat} {choice : Choice K D E} (before : Reachable r todos s)
      (allows : s.Allows r i choice) (taken : s.step? i choice = some s') : Reachable r todos s'

theorem Reachable.nests {todos : List (List K)} (hs : Reachable r todos s) : s.Nests r := by
  induction hs with
  | start => exact nests_fresh r todos
  | step _ allows taken ih => exact ih.step allows taken

/-! ## Going on -/

/-- A thread whose next step does not depend on the others. -/
def CanStep (s : System K D E) (i : Nat) : Prop :=
  ∀ choice, ∃ s', s.step? i choice = some s'

/-- A thread that is not done has a step to take or is asleep. -/
theorem canStep_or_asleep {t : Thread K D E} (ht : s.threads[i]? = some t)
    (hdone : t.isDone = false) :
    s.CanStep i ∨ ∃ k m rest, t.stack = ⟨k, .asleep m⟩ :: rest := by
  obtain ⟨todo, stack, answers⟩ := t
  cases stack with
  | nil =>
    cases todo with
    | nil => cases hdone
    | cons k ks =>
      refine .inl fun choice =>
        ⟨{ s with threads := s.threads.set i ⟨ks, [⟨k, .atTable⟩], answers⟩ }, ?_⟩
      simp only [step?, ht]
  | cons f rest =>
    obtain ⟨k, phase⟩ := f
    by_cases hawake : ∀ m, phase ≠ .asleep m
    · exact .inl fun choice => exists_step? choice ht rfl hawake
    · obtain ⟨m, rfl⟩ : ∃ m, phase = .asleep m := by simpa using hawake
      exact .inr ⟨k, m, rest, rfl⟩

/-- Who is still to wake the sleepers on a marker runs for their key. -/
theorem Nests.wakes_key (hs : s.Nests r) {k : K} {m : Marker} {f : Frame K D E}
    (hasleep : ⟨k, .asleep m⟩ ∈ s.frames) (hf : f ∈ s.frames) (hwakes : f.wakes m = true) :
    f.key = k := by
  obtain ⟨names, hnames⟩ := hs.named
  have hwaker := hnames.frames f hf m (Frame.marker?_of_wakes hwakes)
  have hsleeper := hnames.frames _ hasleep m rfl
  exact Option.some.inj (hwaker.symm.trans hsleeper)

/-- If anybody is asleep, then somebody is awake: a sleeper with a least key waits for it. -/
theorem Nests.exists_awake (hs : s.Nests r) (hr : WellFounded r) {k : K} {m : Marker}
    (hasleep : ⟨k, .asleep m⟩ ∈ s.frames) : ∃ i, s.CanStep i := by
  -- on the key, along the closure of the order: keys go down several look-ups at a time
  induction k using hr.transGen.induction generalizing m with
  | _ k ih =>
    obtain ⟨f, hf, hwakes⟩ := List.countP_pos_iff.1 (hs.guarded.watched k m hasleep)
    have hkey := hs.wakes_key hasleep hf hwakes
    obtain ⟨t, ht, hmem⟩ := List.mem_flatMap.1 hf
    obtain ⟨j, hj⟩ := List.getElem?_of_mem ht
    have hdone : t.isDone = false := by
      cases hstack : t.stack with
      | nil =>
        rw [hstack] at hmem
        cases hmem
      | cons g rest => simp [Thread.isDone, hstack]
    rcases canStep_or_asleep hj hdone with hcan | ⟨k', m', rest, hstack⟩
    · exact ⟨j, hcan⟩
    · -- the waker is below the innermost look-up of its thread, which sleeps on a smaller key
      rw [hstack] at hmem
      rcases List.mem_cons.1 hmem with rfl | hmem
      · cases hwakes
      · have hdescends := hs.descends t ht
        unfold Thread.Descends at hdescends
        rw [hstack] at hdescends
        have hbelow := (List.pairwise_cons.1 hdescends).1 f.key (List.mem_map.2 ⟨f, hmem, rfl⟩)
        rw [hkey] at hbelow
        refine ih k' hbelow (m := m') (List.mem_flatMap.2 ⟨t, ht, ?_⟩)
        rw [hstack]
        exact List.mem_cons_self

theorem Nests.exists_canStep (hs : s.Nests r) (hr : WellFounded r) (hdone : s.isDone = false) :
    ∃ i, s.CanStep i := by
  obtain ⟨t, ht, hbusy⟩ : ∃ t ∈ s.threads, t.isDone = false := by
    simpa [isDone] using hdone
  obtain ⟨i, hi⟩ := List.getElem?_of_mem ht
  rcases canStep_or_asleep hi hbusy with hcan | ⟨k, m, rest, hstack⟩
  · exact ⟨i, hcan⟩
  · refine hs.exists_awake hr (k := k) (m := m) (List.mem_flatMap.2 ⟨t, ht, ?_⟩)
    rw [hstack]
    exact List.mem_cons_self

/-- Who waits for a marker waits for a look-up of the same key, unless the marker has been ended. -/
theorem Nests.exists_works (hs : s.Nests r) {f : Frame K D E} {m : Marker} (hf : f ∈ s.frames)
    (hm : f.marker? = some m) (hfinished : s.cache.isFinished m = false) :
    ∃ g ∈ s.frames, g.key = f.key ∧ g.works m = true := by
  obtain ⟨names, hnames⟩ := hs.named
  obtain ⟨g, hg, hworks⟩ := List.countP_pos_iff.1 (hs.guarded.marked m hfinished)
  have hmarker := Frame.marker?_of_wakes (Frame.wakes_of_works m g hworks)
  have hname := hnames.frames g hg m hmarker
  exact ⟨g, hg, Option.some.inj (hname.symm.trans (hnames.frames f hf m hm)), hworks⟩

/-- **The table never deadlocks, and no wake-up is lost.** Take any threads that look up any keys, and
an order in which there is no endless way down. Compilers may fail, and they may look up keys below the
one that they run for. At every moment of every schedule at which somebody is not done, somebody has a
step to take, however its compiler goes on. Whoever is about to check a marker or is asleep on one finds
it ended, or a look-up of the same key is still inside its compiling and publishing, with the marker not
ended; and as long as anybody is asleep on a marker, the look-up that left it is still to wake the
sleepers. -/
theorem never_deadlocks (hr : WellFounded r) {todos : List (List K)} (hs : Reachable r todos s) :
    (s.isDone = false → ∃ i, ∀ choice, ∃ s', s.step? i choice = some s') ∧
    (∀ k m, ⟨k, .checking m⟩ ∈ s.frames ∨ ⟨k, .asleep m⟩ ∈ s.frames →
      s.cache.isFinished m = true ∨ ∃ f ∈ s.frames, f.key = k ∧ f.works m = true) ∧
    ∀ k m, ⟨k, .asleep m⟩ ∈ s.frames → ∃ f ∈ s.frames, f.key = k ∧ f.wakes m = true := by
  have hnests := hs.nests
  refine ⟨hnests.exists_canStep hr, fun k m hwaits => ?_, fun k m hasleep => ?_⟩
  · by_cases hfinished : s.cache.isFinished m = true
    · exact .inl hfinished
    · have hfinished : s.cache.isFinished m = false := by simpa using hfinished
      rcases hwaits with hf | hf
      · exact .inr (hnests.exists_works hf rfl hfinished)
      · exact .inr (hnests.exists_works hf rfl hfinished)
  · obtain ⟨f, hf, hwakes⟩ := List.countP_pos_iff.1 (hnests.guarded.watched k m hasleep)
    exact ⟨f, hf, hnests.wakes_key hasleep hf hwakes, hwakes⟩

omit [DecidableEq K] in
theorem allows_compileEnds (s : System K D E) (r : K → K → Prop) (i : Nat) (result : Except E D) :
    s.Allows r i (.compileEnds result) := nofun

/-- Three threads, the second asleep on what the first compiles, and the first, from inside its
compiler, on what the third does. -/
theorem never_deadlocks_of_nested :
    let s : System Nat Nat Nat :=
      ⟨⟨[(0, .inFlight 1), (1, .inFlight 0)], 0, [false, false]⟩,
        [⟨[], [⟨0, .asleep 1⟩, ⟨1, .compiling 0⟩], []⟩, ⟨[], [⟨1, .asleep 0⟩], []⟩,
          ⟨[], [⟨0, .compiling 1⟩], []⟩], 2⟩
    Reachable (· < ·) [[1], [1], [0]] s ∧ s.isDone = false ∧
      (∃ i, ∀ choice, ∃ s', s.step? i choice = some s') ∧
      ∃ f ∈ s.frames, f.key = 1 ∧ f.wakes 0 = true := by
  intro s
  have go : ∀ {s s' : System Nat Nat Nat} (i : Nat), Reachable (· < ·) [[1], [1], [0]] s →
      s.step? i (.compileEnds (.ok 7)) = some s' → Reachable (· < ·) [[1], [1], [0]] s' :=
    fun i hs => hs.step (allows_compileEnds _ _ i _)
  have hclaimed := go 2 (go 2 (go 0 (go 0 .start rfl) rfl) rfl) rfl
  have hnested := hclaimed.step (show Allows _ (· < ·) 0 (.lookUp 0) by
    rintro t k m rest k' ⟨⟩ ⟨⟩ ⟨⟩
    exact Nat.zero_lt_one) rfl
  have hasleep : Reachable (· < ·) [[1], [1], [0]] s :=
    go 1 (go 1 (go 1 (go 0 (go 0 hnested rfl) rfl) rfl) rfl) rfl
  have hprogress := never_deadlocks Nat.lt_wfRel.wf hasleep
  exact ⟨hasleep, rfl, hprogress.1 rfl, hprogress.2.2 1 0 (by simp [s, frames])⟩

end System

end HandleCalculus.CompileOnce
