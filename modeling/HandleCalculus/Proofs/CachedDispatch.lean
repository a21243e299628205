import HandleCalculus.Fetch
import HandleCalculus.Proofs.CompileWaits
import HandleCalculus.Proofs.DirectCalls

/-!
# Cached dispatch is direct dispatch

Handles of one key share a thunk, through the table and through the cells in which they keep what they
have fetched. Wherever a machine has got to, fetches that race for thunks included
(`Machine.Visited`), the thunk fetched for a handle is one for its key, so that it runs the entry routine
of the handle's own kind, and a call through it is the work of the handle's own node.

For a single fetch it is enough that the machine is keyed. For fetches that race, the invariant
(`Race.Sound`) says of each where its look-up stands (`Fetch.At`): whatever the compiler has made for it,
or the table has answered, is for its key.
-/

set_option autoImplicit false

namespace HandleCalculus

open CompileOnce

/-! ## Where fetches stand -/

/-- The outcome of the compiler that a look-up carries. -/
def CompileOnce.Phase.outcome? {D E : Type} : Phase D E → Option (Except E D)
  | .settling _ result | .ending _ result | .waking _ result => some result
  | _ => none

/-- Where the look-up of a fetch stands: about to be made, under way, answered by the table; or the fetch
has been answered. Whatever there is of a thunk is for the key of the handle. -/
inductive Fetch.At : Fetch → Thread ThunkKey Thunk CompileError → Prop where
  | asked (h : Handle) : At ⟨h, none⟩ ⟨[h.key], [], []⟩
  | looking (h : Handle) (phase : Phase Thunk CompileError)
    (carried : ∀ result, phase.outcome? = some result → ∃ t : Thunk, result = .ok t ∧ t.For h.key) :
    At ⟨h, none⟩ ⟨[], [⟨h.key, phase⟩], []⟩
  | found (h : Handle) (t : Thunk) (own : Bool) (found : t.For h.key) :
    At ⟨h, none⟩ ⟨[], [], [⟨h.key, .ok t, own⟩]⟩
  | answered (h : Handle) (t : Thunk) (as : List (Answer ThunkKey Thunk CompileError))
    (answer : t.For h.key) : At ⟨h, some (.ok t)⟩ ⟨[], [], as⟩

namespace Fetch.At

variable {f : Fetch} {t t' : Thread ThunkKey Thunk CompileError}

/-- A look-up without an outcome of the compiler. -/
theorem looking_of_none (h : Handle) (phase : Phase Thunk CompileError)
    (hphase : phase.outcome? = none) : At ⟨h, none⟩ ⟨[], [⟨h.key, phase⟩], []⟩ :=
  .looking h phase fun _ hresult => by rw [hphase] at hresult; cases hresult

theorem wake (h : f.At t) (m : Marker) : f.At (System.wake m t) := by
  cases h with
  | looking h phase carried =>
    cases phase with
    | asleep n =>
      unfold System.wake
      dsimp only
      split
      · exact looking_of_none h (.checking n) rfl
      · exact looking_of_none h (.asleep n) rfl
    | _ => exact .looking h _ carried
  | asked h => exact .asked h
  | found h t own found => exact .found h t own found
  | answered h t as answer => exact .answered h t as answer

/-- A step of the look-up, whose compiler makes thunks for the key, at a table with thunks for their
keys. -/
theorem step {h : Handle} {i id : Nat} {c c' : Cache ThunkKey Thunk}
    {e : Option (Happening ThunkKey Thunk CompileError)} (hat : Fetch.At ⟨h, none⟩ t)
    (hready : ∀ k t, c.find? k = some (.ready t) → t.For k)
    (hstep : Step i c (.compileEnds (Thunk.compile id h.key)) t c' t' e) : Fetch.At ⟨h, none⟩ t' := by
  cases hat with
  | asked =>
    cases hstep with
    | start => exact looking_of_none h .atTable rfl
  | looking _ phase carried =>
    cases hstep with
    | hit hk => exact .found h _ false (hready _ _ hk)
    | busy hk => exact looking_of_none h _ rfl
    | claim hk => exact looking_of_none h _ rfl
    | compiled =>
      obtain ⟨t, ht⟩ := h.exists_compile id
      refine .looking h _ fun result hresult => ⟨t, ?_, Thunk.for_of_compile ht⟩
      rw [← Option.some.inj hresult]
      exact ht
    | publish => exact .looking h _ carried
    | abandon => exact .looking h _ carried
    | finish => exact .looking h _ carried
    | reply k m result =>
      obtain ⟨t, rfl, ht⟩ := carried result rfl
      exact .found h t true ht
    | retry => exact looking_of_none h _ rfl
    | sleep => exact looking_of_none h _ rfl
  | found => cases hstep

/-- A thunk that the table has after the step was there before, or it is for its key as well. -/
theorem ready_step {h : Handle} {i id : Nat} {c c' : Cache ThunkKey Thunk}
    {e : Option (Happening ThunkKey Thunk CompileError)} (hat : Fetch.At ⟨h, none⟩ t)
    (hready : ∀ k t, c.find? k = some (.ready t) → t.For k)
    (hstep : Step i c (.compileEnds (Thunk.compile id h.key)) t c' t' e) :
    ∀ k t, c'.find? k = some (.ready t) → t.For k := by
  intro k d hd
  cases hstep with
  | claim hk =>
    rw [Cache.find?_claim hk] at hd
    split at hd
    · cases hd
    · exact hready k d hd
  | publish k' m d' =>
    rw [Cache.find?_publish] at hd
    split at hd
    · next heq =>
      obtain rfl := Entry.ready.inj (Option.some.inj hd)
      cases hat with
      | looking _ phase carried =>
        obtain ⟨t, ht, hfor⟩ := carried _ rfl
        obtain rfl := Except.ok.inj ht
        rw [heq]
        exact hfor
    · exact hready k d hd
  | abandon k' m e =>
    rw [Cache.find?_abandon] at hd
    split at hd
    · cases hd
    · exact hready k d hd
  | _ => exact hready k d hd

end Fetch.At

/-! ## Races -/

namespace Race

/-- What holds at every moment of a race on a keyed machine. -/
structure Sound (r : Race) : Prop where
  ready : ∀ k t, r.table.cache.find? k = some (.ready t) → t.For k
  cells : ∀ k t, r.cells.lookup k = some t → t.For k.2
  length : r.fetches.length = r.table.threads.length
  stands : ∀ (i : Nat) (f : Fetch) t, r.fetches[i]? = some f → r.table.threads[i]? = some t → f.At t
  guarded : r.table.Guarded

theorem sound_on {m : Machine} (hm : m.Keyed) : (on m).Sound where
  ready k t hk := by
    obtain ⟨t', ht, hfor⟩ := hm.table k _ hk
    obtain rfl := Entry.ready.inj ht
    exact hfor
  cells := hm.cells
  length := rfl
  stands _ _ _ hf _ := by simp [on] at hf
  guarded := by
    refine ⟨fun k mark hk => ?_, fun mark hmark => ?_, nofun, nofun⟩
    · obtain ⟨t, ht, -⟩ := hm.table k _ hk
      cases ht
    · cases hmark.symm.trans (hm.idle mark)

namespace Sound

variable {r r' : Race} {i : Nat}

/-- The thread of a fetch. -/
theorem exists_thread (hr : r.Sound) {f : Fetch} (hf : r.fetches[i]? = some f) :
    ∃ t, r.table.threads[i]? = some t ∧ f.At t := by
  have hi : i < r.table.threads.length := by
    rw [← hr.length]
    exact (List.getElem?_eq_some_iff.1 hf).1
  exact ⟨_, List.getElem?_eq_getElem hi, hr.stands i f _ hf (List.getElem?_eq_getElem hi)⟩

theorem join (hr : r.Sound) {f : Fetch} {t : Thread ThunkKey Thunk CompileError} (hat : f.At t)
    (hstack : t.stack = []) : (r.join f t).Sound where
  ready := hr.ready
  cells := hr.cells
  length := by simp [Race.join, hr.length]
  stands j g u hg hu := by
    have hlength := hr.length
    unfold Race.join at hg hu
    dsimp only at hg hu
    rcases Nat.lt_or_ge j r.fetches.length with hlt | hge
    · rw [List.getElem?_append_left hlt] at hg
      rw [List.getElem?_append_left (hlength ▸ hlt)] at hu
      exact hr.stands j g u hg hu
    · rw [List.getElem?_append_right hge, List.getElem?_singleton] at hg
      rw [List.getElem?_append_right (hlength ▸ hge), List.getElem?_singleton] at hu
      split at hg
      · split at hu
        · obtain rfl := Option.some.inj hg
          obtain rfl := Option.some.inj hu
          exact hat
        · cases hu
      · cases hg
  guarded := hr.guarded.join hstack

theorem start (hr : r.Sound) (h : Handle) : (r.start h).Sound := by
  unfold Race.start
  cases hkept : r.kept? h with
  | some t => exact hr.join (.answered h t [] (hr.cells _ t hkept)) rfl
  | none => exact hr.join (.asked h) rfl

/-- Answering a fetch whose look-up is over, with a thunk for its key. -/
theorem reply (hr : r.Sound) {h : Handle} {t : Thunk} (ht : t.For h.key)
    {as : List (Answer ThunkKey Thunk CompileError)}
    (hthread : r.table.threads[i]? = some ⟨[], [], as⟩) :
    (r.reply i h (.ok t)).Sound where
  ready := hr.ready
  cells := hr.cells
  length := by simp [Race.reply, hr.length]
  stands j f u hf hu := by
    unfold Race.reply at hf
    dsimp only at hf
    rw [List.getElem?_set] at hf
    split at hf
    · next heq =>
      subst heq
      split at hf
      · obtain rfl := Option.some.inj hf
        obtain rfl := Option.some.inj (hthread.symm.trans hu)
        exact .answered h t as ht
      · cases hf
    · exact hr.stands j f u hf hu
  guarded := hr.guarded

/-- The handle keeps the thunk or has one for its key already. -/
theorem keep (hr : r.Sound) {h : Handle} {t : Thunk} (ht : t.For h.key)
    {as : List (Answer ThunkKey Thunk CompileError)}
    (hthread : r.table.threads[i]? = some ⟨[], [], as⟩) :
    (r.keep i h t).Sound := by
  unfold Race.keep
  cases hkept : r.kept? h with
  | some t' => exact hr.reply (hr.cells _ t' hkept) hthread
  | none =>
    have hcells : ({ r with cells := ((h.stamp, h.key), t) :: r.cells } : Race).Sound :=
      ⟨hr.ready, forall_lookup_cons hr.cells ht, hr.length, hr.stands, hr.guarded⟩
    exact hcells.reply ht hthread

/-- A step at the table. -/
theorem step (hr : r.Sound) {h : Handle} (hfetch : r.fetches[i]? = some ⟨h, none⟩)
    (hstep : r.step? i h = some r') : r'.Sound := by
  unfold Race.step? at hstep
  obtain ⟨table, htable, rfl⟩ := Option.map_eq_some_iff.1 hstep
  have hT := System.took_of_step? htable
  obtain ⟨t, t', ht, hstep', hthread⟩ := hT.thread
  have hat := hr.stands i _ t hfetch ht
  refine ⟨hat.ready_step hr.ready hstep', hr.cells, ?_, fun j f u hf hu => ?_,
    hr.guarded.step htable⟩
  · obtain ⟨_, _, -, -, heq | ⟨m, heq⟩⟩ := hT.step <;> simp [heq, hr.length]
  · obtain ⟨v, hv, hwoken⟩ := hthread j u hu
    have hbefore : f.At v := by
      rcases hv with ⟨rfl, rfl⟩ | hv
      · obtain rfl := Option.some.inj (hfetch.symm.trans hf)
        exact hat.step hr.ready hstep'
      · exact hr.stands j f v hf hv
    rcases hwoken with rfl | ⟨m, rfl⟩
    · exact hbefore
    · exact hbefore.wake m

theorem goOn (hr : r.Sound) (hgo : r.goOn? i = some r') : r'.Sound := by
  unfold goOn? at hgo
  split at hgo
  · next h hfetch =>
    obtain ⟨t, ht, hat⟩ := hr.exists_thread hfetch
    rw [ht] at hgo
    cases hat with
    | found _ t own hfor =>
      obtain rfl := Option.some.inj hgo
      exact hr.keep hfor ht
    | _ => exact hr.step hfetch hgo
  · cases hgo

theorem run (hr : r.Sound) (moves : List Move) : (r.run moves).Sound := by
  induction moves generalizing r with
  | nil => exact hr
  | cons m moves ih =>
    refine ih ?_
    unfold move
    cases m with
    | start h => exact hr.start h
    | goOn i =>
      dsimp only
      cases hgo : r.goOn? i with
      | none => exact hr
      | some r' => exact hr.goOn hgo

/-- A race that is over leaves a keyed machine. -/
theorem keyed_leave (hr : r.Sound) (hover : r.isOver = true) (m : Machine) : (r.leave m).Keyed := by
  have hframes : r.table.frames = [] := by
    refine List.flatMap_eq_nil_iff.2 fun t ht => ?_
    obtain ⟨i, hi⟩ := List.getElem?_of_mem ht
    have hlt : i < r.fetches.length := by
      rw [hr.length]
      exact (List.getElem?_eq_some_iff.1 hi).1
    have hfetch := List.getElem?_eq_getElem hlt
    have hanswer : r.fetches[i].answer.isSome = true :=
      List.all_eq_true.1 hover _ (List.getElem_mem hlt)
    have hat := hr.stands i _ t hfetch hi
    generalize r.fetches[i] = f at hanswer hat
    cases hat with
    | answered => rfl
    | _ => cases hanswer
  refine ⟨fun k entry hk => ?_, fun mark => ?_, hr.cells⟩
  · cases entry with
    | ready t => exact ⟨t, rfl, hr.ready k t hk⟩
    | inFlight mark =>
      have hpos := hr.guarded.owned k mark hk
      rw [hframes] at hpos
      cases hpos
  · by_contra hmark
    have hpos := hr.guarded.marked mark (Bool.eq_false_iff.2 hmark)
    rw [hframes] at hpos
    cases hpos

/-- A fetch whose look-up is not asleep can go on. -/
theorem exists_goOn?_of_awake (hr : r.Sound) {h : Handle} (hfetch : r.fetches[i]? = some ⟨h, none⟩)
    {t : Thread ThunkKey Thunk CompileError} (ht : r.table.threads[i]? = some t)
    (hawake : ∀ m, ⟨h.key, .asleep m⟩ ∉ t.stack) : ∃ r', r.goOn? i = some r' := by
  have hstep : ∀ table, r.table.step? i (.compileEnds (Thunk.compile r.nextId h.key)) = some table →
      ∃ r', r.step? i h = some r' := by
    intro table htable
    simp only [Race.step?, htable]
    exact ⟨_, rfl⟩
  have hgo : ∀ r', t.answers = [] → r.step? i h = some r' → r.goOn? i = some r' := by
    intro r' hanswers hr'
    simp only [goOn?, hfetch, ht, hanswers, Option.bind_some, List.head?_nil]
    exact hr'
  have hat := hr.stands i _ t hfetch ht
  cases hat with
  | asked =>
    have htable : ∃ table, r.table.step? i (.compileEnds (Thunk.compile r.nextId h.key)) = some table :=
      ⟨_, by simp only [System.step?, ht]; rfl⟩
    obtain ⟨table, htable⟩ := htable
    obtain ⟨r', hr'⟩ := hstep table htable
    exact ⟨r', hgo r' rfl hr'⟩
  | looking _ phase carried =>
    obtain ⟨table, htable⟩ := System.exists_step? (.compileEnds (Thunk.compile r.nextId h.key)) ht rfl
      fun m hm => hawake m (by simp [hm])
    obtain ⟨r', hr'⟩ := hstep table htable
    exact ⟨r', hgo r' rfl hr'⟩
  | found _ t own hfor =>
    refine ⟨r.keep i h t, ?_⟩
    simp only [goOn?, hfetch, ht]
    rfl

/-- As long as a fetch has no answer, some fetch can go on: if it is asleep itself, then the one that is
to wake it can. -/
theorem exists_goOn? (hr : r.Sound) (hover : r.isOver = false) : ∃ i r', r.goOn? i = some r' := by
  obtain ⟨f, hf, hnone⟩ := List.all_eq_false.1 hover
  obtain ⟨i, hi⟩ := List.getElem?_of_mem hf
  obtain ⟨h, answer⟩ := f
  obtain rfl : answer = none := by simpa using hnone
  obtain ⟨t, ht, hat⟩ := hr.exists_thread hi
  by_cases hasleep : ∃ m, ⟨h.key, .asleep m⟩ ∈ t.stack
  · obtain ⟨m, hm⟩ := hasleep
    have hpos := hr.guarded.watched h.key m
      (List.mem_flatMap.2 ⟨t, List.mem_of_getElem? ht, hm⟩)
    obtain ⟨g, hg, hwakes⟩ := List.countP_pos_iff.1 hpos
    obtain ⟨u, hu, hgu⟩ := List.mem_flatMap.1 hg
    obtain ⟨j, hj⟩ := List.getElem?_of_mem hu
    have hlt : j < r.fetches.length := by
      rw [hr.length]
      exact (List.getElem?_eq_some_iff.1 hj).1
    have hfetch := List.getElem?_eq_getElem hlt
    have hstands := hr.stands j _ u hfetch hj
    generalize r.fetches[j] = f at hfetch hstands
    cases hstands with
    | looking k phase carried =>
      obtain rfl := List.mem_singleton.1 hgu
      refine ⟨j, hr.exists_goOn?_of_awake hfetch hj fun n hn => ?_⟩
      rw [← List.mem_singleton.1 hn] at hwakes
      cases hwakes
    | _ => cases hgu
  · exact ⟨i, hr.exists_goOn?_of_awake hi ht fun m hm => hasleep ⟨m, hm⟩⟩

end Sound

/-! ### A fetch on its own -/

section Alone

/-- A race of one fetch. -/
def alone (c : Cache ThunkKey Thunk) (runs id : Nat) (cells : List ((Stamp × ThunkKey) × Thunk))
    (t : Thread ThunkKey Thunk CompileError) (f : Fetch) : Race :=
  ⟨⟨c, [t], runs⟩, id, cells, [f]⟩

/-- The only fetch goes on, as often as it can and `n` times at most. -/
def goOn (n : Nat) (r : Race) : Race := r.run (List.replicate n (.goOn 0))

/-- A fetch and nothing else: it has no more than seven steps to take. -/
def lone (r : Race) (h : Handle) : Race := goOn 7 (r.start h)

variable {c : Cache ThunkKey Thunk} {runs id n : Nat} {cells : List ((Stamp × ThunkKey) × Thunk)}
  {h : Handle}

/-- Such a fetch is a race. -/
theorem exists_lone_eq (r : Race) (h : Handle) : ∃ moves, r.lone h = r.run moves := by
  refine ⟨.start h :: List.replicate 7 (.goOn 0), ?_⟩
  unfold lone goOn run
  rw [List.foldl_cons]
  rfl

theorem goOn_succ {r r' : Race} (hgo : r.goOn? 0 = some r') : goOn (n + 1) r = goOn n r' := by
  show goOn n ((r.goOn? 0).getD r) = goOn n r'
  rw [hgo, Option.getD_some]

/-- A fetch that has its answer stays where it is. -/
theorem goOn_answered (t : Thread ThunkKey Thunk CompileError) (x : Except CompileError Thunk) :
    goOn n (alone c runs id cells t ⟨h, some x⟩) = alone c runs id cells t ⟨h, some x⟩ := by
  induction n with
  | zero => rfl
  | succ n ih => exact ih

/-- A fetch that the table has answered fills the cell and has its answer. -/
theorem goOn_found (hcell : cells.lookup (h.stamp, h.key) = none) (t : Thunk) (own : Bool) :
    goOn (n + 1) (alone c runs id cells ⟨[], [], [⟨h.key, .ok t, own⟩]⟩ ⟨h, none⟩) =
      alone c runs id (((h.stamp, h.key), t) :: cells) ⟨[], [], [⟨h.key, .ok t, own⟩]⟩
        ⟨h, some (.ok t)⟩ := by
  have hkeep : (alone c runs id cells ⟨[], [], [⟨h.key, .ok t, own⟩]⟩ ⟨h, none⟩).goOn? 0 =
      some (alone c runs id (((h.stamp, h.key), t) :: cells) ⟨[], [], [⟨h.key, .ok t, own⟩]⟩
        ⟨h, some (.ok t)⟩) := by
    show some (keep (alone c runs id cells _ _) 0 h t) = _
    simp only [keep, kept?, alone, hcell]
    rfl
  rw [goOn_succ hkeep, goOn_answered]

/-- A fetch of what the table has. -/
theorem goOn_ready (hcell : cells.lookup (h.stamp, h.key) = none) {t : Thunk}
    (hready : c.find? h.key = some (.ready t)) :
    goOn (n + 3) (alone c runs id cells ⟨[h.key], [], []⟩ ⟨h, none⟩) =
      alone c runs id (((h.stamp, h.key), t) :: cells) ⟨[], [], [⟨h.key, .ok t, false⟩]⟩
        ⟨h, some (.ok t)⟩ := by
  have hclaim : c.claim h.key = (.ready t, c) := by simp [Cache.claim, hready]
  calc goOn (n + 3) (alone c runs id cells ⟨[h.key], [], []⟩ ⟨h, none⟩)
      = goOn (n + 2) (alone c runs id cells ⟨[], [⟨h.key, .atTable⟩], []⟩ ⟨h, none⟩) := goOn_succ rfl
    _ = goOn (n + 1) (alone c runs id cells ⟨[], [], [⟨h.key, .ok t, false⟩]⟩ ⟨h, none⟩) := by
        refine goOn_succ ?_
        simp [alone, goOn?, step?, System.step?, hclaim, System.answer, compiles]
    _ = _ := goOn_found hcell t false

/-- A fetch that compiles the thunk. -/
theorem goOn_compiles (hcell : cells.lookup (h.stamp, h.key) = none) (hnone : c.find? h.key = none)
    {t : Thunk} (hcompile : Thunk.compile id h.key = .ok t) :
    goOn (n + 7) (alone c runs id cells ⟨[h.key], [], []⟩ ⟨h, none⟩) =
      alone (c.get h.key (.ok t : Except CompileError Thunk)).2 (runs + 1) (id + 1)
        (((h.stamp, h.key), t) :: cells) ⟨[], [], [⟨h.key, .ok t, true⟩]⟩ ⟨h, some (.ok t)⟩ := by
  have hclaim : c.claim h.key = (.claimed c.finished.length, (c.claim h.key).2) := by
    simp [Cache.claim, hnone]
  have hget : (c.get h.key (.ok t : Except CompileError Thunk)).2 =
      ((c.claim h.key).2.publish h.key t).finish c.finished.length := by
    rw [Cache.get, hclaim]
  rw [hget]
  generalize c.finished.length = m at hclaim
  generalize (c.claim h.key).2 = c' at hclaim
  calc goOn (n + 7) (alone c runs id cells ⟨[h.key], [], []⟩ ⟨h, none⟩)
      = goOn (n + 6) (alone c runs id cells ⟨[], [⟨h.key, .atTable⟩], []⟩ ⟨h, none⟩) := goOn_succ rfl
    _ = goOn (n + 5) (alone c' (runs + 1) id cells ⟨[], [⟨h.key, .compiling m⟩], []⟩ ⟨h, none⟩) := by
        refine goOn_succ ?_
        simp [alone, goOn?, step?, System.step?, hclaim, compiles]
    _ = goOn (n + 4) (alone c' (runs + 1) (id + 1) cells ⟨[], [⟨h.key, .settling m (.ok t)⟩], []⟩
          ⟨h, none⟩) := by
        refine goOn_succ ?_
        simp [alone, goOn?, step?, System.step?, hcompile, compiles, Except.isOk, Except.toBool]
    _ = goOn (n + 3) (alone (c'.publish h.key t) (runs + 1) (id + 1) cells
          ⟨[], [⟨h.key, .ending m (.ok t)⟩], []⟩ ⟨h, none⟩) := goOn_succ rfl
    _ = goOn (n + 2) (alone ((c'.publish h.key t).finish m) (runs + 1) (id + 1) cells
          ⟨[], [⟨h.key, .waking m (.ok t)⟩], []⟩ ⟨h, none⟩) := goOn_succ rfl
    _ = goOn (n + 1) (alone ((c'.publish h.key t).finish m) (runs + 1) (id + 1) cells
          ⟨[], [], [⟨h.key, .ok t, true⟩]⟩ ⟨h, none⟩) := goOn_succ rfl
    _ = _ := goOn_found hcell t true

/-- **A fetch that nobody disturbs** is answered the thunk that `Handle.thunk` answers, and leaves the
same machine, the log apart. -/
theorem lone_eq_thunk {m : Machine} (hm : m.Keyed) (h : Handle) :
    ∃ t n, h.thunk m = .ok t n ∧ ((on m).lone h).fetches = [⟨h, some (.ok t)⟩] ∧
      n = { ((on m).lone h).leave m with store := n.store } := by
  have hjoin : ∀ f t, ((on m).join f t) = alone m.thunks.cache 0 m.thunks.nextId m.cells t f :=
    fun _ _ => rfl
  unfold lone start kept?
  have hcells : (on m).cells = m.cells := rfl
  rw [hcells]
  rcases hm.thunk_cases h with ⟨t, hcell, hthunk⟩ |
    ⟨hcell, ⟨t, hready, hthunk⟩ | ⟨t, thunks, hnone, hcompile, rfl, hthunk⟩⟩
  · rw [hcell]
    dsimp only
    rw [hjoin, goOn_answered]
    exact ⟨t, m, hthunk, rfl, rfl⟩
  · rw [hcell]
    dsimp only
    rw [hjoin, goOn_ready hcell hready]
    exact ⟨t, _, hthunk, rfl, rfl⟩
  · rw [hcell]
    dsimp only
    rw [hjoin, goOn_compiles hcell hnone hcompile]
    exact ⟨t, _, hthunk, rfl, rfl⟩

end Alone

end Race

/-! ## Histories -/

/-- The machines that can be reached: handles are made in all the ways there are and called, for any
program; the slots, the call sites, the log and the record of what has run change in any way; and any
fetches race, until each has its answer. -/
inductive Machine.Visited : Machine → Prop where
  | start (memberCache : Bool) : Visited (.initial memberCache)
  | made {m : Machine} (before : Visited m) (G : ClassGraph) (mk : Making) :
    Visited ((mk.run G).start m).2
  | called {m : Machine} (before : Visited m) (P : Program) (depth : Nat) (h : Handle)
      (args : List Value) : Visited ((h.invokeBasic P depth args).leaves m)
  | changed {m : Machine} (before : Visited m) (s : Store) (calls : Array Call) :
    Visited { m with store := s, calls := calls }
  | raced {m : Machine} (before : Visited m) (moves : List Race.Move)
      (ended : ((Race.on m).run moves).isOver = true) : Visited (((Race.on m).run moves).leave m)

theorem Machine.Visited.keyed {m : Machine} (hm : m.Visited) : m.Keyed := by
  induction hm with
  | start memberCache => exact Machine.keyed_initial memberCache
  | made _ G mk ih => exact mk.keyed_run ih G
  | called _ P depth h args ih => exact h.keeps_keyed_invokeBasic P depth args _ ih
  | changed _ s calls ih => exact ih.change s calls
  | raced _ moves ended ih => exact ((Race.sound_on ih).run moves).keyed_leave ended _

/-- A fetch is one more step of a history. -/
theorem Machine.Visited.thunk {m n : Machine} (hm : m.Visited) {h : Handle} {t : Thunk}
    (hthunk : h.thunk m = .ok t n) : n.Visited := by
  obtain ⟨t', n', hthunk', hfetches, hleave⟩ := Race.lone_eq_thunk hm.keyed h
  obtain ⟨rfl, rfl⟩ : t' = t ∧ n' = n := by
    rw [hthunk] at hthunk'
    cases hthunk'
    exact ⟨rfl, rfl⟩
  have hover : ((Race.on m).lone h).isOver = true := by
    unfold Race.isOver
    rw [hfetches]
    rfl
  obtain ⟨moves, hmoves⟩ := Race.exists_lone_eq (Race.on m) h
  rw [hmoves] at hover hleave
  rw [hleave]
  exact .changed (.raced hm moves hover) _ m.calls

/-! ## Dispatch -/

/-- Whether a thunk is right for a handle: it has the handle's key, so takes the argument slots of its
signature and answers its erased result, and its entry routine does the work of the handle's own node. -/
structure Thunk.Suits (t : Thunk) (h : Handle) : Prop where
  key : t.key = h.key
  argSlots : t.argSlots = h.type.slots
  ret : t.ret = h.type.shape.ret
  routine : ∀ (P : Program) (call : Caller) (args : List Value),
    h.enter P call t.key.variant args = h.perform P call args

theorem Thunk.For.suits {t : Thunk} {h : Handle} (ht : t.For h.key) : t.Suits h where
  key := ht.key
  argSlots := ht.argSlots.trans (Signature.slots_shape h.type)
  ret := ht.ret
  routine P call args := by
    rw [ht.key]
    exact h.enter_variant P call args

/-- **Cached dispatch is direct dispatch.** Wherever a machine has got to, the thunk of a handle is
fetched without failure and is right for the handle; so a call does the work of the handle's own node,
over calls that are one less deep, and ends as the call without any thunks does, the log apart. While
fetches race, every answer that one has got so far is right for its handle, and as long as one has no
answer some fetch can go on. -/
theorem Machine.Visited.dispatches {m : Machine} (hm : m.Visited) :
    (∀ h : Handle, ∃ t n, h.thunk m = .ok t n ∧ t.Suits h ∧ n.Visited ∧ n.visible = m.visible ∧
      ∀ (P : Program) (depth : Nat) (args : List Value),
        h.invokeBasic P (depth + 1) args m = h.perform P (Handle.invokeBasic P depth) args n) ∧
    (∀ (P : Program) (depth : Nat) (h : Handle) (args : List Value), P.Blind →
      seen Machine.visible (h.invokeBasic P depth args m) =
        seen Machine.visible (h.invokeUncached P depth args m)) ∧
    ∀ moves : List Race.Move,
      (∀ (i : Nat) (h : Handle) (result : Except CompileError Thunk),
        ((Race.on m).run moves).fetches[i]? = some ⟨h, some result⟩ →
          ∃ t, result = .ok t ∧ t.Suits h) ∧
      (((Race.on m).run moves).isOver = false →
        ∃ i r, ((Race.on m).run moves).goOn? i = some r) := by
  refine ⟨fun h => ?_, fun P depth h args hP => ?_, fun moves => ?_⟩
  · obtain ⟨t, n, hthunk, hfor, -, hvisible⟩ := hm.keyed.thunk h
    refine ⟨t, n, hthunk, hfor.suits, hm.thunk hthunk, hvisible, fun P depth args => ?_⟩
    rw [Handle.invokeBasic_succ]
    unfold Handle.invokeVia
    rw [bind_eq_of_ok hthunk, hfor.suits.routine]
  · exact (Handle.same_invokeBasic hP depth h args m m hm.keyed hm.keyed rfl).seen_eq
  · have hr := (Race.sound_on hm.keyed).run moves
    refine ⟨fun i h result hfetch => ?_, hr.exists_goOn?⟩
    obtain ⟨t, -, hat⟩ := hr.exists_thread hfetch
    cases hat with
    | answered _ t _ hfor => exact ⟨t, rfl, hfor.suits⟩

/-! ## Two handles that share a thunk -/

/-- A handle on the second of the twins. -/
def Handle.otherTwin : Handle :=
  ⟨2, ⟨[], .prim .int, List.not_mem_nil, Nat.zero_le _⟩, .direct ⟨bootstrapCount, 1⟩ .static⟩

/-- The fetches of the thunks of both twins. The second finds the key in flight and falls asleep until
the first has compiled the thunk. -/
def Race.ofTwins : List Race.Move :=
  [.start .twin, .start .otherTwin, .goOn 0, .goOn 0, .goOn 1, .goOn 1, .goOn 1, .goOn 0, .goOn 0,
    .goOn 0, .goOn 0, .goOn 0, .goOn 1, .goOn 1, .goOn 1]

/-- After the race both twins keep the one thunk compiled, and a call of either runs its own body. -/
theorem Machine.Visited.dispatches_of_twins :
    ∃ m : Machine, m.Visited ∧ m.thunks.nextId = 1 ∧
      ∃ t, Handle.twin.thunk m = .ok t m ∧ Handle.otherTwin.thunk m = .ok t m ∧
        t.Suits .twin ∧ t.Suits .otherTwin ∧
        ((Handle.otherTwin.invokeBasic (.zeros twins) 1 []).leaves m).calls =
          #[⟨⟨bootstrapCount, 1⟩, []⟩] := by
  let r := (Race.on (.initial false)).run Race.ofTwins
  have hm : (r.leave (.initial false)).Visited := .raced (.start false) Race.ofTwins rfl
  let t : Thunk := ⟨Handle.twin.key, 0, Handle.twin.type.shape.ret, 0⟩
  have hfirst : Handle.twin.thunk (r.leave (.initial false)) = .ok t (r.leave (.initial false)) := rfl
  have hother : Handle.otherTwin.thunk (r.leave (.initial false)) =
      .ok t (r.leave (.initial false)) := rfl
  obtain ⟨t₁, n₁, hthunk₁, hsuits₁, -⟩ := hm.dispatches.1 .twin
  obtain ⟨t₂, n₂, hthunk₂, hsuits₂, -⟩ := hm.dispatches.1 .otherTwin
  cases hfirst.symm.trans hthunk₁
  cases hother.symm.trans hthunk₂
  exact ⟨_, hm, rfl, t, hfirst, hother, hsuits₁, hsuits₂, rfl⟩

end HandleCalculus
