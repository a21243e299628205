import HandleCalculus.Proofs.CompileSteps
import HandleCalculus.Proofs.CompileTable

/-!
# Every key is compiled once

Threads at a compile-once table, stepping in any order; a compiler may fail, and it may even look
other keys up. The invariant (`Sound`) keeps accounts: a key is in flight exactly as long as one
look-up owns its marker (`owners`), a run that has begun has ended or is going on (`begun`), a success
has been published or is about to be (`succeeded`), and an outcome has been answered or is about to be
by the look-up that made it (`carried`). An account is kept by a step if the step of the one thread
balances, whatever the others do; so failed runs, whose markers vanish before those who wait for them
have noticed, need no case of their own.

`compile_once` reads the guarantees of the table off the accounts, and the outcome of a crowd.
-/

set_option autoImplicit false

namespace HandleCalculus.CompileOnce

variable {K D E : Type}

/-! ## Kinds of look-ups -/

/-- Whether an outcome is a failure. -/
def isFailure : Except E D → Bool
  | .error _ => true
  | .ok _ => false

namespace Frame

/-- Whether its compiler is running, for a key and a marker that `p` holds of. -/
def isCompiling (p : K → Marker → Bool) : Frame K D E → Bool
  | ⟨k, .compiling m⟩ => p k m
  | _ => false

/-- Whether its compiler is done and the table is still to be changed. -/
def isSettling (p : K → Except E D → Bool) : Frame K D E → Bool
  | ⟨k, .settling _ result⟩ => p k result
  | _ => false

/-- Whether its compiler is done, with an outcome that `p` holds of, and it is not answered yet. -/
def carries (p : Except E D → Bool) : Frame K D E → Bool
  | ⟨_, .settling _ result⟩ | ⟨_, .ending _ result⟩ | ⟨_, .waking _ result⟩ => p result
  | _ => false

/-- Whether the marker in the table for key `k` is its own. -/
def owns [DecidableEq K] (k : K) : Frame K D E → Bool
  | ⟨k', .compiling _⟩ | ⟨k', .settling ..⟩ => k' = k
  | _ => false

theorem owns_of_isCompiling [DecidableEq K] (k : K) (f : Frame K D E)
    (hf : f.isCompiling (fun k' _ => k' = k) = true) : f.owns k = true := by
  obtain ⟨k', phase⟩ := f
  cases phase with
  | compiling m => exact hf
  | _ => cases hf

theorem owns_of_isSettling [DecidableEq K] (k : K) (f : Frame K D E)
    (hf : f.isSettling (fun k' r => k' = k && !isFailure r) = true) : f.owns k = true := by
  obtain ⟨k', phase⟩ := f
  cases phase with
  | settling m result => exact (Bool.and_eq_true_iff.1 hf).1
  | _ => cases hf

end Frame

variable [DecidableEq K]

/-- What is known of a look-up of thread `i` from the phase it is in: where the outcome that it
carries comes from, and that a success has been published. -/
def Frame.Justified (c : Cache K D) (h : List (Happening K D E)) (i : Nat) :
    Frame K D E → Prop
  | ⟨k, .settling m result⟩ => .ended i k m result ∈ h
  | ⟨k, .ending m result⟩ | ⟨k, .waking m result⟩ =>
    .ended i k m result ∈ h ∧ ∀ d, result = .ok d → c.find? k = some (.ready d)
  | _ => True

/-! ## What a step keeps in balance -/

namespace Step

variable {i : Nat} {c c' : Cache K D} {t t' : Thread K D E} {choice : Choice K D E}
  {e : Option (Happening K D E)}

/-- A run of the compiler that begins is going on until it ends. -/
theorem begun_balance (hstep : Step i c choice t c' t' e) (p : K → Marker → Bool) :
    e.toList.countP (Happening.begins p) + t.stack.countP (Frame.isCompiling p) =
      e.toList.countP (Happening.ends fun k m _ => p k m) +
        t'.stack.countP (Frame.isCompiling p) := by
  cases hstep with
  | claim hk ks fs as =>
    simp [List.countP_cons, Frame.isCompiling, Happening.begins, Happening.ends]
    exact Nat.add_comm _ _
  | compiled k m result ks fs as =>
    simp [List.countP_cons, Frame.isCompiling, Happening.begins, Happening.ends]
    exact Nat.add_comm _ _
  | _ => simp [List.countP_cons, Frame.isCompiling, Happening.begins, Happening.ends]

/-- An answer is seen when it is given. -/
theorem answers_balance (hstep : Step i c choice t c' t' e) (p : K → Except E D → Bool) :
    e.toList.countP (Happening.answers p) + t.answers.countP (fun a => p a.key a.result) =
      t'.answers.countP (fun a => p a.key a.result) := by
  cases hstep with
  | hit hk ks fs as =>
    simp [List.countP_cons, Happening.answers]
    exact Nat.add_comm _ _
  | reply k m result ks fs as =>
    simp [List.countP_cons, Happening.answers]
    exact Nat.add_comm _ _
  | _ => simp [Happening.answers]

/-- The outcome of a run is carried by its look-up until that is answered. -/
theorem carried_balance (hstep : Step i c choice t c' t' e) (p : Except E D → Bool) :
    e.toList.countP (Happening.ends fun _ _ r => p r) +
        t.answers.countP (fun a => a.compiled && p a.result) + t.stack.countP (Frame.carries p) =
      t'.answers.countP (fun a => a.compiled && p a.result) +
        t'.stack.countP (Frame.carries p) := by
  cases hstep with
  | compiled k m result ks fs as =>
    cases hp : p result <;> simp [Frame.carries, Happening.ends, hp]
    omega
  | publish k m d ks fs as => cases hp : p (.ok d) <;> simp [Frame.carries, hp]
  | abandon k m e ks fs as => cases hp : p (.error e) <;> simp [Frame.carries, hp]
  | finish k m result ks fs as => cases hp : p result <;> simp [Frame.carries, hp]
  | reply k m result ks fs as =>
    cases hp : p result <;> simp [Frame.carries, Happening.ends, hp]
    omega
  | _ => simp [Frame.carries, Happening.ends]

/-- Nobody is answered with a failure that is not its own. -/
theorem foreign_balance (hstep : Step i c choice t c' t' e) :
    t'.answers.countP (fun a => !a.compiled && isFailure a.result) =
      t.answers.countP fun a => !a.compiled && isFailure a.result := by
  cases hstep <;> simp [isFailure]

end Step

/-! ## Where outcomes come from -/

namespace Frame

variable {c c' : Cache K D} {h h' : List (Happening K D E)} {i : Nat}

/-- What is known of a look-up stays so while the history grows and what is compiled stays. -/
theorem Justified.mono {f : Frame K D E} (hf : f.Justified c h i)
    (hc : ∀ k d, c.find? k = some (.ready d) → c'.find? k = some (.ready d))
    (hh : ∀ x ∈ h, x ∈ h') : f.Justified c' h' i := by
  obtain ⟨k, phase⟩ := f
  cases phase with
  | settling m result => exact hh _ hf
  | ending m result => exact ⟨hh _ hf.1, fun d hd => hc k d (hf.2 d hd)⟩
  | waking m result => exact ⟨hh _ hf.1, fun d hd => hc k d (hf.2 d hd)⟩
  | _ => trivial

/-- The step of a thread justifies the look-up at the top of its stack. -/
theorem justified_of_step {t t' : Thread K D E} {choice : Choice K D E}
    {e : Option (Happening K D E)}
    (hstep : Step i c choice t c' t' e) (ht : ∀ f ∈ t.stack, f.Justified c h i)
    (hc : ∀ k d, c.find? k = some (.ready d) → c'.find? k = some (.ready d)) :
    ∀ f ∈ t'.stack, f.Justified c' (h ++ e.toList) i := by
  intro f hf
  have hold : ∀ f ∈ t.stack, f.Justified c' (h ++ e.toList) i :=
    fun f hf => (ht f hf).mono hc fun x hx => List.mem_append_left _ hx
  -- only the look-up at the top is in a new phase; those below know what they knew
  cases hstep with
  | start k ks as =>
    obtain rfl := List.mem_singleton.1 hf
    trivial
  | hit hk ks fs as => exact hold f (List.mem_cons_of_mem _ hf)
  | reply k m result ks fs as => exact hold f (List.mem_cons_of_mem _ hf)
  | nested k k' m ks fs as =>
    rcases List.mem_cons.1 hf with rfl | hf
    · trivial
    · exact hold f hf
  | compiled k m result ks fs as =>
    rcases List.mem_cons.1 hf with rfl | hf
    · show _ ∈ _
      simp
    · exact hold f (List.mem_cons_of_mem _ hf)
  | publish k m d ks fs as =>
    rcases List.mem_cons.1 hf with rfl | hf
    · refine ⟨hold _ List.mem_cons_self, fun d' hd' => ?_⟩
      obtain rfl : d = d' := by simpa using hd'
      simp [Cache.find?_publish]
    · exact hold f (List.mem_cons_of_mem _ hf)
  | abandon k m e ks fs as =>
    rcases List.mem_cons.1 hf with rfl | hf
    · exact ⟨hold _ List.mem_cons_self, fun d' hd' => by cases hd'⟩
    · exact hold f (List.mem_cons_of_mem _ hf)
  | finish k m result ks fs as =>
    rcases List.mem_cons.1 hf with rfl | hf
    · have hj := hold ⟨k, .ending m result⟩ List.mem_cons_self
      exact hj
    · exact hold f (List.mem_cons_of_mem _ hf)
  | _ =>
    rcases List.mem_cons.1 hf with rfl | hf
    · trivial
    · exact hold f (List.mem_cons_of_mem _ hf)

end Frame

/-! ## The invariant -/

/-- What holds at every moment of a schedule, with `h` the history so far. -/
structure Sound (s : System K D E) (h : List (Happening K D E)) : Prop where
  nodup_keys : s.cache.keys.Nodup
  compilations_eq : s.cache.compilations = s.cache.size
  runs_eq : s.runs = h.countP (Happening.begins fun _ _ => true)
  /-- A key is in flight exactly as long as one look-up owns its marker. -/
  owners : ∀ k, s.frames.countP (Frame.owns k) = (s.cache.isInFlight k).toNat
  /-- Runs that have begun have ended or are going on. -/
  begun : ∀ p : K → Marker → Bool, h.countP (Happening.begins p) =
    h.countP (Happening.ends fun k m _ => p k m) + s.frames.countP (Frame.isCompiling p)
  /-- A success has been published or is about to be. -/
  succeeded : ∀ k, h.countP (Happening.ends fun k' _ r => k' = k && !isFailure r) =
    (s.cache.peek? k).isSome.toNat +
      s.frames.countP (Frame.isSettling fun k' r => k' = k && !isFailure r)
  /-- The outcome of a run has been answered or is about to be, by the look-up that made it. -/
  carried : ∀ p : Except E D → Bool, h.countP (Happening.ends fun _ _ r => p r) =
    s.answers.countP (fun a => a.compiled && p a.result) + s.frames.countP (Frame.carries p)
  foreign : s.answers.countP (fun a => !a.compiled && isFailure a.result) = 0
  markers : (∀ i k m, .begun i k m ∈ h → m < s.cache.finished.length) ∧
    ∀ m, h.countP (Happening.begins fun _ m' => m' = m) ≤ 1
  justified : ∀ (i : Nat) (t : Thread K D E), s.threads[i]? = some t →
    ∀ f ∈ t.stack, Frame.Justified s.cache h i f
  ready : ∀ k d, s.cache.find? k = some (.ready d) → ∃ i m, .ended i k m (.ok d) ∈ h
  answers_eq : ∀ p : K → Except E D → Bool,
    h.countP (Happening.answers p) = s.answers.countP fun a => p a.key a.result
  succeeds : ∀ i k d own, .answered i k (.ok d) own ∈ h → s.cache.find? k = some (.ready d)
  fails : ∀ h₁ h₂ i k e own, h = h₁ ++ .answered i k (.error e) own :: h₂ →
    ∃ m, own = some m ∧ .ended i k m (.error e) ∈ h₁

namespace Sound

variable {s s' : System K D E} {h : List (Happening K D E)} {i : Nat}
  {choice : Choice K D E} {e : Option (Happening K D E)}

/-- The thread at the top of whose stack the owner of a marker is, finds its marker. -/
theorem inFlight (hs : Sound s h) {t : Thread K D E} (ht : s.threads[i]? = some t)
    {f : Frame K D E} (hf : f ∈ t.stack) {k : K} (hk : f.owns k = true) :
    ∃ m, s.cache.find? k = some (.inFlight m) := by
  have hmem : f ∈ s.frames := List.mem_flatMap.2 ⟨t, List.mem_of_getElem? ht, hf⟩
  have hpos : 0 < s.frames.countP (Frame.owns k) := List.countP_pos_iff.2 ⟨f, hmem, hk⟩
  rw [hs.owners k] at hpos
  unfold Cache.isInFlight at hpos
  split at hpos
  · next m hm => exact ⟨m, hm⟩
  · cases hpos

/-- The look-up about to change the table finds its own marker there. -/
theorem inFlight_of_settling (hs : Sound s h) {ks : List K} {k : K} {m : Marker}
    {result : Except E D} {fs : List (Frame K D E)} {as : List (Answer K D E)}
    (ht : s.threads[i]? = some ⟨ks, ⟨k, .settling m result⟩ :: fs, as⟩) :
    ∃ m, s.cache.find? k = some (.inFlight m) :=
  hs.inFlight ht List.mem_cons_self (by simp [Frame.owns])

theorem nodup_keys_step (hs : Sound s h) (hT : s.Took i choice e s') : s'.cache.keys.Nodup := by
  obtain ⟨t, t', ht, hstep, -⟩ := hT.step
  generalize s'.cache = c' at hstep
  cases hstep with
  | claim hk => exact Cache.nodup_keys_claim hs.nodup_keys hk
  | publish k m d => exact Cache.nodup_keys_publish hs.nodup_keys k d
  | abandon k m e => exact Cache.nodup_keys_abandon hs.nodup_keys k
  | _ => exact hs.nodup_keys

theorem compilations_step (hs : Sound s h) (hT : s.Took i choice e s') :
    s'.cache.compilations = s'.cache.size := by
  obtain ⟨t, t', ht, hstep, -⟩ := hT.step
  have hcount := hs.compilations_eq
  generalize s'.cache = c' at hstep
  cases hstep with
  | claim hk => rw [Cache.size_claim hk, ← hcount, Cache.claim_of_none hk]
  | publish k m d =>
    obtain ⟨m', hm'⟩ := hs.inFlight_of_settling ht
    rw [Cache.size_publish hs.nodup_keys hm', ← hcount]
    rfl
  | abandon k m e =>
    obtain ⟨m', hm'⟩ := hs.inFlight_of_settling ht
    rw [Cache.size_abandon hs.nodup_keys hm', ← hcount]
    rfl
  | _ => exact hcount

theorem runs_step (hs : Sound s h) (hT : s.Took i choice e s') :
    s'.runs = (h ++ e.toList).countP (Happening.begins fun _ _ => true) := by
  rw [hT.runs, hs.runs_eq, List.countP_append]

/-- A thread that takes a key in flight becomes its owner, and the owner puts it out of flight. -/
theorem inFlight_balance (hs : Sound s h) {t t' : Thread K D E} {c' : Cache K D}
    (ht : s.threads[i]? = some t) (hstep : Step i s.cache choice t c' t' e) (k' : K) :
    (c'.isInFlight k').toNat + t.stack.countP (Frame.owns k') =
      (s.cache.isInFlight k').toNat + t'.stack.countP (Frame.owns k') := by
  cases hstep with
  | @claim k hk ks fs as =>
    have hfree : s.cache.isInFlight k = false := by simp [Cache.isInFlight, hk]
    rw [Cache.isInFlight_claim hk, List.countP_cons, List.countP_cons]
    by_cases hkk : k = k'
    · simp [← hkk, hfree, Frame.owns]
      omega
    · simp [hkk, Ne.symm hkk, Frame.owns]
  | publish k m d ks fs as =>
    obtain ⟨m', hm'⟩ := hs.inFlight_of_settling ht
    have htaken : s.cache.isInFlight k = true := by simp [Cache.isInFlight, hm']
    rw [Cache.isInFlight_publish, List.countP_cons, List.countP_cons]
    by_cases hkk : k = k'
    · simp [← hkk, htaken, Frame.owns]
      omega
    · simp [hkk, Ne.symm hkk, Frame.owns]
  | abandon k m e ks fs as =>
    obtain ⟨m', hm'⟩ := hs.inFlight_of_settling ht
    have htaken : s.cache.isInFlight k = true := by simp [Cache.isInFlight, hm']
    rw [Cache.isInFlight_abandon, List.countP_cons, List.countP_cons]
    by_cases hkk : k = k'
    · simp [← hkk, htaken, Frame.owns]
      omega
    · simp [hkk, Ne.symm hkk, Frame.owns]
  | finish =>
    rw [Cache.isInFlight_finish]
    simp [Frame.owns]
  | _ => simp [List.countP_cons, Frame.owns]

theorem owners_step (hs : Sound s h) (hT : s.Took i choice e s') (k : K) :
    s'.frames.countP (Frame.owns k) = (s'.cache.isInFlight k).toNat := by
  obtain ⟨t, t', ht, hstep, hnum, -⟩ := hT.counts
  -- the account of one thread (`hb`) carried over to all of them (`hn`)
  have hn := hnum (Frame.owns k) fun _ _ => rfl
  have hb := hs.inFlight_balance ht hstep k
  have ho := hs.owners k
  omega

theorem begun_step (hs : Sound s h) (hT : s.Took i choice e s') (p : K → Marker → Bool) :
    (h ++ e.toList).countP (Happening.begins p) =
      (h ++ e.toList).countP (Happening.ends fun k m _ => p k m) +
        s'.frames.countP (Frame.isCompiling p) := by
  obtain ⟨t, t', ht, hstep, hnum, -⟩ := hT.counts
  have hn := hnum (Frame.isCompiling p) fun _ _ => rfl
  have hb := hstep.begun_balance p
  have ho := hs.begun p
  rw [List.countP_append, List.countP_append]
  omega

/-- A run that ends with a success is about to be published, and then it is. -/
theorem succeeded_balance (hs : Sound s h) {t t' : Thread K D E} {c' : Cache K D}
    (ht : s.threads[i]? = some t) (hstep : Step i s.cache choice t c' t' e) (k' : K) :
    e.toList.countP (Happening.ends fun k _ r => k = k' && !isFailure r) +
        (s.cache.peek? k').isSome.toNat +
        t.stack.countP (Frame.isSettling fun k r => k = k' && !isFailure r) =
      (c'.peek? k').isSome.toNat +
        t'.stack.countP (Frame.isSettling fun k r => k = k' && !isFailure r) := by
  cases hstep with
  | claim hk ks fs as =>
    simp [Cache.peek?_claim hk, Frame.isSettling, Happening.ends]
  | compiled k m result ks fs as =>
    simp [List.countP_cons, Frame.isSettling, Happening.ends]
    omega
  | publish k m d ks fs as =>
    obtain ⟨m', hm'⟩ := hs.inFlight_of_settling ht
    have hnone : s.cache.peek? k = none := by simp [Cache.peek?, hm']
    rw [Cache.peek?_publish]
    by_cases hkk : k' = k
    · simp [hkk, hnone, Frame.isSettling, isFailure]
      omega
    · simp [hkk, Ne.symm hkk, Frame.isSettling]
  | abandon k m e ks fs as =>
    obtain ⟨m', hm'⟩ := hs.inFlight_of_settling ht
    simp [Cache.peek?_abandon hm', Frame.isSettling, isFailure]
  | finish =>
    rw [Cache.peek?_finish]
    simp [Frame.isSettling]
  | _ => simp [Frame.isSettling, Happening.ends]

theorem succeeded_step (hs : Sound s h) (hT : s.Took i choice e s') (k' : K) :
    (h ++ e.toList).countP (Happening.ends fun k _ r => k = k' && !isFailure r) =
      (s'.cache.peek? k').isSome.toNat +
        s'.frames.countP (Frame.isSettling fun k r => k = k' && !isFailure r) := by
  obtain ⟨t, t', ht, hstep, hnum, -⟩ := hT.counts
  have hn := hnum (Frame.isSettling fun k r => k = k' && !isFailure r) fun _ _ => rfl
  have hb := hs.succeeded_balance ht hstep k'
  have ho := hs.succeeded k'
  rw [List.countP_append]
  omega

theorem carried_step (hs : Sound s h) (hT : s.Took i choice e s') (p : Except E D → Bool) :
    (h ++ e.toList).countP (Happening.ends fun _ _ r => p r) =
      s'.answers.countP (fun a => a.compiled && p a.result) +
        s'.frames.countP (Frame.carries p) := by
  obtain ⟨t, t', ht, hstep, hnum, hans⟩ := hT.counts
  have hn := hnum (Frame.carries p) fun _ _ => rfl
  have ha := hans fun a => a.compiled && p a.result
  have hb := hstep.carried_balance p
  have ho := hs.carried p
  rw [List.countP_append]
  omega

theorem foreign_step (hs : Sound s h) (hT : s.Took i choice e s') :
    s'.answers.countP (fun a => !a.compiled && isFailure a.result) = 0 := by
  obtain ⟨t, t', ht, hstep, -, hans⟩ := hT.counts
  have ha := hans fun a => !a.compiled && isFailure a.result
  have hb := hstep.foreign_balance
  have ho := hs.foreign
  omega

/-- What has been compiled stays in the table. -/
theorem ready_stays (hs : Sound s h) (hT : s.Took i choice e s') {k' : K} {d' : D}
    (hk' : s.cache.find? k' = some (.ready d')) : s'.cache.find? k' = some (.ready d') := by
  obtain ⟨t, t', ht, hstep, -⟩ := hT.step
  -- the keys that steps write to are unknown or in flight, so this one is not among them
  have hother : ∀ k, s.cache.find? k ≠ some (.ready d') → k' ≠ k := by
    rintro k hk rfl
    exact hk hk'
  generalize s'.cache = c' at hstep
  cases hstep with
  | @claim k hk =>
    have hkk := hother k (by simp [hk])
    simpa [Cache.find?_claim hk, hkk] using hk'
  | publish k m d =>
    obtain ⟨m', hm'⟩ := hs.inFlight_of_settling ht
    have hkk := hother k (by simp [hm'])
    simpa [Cache.find?_publish, hkk] using hk'
  | abandon k m e =>
    obtain ⟨m', hm'⟩ := hs.inFlight_of_settling ht
    have hkk := hother k (by simp [hm'])
    simpa [Cache.find?_abandon, hkk] using hk'
  | _ => exact hk'

/-- A run of the compiler takes a marker that no run before it had. -/
theorem markers_step (hs : Sound s h) (hT : s.Took i choice e s') :
    (∀ j k m, .begun j k m ∈ h ++ e.toList → m < s'.cache.finished.length) ∧
      ∀ m, (h ++ e.toList).countP (Happening.begins fun _ m' => m' = m) ≤ 1 := by
  obtain ⟨t, t', ht, hstep, -⟩ := hT.step
  obtain ⟨hlt, hle⟩ := hs.markers
  generalize s'.cache = c' at hstep
  cases hstep with
  | @claim k hk =>
    -- the new marker is the number of markers so far, and all that have begun are below it
    rw [Cache.claim_of_none hk]
    refine ⟨fun j k' m hm => ?_, fun m => ?_⟩
    · rcases List.mem_append.1 hm with hm | hm
      · have := hlt j k' m hm
        simp
        omega
      · simp only [Option.toList_some, List.mem_singleton, Happening.begun.injEq] at hm
        simp [hm]
    · rw [List.countP_append]
      by_cases hm : s.cache.finished.length = m
      · subst hm
        have hnone : h.countP (Happening.begins fun _ m => m = s.cache.finished.length) = 0 := by
          rw [List.countP_eq_zero]
          rintro (⟨j, k', m⟩ | _ | _) hx
          · simpa [Happening.begins] using Nat.ne_of_lt (hlt j k' m hx)
          · simp [Happening.begins]
          · simp [Happening.begins]
        rw [hnone, Nat.zero_add]
        exact List.countP_le_length
      · simpa [Happening.begins, hm] using hle m
  | _ => simpa [Happening.begins, Cache.publish, Cache.abandon, Cache.finish] using ⟨hlt, hle⟩

theorem justified_step (hs : Sound s h) (hT : s.Took i choice e s') (j : Nat) (u' : Thread K D E)
    (hu' : s'.threads[j]? = some u') (f : Frame K D E) (hf : f ∈ u'.stack) :
    f.Justified s'.cache (h ++ e.toList) j := by
  obtain ⟨t, t', ht, hstep, hthread⟩ := hT.thread
  obtain ⟨u, hu, hw⟩ := hthread j u' hu'
  have hready : ∀ k d, s.cache.find? k = some (.ready d) → s'.cache.find? k = some (.ready d) :=
    fun k d hk => hs.ready_stays hT hk
  have hold : ∀ f ∈ u.stack, f.Justified s'.cache (h ++ e.toList) j := by
    rcases hu with ⟨rfl, rfl⟩ | hu
    · exact Frame.justified_of_step hstep (hs.justified _ t ht) hready
    · exact fun f hf => (hs.justified j u hu f hf).mono hready fun x hx => List.mem_append_left _ hx
  -- a thread that is woken up is to check its marker, of which nothing need be known
  rcases hw with rfl | ⟨m, rfl⟩
  · exact hold f hf
  · rcases System.mem_stack_wake hf with hf | ⟨k, n, rfl, -⟩
    · exact hold f hf
    · trivial

/-- Every entry is of something that a run of the compiler has made. -/
theorem ready_step (hs : Sound s h) (hT : s.Took i choice e s') (k' : K) (d' : D)
    (hk' : s'.cache.find? k' = some (.ready d')) :
    ∃ j m, .ended j k' m (.ok d') ∈ h ++ e.toList := by
  obtain ⟨t, t', ht, hstep, -⟩ := hT.step
  have hold : s.cache.find? k' = some (.ready d') →
      ∃ j m, .ended j k' m (.ok d') ∈ h ++ e.toList := by
    intro hk
    obtain ⟨j, m, hm⟩ := hs.ready k' d' hk
    exact ⟨j, m, List.mem_append_left _ hm⟩
  generalize s'.cache = c' at hstep hk'
  -- only a publication makes an entry, and what it publishes a run has ended with
  cases hstep with
  | @claim k hk =>
    rw [Cache.find?_claim hk] at hk'
    split at hk'
    · cases hk'
    · exact hold hk'
  | publish k m d =>
    rw [Cache.find?_publish] at hk'
    split at hk'
    · next hkk =>
      obtain rfl : d = d' := by simpa using hk'
      have hj : Frame.Justified s.cache h i ⟨k, .settling m (.ok d)⟩ :=
        hs.justified i _ ht _ List.mem_cons_self
      rw [hkk]
      exact ⟨i, m, List.mem_append_left _ hj⟩
    · exact hold hk'
  | abandon k m e =>
    rw [Cache.find?_abandon] at hk'
    split at hk'
    · cases hk'
    · exact hold hk'
  | _ => exact hold hk'

theorem answers_step (hs : Sound s h) (hT : s.Took i choice e s') (p : K → Except E D → Bool) :
    (h ++ e.toList).countP (Happening.answers p) =
      s'.answers.countP fun a => p a.key a.result := by
  obtain ⟨t, t', ht, hstep, -, hans⟩ := hT.counts
  have ha := hans fun a => p a.key a.result
  have hb := hstep.answers_balance p
  have ho := hs.answers_eq p
  rw [List.countP_append]
  omega

/-- Every look-up that succeeds is answered with what the table holds from then on. -/
theorem succeeds_step (hs : Sound s h) (hT : s.Took i choice e s') (j : Nat) (k' : K) (d' : D)
    (own : Option Marker) (hx : .answered j k' (.ok d') own ∈ h ++ e.toList) :
    s'.cache.find? k' = some (.ready d') := by
  rcases List.mem_append.1 hx with hx | hx
  · exact hs.ready_stays hT (hs.succeeds j k' d' own hx)
  · refine hs.ready_stays hT ?_
    -- the answer is given in this step, so the table held it before
    obtain ⟨t, t', ht, hstep, -⟩ := hT.step
    generalize s'.cache = c' at hstep
    cases hstep with
    | hit hk ks fs as =>
      simp only [Option.toList_some, List.mem_singleton, Happening.answered.injEq] at hx
      obtain ⟨-, rfl, hd, -⟩ := hx
      obtain rfl : d' = _ := by simpa using hd
      exact hk
    | reply k m result ks fs as =>
      simp only [Option.toList_some, List.mem_singleton, Happening.answered.injEq] at hx
      obtain ⟨-, rfl, hd, -⟩ := hx
      have hj : Frame.Justified s.cache h i ⟨_, .waking m result⟩ :=
        hs.justified i _ ht _ List.mem_cons_self
      exact hj.2 d' hd.symm
    | _ => simp at hx

/-- A look-up that fails is answered with how a run of the compiler of its own has ended. -/
theorem fails_step (hs : Sound s h) (hT : s.Took i choice e s') (h₁ h₂ : List (Happening K D E))
    (j : Nat) (k' : K) (e' : E) (own : Option Marker)
    (hx : h ++ e.toList = h₁ ++ .answered j k' (.error e') own :: h₂) :
    ∃ m, own = some m ∧ .ended j k' m (.error e') ∈ h₁ := by
  obtain ⟨t, t', ht, hstep, -⟩ := hT.step
  cases e with
  | none => exact hs.fails h₁ h₂ j k' e' own (by simpa using hx)
  | some x =>
    rcases List.eq_nil_or_concat h₂ with rfl | ⟨h₂, y, rfl⟩
    · -- the answer is the last thing that happened
      obtain ⟨rfl, rfl⟩ : h = h₁ ∧ x = .answered j k' (.error e') own := by simpa using hx
      generalize s'.cache = c' at hstep
      cases hstep with
      | reply k m result ks fs as =>
        have hj : Frame.Justified s.cache h _ ⟨_, .waking m (.error e')⟩ :=
          hs.justified _ _ ht _ List.mem_cons_self
        exact ⟨m, rfl, hj.1⟩
    · have hx : h ++ [x] = (h₁ ++ .answered j k' (.error e') own :: h₂) ++ [y] := by
        simpa using hx
      exact hs.fails h₁ h₂ j k' e' own (List.append_inj_left' hx rfl)

theorem step (hs : Sound s h) (hT : s.Took i choice e s') : Sound s' (h ++ e.toList) where
  nodup_keys := hs.nodup_keys_step hT
  compilations_eq := hs.compilations_step hT
  runs_eq := hs.runs_step hT
  owners := hs.owners_step hT
  begun := hs.begun_step hT
  succeeded := hs.succeeded_step hT
  carried := hs.carried_step hT
  foreign := hs.foreign_step hT
  markers := hs.markers_step hT
  justified := hs.justified_step hT
  ready := hs.ready_step hT
  answers_eq := hs.answers_step hT
  succeeds := hs.succeeds_step hT
  fails := hs.fails_step hT

/-! What the accounts come to at any moment. -/

theorem compiling_le_one (hs : Sound s h) (k : K) :
    s.frames.countP (Frame.isCompiling fun k' _ => k' = k) ≤ 1 := by
  have hle : s.frames.countP (Frame.isCompiling fun k' _ => k' = k) ≤
      s.frames.countP (Frame.owns k) :=
    List.countP_mono_left fun f _ hf => f.owns_of_isCompiling k hf
  have howners := hs.owners k
  have hbool := Bool.toNat_le (s.cache.isInFlight k)
  omega

theorem successes_le_one (hs : Sound s h) (k : K) :
    h.countP (Happening.ends fun k' _ r => k' = k && !isFailure r) ≤ 1 := by
  have hle : s.frames.countP (Frame.isSettling fun k' r => k' = k && !isFailure r) ≤
      s.frames.countP (Frame.owns k) :=
    List.countP_mono_left fun f _ hf => f.owns_of_isSettling k hf
  have howners := hs.owners k
  have hcount := hs.succeeded k
  -- a key that is in flight has no entry, so of the two summands one is zero
  have hentry := s.cache.peek?_add_isInFlight_le k
  omega

end Sound

/-! ## Runs -/

theorem sound_fresh (todos : List (List K)) : Sound (System.fresh todos : System K D E) [] := by
  have hframes : (System.fresh todos : System K D E).frames = [] := by
    simp [System.frames, System.fresh, List.flatMap_map]
  have hanswers : (System.fresh todos : System K D E).answers = [] := by
    simp [System.answers, System.fresh, List.flatMap_map]
  have hfind : ∀ k, (System.fresh todos : System K D E).cache.find? k = none := fun _ => rfl
  refine ⟨List.nodup_nil, rfl, rfl, fun k => ?_, fun p => ?_, fun k => ?_,
    fun p => ?_, ?_, ⟨fun i k m hm => ?_, fun m => Nat.zero_le _⟩, fun i t ht f hf => ?_, fun k d hk => ?_,
    fun p => ?_, fun i k d own hx => ?_, fun h₁ h₂ i k e own hx => ?_⟩
  · simp [hframes, Cache.isInFlight, hfind]
  · simp [hframes]
  · simp [hframes, Cache.peek?, hfind]
  · simp [hframes, hanswers]
  · simp [hanswers]
  · cases hm
  · obtain ⟨ks, -, rfl⟩ : ∃ ks, _ ∧ (⟨ks, [], []⟩ : Thread K D E) = t := by
      simpa [System.fresh] using ht
    cases hf
  · simp [hfind] at hk
  · simp [hanswers]
  · cases hx
  · simp at hx

theorem sound_follow (todos : List (List K)) (moves : List (Move K D E)) :
    Sound ((System.fresh todos).follow moves).1 ((System.fresh todos).follow moves).2 :=
  System.record_induction (P := Sound) (sound_fresh todos)
    fun _ _ _ _ _ _ hs hT => hs.step hT

/-- At any two moments, the later one has what the earlier one has compiled. -/
theorem ready_stays_follow (todos : List (List K)) (before between : List (Move K D E)) {k : K}
    {d : D} (hk : ((System.fresh todos).follow before).1.cache.find? k = some (.ready d)) :
    ((System.fresh todos).follow (before ++ between)).1.cache.find? k = some (.ready d) := by
  rw [System.follow, List.foldl_append]
  refine (System.record_induction
    (P := fun s h => Sound s h ∧ s.cache.find? k = some (.ready d)) ?_ ?_).2
  · exact ⟨sound_follow todos before, hk⟩
  · intro move _ s h e s' ⟨hs, hk⟩ hT
    exact ⟨hs.step hT, hs.ready_stays hT hk⟩

/-! ## A crowd

Threads that look up one key once each, while compilers look nothing up. What is counted at the end
is the threads, each with its one answer, and the runs of the compiler, each with its one end. -/

/-- How the runs of the compiler have ended, in this order. -/
def outcomes (h : List (Happening K D E)) : List (Except E D) :=
  h.filterMap fun
    | .ended _ _ _ result => some result
    | _ => none

omit [DecidableEq K] in
theorem countP_outcomes (h : List (Happening K D E)) (p : Except E D → Bool) :
    (outcomes h).countP p = h.countP (Happening.ends fun _ _ r => p r) := by
  rw [outcomes, List.countP_filterMap]
  refine congrArg (fun q => List.countP q h) (funext fun x => ?_)
  cases x <;> rfl

/-- If the first `f` runs fail and no other, there are as many failures as the first `f` runs. -/
theorem countP_isFailure {rs : List (Except E D)} {f : Nat}
    (hrs : ∀ j r, rs[j]? = some r → (isFailure r = true ↔ j < f)) :
    rs.countP isFailure = min f rs.length := by
  induction rs generalizing f with
  | nil => simp
  | cons r rs ih =>
    have hr := hrs 0 r rfl
    cases f with
    | zero =>
      have hrest := ih (f := 0) fun j r hj => by simpa using hrs (j + 1) r (by simpa using hj)
      have hfalse : isFailure r = false := by simpa using hr
      simp [hfalse, hrest]
    | succ f =>
      have hrest := ih (f := f) fun j r hj => by simpa using hrs (j + 1) r (by simpa using hj)
      have htrue : isFailure r = true := hr.2 (Nat.succ_pos f)
      simp only [List.countP_cons, htrue, hrest, List.length_cons, if_true]
      omega

/-- A thread whose only look-up is of `k`: yet to be made, under way, or answered. -/
structure Thread.InCrowd (k : K) (t : Thread K D E) : Prop where
  todo : ∀ k' ∈ t.todo, k' = k
  stack : ∀ f ∈ t.stack, f.key = k
  one : t.todo.length + t.stack.length + t.answers.length = 1

namespace Thread.InCrowd

variable {i : Nat} {c c' : Cache K D} {k : K} {t t' : Thread K D E} {result : Except E D}
  {e : Option (Happening K D E)}

omit [DecidableEq K] in
theorem wake (ht : t.InCrowd k) (m : Marker) : (System.wake m t).InCrowd k where
  todo := by
    rw [System.todo_wake]
    exact ht.todo
  stack f hf := by
    rcases System.mem_stack_wake hf with hold | ⟨k', n, rfl, hold⟩
    · exact ht.stack f hold
    · exact ht.stack ⟨k', .asleep n⟩ hold
  one := by
    have hlength := System.countP_stack_wake (p := fun _ => true) (fun _ _ => rfl) m t
    simp only [List.countP_true] at hlength
    rw [System.todo_wake, System.answers_wake, hlength]
    exact ht.one

theorem step (ht : t.InCrowd k) (hstep : Step i c (.compileEnds result) t c' t' e) :
    t'.InCrowd k ∧ ∀ j k' m r, e = some (.ended j k' m r) → k' = k := by
  obtain ⟨htodo, hstack, hone⟩ := ht
  cases hstep with
  | start k' ks as =>
    have hk : k' = k := htodo k' List.mem_cons_self
    refine ⟨⟨fun k' hk' => htodo k' (List.mem_cons_of_mem _ hk'), ?_, by simpa using hone⟩, by simp⟩
    simpa using hk
  | compiled k' m result ks fs as =>
    have hk : k' = k := hstack _ List.mem_cons_self
    refine ⟨⟨htodo, by simpa using hstack, by simpa using hone⟩, ?_⟩
    rintro j k'' m' r ⟨⟩
    exact hk
  | hit hk ks fs as =>
    refine ⟨⟨htodo, fun f hf => hstack f (List.mem_cons_of_mem _ hf), ?_⟩, by simp⟩
    simp only [List.length_cons] at hone ⊢
    omega
  | reply k' m result ks fs as =>
    refine ⟨⟨htodo, fun f hf => hstack f (List.mem_cons_of_mem _ hf), ?_⟩, by simp⟩
    simp only [List.length_cons] at hone ⊢
    omega
  | _ => exact ⟨⟨htodo, by simpa using hstack, by simpa using hone⟩, by simp⟩

end Thread.InCrowd

/-- What holds at every moment of a crowd of `n` threads at key `k`. -/
structure Crowded (k : K) (n : Nat) (s : System K D E) (h : List (Happening K D E)) : Prop where
  sound : Sound s h
  length_threads : s.threads.length = n
  inCrowd : ∀ t ∈ s.threads, t.InCrowd k
  ended : ∀ j k' m r, .ended j k' m r ∈ h → k' = k

namespace Crowded

variable {s s' : System K D E} {h : List (Happening K D E)} {k : K} {n i : Nat}
  {result : Except E D} {e : Option (Happening K D E)}

theorem step (hs : Crowded k n s h) (hT : s.Took i (.compileEnds result) e s') :
    Crowded k n s' (h ++ e.toList) where
  sound := hs.sound.step hT
  length_threads := by
    obtain ⟨t, t', -, -, heq | ⟨m, heq⟩⟩ := hT.step <;> simp [heq, hs.length_threads]
  inCrowd u' hu' := by
    obtain ⟨t, t', ht, hstep, hthread⟩ := hT.thread
    obtain ⟨j, hj⟩ := List.getElem?_of_mem hu'
    obtain ⟨u, hu, hw⟩ := hthread j u' hj
    have hin : u.InCrowd k := by
      rcases hu with ⟨-, rfl⟩ | hu
      · exact ((hs.inCrowd t (List.mem_of_getElem? ht)).step hstep).1
      · exact hs.inCrowd u (List.mem_of_getElem? hu)
    rcases hw with rfl | ⟨m, rfl⟩
    · exact hin
    · exact hin.wake m
  ended j k' m r hx := by
    obtain ⟨t, t', ht, hstep, -⟩ := hT.step
    rcases List.mem_append.1 hx with hx | hx
    · exact hs.ended j k' m r hx
    · exact ((hs.inCrowd t (List.mem_of_getElem? ht)).step hstep).2 j k' m r (by simpa using hx)

/-- A crowd that is done has as many answers as threads. -/
theorem length_answers (hs : Crowded k n s h) (hdone : s.isDone = true) :
    s.answers.length = n := by
  have hone : ∀ t ∈ s.threads, t.answers.length = 1 := by
    intro t ht
    have hone := (hs.inCrowd t ht).one
    have hempty : t.todo = [] ∧ t.stack = [] := by
      simpa [Thread.isDone] using List.all_eq_true.1 hdone t ht
    simpa [hempty.1, hempty.2] using hone
  calc s.answers.length = (s.threads.map fun t => t.answers.length).sum := List.length_flatMap
    _ = (s.threads.map fun _ => 1).sum := by rw [List.map_congr_left hone]
    _ = s.threads.length := by rw [List.map_const', List.sum_replicate_nat, Nat.mul_one]
    _ = n := hs.length_threads

omit [DecidableEq K] in
theorem frames_of_isDone (hdone : s.isDone = true) : s.frames = [] := by
  refine List.flatMap_eq_nil_iff.2 fun t ht => ?_
  have hempty : t.todo = [] ∧ t.stack = [] := by
    simpa [Thread.isDone] using List.all_eq_true.1 hdone t ht
  exact hempty.2

/-- In a crowd that is done, the runs that succeeded are one at most, and one if anybody has been
answered with a success. -/
theorem successes (hs : Crowded k n s h) (hdone : s.isDone = true) :
    (outcomes h).countP (fun r => !isFailure r) ≤ 1 ∧
      (s.answers.countP (fun a => !isFailure a.result) ≠ 0 →
        (outcomes h).countP (fun r => !isFailure r) = 1) := by
  have hframes := frames_of_isDone hdone
  -- every run is for the one key
  have hkey : (outcomes h).countP (fun r => !isFailure r) =
      h.countP (Happening.ends fun k' _ r => k' = k && !isFailure r) := by
    rw [countP_outcomes]
    refine List.countP_congr fun x hx => ?_
    cases x with
    | ended j k' m r => simp [Happening.ends, hs.ended j k' m r hx]
    | _ => rfl
  have hcount := hs.sound.succeeded k
  rw [hframes, List.countP_nil, Nat.add_zero, ← hkey] at hcount
  refine ⟨?_, fun hans => ?_⟩
  · rw [hcount]
    exact Bool.toNat_le _
  · have hpos := hs.sound.answers_eq fun _ r => !isFailure r
    obtain ⟨x, hx, hp⟩ := List.countP_pos_iff.1 (Nat.pos_of_ne_zero (hpos ▸ hans))
    cases x with
    | begun => cases hp
    | ended => cases hp
    | answered j k' r own =>
      cases r with
      | error e => cases hp
      | ok d =>
        -- the answer was a success, so the table holds it
        have hk := hs.sound.succeeds j k' d own hx
        obtain ⟨j', m, hm⟩ := hs.sound.ready k' d hk
        obtain rfl := hs.ended j' k' m _ hm
        rw [hcount, Cache.peek?, hk]
        rfl

/-- How a crowd comes out if the first `f` runs of the compiler fail and no other. -/
theorem outcome (hs : Crowded k n s h) (hdone : s.isDone = true) {f : Nat}
    (hf : ∀ j r, (outcomes h)[j]? = some r → (isFailure r = true ↔ j < f)) :
    s.answers.countP (fun a => isFailure a.result) = min f n ∧ s.runs = min (f + 1) n := by
  have hframes := frames_of_isDone hdone
  obtain ⟨hle, hone⟩ := hs.successes hdone
  have hanswers := hs.length_answers hdone
  -- runs are outcomes: none is going on any more
  have hruns : s.runs = (outcomes h).length := by
    rw [hs.sound.runs_eq, hs.sound.begun, hframes, List.countP_nil, Nat.add_zero,
      ← countP_outcomes h fun _ => true]
    exact congrFun List.countP_true _
  -- failures are answers, and only those who ran the compiler got one
  have hfail : (outcomes h).countP isFailure = s.answers.countP fun a => isFailure a.result := by
    rw [countP_outcomes, hs.sound.carried, hframes, List.countP_nil, Nat.add_zero]
    refine List.countP_congr fun a ha => ?_
    have hown := List.countP_eq_zero.1 hs.sound.foreign a ha
    cases hc : a.compiled <;> simp_all
  -- whoever ran the compiler has been answered
  have hrun : (outcomes h).length ≤ n := by
    have hcarried := hs.sound.carried fun _ => true
    rw [← countP_outcomes, List.countP_true, hframes, List.countP_nil, Nat.add_zero] at hcarried
    rw [hcarried, ← hanswers]
    exact List.countP_le_length
  have hmin := countP_isFailure hf
  have hsplit := List.length_eq_countP_add_countP isFailure (l := outcomes h)
  have hsplit' := List.length_eq_countP_add_countP (fun a => isFailure a.result) (l := s.answers)
  simp only [Bool.not_eq_true, Bool.decide_eq_false] at hsplit hsplit'
  omega

end Crowded

/-- What is known at every moment of a crowd. -/
theorem crowded_follow (k : K) (n : Nat) {moves : List (Move K D E)}
    (hmoves : ∀ move ∈ moves, ∃ result, move.2 = .compileEnds result) :
    Crowded k n ((System.crowd .empty k n).follow moves).1
      ((System.crowd .empty k n).follow moves).2 := by
  have hfresh : (System.crowd .empty k n : System K D E) = .fresh (List.replicate n [k]) := by
    simp [System.crowd, System.fresh]
  refine System.record_induction (P := Crowded k n) ?_ fun move hmove s h e s' hs hT => ?_
  · refine ⟨?_, by simp [System.crowd], fun t ht => ?_, fun j k' m r hx => by cases hx⟩
    · rw [hfresh]
      exact sound_fresh _
    · obtain ⟨-, rfl⟩ := List.mem_replicate.1 ht
      exact ⟨by simp, by simp, rfl⟩
  · obtain ⟨result, hresult⟩ := hmoves move hmove
    rw [hresult] at hT
    exact hs.step hT

/-! ## The guarantees -/

/-- **Compile once.** At any moment of any schedule of any threads that began at an empty table: of
one key, at most one run of the compiler is going on and at most one has succeeded; every look-up that
succeeded was answered with what that run made, which is in the table; every look-up that failed was
answered with how a run of its own had ended before; no two runs share a marker; the table keeps what
it holds at any later moment; and the counter of compilations counts what the table holds.

If `n` threads look up one key once each, their compilers look nothing up, and the first `f` runs
fail and no other, then once all are answered, `min f n` of them have failed, in `min (f + 1) n`
runs. -/
theorem compile_once :
    (∀ (todos : List (List K)) (before between : List (Move K D E)),
      let now := (System.fresh todos).follow before
      let later := (System.fresh todos).follow (before ++ between)
      (∀ k, now.1.frames.countP (Frame.isCompiling fun k' _ => k' = k) ≤ 1) ∧
      (∀ k, now.2.countP (Happening.ends fun k' _ r => k' = k && !isFailure r) ≤ 1) ∧
      (∀ i k d own, .answered i k (.ok d) own ∈ now.2 →
        now.1.cache.find? k = some (.ready d) ∧ ∃ j m, .ended j k m (.ok d) ∈ now.2) ∧
      (∀ h₁ h₂ i k e own, now.2 = h₁ ++ .answered i k (.error e) own :: h₂ →
        ∃ m, own = some m ∧ .ended i k m (.error e) ∈ h₁) ∧
      (∀ m, now.2.countP (Happening.begins fun _ m' => m' = m) ≤ 1) ∧
      (∀ k d, now.1.cache.find? k = some (.ready d) →
        later.1.cache.find? k = some (.ready d)) ∧
      now.1.cache.compilations = now.1.cache.size) ∧
    ∀ (k : K) (n f : Nat) (moves : List (Move K D E)),
      let final := (System.crowd .empty k n).follow moves
      (∀ move ∈ moves, ∃ result, move.2 = .compileEnds result) →
      (∀ j r, (outcomes final.2)[j]? = some r → (isFailure r = true ↔ j < f)) →
      final.1.isDone = true →
      final.1.answers.countP (fun a => isFailure a.result) = min f n ∧
        final.1.runs = min (f + 1) n := by
  -- the first part reads the invariant off; the second adds it up over a crowd that is done
  refine ⟨fun todos before between => ?_, fun k n f moves => ?_⟩
  · intro now later
    have hs : Sound now.1 now.2 := sound_follow todos before
    refine ⟨hs.compiling_le_one, hs.successes_le_one, fun i k d own hx => ?_, hs.fails,
      hs.markers.2, fun k d hk => ready_stays_follow todos before between hk,
      hs.compilations_eq⟩
    have hk := hs.succeeds i k d own hx
    exact ⟨hk, hs.ready k d hk⟩
  · intro final hmoves hf hdone
    exact (crowded_follow k n hmoves).outcome hdone hf

/-- Two threads at one key. The first fails while the second sleeps on its marker, which then runs
the compiler itself. -/
theorem compile_once_after_failure :
    let moves : List (Move Nat Nat Nat) := [0, 0, 1, 1, 1, 0, 0, 0, 0, 1, 1, 1, 1, 1, 1].map
      fun i => (i, .compileEnds (if i = 0 then .error 3 else .ok 7))
    let final := (System.crowd .empty 5 2).follow moves
    final.1.isDone = true ∧ final.1.answers.countP (fun a => isFailure a.result) = 1 ∧
      final.1.runs = 2 := by
  intro moves final
  have hdone : final.1.isDone = true := by decide
  have houtcomes : outcomes final.2 = [.error 3, .ok 7] := by rfl
  have hmoves : ∀ move ∈ moves, ∃ result, move.2 = .compileEnds result := by
    intro move hmove
    obtain ⟨i, -, rfl⟩ := List.mem_map.1 hmove
    exact ⟨_, rfl⟩
  refine ⟨hdone, compile_once.2 5 2 1 moves hmoves (fun j r hj => ?_) hdone⟩
  change (outcomes final.2)[j]? = some r at hj
  rw [houtcomes] at hj
  match j with
  | 0 =>
    obtain rfl : .error 3 = r := by simpa using hj
    decide
  | 1 =>
    obtain rfl : .ok 7 = r := by simpa using hj
    decide
  | j + 2 => simp at hj

end HandleCalculus.CompileOnce
