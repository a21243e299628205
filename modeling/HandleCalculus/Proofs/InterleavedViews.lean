import HandleCalculus.Proofs.EquivalentMakings
import HandleCalculus.Proofs.TakingTurns
import HandleCalculus.Viewing

/-!
# Answers do not depend on what is remembered

Calls that see handles under other signatures share what variable-arity handles remember, and any of them
may change it between the two steps of another. What a call has got by then is a collector of its own
target for as many arguments as it needs, though, wherever that came from (`View.Fair`): so its answer is
one that it could have come to where nothing is remembered (`Handle.afresh`).

This is shown for one step, together with what the machine registers (`Viewing.Sound`), and for all runs
by induction over the moves. A failure leaves nothing behind, so no later call comes to know of it.
-/

set_option autoImplicit false

namespace HandleCalculus

/-! ## Courses -/

namespace Handle

/-- What a handle is under a signature where nothing is remembered, with the identities that a collector
and the answer get if they are made. -/
def afresh (G : ClassGraph) (h : Handle) (new : Signature) (s s' : Stamp) : Except Error Handle :=
  match h.courseTo G new with
  | .settled answer => answer
  | .convert target => target.convertTo G s' new
  | .collect target array _ count => target.asCollector G s array count >>= (·.convertTo G s' new)

/-- To see a handle under a signature is to take its course. -/
theorem asType_eq (G : ClassGraph) (h : Handle) (new : Signature) : h.asType G new =
    match h.courseTo G new with
    | .settled answer => Link.ofExcept answer
    | .convert target => Link.build (target.convertTo G · new)
    | .collect target array cell count =>
      collectorFor G target array cell count >>= fun c => Link.build (c.convertTo G · new) := by
  unfold asType courseTo
  by_cases hsame : new = h.type
  · rw [if_pos hsame, if_pos hsame]
    rfl
  rw [if_neg hsame, if_neg hsame]
  cases h.node with
  | varargs target array cell =>
    show (if new.passesArray G h.type target then _ else _) = _
    by_cases hpasses : new.passesArray G h.type target = true
    · rw [if_pos hpasses]
      dsimp only
      rw [if_pos hpasses]
    rw [if_neg hpasses]
    dsimp only
    rw [if_neg hpasses]
    by_cases hfew : new.arity + 1 < h.type.arity
    · rw [if_pos hfew, if_pos hfew]
    · rw [if_neg hfew, if_neg hfew]
  | _ => rfl

theorem courseTo_eq_collect {G : ClassGraph} {h t : Handle} {new : Signature} {array : Ty}
    {cell : Stamp} {n : Nat} (hcourse : h.courseTo G new = .collect t array cell n) :
    h.node = .varargs t array cell := by
  unfold courseTo at hcourse
  split at hcourse
  · cases hcourse
  split at hcourse
  · next hnode =>
    split at hcourse
    · cases hcourse
    split at hcourse
    · cases hcourse
    · cases hcourse
      exact hnode
  · cases hcourse

end Handle

/-- What can go wrong with a collector does not depend on what is remembered either. -/
theorem collectorFor_eq_error {G : ClassGraph} {t : Handle} {array : Ty} {cell : Stamp} {n : Nat}
    {m m' : Machine} {e : Error} (h : collectorFor G t array cell n m = .error e m') :
    t.asCollector G m.nextStamp array n = .error e ∧ m' = m := by
  rcases collectorFor_cases G t array cell n m with ⟨c, -, hfound⟩ | hfresh
  · cases hfound.symm.trans h
  · rw [hfresh, freshCollector, Link.build] at h
    cases hmade : t.asCollector G m.nextStamp array n with
    | ok c =>
      rw [hmade] at h
      cases h
    | error e' =>
      rw [hmade] at h
      cases h
      exact ⟨rfl, rfl⟩

namespace Viewing

variable {G : ClassGraph} {v v' : Viewing} {hs : List Handle} {i j : Nat} {w : View}

/-! ## Steps -/

/-- The steps of call `i`: it is settled, it converts a handle, it gets a collector, or there can be none;
at last it converts the collector that it has got. -/
inductive Step (G : ClassGraph) (v : Viewing) (i : Nat) : Viewing → Prop where
  | settled {h : Handle} {new : Signature} {answer : Except Error Handle}
      (call : v.views[i]? = some ⟨h, new, .asked⟩) (course : h.courseTo G new = .settled answer) :
    Step G v i ⟨v.machine, v.views.set i ⟨h, new, .answered answer⟩⟩
  | converted {h t : Handle} {new : Signature} (call : v.views[i]? = some ⟨h, new, .asked⟩)
      (course : h.courseTo G new = .convert t) (n : Stamp) (later : v.machine.nextStamp ≤ n) :
    Step G v i ⟨{ v.machine with nextStamp := n },
      v.views.set i ⟨h, new, .answered (t.convertTo G v.machine.nextStamp new)⟩⟩
  | collected {h t c : Handle} {new : Signature} {array : Ty} {cell : Stamp} {count : Nat} {m : Machine}
      (call : v.views[i]? = some ⟨h, new, .asked⟩)
      (course : h.courseTo G new = .collect t array cell count)
      (made : collectorFor G t array cell count v.machine = .ok c m) :
    Step G v i ⟨m, v.views.set i ⟨h, new, .collected c⟩⟩
  | refused {h t : Handle} {new : Signature} {array : Ty} {cell : Stamp} {count : Nat} {e : Error}
      (call : v.views[i]? = some ⟨h, new, .asked⟩)
      (course : h.courseTo G new = .collect t array cell count)
      (made : t.asCollector G v.machine.nextStamp array count = .error e) :
    Step G v i ⟨v.machine, v.views.set i ⟨h, new, .answered (.error e)⟩⟩
  | viewed {h c : Handle} {new : Signature} (call : v.views[i]? = some ⟨h, new, .collected c⟩)
      (n : Stamp) (later : v.machine.nextStamp ≤ n) :
    Step G v i ⟨{ v.machine with nextStamp := n },
      v.views.set i ⟨h, new, .answered (c.convertTo G v.machine.nextStamp new)⟩⟩

/-- Converting takes identities if it succeeds. -/
theorem convert_eq (G : ClassGraph) (v : Viewing) (i : Nat) (w : View) (t : Handle) :
    ∃ n, v.machine.nextStamp ≤ n ∧ v.convert G i w t = ⟨{ v.machine with nextStamp := n },
      v.views.set i ⟨w.handle, w.new, .answered (t.convertTo G v.machine.nextStamp w.new)⟩⟩ := by
  unfold convert Link.build
  dsimp only
  cases t.convertTo G v.machine.nextStamp w.new with
  | ok h => exact ⟨_, Nat.le_add_right _ 2, rfl⟩
  | error e => exact ⟨_, Nat.le_refl _, rfl⟩

theorem step_of_goOn? (h : v.goOn? G i = some v') : v.Step G i v' := by
  unfold goOn? at h
  obtain ⟨⟨k, new, phase⟩, hcall, h⟩ := Option.bind_eq_some_iff.1 h
  cases phase with
  | asked =>
    dsimp only at h
    cases hcourse : k.courseTo G new with
    | settled answer =>
      rw [hcourse] at h
      obtain rfl := Option.some.inj h
      exact .settled hcall hcourse
    | convert t =>
      rw [hcourse] at h
      obtain rfl := Option.some.inj h
      obtain ⟨n, hn, heq⟩ := v.convert_eq G i ⟨k, new, .asked⟩ t
      rw [heq]
      exact .converted hcall hcourse n hn
    | collect t array cell count =>
      rw [hcourse] at h
      obtain rfl := Option.some.inj h
      unfold collect
      cases hmade : collectorFor G t array cell count v.machine with
      | ok c m => exact .collected hcall hcourse hmade
      | error e m =>
        obtain ⟨he, rfl⟩ := collectorFor_eq_error hmade
        exact .refused hcall hcourse he
  | collected c =>
    obtain rfl := Option.some.inj h
    obtain ⟨n, hn, heq⟩ := v.convert_eq G i ⟨k, new, .collected c⟩ c
    rw [heq]
    exact .viewed hcall n hn
  | answered answer => cases h

/-- A move begins a call, is a step of one, or changes nothing. -/
theorem move_cases (G : ClassGraph) (v : Viewing) (m : Move) :
    (∃ h new, m = .ask h new ∧ v.move G m = { v with views := v.views ++ [⟨h, new, .asked⟩] }) ∨
      ∃ i, m = .goOn i ∧ (v.Step G i (v.move G m) ∨ v.goOn? G i = none ∧ v.move G m = v) := by
  cases m with
  | ask h new => exact .inl ⟨h, new, rfl, rfl⟩
  | goOn i =>
    refine .inr ⟨i, rfl, ?_⟩
    unfold move
    dsimp only
    cases hgo : v.goOn? G i with
    | some v' => exact .inl (step_of_goOn? hgo)
    | none => exact .inr ⟨rfl, rfl⟩

/-! ## Calls come to their end -/

/-- The steps that a call may have before it. -/
def left (w : View) : Nat :=
  match w.phase with
  | .asked => 2
  | .collected _ => 1
  | .answered _ => 0

theorem left_le (w : View) : left w ≤ 2 := by
  obtain ⟨h, new, phase⟩ := w
  cases phase with
  | asked => exact Nat.le_refl 2
  | collected c => exact Nat.le_succ 1
  | answered answer => exact Nat.zero_le 2

/-- What a call is for. -/
def asks (w : View) : Handle × Signature := (w.handle, w.new)

theorem left_eq_zero_of_goOn? (hcall : v.views[i]? = some w) (h : v.goOn? G i = none) :
    left w = 0 := by
  obtain ⟨k, new, phase⟩ := w
  unfold goOn? at h
  rw [hcall] at h
  cases phase with
  | asked =>
    dsimp only [Option.bind_some] at h
    split at h <;> cases h
  | collected c => cases h
  | answered answer => rfl

/-- The call whose turn a move is. -/
def Move.turn : Move → Option Nat
  | ask _ _ => none
  | goOn i => some i

theorem Step.turn (h : v.Step G i v') : Turn asks left (some i) v.views v'.views := by
  cases h with
  | settled call course => exact .goesOn call rfl Nat.zero_lt_two
  | converted call course n later => exact .goesOn call rfl Nat.zero_lt_two
  | collected call course made => exact .goesOn call rfl Nat.one_lt_two
  | refused call course made => exact .goesOn call rfl Nat.zero_lt_two
  | viewed call n later => exact .goesOn call rfl Nat.one_pos

theorem turn_move (G : ClassGraph) (v : Viewing) (m : Move) :
    Turn asks left m.turn v.views (v.move G m).views := by
  rcases v.move_cases G m with ⟨h, new, rfl, hmove⟩ | ⟨i, rfl, hstep | ⟨hnone, hmove⟩⟩
  · rw [hmove]
    exact .begins _ _
  · exact hstep.turn
  · rw [hmove]
    exact .stays fun w hcall => left_eq_zero_of_goOn? hcall hnone

/-- Call `i` asks for the handle under the signature. -/
def Asks (v : Viewing) (i : Nat) (h : Handle) (new : Signature) : Prop :=
  ∃ phase, v.views[i]? = some ⟨h, new, phase⟩

/-- Call `i` asked for the handle under the signature and is over. -/
def Answered (v : Viewing) (i : Nat) (h : Handle) (new : Signature)
    (answer : Except Error Handle) : Prop :=
  v.views[i]? = some ⟨h, new, .answered answer⟩

/-- A call that made two steps is over. -/
theorem Asks.answered_run {h : Handle} {new : Signature} {moves : List Move} (hasks : v.Asks i h new)
    (hmoves : [Move.goOn i, .goOn i].Sublist moves) :
    ∃ answer, (v.run G moves).Answered i h new answer := by
  obtain ⟨phase, hcall⟩ := hasks
  obtain ⟨⟨k, new', last⟩, hlast, htag, hzero⟩ :=
    over_of_turns (turn_move G) rfl hcall (left_le _) hmoves
  obtain ⟨rfl, rfl⟩ := Prod.mk.inj htag
  cases last with
  | answered answer => exact ⟨answer, hlast⟩
  | asked => cases hzero
  | collected c => cases hzero

/-- A call that is over stays as it is. -/
theorem Answered.run {h : Handle} {new : Signature} {answer : Except Error Handle}
    (hanswered : v.Answered i h new answer) (moves : List Move) :
    (v.run G moves).Answered i h new answer := by
  have hturn : (Move.goOn i).turn = some i := rfl
  obtain ⟨w, hw, -, -, hsame⟩ :=
    later_of_turns (turn_move G) hturn hanswered (n := 0) (List.nil_sublist moves)
  obtain rfl := hsame rfl
  exact hw

/-! ## The invariant -/

/-- What is known of a call: a collector that it has got is one of its target, for as many arguments as
it collects, and what it has been answered is what it could have come to where nothing is remembered. -/
inductive Fair (G : ClassGraph) : View → Prop where
  | asked (h : Handle) (new : Signature) : Fair G ⟨h, new, .asked⟩
  | collected {h t c : Handle} {new : Signature} {array : Ty} {cell s : Stamp} {count : Nat}
      (course : h.courseTo G new = .collect t array cell count)
      (made : t.asCollector G s array count = .ok c) : Fair G ⟨h, new, .collected c⟩
  | answered {h : Handle} {new : Signature} {answer : Except Error Handle} (s s' : Stamp)
      (afresh : h.afresh G new s s' = answer) : Fair G ⟨h, new, .answered answer⟩

/-- What holds at every moment, with the handles listed: what is remembered are collectors of the right
targets, nothing is asked about other handles, and all calls are treated fairly. -/
structure Sound (G : ClassGraph) (hs : List Handle) (v : Viewing) : Prop where
  registers : ∃ T, v.machine.Registers G T hs
  keyed : v.machine.Keyed
  listed : ∀ w ∈ v.views, w.handle ∈ hs
  fair : ∀ w ∈ v.views, Fair G w

theorem sound_on {m : Machine} {T : Cells} (hm : m.Registers G T hs) (hkeyed : m.Keyed) :
    (on m).Sound G hs :=
  ⟨⟨T, hm⟩, hkeyed, nofun, nofun⟩

/-- Whoever has left the collector that a call gets, it is one of the call's target. -/
theorem Sound.collector (hv : v.Sound G hs) {h t c : Handle} {new : Signature} {array : Ty}
    {cell : Stamp} {count : Nat} {m : Machine} (hh : h ∈ hs)
    (hcourse : h.courseTo G new = .collect t array cell count)
    (hmade : collectorFor G t array cell count v.machine = .ok c m) :
    (∃ T, m.Registers G T hs) ∧ m.Keyed ∧ ∃ s, t.asCollector G s array count = .ok c := by
  obtain ⟨T, hm⟩ := hv.registers
  have hcell := (hm.handles h hh t array cell (Handle.courseTo_eq_collect hcourse)).2
  obtain ⟨T', -, hstep⟩ := registers_collectorFor hcell count v.machine hm
  have hsame := stays_collectorFor Machine.allows_sameThunks (fun _ _ => ⟨rfl, rfl⟩) G t array cell
    count v.machine
  rw [hmade] at hstep
  rw [Link.start_of_ok hmade] at hsame
  obtain ⟨hregisters, s, hs⟩ := hstep
  exact ⟨⟨T', hregisters.of_subset fun k hk => List.mem_cons_of_mem c hk⟩, hsame.keyed hv.keyed, s, hs⟩

/-- A step that leaves the machine sound leaves everything so, if the call that made it is treated
fairly. -/
theorem Sound.set (hv : v.Sound G hs) {h : Handle} {new : Signature} {phase phase' : ViewPhase}
    {m : Machine} (hcall : v.views[i]? = some ⟨h, new, phase⟩) (hm : ∃ T, m.Registers G T hs)
    (hkeyed : m.Keyed) (hfair : Fair G ⟨h, new, phase'⟩) :
    Sound G hs ⟨m, v.views.set i ⟨h, new, phase'⟩⟩ := by
  refine ⟨hm, hkeyed, fun w hw => ?_, fun w hw => ?_⟩
  · rcases List.mem_or_eq_of_mem_set hw with hold | rfl
    · exact hv.listed w hold
    · exact hv.listed ⟨h, new, phase⟩ (List.mem_of_getElem? hcall)
  · rcases List.mem_or_eq_of_mem_set hw with hold | rfl
    · exact hv.fair w hold
    · exact hfair

theorem Sound.takesStamp (hv : v.Sound G hs) {n : Stamp} (hn : v.machine.nextStamp ≤ n) :
    (∃ T, ({ v.machine with nextStamp := n } : Machine).Registers G T hs) ∧
      ({ v.machine with nextStamp := n } : Machine).Keyed := by
  obtain ⟨T, hm⟩ := hv.registers
  exact ⟨⟨T, hm.congr rfl rfl hn⟩, (Machine.allows_sameThunks.stamp _ n).keyed hv.keyed⟩

theorem Step.sound (h : v.Step G i v') (hv : v.Sound G hs) : v'.Sound G hs := by
  cases h with
  | settled call course =>
    exact hv.set call hv.registers hv.keyed (.answered 0 0 (by rw [Handle.afresh, course]))
  | converted call course n later =>
    obtain ⟨hm, hkeyed⟩ := hv.takesStamp later
    exact hv.set call hm hkeyed (.answered 0 v.machine.nextStamp (by rw [Handle.afresh, course]))
  | collected call course made =>
    obtain ⟨hm, hkeyed, s, hs⟩ := hv.collector (hv.listed _ (List.mem_of_getElem? call)) course made
    exact hv.set call hm hkeyed (.collected course hs)
  | refused call course made =>
    refine hv.set call hv.registers hv.keyed (.answered v.machine.nextStamp 0 ?_)
    rw [Handle.afresh, course]
    exact congrArg (· >>= _) made
  | viewed call n later =>
    obtain ⟨hm, hkeyed⟩ := hv.takesStamp later
    cases hv.fair _ (List.mem_of_getElem? call) with
    | @collected h t c new array cell s count course made =>
      refine hv.set call hm hkeyed (.answered s v.machine.nextStamp ?_)
      rw [Handle.afresh, course]
      exact congrArg (· >>= _) made

/-- A move keeps everything sound, if it asks for no other handles than those listed. -/
theorem Sound.move (hv : v.Sound G hs) {m : Move} (hm : ∀ h new, m = .ask h new → h ∈ hs) :
    (v.move G m).Sound G hs := by
  rcases v.move_cases G m with ⟨h, new, rfl, hmove⟩ | ⟨i, -, hstep | ⟨-, hmove⟩⟩
  · rw [hmove]
    refine ⟨hv.registers, hv.keyed, fun w hw => ?_, fun w hw => ?_⟩
    · rcases List.mem_append.1 hw with hold | hnew
      · exact hv.listed w hold
      · rw [List.mem_singleton.1 hnew]
        exact hm h new rfl
    · rcases List.mem_append.1 hw with hold | hnew
      · exact hv.fair w hold
      · rw [List.mem_singleton.1 hnew]
        exact .asked h new
  · exact hstep.sound hv
  · rwa [hmove]

theorem Sound.run (hv : v.Sound G hs) {moves : List Move}
    (hmoves : ∀ h new, .ask h new ∈ moves → h ∈ hs) : (v.run G moves).Sound G hs := by
  induction moves generalizing v with
  | nil => exact hv
  | cons m moves ih =>
    refine ih (hv.move fun h new hm => hmoves h new ?_) fun h new hmem => hmoves h new ?_
    · exact hm ▸ List.mem_cons_self
    · exact List.mem_cons_of_mem m hmem

theorem run_append (v : Viewing) (G : ClassGraph) (moves more : List Move) :
    v.run G (moves ++ more) = (v.run G moves).run G more := List.foldl_append

/-- However the calls take turns, what one is answered is what it could have come to where nothing is
remembered. -/
theorem Sound.answered {h : Handle} {new : Signature} {answer : Except Error Handle}
    (hv : v.Sound G hs) (hanswered : v.Answered i h new answer) :
    ∃ s s', answer = h.afresh G new s s' := by
  cases hv.fair _ (List.mem_of_getElem? hanswered) with
  | answered s s' afresh => exact ⟨s, s', afresh.symm⟩

theorem convert_alone (G : ClassGraph) (m : Machine) (h t : Handle) (new : Signature)
    (phase : ViewPhase) : convert G ⟨m, [⟨h, new, phase⟩]⟩ 0 ⟨h, new, phase⟩ t =
      ⟨((Link.build (t.convertTo G · new)).start m).2,
        [⟨h, new, .answered ((Link.build (t.convertTo G · new)).start m).1⟩]⟩ := by
  unfold convert Link.start
  cases Link.build (t.convertTo G · new) m <;> rfl

/-- A call that nobody disturbs is `Handle.asType`. -/
theorem run_alone (G : ClassGraph) (m : Machine) (h : Handle) (new : Signature) :
    (on m).run G [.ask h new, .goOn 0, .goOn 0] = ⟨((h.asType G new).start m).2,
      [⟨h, new, .answered ((h.asType G new).start m).1⟩]⟩ := by
  rw [h.asType_eq G new]
  simp only [run, List.foldl_cons, List.foldl_nil, move, on, List.nil_append, goOn?,
    List.getElem?_cons_zero, Option.bind_some]
  cases h.courseTo G new with
  | settled answer => cases answer <;> rfl
  | convert t =>
    simp only [Option.getD_some, convert_alone, List.getElem?_cons_zero, Option.bind_some,
      Option.getD_none]
  | collect t array cell count =>
    simp only [Option.getD_some, collect, Link.start_bind]
    unfold Link.start
    cases collectorFor G t array cell count m with
    | ok c n =>
      simp only [advance, List.set_cons_zero, List.getElem?_cons_zero, Option.bind_some,
        Option.getD_some, convert_alone]
      rfl
    | error e n => rfl

end Viewing

end HandleCalculus
