import HandleCalculus.Invocation
import HandleCalculus.Proofs.CompileTable
import HandleCalculus.Proofs.LinkTyping

/-!
# Steps of a call

A call that goes well leaves the machine typed, over an extent that may have grown, and its result is
of the type that was promised. An error may come of it, though never one of the two that are there for
handles that do not fit their own nodes, and the depth may run out; but no entry routine ever reaches
past its arguments.

All this is said of two computations at once that do the same (`Run.Sound`): the call as it is, and
the call under watch, which stops as soon as some handle on the way is called with arguments that it
does not take. That they do the same is what makes the promise hold all the way down.
-/

set_option autoImplicit false

namespace HandleCalculus

/-! ## Errors and results -/

/-- Whether only a handle that does not fit its own node could fail with the error. -/
def Error.isInternal : Error → Bool
  | .wrongThunk .. | .value (.guardResult _) => true
  | _ => false

/-- Whether a typed call may fail with the error: it is not one of the two, and what it throws is
live. -/
structure Error.Safe (classes : List ClassId) (e : Error) : Prop where
  internal : e.isInternal = false
  lives : ∀ o, e = .thrown o → o.Lives classes

/-- Whether the error is neither internal nor a throwable that the called code has thrown. -/
def Error.isPlain : Error → Bool
  | .wrongThunk .. | .value (.guardResult _) | .thrown _ => false
  | _ => true

theorem Error.safe_of_isPlain {classes : List ClassId} {e : Error} (h : e.isPlain = true) :
    e.Safe classes := by
  constructor
  · unfold isPlain at h
    unfold isInternal
    split at h <;> simp_all
  · rintro o rfl
    cases h

theorem Error.Safe.mono {classes classes' : List ClassId} {e : Error} (h : e.Safe classes)
    (hc : classes <+: classes') : e.Safe classes' :=
  ⟨h.internal, fun o ho => (h.lives o ho).mono hc⟩

/-- Whether a value is a live result of the type. -/
structure Value.Answers (G : ClassGraph) (t : Ty) (W : Extent) (v : Value) : Prop where
  result : v.isResultOf G t = true
  lives : v.Lives W.classes

theorem Value.Answers.of_isAssignable {G : ClassGraph} {s t : Ty} {W : Extent} {v : Value}
    (h : v.Answers G s W) (hst : G.isAssignable s t = true) : v.Answers G t W :=
  ⟨Value.isResultOf_of_isAssignable h.result hst, h.lives⟩

/-- A result of a type other than `void` may be passed as an argument. -/
theorem Value.Answers.fits {G : ClassGraph} {t : Ty} {W : Extent} {v : Value} (h : v.Answers G t W)
    (ht : t ≠ .void) : v.fits G t = true := by
  rw [← Value.isResultOf_of_ne ht]
  exact h.result

/-! ## Sound computations -/

/-- Whether a call has ended well, having started from the extent. -/
def Run.Ends {α : Type} (G : ClassGraph) (W : Extent) (Q : Extent → α → Prop) :
    EStateM.Result Stop Machine α → Prop
  | .ok a m => ∃ W', W.Grows W' ∧ m.Typed G W' ∧ Q W' a
  | .error (.error e) m => ∃ W', W.Grows W' ∧ m.Typed G W' ∧ e.Safe W'.classes
  | .error (.fault _) _ => False
  | .error .exhausted _ => True

/-- Whether, on typed machines, both computations do the same and end well. -/
def Run.Sound {α : Type} (G : ClassGraph) (W : Extent) (x y : Run α) (Q : Extent → α → Prop) :
    Prop :=
  ∀ m : Machine, m.Typed G W → y m = x m ∧ Run.Ends G W Q (x m)

/-- A typed machine whose store has become another typed one. -/
theorem Machine.Typed.withStore {G : ClassGraph} {W W' : Extent} {m : Machine} (hm : m.Typed G W)
    (hW : W.Grows W') {s : Store} (hs : s.Typed G W') : ({ m with store := s } : Machine).Typed G W' :=
  ⟨hs, hm.cells, hm.thunks, fun cell n h hk => (hm.collectors cell n h hk).mono hW, hm.members⟩

namespace Run

variable {α β : Type} {G : ClassGraph} {W W' : Extent} {Q : Extent → α → Prop}
  {R : Extent → β → Prop}

theorem Ends.grow {r : EStateM.Result Stop Machine α} (hr : Ends G W' Q r) (hW : W.Grows W') :
    Ends G W Q r := by
  cases r with
  | ok a m =>
    obtain ⟨W'', hgrows, hm, ha⟩ := hr
    exact ⟨W'', hW.trans hgrows, hm, ha⟩
  | error e m =>
    cases e with
    | error e =>
      obtain ⟨W'', hgrows, hm, he⟩ := hr
      exact ⟨W'', hW.trans hgrows, hm, he⟩
    | fault v => exact hr
    | exhausted => exact hr

/-- What an attempt answers: a result, or an error that a call may end with. -/
def Attempted (Q : Extent → α → Prop) (W : Extent) : Except Error α → Prop
  | .ok a => Q W a
  | .error e => e.Safe W.classes

namespace Sound

theorem mono {Q' : Extent → α → Prop} {x y : Run α} (hx : Sound G W x y Q)
    (hQ : ∀ W' a, Q W' a → Q' W' a) : Sound G W x y Q' := by
  intro m hm
  obtain ⟨hsame, hends⟩ := hx m hm
  refine ⟨hsame, ?_⟩
  generalize x m = r at hends
  cases r with
  | ok a m' =>
    obtain ⟨W', hW, hm', ha⟩ := hends
    exact ⟨W', hW, hm', hQ W' a ha⟩
  | error e m' =>
    cases e with
    | error e => exact hends
    | fault v => exact hends
    | exhausted => exact hends

/-- One step after the other; what comes second starts from the extent that the first has left. -/
theorem bind {x y : Run α} {f g : α → Run β} (hx : Sound G W x y Q)
    (hf : ∀ W' a, W.Grows W' → Q W' a → Sound G W' (f a) (g a) R) :
    Sound G W (x >>= f) (y >>= g) R := by
  intro m hm
  obtain ⟨hsame, hends⟩ := hx m hm
  show EStateM.bind y g m = EStateM.bind x f m ∧ Ends G W R (EStateM.bind x f m)
  unfold EStateM.bind
  rw [hsame]
  cases hxm : x m with
  | ok a m' =>
    rw [hxm] at hends
    obtain ⟨W', hW, hm', ha⟩ := hends
    obtain ⟨hsame', hends'⟩ := hf W' a hW ha m' hm'
    exact ⟨hsame', hends'.grow hW⟩
  | error e m' =>
    rw [hxm] at hends
    cases e with
    | error e => exact ⟨rfl, hends⟩
    | fault v => exact hends.elim
    | exhausted => exact ⟨rfl, trivial⟩

theorem pure {a : α} (h : Q W a) : Sound G W (Pure.pure a) (Pure.pure a) Q :=
  fun _ hm => ⟨rfl, W, .refl W, hm, h⟩

theorem fail {e : Error} (h : e.Safe W.classes) :
    Sound G W (Run.fail e : Run α) (Run.fail e) Q :=
  fun _ hm => ⟨rfl, W, .refl W, hm, h⟩

theorem ofExcept {x : Except Error α} (hok : ∀ a, x = .ok a → Q W a)
    (herror : ∀ e, x = .error e → e.Safe W.classes) :
    Sound G W (Run.ofExcept x) (Run.ofExcept x) Q := by
  intro m hm
  cases x with
  | ok a => exact ⟨rfl, W, .refl W, hm, hok a rfl⟩
  | error e => exact ⟨rfl, W, .refl W, hm, herror e rfl⟩

/-- Making an object leaves the call sites as they are. -/
theorem alloc {f : Store → Object × Store} {Q : Extent → Object → Prop}
    (hbecomes : ∀ s : Store, s.Typed G W → s.Becomes G [] (f s).2)
    (hmade : ∀ (s : Store) (W' : Extent), s.Typed G W → W.Grows W' →
      W'.classes = (f s).2.live → Q W' (f s).1) :
    Sound G W (Run.alloc f) (Run.alloc f) Q := by
  intro m hm
  have hnone : ∀ t ∈ ([] : List Handle), t.Typed G W := fun t ht => absurd ht List.not_mem_nil
  obtain ⟨hW, hs⟩ := hm.store.becomes (hbecomes m.store hm.store) hnone
  exact ⟨rfl, _, hW, hm.withStore hW hs, hmade m.store _ hm.store hW rfl⟩

theorem readStore {f : Store → Except Error α} (hok : ∀ s a, s.Typed G W → f s = .ok a → Q W a)
    (herror : ∀ s e, f s = .error e → e.Safe W.classes) :
    Sound G W (Run.readStore f) (Run.readStore f) Q := by
  intro m hm
  refine ⟨rfl, ?_⟩
  unfold Run.readStore
  cases hf : f m.store with
  | ok a => exact ⟨W, .refl W, hm, hok _ a hm.store hf⟩
  | error e => exact ⟨W, .refl W, hm, herror _ e hf⟩

theorem writeStore {f : Store → Except Error Store}
    (hok : ∀ s s', s.Typed G W → f s = .ok s' → s.Becomes G [] s')
    (herror : ∀ s e, f s = .error e → e.Safe W.classes) :
    Sound G W (Run.writeStore f) (Run.writeStore f) (fun _ _ => True) := by
  intro m hm
  refine ⟨rfl, ?_⟩
  unfold Run.writeStore
  cases hf : f m.store with
  | ok s' =>
    have hbecomes := hok _ s' hm.store hf
    obtain ⟨hW, hs⟩ := hm.store.becomes hbecomes fun t ht => absurd ht List.not_mem_nil
    exact ⟨_, hW, hm.withStore hW hs, trivial⟩
  | error e => exact ⟨W, .refl W, hm, herror _ e hf⟩

theorem attempt {x y : Run α} (hx : Sound G W x y Q) :
    Sound G W (Run.attempt x) (Run.attempt y) (Attempted Q) := by
  intro m hm
  obtain ⟨hsame, hends⟩ := hx m hm
  unfold Run.attempt
  rw [hsame]
  refine ⟨rfl, ?_⟩
  cases hxm : x m with
  | ok a m' =>
    rw [hxm] at hends
    exact hends
  | error e m' =>
    rw [hxm] at hends
    cases e with
    | error e => exact hends
    | fault v => exact hends
    | exhausted => exact hends

end Sound

end Run

/-! ## Thunks -/

theorem Machine.Typed.reportAll {G : ClassGraph} {W : Extent} {m : Machine} (hm : m.Typed G W)
    (events : List Event) : (events.foldl Machine.report m).Typed G W := by
  induction events generalizing m with
  | nil => exact hm
  | cons e events ih => exact ih (hm.report e)

/-- What the table answers for a key is compiled for that key, and so is all that it keeps. -/
theorem ThunkTable.get_key {t : ThunkTable}
    (ht : ∀ k thunk, t.cache.peek? k = some thunk → thunk.key = k) (key : ThunkKey) :
    (∀ thunk, (t.get key).1 = .ok thunk → thunk.key = key) ∧
      (∀ e, (t.get key).1 = .error e → ∃ c, e = .compile c) ∧
      ∀ k thunk, (t.get key).2.1.cache.peek? k = some thunk → thunk.key = k := by
  unfold ThunkTable.get
  cases hpeek : t.cache.peek? key with
  | some thunk =>
    refine ⟨fun thunk' h => ?_, fun e h => ?_, ht⟩
    · obtain rfl := Except.ok.inj h
      exact ht key thunk hpeek
    · cases h
  | none =>
    cases hcompile : Thunk.compile t.nextId key with
    | error c =>
      -- a failed compilation leaves nothing in the table
      refine ⟨fun thunk h => ?_, fun e h => ?_, fun k thunk h => ?_⟩
      · cases h
      · exact ⟨c, (Except.error.inj h).symm⟩
      · rcases CompileOnce.Cache.peek?_get h with h | ⟨-, h⟩
        · exact ht k thunk h
        · cases h
    | ok made =>
      have hmade : made.key = key := by
        unfold Thunk.compile at hcompile
        split at hcompile
        · cases hcompile
        · obtain rfl := Except.ok.inj hcompile
          rfl
      refine ⟨fun thunk h => ?_, fun e h => ?_, fun k thunk h => ?_⟩
      · obtain rfl := Except.ok.inj h
        exact hmade
      · cases h
      · rcases CompileOnce.Cache.peek?_get h with hbefore | ⟨rfl, hnew⟩
        · exact ht k thunk hbefore
        · obtain rfl := Except.ok.inj hnew
          exact hmade

/-- The thunk that a handle is called through is the one for its key. -/
theorem Handle.sound_thunk {G : ClassGraph} {W : Extent} (h : Handle) :
    Run.Sound G W h.thunk h.thunk (fun _ t => t.key = h.key) := by
  intro m hm
  refine ⟨rfl, ?_⟩
  unfold Handle.thunk
  cases hcell : m.cells.lookup (h.stamp, h.key) with
  | some t => exact ⟨W, .refl W, hm, hm.cells _ t hcell⟩
  | none =>
    -- the thunk comes from the table, and the handle keeps it in its own cell
    obtain ⟨hok, herror, htable⟩ := ThunkTable.get_key hm.thunks h.key
    generalize m.thunks.get h.key = got at hok herror htable
    obtain ⟨result, thunks, events⟩ := got
    have hm' : (events.foldl Machine.report { m with thunks := thunks }).Typed G W := by
      have hstart : ({ m with thunks := thunks } : Machine).Typed G W :=
        ⟨hm.store, hm.cells, htable, hm.collectors, hm.members⟩
      exact hstart.reportAll events
    cases result with
    | error e =>
      obtain ⟨c, rfl⟩ := herror e rfl
      exact ⟨W, .refl W, hm', Error.safe_of_isPlain rfl⟩
    | ok t =>
      have hkey := hok t rfl
      exact ⟨W, .refl W, ⟨hm'.store, forall_lookup_cons hm'.cells hkey, hm'.thunks, hm'.collectors,
        hm'.members⟩, hkey⟩

/-- The entry routine of a handle's own variant does the work of its node. -/
theorem Handle.enter_variant (P : Program) (call : Caller) (h : Handle) (args : List Value) :
    h.enter P call h.variant args = h.perform P call args := by
  obtain ⟨stamp, type, node⟩ := h
  cases node <;> rfl

end HandleCalculus
