import HandleCalculus.World
import HandleCalculus.Proofs.Unwinding

/-!
# What the log does not decide

Compiling a thunk is logged, so two ways to the same result may leave different logs. Nothing that a
call does depends on the log: no step on the store looks at it (`Work.Blind`), and no script does
(`World.blind_program`). A program whose bodies do not look at the log is blind (`Program.Blind`); what
is shown of its calls later takes no notice of the log.
-/

set_option autoImplicit false

namespace HandleCalculus

/-! ## Stores without their log -/

/-- How a computation has ended, with the part of the state that is looked at. -/
def seen {E S T α : Type} (look : S → T) : EStateM.Result E S α → Except E α × T
  | .ok a s => (.ok a, look s)
  | .error e s => (.error e, look s)

/-- Ends that look the same are both values or both failures. -/
theorem ends_of_seen_eq {E S T α : Type} {look : S → T} {r r' : EStateM.Result E S α}
    (h : seen look r = seen look r') :
    (∃ a s t, r = .ok a s ∧ r' = .ok a t ∧ look s = look t) ∨
      ∃ e s t, r = .error e s ∧ r' = .error e t ∧ look s = look t := by
  cases r with
  | ok a s =>
    cases r' with
    | ok b t =>
      obtain ⟨hab, hst⟩ := Prod.mk.inj h
      obtain rfl := Except.ok.inj hab
      exact .inl ⟨a, s, t, rfl, rfl, hst⟩
    | error e t => cases (Prod.mk.inj h).1
  | error e s =>
    cases r' with
    | ok b t => cases (Prod.mk.inj h).1
    | error e' t =>
      obtain ⟨he, hst⟩ := Prod.mk.inj h
      obtain rfl := Except.error.inj he
      exact .inr ⟨e, s, t, rfl, rfl, hst⟩

/-- What a computation answers on a machine: a value, or why there is none. -/
def Run.answer {α : Type} (x : Run α) (m : Machine) : Except Stop α := (seen id (x m)).1

theorem Run.answer_eq {α T : Type} (look : Machine → T) (x : Run α) (m : Machine) :
    x.answer m = (seen look (x m)).1 := by
  unfold answer
  cases x m <;> rfl

namespace Store

variable {E α β : Type}

/-- The store but for the log. -/
def unlogged (s : Store) : Store := { s with log := #[] }

/-- Whether a computation does the same whatever has been logged. -/
def Blind (x : EStateM E Store α) : Prop :=
  ∀ s, seen unlogged (x s) = seen unlogged (x s.unlogged)

/-- Stores that differ in their logs are the same to a blind computation. -/
theorem Blind.seen_eq {x : EStateM E Store α} (hx : Blind x) {s t : Store}
    (hst : s.unlogged = t.unlogged) : seen unlogged (x s) = seen unlogged (x t) := by
  rw [hx s, hst, ← hx t]

namespace Blind

theorem pure (a : α) : Blind (Pure.pure a : EStateM E Store α) := fun _ => rfl

theorem throw (e : E) : Blind (MonadExcept.throw e : EStateM E Store α) := fun _ => rfl

theorem bind {x : EStateM E Store α} {f : α → EStateM E Store β} (hx : Blind x)
    (hf : ∀ a, Blind (f a)) : Blind (x >>= f) := by
  intro s
  rcases ends_of_seen_eq (hx s) with ⟨a, t, t', h, h', ht⟩ | ⟨e, t, t', h, h', ht⟩
  · rw [bind_eq_of_ok h, bind_eq_of_ok h']
    exact (hf a).seen_eq ht
  · rw [bind_eq_of_error h, bind_eq_of_error h']
    show (Except.error e, t.unlogged) = (Except.error e, t'.unlogged)
    rw [ht]

end Blind

/-! ### Steps on the store -/

theorem readField_unlogged (s : Store) (o : Object) (offset : Nat) :
    s.unlogged.readField o offset = s.readField o offset := by
  cases o <;> rfl

theorem writeField_unlogged (s : Store) (o : Object) (offset : Nat) (v : Value) :
    (s.unlogged.writeField o offset v).map unlogged = (s.writeField o offset v).map unlogged := by
  have hslots : s.unlogged.slotsOf? o = s.slotsOf? o := by cases o <;> rfl
  unfold writeField
  rw [hslots]
  split
  · split <;> rfl
  · rfl

theorem writeStatic_unlogged (s : Store) (c : ClassId) (offset : Nat) (v : Value) :
    (s.unlogged.writeStatic c offset v).map unlogged = (s.writeStatic c offset v).map unlogged := by
  have hstatics : s.unlogged.statics = s.statics := rfl
  unfold writeStatic
  rw [hstatics]
  split
  · split <;> rfl
  · rfl

theorem setTarget_unlogged (s : Store) (id : SiteId) (h : Handle) :
    (s.unlogged.setTarget id h).map unlogged = (s.setTarget id h).map unlogged := by
  have hsites : s.unlogged.sites = s.sites := rfl
  unfold setTarget
  rw [hsites]
  split
  · rfl
  · split <;> rfl

end Store

/-- A program whose method bodies do not look at the log. -/
def Program.Blind (P : Program) : Prop := ∀ m args, Store.Blind (P.body m args)

/-! ## Scripts -/

namespace Script

open Store (Blind)

variable {α : Type} {G : ClassGraph}

theorem blind_alloc {f : Store → Object × Store} (hobject : ∀ s, (f s.unlogged).1 = (f s).1)
    (hstore : ∀ s, (f s.unlogged).2.unlogged = (f s).2.unlogged) : Blind (alloc f) := by
  intro s
  show (Except.ok (f s).1, (f s).2.unlogged) = (.ok (f s.unlogged).1, (f s.unlogged).2.unlogged)
  rw [hobject, hstore]

theorem blind_throwNew (c : ClassId) (msg : String) : Blind (throwNew (α := α) c msg) :=
  .bind (blind_alloc (fun _ => rfl) fun _ => rfl) fun o => .throw o

theorem blind_bad : Blind (bad (α := α)) := blind_throwNew _ _

theorem blind_orBad (a? : Option α) : Blind (orBad a?) := by
  cases a? with
  | none => exact blind_bad
  | some a => exact .pure a

/-- Writing what a step on the store comes to, or failing. -/
theorem blind_update {x : Store → Except Error Store} {next : Eval α} {refused : Eval α}
    (hx : ∀ s, (x s.unlogged).map Store.unlogged = (x s).map Store.unlogged)
    (hnext : Blind next) (hrefused : Blind refused) :
    Blind (EStateM.get >>= fun s => match x s with
      | .ok s => EStateM.set s >>= fun _ => next
      | .error _ => refused) := by
  intro s
  have hs := hx s
  show seen Store.unlogged ((match x s with
      | .ok s => EStateM.set s >>= fun _ => next
      | .error _ => refused) s) = seen Store.unlogged ((match x s.unlogged with
      | .ok s => EStateM.set s >>= fun _ => next
      | .error _ => refused) s.unlogged)
  cases h : x s with
  | ok s₁ =>
    rw [h] at hs
    cases h' : x s.unlogged with
    | ok s₂ =>
      rw [h'] at hs
      exact hnext.seen_eq (Except.ok.inj hs).symm
    | error e =>
      rw [h'] at hs
      cases hs
  | error e =>
    rw [h] at hs
    cases h' : x s.unlogged with
    | ok s₂ =>
      rw [h'] at hs
      cases hs
    | error e' => exact hrefused s

mutual

/-- No script looks at the log. -/
theorem blind_eval (G : ClassGraph) (args : List Value) : ∀ e : Script, Blind (eval G args e)
  | .arg i => blind_orBad _
  | .val v => .pure v
  | .str parts => .bind (blind_evalAll G args parts) fun _ => .pure _
  | .add a b | .mul a b | .less a b | .addLong a b =>
    .bind (blind_eval G args a) fun _ => .bind (blind_orBad _) fun _ =>
      .bind (blind_eval G args b) fun _ => .bind (blind_orBad _) fun _ => .pure _
  | .same a b =>
    .bind (blind_eval G args a) fun _ => .bind (blind_eval G args b) fun _ => .pure _
  | .isInstance e t => .bind (blind_eval G args e) fun _ => .pure _
  | .cond c a b => by
    refine .bind (blind_eval G args c) fun v => .bind (blind_orBad _) fun r => ?_
    cases r with
    | true => exact blind_eval G args a
    | false => exact blind_eval G args b
  | .seq parts => .bind (blind_evalAll G args parts) fun _ => .pure _
  | .get o slot => by
    refine .bind (blind_eval G args o) fun v => .bind (blind_orBad _) fun target s => ?_
    show seen Store.unlogged ((match s.readField target slot with
        | .ok w => Pure.pure w
        | .error _ => bad : Eval Value) s) =
      seen Store.unlogged ((match s.unlogged.readField target slot with
        | .ok w => Pure.pure w
        | .error _ => bad : Eval Value) s.unlogged)
    rw [Store.readField_unlogged]
    cases s.readField target slot with
    | ok w => rfl
    | error e => exact blind_bad s
  | .set o slot e =>
    .bind (blind_eval G args o) fun _ => .bind (blind_orBad _) fun target =>
      .bind (blind_eval G args e) fun w =>
        blind_update (fun s => s.writeField_unlogged target slot w) (.pure _)
          (.bind blind_bad fun _ => .pure _)
  | .sum e => .bind (blind_eval G args e) fun _ => .bind (blind_orBad _) fun _ => .pure _
  | .length e => .bind (blind_eval G args e) fun _ => .bind (blind_orBad _) fun _ => .pure _
  | .box e => .bind (blind_eval G args e) fun _ => .pure _
  | .new c => .bind (blind_alloc (fun _ => rfl) fun _ => rfl) fun _ => .pure _
  | .array component elems =>
    .bind (blind_evalAll G args elems) fun _ =>
      .bind (blind_alloc (fun _ => rfl) fun _ => rfl) fun _ => .pure _
  | .throw c msg => .bind (blind_eval G args msg) fun _ => blind_throwNew c _
  | .raise e => .bind (blind_eval G args e) fun _ => .bind (blind_orBad _) fun o => .throw o
  | .message e => by
    refine .bind (blind_eval G args e) fun v => .bind (blind_orBad _) fun o => ?_
    cases o.message? with
    | some msg => exact .pure _
    | none => exact .pure _
  | .className e => .bind (blind_eval G args e) fun _ => .bind (blind_orBad _) fun _ => .pure _
  | .retarget site target =>
    blind_update (fun s => s.setTarget_unlogged site target) (.pure _) (.pure _)
  | .upper e => .bind (blind_eval G args e) fun _ => .bind (blind_orBad _) fun _ => .pure _
  | .endsWith e c => .bind (blind_eval G args e) fun _ => .bind (blind_orBad _) fun _ => .pure _
  | .malformed => blind_bad

theorem blind_evalAll (G : ClassGraph) (args : List Value) :
    ∀ es : List Script, Blind (evalAll G args es)
  | [] => .pure _
  | e :: es => .bind (blind_eval G args e) fun _ => .bind (blind_evalAll G args es) fun _ => .pure _

end

end Script

/-- The program of a world runs scripts, and so is blind. -/
theorem World.blind_program (w : World) : w.program.Blind := fun m args =>
  Script.blind_eval w.graph args (w.script m)

/-! ## The work of nodes -/

/-- Whether the steps of some work on the store do the same whatever has been logged. -/
def Work.Blind : Work → Prop
  | answer _ | stop _ => True
  | effect f next => (∀ s, (f s.unlogged).map (fun p => (p.1, p.2.unlogged)) =
      (f s).map fun p => (p.1, p.2.unlogged)) ∧ ∀ a, (next a).Blind
  | run _ _ next => ∀ v, (next v).Blind

/-- No step that nodes take looks at the log. -/
theorem Store.Primitive.blind {α : Type} {f : Store → Except Error (α × Store)} (hf : Primitive f)
    (s : Store) : (f s.unlogged).map (fun p => (p.1, p.2.unlogged)) =
      (f s).map fun p => (p.1, p.2.unlogged) := by
  have read : ∀ x : Except Error Value, (x.map (·, s.unlogged)).map (fun p => (p.1, p.2.unlogged)) =
      (x.map (·, s)).map fun p => (p.1, p.2.unlogged) := fun x => by cases x <;> rfl
  have write : ∀ x y : Except Error Store, x.map unlogged = y.map unlogged →
      (x.map ((), ·)).map (fun p => (p.1, p.2.unlogged)) =
        (y.map ((), ·)).map fun p => (p.1, p.2.unlogged) := by
    have hpair : ∀ x : Except Error Store, (x.map ((), ·)).map (fun p => (p.1, p.2.unlogged)) =
        (x.map unlogged).map ((), ·) := fun x => by cases x <;> rfl
    intro x y hxy
    rw [hpair, hpair, hxy]
  cases hf with
  | newInstance | newArray => rfl
  | readStatic c offset => exact read (s.readStatic c offset)
  | readField o offset =>
    dsimp only
    rw [s.readField_unlogged]
    exact read (s.readField o offset)
  | getTarget site =>
    have hsame : s.unlogged.getTarget site = s.getTarget site := rfl
    dsimp only
    rw [hsame]
    cases s.getTarget site <;> rfl
  | writeStatic c offset v => exact write _ _ (s.writeStatic_unlogged c offset v)
  | writeField o offset v => exact write _ _ (s.writeField_unlogged o offset v)

theorem Work.Plain.blind {w : Work} (hw : w.Plain) : w.Blind := by
  induction w with
  | answer v => exact trivial
  | stop s => exact trivial
  | effect f next ih => exact ⟨hw.1.blind, fun a => ih a (hw.2 a)⟩
  | run c args next ih => exact fun v => ih v (hw v)

/-- No node looks at the log. -/
theorem Handle.blind_work (G : ClassGraph) (h : Handle) (args : List Value) :
    (h.work G args).Blind :=
  (h.plain_work G args).blind

end HandleCalculus
