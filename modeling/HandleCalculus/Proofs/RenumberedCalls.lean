import HandleCalculus.Proofs.EnoughDepth
import HandleCalculus.Proofs.Renumbering

/-!
# Calls on renumbered machines

A call whose arguments, handle and machine are renumbered does what the call does, renumbered: it ends with
the same answer or for the same reason, runs the same bodies and leaves the same store, but for the numbers
(`Handle.renumbers_invokeExact`). The bodies must not look at numbers either (`Program.Unnumbered`), and
the numbers that are next must go on by ones.
-/

set_option autoImplicit false

namespace HandleCalculus

/-! ## Computations that mirror others -/

/-- How the ends of two computations correspond: the states that they leave are related, and the value or
the error of one is that of the other replaced. -/
inductive Mirrored {E S α : Type} (R : S → S → Prop) (h : E → E) (g : α → α) :
    EStateM.Result E S α → EStateM.Result E S α → Prop where
  | ok {s t : S} (a : α) (states : R s t) : Mirrored R h g (.ok a s) (.ok (g a) t)
  | error {s t : S} (e : E) (states : R s t) : Mirrored R h g (.error e s) (.error (h e) t)

/-- Whether a computation does from related states what another one does, with what it answers or throws
replaced. -/
def Mirrors {E S α : Type} (R : S → S → Prop) (h : E → E) (g : α → α) (x y : EStateM E S α) :
    Prop :=
  ∀ s t, R s t → Mirrored R h g (x s) (y t)

namespace Mirrors

variable {E S α β : Type} {R : S → S → Prop} {h : E → E} {g : α → α} {k : β → β}

theorem pure (a : α) : Mirrors R h g (Pure.pure a) (Pure.pure (g a)) := fun _ _ hst => .ok a hst

theorem throw (e : E) : Mirrors R h g (MonadExcept.throw e) (MonadExcept.throw (h e)) :=
  fun _ _ hst => .error e hst

theorem bind {x y : EStateM E S α} {f f' : α → EStateM E S β} (hx : Mirrors R h g x y)
    (hf : ∀ a, Mirrors R h k (f a) (f' (g a))) : Mirrors R h k (x >>= f) (y >>= f') := by
  intro s t hst
  have hends := hx s t hst
  show Mirrored R h k (EStateM.bind x f s) (EStateM.bind y f' t)
  unfold EStateM.bind
  generalize x s = u at hends
  generalize y t = u' at hends
  cases hends with
  | ok a states => exact hf a _ _ states
  | error e states => exact .error e states

end Mirrors

/-! ## Machines -/

/-- Why a call stops, with the numbers of what it is about replaced. -/
def Stop.renumber (r : Nat → Nat) : Stop → Stop
  | error e => error (e.renumber r)
  | fault v => fault v
  | exhausted => exhausted

def Call.renumber (r : Nat → Nat) (c : Call) : Call := { c with args := c.args.map (Value.renumber r) }

/-- Whether a store is another one renumbered, the log apart, and what is made from now on gets renumbered
numbers. -/
structure Store.Renumbered (r : Nat → Nat) (s t : Store) : Prop where
  unlogged : t.unlogged = (s.renumber r).unlogged
  onward : ∀ i, s.minted ≤ i → r (i + 1) = r i + 1

/-- Whether what is visible of a machine is that of another one renumbered. -/
structure Machine.Renumbered (r : Nat → Nat) (m n : Machine) : Prop where
  store : m.store.Renumbered r n.store
  calls : n.calls = m.calls.map (Call.renumber r)

/-- Whether a computation is another one renumbered. -/
def Run.Renumbers {α : Type} (r : Nat → Nat) (g : α → α) (x y : Run α) : Prop :=
  Mirrors (Machine.Renumbered r) (Stop.renumber r) g x y

/-- A program whose method bodies do not look at the numbers of arrays and throwables. -/
def Program.Unnumbered (r : Nat → Nat) (P : Program) : Prop :=
  ∀ m args, Mirrors (Store.Renumbered r) (Object.renumber r) (Value.renumber r) (P.body m args)
    (P.body m (args.map (Value.renumber r)))

variable {r : Nat → Nat}

/-! ## Steps on the store -/

namespace Store.Renumbered

variable {s t : Store} (hst : s.Renumbered r t)

include hst

theorem minted_eq : t.minted = r s.minted := congrArg Store.minted hst.unlogged

theorem readField_eq (o : Object) (offset : Nat) : t.readField (o.renumber r) offset =
    mapBoth (Error.renumber r) (Value.renumber r) (s.readField o offset) := by
  rw [← t.readField_unlogged, hst.unlogged, readField_unlogged, readField_renumber]

theorem readStatic_eq (c : ClassId) (offset : Nat) : t.readStatic c offset =
    mapBoth (Error.renumber r) (Value.renumber r) (s.readStatic c offset) :=
  (congrArg (fun u : Store => u.readStatic c offset) hst.unlogged).trans (s.readStatic_renumber c offset)

theorem getTarget_eq (id : SiteId) : t.getTarget id =
    mapBoth (Error.renumber r) (Handle.renumber r) (s.getTarget id) :=
  (congrArg (fun u : Store => u.getTarget id) hst.unlogged).trans (s.getTarget_renumber id)

theorem newInstance (G : ClassGraph) (c : ClassId) :
    (t.newInstance G c).1 = (s.newInstance G c).1.renumber r ∧
      (s.newInstance G c).2.Renumbered r (t.newInstance G c).2 := by
  have hmade := s.newInstance_renumber (G := G) (r := r) c
  have hsame := congrArg (fun u : Store => u.newInstance G c) hst.unlogged
  refine ⟨?_, ?_, hst.onward⟩
  · exact (congrArg Prod.fst hsame).trans (congrArg Prod.fst hmade)
  · exact (congrArg (fun p : Object × Store => p.2.unlogged) hsame).trans
      (congrArg (fun p : Object × Store => p.2.unlogged) hmade)

theorem next : ({ s with minted := s.minted + 1 } : Store).Renumbered r
    { t with minted := t.minted + 1 } := by
  refine ⟨?_, fun i hi => hst.onward i (Nat.le_of_succ_le hi)⟩
  have hnext := congrArg (fun u : Store => { u with minted := t.minted + 1 }) hst.unlogged
  refine hnext.trans ?_
  show _ = ({ (s.renumber r).unlogged with minted := r (s.minted + 1) } : Store)
  rw [hst.onward _ (Nat.le_refl _), hst.minted_eq]

theorem newArray (c : Ty) (es : List Value) :
    (t.newArray c (es.map (Value.renumber r))).1 = (s.newArray c es).1.renumber r ∧
      (s.newArray c es).2.Renumbered r (t.newArray c (es.map (Value.renumber r))).2 := by
  refine ⟨?_, hst.next⟩
  show Object.array t.minted c _ = (Object.array s.minted c es).renumber r
  rw [Object.renumber_array, hst.minted_eq]

theorem newThrowable (c : ClassId) (msg : Option String) :
    (t.newThrowable c msg).1 = (s.newThrowable c msg).1.renumber r ∧
      (s.newThrowable c msg).2.Renumbered r (t.newThrowable c msg).2 := by
  refine ⟨?_, hst.next⟩
  show Object.throwable t.minted c msg = .throwable (r s.minted) c msg
  rw [hst.minted_eq]

end Store.Renumbered

/-- Whether a step that writes to a store is another one renumbered. -/
def Store.Writes (r : Nat → Nat) (f f' : Store → Except Error Store) : Prop :=
  ∀ s t, s.Renumbered r t →
    (∃ s' t', f s = .ok s' ∧ f' t = .ok t' ∧ s'.Renumbered r t') ∨
      ∃ e, f s = .error e ∧ f' t = .error (e.renumber r)

namespace Store

/-- It is if it does not look at the log, does with renumbered stores what it does, renumbered, and makes
nothing. -/
theorem Writes.of_eq {f f' : Store → Except Error Store}
    (hlog : ∀ s, (f' s.unlogged).map unlogged = (f' s).map unlogged)
    (hf : ∀ s, f' (s.renumber r) = mapBoth (Error.renumber r) (renumber r) (f s))
    (hminted : ∀ s s', f s = .ok s' → s'.minted = s.minted) : Writes r f f' := by
  intro s t hst
  have hsame : (f' t).map unlogged = (mapBoth (Error.renumber r) (renumber r) (f s)).map unlogged := by
    rw [← hlog t, hst.unlogged, hlog, hf]
  cases hs : f s with
  | ok s' =>
    rw [hs] at hsame
    cases ht : f' t with
    | ok t' =>
      rw [ht] at hsame
      refine .inl ⟨s', t', rfl, rfl, Except.ok.inj hsame, ?_⟩
      rw [hminted s s' hs]
      exact hst.onward
    | error e =>
      rw [ht] at hsame
      cases hsame
  | error e =>
    rw [hs] at hsame
    cases ht : f' t with
    | ok t' =>
      rw [ht] at hsame
      cases hsame
    | error e' =>
      rw [ht] at hsame
      exact .inr ⟨e, rfl, congrArg _ (Except.error.inj hsame)⟩

theorem writes_writeField (o : Object) (offset : Nat) (v : Value) :
    Writes r (·.writeField o offset v) (·.writeField (o.renumber r) offset (v.renumber r)) := by
  refine .of_eq (fun s => s.writeField_unlogged _ offset _) (fun s => s.writeField_renumber o offset v) ?_
  intro s s' h
  unfold writeField at h
  split at h
  · split at h
    · cases h
      rfl
    · cases h
  · cases h

theorem writes_writeStatic (c : ClassId) (offset : Nat) (v : Value) :
    Writes r (·.writeStatic c offset v) (·.writeStatic c offset (v.renumber r)) := by
  refine .of_eq (fun s => s.writeStatic_unlogged c offset _) (fun s => s.writeStatic_renumber c offset v) ?_
  intro s s' h
  unfold writeStatic at h
  split at h
  · split at h
    · cases h
      rfl
    · cases h
  · cases h

end Store

namespace Run.Renumbers

variable {α : Type} {g : α → α}

theorem pure (a : α) : Renumbers r g (Pure.pure a) (Pure.pure (g a)) := Mirrors.pure a

theorem bind {β : Type} {k : β → β} {x y : Run α} {f f' : α → Run β} (hx : Renumbers r g x y)
    (hf : ∀ a, Renumbers r k (f a) (f' (g a))) : Renumbers r k (x >>= f) (y >>= f') := Mirrors.bind hx hf

theorem fail (e : Error) : Renumbers (α := α) r g (Run.fail e) (Run.fail (e.renumber r)) :=
  Mirrors.throw (Stop.error e)

theorem fault (v : Variant) : Renumbers (α := α) r g (Run.fault v) (Run.fault v) :=
  Mirrors.throw (Stop.fault v)

theorem ofExcept {x y : Except Error α} (h : y = mapBoth (Error.renumber r) g x) :
    Renumbers r g (Run.ofExcept x) (Run.ofExcept y) := by
  intro m n hmn
  subst h
  cases x with
  | ok a => exact .ok a hmn
  | error e => exact .error (Stop.error e) hmn

theorem alloc {f f' : Store → Object × Store} (h : ∀ s t, s.Renumbered r t →
      (f' t).1 = (f s).1.renumber r ∧ (f s).2.Renumbered r (f' t).2) :
    Renumbers r (Object.renumber r) (Run.alloc f) (Run.alloc f') := by
  intro m n hmn
  obtain ⟨hobject, hstore⟩ := h m.store n.store hmn.store
  show Mirrored _ _ _ (.ok (f m.store).1 { m with store := (f m.store).2 })
    (.ok (f' n.store).1 { n with store := (f' n.store).2 })
  rw [hobject]
  exact .ok _ ⟨hstore, hmn.calls⟩

theorem readStore {f f' : Store → Except Error α}
    (h : ∀ s t, s.Renumbered r t → f' t = mapBoth (Error.renumber r) g (f s)) :
    Renumbers r g (Run.readStore f) (Run.readStore f') := by
  intro m n hmn
  unfold Run.readStore
  rw [h m.store n.store hmn.store]
  cases f m.store with
  | ok a => exact .ok a hmn
  | error e => exact .error (Stop.error e) hmn

theorem writeStore {f f' : Store → Except Error Store} (h : Store.Writes r f f') :
    Renumbers r id (Run.writeStore f) (Run.writeStore f') := by
  intro m n hmn
  unfold Run.writeStore
  rcases h m.store n.store hmn.store with ⟨s, t, hs, ht, hst⟩ | ⟨e, hs, ht⟩
  · rw [hs, ht]
    exact .ok () ⟨hst, hmn.calls⟩
  · rw [hs, ht]
    exact .error (Stop.error e) hmn

theorem attempt {x y : Run α} (h : Renumbers r g x y) :
    Renumbers r (mapBoth (Error.renumber r) g) (Run.attempt x) (Run.attempt y) := by
  intro m n hmn
  have hends := h m n hmn
  unfold Run.attempt
  generalize x m = u at hends
  generalize y n = u' at hends
  cases hends with
  | ok a states => exact .ok (Except.ok a) states
  | error e states =>
    cases e with
    | error e => exact .ok (Except.error e) states
    | fault v => exact .error (Stop.fault v) states
    | exhausted => exact .error Stop.exhausted states

end Run.Renumbers

open Run (Renumbers)

/-! ## Members -/

section Members

variable {P : Program} (hP : P.Unnumbered r)

include hP

theorem Program.renumbers_runBody (m : MethodRef) (args : List Value) :
    Renumbers r (Value.renumber r) (P.runBody m args) (P.runBody m (args.map (Value.renumber r))) := by
  intro k n hkn
  have hcalls : n.calls.push ⟨m, args.map (Value.renumber r)⟩ =
      (k.calls.push ⟨m, args⟩).map (Call.renumber r) := by
    rw [Array.map_push, hkn.calls]
    rfl
  have hbody := hP m args k.store n.store hkn.store
  unfold runBody
  dsimp only
  generalize P.body m args k.store = u at hbody
  generalize P.body m (args.map (Value.renumber r)) n.store = u' at hbody
  cases hbody with
  | ok v states => exact .ok v ⟨states, hcalls⟩
  | error o states => exact .error (Stop.error (.thrown o)) ⟨states, hcalls⟩

theorem Program.renumbers_callMethod (m : MethodRef) (args : List Value) :
    Renumbers r (Value.renumber r) (P.callMethod m args)
      (P.callMethod m (args.map (Value.renumber r))) := by
  unfold callMethod
  split
  · exact P.renumbers_runBody hP m args
  · exact .fail _

theorem Program.renumbers_callDirect (m : MethodRef) (mode : DirectMode) (args : List Value) :
    Renumbers r (Value.renumber r) (P.callDirect m mode args)
      (P.callDirect m mode (args.map (Value.renumber r))) := by
  cases mode with
  | static => exact P.renumbers_callMethod hP m args
  | special =>
    exact .bind (.ofExcept (receiver_renumber args _)) fun _ => P.renumbers_callMethod hP m args
  | construct =>
    exact .bind (.alloc fun s t hst => hst.newInstance P.graph m.cls) fun o =>
      .bind (P.renumbers_callMethod hP m (.obj o :: args)) fun _ => .pure (Value.obj o)

theorem Program.renumbers_callVirtual (m : MethodRef) (dispatch : ClassId) (args : List Value) :
    Renumbers r (Value.renumber r) (P.callVirtual m dispatch args)
      (P.callVirtual m dispatch (args.map (Value.renumber r))) := by
  refine .bind (.ofExcept (receiver_renumber args _)) fun o => ?_
  rw [o.isInstance_renumber, o.cls_renumber]
  split
  · exact .fail (.receiver (.notInstance o dispatch))
  · cases P.graph.implementation? o.cls m with
    | some k => exact P.renumbers_callMethod hP k args
    | none => exact .fail _

omit hP in
theorem Program.renumbers_getField (f : FieldRef) (isStatic : Bool) (args : List Value) :
    Renumbers r (Value.renumber r) (P.getField f isStatic args)
      (P.getField f isStatic (args.map (Value.renumber r))) := by
  cases isStatic with
  | true => exact .readStore fun s t hst => hst.readStatic_eq f.cls _
  | false =>
    exact .bind (.ofExcept (receiver_renumber args _)) fun o =>
      .readStore fun s t hst => hst.readField_eq o _

omit hP in
theorem Program.renumbers_setField (f : FieldRef) (isStatic : Bool) (args : List Value) (v : Value) :
    Renumbers r (Value.renumber r) (P.setField f isStatic args v)
      (P.setField f isStatic (args.map (Value.renumber r)) (v.renumber r)) := by
  cases isStatic with
  | true =>
    exact .bind (.writeStore (Store.writes_writeStatic f.cls _ v)) fun _ => .pure Value.void
  | false =>
    exact .bind (.ofExcept (receiver_renumber args _)) fun o =>
      .bind (.writeStore (Store.writes_writeField o _ v)) fun _ => .pure Value.void

end Members

/-! ## Nodes -/

/-- How an error of the runtime is made a throwable. -/
theorem caught?_of_ne (G : ClassGraph) (c : ClassId) {e : Error} (he : ∀ o, e ≠ .thrown o) :
    caught? G c e =
      match e.exceptionClass? with
      | some k =>
        if G.isSubclass k c then do
          let o ← Run.alloc (·.newThrowable k (some (e.message G)))
          return some o
        else pure none
      | none => pure none := by
  cases e with
  | thrown o => exact absurd rfl (he o)
  | _ => rfl

theorem renumbers_caught? (G : ClassGraph) (c : ClassId) (e : Error) :
    Renumbers r (Option.map (Object.renumber r)) (caught? G c e) (caught? G c (e.renumber r)) := by
  by_cases he : ∀ o, e ≠ .thrown o
  · have he' : ∀ o, e.renumber r ≠ .thrown o := by
      cases e with
      | thrown o => exact absurd rfl (he o)
      | _ => exact nofun
    rw [caught?_of_ne G c he, caught?_of_ne G c he', e.exceptionClass?_renumber, e.message_renumber]
    cases e.exceptionClass? with
    | none => exact .pure none
    | some k =>
      dsimp only
      split
      · exact .bind (.alloc fun s t hst => hst.newThrowable k _) fun o => .pure (some o)
      · exact .pure none
  · obtain ⟨o, ho⟩ := not_forall.1 he
    rw [not_not.1 ho]
    simp only [Error.renumber, caught?, o.isInstance_renumber]
    split
    · exact .pure (some o)
    · exact .pure none

section Nodes

variable {P : Program} {call call' : Caller} (hP : P.Unnumbered r)
  (hcall : ∀ h args, Renumbers r (Value.renumber r) (call h args)
    (call' (h.renumber r) (args.map (Value.renumber r))))

include hcall

theorem renumbers_passFilters (pos : Nat) (fs : List (Option Handle)) (args : List Value) :
    Renumbers r (List.map (Value.renumber r)) (passFilters call pos fs args)
      (passFilters call' pos (Filters.renumber r fs) (args.map (Value.renumber r))) := by
  induction fs generalizing pos args with
  | nil => exact .pure args
  | cons f fs ih =>
    cases f with
    | none => exact ih (pos + 1) args
    | some f =>
      simp only [Filters.renumber, passFilters, List.getElem?_map]
      cases args[pos]? with
      | none => exact .fault _
      | some v =>
        refine .bind (hcall f [v]) fun w => ?_
        rw [← List.map_set]
        exact ih (pos + 1) (args.set pos w)

include hP

/-- A node does the same, renumbered, over callers that do. -/
theorem Handle.renumbers_perform (h : Handle) (args : List Value) :
    Renumbers r (Value.renumber r) (h.perform P call args)
      ((h.renumber r).perform P call' (args.map (Value.renumber r))) := by
  obtain ⟨stamp, type, node⟩ := h
  cases node with
  | direct m mode => exact P.renumbers_callDirect hP m mode args
  | virtual m dispatch interface => exact P.renumbers_callVirtual hP m dispatch args
  | getField f isStatic => exact P.renumbers_getField f isStatic args
  | setField f isStatic =>
    simp only [Handle.renumber, Node.renumber, perform, List.getLast?_map]
    cases args.getLast? with
    | none => exact .fail _
    | some v =>
      simp only [Option.map_some, ← List.map_dropLast]
      exact P.renumbers_setField f isStatic args.dropLast v
  | insert target pos values =>
    simp only [Handle.renumber, Node.renumber, perform, List.length_map]
    split
    · simp only [← List.map_take, ← List.map_drop, ← List.map_append]
      exact hcall target _
    · exact .fault _
  | permute target order =>
    simp only [Handle.renumber, Node.renumber, perform, pick?_renumber]
    cases pick? args order with
    | none => exact .fault _
    | some picked => exact hcall target picked
  | collect target pos count array =>
    simp only [Handle.renumber, Node.renumber, perform, List.length_map]
    cases array.component? with
    | none => exact .fail _
    | some component =>
      dsimp only
      split
      · simp only [← List.map_take, ← List.map_drop]
        refine .bind (.alloc fun s t hst => hst.newArray component _) fun o => ?_
        rw [show Value.obj (o.renumber r) = (Value.obj o).renumber r from rfl, ← List.map_cons,
          ← List.map_append]
        exact hcall target _
      · exact .fault _
  | spread target pos count array =>
    simp only [Handle.renumber, Node.renumber, perform, List.getElem?_map, type_renumber]
    cases args[pos]? with
    | none => exact .fault _
    | some v =>
      refine .bind (.ofExcept (spreadElements_renumber count v)) fun es => ?_
      split
      · refine .bind (.ofExcept (coerceElements_renumber es _)) fun ws => ?_
        simp only [← List.map_take, ← List.map_drop, ← List.map_append]
        exact hcall target _
      · exact .fault _
  | filterArgs target pos filters =>
    exact .bind (renumbers_passFilters hcall pos filters args) fun vs => hcall target vs
  | filterReturn target filter =>
    simp only [Handle.renumber, Node.renumber, perform, type_renumber]
    refine .bind (hcall target args) fun v => ?_
    split
    · exact hcall filter []
    · exact hcall filter [v]
  | fold target pos combiner =>
    simp only [Handle.renumber, Node.renumber, perform, type_renumber, List.length_map]
    split
    · simp only [← List.map_take, ← List.map_drop]
      refine .bind (hcall combiner _) fun v => ?_
      split
      · exact hcall target args
      · rw [← List.map_cons, ← List.map_append]
        exact hcall target _
    · exact .fault _
  | guarded test target fallback =>
    simp only [Handle.renumber, Node.renumber, perform, type_renumber, List.length_map]
    split
    · simp only [← List.map_take]
      refine .bind (hcall test _) fun v => ?_
      cases v with
      | prim s =>
        cases s with
        | boolean b =>
          cases b with
          | true => exact hcall target args
          | false => exact hcall fallback args
        | _ => exact .fail _
      | _ => exact .fail _
    · exact .fault _
  | catching target c handler =>
    simp only [Handle.renumber, Node.renumber, perform, type_renumber, List.length_map]
    split
    · refine .bind (.attempt (hcall target args)) fun x => ?_
      cases x with
      | ok v => exact .pure v
      | error e =>
        refine .bind (renumbers_caught? P.graph c e) fun o? => ?_
        cases o? with
        | none => exact .fail e
        | some o =>
          simp only [Option.map_some, ← List.map_take]
          exact hcall handler (.obj o :: _)
    · exact .fault _
  | convert target conversions ret =>
    simp only [Handle.renumber, Node.renumber, perform, dispatches_renumber]
    refine .bind (.ofExcept (convertArguments_renumber args _ conversions)) fun vs =>
      .bind (hcall target vs) fun v => ?_
    rw [ret.apply_renumber]
    cases ret.apply P.graph v with
    | ok w => exact .pure w
    | error e => exact .fail (.conversion e)
  | constant v => exact .pure v
  | identity =>
    cases args with
    | nil => exact .fail _
    | cons v vs => exact .pure v
  | varargs target array cell => exact hcall target args
  | invoker site => exact .bind (.readStore fun s t hst => hst.getTarget_eq site) fun k => hcall k args
  | unlinked message => exact .fail _
  | throwing =>
    cases args with
    | nil => exact .fail _
    | cons v vs => cases v <;> exact .fail _

end Nodes

/-! ## Calls -/

/-- Calls without thunks do the same renumbered. -/
theorem Handle.renumbers_invokeUncached {P : Program} (hP : P.Unnumbered r) (depth : Nat) (h : Handle)
    (args : List Value) :
    Renumbers r (Value.renumber r) (h.invokeUncached P depth args)
      ((h.renumber r).invokeUncached P depth (args.map (Value.renumber r))) := by
  -- on the depth: the node does the same over calls that are one less deep
  induction depth generalizing h args with
  | zero => exact Mirrors.throw Stop.exhausted
  | succ depth ih => exact h.renumbers_perform hP ih args

/-- How a call has ended, renumbered. -/
def Run.Outcome.renumber (r : Nat → Nat) : Run.Outcome Value → Run.Outcome Value
  | (x, store, calls) =>
    (mapBoth (Stop.renumber r) (Value.renumber r) x, store.renumber r, calls.map (Call.renumber r))

theorem Run.Renumbers.seen_eq {x y : Run Value} (h : Renumbers r (Value.renumber r) x y) {m n : Machine}
    (hmn : m.Renumbered r n) :
    seen Machine.visible (y n) = Run.Outcome.renumber r (seen Machine.visible (x m)) := by
  have hends := h m n hmn
  generalize x m = u at hends
  generalize y n = u' at hends
  cases hends with
  | ok v states => exact Prod.ext rfl (Prod.ext states.store.unlogged states.calls)
  | error e states => exact Prod.ext rfl (Prod.ext states.store.unlogged states.calls)

/-- **Numbers are names.** The call of a renumbered handle, on renumbered arguments and a renumbered
machine, is seen to do what the call does, renumbered. -/
theorem Handle.seen_invokeExact_renumber {P : Program} (hP : P.Blind) (hU : P.Unnumbered r)
    {m n : Machine} (hm : m.Keyed) (hn : n.Keyed) (hmn : m.Renumbered r n) (depth : Nat) (h : Handle)
    (args : List Value) :
    seen Machine.visible ((h.renumber r).invokeExact P depth (args.map (Value.renumber r)) n) =
      Run.Outcome.renumber r (seen Machine.visible (h.invokeExact P depth args m)) := by
  have hcheck : (h.renumber r).type.check P.graph (args.map (Value.renumber r)) =
      mapBoth (Error.renumber r) id (h.type.check P.graph args) := by
    rw [h.type_renumber, Signature.check_renumber]
  cases hargs : h.type.check P.graph args with
  | error e =>
    rw [hargs] at hcheck
    rw [invokeExact_of_refused hargs, invokeExact_of_refused hcheck]
    exact Prod.ext rfl (Prod.ext hmn.store.unlogged hmn.calls)
  | ok u =>
    rw [hargs] at hcheck
    rw [invokeExact_of_check hargs, invokeExact_of_check hcheck]
    calc seen Machine.visible ((h.renumber r).invokeBasic P depth (args.map (Value.renumber r)) n)
        = seen Machine.visible
            ((h.renumber r).invokeUncached P depth (args.map (Value.renumber r)) n) :=
          (same_invokeBasic hP depth _ _ n n hn hn rfl).seen_eq
      _ = Run.Outcome.renumber r (seen Machine.visible (h.invokeUncached P depth args m)) :=
          (renumbers_invokeUncached hU depth h args).seen_eq hmn
      _ = Run.Outcome.renumber r (seen Machine.visible (h.invokeBasic P depth args m)) :=
          congrArg _ (same_invokeBasic hP depth h args m m hm hm rfl).seen_eq.symm

end HandleCalculus
