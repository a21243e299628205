import HandleCalculus.Proofs.NodeWork
import HandleCalculus.Proofs.ReceiverRestriction

/-!
# Failures on the way out

A call of a handle is a tree of calls (`Activation`), each made by the node of the one above. Between
the call at the top and one that fails there is a stack of activations, and for each of them the place
from which it called the next: only a node that catches calls from a place where it looks at how the
call ends (`Position`). An error leaves the stack from the inside. All activations end with it, on the
machine on which it came up, up to the first that takes it; that one ends as its handler does
(`Activation.Unwinds`).

What can be on a stack is read off the work of the nodes (`Activation.Calls`), and nothing is left out:
whatever body runs during a call is run by the activation on top of some stack
(`Activation.exists_stack_of_calls`), which is shown by induction on the depth.
-/

set_option autoImplicit false

namespace HandleCalculus

/-! ## What a handler takes -/

/-- The throwable that an error is, or as which a handler sees it, and the store that then is. -/
def Error.throwable? (G : ClassGraph) (s : Store) : Error → Option (Object × Store)
  | .thrown o => some (o, s)
  | e => e.exceptionClass?.map fun c => s.newThrowable c (some (e.message G))

/-- The throwable of an error, if a handler for the class takes it. -/
def Error.caughtBy? (G : ClassGraph) (c : ClassId) (s : Store) (e : Error) : Option (Object × Store) :=
  (e.throwable? G s).filter fun made => made.1.isInstance G (.cls c)

theorem Error.throwable?_of_ne {G : ClassGraph} {s : Store} {e : Error} (he : ∀ o, e ≠ .thrown o) :
    e.throwable? G s = e.exceptionClass?.map fun c => s.newThrowable c (some (e.message G)) := by
  cases e with
  | thrown o => exact absurd rfl (he o)
  | _ => rfl

/-- Whether a handler takes an error depends on its throwable only. -/
theorem caught?_eq (G : ClassGraph) (c : ClassId) (e : Error) (m : Machine) :
    caught? G c e m =
      match e.caughtBy? G c m.store with
      | some (o, s) => .ok (some o) { m with store := s }
      | none => .ok none m := by
  unfold caught? Error.caughtBy?
  split
  · next o =>
    simp only [Error.throwable?, Option.filter_some]
    split <;> rfl
  · next he =>
    rw [Error.throwable?_of_ne fun o ho => he o ho]
    cases e.exceptionClass? with
    | none => rfl
    | some k =>
      -- a new throwable is an instance of its class and of those above
      have hinstance : (m.store.newThrowable k (some (e.message G))).1.isInstance G (.cls c) =
        G.isSubclass k c := rfl
      simp only [Option.map_some, Option.filter_some, hinstance]
      split <;> rfl

/-! ## What a node that catches does -/

section Catching

variable {P : Program} {call : Caller} {h target handler : Handle} {c : ClassId} {args : List Value}

/-- The arity that a handler must have: it takes the throwable and some of the first arguments. -/
def Handle.Handles (handler : Handle) (args : List Value) : Prop :=
  1 ≤ handler.type.arity ∧ handler.type.arity ≤ args.length + 1

/-- The arguments that a handler is given. -/
def Handle.handlerArgs (handler : Handle) (o : Object) (args : List Value) : List Value :=
  .obj o :: args.take (handler.type.arity - 1)

theorem Handle.perform_catching (hnode : h.node = .catching target c handler)
    (harity : handler.Handles args) (m : Machine) :
    h.perform P call args m =
      match call target args m with
      | .ok v n => .ok v n
      | .error (.error e) n =>
        match e.caughtBy? P.graph c n.store with
        | some (o, s) => call handler (handler.handlerArgs o args) { n with store := s }
        | none => .error (.error e) n
      | .error s n => .error s n := by
  obtain ⟨stamp, type, node⟩ := h
  obtain rfl : node = .catching target c handler := hnode
  unfold perform
  dsimp only
  rw [if_pos (show 1 ≤ handler.type.arity ∧ handler.type.arity ≤ args.length + 1 from harity)]
  show EStateM.bind (Run.attempt (call target args)) _ m = _
  unfold EStateM.bind Run.attempt
  cases call target args m with
  | ok v n => rfl
  | error s n =>
    cases s with
    | error e =>
      show EStateM.bind (caught? P.graph c e) _ n = _
      unfold EStateM.bind
      rw [caught?_eq]
      dsimp only
      cases e.caughtBy? P.graph c n.store <;> rfl
    | fault v => rfl
    | exhausted => rfl

/-- A handler that does not take what there is cannot be called. -/
theorem Handle.perform_catching_of_not (hnode : h.node = .catching target c handler)
    (harity : ¬ handler.Handles args) : h.perform P call args = Run.fault .catching := by
  obtain ⟨stamp, type, node⟩ := h
  obtain rfl : node = .catching target c handler := hnode
  exact if_neg harity

end Catching

/-! ## The record of a call

Calls add the bodies that they run to the record, whatever node they come to. -/

section Record

variable {P : Program} {call : Caller}

theorem Handle.records_perform (hcall : ∀ h args, (call h args).Records) (h : Handle)
    (args : List Value) : (h.perform P call args).Records := by
  by_cases hnode : h.Catches
  · obtain ⟨target, c, handler, hnode⟩ := hnode
    by_cases harity : handler.Handles args
    · intro m
      have htarget := hcall target args m
      unfold Run.leaves at htarget ⊢
      rw [perform_catching hnode harity]
      cases hm : call target args m with
      | ok v n =>
        rw [hm] at htarget
        exact htarget
      | error s n =>
        rw [hm] at htarget
        cases s with
        | error e =>
          dsimp only
          cases e.caughtBy? P.graph c n.store with
          | none => exact htarget
          | some made => exact htarget.trans (hcall handler _ { n with store := made.2 })
        | fault v => exact htarget
        | exhausted => exact htarget
    · rw [perform_catching_of_not hnode harity]
      exact fun m => .of_eq rfl
  · rw [perform_eq_work P call hnode]
    exact Work.records_perform hcall _

theorem Handle.calls_thunk (h : Handle) (m : Machine) : (h.thunk.leaves m).calls = m.calls := by
  unfold Run.leaves thunk
  cases m.cells.lookup (h.stamp, h.key) with
  | some t => rfl
  | none =>
    obtain ⟨result, thunks, events⟩ := m.thunks.get h.key
    cases result with
    | ok t => exact Machine.calls_reports { m with thunks := thunks } events
    | error e => exact Machine.calls_reports { m with thunks := thunks } events

/-- The entry routine of another variant leaves the machine as it is. -/
theorem Handle.leaves_enter_of_ne {h : Handle} {v : Variant} (hv : v ≠ h.variant)
    (args : List Value) (m : Machine) : (h.enter P call v args).leaves m = m := by
  have hchecked : (if h.variant = v then h.perform P call args
      else Run.fail (.wrongThunk h.type h.variant)).leaves m = m := by
    rw [if_neg hv.symm]
    rfl
  cases v with
  | identity => cases args <;> rfl
  | throwing =>
    cases args with
    | nil => rfl
    | cons v vs => cases v <;> rfl
  | _ => exact hchecked

end Record

/-! ## Activations -/

/-- A call of a handle on the way: the handle and its arguments, how deep it may nest, and the machine
on which it starts. -/
structure Activation where
  handle : Handle
  args : List Value
  depth : Nat
  machine : Machine

/-- The place from which an activation calls another one. -/
inductive Position where
  /-- It does not look at how the call ends, unless that answers. -/
  | plain
  /-- The call is the target of a node that catches. -/
  | target (c : ClassId) (handler : Handle)
  /-- The call is the handler of a node that catches. -/
  | handler

/-- The throwable of an error that an activation takes from a call that it makes from the place. -/
def Position.takes? (G : ClassGraph) (s : Store) (e : Error) : Position → Option (Object × Store)
  | .target c _ => e.caughtBy? G c s
  | _ => none

theorem Position.takes?_of_unmapped {G : ClassGraph} {s : Store} {e : Error} (p : Position)
    (he : ∀ o, e ≠ .thrown o) (hclass : e.exceptionClass? = none) : p.takes? G s e = none := by
  cases p with
  | target c k =>
    show e.caughtBy? G c s = none
    rw [Error.caughtBy?, Error.throwable?_of_ne he, hclass]
    rfl
  | _ => rfl

namespace Activation

/-- What an activation does. -/
def run (P : Program) (a : Activation) : Run Value := a.handle.invokeBasic P a.depth a.args

/-- How an activation ends. -/
def outcome (P : Program) (a : Activation) : EStateM.Result Stop Machine Value :=
  a.run P a.machine

/-- Whether an activation gets to the work of its node, at a depth and on a machine. -/
structure Starts (a : Activation) (d : Nat) (m : Machine) : Prop where
  depth : a.depth = d + 1
  thunk : ∃ t, a.handle.thunk a.machine = .ok t m ∧ t.key.variant = a.handle.variant

/-- Whether an activation whose node does not catch runs the callee on the arguments, at a depth and on
a machine. -/
def Comes (P : Program) (a : Activation) (c : Callee) (args : List Value) (d : Nat) (n : Machine) :
    Prop :=
  ∃ m, a.Starts d m ∧ ¬ a.handle.Catches ∧
    (a.handle.work P.graph a.args).Reaches P (Handle.invokeBasic P d) m c args n

/-- Whether an activation calls the other one, and from which place. -/
inductive Calls (P : Program) (a : Activation) : Position → Activation → Prop where
  | plain {k : Handle} {args : List Value} {d : Nat} {n : Machine}
      (comes : a.Comes P (.handle k) args d n) : Calls P a .plain ⟨k, args, d, n⟩
  | target {k handler : Handle} {c : ClassId} {d : Nat} {m : Machine} (starts : a.Starts d m)
      (node : a.handle.node = .catching k c handler) (handles : handler.Handles a.args) :
    Calls P a (.target c handler) ⟨k, a.args, d, m⟩
  | handler {b : Activation} {handler : Handle} {c : ClassId} {e : Error} {n : Machine} {o : Object}
      {s : Store} (target : Calls P a (.target c handler) b)
      (failed : b.outcome P = .error (.error e) n)
      (caught : e.caughtBy? P.graph c n.store = some (o, s)) :
    Calls P a .handler ⟨handler, handler.handlerArgs o a.args, b.depth, { n with store := s }⟩

/-- The activations from one, the last of them, to what calls the other, each with the place from which
it calls the next one inwards. -/
inductive Stack (P : Program) (root : Activation) : List (Activation × Position) → Activation → Prop
  where
  | nil : Stack P root [] root
  | cons {S : List (Activation × Position)} {a b : Activation} {p : Position}
      (outer : Stack P root S a) (call : a.Calls P p b) : Stack P root ((a, p) :: S) b

/-! ### Steps -/

section Steps

variable {P : Program} {a b : Activation} {p : Position} {d : Nat} {m n : Machine} {e : Error}

theorem Starts.outcome_eq (h : a.Starts d m) :
    a.outcome P = a.handle.perform P (Handle.invokeBasic P d) a.args m := by
  obtain ⟨hdepth, t, hthunk, hvariant⟩ := h
  show Handle.invokeBasic P a.depth a.handle a.args a.machine = _
  rw [hdepth, Handle.invokeBasic_succ]
  refine (bind_eq_of_ok hthunk _).trans ?_
  rw [hvariant, Handle.enter_variant]

/-- What a node that does not catch runs and does not answer is how it ends. -/
theorem Comes.outcome_eq {c : Callee} {args : List Value} {s : Stop} (h : a.Comes P c args d m)
    (hrun : c.run P (Handle.invokeBasic P d) args m = .error s n) : a.outcome P = .error s n := by
  obtain ⟨m₀, hstarts, hcatches, hreach⟩ := h
  rw [hstarts.outcome_eq, Handle.perform_eq_work P _ hcatches]
  exact hreach.stops hrun

/-- A node that catches ends as its target does, unless it takes an error. -/
theorem Calls.outcome_target {c : ClassId} {k : Handle} (h : a.Calls P (.target c k) b) :
    a.outcome P =
      match b.outcome P with
      | .ok v n => .ok v n
      | .error (.error e) n =>
        match e.caughtBy? P.graph c n.store with
        | some (o, s) =>
          (⟨k, k.handlerArgs o a.args, b.depth, { n with store := s }⟩ : Activation).outcome P
        | none => .error (.error e) n
      | .error s n => .error s n := by
  cases h with
  | target hstarts hnode hhandles =>
    rw [hstarts.outcome_eq, Handle.perform_catching hnode hhandles]
    rfl

/-- A node that catches ends as its handler does. -/
theorem Calls.outcome_handler (h : a.Calls P .handler b) : a.outcome P = b.outcome P := by
  cases h with
  | handler htarget hfailed hcaught =>
    rw [htarget.outcome_target, hfailed]
    dsimp only
    rw [hcaught]

/-- An error that is not taken passes. -/
theorem Calls.passes (h : a.Calls P p b) (hb : b.outcome P = .error (.error e) n)
    (hp : p.takes? P.graph n.store e = none) : a.outcome P = .error (.error e) n := by
  cases p with
  | plain =>
    cases h with
    | plain hcomes => exact hcomes.outcome_eq hb
  | target c k =>
    have hnone : e.caughtBy? P.graph c n.store = none := hp
    rw [h.outcome_target, hb]
    dsimp only
    rw [hnone]
  | handler => exact h.outcome_handler.trans hb

end Steps

/-! ### Stacks -/

section Stacks

variable {P : Program} {root a b c : Activation} {p : Position} {S T : List (Activation × Position)}

/-- A stack with what calls its bottom. -/
theorem Stack.under (h : Stack P b S c) (hcall : a.Calls P p b) : Stack P a (S ++ [(a, p)]) c := by
  induction h with
  | nil => exact .cons .nil hcall
  | cons _ call ih => exact .cons ih call

/-- A stack is cut in two at each of its activations. -/
theorem Stack.cut (h : Stack P root (S ++ (a, p) :: T) c) :
    Stack P root T a ∧ ∃ b, a.Calls P p b ∧ Stack P b S c := by
  induction S generalizing c with
  | nil =>
    cases h with
    | cons outer call => exact ⟨outer, c, call, .nil⟩
  | cons top S ih =>
    cases h with
    | cons outer call =>
      obtain ⟨houter, b, hcall, hinner⟩ := ih outer
      exact ⟨houter, b, hcall, .cons hinner call⟩

/-- An error that nothing on a stack takes passes all of it. -/
theorem Stack.passes (h : Stack P root S b) {e : Error} {n : Machine}
    (hb : b.outcome P = .error (.error e) n)
    (hS : ∀ f ∈ S, f.2.takes? P.graph n.store e = none) :
    root.outcome P = .error (.error e) n := by
  -- on the stack, from the inside
  induction h with
  | nil => exact hb
  | cons outer call ih =>
    have hpassed := call.passes hb (hS _ List.mem_cons_self)
    exact ih hpassed fun f hf => hS f (List.mem_cons_of_mem _ hf)

end Stacks

/-! ### Bodies -/

/-- The machine that an activation leaves. -/
def leaves (P : Program) (a : Activation) : Machine := (a.run P).leaves a.machine

section Bodies

variable {P : Program}

/-- An activation gets to the work of its node, or has nothing run. -/
theorem starts_or (P : Program) (a : Activation) :
    (∃ d m, a.Starts d m ∧ m.calls = a.machine.calls) ∨
      (a.leaves P).calls = a.machine.calls := by
  obtain ⟨h, args, depth, m⟩ := a
  cases depth with
  | zero => exact .inr rfl
  | succ d =>
    have hcalls := h.calls_thunk m
    cases hthunk : h.thunk m with
    | error e m' =>
      right
      show ((Handle.invokeBasic P (d + 1) h args).leaves m).calls = m.calls
      rw [Handle.invokeBasic_succ]
      exact (congrArg Machine.calls (Run.leaves_bind_of_error hthunk _)).trans hcalls
    | ok t m' =>
      rw [Run.leaves_of_ok hthunk] at hcalls
      by_cases hvariant : t.key.variant = h.variant
      · exact .inl ⟨d, m', ⟨rfl, t, hthunk, hvariant⟩, hcalls⟩
      · right
        show ((Handle.invokeBasic P (d + 1) h args).leaves m).calls = m.calls
        rw [Handle.invokeBasic_succ]
        refine (congrArg Machine.calls (Run.leaves_bind_of_ok hthunk _)).trans ?_
        rw [Handle.leaves_enter_of_ne hvariant]
        exact hcalls

theorem Starts.leaves_eq {a : Activation} {d : Nat} {m : Machine} (h : a.Starts d m) :
    a.leaves P = (a.handle.perform P (Handle.invokeBasic P d) a.args).leaves m := by
  have houtcome : a.run P a.machine = _ := h.outcome_eq
  rw [leaves, Run.leaves, Run.leaves, houtcome]

/-- Calls only add to the record. -/
theorem records_invokeBasic (P : Program) (depth : Nat) (h : Handle) (args : List Value) :
    (Handle.invokeBasic P depth h args).Records := by
  induction depth generalizing h args with
  | zero => exact fun m => .of_eq rfl
  | succ depth ih =>
    intro m
    rcases starts_or P ⟨h, args, depth + 1, m⟩ with ⟨d, m', hstarts, hcalls⟩ | hcalls
    · obtain rfl : depth = d := Nat.succ.inj hstarts.depth
      have hperform := h.records_perform (P := P) ih args m'
      rw [← hstarts.leaves_eq] at hperform
      exact .trans (.of_eq hcalls) hperform
    · exact .of_eq hcalls

theorem precedes_leaves (P : Program) (a : Activation) : a.machine.Precedes (a.leaves P) :=
  records_invokeBasic P a.depth a.handle a.args a.machine

/-- An activation that catches leaves the machine that its target leaves, unless the handler runs. Then
the handler starts where the target has ended. -/
theorem Calls.leaves_target {a b : Activation} {c : ClassId} {k : Handle}
    (h : a.Calls P (.target c k) b) :
    a.leaves P = b.leaves P ∨
      ∃ g, a.Calls P .handler g ∧ g.depth = b.depth ∧ g.machine.calls = (b.leaves P).calls ∧
        a.leaves P = g.leaves P := by
  have houtcome : a.run P a.machine = _ := h.outcome_target
  have hsame : ∀ {c d : Activation}, c.outcome P = d.outcome P → c.leaves P = d.leaves P := by
    intro c d hcd
    have hrun : c.run P c.machine = d.run P d.machine := hcd
    rw [leaves, leaves, Run.leaves, Run.leaves, hrun]
  cases hb : b.outcome P with
  | ok v n =>
    rw [hb] at houtcome
    exact .inl (hsame (houtcome.trans hb.symm))
  | error s n =>
    have hn : b.leaves P = n := Run.leaves_of_error hb
    rw [hb] at houtcome
    cases s with
    | error e =>
      dsimp only at houtcome
      cases hcaught : e.caughtBy? P.graph c n.store with
      | none =>
        rw [hcaught] at houtcome
        exact .inl (hsame (houtcome.trans hb.symm))
      | some made =>
        rw [hcaught] at houtcome
        refine .inr ⟨_, .handler h hb hcaught, rfl, ?_, hsame houtcome⟩
        rw [hn]
    | fault v => exact .inl (hsame (houtcome.trans hb.symm))
    | exhausted => exact .inl (hsame (houtcome.trans hb.symm))

/-- A body that is recorded once an activation which catches has ended was recorded once its target had,
or the handler has run it. -/
theorem Calls.recorded_target {a b : Activation} {c : ClassId} {h : Handle}
    (hcall : a.Calls P (.target c h) b) {i : Nat} {k : Call} (hk : (a.leaves P).calls[i]? = some k) :
    (b.leaves P).calls[i]? = some k ∨
      ∃ g, a.Calls P .handler g ∧ g.depth = b.depth ∧ g.machine.calls.size ≤ i ∧
        (g.leaves P).calls[i]? = some k := by
  rcases hcall.leaves_target with hsame | ⟨g, hg, hdepth, hcalls, hsame⟩
  · rw [hsame] at hk
    exact .inl hk
  · rw [hsame] at hk
    rw [← hcalls]
    by_cases hi : g.machine.calls.size ≤ i
    · exact .inr ⟨g, hg, hdepth, hi, hk⟩
    · rw [← (g.precedes_leaves P).getElem? (Nat.lt_of_not_le hi)]
      exact .inl hk

/-- **Every body is run by an activation.** The record of a call has a body at some place: then an
activation has run it which is on top of a stack, and by then as many bodies had run as come before. -/
theorem exists_stack_of_calls {i : Nat} {k : Call} (a : Activation) (hi : a.machine.calls.size ≤ i)
    (hk : (a.leaves P).calls[i]? = some k) :
    ∃ S b d n, Stack P a S b ∧ b.Comes P (.body k.method) k.args d n ∧ n.calls.size = i := by
  have hnone : ∀ {m : Machine}, m.calls.size ≤ i → m.calls[i]? ≠ some k := by
    intro m hi
    rw [Array.getElem?_eq_none hi]
    exact nofun
  -- on the depth: what the activation calls is one deeper
  obtain ⟨depth, hdepth⟩ : ∃ depth, a.depth = depth := ⟨_, rfl⟩
  induction depth generalizing a with
  | zero =>
    have hleaves : a.leaves P = a.machine := by
      rw [leaves, run, hdepth]
      rfl
    rw [hleaves] at hk
    exact absurd hk (hnone hi)
  | succ depth ih =>
    -- a stack on what is called is a stack on the activation
    have hbelow : ∀ {p b}, a.Calls P p b → b.depth = depth → b.machine.calls.size ≤ i →
        (b.leaves P).calls[i]? = some k →
        ∃ S b d n, Stack P a S b ∧ b.Comes P (.body k.method) k.args d n ∧ n.calls.size = i := by
      intro p b hcall hb hib hkb
      obtain ⟨S, c, d, n, hS, hcomes⟩ := ih b hib hkb hb
      exact ⟨_, c, d, n, hS.under hcall, hcomes⟩
    rcases a.starts_or P with ⟨d, m, hstarts, hcalls⟩ | hcalls
    · obtain rfl : depth = d := Nat.succ.inj (hdepth.symm.trans hstarts.depth)
      rw [← hcalls] at hi
      by_cases hcatches : a.handle.Catches
      · obtain ⟨target, c, handler, hnode⟩ := hcatches
        by_cases hhandles : handler.Handles a.args
        · have hcall : a.Calls P (.target c handler) ⟨target, a.args, depth, m⟩ :=
            .target hstarts hnode hhandles
          rcases hcall.recorded_target hk with hkb | ⟨g, hg, hgdepth, hig, hkg⟩
          · exact hbelow hcall rfl hi hkb
          · exact hbelow hg hgdepth hig hkg
        · rw [hstarts.leaves_eq, Handle.perform_catching_of_not hnode hhandles] at hk
          exact absurd hk (hnone hi)
      · rw [hstarts.leaves_eq, Handle.perform_eq_work P _ hcatches] at hk
        obtain ⟨c, args, n, hreach, hn, hkn⟩ :=
          Work.exists_reaches_of_calls (records_invokeBasic P depth) hi hk
        have hcomes : a.Comes P c args depth n := ⟨m, hstarts, hcatches, hreach⟩
        cases c with
        | handle h => exact hbelow (.plain hcomes) rfl hn hkn
        | body b =>
          -- the body itself is the next to be recorded
          have hpush : ((P.runBody b args).leaves n).calls[i]? = some k := hkn
          rw [P.calls_runBody, Array.getElem?_push] at hpush
          split at hpush
          · next heq =>
            obtain rfl := Option.some.inj hpush
            exact ⟨[], a, depth, n, .nil, hcomes, heq.symm⟩
          · exact absurd hpush (hnone hn)
    · rw [hcalls] at hk
      exact absurd hk (hnone hi)

end Bodies

/-! ### Unwinding -/

/-- How errors leave the activations of a call. -/
structure Unwinds (P : Program) (root : Activation) : Prop where
  /-- Whatever body the call has run, an activation on a stack has run it. -/
  bodies : ∀ (i : Nat) (k : Call), root.machine.calls.size ≤ i → (root.leaves P).calls[i]? = some k →
    ∃ S b d n, Stack P root S b ∧ b.Comes P (.body k.method) k.args d n ∧ n.calls.size = i
  /-- If a body throws, the activation that has run it ends with what is thrown, right after the
  body. -/
  thrown : ∀ (b : Activation) (m : MethodRef) (args : List Value) (d : Nat) (n : Machine) (o : Object)
    (s : Store), b.Comes P (.body m) args d n → P.body m args n.store = .error o s →
    b.outcome P =
      .error (.error (.thrown o)) { n with store := s, calls := n.calls.push ⟨m, args⟩ }
  /-- An activation on the stack above a failed one ends with the same error on the same machine, if
  neither it nor any other on the way to it takes the error. -/
  passed : ∀ (S T : List (Activation × Position)) (f : Activation) (p : Position) (b : Activation)
    (e : Error) (n : Machine), Stack P root (S ++ (f, p) :: T) b → b.outcome P = .error (.error e) n →
    (∀ g ∈ S, g.2.takes? P.graph n.store e = none) → p.takes? P.graph n.store e = none →
    f.outcome P = .error (.error e) n
  /-- The first on the stack that takes the error ends as its handler does, which it gives the throwable
  and the first of its own arguments, on the machine on which the error came up and with no more than
  the throwable made. -/
  caught : ∀ (S T : List (Activation × Position)) (f : Activation) (c : ClassId) (k : Handle)
    (b : Activation) (e : Error) (n : Machine) (o : Object) (s : Store),
    Stack P root (S ++ (f, .target c k) :: T) b → b.outcome P = .error (.error e) n →
    (∀ g ∈ S, g.2.takes? P.graph n.store e = none) → e.caughtBy? P.graph c n.store = some (o, s) →
    ∃ g : Activation, f.Calls P .handler g ∧ g.handle = k ∧
      g.args = .obj o :: f.args.take (k.type.arity - 1) ∧ g.machine = { n with store := s } ∧
      f.outcome P = g.outcome P
  /-- If nothing on the stack takes the error, the whole call ends with it. -/
  uncaught : ∀ (S : List (Activation × Position)) (b : Activation) (e : Error) (n : Machine),
    Stack P root S b → b.outcome P = .error (.error e) n →
    (∀ g ∈ S, g.2.takes? P.graph n.store e = none) → root.outcome P = .error (.error e) n
  /-- An error that does not turn into a throwable is never taken. -/
  unmapped : ∀ (S : List (Activation × Position)) (b : Activation) (e : Error) (n : Machine),
    Stack P root S b → b.outcome P = .error (.error e) n → (∀ o, e ≠ .thrown o) →
    e.exceptionClass? = none → root.outcome P = .error (.error e) n

theorem unwinds (P : Program) (root : Activation) : root.Unwinds P where
  bodies i k hi hk := root.exists_stack_of_calls hi hk
  thrown b m args d n o s hcomes hbody := by
    refine hcomes.outcome_eq ?_
    show P.runBody m args n = _
    simp only [Program.runBody, hbody]
  passed S T f p b e n hstack hb hS hp := by
    obtain ⟨-, g, hcall, hinner⟩ := hstack.cut
    exact hcall.passes (hinner.passes hb hS) hp
  caught S T f c k b e n o s hstack hb hS hcaught := by
    obtain ⟨-, g, hcall, hinner⟩ := hstack.cut
    have hhandler := Calls.handler hcall (hinner.passes hb hS) hcaught
    exact ⟨_, hhandler, rfl, rfl, rfl, hhandler.outcome_handler⟩
  uncaught S b e n hstack hb hS := hstack.passes hb hS
  unmapped S b e n hstack hb he hclass :=
    hstack.passes hb fun g _ => g.2.takes?_of_unmapped he hclass

end Activation

/-! ## Calls in any form -/

theorem Machine.allows_sameCalls : Machine.Allows fun m n => n.calls = m.calls :=
  ⟨fun _ => rfl, fun h h' => h'.trans h, fun _ _ => rfl, fun _ _ => rfl⟩

namespace Handle

/-- A handle with arguments that fit its signature. -/
def checked (G : ClassGraph) (h : Handle) (args : List Value) : Link (Handle × List Value) := do
  Link.ofExcept (h.type.check G args)
  return (h, args)

/-- What a call in one of the forms makes before it calls: a handle, with the arguments for it. -/
def entry (G : ClassGraph) (h : Handle) (args : List Value) : CallForm → Link (Handle × List Value)
  | .exact => h.checked G args
  | .as caller =>
    if caller = h.type then h.checked G args
    else do
      let adapted ← h.asType G caller
      adapted.checked G args
  | .generic => do
    let adapted ← h.toGeneric G args.length
    adapted.checked G (args.map Value.boxed)

section Entry

variable {G : ClassGraph} {h k : Handle} {args vs : List Value} {m m' : Machine}

theorem checked_eq_ok (hchecked : h.checked G args m = .ok (k, vs) m') :
    k = h ∧ vs = args ∧ m' = m ∧ Value.fitAll G args h.type.params = true := by
  unfold checked at hchecked
  cases hcheck : h.type.check G args with
  | error e =>
    rw [hcheck] at hchecked
    cases hchecked
  | ok _ =>
    rw [hcheck] at hchecked
    cases hchecked
    exact ⟨rfl, rfl, rfl, Signature.check_eq_ok_iff.1 hcheck⟩

/-- Whatever the form, the handle is called itself or adapted once, with the arguments or these boxed. -/
theorem entry_eq_ok {form : CallForm} (hentry : h.entry G args form m = .ok (k, vs) m') :
    (k = h ∧ m' = m ∨ ∃ new, h.asType G new m = .ok k m') ∧
      Value.fitAll G vs k.type.params = true ∧ (vs = args ∨ vs = args.map Value.boxed) := by
  have hself : h.checked G args m = .ok (k, vs) m' →
      (k = h ∧ m' = m ∨ ∃ new, h.asType G new m = .ok k m') ∧
        Value.fitAll G vs k.type.params = true ∧ (vs = args ∨ vs = args.map Value.boxed) := by
    intro hchecked
    obtain ⟨rfl, rfl, rfl, hfits⟩ := checked_eq_ok hchecked
    exact ⟨Or.inl ⟨rfl, rfl⟩, hfits, Or.inl rfl⟩
  unfold entry at hentry
  cases form with
  | exact => exact hself hentry
  | as caller =>
    dsimp only at hentry
    split at hentry
    · exact hself hentry
    · obtain ⟨k', n, htype, hchecked⟩ := Link.exists_of_bind hentry
      obtain ⟨rfl, rfl, rfl, hfits⟩ := checked_eq_ok hchecked
      exact ⟨Or.inr ⟨caller, htype⟩, hfits, Or.inl rfl⟩
  | generic =>
    obtain ⟨k', n, hgeneric, hchecked⟩ := Link.exists_of_bind hentry
    obtain ⟨new, htype⟩ := asType_of_toGeneric hgeneric
    obtain ⟨rfl, rfl, rfl, hfits⟩ := checked_eq_ok hchecked
    exact ⟨Or.inr ⟨new, htype⟩, hfits, Or.inr rfl⟩

end Entry

/-- Over whatever function, a call in one of the forms fails on the way to its handle or calls it. -/
theorem callThrough_eq (P : Program) (call : Caller) (h : Handle) (args : List Value)
    (form : CallForm) (m : Machine) :
    h.callThrough P call args form m =
      match h.entry P.graph args form m with
      | .ok (k, vs) m' => call k vs m'
      | .error e m' => .error (.error e) m' := by
  have hchecked : ∀ (k : Handle) (vs : List Value) (n : Machine), k.callExact P call vs n =
      match k.checked P.graph vs n with
      | .ok (k, vs) m' => call k vs m'
      | .error e m' => .error (.error e) m' := by
    intro k vs n
    unfold callExact checked
    cases k.type.check P.graph vs <;> rfl
  have hadapted : ∀ (x : Link Handle) (vs : List Value),
      (Run.link x >>= fun k => k.callExact P call vs) m =
        match (x >>= fun k => k.checked P.graph vs) m with
        | .ok (k, vs) m' => call k vs m'
        | .error e m' => .error (.error e) m' := by
    intro x vs
    cases hx : x m with
    | ok k m' =>
      have hlink : Run.link x m = .ok k m' := by rw [Run.link, hx]
      rw [bind_eq_of_ok hx, bind_eq_of_ok hlink]
      exact hchecked k vs m'
    | error e m' =>
      have hlink : Run.link x m = .error (.error e) m' := by rw [Run.link, hx]
      rw [bind_eq_of_error hx, bind_eq_of_error hlink]
  unfold callThrough entry
  cases form with
  | exact => exact hchecked h args m
  | as caller =>
    dsimp only
    split
    · exact hchecked h args m
    · exact hadapted _ args
  | generic => exact hadapted _ _

theorem stays_toGeneric (G : ClassGraph) (h : Handle) (count : Nat) :
    (h.toGeneric G count).Stays fun m n => n.calls = m.calls := by
  unfold toGeneric
  split
  · exact fun m => rfl
  · refine .bind Machine.allows_sameCalls ?_ fun generic => ?_
    · intro m
      cases Signature.generic count <;> rfl
    · -- only the error of a failure is another
      intro m
      have htype := h.stays_asType Machine.allows_sameCalls (fun _ _ => rfl) G generic m
      show (Link.start (EStateM.tryCatch (h.asType G generic) _) m).2.calls = m.calls
      unfold Link.start at htype ⊢
      unfold EStateM.tryCatch
      cases hm : h.asType G generic m with
      | ok k m' =>
        rw [hm] at htype
        exact htype
      | error e m' =>
        rw [hm] at htype
        exact htype

/-- No body runs before the handle is called. -/
theorem stays_entry (G : ClassGraph) (h : Handle) (args : List Value) (form : CallForm) :
    (h.entry G args form).Stays fun m n => n.calls = m.calls := by
  have hR := Machine.allows_sameCalls
  have hchecked : ∀ (k : Handle) (vs : List Value),
      (k.checked G vs).Stays fun m n => n.calls = m.calls := by
    intro k vs
    refine .bind hR (fun m => ?_) fun _ => .pure hR _
    cases k.type.check G vs <;> rfl
  unfold entry
  cases form with
  | exact => exact hchecked h args
  | as caller =>
    dsimp only
    split
    · exact hchecked h args
    · exact .bind hR (h.stays_asType hR (fun _ _ => rfl) G caller) fun k => hchecked k args
  | generic => exact .bind hR (h.stays_toGeneric G _) fun k => hchecked k _

/-- **Only a node that catches intercepts failures.** In whatever form a handle is called, the call
fails before it comes to a handle, or it is the call of one. No body runs before that, and errors leave
it, from wherever they come up, up to the first node on the way that catches and takes them. -/
theorem call_unwinds (P : Program) (depth : Nat) (h : Handle) (args : List Value) (form : CallForm)
    (m : Machine) :
    (∀ e m', h.entry P.graph args form m = .error e m' →
      h.callThrough P (invokeBasic P depth) args form m = .error (.error e) m' ∧
        m'.calls = m.calls) ∧
    ∀ k vs m', h.entry P.graph args form m = .ok (k, vs) m' →
      h.callThrough P (invokeBasic P depth) args form m =
          (⟨k, vs, depth, m'⟩ : Activation).outcome P ∧
        m'.calls = m.calls ∧ Activation.Unwinds P ⟨k, vs, depth, m'⟩ := by
  have hcall := h.callThrough_eq P (invokeBasic P depth) args form m
  have hcalls := h.stays_entry P.graph args form m
  unfold Link.start at hcalls
  constructor
  · intro e m' hentry
    rw [hentry] at hcall hcalls
    exact ⟨hcall, hcalls⟩
  · intro k vs m' hentry
    rw [hentry] at hcall hcalls
    exact ⟨hcall, hcalls, Activation.unwinds P _⟩

end Handle

/-! ## A throw through two handlers -/

/-- The program whose bodies all throw an object. -/
def Program.throws (G : ClassGraph) (o : Object) : Program := ⟨G, fun _ _ s => .error o s⟩

/-- A handle on the first of the twins. -/
def Handle.twin : Handle :=
  ⟨0, ⟨[], .prim .int, List.not_mem_nil, Nat.zero_le _⟩, .direct ⟨bootstrapCount, 0⟩ .static⟩

/-- A handler for a class that answers a number. -/
def Handle.answering (s : Stamp) (c : ClassId) (v : Value) : Handle :=
  ⟨s, ⟨[.cls c], .prim .int, by simp, Nat.le_of_ble_eq_true rfl⟩, .constant v⟩

/-- A handle under a handler that answers a number. -/
def Handle.watched (h : Handle) (s : Stamp) (c : ClassId) (v : Value) : Handle :=
  ⟨s, h.type, .catching h c (answering (s + 2) c v)⟩

/-- The twin under two handlers, the inner one for null pointers, the outer one for illegal states. -/
def Handle.watchedTwin : Handle :=
  (twin.watched 2 ClassId.nullPointer (.prim (.int 3))).watched 6 ClassId.illegalState
    (.prim (.int 7))

/-- An illegal state that the twin throws passes the inner handler; the outer one is called with it,
when no other body has run, and the call ends as this does. -/
theorem Handle.call_unwinds_of_watchedTwin :
    ∃ (o : Object) (g : Activation), o = .throwable 0 ClassId.illegalState none ∧
      g.handle = answering 8 ClassId.illegalState (.prim (.int 7)) ∧ g.args = [.obj o] ∧
      g.machine.calls.size = 1 ∧
      watchedTwin.callThrough (.throws twins o) (invokeBasic (.throws twins o) 3) [] .exact
          (.initial false) = g.outcome (.throws twins o) := by
  let o : Object := .throwable 0 ClassId.illegalState none
  let P : Program := .throws twins o
  obtain ⟨-, hroot⟩ := watchedTwin.call_unwinds P 3 [] .exact (.initial false)
  obtain ⟨hcall, -, hunwinds⟩ := hroot _ _ _ rfl
  -- the two nodes that catch, and the twin on top of them
  obtain ⟨g, -, hhandle, hargs, hmachine, hanswer⟩ := hunwinds.caught
    [(⟨twin.watched 2 ClassId.nullPointer (.prim (.int 3)), [], 2, _⟩,
      .target ClassId.nullPointer (answering 4 ClassId.nullPointer (.prim (.int 3))))]
    [] _ ClassId.illegalState (answering 8 ClassId.illegalState (.prim (.int 7)))
    ⟨twin, [], 1, _⟩ (.thrown o) _ o _
    (.cons (.cons .nil (.target ⟨rfl, _, rfl, rfl⟩ rfl ⟨by decide, by decide⟩))
      (.target ⟨rfl, _, rfl, rfl⟩ rfl ⟨by decide, by decide⟩))
    rfl (fun f hf => by rw [List.mem_singleton.1 hf]; rfl) rfl
  refine ⟨o, g, rfl, hhandle, hargs, ?_, hcall.trans hanswer⟩
  rw [hmachine]
  rfl

end HandleCalculus
