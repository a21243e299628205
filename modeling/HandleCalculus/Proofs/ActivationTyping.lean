import HandleCalculus.Proofs.Unwinding

/-!
# Typed activations

A typed handle that is called with arguments that it takes calls typed handles with arguments that
they take, on typed machines. Soundness says so of a whole call, of what it does and how it ends.
Here it is read off for each call on the way: an activation on a stack over a typed one is typed
(`Activation.Stack.typed`).

To get from the one to the other, a call is made over a caller that checks what it is given and
stops with a fault if that is not as it should be (`Caller.checked`). No handle that is called
passes unchecked (`Activation.Calls.of_checked`), and a sound call never stops with a fault.
-/

set_option autoImplicit false

namespace HandleCalculus

/-! ## Checked calls -/

open Classical in
/-- A caller that stops with a fault if what it is given does not pass a check. -/
noncomputable def Caller.checked (Q : Handle → List Value → Machine → Prop) (call : Caller) : Caller :=
  fun h args m => if Q h args m then call h args m else .error (.fault h.variant) m

section Checked

variable {P : Program} {call : Caller} {Q : Handle → List Value → Machine → Prop}

theorem Caller.checked_of_pos {h : Handle} {args : List Value} {m : Machine} (hQ : Q h args m) :
    Caller.checked Q call h args m = call h args m := if_pos hQ

theorem Caller.checked_of_neg {h : Handle} {args : List Value} {m : Machine} (hQ : ¬ Q h args m) :
    Caller.checked Q call h args m = .error (.fault h.variant) m := if_neg hQ

/-- Whether a computation does not stop with a fault. -/
def Run.FaultlessOn {α : Type} (x : Run α) (m : Machine) : Prop := ∀ v n, x m ≠ .error (.fault v) n

/-- What a tree comes to call has passed the check, if the tree gets through. -/
theorem Work.Reaches.of_checked {w : Work} {m n : Machine} {c : Callee} {args : List Value}
    (hreach : w.Reaches P call m c args n)
    (hw : (w.perform P (Caller.checked Q call)).FaultlessOn m) {h : Handle} (hc : c = .handle h) :
    Q h args n := by
  have hstep : ∀ (d : Callee) (vs : List Value) (next : Value → Work) (m : Machine),
      ((Work.run d vs next).perform P (Caller.checked Q call)).FaultlessOn m →
      (∀ k, d = .handle k → Q k vs m) ∧
        d.run P (Caller.checked Q call) vs m = d.run P call vs m := by
    intro d vs next m hw
    cases d with
    | body b => exact ⟨nofun, rfl⟩
    | handle k =>
      by_cases hQ : Q k vs m
      · refine ⟨fun k' hk => ?_, Caller.checked_of_pos hQ⟩
        cases hk
        exact hQ
      · exact absurd (bind_eq_of_error (Caller.checked_of_neg hQ) _) (hw k.variant m)
  induction hreach with
  | here c args next m => exact (hstep c args next m hw).1 h hc
  | @effect _ f next m n a s c args step rest ih =>
    refine ih (fun v n hfault => hw v n ?_) hc
    rw [Work.perform]
    dsimp only
    rw [step]
    exact hfault
  | @later d vs next m m' n v c args before rest ih =>
    have hsame := (hstep d vs next m hw).2.trans before
    exact ih (fun v n hfault => hw v n ((bind_eq_of_ok hsame _).trans hfault)) hc

namespace Activation

variable {a b : Activation} {p : Position}

/-- So has whatever an activation calls, if the work of its node gets through. -/
theorem Calls.of_checked (hcall : a.Calls P p b)
    (hwork : ∀ d m, a.Starts d m → (a.handle.perform P
      (Caller.checked Q (Handle.invokeBasic P d)) a.args).FaultlessOn m) :
    Q b.handle b.args b.machine := by
  have htarget : ∀ {k handler : Handle} {c : ClassId} {d : Nat} {m : Machine}, a.Starts d m →
      a.handle.node = .catching k c handler → handler.Handles a.args → Q k a.args m := by
    intro k handler c d m hstarts hnode hhandles
    by_contra hQ
    refine hwork d m hstarts k.variant m ?_
    rw [Handle.perform_catching hnode hhandles, Caller.checked_of_neg hQ]
  cases hcall with
  | plain comes =>
    obtain ⟨m, hstarts, hcatches, hreach⟩ := comes
    have hwork := hwork _ m hstarts
    rw [Handle.perform_eq_work P _ hcatches] at hwork
    exact hreach.of_checked hwork rfl
  | target hstarts hnode hhandles => exact htarget hstarts hnode hhandles
  | @handler g handler c e n o s hcall hfailed hcaught =>
    cases hcall with
    | @target k _ _ d m hstarts hnode hhandles =>
    by_contra hQ
    -- the target has passed, so it fails as it does unchecked, and the handler is called
    refine hwork d m hstarts handler.variant { n with store := s } ?_
    have hfailed : Handle.invokeBasic P d k a.args m = .error (.error e) n := hfailed
    rw [Handle.perform_catching hnode hhandles,
      Caller.checked_of_pos (htarget hstarts hnode hhandles), hfailed]
    dsimp only
    rw [hcaught]
    exact Caller.checked_of_neg hQ

end Activation

end Checked

/-! ## Typed activations -/

/-- Whether an activation is that of a typed handle on live arguments that it takes, on a typed
machine. -/
structure Activation.Typed (G : ClassGraph) (W : Extent) (a : Activation) : Prop where
  machine : a.machine.Typed G W
  handle : a.handle.Typed G W
  takes : a.handle.takes G a.args = true
  live : Value.AllLive W.classes a.args

/-- A variable-arity handle passes on what its target takes. -/
theorem Handle.Typed.varargs {P : Program} {W : Extent} {h k : Handle} {array : Ty} {cell : Stamp}
    (ht : h.Typed P.graph W) (hnode : h.node = .varargs k array cell) {args : List Value}
    (htakes : h.takes P.graph args = true) : k.Typed P.graph W ∧ k.takes P.graph args = true := by
  obtain ⟨hn, hsub⟩ := ht
  unfold takes at htakes
  rw [hnode] at hn htakes
  exact takes_of_varargs hn (Node.takes_of_sub hn hsub htakes)

namespace Activation

variable {P : Program} {W : Extent} {a b root : Activation} {p : Position} {d : Nat} {m : Machine}

/-- The machine on which the work of a node starts is typed. -/
theorem Starts.typed (hstarts : a.Starts d m) (ha : a.machine.Typed P.graph W) :
    ∃ W', W.Grows W' ∧ m.Typed P.graph W' := by
  obtain ⟨-, t, hthunk, -⟩ := hstarts
  have hends := (a.handle.sound_thunk a.machine ha).2
  rw [hthunk] at hends
  obtain ⟨W', hW, hm, -⟩ := hends
  exact ⟨W', hW, hm⟩

/-- What a handle of variable arity calls is its target, and on the arguments that it has been
given. -/
theorem Calls.of_isVarargs (hcall : a.Calls P p b) (hvarargs : a.handle.isVarargs = true) :
    b.args = a.args ∧ a.Starts b.depth b.machine ∧
      ∃ array cell, a.handle.node = .varargs b.handle array cell := by
  obtain ⟨⟨stamp, type, node⟩, args, depth, m₀⟩ := a
  cases node with
  | varargs k array cell =>
    cases hcall with
    | plain comes =>
      obtain ⟨m, hstarts, -, hreach⟩ := comes
      cases hreach with
      | here => exact ⟨rfl, hstarts, array, cell, rfl⟩
      | later _ rest => cases rest
    | target _ hnode => cases hnode
    | handler hcall =>
      cases hcall with
      | target _ hnode => cases hnode
  | _ => cases hvarargs

variable {hs : List Handle} (hG : P.graph.MembersNumbered) (hI : P.graph.InterfacesBare)
  (hP : P.Honest hs)
include hG hI hP

/-- What any other handle calls fits the signature of what is called. -/
theorem Calls.fits (hhs : ∀ h ∈ hs, h.Typed P.graph W) (ha : a.Typed P.graph W)
    (hvarargs : a.handle.isVarargs = false) (hcall : a.Calls P p b) :
    ∃ W', W.Grows W' ∧ b.machine.Typed P.graph W' ∧ b.handle.Typed P.graph W' ∧
      Value.fitAll P.graph b.args b.handle.type.params = true ∧ Value.AllLive W'.classes b.args := by
  -- that is the check, and sound calls get through it
  let Q : Handle → List Value → Machine → Prop := fun k vs n => ∃ W', W.Grows W' ∧
    n.Typed P.graph W' ∧ k.Typed P.graph W' ∧ Value.fitAll P.graph vs k.type.params = true ∧
      Value.AllLive W'.classes vs
  refine hcall.of_checked (Q := Q) fun d m hstarts v n hfault => ?_
  obtain ⟨⟨stamp, type, node⟩, args, depth, m₀⟩ := a
  obtain ⟨hmachine, hhandle, htakes, hlive⟩ := ha
  obtain ⟨W', hW, hm⟩ := hstarts.typed hmachine
  have hserves : Caller.Serves P.graph W' (Handle.invokeBasic P d)
      (Caller.checked Q (Handle.invokeBasic P d)) := by
    intro W'' hW' k vs hk hfits hlive n hn
    have hsound := Handle.sound_invokeBasic hG hI hP
      (fun h hh => (hhs h hh).mono (hW.trans hW')) d
    refine ⟨Caller.checked_of_pos ⟨W'', hW.trans hW', hn, hk, hfits, hlive⟩, ?_⟩
    exact (hsound.run hk hfits hlive n hn).2
  cases hhandle.mono hW with
  | mk hq hsub =>
    have htakes := Node.takes_of_sub hq hsub htakes
    have hsound := @Handle.sound_node P W' _ _ stamp type _ args node hG hI hs hP
      (fun h hh => (hhs h hh).mono hW) hserves hvarargs hq htakes (hlive.mono hW.classes)
    obtain ⟨hsame, hends⟩ := hsound m hm
    rw [← hsame, hfault] at hends
    exact hends

/-- **Calls of typed activations are typed**, and but for calls of variable-arity handles the
arguments fit the signature. -/
theorem Calls.typed (hhs : ∀ h ∈ hs, h.Typed P.graph W) (ha : a.Typed P.graph W)
    (hcall : a.Calls P p b) : ∃ W', W.Grows W' ∧ b.Typed P.graph W' ∧ (a.handle.isVarargs = false →
      Value.fitAll P.graph b.args b.handle.type.params = true) := by
  cases hvarargs : a.handle.isVarargs with
  | true =>
    obtain ⟨hargs, hstarts, array, cell, hnode⟩ := hcall.of_isVarargs hvarargs
    obtain ⟨W', hW, hm⟩ := hstarts.typed ha.machine
    obtain ⟨hk, htakes⟩ := ha.handle.varargs hnode ha.takes
    rw [← hargs] at htakes
    have hlive := ha.live
    rw [← hargs] at hlive
    exact ⟨W', hW, ⟨hm, hk.mono hW, htakes, hlive.mono hW.classes⟩, nofun⟩
  | false =>
    obtain ⟨W', hW, hm, hk, hfits, hlive⟩ := hcall.fits hG hI hP hhs ha hvarargs
    exact ⟨W', hW, ⟨hm, hk, hk.takes_of_fitAll hfits, hlive⟩, fun _ => hfits⟩

/-- Every activation on a stack over a typed one is typed. -/
theorem Stack.typed (hhs : ∀ h ∈ hs, h.Typed P.graph W) (hroot : root.Typed P.graph W)
    {S : List (Activation × Position)} (hS : Stack P root S b) :
    ∃ W', W.Grows W' ∧ b.Typed P.graph W' := by
  -- on the stack, from the outside
  induction hS with
  | nil => exact ⟨W, .refl W, hroot⟩
  | cons _ call ih =>
    obtain ⟨W', hW, ha⟩ := ih
    obtain ⟨W'', hW', hb, -⟩ := call.typed hG hI hP (fun h hh => (hhs h hh).mono hW) ha
    exact ⟨W'', hW.trans hW', hb⟩

end Activation

end HandleCalculus
