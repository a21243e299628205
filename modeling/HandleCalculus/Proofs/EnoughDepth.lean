import HandleCalculus.Proofs.CallTermination
import HandleCalculus.Proofs.PermutedCalls

/-!
# Enough depth

The depth that a call is allowed only decides whether it ends. A computation that has not used its depth
up does the same if it is allowed more (`Run.Within`), and so do nodes over callers of which that is true
and calls themselves (`Handle.within_invokeBasic`). So one can speak of how a call ends and leave the depth
out (`Handle.EndsAs`): it ends in one way at most (`Handle.EndsAs.unique`), and calls that go down differently
far can still be seen to end alike.
-/

set_option autoImplicit false

namespace HandleCalculus

namespace Run

variable {α β : Type}

/-- Whether the second computation does what the first does, wherever that does not run out of depth. -/
def Within (x y : Run α) : Prop := ∀ m, (∀ n, x m ≠ .error .exhausted n) → y m = x m

namespace Within

theorem refl (x : Run α) : Within x x := fun _ _ => rfl

theorem exhausted (y : Run α) : Within (throw .exhausted) y := fun m h => absurd rfl (h m)

theorem bind {x y : Run α} {f g : α → Run β} (hx : Within x y) (hf : ∀ a, Within (f a) (g a)) :
    Within (x >>= f) (y >>= g) := by
  intro m hm
  cases hxm : x m with
  | ok a n =>
    rw [bind_eq_of_ok hxm] at hm ⊢
    rw [bind_eq_of_ok ((hx m (by simp [hxm])).trans hxm)]
    exact hf a n hm
  | error e n =>
    rw [bind_eq_of_error hxm] at hm ⊢
    exact bind_eq_of_error ((hx m (by simpa [hxm] using hm)).trans hxm) g

end Within

end Run

open Run (Within)

/-! ## Calls -/

section Nodes

variable {P : Program} {call call' : Caller} (hcall : ∀ h args, Within (call h args) (call' h args))

include hcall

theorem Callee.within_run (c : Callee) (args : List Value) :
    Within (c.run P call args) (c.run P call' args) := by
  cases c with
  | handle h => exact hcall h args
  | body m => exact .refl _

theorem Work.within_perform (w : Work) : Within (w.perform P call) (w.perform P call') := by
  induction w with
  | answer v => exact .refl _
  | stop s => exact .refl _
  | effect f next ih =>
    intro m hm
    unfold perform at hm ⊢
    cases hf : f m.store with
    | ok p =>
      rw [hf] at hm
      exact ih p.1 _ hm
    | error e => rfl
  | run c args next ih => exact .bind (c.within_run hcall args) ih

/-- A node does the same over callers that do. -/
theorem Handle.within_perform (h : Handle) (args : List Value) :
    Within (h.perform P call args) (h.perform P call' args) := by
  by_cases hnode : h.Catches
  · obtain ⟨target, c, handler, hnode⟩ := hnode
    by_cases hhandles : handler.Handles args
    · intro m hm
      have htarget := hcall target args m
      rw [perform_catching hnode hhandles] at hm ⊢
      rw [perform_catching hnode hhandles]
      cases hrun : call target args m with
      | ok v n => rw [htarget (by simp [hrun]), hrun]
      | error s n =>
        rw [hrun] at hm
        cases s with
        | error e =>
          rw [htarget (by simp [hrun]), hrun]
          dsimp only at hm ⊢
          -- what the handler does is all that is left
          cases hcaught : e.caughtBy? P.graph c n.store with
          | none => rfl
          | some made =>
            rw [hcaught] at hm
            exact hcall handler _ _ hm
        | fault v => rw [htarget (by simp [hrun]), hrun]
        | exhausted => exact absurd rfl (hm n)
    · rw [perform_catching_of_not hnode hhandles, perform_catching_of_not hnode hhandles]
      exact .refl _
  · rw [perform_eq_work P call hnode, perform_eq_work P call' hnode]
    exact Work.within_perform hcall _

theorem Handle.within_enter (v : Variant) (h : Handle) (args : List Value) :
    Within (h.enter P call v args) (h.enter P call' v args) := by
  unfold enter
  split
  · exact .refl _
  · exact .refl _
  · split
    · exact h.within_perform hcall args
    · exact .refl _

end Nodes

namespace Handle

variable {P : Program}

/-- **More depth changes nothing** for a call that does not run out of it. -/
theorem within_invokeBasic {depth depth' : Nat} (hdepth : depth ≤ depth') (h : Handle)
    (args : List Value) : Within (h.invokeBasic P depth args) (h.invokeBasic P depth' args) := by
  -- on the depth: the node does the same over calls that are one less deep
  induction depth generalizing depth' h args with
  | zero => exact .exhausted _
  | succ depth ih =>
    obtain ⟨depth', rfl⟩ : ∃ n, depth' = n + 1 := ⟨depth' - 1, by omega⟩
    have hcall := fun h args => ih (Nat.le_of_succ_le_succ hdepth) h args
    exact .bind (.refl _) fun t => h.within_enter hcall t.key.variant args

theorem within_invokeExact {depth depth' : Nat} (hdepth : depth ≤ depth') (h : Handle)
    (args : List Value) : Within (h.invokeExact P depth args) (h.invokeExact P depth' args) :=
  .bind (.refl _) fun _ => within_invokeBasic hdepth h args

end Handle

/-! ## How calls end -/

/-- How a computation has ended, with what is visible of the machine that it left. -/
abbrev Run.Outcome (α : Type) := Except Stop α × (Store × Array Call)

namespace Run

variable {α β : Type} {x y : Nat → Run α} {m : Machine} {r r' : Outcome α}

/-- Whether a computation that is allowed some depth ends in a way, wherever the depth is enough. -/
def EndsAs (x : Nat → Run α) (m : Machine) (r : Outcome α) : Prop :=
  r.1 ≠ .error .exhausted ∧ ∃ depth, seen Machine.visible (x depth m) = r

/-- Whether more depth changes nothing for a computation that does not run out of it. -/
def Deepens (x : Nat → Run α) : Prop := ∀ d e, d ≤ e → Within (x d) (x e)

/-- What is seen to have ended for another reason has not run out of depth. -/
theorem ne_exhausted_of_seen {x : Run α} (hr : r.1 ≠ .error .exhausted)
    (h : seen Machine.visible (x m) = r) (n : Machine) : x m ≠ .error .exhausted n := by
  intro hx
  rw [hx] at h
  subst h
  exact hr rfl

theorem Within.seen_eq {x y : Run α} (h : Within x y) (hr : r.1 ≠ .error .exhausted)
    (hx : seen Machine.visible (x m) = r) : seen Machine.visible (y m) = r := by
  rw [h m (ne_exhausted_of_seen hr hx)]
  exact hx

/-- It ends in one way at most. -/
theorem Deepens.unique (hx : Deepens x) (h : EndsAs x m r) (h' : EndsAs x m r') : r = r' := by
  obtain ⟨hr, d, hd⟩ := h
  obtain ⟨hr', e, he⟩ := h'
  have hleft := (hx d _ (Nat.le_max_left d e)).seen_eq hr hd
  have hright := (hx e _ (Nat.le_max_right d e)).seen_eq hr' he
  exact hleft.symm.trans hright

/-- Computations that are seen to do the same, one of them so much deeper, end in the same ways. -/
theorem Deepens.endsAs_iff (hx : Deepens x) (hy : Deepens y) {u v : Nat}
    (h : ∀ d, seen Machine.visible (x (d + u) m) = seen Machine.visible (y (d + v) m)) :
    EndsAs x m r ↔ EndsAs y m r := by
  constructor
  · rintro ⟨hr, d, hd⟩
    exact ⟨hr, d + v, (h d).symm.trans ((hx d _ (Nat.le_add_right d u)).seen_eq hr hd)⟩
  · rintro ⟨hr, d, hd⟩
    exact ⟨hr, d + u, (h d).trans ((hy d _ (Nat.le_add_right d v)).seen_eq hr hd)⟩

end Run

namespace Handle

variable {P : Program} {m : Machine} {h k : Handle} {args picked : List Value}

/-- Whether the exact call of a handle ends in a way, if it may go down far enough. -/
def EndsAs (P : Program) (m : Machine) (h : Handle) (args : List Value) (r : Run.Outcome Value) : Prop :=
  Run.EndsAs (fun depth => h.invokeExact P depth args) m r

theorem deepens_invokeExact (P : Program) (h : Handle) (args : List Value) :
    Run.Deepens fun depth => h.invokeExact P depth args :=
  fun _ _ hde => within_invokeExact hde h args

theorem EndsAs.unique {r r' : Run.Outcome Value} (hr : h.EndsAs P m args r) (hr' : h.EndsAs P m args r') :
    r = r' :=
  (deepens_invokeExact P h args).unique hr hr'

/-- A call comes to an end exactly if it ends at some depth. -/
theorem terminates_iff : h.Terminates P args m ↔ ∃ r, h.EndsAs P m args r := by
  constructor
  · rintro ⟨D, r, hr, hD⟩
    refine ⟨seen Machine.visible r, ?_, D, congrArg _ (hD D (Nat.le_refl D))⟩
    cases r with
    | ok v n => exact nofun
    | error s n =>
      intro hs
      obtain rfl := Except.error.inj hs
      exact hr n rfl
  · rintro ⟨r, hr, D, hD⟩
    have hends := Run.ne_exhausted_of_seen hr hD
    exact ⟨D, _, hends, fun d hd => within_invokeExact hd h args m hends⟩

/-- Calls that end alike end in the same ways. -/
theorem CallsAs.endsAs_iff {levels : Nat} (hk : CallsAs P m levels k args h picked)
    {r : Run.Outcome Value} : k.EndsAs P m args r ↔ h.EndsAs P m picked r := by
  obtain ⟨u, v, -, hsame⟩ := hk
  exact (deepens_invokeExact P k args).endsAs_iff (deepens_invokeExact P h picked) hsame

end Handle

end HandleCalculus
