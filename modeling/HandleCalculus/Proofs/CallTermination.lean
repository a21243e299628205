import HandleCalculus.Proofs.DirectCalls
import HandleCalculus.Proofs.ReceiverSafety
import HandleCalculus.Proofs.SiteGraph

/-!
# Calls that end

A call ends if wherever it can go on it goes down in some order, and method bodies keep it so
(`Handle.halts_invokeBasic`). The induction is on that order: what a node does is a tree of finitely
many steps (`Work`), and the handles that it calls are below it. For bodies that leave the call sites
alone the ways through the store are such an order, if none of them leads back
(`Store.AcyclicFrom.terminates`). Nothing is called again then while it runs
(`Activation.Stack.apart`).
-/

set_option autoImplicit false

namespace HandleCalculus

open Relation (ReflTransGen TransGen)

/-! ## Orders -/

/-- Whether the ways through a store go down in an order. -/
def Store.Below (R : Handle → Handle → Prop) (s : Store) : Prop := ∀ h k, s.Next h k → R k h

theorem Store.Below.congr {R : Handle → Handle → Prop} {s s' : Store} (hs : s.Below R)
    (hsites : s'.sites = s.sites) : s'.Below R := by
  unfold Below
  rw [next_congr hsites]
  exact hs

/-- The store that a method body leaves. -/
def Program.leaves (P : Program) (m : MethodRef) (args : List Value) (s : Store) : Store :=
  match P.body m args s with
  | .ok _ s' | .error _ s' => s'

/-- A program whose method bodies leave the call sites alone. -/
def Program.SparesSites (P : Program) : Prop := ∀ m args s, (P.leaves m args s).sites = s.sites

/-- A program whose method bodies set targets in such a way that the ways through the store still go
down in an order. -/
def Program.StaysBelow (P : Program) (R : Handle → Handle → Prop) : Prop :=
  ∀ m args s, s.Below R → (P.leaves m args s).Below R

theorem Program.SparesSites.staysBelow {P : Program} (hP : P.SparesSites)
    (R : Handle → Handle → Prop) : P.StaysBelow R := fun m args s hs => hs.congr (hP m args s)

/-! ### Steps that leave the call sites alone -/

namespace Store

variable {α : Type} {s s' : Store} {offset : Nat} {v : Value}

theorem sites_writeStatic {c : ClassId} (h : s.writeStatic c offset v = .ok s') :
    s'.sites = s.sites := by
  unfold writeStatic at h
  split at h
  · split at h
    · obtain rfl := Except.ok.inj h
      rfl
    · cases h
  · cases h

theorem sites_writeField {o : Object} (h : s.writeField o offset v = .ok s') :
    s'.sites = s.sites := by
  unfold writeField at h
  split at h
  · split at h
    · obtain rfl := Except.ok.inj h
      rfl
    · cases h
  · cases h

theorem eq_ok_of_map_read {x : Except Error α} {a : α} (h : x.map (·, s) = .ok (a, s')) :
    x = .ok a ∧ s' = s := by
  cases x with
  | ok b =>
    obtain ⟨rfl, rfl⟩ := Prod.mk.inj (Except.ok.inj h)
    exact ⟨rfl, rfl⟩
  | error e => cases h

theorem eq_ok_of_map_write {x : Except Error Store} {u : Unit} (h : x.map ((), ·) = .ok (u, s')) :
    x = .ok s' := by
  cases x with
  | ok t =>
    obtain ⟨-, rfl⟩ := Prod.mk.inj (Except.ok.inj h)
    rfl
  | error e => cases h

/-- No step that nodes take changes the call sites. -/
theorem Primitive.sites {f : Store → Except Error (α × Store)} (hf : Primitive f) {a : α}
    (hstep : f s = .ok (a, s')) : s'.sites = s.sites := by
  cases hf with
  | newInstance | newArray =>
    obtain ⟨-, rfl⟩ := Prod.mk.inj (Except.ok.inj hstep)
    rfl
  | readStatic | readField | getTarget => rw [(eq_ok_of_map_read hstep).2]
  | writeStatic => exact sites_writeStatic (eq_ok_of_map_write hstep)
  | writeField => exact sites_writeField (eq_ok_of_map_write hstep)

end Store

/-- What a handler takes is an object of the call, or one made for it. -/
theorem Error.sites_of_caughtBy? {G : ClassGraph} {c : ClassId} {e : Error} {s s' : Store}
    {o : Object} (h : e.caughtBy? G c s = some (o, s')) : s'.sites = s.sites := by
  have hthrowable : e.throwable? G s = some (o, s') := (Option.filter_eq_some_iff.1 h).1
  by_cases he : ∃ k, e = .thrown k
  · obtain ⟨k, rfl⟩ := he
    obtain ⟨-, rfl⟩ := Prod.mk.inj (Option.some.inj hthrowable)
    rfl
  · rw [Error.throwable?_of_ne fun k hk => he ⟨k, hk⟩] at hthrowable
    obtain ⟨k, -, hmade⟩ := Option.map_eq_some_iff.1 hthrowable
    obtain ⟨-, rfl⟩ := Prod.mk.inj hmade
    rfl

/-- Fetching a thunk leaves the call sites alone. -/
theorem Handle.sites_thunk (h : Handle) (m : Machine) :
    (h.thunk.leaves m).store.sites = m.store.sites := by
  have hreports : ∀ (n : Machine) (es : List Event),
      (es.foldl Machine.report n).store.sites = n.store.sites := by
    intro n es
    induction es generalizing n with
    | nil => rfl
    | cons e es ih => exact ih (n.report e)
  unfold Run.leaves thunk
  cases m.cells.lookup (h.stamp, h.key) with
  | some t => rfl
  | none =>
    obtain ⟨result, thunks, events⟩ := m.thunks.get h.key
    cases result with
    | ok t => exact hreports { m with thunks := thunks } events
    | error e => exact hreports { m with thunks := thunks } events

/-! ## Computations that end -/

theorem Error.stop_ne_exhausted (e : Error) : Stop.error e ≠ .exhausted := by
  intro h
  cases h

namespace Run

variable {R : Handle → Handle → Prop} {α β : Type}

/-- Whether a computation has ended for another reason than want of depth, and has left a store whose
ways go down in an order. -/
def Finished (R : Handle → Handle → Prop) : EStateM.Result Stop Machine α → Prop
  | .ok _ m => m.store.Below R
  | .error s m => s ≠ .exhausted ∧ m.store.Below R

/-- Whether a computation that is allowed some depth ends on a machine, in one and the same way
wherever the depth is enough. -/
def HaltsOn (R : Handle → Handle → Prop) (x : Nat → Run α) (m : Machine) : Prop :=
  ∃ D r, Finished R r ∧ ∀ d, D ≤ d → x d m = r

/-- Whether it does on all machines in whose stores the ways go down. -/
def Halts (R : Handle → Handle → Prop) (x : Nat → Run α) : Prop :=
  ∀ m : Machine, m.store.Below R → HaltsOn R x m

namespace HaltsOn

variable {x : Nat → Run α} {y : Nat → Run β} {m : Machine}

theorem of_finished {r : EStateM.Result Stop Machine α} (hr : Finished R r) (h : ∀ d, x d m = r) :
    HaltsOn R x m := ⟨0, r, hr, fun d _ => h d⟩

theorem congr {y : Nat → Run α} {n : Machine} (hx : HaltsOn R x m) (h : ∀ d, y d n = x d m) :
    HaltsOn R y n := by
  obtain ⟨D, r, hr, hD⟩ := hx
  exact ⟨D, r, hr, fun d hd => (h d).trans (hD d hd)⟩

/-- What goes on from how another computation ends, to something that ends, ends. -/
theorem seq (hx : HaltsOn R x m) (hy : ∀ r, Finished R r → ∃ (z : Nat → Run β) (n : Machine),
    HaltsOn R z n ∧ ∀ d, x d m = r → y d m = z d n) : HaltsOn R y m := by
  obtain ⟨D, r, hr, hD⟩ := hx
  obtain ⟨z, n, ⟨D', r', hr', hD'⟩, hz⟩ := hy r hr
  refine ⟨max D D', r', hr', fun d hd => ?_⟩
  rw [hz d (hD d (by omega))]
  exact hD' d (by omega)

/-- What may go one deeper ends, too. -/
theorem succ {y : Nat → Run α} (hx : HaltsOn R x m) (hy : ∀ d, y (d + 1) = x d) :
    HaltsOn R y m := by
  obtain ⟨D, r, hr, hD⟩ := hx
  refine ⟨D + 1, r, hr, fun d hd => ?_⟩
  cases d with
  | zero => exact absurd hd (Nat.not_succ_le_zero D)
  | succ d =>
    rw [hy]
    exact hD d (Nat.le_of_succ_le_succ hd)

end HaltsOn

namespace Halts

theorem const {x : Run α} (hx : ∀ m, m.store.Below R → Finished R (x m)) : Halts R fun _ => x :=
  fun m hm => .of_finished (hx m hm) fun _ => rfl

theorem of_keeps {x : Run α} (hx : x.Keeps fun m => m.store.Below R)
    (hstop : ∀ m n, x m ≠ .error .exhausted n) : Halts R fun _ => x := by
  refine .const fun m hm => ?_
  have hleft := hx m hm
  cases hxm : x m with
  | ok a n =>
    rw [leaves_of_ok hxm] at hleft
    exact hleft
  | error s n =>
    rw [leaves_of_error hxm] at hleft
    refine ⟨?_, hleft⟩
    rintro rfl
    exact hstop m n hxm

theorem pure (a : α) : Halts R fun _ => Pure.pure a := .const fun _ hm => hm

theorem throw {s : Stop} (hs : s ≠ .exhausted) : Halts R fun _ => (MonadExcept.throw s : Run α) :=
  .const fun _ hm => ⟨hs, hm⟩

theorem fail (e : Error) : Halts R fun _ => (Run.fail e : Run α) := throw e.stop_ne_exhausted

theorem bind {x : Nat → Run α} {f : Nat → α → Run β} (hx : Halts R x)
    (hf : ∀ a, Halts R fun d => f d a) : Halts R fun d => x d >>= f d := by
  intro m hm
  refine (hx m hm).seq fun r hr => ?_
  cases r with
  | ok a n => exact ⟨_, n, hf a n hr, fun d hd => bind_eq_of_ok hd _⟩
  | error s n => exact ⟨_, n, throw hr.1 n hr.2, fun d hd => bind_eq_of_error hd _⟩

end Halts

end Run

open Run (Finished Halts)

section Calls

variable {R : Handle → Handle → Prop} {P : Program}

/-- Nothing that calls do changes the order of the ways, if the bodies keep to it. -/
theorem Program.StaysBelow.keptBy (hP : P.StaysBelow R) :
    Machine.KeptBy P fun m => m.store.Below R where
  step hf _ _ _ hstep hm := hm.congr (hf.sites hstep)
  caught _ _ _ _ _ hcaught hm := hm.congr (Error.sites_of_caughtBy? hcaught)
  body m args s hs := by
    have hleft := hP m args s.store hs
    unfold leaves at hleft
    unfold Run.leaves runBody
    dsimp only
    cases hbody : P.body m args s.store with
    | ok v store =>
      rw [hbody] at hleft
      exact hleft
    | error o store =>
      rw [hbody] at hleft
      exact hleft

theorem Program.halts_runBody (hP : P.StaysBelow R) (m : MethodRef) (args : List Value) :
    Halts R fun _ => P.runBody m args := by
  refine .of_keeps (hP.keptBy.body m args) fun s n => ?_
  unfold runBody
  dsimp only
  cases P.body m args s.store <;> exact nofun

theorem Handle.keeps_below_thunk (h : Handle) : h.thunk.Keeps fun m => m.store.Below R :=
  fun m hm => hm.congr (h.sites_thunk m)

theorem Handle.halts_thunk (h : Handle) : Halts R fun _ => h.thunk := by
  refine .of_keeps h.keeps_below_thunk fun m n => ?_
  unfold thunk
  cases m.cells.lookup (h.stamp, h.key) with
  | some t => exact nofun
  | none =>
    obtain ⟨result, thunks, events⟩ := m.thunks.get h.key
    cases result <;> exact nofun

theorem Handle.exists_site_of_variant {h : Handle} (hvariant : h.node.variant = .invoker) :
    ∃ site, h.node = .invoker site := by
  cases hn : h.node with
  | invoker site => exact ⟨site, rfl⟩
  | _ =>
    rw [hn] at hvariant
    cases hvariant

/-- An invoker calls the target that its site has. -/
theorem Handle.perform_invoker {h : Handle} {site : SiteId} (hnode : h.node = .invoker site)
    (call : Caller) (args : List Value) (m : Machine) :
    h.perform P call args m =
      match m.store.getTarget site with
      | .ok k => call k args m
      | .error e => .error (.error e) m := by
  unfold perform
  rw [hnode]
  show EStateM.bind (Run.readStore (·.getTarget site)) (fun k => call k args) m = _
  unfold EStateM.bind Run.readStore
  dsimp only
  cases m.store.getTarget site <;> rfl

section Nodes

variable {call : Nat → Caller} (hP : P.StaysBelow R)

include hP

/-- A tree ends if what it runs does. -/
theorem Work.halts_perform {Q : Callee → List Value → Prop} {w : Work} (hplain : w.Plain)
    (hruns : w.Runs Q) (hcall : ∀ k args, Q (.handle k) args → Halts R fun d => call d k args) :
    Halts R fun d => w.perform P (call d) := by
  induction w with
  | answer v => exact .const fun m hm => hm
  | stop s => exact .const fun m hm => ⟨hplain, hm⟩
  | effect f next ih =>
    intro m hm
    cases hf : f m.store with
    | ok p =>
      obtain ⟨a, s⟩ := p
      have hnext := ih a (hplain.2 a) (hruns _ a s hf) { m with store := s }
        (hm.congr (hplain.1.sites hf))
      exact hnext.congr fun d => by simp only [perform, hf]
    | error e =>
      exact .of_finished (r := .error (.error e) m) ⟨e.stop_ne_exhausted, hm⟩
        fun d => by simp only [perform, hf]
  | run c args next ih =>
    refine .bind ?_ fun v => ih v (hplain v) (hruns.2 v)
    cases c with
    | handle k => exact hcall k args hruns.1
    | body m => exact P.halts_runBody hP m args

/-- A node ends if the calls of the handles below it do. -/
theorem Handle.halts_perform {h : Handle}
    (hcall : ∀ k, R k h → ∀ args, Halts R fun d => call d k args) (args : List Value) :
    Halts R fun d => h.perform P (call d) args := by
  intro m hm
  have hheld : ∀ k ∈ h.children, ∀ vs, Halts R fun d => call d k vs :=
    fun k hk => hcall k (hm h k (.held hk))
  by_cases hcatches : h.Catches
  · obtain ⟨target, c, handler, hnode⟩ := hcatches
    by_cases hhandles : handler.Handles args
    · have htarget : target ∈ h.children := by
        rw [children, hnode]
        exact List.mem_cons_self
      have hhandler : handler ∈ h.children := by
        rw [children, hnode]
        exact List.mem_cons_of_mem _ List.mem_cons_self
      refine (hheld target htarget args m hm).seq fun r hr => ?_
      have hperform : ∀ d, call d target args m = r → h.perform P (call d) args m = _ :=
        fun d hd => (perform_catching hnode hhandles m).trans (by rw [hd])
      cases r with
      | ok v n => exact ⟨_, n, Halts.pure v n hr, hperform⟩
      | error s n =>
        cases s with
        | error e =>
          cases hcaught : e.caughtBy? P.graph c n.store with
          | none =>
            refine ⟨_, n, Halts.throw hr.1 n hr.2, fun d hd => (hperform d hd).trans ?_⟩
            dsimp only
            rw [hcaught]
            rfl
          | some made =>
            obtain ⟨o, s⟩ := made
            have hstarts := hr.2.congr (Error.sites_of_caughtBy? hcaught)
            have hends := hheld handler hhandler (handler.handlerArgs o args)
              { n with store := s } hstarts
            refine ⟨_, _, hends, fun d hd => (hperform d hd).trans ?_⟩
            dsimp only
            rw [hcaught]
        | fault v => exact ⟨_, n, Halts.throw hr.1 n hr.2, hperform⟩
        | exhausted => exact absurd rfl hr.1
    · have hfault : Stop.fault .catching ≠ .exhausted := by
        intro h
        cases h
      refine .of_finished (r := .error (.fault .catching) m) ⟨hfault, hm⟩ fun d => ?_
      rw [perform_catching_of_not hnode hhandles]
      rfl
  · by_cases hsited : h.node.variant = .invoker
    · obtain ⟨site, hnode⟩ := exists_site_of_variant hsited
      cases hcurrent : m.store.getTarget site with
      | ok k =>
        refine (hcall k (hm h k (.target hnode hcurrent)) args m hm).congr fun d => ?_
        rw [perform_invoker hnode, hcurrent]
      | error e =>
        refine .of_finished (r := .error (.error e) m) ⟨e.stop_ne_exhausted, hm⟩ fun d => ?_
        rw [perform_invoker hnode, hcurrent]
    · have hwork := Work.halts_perform hP (h.plain_work P.graph args)
        (runs_work P.graph hsited args) fun k vs hk => hheld k hk.child vs
      exact (hwork m hm).congr fun d => by rw [perform_eq_work P (call d) hcatches]

end Nodes

/-- **A call ends if it goes down in a well-founded order**, whatever handle is called, on whatever
arguments. -/
theorem Handle.halts_invokeBasic (hP : P.StaysBelow R) {h : Handle} (hacc : Acc R h)
    (args : List Value) : Halts R fun d => h.invokeBasic P d args := by
  -- on the order: the handles that the node calls are below
  induction hacc generalizing args with
  | intro h _ ih =>
    have hperform : Halts R fun d => h.perform P (Handle.invokeBasic P d) args :=
      Handle.halts_perform hP ih args
    have hchecked : ∀ v, Halts R fun d => if h.variant = v
        then h.perform P (Handle.invokeBasic P d) args
        else Run.fail (.wrongThunk h.type h.variant) := by
      intro v
      by_cases hv : h.variant = v
      · simpa only [if_pos hv] using hperform
      · simpa only [if_neg hv] using Halts.fail _
    have henter : ∀ t : Thunk, Halts R fun d =>
        h.enter P (Handle.invokeBasic P d) t.key.variant args := by
      intro t
      unfold enter
      split
      · cases args with
        | nil => exact .fail _
        | cons v vs => exact .pure v
      · unfold throwFirst
        split <;> exact .fail _
      · exact hchecked _
    intro m hm
    exact (Halts.bind h.halts_thunk henter m hm).succ fun d => by rw [invokeBasic_succ]; rfl

theorem Handle.halts_invokeExact (hP : P.StaysBelow R) {h : Handle} (hacc : Acc R h)
    (args : List Value) : Halts R fun d => h.invokeExact P d args := by
  refine .bind (x := fun _ => Run.ofExcept (h.type.check P.graph args)) ?_ fun _ =>
    halts_invokeBasic hP hacc args
  cases h.type.check P.graph args with
  | ok u => exact .pure u
  | error e => exact .fail e

end Calls

/-- Whether a call comes to an end: with enough depth it always ends in the same way, which is not
that the depth is used up. -/
def Handle.Terminates (P : Program) (h : Handle) (args : List Value) (m : Machine) : Prop :=
  ∃ D r, (∀ n, r ≠ .error .exhausted n) ∧ ∀ d, D ≤ d → h.invokeExact P d args m = r

section Terminates

variable {R : Handle → Handle → Prop} {P : Program} {m : Machine}

theorem Handle.terminates_of_acc (hP : P.StaysBelow R) (hm : m.store.Below R) {h : Handle}
    (hacc : Acc R h) (args : List Value) : h.Terminates P args m := by
  obtain ⟨D, r, hr, hD⟩ := halts_invokeExact hP hacc args m hm
  refine ⟨D, r, ?_, hD⟩
  rintro n rfl
  exact hr.1 rfl

/-- Where no way leads back, all calls end, of bodies that leave the call sites alone. -/
theorem Store.AcyclicFrom.terminates {h : Handle} (hm : m.store.AcyclicFrom h) (hP : P.SparesSites)
    (args : List Value) : h.Terminates P args m :=
  Handle.terminates_of_acc (hP.staysBelow _) (fun _ _ hn => hn) hm.acc args

end Terminates

/-! ## Calls on the stack -/

section Stacks

variable {P : Program} {R : Handle → Handle → Prop} {I : Machine → Prop}

/-- What a tree comes to run, it runs on a machine with whatever its steps and calls keep. -/
theorem Work.Reaches.keeps {call : Caller} (hI : Machine.KeptBy P I)
    (hcall : ∀ h args, (call h args).Keeps I) {w : Work} (hw : w.Plain) {m n : Machine} {c : Callee}
    {args : List Value} (h : w.Reaches P call m c args n) (hm : I m) : I n := by
  induction h with
  | here => exact hm
  | effect step _ ih => exact ih (hw.2 _) (hI.step hw.1 _ _ _ step hm)
  | @later d vs _ m _ _ _ _ _ before _ ih =>
    have hleft := d.keeps_run hI hcall vs m hm
    rw [Run.leaves_of_ok before] at hleft
    exact ih (hw _) hleft

namespace Activation

variable {a b root : Activation} {p : Position} {S : List (Activation × Position)}

theorem Starts.keeps {d : Nat} {m : Machine} (h : a.Starts d m)
    (hthunk : ∀ h : Handle, h.thunk.Keeps I) (ha : I a.machine) : I m := by
  obtain ⟨-, t, hfetched, -⟩ := h
  have hleft := hthunk a.handle a.machine ha
  rwa [Run.leaves_of_ok hfetched] at hleft

/-- What an activation calls starts on a machine with whatever calls keep. -/
theorem Calls.keeps (hI : Machine.KeptBy P I) (hthunk : ∀ h : Handle, h.thunk.Keeps I)
    (hcall : a.Calls P p b) (ha : I a.machine) : I b.machine := by
  have hcalls := fun d => Handle.keeps_invokeBasic hI hthunk d
  induction hcall with
  | plain comes =>
    obtain ⟨m, hstarts, -, hreach⟩ := comes
    exact hreach.keeps hI (hcalls _) (a.handle.plain_work P.graph a.args) (hstarts.keeps hthunk ha)
  | target starts _ _ => exact starts.keeps hthunk ha
  | @handler b handler c e n o s target failed caught ih =>
    have hleft : I ((b.run P).leaves b.machine) := hcalls b.depth b.handle b.args b.machine ih
    rw [Run.leaves_of_error failed] at hleft
    exact hI.caught c e n o s caught hleft

/-- What an activation calls comes next in the store. -/
theorem Calls.next (hcall : a.Calls P p b) : a.machine.store.Next a.handle b.handle := by
  by_cases hsited : a.handle.node.variant = .invoker
  · obtain ⟨site, hnode⟩ := Handle.exists_site_of_variant hsited
    cases hcall with
    | plain comes =>
      obtain ⟨m, ⟨-, t, hthunk, -⟩, -, hreach⟩ := comes
      have hsites := a.handle.sites_thunk a.machine
      rw [Run.leaves_of_ok hthunk] at hsites
      have hwork : a.handle.work P.graph a.args =
          .read (·.getTarget site) (Work.pass · a.args) := by
        unfold Handle.work
        rw [hnode]
      rw [hwork] at hreach
      cases hreach with
      | effect step rest =>
        obtain ⟨hcurrent, -⟩ := Store.eq_ok_of_map_read step
        rw [← Store.next_congr hsites]
        cases rest with
        | here => exact .target hnode hcurrent
        | later _ rest => cases rest
    | target _ node _ => cases hnode.symm.trans node
    | handler target _ _ =>
      cases target with
      | target _ node _ => cases hnode.symm.trans node
  · exact .held (hcall.held hsited)

/-- What is on a stack goes down in the order of the ways. -/
theorem Stack.descends (hP : P.StaysBelow R) (hroot : root.machine.store.Below R)
    (hS : Stack P root S b) :
    b.machine.store.Below R ∧ ReflTransGen R b.handle root.handle ∧
      ∀ f ∈ S, TransGen R b.handle f.1.handle := by
  -- on the stack, from the outside
  induction hS with
  | nil => exact ⟨hroot, .refl, nofun⟩
  | @cons S a b p outer call ih =>
    obtain ⟨ha, hfrom, hdown⟩ := ih
    have hstep : R b.handle a.handle := ha _ _ call.next
    refine ⟨call.keeps hP.keptBy Handle.keeps_below_thunk ha, .head hstep hfrom, fun f hf => ?_⟩
    rcases List.mem_cons.1 hf with rfl | hf
    · exact .single hstep
    · exact .head hstep (hdown f hf)

/-- **Nothing is called again while it runs**, where no way leads back. -/
theorem Stack.apart (hP : P.SparesSites) (hroot : root.machine.store.AcyclicFrom root.handle)
    (hS : Stack P root S b) {f : Activation × Position} (hf : f ∈ S) :
    f.1.handle ≠ b.handle := by
  intro heq
  let R : Handle → Handle → Prop := fun k h => root.machine.store.Next h k
  obtain ⟨-, hfrom, hdown⟩ := hS.descends (hP.staysBelow R) fun _ _ hn => hn
  have hback : TransGen R b.handle b.handle := heq ▸ hdown f hf
  rw [Relation.reflTransGen_swap] at hfrom
  rw [Relation.transGen_swap] at hback
  exact hroot b.handle hfrom hback

end Activation

end Stacks

end HandleCalculus
