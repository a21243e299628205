import HandleCalculus.Proofs.CallTermination

/-!
# Calls that do not end

A call that always goes on to another one that does so, too, uses up whatever depth it is allowed
(`Handle.usesUp_of_progress`). Where sites have invokers of each other as targets, calls of these go
round (`Machine.Keyed.neverEnds`).

Bodies that set targets can do without ways back. They take turns: each one makes ready the site that
is called next, and what that calls is the other one's turn. At no moment does a way lead back, and
the call goes on all the same (`Program.turns_neverEnds`).
-/

set_option autoImplicit false

namespace HandleCalculus

/-! ## Progress -/

/-- Whether a call uses up the depth that it is allowed. -/
def Handle.UsesUp (P : Program) (depth : Nat) (h : Handle) (args : List Value) (m : Machine) :
    Prop := ∃ n, h.invokeBasic P depth args m = .error .exhausted n

/-- Whether a call uses up whatever depth it is allowed. -/
def Handle.NeverEnds (P : Program) (h : Handle) (args : List Value) (m : Machine) : Prop :=
  ∀ depth, ∃ n, h.invokeExact P depth args m = .error .exhausted n

theorem Handle.NeverEnds.not_terminates {P : Program} {h : Handle} {args : List Value}
    {m : Machine} (hnever : h.NeverEnds P args m) : ¬ h.Terminates P args m := by
  rintro ⟨D, r, hr, hD⟩
  obtain ⟨n, hn⟩ := hnever D
  exact hr n ((hD D (Nat.le_refl D)).symm.trans hn)

section Progress

variable {P : Program} {m : Machine} {h k : Handle} {args : List Value} {depth : Nat}

theorem Handle.neverEnds_of_usesUp (hargs : h.type.check P.graph args = .ok ())
    (hup : ∀ depth, h.UsesUp P depth args m) : h.NeverEnds P args m := by
  intro depth
  rw [invokeExact_of_check hargs]
  exact hup depth

/-- **What always goes on never ends.** -/
theorem Handle.usesUp_of_progress {I : Handle → List Value → Machine → Prop}
    (hI : ∀ depth h args m, I h args m →
      ∃ k vs n, I k vs n ∧ (k.UsesUp P depth vs n → h.UsesUp P (depth + 1) args m))
    (hstart : I h args m) (depth : Nat) : h.UsesUp P depth args m := by
  induction depth generalizing h args m with
  | zero => exact ⟨m, rfl⟩
  | succ depth ih =>
    obtain ⟨k, vs, n, hk, hup⟩ := hI depth h args m hstart
    exact hup (ih hk)

namespace Machine.Keyed

/-- A call of a handle is the work of its node, on a machine with the same call sites. -/
theorem invokeBasic_succ (hm : m.Keyed) (P : Program) (depth : Nat) (h : Handle)
    (args : List Value) : ∃ n : Machine, n.Keyed ∧ n.store.sites = m.store.sites ∧
      h.invokeBasic P (depth + 1) args m = h.perform P (Handle.invokeBasic P depth) args n := by
  obtain ⟨n, hn, hvisible, hcall⟩ := hm.invokeVia P (Handle.invokeBasic P depth) h args
  have hsites : n.store.unlogged.sites = m.store.unlogged.sites :=
    congrArg Store.sites (Machine.visible_eq_iff.1 hvisible).1
  exact ⟨n, hn, hsites, hcall⟩

/-- An invoker goes on to its target. -/
theorem usesUp_invoker (hm : m.Keyed) {i : SiteId} (hnode : h.node = .invoker i)
    (hcurrent : m.store.getTarget i = .ok k) (P : Program) (depth : Nat) (args : List Value) :
    ∃ n : Machine, n.Keyed ∧ n.store.sites = m.store.sites ∧
      (k.UsesUp P depth args n → h.UsesUp P (depth + 1) args m) := by
  obtain ⟨n, hn, hsites, hcall⟩ := hm.invokeBasic_succ P depth h args
  refine ⟨n, hn, hsites, fun ⟨m', hk⟩ => ⟨m', ?_⟩⟩
  have htarget : n.store.getTarget i = .ok k := by
    rw [← hcurrent, Store.getTarget, Store.getTarget, hsites]
  rw [hcall, Handle.perform_invoker hnode, htarget]
  exact hk

/-- Where sites have invokers of each other as targets, a call of one of these goes round and round
until the depth is used up. -/
theorem neverEnds (hm : m.Keyed) {S : SiteId → Prop}
    (hround : ∀ i, S i → ∃ k j, m.store.getTarget i = .ok k ∧ k.node = .invoker j ∧ S j)
    {i : SiteId} (hnode : h.node = .invoker i) (hi : S i)
    (hargs : h.type.check P.graph args = .ok ()) : h.NeverEnds P args m := by
  let I : Handle → List Value → Machine → Prop := fun h _ n =>
    n.Keyed ∧ n.store.sites = m.store.sites ∧ ∃ i, h.node = .invoker i ∧ S i
  refine Handle.neverEnds_of_usesUp hargs
    (Handle.usesUp_of_progress (I := I) ?_ ⟨hm, rfl, i, hnode, hi⟩)
  rintro depth h vs n ⟨hn, hsites, i, hnode, hi⟩
  obtain ⟨k, j, hcurrent, hk, hj⟩ := hround i hi
  have hcurrent' : n.store.getTarget i = .ok k := by
    rw [← hcurrent, Store.getTarget, Store.getTarget, hsites]
  obtain ⟨n', hn', hsites', hup⟩ := hn.usesUp_invoker hnode hcurrent' P depth vs
  exact ⟨k, vs, n', ⟨hn', hsites'.trans hsites, j, hk, hj⟩, hup⟩

end Machine.Keyed

end Progress

/-! ## Clear steps -/

/-- Whether a step does not set a target that leads to its own site. -/
def SiteOp.Clear (s : Store) : SiteOp → Prop
  | .setTarget id target => ∀ s', s.setTarget id target = .ok s' → ¬ s.Leads target id
  | _ => True

namespace Store

/-- Whether all steps are allowed, each in the store in which it is taken. -/
def Allows (allowed : Store → SiteOp → Prop) : Store → List SiteOp → Prop
  | _, [] => True
  | s, op :: ops => allowed s op ∧ Allows allowed (s.serve op).2 ops

variable {s : Store} {t : Signature} {site : SiteId}

/-- What is no invoker of a site, and goes on to nothing that leads there, does not lead there. -/
theorem not_leads_of {h : Handle} (hnode : h.node ≠ .invoker site)
    (hnext : ∀ k, s.Next h k → ¬ s.Leads k site) : ¬ s.Leads h site := by
  rintro ⟨j, hway, hj⟩
  rcases hway.cases_head with rfl | ⟨k, hk, hrest⟩
  · exact hnode hj
  · exact hnext k hk ⟨j, hrest, hj⟩

theorem not_leads_of_leaf {h : Handle} (hchildren : h.children = [])
    (hnode : ∀ i, h.node ≠ .invoker i) : ¬ s.Leads h site := by
  refine not_leads_of (hnode site) fun k hk => ?_
  cases hk with
  | held child =>
    rw [hchildren] at child
    cases child
  | target node => exact absurd node (hnode _)

/-- Whether a site takes targets of a signature. -/
def Takes (s : Store) (t : Signature) (site : SiteId) : Prop :=
  ∃ c, s.sites[site]? = some c ∧ c.kind ≠ .constant ∧ c.type = t

theorem Takes.congr {s' : Store} (hs : s.Takes t site) (hsites : s'.sites = s.sites) :
    s'.Takes t site := by
  unfold Takes
  rwa [hsites]

theorem Takes.serve (hs : s.Takes t site) (op : SiteOp) : (s.serve op).2.Takes t site := by
  obtain ⟨c, hc, hkind, htype⟩ := hs
  obtain ⟨c', hc', hlater, -⟩ := (advances_serve s op site).later c hc
  exact ⟨c', hc', hlater.kind_eq ▸ hkind, hlater.type_eq.trans htype⟩

theorem Takes.serve_setTarget (hs : s.Takes t site) {h : Handle} (htype : h.type = t) :
    ∃ s', s.setTarget site h = .ok s' ∧ (s.serve (.setTarget site h)).2 = s' := by
  obtain ⟨c, hc, hkind, rfl⟩ := hs
  obtain ⟨s', hset⟩ := exists_setTarget hc hkind htype
  exact ⟨s', hset, Store.serve_setTarget hset⟩

end Store

/-! ## Bodies that take turns -/

theorem slotCount_nil_le : slotCount [] ≤ maxArgumentSlots := Nat.zero_le _

/-- The signature of what neither takes nor answers anything. -/
def Signature.action : Signature := ⟨[], .void, List.not_mem_nil, slotCount_nil_le⟩

section Turns

variable (G : ClassGraph) (ms : Bool → MethodRef)

/-- A handle that calls nothing. -/
def Handle.rest : Handle := ⟨0, .action, .unlinked ""⟩

/-- Calls one of two methods, and then the target of the other one of two sites. -/
def Handle.turn (i : Bool) : Handle :=
  ⟨0, .action, .fold ⟨0, .action, .invoker (!i).toNat⟩ 0 ⟨0, .action, .direct (ms i) .static⟩⟩

/-- What one of the methods does in its turn: its own site rests, and the other one has the next
turn. -/
def Store.turn (i : Bool) (s : Store) : Store :=
  match s.setTarget i.toNat .rest with
  | .ok s' => (s'.serve (.setTarget (!i).toNat (.turn ms !i))).2
  | .error _ => s

/-- Two methods that take turns. -/
def Program.turns : Program where
  graph := G
  body m _ := fun s => .ok .void (s.turn ms (m = ms true))

variable {G ms} {s : Store} {i : Bool}

/-- If the one site rests, the next turn leads there only. -/
theorem Store.not_leads_turn (hrests : s.getTarget i.toNat = .ok .rest) :
    ¬ s.Leads (.turn ms !i) (!i).toNat := by
  refine not_leads_of nofun fun k hk => ?_
  cases hk with
  | target node => cases node
  | held child =>
    rcases List.mem_cons.1 child with rfl | child
    · refine not_leads_of ?_ fun j hj => ?_
      · cases i <;> exact nofun
      · cases hj with
        | held child => cases child
        | target node current =>
          obtain rfl := Node.invoker.inj node
          rw [Bool.not_not, hrests] at current
          obtain rfl := Except.ok.inj current
          exact not_leads_of_leaf rfl nofun
    · obtain rfl := List.mem_singleton.1 child
      exact not_leads_of_leaf rfl nofun

/-- What the methods do is clear in all stores. -/
theorem Store.exists_clear_turn (s : Store) (i : Bool) :
    ∃ ops, s.Allows (fun s op => op.Clear s) ops ∧ s.turn ms i = s.after ops := by
  unfold turn
  cases hset : s.setTarget i.toNat .rest with
  | error e => exact ⟨[], trivial, rfl⟩
  | ok s' =>
    have hserve := serve_setTarget hset
    refine ⟨[.setTarget i.toNat .rest, .setTarget (!i).toNat (.turn ms !i)],
      ⟨fun _ _ => not_leads_of_leaf rfl nofun, ?_, trivial⟩, ?_⟩
    · rw [hserve]
      exact fun _ _ => not_leads_turn (getTarget_setTarget hset).1
    · simp only [after, List.foldl_cons, List.foldl_nil, hserve]

/-- After its turn, the other site has the next one. -/
theorem Store.Takes.turn (ms : Bool → MethodRef) (hs : ∀ j : Bool, s.Takes .action j.toNat)
    (i : Bool) : (∀ j : Bool, (s.turn ms i).Takes .action j.toNat) ∧
      (s.turn ms i).getTarget (!i).toNat = .ok (.turn ms !i) := by
  obtain ⟨s₁, hset₁, hserve₁⟩ := (hs i).serve_setTarget (h := .rest) rfl
  have hs₁ : ∀ j : Bool, s₁.Takes .action j.toNat := fun j => hserve₁ ▸ (hs j).serve _
  obtain ⟨s₂, hset₂, hserve₂⟩ := (hs₁ !i).serve_setTarget (h := .turn ms !i) rfl
  have hturn : s.turn ms i = s₂ := by
    unfold Store.turn
    rw [hset₁]
    exact hserve₂
  rw [hturn]
  exact ⟨fun j => hserve₂ ▸ (hs₁ j).serve _, (getTarget_setTarget hset₂).1⟩

/-- A machine on which all is ready for turns. -/
def Machine.Ready (m : Machine) : Prop :=
  m.Keyed ∧ ∀ j : Bool, m.store.Takes .action j.toNat

/-- The method of a turn makes ready the site that is called next. -/
theorem Machine.Ready.runBody {m : Machine} (hm : m.Ready) (hms : ms false ≠ ms true) (i : Bool) :
    ∃ n : Machine, n.Ready ∧ n.store.getTarget (!i).toNat = .ok (.turn ms !i) ∧
      (Program.turns G ms).runBody (ms i) [] m = .ok .void n := by
  have hwhich : decide (ms i = ms true) = i := by
    cases i with
    | false => exact decide_eq_false hms
    | true => exact decide_eq_true rfl
  obtain ⟨htakes, hcurrent⟩ := Store.Takes.turn ms hm.2 i
  refine ⟨_, ⟨hm.1.change (m.store.turn ms i) (m.calls.push ⟨ms i, []⟩), htakes⟩, hcurrent, ?_⟩
  unfold Program.runBody Program.turns
  dsimp only
  rw [hwhich]

/-- A turn goes on to the next one. -/
theorem Machine.Ready.usesUp_turn {m : Machine} (hm : m.Ready) (hms : ms false ≠ ms true)
    (hbodies : ∀ i, (G.method (ms i)).hasBody = true) (i : Bool) (depth : Nat) :
    ∃ n : Machine, n.Ready ∧ n.store.getTarget (!i).toNat = .ok (.turn ms !i) ∧
      (Handle.UsesUp (.turns G ms) depth ⟨0, .action, .invoker (!i).toNat⟩ [] n →
        Handle.UsesUp (.turns G ms) (depth + 1) (.turn ms i) [] m) := by
  let P : Program := .turns G ms
  let first : Handle := ⟨0, .action, .direct (ms i) .static⟩
  let next : Handle := ⟨0, .action, .invoker (!i).toNat⟩
  obtain ⟨n₁, hn₁, hsites₁, hcall⟩ := hm.1.invokeBasic_succ P depth (.turn ms i) []
  have hfold : (Handle.turn ms i).perform P (Handle.invokeBasic P depth) [] =
      (first.invokeBasic P depth [] >>= fun _ => next.invokeBasic P depth []) := rfl
  rw [hfold] at hcall
  have hready₁ : n₁.Ready := ⟨hn₁, fun j => (hm.2 j).congr hsites₁⟩
  unfold Handle.UsesUp
  rw [hcall]
  cases depth with
  | zero =>
    -- the depth is used up before the method runs
    obtain ⟨n, hn, hcurrent, -⟩ := hready₁.runBody (G := G) hms i
    exact ⟨n, hn, hcurrent, fun _ => ⟨n₁, rfl⟩⟩
  | succ depth =>
    obtain ⟨n₂, hn₂, hsites₂, hfirst⟩ := hn₁.invokeBasic_succ P depth first []
    have hready₂ : n₂.Ready := ⟨hn₂, fun j => (hready₁.2 j).congr hsites₂⟩
    obtain ⟨n, hn, hcurrent, hbody⟩ := hready₂.runBody (G := G) hms i
    have hmethod : first.perform P (Handle.invokeBasic P depth) [] = P.runBody (ms i) [] :=
      if_pos (hbodies i)
    rw [hmethod, hbody] at hfirst
    refine ⟨n, hn, hcurrent, fun hnext => ?_⟩
    rw [bind_eq_of_ok hfirst]
    exact hnext

/-- **Clear steps in bodies are not enough.** Whatever two methods a program has, they can take turns
such that a call never ends, although no step that they take closes a way back. -/
theorem Program.turns_neverEnds {m : Machine} (hm : m.Keyed)
    (hs : ∀ j : Bool, m.store.Takes .action j.toNat) (hms : ms false ≠ ms true)
    (hbodies : ∀ i, (G.method (ms i)).hasBody = true) (i : Bool) :
    (∀ ref args s, ∃ ops, s.Allows (fun s op => op.Clear s) ops ∧
      (Program.turns G ms).leaves ref args s = s.after ops) ∧
    (Handle.turn ms i).NeverEnds (.turns G ms) [] m := by
  refine ⟨fun _ _ s => s.exists_clear_turn _, ?_⟩
  let I : Handle → List Value → Machine → Prop := fun h vs m =>
    m.Ready ∧ vs = [] ∧ ∃ i, h = .turn ms i ∨
      (h = ⟨0, .action, .invoker i.toNat⟩ ∧ m.store.getTarget i.toNat = .ok (.turn ms i))
  refine Handle.neverEnds_of_usesUp rfl
    (Handle.usesUp_of_progress (I := I) ?_ ⟨⟨hm, hs⟩, rfl, i, .inl rfl⟩)
  rintro depth _ _ m ⟨hm, rfl, i, rfl | ⟨rfl, hcurrent⟩⟩
  · obtain ⟨n, hn, hcurrent, hup⟩ := hm.usesUp_turn hms hbodies i depth
    exact ⟨_, [], n, ⟨hn, rfl, !i, .inr ⟨rfl, hcurrent⟩⟩, hup⟩
  · have hnode : (⟨0, .action, .invoker i.toNat⟩ : Handle).node = .invoker i.toNat := rfl
    obtain ⟨n, hn, hsites, hup⟩ := hm.1.usesUp_invoker hnode hcurrent (.turns G ms) depth []
    exact ⟨_, [], n, ⟨⟨hn, fun j => (hm.2 j).congr hsites⟩, rfl, i, .inl rfl⟩, hup⟩

end Turns

end HandleCalculus
