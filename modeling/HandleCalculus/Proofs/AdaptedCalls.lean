import HandleCalculus.Proofs.Unwinding

/-!
# Calls of adapted handles

A handle of fixed arity that is adapted over and over lies under layers of conversions. An
adaptation that has something to convert adds a layer; one that has not leaves the node and changes
the signature alone (`Handle.Layered`). A call takes its arguments through the layers, the outermost
first (`convertThrough`). Where a conversion fails the call ends, and nothing has run; arguments
that come through are what the node below works on (`Handle.Layered.invokeBasic_fails`).

A call from another signature, or through the generic one, adapts the handle once more and calls the
outcome exactly (`Handle.entry_of_fixed`).
-/

set_option autoImplicit false

namespace HandleCalculus

/-! ## Layers -/

/-- Whether the signature and node of a handle are those of another one under layers of conversions,
the outermost first. Between two layers the signature may have been changed to one that asks for
more. -/
inductive Handle.Layered (G : ClassGraph) (v : Handle) : List (List Conversion) → Handle → Prop where
  | bottom {h : Handle} (node : h.node = v.node)
      (view : List.Forall₂ (fun p q => G.isAssignable q p = true) v.type.params h.type.params) :
    Layered G v [] h
  | layer {h k : Handle} {ps : List Ty} {cs : List Conversion} {ret : Conversion}
      {layers : List (List Conversion)} (node : h.node = .convert k cs ret)
      (view : List.Forall₂ (fun p q => G.isAssignable q p = true) ps h.type.params)
      (length : ps.length = k.type.params.length)
      (plans : Handle.plans? G ps k.type.params = some cs) (below : Layered G v layers k) :
    Layered G v (cs :: layers) h

/-- Arguments taken through layers of conversions. The innermost layer converts the first argument
as a receiver if so asked. -/
def convertThrough (G : ClassGraph) (asReceiver : Bool) :
    List (List Conversion) → List Value → Except Error (List Value)
  | [], args => .ok args
  | cs :: layers, args =>
    match convertArguments G (asReceiver && layers.isEmpty) args cs with
    | .error e => .error e
    | .ok converted => convertThrough G asReceiver layers converted

namespace Handle.Layered

variable {G : ClassGraph} {v h h' : Handle} {layers : List (List Conversion)} {s : Stamp}

theorem self (v : Handle) : v.Layered G [] v :=
  .bottom rfl (List.forall₂_same.2 fun t _ => G.isAssignable_refl t)

/-- A signature that asks for more leaves the layers. -/
theorem view (hv : v.Layered G layers h) (hnode : h'.node = h.node)
    (hview : List.Forall₂ (fun p q => G.isAssignable q p = true) h.type.params h'.type.params) :
    v.Layered G layers h' := by
  cases hv with
  | bottom node view =>
    exact .bottom (hnode.trans node) (G.forall₂_isAssignable_trans view hview)
  | layer node view length plans below =>
    exact .layer (hnode.trans node) (G.forall₂_isAssignable_trans view hview) length plans below

/-- An adaptation adds a layer, or none. -/
theorem convertTo (hv : v.Layered G layers h) {new : Signature}
    (hmade : h.convertTo G s new = .ok h') :
    v.Layered G layers h' ∨ ∃ cs, v.Layered G (cs :: layers) h' := by
  rcases convertTo_eq_ok hmade with rfl | ⟨cs, ret, hlength, hcs, -, ⟨hkeep, -, hretype⟩ | rfl⟩
  · exact Or.inl hv
  · obtain ⟨hnode, htype⟩ := retype_eq_ok hretype
    refine Or.inl (hv.view hnode ?_)
    rw [htype]
    exact forall₂_of_plans? hlength hcs hkeep
  · exact Or.inr ⟨cs, .layer rfl (List.forall₂_same.2 fun t _ => G.isAssignable_refl t) hlength hcs hv⟩

/-- What is right below the innermost layer dispatches as the handle at the bottom does, and no
other layer has below it what dispatches. -/
theorem dispatches_eq (hv : v.Layered G layers h) :
    h.dispatches = (v.dispatches && layers.isEmpty) := by
  cases hv with
  | bottom node view =>
    rw [Handle.dispatches, Handle.dispatches, Handle.variant, Handle.variant, node]
    simp
  | layer node view length plans below =>
    rw [Handle.dispatches, Handle.variant, node]
    simp [Node.variant]

end Handle.Layered

/-- Arguments that come through all layers are what the handle at the bottom takes. -/
theorem Handle.Layered.fitAll_of_convertThrough {G : ClassGraph} {v h : Handle}
    {layers : List (List Conversion)} (hv : v.Layered G layers h) {args converted : List Value}
    (hargs : Value.fitAll G args h.type.params = true) {asReceiver : Bool}
    (hconverted : convertThrough G asReceiver layers args = .ok converted) :
    Value.fitAll G converted v.type.params = true := by
  induction hv generalizing args with
  | bottom node view =>
    obtain rfl := Except.ok.inj hconverted
    exact Value.fitAll_of_isAssignable hargs view
  | @layer h k ps cs ret layers node view length plans below ih =>
    unfold convertThrough at hconverted
    split at hconverted
    · cases hconverted
    · next args' hargs' =>
      exact ih (fitAll_of_convertArguments length plans k.type.noVoid
        (Value.fitAll_of_isAssignable hargs view) hargs') hconverted

/-! ## Calls -/

section Calls

variable {P : Program} {v h : Handle} {layers : List (List Conversion)} {args : List Value}
  {m : Machine} {stop : Stop}

theorem Store.instances_foldl_report (es : List Event) (s : Store) :
    (es.foldl Store.report s).instances = s.instances := by
  induction es generalizing s with
  | nil => rfl
  | cons e es ih => exact ih (s.report e)

/-- With its thunks in order, a machine that calls a handle comes to the work of the handle's node.
Nothing has run by then, and the slots are as they were. -/
theorem Handle.invokeBasic_of_settled (hm : m.Settled) (h : Handle) (depth : Nat) :
    ∃ n : Machine, n.Settled ∧ n.calls = m.calls ∧ n.store.instances = m.store.instances ∧
      ∀ args, h.invokeBasic P (depth + 1) args m =
        h.perform P (Handle.invokeBasic P depth) args n := by
  obtain ⟨t, t', events, cells, -, hthunk, hsettled⟩ := hm.thunk h
  have hvariant : t.key.variant = h.variant := congrArg _ (hm.key_of_thunk hthunk)
  refine ⟨({ m with thunks := t', cells := cells } : Machine).reports events, ?_, ?_, ?_,
    fun args => ?_⟩
  · rw [Machine.reports_store]
    exact ⟨hsettled.table, hsettled.cells⟩
  · rw [Machine.reports_store]
  · rw [Machine.reports_store]
    exact Store.instances_foldl_report events m.store
  · rw [Handle.invokeBasic_succ]
    refine (bind_eq_of_ok hthunk _).trans ?_
    rw [hvariant, Handle.enter_variant]

/-- Whether what is at the bottom of layers stops so when it is called through them: as the first
conversion does that fails, or as the node does on the arguments that come through. -/
def Handle.Stops (P : Program) (v : Handle) (layers : List (List Conversion)) (args : List Value)
    (stop : Stop) : Prop :=
  match convertThrough P.graph v.dispatches layers args with
  | .error e => stop = .error e
  | .ok converted => ∀ (call : Caller) (k : Handle) (n : Machine), k.node = v.node →
    k.perform P call converted n = .error stop n

/-- A call through layers stops so, unless the depth is used up before. -/
theorem Handle.Layered.invokeBasic_fails (hv : v.Layered P.graph layers h) (hm : m.Settled)
    (hargs : Value.fitAll P.graph args h.type.params = true) (hstop : v.Stops P layers args stop)
    (depth : Nat) :
    ∃ (s : Stop) (n : Machine), h.invokeBasic P depth args m = .error s n ∧ n.calls = m.calls ∧
      (s = .exhausted ∨ s = stop) ∧ (layers.length < depth → s = stop) := by
  -- along the layers, each one level deeper
  induction hv generalizing args m depth with
  | @bottom h node view =>
    cases depth with
    | zero => exact ⟨.exhausted, m, rfl, rfl, Or.inl rfl, fun h => absurd h (Nat.not_lt_zero _)⟩
    | succ depth =>
      obtain ⟨n, -, hcalls, -, hperform⟩ := h.invokeBasic_of_settled (P := P) hm depth
      refine ⟨stop, n, ?_, hcalls, Or.inr rfl, fun _ => rfl⟩
      rw [hperform]
      exact hstop _ h n node
  | @layer h k ps cs ret layers node view length plans below ih =>
    cases depth with
    | zero => exact ⟨.exhausted, m, rfl, rfl, Or.inl rfl, fun h => absurd h (Nat.not_lt_zero _)⟩
    | succ depth =>
      obtain ⟨n, hn, hcalls, -, hperform⟩ := h.invokeBasic_of_settled (P := P) hm depth
      obtain ⟨stamp, type, node'⟩ := h
      obtain rfl : node' = .convert k cs ret := node
      have hps := Value.fitAll_of_isAssignable hargs view
      rw [hperform]
      unfold Stops convertThrough at hstop
      rw [← below.dispatches_eq] at hstop
      unfold Handle.perform
      dsimp only
      cases hconverted : convertArguments P.graph k.dispatches args cs with
      | error e =>
        rw [hconverted] at hstop
        refine ⟨.error e, n, rfl, hcalls, Or.inr hstop.symm, fun _ => hstop.symm⟩
      | ok converted =>
        rw [hconverted] at hstop
        have hfits := fitAll_of_convertArguments length plans k.type.noVoid hps hconverted
        obtain ⟨s, n', hcall, hcalls', hs, hdepth⟩ := ih hn hfits hstop depth
        refine ⟨s, n', ?_, hcalls'.trans hcalls, hs, fun h => hdepth (Nat.lt_of_succ_lt_succ h)⟩
        exact bind_eq_of_error hcall _

end Calls

/-! ## Entries -/

namespace Handle

variable {G : ClassGraph} {h k : Handle} {args vs : List Value} {m m' : Machine}

theorem asType_eq_of_fixed (hfixed : h.isVarargs = false) (G : ClassGraph) (new : Signature) :
    h.asType G new = if new = h.type then pure h else Link.build fun s => h.convertTo G s new := by
  obtain ⟨stamp, type, node⟩ := h
  cases node <;> first | rfl | cases hfixed

/-- A handle of fixed arity is adapted itself. -/
theorem asType_of_fixed (hfixed : h.isVarargs = false) {new : Signature}
    (hmade : h.asType G new m = .ok k m') :
    (k = h ∨ ∃ s, h.convertTo G s new = .ok k) ∧ ∃ next, m' = { m with nextStamp := next } := by
  rw [asType_eq_of_fixed hfixed] at hmade
  split at hmade
  · cases hmade
    exact ⟨Or.inl rfl, m.nextStamp, rfl⟩
  · obtain ⟨hk, hm⟩ := Link.exists_of_build hmade
    exact ⟨Or.inr ⟨_, hk⟩, _, hm⟩

/-- Whatever the form, a handle of fixed arity is called itself or adapted once, with the arguments
or these boxed. -/
theorem entry_of_fixed (hfixed : h.isVarargs = false) {form : CallForm}
    (hentry : h.entry G args form m = .ok (k, vs) m') :
    (k = h ∨ ∃ s new, h.convertTo G s new = .ok k) ∧ Value.fitAll G vs k.type.params = true ∧
      (vs = args ∨ vs = args.map Value.boxed) ∧ ∃ next, m' = { m with nextStamp := next } := by
  obtain ⟨⟨rfl, rfl⟩ | ⟨new, htype⟩, hfits, hvs⟩ := entry_eq_ok hentry
  · exact ⟨Or.inl rfl, hfits, hvs, m'.nextStamp, rfl⟩
  · obtain ⟨hk, hm⟩ := asType_of_fixed hfixed htype
    exact ⟨hk.imp_right fun ⟨s, hs⟩ => ⟨s, new, hs⟩, hfits, hvs, hm⟩

end Handle

end HandleCalculus
