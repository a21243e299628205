import HandleCalculus.Proofs.CollectorMemory

/-!
# Receivers under restriction

What a call reaches is told by a caller that stops with a fault as soon as a member is reached on an
object that is no instance of a class (`Handle.invokeRestricted`). Arguments that fit the signature of a
handle need not be enough for that, for a node may take more than the handle does. They are if the
signature keeps other receivers from the node, and on the way down those of the targets do from theirs
(`Handle.Shielded`): then the restricted call does the same as the plain one, by induction on the depth.

Seen under another signature, collecting arguments or of fixed arity again, a shielded handle is still
shielded, so in whatever form it is called it is restricted (`Handle.Shielded.restricted`).
-/

set_option autoImplicit false

namespace HandleCalculus

/-! ## Receivers under watch -/

/-- The first argument, if it is an object. -/
def firstObject? : List Value → Option Object
  | .obj o :: _ => some o
  | _ => none

/-- The object on which a node runs or accesses its member. -/
def Node.receiver? : Node Handle → List Value → Option Object
  | .direct _ .special, args | .virtual .., args | .getField _ false _, args => firstObject? args
  | .setField _ false _, args => firstObject? args.dropLast
  | _, _ => none

/-- A caller that stops with a fault if a member is reached on an object that is no instance of the
class. -/
def Caller.restricted (G : ClassGraph) (c : ClassId) (call : Caller) : Caller := fun h args =>
  match h.node.receiver? args with
  | some o => if o.isInstance G (.cls c) then call h args else Run.fault h.variant
  | none => call h args

/-- The call of a handle with every member on the way restricted to receivers of the class. -/
def Handle.invokeRestricted (P : Program) (c : ClassId) : Nat → Caller
  | 0 => fun _ _ => throw .exhausted
  | depth + 1 => Caller.restricted P.graph c (Handle.invokeVia P (Handle.invokeRestricted P c depth))

/-- The ways to call a handle: with arguments that fit as they are, from a call of another signature, or
through the generic signature. -/
inductive CallForm where
  | exact
  | as (caller : Signature)
  | generic

namespace Handle

variable (P : Program) (basic : Caller)

/-- Calls a handle with arguments that must fit its signature, over the function that calls it then. -/
def callExact (h : Handle) (args : List Value) : Run Value := do
  Run.ofExcept (h.type.check P.graph args)
  basic h args

/-- Calls a handle in one of the ways there are, over the function that calls it once its arguments are
checked. -/
def callThrough (h : Handle) (args : List Value) : CallForm → Run Value
  | .exact => h.callExact P basic args
  | .as caller =>
    if caller = h.type then h.callExact P basic args
    else do
      let adapted ← Run.link (h.asType P.graph caller)
      adapted.callExact P basic args
  | .generic => do
    let adapted ← Run.link (h.toGeneric P.graph args.length)
    adapted.callExact P basic (args.map Value.boxed)

/-- Over the plain call these are the calls that there are. -/
theorem callThrough_invokeBasic (depth : Nat) (h : Handle) (args : List Value) (form : CallForm) :
    h.callThrough P (invokeBasic P depth) args form =
      match form with
      | .exact => h.invokeExact P depth args
      | .as caller => h.invokeAs P depth caller args
      | .generic => h.invokeGeneric P depth args := by
  cases form <;> rfl

end Handle

/-! ## Shielded handles -/

mutual

/-- Whether arguments that fit the signature of a handle lead to receivers of the class only. -/
inductive Handle.Shielded (G : ClassGraph) (c : ClassId) : Handle → Prop where
  | mk {h : Handle} {ps : List Ty} (node : Node.Shields G c h.node ps)
      (view : List.Forall₂ (fun p q => G.isAssignable q p = true) ps h.type.params) :
    Handle.Shielded G c h

/-- Whether arguments of the types lead a node to receivers of the class only: the node of a member by
the first of them; the others by passing on to a handle that is shielded what fits its signature, and a
variable-arity handle also what fits its own. -/
inductive Node.Shields (G : ClassGraph) (c : ClassId) : Node Handle → List Ty → Prop where
  | member {n : Node Handle} {r : MemberRef} {ps : List Ty} (hn : n.member? = some r)
      (hfirst : ∀ t, ps.head? = some t → G.isAssignable t (.cls c) = true) :
    Node.Shields G c n ps
  | convert {h : Handle} {args : List Conversion} {ret : Conversion} {ps : List Ty}
      (target : Handle.Shielded G c h) (hlength : ps.length = h.type.params.length)
      (hargs : Handle.plans? G ps h.type.params = some args) :
    Node.Shields G c (.convert h args ret) ps
  | collect {h : Handle} {pos count : Nat} {t u : Ty} (target : Handle.Shielded G c h)
      (hpos : h.type.params[pos]? = some u) (hassign : G.isAssignable (.array t) u = true) :
    Node.Shields G c (.collect h pos count (.array t))
      (h.type.params.take pos ++ List.replicate count t ++ h.type.params.drop (pos + 1))
  | varargs {h : Handle} {array : Ty} {cell : Stamp} {ps : List Ty} (target : Handle.Shielded G c h)
      (passed : Node.Shields G c h.node ps) : Node.Shields G c (.varargs h array cell) ps

end

/-! ## Calls of shielded handles -/

section Calls

variable {P : Program} {c : ClassId} {h : Handle} {ps : List Ty} {args : List Value}

/-- The receiver of a node is its first argument. -/
theorem Node.head?_of_receiver? {n : Node Handle} {o : Object} (h : n.receiver? args = some o) :
    args.head? = some (.obj o) := by
  have hfirst : ∀ {vs : List Value}, firstObject? vs = some o → vs.head? = some (.obj o) := by
    intro vs hvs
    unfold firstObject? at hvs
    split at hvs
    · exact congrArg _ (congrArg _ (Option.some.inj hvs))
    · cases hvs
  unfold receiver? at h
  split at h
  · exact hfirst h
  · exact hfirst h
  · exact hfirst h
  · cases args with
    | nil => cases h
    | cons v vs =>
      cases vs with
      | nil => cases h
      | cons w ws =>
        have hhead := hfirst h
        exact hhead
  · cases h

/-- Arguments of types that a node shields against give it a receiver of the class, if any. -/
theorem Node.Shields.isInstance {G : ClassGraph} {n : Node Handle} (hn : Node.Shields G c n ps)
    (hargs : Value.fitAll G args ps = true) {o : Object} (ho : n.receiver? args = some o) :
    o.isInstance G (.cls c) = true := by
  cases hn with
  | member _ hfirst =>
    have hhead := Node.head?_of_receiver? ho
    cases args with
    | nil => cases hhead
    | cons v vs =>
      obtain rfl := Option.some.inj hhead
      cases ps with
      | nil => cases hargs
      | cons t ts =>
        rw [Value.fitAll, Bool.and_eq_true] at hargs
        have hfits := Value.fits_of_isAssignable hargs.1 (hfirst t rfl)
        exact hfits
  | convert => cases ho
  | collect => cases ho
  | varargs => cases ho

/-- A node does the same over two callers that do the same with what it passes on. -/
theorem Handle.perform_of_shields {call call' : Caller} (hn : Node.Shields P.graph c h.node ps)
    (hargs : Value.fitAll P.graph args ps = true)
    (hcall : ∀ (k : Handle) (qs : List Ty) (vs : List Value), Node.Shields P.graph c k.node qs →
      Value.fitAll P.graph vs qs = true → call' k vs = call k vs) :
    h.perform P call' args = h.perform P call args := by
  have hshielded : ∀ (k : Handle) (vs : List Value), k.Shielded P.graph c →
      Value.fitAll P.graph vs k.type.params = true → call' k vs = call k vs := by
    intro k vs ⟨hk, hview⟩ hvs
    exact hcall k _ vs hk (Value.fitAll_of_isAssignable hvs hview)
  obtain ⟨stamp, type, node⟩ := h
  have hn : Node.Shields P.graph c node ps := hn
  cases hn with
  | member hm =>
    cases node with
    | direct | virtual | getField | setField => rfl
    | _ => cases hm
  | @convert k conversions ret ps target hlength hplans =>
    unfold perform
    dsimp only
    cases hconverted : convertArguments P.graph k.dispatches args conversions with
    | error e => rfl
    | ok ws =>
      have hfits := fitAll_of_convertArguments hlength hplans k.type.noVoid hargs hconverted
      show (call' k ws >>= _) = (call k ws >>= _)
      rw [hshielded k ws target hfits]
  | @collect k pos count t u target hpos hassign =>
    obtain ⟨hlength, hcollected⟩ := Value.fitAll_collected hpos hassign hargs
    show (if pos + count ≤ args.length then _ else _) = (if pos + count ≤ args.length then _ else _)
    rw [if_pos hlength, if_pos hlength]
    -- whatever array is made, the target takes it
    funext m
    exact congrFun (hshielded k _ target (hcollected _ rfl)) _
  | varargs target passed => exact hcall _ _ args passed hargs

theorem Handle.enter_congr {call call' : Caller}
    (hperform : h.perform P call' args = h.perform P call args) (v : Variant) :
    h.enter P call' v args = h.enter P call v args := by
  cases v <;> simp only [enter, hperform]

/-- Called with arguments that a node shields against, a handle does as it does without restriction. -/
theorem Handle.invokeRestricted_of_shields (depth : Nat) :
    ∀ (h : Handle) (ps : List Ty) (args : List Value), Node.Shields P.graph c h.node ps →
      Value.fitAll P.graph args ps = true →
      h.invokeRestricted P c depth args = h.invokeBasic P depth args := by
  -- on the depth; the arguments that a node passes on are shielded against in turn
  induction depth with
  | zero => exact fun _ _ _ _ _ => rfl
  | succ depth ih =>
    intro h ps args hn hargs
    have hvia : invokeVia P (invokeRestricted P c depth) h args =
        invokeVia P (invokeBasic P depth) h args := by
      have henter := h.enter_congr (perform_of_shields hn hargs ih)
      unfold invokeVia
      simp only [henter]
    show Caller.restricted P.graph c (invokeVia P (invokeRestricted P c depth)) h args = _
    unfold Caller.restricted
    cases hreceiver : h.node.receiver? args with
    | none => exact hvia
    | some o => exact (if_pos (hn.isInstance hargs hreceiver)).trans hvia

end Calls

/-! ## Adapting shielded handles -/

namespace Handle.Shielded

variable {G : ClassGraph} {c : ClassId} {h h' k : Handle} {s : Stamp}

theorem of_node {ps : List Ty} (hn : Node.Shields G c h.node ps) (hparams : h.type.params = ps) :
    h.Shielded G c :=
  ⟨hn, hparams ▸ List.forall₂_same.2 fun t _ => G.isAssignable_refl t⟩

/-- The target of a variable-arity handle is shielded by its own signature. -/
theorem target (hs : h.Shielded G c) {array : Ty} {cell : Stamp}
    (hnode : h.node = .varargs k array cell) : k.Shielded G c := by
  obtain ⟨hn, -⟩ := hs
  rw [hnode] at hn
  cases hn with
  | member hm => cases hm
  | varargs target => exact target

theorem asFixedArity (hs : h.Shielded G c) : h.asFixedArity.Shielded G c := by
  unfold Handle.asFixedArity
  split
  · next k array cell hnode => exact hs.target hnode
  · exact hs

theorem convertTo (hs : h.Shielded G c) {new : Signature}
    (hmade : h.convertTo G s new = .ok h') : h'.Shielded G c := by
  rcases convertTo_eq_ok hmade with rfl | ⟨args, ret, hlength, hargs, -, ⟨hkeep, -, hretype⟩ | rfl⟩
  · exact hs
  · -- nothing is converted, so the new parameters take no more than the old ones
    obtain ⟨hnode, htype⟩ := retype_eq_ok hretype
    obtain ⟨hn, hview⟩ := hs
    rw [← hnode] at hn
    refine ⟨hn, ?_⟩
    rw [htype]
    exact G.forall₂_isAssignable_trans hview (forall₂_of_plans? hlength hargs hkeep)
  · exact of_node (.convert hs hlength hargs) rfl

theorem asCollector (hs : h.Shielded G c) {array : Ty} {count : Nat}
    (hmade : h.asCollector G s array count = .ok h') : h'.Shielded G c := by
  unfold Handle.asCollector at hmade
  split at hmade
  · cases hmade
  · obtain ⟨t, u, rfl, hpos, hassign, hnode, hparams, -⟩ := asCollectorAt_eq_ok hmade
    refine of_node ?_ hparams
    rw [hnode]
    exact .collect hs hpos hassign

/-- Whatever signature a shielded handle is seen under. -/
theorem seenAs (hs : h.Shielded G c) {new : Signature} (hseen : h.SeenAs G new h') :
    h'.Shielded G c := by
  cases hseen with
  | same => exact hs
  | converted _ hmade => exact hs.convertTo hmade
  | passed hnode hmade => exact (hs.target hnode).convertTo hmade
  | collected hnode hcollector hmade =>
    exact ((hs.target hnode).asCollector hcollector).convertTo hmade

theorem asVarargsCollector (hs : h.Shielded G c) {array : Ty}
    (hmade : h.asVarargsCollector G s array = .ok h') : h'.Shielded G c := by
  unfold Handle.asVarargsCollector at hmade
  split at hmade
  · obtain rfl := Except.ok.inj hmade
    exact hs
  split at hmade
  · cases hmade
  split at hmade
  · obtain rfl := Except.ok.inj hmade
    have htarget := hs.asFixedArity
    obtain ⟨hn, hview⟩ := hs
    -- the arguments are passed to the handle's own node, or to the target that it has already
    refine ⟨.varargs htarget ?_, hview⟩
    unfold Handle.asFixedArity
    split
    · next k existing cell hnode =>
      rw [hnode] at hn
      cases hn with
      | member hm => cases hm
      | varargs _ passed => exact passed
    · exact hn
  · cases hmade

end Handle.Shielded

/-! ## Restricted handles -/

/-- Whether no call of a handle reaches a member on an object that is no instance of the class: in every
form and to any depth the call does the same with all members restricted. -/
def Handle.Restricted (P : Program) (c : ClassId) (m : Machine) (h : Handle) : Prop :=
  ∀ (depth : Nat) (args : List Value) (form : CallForm),
    h.callThrough P (Handle.invokeRestricted P c depth) args form m =
      h.callThrough P (Handle.invokeBasic P depth) args form m

section Restricted

variable {P : Program} {c : ClassId} {T : Cells} {m m' : Machine} {hs : List Handle} {h k : Handle}

theorem Handle.Shielded.callExact (hshielded : h.Shielded P.graph c) (depth : Nat)
    (args : List Value) :
    h.callExact P (invokeRestricted P c depth) args = h.callExact P (invokeBasic P depth) args := by
  unfold Handle.callExact
  cases hchecked : h.type.check P.graph args with
  | error e => rfl
  | ok _ =>
    obtain ⟨hn, hview⟩ := hshielded
    have hfits := Signature.check_eq_ok_iff.1 hchecked
    exact invokeRestricted_of_shields depth h _ args hn (Value.fitAll_of_isAssignable hfits hview)

/-- The generic form of a handle is the handle seen under some signature. -/
theorem Handle.asType_of_toGeneric {G : ClassGraph} {count : Nat}
    (hmade : h.toGeneric G count m = .ok k m') : ∃ t, h.asType G t m = .ok k m' := by
  unfold toGeneric at hmade
  split at hmade
  · cases hmade
  obtain ⟨t, m₁, ht, hcaught⟩ := Link.exists_of_bind hmade
  obtain rfl : m = m₁ := by
    cases hgeneric : Signature.generic count with
    | ok s =>
      rw [hgeneric] at ht
      cases ht
      rfl
    | error e =>
      rw [hgeneric] at ht
      cases ht
  refine ⟨t, ?_⟩
  -- only the error of a failure is another
  have hcaught : EStateM.tryCatch (h.asType G t) _ m = .ok k m' := hcaught
  unfold EStateM.tryCatch at hcaught
  cases htype : h.asType G t m with
  | ok k' n =>
    rw [htype] at hcaught
    exact hcaught
  | error e n =>
    rw [htype] at hcaught
    cases hcaught

theorem Machine.Registers.shielded_asType {G : ClassGraph} (hm : m.Registers G T hs) (hh : h ∈ hs)
    (hshielded : h.Shielded G c) {new : Signature} (hmade : h.asType G new m = .ok k m') :
    k.Shielded G c := by
  obtain ⟨T', -, hstep⟩ := Handle.registers_asType hh new m hm
  rw [hmade] at hstep
  exact hshielded.seenAs hstep.2

/-- In whatever form a shielded handle is called, it is restricted. -/
theorem Handle.Shielded.restricted (hshielded : h.Shielded P.graph c) (hm : m.Registers P.graph T hs)
    (hh : h ∈ hs) : h.Restricted P c m := by
  intro depth args form
  have hadapted : ∀ (x : Link Handle) (vs : List Value),
      (∀ k m', x m = .ok k m' → k.Shielded P.graph c) →
      (Run.link x >>= fun k => k.callExact P (invokeRestricted P c depth) vs) m =
        (Run.link x >>= fun k => k.callExact P (invokeBasic P depth) vs) m := by
    intro x vs hx
    show EStateM.bind (Run.link x) _ m = EStateM.bind (Run.link x) _ m
    unfold EStateM.bind Run.link
    cases hxm : x m with
    | ok k m' => exact congrFun ((hx k m' hxm).callExact depth vs) m'
    | error e m' => rfl
  cases form with
  | exact => exact congrFun (hshielded.callExact depth args) m
  | as caller =>
    unfold callThrough
    dsimp only
    split
    · exact congrFun (hshielded.callExact depth args) m
    · exact hadapted _ args fun k m' hmade => hm.shielded_asType hh hshielded hmade
  | generic =>
    refine hadapted _ (args.map Value.boxed) fun k m' hmade => ?_
    obtain ⟨t, ht⟩ := asType_of_toGeneric hmade
    exact hm.shielded_asType hh hshielded ht

end Restricted

end HandleCalculus
