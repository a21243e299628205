import HandleCalculus.Proofs.AdaptedDispatch
import HandleCalculus.Proofs.FieldSlots

/-!
# Generic calls

A generic call boxes the arguments, adapts the handle to references and boxes what comes back. For a
handle of fixed arity this is the exact call once more: the arguments come back from their boxes before
anything runs, at most one more node stands in front of the handle, and the same bodies run to the same
end (`Handle.invokeGeneric_eq`). Only the answer looks different (`Value.generic`).

What it rests on is that the exact call keeps to the signature of the handle
(`Handle.AnswersTyped`), since a result that is declared to be a reference is passed on as it is. Calls
in a session do, as long as interfaces have no instance slots and members have numbers of their own
(`Session.invokeGeneric_agrees`).
-/

set_option autoImplicit false

namespace HandleCalculus

/-! ## Boxes -/

namespace ClassGraph.Parented

variable {G : ClassGraph} (hG : G.Parented)

include hG

/-- Whatever fits a type fits the root class, once it is in a box. -/
theorem fits_boxed {v : Value} {t : Ty} (hv : v.fits G t = true) :
    v.boxed.fits G .object = true := by
  have hobject : ∀ o : Object, (Value.obj o).fits G .object = true := by
    intro o
    have hreference : o.runtimeType.isReference = true := by cases o <;> rfl
    exact Value.fits_of_isAssignable (Value.fits_of_runtimeType rfl hreference)
      (hG.isAssignable_object hreference)
  cases v with
  | prim x => exact hobject (.boxed x.type (.prim x))
  | obj o => exact hobject o
  | null => rfl
  | void => cases t <;> cases hv

theorem fitAll_boxed {args : List Value} {ts : List Ty} (hargs : Value.fitAll G args ts = true) :
    Value.fitAll G (args.map Value.boxed) (List.replicate ts.length .object) = true := by
  induction ts generalizing args with
  | nil =>
    cases args with
    | nil => rfl
    | cons v vs => cases hargs
  | cons t ts ih =>
    cases args with
    | nil => cases hargs
    | cons v vs =>
      rw [Value.fitAll, Bool.and_eq_true] at hargs
      rw [List.map_cons, List.length_cons, List.replicate_succ, Value.fitAll, hG.fits_boxed hargs.1,
        ih hargs.2]
      rfl

end ClassGraph.Parented

/-! ## Results -/

/-- What a value looks like as the answer of a generic call: a primitive in its box, and null where there
is no value. -/
def Value.generic : Value → Value
  | void => null
  | v => v.boxed

theorem Value.generic_of_fits {G : ClassGraph} {v : Value} {t : Ty} (ht : t.isReference = true)
    (hv : v.fits G t = true) : v.generic = v := by
  rcases (fits_reference ht).1 hv with rfl | ⟨o, rfl, -⟩ <;> rfl

/-- A result is converted to the answer of a generic call. -/
theorem Conversion.apply_generic {G : ClassGraph} (hG : G.Parented) {t : Ty} {conv : Conversion}
    {v : Value} (hc : plan? G t .object = some conv) (hv : v.isResultOf G t = true) :
    conv.apply G v = .ok v.generic := by
  have hreference : t.isReference = true → conv.apply G v = .ok v.generic := by
    intro ht
    have hkeep : conv = keep := by
      unfold plan? at hc
      by_cases hsame : t = .object
      · rw [if_pos hsame] at hc
        exact (Option.some.inj hc).symm
      · rw [if_neg hsame] at hc
        cases t with
        | prim _ | void => cases ht
        | cls _ | array _ =>
          have hassign := hG.isAssignable_object ht
          exact (Option.some.inj ((if_pos hassign).symm.trans hc)).symm
    have hne : t ≠ .void := by
      rintro rfl
      cases ht
    rw [hkeep, Value.generic_of_fits ht (Value.isResultOf_of_ne hne ▸ hv)]
    rfl
  cases t with
  | void =>
    obtain rfl := Option.some.inj hc
    cases v with
    | void => rfl
    | _ => cases hv
  | prim p =>
    obtain rfl := Option.some.inj ((if_pos (G.isAssignable_wrapper_object p)).symm.trans hc)
    obtain ⟨x, rfl, -⟩ := (Value.fits_prim (G := G)).1 hv
    rfl
  | cls _ | array _ => exact hreference rfl

/-! ## The handle adapted -/

namespace Handle

variable {P : Program} {call : Caller} {h k : Handle} {args : List Value} {m : Machine}

/-- Whether the answer of a call keeps to the signature of the handle: it is a value of the result
type, or it is no internal error. -/
def AnswersTyped (G : ClassGraph) (h : Handle) : Except Stop Value → Prop
  | .ok v => v.isResultOf G h.type.ret = true
  | .error (.error e) => e.isInternal = false
  | .error _ => True

/-- How a generic call ends where the exact call ends in the way given: the answer looks different, what
has become of the machine is the same. -/
def generically (r : Except Stop Value × Store × Array Call) :
    Except Stop Value × Store × Array Call := (r.1.map Value.generic, r.2)

/-- Under another signature a handle does the same work, if the work does not end in an internal error
that tells the signature. -/
theorem perform_of_node (P : Program) (hnode : k.node = h.node) (args : List Value) :
    (∀ call, k.perform P call args = h.perform P call args) ∨
      ∀ call, h.perform P call args = Run.fail (.wrongThunk h.type h.variant) := by
  unfold perform
  rw [hnode]
  cases h.node with
  | setField f isStatic =>
    cases args.getLast? with
    | none => exact .inr fun _ => rfl
    | some v => exact .inl fun _ => rfl
  | collect target pos count array =>
    dsimp only
    cases array.component? with
    | none => exact .inr fun _ => rfl
    | some component => exact .inl fun _ => rfl
  | identity =>
    cases args with
    | nil => exact .inr fun _ => rfl
    | cons v vs => exact .inl fun _ => rfl
  | throwing =>
    cases args with
    | nil => exact .inr fun _ => rfl
    | cons v vs =>
      cases v with
      | obj _ | null => exact .inl fun _ => rfl
      | prim _ | void => exact .inr fun _ => rfl
  | _ => exact .inl fun _ => rfl

/-- The call of a handle under another signature ends as the call of the handle. -/
theorem seen_invokeBasic_of_node (hP : P.Blind) (hm : m.Keyed) {n : Machine} (hn : n.Keyed)
    (hmn : n.visible = m.visible) (hnode : k.node = h.node) (depth : Nat)
    (htyped : h.AnswersTyped P.graph ((h.invokeBasic P depth args).answer m)) :
    seen Machine.visible (k.invokeBasic P depth args n) =
      seen Machine.visible (h.invokeBasic P depth args m) := by
  rcases perform_of_node P hnode args with hsame | hinternal
  · exact (same_invokeBasic_of_perform hP hsame depth n m hn hm hmn).seen_eq
  · cases depth with
    | zero => exact Prod.ext rfl hmn
    | succ depth =>
      obtain ⟨m', -, -, hcall⟩ := hm.invokeVia P (invokeBasic P depth) h args
      unfold Run.answer at htyped
      rw [invokeBasic_succ, hcall, hinternal] at htyped
      cases htyped

/-- The call of a handle behind conversions of the arguments, which it takes back, and of the result. -/
theorem seen_invokeBasic_of_convert (hP : P.Blind) (hm : m.Keyed) {n : Machine} (hn : n.Keyed)
    (hmn : n.visible = m.visible) {cs : List Conversion} {ret : Conversion} {boxes : List Value}
    (hnode : k.node = .convert h cs ret)
    (hargs : ∀ asReceiver, convertArguments P.graph asReceiver boxes cs = .ok args) (depth : Nat)
    (hret : ∀ v m', h.invokeBasic P depth args m = .ok v m' → ret.apply P.graph v = .ok v.generic) :
    seen Machine.visible (k.invokeBasic P (depth + 1) boxes n) =
      generically (seen Machine.visible (h.invokeBasic P depth args m)) := by
  obtain ⟨n', hn', hvisible, hcall⟩ := hn.invokeVia P (invokeBasic P depth) k boxes
  have hmatch := same_invokeBasic_self hP depth h args n' m hn' hm (hvisible.trans hmn)
  rw [invokeBasic_succ, hcall]
  unfold perform
  simp only [hnode, hargs]
  show seen Machine.visible (EStateM.bind (h.invokeBasic P depth args) _ n') = _
  unfold EStateM.bind
  generalize h.invokeBasic P depth args n' = r at hmatch
  generalize h.invokeBasic P depth args m = r' at hmatch hret
  cases hmatch with
  | ok v visible _ _ =>
    simp only [hret v _ rfl]
    exact Prod.ext rfl visible
  | error e visible _ _ => exact Prod.ext rfl visible

/-- A reference looks the same as the answer of a generic call. -/
theorem generically_of_isReference (hret : h.type.ret.isReference = true)
    {r : EStateM.Result Stop Machine Value} (htyped : h.AnswersTyped P.graph (seen id r).1) :
    generically (seen Machine.visible r) = seen Machine.visible r := by
  cases r with
  | ok v n =>
    have hne : h.type.ret ≠ .void := by
      intro hvoid
      rw [hvoid] at hret
      cases hret
    have hv : v.fits P.graph h.type.ret = true := Value.isResultOf_of_ne hne ▸ htyped
    exact Prod.ext (congrArg Except.ok (Value.generic_of_fits hret hv)) rfl
  | error e n => rfl

/-- Between references nothing changes its looks: the call of a handle that differs in its signature
only. -/
theorem seen_invokeBasic_of_references (hP : P.Blind) (hm : m.Keyed) {n : Machine} (hn : n.Keyed)
    (hmn : n.visible = m.visible) (hnode : k.node = h.node)
    (hparams : ∀ t ∈ h.type.params, t.isReference = true) (hret : h.type.ret.isReference = true)
    (hargs : Value.fitAll P.graph args h.type.params = true) (depth : Nat)
    (htyped : h.AnswersTyped P.graph ((h.invokeBasic P depth args).answer m)) :
    seen Machine.visible (k.invokeBasic P depth (args.map Value.boxed) n) =
      generically (seen Machine.visible (h.invokeBasic P depth args m)) := by
  rw [Value.map_boxed hparams hargs, generically_of_isReference hret htyped]
  exact seen_invokeBasic_of_node hP hm hn hmn hnode depth htyped

/-- A generic call is a call of the handle adapted to references, with the arguments in boxes. Adapting
uses up identities, and that is all. -/
theorem exists_invokeGeneric_eq (hG : P.graph.Parented) (hfixed : h.isVarargs = false)
    (hargs : Value.fitAll P.graph args h.type.params = true)
    (hcount : h.type.arity ≤ maxGenericArguments) (m : Machine) : ∃ k new next,
      h.toGeneric P.graph args.length m = .ok k { m with nextStamp := next } ∧
        h.convertTo P.graph m.nextStamp new = .ok k ∧
          new.params = List.replicate h.type.params.length .object ∧ new.ret = .object ∧
            ∀ depth, h.invokeGeneric P depth args m =
              k.invokeBasic P depth (args.map Value.boxed) { m with nextStamp := next } := by
  obtain ⟨k, new, m', hgeneric, hk, hmade, hnew, hobject⟩ := exists_toGeneric hfixed hcount m
  obtain ⟨-, next, rfl⟩ := asType_of_fixed hfixed hmade
  have hlength : h.type.params.length = args.length := (Value.length_eq_of_fitAll hargs).symm
  rw [hlength] at hgeneric
  have hcheck : k.type.check P.graph (args.map Value.boxed) = .ok () := by
    refine Signature.check_eq_ok_iff.2 ?_
    rw [type_of_convertTo hk, hnew]
    exact hG.fitAll_boxed hargs
  refine ⟨k, new, next, hgeneric, hk, hnew, hobject, fun depth => ?_⟩
  have hlink : Run.link (h.toGeneric P.graph args.length) m =
      .ok k { m with nextStamp := next } := by simp [Run.link, hgeneric]
  refine (bind_eq_of_ok hlink _).trans ?_
  rw [invokeExact_of_check hcheck]

/-- **A generic call is the exact call in boxes.** A handle of fixed arity with few enough
arguments can always be adapted, and then does what the exact call does, at most one level deeper, if that
keeps to the signature. -/
theorem invokeGeneric_eq (hP : P.Blind) (hG : P.graph.Parented) (hm : m.Keyed)
    (hfixed : h.isVarargs = false) (hargs : Value.fitAll P.graph args h.type.params = true)
    (hcount : h.type.arity ≤ maxGenericArguments) :
    (∃ k n, h.toGeneric P.graph args.length m = .ok k n) ∧ ∃ extra ≤ 1, ∀ depth,
      h.AnswersTyped P.graph ((h.invokeExact P depth args).answer m) →
        seen Machine.visible (h.invokeGeneric P (depth + extra) args m) =
          generically (seen Machine.visible (h.invokeExact P depth args m)) := by
  obtain ⟨k, new, next, hgeneric, hk, hnew, hobject, hcall⟩ :=
    exists_invokeGeneric_eq hG hfixed hargs hcount m
  refine ⟨⟨k, _, hgeneric⟩, ?_⟩
  simp only [hcall, invokeExact_of_check (Signature.check_eq_ok_iff.2 hargs)]
  have hn : Machine.Keyed { m with nextStamp := next } := ⟨hm.table, hm.idle, hm.cells⟩
  have hreferences : ∀ t ∈ new.params, t.isReference = true := by
    intro t ht
    rw [hnew] at ht
    rw [List.eq_of_mem_replicate ht]
    rfl
  have hreference : new.ret.isReference = true := by
    rw [hobject]
    rfl
  rcases convertTo_eq_ok hk with rfl | ⟨cs, ret, hlen, hcs, hret, ⟨hkeep, hkeepRet, hretype⟩ | rfl⟩
  · -- the handle takes and answers references already
    have htype := type_of_convertTo hk
    exact ⟨0, Nat.zero_le _, seen_invokeBasic_of_references hP hm hn rfl rfl (htype ▸ hreferences)
      (htype ▸ hreference) hargs⟩
  · -- so does the one that only gets another signature
    have hparams := ClassGraph.isReference_of_forall₂ (forall₂_of_plans? hlen hcs hkeep) hreferences
    have hresult := ClassGraph.isReference_of_isAssignable (isAssignable_of_plan? hret hkeepRet)
    exact ⟨0, Nat.zero_le _, seen_invokeBasic_of_references hP hm hn rfl (retype_eq_ok hretype).1
      hparams (hresult ▸ hreference) hargs⟩
  · -- a node of conversions is one level more
    rw [hnew] at hcs
    refine ⟨1, Nat.le_refl _, fun depth htyped => ?_⟩
    refine seen_invokeBasic_of_convert hP hm hn rfl rfl
      (convertArguments_boxed h.type.noVoid hargs hcs) depth fun v n hv => ?_
    unfold Run.answer at htyped
    rw [hv] at htyped
    exact Conversion.apply_generic hG (hobject ▸ hret) htyped

end Handle

/-! ## Generic calls in a session -/

/-- In a session calls keep to the signatures of the handles. -/
theorem Session.answersTyped {P : Program} (hG : P.graph.MembersNumbered)
    (hI : P.graph.InterfacesBare) {m : Machine} {hs : List Handle} (hS : Session P.graph m hs)
    (hP : P.Honest hs) {h : Handle} (hh : h ∈ hs) {args : List Value}
    (hlive : Value.AllLive m.store.live args) (depth : Nat) :
    h.AnswersTyped P.graph ((h.invokeExact P depth args).answer m) := by
  obtain ⟨hm, hhs⟩ := hS.typed hG hI
  obtain ⟨-, hends⟩ := Handle.sound_invokeExact hG hI hP hhs depth (hhs h hh) hlive m hm
  unfold Run.answer
  generalize h.invokeExact P depth args m = r at hends
  cases r with
  | ok v n =>
    obtain ⟨W, -, -, hv⟩ := hends
    exact hv.result
  | error e n =>
    cases e with
    | error e =>
      obtain ⟨W, -, -, he⟩ := hends
      exact he.internal
    | fault v => exact trivial
    | exhausted => exact trivial

/-- **Generic calls agree with exact calls.** A handle made in a session that is of fixed arity and takes
no more arguments than a generic call may pass can always be adapted. Where the exact call keeps to its
signature, the generic one answers the same value in a box, or null for none, or fails with the same
error, and the same bodies run, at most one level deeper. Exact calls do keep to their signatures
where bodies do, interfaces have no instance slots and members have numbers of their own. -/
theorem Session.invokeGeneric_agrees {P : Program} (hG : P.graph.Parented) (hB : P.Blind)
    {m : Machine} {hs : List Handle} (hS : Session P.graph m hs) {h : Handle} (hh : h ∈ hs)
    (hfixed : h.isVarargs = false) (hcount : h.type.arity ≤ maxGenericArguments) {args : List Value}
    (hlive : Value.AllLive m.store.live args)
    (hargs : Value.fitAll P.graph args h.type.params = true) :
    (∃ k n, h.toGeneric P.graph args.length m = .ok k n) ∧ ∃ extra ≤ 1, ∀ depth,
      (h.AnswersTyped P.graph ((h.invokeExact P depth args).answer m) →
        seen Machine.visible (h.invokeGeneric P (depth + extra) args m) =
          Handle.generically (seen Machine.visible (h.invokeExact P depth args m))) ∧
      (P.graph.MembersNumbered → P.graph.InterfacesBare → P.Honest hs →
        h.AnswersTyped P.graph ((h.invokeExact P depth args).answer m)) := by
  obtain ⟨hadapts, extra, hextra, hagrees⟩ :=
    Handle.invokeGeneric_eq hB hG hS.keyed hfixed hargs hcount
  exact ⟨hadapts, extra, hextra, fun depth =>
    ⟨hagrees depth, fun hN hI hP => hS.answersTyped hN hI hP hh hlive depth⟩⟩

/-! ## A field read from the slot of another one -/

/-- The class `p/A`, an interface `p/I` with an instance field `x` for an instance of it, and a class
`p/B` below the interface with an `int` field `y`. -/
def ClassGraph.shared : ClassGraph where
  defined := #[
    ⟨"p/A", ⟨0x0001⟩, .bootstrap, some ClassId.object, [], [], []⟩,
    ⟨"p/I", ⟨0x0601⟩, .bootstrap, some ClassId.object, [], [],
      [⟨"x", .cls bootstrapCount, ⟨0x0001⟩⟩]⟩,
    ⟨"p/B", ⟨0x0001⟩, .bootstrap, some ClassId.object, [bootstrapCount + 1], [],
      [⟨"y", .prim .int, ⟨0x0001⟩⟩]⟩]
  older := ClassGraph.older_of_lt (by decide)

/-- On a new instance of `p/B` the getter of `y` answers a zero, and a boxed one if it is called
generically. The getter of `x` reads the same slot, so that it answers what is no instance of `p/A`. -/
theorem Session.invokeGeneric_agrees_of_shared : ∃ (m : Machine) (x y : Handle) (args : List Value),
    Session .shared m [y, x] ∧
      (∃ extra ≤ 1, (y.invokeGeneric (.zeros .shared) (1 + extra) args).answer m =
        .ok (.boxed (.prim (.int 0)))) ∧
      (x.invokeExact (.zeros .shared) 1 args).answer m = .ok (.prim (.int 0)) ∧
      x.type.ret = .cls bootstrapCount := by
  obtain ⟨m, hS, hlive, hslot⟩ : ∃ m, Session .shared m
      [.getter 2 (bootstrapCount + 2) (.prim .int),
        .getter 0 (bootstrapCount + 1) (.cls bootstrapCount)] ∧
      m.store.live = [bootstrapCount + 2] ∧
      m.store.slot? (.ofInstance 0 0) = some (.prim (.int 0)) := by
    have hstart := Session.start true
      ((Store.Holds.initial .shared).newInstance (bootstrapCount + 2)).1 rfl
    have hx := @Session.made .shared _ _ _
      (.member .initial .trustedLookup (.findGetter (bootstrapCount + 1) "x" (.cls bootstrapCount)))
      (.getter 0 (bootstrapCount + 1) (.cls bootstrapCount))
      hstart ⟨nofun, trivial, fun t l op hop => by
        obtain rfl := (Making.member.inj hop).2.2
        exact trivial⟩ rfl
    have hy := @Session.made .shared _ _ _
      (.member .initial .trustedLookup (.findGetter (bootstrapCount + 2) "y" (.prim .int)))
      (.getter 2 (bootstrapCount + 2) (.prim .int))
      hx ⟨nofun, trivial, fun t l op hop => by
        obtain rfl := (Making.member.inj hop).2.2
        exact trivial⟩ rfl
    exact ⟨_, hy, rfl, rfl⟩
  have hread : ∀ (h : Handle) (f : FieldRef) (a : AccessId), h.node = .getField f false a →
      ClassGraph.shared.fieldOffset f = 0 →
      h.type.check .shared [.obj (.inst 0 (bootstrapCount + 2))] = .ok () →
      (h.invokeExact (.zeros .shared) 1 [.obj (.inst 0 (bootstrapCount + 2))]).answer m =
        .ok (.prim (.int 0)) := by
    intro h f a hnode hoffset hcheck
    refine hS.keyed.getter_of_slot (P := .zeros .shared) hnode hcheck rfl ?_
    show m.store.slot? (.ofInstance 0 (ClassGraph.shared.fieldOffset f)) = _
    rw [hoffset, hslot]
  have hlives : Value.AllLive m.store.live [.obj (.inst 0 (bootstrapCount + 2))] := by
    rw [hlive]
    exact ⟨rfl, trivial⟩
  obtain ⟨-, extra, hextra, hagrees⟩ := Session.invokeGeneric_agrees (P := .zeros .shared)
    (ClassGraph.parented_of_defined (by decide)) (fun _ _ => .pure _) hS List.mem_cons_self rfl
    (Nat.le_of_ble_eq_true rfl) hlives rfl
  have hy := hread (.getter 2 (bootstrapCount + 2) (.prim .int)) _ _ rfl rfl rfl
  have hgeneric := (hagrees 1).1 (by rw [hy]; rfl)
  refine ⟨m, _, _, _, hS, ⟨extra, hextra, ?_⟩,
    hread (.getter 0 (bootstrapCount + 1) (.cls bootstrapCount)) _ _ rfl rfl rfl, rfl⟩
  rw [Run.answer_eq Machine.visible, hgeneric, Handle.generically, ← Run.answer_eq Machine.visible, hy]
  rfl

end HandleCalculus
