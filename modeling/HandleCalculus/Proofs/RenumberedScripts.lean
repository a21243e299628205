import HandleCalculus.Proofs.RenumberedCalls

/-!
# Scripts on renumbered machines

A script can ask whether two values are the same, and retargeting a call site asks whether two handles are
equivalent. Both answers stay as they are if different numbers are replaced by different ones. The values
and handles that stand in a script stay where they are, so renumbering must leave those alone
(`Script.Fixed`). Then no script looks at a number (`World.unnumbered_program`).
-/

set_option autoImplicit false

namespace HandleCalculus

variable {r : Nat → Nat}

/-! ## Different values stay different -/

mutual

theorem Object.eq_of_renumber_eq (hr : Function.Injective r) :
    ∀ {a b : Object}, a.renumber r = b.renumber r → a = b
  | .array i c es, b, h => by
    cases b with
    | array j d fs =>
      obtain ⟨hi, rfl, hes⟩ := Object.array.inj h
      rw [hr hi, Value.eq_of_renumberAll_eq hr hes]
    | _ => cases h
  | .throwable i c msg, b, h => by
    cases b with
    | throwable j d msg' =>
      obtain ⟨hi, rfl, rfl⟩ := Object.throwable.inj h
      rw [hr hi]
    | _ => cases h
  | .str s, b, h => by cases b <;> first | exact h | cases h
  | .boxed p v, b, h => by
    cases b with
    | boxed q w =>
      obtain ⟨rfl, hcontent⟩ := Object.boxed.inj h
      rw [Value.eq_of_renumber_eq hr hcontent]
    | _ => cases h
  | .inst i c, b, h => by cases b <;> first | exact h | cases h

theorem Value.eq_of_renumber_eq (hr : Function.Injective r) :
    ∀ {v w : Value}, v.renumber r = w.renumber r → v = w
  | .obj a, w, h => by
    cases w with
    | obj b => rw [Object.eq_of_renumber_eq hr (Value.obj.inj h)]
    | _ => cases h
  | .prim s, w, h => by cases w <;> first | exact h | cases h
  | .null, w, h => by cases w <;> first | exact h | cases h
  | .void, w, h => by cases w <;> first | exact h | cases h

theorem Value.eq_of_renumberAll_eq (hr : Function.Injective r) :
    ∀ {vs ws : List Value}, Value.renumberAll r vs = Value.renumberAll r ws → vs = ws
  | [], ws, h => by
    cases ws with
    | nil => rfl
    | cons w ws => cases h
  | v :: vs, ws, h => by
    cases ws with
    | nil => cases h
    | cons w ws =>
      obtain ⟨hv, hvs⟩ := List.cons.inj h
      rw [Value.eq_of_renumber_eq hr hv, Value.eq_of_renumberAll_eq hr hvs]

end

mutual

theorem Object.same_renumber (hr : Function.Injective r) :
    ∀ a b : Object, (a.renumber r).same (b.renumber r) = a.same b
  | .boxed p v, b => by
    cases b with
    | boxed q w => exact Value.same_renumber hr v w
    | _ => rfl
  | .str _, b | .array .., b | .throwable .., b | .inst .., b => by
    show ((_ : Object).renumber r == b.renumber r) = (_ == b)
    rw [beq_eq_decide, beq_eq_decide]
    exact decide_eq_decide.2 ⟨Object.eq_of_renumber_eq hr, congrArg _⟩

/-- Values stay the same, or not. -/
theorem Value.same_renumber (hr : Function.Injective r) :
    ∀ v w : Value, (v.renumber r).same (w.renumber r) = v.same w
  | .obj a, w => by
    cases w with
    | obj b => exact Object.same_renumber hr a b
    | _ => rfl
  | .prim _, w | .null, w | .void, w => by cases w <;> rfl

end

theorem Value.isEqv_map_renumber (hr : Function.Injective r) (vs ws : List Value) :
    (vs.map (Value.renumber r)).isEqv (ws.map (Value.renumber r)) Value.same =
      vs.isEqv ws Value.same := by
  induction vs generalizing ws with
  | nil => cases ws <;> rfl
  | cons v vs ih =>
    cases ws with
    | nil => rfl
    | cons w ws => simp only [List.map_cons, List.isEqv, Value.same_renumber hr, ih]

/-! ## Equivalent handles stay equivalent -/

mutual

theorem Handle.equivalent_renumber (hr : Function.Injective r) :
    ∀ h k : Handle, (h.renumber r).equivalent (k.renumber r) = h.equivalent k
  | ⟨_, s, m⟩, ⟨_, t, n⟩ => by
    show (s == t && (m.renumber r).equivalent (n.renumber r)) = (s == t && m.equivalent n)
    rw [Node.equivalent_renumber hr m n]

theorem Node.equivalent_renumber (hr : Function.Injective r) :
    ∀ m n : Node Handle, (m.renumber r).equivalent (n.renumber r) = m.equivalent n
  | .insert h _ vs, n => by
    cases n with
    | insert k _ ws =>
      simp only [Node.renumber, Node.equivalentBy, Handle.equivalent_renumber hr h k,
        Value.isEqv_map_renumber hr vs ws]
    | _ => rfl
  | .permute h _, n => by
    cases n with
    | permute k _ => simp only [Node.renumber, Node.equivalentBy, Handle.equivalent_renumber hr h k]
    | _ => rfl
  | .collect h _ _ _, n => by
    cases n with
    | collect k _ _ _ => simp only [Node.renumber, Node.equivalentBy, Handle.equivalent_renumber hr h k]
    | _ => rfl
  | .spread h _ _ _, n => by
    cases n with
    | spread k _ _ _ => simp only [Node.renumber, Node.equivalentBy, Handle.equivalent_renumber hr h k]
    | _ => rfl
  | .filterArgs h _ fs, n => by
    cases n with
    | filterArgs k _ gs =>
      simp only [Node.renumber, Node.equivalentBy, Handle.equivalent_renumber hr h k,
        Filters.equivalent_renumber hr fs gs]
    | _ => rfl
  | .filterReturn h f, n => by
    cases n with
    | filterReturn k g =>
      simp only [Node.renumber, Node.equivalentBy, Handle.equivalent_renumber hr h k,
        Handle.equivalent_renumber hr f g]
    | _ => rfl
  | .fold h _ c, n => by
    cases n with
    | fold k _ d =>
      simp only [Node.renumber, Node.equivalentBy, Handle.equivalent_renumber hr h k,
        Handle.equivalent_renumber hr c d]
    | _ => rfl
  | .guarded c h f, n => by
    cases n with
    | guarded d k g =>
      simp only [Node.renumber, Node.equivalentBy, Handle.equivalent_renumber hr c d,
        Handle.equivalent_renumber hr h k, Handle.equivalent_renumber hr f g]
    | _ => rfl
  | .catching h _ e, n => by
    cases n with
    | catching k _ f =>
      simp only [Node.renumber, Node.equivalentBy, Handle.equivalent_renumber hr h k,
        Handle.equivalent_renumber hr e f]
    | _ => rfl
  | .convert h _ _, n => by
    cases n with
    | convert k _ _ => simp only [Node.renumber, Node.equivalentBy, Handle.equivalent_renumber hr h k]
    | _ => rfl
  | .varargs h _ _, n => by
    cases n with
    | varargs k _ _ => simp only [Node.renumber, Node.equivalentBy, Handle.equivalent_renumber hr h k]
    | _ => rfl
  | .constant v, n => by
    cases n with
    | constant w =>
      exact Value.same_renumber hr v w
    | _ => rfl
  | .direct .., n | .virtual .., n | .getField .., n | .setField .., n | .identity, n
  | .throwing, n | .invoker .., n | .unlinked .., n => by cases n <;> rfl

theorem Filters.equivalent_renumber (hr : Function.Injective r) : ∀ fs gs : List (Option Handle),
    Filters.equivalent (Filters.renumber r fs) (Filters.renumber r gs) = Filters.equivalent fs gs
  | [], gs => by
    cases gs with
    | nil => rfl
    | cons g gs => cases g <;> rfl
  | none :: fs, gs => by
    cases gs with
    | nil => rfl
    | cons g gs =>
      cases g with
      | none => exact Filters.equivalent_renumber hr fs gs
      | some g => rfl
  | some f :: fs, gs => by
    cases gs with
    | nil => rfl
    | cons g gs =>
      cases g with
      | none => rfl
      | some g =>
        show ((f.renumber r).equivalent (g.renumber r) &&
          Filters.equivalent (Filters.renumber r fs) (Filters.renumber r gs)) =
            (f.equivalent g && Filters.equivalent fs gs)
        rw [Handle.equivalent_renumber hr f g, Filters.equivalent_renumber hr fs gs]

end

/-! ## Call sites -/

section Sites

variable (hr : Function.Injective r)

include hr

theorem CallSite.setTarget_renumber (site : CallSite) (h : Handle) :
    (site.renumber r).setTarget (h.renumber r) =
      mapBoth (Error.renumber r) (fun p => (p.1.renumber r, p.2)) (site.setTarget h) := by
  have hequivalent : (site.renumber r).isEquivalentTo (h.renumber r) = site.isEquivalentTo h := by
    unfold isEquivalentTo renumber
    cases site.target with
    | none => rfl
    | some k =>
      simp only [Option.map_some, Handle.isEquivalent_eq]
      exact Handle.equivalent_renumber hr k h
  have hcheck : (site.renumber r).checkTarget (h.renumber r) =
      mapBoth (Error.renumber r) id (site.checkTarget h) := by
    unfold checkTarget
    rw [h.type_renumber]
    show (if h.type = site.type then _ else _) = _
    split <;> rfl
  unfold setTarget
  rw [hequivalent, hcheck]
  show (if site.kind = .constant then _ else _) = _
  split
  · rfl
  · cases site.checkTarget h with
    | error e => rfl
    | ok u =>
      dsimp only [mapBoth]
      split <;> rfl

theorem Store.setTarget_renumber (s : Store) (id : SiteId) (h : Handle) :
    (s.renumber r).setTarget id (h.renumber r) =
      mapBoth (Error.renumber r) (Store.renumber r) (s.setTarget id h) := by
  unfold setTarget
  rw [show (s.renumber r).sites[id]? = s.sites[id]?.map (CallSite.renumber r) from Array.getElem?_map]
  cases s.sites[id]? with
  | none => rfl
  | some site =>
    dsimp only [Option.map_some]
    rw [site.setTarget_renumber hr]
    cases site.setTarget h with
    | error e => rfl
    | ok p => simp [mapBoth, renumber, report, CallSite.renumber]

theorem Store.writes_setTarget (id : SiteId) (h : Handle) :
    Store.Writes r (·.setTarget id h) (·.setTarget id (h.renumber r)) := by
  refine .of_eq (fun s => s.setTarget_unlogged id _) (fun s => s.setTarget_renumber hr id h) ?_
  intro s s' hset
  unfold setTarget at hset
  split at hset
  · cases hset
  · split at hset
    · cases hset
    · cases hset
      rfl

end Sites

/-! ## Scripts -/

namespace Script

mutual

/-- Whether renumbering leaves the values and the handles that stand in a script as they are. -/
def Fixed (r : Nat → Nat) : Script → Prop
  | .val v => v.renumber r = v
  | .retarget _ h => h.renumber r = h
  | .str es | .seq es | .array _ es => FixedAll r es
  | .add a b | .mul a b | .addLong a b | .less a b | .same a b | .set a _ b => Fixed r a ∧ Fixed r b
  | .cond c a b => Fixed r c ∧ Fixed r a ∧ Fixed r b
  | .isInstance e _ | .get e _ | .sum e | .length e | .box e | .throw _ e | .raise e | .message e
  | .className e | .upper e | .endsWith e _ => Fixed r e
  | .arg _ | .new _ | .malformed => True
termination_by structural e => e

def FixedAll (r : Nat → Nat) : List Script → Prop
  | [] => True
  | e :: es => Fixed r e ∧ FixedAll r es
termination_by structural es => es

end

/-- Whether a computation of a body is another one renumbered. -/
def Renumbers {α : Type} (r : Nat → Nat) (g : α → α) (x y : Eval α) : Prop :=
  Mirrors (Store.Renumbered r) (Object.renumber r) g x y

variable {α β : Type} {g : α → α} {k : β → β} {G : ClassGraph}

namespace Renumbers

theorem pure (a : α) : Renumbers r g (Pure.pure a) (Pure.pure (g a)) := Mirrors.pure a

theorem bind {x y : Eval α} {f f' : α → Eval β} (hx : Renumbers r g x y)
    (hf : ∀ a, Renumbers r k (f a) (f' (g a))) : Renumbers r k (x >>= f) (y >>= f') := Mirrors.bind hx hf

theorem alloc {f f' : Store → Object × Store} (h : ∀ s t, s.Renumbered r t →
      (f' t).1 = (f s).1.renumber r ∧ (f s).2.Renumbered r (f' t).2) :
    Renumbers r (Object.renumber r) (Script.alloc f) (Script.alloc f') := by
  intro s t hst
  obtain ⟨hobject, hstore⟩ := h s t hst
  show Mirrored _ _ _ (.ok (f s).1 (f s).2) (.ok (f' t).1 (f' t).2)
  rw [hobject]
  exact .ok _ hstore

theorem throwNew (c : ClassId) (msg : String) :
    Renumbers r g (Script.throwNew c msg) (Script.throwNew c msg) :=
  .bind (.alloc fun _ _ hst => hst.newThrowable c _) fun o => Mirrors.throw o

theorem orBad {a? b? : Option α} (h : b? = a?.map g) :
    Renumbers r g (Script.orBad a?) (Script.orBad b?) := by
  subst h
  cases a? with
  | none => exact throwNew _ _
  | some a => exact .pure a

/-- What does not depend on numbers is there or not. -/
theorem orBad_same {a? b? : Option α} (h : b? = a?) :
    Renumbers r id (Script.orBad a?) (Script.orBad b?) :=
  .orBad (by rw [h, Option.map_id, id])

/-- Answering what is read from a slot, or failing. -/
theorem read {x x' : Store → Except Error Value}
    (hx : ∀ s t, s.Renumbered r t → x' t = mapBoth (Error.renumber r) (Value.renumber r) (x s)) :
    Renumbers r (Value.renumber r)
      (EStateM.get >>= fun s => match x s with
        | .ok v => Pure.pure v
        | .error _ => bad)
      (EStateM.get >>= fun s => match x' s with
        | .ok v => Pure.pure v
        | .error _ => bad) := by
  intro s t hst
  show Mirrored _ _ _
    ((match x s with
      | .ok v => Pure.pure v
      | .error _ => bad : Eval Value) s)
    ((match x' t with
      | .ok v => Pure.pure v
      | .error _ => bad : Eval Value) t)
  rw [hx s t hst]
  cases x s with
  | ok v => exact .ok v hst
  | error e => exact throwNew _ _ s t hst

/-- Writing what a step on the store comes to, or failing. -/
theorem update {f f' : Store → Except Error Store} {next next' refused refused' : Eval α}
    (hf : Store.Writes r f f') (hnext : Renumbers r g next next')
    (hrefused : Renumbers r g refused refused') :
    Renumbers r g
      (EStateM.get >>= fun s => match f s with
        | .ok s => EStateM.set s >>= fun _ => next
        | .error _ => refused)
      (EStateM.get >>= fun s => match f' s with
        | .ok s => EStateM.set s >>= fun _ => next'
        | .error _ => refused') := by
  intro s t hst
  show Mirrored _ _ _
    ((match f s with
      | .ok s => EStateM.set s >>= fun _ => next
      | .error _ => refused) s)
    ((match f' t with
      | .ok s => EStateM.set s >>= fun _ => next'
      | .error _ => refused') t)
  rcases hf s t hst with ⟨s', t', hs, ht, hst'⟩ | ⟨e, hs, ht⟩
  · rw [hs, ht]
    exact hnext s' t' hst'
  · rw [hs, ht]
    exact hrefused s t hst

end Renumbers

/-! ### What scripts look at -/

variable (v : Value)

theorem int?_renumber : int? (v.renumber r) = int? v := by cases v <;> rfl

theorem long?_renumber : long? (v.renumber r) = long? v := by cases v <;> rfl

theorem boolean?_renumber : boolean? (v.renumber r) = boolean? v := by cases v <;> rfl

theorem string?_renumber : string? (v.renumber r) = string? v := by
  cases v with
  | obj o => cases o <;> rfl
  | _ => rfl

theorem plainText_renumber : plainText G (v.renumber r) = plainText G v := by
  cases v with
  | obj o =>
    cases o with
    | str s => rfl
    | _ => exact congrArg Text.maskIdentities (Object.text_renumber _)
  | _ => rfl

theorem elements?_renumber : elements? (v.renumber r) = (elements? v).map (List.map (Value.renumber r)) := by
  unfold elements?
  rw [v.object?_renumber]
  cases v.object? with
  | none => rfl
  | some o => exact o.elements?_renumber

theorem sumInts?_renumber (vs : List Value) : sumInts? (vs.map (Value.renumber r)) = sumInts? vs := by
  induction vs with
  | nil => rfl
  | cons v vs ih => rw [List.map_cons, sumInts?, sumInts?, int?_renumber, ih]

theorem texts_renumber (vs : List Value) :
    (vs.map (Value.renumber r)).map (plainText G) = vs.map (plainText G) := by
  rw [List.map_map]
  exact List.map_congr_left fun v _ => plainText_renumber v

theorem getLast_renumber (vs : List Value) : (vs.map (Value.renumber r)).getLast?.getD .void =
    (vs.getLast?.getD .void).renumber r := by
  rw [List.getLast?_map]
  cases vs.getLast? <;> rfl

theorem any_isInstance_renumber (t : Ty) : (v.renumber r).object?.any (·.isInstance G t) =
    v.object?.any (·.isInstance G t) := by
  rw [v.object?_renumber]
  cases v.object? with
  | none => rfl
  | some o => exact o.isInstance_renumber t

mutual

/-- No script looks at numbers. -/
theorem renumbers_eval (hr : Function.Injective r) (G : ClassGraph) (args : List Value) :
    ∀ e : Script, e.Fixed r →
      Renumbers r (Value.renumber r) (eval G args e) (eval G (args.map (Value.renumber r)) e)
  | .arg i, _ => .orBad List.getElem?_map
  | .val v, h => by
    have hv := Renumbers.pure (r := r) (g := Value.renumber r) v
    rwa [h] at hv
  | .str parts, h =>
    .bind (renumbers_evalAll hr G args parts h) fun vs => by
      rw [texts_renumber]
      exact .pure (Value.string _)
  | .add a b, h | .mul a b, h | .less a b, h =>
    .bind (renumbers_eval hr G args a h.1) fun v => .bind (.orBad_same (int?_renumber v)) fun _ =>
      .bind (renumbers_eval hr G args b h.2) fun w => .bind (.orBad_same (int?_renumber w)) fun _ =>
        .pure (Value.prim _)
  | .addLong a b, h =>
    .bind (renumbers_eval hr G args a h.1) fun v => .bind (.orBad_same (long?_renumber v)) fun _ =>
      .bind (renumbers_eval hr G args b h.2) fun w => .bind (.orBad_same (long?_renumber w)) fun _ =>
        .pure (Value.prim _)
  | .same a b, h =>
    .bind (renumbers_eval hr G args a h.1) fun v => .bind (renumbers_eval hr G args b h.2) fun w => by
      rw [Value.same_renumber hr]
      exact .pure (Value.prim _)
  | .isInstance e t, h =>
    .bind (renumbers_eval hr G args e h) fun v => by
      rw [any_isInstance_renumber]
      exact .pure (Value.prim _)
  | .cond c a b, h =>
    .bind (renumbers_eval hr G args c h.1) fun v => .bind (.orBad_same (boolean?_renumber v)) fun b' => by
      cases b' with
      | true => exact renumbers_eval hr G args a h.2.1
      | false => exact renumbers_eval hr G args b h.2.2
  | .seq parts, h =>
    .bind (renumbers_evalAll hr G args parts h) fun vs => by
      rw [getLast_renumber]
      exact .pure _
  | .get o slot, h =>
    .bind (renumbers_eval hr G args o h) fun v => .bind (.orBad v.object?_renumber) fun target =>
      .read fun _ _ hst => hst.readField_eq target slot
  | .set o slot e, h =>
    .bind (renumbers_eval hr G args o h.1) fun v => .bind (.orBad v.object?_renumber) fun target =>
      .bind (renumbers_eval hr G args e h.2) fun w =>
        .update (Store.writes_writeField target slot w)
          (.pure Value.void) (.bind (.throwNew (g := id) _ _) fun _ => .pure Value.void)
  | .sum e, h =>
    .bind (renumbers_eval hr G args e h) fun v => by
      have hsum : (elements? (v.renumber r)).bind sumInts? = (elements? v).bind sumInts? := by
        rw [elements?_renumber]
        cases elements? v with
        | none => rfl
        | some es => exact sumInts?_renumber es
      exact .bind (.orBad_same hsum) fun _ => .pure (Value.prim _)
  | .length e, h =>
    .bind (renumbers_eval hr G args e h) fun v => .bind (.orBad (elements?_renumber v)) fun es => by
      rw [List.length_map]
      exact .pure (Value.prim _)
  | .box e, h =>
    .bind (renumbers_eval hr G args e h) fun v => by
      rw [v.boxed_renumber]
      exact .pure _
  | .new c, _ => .bind (.alloc fun _ _ hst => hst.newInstance G c) fun o => .pure (Value.obj o)
  | .array component elems, h =>
    .bind (renumbers_evalAll hr G args elems h) fun vs =>
      .bind (.alloc fun _ _ hst => hst.newArray component vs) fun o => .pure (Value.obj o)
  | .throw c msg, h =>
    .bind (renumbers_eval hr G args msg h) fun v => by
      rw [plainText_renumber]
      exact .throwNew c _
  | .raise e, h =>
    .bind (renumbers_eval hr G args e h) fun v => .bind (.orBad v.object?_renumber) fun o =>
      Mirrors.throw o
  | .message e, h =>
    .bind (renumbers_eval hr G args e h) fun v => .bind (.orBad v.object?_renumber) fun o => by
      rw [o.message?_renumber]
      cases o.message? with
      | some msg => exact .pure (Value.string _)
      | none => exact .pure Value.null
  | .className e, h =>
    .bind (renumbers_eval hr G args e h) fun v => .bind (.orBad v.object?_renumber) fun o => by
      rw [o.cls_renumber]
      exact .pure (Value.string _)
  | .retarget site target, h =>
    .update (by
        have hset := Store.writes_setTarget hr site target
        rwa [h] at hset) (.pure (Value.prim _)) (.pure (Value.prim _))
  | .upper e, h =>
    .bind (renumbers_eval hr G args e h) fun v => .bind (.orBad_same (string?_renumber v)) fun _ =>
      .pure (Value.string _)
  | .endsWith e c, h =>
    .bind (renumbers_eval hr G args e h) fun v => .bind (.orBad_same (string?_renumber v)) fun _ =>
      .pure (Value.prim _)
  | .malformed, _ => .throwNew _ _

theorem renumbers_evalAll (hr : Function.Injective r) (G : ClassGraph) (args : List Value) :
    ∀ es : List Script, FixedAll r es →
      Renumbers r (List.map (Value.renumber r)) (evalAll G args es)
        (evalAll G (args.map (Value.renumber r)) es)
  | [], _ => .pure []
  | e :: es, h =>
    .bind (renumbers_eval hr G args e h.1) fun v =>
      .bind (renumbers_evalAll hr G args es h.2) fun vs => .pure (v :: vs)

end

end Script

/-- The program of a world runs scripts, and so does not look at numbers if those that stand in the scripts
stay as they are. -/
theorem World.unnumbered_program (hr : Function.Injective r) (w : World)
    (hscripts : ∀ m, (w.script m).Fixed r) : w.program.Unnumbered r := fun m args =>
  Script.renumbers_eval hr w.graph args (w.script m) (hscripts m)

end HandleCalculus
