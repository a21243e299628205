import HandleCalculus.Proofs.HandleTyping
import HandleCalculus.Proofs.Reordering

/-!
# Combinators make typed handles

Every combinator checks just what the type of its node asks for. So a handle made from typed handles
and live values is typed, whatever the arguments: either the combinator refuses, or its checks give
the type of the node.
-/

set_option autoImplicit false

namespace HandleCalculus

namespace Handle

variable {G : ClassGraph} {W : Extent} {h h' : Handle} {s : Stamp}

/-- A handle whose signature is a type of its node. -/
theorem Typed.of_node {t : Signature} {n : Node Handle} {p : Descriptor} (hn : Node.Typed G W n p)
    (hparams : t.params = p.params) (hret : t.ret = p.ret) : Typed G W ⟨s, t, n⟩ := by
  have hp : p = t.descriptor := by
    obtain ⟨params, ret⟩ := p
    obtain rfl : t.params = params := hparams
    obtain rfl : t.ret = ret := hret
    rfl
  subst hp
  exact .mk hn (.refl G _)

/-- A typed handle seen under a coarser signature. -/
theorem Typed.view (ht : Typed G W h) {t : Signature} (hsub : h.type.descriptor.Sub G t.descriptor) :
    Typed G W ⟨s, t, h.node⟩ := by
  cases ht with
  | mk node sub => exact .mk node (sub.trans hsub)

theorem typed_retype (ht : Typed G W h) {t : Signature}
    (hsub : h.type.descriptor.Sub G t.descriptor) (hmade : retype s h t = .ok h') :
    Typed G W h' := by
  obtain ⟨-, rfl⟩ := retype_eq_ok_iff.1 hmade
  exact ht.view hsub

/-! ## Binding -/

/-- The first of the values that are bound is a value converted, and so are the others. -/
theorem coerceAll_cons_eq_ok {v : Value} {vs ws : List Value} {t : Ty} {ts : List Ty} :
    coerceAll G (v :: vs) (t :: ts) = .ok ws ↔
      ∃ w us, v.coerce G t = .ok w ∧ coerceAll G vs ts = .ok us ∧ ws = w :: us := by
  rw [coerceAll]
  cases v.coerce G t with
  | error e => simp
  | ok w =>
    cases coerceAll G vs ts with
    | error e => simp
    | ok us => simp [eq_comm]

/-- What values are bound fits the parameters that they are bound to. -/
theorem fitAll_of_coerceAll {vs ws : List Value} {ts : List Ty} (hlength : vs.length ≤ ts.length)
    (h : coerceAll G vs ts = .ok ws) :
    ws.length = vs.length ∧ Value.fitAll G ws (ts.take ws.length) = true := by
  induction vs generalizing ts ws with
  | nil =>
    obtain rfl := Except.ok.inj h
    exact ⟨rfl, rfl⟩
  | cons v vs ih =>
    cases ts with
    | nil => exact absurd hlength (by simp)
    | cons t ts =>
      obtain ⟨w, us, hw, hus, rfl⟩ := coerceAll_cons_eq_ok.1 h
      obtain ⟨hlen, hfit⟩ := ih (by simpa using hlength) hus
      refine ⟨by simp [hlen], ?_⟩
      simp only [List.length_cons, List.take_succ_cons, Value.fitAll, Bool.and_eq_true]
      exact ⟨Value.fits_of_coerce hw, hfit⟩

/-- Values that are bound are as many as given, and fit the parameters that they are bound to. -/
theorem bound_fits {pos : Nat} {vs bound : List Value} (hcount : pos + vs.length ≤ h.type.arity)
    (hbound : coerceAll G vs (h.type.params.drop pos) = .ok bound) :
    bound.length = vs.length ∧
      Value.fitAll G bound ((h.type.params.drop pos).take vs.length) = true := by
  have hcount : pos + vs.length ≤ h.type.params.length := hcount
  have hroom : vs.length ≤ (h.type.params.drop pos).length := by
    rw [List.length_drop]
    omega
  obtain ⟨hlength, hfits⟩ := fitAll_of_coerceAll hroom hbound
  rw [hlength] at hfits
  exact ⟨hlength, hfits⟩

/-- What values are bound lives. -/
theorem allLive_of_coerceAll {vs ws : List Value} {ts : List Ty} (hlive : Value.AllLive W.classes vs)
    (h : coerceAll G vs ts = .ok ws) : Value.AllLive W.classes ws := by
  induction vs generalizing ts ws with
  | nil =>
    obtain rfl := Except.ok.inj h
    exact trivial
  | cons v vs ih =>
    cases ts with
    | nil =>
      obtain rfl := Except.ok.inj h
      exact trivial
    | cons t ts =>
      obtain ⟨w, us, hw, hus, rfl⟩ := coerceAll_cons_eq_ok.1 h
      exact ⟨Value.lives_of_coerce hlive.1 hw, ih hlive.2 hus⟩

theorem typed_insertArguments (ht : Typed G W h) {pos : Nat} {vs : List Value}
    (hlive : Value.AllLive W.classes vs) (hmade : h.insertArguments G s pos vs = .ok h') :
    Typed G W h' := by
  obtain ⟨hcount, bound, hbound, hcases⟩ := insertArguments_eq_ok_iff.1 hmade
  obtain ⟨hlength, hfits⟩ := bound_fits hcount hbound
  rcases hcases with ⟨-, rfl⟩ | ⟨-, new, hnew, rfl⟩
  · exact ht
  · obtain ⟨-, -, hret, hparams⟩ := Signature.dropParams_eq_ok_iff.1 hnew
    rw [← hlength] at hcount hfits
    exact .of_node (.insert ht hcount hfits (allLive_of_coerceAll hlive hbound)) hparams hret

theorem typed_bindTo (ht : Typed G W h) {v : Value} (hlive : v.Lives W.classes)
    (hmade : h.bindTo G s v = .ok h') : Typed G W h' := by
  unfold bindTo at hmade
  split at hmade
  · cases hmade
  · have hvs : Value.AllLive W.classes [v] := ⟨hlive, trivial⟩
    exact typed_insertArguments ht hvs hmade

/-! ## Reordering -/

/-- A permutation of a permutation, as one: each argument of the inner handle comes from where the outer
order puts it, and the result may stand for the one asked for. -/
theorem Typed.combined (ht : Typed G W h) {inner : Handle} {new : Signature} {reorder order : List Nat}
    (hroutes : new.Routes h.type reorder) (hnode : h.node = .permute inner order) :
    Typed G W inner ∧
      List.Forall₂ (fun i t => ∃ s, new.params[i]? = some s ∧ G.isAssignable s t = true)
        (Handle.combined reorder order) inner.type.params ∧
      G.isAssignable inner.type.ret new.ret = true := by
  obtain ⟨hn, hsub⟩ := ht
  rw [hnode] at hn
  cases hn with
  | permute hinner horder =>
  refine ⟨hinner, List.forall₂_map_left_iff.2 (horder.imp ?_), hroutes.ret ▸ hsub.ret⟩
  rintro j t ⟨s, hs, hst⟩
  obtain ⟨hj, rfl⟩ := List.getElem?_eq_some_iff.1 hs
  have hju : j < h.type.params.length := Nat.lt_of_lt_of_eq hj hsub.params.length_eq
  have hjr : j < reorder.length := Nat.lt_of_lt_of_eq hju hroutes.params.length_eq.symm
  have hwiden := (List.forall₂_iff_get.1 hsub.params).2 j hj hju
  have hplace := (List.forall₂_iff_get.1 hroutes.params).2 j hjr hju
  refine ⟨h.type.params[j], ?_, G.isAssignable_trans hwiden hst⟩
  rw [List.getElem?_eq_getElem hjr]
  exact hplace

/-- A reordering that leaves each argument at its place is a view of the target. -/
theorem sub_of_isIdentityOrder {new old : Signature} {order : List Nat}
    (horder : List.Forall₂ (fun i t => ∃ s, new.params[i]? = some s ∧ G.isAssignable s t = true)
      order old.params)
    (hlength : order.length = new.arity) (hidentity : isIdentityOrder order = true)
    (hret : G.isAssignable old.ret new.ret = true) : old.descriptor.Sub G new.descriptor := by
  have hsame : Picks new.params order new.params := picks_of_isIdentityOrder hidentity hlength
  refine ⟨List.forall₂_iff_get.2 ⟨horder.length_eq.symm.trans hlength, fun i hi hi' => ?_⟩, hret⟩
  have hio : i < order.length := by rw [horder.length_eq]; exact hi
  obtain ⟨s, hs, hst⟩ := (List.forall₂_iff_get.1 horder).2 i hio hi
  have hplace := (List.forall₂_iff_get.1 hsame).2 i hio hi'
  obtain rfl := Option.some.inj (hplace.symm.trans hs)
  exact hst

theorem Permuted.typed {new : Signature} {reorder : List Nat} (hmade : Permuted s h new reorder h')
    (hroutes : new.Routes h.type reorder) (ht : Typed G W h) : Typed G W h' := by
  cases hmade with
  | same _ _ => exact ht
  | fresh _ =>
    exact .of_node (.permute ht (hroutes.params.imp fun i t hi => ⟨t, hi, G.isAssignable_refl t⟩)) rfl
      hroutes.ret
  | collapsed hnode =>
    obtain ⟨hinner, hcombined, hret⟩ := ht.combined hroutes hnode
    exact .mk (.permute hinner hcombined)
      ⟨List.forall₂_same.2 fun t _ => G.isAssignable_refl t, hret⟩
  | cancelled hnode _ _ _ => exact (ht.combined hroutes hnode).1
  | retyped hnode hlength hidentity hshape =>
    obtain ⟨hinner, hcombined, hret⟩ := ht.combined hroutes hnode
    exact hinner.view (sub_of_isIdentityOrder hcombined hlength hidentity hret)

theorem typed_permuteArguments (ht : Typed G W h) {new : Signature} {reorder : List Nat}
    (hmade : h.permuteArguments s new reorder = .ok h') : Typed G W h' := by
  obtain ⟨hroutes, hpermuted⟩ := permuteArguments_eq_ok hmade
  exact hpermuted.typed hroutes ht

theorem typed_dropArguments (ht : Typed G W h) {pos : Nat} {types : List Ty}
    (hmade : h.dropArguments s pos types = .ok h') : Typed G W h' := by
  rcases dropArguments_eq_ok hmade with rfl | ⟨new, reorder, hmade⟩
  · exact ht
  · exact typed_permuteArguments ht hmade

/-! ## Filters -/

/-- What is left of two lists from a place on, if they agree up to and with that place. -/
private theorem drop_eq_cons {ps qs : List Ty} {k : Nat} {t : Ty}
    (htake : ps.take (k + 1) = qs.take (k + 1)) (hk : qs[k]? = some t) :
    ps.drop k = t :: ps.drop (k + 1) := by
  have hps : ps[k]? = some t := by
    have hget := congrArg (fun l : List Ty => l[k]?) htake
    simp only [List.getElem?_take_of_lt (Nat.lt_succ_self k)] at hget
    exact hget.trans hk
  obtain ⟨hlt, rfl⟩ := List.getElem?_eq_some_iff.1 hps
  exact List.drop_eq_getElem_cons hlt

/-- The signature that filters lead to has the filters' own parameters in place of the target's. -/
theorem filteredType_eq_ok {old acc new : Signature} {pos i : Nat} {filters : List (Option Handle)}
    (hlength : pos + i + filters.length ≤ old.params.length)
    (hdrop : acc.params.drop (pos + i) = old.params.drop (pos + i))
    (h : filteredType old pos i filters acc = .ok new) :
    new.ret = acc.ret ∧ new.params.take (pos + i) = acc.params.take (pos + i) ∧
      Filters.types filters (new.params.drop (pos + i)) (old.params.drop (pos + i)) := by
  -- from the left: from place `pos + i` on, the signature so far is the old one (`hdrop`)
  induction filters generalizing i acc with
  | nil =>
    obtain rfl := Except.ok.inj h
    exact ⟨rfl, rfl, hdrop⟩
  | cons f fs ih =>
    have hlt : pos + i < old.params.length := by
      rw [List.length_cons] at hlength
      omega
    have hold : old.params.drop (pos + i) = old.params[pos + i] :: old.params.drop (pos + i + 1) :=
      List.drop_eq_getElem_cons hlt
    have hrest : pos + (i + 1) + fs.length ≤ old.params.length := by
      rw [List.length_cons] at hlength
      omega
    have hstep : ∀ {ps : List Ty}, ps.drop (pos + i) = old.params.drop (pos + i) →
        ps.drop (pos + i + 1) = old.params.drop (pos + i + 1) := by
      intro ps hps
      have htail := congrArg List.tail hps
      rwa [List.tail_drop, List.tail_drop] at htail
    cases f with
    | none =>
      -- without a filter, the parameter stays
      have h : filteredType old pos (i + 1) fs acc = .ok new := h
      obtain ⟨hret, htake, htypes⟩ := ih hrest (hstep hdrop) h
      have hacc : acc.params[pos + i]? = some old.params[pos + i] := by
        have hget := congrArg (fun l : List Ty => l[0]?) hdrop
        simpa [hlt] using hget
      refine ⟨hret, ?_, ?_⟩
      · have hfirst := congrArg (List.take (pos + i)) htake
        simpa [List.take_take] using hfirst
      · have hnew : new.params.drop (pos + i) = _ := drop_eq_cons htake hacc
        rw [hnew, hold]
        exact ⟨rfl, htypes⟩
    | some f =>
      unfold filteredType at h
      split at h
      · cases h
      next hfits =>
      rw [not_or, not_not, not_not] at hfits
      obtain ⟨harity, hfret⟩ := hfits
      split at h
      · cases h
      next acc' hacc' =>
      obtain ⟨hi, haccRet, haccParams⟩ := Signature.changeParam_eq_ok_iff.1 hacc'
      have hdrop' : acc'.params.drop (pos + i + 1) = old.params.drop (pos + i + 1) := by
        rw [haccParams, List.drop_set_of_lt (Nat.lt_succ_self _)]
        exact hstep hdrop
      obtain ⟨hret, htake, htypes⟩ := ih hrest hdrop' h
      -- the filter's only parameter has come in place of the old one
      obtain ⟨p, hp⟩ := List.length_eq_one_iff.1 harity
      have hfparam : f.type.param 0 = p := by simp [Signature.param, hp]
      have hget : acc'.params[pos + i]? = some p := by
        rw [haccParams, hfparam, List.getElem?_set_self hi]
      refine ⟨hret.trans haccRet, ?_, ?_⟩
      · have hbefore := congrArg (List.take (pos + i)) htake
        rw [haccParams] at hbefore
        simpa [List.take_take, List.take_set_of_le] using hbefore
      · have hnew : new.params.drop (pos + i) = _ := drop_eq_cons htake hget
        rw [hnew, hold]
        refine ⟨hp, ?_, htypes⟩
        rw [hfret, Signature.param, List.getElem?_eq_getElem hlt]
        rfl

theorem typed_filterArguments (ht : Typed G W h) {pos : Nat} {filters : List (Option Handle)}
    (hf : ∀ f, some f ∈ filters → Typed G W f)
    (hmade : h.filterArguments s pos filters = .ok h') : Typed G W h' := by
  obtain ⟨hcount, new, hnew, hcases⟩ := filterArguments_eq_ok_iff.1 hmade
  rcases hcases with ⟨-, rfl⟩ | ⟨-, rfl⟩
  · exact ht
  have hcount : pos + filters.length ≤ h.type.params.length := hcount
  obtain ⟨hret, htake, htypes⟩ := filteredType_eq_ok hcount rfl hnew
  refine .of_node (.filterArgs ht (by omega) hf htypes) ?_ hret
  have htake : new.params.take pos = h.type.params.take pos := htake
  show new.params = h.type.params.take pos ++ new.params.drop pos
  rw [← htake, List.take_append_drop]

theorem typed_filterReturnValue {f : Handle} (ht : Typed G W h) (hf : Typed G W f)
    (hmade : h.filterReturnValue s f = .ok h') : Typed G W h' := by
  obtain ⟨htaken, new, hnew, rfl⟩ := filterReturnValue_eq_ok_iff.1 hmade
  obtain ⟨hret, hparams⟩ := Signature.changeReturn_eq_ok_iff.1 hnew
  exact .of_node (.filterReturn ht hf htaken) hparams hret

/-! ## Folding -/

theorem typed_foldArguments {c : Handle} (ht : Typed G W h) (hc : Typed G W c) {pos : Nat}
    (hmade : h.foldArguments s pos c = .ok h') : Typed G W h' := by
  obtain ⟨hfeeds, hfirst, new, hnew, rfl⟩ := foldArguments_eq_ok_iff.1 hmade
  obtain ⟨-, -, hret, hparams⟩ := Signature.dropParams_eq_ok_iff.1 hnew
  unfold FeedsAt at hfeeds
  unfold answered at hfirst hparams
  by_cases hvoid : c.type.ret = .void
  · rw [if_pos hvoid] at hfeeds hfirst hparams
    refine .of_node (.fold ht hc hvoid hfirst hfeeds) ?_ hret
    rw [hparams, Nat.add_zero]
    exact List.take_append_drop pos h.type.params
  · rw [if_neg hvoid] at hfeeds hfirst hparams
    -- the combiner's result is the parameter that the new signature lacks
    obtain ⟨hlt, hresult⟩ := List.getElem?_eq_some_iff.1 hfeeds
    have hdrop : h.type.params.drop pos = c.type.ret :: h.type.params.drop (pos + 1) := by
      rw [List.drop_eq_getElem_cons hlt, hresult]
    exact .of_node (.foldValue ht hc hvoid hdrop hfirst) hparams hret

theorem typed_collectArguments {f : Handle} (ht : Typed G W h) (hf : Typed G W f) {pos : Nat}
    (hmade : h.collectArguments s pos f = .ok h') : Typed G W h' := by
  obtain ⟨widened, hwidened, hfold⟩ := collectArguments_eq_ok_iff.1 hmade
  exact typed_foldArguments (typed_dropArguments ht hwidened) hf hfold

/-! ## Choices -/

theorem typed_guardWithTest {test fallback : Handle} (htest : Typed G W test) (ht : Typed G W h)
    (hf : Typed G W fallback) (hmade : guardWithTest s test h fallback = .ok h') :
    Typed G W h' := by
  obtain ⟨hsame, hresult, hfirst, rfl⟩ := guardWithTest_eq_ok_iff.1 hmade
  exact .of_node (.guarded htest ht hf hsame hresult hfirst) rfl rfl

theorem typed_catchException {c : ClassId} {handler : Handle} (ht : Typed G W h)
    (hh : Typed G W handler) (hmade : h.catchException G s c handler = .ok h') :
    Typed G W h' := by
  obtain ⟨-, hret, first, leading, hparams, hassign, hleading, rfl⟩ :=
    catchException_eq_ok_iff.1 hmade
  exact .of_node (.catching ht hh hret hparams hassign hleading) rfl rfl

/-! ## Leaves -/

theorem typed_constant {t : Ty} {v : Value} (hlive : v.Lives W.classes)
    (hmade : constant G s t v = .ok h') : Typed G W h' := by
  obtain ⟨w, new, hw, hnew, rfl⟩ := constant_eq_ok_iff.1 hmade
  obtain ⟨hret, hparams⟩ := Signature.of_eq_ok_iff.1 hnew
  have hfit : w.fits G t = true := Value.fits_of_coerce hw
  exact .of_node (.constant hfit (Value.lives_of_coerce hlive hw)) hparams hret

theorem typed_identity {t : Ty} (hmade : identity s t = .ok h') : Typed G W h' := by
  obtain ⟨new, hnew, rfl⟩ := identity_eq_ok_iff.1 hmade
  obtain ⟨hret, hparams⟩ := Signature.of_eq_ok_iff.1 hnew
  exact .of_node (.identity t) hparams hret

theorem typed_throwException {ret : Ty} {c : ClassId}
    (hmade : throwException G s ret c = .ok h') : Typed G W h' := by
  obtain ⟨-, new, hnew, rfl⟩ := throwException_eq_ok_iff.1 hmade
  obtain ⟨hret, hparams⟩ := Signature.of_eq_ok_iff.1 hnew
  exact .of_node (.throwing c ret) hparams hret

theorem typed_unlinked (t : Signature) (message : String) :
    Typed G W (unlinked s t message) :=
  .of_node (.unlinked message t.descriptor) rfl rfl

/-! ## Adaptation -/

/-- A conversion that keeps the value is planned between assignable types only. -/
theorem isAssignable_of_plan? {s t : Ty} {c : Conversion} (h : Conversion.plan? G s t = some c)
    (hc : c.isKeep = true) : G.isAssignable s t = true := by
  unfold Conversion.plan? at h
  by_cases heq : s = t
  · rw [heq]
    exact G.isAssignable_refl t
  -- of the cases that follow, only the last keeps the value
  rw [if_neg heq] at h
  split at h
  · obtain rfl := Option.some.inj h
    cases hc
  · obtain rfl := Option.some.inj h
    cases hc
  · split at h
    · obtain rfl := Option.some.inj h
      cases hc
    · cases h
  · split at h
    · obtain rfl := Option.some.inj h
      cases hc
    · cases h
  · split at h
    · split at h
      · obtain rfl := Option.some.inj h
        cases hc
      · cases h
    · obtain rfl := Option.some.inj h
      cases hc
  · split at h
    · next hassign => exact hassign
    · obtain rfl := Option.some.inj h
      cases hc

theorem forall₂_of_plans? {ss ts : List Ty} {cs : List Conversion}
    (hlength : ss.length = ts.length) (h : plans? G ss ts = some cs)
    (hkeep : cs.all Conversion.isKeep = true) :
    List.Forall₂ (fun t s => G.isAssignable s t = true) ts ss := by
  induction ss generalizing ts cs with
  | nil =>
    cases ts with
    | nil => exact .nil
    | cons t ts => cases hlength
  | cons s ss ih =>
    cases ts with
    | nil => cases hlength
    | cons t ts =>
      obtain ⟨c, hc, h⟩ := Option.bind_eq_some_iff.1 h
      obtain ⟨cs', hcs', h⟩ := Option.bind_eq_some_iff.1 h
      obtain rfl := Option.some.inj h
      simp only [List.all_cons, Bool.and_eq_true] at hkeep
      exact .cons (isAssignable_of_plan? hc hkeep.1) (ih (by simpa using hlength) hcs' hkeep.2)

/-- What a conversion comes to: the handle itself, the handle under another signature with nothing
converted, or a new node with the conversions planned. -/
theorem convertTo_eq_ok {new : Signature} (hmade : h.convertTo G s new = .ok h') : h' = h ∨
    ∃ args ret, new.params.length = h.type.params.length ∧
      plans? G new.params h.type.params = some args ∧
      Conversion.plan? G h.type.ret new.ret = some ret ∧
      (args.all Conversion.isKeep = true ∧ ret.isKeep = true ∧ h.retype s new = .ok h' ∨
        h' = ⟨s, new, .convert h args ret⟩) := by
  unfold convertTo at hmade
  simp only at hmade
  split at hmade
  · exact .inl (Except.ok.inj hmade).symm
  split at hmade
  · cases hmade
  next harity =>
  split at hmade
  · next args ret hargs hret =>
    refine .inr ⟨args, ret, not_not.1 harity, hargs, hret, ?_⟩
    split at hmade
    · next hkeep =>
      rw [Bool.and_eq_true] at hkeep
      exact .inl ⟨hkeep.1, hkeep.2, hmade⟩
    · exact .inr (Except.ok.inj hmade).symm
  · cases hmade

theorem typed_convertTo (ht : Typed G W h) {new : Signature}
    (hmade : h.convertTo G s new = .ok h') : Typed G W h' := by
  rcases convertTo_eq_ok hmade with rfl | ⟨args, ret, hlength, hargs, hret, hcase⟩
  · exact ht
  rcases hcase with ⟨hkeep, hkeepRet, hretype⟩ | rfl
  · -- nothing is converted, so the handle itself is seen under the new signature
    refine typed_retype ht ⟨?_, isAssignable_of_plan? hret hkeepRet⟩ hretype
    exact forall₂_of_plans? hlength hargs hkeep
  · have hnode : Node.Typed G W (.convert h args ret) new.descriptor :=
      .convert ht hlength hargs hret
    exact .of_node hnode rfl rfl

/-! ## Arity -/

/-- Parameters with some of them dropped from a place on and others inserted there. -/
theorem params_of_replaced {ps dropped new ts : List Ty} {pos k : Nat} (hpos : pos ≤ ps.length)
    (hdropped : dropped = ps.take pos ++ ps.drop k)
    (hnew : new = dropped.take pos ++ ts ++ dropped.drop pos) :
    new = ps.take pos ++ ts ++ ps.drop k := by
  have hlength : (ps.take pos).length = pos := List.length_take_of_le hpos
  rw [hnew, hdropped, List.take_left' hlength, List.drop_left' hlength]

/-- What collecting arguments into an array comes to: a new node, with the components of the array
parameter in its place. -/
theorem asCollectorAt_eq_ok {pos count : Nat} {array : Ty}
    (hmade : h.asCollectorAt G s pos array count = .ok h') :
    ∃ c t, array = .array c ∧ h.type.params[pos]? = some t ∧
      G.isAssignable (.array c) t = true ∧ h'.node = .collect h pos count array ∧
      h'.type.params =
        h.type.params.take pos ++ List.replicate count c ++ h.type.params.drop (pos + 1) ∧
      h'.type.ret = h.type.ret := by
  obtain ⟨c, t, dropped, new, rfl, ht, hassign, hdropped, hnew, rfl⟩ := asCollectorAt_eq_ok_iff.1 hmade
  -- the array parameter goes, and its components come in its place
  obtain ⟨-, hpos, hdropRet, hdropParams⟩ := Signature.dropParams_eq_ok_iff.1 hdropped
  obtain ⟨-, hret, hparams⟩ := Signature.insertParams_eq_ok_iff.1 hnew
  exact ⟨c, t, rfl, ht, hassign, rfl,
    params_of_replaced (Nat.le_of_lt hpos) hdropParams hparams, hret.trans hdropRet⟩

theorem typed_asCollectorAt (ht : Typed G W h) {pos count : Nat} {array : Ty}
    (hmade : h.asCollectorAt G s pos array count = .ok h') : Typed G W h' := by
  obtain ⟨c, t, rfl, hpos, hassign, hnode, hparams, hret⟩ := asCollectorAt_eq_ok hmade
  refine ⟨?_, .refl G h'.type.descriptor⟩
  rw [hnode, Signature.descriptor, hparams, hret]
  exact .collect ht hpos hassign

theorem typed_asCollector (ht : Typed G W h) {count : Nat} {array : Ty}
    (hmade : h.asCollector G s array count = .ok h') : Typed G W h' := by
  unfold asCollector at hmade
  split at hmade
  · cases hmade
  · exact typed_asCollectorAt ht hmade

theorem typed_asSpreaderAt (ht : Typed G W h) {pos count : Nat} {array : Ty}
    (hmade : h.asSpreaderAt G s pos array count = .ok h') : Typed G W h' := by
  obtain ⟨hcount, c, dropped, new, -, -, hdropped, hnew, rfl⟩ := asSpreaderAt_eq_ok_iff.1 hmade
  -- the parameters that are spread go, and the array comes in their place
  obtain ⟨-, -, hdropRet, hdropParams⟩ := Signature.dropParams_eq_ok_iff.1 hdropped
  obtain ⟨-, hret, hparams⟩ := Signature.insertParams_eq_ok_iff.1 hnew
  refine .of_node (.spread ht hcount) ?_ (hret.trans hdropRet)
  rw [params_of_replaced (Nat.le_trans (Nat.le_add_right _ _) hcount) hdropParams hparams,
    List.append_assoc]
  rfl

theorem typed_asSpreader (ht : Typed G W h) {count : Nat} {array : Ty}
    (hmade : h.asSpreader G s array count = .ok h') : Typed G W h' := by
  unfold asSpreader at hmade
  split at hmade
  · exact typed_asSpreaderAt ht hmade
  · cases hmade

/-- The target of a variable-arity handle is typed; its signature need not be the handle's. -/
theorem typed_asFixedArity (ht : Typed G W h) : Typed G W h.asFixedArity := by
  unfold asFixedArity
  split
  · next target array cell hnode =>
    obtain ⟨hn, -⟩ := ht
    rw [hnode] at hn
    cases hn with
    | varargs target => exact target
    | varargsOf target => exact target
  · exact ht

theorem typed_asVarargsCollector (ht : Typed G W h) {array : Ty}
    (hmade : h.asVarargsCollector G s array = .ok h') : Typed G W h' := by
  unfold asVarargsCollector at hmade
  split at hmade
  · obtain rfl := Except.ok.inj hmade
    exact ht
  split at hmade
  · cases hmade
  split at hmade
  · obtain rfl := Except.ok.inj hmade
    obtain ⟨hn, hsub⟩ := ht
    -- the target of the new node is the handle itself, or that of the handle's own node
    have hnode : ∀ p, Node.Typed G W h.node p →
        Node.Typed G W (.varargs h.asFixedArity array s) p ∨
          Node.Typed G W (.varargs h.asFixedArity array s) h.type.descriptor := by
      intro p hp
      unfold asFixedArity
      split
      · next target existing cell heq =>
        rw [heq] at hp
        cases hp with
        | varargs target => exact Or.inl (.varargs target)
        | varargsOf target hreceives hparams hr =>
          exact Or.inl (.varargsOf target hreceives hparams hr)
      · exact Or.inr (.varargs (.mk hn hsub))
    rcases hnode _ hn with hvarargs | hvarargs
    · exact .mk hvarargs hsub
    · exact .mk hvarargs (.refl G _)
  · cases hmade

end Handle

end HandleCalculus
