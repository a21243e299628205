import HandleCalculus.Proofs.PermutedCalls

/-!
# Dropped and bound arguments

Dropping adds parameters that a call ignores, binding takes parameters away that a call fills in. What
dropping makes is a reordering, so the node that it puts depends on the target; whatever that is, the call
of what is made is the call of the target on the arguments at the kept places (`Handle.picks_keptPlaces`),
also on arguments that do not fit (`Handle.exists_levels_of_drop`).

Doing one after the other at the same position leads back to the signature that was there before. To drop
again what has been bound leaves a handle that ignores what it is passed there; to bind what has been
dropped leaves one that is called as the target is (`Handling.insert_drop_inverse`). Only a drop of nothing
at all, which does not look at its position, can stand at one where nothing can be bound.
-/

set_option autoImplicit false

namespace HandleCalculus

namespace Handle

variable {G : ClassGraph} {P : Program} {s : Stamp} {h d b : Handle} {pos : Nat} {types : List Ty}
  {vs : List Value} {args : List Value}

/-! ## Kept places -/

/-- What has been put in front of place `pos` can be taken out again. -/
theorem take_append_drop_spliced {α : Type} {as bs : List α} (hpos : pos ≤ as.length) :
    (as.take pos ++ bs ++ as.drop pos).take pos ++
      (as.take pos ++ bs ++ as.drop pos).drop (pos + bs.length) = as := by
  have hfirst : (as.take pos).length = pos := List.length_take_of_le hpos
  have htake : (as.take pos ++ bs ++ as.drop pos).take pos = as.take pos := by
    rw [List.append_assoc]
    exact List.take_left' hfirst
  have hdrop : (as.take pos ++ bs ++ as.drop pos).drop (pos + bs.length) = as.drop pos := by
    refine List.drop_left' ?_
    rw [List.length_append, hfirst]
  rw [htake, hdrop, List.take_append_drop]

/-- The places of `arity` arguments once `count` others stand in front of place `pos`. -/
def keptPlaces (arity pos count : Nat) : List Nat :=
  (List.range arity).map fun i => if i < pos then i else i + count

@[simp]
theorem length_keptPlaces (arity pos count : Nat) : (keptPlaces arity pos count).length = arity := by
  simp [keptPlaces]

/-- At the kept places stands what is left without the others. -/
theorem picks_keptPlaces {α : Type} {as : List α} {arity count : Nat} (hpos : pos ≤ arity)
    (hlength : as.length = arity + count) :
    Picks as (keptPlaces arity pos count) (as.take pos ++ as.drop (pos + count)) := by
  have hkept : (as.take pos ++ as.drop (pos + count)).length = arity := by
    simp
    omega
  refine List.forall₂_iff_get.2 ⟨by rw [length_keptPlaces, hkept], fun i hi hi' => ?_⟩
  have hi : i < arity := by simpa using hi
  simp only [keptPlaces, List.get_eq_getElem, List.getElem_map, List.getElem_range]
  rw [← List.getElem?_eq_getElem hi', List.getElem?_append]
  by_cases hbefore : i < pos
  · have htake : i < (as.take pos).length := by
      simp
      omega
    rw [if_pos hbefore, if_pos htake, List.getElem?_take_of_lt hbefore]
  · have htake : (as.take pos).length = pos := by
      simp
      omega
    rw [if_neg hbefore, htake, if_neg hbefore, List.getElem?_drop]
    congr 1
    omega

/-- The first of the others stands at no place that is kept. -/
theorem not_mem_keptPlaces {arity count : Nat} (hcount : 0 < count) : pos ∉ keptPlaces arity pos count := by
  simp only [keptPlaces, List.mem_map, List.mem_range, not_exists, not_and]
  intro i _
  split <;> omega

/-! ## What dropping makes -/

/-- What is dropped becomes part of the signature, and the rest is a reordering. -/
theorem dropArguments_made (hmade : h.dropArguments s pos types = .ok d) (htypes : types ≠ []) :
    pos ≤ h.type.arity ∧ d.type.ret = h.type.ret ∧
      d.type.params = h.type.params.take pos ++ types ++ h.type.params.drop pos ∧
        d.type.Routes h.type (keptPlaces h.type.arity pos types.length) ∧
          Permuted s h d.type (keptPlaces h.type.arity pos types.length) d := by
  unfold dropArguments at hmade
  simp only [bind, Except.bind, pure, Except.pure] at hmade
  rw [if_neg (by simpa using htypes)] at hmade
  split at hmade
  · cases hmade
  next new hnew =>
  obtain ⟨hpos, hret, hparams⟩ := Signature.insertParams_eq_ok_iff.1 hnew
  obtain ⟨hroutes, hpermuted⟩ := permuteArguments_eq_ok hmade
  obtain rfl := hpermuted.type_eq
  exact ⟨hpos, hret, hparams, hroutes, hpermuted⟩

theorem dropArguments_type (hmade : h.dropArguments s pos types = .ok d) :
    (types = [] ∨ pos ≤ h.type.arity) ∧ d.type.ret = h.type.ret ∧
      d.type.params = h.type.params.take pos ++ types ++ h.type.params.drop pos := by
  by_cases htypes : types = []
  · subst htypes
    obtain rfl := Except.ok.inj hmade
    exact ⟨.inl rfl, rfl, by simp⟩
  · obtain ⟨hpos, hret, hparams, -⟩ := dropArguments_made hmade htypes
    exact ⟨.inr hpos, hret, hparams⟩

/-- If the signature with what is dropped exists, dropping succeeds. -/
theorem exists_dropArguments (hh : h.Fitted) (s : Stamp) {new : Signature}
    (hnew : h.type.insertParams pos types = .ok new) : ∃ d, h.dropArguments s pos types = .ok d := by
  obtain ⟨hpos, hret, hparams⟩ := Signature.insertParams_eq_ok_iff.1 hnew
  unfold dropArguments
  split
  · exact ⟨h, rfl⟩
  · rw [hnew]
    have hpos : pos ≤ h.type.params.length := hpos
    have hlength : new.params.length = h.type.params.length + types.length := by
      simp [hparams]
      omega
    have hpicks := picks_keptPlaces hpos hlength
    have htaken : new.params.take pos ++ new.params.drop (pos + types.length) = h.type.params := by
      rw [hparams]
      exact take_append_drop_spliced hpos
    rw [htaken] at hpicks
    exact (permuteArguments_succeeds_iff hh).2 ⟨hpicks, hret⟩

/-- A reordering that ignores an argument does not cancel out with the order of the target. -/
theorem not_isIdentityOrder_combined (hh : h.Fitted) {inner : Handle} {order : List Nat} {count n : Nat}
    (hnode : h.node = .permute inner order) (hcount : 0 < count) (hpos : pos < n)
    (hlength : (combined (keptPlaces h.type.arity pos count) order).length = n) :
    isIdentityOrder (combined (keptPlaces h.type.arity pos count) order) = false := by
  by_contra hidentity
  rw [Bool.not_eq_false] at hidentity
  have hmem : pos ∈ combined (keptPlaces h.type.arity pos count) order := by
    have horder : combined (keptPlaces h.type.arity pos count) order = List.range n := by
      rw [← hlength]
      simpa [isIdentityOrder] using hidentity
    rw [horder, List.mem_range]
    exact hpos
  obtain ⟨j, hj, hplace⟩ := List.mem_map.1 hmem
  -- the order of the target lists parameters of the target
  have hbound : j < h.type.arity := by
    have hown := hh.own
    rw [hnode] at hown
    obtain ⟨i, hi, rfl⟩ := List.getElem_of_mem hj
    have hpick := (List.forall₂_iff_get.1 hown.1).2 i hi (hown.1.length_eq ▸ hi)
    have hlt := (List.getElem?_eq_some_iff.1 hpick).1
    simpa [Signature.shape, Signature.arity] using hlt
  have hkept : (keptPlaces h.type.arity pos count)[j]?.getD 0 ∈ keptPlaces h.type.arity pos count := by
    rw [List.getElem?_eq_getElem (by simpa using hbound)]
    exact List.getElem_mem _
  rw [hplace] at hkept
  exact not_mem_keptPlaces hcount hkept

/-! ## Calls of what dropping makes -/

/-- The call of what drops arguments is the call of the target on the others, one level further down or
on the same level. -/
theorem exists_levels_of_drop (hP : P.Blind) (hh : h.Fitted)
    (hmade : h.dropArguments s pos types = .ok d) : ∃ w ≤ 1, ∀ depth (args : List Value),
      args.length = d.type.arity →
        Run.Same (d.invokeBasic P (depth + w) args)
          (h.invokeBasic P depth (args.take pos ++ args.drop (pos + types.length))) := by
  by_cases htypes : types = []
  · subst htypes
    obtain rfl := Except.ok.inj hmade
    refine ⟨0, Nat.zero_le 1, fun depth args _ => ?_⟩
    simpa using same_invokeBasic_self hP depth h args
  obtain ⟨hpos, -, hparams, hroutes, hpermuted⟩ := dropArguments_made hmade htypes
  have hcount : 0 < types.length := List.length_pos_iff.2 htypes
  have harity : d.type.arity = h.type.arity + types.length := by
    have hpos : pos ≤ h.type.params.length := hpos
    simp [Signature.arity, hparams]
    omega
  have hpicks : ∀ {args : List Value}, args.length = d.type.arity → Picks args
      (keptPlaces h.type.arity pos types.length) (args.take pos ++ args.drop (pos + types.length)) :=
    fun hargs => picks_keptPlaces hpos (hargs.trans harity)
  have hidentity : ∀ {inner : Handle} {order : List Nat}, h.node = .permute inner order →
      (combined (keptPlaces h.type.arity pos types.length) order).length = d.type.arity →
        isIdentityOrder (combined (keptPlaces h.type.arity pos types.length) order) ≠ true := by
    intro inner order hnode hlength
    rw [not_isIdentityOrder_combined hh hnode hcount (by omega) hlength]
    exact Bool.false_ne_true
  generalize hnew : d.type = new at hpermuted harity hpicks hidentity
  cases hpermuted with
  | same htype _ =>
    rw [htype] at harity
    omega
  | fresh _ =>
    exact ⟨1, Nat.le_refl 1, fun depth args hargs =>
      same_invokeBasic_of_permute hP rfl (hpicks hargs) depth⟩
  | collapsed hnode =>
    refine ⟨0, Nat.zero_le 1, fun depth args hargs => ?_⟩
    obtain ⟨picked, hpicked⟩ : ∃ picked,
        Picks (args.take pos ++ args.drop (pos + types.length)) _ picked := by
      have hown := hh.own
      rw [hnode] at hown
      refine hown.1.exists_of_length ?_
      rw [← (hpicks hargs).length_eq]
      simp [Signature.shape, Signature.arity]
    cases depth with
    | zero => exact .throw _
    | succ depth =>
      exact (same_invokeBasic_of_permute hP rfl ((hpicks hargs).combined hpicked) depth).trans
        (same_invokeBasic_of_permute hP hnode hpicked depth).symm
  | cancelled hnode hlength hid _ => exact absurd hid (hidentity hnode hlength)
  | retyped hnode hlength hid _ => exact absurd hid (hidentity hnode hlength)

/-- The arguments that are kept fit the target. -/
theorem check_kept_of_drop (hmade : h.dropArguments s pos types = .ok d)
    (hargs : d.type.check G args = .ok ()) :
    h.type.check G (args.take pos ++ args.drop (pos + types.length)) = .ok () := by
  by_cases htypes : types = []
  · subst htypes
    obtain rfl := Except.ok.inj hmade
    simpa using hargs
  · obtain ⟨hpos, -, hparams, hroutes, -⟩ := dropArguments_made hmade htypes
    obtain ⟨picked, hpicked, hchecked⟩ := exists_picked hroutes hargs
    have hlength : args.length = h.type.arity + types.length := by
      have hpos : pos ≤ h.type.params.length := hpos
      rw [Value.length_eq_of_fitAll (Signature.check_eq_ok_iff.1 hargs), hparams]
      simp [Signature.arity]
      omega
    rwa [(picks_keptPlaces hpos hlength).unique hpicked]

theorem callsAs_of_drop (hP : P.Blind) {m : Machine} (hm : m.Keyed) (hh : h.Fitted)
    (hmade : h.dropArguments s pos types = .ok d) (hargs : d.type.check P.graph args = .ok ()) :
    CallsAs P m 1 d args h (args.take pos ++ args.drop (pos + types.length)) := by
  obtain ⟨w, hw, hsame⟩ := exists_levels_of_drop hP hh hmade
  have hlength := Value.length_eq_of_fitAll (Signature.check_eq_ok_iff.1 hargs)
  exact .of_invokeBasic (v := 0) hm hargs (check_kept_of_drop hmade hargs) hw
    fun depth => hsame depth args hlength

/-! ## What binding makes -/

/-- What is bound goes out of the signature. -/
theorem insertArguments_made (hmade : h.insertArguments G s pos vs = .ok b) :
    pos + vs.length ≤ h.type.arity ∧ b.type.ret = h.type.ret ∧
      b.type.params = h.type.params.take pos ++ h.type.params.drop (pos + vs.length) ∧
        ∃ bound, coerceAll G vs (h.type.params.drop pos) = .ok bound ∧
          (vs = [] ∧ b = h ∨ vs ≠ [] ∧ b.node = .insert h pos bound) := by
  obtain ⟨hcount, bound, hbound, hcases⟩ := insertArguments_eq_ok_iff.1 hmade
  obtain ⟨hlength, -⟩ := bound_fits hcount hbound
  rcases hcases with ⟨rfl, rfl⟩ | ⟨hne, new, hnew, rfl⟩
  · obtain rfl : vs = [] := List.length_eq_zero_iff.1 hlength.symm
    exact ⟨hcount, rfl, by simp, [], hbound, .inl ⟨rfl, rfl⟩⟩
  · obtain ⟨-, -, hret, hparams⟩ := Signature.dropParams_eq_ok_iff.1 hnew
    rw [hlength] at hparams
    refine ⟨hcount, hret, hparams, bound, hbound, .inr ⟨?_, rfl⟩⟩
    rintro rfl
    exact hne (List.length_eq_zero_iff.1 hlength)

/-- If values can be bound and the signature without their parameters exists, binding succeeds. -/
theorem exists_insertArguments (s : Stamp) {bound : List Value} {new : Signature}
    (hbound : coerceAll G vs (h.type.params.drop pos) = .ok bound)
    (hnew : h.type.dropParams pos (pos + vs.length) = .ok new) :
    ∃ b, h.insertArguments G s pos vs = .ok b := by
  obtain ⟨-, hcount, -, -⟩ := Signature.dropParams_eq_ok_iff.1 hnew
  obtain ⟨hlength, -⟩ := bound_fits hcount hbound
  rw [← hlength] at hnew
  by_cases hne : bound = []
  · exact ⟨h, insertArguments_eq_ok_iff.2 ⟨hcount, bound, hbound, .inl ⟨hne, rfl⟩⟩⟩
  · exact ⟨_, insertArguments_eq_ok_iff.2 ⟨hcount, bound, hbound, .inr ⟨hne, new, hnew, rfl⟩⟩⟩

/-- The call of what has arguments bound is the call of the target with them put in. -/
theorem same_invokeBasic_of_insert (hP : P.Blind) {bound : List Value} (hnode : b.node = .insert h pos bound)
    (hpos : pos ≤ args.length) (depth : Nat) :
    Run.Same (b.invokeBasic P (depth + 1) args)
      (h.invokeBasic P depth (args.take pos ++ bound ++ args.drop pos)) := by
  have hb := same_invokeBasic_succ hP depth b args
  unfold perform at hb
  simpa only [hnode, if_pos hpos] using hb

/-- Arguments for what is left fit the target with those bound put in. -/
theorem check_bound {bound : List Value} {t : Signature}
    (hcount : pos + vs.length ≤ h.type.arity) (hbound : coerceAll G vs (h.type.params.drop pos) = .ok bound)
    (hparams : t.params = h.type.params.take pos ++ h.type.params.drop (pos + vs.length))
    (hargs : t.check G args = .ok ()) :
    pos ≤ args.length ∧ h.type.check G (args.take pos ++ bound ++ args.drop pos) = .ok () := by
  obtain ⟨-, hfits⟩ := bound_fits hcount hbound
  have hcount : pos + vs.length ≤ h.type.params.length := hcount
  have hargs := Signature.check_eq_ok_iff.1 hargs
  rw [hparams] at hargs
  obtain ⟨hbefore, hafter⟩ := Value.fitAll_split (by omega) hargs
  refine ⟨?_, Signature.check_eq_ok_iff.2 (Value.fitAll_splice hbefore hfits hafter)⟩
  rw [Value.length_eq_of_fitAll hargs]
  simp
  omega

theorem callsAs_of_insert (hP : P.Blind) {m : Machine} (hm : m.Keyed)
    (hmade : h.insertArguments P.graph s pos vs = .ok b) {bound : List Value}
    (hbound : coerceAll P.graph vs (h.type.params.drop pos) = .ok bound)
    (hargs : b.type.check P.graph args = .ok ()) :
    CallsAs P m 1 b args h (args.take pos ++ bound ++ args.drop pos) := by
  obtain ⟨hcount, -, hparams, bound', hbound', hcases⟩ := insertArguments_made hmade
  obtain rfl := Except.ok.inj (hbound'.symm.trans hbound)
  obtain ⟨hpos, hchecked⟩ := check_bound hcount hbound hparams hargs
  rcases hcases with ⟨rfl, rfl⟩ | ⟨-, hnode⟩
  · obtain rfl : [] = bound' := Except.ok.inj hbound
    refine .of_invokeBasic (u := 0) (v := 0) hm hargs hchecked (Nat.zero_le 1) fun depth => ?_
    simpa using same_invokeBasic_self hP depth b args
  · exact .of_invokeBasic (u := 1) (v := 0) hm hargs hchecked (Nat.le_refl 1) fun depth =>
      same_invokeBasic_of_insert hP hnode hpos depth

/-! ## One after the other -/

/-- What has been bound can be dropped again, which leads back to the signature of the target. -/
theorem exists_drop_of_insert (hh : h.Fitted) (hmade : h.insertArguments G s pos vs = .ok b) (t : Stamp) :
    ∃ d, b.dropArguments t pos ((h.type.params.drop pos).take vs.length) = .ok d ∧ d.type = h.type := by
  obtain ⟨hcount, hret, hparams, -⟩ := insertArguments_made hmade
  have hcount : pos + vs.length ≤ h.type.params.length := hcount
  have hpos : pos ≤ b.type.params.length := by
    simp [hparams]
    omega
  have hfirst : (h.type.params.take pos).length = pos := List.length_take_of_le (by omega)
  have hwhole : b.type.params.take pos ++ (h.type.params.drop pos).take vs.length ++
      b.type.params.drop pos = h.type.params := by
    rw [hparams, List.take_left' hfirst, List.drop_left' hfirst]
    exact take_append_between h.type.params pos vs.length
  have hnew : b.type.insertParams pos ((h.type.params.drop pos).take vs.length) = .ok h.type :=
    Signature.insertParams_eq_ok_iff.2 ⟨hpos, hret.symm, hwhole.symm⟩
  obtain ⟨d, hd⟩ := exists_dropArguments (fitted_insertArguments hh hmade) t hnew
  obtain ⟨-, hdret, hdparams⟩ := dropArguments_type hd
  exact ⟨d, hd, Signature.ext' (hdparams.trans hwhole) (hdret.trans hret)⟩

/-- To what has been dropped one can bind again, wherever the target has a position for it. -/
theorem exists_insert_of_drop_iff {bound : List Value} (hmade : h.dropArguments s pos types = .ok d)
    (hbound : coerceAll G vs (d.type.params.drop pos) = .ok bound) (hlength : vs.length = types.length)
    (t : Stamp) : (∃ b, d.insertArguments G t pos vs = .ok b) ↔ pos ≤ h.type.arity := by
  obtain ⟨hpos, hret, hparams⟩ := dropArguments_type hmade
  constructor
  · rintro ⟨b, hb⟩
    obtain ⟨hcount, -⟩ := insertArguments_made hb
    rcases hpos with rfl | hpos
    · obtain rfl := Except.ok.inj hmade
      omega
    · exact hpos
  · intro hpos
    have hpos : pos ≤ h.type.params.length := hpos
    have hnew : d.type.dropParams pos (pos + vs.length) = .ok h.type := by
      refine Signature.dropParams_eq_ok_iff.2 ⟨Nat.le_add_right _ _, ?_, hret.symm, ?_⟩
      · show pos + vs.length ≤ d.type.params.length
        simp [hparams]
        omega
      · rw [hparams, hlength]
        exact (take_append_drop_spliced hpos).symm
    exact exists_insertArguments t hbound hnew

theorem type_of_insert_of_drop (hmade : h.dropArguments s pos types = .ok d)
    (hlength : vs.length = types.length) {t : Stamp} (hb : d.insertArguments G t pos vs = .ok b) :
    b.type = h.type := by
  obtain ⟨hpos, hret, hparams⟩ := dropArguments_type hmade
  obtain ⟨hcount, hbret, hbparams, -⟩ := insertArguments_made hb
  refine Signature.ext' ?_ (hbret.trans hret)
  rw [hbparams, hparams, hlength]
  refine take_append_drop_spliced ?_
  rcases hpos with rfl | hpos
  · obtain rfl := Except.ok.inj hmade
    exact Nat.le_trans (Nat.le_add_right _ _) hcount
  · exact hpos

/-- To bind the first parameters it makes no difference which follow. -/
theorem coerceAll_append {us : List Ty} (hlength : vs.length = types.length) :
    coerceAll G vs (types ++ us) = coerceAll G vs types := by
  induction vs generalizing types with
  | nil =>
    obtain rfl := List.length_eq_zero_iff.1 hlength.symm
    simp [coerceAll]
  | cons v vs ih =>
    cases types with
    | nil => cases hlength
    | cons t types =>
      show coerceAll G (v :: vs) (t :: (types ++ us)) = _
      rw [coerceAll, coerceAll, ih (Nat.succ.inj hlength)]

/-- What is bound to the parameters dropped is converted to the types dropped. -/
theorem coerceAll_of_drop (hmade : h.dropArguments s pos types = .ok d)
    (hlength : vs.length = types.length) :
    coerceAll G vs (d.type.params.drop pos) = coerceAll G vs types := by
  obtain ⟨rfl | hpos, -, hparams⟩ := dropArguments_type hmade
  · obtain rfl := List.length_eq_zero_iff.1 hlength
    simp [coerceAll]
  · have hfirst : (h.type.params.take pos).length = pos := List.length_take_of_le hpos
    rw [hparams, List.append_assoc, List.drop_left' hfirst]
    exact coerceAll_append hlength

section Calls

variable {m : Machine} {bound : List Value}

/-- Exact calls of handles with one signature end alike if they do on arguments that fit. -/
theorem CallsAs.of_check {k : Handle} {levels : Nat} (htype : k.type = h.type)
    (hcalls : h.type.check P.graph args = .ok () → CallsAs P m levels k args h args) :
    CallsAs P m levels k args h args := by
  cases hargs : h.type.check P.graph args with
  | ok u => exact hcalls hargs
  | error e =>
    refine ⟨0, 0, Nat.zero_le levels, fun depth => ?_⟩
    rw [invokeExact_of_refused hargs, invokeExact_of_refused (htype ▸ hargs)]

/-- To call what has been bound and dropped again is to call the target with the bound values, whatever
stands at their places. -/
theorem callsAs_of_drop_of_insert (hP : P.Blind) (hm : m.Keyed) (hh : h.Fitted)
    (hb : h.insertArguments P.graph s pos vs = .ok b)
    (hbound : coerceAll P.graph vs (h.type.params.drop pos) = .ok bound) {t : Stamp}
    (hd : b.dropArguments t pos ((h.type.params.drop pos).take vs.length) = .ok d)
    (hargs : d.type.check P.graph args = .ok ()) :
    h.type.check P.graph (args.take pos ++ bound ++ args.drop (pos + vs.length)) = .ok () ∧
      CallsAs P m 2 d args h (args.take pos ++ bound ++ args.drop (pos + vs.length)) := by
  obtain ⟨hcount, -, hparams, -⟩ := insertArguments_made hb
  have htypes : ((h.type.params.drop pos).take vs.length).length = vs.length := by
    have hcount : pos + vs.length ≤ h.type.params.length := hcount
    simp
    omega
  have hkept := check_kept_of_drop hd hargs
  have houter := callsAs_of_drop hP hm (fitted_insertArguments hh hb) hd hargs
  rw [htypes] at hkept houter
  obtain ⟨hpos, hchecked⟩ := check_bound hcount hbound hparams hkept
  have hinner := callsAs_of_insert hP hm hb hbound hkept
  -- the kept arguments are those in front of the place and those behind the values
  have hfirst : (args.take pos).length = pos := by
    obtain ⟨-, -, hdparams⟩ := dropArguments_type hd
    refine List.length_take_of_le ?_
    rw [Value.length_eq_of_fitAll (Signature.check_eq_ok_iff.1 hargs), hdparams, hparams]
    have hcount : pos + vs.length ≤ h.type.params.length := hcount
    simp
    omega
  rw [List.take_left' hfirst, List.drop_left' hfirst] at hchecked hinner
  exact ⟨hchecked, houter.trans hinner⟩

/-- To call what has been dropped and bound again is to call the target. -/
theorem callsAs_of_insert_of_drop (hP : P.Blind) (hm : m.Keyed) (hh : h.Fitted)
    (hd : h.dropArguments s pos types = .ok d) (hlength : vs.length = types.length)
    (hbound : coerceAll P.graph vs types = .ok bound) {t : Stamp}
    (hb : d.insertArguments P.graph t pos vs = .ok b) (args : List Value) :
    CallsAs P m 2 b args h args := by
  have htype := type_of_insert_of_drop hd hlength hb
  refine .of_check htype fun hargs => ?_
  have hargs : b.type.check P.graph args = .ok () := htype ▸ hargs
  have hbound := (coerceAll_of_drop hd hlength).trans hbound
  obtain ⟨hcount, -, hparams, -⟩ := insertArguments_made hb
  obtain ⟨hpos, hchecked⟩ := check_bound hcount hbound hparams hargs
  have houter := callsAs_of_insert hP hm hb hbound hargs
  have hinner := callsAs_of_drop hP hm hh hd hchecked
  -- what is dropped is what has just been put in
  rw [← hlength, ← (bound_fits hcount hbound).1, take_append_drop_spliced hpos] at hinner
  exact houter.trans hinner

end Calls

end Handle

/-- **To bind and to drop are inverse**, in any state that a program can reach and for whatever of its
handles. What has been bound can be dropped again: that has the signature of the handle, and is called as
the handle is with the bound values put in, whatever it is passed there. What has been dropped can be bound
again, to any values for the types dropped, wherever the handle has such a position; that has the
signature of the handle and is called as the handle is, on whatever arguments. -/
theorem Handling.insert_drop_inverse {P : Program} (hP : P.Blind) {m : Machine} {hs : List Handle}
    (hH : Handling P.graph m hs) {h : Handle} (hh : h ∈ hs) (pos : Nat) (vs : List Value) (s t : Stamp) :
    (∀ b, h.insertArguments P.graph s pos vs = .ok b →
      ∃ bound d, Handle.coerceAll P.graph vs (h.type.params.drop pos) = .ok bound ∧
        b.dropArguments t pos ((h.type.params.drop pos).take vs.length) = .ok d ∧ d.type = h.type ∧
        (∀ args e, h.type.check P.graph args = .error e → d.CallsAs P m 0 args h args) ∧
        ∀ args, h.type.check P.graph args = .ok () →
          h.type.check P.graph (args.take pos ++ bound ++ args.drop (pos + vs.length)) = .ok () ∧
            d.CallsAs P m 2 args h (args.take pos ++ bound ++ args.drop (pos + vs.length))) ∧
      ∀ types d, h.dropArguments s pos types = .ok d →
        ∀ bound, vs.length = types.length → Handle.coerceAll P.graph vs types = .ok bound →
          ((∃ b, d.insertArguments P.graph t pos vs = .ok b) ↔ pos ≤ h.type.arity) ∧
            ∀ b, d.insertArguments P.graph t pos vs = .ok b →
              b.type = h.type ∧ ∀ args, b.CallsAs P m 2 args h args := by
  have hfitted := hH.fitted.1 h hh
  have hm := hH.keyed
  constructor
  · intro b hb
    obtain ⟨-, -, -, bound, hbound, -⟩ := Handle.insertArguments_made hb
    obtain ⟨d, hd, htype⟩ := Handle.exists_drop_of_insert hfitted hb t
    refine ⟨bound, d, hbound, hd, htype, fun args e he => ?_, fun args hargs => ?_⟩
    · refine .of_check htype fun hargs => ?_
      rw [hargs] at he
      cases he
    · exact Handle.callsAs_of_drop_of_insert hP hm hfitted hb hbound hd (htype ▸ hargs)
  · intro types d hd bound hlength hbound
    have hdbound := (Handle.coerceAll_of_drop hd hlength).trans hbound
    refine ⟨Handle.exists_insert_of_drop_iff hd hdbound hlength t, fun b hb => ?_⟩
    exact ⟨Handle.type_of_insert_of_drop hd hlength hb,
      Handle.callsAs_of_insert_of_drop hP hm hfitted hd hlength hbound hb⟩

/-- A handle that answers the second of two numbers, with seven bound to the first one, takes two numbers
again when that is dropped. -/
theorem Handling.insert_drop_inverse_of_second :
    let number : Ty := .cls .number
    let seven : Value := .boxed (.prim (.int 7))
    let eight : Value := .boxed (.prim (.int 8))
    ∃ (m : Machine) (b d : Handle), Handling .bootstrap m [.second, .itself] ∧
      Handle.second.insertArguments .bootstrap 4 0 [seven] = .ok b ∧
        b.dropArguments 6 0 [number] = .ok d ∧ d.type = Handle.second.type ∧
          d.CallsAs (.zeros .bootstrap) m 2 [eight, eight] .second [seven, eight] := by
  intro number seven eight
  obtain ⟨m, -, -, hsecond⟩ := Handling.exists_second
  obtain ⟨bound, d, hbound, hd, htype, -, hcalls⟩ :=
    (Handling.insert_drop_inverse (P := .zeros .bootstrap) (fun _ _ => .pure _) hsecond
      List.mem_cons_self 0 [seven] 4 6).1 _ rfl
  obtain rfl : [seven] = bound := Except.ok.inj hbound
  exact ⟨_, _, d, hsecond, rfl, hd, htype, (hcalls [eight, eight] rfl).2⟩

end HandleCalculus
