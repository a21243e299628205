import HandleCalculus.Proofs.AdaptedCalls

/-!
# Conversions that can succeed

A conversion is chosen from two static types, before there is a value to convert. Most choices leave
a way: some value of the source type is converted without an error. The choice of unboxing does not
always. It is made for every reference type that is no wrapper class, and yet an object that stands
for the type may never hold a fitting primitive value, as no string does and no array. Such a pair
of types is futile (`ClassGraph.Futile`).

What objects may hold depends on what is in wrappers. Boxing puts a primitive value into a wrapper of
its own class, but wrappers can be made with other contents. So all is said of a relation `R` between
the classes of wrappers and the types of their contents: equality, or any relation between that and
the one that always holds.

Futile pairs are all that goes wrong (`Conversion.succeeds_iff`). Where there is no conversion the
adaptation of a handle is refused; where a pair of parameters is futile it is not, and every call of
the handle that it makes fails before anything runs (`Handle.convertTo_reach`).
-/

set_option autoImplicit false

namespace HandleCalculus

/-! ## Values that widen and unbox -/

theorem Scalar.isSome_widen? {x : Scalar} {p : Prim} :
    (x.widen? p).isSome = true ↔ x.type.widensTo p = true := by
  constructor
  · intro h
    unfold widen? at h
    split at h
    · next heq =>
      rw [heq]
      exact p.widensTo_refl
    · split at h
      · next hwide => exact hwide
      · cases h
  · intro h
    unfold widen?
    cases x <;> cases p <;> first | rfl | cases h

namespace Value

theorem exists_widenTo_iff {x : Scalar} {p : Prim} :
    (∃ w, (prim x).widenTo p = .ok w) ↔ x.type.widensTo p = true := by
  rw [← Scalar.isSome_widen?, widenTo, widen?]
  cases x.widen? p with
  | none =>
    constructor
    · rintro ⟨w, hw⟩
      cases hw
    · intro h
      cases h
  | some y => exact ⟨fun _ => rfl, fun _ => ⟨prim y, rfl⟩⟩

/-- What widens is a primitive value. -/
theorem exists_prim_of_widenTo {v w : Value} {p : Prim} (h : v.widenTo p = .ok w) :
    ∃ x : Scalar, v = .prim x := by
  cases v with
  | prim x => exact ⟨x, rfl⟩
  | _ => cases h

/-- What unboxes is a wrapper object with contents that widen. -/
theorem exists_unboxTo_iff {v : Value} {p : Prim} : (∃ w, v.unboxTo p = .ok w) ↔
    ∃ (q : Prim) (x : Scalar), v = .obj (.boxed q (.prim x)) ∧ x.type.widensTo p = true := by
  constructor
  · rintro ⟨w, hw⟩
    unfold unboxTo at hw
    split at hw
    · cases hw
    split at hw
    · next content hcontent =>
      obtain ⟨x, rfl⟩ := exists_prim_of_widenTo hw
      obtain ⟨q, rfl⟩ : ∃ q, v = .obj (.boxed q (.prim x)) := by
        unfold unboxed? at hcontent
        split at hcontent
        · obtain rfl := Option.some.inj hcontent
          exact ⟨_, rfl⟩
        · cases hcontent
      exact ⟨q, x, rfl, exists_widenTo_iff.1 ⟨w, hw⟩⟩
    · cases hw
  · rintro ⟨q, x, rfl, hx⟩
    exact exists_widenTo_iff.2 hx

theorem eq_of_castTo {G : ClassGraph} {v w : Value} {t : Ty} (h : v.castTo G t = .ok w) : w = v := by
  unfold castTo at h
  split at h
  · exact (Except.ok.inj h).symm
  · split at h
    · exact (Except.ok.inj h).symm
    · cases h
  · cases h

/-- Whether the value, if it is a primitive value in a wrapper, is of a type that wrappers of that
class may have inside. -/
def Wraps (R : Prim → Prim → Prop) : Value → Prop
  | .obj (.boxed p (.prim x)) => R p x.type
  | _ => True

section Wraps

variable {R : Prim → Prim → Prop}

theorem wraps_zero (t : Ty) : (zero t).Wraps R := by cases t <;> exact trivial

theorem wraps_boxed (hR : ∀ p, R p p) {v : Value} (hv : v.Wraps R) : v.boxed.Wraps R := by
  cases v with
  | prim x => exact hR x.type
  | _ => exact hv

/-- Whatever has been widened or unboxed is in no wrapper. -/
theorem wraps_of_fits_prim {G : ClassGraph} {v : Value} {p : Prim}
    (hv : v.fits G (.prim p) = true) : v.Wraps R := by
  obtain ⟨x, rfl, -⟩ := fits_prim.1 hv
  exact trivial

/-- No conversion puts into a wrapper what wrappers of its class may not have inside. -/
theorem wraps_of_apply {G : ClassGraph} (hR : ∀ p, R p p) {c : Conversion} {v w : Value}
    (hv : v.Wraps R) (h : c.apply G v = .ok w) : w.Wraps R := by
  cases c with
  | keep =>
    obtain rfl := Except.ok.inj h
    exact hv
  | checkCast t => exact eq_of_castTo h ▸ hv
  | box p =>
    obtain rfl := Except.ok.inj h
    exact wraps_boxed hR hv
  | unbox p => exact wraps_of_fits_prim (fits_of_unboxTo (G := G) h)
  | widen p => exact wraps_of_fits_prim (fits_of_widenTo (G := G) h)
  | zeroForVoid t =>
    obtain rfl := Except.ok.inj h
    exact wraps_zero t
  | discard =>
    obtain rfl := Except.ok.inj h
    exact trivial

end Wraps

end Value

/-! ## Futile pairs of types -/

namespace ClassGraph

/-- Whether an object that stands for the type may hold a value of the primitive type, or one that
widens to it. -/
def Holds (R : Prim → Prim → Prop) (G : ClassGraph) (s : Ty) (p : Prim) : Prop :=
  ∃ q r : Prim, R q r ∧ r.widensTo p = true ∧ G.isAssignable (Ty.wrapper q) s = true

/-- Whether values of the one type could only be unboxed to the other and never hold a fitting one.
-/
def Futile (R : Prim → Prim → Prop) (G : ClassGraph) (s t : Ty) : Prop :=
  s.isReference = true ∧ ∃ p, t = .prim p ∧ ¬ G.Holds R s p

variable {R : Prim → Prim → Prop} {G : ClassGraph} {s t : Ty}

/-- Some value of a reference type unboxes exactly if one may hold a fitting value. -/
theorem holds_iff {p : Prim} (hs : s.isReference = true) : G.Holds R s p ↔
    ∃ v w : Value, v.Wraps R ∧ v.fits G s = true ∧ v.unboxTo p = .ok w := by
  constructor
  · rintro ⟨q, r, hR, hr, hsub⟩
    let v : Value := .obj (.boxed q (.prim (.zero r)))
    have hwraps : v.Wraps R := by
      show R q (Scalar.zero r).type
      rwa [Scalar.type_zero]
    have hwrapper : v.fits G (Ty.wrapper q) = true := Value.fits_of_runtimeType rfl rfl
    obtain ⟨w, hw⟩ : ∃ w, v.unboxTo p = .ok w :=
      Value.exists_unboxTo_iff.2 ⟨q, _, rfl, by rwa [Scalar.type_zero]⟩
    exact ⟨v, w, hwraps, Value.fits_of_isAssignable hwrapper hsub, hw⟩
  · rintro ⟨v, w, hwraps, hv, hw⟩
    obtain ⟨q, x, rfl, hx⟩ := Value.exists_unboxTo_iff.1 ⟨w, hw⟩
    rcases (Value.fits_reference hs).1 hv with hnull | ⟨o, ho, hinst⟩
    · cases hnull
    · cases ho
      exact ⟨q, x.type, hwraps, hx, hinst⟩

end ClassGraph

/-! ## Conversions -/

namespace Conversion

variable {R : Prim → Prim → Prop} {G : ClassGraph} {c : Conversion} {s t : Ty}

/-- Whether some value of the type is converted without an error, if wrappers have inside what they
may. -/
def Succeeds (R : Prim → Prim → Prop) (G : ClassGraph) (c : Conversion) (s : Ty) : Prop :=
  ∃ v w : Value, v.Wraps R ∧ v.fits G s = true ∧ c.apply G v = .ok w

/-- All that can be planned from a reference type to a primitive type is to unbox. -/
private theorem eq_unbox {b : Prim}
    (hc : (match s.unwrapped? with
      | some a => if a.widensTo b then some (unbox b) else none
      | none => some (unbox b)) = some c) : c = unbox b := by
  split at hc
  · split at hc
    · exact (Option.some.inj hc).symm
    · cases hc
  · exact (Option.some.inj hc).symm

private theorem eq_box {a : Prim}
    (hc : (if G.isAssignable (Ty.wrapper a) t then some (box a) else none) = some c) :
    c = box a := by
  split at hc
  · exact (Option.some.inj hc).symm
  · cases hc

private theorem eq_keep_or_checkCast
    (hc : (if G.isAssignable s t then some keep else some (checkCast t)) = some c) :
    c = keep ∨ c = checkCast t := by
  split at hc
  · exact Or.inl (Option.some.inj hc).symm
  · exact Or.inr (Option.some.inj hc).symm

theorem plan?_self (G : ClassGraph) (t : Ty) : plan? G t t = some keep := by
  unfold plan?
  exact if_pos rfl

/-- Which conversion is planned, by what the two types are. -/
inductive Planned : Ty → Ty → Conversion → Prop where
  | same (t : Ty) : Planned t t keep
  | widen {a b : Prim} (h : a.widensTo b = true) : Planned (.prim a) (.prim b) (widen b)
  | box (a : Prim) {t : Ty} (ht : t.isReference = true) : Planned (.prim a) t (box a)
  | unbox {s : Ty} (hs : s.isReference = true) (b : Prim) : Planned s (.prim b) (unbox b)
  | keep {s t : Ty} (hs : s.isReference = true) (ht : t.isReference = true) : Planned s t keep
  | cast {s t : Ty} (hs : s.isReference = true) (ht : t.isReference = true) :
    Planned s t (checkCast t)

/-- The conversions there are between two types other than `void`. -/
theorem planned_of_plan? (hs : s ≠ .void) (ht : t ≠ .void) (hc : plan? G s t = some c) :
    Planned s t c := by
  unfold plan? at hc
  by_cases heq : s = t
  · rw [if_pos heq] at hc
    obtain rfl := Option.some.inj hc
    rw [heq]
    exact .same t
  rw [if_neg heq] at hc
  cases t with
  | void => exact absurd rfl ht
  | prim b =>
    cases s with
    | void => exact absurd rfl hs
    | prim a =>
      have hc : (if a.widensTo b then some (widen b) else none) = some c := hc
      split at hc
      · next hwide =>
        obtain rfl := Option.some.inj hc
        exact .widen hwide
      · cases hc
    | cls k => exact eq_unbox hc ▸ .unbox rfl b
    | array k => exact eq_unbox (s := .array k) hc ▸ .unbox rfl b
  | cls k =>
    cases s with
    | void => exact absurd rfl hs
    | prim a => exact eq_box hc ▸ .box a rfl
    | cls j => rcases eq_keep_or_checkCast hc with rfl | rfl <;> constructor <;> rfl
    | array j => rcases eq_keep_or_checkCast hc with rfl | rfl <;> constructor <;> rfl
  | array k =>
    cases s with
    | void => exact absurd rfl hs
    | prim a => exact eq_box hc ▸ .box a rfl
    | cls j => rcases eq_keep_or_checkCast hc with rfl | rfl <;> constructor <;> rfl
    | array j => rcases eq_keep_or_checkCast hc with rfl | rfl <;> constructor <;> rfl

/-- Some value is converted without an error exactly if the pair of types is not futile. -/
theorem succeeds_iff (hs : s ≠ .void) (ht : t ≠ .void) (hc : plan? G s t = some c) :
    c.Succeeds R G s ↔ ¬ G.Futile R s t := by
  have hzero : (Value.zero s).fits G s = true := by
    rw [← Value.isResultOf_of_ne hs]
    exact Value.isResultOf_zero G s
  -- only unboxing depends on more than there being a value at all
  have hfutile : ¬ (s.isReference = true ∧ t.isPrimitive = true) → ¬ G.Futile R s t := by
    rintro hne ⟨hs, p, rfl, -⟩
    exact hne ⟨hs, rfl⟩
  cases planned_of_plan? hs ht hc with
  | same =>
    refine iff_of_true ⟨_, _, Value.wraps_zero s, hzero, rfl⟩ (hfutile ?_)
    cases s <;> simp [Ty.isReference, Ty.isPrimitive]
  | widen h =>
    rename_i a b
    obtain ⟨w, hw⟩ : ∃ w, (Value.prim (.zero a)).widenTo b = .ok w :=
      Value.exists_widenTo_iff.2 (by rw [Scalar.type_zero]; exact h)
    exact iff_of_true ⟨_, w, Value.wraps_zero (.prim a), hzero, hw⟩ (hfutile (by simp [Ty.isReference]))
  | box a ht =>
    refine iff_of_true ⟨_, _, Value.wraps_zero (.prim a), hzero, rfl⟩ (hfutile ?_)
    simp [Ty.isReference]
  | unbox hs b =>
    have hfutile : G.Futile R s (.prim b) ↔ ¬ G.Holds R s b := by
      simp [ClassGraph.Futile, hs]
    rw [hfutile, not_not, ClassGraph.holds_iff hs]
    exact Iff.rfl
  | keep _ ht =>
    refine iff_of_true ⟨_, _, Value.wraps_zero s, hzero, rfl⟩ (hfutile ?_)
    cases t <;> simp_all [Ty.isReference, Ty.isPrimitive]
  | cast hs ht =>
    have hnull : Value.null.fits G s = true := (Value.fits_reference hs).2 (Or.inl rfl)
    refine iff_of_true ⟨.null, _, trivial, hnull, rfl⟩ (hfutile ?_)
    cases t <;> simp_all [Ty.isReference, Ty.isPrimitive]

/-- No value gets through a conversion between types of a futile pair. -/
theorem exists_error_of_futile (hs : s ≠ .void) (ht : t ≠ .void) (hc : plan? G s t = some c)
    (hst : G.Futile R s t) {v : Value} (hwraps : v.Wraps R) (hv : v.fits G s = true) :
    ∃ e, c.apply G v = .error e := by
  cases happly : c.apply G v with
  | error e => exact ⟨e, rfl⟩
  | ok w => exact absurd hst ((succeeds_iff hs ht hc).1 ⟨v, w, hwraps, hv, happly⟩)

end Conversion

/-- Arguments converted one by one have inside what they may. -/
theorem wraps_of_convertArguments {R : Prim → Prim → Prop} (hR : ∀ p, R p p) {G : ClassGraph}
    {asReceiver : Bool} {cs : List Conversion} {args converted : List Value}
    (hargs : ∀ v ∈ args, v.Wraps R) (h : convertArguments G asReceiver args cs = .ok converted) :
    ∀ w ∈ converted, w.Wraps R := by
  induction cs generalizing asReceiver args converted with
  | nil =>
    cases args <;> cases h <;> exact fun _ hw => nomatch hw
  | cons c cs ih =>
    cases args with
    | nil =>
      cases h
      exact fun _ hw => nomatch hw
    | cons v vs =>
      unfold convertArguments at h
      cases happly : c.apply G v with
      | error e =>
        rw [happly] at h
        cases h
      | ok w =>
        rw [happly] at h
        cases hrest : convertArguments G false vs cs with
        | error e =>
          rw [hrest] at h
          cases h
        | ok ws =>
          rw [hrest] at h
          obtain rfl := Except.ok.inj h
          rw [List.forall_mem_cons] at hargs ⊢
          exact ⟨Value.wraps_of_apply hR hargs.1 happly, ih hargs.2 hrest⟩

/-- So do those converted once for each layer of adaptations. -/
theorem wraps_of_convertThrough {R : Prim → Prim → Prop} (hR : ∀ p, R p p) {G : ClassGraph}
    {asReceiver : Bool} {layers : List (List Conversion)} {args converted : List Value}
    (hargs : ∀ v ∈ args, v.Wraps R) (h : convertThrough G asReceiver layers args = .ok converted) :
    ∀ w ∈ converted, w.Wraps R := by
  induction layers generalizing args with
  | nil =>
    obtain rfl := Except.ok.inj h
    exact hargs
  | cons cs layers ih =>
    unfold convertThrough at h
    cases hfirst : convertArguments G (asReceiver && layers.isEmpty) args cs with
    | error e =>
      rw [hfirst] at h
      cases h
    | ok vs =>
      rw [hfirst] at h
      exact ih (wraps_of_convertArguments hR hargs hfirst) h

/-! ## Adapted handles -/

namespace Handle

variable {R : Prim → Prim → Prop} {G : ClassGraph} {ss ts : List Ty} {s t : Ty} {i : Nat}

theorem plans?_cons_eq_some {cs : List Conversion} : plans? G (s :: ss) (t :: ts) = some cs ↔
    ∃ c cs', Conversion.plan? G s t = some c ∧ plans? G ss ts = some cs' ∧ cs = c :: cs' := by
  constructor
  · intro h
    obtain ⟨c, hc, h⟩ := Option.bind_eq_some_iff.1 h
    obtain ⟨cs', hcs', h⟩ := Option.bind_eq_some_iff.1 h
    exact ⟨c, cs', hc, hcs', (Option.some.inj h).symm⟩
  · rintro ⟨c, cs', hc, hcs', rfl⟩
    rw [plans?, hc, hcs']
    rfl

/-- Types have no conversions if for one of them there is none. -/
theorem plans?_eq_none (hs : ss[i]? = some s) (ht : ts[i]? = some t)
    (hc : Conversion.plan? G s t = none) : plans? G ss ts = none := by
  induction ss generalizing ts i with
  | nil => cases hs
  | cons s' ss ih =>
    cases ts with
    | nil => cases ht
    | cons t' ts =>
      cases i with
      | zero =>
        obtain rfl : s' = s := Option.some.inj hs
        obtain rfl : t' = t := Option.some.inj ht
        simp [plans?, hc]
      | succ i => simp [plans?, ih (by simpa using hs) (by simpa using ht)]

/-- Arguments of the types do not get through if a pair of types is futile. -/
theorem exists_error_of_futile (hss : Ty.void ∉ ss) (hts : Ty.void ∉ ts) (hs : ss[i]? = some s)
    (ht : ts[i]? = some t) (hst : G.Futile R s t) {cs : List Conversion}
    (hcs : plans? G ss ts = some cs) {args : List Value} (hwraps : ∀ v ∈ args, v.Wraps R)
    (hargs : Value.fitAll G args ss = true) (asReceiver : Bool) :
    ∃ e, convertArguments G asReceiver args cs = .error e := by
  induction ss generalizing ts i cs args asReceiver with
  | nil => cases hs
  | cons s' ss ih =>
    cases ts with
    | nil => cases ht
    | cons t' ts =>
      cases args with
      | nil => cases hargs
      | cons v vs =>
        obtain ⟨c, cs', hc, hcs', rfl⟩ := plans?_cons_eq_some.1 hcs
        simp only [Value.fitAll, Bool.and_eq_true] at hargs
        simp only [List.mem_cons, not_or] at hss hts
        rw [List.forall_mem_cons] at hwraps
        unfold convertArguments
        cases happly : c.apply G v with
        | error e => exact ⟨_, rfl⟩
        | ok w =>
          cases i with
          | zero =>
            obtain rfl : s' = s := Option.some.inj hs
            obtain rfl : t' = t := Option.some.inj ht
            obtain ⟨e, he⟩ := Conversion.exists_error_of_futile (Ne.symm hss.1) (Ne.symm hts.1) hc
              hst hwraps.1 hargs.1
            cases happly.symm.trans he
          | succ i =>
            obtain ⟨e, he⟩ := ih hss.2 hts.2 (by simpa using hs) (by simpa using ht) hcs' hwraps.2
              hargs.2 false
            exact ⟨e, by rw [he]⟩

/-- A handle is not adapted where there is no conversion for a parameter. -/
theorem convertTo_eq_error {h : Handle} {new : Signature} (hs : new.params[i]? = some s)
    (ht : h.type.params[i]? = some t) (hc : Conversion.plan? G s t = none) (stamp : Stamp) :
    h.convertTo G stamp new = .error (.misfit (.adaptation h.type new)) := by
  have hne : new ≠ h.type := by
    rintro rfl
    obtain rfl : s = t := Option.some.inj (hs.symm.trans ht)
    rw [Conversion.plan?_self] at hc
    cases hc
  unfold convertTo
  rw [if_neg hne, plans?_eq_none hs ht hc]
  split <;> rfl

/-- What an adaptation with a futile pair of parameters makes converts its arguments. -/
theorem eq_convert_of_futile {h h' : Handle} {new : Signature} (hs : new.params[i]? = some s)
    (ht : h.type.params[i]? = some t) (hst : G.Futile R s t) {stamp : Stamp}
    (hmade : h.convertTo G stamp new = .ok h') : ∃ cs ret,
      plans? G new.params h.type.params = some cs ∧ h' = ⟨stamp, new, .convert h cs ret⟩ := by
  obtain ⟨href, p, rfl, -⟩ := hst
  -- nothing assignable to a primitive type is a reference type
  have hassign : G.isAssignable s (.prim p) ≠ true := by
    intro hsub
    have heq := ClassGraph.isReference_of_isAssignable hsub
    rw [href] at heq
    cases heq
  unfold convertTo at hmade
  dsimp only at hmade
  split at hmade
  · next heq =>
    rw [heq, ht] at hs
    exact absurd (Option.some.inj hs ▸ G.isAssignable_refl _) hassign
  split at hmade
  · cases hmade
  next harity =>
  split at hmade
  · next cs ret hcs _ =>
    split at hmade
    · next hkeep =>
      rw [Bool.and_eq_true] at hkeep
      have hview := List.forall₂_iff_get.1 (forall₂_of_plans? (not_not.1 harity) hcs hkeep.1)
      obtain ⟨hi, rfl⟩ := List.getElem?_eq_some_iff.1 hs
      obtain ⟨hi', hprim⟩ := List.getElem?_eq_some_iff.1 ht
      have hsub : G.isAssignable new.params[i] h.type.params[i] = true := hview.2 i hi' hi
      rw [hprim] at hsub
      exact absurd hsub hassign
    · exact ⟨cs, ret, hcs, (Except.ok.inj hmade).symm⟩
  · cases hmade

end Handle

/-- Whether every call of a handle fails before a method body has run, in whatever form and to
whatever depth the handle is called, if wrappers have inside what they may. -/
def Handle.NeverRuns (R : Prim → Prim → Prop) (P : Program) (h : Handle) : Prop :=
  ∀ m : Machine, m.Reached → ∀ (form : CallForm) (args : List Value) (depth : Nat),
    (∀ v ∈ args, v.Wraps R) → ∃ (s : Stop) (n : Machine),
      h.callThrough P (Handle.invokeBasic P depth) args form m = .error s n ∧ n.calls = m.calls

/-- A handle adapted with a futile pair of parameters never runs anything. -/
theorem Handle.neverRuns_of_futile {R : Prim → Prim → Prop} (hR : ∀ p, R p p) {P : Program}
    {h h' : Handle} {new : Signature} {s t : Ty} {i : Nat} (hs : new.params[i]? = some s)
    (ht : h.type.params[i]? = some t) (hst : P.graph.Futile R s t) {stamp : Stamp}
    (hmade : h.convertTo P.graph stamp new = .ok h') : h'.NeverRuns R P := by
  obtain ⟨cs, ret, hcs, rfl⟩ := eq_convert_of_futile hs ht hst hmade
  intro m hm form args depth hargs
  have hcall := (Handle.mk stamp new (.convert h cs ret)).callThrough_eq P (invokeBasic P depth) args
    form m
  rw [hcall]
  cases hentry : (Handle.mk stamp new (.convert h cs ret)).entry P.graph args form m with
  | error e m' =>
    have hcalls := stays_entry P.graph (Handle.mk stamp new (.convert h cs ret)) args form m
    rw [Link.start, hentry] at hcalls
    exact ⟨_, m', rfl, hcalls⟩
  | ok entry m' =>
    obtain ⟨k, vs⟩ := entry
    obtain ⟨hk, hfits, hvs, next, rfl⟩ := entry_of_fixed rfl hentry
    have hwraps : ∀ v ∈ vs, v.Wraps R := by
      rcases hvs with rfl | rfl
      · exact hargs
      · rw [List.forall_mem_map]
        exact fun v hv => Value.wraps_boxed hR (hargs v hv)
    obtain ⟨layers, hlayers⟩ : ∃ layers,
        (Handle.mk stamp new (.convert h cs ret)).Layered P.graph layers k := by
      rcases hk with rfl | ⟨s', new', hk⟩
      · exact ⟨[], .self _⟩
      · rcases (Layered.self _).convertTo hk with h | ⟨_, h⟩ <;> exact ⟨_, h⟩
    have hsettled : Machine.Settled { m with nextStamp := next } :=
      ⟨hm.settled.table, hm.settled.cells⟩
    obtain ⟨stop, hstop⟩ : ∃ stop,
        (Handle.mk stamp new (.convert h cs ret)).Stops P layers vs stop := by
      unfold Stops
      cases hconverted : convertThrough P.graph _ layers vs with
      | error e => exact ⟨.error e, rfl⟩
      | ok converted =>
        -- what comes down to the adapted handle fails there
        obtain ⟨e, he⟩ := exists_error_of_futile new.noVoid h.type.noVoid hs ht hst hcs
          (wraps_of_convertThrough hR hwraps hconverted)
          (hlayers.fitAll_of_convertThrough hfits hconverted) h.dispatches
        refine ⟨.error e, fun call k n hnode => ?_⟩
        obtain ⟨stamp', type, node⟩ := k
        obtain rfl : node = .convert h cs ret := hnode
        unfold perform
        dsimp only
        rw [he]
        rfl
    obtain ⟨s, n, hfails, hcalls, -, -⟩ := hlayers.invokeBasic_fails hsettled hfits hstop depth
    exact ⟨s, n, hfails, hcalls⟩

/-- **Conversions that can succeed.** A conversion is planned between two types only if some value
of the first is converted without an error, futile pairs apart. Where there is no conversion for a
parameter a handle is not adapted. Where the pair is futile it is, and what is made never runs
anything. All this is so whatever else wrappers may have inside beside values of their own types. -/
theorem Handle.convertTo_reach {R : Prim → Prim → Prop} (hR : ∀ p, R p p) {P : Program} {s t : Ty}
    (hs : s ≠ .void) (ht : t ≠ .void) :
    (∀ c, Conversion.plan? P.graph s t = some c →
      (c.Succeeds R P.graph s ↔ ¬ P.graph.Futile R s t)) ∧
      ∀ (h : Handle) (new : Signature) (i : Nat) (stamp : Stamp), new.params[i]? = some s →
        h.type.params[i]? = some t →
        (Conversion.plan? P.graph s t = none →
          h.convertTo P.graph stamp new = .error (.misfit (.adaptation h.type new))) ∧
        (P.graph.Futile R s t →
          ∀ h', h.convertTo P.graph stamp new = .ok h' → h'.NeverRuns R P) :=
  ⟨fun _ hc => Conversion.succeeds_iff hs ht hc, fun h _ _ stamp hnew hold =>
    ⟨fun hc => h.convertTo_eq_error hnew hold hc stamp,
      fun hst _ hmade => neverRuns_of_futile hR hnew hold hst hmade⟩⟩

/-- Strings are taken for numbers: the conversion is planned although no string has a number inside,
and the identity of `int` seen as taking a string never runs. This is so whatever wrappers have
inside; of the root class, on the other hand, every wrapper is a value. -/
theorem Handle.convertTo_reach_of_string :
    Conversion.plan? .bootstrap .string (.prim .int) = some (.unbox .int) ∧
      ¬ (Conversion.unbox .int).Succeeds (fun _ _ => True) .bootstrap .string ∧
      (Conversion.unbox .int).Succeeds (· = ·) .bootstrap .object ∧
      ∃ (h h' : Handle) (new : Signature), Handle.identity 0 (.prim .int) = .ok h ∧
        new.params = [.string] ∧ h.convertTo .bootstrap 2 new = .ok h' ∧
        h'.NeverRuns (fun _ _ => True) (.zeros .bootstrap) := by
  have hfutile : ClassGraph.bootstrap.Futile (fun _ _ => True) .string (.prim .int) := by
    refine ⟨rfl, .int, rfl, ?_⟩
    rintro ⟨q, -, -, -, hq⟩
    cases q <;> cases hq
  obtain ⟨hplan, hadapt⟩ := convertTo_reach (R := fun _ _ => True) (fun _ => trivial)
    (P := .zeros .bootstrap) (s := .string) (t := .prim .int) (by decide) (by decide)
  have hobject : ¬ ClassGraph.bootstrap.Futile (· = ·) .object (.prim .int) := by
    rintro ⟨-, p, hp, hholds⟩
    cases hp
    exact hholds ⟨.int, .int, rfl, rfl, rfl⟩
  have hunboxes := (convertTo_reach (R := (· = ·)) (fun _ => rfl) (P := .zeros .bootstrap)
    (s := .object) (t := .prim .int) (by decide) (by decide)).1 (.unbox .int) rfl
  refine ⟨rfl, fun hsucceeds => (hplan (.unbox .int) rfl).1 hsucceeds hfutile,
    hunboxes.2 hobject, ?_⟩
  let h : Handle := ⟨0, ⟨[.prim .int], .prim .int, by decide, by decide⟩, .identity⟩
  let new : Signature := ⟨[.string], .prim .int, by decide, by decide⟩
  exact ⟨h, _, new, rfl, rfl, rfl, (hadapt h new 0 2 rfl rfl).2 hfutile _ rfl⟩

end HandleCalculus
