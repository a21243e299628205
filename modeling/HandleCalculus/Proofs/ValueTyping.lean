import HandleCalculus.Conversion
import HandleCalculus.Proofs.Assignability
import Mathlib.Data.List.Forall2

/-!
# Values of a type

What may stand where a type is expected (`Value.fits`) may also stand where a type is expected that
it is assignable to. A result is a value of its type or, for `void`, no value
(`Value.isResultOf`). A conversion planned from one type to another takes the results of the one to
results of the other, and coercion to a type ends in values of the type.

An instance is a number only; which class it is of is kept beside the store, in a list that grows
with it. A value is live if every instance in it is of the class listed (`Value.Lives`), so a value
that is live now stays live.
-/

set_option autoImplicit false

namespace HandleCalculus

/-! ## Values that need no conversion -/

namespace Value

variable {G : ClassGraph} {v w : Value} {s t : Ty}

/-- Whether a value is a reference. -/
def isReference : Value → Bool
  | obj _ | null => true
  | prim _ | void => false

theorem fits_prim {p : Prim} : v.fits G (.prim p) = true ↔ ∃ s : Scalar, v = .prim s ∧ s.type = p := by
  cases v <;> simp [fits, primType?]

theorem fits_reference (ht : t.isReference = true) : v.fits G t = true ↔
    v = .null ∨ ∃ o : Object, v = .obj o ∧ o.isInstance G t = true := by
  cases t with
  | prim p => cases ht
  | void => cases ht
  | cls c => cases v <;> simp [fits]
  | array c => cases v <;> simp [fits]

theorem isReference_of_fits (ht : t.isReference = true) (h : v.fits G t = true) :
    v.isReference = true := by
  rcases (fits_reference ht).1 h with rfl | ⟨o, rfl, -⟩ <;> rfl

/-- Fitting is kept by being assignable. -/
theorem fits_of_isAssignable (h : v.fits G s = true) (hst : G.isAssignable s t = true) :
    v.fits G t = true := by
  by_cases hs : s.isReference = true
  · have ht : t.isReference = true := by
      rw [← ClassGraph.isReference_of_isAssignable hst]
      exact hs
    rw [fits_reference hs] at h
    rw [fits_reference ht]
    rcases h with rfl | ⟨o, rfl, ho⟩
    · exact Or.inl rfl
    · exact Or.inr ⟨o, rfl, G.isAssignable_trans ho hst⟩
  · have heq := ClassGraph.eq_of_isAssignable (by simpa using hs) hst
    rw [← heq]
    exact h

/-- An object fits its own type. -/
theorem fits_of_runtimeType {o : Object} (h : o.runtimeType = t) (ht : t.isReference = true) :
    (obj o).fits G t = true := by
  rw [fits_reference ht]
  refine Or.inr ⟨o, rfl, ?_⟩
  show G.isAssignable o.runtimeType t = true
  rw [h]
  exact G.isAssignable_refl t

/-- Whether a value may be the result of something of the type: no value for `void`, else one that
fits. -/
def isResultOf (G : ClassGraph) (v : Value) (t : Ty) : Bool :=
  match t, v with
  | .void, .void => true
  | .void, _ => false
  | t, v => v.fits G t

theorem isResultOf_of_ne (ht : t ≠ .void) : v.isResultOf G t = v.fits G t := by
  cases t with
  | void => exact absurd rfl ht
  | prim p => rfl
  | cls c => rfl
  | array c => rfl

theorem ne_void_of_fits (h : v.fits G t = true) : t ≠ .void := by
  rintro rfl
  cases h

theorem isResultOf_of_fits (h : v.fits G t = true) : v.isResultOf G t = true := by
  rw [isResultOf_of_ne (ne_void_of_fits h)]
  exact h

theorem isResultOf_of_isAssignable (h : v.isResultOf G s = true)
    (hst : G.isAssignable s t = true) : v.isResultOf G t = true := by
  by_cases hs : s = .void
  · subst hs
    obtain rfl := ClassGraph.eq_of_isAssignable rfl hst
    exact h
  · rw [isResultOf_of_ne hs] at h
    exact isResultOf_of_fits (fits_of_isAssignable h hst)

/-- A slot starts with a value of its type. -/
theorem isResultOf_zero (G : ClassGraph) (t : Ty) : (zero t).isResultOf G t = true := by
  cases t with
  | prim p => simp [zero, isResultOf, fits, primType?, Scalar.type_zero]
  | void => rfl
  | cls c => rfl
  | array c => rfl

/-! ## Converted values -/

theorem type_of_widen? {s s' : Scalar} {p : Prim} (h : s.widen? p = some s') : s'.type = p := by
  unfold Scalar.widen? at h
  by_cases hp : s.type = p
  · rw [if_pos hp] at h
    obtain rfl := Option.some.inj h
    exact hp
  rw [if_neg hp] at h
  by_cases hwide : s.type.widensTo p = true
  · rw [if_pos hwide] at h
    split at h
    · obtain rfl := Option.some.inj h
      -- the only type above `float` is `double`
      have hwide : Prim.float.widensTo p = true := hwide
      cases p <;> first | rfl | exact absurd rfl hp | exact absurd hwide (by decide)
    · obtain ⟨z, -, hz⟩ := Option.bind_eq_some_iff.1 h
      cases p <;> simp only [Scalar.ofInteger?, Option.some.injEq, reduceCtorEq] at hz <;>
        subst hz <;> rfl
  · rw [if_neg hwide] at h
    cases h

theorem fits_of_widenTo {p : Prim} (h : v.widenTo p = .ok w) : w.fits G (.prim p) = true := by
  unfold widenTo at h
  split at h
  · next w' hw =>
    obtain rfl := Except.ok.inj h
    cases v with
    | prim s =>
      obtain ⟨s', hs', rfl⟩ := Option.map_eq_some_iff.1 hw
      rw [fits_prim]
      exact ⟨s', rfl, type_of_widen? hs'⟩
    | obj o => cases hw
    | null => cases hw
    | void => cases hw
  · cases h

theorem fits_of_unboxTo {p : Prim} (h : v.unboxTo p = .ok w) : w.fits G (.prim p) = true := by
  unfold unboxTo at h
  split at h
  · cases h
  · split at h
    · exact fits_of_widenTo h
    · cases h

theorem fits_of_castTo (ht : t.isReference = true) (h : v.castTo G t = .ok w) :
    w.fits G t = true := by
  rw [fits_reference ht]
  cases v with
  | prim s => cases h
  | void => cases h
  | null =>
    obtain rfl := Except.ok.inj h
    exact Or.inl rfl
  | obj o =>
    by_cases ho : o.isInstance G t = true
    · have hcast : (obj o).castTo G t = .ok (obj o) := by simp [castTo, ho]
      obtain rfl := Except.ok.inj (hcast.symm.trans h)
      exact Or.inr ⟨o, rfl, ho⟩
    · have hcast : (obj o).castTo G t = .error (.cannotCast (obj o) t) := by simp [castTo, ho]
      rw [hcast] at h
      cases h

/-- What a coercion ends in fits. -/
theorem fits_of_coerce (h : v.coerce G t = .ok w) : w.fits G t = true := by
  cases t with
  | void => cases h
  | prim p =>
    have h : (if v.primType?.isSome then v.widenTo p else v.unboxTo p) = .ok w := h
    split at h
    · exact fits_of_widenTo h
    · exact fits_of_unboxTo h
  | cls c => exact fits_of_castTo rfl h
  | array c => exact fits_of_castTo rfl h

/-- A value that fits a type is converted to itself. -/
theorem coerce_of_fits (hv : v.fits G t = true) : v.coerce G t = .ok v := by
  have hreference : t.isReference = true → v.boxed.castTo G t = .ok v := by
    intro ht
    rcases (fits_reference ht).1 hv with rfl | ⟨o, rfl, ho⟩
    · rfl
    · exact if_pos ho
  cases t with
  | void => cases hv
  | prim p =>
    obtain ⟨s, rfl, hs⟩ := fits_prim.1 hv
    show (prim s).widenTo p = .ok (prim s)
    simp [widenTo, widen?, Scalar.widen?, hs]
  | cls c => exact hreference rfl
  | array c => exact hreference rfl

end Value

namespace Conversion

variable {G : ClassGraph} {c : Conversion} {s t : Ty} {v w : Value}

/-- Boxing, towards a type that the wrapper class is assignable to. -/
private theorem isResultOf_of_box {a : Prim} (hv : v.isResultOf G (.prim a) = true)
    (hc : (if G.isAssignable (Ty.wrapper a) t then some (box a) else none) = some c)
    (h : c.apply G v = .ok w) : w.isResultOf G t = true := by
  split at hc
  · next hbox =>
    obtain rfl := Option.some.inj hc
    obtain rfl := Except.ok.inj h
    rw [Value.isResultOf_of_ne (by simp), Value.fits_prim] at hv
    obtain ⟨x, rfl, hx⟩ := hv
    have hwrapper : (Value.prim x).boxed.fits G (Ty.wrapper a) = true :=
      Value.fits_of_runtimeType (by rw [← hx]; rfl) rfl
    exact Value.isResultOf_of_fits (Value.fits_of_isAssignable hwrapper hbox)
  · cases hc

/-- Passing on or casting, from one reference type to another. -/
private theorem isResultOf_of_cast (ht : t.isReference = true) (hv : v.isResultOf G s = true)
    (hc : (if G.isAssignable s t then some keep else some (checkCast t)) = some c)
    (h : c.apply G v = .ok w) : w.isResultOf G t = true := by
  split at hc
  · next hassign =>
    obtain rfl := Option.some.inj hc
    obtain rfl := Except.ok.inj h
    exact Value.isResultOf_of_isAssignable hv hassign
  · obtain rfl := Option.some.inj hc
    exact Value.isResultOf_of_fits (Value.fits_of_castTo ht h)

/-- Unboxing, from any reference type that is not the wrapper class of a wider type. -/
private theorem isResultOf_of_unbox {b : Prim}
    (hc : (match s.unwrapped? with
      | some a => if a.widensTo b then some (unbox b) else none
      | none => some (unbox b)) = some c)
    (h : c.apply G v = .ok w) : w.isResultOf G (.prim b) = true := by
  have hunbox : c = unbox b := by
    split at hc
    · split at hc
      · exact (Option.some.inj hc).symm
      · cases hc
    · exact (Option.some.inj hc).symm
  subst hunbox
  exact Value.isResultOf_of_fits (Value.fits_of_unboxTo h)

/-- A planned conversion takes results of the one type to results of the other. -/
theorem isResultOf_of_apply (hc : plan? G s t = some c) (hv : v.isResultOf G s = true)
    (h : c.apply G v = .ok w) : w.isResultOf G t = true := by
  -- the cases of `plan?`, in its order
  by_cases heq : s = t
  · unfold plan? at hc
    rw [if_pos heq] at hc
    obtain rfl := Option.some.inj hc
    obtain rfl := Except.ok.inj h
    rw [← heq]
    exact hv
  unfold plan? at hc
  rw [if_neg heq] at hc
  by_cases ht : t = .void
  · subst ht
    have hdiscard : c = discard := by
      cases s <;> exact (Option.some.inj hc).symm
    subst hdiscard
    obtain rfl := Except.ok.inj h
    rfl
  by_cases hs : s = .void
  · subst hs
    have hzero : c = zeroForVoid t := by
      cases t <;> first | exact absurd rfl ht | exact (Option.some.inj hc).symm
    subst hzero
    obtain rfl := Except.ok.inj h
    exact Value.isResultOf_zero G t
  -- what is left is between primitive types and reference types
  cases t with
  | void => exact absurd rfl ht
  | prim b =>
    cases s with
    | void => exact absurd rfl hs
    | prim a =>
      have hc : (if a.widensTo b then some (widen b) else none) = some c := hc
      split at hc
      · obtain rfl := Option.some.inj hc
        exact Value.isResultOf_of_fits (Value.fits_of_widenTo h)
      · cases hc
    | cls k => exact isResultOf_of_unbox hc h
    | array k => exact isResultOf_of_unbox (s := .array k) hc h
  | cls k =>
    cases s with
    | void => exact absurd rfl hs
    | prim a => exact isResultOf_of_box hv hc h
    | cls j => exact isResultOf_of_cast rfl hv hc h
    | array j => exact isResultOf_of_cast rfl hv hc h
  | array k =>
    cases s with
    | void => exact absurd rfl hs
    | prim a => exact isResultOf_of_box hv hc h
    | cls j => exact isResultOf_of_cast rfl hv hc h
    | array j => exact isResultOf_of_cast rfl hv hc h

end Conversion

/-! ## Live values -/

mutual

/-- Whether every instance in an object is of the class listed under its number. -/
def Object.Lives (classes : List ClassId) : Object → Prop
  | .inst id c => classes[id]? = some c
  | .array _ _ elems => Value.AllLive classes elems
  | .boxed _ content => content.Lives classes
  | .str _ | .throwable .. => True

/-- Whether every instance in a value is of the class listed under its number. -/
def Value.Lives (classes : List ClassId) : Value → Prop
  | .obj o => o.Lives classes
  | .prim _ | .null | .void => True

/-- The same of a list of values. -/
def Value.AllLive (classes : List ClassId) : List Value → Prop
  | [] => True
  | v :: vs => v.Lives classes ∧ Value.AllLive classes vs

end

namespace Value

variable {classes classes' : List ClassId} {G : ClassGraph} {v w : Value} {t : Ty}

theorem allLive_iff {vs : List Value} : AllLive classes vs ↔ ∀ v ∈ vs, v.Lives classes := by
  induction vs with
  | nil => simp [AllLive]
  | cons v vs ih => simp [AllLive, ih]

theorem allLive_append {vs ws : List Value} :
    AllLive classes (vs ++ ws) ↔ AllLive classes vs ∧ AllLive classes ws := by
  simp only [allLive_iff, List.mem_append]
  constructor
  · intro h
    exact ⟨fun v hv => h v (Or.inl hv), fun v hv => h v (Or.inr hv)⟩
  · rintro ⟨hvs, hws⟩ v (hv | hv)
    · exact hvs v hv
    · exact hws v hv

theorem AllLive.of_sublist {vs ws : List Value} (h : AllLive classes ws) (hs : vs.Sublist ws) :
    AllLive classes vs := by
  rw [allLive_iff] at h ⊢
  intro v hv
  exact h v (hs.subset hv)

theorem AllLive.set {vs : List Value} (h : AllLive classes vs) (hv : v.Lives classes) (i : Nat) :
    AllLive classes (vs.set i v) := by
  rw [allLive_iff] at h ⊢
  intro w hw
  rcases List.mem_or_eq_of_mem_set hw with hw | rfl
  · exact h w hw
  · exact hv

end Value

mutual

theorem Object.Lives.mono {classes classes' : List ClassId} (h : classes <+: classes') :
    ∀ {o : Object}, o.Lives classes → o.Lives classes'
  | .inst id c, ho => by
    have hid : classes[id]? = some c := ho
    obtain ⟨more, rfl⟩ := h
    have hlt : id < classes.length := (List.getElem?_eq_some_iff.1 hid).1
    show (classes ++ more)[id]? = some c
    rw [List.getElem?_append_left hlt]
    exact hid
  | .array _ _ _, ho => Value.AllLive.mono h ho
  | .boxed _ _, ho => Value.Lives.mono h ho
  | .str _, _ => trivial
  | .throwable .., _ => trivial

theorem Value.Lives.mono {classes classes' : List ClassId} (h : classes <+: classes') :
    ∀ {v : Value}, v.Lives classes → v.Lives classes'
  | .obj _, hv => Object.Lives.mono h hv
  | .prim _, _ => trivial
  | .null, _ => trivial
  | .void, _ => trivial

theorem Value.AllLive.mono {classes classes' : List ClassId} (h : classes <+: classes') :
    ∀ {vs : List Value}, Value.AllLive classes vs → Value.AllLive classes' vs
  | [], _ => trivial
  | _ :: _, hvs => ⟨Value.Lives.mono h hvs.1, Value.AllLive.mono h hvs.2⟩

end

namespace Value

variable {classes : List ClassId} {G : ClassGraph} {v w : Value} {t : Ty}

theorem lives_zero (classes : List ClassId) (t : Ty) : (zero t).Lives classes := by
  cases t <;> exact trivial

theorem lives_boxed (hv : v.Lives classes) : v.boxed.Lives classes := by
  cases v with
  | prim s => exact trivial
  | obj o => exact hv
  | null => exact trivial
  | void => exact trivial

theorem allLive_boxed {vs : List Value} (hvs : AllLive classes vs) :
    AllLive classes (vs.map boxed) := by
  rw [allLive_iff] at hvs ⊢
  intro w hw
  obtain ⟨v, hv, rfl⟩ := List.mem_map.1 hw
  exact lives_boxed (hvs v hv)

theorem lives_of_widenTo {p : Prim} (h : v.widenTo p = .ok w) : w.Lives classes := by
  obtain ⟨s, rfl, -⟩ := fits_prim.1 (fits_of_widenTo (G := .bootstrap) h)
  exact trivial

theorem lives_of_unboxTo {p : Prim} (h : v.unboxTo p = .ok w) : w.Lives classes := by
  obtain ⟨s, rfl, -⟩ := fits_prim.1 (fits_of_unboxTo (G := .bootstrap) h)
  exact trivial

theorem lives_of_castTo (hv : v.Lives classes) (h : v.castTo G t = .ok w) : w.Lives classes := by
  unfold castTo at h
  split at h
  · obtain rfl := Except.ok.inj h
    exact trivial
  · split at h
    · obtain rfl := Except.ok.inj h
      exact hv
    · cases h
  · cases h

theorem lives_of_coerce (hv : v.Lives classes) (h : v.coerce G t = .ok w) : w.Lives classes := by
  cases t with
  | void => cases h
  | prim p =>
    have h : (if v.primType?.isSome then v.widenTo p else v.unboxTo p) = .ok w := h
    split at h
    · exact lives_of_widenTo h
    · exact lives_of_unboxTo h
  | cls c => exact lives_of_castTo (lives_boxed hv) h
  | array c => exact lives_of_castTo (lives_boxed hv) h

end Value

theorem Conversion.lives_of_apply {classes : List ClassId} {G : ClassGraph} {c : Conversion}
    {v w : Value} (hv : v.Lives classes) (h : c.apply G v = .ok w) : w.Lives classes := by
  cases c with
  | keep =>
    obtain rfl := Except.ok.inj h
    exact hv
  | checkCast t => exact Value.lives_of_castTo hv h
  | box p =>
    obtain rfl := Except.ok.inj h
    exact Value.lives_boxed hv
  | unbox t => exact Value.lives_of_unboxTo h
  | widen t => exact Value.lives_of_widenTo h
  | zeroForVoid t =>
    obtain rfl := Except.ok.inj h
    exact Value.lives_zero classes t
  | discard =>
    obtain rfl := Except.ok.inj h
    exact trivial

/-! ## Arguments -/

namespace Value

variable {G : ClassGraph}

/-- Whether the values are as many as the types and each fits the type beside it. -/
def fitAll (G : ClassGraph) : List Value → List Ty → Bool
  | [], [] => true
  | v :: vs, t :: ts => v.fits G t && fitAll G vs ts
  | _, _ => false

theorem fitAll_iff {vs : List Value} {ts : List Ty} :
    fitAll G vs ts = true ↔ List.Forall₂ (fun v t => v.fits G t = true) vs ts := by
  induction vs generalizing ts with
  | nil => cases ts <;> simp [fitAll]
  | cons v vs ih => cases ts <;> simp [fitAll, ih]

theorem length_eq_of_fitAll {vs : List Value} {ts : List Ty} (h : fitAll G vs ts = true) :
    vs.length = ts.length := (fitAll_iff.1 h).length_eq

theorem fitAll_append {vs ws : List Value} {ts us : List Ty} (hv : fitAll G vs ts = true)
    (hw : fitAll G ws us = true) : fitAll G (vs ++ ws) (ts ++ us) = true := by
  rw [fitAll_iff] at hv hw ⊢
  exact List.rel_append hv hw

theorem fitAll_take {vs : List Value} {ts : List Ty} (h : fitAll G vs ts = true) (n : Nat) :
    fitAll G (vs.take n) (ts.take n) = true :=
  fitAll_iff.2 (List.forall₂_take n (fitAll_iff.1 h))

theorem fitAll_drop {vs : List Value} {ts : List Ty} (h : fitAll G vs ts = true) (n : Nat) :
    fitAll G (vs.drop n) (ts.drop n) = true :=
  fitAll_iff.2 (List.forall₂_drop n (fitAll_iff.1 h))

/-- The first values fit the first types. -/
theorem fitAll_of_prefix {vs : List Value} {ts us : List Ty} (h : fitAll G vs ts = true)
    (hus : us <+: ts) : fitAll G (vs.take us.length) us = true := by
  have hfirst := fitAll_take h us.length
  rwa [← List.prefix_iff_eq_take.1 hus] at hfirst

/-- Values that fit also fit types that theirs are assignable to. -/
theorem fitAll_of_isAssignable {vs : List Value} {ss ts : List Ty} (h : fitAll G vs ss = true)
    (hst : List.Forall₂ (fun t s => G.isAssignable s t = true) ts ss) : fitAll G vs ts = true := by
  induction hst generalizing vs with
  | nil => exact h
  | cons hst _ ih =>
    cases vs with
    | nil => cases h
    | cons v vs =>
      simp only [fitAll, Bool.and_eq_true] at h ⊢
      exact ⟨fits_of_isAssignable h.1 hst, ih h.2⟩

/-- The zeros of types fit these. -/
theorem fitAll_zero {ts : List Ty} (hts : Ty.void ∉ ts) : fitAll G (ts.map zero) ts = true := by
  refine fitAll_iff.2 (List.forall₂_map_left_iff.2 (List.forall₂_same.2 fun t ht => ?_))
  have hvoid : t ≠ .void := fun h => hts (h ▸ ht)
  rw [← isResultOf_of_ne hvoid]
  exact isResultOf_zero G t

end Value

end HandleCalculus
