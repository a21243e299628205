import HandleCalculus.Proofs.ConversionReach
import Mathlib.Algebra.Group.Int.Defs

/-!
# Conversions are sound

A value is converted in one of two ways. Where its static type is known a conversion is planned, from the
two types alone; where it is not, the value is coerced, by what it is itself. The two agree on every value
of the type that the conversion was planned for (`Conversion.coerce_eq_apply`): what a conversion of each
kind does to such a value is what coercion does, and a value that is kept fits by transitivity of being
assignable.

Only casting and unboxing can fail (`Conversion.fails_of_apply`). Widening between integral types cannot
lose anything, because the range of a type lies in the ranges of those that it widens to
(`Prim.Represents.mono`).
-/

set_option autoImplicit false

namespace HandleCalculus

/-! ## Widening integers -/

namespace Prim

/-- Whether the values of the type are integers. -/
def isIntegral : Prim → Bool
  | byte | short | char | int | long => true
  | boolean | float | double => false

/-- Whether the integer is in the range of the type. -/
def Represents : Prim → Int → Prop
  | byte, z => -2 ^ 7 ≤ z ∧ z < 2 ^ 7
  | short, z => -2 ^ 15 ≤ z ∧ z < 2 ^ 15
  | char, z => 0 ≤ z ∧ z < 2 ^ 16
  | int, z => -2 ^ 31 ≤ z ∧ z < 2 ^ 31
  | long, z => -2 ^ 63 ≤ z ∧ z < 2 ^ 63
  | boolean, _ | float, _ | double, _ => False

/-- The range of an integral type lies in the ranges of the integral types that it widens to. -/
theorem Represents.mono {p q : Prim} {z : Int} (hz : p.Represents z) (hpq : p.widensTo q = true)
    (hq : q.isIntegral = true) : q.Represents z := by
  cases p <;> cases q <;> first
    | exact hz
    | exact absurd hpq (by decide)
    | exact absurd hq (by decide)
    | (unfold Represents at hz ⊢; omega)

end Prim

namespace Scalar

variable {x y : Scalar} {p : Prim} {z : Int}

/-- A value of an integral type stands for an integer in the range of the type. -/
theorem exists_integer? (hx : x.type.isIntegral = true) :
    ∃ z, x.integer? = some z ∧ x.type.Represents z := by
  cases x with
  | byte n => exact ⟨_, rfl, n.le_toInt, n.toInt_lt⟩
  | short n => exact ⟨_, rfl, n.le_toInt, n.toInt_lt⟩
  | char n => exact ⟨_, rfl, Int.natCast_nonneg _, by exact_mod_cast n.toNat_lt⟩
  | int n => exact ⟨_, rfl, n.le_toInt, n.toInt_lt⟩
  | long n => exact ⟨_, rfl, n.le_toInt, n.toInt_lt⟩
  | boolean | float | double => cases hx

/-- An integer in the range of a type is what its value of the type stands for. -/
theorem integer?_of_ofInteger? (hp : p.isIntegral = true) (hz : p.Represents z)
    (h : ofInteger? z p = some y) : y.integer? = some z := by
  cases p with
  | short =>
    obtain rfl := Option.some.inj h
    exact congrArg some (Int16.toInt_ofInt_of_le hz.1 hz.2)
  | int =>
    obtain rfl := Option.some.inj h
    exact congrArg some (Int32.toInt_ofInt_of_le hz.1 hz.2)
  | long =>
    obtain rfl := Option.some.inj h
    exact congrArg some (Int64.toInt_ofInt_of_le hz.1 hz.2)
  | byte | char => cases h
  | boolean | float | double => cases hp

/-- Widening between integral types leaves the integer as it is. -/
theorem integer?_of_widen? (hx : x.type.isIntegral = true) (hp : p.isIntegral = true)
    (h : x.widen? p = some y) : ∃ z, x.integer? = some z ∧ y.integer? = some z := by
  obtain ⟨z, hxz, hz⟩ := exists_integer? hx
  refine ⟨z, hxz, ?_⟩
  unfold widen? at h
  split at h
  · obtain rfl := Option.some.inj h
    exact hxz
  · split at h
    · next hwide =>
      split at h
      · cases hx
      · obtain ⟨z', hz', h⟩ := Option.bind_eq_some_iff.1 h
        obtain rfl : z = z' := Option.some.inj (hxz.symm.trans hz')
        exact integer?_of_ofInteger? hp (hz.mono hwide hp) h
    · cases h

end Scalar

/-! ## Planned and coerced -/

namespace Value

variable {G : ClassGraph} {v : Value} {t : Ty}

theorem boxed_of_isReference (hv : v.isReference = true) : v.boxed = v := by
  cases v with
  | prim x => cases hv
  | _ => rfl

/-- A value is coerced to a reference type through its wrapper. -/
theorem coerce_reference (ht : t.isReference = true) (v : Value) :
    v.coerce G t = v.boxed.castTo G t := by
  cases t with
  | prim p => cases ht
  | void => cases ht
  | cls c => rfl
  | array c => rfl

theorem coerce_boxed (ht : t.isReference = true) (v : Value) :
    v.boxed.coerce G t = v.coerce G t := by
  rw [coerce_reference ht, coerce_reference ht]
  cases v <;> rfl

/-- A reference is coerced to a primitive type by unboxing it. -/
theorem coerce_prim_of_isReference (hv : v.isReference = true) (p : Prim) :
    v.coerce G (.prim p) = v.unboxTo p := by
  cases v with
  | prim x => cases hv
  | void => cases hv
  | obj o => rfl
  | null => rfl

end Value

namespace Conversion

variable {G : ClassGraph} {c : Conversion} {s t : Ty} {v : Value}

/-- A value of the type that a conversion was planned for is converted to what it is coerced to. -/
theorem coerce_eq_apply (hs : s ≠ .void) (ht : t ≠ .void) (hc : plan? G s t = some c)
    (hv : v.fits G s = true) : v.coerce G t = c.apply G v := by
  -- what a conversion answers fits, so a value that it keeps, boxed or not, is coerced to itself
  have hkept : ∀ w, c.apply G v = .ok w → w.coerce G t = .ok w := by
    intro w hw
    have hresult := isResultOf_of_apply hc (Value.isResultOf_of_fits hv) hw
    rw [Value.isResultOf_of_ne ht] at hresult
    exact Value.coerce_of_fits hresult
  cases planned_of_plan? hs ht hc with
  | same => exact hkept v rfl
  | keep => exact hkept v rfl
  | box _ ht =>
    rw [← Value.coerce_boxed ht]
    exact hkept v.boxed rfl
  | widen =>
    obtain ⟨x, rfl, -⟩ := Value.fits_prim.1 hv
    rfl
  | unbox hs b => exact Value.coerce_prim_of_isReference (Value.isReference_of_fits hs hv) b
  | cast hs ht =>
    rw [Value.coerce_reference ht, Value.boxed_of_isReference (Value.isReference_of_fits hs hv)]
    rfl

/-- How converting a value of the source type fails: casting or unboxing an object that is none of the
type, or unboxing null. -/
def FailsWith (c : Conversion) (v : Value) (e : ConversionError) : Prop :=
  (Error.conversion e).kind = .typeMismatch ∧ v ≠ .null ∧
      ((∃ t, c = checkCast t) ∨ ∃ p, c = unbox p) ∨
    (Error.conversion e).kind = .nullPointer ∧ v = .null ∧ ∃ p, c = unbox p

theorem failsWith_of_castTo {e : ConversionError} (h : v.castTo G t = .error e) :
    (checkCast t).FailsWith v e := by
  unfold Value.castTo at h
  split at h
  · cases h
  · split at h
    · cases h
    · cases h
      exact .inl ⟨rfl, nofun, .inl ⟨t, rfl⟩⟩
  · next hnull _ =>
    cases h
    exact .inl ⟨rfl, fun hv => hnull hv, .inl ⟨t, rfl⟩⟩

theorem failsWith_of_unboxTo {p : Prim} {e : ConversionError} (h : v.unboxTo p = .error e) :
    (unbox p).FailsWith v e := by
  unfold Value.unboxTo at h
  cases v with
  | null =>
    cases h
    exact .inr ⟨rfl, rfl, p, rfl⟩
  | prim x =>
    cases h
    exact .inl ⟨rfl, nofun, .inr ⟨p, rfl⟩⟩
  | void =>
    cases h
    exact .inl ⟨rfl, nofun, .inr ⟨p, rfl⟩⟩
  | obj o =>
    refine .inl ⟨?_, nofun, .inr ⟨p, rfl⟩⟩
    have hnull : (Value.obj o).isNull ≠ true := Bool.false_ne_true
    rw [if_neg hnull] at h
    split at h
    · unfold Value.widenTo at h
      split at h <;> cases h
      rfl
    · cases h
      rfl

/-- Converting a value of the source type fails in a cast or in unboxing, if at all. -/
theorem fails_of_apply (hs : s ≠ .void) (hc : plan? G s t = some c) (hv : v.fits G s = true)
    {e : ConversionError} (h : c.apply G v = .error e) : c.FailsWith v e := by
  by_cases ht : t = .void
  · subst ht
    have hdiscard : c = discard := by
      unfold plan? at hc
      rw [if_neg hs] at hc
      cases s <;> exact (Option.some.inj hc).symm
    subst hdiscard
    cases h
  cases planned_of_plan? hs ht hc with
  | same => cases h
  | keep => cases h
  | box => cases h
  | widen hwide =>
    -- a value of the type widens as the type does
    obtain ⟨x, rfl, rfl⟩ := Value.fits_prim.1 hv
    obtain ⟨w, hw⟩ := Value.exists_widenTo_iff.2 hwide
    cases h.symm.trans hw
  | unbox => exact failsWith_of_unboxTo h
  | cast => exact failsWith_of_castTo h

/-- A conversion from `void` puts a value of the other type in place of none. -/
theorem exists_apply_void (hc : plan? G .void t = some c) :
    ∃ w, c.apply G .void = .ok w ∧ w.isResultOf G t = true := by
  obtain ⟨w, hw⟩ : ∃ w, c.apply G .void = .ok w := by
    unfold plan? at hc
    split at hc
    · obtain rfl := Option.some.inj hc
      exact ⟨_, rfl⟩
    · cases t <;> obtain rfl := Option.some.inj hc <;> exact ⟨_, rfl⟩
  exact ⟨w, hw, isResultOf_of_apply hc rfl hw⟩

/-- **Conversions are sound, and the two ways to convert agree.** Let a conversion be planned from a type
to another. A value of the first, if it is not `void`, is converted to a result of the second, or fails
because it is an object that cannot be cast or unboxed, or because it is null and would be unboxed; and
coercing it to the second type, if that is not `void`, comes to exactly the same. From `void` the
conversion answers a result of the second type. Whatever is coerced to a type, of that type or not, ends
in a value of the type. And widening between integral types leaves the integer as it is. -/
theorem conversions_are_sound (G : ClassGraph) :
    (∀ s t c, plan? G s t = some c → s ≠ .void → ∀ v : Value, v.fits G s = true →
      (∀ w, c.apply G v = .ok w → w.isResultOf G t = true) ∧
      (∀ e, c.apply G v = .error e → c.FailsWith v e) ∧
      (t ≠ .void → v.coerce G t = c.apply G v)) ∧
    (∀ t c, plan? G .void t = some c → ∃ w, c.apply G .void = .ok w ∧ w.isResultOf G t = true) ∧
    (∀ (v : Value) t w, v.coerce G t = .ok w → w.fits G t = true) ∧
    ∀ (x : Scalar) (p : Prim) (w : Value), x.type.isIntegral = true → p.isIntegral = true →
      (Value.prim x).widenTo p = .ok w →
        ∃ y z, w = .prim y ∧ y.type = p ∧ x.integer? = some z ∧ y.integer? = some z := by
  refine ⟨fun s t c hc hs v hv => ⟨fun w hw => ?_, fun e he => fails_of_apply hs hc hv he,
      fun ht => coerce_eq_apply hs ht hc hv⟩,
    fun t c hc => exists_apply_void hc, fun v t w hw => Value.fits_of_coerce hw,
    fun x p w hx hp hw => ?_⟩
  · exact isResultOf_of_apply hc (Value.isResultOf_of_fits hv) hw
  · cases hwide : x.widen? p with
    | none => simp [Value.widenTo, Value.widen?, hwide] at hw
    | some y =>
      obtain rfl : Value.prim y = w := by simpa [Value.widenTo, Value.widen?, hwide] using hw
      obtain ⟨z, hxz, hyz⟩ := Scalar.integer?_of_widen? hx hp hwide
      exact ⟨y, z, rfl, Value.type_of_widen? hwide, hxz, hyz⟩

/-- A `Byte` that stands for an object is unboxed to the `int` that it is coerced to; a string and null
cannot be unboxed, each for its own reason; and the largest `char` is as large an `int`. -/
theorem conversions_are_sound_of_unbox :
    let byte : Value := .boxed (.prim (.byte (-1)))
    let unbox := unbox .int
    plan? .bootstrap .object (.prim .int) = some unbox ∧
      unbox.apply .bootstrap byte = .ok (.prim (.int (-1))) ∧
      byte.coerce .bootstrap (.prim .int) = unbox.apply .bootstrap byte ∧
      (Value.prim (.int (-1))).isResultOf .bootstrap (.prim .int) = true ∧
      unbox.FailsWith (.string "one") (.cannotUnbox (.string "one") .int) ∧
      unbox.FailsWith .null (.unboxNull .int) ∧
      ∃ y z, Value.prim (.int 65535) = .prim y ∧ y.type = .int ∧
        (Scalar.char 65535).integer? = some z ∧ y.integer? = some z := by
  intro byte unbox
  obtain ⟨hplanned, -, -, hwiden⟩ := conversions_are_sound .bootstrap
  have hplan : plan? .bootstrap .object (.prim .int) = some unbox := rfl
  obtain ⟨hok, -, hcoerce⟩ := hplanned _ _ _ hplan nofun byte rfl
  obtain ⟨-, hstring, -⟩ := hplanned _ _ _ hplan nofun (.string "one") rfl
  obtain ⟨-, hnull, -⟩ := hplanned _ _ _ hplan nofun .null rfl
  exact ⟨hplan, rfl, hcoerce nofun, hok _ rfl, hstring _ rfl, hnull _ rfl,
    hwiden (.char 65535) .int _ rfl rfl rfl⟩

end Conversion

end HandleCalculus
