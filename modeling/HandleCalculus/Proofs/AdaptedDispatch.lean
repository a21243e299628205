import HandleCalculus.Proofs.ConversionReach
import HandleCalculus.Proofs.ReceiverLaw

/-!
# Adapted dispatch

A handle that dispatches refuses a receiver of another class. Adapted to take more, it may be called
with any object, and where the conversion of the first argument fails the receiver is refused for
that. But only the innermost conversion is known to be that of a receiver: what fails in one of the
layers above it is a mere mismatch of types. So of several layers it depends on where the receiver
gets stuck whether a call reports it as one (`ReceiverRefused`); and it is the conversion of another
argument that fails if that comes first.

That is all there is to it, through however many adaptations (`Handle.Adapts.failsWith`). No
conversion on the way makes a fitting receiver of one that does not fit. It may put another
primitive value, or the wrapper object of one, in its place; but a class that has a method is none
of those that wrap (`ClassGraph.HasMethod.bootstrapCount_le`).
-/

set_option autoImplicit false

namespace HandleCalculus

/-! ## Receivers of another class -/

namespace ClassGraph

variable {G : ClassGraph} {c : ClassId}

/-- No bootstrap class has a method. -/
theorem HasMethod.bootstrapCount_le {m : MethodRef} (hm : G.HasMethod m) :
    bootstrapCount ≤ m.cls := by
  have hbare : ∀ c < bootstrapCount, (bootstrapClasses[c]?.getD outside).methods = [] := by decide
  rcases Nat.lt_or_ge m.cls bootstrapCount with hlt | hge
  · unfold HasMethod at hm
    rw [decl, if_pos hlt, hbare m.cls hlt] at hm
    exact absurd hm (Nat.not_lt_zero _)
  · exact hge

theorem isSubclass_wrapper (hc : bootstrapCount ≤ c) (p : Prim) :
    G.isSubclass (ClassId.wrapper p) c = false := by
  cases h : G.isSubclass (ClassId.wrapper p) c with
  | false => rfl
  | true =>
    have hlt : ClassId.wrapper p < bootstrapCount := by cases p <;> decide
    exact absurd (Nat.le_trans hc (le_of_isSubclass h)) (Nat.not_le_of_lt hlt)

end ClassGraph

/-- Whether a value, boxed if it is primitive, is an object and no instance of the class. -/
def Value.Foreign (G : ClassGraph) (c : ClassId) (v : Value) : Prop :=
  ∃ o, v.boxed = .obj o ∧ o.isInstance G (.cls c) = false

section Foreign

variable {G : ClassGraph} {c : ClassId} {v w : Value} {s t : Ty} {conv : Conversion}

theorem Value.foreign_prim (hc : bootstrapCount ≤ c) (x : Scalar) : (prim x).Foreign G c :=
  ⟨.boxed x.type (.prim x), rfl, ClassGraph.isSubclass_wrapper hc x.type⟩

theorem Value.Foreign.ne_null (hv : v.Foreign G c) : v ≠ .null := by
  rintro rfl
  obtain ⟨o, ho, -⟩ := hv
  cases ho

/-- What stands for a class below is not foreign. -/
theorem Value.Foreign.not_isAssignable (hv : v.Foreign G c) (hfits : v.fits G t = true) :
    G.isAssignable t (.cls c) ≠ true := by
  intro hassign
  have hinstance := Value.fits_of_isAssignable hfits hassign
  rcases (Value.fits_reference rfl).1 hinstance with rfl | ⟨o, rfl, ho⟩
  · exact hv.ne_null rfl
  · obtain ⟨o', ho', hforeign⟩ := hv
    obtain rfl := Value.obj.inj ho'
    cases ho.symm.trans hforeign

/-- A conversion leaves the value, boxed or not, or answers a primitive one. -/
theorem Conversion.boxed_of_apply (hs : s ≠ .void) (ht : t ≠ .void) (hc : plan? G s t = some conv)
    (h : conv.apply G v = .ok w) : w.boxed = v.boxed ∨ ∃ x, w = .prim x := by
  cases planned_of_plan? hs ht hc with
  | same | keep =>
    obtain rfl := Except.ok.inj h
    exact Or.inl rfl
  | widen =>
    obtain ⟨x, hx, -⟩ := Value.fits_prim.1 (Value.fits_of_widenTo (G := G) h)
    exact Or.inr ⟨x, hx⟩
  | box =>
    obtain rfl := Except.ok.inj h
    exact Or.inl (by cases v <;> rfl)
  | unbox =>
    obtain ⟨x, hx, -⟩ := Value.fits_prim.1 (Value.fits_of_unboxTo (G := G) h)
    exact Or.inr ⟨x, hx⟩
  | cast => exact Or.inl (congrArg Value.boxed (Value.eq_of_castTo h))

/-- So no conversion makes a fitting receiver of another one. -/
theorem Value.Foreign.apply (hclass : bootstrapCount ≤ c) (hs : s ≠ .void) (ht : t ≠ .void)
    (hc : Conversion.plan? G s t = some conv) (hv : v.Foreign G c) (h : conv.apply G v = .ok w) :
    w.Foreign G c := by
  rcases Conversion.boxed_of_apply hs ht hc h with hsame | ⟨x, rfl⟩
  · obtain ⟨o, ho, hforeign⟩ := hv
    exact ⟨o, hsame.trans ho, hforeign⟩
  · exact foreign_prim hclass x

/-- Only null is too little to unbox. -/
theorem Conversion.isNullPointer_of_apply {e : ConversionError} (h : conv.apply G v = .error e)
    (hv : v ≠ .null) : e.isNullPointer = false := by
  have hwiden : ∀ {v : Value} {p : Prim}, v.widenTo p = .error e → e.isNullPointer = false := by
    intro v p h
    unfold Value.widenTo at h
    split at h <;> cases h
    rfl
  unfold apply at h
  split at h
  · cases h
  · unfold Value.castTo at h
    split at h
    · cases h
    · split at h <;> cases h
      rfl
    · cases h
      rfl
  · cases h
  · unfold Value.unboxTo at h
    split at h
    · next hnull => cases v <;> first | exact absurd rfl hv | cases hnull
    · split at h
      · exact hwiden h
      · cases h
        rfl
  · exact hwiden h
  · cases h
  · cases h

end Foreign

/-! ## Where a receiver gets stuck -/

section Arguments

variable {G : ClassGraph} {asReceiver : Bool} {v : Value} {vs ws args : List Value} {c : Conversion}
  {cs : List Conversion} {e : Error}

theorem convertArguments_cons_eq_ok :
    convertArguments G asReceiver (v :: vs) (c :: cs) = .ok ws ↔
      ∃ w ws', c.apply G v = .ok w ∧ convertArguments G false vs cs = .ok ws' ∧ ws = w :: ws' := by
  rw [convertArguments]
  cases c.apply G v with
  | error e => simp
  | ok w => cases convertArguments G false vs cs <;> simp [eq_comm]

theorem convertArguments_cons_eq_error :
    convertArguments G asReceiver (v :: vs) (c :: cs) = .error e ↔
      (∃ e', c.apply G v = .error e' ∧ e = argumentFailure asReceiver e') ∨
        ∃ w, c.apply G v = .ok w ∧ convertArguments G false vs cs = .error e := by
  rw [convertArguments]
  cases c.apply G v with
  | error e => simp [eq_comm]
  | ok w => cases convertArguments G false vs cs <;> simp

/-- Arguments that fail, the first of them not as a receiver, fail by a conversion. -/
theorem exists_conversion_of_convertArguments (h : convertArguments G false args cs = .error e) :
    ∃ e', e = .conversion e' := by
  induction args generalizing cs with
  | nil => cases h
  | cons v vs ih =>
    cases cs with
    | nil => cases h
    | cons c cs =>
      rcases convertArguments_cons_eq_error.1 h with ⟨e', -, rfl⟩ | ⟨w, -, h⟩
      · exact ⟨e', rfl⟩
      · exact ih h

/-- The first of the arguments, where they fit and are to be converted, and its conversion. -/
theorem Handle.exists_of_plans? {ps ts : List Ty} (hlength : ps.length = ts.length)
    (hfits : Value.fitAll G (v :: vs) ps = true) (hts : Ty.void ∉ ts)
    (hplans : plans? G ps ts = some cs) : ∃ p t ts' c cs', p ≠ .void ∧ t ≠ .void ∧
      v.fits G p = true ∧ ts = t :: ts' ∧ Conversion.plan? G p t = some c ∧ cs = c :: cs' := by
  cases ps with
  | nil => cases hfits
  | cons p ps =>
    cases ts with
    | nil => cases hlength
    | cons t ts =>
      rw [Value.fitAll, Bool.and_eq_true] at hfits
      rw [List.mem_cons, not_or] at hts
      obtain ⟨c, cs', hc, -, hcs⟩ := plans?_cons_eq_some.1 hplans
      exact ⟨p, t, ts, c, cs', Value.ne_void_of_fits hfits.1, Ne.symm hts.1, hfits.1, rfl, hc, hcs⟩

end Arguments

/-- Whether the first of the conversions fails. -/
def firstFails (G : ClassGraph) : List Value → List Conversion → Prop
  | v :: _, c :: _ => ∃ e, c.apply G v = .error e
  | _, _ => False

/-- Whether a call through layers of conversions, the outermost first, reports a receiver of another
class as one: where the innermost layer fails to convert it, or all arguments come through to the
dispatch. -/
def ReceiverRefused (G : ClassGraph) : List (List Conversion) → List Value → Prop
  | [], _ => True
  | cs :: layers, args =>
    layers = [] ∧ firstFails G args cs ∨
      ∃ converted, convertArguments G false args cs = .ok converted ∧
        ReceiverRefused G layers converted

theorem Error.kind_conversion_ne (e : ConversionError) :
    (Error.conversion e).kind ≠ .incompatibleReceiver := by
  show (if e.isNullPointer then Kind.nullPointer else .typeMismatch) ≠ _
  split <;> decide

section Layers

variable {G : ClassGraph} {k : ClassId} {asReceiver : Bool} {x : Value} {rest ws : List Value}
  {c : Conversion} {cs : List Conversion} {layers : List (List Conversion)} {e : Error}

/-- Where a layer converts the arguments, what is below it decides. -/
theorem receiverRefused_of_converted
    (hconverted : convertArguments G asReceiver (x :: rest) (c :: cs) = .ok ws) :
    ReceiverRefused G ((c :: cs) :: layers) (x :: rest) ↔ ReceiverRefused G layers ws := by
  obtain ⟨w, ws', hw, hrest, rfl⟩ := convertArguments_cons_eq_ok.1 hconverted
  have hsame : convertArguments G false (x :: rest) (c :: cs) = .ok (w :: ws') :=
    convertArguments_cons_eq_ok.2 ⟨w, ws', hw, hrest, rfl⟩
  constructor
  · rintro (⟨-, e, he⟩ | ⟨ws, hws, hbelow⟩)
    · cases he.symm.trans hw
    · obtain rfl := Except.ok.inj (hsame.symm.trans hws)
      exact hbelow
  · exact fun hbelow => Or.inr ⟨_, hsame, hbelow⟩

/-- Where a layer fails it is for the receiver, in the innermost layer or above, or for another
argument. -/
theorem receiverRefused_of_failed (hx : x.Foreign G k)
    (hfailed : convertArguments G layers.isEmpty (x :: rest) (c :: cs) = .error e) :
    (e.kind = .incompatibleReceiver ↔ ReceiverRefused G ((c :: cs) :: layers) (x :: rest)) ∧
      ((∃ r, e = .receiver r) ∨ ∃ r, e = .conversion r) := by
  rcases convertArguments_cons_eq_error.1 hfailed with ⟨e', he', rfl⟩ | ⟨w, hw, hrest⟩
  · have hnull := Conversion.isNullPointer_of_apply he' hx.ne_null
    unfold argumentFailure
    rw [hnull]
    cases layers with
    | nil => exact ⟨iff_of_true rfl (Or.inl ⟨rfl, e', he'⟩), Or.inl ⟨_, rfl⟩⟩
    | cons l ls =>
      refine ⟨iff_of_false (Error.kind_conversion_ne e') ?_, Or.inr ⟨e', rfl⟩⟩
      rintro (⟨hinner, -⟩ | ⟨ws, hws, -⟩)
      · cases hinner
      · obtain ⟨w, -, hw, -, -⟩ := convertArguments_cons_eq_ok.1 hws
        cases he'.symm.trans hw
  · -- the receiver comes through, but not all that is behind it
    obtain ⟨e', rfl⟩ := exists_conversion_of_convertArguments hrest
    refine ⟨iff_of_false (Error.kind_conversion_ne e') ?_, Or.inr ⟨e', rfl⟩⟩
    rintro (⟨-, e, he⟩ | ⟨ws, hws, -⟩)
    · cases he.symm.trans hw
    · obtain ⟨-, ws', -, hws', -⟩ := convertArguments_cons_eq_ok.1 hws
      cases hrest.symm.trans hws'

end Layers

section Refusal

variable {P : Program} {v h : Handle} {a : MethodRef} {k : ClassId} {interface : Bool}
  {layers : List (List Conversion)} {x : Value} {rest : List Value}

/-- Whatever is no instance of the class is refused by the dispatch. -/
theorem Handle.perform_virtual_of_foreign (hnode : h.node = .virtual a k interface)
    (rest : List Value) (hx : x.Foreign P.graph k) :
    ∃ e : ReceiverError, ∀ (call : Caller) (f : Handle) (m : Machine), f.node = h.node →
      f.perform P call (x :: rest) m = .error (.error (.receiver e)) m := by
  obtain ⟨o, ho, hforeign⟩ := hx
  cases x with
  | obj o' =>
    obtain rfl := Value.obj.inj ho
    exact ⟨.notInstance o' k, fun call f m hf => perform_virtual_of_not (hf.trans hnode) hforeign⟩
  | prim y =>
    refine ⟨.notObject (.prim y), fun call f m hf => ?_⟩
    obtain ⟨stamp, type, node⟩ := f
    obtain rfl : node = .virtual a k interface := hf.trans hnode
    have hreceiver : Run.ofExcept (receiver (.method a) (.prim y :: rest)) m =
        .error (.error (.receiver (.notObject (.prim y)))) m := rfl
    exact bind_eq_of_error hreceiver _
  | null => cases ho
  | void => cases ho

/-- A receiver of another class is refused, by the dispatch or on the way to it, or the conversion
of an argument fails. -/
theorem Handle.Layered.refusal (hv : v.Layered P.graph layers h)
    (hnode : v.node = .virtual a k interface) (hk : bootstrapCount ≤ k)
    (hargs : Value.fitAll P.graph (x :: rest) h.type.params = true) (hx : x.Foreign P.graph k) :
    ∃ e : Error, v.Stops P layers (x :: rest) (.error e) ∧
      (e.kind = .incompatibleReceiver ↔ ReceiverRefused P.graph layers (x :: rest)) ∧
      ((∃ r, e = .receiver r) ∨ ∃ r, e = .conversion r) := by
  have hdispatches : v.dispatches = true := by
    rw [Handle.dispatches, Handle.variant, hnode]
    rfl
  unfold Stops
  rw [hdispatches]
  -- along the layers, with what has become of the receiver
  induction hv generalizing x rest with
  | bottom node view =>
    obtain ⟨e, he⟩ := Handle.perform_virtual_of_foreign hnode rest hx
    exact ⟨.receiver e, he, iff_of_true rfl trivial, Or.inl ⟨e, rfl⟩⟩
  | @layer h f ps cs ret layers node view length plans below ih =>
    have hps := Value.fitAll_of_isAssignable hargs view
    obtain ⟨p, t, ts, c, cs, hp, ht, hfits, hts, hc, rfl⟩ :=
      Handle.exists_of_plans? length hps f.type.noVoid plans
    rw [convertThrough, Bool.true_and]
    cases hlayer : convertArguments P.graph layers.isEmpty (x :: rest) (c :: cs) with
    | error e => exact ⟨e, rfl, receiverRefused_of_failed hx hlayer⟩
    | ok ws =>
      have hfits := fitAll_of_convertArguments length plans f.type.noVoid hps hlayer
      rw [receiverRefused_of_converted hlayer]
      obtain ⟨w, ws', hw, hws', rfl⟩ := convertArguments_cons_eq_ok.1 hlayer
      exact ih hfits (hx.apply hk hp ht hc hw)

/-- Where the handle at the bottom takes instances of the class only, a receiver of another one is
reported exactly if the layers above the innermost convert the arguments. -/
theorem Handle.Layered.receiverRefused_iff (hv : v.Layered P.graph layers h)
    (hfirst : ∀ p ∈ v.type.params.head?, P.graph.isAssignable p (.cls k) = true)
    (hk : bootstrapCount ≤ k) (hargs : Value.fitAll P.graph (x :: rest) h.type.params = true)
    (hx : x.Foreign P.graph k) : ReceiverRefused P.graph layers (x :: rest) ↔
      ∃ converted, convertThrough P.graph false layers.dropLast (x :: rest) = .ok converted := by
  induction hv generalizing x rest with
  | bottom node view => exact iff_of_true trivial ⟨_, rfl⟩
  | @layer h f ps cs ret layers node view length plans below ih =>
    have hps := Value.fitAll_of_isAssignable hargs view
    obtain ⟨p, t, ts, c, cs, hp, ht, hfits, hts, hc, rfl⟩ :=
      Handle.exists_of_plans? length hps f.type.noVoid plans
    cases layers with
    | nil =>
      refine iff_of_true ?_ ⟨_, rfl⟩
      cases hw : c.apply P.graph x with
      | error e => exact Or.inl ⟨rfl, e, hw⟩
      | ok w =>
        -- nothing foreign comes out of the innermost layer
        have hresult := Conversion.isResultOf_of_apply hc (Value.isResultOf_of_fits hfits) hw
        rw [Value.isResultOf_of_ne ht] at hresult
        cases below with
        | bottom _ view =>
          rw [hts] at view
          generalize v.type.params = qs at view hfirst
          cases view with
          | cons htq _ =>
            exact absurd (P.graph.isAssignable_trans htq (hfirst _ rfl))
              ((hx.apply hk hp ht hc hw).not_isAssignable hresult)
    | cons l ls =>
      rw [List.dropLast_cons_cons, convertThrough, Bool.false_and]
      cases hlayer : convertArguments P.graph false (x :: rest) (c :: cs) with
      | error e => simp [ReceiverRefused, hlayer]
      | ok ws =>
        have hfits := fitAll_of_convertArguments length plans f.type.noVoid hps hlayer
        rw [receiverRefused_of_converted hlayer]
        obtain ⟨w, ws', hw, hws', rfl⟩ := convertArguments_cons_eq_ok.1 hlayer
        exact ih hfits (hx.apply hk hp ht hc hw)

end Refusal

/-! ## Adaptations -/

/-- Whether a handle comes from another one by adaptations, each on whatever machine. -/
inductive Handle.Adapts (G : ClassGraph) (v : Handle) : Handle → Prop where
  | self : Adapts G v v
  | step {h k : Handle} {new : Signature} {m m' : Machine} (before : Adapts G v h)
      (made : h.asType G new m = .ok k m') : Adapts G v k

/-- The conversions of arguments that a handle lies under, the outermost first. -/
def Handle.conversions : Handle → List (List Conversion)
  | ⟨_, _, .convert k cs _⟩ => cs :: k.conversions
  | _ => []

section Adapts

variable {G : ClassGraph} {v h : Handle} {a : MethodRef} {k : ClassId} {interface : Bool}
  {layers : List (List Conversion)}

/-- What comes from a handle of fixed arity is that handle under layers of conversions. -/
theorem Handle.Adapts.layered (hh : v.Adapts G h) (hfixed : v.isVarargs = false) :
    h.isVarargs = false ∧ ∃ layers, v.Layered G layers h := by
  induction hh with
  | self => exact ⟨hfixed, [], .self v⟩
  | step _ made ih =>
    obtain ⟨hfixed, layers, hlayers⟩ := ih
    obtain ⟨rfl | ⟨s, hmade⟩, -⟩ := asType_of_fixed hfixed made
    · exact ⟨hfixed, layers, hlayers⟩
    · refine ⟨isVarargs_convertTo hfixed hmade, ?_⟩
      rcases hlayers.convertTo hmade with h | ⟨_, h⟩ <;> exact ⟨_, h⟩

theorem Handle.Layered.eq_conversions (hv : v.Layered G layers h)
    (hnode : v.node = .virtual a k interface) : layers = h.conversions := by
  induction hv with
  | @bottom h node _ =>
    obtain ⟨stamp, type, node'⟩ := h
    obtain rfl : node' = .virtual a k interface := node.trans hnode
    rfl
  | @layer h f ps cs ret layers node _ _ _ _ ih =>
    obtain ⟨stamp, type, node'⟩ := h
    obtain rfl : node' = .convert f cs ret := node
    exact congrArg (cs :: ·) ih

end Adapts

/-! ## Generic calls -/

section Generic

variable {G : ClassGraph} {s t : Ty} {ts : List Ty} {w : Value} {args : List Value}
  {conv : Conversion} {cs : List Conversion}

theorem ClassGraph.isAssignable_wrapper_object (G : ClassGraph) (p : Prim) :
    G.isAssignable (Ty.wrapper p) .object = true := by
  cases p <;> rfl

/-- Between reference types there is always a conversion. -/
theorem Conversion.exists_plan?_of_reference (G : ClassGraph) (hs : s.isReference = true)
    (ht : t.isReference = true) : ∃ c, plan? G s t = some c := by
  unfold plan?
  by_cases heq : s = t
  · exact ⟨_, if_pos heq⟩
  rw [if_neg heq]
  have hplan : ∀ b, ∃ c, (if b = true then some keep else some (checkCast t)) = some c := by
    intro b
    cases b <;> exact ⟨_, rfl⟩
  cases s with
  | prim _ | void => cases hs
  | cls _ | array _ =>
    cases t with
    | prim _ | void => cases ht
    | cls _ | array _ => exact hplan _

/-- From the root class there is one to every type but `void`. -/
theorem Conversion.exists_plan?_of_object (G : ClassGraph) (ht : t ≠ .void) :
    ∃ c, plan? G .object t = some c := by
  cases t with
  | void => exact absurd rfl ht
  | prim b => exact ⟨_, rfl⟩
  | cls _ | array _ => exact exists_plan?_of_reference G rfl rfl

/-- To the root class there is one from every type. -/
theorem Conversion.exists_plan?_to_object (G : ClassGraph) (t : Ty) :
    ∃ c, plan? G t .object = some c := by
  cases t with
  | void => exact ⟨_, rfl⟩
  | prim a => exact ⟨_, if_pos (G.isAssignable_wrapper_object a)⟩
  | cls _ | array _ => exact exists_plan?_of_reference G rfl rfl

theorem Value.boxed_of_fits (ht : t.isReference = true) (h : w.fits G t = true) : w.boxed = w := by
  rcases (fits_reference ht).1 h with rfl | ⟨o, rfl, -⟩ <;> rfl

/-- From the root class a value that fits a type is converted back from its box. -/
theorem Conversion.apply_boxed (ht : t ≠ .void) (hc : plan? G .object t = some conv)
    (hw : w.fits G t = true) : conv.apply G w.boxed = .ok w := by
  have hplanned := planned_of_plan? (s := .object) nofun ht hc
  generalize hs : Ty.object = s at hplanned
  cases hplanned with
  | same => exact congrArg Except.ok (Value.boxed_of_fits (hs ▸ rfl) hw)
  | widen | box => cases hs
  | unbox _ b =>
    obtain ⟨x, rfl, rfl⟩ := Value.fits_prim.1 hw
    have hsame : x.widen? x.type = some x := if_pos rfl
    show (Value.prim x).widenTo x.type = .ok (.prim x)
    rw [Value.widenTo, Value.widen?, hsame]
    rfl
  | keep _ ht => exact congrArg Except.ok (Value.boxed_of_fits ht hw)
  | cast _ ht =>
    rw [Value.boxed_of_fits ht hw]
    rcases (Value.fits_reference ht).1 hw with rfl | ⟨o, rfl, ho⟩
    · rfl
    · exact if_pos ho

/-- Types of arguments have conversions from as many references of any class. -/
theorem Handle.exists_plans?_of_object (G : ClassGraph) (hts : Ty.void ∉ ts) :
    ∃ cs, plans? G (List.replicate ts.length .object) ts = some cs := by
  induction ts with
  | nil => exact ⟨[], rfl⟩
  | cons t ts ih =>
    rw [List.mem_cons, not_or] at hts
    obtain ⟨c, hc⟩ := Conversion.exists_plan?_of_object G (Ne.symm hts.1)
    obtain ⟨cs, hcs⟩ := ih hts.2
    exact ⟨c :: cs, plans?_cons_eq_some.2 ⟨c, cs, hc, hcs, rfl⟩⟩

/-- By these, arguments that fit come back from their boxes. -/
theorem convertArguments_boxed (hts : Ty.void ∉ ts) (hargs : Value.fitAll G args ts = true)
    (hcs : Handle.plans? G (List.replicate ts.length .object) ts = some cs) (asReceiver : Bool) :
    convertArguments G asReceiver (args.map Value.boxed) cs = .ok args := by
  induction ts generalizing args cs asReceiver with
  | nil =>
    cases args with
    | nil => rfl
    | cons v vs => cases hargs
  | cons t ts ih =>
    cases args with
    | nil => cases hargs
    | cons v vs =>
      rw [List.mem_cons, not_or] at hts
      rw [Value.fitAll, Bool.and_eq_true] at hargs
      obtain ⟨c, cs', hc, hcs', rfl⟩ := Handle.plans?_cons_eq_some.1 hcs
      exact convertArguments_cons_eq_ok.2
        ⟨v, vs, Conversion.apply_boxed (Ne.symm hts.1) hc hargs.1, ih hts.2 hargs.2 hcs' false, rfl⟩

/-- References need no box. -/
theorem Value.map_boxed (hts : ∀ t ∈ ts, t.isReference = true) (hargs : fitAll G args ts = true) :
    args.map boxed = args := by
  induction ts generalizing args with
  | nil =>
    cases args with
    | nil => rfl
    | cons v vs => cases hargs
  | cons t ts ih =>
    cases args with
    | nil => cases hargs
    | cons v vs =>
      rw [fitAll, Bool.and_eq_true] at hargs
      rw [List.map_cons, boxed_of_fits (hts t List.mem_cons_self) hargs.1,
        ih (fun t ht => hts t (List.mem_cons_of_mem _ ht)) hargs.2]

theorem ClassGraph.carrier_of_isAssignable (h : G.isAssignable s t = true) :
    s.carrier = t.carrier := by
  cases hs : s.isReference with
  | false => rw [eq_of_isAssignable hs h]
  | true =>
    have hcarrier : ∀ {u : Ty}, u.isReference = true → u.carrier = .L := by
      intro u hu
      cases u <;> first | rfl | cases hu
    rw [hcarrier hs, hcarrier ((isReference_of_isAssignable h).symm.trans hs)]

/-- What references are assignable to, type by type, are references. -/
theorem ClassGraph.isReference_of_forall₂ {ss : List Ty}
    (h : List.Forall₂ (fun t s => G.isAssignable s t = true) ts ss)
    (hss : ∀ s ∈ ss, s.isReference = true) : ∀ t ∈ ts, t.isReference = true := by
  induction h with
  | nil => exact fun t ht => absurd ht List.not_mem_nil
  | cons hst _ ih =>
    rw [List.forall_mem_cons] at hss ⊢
    exact ⟨(isReference_of_isAssignable hst).symm.trans hss.1, ih hss.2⟩

namespace Handle

variable {v h k : Handle} {new : Signature} {layers : List (List Conversion)}

/-- Where there are conversions for the arguments and the result a handle is adapted. -/
theorem exists_convertTo {ret : Conversion} (hlength : new.params.length = h.type.params.length)
    (hcs : plans? G new.params h.type.params = some cs)
    (hret : Conversion.plan? G h.type.ret new.ret = some ret) (s : Stamp) :
    ∃ k, h.convertTo G s new = .ok k := by
  unfold convertTo
  dsimp only
  by_cases hsame : new = h.type
  · exact ⟨h, if_pos hsame⟩
  have harity : ¬ new.arity ≠ h.type.arity := not_not.2 hlength
  rw [if_neg hsame, if_neg harity, hcs, hret]
  dsimp only
  by_cases hkeep : (cs.all Conversion.isKeep && ret.isKeep) = true
  · -- what needs no conversion is carried alike
    rw [if_pos hkeep]
    rw [Bool.and_eq_true] at hkeep
    have hparams : new.params.map Ty.carrier = h.type.params.map Ty.carrier := by
      have hview := forall₂_of_plans? hlength hcs hkeep.1
      generalize new.params = ps, h.type.params = qs at hview
      induction hview with
      | nil => rfl
      | cons hst _ ih =>
        rw [List.map_cons, List.map_cons, ih, ClassGraph.carrier_of_isAssignable hst]
    have hshape : new.shape = h.type.shape := by
      rw [Signature.shape, Signature.shape, hparams,
        ClassGraph.carrier_of_isAssignable (isAssignable_of_plan? hret hkeep.2)]
    exact ⟨_, if_pos hshape⟩
  · exact ⟨_, if_neg hkeep⟩

theorem type_of_convertTo {s : Stamp} (hmade : h.convertTo G s new = .ok k) : k.type = new := by
  unfold convertTo at hmade
  dsimp only at hmade
  split at hmade
  · next hsame =>
    obtain rfl := Except.ok.inj hmade
    exact hsame.symm
  split at hmade
  · cases hmade
  split at hmade
  · split at hmade
    · exact (retype_eq_ok hmade).2
    · obtain rfl := Except.ok.inj hmade
      rfl
  · cases hmade

/-- Below a generic form of a handle there are the layers of the handle, and what these convert is
what the arguments come to. -/
theorem Layered.generic (hv : v.Layered G layers h)
    (hargs : Value.fitAll G args h.type.params = true)
    (hnew : new.params = List.replicate h.type.params.length .object) {s : Stamp}
    (hmade : h.convertTo G s new = .ok k) : ∃ layers', v.Layered G layers' k ∧
      layers'.length ≤ layers.length + 1 ∧ k.type.params = new.params ∧ ∀ asReceiver,
        convertThrough G asReceiver layers' (args.map Value.boxed) =
          convertThrough G asReceiver layers args := by
  have htype := type_of_convertTo hmade
  have hreference : ∀ t ∈ new.params, t.isReference = true := by
    intro t ht
    rw [hnew] at ht
    rw [List.eq_of_mem_replicate ht]
    rfl
  rcases convertTo_eq_ok hmade with rfl | ⟨cs, ret, hlength, hcs, -, ⟨hkeep, -, hretype⟩ | rfl⟩
  · refine ⟨layers, hv, Nat.le_succ _, congrArg _ htype, fun asReceiver => ?_⟩
    rw [Value.map_boxed (htype ▸ hreference) hargs]
  · -- only the signature is another one, and on references
    have hview := forall₂_of_plans? hlength hcs hkeep
    have hold := ClassGraph.isReference_of_forall₂ hview hreference
    refine ⟨layers, hv.view (retype_eq_ok hretype).1 (htype ▸ hview), Nat.le_succ _,
      congrArg _ htype, fun asReceiver => ?_⟩
    rw [Value.map_boxed hold hargs]
  · refine ⟨cs :: layers, .layer rfl (List.forall₂_same.2 fun t _ => G.isAssignable_refl t) hlength
      hcs hv, Nat.le_refl _, rfl, fun asReceiver => ?_⟩
    rw [hnew] at hcs
    rw [convertThrough, convertArguments_boxed h.type.noVoid hargs hcs]

/-- What a handle of fixed arity converts to it is adapted to. -/
theorem exists_asType (hfixed : h.isVarargs = false) {m : Machine}
    (hk : h.convertTo G m.nextStamp new = .ok k) : ∃ m', h.asType G new m = .ok k m' := by
  rw [asType_eq_of_fixed hfixed]
  by_cases hsame : new = h.type
  · rw [convertTo, if_pos hsame] at hk
    obtain rfl := Except.ok.inj hk
    exact ⟨m, by rw [if_pos hsame]; rfl⟩
  · rw [if_neg hsame]
    unfold Link.build
    dsimp only
    rw [hk]
    exact ⟨_, rfl⟩

/-- What takes no more arguments than there may be has a generic form. -/
theorem exists_toGeneric (hfixed : h.isVarargs = false)
    (hcount : h.type.params.length ≤ maxGenericArguments) (m : Machine) : ∃ k new m',
      h.toGeneric G h.type.params.length m = .ok k m' ∧ h.convertTo G m.nextStamp new = .ok k ∧
        h.asType G new m = .ok k m' ∧
          new.params = List.replicate h.type.params.length .object ∧ new.ret = .object := by
  obtain ⟨new, hgeneric, hnew, hret⟩ :=
    Signature.exists_generic (Nat.le_trans hcount (by decide))
  obtain ⟨cs, hcs⟩ := exists_plans?_of_object G h.type.noVoid
  obtain ⟨ret, hplan⟩ := Conversion.exists_plan?_to_object G h.type.ret
  obtain ⟨k, hk⟩ := exists_convertTo (by rw [hnew, List.length_replicate]) (hnew ▸ hcs)
    (hret ▸ hplan) m.nextStamp
  obtain ⟨m', hmade⟩ := exists_asType hfixed hk
  refine ⟨k, new, m', ?_, hk, hmade, hnew, hret⟩
  unfold toGeneric
  rw [if_neg (Nat.not_lt.2 hcount), hgeneric]
  show EStateM.tryCatch (h.asType G new) _ m = _
  unfold EStateM.tryCatch
  rw [hmade]

/-- Boxes of any class are arguments of the generic form. -/
theorem Layered.entry_generic (hv : v.Layered G layers h) (hfixed : h.isVarargs = false)
    (hargs : Value.fitAll G args h.type.params = true) (hcount : args.length ≤ maxGenericArguments)
    (hboxes : Value.fitAll G (args.map Value.boxed) (List.replicate args.length .object) = true)
    (m : Machine) : ∃ k layers' m', h.entry G args .generic m = .ok (k, args.map Value.boxed) m' ∧
      v.Layered G layers' k ∧ layers'.length ≤ layers.length + 1 ∧ ∀ asReceiver,
        convertThrough G asReceiver layers' (args.map Value.boxed) =
          convertThrough G asReceiver layers args := by
  have hlength : args.length = h.type.params.length := Value.length_eq_of_fitAll hargs
  obtain ⟨k, new, m', htoGeneric, hk, -, hnew, -⟩ := exists_toGeneric hfixed (hlength ▸ hcount) m
  obtain ⟨layers', hlayers, hle, hkparams, hconverted⟩ := hv.generic hargs hnew hk
  refine ⟨k, layers', m', ?_, hlayers, hle, hconverted⟩
  have hcheck : k.type.check G (args.map Value.boxed) = .ok () :=
    Signature.check_eq_ok_iff.2 (by rw [hkparams, hnew, ← hlength]; exact hboxes)
  refine (bind_eq_of_ok (hlength ▸ htoGeneric) _).trans ?_
  unfold checked
  rw [hcheck]
  rfl

end Handle

end Generic

/-! ## Calls -/

/-- The forms of call that take arguments as they are or box them: an exact call takes whatever fits
the signature of the handle, a generic one a limited number of references of any class. -/
def CallForm.Takes (G : ClassGraph) (args : List Value) : CallForm → Prop
  | .exact => True
  | .as _ => False
  | .generic => args.length ≤ maxGenericArguments ∧
    Value.fitAll G (args.map Value.boxed) (List.replicate args.length .object) = true

/-- Whether all calls with the arguments fail with the error before a method body has run, if only
they may go as deep as the handle is adapted. -/
def Handle.FailsWith (P : Program) (h : Handle) (args : List Value) (e : Error) : Prop :=
  ∀ (m : Machine) (form : CallForm) (depth : Nat), m.Settled → form.Takes P.graph args →
    ∃ (s : Stop) (n : Machine),
      h.callThrough P (invokeBasic P depth) args form m = .error s n ∧ n.calls = m.calls ∧
        (s = .exhausted ∨ s = .error e) ∧ (h.conversions.length + 1 < depth → s = .error e)

section Calls

variable {P : Program} {v h : Handle} {a : MethodRef} {k : ClassId} {interface : Bool} {x : Value}
  {rest : List Value}

/-- **Adapted dispatch.** A handle that dispatches on a class which has its method is adapted any
number of times, and called with arguments that fit, the first of them an object of another class.
All such calls fail with one error, that of a bad receiver or of a conversion. It is that of a bad
receiver exactly if the receiver gets stuck in the innermost layer of conversions or all arguments
come through. If the handle takes instances of the class only, this says that the layers above the
innermost one convert the arguments, which is always so where there are none. -/
theorem Handle.Adapts.failsWith (hnode : v.node = .virtual a k interface) (ha : P.graph.HasMethod a)
    (hk : P.graph.isSubclass k a.cls = true) (hh : v.Adapts P.graph h)
    (hargs : Value.fitAll P.graph (x :: rest) h.type.params = true) (hx : x.Foreign P.graph k) :
    ∃ e : Error, h.FailsWith P (x :: rest) e ∧
      ((∃ r, e = .receiver r) ∨ ∃ r, e = .conversion r) ∧
      (e.kind = .incompatibleReceiver ↔ ReceiverRefused P.graph h.conversions (x :: rest)) ∧
      ((∀ p ∈ v.type.params.head?, P.graph.isAssignable p (.cls k) = true) →
        (e.kind = .incompatibleReceiver ↔ ∃ converted,
          convertThrough P.graph false h.conversions.dropLast (x :: rest) = .ok converted)) := by
  have hbootstrap : bootstrapCount ≤ k :=
    Nat.le_trans ha.bootstrapCount_le (ClassGraph.le_of_isSubclass hk)
  have hvfixed : v.isVarargs = false := by rw [isVarargs, hnode]
  obtain ⟨hfixed, layers, hlayers⟩ := hh.layered hvfixed
  obtain rfl := hlayers.eq_conversions hnode
  obtain ⟨e, hstop, hkind, hcases⟩ := hlayers.refusal hnode hbootstrap hargs hx
  refine ⟨e, fun m form depth hm htakes => ?_, hcases, hkind, fun hfirst => ?_⟩
  · cases form with
    | as caller => exact absurd htakes id
    | exact =>
      have hentry : h.entry P.graph (x :: rest) .exact m = .ok (h, x :: rest) m := by
        unfold entry checked
        rw [Signature.check_eq_ok_iff.2 hargs]
        rfl
      obtain ⟨s, n, hfails, hcalls, hs, hdepth⟩ := hlayers.invokeBasic_fails hm hargs hstop depth
      refine ⟨s, n, ?_, hcalls, hs, fun h => hdepth (Nat.lt_of_succ_lt h)⟩
      rw [h.callThrough_eq, hentry]
      exact hfails
    | generic =>
      obtain ⟨f, layers', m', hentry, hlayers', hle, hconverted⟩ :=
        hlayers.entry_generic hfixed hargs htakes.1 htakes.2 m
      obtain ⟨-, hfits, -, next, rfl⟩ := entry_of_fixed hfixed hentry
      have hsettled : Machine.Settled { m with nextStamp := next } := ⟨hm.table, hm.cells⟩
      have hstop' : v.Stops P layers' ((x :: rest).map Value.boxed) (.error e) := by
        unfold Stops
        rw [hconverted]
        exact hstop
      obtain ⟨s, n, hfails, hcalls, hs, hdepth⟩ :=
        hlayers'.invokeBasic_fails hsettled hfits hstop' depth
      refine ⟨s, n, ?_, hcalls, hs, fun h => hdepth (Nat.lt_of_le_of_lt hle h)⟩
      rw [h.callThrough_eq, hentry]
      exact hfails
  · rw [hkind]
    exact hlayers.receiverRefused_iff hfirst hbootstrap hargs hx

/-- A handle on the method of the siblings takes instances of `q/B`, and is adapted to take those of
`p/A` and then objects of any class. An instance of `r/C` is reported as a bad receiver then, but a
string, which no more is one, is not. -/
theorem Handle.Adapts.failsWith_of_siblings : ∃ v h : Handle,
    v.node = .virtual ⟨bootstrapCount, 0⟩ (bootstrapCount + 1) false ∧
    v.type.params = [.cls (bootstrapCount + 1)] ∧ v.Adapts .siblings h ∧ h.type.params = [.object] ∧
    (∃ e, h.FailsWith (.zeros .siblings) [.obj (.inst 0 (bootstrapCount + 2))] e ∧
      e.kind = .incompatibleReceiver) ∧
    ∃ e, h.FailsWith (.zeros .siblings) [.string "x"] e ∧ e.kind ≠ .incompatibleReceiver := by
  let v : Handle := ⟨0, ⟨[.cls (bootstrapCount + 1)], .prim .int, by decide, by decide⟩,
    .virtual ⟨bootstrapCount, 0⟩ (bootstrapCount + 1) false⟩
  let w : Handle := ⟨2, ⟨[.cls bootstrapCount], .prim .int, by decide, by decide⟩,
    .convert v [.checkCast (.cls (bootstrapCount + 1))] .keep⟩
  let h : Handle := ⟨4, ⟨[.object], .prim .int, by decide, by decide⟩,
    .convert w [.checkCast (.cls bootstrapCount)] .keep⟩
  let at' (s : Stamp) : Machine := { Machine.initial true with nextStamp := s }
  have hw : v.asType .siblings w.type (at' 2) = .ok w (at' 4) := rfl
  have hwide : w.asType .siblings h.type (at' 4) = .ok h (at' 6) := rfl
  have ha : ClassGraph.siblings.HasMethod ⟨bootstrapCount, 0⟩ := Nat.zero_lt_one
  have hh : v.Adapts .siblings h := .step (.step .self hw) hwide
  have hsibling : Value.fitAll .siblings [.obj (.inst 0 (bootstrapCount + 2))] h.type.params =
    true := rfl
  have hstring : Value.fitAll .siblings [.string "x"] h.type.params = true := rfl
  refine ⟨v, h, rfl, rfl, hh, rfl, ?_, ?_⟩
  · obtain ⟨e, hfails, -, -, hkind⟩ := failsWith (P := .zeros .siblings) rfl ha (by decide) hh
      hsibling ⟨_, rfl, by decide⟩
    exact ⟨e, hfails, (hkind (by decide)).2 ⟨_, rfl⟩⟩
  · obtain ⟨e, hfails, -, hkind, -⟩ := failsWith (P := .zeros .siblings) rfl ha (by decide) hh
      hstring ⟨_, rfl, by decide⟩
    refine ⟨e, hfails, fun hreceiver => ?_⟩
    -- the first cast is not the innermost one, and fails
    rcases hkind.1 hreceiver with ⟨hinner, -⟩ | ⟨_, hcast, -⟩
    · cases hinner
    · cases hcast

/-- The handles that come of look-ups dispatch on classes that have the method. -/
theorem Dealings.dispatch {G : ClassGraph} (hG : G.MembersNumbered) {own : Lookup → Prop}
    {m : Machine} {hs : List Handle} (hD : Dealings G own m hs) (hv : v ∈ hs)
    (hnode : v.node = .virtual a k interface) : G.HasMethod a ∧ G.isSubclass k a.cls = true := by
  have hown : ∀ l, own l → false = true → l.trusted = false := fun _ _ => nofun
  have hobeys : Node.Obeys (receiverLaw G false) v.node v.type.params :=
    (hD.obeys_receiverLaw hG hown).2 v hv
  rw [hnode] at hobeys
  cases hobeys with
  | plain _ _ law _ => exact law a rfl

end Calls

end HandleCalculus
