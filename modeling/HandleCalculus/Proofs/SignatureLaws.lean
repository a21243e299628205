import HandleCalculus.Proofs.SignatureInterning

/-!
# The laws of editing signatures

An edit gives exactly the signature of the edited list, or is refused because its positions are out of
range or the list is none of a signature (`Signature.Gives`). So the laws of lists are laws of signatures,
as far as the limit on slots allows. Erasing never takes more slots, nor does wrapping; unwrapping a `Long`
or a `Double` takes one more, and is the only one of the three that can be refused.

What holds type by type (`Ty.wrapped_bare` and its siblings) is carried over by `Signature.of_eq_ok_iff`.
Signatures that are equal are one and the same, whichever calls made them (`Signature.Interning`).
-/

set_option autoImplicit false

namespace HandleCalculus

/-! ## Types erased, wrapped and unwrapped -/

namespace Ty

variable {t : Ty}

theorem carrier_erased (t : Ty) : t.erased.carrier = t.carrier := by
  cases t <;> rfl

theorem slots_erased (t : Ty) : t.erased.slots = t.slots := by
  cases t <;> rfl

theorem erased_erased (t : Ty) : t.erased.erased = t.erased := by
  cases t <;> rfl

theorem eq_void_of_erased (h : t.erased = .void) : t = .void := by
  cases t with
  | void => rfl
  | _ => cases h

theorem slots_wrapped_le (t : Ty) : t.wrapped.slots ≤ t.slots := by
  cases t with
  | prim p => exact slots_pos nofun
  | _ => exact Nat.le_refl _

theorem eq_void_of_wrapped (h : t.wrapped = .void) : t = .void := by
  cases t with
  | void => rfl
  | _ => cases h

theorem isPrimitive_wrapped (t : Ty) : t.wrapped.isPrimitive = false := by
  cases t <;> rfl

theorem wrapped_eq_self_iff : t.wrapped = t ↔ t.isPrimitive = false := by
  cases t with
  | prim p => exact ⟨nofun, nofun⟩
  | _ => exact ⟨fun _ => rfl, fun _ => rfl⟩

theorem bare_eq_self_iff : t.bare = t ↔ t.unwrapped? = none := by
  unfold bare
  cases hp : t.unwrapped? with
  | none => exact ⟨fun _ => rfl, fun _ => rfl⟩
  | some p =>
    -- a wrapper is a class
    refine ⟨fun h => ?_, nofun⟩
    rw [← h] at hp
    cases hp

/-- Wrapping first makes no difference to unwrapping. -/
theorem bare_wrapped (t : Ty) : t.wrapped.bare = t.bare := by
  cases t with
  | prim p =>
    show (wrapper p).bare = _
    rw [bare, unwrapped?_wrapper]
    rfl
  | _ => rfl

/-- Unwrapping first makes no difference to wrapping. -/
theorem wrapped_bare (t : Ty) : t.bare.wrapped = t.wrapped := by
  unfold bare
  cases hp : t.unwrapped? with
  | none => rfl
  | some p =>
    cases t with
    | cls c => exact congrArg Ty.cls (ClassId.wrapper_of_unwrapped? hp)
    | _ => cases hp

end Ty

theorem map_eq_self_iff {f : Ty → Ty} {ts : List Ty} : ts.map f = ts ↔ ∀ t ∈ ts, f t = t := by
  conv_lhs => rhs; rw [← List.map_id ts]
  exact List.map_inj_left

theorem slotCount_map_le {f : Ty → Ty} (hf : ∀ t, (f t).slots ≤ t.slots) (ts : List Ty) :
    slotCount (ts.map f) ≤ slotCount ts := by
  induction ts with
  | nil => exact Nat.le_refl _
  | cons t ts ih => exact Nat.add_le_add (hf t) ih

/-- Every parameter takes a slot. -/
theorem length_le_slotCount {ts : List Ty} (hts : Ty.void ∉ ts) : ts.length ≤ slotCount ts := by
  induction ts with
  | nil => exact Nat.le_refl _
  | cons t ts ih =>
    obtain ⟨ht, hts⟩ := not_or.1 (mt List.mem_cons.2 hts)
    rw [List.length_cons, slotCount_cons, Nat.add_comm]
    exact Nat.add_le_add (Ty.slots_pos (Ne.symm ht)) (ih hts)

namespace Signature

variable {s t u : Signature}

theorem hasPrimitives_eq_false_iff :
    t.hasPrimitives = false ↔ t.ret.wrapped = t.ret ∧ t.params.map Ty.wrapped = t.params := by
  rw [hasPrimitives, Bool.or_eq_false_iff, Ty.wrapped_eq_self_iff, map_eq_self_iff,
    List.any_eq_false]
  simp only [Ty.wrapped_eq_self_iff, Bool.not_eq_true]

theorem hasWrappers_eq_false_iff :
    t.hasWrappers = false ↔ t.ret.bare = t.ret ∧ t.params.map Ty.bare = t.params := by
  rw [hasWrappers, Bool.or_eq_false_iff, Ty.bare_eq_self_iff, map_eq_self_iff, List.any_eq_false]
  simp only [Ty.bare_eq_self_iff, Option.isSome_eq_false_iff, Option.isNone_iff_eq_none,
    Bool.not_eq_true]

/-! ## What an edit gives -/

/-- Whether an edit gives exactly the signature of the edited types. It does if its positions are in
range, no parameter is void and there are slots for all; otherwise it is refused. -/
structure Gives (x : Except Error Signature) (inRange : Prop) (ret : Ty) (params : List Ty) :
    Prop where
  ok_iff : ∀ u : Signature, x = .ok u ↔ inRange ∧ u.ret = ret ∧ u.params = params
  error_iff : (∃ e, x = .error e) ↔ ¬ inRange ∨ Ty.void ∈ params ∨ 255 < slotCount params
  kind : ∀ e, x = .error e → e.kind = .invalidSignature

theorem kind_of {ret : Ty} {params : List Ty} {e : Error} (h : of ret params = .error e) :
    e.kind = .invalidSignature := by
  unfold of at h
  split at h
  · cases h
    rfl
  · split at h
    · cases h
    · cases h
      rfl

theorem gives_of (ret : Ty) (params : List Ty) : Gives (of ret params) True ret params where
  ok_iff u := by rw [of_eq_ok_iff, true_and]
  error_iff := by
    have hok : (∃ u, of ret params = .ok u) ↔ _ := exists_of_iff
    rw [not_true, false_or]
    cases hx : of ret params with
    | ok u =>
      obtain ⟨hvoid, hslots⟩ := hok.1 ⟨u, hx⟩
      exact ⟨nofun, fun h => absurd h (not_or.2 ⟨hvoid, Nat.not_lt.2 hslots⟩)⟩
    | error e =>
      refine ⟨fun _ => ?_, fun _ => ⟨e, rfl⟩⟩
      by_contra h
      obtain ⟨hvoid, hslots⟩ := not_or.1 h
      obtain ⟨u, hu⟩ := hok.2 ⟨hvoid, Nat.not_lt.1 hslots⟩
      cases hx.symm.trans hu
  kind _ h := kind_of h

/-- An edit that looks at its positions before it makes the signature. -/
theorem gives_if {p : Prop} [Decidable p] (fault : SignatureError) (ret : Ty) (params : List Ty) :
    Gives (if p then of ret params else .error (.signature fault)) p ret params := by
  by_cases hp : p
  · rw [if_pos hp]
    obtain ⟨hok, herror, hkind⟩ := gives_of ret params
    exact ⟨by simpa [hp] using hok, by simpa [hp] using herror, hkind⟩
  · rw [if_neg hp]
    refine ⟨fun u => ⟨nofun, fun h => absurd h.1 hp⟩, ⟨fun _ => .inl hp, fun _ => ⟨_, rfl⟩⟩, ?_⟩
    intro e he
    cases he
    rfl

theorem gives_appendParams (t : Signature) (ts : List Ty) :
    Gives (t.appendParams ts) True t.ret (t.params ++ ts) := by
  have happend : t.appendParams ts = of t.ret (t.params ++ ts) := by
    rw [appendParams, insertParams, if_pos (Nat.le_refl _)]
    simp [arity]
  rw [happend]
  exact gives_of _ _

/-- What was just put in can be taken out again. -/
theorem dropParams_of_insertParams {i : Nat} {ts : List Ty} (h : t.insertParams i ts = .ok u) :
    u.dropParams i (i + ts.length) = .ok t := by
  obtain ⟨hi, hret, hparams⟩ := insertParams_eq_ok_iff.1 h
  have hlength : (t.params.take i).length = i := List.length_take_of_le hi
  refine dropParams_eq_ok_iff.2 ⟨Nat.le_add_right _ _, ?_, hret.symm, ?_⟩
  · rw [arity, hparams, List.length_append, List.length_append, hlength]
    exact Nat.le_add_right _ _
  · rw [hparams, List.append_assoc, List.take_left' hlength, ← List.drop_drop,
      List.drop_left' hlength, List.drop_left' rfl, List.take_append_drop]

/-! ## Erased, wrapped and unwrapped signatures -/

/-- A change of every type that makes no voids and takes no more slots gives a signature. -/
theorem exists_of_map (t : Signature) {f : Ty → Ty} (hvoid : ∀ p, f p = .void → p = .void)
    (hslots : ∀ p, (f p).slots ≤ p.slots) :
    ∃ u, of (f t.ret) (t.params.map f) = .ok u ∧ u.ret = f t.ret ∧ u.params = t.params.map f := by
  have hnoVoid : Ty.void ∉ t.params.map f := by
    rw [List.mem_map]
    rintro ⟨p, hp, hfp⟩
    exact t.noVoid (hvoid p hfp ▸ hp)
  have hle := Nat.le_trans (slotCount_map_le hslots t.params) t.slots_le
  obtain ⟨u, hu⟩ := exists_of_iff.2 ⟨hnoVoid, hle⟩
  exact ⟨u, hu, of_eq_ok_iff.1 hu⟩

theorem exists_erase (t : Signature) :
    ∃ u, t.erase = .ok u ∧ u.ret = t.ret.erased ∧ u.params = t.params.map Ty.erased :=
  t.exists_of_map (fun _ => Ty.eq_void_of_erased) fun p => Nat.le_of_eq p.slots_erased

theorem exists_wrap (t : Signature) :
    ∃ w, t.wrap = .ok w ∧ w.ret = t.ret.wrapped ∧ w.params = t.params.map Ty.wrapped := by
  rw [wrap_eq]
  exact t.exists_of_map (fun _ => Ty.eq_void_of_wrapped) Ty.slots_wrapped_le

theorem unwrap_eq (t : Signature) : t.unwrap = of t.ret.bare (t.params.map Ty.bare) := rfl

/-- Erasing keeps the erased shape and is done once and for all. -/
theorem erase_laws (t : Signature) : ∃ u, t.erase = .ok u ∧ u.shape = t.shape ∧ u.erase = .ok u ∧
    ∃ g, u.toGeneric = .ok g ∧ t.toGeneric = .ok g ∧ g.erase = .ok g := by
  obtain ⟨u, hu, hret, hparams⟩ := t.exists_erase
  obtain ⟨g, hg, hgparams, hgret⟩ :=
    exists_generic (Nat.le_trans (length_le_slotCount t.noVoid) t.slots_le)
  have harity : u.arity = t.arity := by rw [arity, hparams, List.length_map, arity]
  refine ⟨u, hu, ?_, ?_, g, ?_, hg, ?_⟩
  · rw [shape, shape, hret, hparams, Ty.carrier_erased, List.map_map]
    congr 2
    exact funext Ty.carrier_erased
  · refine of_eq_ok_iff.2 ⟨?_, ?_⟩
    · show u.ret = u.ret.erased
      rw [hret, Ty.erased_erased]
    · show u.params = u.params.map Ty.erased
      rw [hparams, List.map_map]
      exact List.map_congr_left fun p _ => p.erased_erased.symm
  · rw [toGeneric, harity]
    exact hg
  · refine of_eq_ok_iff.2 ⟨?_, ?_⟩
    · show g.ret = g.ret.erased
      rw [hgret]
      rfl
    · show g.params = g.params.map Ty.erased
      rw [hgparams, List.map_replicate]
      rfl

/-- Wrapping always gives a signature, without primitives, and unwrapping it is unwrapping. -/
theorem wrap_laws (t : Signature) : ∃ w, t.wrap = .ok w ∧ w.hasPrimitives = false ∧
    w.unwrap = t.unwrap ∧ ∀ u, t.unwrap = .ok u → u.wrap = .ok w := by
  obtain ⟨w, hw, hret, hparams⟩ := t.exists_wrap
  refine ⟨w, hw, ?_, ?_, fun u hu => ?_⟩
  · rw [hasPrimitives, hret, hparams, Ty.isPrimitive_wrapped, Bool.false_or, List.any_map,
      List.any_eq_false]
    exact fun p _ => by simp [Ty.isPrimitive_wrapped]
  · rw [unwrap_eq, unwrap_eq, hret, hparams, Ty.bare_wrapped, List.map_map]
    congr 2
    exact funext Ty.bare_wrapped
  · obtain ⟨huret, huparams⟩ := of_eq_ok_iff.1 (t.unwrap_eq ▸ hu)
    rw [wrap_eq, huret, huparams, Ty.wrapped_bare, List.map_map, ← hw, wrap_eq]
    congr 2
    exact funext Ty.wrapped_bare

/-- Unwrapping leaves a signature as it is exactly if no type of it is a wrapper. -/
theorem unwrap_eq_self_iff : t.unwrap = .ok t ↔ t.hasWrappers = false := by
  rw [unwrap_eq, of_eq_ok_iff, hasWrappers_eq_false_iff]
  exact and_congr eq_comm eq_comm

/-- Wrapping leaves a signature as it is exactly if no type of it is primitive. -/
theorem wrap_eq_self_iff : t.wrap = .ok t ↔ t.hasPrimitives = false := by
  rw [wrap_eq, of_eq_ok_iff, hasPrimitives_eq_false_iff]
  exact and_congr eq_comm eq_comm

/-- A signature can be unwrapped and wrapped again exactly if it has no primitives and there are slots
for what is in its wrappers. -/
theorem wrap_of_unwrap_iff : (∃ u, t.unwrap = .ok u ∧ u.wrap = .ok t) ↔
    t.hasPrimitives = false ∧ slotCount (t.params.map Ty.bare) ≤ 255 := by
  obtain ⟨w, hw, -, -, hback⟩ := t.wrap_laws
  have hsame : w = t ↔ t.hasPrimitives = false := by
    rw [← wrap_eq_self_iff, hw, Except.ok.injEq]
  constructor
  · rintro ⟨u, hu, hwrap⟩
    have hparams := (of_eq_ok_iff.1 (t.unwrap_eq ▸ hu)).2
    exact ⟨hsame.1 (Except.ok.inj ((hback u hu).symm.trans hwrap)), hparams ▸ u.slots_le⟩
  · rintro ⟨hprimitives, hslots⟩
    have hnoVoid : Ty.void ∉ t.params.map Ty.bare := by
      rw [List.mem_map]
      rintro ⟨p, hp, hbare⟩
      have hwrapped := p.wrapped_bare
      rw [hbare] at hwrapped
      exact t.noVoid (Ty.eq_void_of_wrapped hwrapped.symm ▸ hp)
    obtain ⟨u, hu⟩ : ∃ u, t.unwrap = .ok u := exists_of_iff.2 ⟨hnoVoid, hslots⟩
    exact ⟨u, hu, by rw [hback u hu, hsame.2 hprimitives]⟩

/-! ## Identity -/

/-- A call for a signature that has a place in the pool is answered that one. -/
theorem Interning.Sound.answer_eq {c : Interning} (hc : c.Sound) {x j : Nat} {q : Request}
    {answer : Except Error (Signature × Nat)} (ht : c.pool.entries[x]? = some t)
    (hq : c.Answered j q answer) (hmake : q.make = .ok t) : answer = .ok (t, x) := by
  cases answer with
  | error e =>
    cases hc.fair _ (List.mem_of_getElem? hq) with
    | refused made => cases hmake.symm.trans made
  | ok a =>
    obtain ⟨t', y⟩ := a
    obtain ⟨made, kept⟩ := hc.of_answered hq
    obtain rfl : t = t' := Except.ok.inj (hmake.symm.trans made)
    rw [(hc.place_eq_iff ht kept).2 rfl]

/-- **Editing signatures obeys the laws of lists.** Every edit gives exactly the signature of the edited
list; it is refused if a position is out of range, a parameter would be void or the list takes more than
255 slots, as no signature, and otherwise not. What was just put in can be taken out. Erasing keeps the
erased shape, is done once and for all, and the generic signature is the same before and after. Wrapping
always gives a signature, one without primitives; unwrapping that is unwrapping the signature, and
wrapping what is unwrapped is wrapping it. So wrapping and then unwrapping changes nothing exactly if
there are no wrappers, unwrapping and then wrapping exactly if there are no primitives and what is in the
wrappers has room.

Signatures are told apart by their identity. Once a call was answered the signature, it stays what it is,
whatever is edited afterwards, and every call whose edit comes to it is answered that very one. -/
theorem edits_obey_list_laws (t : Signature) :
    (∀ i p, Gives (t.changeParam i p) (i < t.arity) t.ret (t.params.set i p)) ∧
    (∀ i ts, Gives (t.insertParams i ts) (i ≤ t.arity) t.ret
      (t.params.take i ++ ts ++ t.params.drop i)) ∧
    (∀ ts, Gives (t.appendParams ts) True t.ret (t.params ++ ts)) ∧
    (∀ start stop, Gives (t.dropParams start stop) (start ≤ stop ∧ stop ≤ t.arity) t.ret
      (t.params.take start ++ t.params.drop stop)) ∧
    (∀ p, Gives (t.changeReturn p) True p t.params) ∧
    (∀ i ts u, t.insertParams i ts = .ok u → u.dropParams i (i + ts.length) = .ok t) ∧
    (∃ u, t.erase = .ok u ∧ u.shape = t.shape ∧ u.erase = .ok u ∧
      ∃ g, u.toGeneric = .ok g ∧ t.toGeneric = .ok g ∧ g.erase = .ok g) ∧
    Gives t.unwrap True t.ret.bare (t.params.map Ty.bare) ∧
    (∃ w, t.wrap = .ok w ∧ w.hasPrimitives = false ∧ w.unwrap = t.unwrap ∧
      (∀ u, t.unwrap = .ok u → u.wrap = .ok w) ∧
      (w.unwrap = .ok t ↔ t.hasWrappers = false)) ∧
    ((∃ u, t.unwrap = .ok u ∧ u.wrap = .ok t) ↔
      t.hasPrimitives = false ∧ slotCount (t.params.map Ty.bare) ≤ 255) ∧
    ∀ (before between : List Interning.Move) (i : Nat) (r : Request) (x : Nat),
      (Interning.empty.run before).Answered i r (.ok (t, x)) →
      let later := (Interning.empty.run before).run between
      later.pool.entries[x]? = some t ∧
        ∀ j q answer, later.Answered j q answer → q.make = .ok t → answer = .ok (t, x) := by
  refine ⟨fun i p => gives_if _ _ _, fun i ts => gives_if _ _ _, t.gives_appendParams,
    fun start stop => gives_if _ _ _, fun p => gives_of _ _,
    fun i ts u => dropParams_of_insertParams, t.erase_laws, gives_of _ _, ?_, wrap_of_unwrap_iff, ?_⟩
  · obtain ⟨w, hw, hprimitives, hunwrap, hback⟩ := t.wrap_laws
    exact ⟨w, hw, hprimitives, hunwrap, hback, by rw [hunwrap, unwrap_eq_self_iff]⟩
  · intro before between i r x hi later
    have hsound : Interning.Sound (Interning.empty.run before) := Interning.sound_empty.run before
    have hkept : later.pool.entries[x]? = some t :=
      Interning.getElem?_mono (Interning.pool_grows_run _ between) (hsound.of_answered hi).2
    exact ⟨hkept, fun j q answer hq hmake => (hsound.run between).answer_eq hkept hq hmake⟩

/-- A parameter is added at the end and taken out again, in a call that takes turns with one that is
refused, and the signature is the one that there was; and 128 parameters of class `Long` can be wrapped,
but have no room once unwrapped. -/
theorem edits_obey_list_laws_of_round_trip :
    let t : Signature := ⟨[.wrapper .int, .prim .long], .prim .int, by decide, by decide⟩
    let u : Signature := ⟨[.wrapper .int, .prim .long, .string], .prim .int, by decide, by decide⟩
    let before : List Interning.Move := [.ask (.of t.ret t.params), .goOn 0, .goOn 0]
    let between : List Interning.Move := [.ask (.dropParams u 2 3), .ask (.changeParam t 2 .string),
      .goOn 2, .goOn 1]
    let later := (Interning.empty.run before).run between
    (t.appendParams [.string] = .ok u ∧ u.dropParams 2 3 = .ok t ∧
      later.Answered 1 (.dropParams u 2 3) (.ok (t, 0))) ∧
    ∃ (longs w : Signature) (e : Error), longs.params = List.replicate 128 (.wrapper .long) ∧
      longs.wrap = .ok w ∧ w.unwrap = .error e ∧ e.kind = .invalidSignature := by
  intro t u before between later
  have hbefore : Interning.empty.run before =
      ⟨⟨[t]⟩, [⟨.of t.ret t.params, .answered (.ok (t, 0))⟩]⟩ := by rfl
  have hlater : later = ⟨⟨[t]⟩, [⟨.of t.ret t.params, .answered (.ok (t, 0))⟩,
      ⟨.dropParams u 2 3, .answered (.ok (t, 0))⟩,
      ⟨.changeParam t 2 .string, .answered (.error (.signature (.indexOutOfRange 2 t)))⟩]⟩ := by
    show (Interning.empty.run before).run between = _
    rw [hbefore]
    rfl
  constructor
  · obtain ⟨-, -, happend, -, -, hdrop, -, -, -, -, hsame⟩ := edits_obey_list_laws t
    have hu : t.appendParams [.string] = .ok u := ((happend [.string]).ok_iff u).2 ⟨trivial, rfl, rfl⟩
    have hback : u.dropParams 2 3 = .ok t := hdrop 2 [.string] u hu
    have hfirst : (Interning.empty.run before).Answered 0 (.of t.ret t.params) (.ok (t, 0)) := by
      rw [hbefore]
      rfl
    obtain ⟨answer, hanswer⟩ : ∃ answer, later.Answered 1 (.dropParams u 2 3) answer := by
      rw [hlater]
      exact ⟨_, rfl⟩
    have hsame := (hsame before between 0 _ 0 hfirst).2 1 _ answer hanswer hback
    exact ⟨hu, hback, hsame ▸ hanswer⟩
  · let longs : Signature := ⟨List.replicate 128 (.wrapper .long), .void,
      fun h => (nomatch List.eq_of_mem_replicate h), by rw [slotCount_replicate]; decide⟩
    obtain ⟨-, -, -, -, -, -, -, hunwrap, ⟨w, hw, -, hback, -⟩, -⟩ := edits_obey_list_laws longs
    have hslots : 255 < slotCount (longs.params.map Ty.bare) := by
      rw [List.map_replicate, slotCount_replicate]
      decide
    obtain ⟨e, he⟩ := hunwrap.error_iff.2 (.inr (.inr hslots))
    exact ⟨longs, w, e, rfl, hw, hback.trans he, hunwrap.kind e he⟩

end Signature

end HandleCalculus
