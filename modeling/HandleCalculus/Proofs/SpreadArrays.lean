import HandleCalculus.Proofs.CombinatorLimits
import HandleCalculus.Proofs.ConversionReach
import HandleCalculus.Proofs.RenumberedScripts

/-!
# Arguments spread and collected

Spreading replaces parameters by an array of them, collecting an array by its components. Each takes the
signature that the other has made back to where it was, so one can be done after the other, either way
round (`Signature.Swapped`).

What is called in the end is the handle itself, two levels further down. Collected and then spread, its
arguments are what they were, because values that fit their types are converted to themselves; all that is
left is that an array was made on the way, which takes a number (`Machine.skip`). Numbers are names, so the
call does what it would have done, with the numbers of what it makes moved up by one (`Handle.seen_skip`).
Spread and then collected, an array is copied.
-/

set_option autoImplicit false

namespace HandleCalculus

/-! ## Values that fit -/

namespace Value

variable {G : ClassGraph}

/-- Elements that fit the parameters that they are spread into are passed on as they are. -/
theorem coerceElements_of_fitAll {vs : List Value} {ts : List Ty} (h : fitAll G vs ts = true) :
    coerceElements G vs ts = .ok vs := by
  induction vs generalizing ts with
  | nil => cases ts <;> rfl
  | cons v vs ih =>
    cases ts with
    | nil => cases h
    | cons t ts =>
      rw [fitAll, Bool.and_eq_true] at h
      rw [coerceElements, coerce_of_fits h.1, ih h.2]

theorem fitAll_replicate {vs : List Value} {t : Ty} (h : ∀ v ∈ vs, v.fits G t = true) :
    fitAll G vs (List.replicate vs.length t) = true := by
  induction vs with
  | nil => rfl
  | cons v vs ih =>
    rw [List.length_cons, List.replicate_succ, fitAll, Bool.and_eq_true]
    exact ⟨h v List.mem_cons_self, ih fun w hw => h w (List.mem_cons_of_mem v hw)⟩

/-- Whether a value can be spread, and what its elements are: null counts as an array without any. -/
inductive Spreads : Value → List Value → Prop where
  | null : Spreads .null []
  | array (i : Nat) (c : Ty) (es : List Value) : Spreads (.obj (.array i c es)) es

/-- What fits an array type can be spread. -/
theorem exists_spreads {v : Value} {c : Ty} (hv : v.fits G (.array c) = true) : ∃ es, v.Spreads es := by
  rcases (fits_reference rfl).1 hv with rfl | ⟨o, rfl, ho⟩
  · exact ⟨_, .null⟩
  · cases o with
    | array i d es => exact ⟨_, .array i d es⟩
    | str s => cases ho
    | boxed => cases ho
    | throwable i k msg => cases ho
    | inst i k => cases ho

theorem Spreads.spreadElements_eq {v : Value} {es : List Value} (h : v.Spreads es) (n : Nat) :
    spreadElements n v = if es.length = n then .ok es else .error (.arity n es.length) := by
  cases h with
  | null => simp [spreadElements, eq_comm]
  | array i c es => rfl

end Value

/-! ## Parameters replaced -/

/-- Whether two signatures differ in nothing but the parameters from a position on, which are `ts` in one
and `us` in the other. -/
structure Signature.Swapped (s t : Signature) (pos : Nat) (ts us : List Ty) : Prop where
  ret : t.ret = s.ret
  params : ∃ before after, before.length = pos ∧ s.params = before ++ ts ++ after ∧
    t.params = before ++ us ++ after

namespace Signature.Swapped

variable {s t : Signature} {pos : Nat} {ts us : List Ty}

theorem symm (h : s.Swapped t pos ts us) : t.Swapped s pos us ts := by
  obtain ⟨hret, before, after, hpos, hs, ht⟩ := h
  exact ⟨hret.symm, before, after, hpos, ht, hs⟩

theorem room (h : s.Swapped t pos ts us) : pos + ts.length ≤ s.arity := by
  obtain ⟨-, before, after, rfl, hs, -⟩ := h
  simp [arity, hs]

theorem between (h : s.Swapped t pos ts us) : (s.params.drop pos).take ts.length = ts := by
  obtain ⟨-, before, after, hpos, hs, -⟩ := h
  rw [hs, List.append_assoc, List.drop_left' hpos, List.take_left' rfl]

theorem param (h : s.Swapped t pos ts us) {u : Ty} (hts : ts = [u]) : s.params[pos]? = some u := by
  obtain ⟨-, before, after, rfl, hs, -⟩ := h
  simp [hs, hts]

/-- The parameters are replaced by taking some out and putting the others in. -/
theorem exists_edits (h : s.Swapped t pos ts us) : ∃ d, s.dropParams pos (pos + ts.length) = .ok d ∧
    d.insertParams pos us = .ok t := by
  obtain ⟨d, hd⟩ := s.exists_dropParams (Nat.le_add_right pos ts.length) h.room
  obtain ⟨-, -, hdret, hdparams⟩ := dropParams_eq_ok_iff.1 hd
  obtain ⟨hret, before, after, hpos, hs, ht⟩ := h
  have hkept : d.params = before ++ after := by
    rw [hdparams, hs, List.append_assoc, List.take_left' hpos, ← List.drop_drop, List.drop_left' hpos,
      List.drop_left' rfl]
  refine ⟨d, hd, insertParams_eq_ok_iff.2 ⟨?_, hret.trans hdret.symm, ?_⟩⟩
  · simp [arity, hkept, ← hpos]
  · rw [ht, hkept, List.take_left' hpos, List.drop_left' hpos]

end Signature.Swapped

/-- Parameters can be replaced by others that take no more slots. -/
theorem Signature.exists_swapped {s : Signature} {before ts after us : List Ty}
    (hs : s.params = before ++ ts ++ after) (hvoid : Ty.void ∉ us)
    (hslots : slotCount us ≤ slotCount ts) : ∃ t, s.Swapped t before.length ts us := by
  have hnoVoid := s.noVoid
  have hlimit : slotCount s.params ≤ maxArgumentSlots := s.slots_le
  rw [hs] at hnoVoid
  rw [hs, slotCount_append, slotCount_append] at hlimit
  simp only [List.mem_append, not_or] at hnoVoid
  have hsignature : Ty.void ∉ before ++ us ++ after := by
    simp only [List.mem_append, not_or]
    exact ⟨⟨hnoVoid.1.1, hvoid⟩, hnoVoid.2⟩
  have hroom : slotCount (before ++ us ++ after) ≤ maxArgumentSlots := by
    rw [slotCount_append, slotCount_append]
    omega
  exact ⟨⟨before ++ us ++ after, s.ret, hsignature, hroom⟩, rfl, before, after, rfl, hs, rfl⟩

/-- Several parameters of one type can be replaced by an array of them. -/
theorem Signature.exists_swapped_array {s : Signature} {pos n : Nat} {c : Ty} (hn : 0 < n)
    (hparams : ∀ i < n, s.params[pos + i]? = some c) :
    ∃ t, s.Swapped t pos (List.replicate n c) [.array c] := by
  have hbetween : (s.params.drop pos).take n = List.replicate n c := by
    refine List.ext_getElem? fun i => ?_
    rw [List.getElem?_take, List.getElem?_drop, List.getElem?_replicate]
    split
    · next hi => exact hparams i hi
    · rfl
  have hpos : pos < s.params.length := (List.getElem?_eq_some_iff.1 (hparams 0 hn)).1
  have hc : c ≠ .void := by
    rintro rfl
    exact s.noVoid (List.mem_of_getElem? (hparams 0 hn))
  have hslots : slotCount [.array c] ≤ slotCount (List.replicate n c) := by
    obtain ⟨n, rfl⟩ := Nat.exists_eq_succ_of_ne_zero (Nat.ne_of_gt hn)
    rw [List.replicate_succ, slotCount_cons]
    exact Nat.le_trans (Ty.slots_pos hc) (Nat.le_add_right _ _)
  have hsplit : s.params = s.params.take pos ++ List.replicate n c ++ s.params.drop (pos + n) := by
    rw [← hbetween, take_append_between]
  obtain ⟨t, ht⟩ := exists_swapped hsplit (by simp) hslots
  exact ⟨t, by rwa [List.length_take_of_le (Nat.le_of_lt hpos)] at ht⟩

theorem Run.ofExcept_ok {α : Type} (a : α) : Run.ofExcept (.ok a) = pure a := rfl

/-! ## A number passed over -/

/-- The numbers from `n` on, each moved up by one. -/
def pastNumber (n i : Nat) : Nat := if i < n then i else i + 1

theorem pastNumber_injective (n : Nat) : Function.Injective (pastNumber n) := by
  intro i j h
  unfold pastNumber at h
  split at h <;> split at h <;> omega

/-- The machine on which a number of arrays and throwables has been passed over. -/
def Machine.skip (m : Machine) : Machine :=
  { m with store := { m.store with minted := m.store.minted + 1 } }

theorem Machine.Keyed.skip {m : Machine} (hm : m.Keyed) : m.skip.Keyed := hm.withStore _

/-- Whether the numbers that occur in a handle, among arguments and anywhere on a machine have been given
out there: to move up the others changes none of these. -/
structure Machine.Knows (m : Machine) (h : Handle) (args : List Value) : Prop where
  handle : h.renumber (pastNumber m.store.minted) = h
  args : args.map (Value.renumber (pastNumber m.store.minted)) = args
  store : (m.store.renumber (pastNumber m.store.minted)).unlogged = m.skip.store.unlogged
  calls : m.calls.map (Call.renumber (pastNumber m.store.minted)) = m.calls

theorem Machine.Knows.renumbered {m : Machine} {h : Handle} {args : List Value} (hk : m.Knows h args) :
    m.Renumbered (pastNumber m.store.minted) m.skip := by
  refine ⟨⟨hk.store.symm, fun i hi => ?_⟩, hk.calls.symm⟩
  unfold pastNumber
  rw [if_neg (by omega), if_neg (by omega)]

/-- As long as a program has called and stored nothing, no number occurs in what it has. -/
theorem Machine.Knows.of_initial {m : Machine} {h : Handle} {args : List Value}
    (hstore : m.store = .initial) (hcalls : m.calls = #[])
    (hhandle : h.renumber (pastNumber m.store.minted) = h)
    (hargs : args.map (Value.renumber (pastNumber m.store.minted)) = args) : m.Knows h args := by
  refine ⟨hhandle, hargs, ?_, ?_⟩
  · simp [skip, hstore, Store.initial, Store.renumber, Store.unlogged, pastNumber]
  · rw [hcalls, Array.map_empty]

/-- To pass a number over shows only in the numbers of what is made from then on. -/
theorem Handle.seen_skip {P : Program} (hP : P.Blind) {m : Machine} (hm : m.Keyed) {h : Handle}
    {args : List Value} (hk : m.Knows h args) (hU : P.Unnumbered (pastNumber m.store.minted)) (depth : Nat) :
    seen Machine.visible (h.invokeExact P depth args m.skip) =
      Run.Outcome.renumber (pastNumber m.store.minted)
        (seen Machine.visible (h.invokeExact P depth args m)) := by
  have hseen := seen_invokeExact_renumber hP hU hm hm.skip hk.renumbered depth h args
  rwa [hk.handle, hk.args] at hseen

/-- Bodies that answer zeros do not look at numbers. -/
theorem Program.unnumbered_zeros (G : ClassGraph) (r : Nat → Nat) : (zeros G).Unnumbered r := by
  intro m args
  have hzero := Mirrors.pure (R := Store.Renumbered r) (h := Object.renumber r) (g := Value.renumber r)
    (Value.zero (G.method m).desc.ret)
  rwa [Value.renumber_zero] at hzero

/-- Nor do scripts in which no number stands that is still to be given out. -/
theorem World.unnumbered_past (w : World) (n : Nat)
    (hscripts : ∀ m, (w.script m).Fixed (pastNumber n)) : w.program.Unnumbered (pastNumber n) :=
  w.unnumbered_program (pastNumber_injective n) hscripts

/-! ## What is made -/

namespace Handle

variable {G : ClassGraph} {P : Program} {s : Stamp} {h k p : Handle} {t : Signature} {pos n : Nat} {c : Ty}

/-- Arguments can be collected where the array can be passed. -/
theorem asCollectorAt_of_swapped {u : Ty} (hswapped : h.type.Swapped t pos [u] (List.replicate n c))
    (hassign : G.isAssignable (.array c) u = true) :
    h.asCollectorAt G s pos (.array c) n = .ok ⟨s, t, .collect h pos n (.array c)⟩ := by
  obtain ⟨d, hd, ht⟩ := hswapped.exists_edits
  exact asCollectorAt_eq_ok_iff.2 ⟨c, u, d, t, rfl, hswapped.param rfl, hassign, hd, ht, rfl⟩

/-- Collecting replaces the parameter for the array by its components. -/
theorem swapped_of_asCollectorAt (hmade : h.asCollectorAt G s pos (.array c) n = .ok k) :
    ∃ u, h.type.Swapped k.type pos [u] (List.replicate n c) ∧ k.node = .collect h pos n (.array c) := by
  obtain ⟨c', u, hc, hu, -, hnode, hparams, hret⟩ := asCollectorAt_eq_ok hmade
  obtain rfl := Ty.array.inj hc
  obtain ⟨hpos, rfl⟩ := List.getElem?_eq_some_iff.1 hu
  have hsplit := take_append_between h.type.params pos 1
  rw [List.drop_eq_getElem_cons hpos] at hsplit
  exact ⟨_, ⟨hret, _, _, List.length_take_of_le (Nat.le_of_lt hpos), hsplit.symm, hparams⟩, hnode⟩

/-- Parameters can be spread from an array whose elements can be converted to them. -/
theorem asSpreaderAt_of_swapped {us : List Ty} (hswapped : h.type.Swapped t pos us [.array c])
    (hlength : us.length = n) (hplans : ∀ u ∈ us, (Conversion.plan? G c u).isSome = true) :
    h.asSpreaderAt G s pos (.array c) n = .ok ⟨s, t, .spread h pos n (.array c)⟩ := by
  subst hlength
  obtain ⟨d, hd, ht⟩ := hswapped.exists_edits
  refine asSpreaderAt_eq_ok_iff.2 ⟨hswapped.room, c, d, t, rfl, ?_, hd, ht, rfl⟩
  rw [hswapped.between]
  exact hplans

/-- An array can be spread into parameters of its component type. -/
theorem asSpreaderAt_of_replicate (hswapped : h.type.Swapped t pos (List.replicate n c) [.array c]) :
    h.asSpreaderAt G s pos (.array c) n = .ok ⟨s, t, .spread h pos n (.array c)⟩ := by
  refine asSpreaderAt_of_swapped hswapped List.length_replicate fun u hu => ?_
  rw [List.eq_of_mem_replicate hu, Conversion.plan?_self]
  rfl

/-! ## Calls -/

variable {args : List Value} {m : Machine}

/-- What a spreader does is to call its target on the elements in place of the array. -/
theorem same_invokeBasic_of_spread (hP : P.Blind) {array : Ty} (hnode : k.node = .spread h pos n array)
    (hroom : pos + n ≤ h.type.arity) {v : Value} {es : List Value} (hv : args[pos]? = some v)
    (hes : v.Spreads es) (hlength : es.length = n)
    (hfits : Value.fitAll P.graph es ((h.type.params.drop pos).take n) = true) (depth : Nat) :
    Run.Same (k.invokeBasic P (depth + 1) args)
      (h.invokeBasic P depth (args.take pos ++ es ++ args.drop (pos + 1))) := by
  have hk := same_invokeBasic_succ hP depth k args
  unfold perform at hk
  simpa only [hnode, hv, hes.spreadElements_eq, if_pos hlength, if_pos hroom,
    Value.coerceElements_of_fitAll hfits, Run.ofExcept_ok, pure_bind] using hk

/-- It fails if there are more or fewer. -/
theorem same_invokeBasic_of_misspread (hP : P.Blind) {array : Ty} (hnode : k.node = .spread h pos n array)
    {v : Value} {es : List Value} (hv : args[pos]? = some v) (hes : v.Spreads es) (hlength : es.length ≠ n)
    (depth : Nat) :
    Run.Same (k.invokeBasic P (depth + 1) args) (Run.fail (.arity n es.length)) := by
  have hk := same_invokeBasic_succ hP depth k args
  unfold perform at hk
  simp only [hnode, hv, hes.spreadElements_eq, if_neg hlength] at hk
  exact hk

/-- What a collector does is to call its target on a fresh array in place of the elements. -/
theorem same_invokeBasic_of_collect (hP : P.Blind) (hnode : k.node = .collect h pos n (.array c))
    (hroom : pos + n ≤ args.length) (depth : Nat) :
    Run.Same (k.invokeBasic P (depth + 1) args)
      (Run.alloc (·.newArray c ((args.drop pos).take n)) >>= fun o =>
        h.invokeBasic P depth (args.take pos ++ .obj o :: args.drop (pos + n))) := by
  have hk := same_invokeBasic_succ hP depth k args
  unfold perform at hk
  simpa only [hnode, Ty.component?, if_pos hroom] using hk

/-- The array has the number that is next. -/
theorem seen_of_collect (hP : P.Blind) (hm : m.Keyed) (hnode : k.node = .collect h pos n (.array c))
    (hroom : pos + n ≤ args.length) (depth : Nat) :
    seen Machine.visible (k.invokeBasic P (depth + 1) args m) =
      seen Machine.visible (h.invokeBasic P depth (args.take pos ++
        .obj (.array m.store.minted c ((args.drop pos).take n)) :: args.drop (pos + n)) m.skip) :=
  (same_invokeBasic_of_collect hP hnode hroom depth m m hm hm rfl).seen_eq

/-- Where an array stands among arguments. -/
theorem getElem?_between (before after : List Value) (v : Value) :
    (before ++ v :: after)[before.length]? = some v := by
  rw [List.getElem?_append_right (Nat.le_refl _), Nat.sub_self]
  rfl

theorem drop_between (before after : List Value) (v : Value) :
    (before ++ v :: after).drop (before.length + 1) = after := by
  rw [← List.drop_drop, List.drop_left' rfl]
  rfl

/-- Collected and then spread, arguments that fit are passed on as they are. -/
theorem seen_of_spread_collect (hP : P.Blind) (hm : m.Keyed) {t : Signature}
    (hswapped : h.type.Swapped t pos (List.replicate n c) [.array c])
    (hp : p.node = .spread h pos n (.array c)) (hk : k.node = .collect p pos n (.array c))
    (hargs : h.type.check P.graph args = .ok ()) (depth : Nat) :
    seen Machine.visible (k.invokeBasic P (depth + 2) args m) =
      seen Machine.visible (h.invokeBasic P depth args m.skip) := by
  have hfits := Signature.check_eq_ok_iff.1 hargs
  have hroom : pos + n ≤ h.type.arity := by simpa only [List.length_replicate] using hswapped.room
  have hroom : pos + n ≤ h.type.params.length := hroom
  have hlength := Value.length_eq_of_fitAll hfits
  have hbefore : (args.take pos).length = pos := List.length_take_of_le (by omega)
  have hes : ((args.drop pos).take n).length = n := by
    rw [List.length_take, List.length_drop]
    omega
  rw [seen_of_collect hP hm hk (by omega) (depth + 1)]
  generalize harray : Value.obj (.array m.store.minted c ((args.drop pos).take n)) = v
  have hv := getElem?_between (args.take pos) (args.drop (pos + n)) v
  have hrest := drop_between (args.take pos) (args.drop (pos + n)) v
  rw [hbefore] at hv hrest
  have hspread := same_invokeBasic_of_spread hP hp hroom hv (harray ▸ .array _ c _) hes
    (Value.fitAll_take (Value.fitAll_drop hfits pos) n) depth
  rw [List.take_left' hbefore, hrest, take_append_between] at hspread
  exact (hspread _ _ hm.skip hm.skip rfl).seen_eq

/-- Spread and then collected, an array is copied. -/
theorem seen_of_collect_spread (hP : P.Blind) (hm : m.Keyed)
    (hswapped : h.type.Swapped k.type pos [.array c] (List.replicate n c))
    (hk : k.node = .collect h pos n (.array c)) (hp : p.node = .spread k pos n (.array c))
    {v : Value} {es : List Value} (hv : args[pos]? = some v)
    (hes : v.Spreads es) (hlength : es.length = n) (hfits : ∀ e ∈ es, e.fits P.graph c = true)
    (depth : Nat) :
    seen Machine.visible (p.invokeBasic P (depth + 2) args m) =
      seen Machine.visible
        (h.invokeBasic P depth (args.set pos (.obj (m.store.newArray c es).1)) m.skip) := by
  obtain ⟨hpos, -⟩ := List.getElem?_eq_some_iff.1 hv
  have hbefore : (args.take pos).length = pos := List.length_take_of_le (Nat.le_of_lt hpos)
  have hroom : pos + n ≤ k.type.arity := by
    simpa only [List.length_replicate] using hswapped.symm.room
  have hbetween : (k.type.params.drop pos).take n = List.replicate n c := by
    simpa only [List.length_replicate] using hswapped.symm.between
  have helements : Value.fitAll P.graph es ((k.type.params.drop pos).take n) = true := by
    rw [hbetween, ← hlength]
    exact Value.fitAll_replicate hfits
  have hspread := same_invokeBasic_of_spread hP hp hroom hv hes hlength helements (depth + 1)
  -- the elements are collected again from where they have been put
  have htaken : ((args.take pos ++ es ++ args.drop (pos + 1)).drop pos).take n = es := by
    rw [List.append_assoc, List.drop_left' hbefore, List.take_left' hlength]
  have hleft : (args.take pos ++ es ++ args.drop (pos + 1)).take pos = args.take pos := by
    rw [List.append_assoc, List.take_left' hbefore]
  have hright : (args.take pos ++ es ++ args.drop (pos + 1)).drop (pos + n) = args.drop (pos + 1) :=
    List.drop_left' (by rw [List.length_append, hbefore, hlength])
  have hlong : pos + n ≤ (args.take pos ++ es ++ args.drop (pos + 1)).length := by
    simp only [List.length_append, hbefore, hlength]
    exact Nat.le_add_right _ _
  rw [(hspread m m hm hm rfl).seen_eq, seen_of_collect hP hm hk hlong, htaken, hleft, hright,
    List.set_eq_take_cons_drop _ hpos]
  rfl

/-- What is passed for an array can be spread. -/
theorem exists_spreads_at (hparam : h.type.params[pos]? = some (.array c))
    (hargs : h.type.check G args = .ok ()) : ∃ v es, args[pos]? = some v ∧ v.Spreads es := by
  have hfits := Value.fitAll_iff.1 (Signature.check_eq_ok_iff.1 hargs)
  obtain ⟨hpos, hparam⟩ := List.getElem?_eq_some_iff.1 hparam
  have hlt : pos < args.length := by rwa [hfits.length_eq]
  have hv : args[pos].fits G h.type.params[pos] = true := (List.forall₂_iff_get.1 hfits).2 pos hlt hpos
  obtain ⟨es, hes⟩ := Value.exists_spreads (hparam ▸ hv)
  exact ⟨_, es, List.getElem?_eq_getElem hlt, hes⟩

/-- An array in place of one that fits. -/
theorem check_of_set {es : List Value} (hparam : h.type.params[pos]? = some (.array c))
    (hargs : h.type.check G args = .ok ()) (s : Store) :
    h.type.check G (args.set pos (.obj (s.newArray c es).1)) = .ok () := by
  have hfits := Signature.check_eq_ok_iff.1 hargs
  obtain ⟨hpos, hparam⟩ := List.getElem?_eq_some_iff.1 hparam
  have hlt : pos < args.length := by rwa [Value.length_eq_of_fitAll hfits]
  have harray : Value.fits G (.obj (s.newArray c es).1) (.array c) = true :=
    Value.fits_of_runtimeType rfl rfl
  rw [Signature.check_eq_ok_iff, List.set_eq_take_append_cons_drop, if_pos hlt, ← List.singleton_append,
    ← List.append_assoc]
  refine Value.fitAll_splice (Value.fitAll_take hfits pos) ?_ (Value.fitAll_drop hfits (pos + 1))
  rw [List.drop_eq_getElem_cons hpos, hparam]
  simpa [Value.fitAll] using harray

/-- What can be made of arguments spread and collected. -/
theorem exists_spread_collect (hn : 0 < n) (hparams : ∀ i < n, h.type.params[pos + i]? = some c)
    (s s' : Stamp) : ∃ p k, h.asSpreaderAt G s pos (.array c) n = .ok p ∧
      p.asCollectorAt G s' pos (.array c) n = .ok k ∧ k.type = h.type ∧
        h.type.Swapped p.type pos (List.replicate n c) [.array c] ∧
          p.node = .spread h pos n (.array c) ∧ k.node = .collect p pos n (.array c) := by
  obtain ⟨t, hswapped⟩ := Signature.exists_swapped_array hn hparams
  exact ⟨_, _, asSpreaderAt_of_replicate hswapped,
    asCollectorAt_of_swapped hswapped.symm (G.isAssignable_refl _), rfl, hswapped, rfl, rfl⟩

end Handle

/-- **Spreading and collecting undo each other.** Parameters of one type can be spread from an array, and
that array collected again: what is made has the type of the handle and calls it, but that the number of the
array is passed over. As long as no handle, argument or slot holds a number that is still to be given out,
the call is seen to be that of the handle, renumbered. The other way round, the array that is collected and
spread again reaches the handle as a fresh one of the same elements, null as one without any; an array of
another length is refused before anything is called. -/
theorem Handle.spread_collect_inverse {P : Program} (hP : P.Blind) {m : Machine} (hm : m.Keyed)
    (h : Handle) (c : Ty) (pos n : Nat) :
    (1 ≤ n → (∀ i < n, h.type.params[pos + i]? = some c) → ∀ s s', ∃ p k,
      h.asSpreaderAt P.graph s pos (.array c) n = .ok p ∧
        p.asCollectorAt P.graph s' pos (.array c) n = .ok k ∧ k.type = h.type ∧ ∀ args depth,
          (∀ e, h.type.check P.graph args = .error e →
            k.invokeExact P (depth + 2) args m = h.invokeExact P depth args m) ∧
          (h.type.check P.graph args = .ok () →
            seen Machine.visible (k.invokeExact P (depth + 2) args m) =
              seen Machine.visible (h.invokeExact P depth args m.skip) ∧
            (m.Knows h args → P.Unnumbered (pastNumber m.store.minted) →
              seen Machine.visible (k.invokeExact P (depth + 2) args m) =
                Run.Outcome.renumber (pastNumber m.store.minted)
                  (seen Machine.visible (h.invokeExact P depth args m))))) ∧
    (h.type.params[pos]? = some (.array c) → ∀ s k,
      h.asCollectorAt P.graph s pos (.array c) n = .ok k → ∀ s', ∃ p,
        k.asSpreaderAt P.graph s' pos (.array c) n = .ok p ∧ p.type = h.type ∧
          ∀ args, h.type.check P.graph args = .ok () → ∃ v es, args[pos]? = some v ∧ v.Spreads es ∧
            (es.length = n → (∀ e ∈ es, e.fits P.graph c = true) →
              let fresh := args.set pos (.obj (m.store.newArray c es).1)
              h.type.check P.graph fresh = .ok () ∧ ∀ depth,
                seen Machine.visible (p.invokeExact P (depth + 2) args m) =
                  seen Machine.visible (h.invokeExact P depth fresh m.skip)) ∧
            (es.length ≠ n → ∀ depth,
              seen Machine.visible (p.invokeExact P (depth + 1) args m) =
                (.error (.error (.arity n es.length)), m.visible))) := by
  refine ⟨fun hn hparams s s' => ?_, fun hparam s k hk s' => ?_⟩
  · obtain ⟨p, k, hp, hk, htype, hswapped, hpnode, hknode⟩ := exists_spread_collect hn hparams s s'
    refine ⟨p, k, hp, hk, htype, fun args depth => ⟨fun e he => ?_, fun hargs => ?_⟩⟩
    · rw [invokeExact_of_refused he, invokeExact_of_refused (htype ▸ he)]
    · have hseen : seen Machine.visible (k.invokeExact P (depth + 2) args m) =
          seen Machine.visible (h.invokeExact P depth args m.skip) := by
        rw [invokeExact_of_check hargs, invokeExact_of_check (htype ▸ hargs)]
        exact seen_of_spread_collect hP hm hswapped hpnode hknode hargs depth
      exact ⟨hseen, fun hknows hU => hseen.trans (seen_skip hP hm hknows hU depth)⟩
  · obtain ⟨u, hswapped, hnode⟩ := swapped_of_asCollectorAt hk
    obtain rfl : u = .array c := Option.some.inj ((hswapped.param rfl).symm.trans hparam)
    obtain ⟨p, hp, htype, hpnode⟩ : ∃ p, k.asSpreaderAt P.graph s' pos (.array c) n = .ok p ∧
        p.type = h.type ∧ p.node = .spread k pos n (.array c) :=
      ⟨_, asSpreaderAt_of_replicate hswapped.symm, rfl, rfl⟩
    refine ⟨p, hp, htype, fun args hargs => ?_⟩
    obtain ⟨v, es, hv, hes⟩ := exists_spreads_at hparam hargs
    refine ⟨v, es, hv, hes, fun hlength helements => ⟨check_of_set hparam hargs _, fun depth => ?_⟩,
      fun hlength depth => ?_⟩
    · rw [invokeExact_of_check (check_of_set hparam hargs _), invokeExact_of_check (htype ▸ hargs)]
      exact seen_of_collect_spread hP hm hswapped hnode hpnode hv hes hlength helements depth
    · rw [invokeExact_of_check (htype ▸ hargs)]
      exact (same_invokeBasic_of_misspread hP hpnode hv hes hlength depth m m hm hm rfl).seen_eq

/-- A handle of two numbers that takes an array of them, which is collected: the handle again. And the one
that takes the array, collected and spread, copies it; it refuses an array of one number. -/
theorem Handle.spread_collect_inverse_of_second :
    let P : Program := .zeros .bootstrap
    let number : Ty := .cls .number
    let seven : Value := .boxed (.prim (.int 7))
    let array (es : List Value) : Value := .obj (.array 0 number es)
    ∃ (m : Machine) (p k q : Handle), Handling P.graph m [.second, .itself] ∧
      Handle.second.asSpreaderAt P.graph 4 0 (.array number) 2 = .ok p ∧
        p.asCollectorAt P.graph 6 0 (.array number) 2 = .ok k ∧
          k.asSpreaderAt P.graph 8 0 (.array number) 2 = .ok q ∧ k.type = Handle.second.type ∧
            q.type = p.type ∧ ∀ depth,
              seen Machine.visible (k.invokeExact P (depth + 2) [seven, seven] m) =
                Run.Outcome.renumber (pastNumber m.store.minted)
                  (seen Machine.visible (Handle.second.invokeExact P depth [seven, seven] m)) ∧
              seen Machine.visible (q.invokeExact P (depth + 2) [array [seven, seven]] m) =
                seen Machine.visible (p.invokeExact P depth [array [seven, seven]] m.skip) ∧
              seen Machine.visible (q.invokeExact P (depth + 1) [array [seven]] m) =
                (.error (.error (.arity 2 1)), m.visible) := by
  intro P number seven array
  obtain ⟨m, hstore, hnone, hsecond⟩ := Handling.exists_second
  have hP : P.Blind := fun _ _ => .pure _
  have htwice := (Handle.spread_collect_inverse hP hsecond.keyed .second number 0 2).1 (by decide) (by
    intro i hi
    obtain rfl | rfl : i = 0 ∨ i = 1 := by omega
    · rfl
    · rfl) 4 6
  obtain ⟨p, k, hp, hk, htype, hcalls⟩ := htwice
  obtain rfl := Except.ok.inj hp
  obtain ⟨q, hq, hqtype, hqcalls⟩ := (Handle.spread_collect_inverse hP hsecond.keyed _ number 0 2).2 rfl
    6 k hk 8
  obtain ⟨v, es, hv, hes, hcopied, -⟩ := hqcalls [array [seven, seven]] rfl
  obtain ⟨v', es', hv', hes', -, hrefused⟩ := hqcalls [array [seven]] rfl
  obtain rfl := Option.some.inj hv
  obtain rfl := Option.some.inj hv'
  cases hes
  cases hes'
  refine ⟨_, _, k, q, hsecond, rfl, hk, hq, htype, hqtype, fun depth => ⟨?_, ?_, ?_⟩⟩
  · exact ((hcalls [seven, seven] depth).2 rfl).2 (.of_initial hstore hnone rfl rfl)
      (Program.unnumbered_zeros _ _)
  · have hcopy := (hcopied rfl (by decide)).2 depth
    rw [hstore] at hcopy
    exact hcopy
  · exact hrefused (by decide) depth

end HandleCalculus
