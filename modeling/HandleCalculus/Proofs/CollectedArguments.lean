import HandleCalculus.Proofs.CombinatorLimits
import HandleCalculus.Proofs.EnoughDepth

/-!
# Calls of filters of several arguments

What `collectArguments` makes runs the filter on the arguments at its position and then the target, on
what the filter answers, if it answers anything, and the other arguments (`Handle.filterThenCall`). It does
so through a fold of a reordering of the target, whatever that reordering is, so the target may be called
a level higher or lower than by a node that does the same at once. `filterArguments` has such a node. For a
filter of one argument the two make handles of one signature whose calls end in the same ways
(`Handling.collectArguments_filters`), however deep they go.
-/

set_option autoImplicit false

namespace HandleCalculus

namespace Handle

variable {G : ClassGraph} {P : Program} {s : Stamp} {t f k : Handle} {pos : Nat} {args : List Value}

/-! ## What is run -/

/-- The arguments that a filter at a position is run on. -/
def takenBy (f : Handle) (pos : Nat) (args : List Value) : List Value :=
  (args.drop pos).take f.type.arity

/-- The arguments that are passed on when a filter at a position has answered. -/
def passedBy (f : Handle) (pos : Nat) (args : List Value) (v : Value) : List Value :=
  args.take pos ++ (if f.type.ret = .void then [] else [v]) ++ args.drop (pos + f.type.arity)

/-- Runs a filter on the arguments at a position, then the target on what is passed on, to some depth
each. -/
def filterThenCall (P : Program) (t f : Handle) (pos : Nat) (args : List Value) (d e : Nat) :
    Run Value := do
  let v ← f.invokeBasic P d (f.takenBy pos args)
  t.invokeBasic P e (f.passedBy pos args v)

theorem within_filterThenCall {d d' e e' : Nat} (hd : d ≤ d') (he : e ≤ e') (t f : Handle) (pos : Nat)
    (args : List Value) :
    Run.Within (filterThenCall P t f pos args d e) (filterThenCall P t f pos args d' e') :=
  .bind (within_invokeBasic hd f _) fun _ => within_invokeBasic he t _

/-! ## Through a fold -/

/-- The arguments that a fold gives its target when the combiner has answered. -/
def foldedArgs (f : Handle) (pos : Nat) (args : List Value) (v : Value) : List Value :=
  if f.type.ret = .void then args else args.take pos ++ v :: args.drop pos

theorem length_foldedArgs (f : Handle) (hpos : pos ≤ args.length) (v : Value) :
    (foldedArgs f pos args v).length = args.length + f.answered := by
  unfold foldedArgs answered
  split
  · rfl
  · simp
    omega

/-- Without the arguments that the combiner was run on, they are those that are passed on. -/
theorem kept_foldedArgs (hpos : pos ≤ args.length) (v : Value) :
    (foldedArgs f pos args v).take (pos + f.answered) ++
      (foldedArgs f pos args v).drop (pos + f.answered + f.type.arity) = f.passedBy pos args v := by
  unfold foldedArgs passedBy answered
  by_cases hvoid : f.type.ret = .void
  · simp [hvoid]
  · have hsplit : args.take pos ++ v :: args.drop pos = (args.take pos ++ [v]) ++ args.drop pos := by
      simp
    have hlength : (args.take pos ++ [v]).length = pos + 1 := by
      simp [List.length_take_of_le hpos]
    simp only [hvoid, if_false]
    rw [hsplit, List.take_left' hlength, ← List.drop_drop, List.drop_left' hlength, List.drop_drop]

/-- What a fold does is to run the combiner and then its target. -/
theorem same_invokeBasic_of_fold (hP : P.Blind) {widened : Handle} (hnode : k.node = .fold widened pos f)
    (hroom : pos + f.type.arity ≤ args.length) (depth : Nat) :
    Run.Same (k.invokeBasic P (depth + 1) args)
      (f.invokeBasic P depth (f.takenBy pos args) >>= fun v =>
        widened.invokeBasic P depth (foldedArgs f pos args v)) := by
  have hk := same_invokeBasic_succ hP depth k args
  unfold perform at hk
  simp only [hnode, if_pos hroom] at hk
  refine hk.trans (.bind (same_invokeBasic_self hP _ _ _) fun v => ?_)
  unfold foldedArgs
  split <;> exact same_invokeBasic_self hP _ _ _

/-- The call of a collected handle runs the filter and then the target, which is reached on the level of
the filter or one below. -/
theorem exists_levels_of_collect (hP : P.Blind) (ht : t.Fitted)
    (hmade : t.collectArguments s pos f = .ok k) : ∃ w ≤ 1, ∀ depth (args : List Value),
      args.length = k.type.arity →
        Run.Same (k.invokeBasic P (depth + 2) args)
          (filterThenCall P t f pos args (depth + 1) (depth + w)) := by
  obtain ⟨hfeeds, -, hparams, widened, hwidened, hnode⟩ := collectArguments_made hmade
  obtain ⟨-, -, hwparams⟩ := dropArguments_type hwidened
  obtain ⟨u, hu, hsame⟩ := exists_levels_of_drop hP ht hwidened
  refine ⟨1 - u, Nat.sub_le 1 u, fun depth args hargs => ?_⟩
  have hroom : pos + f.answered ≤ t.type.params.length := hfeeds.room
  have hlength : args.length + f.answered = t.type.arity + f.type.arity := by
    rw [hargs]
    simp [Signature.arity, hparams, collected]
    omega
  have htaken : pos + f.type.arity ≤ args.length := by
    have hroom : pos + f.answered ≤ t.type.arity := hroom
    omega
  refine (same_invokeBasic_of_fold hP hnode htaken (depth + 1)).trans
    (.bind (same_invokeBasic_self hP _ _ _) fun v => ?_)
  -- the target is called on what is left of what the fold passes on
  have hwidth : (foldedArgs f pos args v).length = widened.type.arity := by
    rw [length_foldedArgs f (by omega) v, arity_widened hwparams, hlength]
  have hcall := hsame (depth + (1 - u)) (foldedArgs f pos args v) hwidth
  rw [show f.type.params.length = f.type.arity from rfl, kept_foldedArgs (by omega) v] at hcall
  rwa [show depth + (1 - u) + u = depth + 1 by omega] at hcall

/-! ## Through a node that filters -/

/-- The call of a handle with one filter on a parameter runs the filter and then the target, on one
level. -/
theorem same_invokeBasic_of_filter (hP : P.Blind) (hnode : k.node = .filterArgs t pos [some f])
    (hunary : f.type.arity = 1) (hvalue : f.type.ret ≠ .void) (hpos : pos < args.length) (depth : Nat) :
    Run.Same (k.invokeBasic P (depth + 1) args) (filterThenCall P t f pos args depth depth) := by
  have htaken : f.takenBy pos args = [args[pos]] := by
    unfold takenBy
    rw [hunary, List.drop_eq_getElem_cons hpos]
    rfl
  have hpassed : ∀ v, f.passedBy pos args v = args.set pos v := by
    intro v
    unfold passedBy
    rw [if_neg hvalue, hunary, List.set_eq_take_cons_drop v hpos, List.append_assoc]
    rfl
  have hk := same_invokeBasic_succ hP depth k args
  unfold perform at hk
  simp only [hnode, passFilters, List.getElem?_eq_getElem hpos, bind_assoc, pure_bind] at hk
  unfold filterThenCall
  simpa only [htaken, hpassed] using hk

/-! ## Arguments that fit -/

/-- Arguments for a collected handle are arguments for the filter, and what is passed on is for the target
if the filter answers what it says. -/
theorem check_of_collect (hmade : t.collectArguments s pos f = .ok k)
    (hargs : k.type.check G args = .ok ()) :
    f.type.check G (f.takenBy pos args) = .ok () ∧ ∀ v, v.isResultOf G f.type.ret = true →
      t.type.check G (f.passedBy pos args v) = .ok () := by
  obtain ⟨hfeeds, -, hparams, -⟩ := collectArguments_made hmade
  have hroom : pos + f.answered ≤ t.type.params.length := hfeeds.room
  have hargs := Signature.check_eq_ok_iff.1 hargs
  rw [hparams, collected, List.append_assoc] at hargs
  obtain ⟨hbefore, hrest⟩ := Value.fitAll_split (by omega) hargs
  have htaken := Value.fitAll_take hrest f.type.params.length
  have hafter := Value.fitAll_drop hrest f.type.params.length
  rw [List.take_left' rfl] at htaken
  rw [List.drop_left' rfl, List.drop_drop] at hafter
  refine ⟨Signature.check_eq_ok_iff.2 htaken, fun v hv => Signature.check_eq_ok_iff.2 ?_⟩
  -- what the filter answers stands where the target takes it
  refine Value.fitAll_splice hbefore ?_ hafter
  unfold FeedsAt at hfeeds
  unfold answered
  by_cases hvoid : f.type.ret = .void
  · simp [hvoid, Value.fitAll]
  · rw [if_neg hvoid] at hfeeds
    obtain ⟨hlt, hparam⟩ := List.getElem?_eq_some_iff.1 hfeeds
    rw [Value.isResultOf_of_ne hvoid] at hv
    rw [if_neg hvoid, if_neg hvoid, List.drop_eq_getElem_cons hlt, hparam]
    simp [Value.fitAll, hv]

/-! ## How the calls end -/

section Ends

variable {m : Machine} {r : Run.Outcome Value}

theorem deepens_filterThenCall (P : Program) (t f : Handle) (pos : Nat) (args : List Value) :
    Run.Deepens fun depth => filterThenCall P t f pos args depth depth :=
  fun _ _ hde => within_filterThenCall hde hde t f pos args

/-- The exact call of a collected handle is seen to do what the filter and then the target do. -/
theorem seen_collect (hP : P.Blind) (hm : m.Keyed) (ht : t.Fitted)
    (hmade : t.collectArguments s pos f = .ok k) : ∃ w ≤ 1, ∀ args,
      k.type.check P.graph args = .ok () → ∀ depth,
        seen Machine.visible (k.invokeExact P (depth + 2) args m) =
          seen Machine.visible (filterThenCall P t f pos args (depth + 1) (depth + w) m) := by
  obtain ⟨w, hw, hsame⟩ := exists_levels_of_collect hP ht hmade
  refine ⟨w, hw, fun args hargs depth => ?_⟩
  have hlength := Value.length_eq_of_fitAll (Signature.check_eq_ok_iff.1 hargs)
  rw [invokeExact_of_check hargs]
  exact (hsame depth args hlength m m hm hm rfl).seen_eq

/-- A collected handle ends as the filter and then the target do. -/
theorem endsAs_collect_iff (hP : P.Blind) (hm : m.Keyed) (ht : t.Fitted)
    (hmade : t.collectArguments s pos f = .ok k) (hargs : k.type.check P.graph args = .ok ()) :
    k.EndsAs P m args r ↔ Run.EndsAs (fun depth => filterThenCall P t f pos args depth depth) m r := by
  obtain ⟨w, hw, hcalls⟩ := seen_collect hP hm ht hmade
  have hseen := hcalls args hargs
  constructor
  · rintro ⟨hr, depth, hend⟩
    have hdeeper := (deepens_invokeExact P k args depth _ (Nat.le_add_right depth 2)).seen_eq hr hend
    rw [hseen] at hdeeper
    exact ⟨hr, depth + 1, (within_filterThenCall (Nat.le_refl _) (by omega) t f pos args).seen_eq hr
      hdeeper⟩
  · rintro ⟨hr, depth, hend⟩
    refine ⟨hr, depth + 2, (hseen depth).trans ?_⟩
    exact (within_filterThenCall (by omega) (by omega) t f pos args).seen_eq hr hend

/-- So does a handle with one filter on a parameter. -/
theorem endsAs_filter_iff (hP : P.Blind) (hm : m.Keyed) (hnode : k.node = .filterArgs t pos [some f])
    (hunary : f.type.arity = 1) (hvalue : f.type.ret ≠ .void) (hpos : pos < args.length)
    (hargs : k.type.check P.graph args = .ok ()) :
    k.EndsAs P m args r ↔ Run.EndsAs (fun depth => filterThenCall P t f pos args depth depth) m r := by
  refine (deepens_invokeExact P k args).endsAs_iff (u := 1) (v := 0)
    (deepens_filterThenCall P t f pos args) fun depth => ?_
  rw [invokeExact_of_check hargs]
  exact (same_invokeBasic_of_filter hP hnode hunary hvalue hpos depth m m hm hm rfl).seen_eq

/-- Calls of handles of one signature end in the same ways if they do on arguments that fit. -/
theorem endsAs_iff_of_check {k' : Handle} (htype : k'.type = k.type)
    (hends : k.type.check P.graph args = .ok () → (k.EndsAs P m args r ↔ k'.EndsAs P m args r)) :
    k.EndsAs P m args r ↔ k'.EndsAs P m args r := by
  cases hargs : k.type.check P.graph args with
  | ok u => exact hends hargs
  | error e =>
    refine (deepens_invokeExact P k args).endsAs_iff (u := 0) (v := 0) (deepens_invokeExact P k' args)
      fun depth => ?_
    rw [invokeExact_of_refused hargs, invokeExact_of_refused (htype ▸ hargs)]

/-- To collect from a filter of one argument is to filter. -/
theorem type_eq_of_collect_of_filter {s' : Stamp} {k' : Handle}
    (hmade : t.collectArguments s pos f = .ok k) (hunary : f.type.arity = 1)
    (hvalue : f.type.ret ≠ .void) (hmade' : t.filterArguments s' pos [some f] = .ok k') :
    k'.type = k.type := by
  obtain ⟨hfeeds, hret, hparams, -⟩ := collectArguments_made hmade
  obtain ⟨hret', hparams', -⟩ := filterArguments_made hmade'
  unfold FeedsAt at hfeeds
  rw [if_neg hvalue] at hfeeds
  obtain ⟨hlt, -⟩ := List.getElem?_eq_some_iff.1 hfeeds
  obtain ⟨p, hp⟩ := List.length_eq_one_iff.1 hunary
  refine Signature.ext' ?_ (hret'.trans hret.symm)
  rw [hparams', hparams, Signature.filtered, collected, answered, if_neg hvalue,
    List.drop_eq_getElem_cons hlt, Filters.params, Filters.params, hp, Signature.param, hp]
  simp

theorem endsAs_collect_iff_filter (hP : P.Blind) (hm : m.Keyed) (ht : t.Fitted) {s' : Stamp} {k' : Handle}
    (hmade : t.collectArguments s pos f = .ok k) (hunary : f.type.arity = 1)
    (hvalue : f.type.ret ≠ .void) (hmade' : t.filterArguments s' pos [some f] = .ok k') :
    k.EndsAs P m args r ↔ k'.EndsAs P m args r := by
  have htype := type_eq_of_collect_of_filter hmade hunary hvalue hmade'
  refine endsAs_iff_of_check htype fun hargs => ?_
  obtain ⟨-, -, hkept | hnode⟩ := filterArguments_made hmade'
  · cases hkept.2
  · have hpos : pos < args.length := by
      obtain ⟨-, -, hparams, -⟩ := collectArguments_made hmade
      obtain ⟨hfilters, -⟩ := filterArguments_succeeds_iff.1 ⟨k', hmade'⟩
      have hfilters : pos + 1 ≤ t.type.params.length := hfilters
      rw [Value.length_eq_of_fitAll (Signature.check_eq_ok_iff.1 hargs), hparams, collected,
        List.length_append, List.length_append, List.length_take_of_le (by omega)]
      have hone : f.type.params.length = 1 := hunary
      omega
    rw [endsAs_collect_iff hP hm ht hmade hargs,
      endsAs_filter_iff hP hm hnode hunary hvalue hpos (htype ▸ hargs)]

end Ends

end Handle

/-- **Collecting runs the filter and then the target**, whatever handles a program has made. What is made
has the parameters of the filter in place of what the filter answers. On arguments that fit, its call is the
filter's call on its own arguments and then, if that answers, the target's on what is passed on, but for a
level that the target may be reached higher or lower; if the filter fails, the call ends so, and the target
is not run. And to collect from a filter of one argument that answers a value is to filter: the signature is
the same, and on whatever arguments the calls end in the same ways. -/
theorem Handling.collectArguments_filters {P : Program} (hP : P.Blind) {m : Machine} {hs : List Handle}
    (hH : Handling P.graph m hs) {t : Handle} (ht : t ∈ hs) (f : Handle) (pos : Nat) (s : Stamp)
    {k : Handle} (hk : t.collectArguments s pos f = .ok k) :
    k.type.ret = t.type.ret ∧ k.type.params = f.collected t.type pos ∧
    (∃ w ≤ 1, ∀ args, k.type.check P.graph args = .ok () →
      f.type.check P.graph (f.takenBy pos args) = .ok () ∧
      (∀ v, v.isResultOf P.graph f.type.ret = true →
        t.type.check P.graph (f.passedBy pos args v) = .ok ()) ∧
      ∀ depth,
        seen Machine.visible (k.invokeExact P (depth + 2) args m) =
          seen Machine.visible (Handle.filterThenCall P t f pos args (depth + 1) (depth + w) m) ∧
        ∀ e n, f.invokeExact P (depth + 1) (f.takenBy pos args) m = .error e n →
          seen Machine.visible (k.invokeExact P (depth + 2) args m) = (.error e, n.visible)) ∧
    (f.type.arity = 1 → f.type.ret ≠ .void →
      ∀ s' k', t.filterArguments s' pos [some f] = .ok k' →
        k'.type = k.type ∧ ∀ args r, k.EndsAs P m args r ↔ k'.EndsAs P m args r) := by
  have hfitted := hH.fitted.1 t ht
  have hm := hH.keyed
  obtain ⟨-, hret, hparams, -⟩ := Handle.collectArguments_made hk
  refine ⟨hret, hparams, ?_, fun hunary hvalue s' k' hk' => ?_⟩
  · obtain ⟨w, hw, hseen⟩ := Handle.seen_collect hP hm hfitted hk
    refine ⟨w, hw, fun args hargs => ?_⟩
    obtain ⟨htaken, hpassed⟩ := Handle.check_of_collect hk hargs
    refine ⟨htaken, hpassed, fun depth => ⟨hseen args hargs depth, fun e n he => ?_⟩⟩
    rw [Handle.invokeExact_of_check htaken] at he
    rw [hseen args hargs, Handle.filterThenCall, bind_eq_of_error he]
    rfl
  · exact ⟨Handle.type_eq_of_collect_of_filter hk hunary hvalue hk', fun args r =>
      Handle.endsAs_collect_iff_filter hP hm hfitted hk hunary hvalue hk'⟩

/-- The identity on numbers, in front of the argument that a handle ignores: to collect from it is a fold
of one reordering that does the work of two, to filter is a node that filters, and the calls end alike. -/
theorem Handling.collectArguments_filters_of_second :
    let number : Ty := .cls .number
    let seven : Value := .boxed (.prim (.int 7))
    ∃ (m : Machine) (k k' : Handle), Handling .bootstrap m [.second, .itself] ∧
      Handle.second.collectArguments 4 0 .itself = .ok k ∧ k.variant = .fold ∧
        Handle.second.filterArguments 6 0 [some .itself] = .ok k' ∧ k'.variant = .filterArgs ∧
          k'.type = k.type ∧ k.type.params = [number, number] ∧
            ∀ r, k.EndsAs (.zeros .bootstrap) m [seven, seven] r ↔
              k'.EndsAs (.zeros .bootstrap) m [seven, seven] r := by
  intro number seven
  obtain ⟨m, -, -, hsecond⟩ := Handling.exists_second
  obtain ⟨-, hparams, -, hfilter⟩ := Handling.collectArguments_filters (P := .zeros .bootstrap)
    (fun _ _ => .pure _) hsecond List.mem_cons_self .itself 0 4 rfl
  obtain ⟨htype, hends⟩ := hfilter rfl nofun 6 _ rfl
  exact ⟨_, _, _, hsecond, rfl, rfl, rfl, rfl, htype, hparams, hends [seven, seven]⟩

end HandleCalculus
