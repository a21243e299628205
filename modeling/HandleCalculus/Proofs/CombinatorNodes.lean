import HandleCalculus.Handle.Adapt

/-!
# The nodes that combinators make

A combinator that succeeds answers the handle it is given, if there is nothing to do, or puts one
node of its own kind on top of it; only a reordering looks below. What each one asks for and makes is
read off its definition once (`insertArguments_eq_ok_iff` and its siblings). Beside that stands what
it is made of, the signature left open, for where nothing else matters.
-/

set_option autoImplicit false

namespace HandleCalculus.Handle

variable {G : ClassGraph} {h h' : Handle} {s : Stamp}

/-- A handle can be seen under a signature that looks the same once references are erased. -/
theorem retype_eq_ok_iff {t : Signature} :
    h.retype s t = .ok h' ↔ t.shape = h.type.shape ∧ h' = ⟨s, t, h.node⟩ := by
  unfold retype
  by_cases hshape : t.shape = h.type.shape
  · simp [hshape, eq_comm (a := h')]
  · simp [hshape]

theorem retype_eq_ok {t : Signature} (hmade : h.retype s t = .ok h') :
    h'.node = h.node ∧ h'.type = t := by
  obtain ⟨-, rfl⟩ := retype_eq_ok_iff.1 hmade
  exact ⟨rfl, rfl⟩

theorem shape_of_retype {t : Signature} (hmade : h.retype s t = .ok h') :
    h'.type.shape = h.type.shape := by
  obtain ⟨hshape, rfl⟩ := retype_eq_ok_iff.1 hmade
  exact hshape

/-! ## Binding -/

/-- Values can be bound to parameters that they can be converted to; to bind none changes nothing. -/
theorem insertArguments_eq_ok_iff {pos : Nat} {vs : List Value} :
    h.insertArguments G s pos vs = .ok h' ↔ pos + vs.length ≤ h.type.arity ∧
      ∃ bound, coerceAll G vs (h.type.params.drop pos) = .ok bound ∧
        (bound = [] ∧ h' = h ∨ bound ≠ [] ∧
          ∃ t, h.type.dropParams pos (pos + bound.length) = .ok t ∧
            h' = ⟨s, t, .insert h pos bound⟩) := by
  unfold insertArguments
  simp only [bind, Except.bind, pure, Except.pure, throw, throwThe, MonadExceptOf.throw]
  by_cases hcount : pos + vs.length ≤ h.type.arity
  · rw [if_neg (Nat.not_lt.2 hcount), and_iff_right hcount]
    cases coerceAll G vs (h.type.params.drop pos) with
    | error e => simp
    | ok bound =>
      by_cases hbound : bound = []
      · simp [hbound, eq_comm (a := h')]
      · simp only [List.isEmpty_iff, hbound, if_false, Except.ok.injEq, exists_eq_left', ne_eq,
          not_false_eq_true, true_and, false_and, false_or]
        cases h.type.dropParams pos (pos + bound.length) <;> simp [eq_comm (a := h')]
  · simp [Nat.lt_of_not_le hcount, hcount]

theorem insertArguments_eq_ok {pos : Nat} {vs : List Value}
    (hmade : h.insertArguments G s pos vs = .ok h') :
    h' = h ∨ ∃ t bound, h' = ⟨s, t, .insert h pos bound⟩ := by
  obtain ⟨-, bound, -, ⟨-, rfl⟩ | ⟨-, t, -, rfl⟩⟩ := insertArguments_eq_ok_iff.1 hmade
  · exact .inl rfl
  · exact .inr ⟨t, bound, rfl⟩

theorem insertArguments_of_bindTo {v : Value} (hmade : h.bindTo G s v = .ok h') :
    h.insertArguments G s 0 [v] = .ok h' := by
  unfold bindTo at hmade
  split at hmade
  · cases hmade
  · exact hmade

/-! ## Reordering -/

theorem dropArguments_eq_ok {pos : Nat} {types : List Ty}
    (hmade : h.dropArguments s pos types = .ok h') :
    h' = h ∨ ∃ new reorder, h.permuteArguments s new reorder = .ok h' := by
  unfold dropArguments at hmade
  simp only [bind, Except.bind, pure, Except.pure] at hmade
  split at hmade
  · exact .inl (Except.ok.inj hmade).symm
  split at hmade
  · cases hmade
  · exact .inr ⟨_, _, hmade⟩

/-! ## Filters -/

/-- Filters can be put on parameters that there are, if they lead to a signature; to put none on changes
nothing. -/
theorem filterArguments_eq_ok_iff {pos : Nat} {filters : List (Option Handle)} :
    h.filterArguments s pos filters = .ok h' ↔ pos + filters.length ≤ h.type.arity ∧
      ∃ t, filteredType h.type pos 0 filters h.type = .ok t ∧
        (filters.all Option.isNone = true ∧ h' = h ∨
          filters.all Option.isNone = false ∧ h' = ⟨s, t, .filterArgs h pos filters⟩) := by
  unfold filterArguments
  simp only [bind, Except.bind, pure, Except.pure, throw, throwThe, MonadExceptOf.throw]
  by_cases hcount : pos + filters.length ≤ h.type.arity
  · rw [if_neg (Nat.not_lt.2 hcount), and_iff_right hcount]
    cases filteredType h.type pos 0 filters h.type with
    | error e => simp
    | ok t => cases filters.all Option.isNone <;> simp [eq_comm (a := h')]
  · simp [Nat.lt_of_not_le hcount, hcount]

theorem filterArguments_eq_ok {pos : Nat} {filters : List (Option Handle)}
    (hmade : h.filterArguments s pos filters = .ok h') :
    h' = h ∨ ∃ t, h' = ⟨s, t, .filterArgs h pos filters⟩ := by
  obtain ⟨-, t, -, ⟨-, rfl⟩ | ⟨-, rfl⟩⟩ := filterArguments_eq_ok_iff.1 hmade
  · exact .inl rfl
  · exact .inr ⟨t, rfl⟩

/-- A filter can be put on what is returned if that is what it takes. -/
theorem filterReturnValue_eq_ok_iff {f : Handle} : h.filterReturnValue s f = .ok h' ↔
    f.type.params = (if h.type.ret = .void then [] else [h.type.ret]) ∧
      ∃ t, h.type.changeReturn f.type.ret = .ok t ∧ h' = ⟨s, t, .filterReturn h f⟩ := by
  unfold filterReturnValue
  simp only [bind, Except.bind, pure, Except.pure, throw, throwThe, MonadExceptOf.throw]
  generalize (if h.type.ret = .void then [] else [h.type.ret]) = taken
  by_cases hparams : f.type.params = taken
  · cases h.type.changeReturn f.type.ret <;> simp [hparams, eq_comm]
  · simp [hparams]

theorem filterReturnValue_eq_ok {f : Handle} (hmade : h.filterReturnValue s f = .ok h') :
    ∃ t, h' = ⟨s, t, .filterReturn h f⟩ := by
  obtain ⟨-, t, -, rfl⟩ := filterReturnValue_eq_ok_iff.1 hmade
  exact ⟨t, rfl⟩

/-! ## Folding -/

/-- How many values a call answers: none if it answers `void`. -/
def answered (f : Handle) : Nat := if f.type.ret = .void then 0 else 1

/-- Whether what a handle answers is passed on at a position: there is a parameter of that type, or the
handle answers nothing and the position is one. -/
def FeedsAt (f : Handle) (t : Signature) (pos : Nat) : Prop :=
  if f.type.ret = .void then pos ≤ t.arity else t.params[pos]? = some f.type.ret

theorem FeedsAt.room {f : Handle} {t : Signature} {pos : Nat} (hf : f.FeedsAt t pos) :
    pos + f.answered ≤ t.arity := by
  unfold FeedsAt at hf
  unfold answered
  split
  · next hvoid =>
    rwa [if_pos hvoid] at hf
  · next hvoid =>
    rw [if_neg hvoid] at hf
    exact (List.getElem?_eq_some_iff.1 hf).1

/-- A combiner can be folded into a handle if what it answers goes on in front of its own arguments. -/
theorem foldArguments_eq_ok_iff {c : Handle} {pos : Nat} : h.foldArguments s pos c = .ok h' ↔
    c.FeedsAt h.type pos ∧ c.type.params <+: h.type.params.drop (pos + c.answered) ∧
      ∃ t, h.type.dropParams pos (pos + c.answered) = .ok t ∧ h' = ⟨s, t, .fold h pos c⟩ := by
  have hbegins : ∀ n, n + c.type.arity ≤ h.type.arity ∧
      c.type.params = (h.type.params.drop n).take c.type.arity ↔
        n ≤ h.type.arity ∧ c.type.params <+: h.type.params.drop n := by
    intro n
    rw [List.prefix_iff_eq_take]
    constructor
    · rintro ⟨hn, hparams⟩
      exact ⟨by omega, hparams⟩
    · rintro ⟨hn, hparams⟩
      refine ⟨?_, hparams⟩
      have hlength : c.type.arity = min c.type.arity (h.type.arity - n) := by
        simpa [Signature.arity] using congrArg List.length hparams
      omega
  unfold foldArguments FeedsAt answered
  simp only [bind, Except.bind, pure, Except.pure, throw, throwThe, MonadExceptOf.throw]
  by_cases hvoid : c.type.ret = .void
  · have hwhole : ∀ t, pos ≤ h.type.arity → (h.type.dropParams pos pos = .ok t ↔ t = h.type) := by
      intro t hpos
      rw [Signature.dropParams_eq_ok_iff]
      constructor
      · rintro ⟨-, -, hret, hparams⟩
        exact Signature.ext' (hparams.trans (List.take_append_drop pos _)) hret
      · rintro rfl
        exact ⟨Nat.le_refl pos, hpos, rfl, (List.take_append_drop pos _).symm⟩
    simp only [hvoid, ne_eq, not_true_eq_false, false_and, if_false, if_true, Nat.add_zero,
      ← and_assoc, ← hbegins]
    by_cases hcount : pos + c.type.arity ≤ h.type.arity
    · rw [if_neg (Nat.not_lt.2 hcount)]
      by_cases hparams : c.type.params = (h.type.params.drop pos).take c.type.arity
      · simp [hcount, ← hparams, hwhole _ (by omega), eq_comm (a := h')]
      · simp [hcount, hparams]
    · simp [Nat.lt_of_not_le hcount, hcount]
  · have hparam : h.type.params[pos]? = some c.type.ret ↔
        h.type.param pos = c.type.ret ∧ pos + 1 ≤ h.type.arity := by
      unfold Signature.param
      cases hget : h.type.params[pos]? with
      | none =>
        have hend : h.type.arity ≤ pos := List.getElem?_eq_none_iff.1 hget
        simp
        omega
      | some t =>
        have hlt : pos + 1 ≤ h.type.arity := (List.getElem?_eq_some_iff.1 hget).1
        simp [hlt]
    have hsplit : ∀ p q : Prop, ((p ∧ pos + 1 ≤ h.type.arity) ∧
        c.type.params <+: h.type.params.drop (pos + 1) ∧ q ↔
          p ∧ (pos + 1 + c.type.arity ≤ h.type.arity ∧
            c.type.params = (h.type.params.drop (pos + 1)).take c.type.arity) ∧ q) := by
      intro p q
      rw [hbegins, and_assoc, and_assoc]
    simp only [hvoid, ne_eq, not_false_eq_true, if_true, true_and, if_false, hparam, hsplit]
    by_cases hcount : pos + 1 + c.type.arity ≤ h.type.arity
    · rw [if_neg (Nat.not_lt.2 hcount)]
      by_cases hresult : h.type.param pos = c.type.ret
      · by_cases hparams : c.type.params = (h.type.params.drop (pos + 1)).take c.type.arity
        · cases h.type.dropParams pos (pos + 1) <;>
            simp [hcount, hresult, ← hparams, eq_comm (a := h')]
        · simp [hresult, hparams]
      · simp [hresult]
    · simp [Nat.lt_of_not_le hcount, hcount]

theorem foldArguments_eq_ok {c : Handle} {pos : Nat} (hmade : h.foldArguments s pos c = .ok h') :
    ∃ t, h' = ⟨s, t, .fold h pos c⟩ := by
  obtain ⟨-, -, t, -, rfl⟩ := foldArguments_eq_ok_iff.1 hmade
  exact ⟨t, rfl⟩

/-- What is collected is dropped first, then folded. -/
theorem collectArguments_eq (s : Stamp) (h : Handle) (pos : Nat) (f : Handle) :
    h.collectArguments s pos f = (do
      let widened ← h.dropArguments (s + 1) (pos + f.answered) f.type.params
      widened.foldArguments s pos f) := rfl

theorem collectArguments_eq_ok_iff {f : Handle} {pos : Nat} : h.collectArguments s pos f = .ok h' ↔
    ∃ widened, h.dropArguments (s + 1) (pos + f.answered) f.type.params = .ok widened ∧
      widened.foldArguments s pos f = .ok h' := by
  rw [collectArguments_eq]
  cases h.dropArguments (s + 1) (pos + f.answered) f.type.params <;> simp [bind, Except.bind]

theorem collectArguments_eq_ok {f : Handle} {pos : Nat}
    (hmade : h.collectArguments s pos f = .ok h') :
    ∃ at' types widened t, h.dropArguments (s + 1) at' types = .ok widened ∧
      h' = ⟨s, t, .fold widened pos f⟩ := by
  obtain ⟨widened, hwidened, hfold⟩ := collectArguments_eq_ok_iff.1 hmade
  obtain ⟨t, ht⟩ := foldArguments_eq_ok hfold
  exact ⟨_, _, widened, t, hwidened, ht⟩

/-! ## Choices -/

/-- What is refused as the first parameters is not how the parameters begin. -/
theorem not_prefix_iff {ps qs : List Ty} :
    (ps.length > qs.length ∨ ps ≠ qs.take ps.length) ↔ ¬ ps <+: qs := by
  rw [List.prefix_iff_eq_take]
  constructor
  · rintro (hlong | hne) heq
    · have hlength : ps.length = min ps.length qs.length := by
        simpa using congrArg List.length heq
      omega
    · exact hne heq
  · exact .inr

/-- There is a choice between handles of one signature, by a test of the first arguments. -/
theorem guardWithTest_eq_ok_iff {test fallback : Handle} :
    guardWithTest s test h fallback = .ok h' ↔ h.type = fallback.type ∧ test.type.ret = .boolean ∧
      test.type.params <+: h.type.params ∧ h' = ⟨s, h.type, .guarded test h fallback⟩ := by
  have hfirst : test.type.arity > h.type.arity ∨
      test.type.params ≠ h.type.params.take test.type.arity ↔ ¬ test.type.params <+: h.type.params :=
    not_prefix_iff
  unfold guardWithTest
  simp only [bind, Except.bind, pure, Except.pure, throw, throwThe, MonadExceptOf.throw, hfirst]
  by_cases hsame : h.type = fallback.type
  · simp only [← hsame]
    by_cases hresult : test.type.ret = .boolean
    · by_cases hparams : test.type.params <+: h.type.params
      · simp [hresult, hparams, eq_comm (a := h')]
      · simp [hresult, hparams]
    · simp [hresult]
  · simp [hsame]

theorem guardWithTest_eq_ok {test fallback : Handle}
    (hmade : guardWithTest s test h fallback = .ok h') :
    h' = ⟨s, h.type, .guarded test h fallback⟩ := by
  obtain ⟨-, -, -, rfl⟩ := guardWithTest_eq_ok_iff.1 hmade
  rfl

/-- A handler answers what the target does, and takes the throwable and some of the first arguments. -/
theorem catchException_eq_ok_iff {c : ClassId} {handler : Handle} :
    h.catchException G s c handler = .ok h' ↔ G.isSubclass c ClassId.throwable = true ∧
      handler.type.ret = h.type.ret ∧ ∃ first leading, handler.type.params = first :: leading ∧
        G.isAssignable (.cls c) first = true ∧ leading <+: h.type.params ∧
          h' = ⟨s, h.type, .catching h c handler⟩ := by
  unfold catchException
  simp only [bind, Except.bind, pure, Except.pure, throw, throwThe, MonadExceptOf.throw]
  cases G.isSubclass c ClassId.throwable with
  | false => simp
  | true =>
    by_cases hresult : handler.type.ret = h.type.ret
    · cases handler.type.params with
      | nil => simp [hresult]
      | cons first leading =>
        have hfirst : leading.length > h.type.arity ∨ leading ≠ h.type.params.take leading.length ↔
            ¬ leading <+: h.type.params := not_prefix_iff
        simp only [hfirst]
        cases hassign : G.isAssignable (.cls c) first with
        | false => simp [hresult, hassign]
        | true =>
          by_cases hleading : leading <+: h.type.params
          · simp [hresult, hassign, hleading, and_assoc, eq_comm (a := h')]
          · simp [hresult, hleading]
    · simp [hresult]

theorem catchException_eq_ok {c : ClassId} {handler : Handle}
    (hmade : h.catchException G s c handler = .ok h') :
    h' = ⟨s, h.type, .catching h c handler⟩ := by
  obtain ⟨-, -, first, leading, -, -, -, rfl⟩ := catchException_eq_ok_iff.1 hmade
  rfl

/-! ## Leaves -/

theorem constant_eq_ok_iff {t : Ty} {v : Value} : constant G s t v = .ok h' ↔
    ∃ w new, v.coerce G t = .ok w ∧ Signature.of t [] = .ok new ∧ h' = ⟨s, new, .constant w⟩ := by
  unfold constant
  simp only [bind, Except.bind, pure, Except.pure]
  cases v.coerce G t with
  | error e => simp
  | ok w => cases Signature.of t [] <;> simp [eq_comm (a := h')]

theorem constant_eq_ok {t : Ty} {v : Value} (hmade : constant G s t v = .ok h') :
    ∃ type w, h' = ⟨s, type, .constant w⟩ := by
  obtain ⟨w, type, -, -, rfl⟩ := constant_eq_ok_iff.1 hmade
  exact ⟨type, w, rfl⟩

theorem identity_eq_ok_iff {t : Ty} : identity s t = .ok h' ↔
    ∃ new, Signature.of t [t] = .ok new ∧ h' = ⟨s, new, .identity⟩ := by
  unfold identity
  simp only [bind, Except.bind, pure, Except.pure]
  cases Signature.of t [t] <;> simp [eq_comm (a := h')]

theorem identity_eq_ok {t : Ty} (hmade : identity s t = .ok h') :
    ∃ type, h' = ⟨s, type, .identity⟩ := by
  obtain ⟨type, -, rfl⟩ := identity_eq_ok_iff.1 hmade
  exact ⟨type, rfl⟩

theorem throwException_eq_ok_iff {ret : Ty} {c : ClassId} : throwException G s ret c = .ok h' ↔
    G.isSubclass c ClassId.throwable = true ∧
      ∃ new, Signature.of ret [.cls c] = .ok new ∧ h' = ⟨s, new, .throwing⟩ := by
  unfold throwException
  simp only [bind, Except.bind, pure, Except.pure, throw, throwThe, MonadExceptOf.throw]
  cases G.isSubclass c ClassId.throwable with
  | false => simp
  | true => cases Signature.of ret [.cls c] <;> simp [eq_comm (a := h')]

theorem throwException_eq_ok {ret : Ty} {c : ClassId}
    (hmade : throwException G s ret c = .ok h') : ∃ type, h' = ⟨s, type, .throwing⟩ := by
  obtain ⟨-, type, -, rfl⟩ := throwException_eq_ok_iff.1 hmade
  exact ⟨type, rfl⟩

/-! ## Arity -/

/-- Arguments can be collected where an array of them can be passed. -/
theorem asCollectorAt_eq_ok_iff {pos count : Nat} {array : Ty} :
    h.asCollectorAt G s pos array count = .ok h' ↔
      ∃ c t d new, array = .array c ∧ h.type.params[pos]? = some t ∧ G.isAssignable array t = true ∧
        h.type.dropParams pos (pos + 1) = .ok d ∧
          d.insertParams pos (List.replicate count c) = .ok new ∧
            h' = ⟨s, new, .collect h pos count array⟩ := by
  unfold asCollectorAt
  simp only [bind, Except.bind, pure, Except.pure, throw, throwThe, MonadExceptOf.throw]
  by_cases hpos : pos < h.type.params.length
  · have hget := List.getElem?_eq_getElem hpos
    have hparam : h.type.param pos = h.type.params[pos] := by
      rw [Signature.param, hget]
      rfl
    have harity : ¬ pos ≥ h.type.arity := Nat.not_le.2 hpos
    rw [if_neg harity, hparam, hget]
    cases array with
    | array c =>
      simp only [Ty.component?, Option.some.injEq, Ty.array.injEq, exists_and_left, exists_eq_left']
      cases G.isAssignable (.array c) h.type.params[pos] with
      | false => simp
      | true =>
        cases h.type.dropParams pos (pos + 1) with
        | error e => simp
        | ok d =>
          simp only [Except.ok.injEq, exists_eq_left']
          cases d.insertParams pos (List.replicate count c) <;> simp [eq_comm (a := h')]
    | _ => simp [Ty.component?]
  · have hnone : h.type.params[pos]? = none := List.getElem?_eq_none_iff.2 (Nat.le_of_not_lt hpos)
    have harity : pos ≥ h.type.arity := Nat.le_of_not_lt hpos
    simp [harity, hnone]

theorem asCollectorAt_of_asCollector {array : Ty} {count : Nat}
    (hmade : h.asCollector G s array count = .ok h') :
    ∃ pos, h.asCollectorAt G s pos array count = .ok h' := by
  unfold asCollector at hmade
  split at hmade
  · cases hmade
  · exact ⟨_, hmade⟩

/-- An array can be spread into parameters that its elements can be converted to. -/
theorem asSpreaderAt_eq_ok_iff {pos count : Nat} {array : Ty} :
    h.asSpreaderAt G s pos array count = .ok h' ↔ pos + count ≤ h.type.arity ∧
      ∃ c d new, array = .array c ∧
        (∀ t ∈ (h.type.params.drop pos).take count, (Conversion.plan? G c t).isSome = true) ∧
          h.type.dropParams pos (pos + count) = .ok d ∧ d.insertParams pos [array] = .ok new ∧
            h' = ⟨s, new, .spread h pos count array⟩ := by
  unfold asSpreaderAt
  simp only [bind, Except.bind, pure, Except.pure, throw, throwThe, MonadExceptOf.throw]
  by_cases hcount : pos + count ≤ h.type.arity
  · rw [if_neg (Nat.not_lt.2 hcount), and_iff_right hcount]
    cases array with
    | array c =>
      simp only [Ty.component?, Ty.array.injEq, exists_and_left, exists_eq_left']
      generalize (h.type.params.drop pos).take count = ts
      cases hfind : ts.find? fun t => (Conversion.plan? G c t).isNone with
      | some t =>
        have hnone := List.find?_some (p := fun t => (Conversion.plan? G c t).isNone) hfind
        have hplans : ¬ ∀ t ∈ ts, (Conversion.plan? G c t).isSome = true := by
          intro hplans
          have hsome := hplans t (List.mem_of_find?_eq_some hfind)
          rw [Option.isSome_iff_ne_none] at hsome
          exact hsome (Option.isNone_iff_eq_none.1 hnone)
        simp [hplans]
      | none =>
        have hplans : ∀ t ∈ ts, (Conversion.plan? G c t).isSome = true := by
          intro t ht
          have hsome := List.find?_eq_none.1 hfind t ht
          rwa [Bool.not_eq_true, Option.isNone_eq_false_iff] at hsome
        rw [and_iff_right hplans]
        cases h.type.dropParams pos (pos + count) with
        | error e => simp
        | ok d =>
          simp only [Except.ok.injEq, exists_eq_left']
          cases d.insertParams pos [.array c] <;> simp [eq_comm (a := h')]
    | _ => simp [Ty.component?]
  · simp [Nat.lt_of_not_le hcount, hcount]

theorem asSpreaderAt_made {pos count : Nat} {array : Ty}
    (hmade : h.asSpreaderAt G s pos array count = .ok h') :
    ∃ t, h' = ⟨s, t, .spread h pos count array⟩ := by
  obtain ⟨-, c, d, t, -, -, -, -, rfl⟩ := asSpreaderAt_eq_ok_iff.1 hmade
  exact ⟨t, rfl⟩

theorem asSpreaderAt_of_asSpreader {array : Ty} {count : Nat}
    (hmade : h.asSpreader G s array count = .ok h') :
    ∃ pos, h.asSpreaderAt G s pos array count = .ok h' := by
  unfold asSpreader at hmade
  split at hmade
  · exact ⟨_, hmade⟩
  · cases hmade

theorem asVarargsCollector_eq_ok {array : Ty} (hmade : h.asVarargsCollector G s array = .ok h') :
    h' = h ∨ h' = ⟨s, h.type, .varargs h.asFixedArity array s⟩ := by
  unfold asVarargsCollector at hmade
  split at hmade
  · exact .inl (Except.ok.inj hmade).symm
  split at hmade
  · cases hmade
  split at hmade
  · exact .inr (Except.ok.inj hmade).symm
  · cases hmade

end HandleCalculus.Handle
