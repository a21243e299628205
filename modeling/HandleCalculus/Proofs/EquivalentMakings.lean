import HandleCalculus.Proofs.AdaptedCalls
import HandleCalculus.Proofs.MakingHistory

/-!
# Making handles respects equivalence

Equivalent handles have one signature, and what a combinator asks of its handles beside that is the
kind of a node, which they share as well. So from equivalent handles a combinator makes equivalent ones,
or it refuses both for one reason: one `agree_` lemma for each, with new identities left open.

Only adaptation looks at anything else. A variable-arity handle takes the collector that it remembers,
and two that are equivalent remember different ones, or one of them none. What is remembered is a
collector of the handle's own target, though (`Machine.Registers`), so it is equivalent to the one that
would be made.

What is bound is cast, and a cast looks at the class of a wrapper where sameness of values does not. So
of values to bind it is asked that their wrappers are of the same classes, and it has to be
(`Handle.insertArguments_wrapperIdentity_of_ne`).
-/

set_option autoImplicit false

namespace HandleCalculus

/-! ## Outcomes that agree -/

theorem Agree.bind {α β : Type} {R : α → α → Prop} {S : β → β → Prop} {x y : Except Error α}
    {f g : α → Except Error β} (h : Agree R x y) (hf : ∀ a b, R a b → Agree S (f a) (g b)) :
    Agree S (x >>= f) (y >>= g) := by
  cases h with
  | ok h => exact hf _ _ h
  | error e => exact .error e

theorem Agree.symm {α : Type} {R : α → α → Prop} (hR : Equivalence R) {x y : Except Error α}
    (h : Agree R x y) : Agree R y x := by
  cases h with
  | ok h => exact .ok (hR.symm h)
  | error e => exact .error e

theorem Agree.trans {α : Type} {R : α → α → Prop} (hR : Equivalence R) {x y z : Except Error α}
    (h : Agree R x y) (h' : Agree R y z) : Agree R x z := by
  cases h with
  | ok h =>
    cases h' with
    | ok h' => exact .ok (hR.trans h h')
  | error e => exact h'

/-- An outcome agrees with itself. -/
theorem Agree.refl {α : Type} (x : Except Error α) : Agree Eq x x := by
  cases x with
  | ok a => exact .ok rfl
  | error e => exact .error e

/-- A choice that is made on both sides alike. -/
theorem Agree.ite {α : Type} {R : α → α → Prop} {p : Prop} [Decidable p]
    {x x' y y' : Except Error α} (hx : p → Agree R x x') (hy : ¬ p → Agree R y y') :
    Agree R (if p then x else y) (if p then x' else y') := by
  split
  · next hp => exact hx hp
  · next hp => exact hy hp

/-- Two outcomes that agree but for what the errors are about: values that `R` relates, or errors of
one kind. -/
inductive AgreeInKind {α : Type} (R : α → α → Prop) : Except Error α → Except Error α → Prop where
  | ok {a b : α} (h : R a b) : AgreeInKind R (.ok a) (.ok b)
  | error {e e' : Error} (h : e.kind = e'.kind) : AgreeInKind R (.error e) (.error e')

theorem Agree.inKind {α : Type} {R : α → α → Prop} {x y : Except Error α} (h : Agree R x y) :
    AgreeInKind R x y := by
  cases h with
  | ok h => exact .ok h
  | error e => exact .error rfl

/-! ## Bound values -/

section Bound

variable {G : ClassGraph} {v w : Value} {vs ws : List Value} {a b : Handle} {s s' : Stamp}

/-- What is widened of two values that are the same is one value, if anything. -/
private theorem widenTo_of_same (h : v.same w = true) (p : Prim) :
    v.widenTo p = w.widenTo p ∨ ∃ e e', v.widenTo p = .error e ∧ w.widenTo p = .error e' := by
  rcases Value.eq_or_boxed_of_same h with rfl | ⟨p, q, c, d, rfl, rfl, -⟩
  · exact .inl rfl
  · exact .inr ⟨_, _, rfl, rfl⟩

/-- Values that are the same, and wrappers of one class if any, are converted alike. -/
theorem Value.coerce_of_same (h : v.same w = true) (hclass : v.wrapper? = w.wrapper?) (t : Ty) :
    (∃ v' w', v.coerce G t = .ok v' ∧ w.coerce G t = .ok w' ∧ v'.same w' = true) ∨
      ∃ e e', v.coerce G t = .error e ∧ w.coerce G t = .error e' := by
  have hsame : ∀ {x y : Except ConversionError Value}, x = y →
      (∃ v' w', x = .ok v' ∧ y = .ok w' ∧ v'.same w' = true) ∨ ∃ e e', x = .error e ∧ y = .error e' := by
    rintro (e | u) _ rfl
    · exact .inr ⟨e, e, rfl, rfl⟩
    · exact .inl ⟨u, u, rfl, rfl, u.same_refl⟩
  rcases eq_or_boxed_of_same h with rfl | ⟨p, q, c, d, rfl, rfl, hcd⟩
  · exact hsame rfl
  obtain rfl : p = q := Option.some.inj hclass
  -- a cast looks at the class, and unboxing at the contents
  have hcast : ∀ t : Ty, (∃ v' w', (obj (.boxed p c)).castTo G t = .ok v' ∧
        (obj (.boxed p d)).castTo G t = .ok w' ∧ v'.same w' = true) ∨
      ∃ e e', (obj (.boxed p c)).castTo G t = .error e ∧ (obj (.boxed p d)).castTo G t = .error e' := by
    intro t
    cases hinstance : G.isAssignable (Ty.wrapper p) t with
    | true => exact .inl ⟨_, _, if_pos hinstance, if_pos hinstance, h⟩
    | false =>
      have hne : ¬ G.isAssignable (Ty.wrapper p) t = true := by
        rw [hinstance]
        exact Bool.false_ne_true
      exact .inr ⟨_, _, if_neg hne, if_neg hne⟩
  cases t with
  | void => exact .inr ⟨_, _, rfl, rfl⟩
  | prim r =>
    rcases widenTo_of_same hcd r with heq | herror
    · exact hsame heq
    · exact .inr herror
  | cls k => exact hcast (.cls k)
  | array k => exact hcast (.array k)

theorem Handle.agreeInKind_coerceAll (h : vs.isEqv ws Value.same = true)
    (hclasses : vs.map Value.wrapper? = ws.map Value.wrapper?) (ts : List Ty) :
    AgreeInKind (fun bound bound' => bound.isEqv bound' Value.same = true) (coerceAll G vs ts)
      (coerceAll G ws ts) := by
  induction vs generalizing ws ts with
  | nil =>
    cases ws with
    | nil => exact .ok rfl
    | cons w ws => cases h
  | cons v vs ih =>
    cases ws with
    | nil => cases h
    | cons w ws =>
      rw [List.isEqv, Bool.and_eq_true] at h
      rw [List.map_cons, List.map_cons, List.cons.injEq] at hclasses
      cases ts with
      | nil => exact .ok rfl
      | cons t ts =>
        unfold coerceAll
        rcases Value.coerce_of_same (G := G) h.1 hclasses.1 t with
          ⟨v', w', hv, hw, hvw⟩ | ⟨e, e', hv, hw⟩
        · rw [hv, hw]
          have hrest := ih h.2 hclasses.2 ts
          generalize coerceAll G vs ts = x at hrest
          generalize coerceAll G ws ts = y at hrest
          cases hrest with
          | ok hbound => exact .ok (by rw [List.isEqv, hvw, Bool.true_and]; exact hbound)
          | error hkind => exact .error hkind
        · rw [hv, hw]
          exact .error rfl

theorem Handle.agreeInKind_insertArguments (h : a.Equiv b) (pos : Nat)
    (hvs : vs.isEqv ws Value.same = true)
    (hclasses : vs.map Value.wrapper? = ws.map Value.wrapper?) :
    AgreeInKind Equiv (a.insertArguments G s pos vs) (b.insertArguments G s' pos ws) := by
  unfold insertArguments
  rw [type_eq_of_equivalent h, List.length_eq_of_isEqv hvs]
  simp only [bind, Except.bind, pure, Except.pure, throw, throwThe, MonadExceptOf.throw]
  split
  · exact .error rfl
  have hbound := agreeInKind_coerceAll (G := G) hvs hclasses (b.type.params.drop pos)
  generalize coerceAll G vs (b.type.params.drop pos) = x at hbound
  generalize coerceAll G ws (b.type.params.drop pos) = y at hbound
  cases hbound with
  | error hkind => exact .error hkind
  | @ok bound bound' hbound =>
    have hlength := List.length_eq_of_isEqv hbound
    have hempty : bound.isEmpty = bound'.isEmpty := by
      rw [Bool.eq_iff_iff, List.isEmpty_iff_length_eq_zero, List.isEmpty_iff_length_eq_zero, hlength]
    dsimp only
    rw [hempty, hlength]
    split
    · exact .ok h
    cases b.type.dropParams pos (pos + bound'.length) with
    | error e => exact .error rfl
    | ok new =>
      exact .ok (equivalentBy_iff.2
        ⟨rfl, Node.equivalentBy_insert_iff.2 ⟨b, bound', rfl, hbound, h⟩⟩)

theorem Handle.agreeInKind_bindTo (h : a.Equiv b) (hvw : v.same w = true)
    (hclass : v.wrapper? = w.wrapper?) :
    AgreeInKind Equiv (a.bindTo G s v) (b.bindTo G s' w) := by
  unfold bindTo
  rw [type_eq_of_equivalent h]
  split
  · exact .error rfl
  · refine agreeInKind_insertArguments h 0 ?_ ?_
    · rw [List.isEqv, hvw]
      rfl
    · rw [List.map_singleton, List.map_singleton, hclass]

end Bound

/-! ## Combinators -/

namespace Handle

variable {a b c d f g : Handle} {s s' : Stamp}

theorem agree_permuteArguments (h : a.Equiv b) (new : Signature) (reorder : List Nat) :
    Agree Equiv (a.permuteArguments s new reorder) (b.permuteArguments s' new reorder) := by
  unfold permuteArguments
  rw [type_eq_of_equivalent h]
  simp only [bind, Except.bind, pure, Except.pure, throw, throwThe, MonadExceptOf.throw]
  split
  · exact .error _
  split
  · exact .error _
  cases checkReorder new reorder b.type.params with
  | error e => exact .error e
  | ok _ =>
  dsimp only
  split
  · exact .ok h
  have hnode : Node.equivalent a.node b.node = true := (equivalentBy_iff.1 h).2
  split
  · next inner order ha =>
    rw [ha] at hnode
    obtain ⟨k, hb, hk⟩ := Node.equivalentBy_permute_iff.1 hnode
    rw [hb]
    dsimp only
    split
    · rw [type_eq_of_equivalent hk]
      split
      · exact .ok hk
      · exact agree_retype hk new
    · exact .ok (equivalentBy_iff.2 ⟨rfl, Node.equivalentBy_permute_iff.2 ⟨k, rfl, hk⟩⟩)
  · next ha =>
    split
    · next k order hb =>
      have hnode := Node.equivalent_symm hnode
      rw [hb] at hnode
      obtain ⟨k', hk', -⟩ := Node.equivalentBy_permute_iff.1 hnode
      exact absurd hk' (ha k' order)
    · exact .ok (equivalentBy_iff.2 ⟨rfl, Node.equivalentBy_permute_iff.2 ⟨b, rfl, h⟩⟩)

theorem agree_dropArguments (h : a.Equiv b) (pos : Nat) (types : List Ty) :
    Agree Equiv (a.dropArguments s pos types) (b.dropArguments s' pos types) := by
  unfold dropArguments
  rw [type_eq_of_equivalent h]
  split
  · exact .ok h
  · exact .bind (.refl _) fun _ _ hnew => hnew ▸ agree_permuteArguments h _ _

/-! ### Filters -/

theorem length_eq_of_equivalent {fs gs : List (Option Handle)}
    (h : Filters.equivalent fs gs = true) : fs.length = gs.length := by
  induction fs generalizing gs with
  | nil => rw [Filters.equivalentBy_nil_iff.1 h]
  | cons f fs ih =>
    cases f with
    | none =>
      obtain ⟨gs, rfl, hgs⟩ := Filters.equivalentBy_none_cons_iff.1 h
      rw [List.length_cons, List.length_cons, ih hgs]
    | some f =>
      obtain ⟨g, gs, rfl, -, hgs⟩ := Filters.equivalentBy_some_cons_iff.1 h
      rw [List.length_cons, List.length_cons, ih hgs]

theorem all_isNone_eq_of_equivalent {fs gs : List (Option Handle)}
    (h : Filters.equivalent fs gs = true) : fs.all Option.isNone = gs.all Option.isNone := by
  induction fs generalizing gs with
  | nil => rw [Filters.equivalentBy_nil_iff.1 h]
  | cons f fs ih =>
    cases f with
    | none =>
      obtain ⟨gs, rfl, hgs⟩ := Filters.equivalentBy_none_cons_iff.1 h
      rw [List.all_cons, List.all_cons, ih hgs]
    | some f =>
      obtain ⟨g, gs, rfl, -, -⟩ := Filters.equivalentBy_some_cons_iff.1 h
      rfl

/-- What filters do to a signature is decided by their signatures. -/
theorem filteredType_eq_of_equivalent (old : Signature) (pos : Nat) :
    ∀ {fs gs : List (Option Handle)} (i : Nat) (acc : Signature),
      Filters.equivalent fs gs = true →
        filteredType old pos i fs acc = filteredType old pos i gs acc
  | [], _, _, _, h => by rw [Filters.equivalentBy_nil_iff.1 h]
  | none :: fs, _, i, acc, h => by
    obtain ⟨gs, rfl, hgs⟩ := Filters.equivalentBy_none_cons_iff.1 h
    exact filteredType_eq_of_equivalent old pos (i + 1) acc hgs
  | some f :: fs, _, i, acc, h => by
    obtain ⟨g, gs, rfl, hg, hgs⟩ := Filters.equivalentBy_some_cons_iff.1 h
    unfold filteredType
    rw [type_eq_of_equivalent hg]
    simp only [filteredType_eq_of_equivalent old pos (i + 1) _ hgs]

theorem agree_filterArguments (h : a.Equiv b) (pos : Nat) {fs gs : List (Option Handle)}
    (hfs : Filters.equivalent fs gs = true) :
    Agree Equiv (a.filterArguments s pos fs) (b.filterArguments s' pos gs) := by
  unfold filterArguments
  rw [type_eq_of_equivalent h, length_eq_of_equivalent hfs, all_isNone_eq_of_equivalent hfs]
  dsimp only
  rw [filteredType_eq_of_equivalent _ _ _ _ hfs]
  refine .ite (fun _ => .error _) fun _ => ?_
  refine .bind (R := Eq) (.refl _) fun new _ hnew => ?_
  subst hnew
  split
  · exact .ok h
  · exact .ok (equivalentBy_iff.2
      ⟨rfl, Node.equivalentBy_filterArgs_iff.2 ⟨b, gs, rfl, hfs, h⟩⟩)

theorem agree_filterReturnValue (h : a.Equiv b) (hf : f.Equiv g) :
    Agree Equiv (a.filterReturnValue s f) (b.filterReturnValue s' g) := by
  unfold filterReturnValue
  rw [type_eq_of_equivalent h, type_eq_of_equivalent hf]
  dsimp only
  refine .ite (fun _ => .error _) fun _ => ?_
  refine .bind (R := Eq) (.refl _) fun new _ hnew => ?_
  subst hnew
  exact .ok (equivalentBy_iff.2 ⟨rfl, Node.equivalentBy_filterReturn_iff.2 ⟨b, g, rfl, h, hf⟩⟩)

/-! ### Folding -/

theorem agree_foldArguments (h : a.Equiv b) (pos : Nat) (hf : f.Equiv g) :
    Agree Equiv (a.foldArguments s pos f) (b.foldArguments s' pos g) := by
  unfold foldArguments
  rw [type_eq_of_equivalent h, type_eq_of_equivalent hf]
  dsimp only
  refine .ite (fun _ => .error _) fun _ => ?_
  refine .ite (fun _ => .error _) fun _ => ?_
  refine .ite (fun _ => .error _) fun _ => ?_
  have hnode : Node.equivalent (.fold a pos f) (.fold b pos g) = true :=
    Node.equivalentBy_fold_iff.2 ⟨b, g, rfl, h, hf⟩
  refine .ite (fun _ => ?_) fun _ => .ok (equivalentBy_iff.2 ⟨rfl, hnode⟩)
  refine .bind (R := Eq) (.refl _) fun new _ hnew => ?_
  subst hnew
  exact .ok (equivalentBy_iff.2 ⟨rfl, hnode⟩)

theorem agree_collectArguments (h : a.Equiv b) (pos : Nat) (hf : f.Equiv g) :
    Agree Equiv (a.collectArguments s pos f) (b.collectArguments s' pos g) := by
  unfold collectArguments
  rw [type_eq_of_equivalent hf]
  exact .bind (agree_dropArguments h _ _) fun _ _ hwidened => agree_foldArguments hwidened pos hf

/-! ### Choices -/

theorem agree_guardWithTest (ht : c.Equiv d) (h : a.Equiv b) (hf : f.Equiv g) :
    Agree Equiv (guardWithTest s c a f) (guardWithTest s' d b g) := by
  unfold guardWithTest
  rw [type_eq_of_equivalent ht, type_eq_of_equivalent h, type_eq_of_equivalent hf]
  dsimp only
  refine .ite (fun _ => .error _) fun _ => ?_
  refine .ite (fun _ => .error _) fun _ => ?_
  refine .ite (fun _ => .error _) fun _ => ?_
  exact .ok (equivalentBy_iff.2 ⟨rfl, Node.equivalentBy_guarded_iff.2 ⟨d, b, g, rfl, ht, h, hf⟩⟩)

theorem agree_catchException (G : ClassGraph) (h : a.Equiv b) (cls : ClassId) (hf : f.Equiv g) :
    Agree Equiv (a.catchException G s cls f) (b.catchException G s' cls g) := by
  unfold catchException
  rw [type_eq_of_equivalent h, type_eq_of_equivalent hf]
  dsimp only
  refine .ite (fun _ => .error _) fun _ => ?_
  refine .ite (fun _ => .error _) fun _ => ?_
  split
  · exact .error _
  refine .ite (fun _ => .error _) fun _ => ?_
  refine .ite (fun _ => .error _) fun _ => ?_
  exact .ok (equivalentBy_iff.2 ⟨rfl, Node.equivalentBy_catching_iff.2 ⟨b, g, rfl, h, hf⟩⟩)

/-! ### Adaptations -/

theorem agree_convertTo (G : ClassGraph) (h : a.Equiv b) (new : Signature) :
    Agree Equiv (a.convertTo G s new) (b.convertTo G s' new) := by
  unfold convertTo
  rw [type_eq_of_equivalent h]
  extract_lets old refused
  split
  · exact .ok h
  split
  · exact .error _
  split
  · split
    · exact agree_retype h new
    · exact .ok (equivalentBy_iff.2 ⟨rfl, Node.equivalentBy_convert_iff.2 ⟨b, rfl, h⟩⟩)
  · exact .error _

theorem agree_asCollectorAt (G : ClassGraph) (h : a.Equiv b) (pos : Nat) (array : Ty)
    (count : Nat) :
    Agree Equiv (a.asCollectorAt G s pos array count) (b.asCollectorAt G s' pos array count) := by
  unfold asCollectorAt
  rw [type_eq_of_equivalent h]
  dsimp only
  refine .ite (fun _ => .error _) fun _ => ?_
  split
  · exact .error _
  refine .ite (fun _ => .error _) fun _ => ?_
  refine .bind (R := Eq) (.refl _) fun dropped _ hdropped => ?_
  subst hdropped
  refine .bind (R := Eq) (.refl _) fun new _ hnew => ?_
  subst hnew
  exact .ok (equivalentBy_iff.2 ⟨rfl, Node.equivalentBy_collect_iff.2 ⟨b, rfl, h⟩⟩)

theorem agree_asCollector (G : ClassGraph) (h : a.Equiv b) (array : Ty) (count : Nat) :
    Agree Equiv (a.asCollector G s array count) (b.asCollector G s' array count) := by
  unfold asCollector
  rw [type_eq_of_equivalent h]
  split
  · exact .error _
  · exact agree_asCollectorAt G h _ array count

theorem agree_asSpreaderAt (G : ClassGraph) (h : a.Equiv b) (pos : Nat) (array : Ty)
    (count : Nat) :
    Agree Equiv (a.asSpreaderAt G s pos array count) (b.asSpreaderAt G s' pos array count) := by
  unfold asSpreaderAt
  rw [type_eq_of_equivalent h]
  dsimp only
  split
  · exact .error _
  split
  · exact .error _
  split
  · exact .error _
  refine .bind (R := Eq) (.refl _) fun dropped _ hdropped => ?_
  subst hdropped
  refine .bind (R := Eq) (.refl _) fun new _ hnew => ?_
  subst hnew
  exact .ok (equivalentBy_iff.2 ⟨rfl, Node.equivalentBy_spread_iff.2 ⟨b, rfl, h⟩⟩)

theorem agree_asSpreader (G : ClassGraph) (h : a.Equiv b) (array : Ty) (count : Nat) :
    Agree Equiv (a.asSpreader G s array count) (b.asSpreader G s' array count) := by
  unfold asSpreader
  rw [type_eq_of_equivalent h]
  split
  · exact agree_asSpreaderAt G h _ array count
  · exact .error _

theorem equivalence_equiv : Equivalence Equiv :=
  ⟨equivalent_refl, equivalent_symm, equivalent_trans⟩

end Handle

/-! ## Variable arity -/

theorem Link.fst_start_bind_build (x : Link Handle) (f : Handle → Stamp → Except Error Handle)
    (m : Machine) : ((x >>= fun a => Link.build (f a)).start m).1 =
      (x.start m).1 >>= fun a => f a (x.start m).2.nextStamp := by
  rw [start_bind]
  generalize x.start m = p
  obtain ⟨a | e, n⟩ := p
  · rfl
  · exact (Link.start_build _ _).1

section Collectors

variable {G : ClassGraph} {T T' : Cells} {hs ks : List Handle} {m n : Machine} {a b k : Handle}
  {array : Ty} {cell : Stamp}

/-- What is remembered is no other than what would be made. -/
theorem agree_collectorFor (hm : m.Registers G T hs) (hcell : T cell = some (k, array))
    (count : Nat) (s : Stamp) : Agree Handle.Equiv
      ((collectorFor G k array cell count).start m).1 (k.asCollector G s array count) := by
  have hnew : ∀ s', Agree Handle.Equiv (k.asCollector G s' array count)
      (k.asCollector G s array count) :=
    fun s' => Handle.agree_asCollector G k.equivalent_refl array count
  rcases collectorFor_cases G k array cell count m with ⟨c, hfound, hc⟩ | hfresh
  · obtain ⟨k', array', s', hcell', hmade⟩ := hm.collectors cell count c hfound
    obtain ⟨rfl, rfl⟩ : k = k' ∧ array = array' := by simpa using hcell.symm.trans hcell'
    rw [Link.start_of_ok hc, ← hmade]
    exact hnew s'
  · have hstart : ((collectorFor G k array cell count).start m).1 =
        k.asCollector G m.nextStamp array count := by
      rw [← (Link.start_build (fun s => k.asCollector G s array count) m).1]
      unfold Link.start
      rw [hfresh, freshCollector]
      cases Link.build (fun s => k.asCollector G s array count) m <;> rfl
    rw [hstart]
    exact hnew _

theorem Handle.agree_asType (hm : m.Registers G T hs) (hn : n.Registers G T' ks) (ha : a ∈ hs)
    (hb : b ∈ ks) (h : a.Equiv b) (new : Signature) :
    Agree Equiv ((a.asType G new).start m).1 ((b.asType G new).start n).1 := by
  have hconvert : ∀ {c d : Handle}, c.Equiv d → Agree Equiv
      ((Link.build fun s => c.convertTo G s new).start m).1
      ((Link.build fun s => d.convertTo G s new).start n).1 := by
    intro c d hcd
    rw [(Link.start_build _ _).1, (Link.start_build _ _).1]
    exact agree_convertTo G hcd new
  by_cases hvarargs : ∃ k array cell, a.node = .varargs k array cell
  · obtain ⟨k, array, cell, hnode⟩ := hvarargs
    have hequiv : Node.equivalent a.node b.node = true := (equivalentBy_iff.1 h).2
    rw [hnode] at hequiv
    obtain ⟨k', cell', hnode', hk⟩ := Node.equivalentBy_varargs_iff.1 hequiv
    have hcell := (hm.handles a ha k array cell hnode).2
    have hcell' := (hn.handles b hb k' array cell' hnode').2
    unfold asType
    rw [type_eq_of_equivalent h, hnode, hnode']
    split
    · exact .ok h
    dsimp -zeta only
    rw [type_eq_of_equivalent hk]
    extract_lets passesArray
    split
    · exact hconvert hk
    split
    · exact .error _
    rw [Link.fst_start_bind_build, Link.fst_start_bind_build]
    have hcollectors : Agree Equiv _ _ :=
      .trans equivalence_equiv (agree_collectorFor hm hcell (new.arity + 1 - b.type.arity) 0)
        (.trans equivalence_equiv (agree_asCollector G hk array _)
          (.symm equivalence_equiv (agree_collectorFor hn hcell' (new.arity + 1 - b.type.arity) 0)))
    exact .bind hcollectors fun c d hcd => agree_convertTo G hcd new
  · have hfixed : a.isVarargs = false :=
      isVarargs_eq_false_iff.2 fun k array cell hnode => hvarargs ⟨k, array, cell, hnode⟩
    have hfixed' : b.isVarargs = false := (isVarargs_eq_of_equivalent h).symm.trans hfixed
    rw [asType_eq_of_fixed hfixed, asType_eq_of_fixed hfixed', type_eq_of_equivalent h]
    split
    · exact .ok h
    · exact hconvert h

end Collectors

/-! ## One way of making handles -/

/-- Whether two ways to make a handle are one way, from equivalent handles and from arguments that are
the same otherwise. -/
inductive Making.Alike : Making → Making → Prop where
  | insertArguments {a b : Handle} (target : a.isEquivalent b) (pos : Nat) {vs ws : List Value}
      (values : vs.isEqv ws Value.same) : Alike (.insertArguments a pos vs) (.insertArguments b pos ws)
  | bindTo {a b : Handle} (target : a.isEquivalent b) {v w : Value} (value : v.same w) :
    Alike (.bindTo a v) (.bindTo b w)
  | permuteArguments {a b : Handle} (target : a.isEquivalent b) (new : Signature)
      (reorder : List Nat) : Alike (.permuteArguments a new reorder) (.permuteArguments b new reorder)
  | dropArguments {a b : Handle} (target : a.isEquivalent b) (pos : Nat) (types : List Ty) :
    Alike (.dropArguments a pos types) (.dropArguments b pos types)
  | filterArguments {a b : Handle} (target : a.isEquivalent b) (pos : Nat)
      {fs gs : List (Option Handle)}
      (filters : List.Forall₂ (Option.Rel fun f g : Handle => f.isEquivalent g) fs gs) :
    Alike (.filterArguments a pos fs) (.filterArguments b pos gs)
  | filterReturnValue {a b f g : Handle} (target : a.isEquivalent b) (filter : f.isEquivalent g) :
    Alike (.filterReturnValue a f) (.filterReturnValue b g)
  | foldArguments {a b c d : Handle} (target : a.isEquivalent b) (pos : Nat)
      (combiner : c.isEquivalent d) : Alike (.foldArguments a pos c) (.foldArguments b pos d)
  | collectArguments {a b f g : Handle} (target : a.isEquivalent b) (pos : Nat)
      (filter : f.isEquivalent g) : Alike (.collectArguments a pos f) (.collectArguments b pos g)
  | guardWithTest {c d a b f g : Handle} (test : c.isEquivalent d) (target : a.isEquivalent b)
      (fallback : f.isEquivalent g) : Alike (.guardWithTest c a f) (.guardWithTest d b g)
  | catchException {a b f g : Handle} (target : a.isEquivalent b) (c : ClassId)
      (handler : f.isEquivalent g) : Alike (.catchException a c f) (.catchException b c g)
  | asType {a b : Handle} (target : a.isEquivalent b) (new : Signature) :
    Alike (.asType a new) (.asType b new)
  | asCollectorAt {a b : Handle} (target : a.isEquivalent b) (pos : Nat) (array : Ty) (count : Nat) :
    Alike (.asCollectorAt a pos array count) (.asCollectorAt b pos array count)
  | asCollector {a b : Handle} (target : a.isEquivalent b) (array : Ty) (count : Nat) :
    Alike (.asCollector a array count) (.asCollector b array count)
  | asSpreaderAt {a b : Handle} (target : a.isEquivalent b) (pos : Nat) (array : Ty) (count : Nat) :
    Alike (.asSpreaderAt a pos array count) (.asSpreaderAt b pos array count)
  | asSpreader {a b : Handle} (target : a.isEquivalent b) (array : Ty) (count : Nat) :
    Alike (.asSpreader a array count) (.asSpreader b array count)
  | asVarargsCollector {a b : Handle} (target : a.isEquivalent b) (array : Ty) :
    Alike (.asVarargsCollector a array) (.asVarargsCollector b array)
  | asFixedArity {a b : Handle} (target : a.isEquivalent b) :
    Alike (.asFixedArity a) (.asFixedArity b)

theorem Handle.equiv_of_isEquivalent {a b : Handle} (h : a.isEquivalent b) : a.Equiv b :=
  (isEquivalent_eq a b).symm.trans h

theorem Filters.equivalent_of_forall₂ {fs gs : List (Option Handle)}
    (h : List.Forall₂ (Option.Rel fun f g : Handle => f.isEquivalent g) fs gs) :
    Filters.equivalent fs gs = true := by
  induction h with
  | nil => exact Filters.equivalent_refl []
  | cons hf _ ih =>
    cases hf with
    | none => exact Filters.equivalentBy_none_cons_iff.2 ⟨_, rfl, ih⟩
    | some hf =>
      exact Filters.equivalentBy_some_cons_iff.2 ⟨_, _, rfl, Handle.equiv_of_isEquivalent hf, ih⟩

section Making

variable {G : ClassGraph} {m n : Machine} {hs ks : List Handle} {mk mk' : Making}

theorem Link.agreeInKind_build {f g : Stamp → Except Error Handle}
    (h : ∀ s s', AgreeInKind Handle.Equiv (f s) (g s')) :
    AgreeInKind Handle.Equiv ((Link.build f).start m).1 ((Link.build g).start n).1 := by
  rw [(start_build f m).1, (start_build g n).1]
  exact h m.nextStamp n.nextStamp

theorem Link.agree_build {f g : Stamp → Except Error Handle}
    (h : ∀ s s', Agree Handle.Equiv (f s) (g s')) :
    AgreeInKind Handle.Equiv ((Link.build f).start m).1 ((Link.build g).start n).1 :=
  agreeInKind_build fun s s' => (h s s').inKind

/-- What is made in one way from equivalent handles that programs have is equivalent, or refused for
one kind of reason, if the values bound are wrappers of the same classes. -/
theorem Making.Alike.agree (hm : Handling G m hs) (hn : Handling G n ks) (hmk : mk.Alike mk')
    (hclasses : mk.values.map Value.wrapper? = mk'.values.map Value.wrapper?)
    (has : ∀ h ∈ mk.handles, h ∈ hs) (has' : ∀ h ∈ mk'.handles, h ∈ ks) :
    AgreeInKind Handle.Equiv ((mk.run G).start m).1 ((mk'.run G).start n).1 := by
  have equiv : ∀ {a b : Handle}, a.isEquivalent b → a.Equiv b := Handle.equiv_of_isEquivalent
  unfold run
  cases hmk with
  -- only these two bind values, and it is their conversion that can fail for different reasons
  | insertArguments target pos values =>
    exact Link.agreeInKind_build fun _ _ =>
      Handle.agreeInKind_insertArguments (equiv target) pos values hclasses
  | bindTo target value =>
    exact Link.agreeInKind_build fun _ _ =>
      Handle.agreeInKind_bindTo (equiv target) value (List.cons.inj hclasses).1
  | permuteArguments target new reorder =>
    exact Link.agree_build fun _ _ => Handle.agree_permuteArguments (equiv target) new reorder
  | dropArguments target pos types =>
    exact Link.agree_build fun _ _ => Handle.agree_dropArguments (equiv target) pos types
  | filterArguments target pos filters =>
    exact Link.agree_build fun _ _ =>
      Handle.agree_filterArguments (equiv target) pos (Filters.equivalent_of_forall₂ filters)
  | filterReturnValue target filter =>
    exact Link.agree_build fun _ _ => Handle.agree_filterReturnValue (equiv target) (equiv filter)
  | foldArguments target pos combiner =>
    exact Link.agree_build fun _ _ => Handle.agree_foldArguments (equiv target) pos (equiv combiner)
  | collectArguments target pos filter =>
    exact Link.agree_build fun _ _ =>
      Handle.agree_collectArguments (equiv target) pos (equiv filter)
  | guardWithTest test target fallback =>
    exact Link.agree_build fun _ _ =>
      Handle.agree_guardWithTest (equiv test) (equiv target) (equiv fallback)
  | catchException target c handler =>
    exact Link.agree_build fun _ _ =>
      Handle.agree_catchException G (equiv target) c (equiv handler)
  | asType target new =>
    obtain ⟨T, hs', hhs, -, hregisters⟩ := hm.handles.registers
    obtain ⟨T', ks', hks, -, hregisters'⟩ := hn.handles.registers
    have ha := hhs _ (has _ List.mem_cons_self)
    have hb := hks _ (has' _ List.mem_cons_self)
    exact (Handle.agree_asType hregisters hregisters' ha hb (equiv target) new).inKind
  | asCollectorAt target pos array count =>
    exact Link.agree_build fun _ _ => Handle.agree_asCollectorAt G (equiv target) pos array count
  | asCollector target array count =>
    exact Link.agree_build fun _ _ => Handle.agree_asCollector G (equiv target) array count
  | asSpreaderAt target pos array count =>
    exact Link.agree_build fun _ _ => Handle.agree_asSpreaderAt G (equiv target) pos array count
  | asSpreader target array count =>
    exact Link.agree_build fun _ _ => Handle.agree_asSpreader G (equiv target) array count
  | asVarargsCollector target array =>
    exact Link.agree_build fun _ _ => Handle.agree_asVarargsCollector G (equiv target) array
  | asFixedArity target => exact .ok (Handle.asFixedArity_equivalent (equiv target))

end Making

namespace Handle

/-- The handle that answers its argument, a wrapper of the class for `p`. -/
def wrapperIdentity (p : Prim) : Handle :=
  ⟨0, ⟨[Ty.wrapper p], Ty.wrapper p, Ty.void_notMem_cls _, slotCount_cls_le _⟩, .identity⟩

/-- It can be bound to such a wrapper, whatever that holds. -/
theorem insertArguments_wrapperIdentity (G : ClassGraph) (s : Stamp) (p : Prim) (content : Value) :
    (wrapperIdentity p).insertArguments G s 0 [.obj (.boxed p content)] =
      .ok ⟨s, ⟨[], Ty.wrapper p, List.not_mem_nil, Nat.zero_le _⟩,
        .insert (wrapperIdentity p) 0 [.obj (.boxed p content)]⟩ := by
  have hcast : (Value.obj (.boxed p content)).coerce G (Ty.wrapper p) = .ok (.obj (.boxed p content)) :=
    (Value.castTo_wrapper G p p content).trans (if_pos rfl)
  have hbound : coerceAll G [.obj (.boxed p content)] [Ty.wrapper p] = .ok [.obj (.boxed p content)] := by
    simp only [coerceAll, hcast]
  show (coerceAll G [.obj (.boxed p content)] [Ty.wrapper p] >>= _) = _
  rw [hbound]
  rfl

/-- It refuses a wrapper of another class. -/
theorem insertArguments_wrapperIdentity_of_ne (G : ClassGraph) (s : Stamp) {p q : Prim} (hpq : p ≠ q)
    (content : Value) :
    (wrapperIdentity p).insertArguments G s 0 [.obj (.boxed q content)] =
      .error (.value (.cannotBind (Ty.wrapper p)
        (.cannotCast (.obj (.boxed q content)) (Ty.wrapper p)))) := by
  have hcast : (Value.obj (.boxed q content)).coerce G (Ty.wrapper p) =
      .error (.cannotCast (.obj (.boxed q content)) (Ty.wrapper p)) :=
    (Value.castTo_wrapper G q p content).trans (if_neg (Ne.symm hpq))
  have hbound : coerceAll G [.obj (.boxed q content)] [Ty.wrapper p] =
      .error (.value (.cannotBind (Ty.wrapper p)
        (.cannotCast (.obj (.boxed q content)) (Ty.wrapper p)))) := by
    simp only [coerceAll, hcast]
  show (coerceAll G [.obj (.boxed q content)] [Ty.wrapper p] >>= _) = _
  rw [hbound]
  rfl

end Handle

theorem Handling.wrapperIdentity (G : ClassGraph) (p : Prim) :
    Handling G { Machine.initial true with nextStamp := 2 } [.wrapperIdentity p] := by
  have hmade : Making.run G (.identity (Ty.wrapper p)) (.initial true) =
      .ok (.wrapperIdentity p) { Machine.initial true with nextStamp := 2 } := rfl
  exact (Handling.start true).made (fun k hk => absurd hk List.not_mem_nil) hmade

/-- **How far equivalence is a congruence.** It is an equivalence relation on handles, and every way to
make handles from handles respects it: from equivalent handles that programs have and arguments that
are the same otherwise, equivalent handles are made, or none, with errors of one kind, if the values to
bind are wrappers of the same classes. What variable-arity handles remember makes no difference.

The classes do. Of two values that are the same in wrappers of different classes one can be bound to a
handle that refuses the other one. -/
theorem Handle.isEquivalent_congruence (G : ClassGraph) :
    Equivalence (fun a b : Handle => a.isEquivalent b) ∧
      (∀ {m n : Machine} {hs ks : List Handle} {mk mk' : Making}, Handling G m hs →
        Handling G n ks → mk.Alike mk' →
          mk.values.map Value.wrapper? = mk'.values.map Value.wrapper? →
            (∀ h ∈ mk.handles, h ∈ hs) → (∀ h ∈ mk'.handles, h ∈ ks) →
              AgreeInKind (fun a b : Handle => a.isEquivalent b) ((mk.run G).start m).1
                ((mk'.run G).start n).1) ∧
        ∀ {v w : Value}, v.same w = true → v.wrapper? ≠ w.wrapper? →
          ∃ (m : Machine) (h k : Handle) (e : Error), Handling G m [h] ∧
            Making.Alike (.insertArguments h 0 [v]) (.insertArguments h 0 [w]) ∧
              ((Making.run G (.insertArguments h 0 [v])).start m).1 = .ok k ∧
                ((Making.run G (.insertArguments h 0 [w])).start m).1 = .error e ∧
                  e.kind = .typeMismatch := by
  have hsame : (fun a b : Handle => (a.isEquivalent b : Prop)) = Handle.Equiv := by
    funext a b
    rw [isEquivalent_eq]
    rfl
  rw [hsame]
  refine ⟨equivalence_equiv, fun hm hn hmk hclasses has has' => hmk.agree hm hn hclasses has has',
    fun {v w} hvw hne => ?_⟩
  obtain ⟨p, q, c, d, rfl, rfl, hpq⟩ := Value.boxed_of_wrapper?_ne hvw hne
  have hself : (wrapperIdentity p).isEquivalent (wrapperIdentity p) := by
    rw [isEquivalent_eq]
    exact (wrapperIdentity p).equivalent_refl
  have hvalues : [Value.obj (.boxed p c)].isEqv [.obj (.boxed q d)] Value.same = true := by
    rw [List.isEqv, hvw]
    rfl
  let m : Machine := { Machine.initial true with nextStamp := 2 }
  have hbind : ∀ v : Value, ((Making.run G (.insertArguments (wrapperIdentity p) 0 [v])).start m).1 =
      (wrapperIdentity p).insertArguments G m.nextStamp 0 [v] :=
    fun v => (Link.start_build (fun s => (wrapperIdentity p).insertArguments G s 0 [v]) m).1
  have hbound := (hbind _).trans (insertArguments_wrapperIdentity G m.nextStamp p c)
  have hrefused := (hbind _).trans (insertArguments_wrapperIdentity_of_ne G m.nextStamp hpq d)
  exact ⟨m, wrapperIdentity p, _, _, Handling.wrapperIdentity G p, .insertArguments hself 0 hvalues, hbound,
    hrefused, rfl⟩

/-- Two handles that collect trailing arguments into an array are made one after the other. The first
one has been seen under a signature of two parameters and remembers its collector, the second one
remembers none; seen under the signature now, they come out equivalent. A wrapper of the class for `int`
around the long 5 can be bound where the one of the class for `long` cannot. -/
theorem Handle.isEquivalent_congruence_of_remembered :
    (∃ (G : ClassGraph) (m : Machine) (hs : List Handle) (a b : Handle) (new : Signature)
        (c d : Handle),
      Handling G m hs ∧ a ∈ hs ∧ b ∈ hs ∧ a.isSame b = false ∧ a.isEquivalent b ∧
        m.collectors.map Prod.fst = [a.stamp] ∧
        ((Making.run G (.asType a new)).start m).1 = .ok c ∧
        ((Making.run G (.asType b new)).start m).1 = .ok d ∧ c.isSame d = false ∧
        c.isEquivalent d) ∧
    let v : Value := .obj (.boxed .int (.prim (.long 5)))
    let w : Value := .boxed (.prim (.long 5))
    ∃ (m : Machine) (h k : Handle) (e : Error), Handling .bootstrap m [h] ∧
      Making.Alike (.insertArguments h 0 [v]) (.insertArguments h 0 [w]) ∧
        ((Making.run .bootstrap (.insertArguments h 0 [v])).start m).1 = .ok k ∧
          ((Making.run .bootstrap (.insertArguments h 0 [w])).start m).1 = .error e ∧
            e.kind = .typeMismatch := by
  refine ⟨?_, (isEquivalent_congruence .bootstrap).2.2 (by decide) (by decide)⟩
  let G : ClassGraph := .bootstrap
  let ints : Ty := .array (.prim .int)
  let one : Signature := ⟨[ints], ints, by decide, by decide⟩
  let two : Signature := ⟨[.prim .int, .prim .int], ints, by decide, by decide⟩
  let k : Handle := ⟨0, one, .identity⟩
  let a : Handle := ⟨2, one, .varargs k ints 2⟩
  let l : Handle := ⟨4, one, .identity⟩
  let b : Handle := ⟨6, one, .varargs l ints 6⟩
  let c : Handle := ⟨8, two, .collect k 0 2 ints⟩
  let d : Handle := ⟨12, two, .collect l 0 2 ints⟩
  let at' (s : Stamp) : Machine := { Machine.initial true with nextStamp := s }
  let m : Machine := { at' 12 with collectors := [(2, (2, c))] }
  have made : ∀ {n n' : Machine} {hs : List Handle} {h : Handle} (mk : Making), Handling G n hs →
      (∀ k ∈ mk.handles, k ∈ hs) → mk.run G n = .ok h n' → Handling G n' (h :: hs) :=
    fun mk hH has result => hH.made has result
  have hk : Handling G (at' 2) [k] := made (.identity ints) (.start true) nofun rfl
  have ha : Handling G (at' 4) [a, k] :=
    made (.asVarargsCollector k ints) hk (by simp [Making.handles]) rfl
  have hl : Handling G (at' 6) [l, a, k] := made (.identity ints) ha nofun rfl
  have hb : Handling G (at' 8) [b, l, a, k] :=
    made (.asVarargsCollector l ints) hl (by simp [Making.handles]) rfl
  have hc : Handling G m [c, b, l, a, k] := made (.asType a two) hb (by simp [Making.handles]) rfl
  have hab : a.isEquivalent b := by
    rw [isEquivalent_eq]
    simp [equivalentBy, Node.equivalentBy, a, b, k, l]
  have hseen : ((Making.run G (.asType a two)).start m).1 = .ok c := rfl
  have hseen' : ((Making.run G (.asType b two)).start m).1 = .ok d := rfl
  have hagree := (isEquivalent_congruence G).2.1 hc hc (.asType hab two) rfl (by simp [Making.handles])
    (by simp [Making.handles])
  rw [hseen, hseen'] at hagree
  cases hagree with
  | ok hcd =>
    exact ⟨G, m, _, a, b, two, c, d, hc, by simp, by simp, rfl, hab, rfl, hseen, hseen', rfl, hcd⟩

end HandleCalculus
