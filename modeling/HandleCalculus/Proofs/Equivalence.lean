import HandleCalculus.Handle.Equivalence

/-!
# Structural equivalence is an equivalence relation

`Handle.equivalentBy` compares two handles position by position. What a node is equivalent to is read
off once for each shape (`Node.equivalentBy_insert_iff` and its siblings): a node of the same shape
with the same parameters and equivalent parts, and with bound values that compare as asked. What two
handles are to a third one they are to each other, as far as that is so of values
(`Handle.equivalentBy_of_left`, by recursion on the third); symmetry and transitivity are cases of it.
Reflexivity stands beside the definition.

Equivalence does not look at the classes of bound wrappers. Where those are the same too, handles that
are equivalent bind equal values (`Handle.coincides_of_equivalent`).
-/

set_option autoImplicit false

namespace HandleCalculus

/-! ## Values that are the same -/

mutual

theorem Object.same_of_left : ∀ a b c : Object, a.same b = true → a.same c = true →
    b.same c = true
  | .boxed _ _, .boxed _ _, .boxed _ _, h, h' => Value.same_of_left _ _ _ h h'
  | .boxed .., .str _, _, h, _ | .boxed .., .array .., _, h, _ | .boxed .., .throwable .., _, h, _
  | .boxed .., .inst .., _, h, _ => by simp [Object.same] at h
  | .boxed .., .boxed .., .str _, _, h | .boxed .., .boxed .., .array .., _, h
  | .boxed .., .boxed .., .throwable .., _, h | .boxed .., .boxed .., .inst .., _, h => by
    simp [Object.same] at h
  | .str _, b, c, h, h' | .array .., b, c, h, h' | .throwable .., b, c, h, h'
  | .inst .., b, c, h, h' => by
    obtain rfl : _ = b := by simpa [Object.same] using h
    exact h'

/-- What two values are to a third one they are to each other. -/
theorem Value.same_of_left : ∀ u v w : Value, u.same v = true → u.same w = true →
    v.same w = true
  | .obj _, .obj _, .obj _, h, h' => Object.same_of_left _ _ _ h h'
  | .obj _, .prim _, _, h, _ | .obj _, .null, _, h, _ | .obj _, .void, _, h, _ => by
    simp [Value.same] at h
  | .obj _, .obj _, .prim _, _, h | .obj _, .obj _, .null, _, h | .obj _, .obj _, .void, _, h => by
    simp [Value.same] at h
  | .prim _, v, w, h, h' | .null, v, w, h, h' | .void, v, w, h, h' => by
    obtain rfl : _ = v := by simpa [Value.same] using h
    exact h'

end

/-- Values that are the same are one and the same value or two wrappers with contents that are. -/
theorem Value.eq_or_boxed_of_same {v w : Value} (h : v.same w = true) :
    v = w ∨ ∃ p q c d, v = .obj (.boxed p c) ∧ w = .obj (.boxed q d) ∧ c.same d = true := by
  cases v with
  | obj a =>
    cases w with
    | obj b =>
      cases a with
      | boxed p c =>
        cases b with
        | boxed q d => exact .inr ⟨p, q, c, d, rfl, rfl, h⟩
        | _ => simp [same, Object.same] at h
      | _ => exact .inl (congrArg obj (by simpa [same, Object.same] using h))
    | _ => simp [same] at h
  | _ => exact .inl (by simpa [same] using h)

/-- So they are wrappers if they are wrappers of different classes or only one is. -/
theorem Value.boxed_of_wrapper?_ne {v w : Value} (h : v.same w = true)
    (hne : v.wrapper? ≠ w.wrapper?) :
    ∃ p q c d, v = .obj (.boxed p c) ∧ w = .obj (.boxed q d) ∧ p ≠ q := by
  rcases Value.eq_or_boxed_of_same h with rfl | ⟨p, q, c, d, rfl, rfl, -⟩
  · exact absurd rfl hne
  · exact ⟨p, q, c, d, rfl, rfl, fun hpq => hne (congrArg some hpq)⟩

/-- Lists of values that compare with a third one compare with each other, if values do. -/
theorem List.isEqv_of_left {eq₁ eq₂ eq₃ : Value → Value → Bool}
    (heq : ∀ u v w, eq₁ u v = true → eq₂ u w = true → eq₃ v w = true) :
    ∀ {us vs ws : List Value}, us.isEqv vs eq₁ = true → us.isEqv ws eq₂ = true →
      vs.isEqv ws eq₃ = true
  | [], [], [], _, _ => rfl
  | _ :: _, _ :: _, _ :: _, h, h' => by
    simp only [List.isEqv, Bool.and_eq_true] at h h' ⊢
    exact ⟨heq _ _ _ h.1 h'.1, List.isEqv_of_left heq h.2 h'.2⟩
  | [], _ :: _, _, h, _ | _ :: _, [], _, h, _ => by cases h
  | [], [], _ :: _, _, h | _ :: _, _ :: _, [], _, h => by cases h

theorem List.length_eq_of_isEqv {eq : Value → Value → Bool} :
    ∀ {vs ws : List Value}, vs.isEqv ws eq = true → vs.length = ws.length
  | [], [], _ => rfl
  | _ :: _, _ :: _, h => by
    rw [List.isEqv, Bool.and_eq_true] at h
    rw [List.length_cons, List.length_cons, List.length_eq_of_isEqv h.2]
  | [], _ :: _, h | _ :: _, [], h => by cases h

/-! ## What a node is equivalent to -/

namespace Node

variable {eq : Value → Value → Bool} {n : Node Handle}

theorem equivalentBy_direct_iff {m : MethodRef} {mode : DirectMode} :
    Node.equivalentBy eq (.direct m mode) n = true ↔ n = .direct m mode := by
  cases n with
  | direct => grind [Node.equivalentBy]
  | _ => simp [Node.equivalentBy]

theorem equivalentBy_virtual_iff {m : MethodRef} {c : ClassId} {i : Bool} :
    Node.equivalentBy eq (.virtual m c i) n = true ↔ n = .virtual m c i := by
  cases n with
  | virtual => grind [Node.equivalentBy]
  | _ => simp [Node.equivalentBy]

theorem equivalentBy_getField_iff {f : FieldRef} {s : Bool} {a : AccessId} :
    Node.equivalentBy eq (.getField f s a) n = true ↔ n = .getField f s a := by
  cases n with
  | getField => grind [Node.equivalentBy]
  | _ => simp [Node.equivalentBy]

theorem equivalentBy_setField_iff {f : FieldRef} {s : Bool} {a : AccessId} :
    Node.equivalentBy eq (.setField f s a) n = true ↔ n = .setField f s a := by
  cases n with
  | setField => grind [Node.equivalentBy]
  | _ => simp [Node.equivalentBy]

theorem equivalentBy_insert_iff {h : Handle} {p : Nat} {vs : List Value} :
    Node.equivalentBy eq (.insert h p vs) n = true ↔
      ∃ k ws, n = .insert k p ws ∧ vs.isEqv ws eq = true ∧ h.equivalentBy eq k = true := by
  cases n with
  | insert => grind [Node.equivalentBy]
  | _ => simp [Node.equivalentBy]

theorem equivalentBy_permute_iff {h : Handle} {r : List Nat} :
    Node.equivalentBy eq (.permute h r) n = true ↔
      ∃ k, n = .permute k r ∧ h.equivalentBy eq k = true := by
  cases n with
  | permute => grind [Node.equivalentBy]
  | _ => simp [Node.equivalentBy]

theorem equivalentBy_collect_iff {h : Handle} {p c : Nat} {a : Ty} :
    Node.equivalentBy eq (.collect h p c a) n = true ↔
      ∃ k, n = .collect k p c a ∧ h.equivalentBy eq k = true := by
  cases n with
  | collect => grind [Node.equivalentBy]
  | _ => simp [Node.equivalentBy]

theorem equivalentBy_spread_iff {h : Handle} {p c : Nat} {a : Ty} :
    Node.equivalentBy eq (.spread h p c a) n = true ↔
      ∃ k, n = .spread k p c a ∧ h.equivalentBy eq k = true := by
  cases n with
  | spread => grind [Node.equivalentBy]
  | _ => simp [Node.equivalentBy]

theorem equivalentBy_filterArgs_iff {h : Handle} {p : Nat} {fs : List (Option Handle)} :
    Node.equivalentBy eq (.filterArgs h p fs) n = true ↔
      ∃ k gs, n = .filterArgs k p gs ∧ Filters.equivalentBy eq fs gs = true ∧
        h.equivalentBy eq k = true := by
  cases n with
  | filterArgs => grind [Node.equivalentBy]
  | _ => simp [Node.equivalentBy]

theorem equivalentBy_filterReturn_iff {h f : Handle} :
    Node.equivalentBy eq (.filterReturn h f) n = true ↔
      ∃ k g, n = .filterReturn k g ∧ h.equivalentBy eq k = true ∧ f.equivalentBy eq g = true := by
  cases n with
  | filterReturn => grind [Node.equivalentBy]
  | _ => simp [Node.equivalentBy]

theorem equivalentBy_fold_iff {h c : Handle} {p : Nat} :
    Node.equivalentBy eq (.fold h p c) n = true ↔
      ∃ k d, n = .fold k p d ∧ h.equivalentBy eq k = true ∧ c.equivalentBy eq d = true := by
  cases n with
  | fold => grind [Node.equivalentBy]
  | _ => simp [Node.equivalentBy]

theorem equivalentBy_guarded_iff {c h f : Handle} :
    Node.equivalentBy eq (.guarded c h f) n = true ↔
      ∃ d k g, n = .guarded d k g ∧ c.equivalentBy eq d = true ∧ h.equivalentBy eq k = true ∧
        f.equivalentBy eq g = true := by
  cases n with
  | guarded => grind [Node.equivalentBy]
  | _ => simp [Node.equivalentBy]

theorem equivalentBy_catching_iff {h e : Handle} {c : ClassId} :
    Node.equivalentBy eq (.catching h c e) n = true ↔
      ∃ k f, n = .catching k c f ∧ h.equivalentBy eq k = true ∧ e.equivalentBy eq f = true := by
  cases n with
  | catching => grind [Node.equivalentBy]
  | _ => simp [Node.equivalentBy]

theorem equivalentBy_convert_iff {h : Handle} {as : List Conversion} {r : Conversion} :
    Node.equivalentBy eq (.convert h as r) n = true ↔
      ∃ k, n = .convert k as r ∧ h.equivalentBy eq k = true := by
  cases n with
  | convert => grind [Node.equivalentBy]
  | _ => simp [Node.equivalentBy]

theorem equivalentBy_constant_iff {v : Value} :
    Node.equivalentBy eq (.constant v) n = true ↔ ∃ w, n = .constant w ∧ eq v w = true := by
  cases n with
  | constant => grind [Node.equivalentBy]
  | _ => simp [Node.equivalentBy]

theorem equivalentBy_identity_iff : Node.equivalentBy eq .identity n = true ↔ n = .identity := by
  cases n <;> simp [Node.equivalentBy]

theorem equivalentBy_varargs_iff {h : Handle} {a : Ty} {cell : Stamp} :
    Node.equivalentBy eq (.varargs h a cell) n = true ↔
      ∃ k cell', n = .varargs k a cell' ∧ h.equivalentBy eq k = true := by
  cases n with
  | varargs => grind [Node.equivalentBy]
  | _ => simp [Node.equivalentBy]

theorem equivalentBy_invoker_iff {s : SiteId} :
    Node.equivalentBy eq (.invoker s) n = true ↔ n = .invoker s := by
  cases n with
  | invoker => grind [Node.equivalentBy]
  | _ => simp [Node.equivalentBy]

theorem equivalentBy_unlinked_iff {m : String} :
    Node.equivalentBy eq (.unlinked m) n = true ↔ n = .unlinked m := by
  cases n with
  | unlinked => grind [Node.equivalentBy]
  | _ => simp [Node.equivalentBy]

theorem equivalentBy_throwing_iff : Node.equivalentBy eq .throwing n = true ↔ n = .throwing := by
  cases n <;> simp [Node.equivalentBy]

/-- Nodes that are equivalent are of one variant. -/
theorem variant_eq_of_equivalent {m : Node Handle} (h : Node.equivalentBy eq m n = true) :
    m.variant = n.variant := by
  cases m with
  | direct => rw [equivalentBy_direct_iff.1 h]
  | virtual => rw [equivalentBy_virtual_iff.1 h]
  | getField => rw [equivalentBy_getField_iff.1 h]
  | setField => rw [equivalentBy_setField_iff.1 h]
  | insert =>
    obtain ⟨k, ws, rfl, -⟩ := equivalentBy_insert_iff.1 h
    rfl
  | permute =>
    obtain ⟨k, rfl, -⟩ := equivalentBy_permute_iff.1 h
    rfl
  | collect =>
    obtain ⟨k, rfl, -⟩ := equivalentBy_collect_iff.1 h
    rfl
  | spread =>
    obtain ⟨k, rfl, -⟩ := equivalentBy_spread_iff.1 h
    rfl
  | filterArgs =>
    obtain ⟨k, gs, rfl, -⟩ := equivalentBy_filterArgs_iff.1 h
    rfl
  | filterReturn =>
    obtain ⟨k, g, rfl, -⟩ := equivalentBy_filterReturn_iff.1 h
    rfl
  | fold =>
    obtain ⟨k, d, rfl, -⟩ := equivalentBy_fold_iff.1 h
    rfl
  | guarded =>
    obtain ⟨d, k, g, rfl, -⟩ := equivalentBy_guarded_iff.1 h
    rfl
  | catching =>
    obtain ⟨k, f, rfl, -⟩ := equivalentBy_catching_iff.1 h
    rfl
  | convert =>
    obtain ⟨k, rfl, -⟩ := equivalentBy_convert_iff.1 h
    rfl
  | constant =>
    obtain ⟨w, rfl, -⟩ := equivalentBy_constant_iff.1 h
    rfl
  | identity => rw [equivalentBy_identity_iff.1 h]
  | varargs =>
    obtain ⟨k, cell, rfl, -⟩ := equivalentBy_varargs_iff.1 h
    rfl
  | invoker => rw [equivalentBy_invoker_iff.1 h]
  | unlinked => rw [equivalentBy_unlinked_iff.1 h]
  | throwing => rw [equivalentBy_throwing_iff.1 h]

end Node

section

variable {eq : Value → Value → Bool}

/-- A filter list is equivalent to the empty one only if it is empty. -/
theorem Filters.equivalentBy_nil_iff {gs : List (Option Handle)} :
    Filters.equivalentBy eq [] gs = true ↔ gs = [] := by
  cases gs <;> simp [Filters.equivalentBy]

theorem Filters.equivalentBy_none_cons_iff {fs gs : List (Option Handle)} :
    Filters.equivalentBy eq (none :: fs) gs = true ↔
      ∃ gs', gs = none :: gs' ∧ Filters.equivalentBy eq fs gs' = true := by
  rcases gs with _ | ⟨_ | g, gs⟩ <;> simp [Filters.equivalentBy]

theorem Filters.equivalentBy_some_cons_iff {f : Handle} {fs gs : List (Option Handle)} :
    Filters.equivalentBy eq (some f :: fs) gs = true ↔
      ∃ g gs', gs = some g :: gs' ∧ f.equivalentBy eq g = true ∧
        Filters.equivalentBy eq fs gs' = true := by
  rcases gs with _ | ⟨_ | g, gs⟩ <;> grind [Filters.equivalentBy]

/-- Two handles are equivalent exactly if their signatures are the same and their nodes
equivalent. -/
theorem Handle.equivalentBy_iff {a b : Handle} :
    a.equivalentBy eq b = true ↔ a.type = b.type ∧ Node.equivalentBy eq a.node b.node = true := by
  cases a
  cases b
  simp [Handle.equivalentBy]

end

/-! ## Comparing with a third handle -/

section Left

variable {eq₁ eq₂ eq₃ : Value → Value → Bool}

mutual

/-- What two handles are to a third one they are to each other, as far as that is so of values. -/
theorem Handle.equivalentBy_of_left
    (heq : ∀ u v w, eq₁ u v = true → eq₂ u w = true → eq₃ v w = true) :
    ∀ {a b c : Handle}, a.equivalentBy eq₁ b = true → a.equivalentBy eq₂ c = true →
      b.equivalentBy eq₃ c = true
  | ⟨_, _, _⟩, _, _, h, h' => by
    obtain ⟨hs, hm⟩ := Handle.equivalentBy_iff.1 h
    obtain ⟨ht, hn⟩ := Handle.equivalentBy_iff.1 h'
    exact Handle.equivalentBy_iff.2 ⟨hs.symm.trans ht, Node.equivalentBy_of_left heq hm hn⟩

theorem Node.equivalentBy_of_left
    (heq : ∀ u v w, eq₁ u v = true → eq₂ u w = true → eq₃ v w = true) :
    ∀ {l m n : Node Handle}, Node.equivalentBy eq₁ l m = true → Node.equivalentBy eq₂ l n = true →
      Node.equivalentBy eq₃ m n = true
  | .direct .., _, _, h, h' => by
    rw [Node.equivalentBy_direct_iff.1 h, Node.equivalentBy_direct_iff.1 h']
    exact Node.equivalentBy_direct_iff.2 rfl
  | .virtual .., _, _, h, h' => by
    rw [Node.equivalentBy_virtual_iff.1 h, Node.equivalentBy_virtual_iff.1 h']
    exact Node.equivalentBy_virtual_iff.2 rfl
  | .getField .., _, _, h, h' => by
    rw [Node.equivalentBy_getField_iff.1 h, Node.equivalentBy_getField_iff.1 h']
    exact Node.equivalentBy_getField_iff.2 rfl
  | .setField .., _, _, h, h' => by
    rw [Node.equivalentBy_setField_iff.1 h, Node.equivalentBy_setField_iff.1 h']
    exact Node.equivalentBy_setField_iff.2 rfl
  -- a node that holds handles is equivalent only to one of the same kind and data
  | .insert .., _, _, h, h' => by
    obtain ⟨k, vs, rfl, hvs, hk⟩ := Node.equivalentBy_insert_iff.1 h
    obtain ⟨k', ws, rfl, hws, hk'⟩ := Node.equivalentBy_insert_iff.1 h'
    exact Node.equivalentBy_insert_iff.2
      ⟨k', ws, rfl, List.isEqv_of_left heq hvs hws, Handle.equivalentBy_of_left heq hk hk'⟩
  | .permute .., _, _, h, h' => by
    obtain ⟨k, rfl, hk⟩ := Node.equivalentBy_permute_iff.1 h
    obtain ⟨k', rfl, hk'⟩ := Node.equivalentBy_permute_iff.1 h'
    exact Node.equivalentBy_permute_iff.2 ⟨k', rfl, Handle.equivalentBy_of_left heq hk hk'⟩
  | .collect .., _, _, h, h' => by
    obtain ⟨k, rfl, hk⟩ := Node.equivalentBy_collect_iff.1 h
    obtain ⟨k', rfl, hk'⟩ := Node.equivalentBy_collect_iff.1 h'
    exact Node.equivalentBy_collect_iff.2 ⟨k', rfl, Handle.equivalentBy_of_left heq hk hk'⟩
  | .spread .., _, _, h, h' => by
    obtain ⟨k, rfl, hk⟩ := Node.equivalentBy_spread_iff.1 h
    obtain ⟨k', rfl, hk'⟩ := Node.equivalentBy_spread_iff.1 h'
    exact Node.equivalentBy_spread_iff.2 ⟨k', rfl, Handle.equivalentBy_of_left heq hk hk'⟩
  | .filterArgs .., _, _, h, h' => by
    obtain ⟨k, gs, rfl, hgs, hk⟩ := Node.equivalentBy_filterArgs_iff.1 h
    obtain ⟨k', gs', rfl, hgs', hk'⟩ := Node.equivalentBy_filterArgs_iff.1 h'
    exact Node.equivalentBy_filterArgs_iff.2 ⟨k', gs', rfl,
      Filters.equivalentBy_of_left heq hgs hgs', Handle.equivalentBy_of_left heq hk hk'⟩
  | .filterReturn .., _, _, h, h' => by
    obtain ⟨k, g, rfl, hk, hg⟩ := Node.equivalentBy_filterReturn_iff.1 h
    obtain ⟨k', g', rfl, hk', hg'⟩ := Node.equivalentBy_filterReturn_iff.1 h'
    exact Node.equivalentBy_filterReturn_iff.2 ⟨k', g', rfl,
      Handle.equivalentBy_of_left heq hk hk', Handle.equivalentBy_of_left heq hg hg'⟩
  | .fold .., _, _, h, h' => by
    obtain ⟨k, d, rfl, hk, hd⟩ := Node.equivalentBy_fold_iff.1 h
    obtain ⟨k', d', rfl, hk', hd'⟩ := Node.equivalentBy_fold_iff.1 h'
    exact Node.equivalentBy_fold_iff.2 ⟨k', d', rfl,
      Handle.equivalentBy_of_left heq hk hk', Handle.equivalentBy_of_left heq hd hd'⟩
  | .guarded .., _, _, h, h' => by
    obtain ⟨d, k, g, rfl, hd, hk, hg⟩ := Node.equivalentBy_guarded_iff.1 h
    obtain ⟨d', k', g', rfl, hd', hk', hg'⟩ := Node.equivalentBy_guarded_iff.1 h'
    exact Node.equivalentBy_guarded_iff.2 ⟨d', k', g', rfl,
      Handle.equivalentBy_of_left heq hd hd', Handle.equivalentBy_of_left heq hk hk',
      Handle.equivalentBy_of_left heq hg hg'⟩
  | .catching .., _, _, h, h' => by
    obtain ⟨k, f, rfl, hk, hf⟩ := Node.equivalentBy_catching_iff.1 h
    obtain ⟨k', f', rfl, hk', hf'⟩ := Node.equivalentBy_catching_iff.1 h'
    exact Node.equivalentBy_catching_iff.2 ⟨k', f', rfl,
      Handle.equivalentBy_of_left heq hk hk', Handle.equivalentBy_of_left heq hf hf'⟩
  | .convert .., _, _, h, h' => by
    obtain ⟨k, rfl, hk⟩ := Node.equivalentBy_convert_iff.1 h
    obtain ⟨k', rfl, hk'⟩ := Node.equivalentBy_convert_iff.1 h'
    exact Node.equivalentBy_convert_iff.2 ⟨k', rfl, Handle.equivalentBy_of_left heq hk hk'⟩
  | .constant _, _, _, h, h' => by
    obtain ⟨v, rfl, hv⟩ := Node.equivalentBy_constant_iff.1 h
    obtain ⟨w, rfl, hw⟩ := Node.equivalentBy_constant_iff.1 h'
    exact Node.equivalentBy_constant_iff.2 ⟨w, rfl, heq _ _ _ hv hw⟩
  | .identity, _, _, h, h' => by
    rw [Node.equivalentBy_identity_iff.1 h, Node.equivalentBy_identity_iff.1 h']
    exact Node.equivalentBy_identity_iff.2 rfl
  -- the cell does not count
  | .varargs .., _, _, h, h' => by
    obtain ⟨k, _, rfl, hk⟩ := Node.equivalentBy_varargs_iff.1 h
    obtain ⟨k', cell, rfl, hk'⟩ := Node.equivalentBy_varargs_iff.1 h'
    exact Node.equivalentBy_varargs_iff.2 ⟨k', cell, rfl, Handle.equivalentBy_of_left heq hk hk'⟩
  | .invoker _, _, _, h, h' => by
    rw [Node.equivalentBy_invoker_iff.1 h, Node.equivalentBy_invoker_iff.1 h']
    exact Node.equivalentBy_invoker_iff.2 rfl
  | .unlinked _, _, _, h, h' => by
    rw [Node.equivalentBy_unlinked_iff.1 h, Node.equivalentBy_unlinked_iff.1 h']
    exact Node.equivalentBy_unlinked_iff.2 rfl
  | .throwing, _, _, h, h' => by
    rw [Node.equivalentBy_throwing_iff.1 h, Node.equivalentBy_throwing_iff.1 h']
    exact Node.equivalentBy_throwing_iff.2 rfl

theorem Filters.equivalentBy_of_left
    (heq : ∀ u v w, eq₁ u v = true → eq₂ u w = true → eq₃ v w = true) :
    ∀ {fs gs ks : List (Option Handle)}, Filters.equivalentBy eq₁ fs gs = true →
      Filters.equivalentBy eq₂ fs ks = true → Filters.equivalentBy eq₃ gs ks = true
  | [], _, _, h, h' => by
    rw [Filters.equivalentBy_nil_iff.1 h, Filters.equivalentBy_nil_iff.1 h']
    exact Filters.equivalentBy_nil_iff.2 rfl
  | none :: fs, _, _, h, h' => by
    obtain ⟨gs, rfl, hgs⟩ := Filters.equivalentBy_none_cons_iff.1 h
    obtain ⟨ks, rfl, hks⟩ := Filters.equivalentBy_none_cons_iff.1 h'
    exact Filters.equivalentBy_none_cons_iff.2 ⟨ks, rfl, Filters.equivalentBy_of_left heq hgs hks⟩
  | some f :: fs, _, _, h, h' => by
    obtain ⟨g, gs, rfl, hg, hgs⟩ := Filters.equivalentBy_some_cons_iff.1 h
    obtain ⟨k, ks, rfl, hk, hks⟩ := Filters.equivalentBy_some_cons_iff.1 h'
    exact Filters.equivalentBy_some_cons_iff.2 ⟨k, ks, rfl,
      Handle.equivalentBy_of_left heq hg hk, Filters.equivalentBy_of_left heq hgs hks⟩

end

end Left

/-! ## Comparing in two ways -/

section Both

variable {eq₁ eq₂ eq₃ : Value → Value → Bool}

theorem List.isEqv_both (heq : ∀ v w, eq₁ v w = true → eq₂ v w = true → eq₃ v w = true) :
    ∀ {vs ws : List Value}, vs.isEqv ws eq₁ = true → vs.isEqv ws eq₂ = true →
      vs.isEqv ws eq₃ = true
  | [], [], _, _ => rfl
  | _ :: _, _ :: _, h, h' => by
    simp only [List.isEqv, Bool.and_eq_true] at h h' ⊢
    exact ⟨heq _ _ h.1 h'.1, List.isEqv_both heq h.2 h'.2⟩
  | [], _ :: _, h, _ | _ :: _, [], h, _ => by cases h

mutual

/-- Handles that compare in two ways compare in any in which values do that compare in both. -/
theorem Handle.equivalentBy_both
    (heq : ∀ v w, eq₁ v w = true → eq₂ v w = true → eq₃ v w = true) :
    ∀ {a b : Handle}, a.equivalentBy eq₁ b = true → a.equivalentBy eq₂ b = true →
      a.equivalentBy eq₃ b = true
  | ⟨_, _, _⟩, _, h, h' => by
    obtain ⟨hs, hm⟩ := Handle.equivalentBy_iff.1 h
    exact Handle.equivalentBy_iff.2
      ⟨hs, Node.equivalentBy_both heq hm (Handle.equivalentBy_iff.1 h').2⟩

theorem Node.equivalentBy_both
    (heq : ∀ v w, eq₁ v w = true → eq₂ v w = true → eq₃ v w = true) :
    ∀ {m n : Node Handle}, Node.equivalentBy eq₁ m n = true → Node.equivalentBy eq₂ m n = true →
      Node.equivalentBy eq₃ m n = true
  -- leaves that bind no value
  | .direct .., _, h, _ => Node.equivalentBy_direct_iff.2 (Node.equivalentBy_direct_iff.1 h)
  | .virtual .., _, h, _ => Node.equivalentBy_virtual_iff.2 (Node.equivalentBy_virtual_iff.1 h)
  | .getField .., _, h, _ => Node.equivalentBy_getField_iff.2 (Node.equivalentBy_getField_iff.1 h)
  | .setField .., _, h, _ => Node.equivalentBy_setField_iff.2 (Node.equivalentBy_setField_iff.1 h)
  | .identity, _, h, _ => Node.equivalentBy_identity_iff.2 (Node.equivalentBy_identity_iff.1 h)
  | .invoker _, _, h, _ => Node.equivalentBy_invoker_iff.2 (Node.equivalentBy_invoker_iff.1 h)
  | .unlinked _, _, h, _ => Node.equivalentBy_unlinked_iff.2 (Node.equivalentBy_unlinked_iff.1 h)
  | .throwing, _, h, _ => Node.equivalentBy_throwing_iff.2 (Node.equivalentBy_throwing_iff.1 h)
  -- values
  | .constant _, _, h, h' => by
    obtain ⟨w, rfl, hw⟩ := Node.equivalentBy_constant_iff.1 h
    obtain ⟨_, ⟨⟩, hw'⟩ := Node.equivalentBy_constant_iff.1 h'
    exact Node.equivalentBy_constant_iff.2 ⟨w, rfl, heq _ _ hw hw'⟩
  | .insert .., _, h, h' => by
    obtain ⟨k, ws, rfl, hws, hk⟩ := Node.equivalentBy_insert_iff.1 h
    obtain ⟨_, _, ⟨⟩, hws', hk'⟩ := Node.equivalentBy_insert_iff.1 h'
    exact Node.equivalentBy_insert_iff.2
      ⟨k, ws, rfl, List.isEqv_both heq hws hws', Handle.equivalentBy_both heq hk hk'⟩
  -- handles
  | .permute .., _, h, h' => by
    obtain ⟨k, rfl, hk⟩ := Node.equivalentBy_permute_iff.1 h
    obtain ⟨_, ⟨⟩, hk'⟩ := Node.equivalentBy_permute_iff.1 h'
    exact Node.equivalentBy_permute_iff.2 ⟨k, rfl, Handle.equivalentBy_both heq hk hk'⟩
  | .collect .., _, h, h' => by
    obtain ⟨k, rfl, hk⟩ := Node.equivalentBy_collect_iff.1 h
    obtain ⟨_, ⟨⟩, hk'⟩ := Node.equivalentBy_collect_iff.1 h'
    exact Node.equivalentBy_collect_iff.2 ⟨k, rfl, Handle.equivalentBy_both heq hk hk'⟩
  | .spread .., _, h, h' => by
    obtain ⟨k, rfl, hk⟩ := Node.equivalentBy_spread_iff.1 h
    obtain ⟨_, ⟨⟩, hk'⟩ := Node.equivalentBy_spread_iff.1 h'
    exact Node.equivalentBy_spread_iff.2 ⟨k, rfl, Handle.equivalentBy_both heq hk hk'⟩
  | .convert .., _, h, h' => by
    obtain ⟨k, rfl, hk⟩ := Node.equivalentBy_convert_iff.1 h
    obtain ⟨_, ⟨⟩, hk'⟩ := Node.equivalentBy_convert_iff.1 h'
    exact Node.equivalentBy_convert_iff.2 ⟨k, rfl, Handle.equivalentBy_both heq hk hk'⟩
  | .varargs .., _, h, h' => by
    obtain ⟨k, cell, rfl, hk⟩ := Node.equivalentBy_varargs_iff.1 h
    obtain ⟨_, _, ⟨⟩, hk'⟩ := Node.equivalentBy_varargs_iff.1 h'
    exact Node.equivalentBy_varargs_iff.2 ⟨k, cell, rfl, Handle.equivalentBy_both heq hk hk'⟩
  | .filterArgs .., _, h, h' => by
    obtain ⟨k, gs, rfl, hgs, hk⟩ := Node.equivalentBy_filterArgs_iff.1 h
    obtain ⟨_, _, ⟨⟩, hgs', hk'⟩ := Node.equivalentBy_filterArgs_iff.1 h'
    exact Node.equivalentBy_filterArgs_iff.2
      ⟨k, gs, rfl, Filters.equivalentBy_both heq hgs hgs', Handle.equivalentBy_both heq hk hk'⟩
  | .filterReturn .., _, h, h' => by
    obtain ⟨k, g, rfl, hk, hg⟩ := Node.equivalentBy_filterReturn_iff.1 h
    obtain ⟨_, _, ⟨⟩, hk', hg'⟩ := Node.equivalentBy_filterReturn_iff.1 h'
    exact Node.equivalentBy_filterReturn_iff.2
      ⟨k, g, rfl, Handle.equivalentBy_both heq hk hk', Handle.equivalentBy_both heq hg hg'⟩
  | .fold .., _, h, h' => by
    obtain ⟨k, d, rfl, hk, hd⟩ := Node.equivalentBy_fold_iff.1 h
    obtain ⟨_, _, ⟨⟩, hk', hd'⟩ := Node.equivalentBy_fold_iff.1 h'
    exact Node.equivalentBy_fold_iff.2
      ⟨k, d, rfl, Handle.equivalentBy_both heq hk hk', Handle.equivalentBy_both heq hd hd'⟩
  | .guarded .., _, h, h' => by
    obtain ⟨d, k, g, rfl, hd, hk, hg⟩ := Node.equivalentBy_guarded_iff.1 h
    obtain ⟨_, _, _, ⟨⟩, hd', hk', hg'⟩ := Node.equivalentBy_guarded_iff.1 h'
    exact Node.equivalentBy_guarded_iff.2
      ⟨d, k, g, rfl, Handle.equivalentBy_both heq hd hd', Handle.equivalentBy_both heq hk hk',
        Handle.equivalentBy_both heq hg hg'⟩
  | .catching .., _, h, h' => by
    obtain ⟨k, f, rfl, hk, hf⟩ := Node.equivalentBy_catching_iff.1 h
    obtain ⟨_, _, ⟨⟩, hk', hf'⟩ := Node.equivalentBy_catching_iff.1 h'
    exact Node.equivalentBy_catching_iff.2
      ⟨k, f, rfl, Handle.equivalentBy_both heq hk hk', Handle.equivalentBy_both heq hf hf'⟩

theorem Filters.equivalentBy_both
    (heq : ∀ v w, eq₁ v w = true → eq₂ v w = true → eq₃ v w = true) :
    ∀ {fs gs : List (Option Handle)}, Filters.equivalentBy eq₁ fs gs = true →
      Filters.equivalentBy eq₂ fs gs = true → Filters.equivalentBy eq₃ fs gs = true
  | [], _, h, _ => Filters.equivalentBy_nil_iff.2 (Filters.equivalentBy_nil_iff.1 h)
  | none :: fs, _, h, h' => by
    obtain ⟨gs, rfl, hgs⟩ := Filters.equivalentBy_none_cons_iff.1 h
    obtain ⟨_, ⟨⟩, hgs'⟩ := Filters.equivalentBy_none_cons_iff.1 h'
    exact Filters.equivalentBy_none_cons_iff.2 ⟨gs, rfl, Filters.equivalentBy_both heq hgs hgs'⟩
  | some f :: fs, _, h, h' => by
    obtain ⟨g, gs, rfl, hg, hgs⟩ := Filters.equivalentBy_some_cons_iff.1 h
    obtain ⟨_, _, ⟨⟩, hg', hgs'⟩ := Filters.equivalentBy_some_cons_iff.1 h'
    exact Filters.equivalentBy_some_cons_iff.2
      ⟨g, gs, rfl, Handle.equivalentBy_both heq hg hg', Filters.equivalentBy_both heq hgs hgs'⟩

end

end Both

/-! ## An equivalence relation -/

namespace Handle

variable {a b c : Handle}

theorem equivalent_symm (h : a.equivalent b = true) : b.equivalent a = true :=
  equivalentBy_of_left Value.same_of_left h a.equivalent_refl

theorem equivalent_trans (h : a.equivalent b = true) (h' : b.equivalent c = true) :
    a.equivalent c = true :=
  equivalentBy_of_left Value.same_of_left (equivalent_symm h) h'

end Handle

theorem Node.equivalent_symm {m n : Node Handle} (h : m.equivalent n = true) :
    n.equivalent m = true :=
  Node.equivalentBy_of_left Value.same_of_left h m.equivalent_refl

/-! ## Classes of bound wrappers -/

/-- Whether two handles have the same signature and variant, equal parameters and parts alike, and the
values that they bind are in wrappers of the same classes. -/
abbrev Handle.wrapsAlike : Handle → Handle → Bool :=
  Handle.equivalentBy fun v w => v.wrappers == w.wrappers

/-- Whether two handles differ in nothing but stamps and remembered collectors: the values that they
bind are equal. -/
abbrev Handle.coincides : Handle → Handle → Bool := Handle.equivalentBy (· == ·)

theorem Handle.coincides_refl (h : Handle) : h.coincides h = true :=
  equivalentBy_refl (fun _ => beq_self_eq_true _) h

/-- The classes of bound wrappers are all that equivalent handles can differ in. -/
theorem Handle.coincides_of_equivalent {a b : Handle} (h : a.equivalent b = true)
    (hclasses : a.wrapsAlike b = true) : a.coincides b = true := by
  refine equivalentBy_both (fun v w hvw hw => ?_) h hclasses
  rw [beq_iff_eq] at hw ⊢
  exact Value.eq_of_same hvw hw

end HandleCalculus
