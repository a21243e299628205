import HandleCalculus.Handle.Basic

/-!
# Structural equivalence

Two handles are equivalent if they have the same signature and variant, equal parameters and
equivalent parts, and bind values that are the same. What it takes for two bound values to count as
one is a parameter of the comparison (`Handle.equivalentBy`).

Handles share parts, and one built from `n` combinators can have exponentially many places;
`Handle.compare` decides equivalence without going through parts that both handles share.
-/

set_option autoImplicit false

namespace HandleCalculus

/-! ## Comparing handles -/

mutual

/-- Whether two handles have the same signature and variant, equal parameters, parts of which the same
is true, and bind values that compare as asked. Stamps do not count, nor do the collectors that
variable-arity handles remember. -/
def Handle.equivalentBy (eq : Value → Value → Bool) : Handle → Handle → Bool
  | ⟨_, s, m⟩, ⟨_, t, n⟩ => s == t && Node.equivalentBy eq m n
termination_by structural h => h

/-- The same of nodes. -/
def Node.equivalentBy (eq : Value → Value → Bool) : Node Handle → Node Handle → Bool
  | .direct m p, .direct n q => m == n && p == q
  | .virtual m c i, .virtual n d j => m == n && c == d && i == j
  | .getField f s a, .getField g t b => f == g && s == t && a == b
  | .setField f s a, .setField g t b => f == g && s == t && a == b
  | .insert h p vs, .insert k q ws => p == q && vs.isEqv ws eq && h.equivalentBy eq k
  | .permute h r, .permute k s => r == s && h.equivalentBy eq k
  | .collect h p c a, .collect k q d b => p == q && c == d && a == b && h.equivalentBy eq k
  | .spread h p c a, .spread k q d b => p == q && c == d && a == b && h.equivalentBy eq k
  | .filterArgs h p fs, .filterArgs k q gs =>
    p == q && Filters.equivalentBy eq fs gs && h.equivalentBy eq k
  | .filterReturn h f, .filterReturn k g => h.equivalentBy eq k && f.equivalentBy eq g
  | .fold h p c, .fold k q d => p == q && h.equivalentBy eq k && c.equivalentBy eq d
  | .guarded c h f, .guarded d k g =>
    c.equivalentBy eq d && h.equivalentBy eq k && f.equivalentBy eq g
  | .catching h c e, .catching k d f => c == d && h.equivalentBy eq k && e.equivalentBy eq f
  | .convert h as r, .convert k bs q => as == bs && r == q && h.equivalentBy eq k
  | .constant v, .constant w => eq v w
  | .identity, .identity => true
  | .throwing, .throwing => true
  | .varargs h a _, .varargs k b _ => a == b && h.equivalentBy eq k
  | .invoker s, .invoker t => s == t
  | .unlinked m, .unlinked n => m == n
  | _, _ => false
termination_by structural n => n

/-- The same of filter lists, position by position. -/
def Filters.equivalentBy (eq : Value → Value → Bool) :
    List (Option Handle) → List (Option Handle) → Bool
  | [], [] => true
  | none :: fs, none :: gs => Filters.equivalentBy eq fs gs
  | some f :: fs, some g :: gs => f.equivalentBy eq g && Filters.equivalentBy eq fs gs
  | _, _ => false
termination_by structural fs => fs

end

/-- Whether two handles are equivalent: bound values are the same. -/
abbrev Handle.equivalent : Handle → Handle → Bool := Handle.equivalentBy Value.same

@[inherit_doc Handle.equivalent]
abbrev Node.equivalent : Node Handle → Node Handle → Bool := Node.equivalentBy Value.same

@[inherit_doc Handle.equivalent]
abbrev Filters.equivalent : List (Option Handle) → List (Option Handle) → Bool :=
  Filters.equivalentBy Value.same

/-! ## Every handle is equivalent to itself -/

section Refl

variable {eq : Value → Value → Bool}

theorem List.isEqv_of_refl (heq : ∀ v, eq v v = true) : ∀ vs : List Value, vs.isEqv vs eq = true
  | [] => rfl
  | v :: vs => by simp [List.isEqv, heq v, List.isEqv_of_refl heq vs]

mutual

theorem Handle.equivalentBy_refl (heq : ∀ v, eq v v = true) :
    ∀ h : Handle, h.equivalentBy eq h = true
  | ⟨_, s, n⟩ => by simp [Handle.equivalentBy, Node.equivalentBy_refl heq n]

theorem Node.equivalentBy_refl (heq : ∀ v, eq v v = true) :
    ∀ n : Node Handle, n.equivalentBy eq n = true
  | .insert h _ vs => by simp [Node.equivalentBy, List.isEqv_of_refl heq vs, Handle.equivalentBy_refl heq h]
  | .permute h _ => by simp [Node.equivalentBy, Handle.equivalentBy_refl heq h]
  | .collect h _ _ _ => by simp [Node.equivalentBy, Handle.equivalentBy_refl heq h]
  | .spread h _ _ _ => by simp [Node.equivalentBy, Handle.equivalentBy_refl heq h]
  | .filterArgs h _ fs => by
    simp [Node.equivalentBy, Handle.equivalentBy_refl heq h, Filters.equivalentBy_refl heq fs]
  | .filterReturn h f => by
    simp [Node.equivalentBy, Handle.equivalentBy_refl heq h, Handle.equivalentBy_refl heq f]
  | .fold h _ c => by
    simp [Node.equivalentBy, Handle.equivalentBy_refl heq h, Handle.equivalentBy_refl heq c]
  | .guarded c h f => by
    simp [Node.equivalentBy, Handle.equivalentBy_refl heq c, Handle.equivalentBy_refl heq h,
      Handle.equivalentBy_refl heq f]
  | .catching h _ e => by
    simp [Node.equivalentBy, Handle.equivalentBy_refl heq h, Handle.equivalentBy_refl heq e]
  | .convert h _ _ => by simp [Node.equivalentBy, Handle.equivalentBy_refl heq h]
  | .varargs h _ _ => by simp [Node.equivalentBy, Handle.equivalentBy_refl heq h]
  | .constant v => heq v
  | .direct .. | .virtual .. | .getField .. | .setField .. | .identity | .throwing | .invoker ..
  | .unlinked .. => by simp [Node.equivalentBy]

theorem Filters.equivalentBy_refl (heq : ∀ v, eq v v = true) :
    ∀ fs : List (Option Handle), Filters.equivalentBy eq fs fs = true
  | [] => by simp [Filters.equivalentBy]
  | none :: fs => by simp [Filters.equivalentBy, Filters.equivalentBy_refl heq fs]
  | some f :: fs => by
    simp [Filters.equivalentBy, Handle.equivalentBy_refl heq f, Filters.equivalentBy_refl heq fs]

end

end Refl

theorem Handle.equivalent_refl (h : Handle) : h.equivalent h = true :=
  Handle.equivalentBy_refl Value.same_refl h

theorem Node.equivalent_refl (n : Node Handle) : n.equivalent n = true :=
  Node.equivalentBy_refl Value.same_refl n

theorem Filters.equivalent_refl (fs : List (Option Handle)) : Filters.equivalent fs fs = true :=
  Filters.equivalentBy_refl Value.same_refl fs

/-! ## Deciding equivalence -/

/-- Whether two handles are equivalent, given a way to find out. Handles that are one and the same
in memory are, without going through them. -/
def Handle.compareVia (a b : Handle) (compare : Unit → { r : Bool // r = a.equivalent b }) :
    { r : Bool // r = a.equivalent b } :=
  ⟨withPtrEq a b (fun x => (compare x).val) fun e => by
      rw [(compare ()).property, e, Handle.equivalent_refl],
    (compare ()).property⟩

private theorem compared {a b : Handle} (r : { r : Bool // r = a.equivalent b }) :
    r.val = a.equivalent b := r.property

mutual

/-- Whether two handles are equivalent, without going through what they share. -/
def Handle.compare : (a b : Handle) → { r : Bool // r = a.equivalent b }
  | ⟨i, s, m⟩, ⟨j, t, n⟩ =>
    ⟨s == t && (Node.compare m n).val, by
      simp only [(Node.compare m n).property, Handle.equivalentBy]⟩
termination_by structural a => a

/-- Whether two nodes are equivalent, without going through what they share. -/
def Node.compare : (m n : Node Handle) → { r : Bool // r = m.equivalent n }
  | .insert h p vs, .insert k q ws =>
    ⟨p == q && vs.isEqv ws Value.same && (h.compareVia k fun _ => h.compare k).val, by
      simp only [compared, Node.equivalentBy]⟩
  | .permute h r, .permute k s =>
    ⟨r == s && (h.compareVia k fun _ => h.compare k).val, by
      simp only [compared, Node.equivalentBy]⟩
  | .collect h p c a, .collect k q d b =>
    ⟨p == q && c == d && a == b && (h.compareVia k fun _ => h.compare k).val, by
      simp only [compared, Node.equivalentBy]⟩
  | .spread h p c a, .spread k q d b =>
    ⟨p == q && c == d && a == b && (h.compareVia k fun _ => h.compare k).val, by
      simp only [compared, Node.equivalentBy]⟩
  | .filterArgs h p fs, .filterArgs k q gs =>
    ⟨p == q && (Filters.compare fs gs).val && (h.compareVia k fun _ => h.compare k).val, by
      simp only [compared, (Filters.compare fs gs).property, Node.equivalentBy]⟩
  | .filterReturn h f, .filterReturn k g =>
    ⟨(h.compareVia k fun _ => h.compare k).val && (f.compareVia g fun _ => f.compare g).val, by
      simp only [compared, Node.equivalentBy]⟩
  | .fold h p c, .fold k q d =>
    ⟨p == q && (h.compareVia k fun _ => h.compare k).val &&
        (c.compareVia d fun _ => c.compare d).val, by
      simp only [compared, Node.equivalentBy]⟩
  | .guarded c h f, .guarded d k g =>
    ⟨(c.compareVia d fun _ => c.compare d).val && (h.compareVia k fun _ => h.compare k).val &&
        (f.compareVia g fun _ => f.compare g).val, by
      simp only [compared, Node.equivalentBy]⟩
  | .catching h c e, .catching k d f =>
    ⟨c == d && (h.compareVia k fun _ => h.compare k).val &&
        (e.compareVia f fun _ => e.compare f).val, by
      simp only [compared, Node.equivalentBy]⟩
  | .convert h as r, .convert k bs q =>
    ⟨as == bs && r == q && (h.compareVia k fun _ => h.compare k).val, by
      simp only [compared, Node.equivalentBy]⟩
  | .varargs h a _, .varargs k b _ =>
    ⟨a == b && (h.compareVia k fun _ => h.compare k).val, by
      simp only [compared, Node.equivalentBy]⟩
  | m, n => ⟨m.equivalent n, rfl⟩
termination_by structural m => m

/-- Whether two filter lists are equivalent, without going through what they share. -/
def Filters.compare :
    (fs gs : List (Option Handle)) → { r : Bool // r = Filters.equivalent fs gs }
  | none :: fs, none :: gs =>
    ⟨(Filters.compare fs gs).val, by
      simp only [(Filters.compare fs gs).property, Filters.equivalentBy]⟩
  | some f :: fs, some g :: gs =>
    ⟨(f.compareVia g fun _ => f.compare g).val && (Filters.compare fs gs).val, by
      simp only [(Filters.compare fs gs).property, compared, Filters.equivalentBy]⟩
  | fs, gs => ⟨Filters.equivalent fs gs, rfl⟩
termination_by structural fs => fs

end

/-- Whether two handles are equivalent. -/
def Handle.isEquivalent (a b : Handle) : Bool := (a.compareVia b fun _ => a.compare b).val

theorem Handle.isEquivalent_eq (a b : Handle) : a.isEquivalent b = a.equivalent b :=
  (a.compareVia b fun _ => a.compare b).property

end HandleCalculus
