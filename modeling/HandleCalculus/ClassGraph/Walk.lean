import HandleCalculus.ClassGraph.Basic

/-!
# Walks up the class graph

A search goes up from a class along its edges: the interfaces as declared, then the parent. The
order in which it looks at classes is that of `paths`, which lists a class once for every path that
leads to it. There can be exponentially many paths, so `walk` passes each class only once. For a
search this makes no difference (`findSome?_walk`): when it meets a class again, it has already
looked at everything above.

Supertypes have smaller numbers, so a walk takes at most as many steps as the number of the class
it starts from; `paths_eq` shows no bound.
-/

set_option autoImplicit false

namespace HandleCalculus.ClassGraph

/-- A way up from a class, and whether a search looks at the class that it leads to. -/
structure Edge where
  head : ClassId
  listed : Bool

/-- The class that an edge leads to, if a search looks at it. -/
def Edge.stops (e : Edge) : List ClassId := if e.listed then [e.head] else []

/-- The edges up from a class. A search always looks at interfaces, and at parents if asked to. -/
def edges (G : ClassGraph) (parents : Bool) (c : ClassId) : List Edge :=
  (G.interfaces c).map (⟨·, true⟩) ++ (G.parent? c).toList.map (⟨·, parents⟩)

theorem lt_of_mem_edges (G : ClassGraph) {parents listed : Bool} {c d : Nat}
    (h : ⟨d, listed⟩ ∈ G.edges parents c) : d < c := by
  simp only [edges, List.mem_append, List.mem_map, Option.mem_toList, Edge.mk.injEq] at h
  rcases h with ⟨i, hi, rfl, -⟩ | ⟨p, hp, rfl, -⟩
  · exact G.lt_of_mem_interfaces hi
  · exact G.lt_of_parent? hp

/-! ## One entry for every path -/

/-- The ends of the paths up from a class, at most `n` edges long. -/
def pathsWithin (G : ClassGraph) (parents : Bool) : Nat → ClassId → List ClassId
  | 0, _ => []
  | n + 1, c => (G.edges parents c).flatMap fun e => e.stops ++ G.pathsWithin parents n e.head

/-- The ends of the paths up from a class, depth first. -/
def paths (G : ClassGraph) (parents : Bool) (c : ClassId) : List ClassId :=
  G.pathsWithin parents c c

theorem edges_zero (G : ClassGraph) (parents : Bool) : G.edges parents 0 = [] := by
  cases h : G.edges parents 0 with
  | nil => rfl
  | cons e es =>
    have he : e ∈ G.edges parents 0 := by simp [h]
    exact absurd (G.lt_of_mem_edges he) (Nat.not_lt_zero _)

private theorem flatMap_congr {α β : Type} {l : List α} {f g : α → List β}
    (h : ∀ a ∈ l, f a = g a) : l.flatMap f = l.flatMap g := by
  simp only [List.flatMap_def, List.map_congr_left h]

theorem pathsWithin_eq (G : ClassGraph) (parents : Bool) {n c : Nat} (h : c ≤ n) :
    G.pathsWithin parents n c = G.paths parents c := by
  induction c using Nat.strongRecOn generalizing n with
  | ind c ih =>
    unfold paths
    cases n with
    | zero =>
      obtain rfl : c = 0 := by omega
      rfl
    | succ n =>
      cases c with
      | zero => simp [pathsWithin, edges_zero]
      | succ c =>
        simp only [pathsWithin]
        refine flatMap_congr fun e he => ?_
        have hlt := G.lt_of_mem_edges he
        rw [ih e.head hlt (n := n) (by omega), ih e.head hlt (n := c) (by omega)]

/-- The paths up from a class go along one of its edges and on from there. -/
theorem paths_eq (G : ClassGraph) (parents : Bool) (c : ClassId) :
    G.paths parents c =
      (G.edges parents c).flatMap fun e => e.stops ++ G.paths parents e.head := by
  rw [← pathsWithin_eq G parents (Nat.le_succ c), pathsWithin]
  refine flatMap_congr fun e he => ?_
  rw [pathsWithin_eq G parents (Nat.le_of_lt (G.lt_of_mem_edges he))]

/-! ## Each class once -/

/-- A walk under way: the classes that it has passed, and those that it has looked at, the latest
first. -/
structure Trail where
  passed : List ClassId
  listed : List ClassId

/-- The trail of a walk that goes on from a class, at most `n` edges up. -/
def trailWithin (G : ClassGraph) (parents : Bool) : Nat → ClassId → Trail → Trail
  | 0, _, t => t
  | n + 1, c, t =>
    if c ∈ t.passed then t
    else
      (G.edges parents c).foldl
        (fun t e => G.trailWithin parents n e.head { t with listed := e.stops ++ t.listed })
        { t with passed := c :: t.passed }

/-- The classes above a class, as a search that passes each class once looks at them. -/
def walk (G : ClassGraph) (parents : Bool) (c : ClassId) : List ClassId :=
  (G.trailWithin parents c c ⟨[], []⟩).listed.reverse

/-! ## A search finds the same

Two lists agree if every search finds the same in both. The trail that a walk leaves agrees with
the paths so far, as long as everything above the classes passed is on it; classes that the walk
is still busy with have larger numbers than those that it can meet, and are exempt. -/

/-- Whether every search finds the same in both lists. -/
def Agree (xs ys : List ClassId) : Prop :=
  ∀ (β : Type) (f : ClassId → Option β), xs.findSome? f = ys.findSome? f

private theorem Agree.mem {xs ys : List ClassId} (h : Agree xs ys) {y : ClassId} :
    y ∈ xs ↔ y ∈ ys := by
  have found : ∀ l : List ClassId,
      (l.findSome? fun x => if x = y then some () else none).isSome ↔ y ∈ l := by
    intro l
    simp [List.findSome?_isSome_iff]
  rw [← found xs, ← found ys, h Unit]

private theorem Agree.append_right {xs ys : List ClassId} (h : Agree xs ys) (zs : List ClassId) :
    Agree (xs ++ zs) (ys ++ zs) := by
  intro β f
  rw [List.findSome?_append, List.findSome?_append, h β f]

private theorem agree_append_self {xs ys : List ClassId} (h : ∀ y ∈ ys, y ∈ xs) :
    Agree xs (xs ++ ys) := by
  intro β f
  rw [List.findSome?_append]
  cases hx : xs.findSome? f with
  | some b => rfl
  | none =>
    have hy : ys.findSome? f = none := by
      rw [List.findSome?_eq_none_iff] at hx ⊢
      exact fun y m => hx y (h y m)
    simp [hy]

/-- Everything above the classes passed that have numbers below `m` is listed. -/
private def Settled (G : ClassGraph) (parents : Bool) (t : Trail) (m : Nat) : Prop :=
  ∀ x : Nat, x ∈ t.passed → x < m → ∀ y ∈ G.paths parents x, y ∈ t.listed

private theorem reverse_stops (e : Edge) : e.stops.reverse = e.stops := by
  unfold Edge.stops
  split <;> rfl

/-- What a walk that goes on from `c` adds to a trail. -/
private structure Continues (G : ClassGraph) (parents : Bool) (t t' : Trail) (m c : Nat)
    (ys : List ClassId) : Prop where
  settled : Settled G parents t' m
  passed : ∀ x : Nat, x ∈ t'.passed → x ∈ t.passed ∨ x < c
  agree : Agree t'.listed.reverse (t.listed.reverse ++ ys)

private theorem continues_foldl (G : ClassGraph) (parents : Bool) {n c : Nat}
    (ih : ∀ d : Nat, d < c → ∀ t : Trail, Settled G parents t c →
      Continues G parents t (G.trailWithin parents n d t) c (d + 1) (G.paths parents d))
    (es : List Edge) (hes : ∀ (d : Nat) (l : Bool), ⟨d, l⟩ ∈ es → d < c) (t : Trail)
    (ht : Settled G parents t c) :
    Continues G parents t
      (es.foldl (fun t e => G.trailWithin parents n e.head { t with listed := e.stops ++ t.listed })
        t)
      c c (es.flatMap fun e => e.stops ++ G.paths parents e.head) := by
  induction es generalizing t with
  | nil => exact ⟨ht, fun x hx => Or.inl hx, fun β f => by simp⟩
  | cons e es ihes =>
    have hlt := hes e.head e.listed (by simp)
    have ht₁ : Settled G parents { t with listed := e.stops ++ t.listed } c :=
      fun x hx hxc y hy => List.mem_append_right _ (ht x hx hxc y hy)
    have h₁ := ih e.head hlt _ ht₁
    have h₂ := ihes (fun d l hd => hes d l (by simp [hd])) _ h₁.settled
    refine ⟨h₂.settled, fun x hx => ?_, fun β f => ?_⟩
    · rcases h₂.passed x hx with hx | hx
      · rcases h₁.passed x hx with hx | hx
        · exact Or.inl hx
        · exact Or.inr (by omega)
      · exact Or.inr hx
    · have h := (h₁.agree.append_right
        (es.flatMap fun e => e.stops ++ G.paths parents e.head)) β f
      rw [List.foldl_cons, h₂.agree β f, h]
      simp [reverse_stops]

private theorem continues_trailWithin (G : ClassGraph) (parents : Bool) {n c m : Nat} {t : Trail}
    (hn : c ≤ n) (hm : c < m) (ht : Settled G parents t m) :
    Continues G parents t (G.trailWithin parents n c t) m (c + 1) (G.paths parents c) := by
  induction n generalizing c m t with
  | zero =>
    obtain rfl : c = 0 := by omega
    refine ⟨ht, fun x hx => Or.inl hx, fun β f => ?_⟩
    rw [paths_eq, edges_zero]
    simp [trailWithin]
  | succ n ih =>
    unfold trailWithin
    split
    · next hc =>
      exact ⟨ht, fun x hx => Or.inl hx,
        agree_append_self fun y hy => by simpa using ht c hc hm y hy⟩
    · have h := continues_foldl G parents (n := n) (c := c)
        (fun d hd t ht => ih (c := d) (by omega) hd ht) (G.edges parents c)
        (fun _ _ he => G.lt_of_mem_edges he) { t with passed := c :: t.passed } (by
          intro x hx hxc y hy
          rcases List.mem_cons.1 hx with rfl | hx
          · exact absurd hxc (Nat.lt_irrefl _)
          · exact ht x hx (by omega) y hy)
      rw [← paths_eq] at h
      refine ⟨fun x hx hxm y hy => ?_, fun x hx => ?_, h.agree⟩
      · rcases h.passed x hx with hp | hlt
        · rw [← List.mem_reverse, h.agree.mem, List.mem_append, List.mem_reverse]
          rcases List.mem_cons.1 hp with rfl | hp
          · exact Or.inr hy
          · exact Or.inl (ht x hp hxm y hy)
        · exact h.settled x hx hlt y hy
      · rcases h.passed x hx with hp | hlt
        · rcases List.mem_cons.1 hp with rfl | hp
          · exact Or.inr (Nat.lt_succ_self _)
          · exact Or.inl hp
        · exact Or.inr (by omega)

/-- A search finds the same whether it goes along every path or passes each class once. -/
theorem findSome?_walk (G : ClassGraph) (parents : Bool) (c : ClassId) {β : Type}
    (f : ClassId → Option β) :
    (G.walk parents c).findSome? f = (G.paths parents c).findSome? f := by
  have h := (continues_trailWithin G parents (t := ⟨[], []⟩) (Nat.le_refl c)
    (Nat.lt_succ_self c) (by simp [Settled])).agree β f
  simpa [walk] using h

theorem mem_walk_iff (G : ClassGraph) (parents : Bool) {c d : ClassId} :
    d ∈ G.walk parents c ↔ d ∈ G.paths parents c :=
  Agree.mem fun _ f => G.findSome?_walk parents c f

end HandleCalculus.ClassGraph
