import HandleCalculus.Invocation
import HandleCalculus.Proofs.CombinatorNodes
import Mathlib.Data.List.Forall2

/-!
# Reorderings

A reordering takes from a list what stands at given places (`Picks`). The same relation tells which
types a reordering needs, which erased types, and which arguments a call passes on; and reorderings of
it compose (`Picks.combined`). That is all that collapsing a permutation of a permutation comes to.

What `permuteArguments` makes is said once, case by case (`Handle.Permuted`): the target itself, a new
node on top of it, or, if the target is a permutation, one of the inner handle: a node that does both
reorderings, or the inner handle, as it is or under the signature asked for, if they cancel out.
-/

set_option autoImplicit false

namespace HandleCalculus

/-! ## Picking from a list -/

/-- Whether the second list consists of what stands in the first at the places listed. -/
def Picks {α : Type} (as : List α) (order : List Nat) (bs : List α) : Prop :=
  List.Forall₂ (fun i a => as[i]? = some a) order bs

namespace Picks

variable {α β : Type} {as bs cs : List α} {order reorder : List Nat}

theorem length_eq (h : Picks as order bs) : order.length = bs.length := List.Forall₂.length_eq h

theorem unique (h : Picks as order bs) (h' : Picks as order cs) : bs = cs := by
  induction h generalizing cs with
  | nil => cases h'; rfl
  | cons hfirst _ ih =>
    cases h' with
    | cons hfirst' hrest' =>
      rw [Option.some.inj (hfirst.symm.trans hfirst'), ih hrest']

theorem map (h : Picks as order bs) (f : α → β) : Picks (as.map f) order (bs.map f) := by
  refine List.forall₂_map_right_iff.2 (h.imp fun i a hi => ?_)
  rw [List.getElem?_map, hi]
  rfl

theorem getElem? (h : Picks as order bs) {i j : Nat} (hi : order[i]? = some j) :
    bs[i]? = as[j]? := by
  obtain ⟨hlt, rfl⟩ := List.getElem?_eq_some_iff.1 hi
  have hlt' : i < bs.length := h.length_eq ▸ hlt
  have hpick : as[order[i]]? = some bs[i] := (List.forall₂_iff_get.1 h).2 i hlt hlt'
  rw [hpick, List.getElem?_eq_getElem hlt']

/-- Picking from what was picked. -/
theorem combined (h : Picks as reorder bs) (h' : Picks bs order cs) :
    Picks as (order.map fun j => reorder[j]?.getD 0) cs := by
  refine List.forall₂_map_left_iff.2 (h'.imp fun j c hj => ?_)
  have hlt : j < reorder.length := h.length_eq ▸ (List.getElem?_eq_some_iff.1 hj).1
  have hget := List.getElem?_eq_getElem hlt
  rw [hget, Option.getD_some, ← h.getElem? hget, hj]

/-- What stands beside what is picked. -/
theorem exists_of_forall₂ {R : β → α → Prop} {vs : List β} (h : Picks as order bs)
    (hR : List.Forall₂ R vs as) : ∃ ws, Picks vs order ws ∧ List.Forall₂ R ws bs := by
  induction h with
  | nil => exact ⟨[], .nil, .nil⟩
  | @cons i a order bs hi _ ih =>
    obtain ⟨ws, hws, hRws⟩ := ih
    obtain ⟨hlt, rfl⟩ := List.getElem?_eq_some_iff.1 hi
    have hlt' : i < vs.length := hR.length_eq ▸ hlt
    exact ⟨vs[i] :: ws, .cons (List.getElem?_eq_getElem hlt') hws,
      .cons ((List.forall₂_iff_get.1 hR).2 i hlt' hlt) hRws⟩

/-- All that is asked of a list to pick from is its length. -/
theorem exists_of_length (h : Picks as order bs) {vs : List β} (hlength : vs.length = as.length) :
    ∃ ws, Picks vs order ws := by
  obtain ⟨ws, hws, -⟩ := h.exists_of_forall₂ (R := fun _ _ => True)
    (List.forall₂_iff_get.2 ⟨hlength, fun _ _ _ => trivial⟩)
  exact ⟨ws, hws⟩

end Picks

theorem pick?_eq_some_iff {args picked : List Value} {order : List Nat} :
    pick? args order = some picked ↔ Picks args order picked := by
  induction order generalizing picked with
  | nil =>
    constructor
    · intro h
      cases h
      exact .nil
    · intro h
      cases h
      rfl
  | cons i order ih =>
    unfold pick?
    simp only [Option.bind_eq_bind, Option.bind_eq_some_iff, Option.pure_def, Option.some_inj, ih]
    constructor
    · rintro ⟨v, hv, vs, hvs, rfl⟩
      exact .cons hv hvs
    · intro h
      cases h with
      | cons hfirst hrest => exact ⟨_, hfirst, _, hrest, rfl⟩

namespace Handle

/-- Each place of a list that lists its own places is listed at itself. -/
theorem picks_of_isIdentityOrder {α : Type} {as : List α} {order : List Nat}
    (h : isIdentityOrder order = true) (hlength : order.length = as.length) : Picks as order as := by
  have horder : order = List.range as.length := by
    rw [← hlength]
    simpa [isIdentityOrder] using h
  refine List.forall₂_iff_get.2 ⟨hlength, fun i hi hi' => ?_⟩
  simp [horder]

/-! ## What is made -/

theorem checkReorder_eq_ok_iff {new : Signature} {order : List Nat} {ts : List Ty}
    (hlength : order.length = ts.length) :
    checkReorder new order ts = .ok () ↔ Picks new.params order ts := by
  induction order generalizing ts with
  | nil =>
    cases ts with
    | nil => exact ⟨fun _ => .nil, fun _ => rfl⟩
    | cons t ts => cases hlength
  | cons i order ih =>
    cases ts with
    | nil => cases hlength
    | cons t ts =>
      have hplace : ¬ i ≥ new.arity ∧ new.param i = t ↔ new.params[i]? = some t := by
        unfold Signature.arity Signature.param
        rw [List.getElem?_eq_some_iff]
        constructor
        · rintro ⟨hi, rfl⟩
          have hi : i < new.params.length := Nat.lt_of_not_le hi
          exact ⟨hi, by rw [List.getElem?_eq_getElem hi]; rfl⟩
        · rintro ⟨hi, rfl⟩
          exact ⟨Nat.not_le.2 hi, by rw [List.getElem?_eq_getElem hi]; rfl⟩
      unfold checkReorder Picks
      rw [List.forall₂_cons, ← hplace]
      split
      · next hi => exact ⟨nofun, fun h => absurd hi h.1.1⟩
      split
      · next hparam => exact ⟨nofun, fun h => absurd h.1.2 hparam⟩
      · next hi hparam =>
        rw [ih (Nat.succ.inj hlength)]
        exact (and_iff_right ⟨hi, not_not.1 hparam⟩).symm

end Handle

/-- The order that does one reordering after the other. -/
def Handle.combined (reorder order : List Nat) : List Nat := order.map fun j => reorder[j]?.getD 0

/-- Whether the signature passes each parameter of the other one an argument of the same type, and
has its result. -/
structure Signature.Routes (new old : Signature) (reorder : List Nat) : Prop where
  params : Picks new.params reorder old.params
  ret : new.ret = old.ret

theorem Signature.Routes.combined {a b c : Signature} {reorder order : List Nat}
    (hab : a.Routes b reorder) (hbc : b.Routes c order) : a.Routes c (Handle.combined reorder order) :=
  ⟨hab.params.combined hbc.params, hab.ret.trans hbc.ret⟩

namespace Handle

/-- What a reordering of a handle can be. -/
inductive Permuted (s : Stamp) (h : Handle) (new : Signature) (reorder : List Nat) : Handle → Prop where
  | same (htype : new = h.type) (hidentity : isIdentityOrder reorder = true) :
    Permuted s h new reorder h
  | fresh (hnode : h.variant ≠ .permute) : Permuted s h new reorder ⟨s, new, .permute h reorder⟩
  | collapsed {inner : Handle} {order : List Nat} (hnode : h.node = .permute inner order) :
    Permuted s h new reorder ⟨s, new, .permute inner (combined reorder order)⟩
  | cancelled {inner : Handle} {order : List Nat} (hnode : h.node = .permute inner order)
      (hlength : (combined reorder order).length = new.arity)
      (hidentity : isIdentityOrder (combined reorder order) = true) (htype : new = inner.type) :
    Permuted s h new reorder inner
  | retyped {inner : Handle} {order : List Nat} (hnode : h.node = .permute inner order)
      (hlength : (combined reorder order).length = new.arity)
      (hidentity : isIdentityOrder (combined reorder order) = true)
      (hshape : new.shape = inner.type.shape) :
    Permuted s h new reorder ⟨s, new, inner.node⟩

namespace Permuted

variable {s : Stamp} {h h' : Handle} {new : Signature} {reorder : List Nat}

theorem type_eq (hmade : Permuted s h new reorder h') : h'.type = new := by
  cases hmade with
  | same htype _ => exact htype.symm
  | fresh _ => rfl
  | collapsed _ => rfl
  | cancelled _ _ _ htype => exact htype.symm
  | retyped _ _ _ _ => rfl

end Permuted

variable {s : Stamp} {h h' : Handle} {new : Signature} {reorder : List Nat}

/-- A reordering that succeeds has the types that it needs, and is one of the cases. -/
theorem permuteArguments_eq_ok (hmade : h.permuteArguments s new reorder = .ok h') :
    new.Routes h.type reorder ∧ Permuted s h new reorder h' := by
  unfold permuteArguments at hmade
  simp only [bind, Except.bind, pure, Except.pure, throw, throwThe, MonadExceptOf.throw] at hmade
  split at hmade
  · cases hmade
  next hlength =>
  split at hmade
  · cases hmade
  next hret =>
  split at hmade
  · cases hmade
  next hcheck =>
  refine ⟨⟨(checkReorder_eq_ok_iff (not_not.1 hlength)).1 hcheck, not_not.1 hret⟩, ?_⟩
  split at hmade
  · next hsame =>
    obtain rfl := Except.ok.inj hmade
    exact .same hsame.1 hsame.2
  split at hmade
  · next inner order hnode =>
    split at hmade
    · next hidentity =>
      split at hmade
      · next htype =>
        obtain rfl := Except.ok.inj hmade
        exact .cancelled hnode hidentity.1 hidentity.2 htype
      · unfold retype at hmade
        split at hmade
        · next hshape =>
          obtain rfl := Except.ok.inj hmade
          exact .retyped hnode hidentity.1 hidentity.2 hshape
        · cases hmade
    · obtain rfl := Except.ok.inj hmade
      exact .collapsed hnode
  · next hnode =>
    obtain rfl := Except.ok.inj hmade
    refine .fresh fun hvariant => ?_
    unfold variant at hvariant
    generalize h.node = n at hnode hvariant
    cases n with
    | permute inner order => exact hnode inner order rfl
    | _ => cases hvariant

/-- If a reordering has the types that it needs, only the erased signature of the inner handle of a
permutation can stand in its way. -/
theorem exists_permuteArguments (hroutes : new.Routes h.type reorder)
    (hshape : ∀ inner order, h.node = .permute inner order →
      (combined reorder order).length = new.arity → isIdentityOrder (combined reorder order) = true →
        new.shape = inner.type.shape) :
    ∃ h', h.permuteArguments s new reorder = .ok h' := by
  have hlength : reorder.length = h.type.arity := hroutes.params.length_eq
  unfold permuteArguments
  simp only [bind, Except.bind, pure, Except.pure, throw, throwThe, MonadExceptOf.throw]
  rw [if_neg (not_not.2 hlength), if_neg (not_not.2 hroutes.ret),
    (checkReorder_eq_ok_iff hlength).2 hroutes.params]
  dsimp only
  split
  · exact ⟨_, rfl⟩
  split
  · next inner order hnode =>
    split
    · next hidentity =>
      split
      · exact ⟨_, rfl⟩
      · unfold retype
        rw [if_pos (hshape inner order hnode hidentity.1 hidentity.2)]
        exact ⟨_, rfl⟩
    · exact ⟨_, rfl⟩
  · exact ⟨_, rfl⟩

end Handle

end HandleCalculus
