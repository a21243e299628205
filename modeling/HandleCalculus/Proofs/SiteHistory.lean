import HandleCalculus.Store
import HandleCalculus.Proofs.Equivalence

/-!
# The history of call sites

The call sites of a store, used by any number of threads. Every use takes effect in one step
(`SiteOp`), so an interleaving of threads is a list of steps, whoever takes them; between them the
rest of the store changes at will. A constant site that a hook computes the target of is two steps,
one that makes it and one that binds it, with anything in between.

Two facts about a step carry everything: what holds of each site alone is kept
(`CallSite.Consistent`), and a site before and after a step is related by `CallSite.Later`, which is
transitive because equivalence of handles is. `epoch_tracks_target` puts them together for any two
moments of a history.
-/

set_option autoImplicit false

namespace HandleCalculus

/-! ## Steps -/

/-- What a thread does to a store in one step, as far as call sites are concerned. -/
inductive SiteOp where
  /-- Make a site with a target. -/
  | make (kind : SiteKind) (target : Handle)
  /-- Make a site whose target fails until it is retargeted. -/
  | makeUnlinked (stamp : Stamp) (kind : SiteKind) (type : Signature)
  /-- Make a constant site that is still to be bound. -/
  | makeUnbound (type : Signature)
  /-- Bind a constant site to what its hook computed. -/
  | bind (id : SiteId) (target : Handle)
  | setTarget (id : SiteId) (target : Handle)
  | getTarget (id : SiteId)
  | dynamicInvoker (id : SiteId) (stamp : Stamp)
  /-- Change the rest of the store. -/
  | elsewhere (work : Store → Store)

/-- The answer to a step. -/
inductive SiteReply where
  | made (id : SiteId)
  | done
  | handle (h : Handle)
  | refused (e : Error)

/-- The answer that hands out a handle. -/
def SiteReply.ofHandle : Except Error Handle → SiteReply
  | .ok h => .handle h
  | .error e => .refused e

namespace Store

/-- The store after a change that may be refused; a refusal leaves the store as it is. -/
def settle (s : Store) : Except Error Store → SiteReply × Store
  | .ok s' => (.done, s')
  | .error e => (.refused e, s)

/-- The store after a new site. -/
def serveNew (s : Store) (site : CallSite) : SiteReply × Store :=
  (.made (s.addSite site).1, (s.addSite site).2)

/-- Takes a step. -/
def serve (s : Store) : SiteOp → SiteReply × Store
  | .make kind target => s.serveNew (.ofTarget kind target)
  | .makeUnlinked stamp kind type => s.serveNew (.unlinked stamp kind type)
  | .makeUnbound type => s.serveNew (.unbound type)
  | .bind id target => s.settle (s.bindTarget id target)
  | .setTarget id target => s.settle (s.setTarget id target)
  | .getTarget id => (.ofHandle (s.getTarget id), s)
  | .dynamicInvoker id stamp => (.ofHandle (s.dynamicInvoker id stamp), s)
  | .elsewhere work => (.done, { work s with sites := s.sites })

/-- The store after a list of steps. -/
def after (s : Store) (ops : List SiteOp) : Store := ops.foldl (fun s op => (s.serve op).2) s

/-- The steps with their answers. -/
def history : Store → List SiteOp → List (SiteOp × SiteReply)
  | _, [] => []
  | s, op :: ops => (op, (s.serve op).1) :: history (s.serve op).2 ops

theorem after_append (s : Store) (ops ops' : List SiteOp) :
    s.after (ops ++ ops') = (s.after ops).after ops' := by
  simp [after]

end Store

/-- Whether a step with its answer is a successful retargeting of a site. -/
def retargets (id : SiteId) : SiteOp × SiteReply → Bool
  | (.setTarget i _, .done) => i == id
  | _ => false

/-! ## A site alone -/

namespace CallSite

/-- What holds of every site at every moment. -/
structure Consistent (s : CallSite) : Prop where
  type_target : ∀ h, s.target = some h → h.type = s.type
  isSome_target : s.kind ≠ .constant → s.target.isSome
  epoch_eq : s.epoch = s.invalidations

/-- How a site at one moment is related to the same site at a later one. -/
structure Later (s t : CallSite) : Prop where
  kind_eq : t.kind = s.kind
  type_eq : t.type = s.type
  epoch_le : s.epoch ≤ t.epoch
  isSome_target : s.target.isSome → t.target.isSome
  /-- The target of a constant site stays. -/
  constant : s.kind = .constant → ∀ h, s.target = some h → t.target = some h
  /-- As long as the epoch stays, targets are exchanged for equivalent ones only. -/
  equivalent : t.epoch = s.epoch → ∀ h k, s.target = some h → t.target = some k →
    h.equivalent k = true

theorem Later.refl (s : CallSite) : Later s s where
  kind_eq := rfl
  type_eq := rfl
  epoch_le := Nat.le_refl _
  isSome_target := id
  constant _ _ h := h
  equivalent _ h k hh hk := by
    obtain rfl : h = k := by simpa [hh] using hk
    exact h.equivalent_refl

theorem Later.trans {s t u : CallSite} (hst : Later s t) (htu : Later t u) : Later s u where
  kind_eq := htu.kind_eq.trans hst.kind_eq
  type_eq := htu.type_eq.trans hst.type_eq
  epoch_le := Nat.le_trans hst.epoch_le htu.epoch_le
  isSome_target h := htu.isSome_target (hst.isSome_target h)
  constant hc h hh := htu.constant (hst.kind_eq.trans hc) h (hst.constant hc h hh)
  equivalent he h k hh hk := by
    -- the epoch cannot have gone up and down again, so the moment between has the same one
    have hle := hst.epoch_le
    have hle' := htu.epoch_le
    obtain ⟨j, hj⟩ := Option.isSome_iff_exists.1 (hst.isSome_target (by simp [hh]))
    have hhj := hst.equivalent (by omega) h j hh hj
    have hjk := htu.equivalent (by omega) j k hj hk
    exact Handle.equivalent_trans hhj hjk

theorem consistent_ofTarget (kind : SiteKind) (h : Handle) : (ofTarget kind h).Consistent where
  type_target k hk := by
    obtain rfl : h = k := by simpa [ofTarget] using hk
    rfl
  isSome_target _ := rfl
  epoch_eq := rfl

theorem consistent_unlinked (stamp : Stamp) (kind : SiteKind) (type : Signature) :
    (unlinked stamp kind type).Consistent where
  type_target k hk := by
    obtain rfl : Handle.unlinked stamp type "call site not linked" = k := by
      simpa [unlinked] using hk
    rfl
  isSome_target _ := rfl
  epoch_eq := rfl

theorem consistent_unbound (type : Signature) : (unbound type).Consistent where
  type_target k hk := by simp [unbound] at hk
  isSome_target h := absurd rfl h
  epoch_eq := rfl

theorem type_eq_of_checkTarget {s : CallSite} {h : Handle} (hc : s.checkTarget h = .ok ()) :
    h.type = s.type := by
  unfold checkTarget at hc
  split at hc
  · assumption
  · cases hc

/-- Everything that binding a site does. -/
theorem bind_eq_ok {s t : CallSite} {h : Handle} (hb : s.bind h = .ok t) :
    h.type = s.type ∧ s.target = none ∧ t = { s with target := some h } := by
  unfold bind at hb
  split at hb
  · cases hb
  · next hc =>
    split at hb
    · cases hb
    · next hn =>
      cases hb
      exact ⟨type_eq_of_checkTarget hc, hn, rfl⟩

/-- Everything that retargeting a site does. -/
theorem setTarget_eq_ok {s t : CallSite} {h : Handle} {inPlace : Bool}
    (hs : s.setTarget h = .ok (t, inPlace)) :
    s.kind ≠ .constant ∧ h.type = s.type ∧
      ((s.isEquivalentTo h = true ∧
          t = { s with target := some h, fastSwaps := s.fastSwaps + 1 }) ∨
        t = { s with
          target := some h, epoch := s.epoch + 1, invalidations := s.invalidations + 1 }) := by
  unfold setTarget at hs
  split at hs
  · cases hs
  · next hk =>
    split at hs
    · cases hs
    · next hc =>
      refine ⟨hk, type_eq_of_checkTarget hc, ?_⟩
      split at hs
      · next he =>
        cases hs
        exact Or.inl ⟨he, rfl⟩
      · cases hs
        exact Or.inr rfl

theorem dynamicInvoker_of_ne {s : CallSite} (hkind : s.kind ≠ .constant) (i : SiteId)
    (stamp : Stamp) : s.dynamicInvoker i stamp = .ok ⟨stamp, s.type, .invoker i⟩ := by
  unfold dynamicInvoker
  cases hk : s.kind with
  | constant => exact absurd hk hkind
  | _ => rfl

theorem Later.of_bind {s t : CallSite} {h : Handle} (hb : s.bind h = .ok t) : Later s t := by
  obtain ⟨-, hn, rfl⟩ := bind_eq_ok hb
  exact {
    kind_eq := rfl
    type_eq := rfl
    epoch_le := Nat.le_refl _
    isSome_target := fun _ => rfl
    constant := fun _ k hk => by simp [hn] at hk
    equivalent := fun _ k _ hk => by simp [hn] at hk }

theorem Consistent.bind {s t : CallSite} {h : Handle} (hs : s.Consistent)
    (hb : s.bind h = .ok t) : t.Consistent := by
  obtain ⟨ht, -, rfl⟩ := bind_eq_ok hb
  refine ⟨fun k hk => ?_, fun _ => rfl, hs.epoch_eq⟩
  obtain rfl : h = k := by simpa using hk
  exact ht

theorem Later.of_setTarget {s t : CallSite} {h : Handle} {inPlace : Bool}
    (hr : s.setTarget h = .ok (t, inPlace)) : Later s t := by
  obtain ⟨hk, -, ⟨he, rfl⟩ | rfl⟩ := setTarget_eq_ok hr
  · refine ⟨rfl, rfl, Nat.le_refl _, fun _ => rfl, fun hc => absurd hc hk, fun _ j k hj hk => ?_⟩
    -- the swap was in place, so the old target is equivalent to the new one
    obtain rfl : h = k := by simpa using hk
    rw [isEquivalentTo, hj] at he
    simpa only [Handle.isEquivalent_eq] using he
  · exact ⟨rfl, rfl, Nat.le_succ _, fun _ => rfl, fun hc => absurd hc hk,
      fun he => absurd he (Nat.succ_ne_self _)⟩

theorem Consistent.setTarget {s t : CallSite} {h : Handle} {inPlace : Bool} (hs : s.Consistent)
    (hr : s.setTarget h = .ok (t, inPlace)) : t.Consistent := by
  obtain ⟨-, ht, ⟨-, rfl⟩ | rfl⟩ := setTarget_eq_ok hr
  · refine ⟨fun k hk => ?_, fun _ => rfl, hs.epoch_eq⟩
    obtain rfl : h = k := by simpa using hk
    exact ht
  · refine ⟨fun k hk => ?_, fun _ => rfl, ?_⟩
    · obtain rfl : h = k := by simpa using hk
      exact ht
    · show s.epoch + 1 = s.invalidations + 1
      rw [hs.epoch_eq]

/-- A retargeting is counted once, as a swap in place or as an invalidation. -/
theorem count_setTarget {s t : CallSite} {h : Handle} {inPlace : Bool}
    (hr : s.setTarget h = .ok (t, inPlace)) :
    t.fastSwaps + t.invalidations = s.fastSwaps + s.invalidations + 1 := by
  obtain ⟨-, -, ⟨-, rfl⟩ | rfl⟩ := setTarget_eq_ok hr
  · show s.fastSwaps + 1 + s.invalidations = _
    omega
  · show s.fastSwaps + (s.invalidations + 1) = _
    omega

end CallSite

/-! ## One step

What a step does to one of the sites is said over the entries before and after it, so that steps can
be chained without looking at the store again. -/

/-- What happens to a site while it is retargeted `swaps` times: if it was there it is later the
same site, if not it may be there now, fresh. -/
structure Advances (swaps : Nat) (old new : Option CallSite) : Prop where
  later : ∀ s, old = some s → ∃ t, new = some t ∧ s.Later t ∧ (s.Consistent → t.Consistent) ∧
    t.fastSwaps + t.invalidations = s.fastSwaps + s.invalidations + swaps
  fresh : old = none → (new = none → swaps = 0) ∧
    ∀ t, new = some t → t.Consistent ∧ t.fastSwaps + t.invalidations = swaps

theorem Advances.refl (o : Option CallSite) : Advances 0 o o where
  later s hs := ⟨s, hs, .refl s, id, rfl⟩
  fresh hn := ⟨fun _ => rfl, fun t ht => by simp [hn] at ht⟩

theorem Advances.trans {m n : Nat} {o p q : Option CallSite} (h : Advances m o p)
    (h' : Advances n p q) : Advances (m + n) o q where
  later s hs := by
    obtain ⟨t, ht, hst, hc, hn⟩ := h.later s hs
    obtain ⟨u, hu, htu, hc', hn'⟩ := h'.later t ht
    exact ⟨u, hu, hst.trans htu, hc' ∘ hc, by omega⟩
  fresh ho := by
    obtain ⟨h0, h1⟩ := h.fresh ho
    cases p with
    | none =>
      obtain ⟨h0', h1'⟩ := h'.fresh rfl
      have := h0 rfl
      refine ⟨fun hq => ?_, fun u hu => ?_⟩
      · have := h0' hq
        omega
      · obtain ⟨hc, hn⟩ := h1' u hu
        exact ⟨hc, by omega⟩
    | some t =>
      obtain ⟨hc, hn⟩ := h1 t rfl
      obtain ⟨u, hu, -, hc', hn'⟩ := h'.later t rfl
      refine ⟨fun hq => by simp [hu] at hq, fun v hv => ?_⟩
      obtain rfl : u = v := by simpa [hu] using hv
      exact ⟨hc' hc, by omega⟩

namespace Store

theorem advances_push {sites : Array CallSite} {site : CallSite} (hc : site.Consistent)
    (hn : site.fastSwaps + site.invalidations = 0) (id : SiteId) :
    Advances 0 sites[id]? (sites.push site)[id]? := by
  rw [Array.getElem?_push]
  split
  · next h =>
    refine ⟨fun s hs => ?_, fun _ => ⟨fun _ => rfl, fun t ht => ?_⟩⟩
    · simp [h] at hs
    · obtain rfl : site = t := by simpa using ht
      exact ⟨hc, hn⟩
  · exact .refl _

theorem advances_set {sites : Array CallSite} {i : SiteId} {s t : CallSite} {n : Nat}
    (hi : sites[i]? = some s) (hst : s.Later t) (hc : s.Consistent → t.Consistent)
    (hn : t.fastSwaps + t.invalidations = s.fastSwaps + s.invalidations + n) (id : SiteId) :
    Advances (if i = id then n else 0) sites[id]? (sites.setIfInBounds i t)[id]? := by
  by_cases h : i = id
  · subst h
    have hlt : i < sites.size := (Array.getElem?_eq_some_iff.1 hi).1
    rw [if_pos rfl, Array.getElem?_setIfInBounds_self_of_lt hlt]
    refine ⟨fun s' hs' => ⟨t, rfl, ?_⟩, fun hn => by simp [hi] at hn⟩
    obtain rfl : s = s' := by simpa [hi] using hs'
    exact ⟨hst, hc, hn⟩
  · rw [if_neg h, Array.getElem?_setIfInBounds_ne h]
    exact .refl _

/-- How often a step with its answer retargets a site: once or not at all. -/
def swaps (id : SiteId) (e : SiteOp × SiteReply) : Nat := if retargets id e then 1 else 0

theorem bindTarget_eq_ok {s s' : Store} {i : SiteId} {h : Handle}
    (hb : s.bindTarget i h = .ok s') : ∃ old new, s.sites[i]? = some old ∧
      old.bind h = .ok new ∧ s' = { s with sites := s.sites.setIfInBounds i new } := by
  unfold bindTarget at hb
  split at hb
  · cases hb
  · next old hi =>
    split at hb
    · cases hb
    · next new hn =>
      cases hb
      exact ⟨old, new, hi, hn, rfl⟩

theorem setTarget_eq_ok {s s' : Store} {i : SiteId} {h : Handle}
    (hr : s.setTarget i h = .ok s') : ∃ old new inPlace, s.sites[i]? = some old ∧
      old.setTarget h = .ok (new, inPlace) ∧ s'.sites = s.sites.setIfInBounds i new := by
  unfold setTarget at hr
  split at hr
  · cases hr
  · next old hi =>
    split at hr
    · cases hr
    · next new inPlace hn =>
      cases hr
      exact ⟨old, new, inPlace, hi, hn, rfl⟩

/-- A site hands out an invoker, but a constant one its target. -/
theorem dynamicInvoker_eq_ok {s : Store} {i : SiteId} {stamp : Stamp} {h : Handle}
    (hmade : s.dynamicInvoker i stamp = .ok h) :
    s.getTarget i = .ok h ∨
      ∃ site, s.sites[i]? = some site ∧ site.kind ≠ .constant ∧ h = ⟨stamp, site.type, .invoker i⟩ := by
  unfold dynamicInvoker at hmade
  split at hmade
  · cases hmade
  next site hsite =>
  unfold CallSite.dynamicInvoker at hmade
  split at hmade
  · left
    rw [getTarget, hsite]
    exact hmade
  · next hkind => exact .inr ⟨site, hsite, hkind, (Except.ok.inj hmade).symm⟩

/-- What one step does to one site. -/
theorem advances_serve (s : Store) (op : SiteOp) (id : SiteId) :
    Advances (swaps id (op, (s.serve op).1)) s.sites[id]? (s.serve op).2.sites[id]? := by
  cases op with
  | make kind target => exact advances_push (CallSite.consistent_ofTarget kind target) rfl id
  | makeUnlinked stamp kind type =>
    exact advances_push (CallSite.consistent_unlinked stamp kind type) rfl id
  | makeUnbound type => exact advances_push (CallSite.consistent_unbound type) rfl id
  | bind i target =>
    cases hb : s.bindTarget i target with
    | error e => simpa [serve, settle, hb, swaps, retargets] using Advances.refl _
    | ok s' =>
      obtain ⟨old, new, hi, hn, rfl⟩ := bindTarget_eq_ok hb
      have hcount : new.fastSwaps + new.invalidations = old.fastSwaps + old.invalidations + 0 := by
        obtain ⟨-, -, rfl⟩ := CallSite.bind_eq_ok hn
        rfl
      have := advances_set hi (.of_bind hn) (fun hc => hc.bind hn) hcount id
      simpa [serve, settle, hb, swaps, retargets] using this
  | setTarget i target =>
    cases hr : s.setTarget i target with
    | error e => simpa [serve, settle, hr, swaps, retargets] using Advances.refl _
    | ok s' =>
      obtain ⟨old, new, inPlace, hi, hn, hs'⟩ := setTarget_eq_ok hr
      have := advances_set hi (.of_setTarget hn) (fun hc => hc.setTarget hn)
        (CallSite.count_setTarget hn) id
      simpa [serve, settle, hr, swaps, retargets, hs'] using this
  | getTarget i => exact .refl _
  | dynamicInvoker i stamp => exact .refl _
  | elsewhere work => exact .refl _

/-! ## A whole history -/

/-- What a list of steps does to one site. -/
theorem advances_after (s : Store) (ops : List SiteOp) (id : SiteId) :
    Advances ((s.history ops).countP (retargets id)) s.sites[id]? (s.after ops).sites[id]? := by
  induction ops generalizing s with
  | nil => exact .refl _
  | cons op ops ih =>
    have h := (advances_serve s op id).trans (ih (s.serve op).2)
    rw [history, List.countP_cons, Nat.add_comm]
    exact h

theorem after_of_none {s : Store} {ops : List SiteOp} {id : SiteId} {site : CallSite}
    (hs : s.sites[id]? = none) (hsite : (s.after ops).sites[id]? = some site) :
    site.Consistent ∧
      site.fastSwaps + site.invalidations = (s.history ops).countP (retargets id) :=
  ((advances_after s ops id).fresh hs).2 site hsite

/-- A refused retargeting leaves the whole store as it was, whatever the reason. -/
theorem serve_setTarget_of_error {s : Store} {id : SiteId} {h : Handle} {e : Error}
    (he : s.setTarget id h = .error e) : s.serve (.setTarget id h) = (.refused e, s) := by
  rw [serve, he]
  rfl

theorem setTarget_of_constant {s : Store} {id : SiteId} {site : CallSite}
    (hs : s.sites[id]? = some site) (hc : site.kind = .constant) (h : Handle) :
    s.setTarget id h = .error .constantSite := by
  simp [setTarget, hs, CallSite.setTarget, hc]

end Store

theorem CallSite.getTarget_eq_ok_iff {s : CallSite} {h : Handle} :
    s.getTarget = .ok h ↔ s.target = some h := by
  unfold getTarget
  split <;> simp_all

/-- **The epoch of a call site tracks what it does.** Take a site at any moment of any history that
began without sites, and look at it again after any further steps. It has kept its kind and its
signature, its target has that signature, and all its successful retargetings have been counted. A
constant site still has the target it had and refuses any other. If the epoch is the same, the two
targets are equivalent. -/
theorem epoch_tracks_target (s : Store) (hs : s.sites = #[]) (before between : List SiteOp)
    (id : SiteId) (site : CallSite) (hsite : (s.after before).sites[id]? = some site) :
    let now := s.after (before ++ between)
    ∃ later, now.sites[id]? = some later ∧
      later.kind = site.kind ∧ later.type = site.type ∧
      (∀ h, later.getTarget = .ok h → h.type = site.type) ∧
      (site.kind ≠ .constant → ∃ h, later.getTarget = .ok h) ∧
      later.fastSwaps + later.invalidations =
        (s.history (before ++ between)).countP (retargets id) ∧
      later.epoch = later.invalidations ∧
      (site.kind = .constant →
        (∀ h, site.getTarget = .ok h → later.getTarget = .ok h) ∧
        ∀ h, ∃ e, now.setTarget id h = .error e ∧ e.kind = .unsupportedOperation) ∧
      (∀ h e, now.setTarget id h = .error e →
        now.serve (.setTarget id h) = (.refused e, now)) ∧
      (later.epoch = site.epoch → ∀ h k, site.getTarget = .ok h → later.getTarget = .ok k →
        h.isEquivalent k = true ∧ k.isEquivalent h = true) := by
  intro now
  have hnone : s.sites[id]? = none := by simp [hs]
  -- between the two moments the site moves on
  obtain ⟨later, hlater, hmove, -, -⟩ :=
    (Store.advances_after (s.after before) between id).later site hsite
  rw [← Store.after_append] at hlater
  -- since the beginning it has kept its invariant
  obtain ⟨hc, hcount⟩ := Store.after_of_none hnone hlater
  have hkind : ∀ k, site.kind = k → later.kind = k := fun k hk => hmove.kind_eq.trans hk
  refine ⟨later, hlater, hmove.kind_eq, hmove.type_eq, ?_, ?_, hcount, hc.epoch_eq, ?_, ?_, ?_⟩
  · intro h hh
    rw [← hmove.type_eq]
    exact hc.type_target h (CallSite.getTarget_eq_ok_iff.1 hh)
  · intro hk
    have hsome := hc.isSome_target (by rwa [hmove.kind_eq])
    obtain ⟨h, hh⟩ := Option.isSome_iff_exists.1 hsome
    exact ⟨h, CallSite.getTarget_eq_ok_iff.2 hh⟩
  · intro hk
    refine ⟨fun h hh => ?_, fun h => ?_⟩
    · have hh := CallSite.getTarget_eq_ok_iff.1 hh
      exact CallSite.getTarget_eq_ok_iff.2 (hmove.constant hk h hh)
    · exact ⟨_, Store.setTarget_of_constant hlater (hkind _ hk) h, rfl⟩
  · exact fun h e he => Store.serve_setTarget_of_error he
  · intro he h k hh hk
    have hh := CallSite.getTarget_eq_ok_iff.1 hh
    have hk := CallSite.getTarget_eq_ok_iff.1 hk
    have hhk := hmove.equivalent he h k hh hk
    rw [Handle.isEquivalent_eq, Handle.isEquivalent_eq]
    exact ⟨hhk, Handle.equivalent_symm hhk⟩

/-- A site that is retargeted, then swapped in place, then refuses a handle of another
signature. -/
theorem epoch_tracks_target_of_swaps :
    let type : Signature := ⟨[.prim .int], .prim .int, by decide, by decide⟩
    let other : Signature := ⟨[], .void, by decide, by decide⟩
    let before := [SiteOp.make .mutable ⟨0, type, .unlinked "later"⟩,
      .setTarget 0 ⟨1, type, .identity⟩]
    let between := [SiteOp.setTarget 0 ⟨2, type, .identity⟩, .setTarget 0 ⟨3, other, .identity⟩,
      .getTarget 0]
    ∃ later, (Store.initial.after (before ++ between)).sites[0]? = some later ∧
      later.fastSwaps + later.invalidations = 2 ∧ later.epoch = later.invalidations ∧
      later.epoch = 1 ∧
      ∀ k, later.getTarget = .ok k → Handle.isEquivalent ⟨1, type, .identity⟩ k = true := by
  intro type other before between
  obtain ⟨later, hl, -, -, -, -, hcount, hepoch, -, -, heq⟩ :=
    epoch_tracks_target Store.initial rfl before between 0
      ⟨.mutable, type, some ⟨1, type, .identity⟩, 1, 0, 1⟩ rfl
  have hone : later.epoch = 1 := by
    have h : some later = some ⟨.mutable, type, some ⟨2, type, .identity⟩, 1, 1, 1⟩ :=
      hl.symm.trans rfl
    cases h
    rfl
  refine ⟨later, hl, hcount, hepoch, hone, fun k hk => ?_⟩
  exact (heq hone _ k rfl hk).1

end HandleCalculus
