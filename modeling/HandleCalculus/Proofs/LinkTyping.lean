import HandleCalculus.Proofs.CombinatorTyping
import HandleCalculus.Proofs.Entries
import HandleCalculus.Proofs.MemberNames
import HandleCalculus.Proofs.StoreTyping

/-!
# Making handles keeps the machine typed

A machine is typed if its store is, if the thunks it keeps are for the keys they are kept under, and
if the handles it remembers are typed (`Machine.Typed`). Look-ups and adaptations keep it so and make
typed handles (`Link.Yields`), whatever the machine has remembered.
-/

set_option autoImplicit false

namespace HandleCalculus

/-- Whether a handle is that of a use of a member that comes under the key. -/
def MemberKey.Keeps (G : ClassGraph) (k : MemberKey) (h : Handle) : Prop :=
  ∃ (u : Use) (s : Stamp), G.UsesMember u ∧ u.key? G = some k ∧ h = u.handle G k.type s

/-- Whether the store is typed and what the machine remembers is as it should be: each thunk is for
its key, each handle is typed, and the member cache has handles of uses under their keys. -/
structure Machine.Typed (G : ClassGraph) (W : Extent) (m : Machine) : Prop where
  store : m.store.Typed G W
  cells : ∀ k t, m.cells.lookup k = some t → t.key = k.2
  thunks : ∀ k t, m.thunks.cache.peek? k = some t → t.key = k
  collectors : ∀ cell n h, m.collectors.lookup cell = some (n, h) → h.Typed G W
  members : ∀ k h, m.members.find? k = some h → k.Keeps G h

theorem Machine.Typed.report {G : ClassGraph} {W : Extent} {m : Machine} (hm : m.Typed G W)
    (e : Event) : (m.report e).Typed G W := by
  have hstore : (m.store.report e).Typed G W :=
    ⟨hm.store.holds.of_slots rfl rfl rfl, hm.store.extent, hm.store.targets⟩
  exact ⟨hstore, hm.cells, hm.thunks, hm.collectors, hm.members⟩

/-- The member cache may be another one with handles of uses under their keys. -/
theorem Machine.Typed.withMembers {G : ClassGraph} {W : Extent} {m : Machine} (hm : m.Typed G W)
    (next : Stamp) {members : MemberCache}
    (hmembers : ∀ k h, members.find? k = some h → k.Keeps G h) :
    ({ m with members := members, nextStamp := next } : Machine).Typed G W :=
  ⟨hm.store, hm.cells, hm.thunks, hm.collectors, hmembers⟩

/-- Whether the computation keeps the machine typed, and what it makes has the property. -/
def Link.Yields {α : Type} (G : ClassGraph) (W : Extent) (x : Link α) (Q : α → Prop) : Prop :=
  ∀ m : Machine, m.Typed G W →
    match x m with
    | .ok a m' => m'.Typed G W ∧ Q a
    | .error _ m' => m'.Typed G W

namespace Link.Yields

variable {α β : Type} {G : ClassGraph} {W : Extent} {Q : α → Prop} {R : β → Prop}

theorem bind {x : Link α} {f : α → Link β} (hx : Link.Yields G W x Q)
    (hf : ∀ a, Q a → Link.Yields G W (f a) R) : Link.Yields G W (x >>= f) R := by
  intro m hm
  have hstep := hx m hm
  show match EStateM.bind x f m with
    | .ok a m' => m'.Typed G W ∧ R a
    | .error _ m' => m'.Typed G W
  unfold EStateM.bind
  cases hxm : x m with
  | ok a m' =>
    rw [hxm] at hstep
    exact hf a hstep.2 m' hstep.1
  | error e m' =>
    rw [hxm] at hstep
    exact hstep

theorem mono {R : α → Prop} {x : Link α} (hx : Link.Yields G W x Q) (hQR : ∀ a, Q a → R a) :
    Link.Yields G W x R := by
  intro m hm
  have hstep := hx m hm
  cases hxm : x m with
  | ok a m' =>
    rw [hxm] at hstep
    exact ⟨hstep.1, hQR a hstep.2⟩
  | error e m' =>
    rw [hxm] at hstep
    exact hstep

theorem pure {a : α} (h : Q a) : Link.Yields G W (Pure.pure a) Q := fun _ hm => ⟨hm, h⟩

theorem throw (e : Error) : Link.Yields G W (throw e) Q := fun _ hm => hm

theorem ofExcept (x : Except Error α) : Link.Yields G W (Link.ofExcept x) (fun a => x = .ok a) := by
  intro m hm
  cases x with
  | ok a => exact ⟨hm, rfl⟩
  | error e => exact hm

theorem report (e : Event) : Link.Yields G W (Link.report e) (fun _ => True) :=
  fun _ hm => ⟨hm.report e, trivial⟩

theorem build {f : Stamp → Except Error Handle} {P : Handle → Prop}
    (h : ∀ s a, f s = .ok a → P a) : Link.Yields G W (Link.build f) P := by
  intro m hm
  unfold Link.build
  cases hf : f m.nextStamp with
  | ok a =>
    exact ⟨hm.withMembers _ hm.members, h _ a hf⟩
  | error e => exact hm

end Link.Yields

/-! ## Variable arity -/

theorem yields_freshCollector {G : ClassGraph} {W : Extent} {target : Handle}
    (ht : target.Typed G W) (array : Ty) (cell : Stamp) (count : Nat) :
    Link.Yields G W (freshCollector G target array cell count) (Handle.Typed G W) := by
  have hbuild : Link.Yields G W (Link.build fun s => target.asCollector G s array count)
      (Handle.Typed G W) := .build fun s a ha => Handle.typed_asCollector ht ha
  intro m hm
  have hstep := hbuild m hm
  unfold freshCollector
  cases hmade : Link.build (fun s => target.asCollector G s array count) m with
  | error e m' =>
    rw [hmade] at hstep
    exact hstep
  | ok h m' =>
    rw [hmade] at hstep
    obtain ⟨hm', hh⟩ := hstep
    have hcollectors : ∀ k e, ((cell, count, h) :: m'.collectors).lookup k = some e →
        e.2.Typed G W := forall_lookup_cons (fun k e => hm'.collectors k e.1 e.2) hh
    exact ⟨⟨hm'.store, hm'.cells, hm'.thunks, fun k n h' => hcollectors k (n, h'), hm'.members⟩, hh⟩

theorem yields_collectorFor {G : ClassGraph} {W : Extent} {target : Handle}
    (ht : target.Typed G W) (array : Ty) (cell : Stamp) (count : Nat) :
    Link.Yields G W (collectorFor G target array cell count) (Handle.Typed G W) := by
  have hfresh := yields_freshCollector ht array cell count
  intro m hm
  unfold collectorFor
  cases hfound : m.collectors.lookup cell with
  | none => exact hfresh m hm
  | some found =>
    obtain ⟨n, h⟩ := found
    dsimp only
    by_cases hn : n = count
    · rw [if_pos hn]
      exact ⟨hm, hm.collectors cell n h hfound⟩
    · rw [if_neg hn]
      exact hfresh m hm

/-- A handle seen under another signature is typed. -/
theorem yields_asType {G : ClassGraph} {W : Extent} {h : Handle} (ht : h.Typed G W)
    (new : Signature) : Link.Yields G W (h.asType G new) (Handle.Typed G W) := by
  have hconvert : ∀ t : Handle, t.Typed G W →
      Link.Yields G W (Link.build fun s => t.convertTo G s new) (Handle.Typed G W) :=
    fun t ht => .build fun s a ha => Handle.typed_convertTo ht ha
  unfold Handle.asType
  split
  · exact .pure ht
  split
  · next target array cell hnode =>
    have htarget : target.Typed G W := by
      have hfixed := Handle.typed_asFixedArity ht
      rwa [Handle.asFixedArity, hnode] at hfixed
    extract_lets passesArray
    cases passesArray with
    | true => exact hconvert target htarget
    | false =>
      rw [if_neg Bool.false_ne_true]
      split
      · exact fun m hm => hm
      · refine .bind (yields_collectorFor htarget array cell _) fun c hc => ?_
        exact hconvert c hc
  · exact hconvert h ht

end HandleCalculus
