import HandleCalculus.Proofs.CombinatorNodes
import HandleCalculus.Proofs.EquivalentCalls

/-!
# What variable-arity handles remember

A variable-arity handle remembers the collector that it made last, under a cell of its own. Handles
made from it by looking at it under another signature share the cell, and with it the target and the
array (`Handle.Registered`). So what is found in a cell is always a collector of the handle's own
target (`Machine.Registers`), whichever of the handles has left it there.

Look-ups and adaptations keep a machine so and make handles that are registered (`Link.Registers`), each
with the cells that it adds.
-/

set_option autoImplicit false

namespace HandleCalculus

/-! ## Cells -/

/-- The target and the array of the variable-arity handles of each cell. -/
abbrev Cells := Stamp → Option (Handle × Ty)

/-- Whether one table of cells has all that the other has. -/
def Cells.Extends (T T' : Cells) : Prop := ∀ cell p, T cell = some p → T' cell = some p

/-- Whether the cell of a variable-arity handle is its target's and array's, the target being of fixed
arity. -/
def Handle.Registered (T : Cells) (h : Handle) : Prop :=
  ∀ k array cell, h.node = .varargs k array cell → k.isVarargs = false ∧ T cell = some (k, array)

theorem Handle.isVarargs_eq_false_iff {h : Handle} :
    h.isVarargs = false ↔ ∀ k array cell, h.node ≠ .varargs k array cell := by
  unfold isVarargs
  cases h.node <;> simp

namespace Handle.Registered

variable {T T' : Cells} {h h' : Handle}

theorem of_fixed (hfixed : h.isVarargs = false) : h.Registered T :=
  fun k array cell hnode => absurd hnode (isVarargs_eq_false_iff.1 hfixed k array cell)

theorem congr (hr : h.Registered T) (hnode : h'.node = h.node) : h'.Registered T :=
  fun k array cell hn => hr k array cell (hnode.symm.trans hn)

theorem extend (hr : h.Registered T) (hT : T.Extends T') : h.Registered T' :=
  fun k array cell hn => ⟨(hr k array cell hn).1, hT cell _ (hr k array cell hn).2⟩

/-- The target of a variable-arity handle is of fixed arity. -/
theorem asFixedArity (hr : h.Registered T) : h.asFixedArity.isVarargs = false := by
  unfold Handle.asFixedArity
  split
  · next k array cell hnode => exact (hr k array cell hnode).1
  · next hnode => exact isVarargs_eq_false_iff.2 hnode

end Handle.Registered

/-- Whether a handle can be got out of another one again: it is the target of one of variable arity,
which can be taken at fixed arity, or of a reordering, which another one can undo. -/
inductive Handle.Opens (h k : Handle) : Prop where
  | varargs {array : Ty} {cell : Stamp} (hnode : h.node = .varargs k array cell) : Opens h k
  | permute {order : List Nat} (hnode : h.node = .permute k order) : Opens h k

/-- Whether nothing can be got out of a handle. -/
def Handle.Solid (h : Handle) : Prop := ∀ k, ¬ h.Opens k

namespace Handle

variable {h h' k : Handle}

theorem Opens.congr (hk : h'.Opens k) (hnode : h'.node = h.node) : h.Opens k := by
  cases hk with
  | varargs hk => exact .varargs (hnode.symm.trans hk)
  | permute hk => exact .permute (hnode.symm.trans hk)

theorem Opens.unique {k' : Handle} (hk : h.Opens k) (hk' : h.Opens k') : k = k' := by
  cases hk with
  | varargs hnode =>
    cases hk' with
    | varargs hnode' =>
      cases hnode.symm.trans hnode'
      rfl
    | permute hnode' => cases hnode.symm.trans hnode'
  | permute hnode =>
    cases hk' with
    | varargs hnode' => cases hnode.symm.trans hnode'
    | permute hnode' =>
      cases hnode.symm.trans hnode'
      rfl

theorem Solid.isVarargs (hsolid : h.Solid) : h.isVarargs = false :=
  isVarargs_eq_false_iff.2 fun k _ _ hnode => hsolid k (.varargs hnode)

theorem solid_of_variant (hvarargs : h.variant ≠ .varargs) (hpermute : h.variant ≠ .permute) :
    h.Solid := by
  intro k hk
  cases hk with
  | varargs hnode =>
    refine hvarargs ?_
    rw [variant, hnode]
    rfl
  | permute hnode =>
    refine hpermute ?_
    rw [variant, hnode]
    rfl

theorem Solid.asFixedArity (hsolid : h.Solid) : h.asFixedArity.Solid := by
  have hsame : h.asFixedArity = h := by
    unfold Handle.asFixedArity
    split
    · next k array cell hnode => exact absurd (.varargs hnode) (hsolid k)
    · rfl
  rw [hsame]
  exact hsolid

theorem solid_congr (hnode : h'.node = h.node) (hsolid : h.asFixedArity.Solid) :
    h'.asFixedArity.Solid := by
  unfold Handle.asFixedArity at hsolid ⊢
  rw [hnode]
  split
  · next k array cell hvarargs =>
    rw [hvarargs] at hsolid
    exact hsolid
  · next hfixed =>
    have hsame : h.Solid := by
      split at hsolid
      · next k array cell hvarargs => exact absurd hvarargs (hfixed k array cell)
      · exact hsolid
    exact fun k hk => hsame k (hk.congr hnode)

/-- If what is left of a handle at fixed arity holds nothing to be got out, then what can be got out of
the handle does not either. -/
theorem Opens.solid (hk : h.Opens k) (hsolid : h.asFixedArity.Solid) : k.Solid := by
  unfold Handle.asFixedArity at hsolid
  cases hk with
  | varargs hnode =>
    rw [hnode] at hsolid
    exact hsolid
  | permute hnode =>
    rw [hnode] at hsolid
    exact absurd (.permute hnode) (hsolid k)

end Handle

/-- Whether a handle has been made for some use of the kind and with the signature of a key. -/
def MemberKey.Makes (G : ClassGraph) (key : MemberKey) (h : Handle) : Prop :=
  ∃ (u : Use) (s : Stamp), u.kind = key.kind ∧ h = u.handle G key.type s

/-- Whether the handles listed and those of the member cache are registered, the latter made for their
keys, and whatever is remembered in a cell is a collector of its target. -/
structure Machine.Registers (G : ClassGraph) (T : Cells) (m : Machine) (hs : List Handle) : Prop where
  unused : ∀ cell, m.nextStamp ≤ cell → T cell = none
  handles : ∀ h ∈ hs, h.Registered T
  members : ∀ key h, m.members.find? key = some h → h.Registered T ∧ key.Makes G h
  collectors : ∀ cell n h, m.collectors.lookup cell = some (n, h) →
    ∃ k array s, T cell = some (k, array) ∧ k.asCollector G s array n = .ok h

namespace Machine.Registers

variable {G : ClassGraph} {T T' : Cells} {m : Machine} {hs hs' : List Handle}

theorem of_subset (hm : m.Registers G T hs) (hsub : ∀ h ∈ hs', h ∈ hs) : m.Registers G T hs' :=
  ⟨hm.unused, fun h hh => hm.handles h (hsub h hh), hm.members, hm.collectors⟩

theorem cons (hm : m.Registers G T hs) {h : Handle} (hh : h.Registered T) :
    m.Registers G T (h :: hs) := by
  refine ⟨hm.unused, fun k hk => ?_, hm.members, hm.collectors⟩
  rcases List.mem_cons.1 hk with rfl | hk
  · exact hh
  · exact hm.handles k hk

/-- Only what is remembered matters, and that identities are not used twice. -/
theorem congr {n : Machine} (hm : m.Registers G T hs) (hmembers : n.members = m.members)
    (hcollectors : n.collectors = m.collectors) (hstamp : m.nextStamp ≤ n.nextStamp) :
    n.Registers G T hs := by
  refine ⟨fun cell hcell => hm.unused cell (Nat.le_trans hstamp hcell), hm.handles, ?_, ?_⟩
  · rw [hmembers]
    exact hm.members
  · rw [hcollectors]
    exact hm.collectors

/-- A cell that is new to the table is given to a target and an array. -/
theorem register (hm : m.Registers G T hs) (k : Handle) (array : Ty) (n : Stamp)
    (hn : m.nextStamp < n) : ∃ T', T.Extends T' ∧ T' m.nextStamp = some (k, array) ∧
      ({ m with nextStamp := n } : Machine).Registers G T' hs := by
  let T' : Cells := fun cell => if cell = m.nextStamp then some (k, array) else T cell
  have hT : T.Extends T' := by
    intro cell p hp
    refine (if_neg ?_).trans hp
    rintro rfl
    cases (hm.unused _ (Nat.le_refl _)).symm.trans hp
  refine ⟨T', hT, if_pos rfl, ⟨fun cell hcell => ?_, fun h hh => (hm.handles h hh).extend hT, ?_, ?_⟩⟩
  · have hcell : n ≤ cell := hcell
    have hlt : m.nextStamp < cell := Nat.lt_of_lt_of_le hn hcell
    exact (if_neg (Nat.ne_of_gt hlt)).trans (hm.unused cell (Nat.le_of_lt hlt))
  · intro key h hfind
    exact ⟨(hm.members key h hfind).1.extend hT, (hm.members key h hfind).2⟩
  · intro cell c h hfind
    obtain ⟨k', array', s, hcell, hmade⟩ := hm.collectors cell c h hfind
    exact ⟨k', array', s, hT cell _ hcell, hmade⟩

end Machine.Registers

/-! ## Making handles -/

/-- Whether the computation leaves a machine that registers what it did, and makes a registered handle
with the property. -/
def Link.Registers (G : ClassGraph) (T : Cells) (hs : List Handle) (x : Link Handle)
    (Q : Handle → Prop) : Prop :=
  ∀ m : Machine, m.Registers G T hs → ∃ T', T.Extends T' ∧
    match x m with
    | .ok h m' => m'.Registers G T' (h :: hs) ∧ Q h
    | .error _ m' => m'.Registers G T' hs

/-- Whether a handle is one that a computation may make under the identity: of fixed arity, of the node
of a handle at hand, or of variable arity with the identity as its cell. -/
def Handle.NewUnder (s : Stamp) (hs : List Handle) (h : Handle) : Prop :=
  h.isVarargs = false ∨ (∃ k ∈ hs, h.node = k.node) ∨
    ∃ k array, k.isVarargs = false ∧ h.node = .varargs k array s

theorem Cells.Extends.refl (T : Cells) : T.Extends T := fun _ _ h => h

theorem Cells.Extends.trans {T T' T'' : Cells} (h : T.Extends T') (h' : T'.Extends T'') :
    T.Extends T'' := fun cell p hp => h' cell p (h cell p hp)

namespace Link.Registers

variable {G : ClassGraph} {T : Cells} {hs : List Handle} {x : Link Handle} {Q R : Handle → Prop}

theorem pure {h : Handle} (hh : h ∈ hs) (hQ : Q h) : Link.Registers G T hs (Pure.pure h) Q :=
  fun _ hm => ⟨T, .refl T, hm.cons (hm.handles h hh), hQ⟩

theorem bind {f : Handle → Link Handle} (hx : Link.Registers G T hs x Q)
    (hf : ∀ T' h, T.Extends T' → h.Registered T' → Q h → Link.Registers G T' (h :: hs) (f h) R) :
    Link.Registers G T hs (x >>= f) R := by
  intro m hm
  obtain ⟨T', hT, hstep⟩ := hx m hm
  show ∃ T', T.Extends T' ∧ match EStateM.bind x f m with
    | .ok h m' => m'.Registers G T' (h :: hs) ∧ R h
    | .error _ m' => m'.Registers G T' hs
  unfold EStateM.bind
  cases hxm : x m with
  | error e m' =>
    rw [hxm] at hstep
    exact ⟨T', hT, hstep⟩
  | ok h m' =>
    rw [hxm] at hstep
    obtain ⟨hm', hQ⟩ := hstep
    obtain ⟨T'', hT', hstep'⟩ := hf T' h hT (hm'.handles h List.mem_cons_self) hQ m' hm'
    refine ⟨T'', hT.trans hT', ?_⟩
    show match f h m' with
      | .ok h m' => m'.Registers G T'' (h :: hs) ∧ R h
      | .error _ m' => m'.Registers G T'' hs
    -- the handle of the first step need not be kept
    generalize f h m' = r at hstep'
    cases r with
    | ok k m'' =>
      refine ⟨hstep'.1.of_subset fun g hg => ?_, hstep'.2⟩
      rcases List.mem_cons.1 hg with rfl | hg
      · exact List.mem_cons_self
      · exact List.mem_cons_of_mem _ (List.mem_cons_of_mem _ hg)
    | error e m'' => exact hstep'.of_subset fun g hg => List.mem_cons_of_mem _ hg

theorem build {f : Stamp → Except Error Handle}
    (hf : ∀ s h, f s = .ok h → h.NewUnder s hs ∧ Q h) :
    Link.Registers G T hs (Link.build f) Q := by
  intro m hm
  unfold Link.build
  cases hfm : f m.nextStamp with
  | error e => exact ⟨T, .refl T, hm⟩
  | ok h =>
    obtain ⟨hnew, hQ⟩ := hf _ h hfm
    have hlater : ({ m with nextStamp := m.nextStamp + 2 } : Machine).Registers G T hs :=
      hm.congr rfl rfl (Nat.le_add_right _ _)
    rcases hnew with hfixed | ⟨k, hk, hnode⟩ | ⟨k, array, hfixed, hnode⟩
    · exact ⟨T, .refl T, hlater.cons (.of_fixed hfixed), hQ⟩
    · exact ⟨T, .refl T, hlater.cons ((hm.handles k hk).congr hnode), hQ⟩
    · obtain ⟨T', hT, hcell, hm'⟩ :=
        hm.register k array (m.nextStamp + 2) (Nat.lt_add_of_pos_right (by decide))
      refine ⟨T', hT, hm'.cons fun k' array' cell hn => ?_, hQ⟩
      obtain ⟨rfl, rfl, rfl⟩ : k = k' ∧ array = array' ∧ m.nextStamp = cell := by
        simpa using hnode.symm.trans hn
      exact ⟨hfixed, hcell⟩

end Link.Registers

/-! ## Adaptation -/

namespace Handle

variable {G : ClassGraph} {T : Cells} {hs : List Handle} {h h' : Handle} {s : Stamp}

theorem isVarargs_of_node (hnode : h'.node = h.node) : h'.isVarargs = h.isVarargs := by
  rw [isVarargs, isVarargs, hnode]

theorem isVarargs_convertTo (hfixed : h.isVarargs = false) {new : Signature}
    (hmade : h.convertTo G s new = .ok h') : h'.isVarargs = false := by
  rcases convertTo_eq_ok hmade with rfl | ⟨args, ret, -, -, -, ⟨-, -, hretype⟩ | rfl⟩
  · exact hfixed
  · exact (isVarargs_of_node (retype_eq_ok hretype).1).trans hfixed
  · rfl

theorem isVarargs_asCollector {array : Ty} {count : Nat}
    (hmade : h.asCollector G s array count = .ok h') : h'.isVarargs = false := by
  obtain ⟨pos, hmade⟩ := asCollectorAt_of_asCollector hmade
  obtain ⟨c, t, -, -, -, hnode, -⟩ := asCollectorAt_eq_ok hmade
  rw [isVarargs, hnode]

theorem newUnder_asVarargsCollector (hr : h.Registered T) (hh : h ∈ hs) {array : Ty}
    (hmade : h.asVarargsCollector G s array = .ok h') : h'.NewUnder s hs := by
  rcases asVarargsCollector_eq_ok hmade with rfl | rfl
  · exact .inr (.inl ⟨h', hh, rfl⟩)
  · exact .inr (.inr ⟨h.asFixedArity, array, hr.asFixedArity, rfl⟩)

/-- What a handle seen under a signature can be: the handle, a conversion of it, or for a handle of
variable arity a conversion of its target, or of a collector on its target. -/
inductive SeenAs (G : ClassGraph) (h : Handle) (new : Signature) : Handle → Prop where
  | same (htype : new = h.type) : SeenAs G h new h
  | converted {h' : Handle} {s : Stamp} (hfixed : h.isVarargs = false)
      (hmade : h.convertTo G s new = .ok h') : SeenAs G h new h'
  | passed {k h' : Handle} {array : Ty} {cell s : Stamp} (hnode : h.node = .varargs k array cell)
      (hmade : k.convertTo G s new = .ok h') : SeenAs G h new h'
  | collected {k c h' : Handle} {array : Ty} {cell s s' : Stamp} {count : Nat}
      (hnode : h.node = .varargs k array cell) (hcollector : k.asCollector G s array count = .ok c)
      (hmade : c.convertTo G s' new = .ok h') : SeenAs G h new h'

end Handle

section Collectors

variable {G : ClassGraph} {T : Cells} {hs : List Handle} {k : Handle} {array : Ty} {cell : Stamp}

theorem registers_freshCollector (hcell : T cell = some (k, array)) (count : Nat) :
    Link.Registers G T hs (freshCollector G k array cell count)
      (fun c => ∃ s, k.asCollector G s array count = .ok c) := by
  intro m hm
  have hbuild : Link.Registers G T hs (Link.build fun s => k.asCollector G s array count)
      (fun c => ∃ s, k.asCollector G s array count = .ok c) :=
    .build fun s c hc => ⟨.inl (Handle.isVarargs_asCollector hc), s, hc⟩
  obtain ⟨T', hT, hstep⟩ := hbuild m hm
  refine ⟨T', hT, ?_⟩
  unfold freshCollector
  cases hmade : Link.build (fun s => k.asCollector G s array count) m with
  | error e m' =>
    rw [hmade] at hstep
    exact hstep
  | ok c m' =>
    rw [hmade] at hstep
    obtain ⟨hm', s, hc⟩ := hstep
    refine ⟨⟨hm'.unused, hm'.handles, hm'.members, fun cell' n h hfind => ?_⟩, s, hc⟩
    rcases lookup_cons_cases hfind with ⟨rfl, heq⟩ | hold
    · obtain ⟨rfl, rfl⟩ := Prod.mk.inj heq
      exact ⟨k, array, s, hT _ _ hcell, hc⟩
    · exact hm'.collectors cell' n h hold

/-- Whichever handle has left a collector in the cell, it is one of the target. -/
theorem registers_collectorFor (hcell : T cell = some (k, array)) (count : Nat) :
    Link.Registers G T hs (collectorFor G k array cell count)
      (fun c => ∃ s, k.asCollector G s array count = .ok c) := by
  intro m hm
  rcases collectorFor_cases G k array cell count m with ⟨c, hfound, hc⟩ | hfresh
  · obtain ⟨k', array', s, hcell', hmade⟩ := hm.collectors cell count c hfound
    obtain ⟨rfl, rfl⟩ : k = k' ∧ array = array' := by simpa using hcell.symm.trans hcell'
    refine ⟨T, .refl T, ?_⟩
    rw [hc]
    exact ⟨hm.cons (.of_fixed (Handle.isVarargs_asCollector hmade)), s, hmade⟩
  · have hmade : Link.Registers G T hs (freshCollector G k array cell count)
        (fun c => ∃ s, k.asCollector G s array count = .ok c) := registers_freshCollector hcell count
    obtain ⟨T', hT, hstep⟩ := hmade m hm
    rw [← hfresh] at hstep
    exact ⟨T', hT, hstep⟩

/-- A handle at hand is seen under a signature. -/
theorem Handle.registers_asType {h : Handle} (hh : h ∈ hs) (new : Signature) :
    Link.Registers G T hs (h.asType G new) (h.SeenAs G new) := by
  have hconvert : ∀ {T' : Cells} {hs' : List Handle} {t : Handle}, t.isVarargs = false →
      (∀ h' s, t.convertTo G s new = .ok h' → h.SeenAs G new h') →
      Link.Registers G T' hs' (Link.build fun s => t.convertTo G s new) (h.SeenAs G new) :=
    fun ht hseen => .build fun s h' hmade => ⟨.inl (isVarargs_convertTo ht hmade), hseen h' s hmade⟩
  intro m hm
  suffices hregisters : Link.Registers G T hs (h.asType G new) (h.SeenAs G new) from
    hregisters m hm
  have hr := hm.handles h hh
  unfold asType
  split
  · next htype => exact .pure hh (.same htype)
  split
  · next k array cell hnode =>
    obtain ⟨hfixed, hcell⟩ := hr k array cell hnode
    extract_lets passesArray
    split
    · exact hconvert hfixed fun h' s hmade => .passed hnode hmade
    · split
      · exact fun m hm => ⟨T, .refl T, hm⟩
      · refine .bind (registers_collectorFor hcell _) fun T' c _ _ ⟨s, hc⟩ => ?_
        exact hconvert (isVarargs_asCollector hc) fun h' s' hmade => .collected hnode hc hmade
  · next hnode =>
    have hfixed := isVarargs_eq_false_iff.2 hnode
    exact hconvert hfixed fun h' s hmade => .converted hfixed hmade

end Collectors

/-! ## Look-ups -/

theorem Machine.Registers.reports {G : ClassGraph} {T : Cells} {m : Machine} {hs : List Handle}
    (hm : m.Registers G T hs) (es : List Event) : (m.reports es).Registers G T hs := by
  rw [m.reports_store]
  exact hm.congr rfl rfl (Nat.le_refl _)

namespace Link.Registers

variable {G : ClassGraph} {T : Cells} {hs : List Handle} {x y : Link Handle} {Q R : Handle → Prop}

theorem mono (hx : Link.Registers G T hs x Q) (hQ : ∀ m m' h, x m = .ok h m' → Q h → R h) :
    Link.Registers G T hs x R := by
  intro m hm
  obtain ⟨T', hT, hstep⟩ := hx m hm
  refine ⟨T', hT, ?_⟩
  cases hxm : x m with
  | ok h m' =>
    rw [hxm] at hstep
    exact ⟨hstep.1, hQ m m' h hxm hstep.2⟩
  | error e m' =>
    rw [hxm] at hstep
    exact hstep

theorem of_refuses (hx : x.Refuses) : Link.Registers G T hs x Q := by
  intro m hm
  obtain ⟨e, es, hes⟩ := hx m
  rw [hes]
  exact ⟨T, .refl T, hm.reports es⟩

theorem of_becomes (hx : x.Becomes y) (hy : Link.Registers G T hs y Q) :
    Link.Registers G T hs x Q := by
  intro m hm
  obtain ⟨es, hes⟩ := hx m
  rw [hes]
  exact hy _ (hm.reports es)

end Link.Registers

section Lookups

variable {G : ClassGraph} {T : Cells} {hs : List Handle}

/-- The node of a use is on its member. -/
theorem Use.isVarargs_of_node {u : Use} {h : Handle} (hnode : h.node = u.node G) :
    h.isVarargs = false := by
  refine Handle.isVarargs_eq_false_iff.2 fun k array cell hvarargs => ?_
  have hmember := u.member?_node G
  rw [← hnode, hvarargs] at hmember
  cases hmember

theorem Use.registers_make (u : Use) (type : Signature) :
    Link.Registers G T hs (u.make G type) (fun h => ∃ s, h = u.handle G type s) := by
  have hmake : Link.Registers G T hs (u.make G type) (fun _ => True) := by
    obtain ⟨kind, ref, caller, m | f⟩ := u
    · refine .bind (Q := fun h => h.isVarargs = false) (.build fun s h hmade => ?_)
        fun T' h _ hr _ => ?_
      · obtain rfl := Except.ok.inj hmade
        have hfixed := Lookup.isVarargs_methodNode G kind ref m s type
        exact ⟨.inl hfixed, hfixed⟩
      · split
        · exact .build fun s k hk =>
            ⟨Handle.newUnder_asVarargsCollector hr List.mem_cons_self hk, trivial⟩
        · exact .pure List.mem_cons_self trivial
    · show Link.Registers G T hs (Link.build fun s => .ok ⟨s, type, _⟩) _
      refine .build fun s h hmade => ⟨.inl ?_, trivial⟩
      obtain rfl := Except.ok.inj hmade
      exact isVarargs_of_node (G := G) (u := ⟨kind, ref, caller, .field f⟩) rfl
  refine hmake.mono fun m m' h hm _ => ?_
  obtain ⟨n, hn⟩ := Use.makes_make (G := G) (u := u) type m
  cases hn.symm.trans hm
  exact ⟨_, rfl⟩

/-- A handle may be kept under a key that it is made for. -/
theorem Machine.Registers.keep {m : Machine} (hm : m.Registers G T hs) {key : MemberKey}
    {h : Handle} (hh : h ∈ hs) (hkey : key.Makes G h) (c : MemberCache)
    (hc : c.entries = m.members.entries ∨ c.entries = (key, h) :: m.members.entries) :
    ({ m with members := c } : Machine).Registers G T hs := by
  refine ⟨hm.unused, hm.handles, fun k g hfind => ?_, hm.collectors⟩
  have hfind : c.entries.lookup k = some g := hfind
  rcases hc with hc | hc
  · rw [hc] at hfind
    exact hm.members k g hfind
  · rw [hc] at hfind
    exact forall_lookup_cons hm.members ⟨hm.handles h hh, hkey⟩ k g hfind

/-- What the cache answers has been made for the key, now or before. -/
theorem Lookup.registers_cached {u : Use} {key : MemberKey} (hkind : u.kind = key.kind) :
    Link.Registers G T hs (cached key (u.make G key.type)) (key.Makes G) := by
  intro m hm
  have hmade : ∀ {m' : Machine}, m'.Registers G T hs → ∃ h n T', T.Extends T' ∧
      u.make G key.type m' = .ok h { m' with nextStamp := n } ∧
      ({ m' with nextStamp := n } : Machine).Registers G T' (h :: hs) ∧ key.Makes G h := by
    intro m' hm'
    obtain ⟨T', hT, hstep⟩ := u.registers_make key.type m' hm'
    obtain ⟨n, hn⟩ := Use.makes_make (G := G) (u := u) key.type m'
    rw [hn] at hstep
    exact ⟨_, n, T', hT, hn, hstep.1, u, _, hkind, rfl⟩
  unfold cached
  by_cases hon : m.members.enabled = true
  · rw [if_pos hon]
    unfold MemberCache.read
    cases hfind : m.members.find? key with
    | some h =>
      have hr := hm.members key h hfind
      have hkept := (hm.cons hr.1).keep List.mem_cons_self hr.2
        { m.members with hits := m.members.hits + 1 } (.inl rfl)
      exact ⟨T, .refl T, hkept.reports [_], hr.2⟩
    | none =>
      have hcounted : ({ m with members :=
          { m.members with misses := m.members.misses + 1 } } : Machine).Registers G T hs :=
        ⟨hm.unused, hm.handles, hm.members, hm.collectors⟩
      obtain ⟨h, n, T', hT, hmake, hm', hkey⟩ := hmade hcounted
      dsimp only
      rw [hmake]
      have hinsert : MemberCache.insertIfAbsent
          { m.members with misses := m.members.misses + 1 } key h =
          (h, { m.members with
            misses := m.members.misses + 1, entries := (key, h) :: m.members.entries }) := by
        have hnone : ({ m.members with misses := m.members.misses + 1 } : MemberCache).find? key =
          none := hfind
        rw [MemberCache.insertIfAbsent, hnone]
      dsimp only
      rw [hinsert]
      exact ⟨T', hT, (hm'.keep List.mem_cons_self hkey _ (.inr rfl)).reports [_], hkey⟩
  · rw [if_neg hon]
    obtain ⟨h, n, T', hT, hmake, hm', hkey⟩ := hmade hm
    dsimp only
    rw [hmake]
    exact ⟨T', hT, hm'.reports [_], hkey⟩

/-- Whether a handle is what becomes of one that the cache answers: with the receiver narrowed to the
lookup class where that is called for. -/
def Lookup.Hands (G : ClassGraph) (l : Lookup) (u : Use) (restrict : Bool) (base h : Handle) : Prop :=
  if restrict && l.narrows G u then
    h.node = base.node ∧ h.type.params = base.type.params.set 0 (.cls l.cls)
  else h = base

theorem Lookup.registers_handleFor {C : Classes} (l : Lookup) {u : Use} {key : MemberKey}
    (hkind : u.kind = key.kind) (restrict : Bool) :
    Link.Registers C.graph T hs (l.handleFor C u key restrict)
      (fun h => ∃ base, key.Makes C.graph base ∧ l.Hands C.graph u restrict base h) := by
  refine .bind (registers_cached hkind) fun T' base _ _ hbase => ?_
  cases hnarrows : restrict && l.narrows C.graph u with
  | false =>
    have hhands : l.Hands C.graph u restrict base base := by
      rw [Hands, hnarrows]
      rfl
    exact .pure List.mem_cons_self ⟨base, hbase, hhands⟩
  | true =>
    show Link.Registers C.graph T' (base :: hs) (l.narrow base) _
    refine .build fun s h hmade => ?_
    simp only [Bind.bind, Except.bind] at hmade
    split at hmade
    · cases hmade
    next narrowed hnarrowed =>
    obtain ⟨hnode, htype⟩ := Handle.retype_eq_ok hmade
    obtain ⟨-, -, hparams⟩ := Signature.changeParam_eq_ok_iff.1 hnarrowed
    refine ⟨.inr (.inl ⟨base, List.mem_cons_self, hnode⟩), base, hbase, ?_⟩
    rw [Hands, hnarrows, htype]
    exact ⟨hnode, hparams⟩

namespace Handle

variable {h k : Handle} {s : Stamp}

theorem isVarargs_bindTo {v : Value} (hfixed : h.isVarargs = false)
    (hmade : h.bindTo G s v = .ok k) : k.isVarargs = false := by
  rcases insertArguments_eq_ok (insertArguments_of_bindTo hmade) with rfl | ⟨t, bound, rfl⟩
  · exact hfixed
  · rfl

theorem solid_bindTo {v : Value} (hsolid : h.Solid) (hmade : h.bindTo G s v = .ok k) :
    k.Solid := by
  rcases insertArguments_eq_ok (insertArguments_of_bindTo hmade) with rfl | ⟨t, bound, rfl⟩
  · exact hsolid
  · exact solid_of_variant nofun nofun

theorem solid_asVarargsCollector {array : Ty} (hsolid : h.asFixedArity.Solid)
    (hmade : h.asVarargsCollector G s array = .ok k) : k.asFixedArity.Solid := by
  rcases asVarargsCollector_eq_ok hmade with rfl | rfl <;> exact hsolid

end Handle

theorem MemberOp.registers_finish {h : Handle} (hr : h.Registered T) (hh : h ∈ hs)
    (hsolid : h.asFixedArity.Solid) (op : MemberOp) :
    Link.Registers G T hs (op.finish G h)
      (fun k => k.asFixedArity.Solid ∧ (op.restricts = true → k = h)) := by
  cases op with
  | bind receiver name type =>
    refine .bind (Q := fun k => k.asFixedArity.Solid) (.build fun s k hk => ?_)
      fun T' bound _ hbound hfixed => ?_
    · exact ⟨.inl (Handle.isVarargs_bindTo hr.asFixedArity hk),
        (Handle.solid_bindTo hsolid hk).asFixedArity⟩
    · split
      · refine .build fun s k hk => ?_
        exact ⟨Handle.newUnder_asVarargsCollector hbound List.mem_cons_self hk,
          Handle.solid_asVarargsCollector hfixed hk, nofun⟩
      · exact .pure List.mem_cons_self ⟨hfixed, nofun⟩
  | _ => exact .pure hh ⟨hsolid, fun _ => rfl⟩

theorem Use.solid_handle (u : Use) (t : Signature) (s : Stamp) :
    (u.handle G t s).asFixedArity.Solid := by
  have hmember : (u.handle G t s).asFixedArity.node.member? = some u.member :=
    u.member?_handle G t s
  intro k hk
  cases hk with
  | varargs hnode =>
    rw [hnode] at hmember
    cases hmember
  | permute hnode =>
    rw [hnode] at hmember
    cases hmember

theorem Lookup.Hands.solid {l : Lookup} {u : Use} {key : MemberKey} {restrict : Bool}
    {base h : Handle} (hhands : l.Hands G u restrict base h) (hbase : key.Makes G base) :
    h.asFixedArity.Solid := by
  obtain ⟨v, s, -, rfl⟩ := hbase
  have hsolid := v.solid_handle (G := G) key.type s
  unfold Hands at hhands
  split at hhands
  · exact Handle.solid_congr hhands.1 hsolid
  · exact hhands ▸ hsolid

/-- Look-ups register the handles that they make. What they answer comes from a handle made for their
key, and no handle but one on a member can be got out of it. -/
theorem Lookup.registers_answer (C : Classes) (l : Lookup) (op : MemberOp) :
    Link.Registers C.graph T hs (l.perform C op) (fun h => h.asFixedArity.Solid ∧
      (op.restricts = true → ∃ u key base, op.use? C.graph = some u ∧ u.key? C.graph = some key ∧
        key.Makes C.graph base ∧ l.Hands C.graph u true base h)) := by
  have hseeks := l.seeks_perform C op
  by_cases hfound : ∃ u key, op.use? C.graph = some u ∧ u.key? C.graph = some key
  · obtain ⟨u, key, hu, hkey⟩ := hfound
    have hguarded := hseeks.found u key hu hkey
    by_cases hgranted : l.trusted = true ∨ l.Permits C u
    · refine .of_becomes (hguarded.passes hgranted) ?_
      have hkind := (Use.key?_eq_some_iff.1 hkey).2.2.2.symm
      refine .bind (l.registers_handleFor hkind op.restricts) fun T' h _ hr hhands => ?_
      obtain ⟨base, hbase, hhands⟩ := hhands
      have hsolid := hhands.solid hbase
      refine (op.registers_finish hr List.mem_cons_self hsolid).mono fun m m' k _ hk => ?_
      refine ⟨hk.1, fun hrestricts => ?_⟩
      rw [hrestricts] at hhands
      exact ⟨u, key, base, hu, hkey, hbase, hk.2 hrestricts ▸ hhands⟩
    · exact .of_refuses (hguarded.refuses hgranted)
  · exact .of_refuses (hseeks.missed fun u key hu hkey => hfound ⟨u, key, hu, hkey⟩)

theorem Lookup.registers_perform (C : Classes) (l : Lookup) (op : MemberOp) :
    Link.Registers C.graph T hs (l.perform C op) (fun h => op.restricts = true →
      ∃ u key base, op.use? C.graph = some u ∧ u.key? C.graph = some key ∧
        key.Makes C.graph base ∧ l.Hands C.graph u true base h) :=
  (l.registers_answer C op).mono fun _ _ _ _ h => h.2

end Lookups

end HandleCalculus
