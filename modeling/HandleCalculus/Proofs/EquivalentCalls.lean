import HandleCalculus.Proofs.LookupSteps
import HandleCalculus.Proofs.TypeSafety

/-!
# Equivalent handles do the same

Two equivalent handles are called with the same arguments, each on its own machine. The machines agree
in what a call can see of them: the store, the thunks compiled and the method bodies run. In what they
remember for single handles they may differ (`Machine.Alike`). Then the calls come to the same, and
leave machines that agree again (`Run.Alike`); what a machine remembers beside thunks no call touches.

The proof follows the calls: what their steps do on machines that are alike, then the node of a handle
over calls that are alike, one case for each kind, and at last an induction on the depth. What it asks
of a machine is that its thunks are in order (`Machine.Settled`), as they are wherever it has got to
(`Machine.Reached.settled`).

All this is about handles that bind equal values (`Handle.coincides`). Equivalent ones do if the wrappers
that they bind are of the same classes, and need not do the same if not.
-/

set_option autoImplicit false

namespace HandleCalculus

/-! ## Machines that are alike -/

/-- Whether a table has nothing but thunks, each for the key that it is under. -/
def ThunkTable.Ordered (t : ThunkTable) : Prop :=
  ∀ k entry, t.cache.find? k = some entry → ∃ thunk : Thunk, entry = .ready thunk ∧ thunk.key = k

namespace Machine

/-- Whether the table of thunks is in order and each thunk that a handle keeps is the one that the
table has for its key. -/
structure Settled (m : Machine) : Prop where
  table : m.thunks.Ordered
  cells : ∀ k t, m.cells.lookup k = some t → m.thunks.cache.find? k.2 = some (.ready t)

/-- Whether two machines agree in what calls can see of them. -/
structure SameState (m n : Machine) : Prop where
  store : m.store = n.store
  thunks : m.thunks = n.thunks
  calls : m.calls = n.calls

/-- Whether two machines agree in what calls can see of them, and both keep their thunks in order. -/
structure Alike (m n : Machine) : Prop where
  same : m.SameState n
  left : m.Settled
  right : n.Settled

/-- Whether a machine still remembers what it did when it was the other, thunks apart. -/
structure Remembers (m m' : Machine) : Prop where
  collectors : m'.collectors = m.collectors
  members : m'.members = m.members
  nextStamp : m'.nextStamp = m.nextStamp

variable {l m n : Machine}

theorem SameState.refl (m : Machine) : m.SameState m := ⟨rfl, rfl, rfl⟩

theorem Remembers.refl (m : Machine) : m.Remembers m := ⟨rfl, rfl, rfl⟩

theorem Remembers.trans (h : l.Remembers m) (h' : m.Remembers n) : l.Remembers n :=
  ⟨h'.collectors.trans h.collectors, h'.members.trans h.members, h'.nextStamp.trans h.nextStamp⟩

/-- The same change of what calls can see leaves alike machines alike. -/
theorem Alike.change (h : m.Alike n) (s : Store) (calls : Array Call) :
    ({ m with store := s, calls := calls } : Machine).Alike
      { n with store := s, calls := calls } :=
  ⟨⟨rfl, h.same.thunks, rfl⟩, ⟨h.left.table, h.left.cells⟩, ⟨h.right.table, h.right.cells⟩⟩

theorem Alike.withStore (h : m.Alike n) (s : Store) :
    ({ m with store := s } : Machine).Alike { n with store := s } :=
  ⟨⟨rfl, h.same.thunks, h.same.calls⟩, ⟨h.left.table, h.left.cells⟩,
    ⟨h.right.table, h.right.cells⟩⟩

end Machine

/-! ## Computations that do the same -/

/-- How the ends of two computations agree that started on the machines: in the value or in why they
stopped, and in what calls can see of the machines left. -/
inductive Run.Agree {α : Type} (m n : Machine) :
    EStateM.Result Stop Machine α → EStateM.Result Stop Machine α → Prop where
  | ok {m' n' : Machine} (a : α) (alike : m'.Alike n') (left : m.Remembers m')
      (right : n.Remembers n') : Agree m n (.ok a m') (.ok a n')
  | error {m' n' : Machine} (e : Stop) (alike : m'.Alike n') (left : m.Remembers m')
      (right : n.Remembers n') : Agree m n (.error e m') (.error e n')

/-- Whether two computations do the same on machines that are alike. -/
def Run.Alike {α : Type} (x y : Run α) : Prop :=
  ∀ m n : Machine, m.Alike n → Run.Agree m n (x m) (y n)

namespace Run

variable {α β : Type}

theorem Agree.of_remembers {l m n k : Machine} {r r' : EStateM.Result Stop Machine α}
    (h : Agree m n r r') (hm : l.Remembers m) (hn : k.Remembers n) : Agree l k r r' := by
  cases h with
  | ok a alike left right => exact .ok a alike (hm.trans left) (hn.trans right)
  | error e alike left right => exact .error e alike (hm.trans left) (hn.trans right)

namespace Alike

theorem pure (a : α) : Run.Alike (Pure.pure a) (Pure.pure a) :=
  fun m n h => .ok a h (.refl m) (.refl n)

theorem throw (e : Stop) : Run.Alike (α := α) (throw e) (throw e) :=
  fun m n h => .error e h (.refl m) (.refl n)

theorem bind {x y : Run α} {f g : α → Run β} (hx : Run.Alike x y)
    (hf : ∀ a, Run.Alike (f a) (g a)) : Run.Alike (x >>= f) (y >>= g) := by
  intro m n h
  have hagree := hx m n h
  show Agree m n (EStateM.bind x f m) (EStateM.bind y g n)
  unfold EStateM.bind
  generalize x m = r at hagree
  generalize y n = r' at hagree
  cases hagree with
  | ok a alike left right => exact (hf a _ _ alike).of_remembers left right
  | error e alike left right => exact .error e alike left right

theorem ofExcept (x : Except Error α) : Run.Alike (Run.ofExcept x) (Run.ofExcept x) := by
  cases x with
  | ok a => exact .pure a
  | error e => exact .throw (.error e)

theorem alloc (f : Store → Object × Store) : Run.Alike (Run.alloc f) (Run.alloc f) := by
  intro m n h
  unfold Run.alloc
  rw [h.same.store]
  exact .ok _ (h.withStore _) ⟨rfl, rfl, rfl⟩ ⟨rfl, rfl, rfl⟩

theorem readStore (f : Store → Except Error α) :
    Run.Alike (Run.readStore f) (Run.readStore f) := by
  intro m n h
  unfold Run.readStore
  rw [h.same.store]
  cases f n.store with
  | ok a => exact .ok a h (.refl m) (.refl n)
  | error e => exact .error _ h (.refl m) (.refl n)

theorem writeStore (f : Store → Except Error Store) :
    Run.Alike (Run.writeStore f) (Run.writeStore f) := by
  intro m n h
  unfold Run.writeStore
  rw [h.same.store]
  cases f n.store with
  | ok s => exact .ok () (h.withStore s) ⟨rfl, rfl, rfl⟩ ⟨rfl, rfl, rfl⟩
  | error e => exact .error _ h (.refl m) (.refl n)

theorem attempt {x y : Run α} (hx : Run.Alike x y) :
    Run.Alike (Run.attempt x) (Run.attempt y) := by
  intro m n h
  have hagree := hx m n h
  unfold Run.attempt
  generalize x m = r at hagree
  generalize y n = r' at hagree
  cases hagree with
  | ok a alike left right => exact .ok _ alike left right
  | error e alike left right =>
    cases e with
    | error e => exact .ok _ alike left right
    | fault v => exact .error _ alike left right
    | exhausted => exact .error _ alike left right

end Alike

end Run

/-! ## Thunks -/

/-- A look-up that compiles leaves what it has compiled under the key, and the rest as it was. -/
theorem CompileOnce.Cache.find?_get_ok {K D E : Type} [DecidableEq K] {c : Cache K D} {k : K}
    (hk : c.find? k = none) (d : D) (k' : K) :
    (c.get k (.ok d : Except E D)).2.find? k' = if k' = k then some (.ready d) else c.find? k' := by
  have hclaim : c.claim k = (.claimed c.finished.length, (c.claim k).2) := by simp [claim, hk]
  rw [get, hclaim]
  show ((c.claim k).2.publish k d).find? k' = _
  rw [find?_publish, find?_claim hk]
  split <;> rfl

/-- A table in order answers the thunk of a key that can be compiled, has it from then on, and is
still in order. -/
theorem ThunkTable.Ordered.get {t : ThunkTable} (ht : t.Ordered) {key : ThunkKey}
    (hkey : key.shape.slots ≤ maxArgumentSlots) :
    ∃ thunk t' events, t.get key = (.ok thunk, t', events) ∧
      t'.cache.find? key = some (.ready thunk) ∧ t'.Ordered ∧
      ∀ k entry, t.cache.find? k = some entry → t'.cache.find? k = some entry := by
  cases hfind : t.cache.find? key with
  | some entry =>
    obtain ⟨thunk, rfl, -⟩ := ht key entry hfind
    refine ⟨thunk, t, [], ?_, hfind, ht, fun _ _ h => h⟩
    simp [ThunkTable.get, CompileOnce.Cache.peek?, hfind]
  | none =>
    -- nothing is in the way, and the thunk is compiled
    let made : Thunk := ⟨key, key.shape.slots, key.shape.ret, t.nextId⟩
    have hcompile : Thunk.compile t.nextId key = .ok made := if_neg (Nat.not_lt.2 hkey)
    have hmade : t.get key = (.ok made,
        ⟨(t.cache.get key (.ok made : Except CompileError Thunk)).2, t.nextId + 1⟩,
        [.compiling key, .compiled made.id key]) := by
      simp [ThunkTable.get, CompileOnce.Cache.peek?, hfind, hcompile]
    have hget := CompileOnce.Cache.find?_get_ok (E := CompileError) hfind made
    refine ⟨_, _, _, hmade, (hget key).trans (if_pos rfl), fun k entry hk => ?_, fun k entry hk => ?_⟩
    · rw [hget] at hk
      split at hk
      · next heq =>
        obtain rfl := Option.some.inj hk
        exact ⟨made, rfl, heq.symm⟩
      · exact ht k entry hk
    · rw [hget, if_neg]
      · exact hk
      · rintro rfl
        cases hfind.symm.trans hk

theorem Handle.slots_key (h : Handle) : h.key.shape.slots ≤ maxArgumentSlots := by
  show h.type.shape.slots ≤ maxArgumentSlots
  rw [Signature.slots_shape]
  exact h.type.slots_le

theorem Machine.reports_store (m : Machine) (es : List Event) :
    m.reports es = { m with store := es.foldl Store.report m.store } := by
  induction es generalizing m with
  | nil => rfl
  | cons e es ih => exact ih (m.report e)

/-- The thunk of a handle is the table's, whether or not the handle keeps it already. -/
theorem Machine.Settled.thunk {m : Machine} (hm : m.Settled) (h : Handle) :
    ∃ thunk t' events cells, m.thunks.get h.key = (.ok thunk, t', events) ∧
      h.thunk m = .ok thunk ({ m with thunks := t', cells := cells }.reports events) ∧
      ({ m with thunks := t', cells := cells } : Machine).Settled := by
  obtain ⟨thunk, t', events, hget, hfind, hordered, hkeeps⟩ := hm.table.get h.slots_key
  have hcells : ∀ k t, m.cells.lookup k = some t → t'.cache.find? k.2 = some (.ready t) :=
    fun k t hk => hkeeps k.2 _ (hm.cells k t hk)
  unfold Handle.thunk
  cases hcell : m.cells.lookup (h.stamp, h.key) with
  | some t =>
    -- what the handle keeps the table has
    have htable := hm.cells _ t hcell
    have hpeek : m.thunks.cache.peek? h.key = some t := by
      rw [CompileOnce.Cache.peek?, htable]
    exact ⟨t, m.thunks, [], m.cells, by rw [ThunkTable.get, hpeek], rfl, hm⟩
  | none =>
    refine ⟨thunk, t', events, ((h.stamp, h.key), thunk) :: m.cells, hget, ?_, hordered, ?_⟩
    · rw [hget]
      show EStateM.Result.ok thunk { ({ m with thunks := t' }.reports events) with
        cells := ((h.stamp, h.key), thunk) :: ({ m with thunks := t' }.reports events).cells } = _
      rw [Machine.reports_store, Machine.reports_store]
    · exact forall_lookup_cons hcells hfind

/-- The thunk of a handle is compiled for its key. -/
theorem Machine.Settled.key_of_thunk {m m' : Machine} (hm : m.Settled) {h : Handle} {t : Thunk}
    (ht : h.thunk m = .ok t m') : t.key = h.key := by
  obtain ⟨thunk, t', events, cells, hget, hthunk, -⟩ := hm.thunk h
  rw [hthunk] at ht
  cases ht
  have hpeek : ∀ k thunk, m.thunks.cache.peek? k = some thunk → thunk.key = k := by
    intro k thunk hk
    unfold CompileOnce.Cache.peek? at hk
    split at hk
    · next d hfind =>
      obtain rfl := Option.some.inj hk
      obtain ⟨_, hready, hkey⟩ := hm.table k _ hfind
      cases hready
      exact hkey
    · cases hk
  exact (ThunkTable.get_key hpeek h.key).1 t (by rw [hget])

/-- Two handles of one key get the same thunk. -/
theorem Handle.alike_thunk {a b : Handle} (h : a.key = b.key) : Run.Alike a.thunk b.thunk := by
  intro m n hmn
  obtain ⟨thunk, t', events, cells, hget, ha, hm⟩ := hmn.left.thunk a
  obtain ⟨thunk', t'', events', cells', hget', hb, hn⟩ := hmn.right.thunk b
  rw [hmn.same.thunks, h, hget'] at hget
  obtain ⟨rfl, rfl, rfl⟩ : thunk' = thunk ∧ t'' = t' ∧ events' = events := by
    simpa using hget
  rw [ha, hb, Machine.reports_store, Machine.reports_store]
  refine .ok _ ⟨⟨?_, rfl, hmn.same.calls⟩, ⟨hm.table, hm.cells⟩, ⟨hn.table, hn.cells⟩⟩
    ⟨rfl, rfl, rfl⟩ ⟨rfl, rfl, rfl⟩
  show events'.foldl Store.report m.store = events'.foldl Store.report n.store
  rw [hmn.same.store]

/-! ## What equivalent handles have in common -/

namespace Handle

variable {eq : Value → Value → Bool} {a b : Handle}

/-- Filters that are equivalent are in the same places. -/
theorem isSome_of_equivalent {fs gs : List (Option Handle)}
    (h : Filters.equivalentBy eq fs gs = true) :
    fs.map (fun f => f.isSome.toNat) = gs.map (fun g => g.isSome.toNat) := by
  induction fs generalizing gs with
  | nil => rw [Filters.equivalentBy_nil_iff.1 h]
  | cons f fs ih =>
    cases f with
    | none =>
      obtain ⟨gs, rfl, hgs⟩ := Filters.equivalentBy_none_cons_iff.1 h
      rw [List.map_cons, List.map_cons, ih hgs]
    | some f =>
      obtain ⟨g, gs, rfl, -, hgs⟩ := Filters.equivalentBy_some_cons_iff.1 h
      rw [List.map_cons, List.map_cons, ih hgs]
      rfl

theorem layout_eq_of_equivalent {m n : Node Handle} (h : Node.equivalentBy eq m n = true) :
    m.layout = n.layout := by
  cases m with
  | direct => rw [Node.equivalentBy_direct_iff.1 h]
  | virtual => rw [Node.equivalentBy_virtual_iff.1 h]
  | getField => rw [Node.equivalentBy_getField_iff.1 h]
  | setField => rw [Node.equivalentBy_setField_iff.1 h]
  | insert =>
    obtain ⟨k, ws, rfl, hws, -⟩ := Node.equivalentBy_insert_iff.1 h
    simp only [Node.layout, List.length_eq_of_isEqv hws]
  | permute =>
    obtain ⟨k, rfl, -⟩ := Node.equivalentBy_permute_iff.1 h
    rfl
  | collect =>
    obtain ⟨k, rfl, -⟩ := Node.equivalentBy_collect_iff.1 h
    rfl
  | spread =>
    obtain ⟨k, rfl, -⟩ := Node.equivalentBy_spread_iff.1 h
    rfl
  | filterArgs =>
    obtain ⟨k, gs, rfl, hgs, -⟩ := Node.equivalentBy_filterArgs_iff.1 h
    simp only [Node.layout, isSome_of_equivalent hgs]
  | filterReturn =>
    obtain ⟨k, g, rfl, -, -⟩ := Node.equivalentBy_filterReturn_iff.1 h
    rfl
  | fold =>
    obtain ⟨k, d, rfl, -, hd⟩ := Node.equivalentBy_fold_iff.1 h
    simp only [Node.layout, type_eq_of_equivalent hd]
  | guarded =>
    obtain ⟨d, k, g, rfl, hd, -, -⟩ := Node.equivalentBy_guarded_iff.1 h
    simp only [Node.layout, type_eq_of_equivalent hd]
  | catching =>
    obtain ⟨k, f, rfl, -, hf⟩ := Node.equivalentBy_catching_iff.1 h
    simp only [Node.layout, type_eq_of_equivalent hf]
  | convert =>
    obtain ⟨k, rfl, -⟩ := Node.equivalentBy_convert_iff.1 h
    rfl
  | constant =>
    obtain ⟨w, rfl, -⟩ := Node.equivalentBy_constant_iff.1 h
    rfl
  | identity => rw [Node.equivalentBy_identity_iff.1 h]
  | varargs =>
    obtain ⟨k, cell, rfl, -⟩ := Node.equivalentBy_varargs_iff.1 h
    rfl
  | invoker => rw [Node.equivalentBy_invoker_iff.1 h]
  | unlinked => rw [Node.equivalentBy_unlinked_iff.1 h]
  | throwing => rw [Node.equivalentBy_throwing_iff.1 h]

/-- Equivalent handles are called through one thunk. -/
theorem key_eq_of_equivalent (h : a.equivalentBy eq b = true) : a.key = b.key := by
  rw [key, key, type_eq_of_equivalent h, variant_eq_of_equivalent h,
    layout_eq_of_equivalent (equivalentBy_iff.1 h).2]

end Handle

/-! ## Nodes

One case for each kind of node, over calls that do the same with equivalent handles. -/

/-- Whether two ways to call handles do the same with equivalent ones. -/
def Caller.Alike (call call' : Caller) : Prop :=
  ∀ (a b : Handle) (args : List Value), a.coincides b = true →
    Run.Alike (call a args) (call' b args)

section Members

variable (P : Program)

theorem Program.alike_callMethod (m : MethodRef) (args : List Value) :
    Run.Alike (P.callMethod m args) (P.callMethod m args) := by
  unfold callMethod
  split
  · intro s s' h
    unfold runBody
    rw [h.same.store, h.same.calls]
    dsimp only
    cases P.body m args s'.store with
    | ok v store => exact .ok v (h.change store _) ⟨rfl, rfl, rfl⟩ ⟨rfl, rfl, rfl⟩
    | error o store => exact .error _ (h.change store _) ⟨rfl, rfl, rfl⟩ ⟨rfl, rfl, rfl⟩
  · exact .throw _

theorem Program.alike_callDirect (m : MethodRef) (mode : DirectMode) (args : List Value) :
    Run.Alike (P.callDirect m mode args) (P.callDirect m mode args) := by
  cases mode with
  | static => exact P.alike_callMethod m args
  | special => exact .bind (.ofExcept _) fun _ => P.alike_callMethod m args
  | construct =>
    exact .bind (.alloc _) fun o => .bind (P.alike_callMethod m _) fun _ => .pure _

theorem Program.alike_callVirtual (m : MethodRef) (dispatch : ClassId) (args : List Value) :
    Run.Alike (P.callVirtual m dispatch args) (P.callVirtual m dispatch args) := by
  refine .bind (.ofExcept _) fun o => ?_
  split
  · exact .throw _
  · split
    · exact P.alike_callMethod _ args
    · exact .throw _

theorem Program.alike_getField (f : FieldRef) (isStatic : Bool) (args : List Value) :
    Run.Alike (P.getField f isStatic args) (P.getField f isStatic args) := by
  unfold getField
  dsimp only
  split
  · exact .readStore _
  · exact .bind (.ofExcept _) fun o => .readStore _

theorem Program.alike_setField (f : FieldRef) (isStatic : Bool) (args : List Value) (v : Value) :
    Run.Alike (P.setField f isStatic args v) (P.setField f isStatic args v) := by
  unfold setField
  dsimp only
  split
  · exact .bind (.writeStore _) fun _ => .pure _
  · exact .bind (.ofExcept _) fun o => .bind (.writeStore _) fun _ => .pure _

theorem alike_caught? (G : ClassGraph) (c : ClassId) (e : Error) :
    Run.Alike (caught? G c e) (caught? G c e) := by
  unfold caught?
  split
  · exact .pure _
  · split
    · split
      · exact .bind (.alloc _) fun o => .pure _
      · exact .pure _
    · exact .pure _

end Members

namespace Handle

variable {P : Program} {call call' : Caller} {args : List Value} {a b : Handle}

theorem alike_passFilters (hcall : Caller.Alike call call') (pos : Nat) :
    ∀ (fs gs : List (Option Handle)) (args : List Value), Filters.equivalentBy (· == ·) fs gs = true →
      Run.Alike (passFilters call pos fs args) (passFilters call' pos gs args) := by
  intro fs
  induction fs generalizing pos with
  | nil =>
    intro gs args h
    rw [Filters.equivalentBy_nil_iff.1 h]
    exact .pure args
  | cons f fs ih =>
    intro gs args h
    cases f with
    | none =>
      obtain ⟨gs, rfl, hgs⟩ := Filters.equivalentBy_none_cons_iff.1 h
      exact ih (pos + 1) gs args hgs
    | some f =>
      obtain ⟨g, gs, rfl, hg, hgs⟩ := Filters.equivalentBy_some_cons_iff.1 h
      unfold passFilters
      split
      · exact .throw _
      · exact .bind (hcall f g _ hg) fun w => ih (pos + 1) gs _ hgs

theorem alike_answerFirst (h : a.coincides b = true) :
    Run.Alike (answerFirst a args) (answerFirst b args) := by
  unfold answerFirst
  rw [type_eq_of_equivalent h, variant_eq_of_equivalent h]
  split
  · exact .pure _
  · exact .throw _

theorem alike_throwFirst (h : a.coincides b = true) :
    Run.Alike (throwFirst a args) (throwFirst b args) := by
  unfold throwFirst
  rw [type_eq_of_equivalent h, variant_eq_of_equivalent h]
  split <;> exact .throw _

section Steps

variable (hcall : Caller.Alike call call') {s s' : Stamp} {t : Signature} {k k' d d' g g' : Handle}
include hcall

theorem alike_spread (hk : k.coincides k' = true) (pos count : Nat) (array : Ty) :
    Run.Alike ((⟨s, t, .spread k pos count array⟩ : Handle).perform P call args)
      ((⟨s', t, .spread k' pos count array⟩ : Handle).perform P call' args) := by
  unfold perform
  dsimp only
  rw [type_eq_of_equivalent hk]
  split
  · exact .throw _
  · refine .bind (.ofExcept _) fun elements => ?_
    split
    · exact .bind (.ofExcept _) fun spread => hcall k k' _ hk
    · exact .throw _

theorem alike_fold (hk : k.coincides k' = true) (hd : d.coincides d' = true) (pos : Nat) :
    Run.Alike ((⟨s, t, .fold k pos d⟩ : Handle).perform P call args)
      ((⟨s', t, .fold k' pos d'⟩ : Handle).perform P call' args) := by
  unfold perform
  dsimp only
  rw [type_eq_of_equivalent hd]
  split
  · refine .bind (hcall d d' _ hd) fun v => ?_
    split
    · exact hcall k k' args hk
    · exact hcall k k' _ hk
  · exact .throw _

theorem alike_guarded (hd : d.coincides d' = true) (hk : k.coincides k' = true)
    (hg : g.coincides g' = true) :
    Run.Alike ((⟨s, t, .guarded d k g⟩ : Handle).perform P call args)
      ((⟨s', t, .guarded d' k' g'⟩ : Handle).perform P call' args) := by
  unfold perform
  dsimp only
  rw [type_eq_of_equivalent hd]
  split
  · refine .bind (hcall d d' _ hd) fun v => ?_
    split
    · exact hcall k k' args hk
    · exact hcall g g' args hg
    · exact .throw _
  · exact .throw _

theorem alike_catching (hk : k.coincides k' = true) (hg : g.coincides g' = true) (c : ClassId) :
    Run.Alike ((⟨s, t, .catching k c g⟩ : Handle).perform P call args)
      ((⟨s', t, .catching k' c g'⟩ : Handle).perform P call' args) := by
  unfold perform
  dsimp only
  rw [type_eq_of_equivalent hg]
  split
  · refine .bind (.attempt (hcall k k' args hk)) fun outcome => ?_
    cases outcome with
    | ok v => exact .pure v
    | error e =>
      refine .bind (alike_caught? P.graph c e) fun caught => ?_
      split
      · exact hcall g g' _ hg
      · exact .throw _
  · exact .throw _

theorem alike_convert (hk : k.coincides k' = true) (conversions : List Conversion)
    (ret : Conversion) :
    Run.Alike ((⟨s, t, .convert k conversions ret⟩ : Handle).perform P call args)
      ((⟨s', t, .convert k' conversions ret⟩ : Handle).perform P call' args) := by
  have hdispatches : k.dispatches = k'.dispatches := by
    rw [dispatches, dispatches, variant_eq_of_equivalent hk]
  unfold perform
  dsimp only
  rw [hdispatches]
  refine .bind (.ofExcept _) fun converted => .bind (hcall k k' converted hk) fun v => ?_
  split
  · exact .pure _
  · exact .throw _

end Steps

/-- Equivalent handles do the same work over calls that do the same. -/
theorem alike_perform (hcall : Caller.Alike call call') (h : a.coincides b = true) :
    Run.Alike (a.perform P call args) (b.perform P call' args) := by
  obtain ⟨s, t, m⟩ := a
  obtain ⟨s', t', n⟩ := b
  obtain rfl : t = t' := type_eq_of_equivalent h
  have hn : Node.equivalentBy (· == ·) m n = true := (equivalentBy_iff.1 h).2
  cases m with
  | direct m mode =>
    obtain rfl := Node.equivalentBy_direct_iff.1 hn
    exact P.alike_callDirect m mode args
  | virtual m dispatch interface =>
    obtain rfl := Node.equivalentBy_virtual_iff.1 hn
    exact P.alike_callVirtual m dispatch args
  | getField f isStatic =>
    obtain rfl := Node.equivalentBy_getField_iff.1 hn
    exact P.alike_getField f isStatic args
  | setField f isStatic =>
    obtain rfl := Node.equivalentBy_setField_iff.1 hn
    unfold perform
    dsimp only
    split
    · exact P.alike_setField f isStatic _ _
    · exact .throw _
  | insert target pos values =>
    obtain ⟨k, ws, rfl, hws, hk⟩ := Node.equivalentBy_insert_iff.1 hn
    obtain rfl : values = ws := List.isEqv_eq.mp hws
    unfold perform
    dsimp only
    split
    · exact hcall target k _ hk
    · exact .throw _
  | permute target reorder =>
    obtain ⟨k, rfl, hk⟩ := Node.equivalentBy_permute_iff.1 hn
    unfold perform
    dsimp only
    split
    · exact hcall target k _ hk
    · exact .throw _
  | collect target pos count array =>
    obtain ⟨k, rfl, hk⟩ := Node.equivalentBy_collect_iff.1 hn
    unfold perform
    dsimp only
    split
    · exact .throw _
    · split
      · exact .bind (.alloc _) fun o => hcall target k _ hk
      · exact .throw _
  | spread target pos count array =>
    obtain ⟨k, rfl, hk⟩ := Node.equivalentBy_spread_iff.1 hn
    exact alike_spread hcall hk pos count array
  | filterArgs target pos filters =>
    obtain ⟨k, gs, rfl, hgs, hk⟩ := Node.equivalentBy_filterArgs_iff.1 hn
    exact .bind (alike_passFilters hcall pos filters gs args hgs) fun filtered =>
      hcall target k filtered hk
  | filterReturn target filter =>
    obtain ⟨k, g, rfl, hk, hg⟩ := Node.equivalentBy_filterReturn_iff.1 hn
    unfold perform
    dsimp only
    rw [type_eq_of_equivalent hk]
    exact .bind (hcall target k args hk) fun v => hcall filter g _ hg
  | fold target pos combiner =>
    obtain ⟨k, d, rfl, hk, hd⟩ := Node.equivalentBy_fold_iff.1 hn
    exact alike_fold hcall hk hd pos
  | guarded test target fallback =>
    obtain ⟨d, k, g, rfl, hd, hk, hg⟩ := Node.equivalentBy_guarded_iff.1 hn
    exact alike_guarded hcall hd hk hg
  | catching target c handler =>
    obtain ⟨k, f, rfl, hk, hf⟩ := Node.equivalentBy_catching_iff.1 hn
    exact alike_catching hcall hk hf c
  | convert target conversions ret =>
    obtain ⟨k, rfl, hk⟩ := Node.equivalentBy_convert_iff.1 hn
    exact alike_convert hcall hk conversions ret
  | constant v =>
    obtain ⟨w, rfl, hw⟩ := Node.equivalentBy_constant_iff.1 hn
    obtain rfl : v = w := beq_iff_eq.1 hw
    exact .pure v
  | identity =>
    obtain rfl := Node.equivalentBy_identity_iff.1 hn
    exact alike_answerFirst h
  | varargs target array cell =>
    obtain ⟨k, cell', rfl, hk⟩ := Node.equivalentBy_varargs_iff.1 hn
    exact hcall target k args hk
  | invoker site =>
    obtain rfl := Node.equivalentBy_invoker_iff.1 hn
    -- both sites have the same target
    exact .bind (.readStore _) fun target => hcall target target args (coincides_refl target)
  | unlinked message =>
    obtain rfl := Node.equivalentBy_unlinked_iff.1 hn
    exact .throw _
  | throwing =>
    obtain rfl := Node.equivalentBy_throwing_iff.1 hn
    exact alike_throwFirst h

/-- Handles of one key whose nodes do the same work do the same when called. -/
theorem alike_invokeVia (hkey : a.key = b.key)
    (hperform : Run.Alike (a.perform P call args) (b.perform P call' args)) :
    Run.Alike (a.invokeVia P call args) (b.invokeVia P call' args) := by
  intro m n hmn
  obtain ⟨t, _, _, _, -, ha, -⟩ := hmn.left.thunk a
  obtain ⟨t', _, _, _, -, hb, -⟩ := hmn.right.thunk b
  have hthunks := alike_thunk hkey m n hmn
  -- each routine is the one of the handle's own variant
  have hta : t.key.variant = a.variant := congrArg _ (hmn.left.key_of_thunk ha)
  have htb : t'.key.variant = b.variant := congrArg _ (hmn.right.key_of_thunk hb)
  unfold invokeVia
  rw [bind_eq_of_ok ha, bind_eq_of_ok hb, hta, htb, enter_variant, enter_variant]
  rw [ha, hb] at hthunks
  cases hthunks with
  | ok _ alike left right => exact (hperform _ _ alike).of_remembers left right

/-- Equivalent handles do the same when called, to any depth. -/
theorem alike_invokeBasic (P : Program) (depth : Nat) :
    Caller.Alike (invokeBasic P depth) (invokeBasic P depth) := by
  -- on the depth; the thunks are the same, and the calls of the node are one deeper
  induction depth with
  | zero => exact fun a b args h => .throw _
  | succ depth ih =>
    intro a b args h
    exact alike_invokeVia (key_eq_of_equivalent h) (alike_perform ih h)

/-- Equivalent handles do the same when called with arguments that are checked. -/
theorem alike_invokeExact (P : Program) (depth : Nat) (h : a.coincides b = true)
    (args : List Value) : Run.Alike (a.invokeExact P depth args) (b.invokeExact P depth args) := by
  unfold invokeExact
  rw [type_eq_of_equivalent h]
  exact .bind (.ofExcept _) fun _ => alike_invokeBasic P depth a b args h

end Handle

/-- The call of a handle is the work of its node, on a machine with its thunks in order. -/
theorem Machine.Settled.invokeVia {m : Machine} (hm : m.Settled) (P : Program) (call : Caller)
    (h : Handle) (args : List Value) :
    ∃ n : Machine, n.Settled ∧ h.invokeVia P call args m = h.perform P call args n := by
  obtain ⟨t, t', events, cells, -, hthunk, hn⟩ := hm.thunk h
  have hvariant : t.key.variant = h.variant := congrArg _ (hm.key_of_thunk hthunk)
  have hsettled : (({ m with thunks := t', cells := cells } : Machine).reports events).Settled := by
    rw [Machine.reports_store]
    exact ⟨hn.table, hn.cells⟩
  refine ⟨_, hsettled, ?_⟩
  unfold Handle.invokeVia
  rw [bind_eq_of_ok hthunk, hvariant, h.enter_variant]

/-! ## Thunks in order -/

/-- Whether two machines keep the same thunks. -/
def Machine.SameThunks (m n : Machine) : Prop := n.cells = m.cells ∧ n.thunks = m.thunks

theorem Machine.allows_sameThunks : Machine.Allows SameThunks where
  refl _ := ⟨rfl, rfl⟩
  trans h h' := ⟨h'.1.trans h.1, h'.2.trans h.2⟩
  report _ _ := ⟨rfl, rfl⟩
  stamp _ _ := ⟨rfl, rfl⟩

theorem Machine.SameThunks.settled {m n : Machine} (h : m.SameThunks n) (hm : m.Settled) :
    n.Settled := by
  obtain ⟨hcells, hthunks⟩ := h
  constructor
  · rw [hthunks]
    exact hm.table
  · rw [hcells, hthunks]
    exact hm.cells

/-- A variable-arity handle uses the collector that it remembers, if that is for as many arguments, or
makes one. -/
theorem collectorFor_cases (G : ClassGraph) (target : Handle) (array : Ty) (cell : Stamp)
    (count : Nat) (m : Machine) :
    (∃ h, m.collectors.lookup cell = some (count, h) ∧
        collectorFor G target array cell count m = .ok h m) ∨
      collectorFor G target array cell count m = freshCollector G target array cell count m := by
  unfold collectorFor
  cases m.collectors.lookup cell with
  | none => exact .inr rfl
  | some found =>
    obtain ⟨n, h⟩ := found
    by_cases hn : n = count
    · subst hn
      exact .inl ⟨h, rfl, if_pos rfl⟩
    · exact .inr (if_neg hn)

/-- A new collector is remembered. -/
theorem stays_freshCollector {R : Machine → Machine → Prop} (hR : Machine.Allows R)
    (hcollectors : ∀ (m : Machine) (c : List (Stamp × (Nat × Handle))),
      R m { m with collectors := c })
    (G : ClassGraph) (target : Handle) (array : Ty) (cell : Stamp) (count : Nat) :
    (freshCollector G target array cell count).Stays R := by
  intro m
  have hbuild := Link.Stays.build hR (fun s => target.asCollector G s array count) m
  unfold Link.start freshCollector
  unfold Link.start at hbuild
  cases hm : Link.build (fun s => target.asCollector G s array count) m with
  | ok k m' =>
    rw [hm] at hbuild
    exact hR.trans hbuild (hcollectors m' _)
  | error e m' =>
    rw [hm] at hbuild
    exact hbuild

theorem stays_collectorFor {R : Machine → Machine → Prop} (hR : Machine.Allows R)
    (hcollectors : ∀ (m : Machine) (c : List (Stamp × (Nat × Handle))),
      R m { m with collectors := c })
    (G : ClassGraph) (target : Handle) (array : Ty) (cell : Stamp) (count : Nat) :
    (collectorFor G target array cell count).Stays R := by
  intro m
  rcases collectorFor_cases G target array cell count m with ⟨k, -, hk⟩ | hk
  · rw [Link.start, hk]
    exact hR.refl m
  · rw [Link.start, hk]
    exact stays_freshCollector hR hcollectors G target array cell count m

/-- Seeing a handle under another signature makes handles and collectors, and changes nothing else. -/
theorem Handle.stays_asType {R : Machine → Machine → Prop} (hR : Machine.Allows R)
    (hcollectors : ∀ (m : Machine) (c : List (Stamp × (Nat × Handle))),
      R m { m with collectors := c })
    (G : ClassGraph) (h : Handle) (new : Signature) : (h.asType G new).Stays R := by
  unfold asType
  split
  · exact .pure hR h
  split
  · next target array cell _ =>
    extract_lets passesArray
    split
    · exact .build hR _
    · split
      · exact fun m => hR.refl m
      · exact .bind hR (stays_collectorFor hR hcollectors G target array cell _) fun k => .build hR _
  · exact .build hR _

/-- What making handles does to the machine: it asks the member cache in look-ups, remembers collectors
and takes identities. -/
theorem Making.stays_run_of_cached {R : Machine → Machine → Prop} (hR : Machine.Allows R)
    (hcollectors : ∀ (m : Machine) (c : List (Stamp × (Nat × Handle))),
      R m { m with collectors := c }) {G : ClassGraph}
    (hcached : ∀ (op : MemberOp) (u : Use) (key : MemberKey), op.use? G = some u →
      u.key? G = some key → (Lookup.cached key (u.make G key.type)).Stays R)
    (mk : Making) : (mk.run G).Stays R := by
  have hbuild := fun f => Link.Stays.build hR f
  unfold run
  cases mk with
  | member table l op => exact Lookup.stays_perform hR l op (hcached op)
  | asType h new => exact h.stays_asType hR hcollectors G new
  | asFixedArity h => exact .pure hR _
  | target site =>
    intro m
    show R m (Link.start (Link.ofExcept (m.store.getTarget site)) m).2
    cases m.store.getTarget site <;> exact hR.refl m
  | invoker site => exact fun m => hbuild (fun s => m.store.dynamicInvoker site s) m
  | _ => exact hbuild _

/-- Making handles changes what is remembered of handles, and nothing else. -/
theorem Making.stays_run {R : Machine → Machine → Prop} (hR : Machine.Allows R)
    (hcollectors : ∀ (m : Machine) (c : List (Stamp × (Nat × Handle))),
      R m { m with collectors := c })
    (hmembers : ∀ (m : Machine) (c : MemberCache), R m { m with members := c }) (G : ClassGraph)
    (mk : Making) : (mk.run G).Stays R := by
  refine mk.stays_run_of_cached hR hcollectors fun op u key _ _ m => ?_
  obtain ⟨h, members, n, e, hm⟩ := Lookup.exists_of_cached (Use.makes_make key.type) m
  rw [Link.start, hm]
  exact hR.trans (hmembers m members)
    (hR.trans (hR.stamp { m with members := members } n) (hR.report _ e))

/-- No way of making handles touches the thunks. -/
theorem Making.sameThunks_run (G : ClassGraph) (mk : Making) :
    (mk.run G).Stays Machine.SameThunks :=
  mk.stays_run Machine.allows_sameThunks (fun _ _ => ⟨rfl, rfl⟩) (fun _ _ => ⟨rfl, rfl⟩) G

/-- The machine that a computation leaves, however it ends. -/
def Run.leaves {α : Type} (x : Run α) (m : Machine) : Machine :=
  match x m with
  | .ok _ m' => m'
  | .error _ m' => m'

/-- A computation that does the same on machines that are alike leaves the thunks in order, and
everything else that is remembered as it was. -/
theorem Machine.Settled.leaves {m : Machine} (hm : m.Settled) {α : Type} {x : Run α}
    (hx : Run.Alike x x) : (x.leaves m).Settled ∧ m.Remembers (x.leaves m) := by
  have hagree := hx m m ⟨.refl m, hm, hm⟩
  unfold Run.leaves
  generalize x m = r at hagree
  cases hagree with
  | ok _ alike left => exact ⟨alike.left, left⟩
  | error _ alike left => exact ⟨alike.left, left⟩

/-- The machines that can be reached: handles are made in all the ways there are and called, for any
program, and the slots, the call sites and the record of what has run change in any way. -/
inductive Machine.Reached : Machine → Prop where
  | start (memberCache : Bool) : Reached (.initial memberCache)
  | made {m : Machine} (before : Reached m) (G : ClassGraph) (mk : Making) :
    Reached ((mk.run G).start m).2
  | called {m : Machine} (before : Reached m) (P : Program) (depth : Nat) (h : Handle)
      (args : List Value) : Reached ((h.invokeExact P depth args).leaves m)
  | changed {m : Machine} (before : Reached m) (s : Store) (calls : Array Call) :
    Reached { m with store := s, calls := calls }

/-- Wherever a machine has got to, its thunks are in order. -/
theorem Machine.Reached.settled {m : Machine} (h : m.Reached) : m.Settled := by
  induction h with
  | start =>
    constructor
    · intro k entry hk
      cases hk
    · intro k t hk
      cases hk
  | @made m _ G mk ih => exact (mk.sameThunks_run G m).settled ih
  | called _ P depth h args ih =>
    exact (ih.leaves (Handle.alike_invokeExact P depth h.coincides_refl args)).1
  | changed _ _ _ ih => exact ⟨ih.table, ih.cells⟩

/-! ## Constants seen as wrappers -/

theorem ClassGraph.isAssignable_wrapper (G : ClassGraph) (p q : Prim) :
    G.isAssignable (Ty.wrapper p) (Ty.wrapper q) = (p == q) := by
  cases p <;> cases q <;> rfl

/-- A wrapper is cast to its own class only, whatever it holds. -/
theorem Value.castTo_wrapper (G : ClassGraph) (p q : Prim) (content : Value) :
    (obj (.boxed p content)).castTo G (Ty.wrapper q) =
      if p = q then .ok (obj (.boxed p content))
      else .error (.cannotCast (obj (.boxed p content)) (Ty.wrapper q)) := by
  have hinstance : (Object.boxed p content).isInstance G (Ty.wrapper q) = (p == q) :=
    G.isAssignable_wrapper p q
  simp only [castTo, hinstance, beq_iff_eq]

namespace Handle

/-- The constant, seen as answering an object. -/
def ofObject (s : Stamp) (v : Value) : Handle :=
  ⟨s, ⟨[], .object, List.not_mem_nil, Nat.zero_le _⟩, .constant v⟩

/-- The constant, seen as answering a wrapper of the class for `p`. -/
def ofWrapper (s : Stamp) (p : Prim) (v : Value) : Handle :=
  ⟨s + 1, ⟨[], Ty.wrapper p, List.not_mem_nil, Nat.zero_le _⟩,
    .convert (ofObject s v) [] (.checkCast (Ty.wrapper p))⟩

variable {v w : Value} {p q : Prim}

theorem constant_boxed (G : ClassGraph) (s : Stamp) (p : Prim) (content : Value) :
    constant G s .object (.obj (.boxed p content)) = .ok (ofObject s (.obj (.boxed p content))) := by
  cases p <;> rfl

theorem convertTo_ofObject (G : ClassGraph) (s : Stamp) (p : Prim) (v : Value) :
    (ofObject s v).convertTo G (s + 1) (ofWrapper s p v).type = .ok (ofWrapper s p v) := by
  cases p <;> rfl

theorem isEquivalent_ofWrapper (h : v.same w = true) (s s' : Stamp) :
    (ofWrapper s p v).isEquivalent (ofWrapper s' p w) = true := by
  rw [isEquivalent_eq]
  simp [equivalentBy, Node.equivalentBy, ofWrapper, ofObject, h]

/-- A constant that is seen as a wrapper is cast at each call. -/
theorem invokeExact_ofWrapper {m : Machine} (hm : m.Settled) (P : Program) (s : Stamp) :
    ∃ n, (ofWrapper s p v).invokeExact P 2 [] m =
      match v.castTo P.graph (Ty.wrapper p) with
      | .ok w => .ok w n
      | .error e => .error (.error (.conversion e)) n := by
  obtain ⟨l, hl, hcall⟩ := hm.invokeVia P (invokeBasic P 1) (ofWrapper s p v) []
  obtain ⟨n, -, hconstant⟩ := hl.invokeVia P (invokeBasic P 0) (ofObject s v) []
  have hanswer : invokeBasic P 1 (ofObject s v) [] l = .ok v n := hconstant
  refine ⟨n, ?_⟩
  rw [invokeExact_of_check rfl, invokeBasic_succ, hcall]
  show EStateM.bind (invokeBasic P 1 (ofObject s v) []) _ l = _
  unfold EStateM.bind
  rw [hanswer]
  show (match v.castTo P.graph (Ty.wrapper p) with
    | .ok w => pure w
    | .error e => Run.fail (.conversion e) : Run Value) n = _
  cases v.castTo P.graph (Ty.wrapper p) <;> rfl

end Handle

/-! ## Equivalent handles -/

/-- **What equivalent handles do.** Two equivalent handles do the same if the wrappers that they bind
are of the same classes: called with the same arguments in the same state, they answer the same value
or fail with the same error, and leave the same state, the same slots and call sites, and the same
method bodies have run on the same arguments. The two calls may be made on two machines, which remember
different things for their handles.

Equivalence does not look at the classes of wrappers, but casts do. Any two values that are the same in
wrappers of different classes can be bound so that of two equivalent handles one answers its value and
the other one refuses its own. -/
theorem Handle.invokeExact_of_isEquivalent (P : Program) :
    (∀ {m n : Machine}, m.Reached → n.Reached → m.SameState n →
      ∀ {a b : Handle}, a.isEquivalent b = true → a.wrapsAlike b = true →
        ∀ (depth : Nat) (args : List Value),
          Run.Agree m n (a.invokeExact P depth args m) (b.invokeExact P depth args n)) ∧
    ∀ {v w : Value}, v.same w = true → v.wrapper? ≠ w.wrapper? →
      ∃ c d a b : Handle,
        constant P.graph c.stamp .object v = .ok c ∧ constant P.graph d.stamp .object w = .ok d ∧
          c.convertTo P.graph a.stamp a.type = .ok a ∧ d.convertTo P.graph b.stamp b.type = .ok b ∧
            a.isEquivalent b = true ∧ ∀ m : Machine, m.Reached →
              (∃ n, a.invokeExact P 2 [] m = .ok v n) ∧
                ∃ e n, b.invokeExact P 2 [] m = .error (.error e) n ∧ e.kind = .typeMismatch := by
  constructor
  · intro m n hm hn hmn a b hab hclasses depth args
    rw [isEquivalent_eq] at hab
    exact alike_invokeExact P depth (coincides_of_equivalent hab hclasses) args m n
      ⟨hmn, hm.settled, hn.settled⟩
  · intro v w hvw hne
    obtain ⟨p, q, x, y, rfl, rfl, hpq⟩ := Value.boxed_of_wrapper?_ne hvw hne
    refine ⟨_, _, ofWrapper 0 p _, ofWrapper 2 p _, constant_boxed P.graph 0 p x,
      constant_boxed P.graph 2 q y, convertTo_ofObject P.graph 0 p _, convertTo_ofObject P.graph 2 p _,
      isEquivalent_ofWrapper hvw 0 2, fun m hm => ⟨?_, ?_⟩⟩
    · obtain ⟨n, hcall⟩ := invokeExact_ofWrapper (v := .obj (.boxed p x)) (p := p) hm.settled P 0
      rw [Value.castTo_wrapper, if_pos rfl] at hcall
      exact ⟨n, hcall⟩
    · obtain ⟨n, hcall⟩ := invokeExact_ofWrapper (v := .obj (.boxed q y)) (p := p) hm.settled P 2
      rw [Value.castTo_wrapper, if_neg (Ne.symm hpq)] at hcall
      exact ⟨_, n, hcall, rfl⟩

/-- A handle on one of the twins, seen as answering an object. -/
def Handle.boxedTwin (s : Stamp) : Handle :=
  ⟨s + 1, ⟨[], .object, List.not_mem_nil, Nat.zero_le _⟩,
    .convert ⟨s, ⟨[], .prim .int, List.not_mem_nil, Nat.zero_le _⟩,
      .direct ⟨bootstrapCount, 0⟩ .static⟩ [] (.box .int)⟩

/-- Built twice from nothing shared, the handle runs the twin's body both times and answers its zero.
Two wrappers of the long 5, one of them of the class for `int`, are the same but in different ones. -/
theorem Handle.invokeExact_of_isEquivalent_of_boxedTwin :
    ((boxedTwin 0).isSame (boxedTwin 2) = false ∧
      Run.Agree (.initial false) (.initial false)
        ((boxedTwin 0).invokeExact (.zeros twins) 3 [] (.initial false))
        ((boxedTwin 2).invokeExact (.zeros twins) 3 [] (.initial false)) ∧
      ∃ m, (boxedTwin 2).invokeExact (.zeros twins) 3 [] (.initial false) =
        .ok (.boxed (.prim (.int 0))) m ∧ m.calls.size = 1) ∧
    ∃ a b : Handle, a.isEquivalent b = true ∧
      (∃ m, a.invokeExact (.zeros twins) 2 [] (.initial false) =
        .ok (.obj (.boxed .int (.prim (.long 5)))) m) ∧
      ∃ e m, b.invokeExact (.zeros twins) 2 [] (.initial false) = .error (.error e) m ∧
        e.kind = .typeMismatch := by
  obtain ⟨hagree, hdiffer⟩ := invokeExact_of_isEquivalent (.zeros twins)
  refine ⟨⟨rfl, hagree (.start false) (.start false) (.refl _) rfl rfl 3 [], _, rfl, rfl⟩, ?_⟩
  obtain ⟨-, -, a, b, -, -, -, -, hab, hcalls⟩ := hdiffer
    (v := .obj (.boxed .int (.prim (.long 5)))) (w := .boxed (.prim (.long 5))) (by decide)
    (by decide)
  exact ⟨a, b, hab, hcalls _ (.start false)⟩

end HandleCalculus
