import HandleCalculus.Proofs.Entries
import HandleCalculus.Proofs.LogBlindness

/-!
# Calls without thunks

A thunk only says which entry routine to run. So a call can do without: each handle does the work of
its own node, and so do those that it calls (`Handle.invokeUncached`). On machines that have every thunk
under its own key (`Machine.Keyed`), whatever thunks these are, both calls end alike: with the same
answer or for the same reason, with the same bodies run and the same store, the log apart
(`Handle.same_invokeBasic`). The bodies must be blind to the log, which tells of the thunks compiled.

The proof is an induction on the depth, and at each level one on the work of the node as a tree. That
machines stay keyed is shown the same way, for all programs (`Handle.keeps_keyed_invokeBasic`).
-/

set_option autoImplicit false

namespace HandleCalculus

/-! ## Thunks under their keys -/

/-- Whether a thunk is one for a key: of its entry routine, its argument slots and its result. -/
structure Thunk.For (t : Thunk) (k : ThunkKey) : Prop where
  key : t.key = k
  argSlots : t.argSlots = k.shape.slots
  ret : t.ret = k.shape.ret

/-- What is compiled for a key is for that key. -/
theorem Thunk.for_of_compile {id : Nat} {k : ThunkKey} {t : Thunk} (h : compile id k = .ok t) :
    t.For k := by
  unfold compile at h
  split at h
  · cases h
  · obtain rfl := Except.ok.inj h
    exact ⟨rfl, rfl, rfl⟩

/-- The thunk of a handle can be compiled: its signature has no more slots than a shape may have. -/
theorem Handle.exists_compile (h : Handle) (id : Nat) : ∃ t, Thunk.compile id h.key = .ok t :=
  ⟨_, if_neg (Nat.not_lt.2 h.slots_key)⟩

/-- Whether a machine has every thunk under its own key, in the table and in the cells of handles, and
nobody is compiling. -/
structure Machine.Keyed (m : Machine) : Prop where
  table : ∀ k entry, m.thunks.cache.find? k = some entry → ∃ t : Thunk, entry = .ready t ∧ t.For k
  idle : ∀ mark, m.thunks.cache.isFinished mark = true
  cells : ∀ k t, m.cells.lookup k = some t → t.For k.2

/-- A look-up that compiles ends its own marker. -/
theorem CompileOnce.Cache.isFinished_get_ok {K D E : Type} [DecidableEq K] {c : Cache K D} {k : K}
    (hk : c.find? k = none) (d : D) (h : ∀ mark, c.isFinished mark = true) (mark : Marker) :
    (c.get k (.ok d : Except E D)).2.isFinished mark = true := by
  have hclaim : c.claim k = (.claimed c.finished.length, (c.claim k).2) := by simp [claim, hk]
  rw [get, hclaim]
  show ((c.claim k).2.finished.set c.finished.length true)[mark]?.getD true = true
  rw [claim_of_none hk]
  have hmark := h mark
  unfold isFinished at hmark
  dsimp only
  rw [List.set_append_right _ _ (Nat.le_refl _), Nat.sub_self, List.set_cons_zero]
  rcases Nat.lt_trichotomy mark c.finished.length with hlt | rfl | hlt
  · rwa [List.getElem?_append_left hlt]
  · rw [List.getElem?_concat_length]
    rfl
  · rw [List.getElem?_eq_none (by rw [List.length_append]; exact hlt)]
    rfl

namespace Machine.Keyed

variable {m : Machine}

/-- Only thunks and cells make a difference. -/
theorem change (hm : m.Keyed) (s : Store) (calls : Array Call) :
    ({ m with store := s, calls := calls } : Machine).Keyed := ⟨hm.table, hm.idle, hm.cells⟩

theorem withStore (hm : m.Keyed) (s : Store) : ({ m with store := s } : Machine).Keyed :=
  hm.change s m.calls

theorem reports (hm : m.Keyed) (es : List Event) : (m.reports es).Keyed := by
  rw [Machine.reports_store]
  exact hm.withStore _

end Machine.Keyed

/-! ## Computations with the same ends -/

/-- What is visible of a machine: the store without its log, and the method bodies run. -/
def Machine.visible (m : Machine) : Store × Array Call := (m.store.unlogged, m.calls)

/-- How the ends of two computations match: in the value or in why they stopped, and in what is visible
of the machines left, which are keyed. -/
inductive Run.Match {α : Type} :
    EStateM.Result Stop Machine α → EStateM.Result Stop Machine α → Prop where
  | ok {m n : Machine} (a : α) (visible : m.visible = n.visible) (left : m.Keyed)
    (right : n.Keyed) : Match (.ok a m) (.ok a n)
  | error {m n : Machine} (e : Stop) (visible : m.visible = n.visible) (left : m.Keyed)
    (right : n.Keyed) : Match (.error e m) (.error e n)

/-- Whether two computations end alike on keyed machines that look the same. -/
def Run.Same {α : Type} (x y : Run α) : Prop :=
  ∀ m n : Machine, m.Keyed → n.Keyed → m.visible = n.visible → Run.Match (x m) (y n)

theorem Machine.visible_eq_iff {m n : Machine} :
    m.visible = n.visible ↔ m.store.unlogged = n.store.unlogged ∧ m.calls = n.calls := Prod.ext_iff

namespace Run

variable {α β : Type} {x y z : Run α}

theorem Match.symm {r r' : EStateM.Result Stop Machine α} (h : Match r r') : Match r' r := by
  cases h with
  | ok a visible left right => exact .ok a visible.symm right left
  | error e visible left right => exact .error e visible.symm right left

theorem Match.trans {r r' r'' : EStateM.Result Stop Machine α} (h : Match r r')
    (h' : Match r' r'') : Match r r'' := by
  cases h with
  | ok a visible left right =>
    cases h' with
    | ok _ visible' left' right' => exact .ok a (visible.trans visible') left right'
  | error e visible left right =>
    cases h' with
    | error _ visible' left' right' => exact .error e (visible.trans visible') left right'

/-- Ends that match are seen to be the same. -/
theorem Match.seen_eq {r r' : EStateM.Result Stop Machine α} (h : Match r r') :
    seen Machine.visible r = seen Machine.visible r' := by
  cases h with
  | ok a visible _ _ => exact Prod.ext rfl visible
  | error e visible _ _ => exact Prod.ext rfl visible

namespace Same

theorem symm (h : Run.Same x y) : Run.Same y x :=
  fun m n hm hn hmn => (h n m hn hm hmn.symm).symm

theorem trans (h : Run.Same x y) (h' : Run.Same y z) : Run.Same x z :=
  fun m n hm hn hmn => (h m m hm hm rfl).trans (h' m n hm hn hmn)

theorem pure (a : α) : Run.Same (Pure.pure a) (Pure.pure a) :=
  fun _ _ hm hn hmn => .ok a hmn hm hn

theorem throw (e : Stop) : Run.Same (α := α) (throw e) (throw e) :=
  fun _ _ hm hn hmn => .error e hmn hm hn

theorem bind {f g : α → Run β} (hx : Run.Same x y) (hf : ∀ a, Run.Same (f a) (g a)) :
    Run.Same (x >>= f) (y >>= g) := by
  intro m n hm hn hmn
  have hmatch := hx m n hm hn hmn
  show Match (EStateM.bind x f m) (EStateM.bind y g n)
  unfold EStateM.bind
  generalize x m = r at hmatch
  generalize y n = r' at hmatch
  cases hmatch with
  | ok a visible left right => exact hf a _ _ left right visible
  | error e visible left right => exact .error e visible left right

end Same

end Run

/-! ## The work of nodes -/

/-- Whether a handler takes an error, and as which throwable, does not depend on the log. -/
theorem Error.caughtBy?_unlogged (G : ClassGraph) (c : ClassId) (s : Store) (e : Error) :
    (e.caughtBy? G c s).map (fun made => (made.1, made.2.unlogged)) =
      e.caughtBy? G c s.unlogged := by
  have hthrowable : (e.throwable? G s).map (fun made => (made.1, made.2.unlogged)) =
      e.throwable? G s.unlogged := by
    by_cases he : ∀ o, e ≠ .thrown o
    · rw [throwable?_of_ne he, throwable?_of_ne he]
      cases e.exceptionClass? <;> rfl
    · obtain ⟨o, ho⟩ := not_forall.1 he
      rw [not_not.1 ho]
      rfl
  unfold caughtBy?
  rw [← hthrowable, Option.filter_map]
  rfl

section Nodes

variable {P : Program} {call call' : Caller}

/-- A body that is blind to the log does the same. -/
theorem Program.same_runBody (hP : P.Blind) (m : MethodRef) (args : List Value) :
    Run.Same (P.runBody m args) (P.runBody m args) := by
  intro s t hs ht hst
  obtain ⟨hstore, hcalls⟩ := Machine.visible_eq_iff.1 hst
  unfold runBody
  rw [hcalls]
  rcases ends_of_seen_eq ((hP m args).seen_eq hstore) with
    ⟨v, s', t', hv, hv', hst'⟩ | ⟨o, s', t', ho, ho', hst'⟩
  · simp only [hv, hv']
    exact .ok v (Machine.visible_eq_iff.2 ⟨hst', rfl⟩) (hs.change _ _) (ht.change _ _)
  · simp only [ho, ho']
    exact .error _ (Machine.visible_eq_iff.2 ⟨hst', rfl⟩) (hs.change _ _) (ht.change _ _)

variable (hP : P.Blind) (hcall : ∀ h args, Run.Same (call h args) (call' h args))

include hP hcall

theorem Callee.same_run (c : Callee) (args : List Value) :
    Run.Same (c.run P call args) (c.run P call' args) := by
  cases c with
  | handle h => exact hcall h args
  | body m => exact P.same_runBody hP m args

/-- Work that is blind to the log does the same over callers that do the same. -/
theorem Work.same_perform {w : Work} (hw : w.Blind) :
    Run.Same (w.perform P call) (w.perform P call') := by
  induction w with
  | answer v => exact .pure v
  | stop s => exact .throw s
  | effect f next ih =>
    obtain ⟨hf, hnext⟩ := hw
    intro m n hm hn hmn
    obtain ⟨hstore, hcalls⟩ := Machine.visible_eq_iff.1 hmn
    have hsame := (hf m.store).symm.trans ((congrArg _ (congrArg f hstore)).trans (hf n.store))
    unfold perform
    cases hfm : f m.store with
    | ok p =>
      cases hfn : f n.store with
      | ok q =>
        obtain ⟨a, s⟩ := p
        obtain ⟨b, t⟩ := q
        rw [hfm, hfn] at hsame
        obtain ⟨hab, hst⟩ := Prod.mk.inj (Except.ok.inj hsame)
        obtain rfl : a = b := hab
        exact ih a (hnext a) _ _ (hm.withStore s) (hn.withStore t)
          (Machine.visible_eq_iff.2 ⟨hst, hcalls⟩)
      | error e =>
        rw [hfm, hfn] at hsame
        cases hsame
    | error e =>
      cases hfn : f n.store with
      | ok q =>
        rw [hfm, hfn] at hsame
        cases hsame
      | error e' =>
        rw [hfm, hfn] at hsame
        obtain rfl : e = e' := Except.error.inj hsame
        exact .error _ hmn hm hn
  | run c args next ih => exact .bind (c.same_run hP hcall args) fun v => ih v (hw v)

/-- A node does the same over callers that do the same. -/
theorem Handle.same_perform (h : Handle) (args : List Value) :
    Run.Same (h.perform P call args) (h.perform P call' args) := by
  by_cases hnode : h.Catches
  · obtain ⟨target, c, handler, hnode⟩ := hnode
    by_cases hhandles : handler.Handles args
    · intro m n hm hn hmn
      have htarget := hcall target args m n hm hn hmn
      rw [perform_catching hnode hhandles, perform_catching hnode hhandles]
      generalize call target args m = r at htarget
      generalize call' target args n = r' at htarget
      cases htarget with
      | ok v visible left right => exact .ok v visible left right
      | @error m' n' e visible left right =>
        cases e with
        | error e =>
          obtain ⟨hstore, hcalls⟩ := Machine.visible_eq_iff.1 visible
          have hcaught := e.caughtBy?_unlogged P.graph c m'.store
          rw [hstore, ← e.caughtBy?_unlogged P.graph c n'.store] at hcaught
          dsimp only
          cases hm' : e.caughtBy? P.graph c m'.store with
          | none =>
            rw [hm'] at hcaught
            rw [Option.map_eq_none_iff.1 hcaught.symm]
            exact .error _ visible left right
          | some made =>
            rw [hm'] at hcaught
            obtain ⟨made', hn', hmade⟩ := Option.map_eq_some_iff.1 hcaught.symm
            obtain ⟨o, s⟩ := made
            obtain ⟨o', t⟩ := made'
            obtain ⟨rfl, hst⟩ := Prod.mk.inj hmade
            rw [hn']
            exact hcall handler _ _ _ (left.withStore s) (right.withStore t)
              (Machine.visible_eq_iff.2 ⟨hst.symm, hcalls⟩)
        | fault v => exact .error _ visible left right
        | exhausted => exact .error _ visible left right
    · rw [perform_catching_of_not hnode hhandles, perform_catching_of_not hnode hhandles]
      exact .throw _
  · rw [perform_eq_work P call hnode, perform_eq_work P call' hnode]
    exact Work.same_perform hP hcall (blind_work P.graph h args)

end Nodes

/-! ## Calls -/

/-- Calls a handle without thunks: its node does its work, over calls that are one less deep. -/
def Handle.invokeUncached (P : Program) : Nat → Caller
  | 0 => fun _ _ => throw .exhausted
  | depth + 1 => fun h args => h.perform P (Handle.invokeUncached P depth) args

theorem Machine.visible_reports (m : Machine) (es : List Event) :
    (m.reports es).visible = m.visible := by
  rw [Machine.reports_store]
  refine Machine.visible_eq_iff.2 ⟨?_, rfl⟩
  induction es generalizing m with
  | nil => rfl
  | cons e es ih => exact ih (m.report e)

/-- The machine on which a handle keeps a thunk. -/
def Machine.keep (m : Machine) (h : Handle) (t : Thunk) : Machine :=
  { m with cells := ((h.stamp, h.key), t) :: m.cells }

namespace Machine.Keyed

variable {m : Machine}

theorem keep (hm : m.Keyed) {h : Handle} {t : Thunk} (ht : t.For h.key) : (m.keep h t).Keyed where
  table := hm.table
  idle := hm.idle
  cells := forall_lookup_cons hm.cells ht

/-- How a thunk is fetched: the handle keeps it, or the table has it, or it is compiled. -/
theorem thunk_cases (hm : m.Keyed) (h : Handle) :
    (∃ t, m.cells.lookup (h.stamp, h.key) = some t ∧ h.thunk m = .ok t m) ∨
      m.cells.lookup (h.stamp, h.key) = none ∧
        ((∃ t, m.thunks.cache.find? h.key = some (.ready t) ∧ h.thunk m = .ok t (m.keep h t)) ∨
          ∃ t thunks, m.thunks.cache.find? h.key = none ∧
            Thunk.compile m.thunks.nextId h.key = .ok t ∧
            thunks = ⟨(m.thunks.cache.get h.key (.ok t : Except CompileError Thunk)).2,
              m.thunks.nextId + 1⟩ ∧
            h.thunk m = .ok t (({ m with thunks := thunks }.keep h t).reports
              [.compiling h.key, .compiled t.id h.key])) := by
  unfold Handle.thunk
  cases hcell : m.cells.lookup (h.stamp, h.key) with
  | some t => exact .inl ⟨t, rfl, rfl⟩
  | none =>
    refine .inr ⟨rfl, ?_⟩
    cases hfind : m.thunks.cache.find? h.key with
    | some entry =>
      obtain ⟨t, rfl, ht⟩ := hm.table _ entry hfind
      have hget : m.thunks.get h.key = (.ok t, m.thunks, []) := by
        simp [ThunkTable.get, CompileOnce.Cache.peek?, hfind]
      rw [hget]
      exact .inl ⟨t, rfl, rfl⟩
    | none =>
      obtain ⟨t, hcompile⟩ := h.exists_compile m.thunks.nextId
      have hget : m.thunks.get h.key = (.ok t,
          ⟨(m.thunks.cache.get h.key (.ok t : Except CompileError Thunk)).2, m.thunks.nextId + 1⟩,
          [.compiling h.key, .compiled t.id h.key]) := by
        simp [ThunkTable.get, CompileOnce.Cache.peek?, hfind, hcompile]
      rw [hget]
      exact .inr ⟨t, _, rfl, hcompile, rfl, rfl⟩

/-- A keyed machine has a thunk for every handle, fetches it, and looks the same after that. -/
theorem thunk (hm : m.Keyed) (h : Handle) :
    ∃ t n, h.thunk m = .ok t n ∧ t.For h.key ∧ n.Keyed ∧ n.visible = m.visible := by
  rcases hm.thunk_cases h with ⟨t, hcell, hthunk⟩ |
    ⟨-, ⟨t, hready, hthunk⟩ | ⟨t, thunks, hnone, hcompile, rfl, hthunk⟩⟩
  · exact ⟨t, m, hthunk, hm.cells _ t hcell, hm, rfl⟩
  · obtain ⟨t', ht', hfor⟩ := hm.table _ _ hready
    obtain rfl := CompileOnce.Entry.ready.inj ht'
    exact ⟨t, _, hthunk, hfor, hm.keep hfor, rfl⟩
  · have hfor := Thunk.for_of_compile hcompile
    have hcompiled : ({ m with thunks := ⟨(m.thunks.cache.get h.key
        (.ok t : Except CompileError Thunk)).2, m.thunks.nextId + 1⟩ } : Machine).Keyed := by
      refine ⟨fun k entry hk => ?_, CompileOnce.Cache.isFinished_get_ok hnone t hm.idle, hm.cells⟩
      rw [CompileOnce.Cache.find?_get_ok hnone] at hk
      split at hk
      · next heq =>
        obtain rfl := Option.some.inj hk
        rw [heq]
        exact ⟨t, rfl, hfor⟩
      · exact hm.table k entry hk
    exact ⟨t, _, hthunk, hfor, (hcompiled.keep hfor).reports _, Machine.visible_reports _ _⟩

end Machine.Keyed

/-- The call of a handle through its thunk is the work of its node, on a machine that looks the same. -/
theorem Machine.Keyed.invokeVia {m : Machine} (hm : m.Keyed) (P : Program) (call : Caller)
    (h : Handle) (args : List Value) :
    ∃ n : Machine, n.Keyed ∧ n.visible = m.visible ∧
      h.invokeVia P call args m = h.perform P call args n := by
  obtain ⟨t, n, hthunk, hfor, hn, hvisible⟩ := hm.thunk h
  have hvariant : t.key.variant = h.variant := congrArg _ hfor.key
  refine ⟨n, hn, hvisible, ?_⟩
  unfold Handle.invokeVia
  rw [bind_eq_of_ok hthunk, hvariant, h.enter_variant]

/-- **Calls through thunks end as calls without.** -/
theorem Handle.same_invokeBasic {P : Program} (hP : P.Blind) (depth : Nat) (h : Handle)
    (args : List Value) :
    Run.Same (h.invokeBasic P depth args) (h.invokeUncached P depth args) := by
  -- on the depth: past the thunk, the node does the same over calls that are one less deep
  induction depth generalizing h args with
  | zero => exact .throw _
  | succ depth ih =>
    intro m n hm hn hmn
    obtain ⟨m', hm', hvisible, hcall⟩ := hm.invokeVia P (Handle.invokeBasic P depth) h args
    show Run.Match (h.invokeVia P (Handle.invokeBasic P depth) args m) _
    rw [hcall]
    exact Handle.same_perform hP ih h args m' n hm' hn (hvisible.trans hmn)

/-- A call does the same on any keyed machines that look the same. -/
theorem Handle.same_invokeBasic_self {P : Program} (hP : P.Blind) (depth : Nat) (h : Handle)
    (args : List Value) :
    Run.Same (h.invokeBasic P depth args) (h.invokeBasic P depth args) :=
  (same_invokeBasic hP depth h args).trans (same_invokeBasic hP depth h args).symm

/-- The call of a handle is the work of its node over calls that are one less deep. -/
theorem Handle.same_invokeBasic_succ {P : Program} (hP : P.Blind) (depth : Nat) (h : Handle)
    (args : List Value) :
    Run.Same (h.invokeBasic P (depth + 1) args) (h.perform P (Handle.invokeBasic P depth) args) := by
  intro m n hm hn hmn
  obtain ⟨m', hm', hvisible, hcall⟩ := hm.invokeVia P (Handle.invokeBasic P depth) h args
  show Run.Match (h.invokeVia P (Handle.invokeBasic P depth) args m) _
  rw [hcall]
  exact same_perform hP (same_invokeBasic_self hP depth) h args m' n hm' hn (hvisible.trans hmn)

/-- Handles whose nodes do the same work do the same when they are called. -/
theorem Handle.same_invokeBasic_of_perform {P : Program} (hP : P.Blind) {h k : Handle}
    {args : List Value} (hperform : ∀ call, k.perform P call args = h.perform P call args)
    (depth : Nat) :
    Run.Same (k.invokeBasic P depth args) (h.invokeBasic P depth args) := by
  cases depth with
  | zero => exact .throw _
  | succ depth =>
    have hk := same_invokeBasic_succ hP depth k args
    rw [hperform] at hk
    exact hk.trans (same_invokeBasic_succ hP depth h args).symm

/-! ## What calls keep

Whatever the bodies do, a machine that is called on stays keyed. -/

/-- Whether a property of machines can only be changed by making handles or fetching thunks. -/
structure Machine.Lasts (I : Machine → Prop) : Prop where
  store : ∀ m s, I m → I { m with store := s }
  body : ∀ m s call, I m → I { m with store := s, calls := m.calls.push call }

theorem Machine.lasts_keyed : Machine.Lasts Machine.Keyed :=
  ⟨fun _ s hm => hm.withStore s, fun _ s _ hm => hm.change s _⟩

/-- Whether a computation keeps a property of the machine, however it ends. -/
def Run.Keeps {α : Type} (I : Machine → Prop) (x : Run α) : Prop := ∀ m, I m → I (x.leaves m)

/-- Whether what the nodes and the bodies of a program do on the store leaves a property of machines as
it is. -/
structure Machine.KeptBy (P : Program) (I : Machine → Prop) : Prop where
  step : ∀ {α : Type} {f : Store → Except Error (α × Store)}, Store.Primitive f → ∀ m a s,
    f m.store = .ok (a, s) → I m → I { m with store := s }
  caught : ∀ (c : ClassId) (e : Error) m o s, e.caughtBy? P.graph c m.store = some (o, s) → I m →
    I { m with store := s }
  body : ∀ m args, (P.runBody m args).Keeps I

theorem Machine.Lasts.keptBy {I : Machine → Prop} (hI : Machine.Lasts I) (P : Program) :
    Machine.KeptBy P I where
  step _ m _ s _ := hI.store m s
  caught _ _ m _ s _ := hI.store m s
  body m args s hs := by
    simp only [Run.leaves, Program.runBody]
    cases P.body m args s.store with
    | ok v store => exact hI.body s store ⟨m, args⟩ hs
    | error o store => exact hI.body s store ⟨m, args⟩ hs

section Keeps

variable {α β : Type} {I : Machine → Prop}

theorem Run.Keeps.bind {x : Run α} {f : α → Run β} (hx : x.Keeps I) (hf : ∀ a, (f a).Keeps I) :
    (x >>= f).Keeps I := by
  intro m hm
  have hleft := hx m hm
  cases hxm : x m with
  | ok a m' =>
    rw [leaves_bind_of_ok hxm]
    rw [leaves_of_ok hxm] at hleft
    exact hf a m' hleft
  | error e m' =>
    rw [leaves_bind_of_error hxm]
    exact hleft

variable {P : Program} {call : Caller} (hI : Machine.KeptBy P I)
  (hcall : ∀ h args, (call h args).Keeps I)

include hI hcall

theorem Callee.keeps_run (c : Callee) (args : List Value) : (c.run P call args).Keeps I := by
  cases c with
  | handle h => exact hcall h args
  | body m => exact hI.body m args

theorem Work.keeps_perform {w : Work} (hw : w.Plain) : (w.perform P call).Keeps I := by
  induction w with
  | answer v => exact fun m hm => hm
  | stop s => exact fun m hm => hm
  | effect f next ih =>
    intro m hm
    unfold Run.leaves perform
    cases hf : f m.store with
    | ok p => exact ih p.1 (hw.2 p.1) _ (hI.step hw.1 m p.1 p.2 hf hm)
    | error e => exact hm
  | run c args next ih => exact .bind (c.keeps_run hI hcall args) fun v => ih v (hw v)

theorem Handle.keeps_perform (h : Handle) (args : List Value) : (h.perform P call args).Keeps I := by
  by_cases hnode : h.Catches
  · obtain ⟨target, c, handler, hnode⟩ := hnode
    by_cases hhandles : handler.Handles args
    · intro m hm
      have htarget := hcall target args m hm
      unfold Run.leaves at htarget ⊢
      rw [perform_catching hnode hhandles]
      cases hrun : call target args m with
      | ok v n =>
        rw [hrun] at htarget
        exact htarget
      | error s n =>
        rw [hrun] at htarget
        cases s with
        | error e =>
          dsimp only
          cases hcaught : e.caughtBy? P.graph c n.store with
          | none => exact htarget
          | some made => exact hcall handler _ _ (hI.caught c e n made.1 made.2 hcaught htarget)
        | fault v => exact htarget
        | exhausted => exact htarget
    · rw [perform_catching_of_not hnode hhandles]
      exact fun m hm => hm
  · rw [perform_eq_work P call hnode]
    exact Work.keeps_perform hI hcall (h.plain_work P.graph args)

end Keeps

/-- Calls keep what is kept by fetching thunks and by what they do on the store. -/
theorem Handle.keeps_invokeBasic {P : Program} {I : Machine → Prop} (hI : Machine.KeptBy P I)
    (hthunk : ∀ h : Handle, h.thunk.Keeps I) (depth : Nat) (h : Handle) (args : List Value) :
    (h.invokeBasic P depth args).Keeps I := by
  -- on the depth: past the thunk, the node keeps what the calls that it makes keep
  induction depth generalizing h args with
  | zero => exact fun m hm => hm
  | succ depth ih =>
    refine .bind (hthunk h) fun t => ?_
    by_cases hvariant : t.key.variant = h.variant
    · rw [hvariant, enter_variant]
      exact h.keeps_perform hI ih args
    · intro m hm
      rw [leaves_enter_of_ne hvariant]
      exact hm

/-- Calls leave a keyed machine keyed. -/
theorem Handle.keeps_keyed_invokeBasic (P : Program) (depth : Nat) (h : Handle)
    (args : List Value) : (h.invokeBasic P depth args).Keeps Machine.Keyed := by
  refine keeps_invokeBasic (Machine.lasts_keyed.keptBy P) (fun k m hm => ?_) depth h args
  obtain ⟨t, n, hthunk, -, hn, -⟩ := hm.thunk k
  rw [Run.leaves_of_ok hthunk]
  exact hn

theorem Handle.keeps_keyed_invokeExact (P : Program) (depth : Nat) (h : Handle)
    (args : List Value) : (h.invokeExact P depth args).Keeps Machine.Keyed := by
  refine .bind (fun m hm => ?_) fun _ => h.keeps_keyed_invokeBasic P depth args
  cases h.type.check P.graph args <;> exact hm

/-- A machine with the thunks of a keyed one is keyed. -/
theorem Machine.SameThunks.keyed {m n : Machine} (h : m.SameThunks n) (hm : m.Keyed) : n.Keyed := by
  obtain ⟨hcells, hthunks⟩ := h
  refine ⟨?_, ?_, ?_⟩
  · rw [hthunks]
    exact hm.table
  · rw [hthunks]
    exact hm.idle
  · rw [hcells]
    exact hm.cells

/-- Making handles leaves a keyed machine keyed. -/
theorem Making.keyed_run {m : Machine} (hm : m.Keyed) (G : ClassGraph) (mk : Making) :
    ((mk.run G).start m).2.Keyed := (mk.sameThunks_run G m).keyed hm

theorem Machine.keyed_initial (memberCache : Bool) : (Machine.initial memberCache).Keyed := by
  refine ⟨fun k entry hk => ?_, fun mark => rfl, fun k t hk => ?_⟩
  · cases hk
  · cases hk

/-- In a session machines are keyed. -/
theorem Session.keyed {G : ClassGraph} {m : Machine} {hs : List Handle} (hS : Session G m hs) :
    m.Keyed := by
  induction hS with
  | start memberCache _ _ => exact (Machine.keyed_initial memberCache).withStore _
  | @made m m' hs mk h _ _ result ih =>
    have hrun := mk.keyed_run ih G
    rwa [Link.start_of_ok result] at hrun
  | @refused m m' hs mk e _ _ result ih =>
    have hrun := mk.keyed_run ih G
    rwa [Link.start_of_error result] at hrun
  | stored _ _ ih => exact ih.withStore _
  | @called m m' hs P depth h args v _ _ _ _ _ result ih =>
    have hcall := h.keeps_keyed_invokeExact P depth args m ih
    rwa [Run.leaves_of_ok result] at hcall
  | @failed m m' hs P depth h args e _ _ _ _ _ result ih =>
    have hcall := h.keeps_keyed_invokeExact P depth args m ih
    rwa [Run.leaves_of_error result] at hcall

end HandleCalculus
