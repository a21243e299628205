import HandleCalculus.Proofs.ReceiverRestriction
import HandleCalculus.Proofs.DerivedLookups

/-!
# Protected members and their receivers

A lookup may use a protected member of another package on instances of its own class only, which is what
narrowing the first parameter of the handle is for. Narrowing changes the signature and not the node. A
call through the handle checks its arguments against the signature, and so does a call through whatever
converts arguments to it. The target inside a variable-arity handle keeps the wide signature, though,
and is handed out by `asFixedArity` and used by `asType`.

Whatever a program does, handles derived from one that is shielded are shielded
(`Derivations.keeps`). A narrowed handle is shielded unless it is of variable arity, and then exactly
if its target happens to be (`Lookup.restricted_iff`).
-/

set_option autoImplicit false

namespace HandleCalculus

/-! ## Derived handles -/

/-- How handles come about whose receivers are in question: each is looked up, and is then its own root,
or is an adaptation of one at hand, and has the same root. -/
inductive Making.Derives (ds : List (Handle × Handle)) : Making → (Handle → Handle) → Prop where
  | found (table : ClassTable) (l : Lookup) (op : MemberOp) : Derives ds (.member table l op) id
  | asType {r d : Handle} (mem : (r, d) ∈ ds) (new : Signature) :
    Derives ds (.asType d new) fun _ => r
  | asFixedArity {r d : Handle} (mem : (r, d) ∈ ds) : Derives ds (.asFixedArity d) fun _ => r
  | asVarargsCollector {r d : Handle} (mem : (r, d) ∈ ds) (array : Ty) :
    Derives ds (.asVarargsCollector d array) fun _ => r

/-- What a program can do with handles, in any order: the machine it has reached, and the handles it
has looked up or derived, each after its root. Beside these other handles are made, of fixed arity or
with the node of one at hand; handles are called, for any program; and the slots, the call sites and
the record of what has run change in any way. -/
inductive Derivations (G : ClassGraph) : Machine → List (Handle × Handle) → Prop where
  | start (memberCache : Bool) : Derivations G (.initial memberCache) []
  | made {m m' : Machine} {ds : List (Handle × Handle)} {mk : Making} {root : Handle → Handle}
      {h : Handle} (before : Derivations G m ds) (derives : mk.Derives ds root)
      (result : mk.run G m = .ok h m') : Derivations G m' ((root h, h) :: ds)
  | refused {m m' : Machine} {ds : List (Handle × Handle)} {mk : Making} {root : Handle → Handle}
      {e : Error} (before : Derivations G m ds) (derives : mk.Derives ds root)
      (result : mk.run G m = .error e m') : Derivations G m' ds
  | other {m : Machine} {ds : List (Handle × Handle)} {h : Handle} {next : Stamp}
      (before : Derivations G m ds) (plain : h.isVarargs = false ∨ ∃ p ∈ ds, h.node = p.2.node)
      (later : m.nextStamp ≤ next) : Derivations G { m with nextStamp := next } ((h, h) :: ds)
  | called {m : Machine} {ds : List (Handle × Handle)} (before : Derivations G m ds) (P : Program)
      (depth : Nat) (h : Handle) (args : List Value) :
    Derivations G ((h.invokeExact P depth args).leaves m) ds
  | changed {m : Machine} {ds : List (Handle × Handle)} (before : Derivations G m ds) (s : Store)
      (calls : Array Call) : Derivations G { m with store := s, calls := calls } ds

/-- What every step of a program keeps: the machine has its thunks and collectors in order, and what
shields the root of a derived handle shields the handle. -/
structure Machine.Keeps (G : ClassGraph) (m : Machine) (ds : List (Handle × Handle)) : Prop where
  settled : m.Settled
  registers : ∃ T, m.Registers G T (ds.map Prod.snd)
  shielded : ∀ p ∈ ds, ∀ c, p.1.Shielded G c → p.2.Shielded G c

section Steps

variable {G : ClassGraph} {m n : Machine} {ds : List (Handle × Handle)} {mk : Making}
  {root : Handle → Handle}

/-- Only what is remembered matters, thunks apart, and that identities are not used twice. -/
theorem Machine.Keeps.congr (hm : m.Keeps G ds) (hsettled : n.Settled)
    (hmembers : n.members = m.members) (hcollectors : n.collectors = m.collectors)
    (hstamp : m.nextStamp ≤ n.nextStamp) : n.Keeps G ds := by
  obtain ⟨T, hregisters⟩ := hm.registers
  exact ⟨hsettled, ⟨T, hregisters.congr hmembers hcollectors hstamp⟩, hm.shielded⟩

theorem Making.Derives.registers {T : Cells} (hmk : mk.Derives ds root)
    (hds : ∀ p ∈ ds, ∀ c, p.1.Shielded G c → p.2.Shielded G c) :
    Link.Registers G T (ds.map Prod.snd) (mk.run G)
      (fun h => ∀ c, (root h).Shielded G c → h.Shielded G c) := by
  have hmem : ∀ {r d : Handle}, (r, d) ∈ ds → d ∈ ds.map Prod.snd :=
    fun hd => List.mem_map_of_mem hd
  cases hmk with
  | found table l op => exact (l.registers_perform ⟨G, table⟩ op).mono fun _ _ _ _ _ _ hs => hs
  | asType hd new =>
    refine (Handle.registers_asType (hmem hd) new).mono fun _ _ h _ hseen c hr => ?_
    exact (hds _ hd c hr).seenAs hseen
  | @asFixedArity r d hd =>
    intro m hm
    have hfixed := (hm.handles d (hmem hd)).asFixedArity
    exact ⟨T, .refl T, hm.cons (.of_fixed hfixed), fun c hr => (hds _ hd c hr).asFixedArity⟩
  | @asVarargsCollector r d hd array =>
    intro m hm
    have hmade : Link.Registers G T (ds.map Prod.snd)
        (Link.build fun s => d.asVarargsCollector G s array)
        (fun h => ∀ c, r.Shielded G c → h.Shielded G c) := by
      refine .build fun s h hh => ⟨?_, fun c hr => (hds _ hd c hr).asVarargsCollector hh⟩
      exact Handle.newUnder_asVarargsCollector (hm.handles d (hmem hd)) (hmem hd) hh
    exact hmade m hm

/-- A look-up or an adaptation, whether or not it makes a handle. -/
theorem Making.Derives.keeps (hmk : mk.Derives ds root) (hm : m.Keeps G ds) :
    match mk.run G m with
    | .ok h m' => m'.Keeps G ((root h, h) :: ds)
    | .error _ m' => m'.Keeps G ds := by
  obtain ⟨hsettled, ⟨T, hregisters⟩, hshielded⟩ := hm
  obtain ⟨T', -, hstep⟩ := hmk.registers hshielded m hregisters
  have hthunks := mk.sameThunks_run G m
  unfold Link.start at hthunks
  cases hrun : mk.run G m with
  | ok h m' =>
    rw [hrun] at hstep hthunks
    refine ⟨hthunks.settled hsettled, ⟨T', hstep.1⟩, fun p hp => ?_⟩
    rcases List.mem_cons.1 hp with rfl | hp
    · exact hstep.2
    · exact hshielded p hp
  | error e m' =>
    rw [hrun] at hstep hthunks
    exact ⟨hthunks.settled hsettled, ⟨T', hstep⟩, hshielded⟩

theorem Machine.Keeps.other (hm : m.Keeps G ds) {h : Handle}
    (plain : h.isVarargs = false ∨ ∃ p ∈ ds, h.node = p.2.node) : m.Keeps G ((h, h) :: ds) := by
  obtain ⟨hsettled, ⟨T, hregisters⟩, hshielded⟩ := hm
  refine ⟨hsettled, ⟨T, hregisters.cons ?_⟩, fun p hp => ?_⟩
  · rcases plain with hfixed | ⟨p, hp, hnode⟩
    · exact .of_fixed hfixed
    · exact (hregisters.handles p.2 (List.mem_map_of_mem hp)).congr hnode
  · rcases List.mem_cons.1 hp with rfl | hp
    · exact fun _ hs => hs
    · exact hshielded p hp

/-- Whatever a program does, its machine stays in order, and handles derived from one that is shielded
are shielded. -/
theorem Derivations.keeps (hD : Derivations G m ds) : m.Keeps G ds := by
  induction hD with
  | start memberCache =>
    refine ⟨(Machine.Reached.start memberCache).settled, ⟨fun _ => none, ?_⟩, nofun⟩
    exact ⟨fun _ _ => rfl, nofun, nofun, nofun⟩
  | made _ derives result ih =>
    have hstep := derives.keeps ih
    rw [result] at hstep
    exact hstep
  | refused _ derives result ih =>
    have hstep := derives.keeps ih
    rw [result] at hstep
    exact hstep
  | @other m ds h next _ plain later ih =>
    have hlater : ({ m with nextStamp := next } : Machine).Keeps G ds :=
      ih.congr ⟨ih.settled.table, ih.settled.cells⟩ rfl rfl later
    exact hlater.other plain
  | called _ P depth h args ih =>
    obtain ⟨hsettled, hkept⟩ :=
      ih.settled.leaves (Handle.alike_invokeExact P depth h.coincides_refl args)
    exact ih.congr hsettled hkept.members hkept.collectors (Nat.le_of_eq hkept.nextStamp.symm)
  | changed _ s calls ih =>
    exact ih.congr ⟨ih.settled.table, ih.settled.cells⟩ rfl rfl (Nat.le_refl _)

end Steps

/-! ## Members never stop with a fault -/

/-- Whether a computation never stops with a fault. -/
def Run.Faultless {α : Type} (x : Run α) : Prop := ∀ m v m', x m ≠ .error (.fault v) m'

namespace Run.Faultless

variable {α β : Type}

theorem pure (a : α) : Run.Faultless (Pure.pure a) := nofun

theorem fail (e : Error) : Run.Faultless (α := α) (Run.fail e) := nofun

theorem bind {x : Run α} {f : α → Run β} (hx : Run.Faultless x) (hf : ∀ a, Run.Faultless (f a)) :
    Run.Faultless (x >>= f) := by
  intro m v m' h
  have h : EStateM.bind x f m = .error (.fault v) m' := h
  unfold EStateM.bind at h
  cases hxm : x m with
  | ok a n =>
    rw [hxm] at h
    exact hf a n v m' h
  | error e n =>
    rw [hxm] at h
    cases h
    exact hx m v m' hxm

theorem ofExcept (x : Except Error α) : Run.Faultless (Run.ofExcept x) := by
  cases x with
  | ok a => exact pure a
  | error e => exact fail e

theorem alloc (f : Store → Object × Store) : Run.Faultless (Run.alloc f) := nofun

theorem readStore (f : Store → Except Error α) : Run.Faultless (Run.readStore f) := by
  intro m v m'
  unfold Run.readStore
  split <;> exact nofun

theorem writeStore (f : Store → Except Error Store) : Run.Faultless (Run.writeStore f) := by
  intro m v m'
  unfold Run.writeStore
  split <;> exact nofun

end Run.Faultless

section Faultless

variable (P : Program)

theorem Program.faultless_callMethod (m : MethodRef) (args : List Value) :
    Run.Faultless (P.callMethod m args) := by
  unfold callMethod
  split
  · intro s v s'
    unfold runBody
    dsimp only
    split <;> exact nofun
  · exact .fail _

theorem Program.faultless_callDirect (m : MethodRef) (mode : DirectMode) (args : List Value) :
    Run.Faultless (P.callDirect m mode args) := by
  cases mode with
  | static => exact P.faultless_callMethod m args
  | special => exact .bind (.ofExcept _) fun _ => P.faultless_callMethod m args
  | construct =>
    exact .bind (.alloc _) fun o => .bind (P.faultless_callMethod m _) fun _ => .pure _

theorem Program.faultless_callVirtual (m : MethodRef) (dispatch : ClassId) (args : List Value) :
    Run.Faultless (P.callVirtual m dispatch args) := by
  refine .bind (.ofExcept _) fun o => ?_
  split
  · exact .fail _
  · split
    · exact P.faultless_callMethod _ args
    · exact .fail _

theorem Program.faultless_getField (f : FieldRef) (isStatic : Bool) (args : List Value) :
    Run.Faultless (P.getField f isStatic args) := by
  unfold getField
  dsimp only
  split
  · exact .readStore _
  · exact .bind (.ofExcept _) fun o => .readStore _

theorem Program.faultless_setField (f : FieldRef) (isStatic : Bool) (args : List Value)
    (v : Value) : Run.Faultless (P.setField f isStatic args v) := by
  unfold setField
  dsimp only
  split
  · exact .bind (.writeStore _) fun _ => .pure _
  · exact .bind (.ofExcept _) fun o => .bind (.writeStore _) fun _ => .pure _

theorem Handle.faultless_thunk (h : Handle) : Run.Faultless h.thunk := by
  intro m v m'
  unfold thunk
  split
  · exact nofun
  · dsimp only
    split <;> exact nofun

/-- A call of a handle on a member never stops with a fault. -/
theorem Handle.faultless_invokeVia (call : Caller) {h : Handle} {r : MemberRef}
    (hn : h.node.member? = some r) (args : List Value) :
    Run.Faultless (h.invokeVia P call args) := by
  have hperform : Run.Faultless (h.perform P call args) := by
    obtain ⟨s, t, n⟩ := h
    cases n with
    | direct m mode => exact P.faultless_callDirect m mode args
    | virtual m dispatch _ => exact P.faultless_callVirtual m dispatch args
    | getField f isStatic => exact P.faultless_getField f isStatic args
    | setField f isStatic =>
      unfold perform
      dsimp only
      split
      · exact P.faultless_setField f isStatic _ _
      · exact .fail _
    | _ => cases hn
  have hchecked : ∀ v : Variant, Run.Faultless
      (if h.variant = v then h.perform P call args else Run.fail (.wrongThunk h.type h.variant)) := by
    intro v
    split
    · exact hperform
    · exact .fail _
  have hidentity : Run.Faultless (answerFirst h args) := by
    unfold answerFirst
    split
    · exact .pure _
    · exact .fail _
  have hthrowing : Run.Faultless (throwFirst h args) := by
    unfold throwFirst
    split <;> exact .fail _
  refine .bind h.faultless_thunk fun thunk => ?_
  cases thunk.key.variant with
  | identity => exact hidentity
  | throwing => exact hthrowing
  | _ => exact hchecked _

/-- A handle on a member whose signature takes an object, which is no instance of the class, as the
receiver is not restricted. -/
theorem Handle.not_restricted_of_receiver {c : ClassId} {m : Machine} {h : Handle} {r : MemberRef}
    (hn : h.node.member? = some r) {args : List Value}
    (hargs : Value.fitAll P.graph args h.type.params = true) {o : Object}
    (ho : h.node.receiver? args = some o) (hc : o.isInstance P.graph (.cls c) = false) :
    ¬ h.Restricted P c m := by
  intro hrestricted
  have hcalled : ∀ basic : Caller, h.callThrough P basic args .exact = basic h args := by
    intro basic
    unfold callThrough callExact
    dsimp only
    rw [Signature.check_eq_ok_iff.2 hargs]
    rfl
  have hfault : h.invokeRestricted P c 1 args = Run.fault h.variant := by
    show Caller.restricted P.graph c _ h args = _
    unfold Caller.restricted
    rw [ho]
    exact if_neg (Bool.eq_false_iff.1 hc)
  have hsame := hrestricted 1 args .exact
  rw [hcalled, hcalled, hfault] at hsame
  exact h.faultless_invokeVia P _ hn args m _ _ hsame.symm

end Faultless

/-! ## Protected members -/

/-- Whether a use is one of a protected instance member that a class of another package declares. -/
structure Use.ProtectedElsewhere (G : ClassGraph) (u : Use) (c : ClassId) : Prop where
  isProtected : (u.flags G).isProtected = true
  instances : (u.flags G).isStatic = false
  package : G.samePackage u.owner c = false

/-- Whether a look-up is one that answers handles which take the receiver of an instance member and
dispatch on it. -/
def MemberOp.takesReceiver : MemberOp → Bool
  | findVirtual .. | findGetter .. | findSetter .. | unreflect _ | unreflectGetter _
  | unreflectSetter _ => true
  | _ => false

section Protected

variable {G : ClassGraph} {l : Lookup} {op : MemberOp} {u : Use} {key : MemberKey} {base h : Handle}

theorem MemberOp.kind_of_takesReceiver (hop : op.takesReceiver = true) (hu : op.use? G = some u)
    (hinst : (u.flags G).isStatic = false) :
    op.restricts = true ∧ u.kind.hasReceiver = true ∧ u.kind ≠ .invokeSpecial := by
  cases op with
  | findVirtual ref name type =>
    have hu : MemberOp.instanceUse? G ref name type = some u := hu
    unfold MemberOp.instanceUse? at hu
    split at hu <;>
    · obtain ⟨m, -, rfl⟩ := Option.map_eq_some_iff.1 hu
      exact ⟨rfl, rfl, nofun⟩
  | findGetter ref name type =>
    obtain ⟨f, -, rfl⟩ := Option.map_eq_some_iff.1 hu
    exact ⟨rfl, rfl, nofun⟩
  | findSetter ref name type =>
    obtain ⟨f, -, rfl⟩ := Option.map_eq_some_iff.1 hu
    exact ⟨rfl, rfl, nofun⟩
  | unreflect m =>
    obtain rfl := Option.some.inj hu
    have hinst : (G.method m).flags.isStatic = false := hinst
    rw [hinst]
    cases G.isInterface m.cls <;> exact ⟨rfl, rfl, nofun⟩
  | unreflectGetter f =>
    obtain rfl := Option.some.inj hu
    have hinst : (G.field f).isStatic = false := hinst
    rw [hinst]
    exact ⟨rfl, rfl, nofun⟩
  | unreflectSetter f =>
    obtain rfl := Option.some.inj hu
    have hinst : (G.field f).isStatic = false := hinst
    rw [hinst]
    exact ⟨rfl, rfl, nofun⟩
  | _ => cases hop

theorem Lookup.narrows_of_protectedElsewhere (hl : l.trusted = false)
    (hu : u.ProtectedElsewhere G l.cls) (hkind : u.kind.hasReceiver = true)
    (hspecial : u.kind ≠ .invokeSpecial) : l.narrows G u = true := by
  have howner : u.owner ≠ l.cls := by
    intro heq
    have hpackage := hu.package
    rw [heq, G.samePackage_refl] at hpackage
    cases hpackage
  have hnest : G.sameNest u.owner l.cls = false := by
    refine Bool.eq_false_iff.2 fun hnest => ?_
    have hpackage := hu.package
    rw [G.samePackage_of_sameNest hnest] at hpackage
    cases hpackage
  simp [narrows, restrictsReceiver, hkind, hspecial, hl, howner, hnest, hu.isProtected,
    hu.instances, hu.package]

theorem Use.params_of_receiver (hkind : u.kind.hasReceiver = true) (hspecial : u.kind ≠ .invokeSpecial)
    (hkey : u.key? G = some key) : ∃ rest, key.type.params = .cls u.ref :: rest := by
  have htype := (key?_eq_some_iff.1 hkey).1
  obtain ⟨kind, ref, caller, m | f⟩ := u
  · obtain ⟨hparams, -⟩ := type_method_eq_ok_iff.1 htype
    refine ⟨(G.method m).desc.params, hparams.trans ?_⟩
    cases kind with
    | getField | putField | invokeVirtual | invokeInterface => rfl
    | invokeSpecial => exact absurd rfl hspecial
    | _ => cases hkind
  · have htype : Lookup.fieldHandleType kind ref (G.field f).type = .ok key.type := htype
    cases kind with
    | getField => exact ⟨[], (Signature.of_eq_ok_iff.1 htype).2⟩
    | putField | invokeVirtual | invokeInterface => exact ⟨_, (Signature.of_eq_ok_iff.1 htype).2⟩
    | invokeSpecial => exact absurd rfl hspecial
    | _ => cases hkind

/-- The receiver of a method that is called on instances is the first argument. -/
theorem Use.receiver?_node {m : MethodRef} (hkind : u.kind.hasReceiver = true)
    (hm : u.member = .method m) (o : Object) (args : List Value) :
    (u.node G).receiver? (.obj o :: args) = some o := by
  obtain ⟨kind, ref, caller, member⟩ := u
  obtain rfl : member = .method m := hm
  show (Lookup.methodNode G kind ref m).receiver? (.obj o :: args) = some o
  unfold Lookup.methodNode
  cases kind with
  | getField | putField | invokeVirtual | invokeInterface =>
    dsimp only
    split <;> rfl
  | invokeSpecial => rfl
  | _ => cases hkind

/-- What a look-up makes of a handle on a member for the use of it on the class only: its own node
takes instances of the class, or the node that it collects arguments for does, whose handle still takes
instances of the class that the use is through. -/
inductive Handle.NarrowedTo (G : ClassGraph) (u : Use) (c : ClassId) : Handle → Prop where
  | fixed {h : Handle} {v : Use} {rest : List Ty} (node : h.node = v.node G)
      (params : h.type.params = .cls c :: rest) : NarrowedTo G u c h
  | collecting {h : Handle} {v : Use} {m : MethodRef} {s : Stamp} {t : Signature} {array : Ty}
      {cell : Stamp} {rest : List Ty} (kind : v.kind = u.kind) (member : v.member = .method m)
      (node : h.node = .varargs ⟨s, t, v.node G⟩ array cell) (target : t.params = .cls u.ref :: rest)
      (params : h.type.params = .cls c :: rest) : NarrowedTo G u c h

theorem Lookup.Hands.narrowedTo (hhands : l.Hands G u true base h) (hbase : key.Makes G base)
    (hnarrows : l.narrows G u = true) (hkind : u.kind.hasReceiver = true)
    (hspecial : u.kind ≠ .invokeSpecial) (hkey : u.key? G = some key) : h.NarrowedTo G u l.cls := by
  obtain ⟨rest, hrest⟩ := Use.params_of_receiver hkind hspecial hkey
  have hkeyKind := (Use.key?_eq_some_iff.1 hkey).2.2.2
  rw [Hands, hnarrows] at hhands
  obtain ⟨hnode, hparams⟩ := hhands
  obtain ⟨v, s, hv, rfl⟩ := hbase
  rw [Use.type_handle, hrest] at hparams
  unfold Use.handle at hnode
  split at hnode
  · next array hcollects =>
    -- only methods collect arguments
    cases hm : v.member with
    | method m => exact .collecting (hv.trans hkeyKind) hm hnode hrest hparams
    | field f =>
      rw [Use.collects?, hm] at hcollects
      cases hcollects
  · exact .fixed hnode hparams

namespace Handle.NarrowedTo

variable {c : ClassId}

/-- A node of a member is shielded against by its first type. -/
theorem shields_node (v : Use) {a : ClassId} (rest : List Ty) (ha : G.isSubclass a c = true) :
    Node.Shields G c (v.node G) (.cls a :: rest) := by
  refine .member (v.member?_node G) fun t ht => ?_
  obtain rfl := Option.some.inj ht
  exact ha

theorem shielded (hn : h.NarrowedTo G u c)
    (hc : h.isVarargs = false ∨ G.isSubclass u.ref c = true) : h.Shielded G c := by
  cases hn with
  | @fixed v rest node params =>
    refine .of_node ?_ params
    rw [node]
    exact shields_node v rest (G.isSubclass_refl c)
  | @collecting v m s t array cell rest kind member node target params =>
    rcases hc with hfixed | hsub
    · exact absurd node (isVarargs_eq_false_iff.1 hfixed _ _ _)
    · refine .of_node ?_ params
      rw [node]
      refine .varargs (.of_node ?_ target) (shields_node v rest (G.isSubclass_refl c))
      exact shields_node v rest hsub

/-- The target of a handle of variable arity takes the class that the use is through. -/
theorem not_restricted (hn : h.NarrowedTo G u c) (hvarargs : h.isVarargs = true)
    (hkind : u.kind.hasReceiver = true) (hc : G.isSubclass u.ref c = false) {P : Program}
    (hP : P.graph = G) (m : Machine) : ¬ h.asFixedArity.Restricted P c m := by
  cases hn with
  | @fixed v rest node params =>
    rw [Use.isVarargs_of_node node] at hvarargs
    cases hvarargs
  | @collecting v m s t array cell rest kind member node target params =>
    subst hP
    have htarget : h.asFixedArity = ⟨s, t, v.node P.graph⟩ := by
      rw [asFixedArity, node]
    rw [htarget]
    have hvoid : Ty.void ∉ rest := fun hp => t.noVoid (target ▸ List.mem_cons_of_mem _ hp)
    -- an instance of the class that the use is through, and nothing else
    let o : Object := .inst 0 u.ref
    have hfits : Value.fitAll P.graph (.obj o :: rest.map Value.zero) t.params = true := by
      rw [target, Value.fitAll, Value.fitAll_zero hvoid, Bool.and_true]
      exact P.graph.isSubclass_refl u.ref
    exact not_restricted_of_receiver P (v.member?_node P.graph) hfits
      (Use.receiver?_node (kind ▸ hkind) member o _) hc

end Handle.NarrowedTo

/-- **Protected members and their receivers.** Take a handle that a lookup without trust gets on a
protected instance member of another package. Whatever is derived from it by adaptation reaches the
member on instances of the lookup class only, in whatever form it is called and whatever goes on
meanwhile, exactly if the handle is not of variable arity, or the class that the member is looked up in
lies below the lookup class anyway. -/
theorem Lookup.restricted_iff {m m' : Machine} {ds : List (Handle × Handle)}
    (before : Derivations G m ds) {table : ClassTable} (hl : l.trusted = false)
    (hop : op.takesReceiver = true) (hu : op.use? G = some u)
    (hprotected : u.ProtectedElsewhere G l.cls) (hh : l.perform ⟨G, table⟩ op m = .ok h m') :
    (∀ n ds' d, Derivations G n ds' → (h, d) ∈ ds' →
      ∀ P : Program, P.graph = G → d.Restricted P l.cls n) ↔
      h.isVarargs = false ∨ G.isSubclass u.ref l.cls = true := by
  obtain ⟨hrestricts, hkind, hspecial⟩ := op.kind_of_takesReceiver hop hu hprotected.instances
  have hnarrows := narrows_of_protectedElsewhere hl hprotected hkind hspecial
  have hnarrowed : h.NarrowedTo G u l.cls := by
    obtain ⟨T, hm⟩ := before.keeps.registers
    obtain ⟨T', -, hstep⟩ := l.registers_perform ⟨G, table⟩ op m hm
    rw [hh] at hstep
    obtain ⟨v, key, base, hv, hkey, hbase, hhands⟩ := hstep.2 hrestricts
    obtain rfl := Option.some.inj (hu.symm.trans hv)
    exact hhands.narrowedTo hbase hnarrows hkind hspecial hkey
  constructor
  · intro hrestricted
    by_contra hnone
    obtain ⟨hvarargs, hsub⟩ : h.isVarargs = true ∧ G.isSubclass u.ref l.cls = false := by
      simpa using hnone
    -- the handle is looked up, and its fixed form taken
    have hfound : Derivations G m' ((h, h) :: ds) := before.made (.found table l op) hh
    have hfixed : Derivations G m' ((h, h.asFixedArity) :: (h, h) :: ds) :=
      hfound.made (.asFixedArity List.mem_cons_self) rfl
    have htarget := hrestricted m' _ _ hfixed List.mem_cons_self (.zeros G) rfl
    exact hnarrowed.not_restricted hvarargs hkind hsub rfl m' htarget
  · intro hc n ds' d hD hd P hP
    obtain ⟨T, hn⟩ := hD.keeps.registers
    subst hP
    have hderived := hD.keeps.shielded _ hd _ (hnarrowed.shielded hc)
    exact hderived.restricted hn (List.mem_map_of_mem hd)

end Protected

/-! ## A method of variable arity -/

/-- The class `p/A` with a protected method `m` of variable arity, and a class `q/B` that extends it. -/
def ClassGraph.protectedVarargs : ClassGraph where
  defined := #[
    ⟨"p/A", ⟨0x0001⟩, .bootstrap, some ClassId.object, [],
      [.withBody "m" ⟨[.array .object], .prim .int⟩ ⟨0x0084⟩], []⟩,
    ⟨"q/B", ⟨0x0001⟩, .bootstrap, some bootstrapCount, [], [], []⟩]
  older := by
    rintro (_ | _ | i) d hd s hs
    · obtain rfl := Option.some.inj hd
      obtain rfl : s = ClassId.object := by simpa [ClassDecl.supers] using hs
      decide
    · obtain rfl := Option.some.inj hd
      obtain rfl : s = bootstrapCount := by simpa [ClassDecl.supers] using hs
      decide
    · simp at hd

/-- The look-up of the method in a class. -/
def MemberOp.protectedM (c : ClassId) : MemberOp :=
  .findVirtual c "m" ⟨[.array .object], .prim .int, by decide, by decide⟩

/-- The lookup of `q/B` gets a handle on the method in either class. What is derived from the one looked
up in `q/B` reaches the method on instances of `q/B` only, what is derived from the one looked up in
`p/A` does not. -/
theorem Lookup.restricted_iff_of_protectedVarargs :
    (∃ h m', (full (bootstrapCount + 1)).perform ⟨.protectedVarargs, .initial⟩
        (.protectedM (bootstrapCount + 1)) (.initial true) = .ok h m' ∧ h.isVarargs = true ∧
      ∀ n ds d, Derivations .protectedVarargs n ds → (h, d) ∈ ds →
        ∀ P : Program, P.graph = .protectedVarargs → d.Restricted P (bootstrapCount + 1) n) ∧
    ∃ h m', (full (bootstrapCount + 1)).perform ⟨.protectedVarargs, .initial⟩
        (.protectedM bootstrapCount) (.initial true) = .ok h m' ∧
      ¬ ∀ n ds d, Derivations .protectedVarargs n ds → (h, d) ∈ ds →
        ∀ P : Program, P.graph = .protectedVarargs → d.Restricted P (bootstrapCount + 1) n := by
  have hpackage : ClassGraph.protectedVarargs.samePackage bootstrapCount (bootstrapCount + 1) =
      false := by decide
  have helsewhere : ∀ c, Use.ProtectedElsewhere .protectedVarargs
      ⟨.invokeVirtual, c, none, .method ⟨bootstrapCount, 0⟩⟩ (bootstrapCount + 1) := by
    refine fun c => ⟨?_, ?_, hpackage⟩
    · show (⟨0x0084⟩ : Flags).isProtected = true
      decide
    · show (⟨0x0084⟩ : Flags).isStatic = false
      decide
  obtain ⟨h, m', hh, hvarargs⟩ : ∃ h m', (full (bootstrapCount + 1)).perform
      ⟨.protectedVarargs, .initial⟩ (.protectedM (bootstrapCount + 1)) (.initial true) = .ok h m' ∧
        h.isVarargs = true := ⟨_, _, rfl, rfl⟩
  obtain ⟨k, n', hk, hvarargs'⟩ : ∃ k n', (full (bootstrapCount + 1)).perform
      ⟨.protectedVarargs, .initial⟩ (.protectedM bootstrapCount) (.initial true) = .ok k n' ∧
        k.isVarargs = true := ⟨_, _, rfl, rfl⟩
  have hiff := restricted_iff (.start true) rfl rfl rfl (helsewhere (bootstrapCount + 1)) hh
  have hiff' := restricted_iff (.start true) rfl rfl rfl (helsewhere bootstrapCount) hk
  refine ⟨⟨h, m', hh, hvarargs, hiff.2 (.inr (by decide))⟩, k, n', hk, fun hall => ?_⟩
  rcases hiff'.1 hall with hfixed | hsub
  · rw [hvarargs'] at hfixed
    cases hfixed
  · revert hsub
    decide

end HandleCalculus
