import HandleCalculus.Proofs.ProtectedMembers

/-!
# Bound receivers

`bind` finds a method on the class of an object and binds the object, as `findVirtual` and `bindTo`
do one after the other (`findThenBind`). The handles come out alike, with one difference on the way:
`bind` does not narrow the receiver, and so its binding never fails, while `bindTo` checks the
receiver against the narrowed parameter. Where both succeed the handles are of one type and do the
same. Where the method is a protected one of another package and the object is no instance of the
lookup class, only `bind` succeeds (`Lookup.findThenBind_iff`).

Narrowing shows in the signature of the handle that is bound, and nowhere in what a call of it does:
the node of a member does not look at its handle's signature, as long as there is a receiver
(`Handle.perform_eq_of_member?`), and the thunk depends on the erased signature only.
-/

set_option autoImplicit false

namespace HandleCalculus

/-- Finds a method on the class of an object and binds the object. -/
def Lookup.findThenBind (C : Classes) (l : Lookup) (r : Object) (name : String)
    (type : Signature) : Link Handle := do
  let h ← l.findVirtual C r.cls name type
  Link.build fun s => h.bindTo C.graph s (.obj r)

theorem Link.build_eq_ok {f : Stamp → Except Error Handle} {m : Machine} {h : Handle}
    (hf : f m.nextStamp = .ok h) :
    Link.build f m = .ok h { m with nextStamp := m.nextStamp + 2 } := by
  rw [build, hf]

/-! ## Binding the first parameter -/

namespace Signature

theorem exists_tail {s : Signature} {t : Ty} {rest : List Ty} (h : s.params = t :: rest) :
    ∃ new : Signature, new.params = rest ∧ new.ret = s.ret := by
  have hvoid : Ty.void ∉ rest := fun hmem => s.noVoid (h ▸ List.mem_cons_of_mem t hmem)
  have hslots : slotCount rest ≤ maxArgumentSlots := by
    have hs := s.slots_le
    rw [h] at hs
    exact Nat.le_trans (Nat.le_add_left _ _) hs
  exact ⟨⟨rest, s.ret, hvoid, hslots⟩, rfl, rfl⟩

/-- One class may stand for another as a parameter. -/
theorem exists_head {s : Signature} {a : ClassId} {rest : List Ty} (h : s.params = .cls a :: rest)
    (b : ClassId) : ∃ new : Signature, new.params = .cls b :: rest ∧ new.ret = s.ret := by
  have hvoid : Ty.void ∉ Ty.cls b :: rest := by
    have hs := s.noVoid
    rw [h] at hs
    simpa using hs
  have hslots : slotCount (.cls b :: rest) ≤ maxArgumentSlots := by
    have hs := s.slots_le
    rwa [h] at hs
  exact ⟨⟨.cls b :: rest, s.ret, hvoid, hslots⟩, rfl, rfl⟩

end Signature

/-- An object is an instance of its class. -/
theorem Object.isInstance_cls (G : ClassGraph) (r : Object) : r.isInstance G (.cls r.cls) = true := by
  cases r with
  | array => rfl
  | str => exact G.isSubclass_refl ClassId.string
  | boxed p _ => exact G.isSubclass_refl (ClassId.wrapper p)
  | throwable id c msg => exact G.isSubclass_refl c
  | inst id c => exact G.isSubclass_refl c

namespace Handle

theorem asFixedArity_of_fixed {h : Handle} (hfixed : h.isVarargs = false) : h.asFixedArity = h := by
  unfold asFixedArity
  split
  · next hnode => exact absurd hnode (isVarargs_eq_false_iff.1 hfixed _ _ _)
  · rfl

variable {G : ClassGraph} {h : Handle} {c : ClassId} {rest : List Ty} {r : Object}

theorem bindTo_eq_ok (hparams : h.type.params = .cls c :: rest)
    (hr : r.isInstance G (.cls c) = true) {new : Signature} (hnew : new.params = rest)
    (hret : new.ret = h.type.ret) (s : Stamp) :
    h.bindTo G s (.obj r) = .ok ⟨s, new, .insert h 0 [.obj r]⟩ := by
  have harity : h.type.arity = rest.length + 1 := by simp [Signature.arity, hparams]
  have hcoerce : coerceAll G [.obj r] (h.type.params.drop 0) = .ok [.obj r] := by
    simp [hparams, coerceAll, Value.coerce, Value.boxed, Value.castTo, hr]
  have hdrop : h.type.dropParams 0 1 = .ok new := by
    refine Signature.dropParams_eq_ok_iff.2 ⟨Nat.zero_le _, ?_, hret, ?_⟩
    · omega
    · simp [hparams, hnew]
  have hroom : ¬ 0 + [Value.obj r].length > h.type.arity := by
    simp only [List.length_singleton]
    omega
  unfold bindTo insertArguments
  rw [if_neg (by omega), if_neg hroom, hcoerce]
  show (h.type.dropParams 0 1).bind _ = _
  rw [hdrop]
  rfl

theorem bindTo_eq_error (hparams : h.type.params = .cls c :: rest)
    (hr : r.isInstance G (.cls c) = false) (s : Stamp) : ∃ e, h.bindTo G s (.obj r) = .error e := by
  have harity : h.type.arity = rest.length + 1 := by simp [Signature.arity, hparams]
  have hcoerce : ∃ e, coerceAll G [.obj r] (h.type.params.drop 0) = .error e := by
    simp [hparams, coerceAll, Value.coerce, Value.boxed, Value.castTo, hr]
  obtain ⟨e, he⟩ := hcoerce
  have hroom : ¬ 0 + [Value.obj r].length > h.type.arity := by
    simp only [List.length_singleton]
    omega
  refine ⟨e, ?_⟩
  unfold bindTo insertArguments
  rw [if_neg (by omega), if_neg hroom, he]
  rfl

end Handle

/-- Narrowing the receiver changes its class in the signature, and it always succeeds. -/
theorem Lookup.narrow_eq_ok {l : Lookup} {h : Handle} {c : ClassId} {rest : List Ty}
    (hparams : h.type.params = .cls c :: rest) (m : Machine) :
    ∃ new, new.params = .cls l.cls :: rest ∧ new.ret = h.type.ret ∧
      l.narrow h m =
        .ok ⟨m.nextStamp, new, h.node⟩ { m with nextStamp := m.nextStamp + 2 } := by
  obtain ⟨new, hnew, hret⟩ := Signature.exists_head hparams l.cls
  have hchange : h.type.changeParam 0 (.cls l.cls) = .ok new := by
    refine Signature.changeParam_eq_ok_iff.2 ⟨?_, hret, ?_⟩
    · simp [Signature.arity, hparams]
    · simp [hparams, hnew]
  have hshape : new.shape = h.type.shape := by
    simp [Signature.shape, hnew, hret, hparams, Ty.carrier]
  have hretype : h.retype m.nextStamp new = .ok ⟨m.nextStamp, new, h.node⟩ := if_pos hshape
  refine ⟨new, hnew, hret, ?_⟩
  refine Link.build_eq_ok ?_
  rw [hchange]
  exact hretype

/-! ## Calls of one node under two signatures -/

/-- What the node of a member does to arguments that are not none does not depend on the signature of
its handle. -/
theorem Handle.perform_eq_of_member? {a b : Handle} (hnode : a.node = b.node) {x : MemberRef}
    (hmember : a.node.member? = some x) {args : List Value} (hargs : args ≠ []) (P : Program)
    (call : Caller) : a.perform P call args = b.perform P call args := by
  obtain ⟨s, t, n⟩ := a
  obtain ⟨s', t', n'⟩ := b
  obtain rfl : n = n' := hnode
  cases n with
  | direct | virtual | getField => rfl
  | setField f isStatic =>
    have hlast := List.getLast?_eq_some_getLast hargs
    simp only [perform, hlast]
  | _ => cases hmember

/-- Handles on one member whose signatures erase alike do the same when called. -/
theorem Handle.alike_of_member? {a b : Handle} (hnode : a.node = b.node) {x : MemberRef}
    (hmember : a.node.member? = some x) (hshape : a.type.shape = b.type.shape) {args : List Value}
    (hargs : args ≠ []) (P : Program) (depth : Nat) :
    Run.Alike (a.invokeBasic P depth args) (b.invokeBasic P depth args) := by
  have hkey : a.key = b.key := by
    rw [key, key, hshape, variant, variant, hnode]
  cases depth with
  | zero => exact .throw _
  | succ depth =>
    refine alike_invokeVia hkey ?_
    rw [perform_eq_of_member? hnode hmember hargs]
    exact alike_perform (alike_invokeBasic P depth) b.coincides_refl

/-- The two handles with a receiver bound do the same if those that are bound do. -/
theorem Handle.alike_bound {a b : Handle} {r : Object} {type : Signature} {s s' : Stamp}
    {P : Program} (h : ∀ depth args, Run.Alike (a.invokeBasic P depth (.obj r :: args))
      (b.invokeBasic P depth (.obj r :: args))) (depth : Nat) (args : List Value) :
    Run.Alike ((⟨s, type, .insert a 0 [.obj r]⟩ : Handle).invokeExact P depth args)
      ((⟨s', type, .insert b 0 [.obj r]⟩ : Handle).invokeExact P depth args) := by
  refine .bind (.ofExcept _) fun _ => ?_
  cases depth with
  | zero => exact .throw _
  | succ depth =>
    refine alike_invokeVia rfl ?_
    unfold perform
    simp only [Nat.zero_le, if_true]
    exact h depth _

/-! ## What is found -/

section Found

variable {C : Classes} {l : Lookup} {r : Object} {name : String} {type : Signature} {u : Use}
  {key : MemberKey} {m : Machine}

/-- The handle that the machine has for a use: the one that it has kept, or a new one. -/
def Machine.handleOf (m : Machine) (G : ClassGraph) (u : Use) (key : MemberKey) : Handle :=
  (m.kept? key).getD (u.handle G key.type m.nextStamp)

theorem Machine.handleOf_reports (m : Machine) (es : List Event) (G : ClassGraph) :
    (m.reports es).handleOf G u key = m.handleOf G u key := by
  rw [handleOf, handleOf, m.kept?_reports, m.nextStamp_reports]

theorem Machine.Registers.makes_handleOf {G : ClassGraph} {T : Cells} {hs : List Handle}
    (hm : m.Registers G T hs) (hkind : u.kind = key.kind) : key.Makes G (m.handleOf G u key) := by
  have hkept : ∀ h, m.kept? key = some h → key.Makes G h := by
    intro h hk
    unfold kept? at hk
    split at hk
    · exact (hm.members key h hk).2
    · cases hk
  unfold handleOf
  cases hk : m.kept? key with
  | some h => exact hkept h hk
  | none => exact ⟨u, m.nextStamp, hkind, rfl⟩

theorem Lookup.cached_eq_ok (G : ClassGraph) (u : Use) (key : MemberKey) (m : Machine) :
    ∃ m', cached key (u.make G key.type) m = .ok (m.handleOf G u key) m' := by
  obtain ⟨h, members, n, e, hm⟩ := exists_of_cached (Use.makes_make (G := G) (u := u) key.type) m
  have hstart := (start_cached (Use.makes_make (G := G) (u := u) key.type) m).1
  rw [Link.start, hm] at hstart
  exact ⟨_, hm.trans (by rw [Except.ok.inj hstart, Machine.handleOf])⟩

theorem MemberOp.kind_of_instanceUse? {G : ClassGraph} {c : ClassId}
    (hu : instanceUse? G c name type = some u) :
    u.ref = c ∧ u.kind.hasReceiver = true ∧ u.kind ≠ .invokeSpecial := by
  unfold instanceUse? at hu
  split at hu
  all_goals
    obtain ⟨m, -, rfl⟩ := Option.map_eq_some_iff.1 hu
    exact ⟨rfl, rfl, nofun⟩

/-- The class whose instances a handle takes that a lookup gets for a use. -/
def Lookup.receiverClass (G : ClassGraph) (l : Lookup) (u : Use) : ClassId :=
  if l.narrows G u then l.cls else u.ref

/-- What a lookup that is granted a use makes of the handle that the machine has for it. -/
theorem Lookup.handleFor_eq_ok {rest : List Ty}
    (hparams : (m.handleOf C.graph u key).type.params = .cls u.ref :: rest) :
    ∃ h m', l.handleFor C u key true m = .ok h m' ∧
      h.node = (m.handleOf C.graph u key).node ∧
      h.type.ret = (m.handleOf C.graph u key).type.ret ∧
      h.type.params = .cls (l.receiverClass C.graph u) :: rest := by
  obtain ⟨m₁, hcached⟩ := cached_eq_ok C.graph u key m
  unfold handleFor
  rw [bind_eq_of_ok hcached, Bool.true_and]
  unfold receiverClass
  split
  · obtain ⟨new, hnew, hret, hnarrow⟩ := narrow_eq_ok (l := l) hparams m₁
    exact ⟨_, _, hnarrow, rfl, hret, hnew⟩
  · exact ⟨_, _, rfl, rfl, rfl, hparams⟩

section Granted

variable (hu : MemberOp.instanceUse? C.graph r.cls name type = some u)
  (hkey : u.key? C.graph = some key) (hgranted : l.trusted = true ∨ l.Permits C u)

include hu hkey hgranted

theorem Lookup.findVirtual_eq_ok {rest : List Ty}
    (hparams : (m.handleOf C.graph u key).type.params = .cls u.ref :: rest) :
    ∃ h m', l.findVirtual C r.cls name type m = .ok h m' ∧
      h.node = (m.handleOf C.graph u key).node ∧
      h.type.ret = (m.handleOf C.graph u key).type.ret ∧
      h.type.params = .cls (l.receiverClass C.graph u) :: rest := by
  have huse : (MemberOp.findVirtual r.cls name type).use? C.graph = some u := hu
  obtain ⟨es, hes⟩ := perform_of_permits huse hkey hgranted m
  rw [← m.handleOf_reports es] at hparams ⊢
  obtain ⟨h, m', hh, hlike⟩ := handleFor_eq_ok (l := l) hparams
  exact ⟨h, m', hes.trans (bind_eq_of_ok hh _), hlike⟩

/-- `bind` binds the receiver to the handle that the machine has, as it is. -/
theorem Lookup.bind_eq_ok {rest : List Ty}
    (hparams : (m.handleOf C.graph u key).type.params = .cls u.ref :: rest)
    (hfixed : (m.handleOf C.graph u key).isVarargs = false) {new : Signature}
    (hnew : new.params = rest) (hret : new.ret = (m.handleOf C.graph u key).type.ret) :
    ∃ s m', l.bind C r name type m =
      .ok ⟨s, new, .insert (m.handleOf C.graph u key) 0 [.obj r]⟩ m' := by
  have huse : (MemberOp.bind r name type).use? C.graph = some u := hu
  obtain ⟨es, hes⟩ := perform_of_permits huse hkey hgranted m
  rw [← m.handleOf_reports es] at hparams hfixed hret ⊢
  obtain ⟨m₁, hcached⟩ := cached_eq_ok C.graph u key (m.reports es)
  have hself : r.isInstance C.graph (.cls u.ref) = true := by
    rw [(MemberOp.kind_of_instanceUse? hu).1]
    exact r.isInstance_cls C.graph
  have hplain : (l.handleFor C u key false) (m.reports es) = .ok _ m₁ := bind_eq_of_ok hcached _
  have hbound := Link.build_eq_ok (m := m₁) (f := fun s => Handle.bindTo C.graph s _ (.obj r))
    (Handle.bindTo_eq_ok hparams hself hnew hret m₁.nextStamp)
  refine ⟨m₁.nextStamp, { m₁ with nextStamp := m₁.nextStamp + 2 }, ?_⟩
  refine hes.trans ((bind_eq_of_ok hplain _).trans ?_)
  unfold MemberOp.finish
  dsimp only
  rw [Handle.asFixedArity_of_fixed hfixed, bind_eq_of_ok hbound, hfixed]
  rfl

end Granted

/-- A lookup that has made a handle was granted the use that its look-up comes down to. -/
theorem Lookup.granted_of_findVirtual {h : Handle} {m' : Machine}
    (hh : l.findVirtual C r.cls name type m = .ok h m') :
    ∃ u key, MemberOp.instanceUse? C.graph r.cls name type = some u ∧
      u.key? C.graph = some key ∧ (l.trusted = true ∨ l.Permits C u) := by
  have hperform : l.perform C (.findVirtual r.cls name type) m = .ok h m' := hh
  obtain ⟨u, key, -, hu, hkey, hgranted, -⟩ := exists_use_of_perform hperform
  exact ⟨u, key, hu, hkey, hgranted⟩

theorem Lookup.granted_of_bind {h : Handle} {m' : Machine}
    (hh : l.bind C r name type m = .ok h m') :
    ∃ u key, MemberOp.instanceUse? C.graph r.cls name type = some u ∧
      u.key? C.graph = some key ∧ (l.trusted = true ∨ l.Permits C u) := by
  have hperform : l.perform C (.bind r name type) m = .ok h m' := hh
  obtain ⟨u, key, -, hu, hkey, hgranted, -⟩ := exists_use_of_perform hperform
  exact ⟨u, key, hu, hkey, hgranted⟩

theorem Lookup.protectedElsewhere_of_narrows (h : l.narrows C.graph u = true) :
    u.ProtectedElsewhere C.graph l.cls := by
  simp only [narrows, restrictsReceiver, Bool.and_eq_true, Bool.not_eq_true'] at h
  exact ⟨h.2.1.1.1.1.1, h.2.1.1.1.1.2, h.2.1.2⟩

/-- A handle of fixed arity that is made for a key is on a member. -/
theorem MemberKey.Makes.node_of_fixed {G : ClassGraph} {h : Handle} (hm : key.Makes G h)
    (hfixed : h.isVarargs = false) : h.type = key.type ∧ ∃ x, h.node.member? = some x := by
  obtain ⟨v, s, -, rfl⟩ := hm
  refine ⟨Use.type_handle _ _, v.member, ?_⟩
  unfold Use.handle at hfixed ⊢
  split at hfixed
  · cases hfixed
  · exact v.member?_node G

/-- Both ways to bind a receiver, once the lookup is granted the use of the method: `bind` answers, and
the other way does if the receiver is of the class that the handle found takes. The two handles bind it
to handles on one member whose signatures erase alike. -/
theorem Lookup.bound_of_granted {ds : List (Handle × Handle)} (before : Derivations C.graph m ds)
    (hu : MemberOp.instanceUse? C.graph r.cls name type = some u)
    (hkey : u.key? C.graph = some key) (hgranted : l.trusted = true ∨ l.Permits C u)
    (hfixed : ∀ h m', l.findVirtual C r.cls name type m = .ok h m' → h.isVarargs = false) :
    ∃ (base h : Handle) (new : Signature) (x : MemberRef), h.node = base.node ∧
      base.node.member? = some x ∧ h.type.shape = base.type.shape ∧
      (∃ s m', l.bind C r name type m = .ok ⟨s, new, .insert base 0 [.obj r]⟩ m') ∧
      (r.isInstance C.graph (.cls (l.receiverClass C.graph u)) = true →
        ∃ s m', l.findThenBind C r name type m = .ok ⟨s, new, .insert h 0 [.obj r]⟩ m') ∧
      (r.isInstance C.graph (.cls (l.receiverClass C.graph u)) = false →
        ∃ e m', l.findThenBind C r name type m = .error e m') := by
  obtain ⟨T, hregisters⟩ := before.keeps.registers
  have hmakes := hregisters.makes_handleOf (Use.key?_eq_some_iff.1 hkey).2.2.2.symm (u := u)
  obtain ⟨-, hreceiver, hspecial⟩ := MemberOp.kind_of_instanceUse? hu
  obtain ⟨rest, hrest⟩ := Use.params_of_receiver hreceiver hspecial hkey
  have hparams : (m.handleOf C.graph u key).type.params = .cls u.ref :: rest := by
    obtain ⟨v, s, -, hv⟩ := hmakes
    rw [hv, Use.type_handle, hrest]
  obtain ⟨h, m₁, hh, hnode, hret, hhparams⟩ := findVirtual_eq_ok hu hkey hgranted hparams
  have hbase : (m.handleOf C.graph u key).isVarargs = false :=
    (Handle.isVarargs_of_node hnode).symm.trans (hfixed h m₁ hh)
  obtain ⟨-, x, hmember⟩ := hmakes.node_of_fixed hbase
  obtain ⟨new, hnew, hnewRet⟩ := Signature.exists_tail hparams
  have hshape : h.type.shape = (m.handleOf C.graph u key).type.shape := by
    simp [Signature.shape, hret, hhparams, hparams, Ty.carrier]
  refine ⟨_, h, new, x, hnode, hmember, hshape,
    bind_eq_ok hu hkey hgranted hparams hbase hnew hnewRet, fun hr => ?_, fun hr => ?_⟩
  · have hbound := Handle.bindTo_eq_ok hhparams hr hnew (hnewRet.trans hret.symm) m₁.nextStamp
    exact ⟨_, _, (bind_eq_of_ok hh _).trans (Link.build_eq_ok hbound)⟩
  · obtain ⟨e, he⟩ := Handle.bindTo_eq_error hhparams hr m₁.nextStamp
    refine ⟨e, m₁, (bind_eq_of_ok hh _).trans ?_⟩
    rw [Link.build, he]

end Found

/-- **Binding a receiver, and finding a method to bind it to.** Take a lookup without trust, an object
and a method of its class whose handle is of fixed arity. Finding the method and binding the object
succeeds exactly if `bind` does and the object is one that the lookup may use the method on: an instance
of the lookup class, if the method is a protected one of another package. The handles are of one type
then, and do the same in every call. -/
theorem Lookup.findThenBind_iff {C : Classes} {l : Lookup} (hl : l.trusted = false) {m : Machine}
    {ds : List (Handle × Handle)} (before : Derivations C.graph m ds) {r : Object} {name : String}
    {type : Signature}
    (hfixed : ∀ h m', l.findVirtual C r.cls name type m = .ok h m' → h.isVarargs = false) :
    ((∃ b m', l.findThenBind C r name type m = .ok b m') ↔
      (∃ a m', l.bind C r name type m = .ok a m') ∧
        ∀ u, MemberOp.instanceUse? C.graph r.cls name type = some u →
          u.ProtectedElsewhere C.graph l.cls → r.isInstance C.graph (.cls l.cls) = true) ∧
    ∀ a b m₁ m₂, l.bind C r name type m = .ok a m₁ → l.findThenBind C r name type m = .ok b m₂ →
      a.type = b.type ∧ ∀ n n' : Machine, n.Reached → n'.Reached → n.SameState n' →
        ∀ (P : Program) (depth : Nat) (args : List Value),
          Run.Agree n n' (a.invokeExact P depth args n) (b.invokeExact P depth args n') := by
  refine ⟨⟨?_, ?_⟩, ?_⟩
  · rintro ⟨b, m', hb⟩
    obtain ⟨h, m₁, hh, -⟩ := Link.exists_of_bind hb
    obtain ⟨u, key, hu, hkey, hgranted⟩ := granted_of_findVirtual hh
    obtain ⟨_, _, _, _, _, _, _, ⟨_, m₂, hbind⟩, _, hrefused⟩ :=
      bound_of_granted before hu hkey hgranted hfixed
    refine ⟨⟨_, m₂, hbind⟩, fun v hv hprotected => ?_⟩
    obtain rfl := Option.some.inj (hu.symm.trans hv)
    obtain ⟨-, hreceiver, hspecial⟩ := MemberOp.kind_of_instanceUse? hu
    have hnarrows := narrows_of_protectedElsewhere hl hprotected hreceiver hspecial
    rw [receiverClass, if_pos hnarrows] at hrefused
    refine eq_true_of_ne_false fun hr => ?_
    obtain ⟨e, m₃, he⟩ := hrefused hr
    cases he.symm.trans hb
  · rintro ⟨⟨a, m', ha⟩, hreceiver⟩
    obtain ⟨u, key, hu, hkey, hgranted⟩ := granted_of_bind ha
    obtain ⟨_, _, _, _, _, _, _, _, hanswers, _⟩ :=
      bound_of_granted before hu hkey hgranted hfixed
    have hr : r.isInstance C.graph (.cls (l.receiverClass C.graph u)) = true := by
      unfold receiverClass
      split
      · next hnarrows => exact hreceiver u hu (protectedElsewhere_of_narrows hnarrows)
      · rw [(MemberOp.kind_of_instanceUse? hu).1]
        exact r.isInstance_cls C.graph
    obtain ⟨s, m₂, hb⟩ := hanswers hr
    exact ⟨_, m₂, hb⟩
  · intro a b m₁ m₂ ha hb
    obtain ⟨u, key, hu, hkey, hgranted⟩ := granted_of_bind ha
    obtain ⟨base, h, new, x, hnode, hmember, hshape, ⟨s, n₁, hbind⟩, hanswers, hrefused⟩ :=
      bound_of_granted before hu hkey hgranted hfixed
    cases hbind.symm.trans ha
    have hr : r.isInstance C.graph (.cls (l.receiverClass C.graph u)) = true := by
      refine eq_true_of_ne_false fun hr => ?_
      obtain ⟨e, n₂, he⟩ := hrefused hr
      cases he.symm.trans hb
    obtain ⟨s', n₂, hfound⟩ := hanswers hr
    cases hfound.symm.trans hb
    refine ⟨rfl, fun n n' hn hn' hsame P depth args => ?_⟩
    refine Handle.alike_bound (fun depth args => ?_) depth args n n' ⟨hsame, hn.settled, hn'.settled⟩
    exact Handle.alike_of_member? hnode.symm hmember hshape.symm (List.cons_ne_nil _ _) P depth

/-! ## A sibling -/

/-- The class `p/A` with a protected method `m`, and two classes that extend it in packages of their
own, `q/B` and `r/C`. -/
def ClassGraph.siblings : ClassGraph where
  defined := #[
    ⟨"p/A", ⟨0x0001⟩, .bootstrap, some ClassId.object, [],
      [.withBody "m" ⟨[], .prim .int⟩ ⟨0x0004⟩], []⟩,
    ⟨"q/B", ⟨0x0001⟩, .bootstrap, some bootstrapCount, [], [], []⟩,
    ⟨"r/C", ⟨0x0001⟩, .bootstrap, some bootstrapCount, [], [], []⟩]
  older := ClassGraph.older_of_lt (by decide)

/-- The lookup of `q/B` binds an instance of `r/C` to the method, but cannot find the method and bind
the instance then. With an instance of `q/B` it can do both. -/
theorem Lookup.findThenBind_iff_of_siblings :
    ((∃ a m', (full (bootstrapCount + 1)).bind ⟨.siblings, .initial⟩ (.inst 0 (bootstrapCount + 2))
        "m" ⟨[], .prim .int, by decide, by decide⟩ (.initial true) = .ok a m') ∧
      ¬ ∃ b m', (full (bootstrapCount + 1)).findThenBind ⟨.siblings, .initial⟩
        (.inst 0 (bootstrapCount + 2)) "m" ⟨[], .prim .int, by decide, by decide⟩ (.initial true) =
          .ok b m') ∧
    ∃ b m', (full (bootstrapCount + 1)).findThenBind ⟨.siblings, .initial⟩
      (.inst 0 (bootstrapCount + 1)) "m" ⟨[], .prim .int, by decide, by decide⟩ (.initial true) =
        .ok b m' := by
  -- the handle found on either class is of fixed arity
  have hfixed : ∀ c ∈ [bootstrapCount + 1, bootstrapCount + 2], ∀ h m',
      (full (bootstrapCount + 1)).findVirtual ⟨.siblings, .initial⟩ c "m"
        ⟨[], .prim .int, by decide, by decide⟩ (.initial true) = .ok h m' →
      h.isVarargs = false := by
    intro c hc h m' hh
    rcases List.mem_pair.1 hc with rfl | rfl <;> cases hh <;> rfl
  have hsibling := findThenBind_iff (r := .inst 0 (bootstrapCount + 2)) rfl (.start true)
    (hfixed _ (by decide))
  have hown := findThenBind_iff (r := .inst 0 (bootstrapCount + 1)) rfl (.start true)
    (hfixed _ (by decide))
  refine ⟨⟨⟨_, _, rfl⟩, fun hfound => ?_⟩, hown.1.2 ⟨⟨_, _, rfl⟩, fun _ _ _ => by decide⟩⟩
  -- the method is protected, and the instance of no use to the lookup class
  have hinstance := (hsibling.1.1 hfound).2 ⟨.invokeVirtual, bootstrapCount + 2, none,
    .method ⟨bootstrapCount, 0⟩⟩ rfl ⟨by decide, by decide, by decide⟩
  revert hinstance
  decide

end HandleCalculus
