import HandleCalculus.Proofs.AdaptedCalls
import HandleCalculus.Proofs.BoundReceivers
import HandleCalculus.Proofs.LookupTyping

/-!
# Narrowed receivers

A handle on an instance member is looked up through a class, and takes instances of that class;
where the member is a protected one of another package the lookup class is put in its place. The
access rule relates the lookup class to the class that declares the member, and not to the class
that the member is looked up through. So the parameter may end up beside that class and not below
it, and a call with arguments that the signature takes is refused by the dispatch that the handle
still does on it.

Which class a handle takes, and when that is below the class it was looked up through, is settled by
`Lookup.receiver_iff`, with what it means for calls. The handle may come from the member cache; then
it is on a member that looks the same, and where the two classes are unrelated on the very same
member (`Lookup.member_eq_of_narrowed`).
-/

set_option autoImplicit false

namespace HandleCalculus

/-! ## What the member cache has -/

/-- Whether the member cache has handles of uses under their keys. -/
def MemberCache.Keeps (G : ClassGraph) (c : MemberCache) : Prop :=
  ∀ k h, c.find? k = some h → k.Keeps G h

/-- Whether the member cache has handles of uses that look-ups come down to, under their keys. -/
def MemberCache.Filled (G : ClassGraph) (c : MemberCache) : Prop :=
  ∀ k h, c.find? k = some h →
    ∃ (u : Use) (s : Stamp), u.Reachable G ∧ u.key? G = some k ∧ h = u.handle G k.type s

/-- The machines whose member cache comes from look-ups, by lookups of all rights and whichever
classes are found by name, with anything happening in between that leaves the cache alone. -/
inductive Machine.Caches (G : ClassGraph) : Machine → Prop where
  | start {m : Machine} {on : Bool} (empty : m.members = .empty on) : Caches G m
  | looked {m : Machine} (before : Caches G m) (table : ClassTable) (l : Lookup) {op : MemberOp}
      (valid : op.IsValid G) : Caches G ((l.perform ⟨G, table⟩ op).start m).2
  | other {m n : Machine} (before : Caches G m) (same : n.members = m.members) : Caches G n

/-- A use that is not of a field is of a method. -/
theorem ClassGraph.UsesMember.exists_method {G : ClassGraph} {u : Use} (hu : G.UsesMember u)
    (hfield : u.kind.isField = false) : ∃ a, u.member = .method a := by
  cases hmember : u.member with
  | method a => exact ⟨a, rfl⟩
  | field f =>
    unfold UsesMember at hu
    rw [hmember] at hu
    have hu : G.UsesField u.kind u.ref f := hu
    cases hu.isField.symm.trans hfield

section Cache

variable {G : ClassGraph} {u : Use} {key : MemberKey} {m : Machine}

theorem MemberCache.Filled.of_entries {c d : MemberCache} (hc : c.Filled G)
    (hentries : d.entries = c.entries) : d.Filled G := by
  intro k h hk
  rw [find?, hentries] at hk
  exact hc k h hk

/-- What holds of all that is kept and of what is made holds of all that is kept afterwards. -/
theorem Lookup.members_of_cached {p : MemberKey → Handle → Prop}
    (hkept : ∀ k h, m.members.find? k = some h → p k h)
    (hmade : ∀ s, p key (u.handle G key.type s)) :
    ∀ k h, ((cached key (u.make G key.type)).start m).2.members.find? k = some h → p k h := by
  have hmake := Use.makes_make (G := G) (u := u) key.type
  by_cases hon : m.members.enabled = true
  · cases hfind : m.members.find? key with
    | some h =>
      rw [(cached_of_find? _ hon hfind).2]
      exact hkept
    | none =>
      rw [(cached_of_find?_none hmake hon hfind).2]
      exact forall_lookup_cons hkept (hmade _)
  · rw [(cached_of_disabled hmake (by simpa using hon)).2]
    exact hkept

theorem Lookup.filled_cached (hu : u.Reachable G) (hkey : u.key? G = some key)
    (hm : m.members.Filled G) :
    ((cached key (u.make G key.type)).start m).2.members.Filled G :=
  members_of_cached hm fun _ => ⟨u, _, hu, hkey, rfl⟩

theorem Machine.Caches.filled (hm : m.Caches G) : m.members.Filled G := by
  induction hm with
  | start empty =>
    intro k h hk
    rw [empty] at hk
    cases hk
  | @looked m _ table l op valid ih =>
    -- of a look-up, only asking the cache changes it
    have hallows : Machine.Allows fun m n => m.members.Filled G → n.members.Filled G :=
      ⟨fun _ h => h, fun h h' hm => h' (h hm), fun _ _ h => h, fun _ _ h => h⟩
    refine Lookup.stays_perform hallows l op (fun u key hu hkey m hm => ?_) m ih
    exact Lookup.filled_cached ⟨op, valid, hu⟩ hkey hm
  | other _ same ih => exact ih.of_entries (congrArg _ same)

theorem Machine.Caches.keeps (hG : G.MembersNumbered) (hm : m.Caches G) : m.members.Keeps G := by
  intro k h hk
  obtain ⟨u, s, hu, hkey, hh⟩ := hm.filled k h hk
  exact ⟨u, s, ClassGraph.usesMember_of_reachable hG hu, hkey, hh⟩

/-- The handle that the machine has for a use is as what is kept under the key and what is made are.
-/
theorem Machine.handleOf_of {p : Handle → Prop} (hkept : ∀ h, m.members.find? key = some h → p h)
    (hmade : ∀ s, p (u.handle G key.type s)) : p (m.handleOf G u key) := by
  unfold handleOf
  cases hk : m.kept? key with
  | none => exact hmade _
  | some h =>
    unfold kept? at hk
    split at hk
    · exact hkept h hk
    · cases hk

/-- What is left of a look-up goes on from the node of the handle that the machine has for the use, under
a signature that erases alike. -/
theorem MemberOp.exists_base_of_answer {C : Classes} {l : Lookup} {op : MemberOp} {m' : Machine}
    {h : Handle} (hm : op.answer C l u key m = .ok h m') :
    ∃ a m₁, a.node = (m.handleOf C.graph u key).node ∧
      a.type.shape = (m.handleOf C.graph u key).type.shape ∧ op.finish C.graph a m₁ = .ok h m' := by
  obtain ⟨a, m₁, ha, hfinish⟩ := Link.exists_of_bind hm
  suffices hsame : a.node = (m.handleOf C.graph u key).node ∧
      a.type.shape = (m.handleOf C.graph u key).type.shape from ⟨a, m₁, hsame.1, hsame.2, hfinish⟩
  obtain ⟨base, m₂, hbase, hnarrow⟩ := Link.exists_of_bind ha
  obtain ⟨m₃, hcached⟩ := Lookup.cached_eq_ok C.graph u key m
  obtain rfl : base = m.handleOf C.graph u key := by
    cases hbase.symm.trans hcached
    rfl
  split at hnarrow
  · -- narrowed, it has the same node
    obtain ⟨hmade, -⟩ := Link.exists_of_build hnarrow
    simp only [Bind.bind, Except.bind] at hmade
    split at hmade
    · cases hmade
    · exact ⟨(Handle.retype_eq_ok hmade).1, Handle.shape_of_retype hmade⟩
  · cases hnarrow
    exact ⟨rfl, rfl⟩

/-- The handle that the machine has for a use is that of a use under the same key. -/
theorem Machine.keeps_handleOf (hm : m.members.Keeps G) (hu : G.UsesMember u)
    (hkey : u.key? G = some key) : key.Keeps G (m.handleOf G u key) :=
  handleOf_of (hm key) fun s => ⟨u, s, hu, hkey, rfl⟩

end Cache

/-! ## What a look-up makes of it -/

section Found

variable {G : ClassGraph} {l : Lookup} {op : MemberOp} {u v : Use} {key : MemberKey} {m m' : Machine}
  {h : Handle} {table : ClassTable}

/-- A handle that takes a receiver has the node of the one that the machine has for the use, and its
first parameter is the class that it was looked up through or the lookup class. -/
theorem Lookup.found_of_perform (hm : m.members.Keeps G) (hop : op.takesReceiver = true)
    (hu : op.use? G = some u) (huse : G.UsesMember u) (hinst : (u.flags G).isStatic = false)
    (hh : l.perform ⟨G, table⟩ op m = .ok h m') :
    (l.trusted = true ∨ l.Permits ⟨G, table⟩ u) ∧ ∃ key v s rest, u.key? G = some key ∧
      G.UsesMember v ∧ v.key? G = some key ∧ h.node = (v.handle G key.type s).node ∧
      key.type.params = .cls u.ref :: rest ∧ h.type.params = .cls (l.receiverClass G u) :: rest := by
  obtain ⟨hrestricts, hkind, hspecial⟩ := op.kind_of_takesReceiver hop hu hinst
  obtain ⟨u', key, es, hu', hkey, hgranted, hanswer⟩ := exists_use_of_perform hh
  obtain rfl := Option.some.inj (hu.symm.trans hu')
  obtain ⟨rest, hrest⟩ := Use.params_of_receiver hkind hspecial hkey
  obtain ⟨v, s, hv, hvkey, hbase⟩ := Machine.keeps_handleOf (u := u) hm huse hkey
  have hparams : ((m.reports es).handleOf G u key).type.params = .cls u.ref :: rest := by
    rw [m.handleOf_reports, hbase, Use.type_handle, hrest]
  obtain ⟨k, m₁, hk, hnode, -, hreceiver⟩ :=
    handleFor_eq_ok (C := ⟨G, table⟩) (l := l) hparams
  rw [m.handleOf_reports, hbase] at hnode
  -- nothing is done to it after that
  have hfinish : ∀ a, op.finish G a = pure a := by
    intro a
    cases op <;> first
      | rfl
      | cases hrestricts
  have hanswer : (l.handleFor ⟨G, table⟩ u key op.restricts >>= (op.finish G ·)) (m.reports es) =
      .ok h m' := hanswer
  rw [hrestricts, bind_eq_of_ok hk, hfinish] at hanswer
  cases hanswer
  exact ⟨hgranted, key, v, s, rest, hkey, hv, hvkey, hnode, hrest, hreceiver⟩

/-- The receiver of a use is narrowed exactly if the member is a protected one of another package.
-/
theorem Lookup.narrows_iff (hl : l.trusted = false) (hkind : u.kind.hasReceiver = true)
    (hspecial : u.kind ≠ .invokeSpecial) :
    l.narrows G u = true ↔ u.ProtectedElsewhere G l.cls :=
  ⟨fun h => protectedElsewhere_of_narrows (C := ⟨G, .initial⟩) h,
    fun h => narrows_of_protectedElsewhere hl h hkind hspecial⟩

/-- If a use may be narrowed, but to a class that is not below the one it is made through, the
member is declared above that one; so whatever has been kept under the key is on the very same
member, which is not private. -/
theorem Lookup.member_eq_of_narrowed {a : MethodRef} (hmember : u.member = .method a)
    (huse : G.UsesMember u) (hv : G.UsesMember v)
    (hkey : u.key? G = some key) (hvkey : v.key? G = some key)
    (hpermits : l.Permits ⟨G, table⟩ u) (hnarrows : l.narrows G u = true)
    (hsub : G.isSubclass l.cls u.ref = false) :
    v.member = .method a ∧ (G.method a).flags.isPrivate = false := by
  obtain ⟨kind, ref, caller, member⟩ := u
  obtain ⟨kind', ref', caller', member'⟩ := v
  obtain rfl : member = .method a := hmember
  obtain ⟨ht, hr, hn, hk⟩ := Use.key?_eq_some_iff.1 hkey
  obtain ⟨ht', hr', hn', hk'⟩ := Use.key?_eq_some_iff.1 hvkey
  obtain rfl : kind = kind' := hk.symm.trans hk'
  obtain rfl : ref = ref' := hr.symm.trans hr'
  have ha : G.UsesMethod kind ref a := huse
  simp only [narrows, Bool.and_eq_true, bne_iff_ne] at hnarrows
  obtain ⟨⟨hreceiver, -⟩, hrestricts⟩ := hnarrows
  have hrestricts : l.restrictsReceiver G a.cls (G.method a).flags = true := hrestricts
  have hnew : kind ≠ .newInvokeSpecial := by
    rintro rfl
    cases hreceiver
  have haccess : G.memberAccessible ref a.cls (G.method a).flags l.cls l.modes = true := by
    have haccess := hpermits.member
    rwa [judgedFlags, if_neg hnew] at haccess
  obtain ⟨hmodifiers, hinherits⟩ := l.inherits_of_restrictsReceiver hrestricts haccess
  have hprivate : (G.method a).flags.isPrivate = false := by
    rw [Flags.isPrivate, Flags.has_eq_modifiers _ (by decide), hmodifiers]
    decide
  refine ⟨?_, hprivate⟩
  cases member' with
  | field f =>
    have hf : G.UsesField kind ref f := hv
    exact absurd (hf.isField.symm.trans ha.isField) (by decide)
  | method b =>
    have hb : G.UsesMethod kind ref b := hv
    have hname : (G.method a).name = (G.method b).name := hn.symm.trans hn'
    rcases ha.cls_eq_or_eq hb hname fun _ => Use.desc_eq_of_type hnew ht ht' with ⟨hcls, -⟩ | rfl
    · -- declared by the class itself, the method would be inherited from it
      have hinherits : G.isSubclass l.cls a.cls = true := hinherits
      have hsub : G.isSubclass l.cls ref = false := hsub
      rw [hcls, hsub] at hinherits
      cases hinherits
    · rfl

end Found

/-! ## Calls -/

/-- Whether no call of the handle with a receiver that is not null fails for the receiver, on
whatever machine can be reached. -/
def Handle.AcceptsReceivers (G : ClassGraph) (h : Handle) : Prop :=
  ∀ (P : Program) (depth : Nat) (args : List Value) (m n : Machine) (e : Error), P.graph = G →
    m.Reached → args.head? ≠ some .null → h.invokeExact P depth args m = .error (.error e) n →
      e.kind ≠ .incompatibleReceiver

section Calls

variable {P : Program} {call : Caller} {h : Handle} {a b : MethodRef} {d : ClassId} {interface : Bool}
  {o : Object} {args : List Value} {m n : Machine} {e : Error}

/-- A receiver that is no instance of the class is refused, and no body is run. -/
theorem Handle.perform_virtual_of_not (hnode : h.node = .virtual a d interface)
    (ho : o.isInstance P.graph (.cls d) = false) :
    h.perform P call (.obj o :: args) m =
      .error (.error (.receiver (.notInstance o d))) m := by
  obtain ⟨stamp, type, node⟩ := h
  obtain rfl : node = .virtual a d interface := hnode
  show P.callVirtual a d (.obj o :: args) m = _
  unfold Program.callVirtual
  rw [bind_eq_of_ok (show Run.ofExcept (receiver (.method a) (.obj o :: args)) m = .ok o m from rfl),
    ho]
  rfl

theorem Program.kind_of_callMethod (hfails : P.callMethod a args m = .error (.error e) n) :
    e.kind ≠ .incompatibleReceiver := by
  unfold callMethod at hfails
  split at hfails
  · unfold runBody at hfails
    dsimp only at hfails
    split at hfails
    · cases hfails
    · cases hfails
      exact nofun
  · cases hfails
    exact nofun

/-- A node on a method does not fail for a receiver that is an instance of the class it dispatches
on. -/
theorem Handle.kind_of_perform_method {kind : RefKind}
    (hnode : h.node = Lookup.methodNode P.graph kind d a)
    (ho : o.isInstance P.graph (.cls d) = true)
    (hfails : h.perform P call (.obj o :: args) m = .error (.error e) n) :
    kind ≠ .newInvokeSpecial → e.kind ≠ .incompatibleReceiver := by
  intro hnew
  obtain ⟨stamp, type, node⟩ := h
  obtain rfl : node = Lookup.methodNode P.graph kind d a := hnode
  have hspecial : P.callDirect a .special (.obj o :: args) m = .error (.error e) n →
      e.kind ≠ .incompatibleReceiver := P.kind_of_callMethod
  have hvirtual : P.callVirtual a d (.obj o :: args) m = .error (.error e) n →
      e.kind ≠ .incompatibleReceiver := by
    intro hfails
    unfold Program.callVirtual at hfails
    rw [bind_eq_of_ok (show Run.ofExcept (receiver (.method a) (.obj o :: args)) m = .ok o m from
      rfl), ho] at hfails
    cases himpl : P.graph.implementation? o.cls a with
    | some s =>
      rw [himpl] at hfails
      exact P.kind_of_callMethod hfails
    | none =>
      rw [himpl] at hfails
      cases hfails
      exact nofun
  unfold Lookup.methodNode at hfails
  split at hfails
  · exact P.kind_of_callMethod hfails
  · exact absurd rfl hnew
  · exact hspecial hfails
  · split at hfails
    · exact hspecial hfails
    · exact hvirtual hfails

/-- A call fails with wrong arguments, or as the handle does once its thunk is there. -/
theorem Handle.perform_of_invokeExact (hm : m.Settled) {depth : Nat}
    (hfails : h.invokeExact P depth args m = .error (.error e) n) :
    (∃ a, e = .argument a) ∨ Value.fitAll P.graph args h.type.params = true ∧
      ∃ d n₀, depth = d + 1 ∧ n₀.Settled ∧
        h.perform P (Handle.invokeBasic P d) args n₀ = .error (.error e) n := by
  unfold invokeExact at hfails
  cases hcheck : h.type.check P.graph args with
  | error a =>
    rw [hcheck] at hfails
    cases hfails
    exact .inl (Signature.eq_argument_of_check hcheck)
  | ok _ =>
    rw [hcheck] at hfails
    have hfails : h.invokeBasic P depth args m = .error (.error e) n := hfails
    refine .inr ⟨Signature.check_eq_ok_iff.1 hcheck, ?_⟩
    cases depth with
    | zero => cases hfails
    | succ d =>
      obtain ⟨n₀, hn₀, -, -, hperform⟩ := h.invokeBasic_of_settled (P := P) hm d
      exact ⟨d, n₀, rfl, hn₀, (hperform args).symm.trans hfails⟩

end Calls

section Found

variable {G : ClassGraph} {h : Handle} {v : Use} {a : MethodRef} {c : ClassId} {rest : List Ty}
  {t : Signature} {s : Stamp}

/-- A handle on a method that takes instances of the class which the method is used through, or of
one below, accepts every receiver. -/
theorem Handle.acceptsReceivers_of_isSubclass (hnode : h.node = (v.handle G t s).node)
    (hmember : v.member = .method a) (hnew : v.kind ≠ .newInvokeSpecial)
    (hparams : h.type.params = .cls c :: rest) (hc : G.isSubclass c v.ref = true) :
    h.AcceptsReceivers G := by
  rintro P depth args m n e rfl hm hnull hfails
  rcases h.perform_of_invokeExact hm.settled hfails with ⟨a, rfl⟩ | ⟨hfits, d, n₀, -, hn₀, hfails⟩
  · exact nofun
  -- the receiver is an object, of the class of the parameter
  obtain ⟨o, vs, rfl, ho⟩ : ∃ o vs, args = .obj o :: vs ∧
      o.isInstance P.graph (.cls v.ref) = true := by
    rw [hparams] at hfits
    cases args with
    | nil => cases hfits
    | cons w vs =>
      rw [Value.fitAll, Bool.and_eq_true] at hfits
      rcases (Value.fits_reference rfl).1 hfits.1 with rfl | ⟨o, rfl, -⟩
      · exact absurd rfl hnull
      · have hassign : P.graph.isAssignable (.cls c) (.cls v.ref) = true := hc
        exact ⟨o, vs, rfl, Value.fits_of_isAssignable hfits.1 hassign⟩
  have hplain : v.node P.graph = Lookup.methodNode P.graph v.kind v.ref a := by
    rw [Use.node, hmember]
  unfold Use.handle at hnode
  split at hnode
  · -- a handle of variable arity calls its target, on the same arguments
    obtain ⟨stamp, type, node⟩ := h
    obtain rfl := hnode
    cases d with
    | zero => cases hfails
    | succ d =>
      obtain ⟨n₁, -, -, -, hperform⟩ :=
        Handle.invokeBasic_of_settled (P := P) hn₀ ⟨s, t, v.node P.graph⟩ d
      have hfails := (hperform (.obj o :: vs)).symm.trans hfails
      exact kind_of_perform_method hplain ho hfails hnew
  · exact kind_of_perform_method (hnode.trans hplain) ho hfails hnew

/-- If it takes instances of a class that is not below that one, one of these is refused. -/
theorem Handle.not_acceptsReceivers {interface : Bool} (hnode : h.node = (v.handle G t s).node)
    (hvirtual : v.node G = .virtual a v.ref interface) (hparams : h.type.params = .cls c :: rest)
    (hc : G.isSubclass c v.ref = false) : ¬ h.AcceptsReceivers G := by
  intro haccepts
  let o : Object := .inst 0 c
  let args : List Value := .obj o :: rest.map Value.zero
  have hfits : Value.fitAll G args h.type.params = true := by
    have hvoid : Ty.void ∉ rest := fun hp => h.type.noVoid (hparams ▸ List.mem_cons_of_mem _ hp)
    rw [hparams, Value.fitAll, Value.fitAll_zero hvoid, Bool.and_true]
    exact G.isSubclass_refl c
  have hrefused : ∀ (k : Handle) (call : Caller) (m : Machine), k.node = v.node G →
      k.perform (.zeros G) call args m =
        .error (.error (.receiver (.notInstance o v.ref))) m :=
    fun k call m hk => perform_virtual_of_not (P := .zeros G) (hk.trans hvirtual) hc
  have hstart := Machine.Reached.start true
  obtain ⟨n, hn, -, -, hperform⟩ := h.invokeBasic_of_settled (P := .zeros G) hstart.settled 1
  obtain ⟨e, n', hfails⟩ : ∃ e n', h.invokeBasic (.zeros G) 2 args (.initial true) =
      .error (.error (.receiver e)) n' := by
    rw [hperform]
    unfold Use.handle at hnode
    split at hnode
    · obtain ⟨stamp, type, node⟩ := h
      obtain rfl := hnode
      obtain ⟨n₁, -, -, -, hperform⟩ :=
        Handle.invokeBasic_of_settled (P := .zeros G) hn ⟨s, t, v.node G⟩ 0
      exact ⟨_, _, (hperform args).trans (hrefused _ _ _ rfl)⟩
    · exact ⟨_, _, hrefused _ _ _ hnode⟩
  have hcalled : h.invokeExact (.zeros G) 2 args (.initial true) = .error (.error (.receiver e)) n' := by
    unfold invokeExact
    rw [show (Program.zeros G).graph = G from rfl, Signature.check_eq_ok_iff.2 hfits]
    exact hfails
  have hnull : args.head? ≠ some .null := by
    intro hnull
    cases hnull
  exact haccepts (.zeros G) 2 args _ _ _ rfl hstart hnull hcalled rfl

end Found

/-! ## The class of receivers -/

/-- **The receiver that a handle takes.** A handle that a lookup without trust gets on an instance
member takes instances of the class that the member is looked up through or, if it is a protected
one of another package, of the lookup class. That is below the class looked up through, unless the
member is such a one and the lookup class is not; and exactly where it is below does a handle on a
method accept every receiver that it takes. -/
theorem Lookup.receiver_iff {G : ClassGraph} (hG : G.MembersNumbered) {l : Lookup} {op : MemberOp}
    {u : Use} {m m' : Machine} (before : m.Caches G) {table : ClassTable} (hl : l.trusted = false)
    (hop : op.takesReceiver = true) (hvalid : op.IsValid G) (hu : op.use? G = some u)
    (hinst : (u.flags G).isStatic = false) {h : Handle}
    (hh : l.perform ⟨G, table⟩ op m = .ok h m') :
    ∃ c rest, h.type.params = .cls c :: rest ∧
      (u.ProtectedElsewhere G l.cls ∧ c = l.cls ∨ ¬ u.ProtectedElsewhere G l.cls ∧ c = u.ref) ∧
      (G.isSubclass c u.ref = true ↔
        (u.ProtectedElsewhere G l.cls → G.isSubclass l.cls u.ref = true)) ∧
      ∀ a, u.member = .method a → (h.AcceptsReceivers G ↔ G.isSubclass c u.ref = true) := by
  obtain ⟨-, hkind, hspecial⟩ := op.kind_of_takesReceiver hop hu hinst
  have huse := ClassGraph.usesMember_of_reachable hG ⟨op, hvalid, hu⟩
  have hiff := narrows_iff (G := G) hl hkind hspecial
  obtain ⟨hgranted, key, v, s, rest, hkey, hv, hvkey, hnode, hrest, hparams⟩ :=
    found_of_perform (before.keeps hG) hop hu huse hinst hh
  have hpermits : l.Permits ⟨G, table⟩ u := by
    rcases hgranted with htrusted | hpermits
    · rw [hl] at htrusted
      cases htrusted
    · exact hpermits
  have hclass : u.ProtectedElsewhere G l.cls ∧ l.receiverClass G u = l.cls ∨
      ¬ u.ProtectedElsewhere G l.cls ∧ l.receiverClass G u = u.ref := by
    unfold receiverClass
    by_cases hnarrows : l.narrows G u = true
    · exact .inl ⟨hiff.1 hnarrows, if_pos hnarrows⟩
    · exact .inr ⟨fun hprotected => hnarrows (hiff.2 hprotected), if_neg hnarrows⟩
  refine ⟨l.receiverClass G u, rest, hparams, hclass, ?_, fun a hmember => ?_⟩
  · rcases hclass with ⟨hprotected, hc⟩ | ⟨hprotected, hc⟩
    · rw [hc]
      exact ⟨fun h _ => h, fun h => h hprotected⟩
    · rw [hc]
      exact ⟨fun _ h => absurd h hprotected, fun _ => G.isSubclass_refl _⟩
  -- the handle that was cached is on a method too, and used in the same way
  obtain ⟨-, hr, -, hk⟩ := Use.key?_eq_some_iff.1 hkey
  obtain ⟨-, hr', -, hk'⟩ := Use.key?_eq_some_iff.1 hvkey
  have hsameKind : v.kind = u.kind := hk'.symm.trans hk
  have hsameRef : v.ref = u.ref := hr'.symm.trans hr
  have hfield : u.kind.isField = false := by
    have huses := huse
    rw [ClassGraph.UsesMember, hmember] at huses
    exact ClassGraph.UsesMethod.isField huses
  have hnew : u.kind ≠ .newInvokeSpecial := by
    intro hnew
    rw [hnew] at hkind
    cases hkind
  constructor
  · intro haccepts
    by_contra hsub
    rw [Bool.not_eq_true] at hsub
    have hnarrows : l.narrows G u = true := by
      by_contra hnarrows
      rw [receiverClass, if_neg hnarrows, G.isSubclass_refl] at hsub
      cases hsub
    rw [receiverClass, if_pos hnarrows] at hsub hparams
    obtain ⟨hsame, hprivate⟩ :=
      member_eq_of_narrowed hmember huse hv hkey hvkey hpermits hnarrows hsub
    have hvirtual : v.node G = .virtual a v.ref (v.kind == .invokeInterface) := by
      rw [Use.node, hsame, hsameKind]
      unfold methodNode
      cases hkindOf : u.kind <;> simp_all [RefKind.hasReceiver, RefKind.isField]
    rw [← hsameRef] at hsub
    exact Handle.not_acceptsReceivers hnode hvirtual hparams hsub haccepts
  · intro hsub
    obtain ⟨b, hb⟩ := hv.exists_method (hsameKind ▸ hfield)
    rw [← hsameRef] at hsub
    exact Handle.acceptsReceivers_of_isSubclass hnode hb (hsameKind ▸ hnew) hparams hsub

theorem ClassGraph.siblings_numbered : siblings.MembersNumbered where
  methods c := Nat.le_trans
    (forall_decl (p := fun d => d.methods.length ≤ 1) (by decide) (by decide) (by decide) c)
    (by decide)
  fields c := Nat.le_trans
    (forall_decl (p := fun d => d.fields.length ≤ 1) (by decide) (by decide) (by decide) c)
    (by decide)

/-- The look-up of the method of `p/A` through a class. -/
def MemberOp.siblingM (c : ClassId) : MemberOp :=
  .findVirtual c "m" ⟨[], .prim .int, List.not_mem_nil, Nat.zero_le _⟩

/-- The lookup of `q/B` finds the protected method of `p/A` through `p/A` and through the sibling
`r/C`. Both handles take instances of `q/B`. The first accepts them, the second does not. -/
theorem Lookup.receiver_iff_of_siblings :
    (∃ h m' rest, (full (bootstrapCount + 1)).perform ⟨.siblings, .initial⟩
        (.siblingM bootstrapCount) (.initial true) = .ok h m' ∧
      h.type.params = .cls (bootstrapCount + 1) :: rest ∧ h.AcceptsReceivers .siblings) ∧
    ∃ h m' rest, (full (bootstrapCount + 1)).perform ⟨.siblings, .initial⟩
        (.siblingM (bootstrapCount + 2)) (.initial true) = .ok h m' ∧
      h.type.params = .cls (bootstrapCount + 1) :: rest ∧
      ClassGraph.isSubclass .siblings (bootstrapCount + 1) (bootstrapCount + 2) = false ∧
      ¬ h.AcceptsReceivers .siblings := by
  have hprotected : ∀ c, Use.ProtectedElsewhere .siblings
      ⟨.invokeVirtual, c, none, .method ⟨bootstrapCount, 0⟩⟩ (bootstrapCount + 1) := by
    have hflags : (⟨0x0004⟩ : Flags).isProtected = true ∧ (⟨0x0004⟩ : Flags).isStatic = false := by
      decide
    have hpackage : ClassGraph.siblings.samePackage bootstrapCount (bootstrapCount + 1) = false := by
      decide
    exact fun c => ⟨hflags.1, hflags.2, hpackage⟩
  have hstart : Machine.Caches .siblings (.initial true) := .start rfl
  have hvalid : ∀ c, (MemberOp.siblingM c).IsValid .siblings := fun c => trivial
  constructor
  · obtain ⟨h, m', hh⟩ : ∃ h m', (full (bootstrapCount + 1)).perform ⟨.siblings, .initial⟩
        (.siblingM bootstrapCount) (.initial true) = .ok h m' := ⟨_, _, rfl⟩
    obtain ⟨c, rest, hparams, hc, -, hmethod⟩ := receiver_iff ClassGraph.siblings_numbered hstart rfl
      rfl (hvalid _) (u := ⟨.invokeVirtual, bootstrapCount, none, .method ⟨bootstrapCount, 0⟩⟩) rfl
      rfl hh
    obtain ⟨-, rfl⟩ := hc.resolve_right fun hnot => hnot.1 (hprotected _)
    exact ⟨h, m', rest, hh, hparams, (hmethod _ rfl).2 (by decide)⟩
  · obtain ⟨h, m', hh⟩ : ∃ h m', (full (bootstrapCount + 1)).perform ⟨.siblings, .initial⟩
        (.siblingM (bootstrapCount + 2)) (.initial true) = .ok h m' := ⟨_, _, rfl⟩
    obtain ⟨c, rest, hparams, hc, -, hmethod⟩ := receiver_iff ClassGraph.siblings_numbered hstart rfl
      rfl (hvalid _) (u := ⟨.invokeVirtual, bootstrapCount + 2, none, .method ⟨bootstrapCount, 0⟩⟩) rfl
      rfl hh
    obtain ⟨-, rfl⟩ := hc.resolve_right fun hnot => hnot.1 (hprotected _)
    have hsub : ClassGraph.isSubclass .siblings (bootstrapCount + 1) (bootstrapCount + 2) = false := by
      decide
    refine ⟨h, m', rest, hh, hparams, hsub, fun haccepts => ?_⟩
    cases hsub.symm.trans ((hmethod _ rfl).1 haccepts)

end HandleCalculus
