import HandleCalculus.Proofs.Reordering
import HandleCalculus.Proofs.SitedHandles

/-!
# Nodes that fit their signatures

A handle may be seen under another signature as long as it erases alike, and its node then stands under a
signature that it was not made for. What a node asks of the erased signature alone (`Node.Accepts`), it
gets all the same: a reordering gets the erased types that it passes on, a setter has a value to set, a
node that throws has a reference to throw. All handles that a program makes fit in this way, and so do
those that can be got out of them (`Handling.fitted`), whatever the class graph is like and whatever its
methods do.

Most nodes ask nothing. So each combinator is a line, but for the reorderings: those that compose pick
from the erased signature what the inner one needs (`Handle.Permuted.fitted`).
-/

set_option autoImplicit false

namespace HandleCalculus

/-- What a node asks of the erased form of the signature that it stands under. -/
def Node.Accepts : Node Handle → Shape → Prop
  | .permute target order, s =>
    Picks s.params order target.type.shape.params ∧ s.ret = target.type.shape.ret
  | .collect _ _ _ array, _ => array.component?.isSome = true
  | .setField .., s => s.params ≠ []
  | .identity, s => s.params ≠ []
  | .throwing, s => s.params.head? = some .L
  | _, _ => True

/-- Whether the nodes of a handle, and of all that can be got out of it, accept the signatures that they
stand under. -/
inductive Handle.Fitted : Handle → Prop where
  | intro {h : Handle} (own : h.node.Accepts h.type.shape) (opened : ∀ k, h.Opens k → k.Fitted) :
    h.Fitted

namespace Handle

variable {G : ClassGraph} {s : Stamp} {h h' k : Handle}

namespace Fitted

theorem own (hh : h.Fitted) : h.node.Accepts h.type.shape := by
  cases hh with
  | intro own _ => exact own

theorem opened (hh : h.Fitted) (hk : h.Opens k) : k.Fitted := by
  cases hh with
  | intro _ opened => exact opened k hk

/-- Another signature that erases alike makes no difference. -/
theorem congr (hh : h.Fitted) (hnode : h'.node = h.node) (hshape : h'.type.shape = h.type.shape) :
    h'.Fitted := by
  refine .intro ?_ fun k hk => hh.opened (hk.congr hnode)
  rw [hnode, hshape]
  exact hh.own

/-- A node that nothing can be got out of. -/
theorem of_solid {t : Signature} {n : Node Handle} (hvarargs : n.variant ≠ .varargs)
    (hpermute : n.variant ≠ .permute) (own : n.Accepts t.shape) : (⟨s, t, n⟩ : Handle).Fitted := by
  have hsolid : (⟨s, t, n⟩ : Handle).Solid := solid_of_variant hvarargs hpermute
  exact .intro own fun k hk => absurd hk (hsolid k)

/-- A node of variable arity over a handle that fits. -/
theorem of_varargs (hk : k.Fitted) {t : Signature} {array : Ty} {cell : Stamp} :
    (⟨s, t, .varargs k array cell⟩ : Handle).Fitted := by
  refine .intro trivial fun j hj => ?_
  cases hj with
  | varargs hnode =>
    cases hnode
    exact hk
  | permute hnode => cases hnode

theorem of_permute (hk : k.Fitted) {t : Signature} {order : List Nat}
    (hparams : Picks t.shape.params order k.type.shape.params)
    (hret : t.shape.ret = k.type.shape.ret) : (⟨s, t, .permute k order⟩ : Handle).Fitted := by
  refine .intro ⟨hparams, hret⟩ fun j hj => ?_
  cases hj with
  | varargs hnode => cases hnode
  | permute hnode =>
    cases hnode
    exact hk

theorem of_unlinked (hvariant : h.variant = .unlinked) : h.Fitted := by
  obtain ⟨stamp, type, node⟩ := h
  cases node with
  | unlinked message => exact of_solid nofun nofun trivial
  | _ => cases hvariant

theorem asFixedArity (hh : h.Fitted) : h.asFixedArity.Fitted := by
  unfold Handle.asFixedArity
  split
  · next k array cell hnode => exact hh.opened (.varargs hnode)
  · exact hh

end Fitted

/-! ## Reorderings -/

section Reorderings

variable {new : Signature} {reorder order : List Nat} {inner : Handle}

theorem shape_of_routes {old : Signature} (h : new.Routes old reorder) :
    Picks new.shape.params reorder old.shape.params ∧ new.shape.ret = old.shape.ret :=
  ⟨h.params.map Ty.carrier, congrArg Ty.carrier h.ret⟩

/-- One reordering after the other passes on what the inner handle needs. -/
theorem Fitted.combined (hh : h.Fitted) (hroutes : new.Routes h.type reorder)
    (hnode : h.node = .permute inner order) :
    Picks new.shape.params (Handle.combined reorder order) inner.type.shape.params ∧
      new.shape.ret = inner.type.shape.ret := by
  have hown := hh.own
  rw [hnode] at hown
  obtain ⟨hparams, hret⟩ := shape_of_routes hroutes
  exact ⟨hparams.combined hown.1, hret.trans hown.2⟩

/-- Where two reorderings cancel out, the signatures erase alike. -/
theorem Fitted.shape_eq (hh : h.Fitted) (hroutes : new.Routes h.type reorder)
    (hnode : h.node = .permute inner order)
    (hlength : (Handle.combined reorder order).length = new.arity)
    (hidentity : isIdentityOrder (Handle.combined reorder order) = true) :
    new.shape = inner.type.shape := by
  obtain ⟨hparams, hret⟩ := hh.combined hroutes hnode
  have hlength : (Handle.combined reorder order).length = new.shape.params.length := by
    rw [hlength]
    exact (List.length_map _).symm
  have hsame := (picks_of_isIdentityOrder hidentity hlength).unique hparams
  show Shape.mk new.shape.params new.shape.ret = _
  rw [hsame, hret]

theorem Permuted.fitted (hmade : Permuted s h new reorder h') (hroutes : new.Routes h.type reorder)
    (hh : h.Fitted) : h'.Fitted := by
  obtain ⟨hparams, hret⟩ := shape_of_routes hroutes
  cases hmade with
  | same _ _ => exact hh
  | fresh _ => exact .of_permute hh hparams hret
  | collapsed hnode =>
    obtain ⟨hcombined, hinner⟩ := hh.combined hroutes hnode
    exact .of_permute (hh.opened (.permute hnode)) hcombined hinner
  | cancelled hnode _ _ _ => exact hh.opened (.permute hnode)
  | retyped hnode _ _ hshape => exact (hh.opened (.permute hnode)).congr rfl hshape

theorem fitted_permuteArguments (hh : h.Fitted) (hmade : h.permuteArguments s new reorder = .ok h') :
    h'.Fitted := by
  obtain ⟨hroutes, hpermuted⟩ := permuteArguments_eq_ok hmade
  exact hpermuted.fitted hroutes hh

/-- A reordering that has the types that it needs never fails. -/
theorem permuteArguments_succeeds_iff (hh : h.Fitted) :
    (∃ h', h.permuteArguments s new reorder = .ok h') ↔ new.Routes h.type reorder := by
  constructor
  · rintro ⟨h', hmade⟩
    exact (permuteArguments_eq_ok hmade).1
  · intro hroutes
    exact exists_permuteArguments hroutes fun inner order hnode hlength hidentity =>
      hh.shape_eq hroutes hnode hlength hidentity

theorem fitted_dropArguments (hh : h.Fitted) {pos : Nat} {types : List Ty}
    (hmade : h.dropArguments s pos types = .ok h') : h'.Fitted := by
  rcases dropArguments_eq_ok hmade with rfl | ⟨new, reorder, hmade⟩
  · exact hh
  · exact fitted_permuteArguments hh hmade

end Reorderings

/-! ## Other combinators -/

theorem fitted_insertArguments (hh : h.Fitted) {pos : Nat} {vs : List Value}
    (hmade : h.insertArguments G s pos vs = .ok h') : h'.Fitted := by
  rcases insertArguments_eq_ok hmade with rfl | ⟨t, bound, rfl⟩
  · exact hh
  · exact .of_solid nofun nofun trivial

theorem fitted_bindTo (hh : h.Fitted) {v : Value} (hmade : h.bindTo G s v = .ok h') : h'.Fitted :=
  fitted_insertArguments hh (insertArguments_of_bindTo hmade)

theorem fitted_filterArguments (hh : h.Fitted) {pos : Nat} {filters : List (Option Handle)}
    (hmade : h.filterArguments s pos filters = .ok h') : h'.Fitted := by
  rcases filterArguments_eq_ok hmade with rfl | ⟨t, rfl⟩
  · exact hh
  · exact .of_solid nofun nofun trivial

theorem fitted_identity {t : Ty} (hmade : identity s t = .ok h') : h'.Fitted := by
  unfold identity at hmade
  simp only [bind, Except.bind, pure, Except.pure] at hmade
  split at hmade
  · cases hmade
  next type htype =>
  obtain rfl := Except.ok.inj hmade
  refine .of_solid nofun nofun ?_
  show type.params.map Ty.carrier ≠ []
  rw [(Signature.of_eq_ok_iff.1 htype).2]
  exact nofun

theorem fitted_throwException {ret : Ty} {c : ClassId} (hmade : throwException G s ret c = .ok h') :
    h'.Fitted := by
  unfold throwException at hmade
  simp only [bind, Except.bind, pure, Except.pure, throw, throwThe, MonadExceptOf.throw] at hmade
  split at hmade
  · cases hmade
  split at hmade
  · cases hmade
  next type htype =>
  obtain rfl := Except.ok.inj hmade
  refine .of_solid nofun nofun ?_
  show (type.params.map Ty.carrier).head? = some .L
  rw [(Signature.of_eq_ok_iff.1 htype).2]
  rfl

theorem fitted_convertTo (hh : h.Fitted) {new : Signature} (hmade : h.convertTo G s new = .ok h') :
    h'.Fitted := by
  rcases convertTo_eq_ok hmade with rfl | ⟨args, ret, -, -, -, ⟨-, -, hretype⟩ | rfl⟩
  · exact hh
  · exact hh.congr (retype_eq_ok hretype).1 (shape_of_retype hretype)
  · exact .of_solid nofun nofun trivial

theorem fitted_asCollectorAt {pos count : Nat} {array : Ty}
    (hmade : h.asCollectorAt G s pos array count = .ok h') : h'.Fitted := by
  obtain ⟨c, t, rfl, -, -, hnode, -⟩ := asCollectorAt_eq_ok hmade
  obtain ⟨stamp, type, node⟩ := h'
  obtain rfl : node = .collect h pos count (.array c) := hnode
  exact .of_solid nofun nofun rfl

theorem fitted_asCollector {array : Ty} {count : Nat}
    (hmade : h.asCollector G s array count = .ok h') : h'.Fitted := by
  obtain ⟨pos, hmade⟩ := asCollectorAt_of_asCollector hmade
  exact fitted_asCollectorAt hmade

theorem fitted_asVarargsCollector (hh : h.Fitted) {array : Ty}
    (hmade : h.asVarargsCollector G s array = .ok h') : h'.Fitted := by
  rcases asVarargsCollector_eq_ok hmade with rfl | rfl
  · exact hh
  · exact hh.asFixedArity.of_varargs

theorem SeenAs.fitted {new : Signature} (hseen : h.SeenAs G new h') (hh : h.Fitted) : h'.Fitted := by
  cases hseen with
  | same => exact hh
  | converted _ hmade => exact fitted_convertTo hh hmade
  | passed hnode hmade => exact fitted_convertTo (hh.opened (.varargs hnode)) hmade
  | collected _ hcollector hmade => exact fitted_convertTo (fitted_asCollector hcollector) hmade

end Handle

/-! ## Look-ups -/

/-- A setter has a value to set, of whatever kind the field is. -/
theorem Lookup.params_ne_nil_of_setter {kind : RefKind} {ref : ClassId} {t : Ty} {type : Signature}
    (htype : fieldHandleType kind ref t = .ok type) (hkind : kind.isGetter = false) :
    type.params ≠ [] := by
  have hparams : ∀ {ret p : Ty} {ps : List Ty}, Signature.of ret (p :: ps) = .ok type →
      type.params ≠ [] := by
    intro ret p ps hof
    rw [(Signature.of_eq_ok_iff.1 hof).2]
    exact List.cons_ne_nil p ps
  cases kind with
  | getStatic | getField => cases hkind
  | _ => exact hparams htype

theorem Use.fitted_handle {G : ClassGraph} {u : Use} {t : Signature} (htype : u.type G = .ok t)
    (s : Stamp) : (u.handle G t s).Fitted := by
  have hnode : ∀ s, (⟨s, t, u.node G⟩ : Handle).Fitted := by
    intro s
    obtain ⟨kind, ref, caller, m | f⟩ := u
    · rcases Lookup.methodNode_eq_or G kind ref m with ⟨mode, hm⟩ | ⟨interface, hm⟩
      all_goals
        simp only [node, hm]
        exact .of_solid (fun hv => by cases hv) (fun hv => by cases hv) trivial
    · unfold node
      dsimp only
      split
      · exact .of_solid (fun hv => by cases hv) (fun hv => by cases hv) trivial
      · next hgetter =>
        refine .of_solid (fun hv => by cases hv) (fun hv => by cases hv) fun hnil => ?_
        exact Lookup.params_ne_nil_of_setter htype (by simpa using hgetter) (List.map_eq_nil_iff.1 hnil)
  unfold handle
  split
  · exact (hnode _).of_varargs
  · exact hnode _

/-- Whether all handles of a member cache fit. -/
def MemberCache.Fitted (c : MemberCache) : Prop := ∀ key h, c.find? key = some h → h.Fitted

theorem Lookup.fitted_of_perform {C : Classes} {l : Lookup} {op : MemberOp} {m m' : Machine}
    {h : Handle} (hm : m.members.Fitted) (hh : l.perform C op m = .ok h m') : h.Fitted := by
  obtain ⟨u, key, es, -, hkey, -, hanswer⟩ := exists_use_of_perform hh
  obtain ⟨a, m₁, hnode, hshape, hfinish⟩ := MemberOp.exists_base_of_answer hanswer
  have hbase : ((m.reports es).handleOf C.graph u key).Fitted := by
    refine Machine.handleOf_of (fun k hk => ?_) fun s => ?_
    · rw [Machine.reports_store] at hk
      exact hm key k hk
    · exact u.fitted_handle (Use.key?_eq_some_iff.1 hkey).1 s
  exact MemberOp.of_finish (fun hk => hk.asFixedArity) (fun hk hmade => Handle.fitted_bindTo hk hmade)
    (fun hk hmade => Handle.fitted_asVarargsCollector hk hmade) (hbase.congr hnode hshape) hfinish

/-! ## Histories -/

section Makings

variable {G : ClassGraph} {T : Cells} {ks : List Handle} {m m' : Machine}

/-- What is made of handles that fit does. -/
theorem Making.fitted_run {mk : Making} {h : Handle} (hm : m.Registers G T ks)
    (hmembers : m.members.Fitted) (hmem : ∀ k ∈ mk.handles, k ∈ ks)
    (hhandles : ∀ k ∈ mk.handles, k.Fitted)
    (htargets : ∀ site k, m.store.getTarget site = .ok k → k.Fitted)
    (hmade : mk.run G m = .ok h m') : h.Fitted := by
  have hfirst : ∀ {k : Handle} {l : List Handle}, mk.handles = k :: l → k.Fitted :=
    fun hmk => hhandles _ (by rw [hmk]; exact List.mem_cons_self)
  unfold run at hmade
  cases mk with
  | member table l op => exact Lookup.fitted_of_perform (C := ⟨G, table⟩) hmembers hmade
  | insertArguments =>
    exact Handle.fitted_insertArguments (hfirst rfl) (Link.exists_of_build hmade).1
  | bindTo => exact Handle.fitted_bindTo (hfirst rfl) (Link.exists_of_build hmade).1
  | permuteArguments =>
    exact Handle.fitted_permuteArguments (hfirst rfl) (Link.exists_of_build hmade).1
  | dropArguments => exact Handle.fitted_dropArguments (hfirst rfl) (Link.exists_of_build hmade).1
  | filterArguments =>
    exact Handle.fitted_filterArguments (hfirst rfl) (Link.exists_of_build hmade).1
  | filterReturnValue =>
    obtain ⟨t, rfl⟩ := Handle.filterReturnValue_eq_ok (Link.exists_of_build hmade).1
    exact .of_solid nofun nofun trivial
  | foldArguments =>
    obtain ⟨t, rfl⟩ := Handle.foldArguments_eq_ok (Link.exists_of_build hmade).1
    exact .of_solid nofun nofun trivial
  | collectArguments =>
    obtain ⟨_, _, _, t, -, rfl⟩ := Handle.collectArguments_eq_ok (Link.exists_of_build hmade).1
    exact .of_solid nofun nofun trivial
  | guardWithTest =>
    obtain rfl := Handle.guardWithTest_eq_ok (Link.exists_of_build hmade).1
    exact .of_solid nofun nofun trivial
  | catchException =>
    obtain rfl := Handle.catchException_eq_ok (Link.exists_of_build hmade).1
    exact .of_solid nofun nofun trivial
  | constant =>
    obtain ⟨t, v, rfl⟩ := Handle.constant_eq_ok (Link.exists_of_build hmade).1
    exact .of_solid nofun nofun trivial
  | identity => exact Handle.fitted_identity (Link.exists_of_build hmade).1
  | throwException => exact Handle.fitted_throwException (Link.exists_of_build hmade).1
  | unlinked t message =>
    obtain rfl := Except.ok.inj (Link.exists_of_build hmade).1
    exact .of_solid nofun nofun trivial
  | asType j new =>
    have hmade : j.asType G new m = .ok h m' := hmade
    obtain ⟨T', -, hseen⟩ := Handle.registers_asType (hmem j List.mem_cons_self) new m hm
    rw [hmade] at hseen
    exact hseen.2.fitted (hfirst rfl)
  | asCollectorAt => exact Handle.fitted_asCollectorAt (Link.exists_of_build hmade).1
  | asCollector => exact Handle.fitted_asCollector (Link.exists_of_build hmade).1
  | asSpreaderAt =>
    obtain ⟨t, rfl⟩ := Handle.asSpreaderAt_made (Link.exists_of_build hmade).1
    exact .of_solid nofun nofun trivial
  | asSpreader =>
    obtain ⟨pos, hat⟩ := Handle.asSpreaderAt_of_asSpreader (Link.exists_of_build hmade).1
    obtain ⟨t, rfl⟩ := Handle.asSpreaderAt_made hat
    exact .of_solid nofun nofun trivial
  | asVarargsCollector =>
    exact Handle.fitted_asVarargsCollector (hfirst rfl) (Link.exists_of_build hmade).1
  | asFixedArity j =>
    cases hmade
    exact (hfirst rfl).asFixedArity
  | target site =>
    have hmade : Link.ofExcept (m.store.getTarget site) m = .ok h m' := hmade
    refine htargets site h ?_
    cases hcurrent : m.store.getTarget site with
    | ok k =>
      rw [hcurrent] at hmade
      cases hmade
      rfl
    | error e =>
      rw [hcurrent] at hmade
      cases hmade
  | invoker site =>
    have hmade : Link.build (fun s => m.store.dynamicInvoker site s) m = .ok h m' := hmade
    rcases Store.dynamicInvoker_eq_ok (Link.exists_of_build hmade).1 with
      hcurrent | ⟨c, -, -, rfl⟩
    · exact htargets site h hcurrent
    · exact .of_solid nofun nofun trivial

/-- What the member cache keeps goes on to fit. -/
theorem Making.fittedMembers_run (mk : Making) (G : ClassGraph) :
    (mk.run G).Stays fun m n => m.members.Fitted → n.members.Fitted := by
  have hallows : Machine.Allows fun m n => m.members.Fitted → n.members.Fitted :=
    ⟨fun _ h => h, fun h h' hm => h' (h hm), fun _ _ h => h, fun _ _ h => h⟩
  refine mk.stays_run_of_cached hallows (fun _ _ h => h) fun op u key _ hkey m hm => ?_
  exact Lookup.members_of_cached hm fun s => u.fitted_handle (Use.key?_eq_some_iff.1 hkey).1 s

end Makings

/-- Whatever a program has made fits. -/
theorem Handling.fitted {G : ClassGraph} {m : Machine} {hs : List Handle} (hH : Handling G m hs) :
    (∀ h ∈ hs, h.Fitted) ∧ m.members.Fitted := by
  induction hH with
  | start memberCache => exact ⟨nofun, fun key h hk => by cases hk⟩
  | @made m m' hs mk h before has result ih =>
    obtain ⟨-, hretains, T, ks, hks, -, hregisters⟩ := before.handles
    have hmembers := mk.fittedMembers_run G m ih.2
    rw [Link.start_of_ok result] at hmembers
    refine ⟨fun k hk => ?_, hmembers⟩
    rcases List.mem_cons.1 hk with rfl | hk
    · refine mk.fitted_run hregisters ih.2 (fun j hj => hks j (has j hj))
        (fun j hj => ih.1 j (has j hj)) (fun site j hj => ?_) result
      rcases hretains site j hj with hmem | hvariant
      · exact ih.1 j hmem
      · exact .of_unlinked hvariant
    · exact ih.1 k hk
  | @refused m m' hs mk e before has result ih =>
    have hmembers := mk.fittedMembers_run G m ih.2
    rw [Link.start_of_error result] at hmembers
    exact ⟨ih.1, hmembers⟩
  | called before P depth h args retains ih =>
    obtain ⟨-, hkept⟩ :=
      before.handles.settled.leaves (Handle.alike_invokeExact P depth h.coincides_refl args)
    exact ⟨ih.1, hkept.members ▸ ih.2⟩
  | changed before retains calls ih => exact ih

end HandleCalculus
