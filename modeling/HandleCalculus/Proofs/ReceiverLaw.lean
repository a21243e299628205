import HandleCalculus.Proofs.Dispatch
import HandleCalculus.Proofs.MethodLaws
import HandleCalculus.Proofs.ReceiverNarrowing

/-!
# What handles on methods promise of receivers

A method that is called on a receiver must be called on an instance of the class that declares it. A
handle that dispatches sees to it when it is called: the class it dispatches on is below the
declaring one. A handle that calls without dispatch only looks whether there is an object, so there
it is the parameter that has to be of a class below (`receiverLaw`).

Look-ups keep the law (`Lookup.obeys_perform`), whatever the member cache has been filled with. The
class that a member is used through is below the one that declares it. A narrowed parameter is of
the lookup class, which has inherited the member. And one that has been named for a call without
dispatch is of a class that the lookup was made to prove below; a trusted lookup is not.
-/

set_option autoImplicit false

namespace HandleCalculus

/-! ## The law -/

/-- What is promised of a node on a method: without a receiver the method is static; the class
dispatched on is below the one that declares the method; and without dispatch, if `special` asks for
that, the first parameter is. -/
def receiverLaw (G : ClassGraph) (special : Bool) : MethodLaw G where
  holds n ps :=
    match n with
    | .direct m .static => (G.method m).flags.isStatic = true
    | .direct m .special =>
      special = true → ∃ p, ps.head? = some p ∧ G.isAssignable p (.cls m.cls) = true
    | .virtual m dispatch _ => G.HasMethod m ∧ G.isSubclass dispatch m.cls = true
    | _ => True
  view := by
    intro n ps qs hn hview
    split at hn
    · exact hn
    · intro hspecial
      obtain ⟨p, hp, hassign⟩ := hn hspecial
      cases hview with
      | nil => cases hp
      | cons hqp _ =>
        obtain rfl := Option.some.inj hp
        exact ⟨_, rfl, G.isAssignable_trans hqp hassign⟩
    · exact hn
    · exact trivial

/-! ## Members that are found -/

/-- The class that a method is used through is below the one that declares it. -/
theorem ClassGraph.UsesMethod.isSubclass {G : ClassGraph} {kind : RefKind} {ref : ClassId}
    {m : MethodRef} (hm : G.UsesMethod kind ref m) : G.isSubclass ref m.cls = true := by
  rcases hm.named with hcls | ⟨-, hfind⟩
  · rw [hcls]
    exact G.isSubclass_refl ref
  · exact isSubclass_of_findMethod? hfind

section Found

variable {G : ClassGraph} {special : Bool} {u v : Use} {key : MemberKey} {l : Lookup} {a : Handle}
  {s : Stamp} {ps : List Ty}

/-- Whether parameters are such that a method called without dispatch, through the node of a use, is
called on an instance of its class. -/
def Use.Suits (G : ClassGraph) (u : Use) (ps : List Ty) : Prop :=
  ∀ m, u.node G = .direct m .special →
    ∃ p, ps.head? = some p ∧ G.isAssignable p (.cls m.cls) = true

theorem Use.obeys_node (hv : G.UsesMember v) (hps : special = true → v.Suits G ps) :
    Node.Obeys (receiverLaw G special) (v.node G) ps := by
  obtain ⟨kind, ref, caller, member⟩ := v
  cases member with
  | field f =>
    unfold Use.node
    dsimp only
    split <;> exact .plain nofun nofun nofun nofun
  | method m =>
    have hm : G.UsesMethod kind ref m := hv
    have hspecial : (⟨kind, ref, caller, .method m⟩ : Use).node G = .direct m .special →
        Node.Obeys (receiverLaw G special) (.direct m .special) ps :=
      fun hnode => .plain nofun nofun (fun _ _ hasked => hps hasked m hnode) nofun
    show Node.Obeys _ (Lookup.methodNode G kind ref m) ps
    have hnode : Lookup.methodNode G kind ref m = (⟨kind, ref, caller, .method m⟩ : Use).node G := rfl
    unfold Lookup.methodNode at hnode ⊢
    cases kind with
    | invokeStatic =>
      exact .plain nofun nofun (fun _ _ => (hm.isStatic nofun).2 rfl) nofun
    | newInvokeSpecial => exact .plain nofun nofun (fun _ _ => trivial) nofun
    | invokeSpecial => exact hspecial rfl
    | invokeVirtual | invokeInterface =>
      dsimp only at hnode ⊢
      split
      · next hprivate =>
        rw [if_pos hprivate] at hnode
        exact hspecial hnode.symm
      · exact .plain nofun nofun (fun _ _ => ⟨hm.has, hm.isSubclass⟩) nofun
    | getField | getStatic | putField | putStatic => cases hm.isField

/-- A handle with the node of the one for a use obeys the law, if its parameters and those of the
use suit it. -/
theorem Use.obeys_of_node (hv : G.UsesMember v) {t : Signature}
    (ht : special = true → v.Suits G t.params) (hnode : a.node = (v.handle G t s).node)
    (hps : special = true → v.Suits G a.type.params) : a.Obeys (receiverLaw G special) := by
  unfold Handle.Obeys
  rw [hnode]
  unfold handle
  split
  · exact .varargs (obeys_node hv ht) (obeys_node hv hps)
  · exact obeys_node hv hps

/-- What is called without dispatch is a method that is called on a receiver: because that is asked
for, or because the method is private. -/
theorem Use.of_special (hv : G.UsesMember v) {b : MethodRef} (hnode : v.node G = .direct b .special) :
    v.kind.hasReceiver = true ∧ v.member = .method b ∧ G.UsesMethod v.kind v.ref b ∧
      (v.kind = .invokeSpecial ∨ (G.method b).flags.isPrivate = true) := by
  obtain ⟨kind, ref, caller, member⟩ := v
  cases member with
  | field f =>
    unfold node at hnode
    dsimp only at hnode
    split at hnode <;> cases hnode
  | method m =>
    have hm : G.UsesMethod kind ref m := hv
    have hnode : Lookup.methodNode G kind ref m = .direct b .special := hnode
    unfold Lookup.methodNode at hnode
    cases kind with
    | invokeStatic | newInvokeSpecial => cases hnode
    | getField | getStatic | putField | putStatic => cases hm.isField
    | invokeSpecial =>
      obtain rfl : m = b := by simpa using hnode
      exact ⟨rfl, rfl, hm, Or.inl rfl⟩
    | invokeVirtual | invokeInterface =>
      dsimp only at hnode
      split at hnode
      · next hprivate =>
        obtain rfl : m = b := by simpa using hnode
        exact ⟨rfl, rfl, hm, Or.inr hprivate⟩
      · cases hnode

/-- The first parameter of a handle that is called on a receiver is of the class that the use is
made through, or of the caller that a use without dispatch names. -/
theorem Use.head_of_key? (hreceiver : u.kind.hasReceiver = true) (hmember : ∃ m, u.member = .method m)
    (hkey : u.key? G = some key) :
    ∃ c, key.type.params.head? = some (.cls c) ∧ (c = u.ref ∨ u.caller = some c) := by
  obtain ⟨kind, ref, caller, member⟩ := u
  obtain ⟨m, rfl⟩ := hmember
  obtain ⟨hparams, -⟩ := type_method_eq_ok_iff.1 (key?_eq_some_iff.1 hkey).1
  rw [hparams]
  cases kind with
  | invokeSpecial =>
    cases caller with
    | none => exact ⟨ref, rfl, Or.inl rfl⟩
    | some c => exact ⟨c, rfl, Or.inr rfl⟩
  | invokeVirtual | invokeInterface | getField | putField => exact ⟨ref, rfl, Or.inl rfl⟩
  | invokeStatic | newInvokeSpecial | getStatic | putStatic => cases hreceiver

section Permits

variable {table : ClassTable} (hpermits : l.Permits ⟨G, table⟩ u) (hu : G.UsesMember u)
  (hv : G.UsesMember v) (hkey : u.key? G = some key) (hvkey : v.key? G = some key)
include hpermits hu hv hkey hvkey

/-- The signature that a permitted use has suits every use that comes under the same key. -/
theorem Lookup.Permits.suits : v.Suits G key.type.params := by
  intro b hb
  obtain ⟨-, hr, -, hk⟩ := Use.key?_eq_some_iff.1 hkey
  obtain ⟨-, hr', -, hk'⟩ := Use.key?_eq_some_iff.1 hvkey
  have hsameKind : u.kind = v.kind := hk.symm.trans hk'
  have hsameRef : u.ref = v.ref := hr.symm.trans hr'
  obtain ⟨hkind, -, hb, -⟩ := Use.of_special hv hb
  rw [← hsameKind] at hkind hb
  rw [← hsameRef] at hb
  obtain ⟨c, hc, hcase⟩ := Use.head_of_key? hkind (hu.exists_method hb.isField) hkey
  have hsub : G.isAssignable (.cls c) (.cls u.ref) = true := by
    rcases hcase with rfl | hcaller
    · exact G.isAssignable_refl _
    · exact (hpermits.special c hcaller).2.2
  have hdeclared : G.isAssignable (.cls u.ref) (.cls b.cls) = true := hb.isSubclass
  exact ⟨_, hc, G.isAssignable_trans hsub hdeclared⟩

/-- So does that signature with the lookup class as receiver, where the use is narrowed. -/
theorem Lookup.Permits.suits_narrowed (hnarrows : l.narrows G u = true) :
    v.Suits G (key.type.params.set 0 (.cls l.cls)) := by
  intro b hb
  obtain ⟨-, hr, -, hk⟩ := Use.key?_eq_some_iff.1 hkey
  obtain ⟨-, hr', -, hk'⟩ := Use.key?_eq_some_iff.1 hvkey
  have hsameKind : u.kind = v.kind := hk.symm.trans hk'
  have hsameRef : u.ref = v.ref := hr.symm.trans hr'
  obtain ⟨hkind, hvmember, hb, hprivate⟩ := Use.of_special hv hb
  rw [← hsameKind] at hkind hb hprivate
  rw [← hsameRef] at hb
  obtain ⟨a, ha⟩ := hu.exists_method hb.isField
  obtain ⟨c, hc, -⟩ := Use.head_of_key? hkind ⟨a, ha⟩ hkey
  have hhead : (key.type.params.set 0 (.cls l.cls)).head? = some (.cls l.cls) := by
    cases hparams : key.type.params with
    | nil =>
      rw [hparams] at hc
      cases hc
    | cons p ps => rfl
  refine ⟨_, hhead, ?_⟩
  cases hsub : G.isSubclass l.cls u.ref with
  | true =>
    have hsub : G.isAssignable (.cls l.cls) (.cls u.ref) = true := hsub
    exact G.isAssignable_trans hsub hb.isSubclass
  | false =>
    -- then the method is the one that the use is of, and it is protected
    obtain ⟨hsame, hpublic⟩ :=
      member_eq_of_narrowed ha hu hv hkey hvkey hpermits hnarrows hsub
    obtain rfl : b = a := by simpa using hvmember.symm.trans hsame
    rcases hprivate with hspecial | hprivate
    · simp [narrows, hspecial] at hnarrows
    · rw [hpublic] at hprivate
      cases hprivate

end Permits

end Found

/-! ## Look-ups -/

namespace Lookup

variable {G : ClassGraph} {special : Bool} {l : Lookup} {u : Use} {key : MemberKey}
  {table : ClassTable} {m m' : Machine} {h : Handle}

/-- What the machine has for a permitted use, narrowed if need be, obeys the law. -/
theorem obeys_handleFor (hm : m.members.Keeps G)
    (hgranted : special = true → l.Permits ⟨G, table⟩ u) (hu : G.UsesMember u)
    (hkey : u.key? G = some key) {restrict : Bool}
    (hh : l.handleFor ⟨G, table⟩ u key restrict m = .ok h m') : h.Obeys (receiverLaw G special) := by
  obtain ⟨v, s, hv, hvkey, hbase⟩ := Machine.keeps_handleOf (u := u) hm hu hkey
  obtain ⟨m₁, hcached⟩ := cached_eq_ok G u key m
  have hself : special = true → v.Suits G key.type.params :=
    fun hspecial => (hgranted hspecial).suits hu hv hkey hvkey
  unfold handleFor at hh
  rw [bind_eq_of_ok hcached, hbase] at hh
  split at hh
  · next hnarrows =>
    obtain ⟨hmade, -⟩ := Link.exists_of_build hh
    simp only [Bind.bind, Except.bind] at hmade
    split at hmade
    · cases hmade
    next new hnew =>
    obtain ⟨hnode, rfl⟩ := Handle.retype_eq_ok hmade
    obtain ⟨-, -, hparams⟩ := Signature.changeParam_eq_ok_iff.1 hnew
    rw [Bool.and_eq_true] at hnarrows
    refine Use.obeys_of_node hv hself hnode fun hspecial => ?_
    rw [hparams, Use.type_handle]
    exact (hgranted hspecial).suits_narrowed hu hv hkey hvkey hnarrows.2
  · cases hh
    refine Use.obeys_of_node hv hself rfl ?_
    rw [Use.type_handle]
    exact hself

/-- **Look-ups keep the law.** Whatever has been looked up before, and by whom, the handle that a
lookup finds obeys the law on receivers; what is called without dispatch is left aside if the lookup
is trusted. -/
theorem obeys_perform (hG : G.MembersNumbered) (hspecial : special = true → l.trusted = false)
    {op : MemberOp} (hop : op.IsValid G) (hm : m.members.Keeps G)
    (hh : l.perform ⟨G, table⟩ op m = .ok h m') : h.Obeys (receiverLaw G special) := by
  obtain ⟨u, key, es, hu, hkey, hgranted, hanswer⟩ := exists_use_of_perform hh
  obtain ⟨a, m₁, ha, hfinish⟩ := Link.exists_of_bind hanswer
  have hpermits : special = true → l.Permits ⟨G, table⟩ u := by
    intro h
    rcases hgranted with htrusted | hpermits
    · rw [hspecial h] at htrusted
      cases htrusted
    · exact hpermits
  have huse := ClassGraph.usesMember_of_reachable hG ⟨op, hop, hu⟩
  have hm : (m.reports es).members.Keeps G := by
    rw [m.members_reports]
    exact hm
  exact MemberOp.obeys_finish (obeys_handleFor hm hpermits huse hkey ha) hfinish

end Lookup

/-- So whatever comes of such look-ups obeys the law. -/
theorem Dealings.obeys_receiverLaw {G : ClassGraph} (hG : G.MembersNumbered) {own : Lookup → Prop}
    {special : Bool} (hown : ∀ l, own l → special = true → l.trusted = false) {m : Machine}
    {hs : List Handle} (hD : Dealings G own m hs) :
    m.Obeys (receiverLaw G special) ∧ ∀ h ∈ hs, h.Obeys (receiverLaw G special) :=
  hD.obeys hG fun hl hop hm hfound => Lookup.obeys_perform hG (hown _ hl) hop hm.members hfound

end HandleCalculus
