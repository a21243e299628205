import HandleCalculus.Lookup
import HandleCalculus.Proofs.Equivalence
import HandleCalculus.Proofs.MemberSearch

/-!
# Look-ups of members

The fourteen look-ups that make a handle on a member, as data (`MemberOp`). Each comes down to one
use of one member (`MemberOp.use?`): the way it is used, the class it is used through, and the member
that resolution or the caller names. From its use follow the key that the member cache keeps the
handle under and the handle itself, so what is to be said of the cache is said of uses.
-/

set_option autoImplicit false

namespace HandleCalculus

/-- A look-up that makes a handle on a member. -/
inductive MemberOp where
  | findStatic (ref : ClassId) (name : String) (type : Signature)
  | findVirtual (ref : ClassId) (name : String) (type : Signature)
  | findSpecial (ref : ClassId) (name : String) (type : Signature) (caller : ClassId)
  | findConstructor (ref : ClassId) (type : Signature)
  | findGetter (ref : ClassId) (name : String) (type : Ty)
  | findSetter (ref : ClassId) (name : String) (type : Ty)
  | findStaticGetter (ref : ClassId) (name : String) (type : Ty)
  | findStaticSetter (ref : ClassId) (name : String) (type : Ty)
  | bind (receiver : Object) (name : String) (type : Signature)
  | unreflect (m : MethodRef)
  | unreflectSpecial (m : MethodRef) (caller : ClassId)
  | unreflectConstructor (m : MethodRef)
  | unreflectGetter (f : FieldRef)
  | unreflectSetter (f : FieldRef)

/-- Performs a look-up with the rights of `l`. -/
def Lookup.perform (C : Classes) (l : Lookup) : MemberOp → Link Handle
  | .findStatic ref name type => l.findStatic C ref name type
  | .findVirtual ref name type => l.findVirtual C ref name type
  | .findSpecial ref name type caller => l.findSpecial C ref name type caller
  | .findConstructor ref type => l.findConstructor C ref type
  | .findGetter ref name type => l.findGetter C ref name type
  | .findSetter ref name type => l.findSetter C ref name type
  | .findStaticGetter ref name type => l.findStaticGetter C ref name type
  | .findStaticSetter ref name type => l.findStaticSetter C ref name type
  | .bind receiver name type => l.bind C receiver name type
  | .unreflect m => l.unreflect C m
  | .unreflectSpecial m caller => l.unreflectSpecial C m caller
  | .unreflectConstructor m => l.unreflectConstructor C m
  | .unreflectGetter f => l.unreflectGetter C f
  | .unreflectSetter f => l.unreflectSetter C f

/-! ## Uses -/

/-- A use of a member through the class `ref`; a call without dispatch is made as `caller`. -/
structure Use where
  kind : RefKind
  ref : ClassId
  caller : Option ClassId
  member : MemberRef

namespace Use

variable (G : ClassGraph) (u : Use)

/-- The signature of a handle for the use. -/
def type : Except Error Signature :=
  match u.member with
  | .method m =>
    (Signature.ofDescriptor (G.method m).desc).bind (Lookup.methodType u.kind u.ref u.caller)
  | .field f => Lookup.fieldHandleType u.kind u.ref (G.field f).type

/-- The name of the member. -/
def name : String :=
  match u.member with
  | .method m => (G.method m).name
  | .field f => (G.field f).name

/-- What the handle is kept under. -/
def key? : Option MemberKey :=
  match u.type G with
  | .ok type => some ⟨u.ref, u.name G, type, u.kind⟩
  | .error _ => none

/-- The node of a handle for the use. -/
def node : Node Handle :=
  match u.member with
  | .method m => Lookup.methodNode G u.kind u.ref m
  | .field f =>
    if u.kind.isGetter then .getField f u.kind.isStatic G.access
    else .setField f u.kind.isStatic G.access

/-- The array type that a handle for the use collects trailing arguments into, if it does. -/
def collects? (type : Signature) : Option Ty :=
  match u.member with
  | .method m =>
    match (G.method m).flags.isVarargs, type.last? with
    | true, some (.array component) => some (.array component)
    | _, _ => none
  | .field _ => none

/-- A new handle for the use. -/
def handle (type : Signature) (s : Stamp) : Handle :=
  match u.collects? G type with
  | some array => ⟨s + 2, type, .varargs ⟨s, type, u.node G⟩ array (s + 2)⟩
  | none => ⟨s, type, u.node G⟩

variable {G u}

theorem key?_eq_some_iff {k : MemberKey} : u.key? G = some k ↔
    u.type G = .ok k.type ∧ k.cls = u.ref ∧ k.name = u.name G ∧ k.kind = u.kind := by
  obtain ⟨cls, name, type, kind⟩ := k
  unfold key?
  cases u.type G with
  | error e => simp
  | ok t => grind

/-- The handle is determined by the way of use, the class and the member; the caller shows in the
signature only. -/
theorem handle_congr {v : Use} (hk : u.kind = v.kind) (hr : u.ref = v.ref)
    (hm : u.member = v.member) (t : Signature) (s : Stamp) :
    u.handle G t s = v.handle G t s := by
  obtain ⟨kind, ref, caller, member⟩ := u
  obtain ⟨kind', ref', caller', member'⟩ := v
  obtain rfl : kind = kind' := hk
  obtain rfl : ref = ref' := hr
  obtain rfl : member = member' := hm
  rfl

theorem type_handle (t : Signature) (s : Stamp) : (u.handle G t s).type = t := by
  unfold handle
  split <;> rfl

/-- Two handles for one use are equivalent, whenever they are made. -/
theorem handle_equivalent (t : Signature) (s s' : Stamp) :
    (u.handle G t s).equivalent (u.handle G t s') = true := by
  have hinner : (⟨s, t, u.node G⟩ : Handle).equivalent ⟨s', t, u.node G⟩ = true :=
    Handle.equivalentBy_iff.2 ⟨rfl, Node.equivalent_refl _⟩
  unfold handle
  split
  · exact Handle.equivalentBy_iff.2 ⟨rfl, Node.equivalentBy_varargs_iff.2 ⟨_, _, rfl, hinner⟩⟩
  · exact hinner

end Use

theorem Lookup.isVarargs_methodNode (G : ClassGraph) (kind : RefKind) (ref : ClassId)
    (m : MethodRef) (s : Stamp) (type : Signature) :
    (⟨s, type, methodNode G kind ref m⟩ : Handle).isVarargs = false := by
  cases kind <;> cases hp : (G.method m).flags.isPrivate <;>
    simp [Handle.isVarargs, methodNode, hp]

/-- A handle of fixed arity collects into the array that it ends in. -/
theorem Handle.asVarargsCollector_of_last {G : ClassGraph} {s : Stamp} {h : Handle} {c : Ty}
    (hnode : h.isVarargs = false) (hlast : h.type.last? = some (.array c)) :
    h.asVarargsCollector G s (.array c) = .ok ⟨s, h.type, .varargs h (.array c) s⟩ := by
  obtain ⟨stamp, type, node⟩ := h
  have hlast : type.last? = some (.array c) := hlast
  cases node with
  | varargs => simp [Handle.isVarargs] at hnode
  | _ => simp [asVarargsCollector, collectsInto, asFixedArity, hlast, Ty.isArray, G.isAssignable_refl]

/-- Making a method handle never fails; what is made is the handle of the use. -/
theorem Lookup.makeMethodHandle_eq (G : ClassGraph) (kind : RefKind) (ref : ClassId)
    (caller : Option ClassId) (m : MethodRef) (type : Signature) (s : Machine) :
    ∃ n, makeMethodHandle G kind ref m type s =
      .ok ((⟨kind, ref, caller, .method m⟩ : Use).handle G type s.nextStamp)
        { s with nextStamp := n } := by
  have hplain : makeMethodHandle G kind ref m type = fun s =>
      (match (G.method m).flags.isVarargs, type.last? with
        | true, some (.array component) =>
          Link.build fun n => Handle.asVarargsCollector G n
            ⟨s.nextStamp, type, methodNode G kind ref m⟩ (.array component)
        | _, _ => pure ⟨s.nextStamp, type, methodNode G kind ref m⟩)
        { s with nextStamp := s.nextStamp + 2 } := rfl
  rw [hplain]
  by_cases hcollects : ∃ c, (G.method m).flags.isVarargs = true ∧ type.last? = some (.array c)
  · obtain ⟨c, hv, hl⟩ := hcollects
    refine ⟨s.nextStamp + 4, ?_⟩
    have hmade := Handle.asVarargsCollector_of_last (G := G) (s := s.nextStamp + 2)
      (isVarargs_methodNode G kind ref m s.nextStamp type) hl
    simp only [hv, hl, Link.build, hmade, Use.handle, Use.collects?, Use.node]
  · refine ⟨s.nextStamp + 2, ?_⟩
    simp only [Use.handle, Use.collects?, Use.node]
    split
    · next c hv hl => exact absurd ⟨c, hv, hl⟩ hcollects
    · rfl

namespace MemberOp

variable (G : ClassGraph)

/-- Members at hand are declared. -/
def IsValid : MemberOp → Prop
  | unreflect m | unreflectSpecial m _ | unreflectConstructor m => G.HasMethod m
  | unreflectGetter f | unreflectSetter f => G.HasField f
  | _ => True

/-- The use of an instance method, found by name. -/
def instanceUse? (ref : ClassId) (name : String) (type : Signature) : Option Use :=
  if G.isInterface ref then
    (G.resolveMethod ref name type.descriptor .interface).toOption.map fun m =>
      ⟨.invokeInterface, ref, none, .method m⟩
  else
    (G.resolveMethod ref name type.descriptor .virtual).toOption.map fun m =>
      ⟨.invokeVirtual, ref, none, .method m⟩

/-- The use of a field, found by name. -/
def fieldUse? (kind : RefKind) (ref : ClassId) (name : String) (type : Ty) : Option Use :=
  (G.resolveField ref name type kind.isStatic).toOption.map fun f => ⟨kind, ref, none, .field f⟩

/-- The use of a member that a look-up comes down to, if it is not refused before. Rights are not
looked at. -/
def use? : MemberOp → Option Use
  | findStatic ref name type =>
    (G.resolveMethod ref name type.descriptor .static).toOption.map fun m =>
      ⟨.invokeStatic, ref, none, .method m⟩
  | findVirtual ref name type => instanceUse? G ref name type
  | bind receiver name type => instanceUse? G receiver.cls name type
  | findSpecial ref name type caller =>
    (G.resolveMethod ref name type.descriptor .special).toOption.map fun m =>
      ⟨.invokeSpecial, ref, some caller, .method m⟩
  | findConstructor ref type =>
    if type.ret ≠ .void then none
    else (G.resolveConstructor ref type.descriptor).toOption.map fun m =>
      ⟨.newInvokeSpecial, ref, none, .method m⟩
  | findGetter ref name type => fieldUse? G .getField ref name type
  | findSetter ref name type => fieldUse? G .putField ref name type
  | findStaticGetter ref name type => fieldUse? G .getStatic ref name type
  | findStaticSetter ref name type => fieldUse? G .putStatic ref name type
  | unreflect m =>
    some ⟨if (G.method m).flags.isStatic then .invokeStatic
      else if G.isInterface m.cls then .invokeInterface else .invokeVirtual, m.cls, none, .method m⟩
  | unreflectSpecial m caller =>
    if (G.method m).flags.isStatic then none
    else some ⟨.invokeSpecial, m.cls, some caller, .method m⟩
  | unreflectConstructor m =>
    if (G.flags m.cls).isAbstract || (G.flags m.cls).isInterface then none
    else if !(G.method m).isConstructor then none
    else some ⟨.newInvokeSpecial, m.cls, none, .method m⟩
  | unreflectGetter f =>
    some ⟨if (G.field f).isStatic then .getStatic else .getField, f.cls, none, .field f⟩
  | unreflectSetter f =>
    some ⟨if (G.field f).isStatic then .putStatic else .putField, f.cls, none, .field f⟩

end MemberOp

/-- A use that some look-up comes down to. -/
def Use.Reachable (G : ClassGraph) (u : Use) : Prop :=
  ∃ op : MemberOp, op.IsValid G ∧ op.use? G = some u

/-- Whether a key says which member the handle kept under it is on. -/
def ClassGraph.KeysDetermineMembers (G : ClassGraph) : Prop :=
  ∀ u v : Use, u.Reachable G → v.Reachable G → ∀ k, u.key? G = some k → v.key? G = some k →
    u.member = v.member

end HandleCalculus
