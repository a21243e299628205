import HandleCalculus.Machine
import HandleCalculus.ClassTable

/-!
# Lookups

Making handles on members with the rights of a lookup class. Every look-up checks the class named,
the member found and the classes of its signature, whether or not the handle itself comes from the
member cache. A protected member of another package is called on receivers of the lookup class
only: the handle's first parameter is narrowed to it.
-/

set_option autoImplicit false

namespace HandleCalculus.Lookup

/-! ## Rights -/

/-- The lookup on `c` with no more rights than this one. A trusted lookup gives the class its own
full rights. -/
def inClass (G : ClassGraph) (l : Lookup) (c : ClassId) : Lookup :=
  if l.trusted then full c
  else if c = l.cls then l
  else
    let modes := l.modes.without Modes.protectedBit
    let modes := ⟨modes.bits &&& Modes.all.bits⟩
    let modes : Modes :=
      if modes.has Modes.packageBit && !G.samePackage l.cls c then
        modes.without (Modes.packageBit ||| Modes.privateBit)
      else modes
    let modes : Modes :=
      if modes.has Modes.privateBit && !G.sameNest l.cls c then modes.without Modes.privateBit
      else modes
    let modes : Modes :=
      if modes.has Modes.publicBit && !G.classAccessible c l.cls l.modes then .none else modes
    ⟨c, modes, false⟩

/-- Refuses, naming the lookup. -/
def deny {α : Type} (l : Lookup) (d : Denial) : Link α := throw (.denied d l)

/-- Checks that a class may be named. -/
def checkClass (C : Classes) (l : Lookup) (c : ClassId) : Link Unit := do
  if l.trusted then return
  let allowed := C.graph.classAccessible c l.cls l.modes
  Link.report (.classChecked l c allowed)
  if !allowed then l.deny (.classNotAccessible c)

/-- The flags by which a use of a member is judged: a protected constructor counts as
package-private. -/
def judgedFlags (kind : RefKind) (mods : Flags) : Flags :=
  if kind = .newInvokeSpecial then mods.without Flags.protectedBit else mods

/-- Checks that a member may be used in the given way through the class `ref`. -/
def checkMember (C : Classes) (l : Lookup) (kind : RefKind) (ref owner : ClassId) (mods : Flags)
    (member : MemberRef) : Link Unit := do
  if l.trusted then return
  match member with
  | .field f => if kind.isSetter && mods.isFinal then l.deny (.finalField f)
  | .method _ => pure ()
  let judged := judgedFlags kind mods
  let allowed := C.graph.memberAccessible ref owner judged l.cls l.modes
  Link.report (.memberChecked l member allowed)
  if !allowed then
    match member with
    | .field f => l.deny (.fieldNotAccessible judged f)
    | .method m => l.deny (.methodNotAccessible judged m)

/-- Checks that the classes of a signature are visible from the class it is looked up in. -/
def checkSignature (C : Classes) (l : Lookup) (s : Signature) (ref : ClassId) : Link Unit :=
  if l.trusted || C.signatureVisible s ref then pure ()
  else l.deny (.signatureNotVisible s ref)

/-- Checks that methods of `ref` may be called without dispatch as `caller`. -/
def checkSpecialCaller (C : Classes) (l : Lookup) (ref caller : ClassId) : Link Unit := do
  if l.trusted then return
  if !l.hasPrivateAccess || caller != l.cls then l.deny (.specialCaller caller)
  if !C.graph.isSubclass caller ref then l.deny (.notSubclass caller ref)

/-- Whether a member that `owner` declares may be used on receivers of the lookup class only: it is
protected, not static, and neither of the lookup class, its package nor its nest. -/
def restrictsReceiver (G : ClassGraph) (l : Lookup) (owner : ClassId) (mods : Flags) : Bool :=
  mods.isProtected && !mods.isStatic && !l.trusted && owner != l.cls &&
    !G.samePackage owner l.cls && !G.sameNest owner l.cls

/-! ## Making handles -/

/-- The handle of a key, from the member cache if there is one; else it is made, and kept unless
another has been kept meanwhile. -/
def cached (key : MemberKey) (make : Link Handle) : Link Handle := fun m =>
  let found := fun (h : Handle) (hit : Bool) (m : Machine) =>
    EStateM.Result.ok h (m.report (.memberFound key.kind key.cls key.name key.type hit))
  if m.members.enabled then
    match m.members.read key with
    | (some h, members) => found h true { m with members := members }
    | (none, members) =>
      match make { m with members := members } with
      | .error e m => .error e m
      | .ok made m =>
        let (h, members) := m.members.insertIfAbsent key made
        found h false { m with members := members }
  else
    match make m with
    | .error e m => .error e m
    | .ok h m => found h false m

/-- The handle with its receiver narrowed to the lookup class. -/
def narrow (l : Lookup) (h : Handle) : Link Handle :=
  Link.build fun s => do
    let narrowed ← h.type.changeParam 0 (.cls l.cls)
    h.retype s narrowed

/-- The signature of a handle on a method of the given declared signature. -/
def methodType (kind : RefKind) (ref : ClassId) (caller : Option ClassId) (declared : Signature) :
    Except Error Signature :=
  match kind with
  | .invokeStatic => .ok declared
  | .newInvokeSpecial => declared.changeReturn (.cls ref)
  | .invokeSpecial => declared.insertParams 0 [.cls (caller.getD ref)]
  | _ => declared.insertParams 0 [.cls ref]

/-- The node of a handle on a method. Private methods need no dispatch. -/
def methodNode (G : ClassGraph) (kind : RefKind) (ref : ClassId) (m : MethodRef) :
    Node Handle :=
  match kind with
  | .invokeStatic => .direct m .static
  | .newInvokeSpecial => .direct m .construct
  | .invokeSpecial => .direct m .special
  | _ =>
    if (G.method m).flags.isPrivate then .direct m .special
    else .virtual m ref (kind == .invokeInterface)

/-- A new handle on a method, of variable arity if the method is and its last parameter is an
array. -/
def makeMethodHandle (G : ClassGraph) (kind : RefKind) (ref : ClassId) (m : MethodRef)
    (type : Signature) : Link Handle := do
  let h ← Link.build fun s => .ok ⟨s, type, methodNode G kind ref m⟩
  match (G.method m).flags.isVarargs, type.last? with
  | true, some (.array component) =>
    Link.build fun s => h.asVarargsCollector G s (.array component)
  | _, _ => return h

/-- The handle on a method that was found, if the lookup may use it. With `restrict`, the receiver
of a protected member is narrowed. -/
def methodHandle (C : Classes) (l : Lookup) (kind : RefKind) (ref : ClassId) (m : MethodRef)
    (caller : Option ClassId) (restrict : Bool) : Link Handle := do
  let mods := (C.graph.method m).flags
  l.checkMember C kind ref m.cls mods (.method m)
  let declared ← Link.ofExcept (Signature.ofDescriptor (C.graph.method m).desc)
  l.checkSignature C declared ref
  let type ← Link.ofExcept (methodType kind ref caller declared)
  let h ← cached ⟨ref, (C.graph.method m).name, type, kind⟩
    (makeMethodHandle C.graph kind ref m type)
  if restrict && kind.hasReceiver && kind != .invokeSpecial &&
      l.restrictsReceiver C.graph m.cls mods then
    l.narrow h
  else return h

/-- The signature of a handle on a field of the given type. -/
def fieldHandleType (kind : RefKind) (ref : ClassId) (type : Ty) : Except Error Signature :=
  match kind with
  | .getStatic => Signature.of type []
  | .putStatic => Signature.of .void [type]
  | .getField => Signature.of type [.cls ref]
  | _ => Signature.of .void [.cls ref, type]

/-- The handle on a field that was found, if the lookup may use it. -/
def fieldHandle (C : Classes) (l : Lookup) (kind : RefKind) (ref : ClassId) (f : FieldRef) :
    Link Handle := do
  let decl := C.graph.field f
  l.checkMember C kind ref f.cls decl.flags (.field f)
  let type ← Link.ofExcept (fieldHandleType kind ref decl.type)
  l.checkSignature C type ref
  let node : Node Handle :=
    if kind.isGetter then .getField f kind.isStatic C.graph.access
    else .setField f kind.isStatic C.graph.access
  let h ← cached ⟨ref, decl.name, type, kind⟩ (Link.build fun s => .ok ⟨s, type, node⟩)
  if !kind.isStatic && l.restrictsReceiver C.graph f.cls decl.flags then l.narrow h
  else return h

/-- What resolution finds, or its error. -/
def resolved {α : Type} (x : Except ResolutionError α) : Link α :=
  Link.ofExcept (x.mapError Error.resolution)

/-! ## Symbolic look-ups -/

/-- The class that the lookup class finds under a name. -/
def findClass (C : Classes) (l : Lookup) (name : String) : Link ClassId := do
  match C.table.lookupClass (C.graph.loader l.cls) name with
  | none => throw (.resolution (.noSuchClass name))
  | some c =>
    l.checkClass C c
    return c

/-- A handle on a static method. -/
def findStatic (C : Classes) (l : Lookup) (ref : ClassId) (name : String) (type : Signature) :
    Link Handle := do
  l.checkClass C ref
  let m ← resolved (C.graph.resolveMethod ref name type.descriptor .static)
  l.methodHandle C .invokeStatic ref m none true

/-- A handle on an instance method, receiver narrowed if `restrict` and need be. -/
def findInstance (C : Classes) (l : Lookup) (ref : ClassId) (name : String) (type : Signature)
    (restrict : Bool) : Link Handle := do
  l.checkClass C ref
  let (search, kind) :=
    if C.graph.isInterface ref then (MethodSearch.interface, RefKind.invokeInterface)
    else (MethodSearch.virtual, RefKind.invokeVirtual)
  let m ← resolved (C.graph.resolveMethod ref name type.descriptor search)
  l.methodHandle C kind ref m none restrict

/-- A handle on an instance method; the receiver is the first parameter. -/
def findVirtual (C : Classes) (l : Lookup) (ref : ClassId) (name : String) (type : Signature) :
    Link Handle := l.findInstance C ref name type true

/-- A handle that calls the method of `ref` itself, on receivers of class `caller`, which must be
the lookup class. -/
def findSpecial (C : Classes) (l : Lookup) (ref : ClassId) (name : String) (type : Signature)
    (caller : ClassId) : Link Handle := do
  l.checkSpecialCaller C ref caller
  l.checkClass C ref
  let m ← resolved (C.graph.resolveMethod ref name type.descriptor .special)
  l.methodHandle C .invokeSpecial ref m (some caller) true

/-- A handle that makes an instance; `type` has a void result, the handle answers the instance. -/
def findConstructor (C : Classes) (l : Lookup) (ref : ClassId) (type : Signature) :
    Link Handle := do
  l.checkClass C ref
  if type.ret ≠ .void then throw (.signature (.constructorResult type))
  let m ← resolved (C.graph.resolveConstructor ref type.descriptor)
  l.methodHandle C .newInvokeSpecial ref m none true

/-- A handle that reads or writes a field. -/
def findField (C : Classes) (l : Lookup) (kind : RefKind) (ref : ClassId) (name : String)
    (type : Ty) : Link Handle := do
  l.checkClass C ref
  let f ← resolved (C.graph.resolveField ref name type kind.isStatic)
  l.fieldHandle C kind ref f

def findGetter (C : Classes) (l : Lookup) (ref : ClassId) (name : String) (type : Ty) :
    Link Handle := l.findField C .getField ref name type

def findSetter (C : Classes) (l : Lookup) (ref : ClassId) (name : String) (type : Ty) :
    Link Handle := l.findField C .putField ref name type

def findStaticGetter (C : Classes) (l : Lookup) (ref : ClassId) (name : String) (type : Ty) :
    Link Handle := l.findField C .getStatic ref name type

def findStaticSetter (C : Classes) (l : Lookup) (ref : ClassId) (name : String) (type : Ty) :
    Link Handle := l.findField C .putStatic ref name type

/-- A handle on the receiver's method with the receiver bound; of variable arity if the method is
and a parameter is left. -/
def bind (C : Classes) (l : Lookup) (receiver : Object) (name : String) (type : Signature) :
    Link Handle := do
  let h ← l.findInstance C receiver.cls name type false
  let bound ← Link.build fun s => h.asFixedArity.bindTo C.graph s (.obj receiver)
  match h.isVarargs, bound.type.last? with
  | true, some last => Link.build fun s => bound.asVarargsCollector C.graph s last
  | _, _ => return bound

/-! ## Look-ups of members at hand -/

/-- A handle on a method at hand. -/
def unreflect (C : Classes) (l : Lookup) (m : MethodRef) : Link Handle := do
  l.checkClass C m.cls
  let kind : RefKind :=
    if (C.graph.method m).flags.isStatic then .invokeStatic
    else if C.graph.isInterface m.cls then .invokeInterface
    else .invokeVirtual
  l.methodHandle C kind m.cls m none true

/-- A handle that calls a method at hand without dispatch, on receivers of class `caller`. -/
def unreflectSpecial (C : Classes) (l : Lookup) (m : MethodRef) (caller : ClassId) :
    Link Handle := do
  l.checkSpecialCaller C m.cls caller
  l.checkClass C m.cls
  if (C.graph.method m).flags.isStatic then throw (.resolution (.staticSpecial m))
  l.methodHandle C .invokeSpecial m.cls m (some caller) true

/-- A handle on a constructor at hand. -/
def unreflectConstructor (C : Classes) (l : Lookup) (m : MethodRef) : Link Handle := do
  l.checkClass C m.cls
  let flags := C.graph.flags m.cls
  if flags.isAbstract || flags.isInterface then throw (.resolution (.instantiation m.cls))
  if !(C.graph.method m).isConstructor then throw (.resolution (.notConstructor m))
  l.methodHandle C .newInvokeSpecial m.cls m none true

/-- A handle that uses a field at hand. -/
def unreflectField (C : Classes) (l : Lookup) (kind : RefKind) (f : FieldRef) : Link Handle := do
  l.checkClass C f.cls
  Link.report (.unreflecting f kind)
  l.fieldHandle C kind f.cls f

/-- A handle that reads a field at hand. -/
def unreflectGetter (C : Classes) (l : Lookup) (f : FieldRef) : Link Handle :=
  l.unreflectField C (if (C.graph.field f).isStatic then .getStatic else .getField) f

/-- A handle that writes a field at hand. -/
def unreflectSetter (C : Classes) (l : Lookup) (f : FieldRef) : Link Handle :=
  l.unreflectField C (if (C.graph.field f).isStatic then .putStatic else .putField) f

end HandleCalculus.Lookup
