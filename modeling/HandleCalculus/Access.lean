import HandleCalculus.ClassGraph.Members
import HandleCalculus.Signature.Basic
import HandleCalculus.Text.Quoted

/-!
# Access

Lookup modes, the lookups that hold them, and the rules that say which classes and members a
lookup class reaches. Two classes share a runtime package if their loader and package name agree;
they are nest-mates if their outermost class names agree as well.
-/

set_option autoImplicit false

namespace HandleCalculus

/-- What a lookup may reach, as a set of bits. -/
structure Modes where
  bits : UInt8
  deriving DecidableEq, Repr

namespace Modes

def publicBit : UInt8 := 0x01
def privateBit : UInt8 := 0x02
def protectedBit : UInt8 := 0x04
def packageBit : UInt8 := 0x08

/-- Every mode. -/
def all : Modes := ⟨0x0f⟩

/-- Public members of public classes only. -/
def publicOnly : Modes := ⟨publicBit⟩

def none : Modes := ⟨0⟩

/-- Whether one of the bits in `mask` is set. -/
def has (m : Modes) (mask : UInt8) : Bool := m.bits &&& mask != 0

/-- The modes without the bits of `mask`. -/
def without (m : Modes) (mask : UInt8) : Modes := ⟨m.bits &&& ~~~mask⟩

def isEmpty (m : Modes) : Bool := m.bits == 0

end Modes

/-- The right to make handles on members as the lookup class may use them; a trusted lookup may
use everything. -/
structure Lookup where
  cls : ClassId
  modes : Modes
  trusted : Bool
  deriving DecidableEq

namespace Lookup

/-- The lookup of a class on its own behalf. -/
def full (c : ClassId) : Lookup := ⟨c, .all, false⟩

/-- The lookup that reaches public members only. -/
def publicLookup : Lookup := ⟨ClassId.object, .publicOnly, false⟩

/-- The lookup that no check applies to. -/
def trustedLookup : Lookup := ⟨ClassId.object, .all, true⟩

/-- Whether private members are within reach. -/
def hasPrivateAccess (l : Lookup) : Bool := l.trusted || l.modes.has Modes.privateBit

/-- The lookup class, and what the lookup lacks. -/
def text (G : ClassGraph) (l : Lookup) : String :=
  if l.trusted then G.name l.cls ++ "/trusted"
  else if l.modes = .all then G.name l.cls
  else if l.modes = .none then G.name l.cls ++ "/noaccess"
  else if l.modes = .publicOnly then G.name l.cls ++ "/public"
  else G.name l.cls ++ "/0x" ++ Text.hex l.modes.bits.toNat

end Lookup

namespace ClassGraph

/-- The package of a class. -/
def package (G : ClassGraph) (c : ClassId) : String := ClassName.package (G.name c)

/-- The name of the outermost class around a class. -/
def outermost (G : ClassGraph) (c : ClassId) : String := ClassName.outermost (G.name c)

/-- Whether two classes share a runtime package. -/
def samePackage (G : ClassGraph) (a b : ClassId) : Bool :=
  G.loader a == G.loader b && G.package a == G.package b

/-- Whether two classes are the same or share a runtime package and an outermost class name. -/
def sameNest (G : ClassGraph) (a b : ClassId) : Bool :=
  a == b || (G.samePackage a b && G.outermost a == G.outermost b)

/-- Whether a class can be named from `user` with the given modes. -/
def classAccessible (G : ClassGraph) (ref user : ClassId) (modes : Modes) : Bool :=
  !modes.isEmpty &&
    ((G.flags ref).isPublic || (modes.has Modes.packageBit && G.samePackage user ref))

/-- Whether a member that `owner` declares with the flags `mods` can be used through `ref` from
`user` with the given modes. Private access to the lookup class itself opens everything; a member
with more than one access modifier is closed to all others. -/
def memberAccessible (G : ClassGraph) (ref owner : ClassId) (mods : Flags) (user : ClassId)
    (modes : Modes) : Bool :=
  if modes.isEmpty then false
  else if !G.classAccessible ref user modes then false
  else if owner == user && modes.has Modes.privateBit then true
  else if mods.modifiers == Flags.publicBit then true
  else if mods.modifiers == Flags.protectedBit then
    if modes.has (Modes.packageBit ||| Modes.protectedBit) && G.samePackage owner user then true
    else if !modes.has Modes.protectedBit then false
    else if mods.isStatic && !(ref == user || G.isRelated ref user) then false
    else G.isSubclass user owner
  else if mods.modifiers == Flags.privateBit then
    modes.has Modes.privateBit && G.sameNest owner user
  else if mods.modifiers == 0 then
    modes.has Modes.packageBit && G.samePackage owner user
  else false

/-- Whether the class that a type names comes from the loader of `ref` or one of its ancestors. -/
def typeVisible (G : ClassGraph) (T : LoaderTree) (t : Ty) (ref : ClassId) : Bool :=
  match t.elementClass? with
  | none => true
  | some c => T.isAncestor (G.loader c) (G.loader ref)

/-- Whether every class that a signature names is visible from `ref`. -/
def signatureVisible (G : ClassGraph) (T : LoaderTree) (s : Signature) (ref : ClassId) : Bool :=
  G.typeVisible T s.ret ref && s.params.all (G.typeVisible T · ref)

end ClassGraph

end HandleCalculus
