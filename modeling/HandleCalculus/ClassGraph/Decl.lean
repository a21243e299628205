import HandleCalculus.Ty
import HandleCalculus.Flags
import HandleCalculus.Loader

/-!
# Class declarations

What a class declares about itself and its members. Behaviour is kept elsewhere: a method only
says whether it has a body.
-/

set_option autoImplicit false

namespace HandleCalculus

/-- A declared method. An abstract method has no body. -/
structure MethodDecl where
  name : String
  desc : Descriptor
  flags : Flags
  hasBody : Bool

namespace MethodDecl

/-- A method without a body; it is flagged abstract whatever the flags given. -/
def withoutBody (name : String) (desc : Descriptor) (flags : Flags) : MethodDecl :=
  ⟨name, desc, flags.withBits Flags.abstractBit, false⟩

/-- A method with a body. -/
def withBody (name : String) (desc : Descriptor) (flags : Flags) : MethodDecl :=
  ⟨name, desc, flags, true⟩

/-- The name of every constructor. -/
def constructorName : String := "<init>"

def isConstructor (m : MethodDecl) : Bool := m.name == constructorName

/-- What a number outside a class's methods reads as. -/
def missing : MethodDecl := ⟨"", ⟨[], .void⟩, ⟨0⟩, false⟩

end MethodDecl

/-- A declared field. -/
structure FieldDecl where
  name : String
  type : Ty
  flags : Flags

namespace FieldDecl

def isStatic (f : FieldDecl) : Bool := f.flags.isStatic

/-- What a number outside a class's fields reads as. -/
def missing : FieldDecl := ⟨"", .void, ⟨0⟩⟩

end FieldDecl

/-- A declared class. Only the root of the class graph has no parent. -/
structure ClassDecl where
  name : String
  flags : Flags
  loader : Loader
  parent : Option ClassId
  interfaces : List ClassId
  methods : List MethodDecl
  fields : List FieldDecl

namespace ClassDecl

/-- The direct supertypes. -/
def supers (d : ClassDecl) : List ClassId := d.parent.toList ++ d.interfaces

/-- The declared types of the static fields, in order: the static slots of the class. -/
def staticTypes (d : ClassDecl) : List Ty := (d.fields.filter (·.isStatic)).map (·.type)

/-- The declared types of the instance fields, in order. -/
def instanceTypes (d : ClassDecl) : List Ty := (d.fields.filter (!·.isStatic)).map (·.type)

end ClassDecl

end HandleCalculus
