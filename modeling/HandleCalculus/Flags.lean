/-!
# Access flags

The sixteen flag bits of classes, fields and methods. Some bits mean one thing on a field and
another on a method (`volatile` and bridge, `transient` and varargs); each reading has its own
predicate.
-/

set_option autoImplicit false

namespace HandleCalculus

/-- The flag bits of a class, field or method. -/
structure Flags where
  bits : UInt16
  deriving DecidableEq, Repr

namespace Flags

def publicBit : UInt16 := 0x0001
def privateBit : UInt16 := 0x0002
def protectedBit : UInt16 := 0x0004
def staticBit : UInt16 := 0x0008
def finalBit : UInt16 := 0x0010
def volatileBit : UInt16 := 0x0040
def varargsBit : UInt16 := 0x0080
def nativeBit : UInt16 := 0x0100
def interfaceBit : UInt16 := 0x0200
def abstractBit : UInt16 := 0x0400
def syntheticBit : UInt16 := 0x1000

/-- The three access modifiers. A member with none of them is package-private. -/
def modifierBits : UInt16 := publicBit ||| privateBit ||| protectedBit

/-- Whether one of the bits in `mask` is set. -/
def has (f : Flags) (mask : UInt16) : Bool := f.bits &&& mask != 0

def isStatic (f : Flags) : Bool := f.has staticBit
def isFinal (f : Flags) : Bool := f.has finalBit
def isNative (f : Flags) : Bool := f.has nativeBit
def isVarargs (f : Flags) : Bool := f.has varargsBit
def isVolatile (f : Flags) : Bool := f.has volatileBit
def isPublic (f : Flags) : Bool := f.has publicBit
def isPrivate (f : Flags) : Bool := f.has privateBit
def isProtected (f : Flags) : Bool := f.has protectedBit
def isPackagePrivate (f : Flags) : Bool := !f.has modifierBits
def isAbstract (f : Flags) : Bool := f.has abstractBit
def isInterface (f : Flags) : Bool := f.has interfaceBit
def isSynthetic (f : Flags) : Bool := f.has syntheticBit

/-- Every reading with its name. -/
def readings (f : Flags) : List (String × Bool) :=
  [ ("static", f.isStatic), ("final", f.isFinal), ("native", f.isNative),
    ("varargs", f.isVarargs), ("volatile", f.isVolatile), ("public", f.isPublic),
    ("private", f.isPrivate), ("protected", f.isProtected),
    ("package_private", f.isPackagePrivate), ("abstract", f.isAbstract),
    ("interface", f.isInterface), ("synthetic", f.isSynthetic) ]

/-- The flags with the bits of `mask` set as well. -/
def withBits (f : Flags) (mask : UInt16) : Flags := ⟨f.bits ||| mask⟩

/-- The flags with the bits of `mask` cleared. -/
def without (f : Flags) (mask : UInt16) : Flags := ⟨f.bits &&& ~~~mask⟩

/-- The access modifiers alone. -/
def modifiers (f : Flags) : UInt16 := f.bits &&& modifierBits

/-- The access modifiers tell whether one of them is set. -/
theorem has_eq_modifiers (f : Flags) {mask : UInt16} (hmask : modifierBits &&& mask = mask) :
    f.has mask = (f.modifiers &&& mask != 0) := by
  rw [has, modifiers, UInt16.and_assoc, hmask]

/-- A public class or member and nothing more. -/
def plainPublic : Flags := ⟨publicBit⟩

/-- The visibility that a refusal names; `public` wins over `protected`, that over `private`. -/
def visibilityWord (f : Flags) : String :=
  if f.isPublic then "public"
  else if f.isProtected then "protected"
  else if f.isPrivate then "private"
  else "package-private"

end Flags

end HandleCalculus
