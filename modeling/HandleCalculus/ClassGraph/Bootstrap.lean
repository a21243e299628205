import HandleCalculus.ClassGraph.Decl

/-!
# The bootstrap classes

The classes that every graph starts with, at fixed numbers: the root, strings, the throwables that
errors of the runtime turn into, and the wrapper class of each primitive type.
-/

set_option autoImplicit false

namespace HandleCalculus

namespace ClassId

def object : ClassId := 0
def string : ClassId := 1
def number : ClassId := 2
def throwable : ClassId := 3
def exception : ClassId := 4
def runtimeException : ClassId := 5
def error : ClassId := 6
def illegalArgument : ClassId := 7
def illegalState : ClassId := 8
def classCast : ClassId := 9
def nullPointer : ClassId := 10
def unsupportedOperation : ClassId := 11
def wrongMethodType : ClassId := 12
def linkageError : ClassId := 13
def incompatibleClassChange : ClassId := 14

/-- The wrapper class of a primitive type. -/
def wrapper (p : Prim) : ClassId := 15 + p.rank

/-- The primitive type that a class wraps. -/
def unwrapped? (c : ClassId) : Option Prim := Prim.all.find? fun p => wrapper p == c

theorem unwrapped?_wrapper (p : Prim) : unwrapped? (wrapper p) = some p := by
  cases p <;> rfl

theorem wrapper_of_unwrapped? {c : ClassId} {p : Prim} (h : unwrapped? c = some p) :
    wrapper p = c := by
  simpa using List.find?_some h

end ClassId

/-- The superclass of a wrapper class: `Number` for the numeric types other than `char`. -/
def wrapperParent : Prim → ClassId
  | .boolean | .char => ClassId.object
  | _ => ClassId.number

/-- A bootstrap class without members. -/
def bootstrapClass (name : String) (bits : UInt16) (parent : Option ClassId) : ClassDecl :=
  ⟨name, ⟨bits⟩, .bootstrap, parent, [], [], []⟩

/-- The bootstrap classes, each at its number. -/
def bootstrapClasses : List ClassDecl :=
  [ bootstrapClass "java/lang/Object" 0x0001 none,
    bootstrapClass "java/lang/String" 0x0011 (some ClassId.object),
    bootstrapClass "java/lang/Number" 0x0401 (some ClassId.object),
    bootstrapClass "java/lang/Throwable" 0x0001 (some ClassId.object),
    bootstrapClass "java/lang/Exception" 0x0001 (some ClassId.throwable),
    bootstrapClass "java/lang/RuntimeException" 0x0001 (some ClassId.exception),
    bootstrapClass "java/lang/Error" 0x0001 (some ClassId.throwable),
    bootstrapClass "java/lang/IllegalArgumentException" 0x0001 (some ClassId.runtimeException),
    bootstrapClass "java/lang/IllegalStateException" 0x0001 (some ClassId.runtimeException),
    bootstrapClass "java/lang/ClassCastException" 0x0001 (some ClassId.runtimeException),
    bootstrapClass "java/lang/NullPointerException" 0x0001 (some ClassId.runtimeException),
    bootstrapClass "java/lang/UnsupportedOperationException" 0x0001
      (some ClassId.runtimeException),
    bootstrapClass "java/lang/invoke/WrongMethodTypeException" 0x0001
      (some ClassId.runtimeException),
    bootstrapClass "java/lang/LinkageError" 0x0001 (some ClassId.error),
    bootstrapClass "java/lang/IncompatibleClassChangeError" 0x0001 (some ClassId.linkageError) ]
  ++ Prim.all.map fun p => bootstrapClass p.wrapperName 0x0011 (some (wrapperParent p))

/-- The number of bootstrap classes. -/
def bootstrapCount : Nat := 23

theorem length_bootstrapClasses : bootstrapClasses.length = bootstrapCount := rfl

/-- The bootstrap classes that can be found by name. The linkage error is only a link in the
chain of superclasses. -/
def bootstrapNamed : List ClassId :=
  (List.range bootstrapCount).filter (· ≠ ClassId.linkageError)

end HandleCalculus
