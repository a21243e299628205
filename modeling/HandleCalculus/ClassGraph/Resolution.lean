import HandleCalculus.ClassGraph.Members

/-!
# Resolution

Symbolic references to members: the member found for a class, checked against the way in which it
is to be used.
-/

set_option autoImplicit false

namespace HandleCalculus

/-- The way in which a method reference is to be used. -/
inductive MethodSearch where
  | static | virtual | interface | special
  deriving DecidableEq, Repr

namespace MethodSearch

def all : List MethodSearch := [static, virtual, interface, special]

/-- The name of a use. -/
def name : MethodSearch → String
  | static => "Static"
  | virtual => "Virtual"
  | interface => "Interface"
  | special => "Special"

/-- The use that a name stands for. -/
def ofName? (s : String) : Option MethodSearch := all.find? (·.name == s)

end MethodSearch

/-- Why a class or member cannot be linked. -/
inductive ResolutionError where
  | noSuchMethod (cls : ClassId) (name : String) (desc : Descriptor)
  | notConstructor (m : MethodRef)
  | noSuchField (cls : ClassId) (name : String) (type : Ty)
  | noSuchClass (name : String)
  | isInterface (cls : ClassId)
  | isNotInterface (cls : ClassId)
  | notStatic (m : MethodRef)
  | notInstance (m : MethodRef)
  | staticSpecial (m : MethodRef)
  | staticMismatch (f : FieldRef)
  | instantiation (cls : ClassId)
  | abstractMethod (m : MethodRef)
  | noImplementation (m : MethodRef) (receiver : ClassId)
  | duplicateClass (name : String) (loader : Loader)

namespace ResolutionError

/-- The kinds that callers tell apart. -/
inductive Kind where
  | noSuchMethod | noSuchField | noSuchClass | incompatibleClassChange | instantiation
  | abstractMethod | duplicateClass
  deriving DecidableEq, Repr

def kind : ResolutionError → Kind
  | noSuchMethod .. | notConstructor _ => .noSuchMethod
  | noSuchField .. => .noSuchField
  | noSuchClass _ => .noSuchClass
  | isInterface _ | isNotInterface _ | notStatic _ | notInstance _ | staticSpecial _
  | staticMismatch _ => .incompatibleClassChange
  | instantiation _ => .instantiation
  | abstractMethod _ | noImplementation .. => .abstractMethod
  | duplicateClass .. => .duplicateClass

/-- The name of a kind. -/
def Kind.name : Kind → String
  | noSuchMethod => "NoSuchMethod"
  | noSuchField => "NoSuchField"
  | noSuchClass => "NoSuchClass"
  | incompatibleClassChange => "IncompatibleClassChange"
  | instantiation => "Instantiation"
  | abstractMethod => "AbstractMethod"
  | duplicateClass => "DuplicateClass"

/-- The words that open every message of a kind. -/
def Kind.opening : Kind → String
  | noSuchMethod => "no such method: "
  | noSuchField => "no such field: "
  | noSuchClass => "no such class: "
  | incompatibleClassChange => "incompatible class change: "
  | instantiation => "cannot instantiate: "
  | abstractMethod => "abstract method: "
  | duplicateClass => "duplicate class definition: "

/-- What follows the opening. -/
def detail (G : ClassGraph) : ResolutionError → String
  | noSuchMethod c name desc => G.name c ++ "." ++ name ++ desc.text G
  | notConstructor m => G.methodText m ++ " is not a constructor"
  | noSuchField c name type => G.name c ++ "." ++ name ++ ":" ++ type.descriptor G
  | noSuchClass name => name
  | isInterface c => G.name c ++ " is an interface"
  | isNotInterface c => G.name c ++ " is not an interface"
  | notStatic m => "expected static method " ++ G.methodText m
  | notInstance m => "expected instance method " ++ G.methodText m
  | staticSpecial m => G.methodText m ++ " is static"
  | staticMismatch f => "static mismatch for " ++ G.fieldText f
  | instantiation c => G.name c
  | abstractMethod m => G.methodText m
  | noImplementation m receiver => G.methodText m ++ " for receiver " ++ G.name receiver
  | duplicateClass name loader => name ++ loader.text

def message (G : ClassGraph) (e : ResolutionError) : String := e.kind.opening ++ e.detail G

end ResolutionError

namespace ClassGraph

/-- The name of every class initialiser. -/
def initializerName : String := "<clinit>"

/-- The method that a class has under a name and descriptor, for the given use. Constructors and
class initialisers are not found this way. -/
def resolveMethod (G : ClassGraph) (c : ClassId) (name : String) (desc : Descriptor)
    (search : MethodSearch) : Except ResolutionError MethodRef :=
  if search = .virtual ∧ G.isInterface c then .error (.isInterface c)
  else if search = .interface ∧ ¬ G.isInterface c then .error (.isNotInterface c)
  else if name = MethodDecl.constructorName ∨ name = initializerName then
    .error (.noSuchMethod c name desc)
  else
    match G.findMethod? c name desc with
    | none => .error (.noSuchMethod c name desc)
    | some m =>
      match search, (G.method m).flags.isStatic with
      | .static, false => .error (.notStatic m)
      | .static, true => .ok m
      | _, true => .error (.notInstance m)
      | _, false => .ok m

/-- The field that a class has under a name and type, static or not as asked. -/
def resolveField (G : ClassGraph) (c : ClassId) (name : String) (type : Ty) (isStatic : Bool) :
    Except ResolutionError FieldRef :=
  match G.findField? c name type with
  | none => .error (.noSuchField c name type)
  | some f => if (G.field f).isStatic = isStatic then .ok f else .error (.staticMismatch f)

/-- The constructor that an instantiable class declares. -/
def resolveConstructor (G : ClassGraph) (c : ClassId) (desc : Descriptor) :
    Except ResolutionError MethodRef :=
  if (G.flags c).isInterface || (G.flags c).isAbstract then .error (.instantiation c)
  else
    match G.methodHere? c MethodDecl.constructorName desc with
    | some m => .ok m
    | none => .error (.noSuchMethod c MethodDecl.constructorName desc)

end ClassGraph

end HandleCalculus
