import HandleCalculus.ClassGraph.Basic

/-!
# Names of types

Types read from source text: a primitive type or `void` by its keyword, any other name as a class,
and a pair of brackets for each level of an array. What class a name stands for is up to the
reader; the bootstrap classes go by their full names and, unless that is the full name of another,
by their simple names.
-/

set_option autoImplicit false

namespace HandleCalculus

/-- The bootstrap class of a full or simple name. -/
def ClassId.ofBootstrapName? (name : String) : Option ClassId :=
  bootstrapNamed.find? (fun c => ClassGraph.bootstrap.name c == name)
    <|> bootstrapNamed.find? fun c => ClassName.simple (ClassGraph.bootstrap.name c) == name

namespace Ty

/-- The type of a name without brackets. -/
def ofBaseName? (classOf : String → Option ClassId) (name : String) : Option Ty :=
  if name = "void" then some .void
  else
    match Prim.ofKeyword? name with
    | some p => some (.prim p)
    | none => (classOf name).map .cls

/-- The type of a name given backwards, so that the outermost brackets come first. -/
def ofReversedName? (classOf : String → Option ClassId) : List Char → Option Ty
  | ']' :: '[' :: rest => (ofReversedName? classOf rest).map .array
  | cs => ofBaseName? classOf (String.ofList cs.reverse)

/-- The type of a name. -/
def ofName? (classOf : String → Option ClassId) (name : String) : Option Ty :=
  ofReversedName? classOf name.toList.reverse

end Ty

end HandleCalculus
