import HandleCalculus.ClassGraph.Resolution
import HandleCalculus.Access

/-!
# The class table

The classes that can be found by name, each under its defining loader, and the tree of loaders.
A search asks the ancestors of a loader before the loader itself, so what an ancestor has hides
what a descendant has.
-/

set_option autoImplicit false

namespace HandleCalculus

/-- The classes registered under a loader and a name, the latest first, and the loaders. -/
structure ClassTable where
  entries : List ((Loader × String) × ClassId)
  loaders : LoaderTree

namespace ClassTable

/-- The table of the bootstrap classes. -/
def initial : ClassTable where
  entries := bootstrapNamed.map fun c => ((.bootstrap, ClassGraph.bootstrap.name c), c)
  loaders := .empty

/-- The class that a loader itself has registered under a name. -/
def registered? (t : ClassTable) (loader : Loader) (name : String) : Option ClassId :=
  t.entries.lookup (loader, name)

/-- Registers a class under its loader and name, each pair once. -/
def register (t : ClassTable) (G : ClassGraph) (c : ClassId) :
    Except ResolutionError ClassTable :=
  match t.registered? (G.loader c) (G.name c) with
  | some _ => .error (.duplicateClass (G.name c) (G.loader c))
  | none => .ok { t with entries := ((G.loader c, G.name c), c) :: t.entries }

/-- The class that a loader finds under a name, asking its ancestors first. -/
def lookupClass (t : ClassTable) (loader : Loader) (name : String) : Option ClassId :=
  match t.loaders.ancestry loader with
  | some chain => chain.reverse.findSome? (t.registered? · name)
  | none => none

/-- Adds a user loader. -/
def addLoader (t : ClassTable) (parent : Loader) : Loader × ClassTable :=
  let (loader, loaders) := t.loaders.add parent
  (loader, { t with loaders := loaders })

def size (t : ClassTable) : Nat := t.entries.length

def isEmpty (t : ClassTable) : Bool := t.entries.isEmpty

end ClassTable

/-- The classes of a program with the table in which they are found. -/
structure Classes where
  graph : ClassGraph
  table : ClassTable

namespace Classes

def initial : Classes := ⟨.bootstrap, .initial⟩

/-- Whether every class that a signature names is visible from `c`. -/
def signatureVisible (C : Classes) (s : Signature) (c : ClassId) : Bool :=
  C.graph.signatureVisible C.table.loaders s c

end Classes

end HandleCalculus
