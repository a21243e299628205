import HandleCalculus.ClassTable

/-!
# Loading classes

What a program does to its classes, one change after the other: it creates user loaders, builds classes
and registers them. A change that cannot be made leaves the classes as they are. Asking for a class is no
change: a loader keeps no record of what it has been asked.
-/

set_option autoImplicit false

namespace HandleCalculus.Classes

/-- A change of the classes of a program. -/
inductive Change where
  /-- Creates a user loader that delegates to `parent`. -/
  | newLoader (parent : Loader)
  /-- Builds a class without registering it. -/
  | build (d : ClassDecl)
  /-- Registers a class that has been built. -/
  | register (c : ClassId)
  /-- Builds a class and registers it. -/
  | define (d : ClassDecl)

/-- Adds a user loader that delegates to `parent`. -/
def addLoader (C : Classes) (parent : Loader) : Classes :=
  { C with table := (C.table.addLoader parent).2 }

/-- Adds a class without registering it, if its supertypes are there. -/
def build? (C : Classes) (d : ClassDecl) : Option (ClassId × Classes) :=
  (C.graph.define d).map fun (c, graph) => (c, { C with graph := graph })

/-- Registers a class under its loader and name. -/
def register (C : Classes) (c : ClassId) : Except ResolutionError Classes :=
  (C.table.register C.graph c).map fun table => { C with table := table }

/-- Adds and registers a class, if its supertypes are there. A class that cannot be registered is not
added. -/
def define? (C : Classes) (d : ClassDecl) : Option (Except ResolutionError (ClassId × Classes)) :=
  (C.build? d).map fun (c, C) => (C.register c).map fun C => (c, C)

/-- The classes after a change. -/
def after (C : Classes) : Change → Classes
  | .newLoader parent => C.addLoader parent
  | .build d =>
    match C.build? d with
    | some (_, D) => D
    | none => C
  | .register c =>
    if c < C.graph.size then
      match C.register c with
      | .ok D => D
      | .error _ => C
    else C
  | .define d =>
    match C.define? d with
    | some (.ok (_, D)) => D
    | _ => C

/-- The classes after changes made one after the other. -/
def run (C : Classes) (changes : List Change) : Classes := changes.foldl after C

end HandleCalculus.Classes
