/-!
# Class loaders

A loader is the bootstrap loader or one of the numbered user loaders, each of which delegates to
a parent. `LoaderTree.ancestry` follows the parents up to the bootstrap loader. A user loader may
name any parent, a later loader or itself included, so the walk may never arrive; then there is no
ancestry. Since a walk that visits more loaders than there are never arrives, the number of
loaders bounds the search.
-/

set_option autoImplicit false

namespace HandleCalculus

/-- A class loader. -/
inductive Loader where
  | bootstrap
  | user (index : Nat)
  deriving DecidableEq, Repr

namespace Loader

def isBootstrap : Loader → Bool
  | bootstrap => true
  | user _ => false

/-- The written form that follows a class name. -/
def text : Loader → String
  | bootstrap => "<bl>"
  | user index => s!"<loader {index}>"

end Loader

/-- The parents of the user loaders, by number. -/
structure LoaderTree where
  parents : Array Loader

namespace LoaderTree

def empty : LoaderTree := ⟨#[]⟩

/-- The number of user loaders. -/
def size (t : LoaderTree) : Nat := t.parents.size

/-- Adds a user loader that delegates to `parent`. -/
def add (t : LoaderTree) (parent : Loader) : Loader × LoaderTree :=
  (.user t.size, ⟨t.parents.push parent⟩)

/-- The parent of a loader. A number that was never given out delegates to the bootstrap loader. -/
def parent? (t : LoaderTree) : Loader → Option Loader
  | .bootstrap => none
  | .user index => some (t.parents[index]?.getD .bootstrap)

/-- The loader and its ancestors down to the bootstrap loader, if that is reached within `steps`
delegations. -/
def climb (t : LoaderTree) : Nat → Loader → Option (List Loader)
  | steps, loader =>
    match t.parent? loader with
    | none => some [loader]
    | some parent =>
      match steps with
      | 0 => none
      | steps + 1 => (t.climb steps parent).map (loader :: ·)

/-- The loader followed by its ancestors, the bootstrap loader last; nothing if delegation never
reaches the bootstrap loader. -/
def ancestry (t : LoaderTree) (loader : Loader) : Option (List Loader) :=
  t.climb (t.size + 1) loader

/-- Whether `ancestor` is `descendant` or one of its ancestors. -/
def isAncestor (t : LoaderTree) (ancestor descendant : Loader) : Bool :=
  match t.ancestry descendant with
  | some chain => chain.contains ancestor
  | none => false

end LoaderTree

end HandleCalculus
