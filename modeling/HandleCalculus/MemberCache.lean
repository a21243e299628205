import HandleCalculus.Handle.Basic
import HandleCalculus.RefKind

/-!
# The member cache

Handles on members, kept by class, name, signature and kind of use. A look-up takes two steps that
each see the whole table: `read`, which counts a hit or a miss, and after a miss `insertIfAbsent`,
which keeps what may have been inserted in between. Access is checked elsewhere, on every look-up.
-/

set_option autoImplicit false

namespace HandleCalculus

/-- What a member handle is kept under. The signature is the handle's own, receiver included. -/
structure MemberKey where
  cls : ClassId
  name : String
  type : Signature
  kind : RefKind
  deriving DecidableEq

/-- The member handles made so far. -/
structure MemberCache where
  enabled : Bool
  entries : List (MemberKey × Handle)
  hits : Nat
  misses : Nat

namespace MemberCache

def empty (enabled : Bool) : MemberCache := ⟨enabled, [], 0, 0⟩

/-- The handle kept under a key. -/
def find? (c : MemberCache) (k : MemberKey) : Option Handle := c.entries.lookup k

/-- Looks a key up and counts the hit or miss. -/
def read (c : MemberCache) (k : MemberKey) : Option Handle × MemberCache :=
  match c.find? k with
  | some h => (some h, { c with hits := c.hits + 1 })
  | none => (none, { c with misses := c.misses + 1 })

/-- Keeps a handle unless there is one already, and answers the one that is kept. -/
def insertIfAbsent (c : MemberCache) (k : MemberKey) (h : Handle) : Handle × MemberCache :=
  match c.find? k with
  | some old => (old, c)
  | none => (h, { c with entries := (k, h) :: c.entries })

def size (c : MemberCache) : Nat := c.entries.length

def isEmpty (c : MemberCache) : Bool := c.entries.isEmpty

end MemberCache

end HandleCalculus
