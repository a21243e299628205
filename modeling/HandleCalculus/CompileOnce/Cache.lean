/-!
# A compile-once table

For each key the table holds nothing, a marker that some thread is compiling, or what was
compiled. The operations are the atomic steps of a look-up: `claim` reads the table and, if there
is nothing, leaves a marker; the claimant compiles outside the table and then either `publish`es
or `abandon`s, and at last `finish`es the marker, for which the others wait. A published entry
stays for good.
-/

set_option autoImplicit false

namespace HandleCalculus.CompileOnce

/-- The number of a marker. -/
abbrev Marker := Nat

/-- What the table holds for a key. -/
inductive Entry (D : Type) where
  | inFlight (m : Marker)
  | ready (d : D)

/-- The table, the number of successful compilations, and for each marker given out whether its
compilation is over. -/
structure Cache (K D : Type) where
  entries : List (K × Entry D)
  compilations : Nat
  finished : List Bool

/-- What a look-up finds. -/
inductive Claim (D : Type) where
  /-- The compiled thing. -/
  | ready (d : D)
  /-- Somebody else's marker, to be waited for. -/
  | wait (m : Marker)
  /-- Nothing; the caller's own marker has been left. -/
  | claimed (m : Marker)

namespace Cache

variable {K D : Type} [DecidableEq K]

def empty : Cache K D := ⟨[], 0, []⟩

/-- What the table holds for a key. -/
def find? (c : Cache K D) (k : K) : Option (Entry D) := c.entries.lookup k

/-- The entries without those of a key. -/
def without (c : Cache K D) (k : K) : List (K × Entry D) := c.entries.filter fun e => e.1 ≠ k

/-- Looks a key up and leaves a marker if there is nothing. -/
def claim (c : Cache K D) (k : K) : Claim D × Cache K D :=
  match c.find? k with
  | some (.ready d) => (.ready d, c)
  | some (.inFlight m) => (.wait m, c)
  | none =>
    let m := c.finished.length
    (.claimed m, { c with
      entries := (k, .inFlight m) :: c.entries, finished := c.finished ++ [false] })

/-- Puts what was compiled in place of the marker. -/
def publish (c : Cache K D) (k : K) (d : D) : Cache K D :=
  { c with entries := (k, .ready d) :: c.without k, compilations := c.compilations + 1 }

/-- Takes the marker away after a failed compilation. -/
def abandon (c : Cache K D) (k : K) : Cache K D := { c with entries := c.without k }

/-- Ends the wait for a marker. -/
def finish (c : Cache K D) (m : Marker) : Cache K D :=
  { c with finished := c.finished.set m true }

/-- Whether the compilation behind a marker is over. -/
def isFinished (c : Cache K D) (m : Marker) : Bool := c.finished[m]?.getD true

/-- What has been compiled for a key. -/
def peek? (c : Cache K D) (k : K) : Option D :=
  match c.find? k with
  | some (.ready d) => some d
  | _ => none

/-- The number of keys with something compiled. -/
def size (c : Cache K D) : Nat :=
  (c.entries.filter fun e => match e.2 with
    | .ready _ => true
    | .inFlight _ => false).length

def isEmpty (c : Cache K D) : Bool := c.size == 0

/-- A whole look-up by one thread, with the outcome of compiling already known: what is in the
table, or else the outcome, published if it is a success. Nothing is answered where somebody
else's marker would have to be waited for. -/
def get {E : Type} (c : Cache K D) (k : K) (compiled : Except E D) :
    Option (Except E D) × Cache K D :=
  match c.claim k with
  | (.ready d, c) => (some (.ok d), c)
  | (.wait _, c) => (none, c)
  | (.claimed m, c) =>
    match compiled with
    | .ok d => (some (.ok d), (c.publish k d).finish m)
    | .error e => (some (.error e), (c.abandon k).finish m)

end Cache

end HandleCalculus.CompileOnce
