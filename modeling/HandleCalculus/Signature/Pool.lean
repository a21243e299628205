import HandleCalculus.Signature.Edit

/-!
# The pool of signatures

Signatures are kept once: the pool lists every signature asked for so far, and the place in the
list is the signature's identity. Asking takes two steps that each see the whole pool, a look-up
and, if it found nothing, an insertion that keeps what may have been inserted in between.
-/

set_option autoImplicit false

namespace HandleCalculus.Signature

/-- The signatures asked for so far, oldest first. -/
structure Pool where
  entries : List Signature

namespace Pool

def empty : Pool := ⟨[]⟩

/-- The identity of a signature that is in the pool. -/
def find? (p : Pool) (s : Signature) : Option Nat := p.entries.idxOf? s

/-- The identity of a signature, which is added if it is not there. -/
def insertIfAbsent (p : Pool) (s : Signature) : Nat × Pool :=
  match p.find? s with
  | some i => (i, p)
  | none => (p.entries.length, ⟨p.entries ++ [s]⟩)

/-- The identity of the signature of the given types. What is no signature leaves the pool as it
is. -/
def intern (p : Pool) (ret : Ty) (params : List Ty) : Except Error (Signature × Nat) × Pool :=
  match of ret params with
  | .error e => (.error e, p)
  | .ok s =>
    match p.find? s with
    | some i => (.ok (s, i), p)
    | none =>
      let (i, q) := p.insertIfAbsent s
      (.ok (s, i), q)

end Pool

end HandleCalculus.Signature
