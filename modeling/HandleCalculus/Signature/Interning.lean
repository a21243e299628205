import HandleCalculus.Signature.Pool

/-!
# Signatures asked for at once

Any number of calls that ask one pool for signatures, by their types or as edits of signatures at hand,
one atomic step at a time. A call for what is no signature ends at once. Any other looks the signature
up; if it is not there the call inserts it, in a step of its own, and keeps what another call may have
inserted in between. A thread is the calls that it makes, one after the other. `Pool.intern` is a call
that nobody disturbs.
-/

set_option autoImplicit false

namespace HandleCalculus.Signature

/-- A way to ask for a signature. -/
inductive Request where
  | of (ret : Ty) (params : List Ty)
  | ofDescriptor (d : Descriptor)
  | generic (n : Nat)
  | changeParam (s : Signature) (i : Nat) (t : Ty)
  | insertParams (s : Signature) (i : Nat) (ts : List Ty)
  | appendParams (s : Signature) (ts : List Ty)
  | dropParams (s : Signature) (start stop : Nat)
  | changeReturn (s : Signature) (t : Ty)
  | erase (s : Signature)
  | toGeneric (s : Signature)
  | wrap (s : Signature)
  | unwrap (s : Signature)

/-- The signature asked for, if it is one. -/
def Request.make : Request → Except Error Signature
  | of ret params => Signature.of ret params
  | ofDescriptor d => Signature.ofDescriptor d
  | generic n => Signature.generic n
  | changeParam s i t => s.changeParam i t
  | insertParams s i ts => s.insertParams i ts
  | appendParams s ts => s.appendParams ts
  | dropParams s start stop => s.dropParams start stop
  | changeReturn s t => s.changeReturn t
  | erase s => s.erase
  | toGeneric s => s.toGeneric
  | wrap s => s.wrap
  | unwrap s => s.unwrap

/-- Where a call stands. -/
inductive Asking where
  /-- About to look into the pool. -/
  | asked
  /-- The pool did not have the signature, which is about to be inserted. -/
  | missed (s : Signature)
  /-- Over: the signature with its identity, or why there is none. -/
  | answered (answer : Except Error (Signature × Nat))

/-- A call for a signature. -/
structure Asker where
  request : Request
  phase : Asking

/-- A pool with the calls made at it, those that are over included. -/
structure Interning where
  pool : Pool
  askers : List Asker

namespace Interning

def empty : Interning := ⟨.empty, []⟩

/-- Call `i`, which is for `r`, gets to the phase. -/
def advance (c : Interning) (i : Nat) (r : Request) (phase : Asking) : Interning :=
  { c with askers := c.askers.set i ⟨r, phase⟩ }

/-- The next step of call `i`, if it is not over. -/
def goOn? (c : Interning) (i : Nat) : Option Interning :=
  match c.askers[i]? with
  | some ⟨r, .asked⟩ =>
    match r.make with
    | .error e => some (c.advance i r (.answered (.error e)))
    | .ok s =>
      match c.pool.find? s with
      | some x => some (c.advance i r (.answered (.ok (s, x))))
      | none => some (c.advance i r (.missed s))
  | some ⟨r, .missed s⟩ =>
    let (x, pool) := c.pool.insertIfAbsent s
    some (({ c with pool := pool } : Interning).advance i r (.answered (.ok (s, x))))
  | _ => none

/-- A move: a call begins, or one goes on. -/
inductive Move where
  | ask (r : Request)
  | goOn (i : Nat)

/-- Makes a move. A call that is over stays where it is. -/
def move (c : Interning) : Move → Interning
  | .ask r => { c with askers := c.askers ++ [⟨r, .asked⟩] }
  | .goOn i => (c.goOn? i).getD c

/-- Makes moves one after the other. -/
def run (c : Interning) (moves : List Move) : Interning := moves.foldl move c

end Interning

end HandleCalculus.Signature
