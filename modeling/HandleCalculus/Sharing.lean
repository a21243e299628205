import HandleCalculus.Error
import HandleCalculus.MemberCache

/-!
# Handles asked for at once

Any number of calls that ask one member cache for handles by their keys, one atomic step at a time. A call
reads the table and counts a hit or a miss; after a miss its maker runs, and what it makes is inserted,
unless another call has inserted something in between. Other calls may take any number of steps between two
steps of one. A maker may fail, or never come to an end; what it comes to is part of the call. A cache that
is not in use is neither read nor written, nor does it count. `Lookup.cached` is a call that nobody
disturbs.
-/

set_option autoImplicit false

namespace HandleCalculus.MemberCache

def countHit (c : MemberCache) : MemberCache := { c with hits := c.hits + 1 }

def countMiss (c : MemberCache) : MemberCache := { c with misses := c.misses + 1 }

/-- Where a call stands. -/
inductive Stage where
  /-- About to read the table. -/
  | asked
  /-- It has found a handle, which is about to be counted as a hit. -/
  | found (h : Handle)
  /-- It has found none, which is about to be counted as a miss. -/
  | missed
  /-- Its maker runs. -/
  | making
  /-- Its maker has made a handle, which is about to be inserted. -/
  | made (h : Handle)
  /-- Over: the handle and whether it was a hit, or the error of its maker. -/
  | answered (answer : Except Error (Handle × Bool))

/-- A call for the handle of a key, with what its maker comes to if it runs. -/
structure Taker where
  key : MemberKey
  make : Except Error Handle
  stage : Stage

/-- A member cache with the calls made at it, those that are over included. -/
structure Sharing where
  cache : MemberCache
  takers : List Taker

namespace Sharing

/-- A cache before any call. -/
def on (c : MemberCache) : Sharing := ⟨c, []⟩

/-- Call `i` gets to the stage and leaves the cache. -/
def advance (c : Sharing) (i : Nat) (t : Taker) (stage : Stage) (cache : MemberCache) : Sharing :=
  ⟨cache, c.takers.set i { t with stage := stage }⟩

/-- The next step of call `i`, if it is not over. -/
def goOn? (c : Sharing) (i : Nat) : Option Sharing :=
  c.takers[i]?.bind fun t =>
    match t.stage with
    | .asked =>
      if c.cache.enabled then
        match c.cache.find? t.key with
        | some h => some (c.advance i t (.found h) c.cache)
        | none => some (c.advance i t .missed c.cache)
      else some (c.advance i t .making c.cache)
    | .found h => some (c.advance i t (.answered (.ok (h, true))) c.cache.countHit)
    | .missed => some (c.advance i t .making c.cache.countMiss)
    | .making =>
      match t.make with
      | .error e => some (c.advance i t (.answered (.error e)) c.cache)
      | .ok h =>
        if c.cache.enabled then some (c.advance i t (.made h) c.cache)
        else some (c.advance i t (.answered (.ok (h, false))) c.cache)
    | .made h =>
      let (kept, cache) := c.cache.insertIfAbsent t.key h
      some (c.advance i t (.answered (.ok (kept, false))) cache)
    | .answered _ => none

/-- A move: a call begins, or one goes on. -/
inductive Move where
  | ask (key : MemberKey) (make : Except Error Handle)
  | goOn (i : Nat)

/-- Makes a move. A call that is over stays where it is. -/
def move (c : Sharing) : Move → Sharing
  | .ask key make => { c with takers := c.takers ++ [⟨key, make, .asked⟩] }
  | .goOn i => (c.goOn? i).getD c

/-- Makes moves one after the other. -/
def run (c : Sharing) (moves : List Move) : Sharing := moves.foldl move c

end Sharing

end HandleCalculus.MemberCache
