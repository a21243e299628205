import HandleCalculus.Machine

/-!
# Handles seen under signatures at once

Any number of calls under way on one machine that ask for handles under other signatures, one atomic step
at a time. A variable-arity handle that has to collect gets its collector in a step of its own, with what
it remembers locked: the collector that it finds there, or one that it makes and leaves there. The answer
is made in the step after that, from the collector got, whatever is remembered by then. `Handle.asType` is
a call that nobody disturbs.
-/

set_option autoImplicit false

namespace HandleCalculus

/-- How a handle comes to be seen under a signature. -/
inductive Course where
  /-- Without making anything: as what it is, or not at all. -/
  | settled (answer : Except Error Handle)
  /-- A handle is converted. -/
  | convert (target : Handle)
  /-- A collector of `count` arguments is converted, perhaps the one remembered in the cell. -/
  | collect (target : Handle) (array : Ty) (cell : Stamp) (count : Nat)

/-- Whether a signature has the arity and passes an array on as it is. -/
def Signature.passesArray (G : ClassGraph) (new old : Signature) (target : Handle) : Bool :=
  new.arity == old.arity &&
    match new.last?, target.type.last? with
    | some last, some targetLast => G.isAssignable last targetLast
    | _, _ => false

/-- What a handle has to do to be seen under a signature. -/
def Handle.courseTo (G : ClassGraph) (h : Handle) (new : Signature) : Course :=
  if new = h.type then .settled (.ok h)
  else
    match h.node with
    | .varargs target array cell =>
      if new.passesArray G h.type target then .convert target
      else if new.arity + 1 < h.type.arity then
        .settled (.error (.misfit (.tooFewRequested h.type (h.type.arity - 1) new.arity)))
      else .collect target array cell (new.arity + 1 - h.type.arity)
    | _ => .convert h

/-- Where a call stands. -/
inductive ViewPhase where
  /-- About to take its course. -/
  | asked
  /-- It has got the collector, which is about to be converted. -/
  | collected (collector : Handle)
  /-- Over: the handle under the signature, or why there is none. -/
  | answered (answer : Except Error Handle)

/-- A call that asks for a handle under a signature. -/
structure View where
  handle : Handle
  new : Signature
  phase : ViewPhase

/-- A machine with the calls made on it, those that are over included. -/
structure Viewing where
  machine : Machine
  views : List View

namespace Viewing

/-- A machine before any call. -/
def on (m : Machine) : Viewing := ⟨m, []⟩

/-- Call `i` gets to the phase and leaves the machine. -/
def advance (v : Viewing) (i : Nat) (w : View) (phase : ViewPhase) (m : Machine) : Viewing :=
  ⟨m, v.views.set i { w with phase := phase }⟩

/-- Call `i` converts a handle and is over. -/
def convert (G : ClassGraph) (v : Viewing) (i : Nat) (w : View) (target : Handle) : Viewing :=
  match Link.build (fun s => target.convertTo G s w.new) v.machine with
  | .ok h m => v.advance i w (.answered (.ok h)) m
  | .error e m => v.advance i w (.answered (.error e)) m

/-- Call `i` gets a collector, or is over if there can be none. -/
def collect (G : ClassGraph) (v : Viewing) (i : Nat) (w : View) (target : Handle) (array : Ty)
    (cell : Stamp) (count : Nat) : Viewing :=
  match collectorFor G target array cell count v.machine with
  | .ok c m => v.advance i w (.collected c) m
  | .error e m => v.advance i w (.answered (.error e)) m

/-- The next step of call `i`, if it is not over. -/
def goOn? (G : ClassGraph) (v : Viewing) (i : Nat) : Option Viewing :=
  v.views[i]?.bind fun w =>
    match w.phase with
    | .asked =>
      match w.handle.courseTo G w.new with
      | .settled answer => some (v.advance i w (.answered answer) v.machine)
      | .convert target => some (v.convert G i w target)
      | .collect target array cell count => some (v.collect G i w target array cell count)
    | .collected c => some (v.convert G i w c)
    | .answered _ => none

/-- A move: a call begins, or one goes on. -/
inductive Move where
  | ask (h : Handle) (new : Signature)
  | goOn (i : Nat)

/-- Makes a move. A call that is over stays where it is. -/
def move (G : ClassGraph) (v : Viewing) : Move → Viewing
  | .ask h new => { v with views := v.views ++ [⟨h, new, .asked⟩] }
  | .goOn i => (v.goOn? G i).getD v

/-- Makes moves one after the other. -/
def run (G : ClassGraph) (v : Viewing) (moves : List Move) : Viewing := moves.foldl (move G) v

end Viewing

end HandleCalculus
