import HandleCalculus.Machine
import HandleCalculus.CompileOnce.Threads

/-!
# Thunks fetched at once

Any number of fetches of thunks under way on one machine, one atomic step at a time. A fetch looks into
the cell of its handle first. If that is empty it looks the key up in the table, as a thread there, which
may have to compile or to wait for another; at last it fills the cell, unless another fetch for the same
handle has been faster: then it answers what that one has put there. `Handle.thunk` is a fetch that
nobody disturbs.
-/

set_option autoImplicit false

namespace HandleCalculus

open CompileOnce (System Thread)

/-- A fetch of the thunk of a handle, and its answer once it has one. -/
structure Fetch where
  handle : Handle
  answer : Option (Except CompileError Thunk)

/-- Fetches under way. Fetch `i` looks its key up as thread `i` of the table. -/
structure Race where
  table : System ThunkKey Thunk CompileError
  /-- The number that the next thunk compiled gets. -/
  nextId : Nat
  /-- The thunk that each handle keeps, as in a machine. -/
  cells : List ((Stamp × ThunkKey) × Thunk)
  fetches : List Fetch

namespace Race

/-- A machine before any fetch has begun. -/
def on (m : Machine) : Race := ⟨⟨m.thunks.cache, [], 0⟩, m.thunks.nextId, m.cells, []⟩

/-- The machine on which fetches have been made. -/
def leave (r : Race) (m : Machine) : Machine :=
  { m with thunks := ⟨r.table.cache, r.nextId⟩, cells := r.cells }

/-- The thunk that a handle keeps. -/
def kept? (r : Race) (h : Handle) : Option Thunk := r.cells.lookup (h.stamp, h.key)

/-- One more fetch, with its thread. -/
def join (r : Race) (f : Fetch) (t : Thread ThunkKey Thunk CompileError) : Race :=
  { r with
    table := { r.table with threads := r.table.threads ++ [t] }
    fetches := r.fetches ++ [f] }

/-- A fetch begins. It is over at once if the handle keeps a thunk. -/
def start (r : Race) (h : Handle) : Race :=
  match r.kept? h with
  | some t => r.join ⟨h, some (.ok t)⟩ ⟨[], [], []⟩
  | none => r.join ⟨h, none⟩ ⟨[h.key], [], []⟩

/-- The answer to fetch `i`. -/
def reply (r : Race) (i : Nat) (h : Handle) (result : Except CompileError Thunk) : Race :=
  { r with fetches := r.fetches.set i ⟨h, some result⟩ }

/-- Fetch `i` has been answered a thunk by the table. The handle keeps it, unless it keeps one by now. -/
def keep (r : Race) (i : Nat) (h : Handle) (t : Thunk) : Race :=
  match r.kept? h with
  | some t' => r.reply i h (.ok t')
  | none => ({ r with cells := ((h.stamp, h.key), t) :: r.cells } : Race).reply i h (.ok t)

/-- Whether the compiler is running for thread `i`. -/
def compiles (r : Race) (i : Nat) : Bool :=
  match r.table.threads[i]?.bind (·.stack.head?) with
  | some ⟨_, .compiling _⟩ => true
  | _ => false

/-- A step of fetch `i` at the table. A compiler that succeeds uses up a number. -/
def step? (r : Race) (i : Nat) (h : Handle) : Option Race :=
  let compiled := Thunk.compile r.nextId h.key
  (r.table.step? i (.compileEnds compiled)).map fun table =>
    { r with
      table := table
      nextId := if r.compiles i && compiled.isOk then r.nextId + 1 else r.nextId }

/-- The next step of fetch `i`, if there is one to take. -/
def goOn? (r : Race) (i : Nat) : Option Race :=
  match r.fetches[i]? with
  | some ⟨h, none⟩ =>
    match r.table.threads[i]?.bind (·.answers.head?) with
    | none => r.step? i h
    | some a =>
      match a.result with
      | .ok t => some (r.keep i h t)
      | .error e => some (r.reply i h (.error e))
  | _ => none

/-- A move: a fetch begins, or one goes on. -/
inductive Move where
  | start (h : Handle)
  | goOn (i : Nat)

/-- Makes a move. A fetch that has no step to take stays where it is. -/
def move (r : Race) : Move → Race
  | .start h => r.start h
  | .goOn i => (r.goOn? i).getD r

/-- Makes moves one after the other. -/
def run (r : Race) (moves : List Move) : Race := moves.foldl move r

/-- Whether every fetch has its answer. -/
def isOver (r : Race) : Bool := r.fetches.all (·.answer.isSome)

end Race

end HandleCalculus
