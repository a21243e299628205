import HandleCalculus.CompileOnce.Cache

/-!
# Threads at a compile-once table

Any number of threads that look keys up, one atomic step at a time: the look-up itself, the
compiler, publishing or abandoning, ending the marker, waking who sleeps on it, and on the other
side checking a marker and falling asleep on it. A compiler may look other keys up, so what a
thread is doing is a stack of look-ups. `System.step?` is one step of one thread; where a thread
has a choice (how its compiler goes on), the choice is given. Everything a schedule can lead to is
a run of `step?`; `System.runFair` is one schedule, thread after thread.
-/

set_option autoImplicit false

namespace HandleCalculus.CompileOnce

variable {K D E : Type}

/-- Where a look-up stands. -/
inductive Phase (D E : Type) where
  /-- About to look into the table. -/
  | atTable
  /-- Its compiler is running, for its own marker. -/
  | compiling (m : Marker)
  /-- The compiler is done and the table is about to be changed. -/
  | settling (m : Marker) (result : Except E D)
  /-- The table is changed and the marker is about to be ended. -/
  | ending (m : Marker) (result : Except E D)
  /-- The marker is ended and the sleepers are about to be woken. -/
  | waking (m : Marker) (result : Except E D)
  /-- About to check somebody else's marker. -/
  | checking (m : Marker)
  /-- Asleep on somebody else's marker. -/
  | asleep (m : Marker)

/-- A look-up under way. -/
structure Frame (K D E : Type) where
  key : K
  phase : Phase D E

/-- A look-up that is over: its key, its answer, and whether it ran the compiler itself. -/
structure Answer (K D E : Type) where
  key : K
  result : Except E D
  compiled : Bool

/-- A thread: the keys it has yet to look up, its look-ups under way, the innermost first, and its
answers so far, the latest first. -/
structure Thread (K D E : Type) where
  todo : List K
  stack : List (Frame K D E)
  answers : List (Answer K D E)

/-- A thread is done when it has nothing under way and nothing to do. -/
def Thread.isDone (t : Thread K D E) : Bool := t.todo.isEmpty && t.stack.isEmpty

/-- The table, the threads at it, and the number of compiler runs begun. -/
structure System (K D E : Type) where
  cache : Cache K D
  threads : List (Thread K D E)
  runs : Nat

/-- How the compiler of a thread goes on: it ends, or it looks another key up. -/
inductive Choice (K D E : Type) where
  | compileEnds (result : Except E D)
  | lookUp (k : K)

namespace System

/-- The thread after its innermost look-up has been answered. -/
def answer (t : Thread K D E) (rest : List (Frame K D E)) (k : K) (result : Except E D)
    (compiled : Bool) : Thread K D E :=
  { t with stack := rest, answers := ⟨k, result, compiled⟩ :: t.answers }

/-- Every sleeper on a marker goes back to checking it. -/
def wake (m : Marker) (t : Thread K D E) : Thread K D E :=
  match t.stack with
  | ⟨k, .asleep n⟩ :: rest =>
    if m = n then { t with stack := ⟨k, .checking n⟩ :: rest } else t
  | _ => t

variable [DecidableEq K]

/-- One step of thread `i`, if there is one to take. The choice matters only while its compiler
runs. -/
def step? (s : System K D E) (i : Nat) (choice : Choice K D E) : Option (System K D E) :=
  match s.threads[i]? with
  | none => none
  | some t =>
    let update := fun (t : Thread K D E) => { s with threads := s.threads.set i t }
    match t.stack with
    | [] =>
      match t.todo with
      | [] => none
      | k :: ks => some (update { t with todo := ks, stack := [⟨k, .atTable⟩] })
    | ⟨k, phase⟩ :: rest =>
      let go := fun (p : Phase D E) => update { t with stack := ⟨k, p⟩ :: rest }
      match phase with
      | .atTable =>
        match s.cache.claim k with
        | (.ready d, _) => some (update (answer t rest k (.ok d) false))
        | (.wait m, _) => some (go (.checking m))
        | (.claimed m, cache) =>
          some { go (.compiling m) with cache := cache, runs := s.runs + 1 }
      | .compiling m =>
        match choice with
        | .compileEnds result => some (go (.settling m result))
        | .lookUp k' =>
          some (update { t with stack := ⟨k', .atTable⟩ :: ⟨k, phase⟩ :: rest })
      | .settling m result =>
        let cache :=
          match result with
          | .ok d => s.cache.publish k d
          | .error _ => s.cache.abandon k
        some { go (.ending m result) with cache := cache }
      | .ending m result => some { go (.waking m result) with cache := s.cache.finish m }
      | .waking m result =>
        some { s with
          threads := (s.threads.set i (answer t rest k result true)).map (wake m) }
      | .checking m =>
        some (if s.cache.isFinished m then go .atTable else go (.asleep m))
      | .asleep _ => none

/-- Whether every thread is done. -/
def isDone (s : System K D E) : Bool := s.threads.all Thread.isDone

/-- A step of thread `i`, or nothing if it has none to take. The compiler answers by the number of
its runs begun. -/
def tick (compile : K → Nat → Except E D) (s : System K D E) (i : Nat) : System K D E :=
  match s.threads[i]?.bind (·.stack.head?) with
  | some ⟨k, .compiling _⟩ =>
    (s.step? i (.compileEnds (compile k (s.runs - 1)))).getD s
  | some f => (s.step? i (.lookUp f.key)).getD s
  | none =>
    match s.threads[i]?.bind (·.todo.head?) with
    | some k => (s.step? i (.lookUp k)).getD s
    | none => s

/-- Gives each thread a step in turn, `rounds` times over at most. -/
def runFair (compile : K → Nat → Except E D) : Nat → System K D E → System K D E
  | 0, s => s
  | rounds + 1, s =>
    if s.isDone then s
    else runFair compile rounds ((List.range s.threads.length).foldl (tick compile) s)

/-- Threads that each look one key up. -/
def crowd (cache : Cache K D) (k : K) (n : Nat) : System K D E :=
  ⟨cache, List.replicate n ⟨[k], [], []⟩, 0⟩

/-- All answers, thread by thread. -/
def answers (s : System K D E) : List (Answer K D E) := s.threads.flatMap (·.answers)

end System

end HandleCalculus.CompileOnce
