import HandleCalculus.CompileOnce.Threads
import HandleCalculus.Event

/-!
# A session at a compile-once table

One thread that looks keys up, peeks and counts, and whose compiler may itself look keys up before
it answers; and a crowd of threads that all look one key up at once. What is compiled for a key is
the key with the number of the compiler run.
-/

set_option autoImplicit false

namespace HandleCalculus.CompileOnce

/-- How the compiler ends. -/
inductive Behaviour where
  | succeeds
  | fails (e : CompileError)

/-- A request to the table. -/
inductive Request where
  /-- Look a key up; the compiler, if it runs, serves `inner` before it ends. -/
  | get (key : String) (behaviour : Behaviour) (inner : List Request)
  | peek (key : String)
  | stats
  /-- `n` threads look a key up at once, and the first `failFirst` runs of the compiler fail. -/
  | crowd (key : String) (n failFirst : Nat)

/-- The answer to a request. -/
inductive Reply where
  | got (result : Except CompileError String) (inner : List Reply) (log : List LogLine)
  /-- The key is being compiled by the very thread that asks. -/
  | blocked
  | peeked (value : Option String)
  | stats (compilations size : Nat) (isEmpty : Bool) (calls : Nat)
  | crowd (values : List String) (failed calls : Nat)

/-- The table, the number of compiler runs begun, and the lines logged since the last look-up was
answered. -/
structure Session where
  cache : Cache String String
  calls : Nat
  log : List LogLine

namespace Session

def initial : Session := ⟨.empty, 0, []⟩

/-- What is compiled for a key in the run `n`. -/
def artifact (key : String) (n : Nat) : String := key ++ s!"#{n}"

def report (s : Session) (l : LogLine) : Session := { s with log := s.log ++ [l] }

/-- The answer to a look-up, with the lines logged. -/
def answer (s : Session) (result : Except CompileError String) (inner : List Reply) :
    Reply × Session :=
  (.got result inner s.log, { s with log := [] })

/-- The outcome of `n` threads that look a key up at once. -/
def crowd (s : Session) (key : String) (n failFirst : Nat) : Reply × Session :=
  let compile := fun (k : String) (run : Nat) =>
    if run < failFirst then .error (CompileError.failed "") else .ok (artifact k run)
  let rounds := 16 * (n + 1) * (n + 1)
  let final := System.runFair compile rounds (System.crowd s.cache key n)
  let results := final.answers.map (·.result)
  let values := results.filterMap fun
    | .ok v => some v
    | .error _ => none
  (.crowd (values.mergeSort (· ≤ ·)) (results.length - values.length) final.runs,
    { s with cache := final.cache })

mutual

/-- Serves a request. -/
def serve (s : Session) : Request → Reply × Session
  | .get key behaviour inner =>
    match s.cache.claim key with
    | (.ready v, _) => s.answer (.ok v) []
    | (.wait _, _) => (.blocked, s)
    | (.claimed m, cache) =>
      let run := s.calls
      let s := ({ s with cache := cache } : Session).report (.compiling (Text.quoted key))
      let (replies, s) := serveAll { s with calls := run + 1 } inner
      match behaviour with
      | .succeeds =>
        let v := artifact key run
        { s with cache := (s.cache.publish key v).finish m }.answer (.ok v) replies
      | .fails e =>
        let s := s.report (.compileFailed (Text.quoted key) e)
        { s with cache := (s.cache.abandon key).finish m }.answer (.error e) replies
  | .peek key => (.peeked (s.cache.peek? key), s)
  | .stats => (.stats s.cache.compilations s.cache.size s.cache.isEmpty s.calls, s)
  | .crowd key n failFirst => s.crowd key n failFirst
termination_by structural r => r

/-- Serves requests one after the other. -/
def serveAll (s : Session) : List Request → List Reply × Session
  | [] => ([], s)
  | r :: rs =>
    let (reply, s) := serve s r
    let (replies, s) := serveAll s rs
    (reply :: replies, s)
termination_by structural rs => rs

end

end Session

end HandleCalculus.CompileOnce
