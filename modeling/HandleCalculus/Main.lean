import HandleCalculus.Demo

/-!
# The program

Prints what the demonstration writes and exits with its code.
-/

set_option autoImplicit false

open HandleCalculus

/-- Says why the program does not run: on standard output if it was asked to, else on standard
error. -/
def explain (refusal : CommandLine.Refusal) : IO Unit :=
  match refusal with
  | .help => CommandLine.usage.forM IO.println
  | .version => IO.println "mh-demo 0.1.0"
  | _ => IO.eprintln ("error: " ++ refusal.name)

def main (args : List String) : IO UInt32 := do
  match CommandLine.parse args with
  | .error refusal => explain refusal
  | .ok _ => pure ()
  let outcome := Demo.program args
  outcome.lines.forM IO.println
  return UInt32.ofNat outcome.exitCode
