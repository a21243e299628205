import HandleCalculus.Options

/-!
# The command line

Arguments are read from left to right, and the first one that is refused ends the reading. The
value of `--log-level` may be an argument of its own. Then the option is taken in late: when the
next option is read or the arguments end. An argument that fits nowhere is refused without looking
at an option that is still to be taken in.
-/

set_option autoImplicit false

namespace HandleCalculus

/-- What the program is asked to do. -/
structure CommandLine where
  options : Options
  level : LogLevel
  deriving DecidableEq, Repr

namespace CommandLine

/-- Why the program does not run with the arguments. -/
inductive Refusal where
  | unknownArgument
  /-- A text that is no log level. -/
  | badLevel
  /-- The log level is missing. -/
  | noLevel
  /-- An option or switch was given twice. -/
  | repeated
  /-- A value was attached to a switch. -/
  | unneededValue
  | help
  | version
  deriving DecidableEq, Repr

/-- The name of a refusal. -/
def Refusal.name : Refusal → String
  | unknownArgument => "UnknownArgument"
  | badLevel => "ValueValidation"
  | noLevel => "InvalidValue"
  | repeated => "ArgumentConflict"
  | unneededValue => "TooManyValues"
  | help => "DisplayHelp"
  | version => "DisplayVersion"

/-- The exit code of a refused run. Being asked for help or the version is no failure. -/
def Refusal.exitCode : Refusal → Nat
  | help | version => 0
  | _ => 2

/-! ## Switches -/

/-- The arguments that stand alone. -/
inductive Switch where
  | traceThunks | traceAccess | traceLookups | traceRelinks | noMemberCache
  deriving DecidableEq, Repr

namespace Switch

def all : List Switch := [traceThunks, traceAccess, traceLookups, traceRelinks, noMemberCache]

/-- The name of a switch, after two dashes. -/
def name : Switch → String
  | traceThunks => "trace-thunks"
  | traceAccess => "trace-access"
  | traceLookups => "trace-lookups"
  | traceRelinks => "trace-relink"
  | noMemberCache => "no-member-cache"

/-- What a switch is good for. -/
def purpose : Switch → String
  | traceThunks => "log every thunk compilation"
  | traceAccess => "log access check outcomes"
  | traceLookups => "log member handle lookups"
  | traceRelinks => "log call site relinks"
  | noMemberCache => "create a fresh handle on every lookup"

/-- Whether a switch has been given. -/
def isOn (o : Options) : Switch → Bool
  | traceThunks => o.traceThunks
  | traceAccess => o.traceAccess
  | traceLookups => o.traceLookups
  | traceRelinks => o.traceRelinks
  | noMemberCache => !o.memberCache

/-- The options once a switch has been given. -/
def turnOn (o : Options) : Switch → Options
  | traceThunks => { o with traceThunks := true }
  | traceAccess => { o with traceAccess := true }
  | traceLookups => { o with traceLookups := true }
  | traceRelinks => { o with traceRelinks := true }
  | noMemberCache => { o with memberCache := false }

theorem isOn_turnOn (o : Options) (s t : Switch) :
    t.isOn (s.turnOn o) = (s == t || t.isOn o) := by
  cases s <;> cases t <;> simp [isOn, turnOn]

/-- The switch of a name. -/
def ofName? (s : String) : Option Switch := all.find? (·.name == s)

end Switch

/-! ## Reading -/

/-- What has been read so far: the options, the log level taken in, and the log level still to be
taken in, with its text if that has come. -/
structure Reading where
  options : Options
  level : Option LogLevel
  pending : Option (Option String)
  deriving DecidableEq, Repr

namespace Reading

/-- Nothing has been read. -/
def initial : Reading := ⟨.quiet, none, none⟩

/-- Takes a log level in. -/
def setLevel (r : Reading) (text : String) : Except Refusal Reading :=
  if r.level.isSome then .error .repeated
  else
    match LogLevel.ofName? text with
    | some l => .ok { r with level := some l }
    | none => .error .badLevel

/-- Takes in the log level that is still to be taken in, if there is one. -/
def settle (r : Reading) : Except Refusal Reading :=
  match r.pending with
  | none => .ok r
  | some none => .error .noLevel
  | some (some text) => { r with pending := none }.setLevel text

/-- Reads the log level option, its text attached or still to come. -/
def levelOption (r : Reading) (text : Option String) : Except Refusal Reading := do
  let r ← r.settle
  match text with
  | some text => r.setLevel text
  | none => return { r with pending := some none }

/-- Reads an argument that ends the reading with an answer. -/
def request (r : Reading) (answer : Refusal) : Except Refusal Reading := do
  let _ ← r.settle
  throw answer

/-- Reads a switch. -/
def switch (r : Reading) (s : Switch) : Except Refusal Reading := do
  let r ← r.settle
  if s.isOn r.options then throw .repeated
  return { r with options := s.turnOn r.options }

/-- Reads what comes after two dashes: a name, and a value if there was an equals sign. -/
def long (r : Reading) (name : String) (value : Option String) : Except Refusal Reading :=
  if name = "log-level" then r.levelOption value
  else
    match Switch.ofName? name, name, value with
    | some s, _, none => r.switch s
    | none, "help", none => r.request .help
    | none, "version", none => r.request .version
    | some _, _, some _ | none, "help", some _ | none, "version", some _ => .error .unneededValue
    | none, _, _ => .error .unknownArgument

/-- Reads the letters after one dash. What follows the letter of the log level is its text, after
an equals sign or not. -/
def short (r : Reading) (letters : List Char) : Except Refusal Reading :=
  match letters with
  | 'h' :: _ => r.request .help
  | 'V' :: _ => r.request .version
  | ['l'] => r.levelOption none
  | 'l' :: '=' :: text => r.levelOption (some (String.ofList text))
  | 'l' :: text => r.levelOption (some (String.ofList text))
  | _ => .error .unknownArgument

/-- Reads any other argument: the log level, if that is what is still to come. -/
def word (r : Reading) (text : String) : Except Refusal Reading :=
  if r.pending = some none then .ok { r with pending := some (some text) }
  else .error .unknownArgument

/-- Reads one argument other than a bare pair of dashes. -/
def argument (r : Reading) (arg : String) : Except Refusal Reading :=
  match arg.toList with
  | '-' :: '-' :: rest =>
    r.long (String.ofList (rest.takeWhile (· ≠ '=')))
      (((rest.dropWhile (· ≠ '=')).tail?).map String.ofList)
  | '-' :: letter :: rest => r.short (letter :: rest)
  | _ => r.word arg

/-- Reads all arguments. After a bare pair of dashes there may be no more. -/
def arguments (r : Reading) : List String → Except Refusal Reading
  | [] => r.settle
  | "--" :: rest => if rest.isEmpty then r.settle else .error .unknownArgument
  | arg :: rest =>
    match r.argument arg with
    | .ok r => r.arguments rest
    | .error e => .error e

end Reading

/-- What the arguments ask for. Without a log level, lines up to `info` are written. -/
def parse (args : List String) : Except Refusal CommandLine :=
  (Reading.initial.arguments args).map fun r => ⟨r.options, r.level.getD .info⟩

/-- How the program is called. -/
def usage : List String :=
  ["method handle runtime demo", "", "Options:"] ++
    Switch.all.map (fun s => "      --" ++ s.name ++ "  " ++ s.purpose) ++
    ["  -l, --log-level <LEVEL>  off, error, warn, info, debug or trace",
      "  -h, --help  print this text", "  -V, --version  print the version"]

end CommandLine

end HandleCalculus
