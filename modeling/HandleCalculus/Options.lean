/-!
# Options

What is traced and whether member handles are cached.
-/

set_option autoImplicit false

namespace HandleCalculus

/-- The switches of the runtime. -/
structure Options where
  traceThunks : Bool
  traceAccess : Bool
  traceLookups : Bool
  traceRelinks : Bool
  memberCache : Bool
  deriving DecidableEq, Repr

namespace Options

/-- The switches where nobody sets them: relinks are traced, member handles cached. -/
def standard : Options := ⟨false, false, false, true, true⟩

/-- The switches for quiet runs: nothing is traced. -/
def quiet : Options := ⟨false, false, false, false, true⟩

end Options

/-- How much is logged; each level includes those before it. -/
inductive LogLevel where
  | off | error | warn | info | debug | trace
  deriving DecidableEq, Repr

namespace LogLevel

def all : List LogLevel := [off, error, warn, info, debug, trace]

/-- The place of a level, the quietest first. -/
def rank : LogLevel → Nat
  | off => 0
  | error => 1
  | warn => 2
  | info => 3
  | debug => 4
  | trace => 5

/-- The name of a level, in upper case. -/
def name : LogLevel → String
  | off => "OFF"
  | error => "ERROR"
  | warn => "WARN"
  | info => "INFO"
  | debug => "DEBUG"
  | trace => "TRACE"

/-- The level that a name stands for, in whatever case of the ASCII letters. -/
def ofName? (s : String) : Option LogLevel :=
  all.find? fun l => l.name == String.ofList (s.toList.map Char.toUpper)

/-- Whether lines of the level `line` are written when logging up to `limit`. -/
def admits (limit line : LogLevel) : Bool := line.rank ≤ limit.rank

end LogLevel

end HandleCalculus
