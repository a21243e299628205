import HandleCalculus.CallSite
import HandleCalculus.Handle.Key
import HandleCalculus.Options
import HandleCalculus.RefKind

/-!
# Events

What the runtime reports while it works, as data; `Event.line` words it. Some events are reported
only if an option asks for them (`Event.wanted`).
-/

set_option autoImplicit false

namespace HandleCalculus

/-- Something worth a line in the log. -/
inductive Event where
  | classDefined (c : ClassId)
  | classChecked (lookup : Lookup) (c : ClassId) (allowed : Bool)
  | memberChecked (lookup : Lookup) (member : MemberRef) (allowed : Bool)
  | memberFound (kind : RefKind) (c : ClassId) (name : String) (type : Signature) (cached : Bool)
  | unreflecting (f : FieldRef) (kind : RefKind)
  | relinked (kind : SiteKind) (type : Signature) (inPlace : Bool) (epoch : Nat)
  | compiling (key : ThunkKey)
  | compiled (id : Nat) (key : ThunkKey)
  | compileFailed (key : ThunkKey) (e : CompileError)
  | note (text : String)

/-- A line of the log: how urgent it is, which part of the program reports it, and its words. -/
structure LogLine where
  level : LogLevel
  target : String
  text : String

namespace LogLine

/-- The line of a compilation of the thunk for a key, given as text. -/
def compiling (key : String) : LogLine := ⟨.trace, "thunk_cache", "compiling thunk for " ++ key⟩

/-- The line of a failed compilation. -/
def compileFailed (key : String) (e : CompileError) : LogLine :=
  ⟨.trace, "thunk_cache", "thunk compilation for " ++ key ++ " failed: " ++ e.message⟩

/-- A line with its level and target in front. -/
def full (l : LogLine) : String := l.level.name ++ " " ++ l.target ++ ": " ++ l.text

/-- A line as the program prints it: the level in five columns, the target in brackets. -/
def console (l : LogLine) : String :=
  l.level.name ++ String.ofList (List.replicate (5 - l.level.name.length) ' ') ++
    " [" ++ l.target ++ "] " ++ l.text

end LogLine

namespace Event

/-- Whether an event is reported under the options. -/
def wanted (o : Options) : Event → Bool
  | classChecked .. | memberChecked .. => o.traceAccess
  | memberFound .. => o.traceLookups
  | relinked .. => o.traceRelinks
  | compiled .. => o.traceThunks
  | classDefined _ | unreflecting .. | compiling _ | compileFailed .. | note _ => true

private def verdict (allowed : Bool) : String := if allowed then "allowed" else "denied"

/-- The part of the program that reports what its options trace. -/
def tracingTarget : String := "method_handles::tracing"

/-- The line of an event. -/
def line (G : ClassGraph) : Event → LogLine
  | classDefined c => ⟨.debug, "runtime_classes::class_table", "defined class " ++ G.text c⟩
  | classChecked l c allowed =>
    ⟨.trace, tracingTarget,
      "access check " ++ l.text G ++ " -> " ++ G.text c ++ ": " ++ verdict allowed⟩
  | memberChecked l m allowed =>
    ⟨.trace, tracingTarget,
      "access check " ++ l.text G ++ " -> " ++ m.text G ++ ": " ++ verdict allowed⟩
  | memberFound kind c name type cached =>
    ⟨.trace, tracingTarget,
      kind.name ++ " " ++ Text.quoted (G.name c ++ "." ++ name ++ type.text G) ++
        (if cached then " (cached)" else "")⟩
  | unreflecting f kind =>
    ⟨.trace, "method_handles::lookup", "unreflecting " ++ G.fieldText f ++ " as " ++ kind.name⟩
  | relinked kind type inPlace epoch =>
    let site := kind.name ++ "CallSite" ++ type.text G
    ⟨.debug, tracingTarget,
      if inPlace then "relinked " ++ site ++ " in place"
      else "invalidated " ++ site ++ s!", epoch now {epoch}"⟩
  | compiling key => LogLine.compiling key.text
  | compiled id key => ⟨.debug, tracingTarget, s!"compiled thunk #{id} for " ++ key.text⟩
  | compileFailed key e => LogLine.compileFailed key.text e
  | note text => ⟨.info, "mh_demo", text⟩

end Event

end HandleCalculus
