import HandleCalculus.CommandLine
import HandleCalculus.World

/-!
# The demonstration

A class of greetings, a handle with an argument bound, one with its result filtered, a call site
that is retargeted from the one to a choice between the two, and a generic call. Every step is
noted in the log; the last note counts what was compiled, cached and looked up.
-/

set_option autoImplicit false

namespace HandleCalculus.Demo

/-- A part of the demonstration. -/
abbrev Act := EStateM Stop World

/-- An error, if there is one, ends the demonstration. -/
def lift {α : Type} (x : World → Except Error α × World) : Act α := fun w =>
  match x w with
  | (.ok a, w) => .ok a w
  | (.error e, w) => .error (.error e) w

/-- Makes handles. -/
def link {α : Type} (x : Link α) : Act α := lift (·.link x)

/-- Makes a signature. -/
def signature (ret : Ty) (params : List Ty) : Act Signature :=
  link (Link.ofExcept (Signature.of ret params))

/-- The string that calling a handle answers. -/
def text (call : Program → Run Value) : Act String := fun w =>
  match w.run (call w.program) with
  | (.ok (.obj (.str s)), w) => .ok s w
  | (.ok v, w) => .error (.error (.value (.cannotBind .string (.cannotCast v .string)))) w
  | (.error s, w) => .error s w

/-- Calls a handle that answers a string. -/
def ask (h : Handle) (args : List String) : Act String :=
  text fun P => h.invokeExact P World.callDepth (args.map Value.string)

/-- Notes a line. -/
def note (line : String) : Act Unit := fun w =>
  .ok () { w with machine := w.machine.report (.note line) }

/-- Notes what a handle answers. -/
def showHandle (h : Handle) (args : List String) : Act Unit := do
  let answer ← ask h args
  let w ← EStateM.get
  note (h.text w.graph ++ " -> " ++ answer)

/-- Notes what a handle answers to each of several names. -/
def showSite (h : Handle) : List String → Act Unit
  | [] => pure ()
  | name :: names => do
    let answer ← ask h [name]
    note ("site(" ++ name ++ ") -> " ++ answer)
    showSite h names

/-! ## The class -/

/-- The flags of the greeting methods. -/
def methodFlags : Flags := ⟨Flags.publicBit ||| Flags.staticBit⟩

/-- The greeting methods with their scripts. -/
def methods : List (MethodDecl × Option Script) :=
  [ (.withBody "greet" ⟨[.string, .string], .string⟩ methodFlags,
      some (.str [.arg 0, .val (.string ", "), .arg 1, .val (.string "!")])),
    (.withBody "shout" ⟨[.string], .string⟩ methodFlags, some (.upper (.arg 0))),
    (.withBody "isLoud" ⟨[.string], .boolean⟩ methodFlags, some (.endsWith (.arg 0) '!')) ]

/-- The class of greetings. -/
def greeter : ClassDecl :=
  ⟨"demo/Greeter", Flags.plainPublic, .bootstrap, some ClassId.object, [],
    methods.map Prod.fst, []⟩

/-- Defines the class of greetings. -/
def defineGreeter : Act ClassId := lift fun w =>
  match w.define greeter (methods.map Prod.snd) with
  | some (.ok (c, w)) => (.ok c, w)
  | some (.error e) => (.error e, w)
  | none => (.error (.resolution (.noSuchClass greeter.name)), w)

/-! ## The show -/

/-- The whole demonstration. -/
def acts : Act Unit := do
  let c ← defineGreeter
  let lookup := Lookup.full c
  let find := fun (name : String) (type : Signature) => (do
    let w ← EStateM.get
    link (lookup.findStatic w.classes c name type) : Act Handle)
  let greet ← find "greet" (← signature .string [.string, .string])
  let shout ← find "shout" (← signature .string [.string])
  let isLoud ← find "isLoud" (← signature .boolean [.string])
  let G := (← EStateM.get).graph
  let hello ← link (Link.build fun s => greet.insertArguments G s 0 [.string "Hello"])
  let loudHello ← link (Link.build fun s => hello.filterReturnValue s shout)
  showHandle hello ["world"]
  showHandle loudHello ["world"]
  let site ← lift fun w =>
    let (site, w) := w.addSite (.ofTarget .mutable hello)
    (.ok site, w)
  let invoker ← lift (·.dynamicInvoker site)
  showSite invoker ["ada", "grace!"]
  let choice ← link (Link.build fun s => Handle.guardWithTest s isLoud loudHello hello)
  lift fun w =>
    match w.setTarget site choice with
    | .ok w => (.ok (), w)
    | .error e => (.error e, w)
  showSite invoker ["ada", "grace!"]
  let answer ← text fun P =>
    greet.invokeGeneric P World.callDepth [.string "Hi", .string "there"]
  note ("invoke_with_arguments -> " ++ answer)
  let w ← EStateM.get
  let compiled := w.machine.thunks.cache.compilations
  let cached := w.machine.thunks.cache.size
  let epoch := ((w.site? site).map (·.epoch)).getD 0
  let hits := w.machine.members.hits
  let misses := w.machine.members.misses
  note (s!"thunks: {compiled} compiled, {cached} cached; call site epoch {epoch}; " ++
    s!"member cache {hits} hits / {misses} misses")

/-- What a run of the program comes to: its exit code and the lines it writes. -/
structure Outcome where
  exitCode : Nat
  lines : List String

/-- The demonstration with the given options, its log written up to the level. -/
def perform (c : CommandLine) : Outcome :=
  let (exitCode, w) :=
    match acts (World.initial c.options) with
    | .ok _ w => (0, w)
    | .error _ w => (1, w)
  let lines := w.takeLog.1.filter (c.level.admits ·.level)
  ⟨exitCode, lines.map LogLine.console⟩

/-- The program: the demonstration, unless the arguments are refused. -/
def program (args : List String) : Outcome :=
  match CommandLine.parse args with
  | .ok c => perform c
  | .error refusal => ⟨refusal.exitCode, []⟩

end HandleCalculus.Demo
