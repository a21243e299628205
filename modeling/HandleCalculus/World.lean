import HandleCalculus.Script
import HandleCalculus.Lookup

/-!
# Worlds

A whole program with its state: the classes and loaders, the scripts of the methods, and the
machine. Handles are made and called in a world.
-/

set_option autoImplicit false

namespace HandleCalculus

/-- A program and its state. -/
structure World where
  classes : Classes
  /-- The scripts of the methods of each class. -/
  scripts : Array (List (Option Script))
  machine : Machine
  options : Options

namespace World

/-- The world that has only the bootstrap classes. -/
def initial (options : Options) : World :=
  ⟨.initial, Array.replicate bootstrapCount [], .initial options.memberCache, options⟩

def graph (w : World) : ClassGraph := w.classes.graph

/-- The script of a method. -/
def script (w : World) (m : MethodRef) : Script :=
  (((w.scripts[m.cls]?.getD [])[m.index.toNat]?).getD none).getD .malformed

/-- The program of the world: each method runs its script. -/
def program (w : World) : Program := ⟨w.graph, fun m args => (w.script m).eval w.graph args⟩

/-- Calls nest at most this deep, which is deeper than the memory for calls under way lets them get
on its own. -/
def callDepth : Nat := 1000000

/-- Makes handles in the world. -/
def link {α : Type} (w : World) (x : Link α) : Except Error α × World :=
  match x w.machine with
  | .ok a m => (.ok a, { w with machine := m })
  | .error e m => (.error e, { w with machine := m })

/-- Calls handles in the world. -/
def run {α : Type} (w : World) (x : Run α) : Except Stop α × World :=
  match x w.machine with
  | .ok a m => (.ok a, { w with machine := m })
  | .error s m => (.error s, { w with machine := m })

/-- Changes the store of the world. -/
def withStore (w : World) (s : Store) : World :=
  { w with machine := { w.machine with store := s } }

/-- Adds a user loader that delegates to `parent`. -/
def addLoader (w : World) (parent : Loader) : Loader × World :=
  let (loader, table) := w.classes.table.addLoader parent
  (loader, { w with classes := { w.classes with table := table } })

/-- Registers a class under its loader and name. -/
def register (w : World) (c : ClassId) : Except Error World :=
  match w.classes.table.register w.graph c with
  | .error e => .error (.resolution e)
  | .ok table =>
    .ok { w with
      classes := { w.classes with table := table }
      machine := w.machine.report (.classDefined c) }

/-- Adds a class, whose supertypes must be there, without registering it. -/
def declare (w : World) (d : ClassDecl) (scripts : List (Option Script)) :
    Option (ClassId × World) :=
  match w.graph.define d with
  | none => none
  | some (c, graph) =>
    some (c, ({ w with
      classes := { w.classes with graph := graph }
      scripts := w.scripts.push scripts } : World).withStore (w.machine.store.addClass d))

/-- Adds and registers a class. A class that cannot be registered is not added. -/
def define (w : World) (d : ClassDecl) (scripts : List (Option Script)) :
    Option (Except Error (ClassId × World)) :=
  (w.declare d scripts).map fun (c, w) => (w.register c).map fun w => (c, w)

/-! ## Call sites -/

/-- Adds a call site. -/
def addSite (w : World) (site : CallSite) : SiteId × World :=
  let (id, store) := w.machine.store.addSite site
  (id, w.withStore store)

/-- Adds a call site that fails until it is retargeted. Its target takes a fresh identity. -/
def addUnlinkedSite (w : World) (kind : SiteKind) (type : Signature) : SiteId × World :=
  let m := w.machine
  let fresh : World := { w with machine := { m with nextStamp := m.nextStamp + 2 } }
  fresh.addSite (.unlinked m.nextStamp kind type)

/-- The call site of a number. -/
def site? (w : World) (id : SiteId) : Option CallSite := w.machine.store.sites[id]?

/-- Retargets a call site. -/
def setTarget (w : World) (id : SiteId) (h : Handle) : Except Error World :=
  (w.machine.store.setTarget id h).map w.withStore

/-- A handle that calls whatever a call site's target is by then. -/
def dynamicInvoker (w : World) (id : SiteId) : Except Error Handle × World :=
  w.link (Link.build (w.machine.store.dynamicInvoker id))

/-- Adds a constant call site and binds it to what `hook` computes. The hook may use the site, which
has no target yet. If binding fails the site stays without one. -/
def addBoundSite (w : World) (type : Signature)
    (hook : SiteId → World → Except Error Handle × World) :
    SiteId × Except Error Unit × World :=
  let (id, w) := w.addSite (.unbound type)
  match hook id w with
  | (.error e, w) => (id, .error e, w)
  | (.ok h, w) =>
    match w.machine.store.bindTarget id h with
    | .error e => (id, .error e, w)
    | .ok s => (id, .ok (), w.withStore s)

/-! ## What there is to see -/

/-- The lines of the log that the options ask for, and a world that has logged nothing. -/
def takeLog (w : World) : List LogLine × World :=
  let s := w.machine.store
  let lines := s.log.toList.filter (·.wanted w.options) |>.map (·.line w.graph)
  (lines, w.withStore { s with log := #[] })

/-- The method bodies run, and a world that has run none. -/
def takeCalls (w : World) : List Call × World :=
  (w.machine.calls.toList, { w with machine := { w.machine with calls := #[] } })

end World

/-- A run of a method body as text: the method and its arguments. -/
def Call.text (G : ClassGraph) (c : Call) : String :=
  G.name c.method.cls ++ "." ++ (G.method c.method).name ++
    Text.bracketed (Value.texts G c.args)

end HandleCalculus
