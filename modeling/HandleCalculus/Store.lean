import HandleCalculus.CallSite
import HandleCalculus.Event

/-!
# The store

Everything that a method body can see change: the slots of instances, the static slots of classes
and the call sites. An instance is numbered by the place of its slots; arrays and throwables, which
have none, take the next number of a counter of their own. What happens on the way is logged.
-/

set_option autoImplicit false

namespace HandleCalculus

/-- The mutable part of a program's state. -/
structure Store where
  /-- The slots of each instance. -/
  instances : Array (Array Value)
  /-- The class of each instance. -/
  classes : Array ClassId
  /-- The static slots of each class. -/
  statics : Array (Array Value)
  /-- How many arrays and throwables have been made. -/
  minted : Nat
  /-- The call sites. -/
  sites : Array CallSite
  /-- What happened, oldest first. -/
  log : Array Event

namespace Store

/-- The store of a program that has only the bootstrap classes. -/
def initial : Store := ⟨#[], #[], Array.replicate bootstrapCount #[], 0, #[], #[]⟩

def report (s : Store) (e : Event) : Store := { s with log := s.log.push e }

/-! ## Objects -/

/-- A new instance of a class, every slot at the zero of its type. -/
def newInstance (s : Store) (G : ClassGraph) (c : ClassId) : Object × Store :=
  (.inst s.instances.size c,
    { s with
      instances := s.instances.push ((G.layout c).map Value.zero).toArray
      classes := s.classes.push c })

/-- A new array. -/
def newArray (s : Store) (component : Ty) (elems : List Value) : Object × Store :=
  (.array s.minted component elems, { s with minted := s.minted + 1 })

/-- A new throwable. -/
def newThrowable (s : Store) (c : ClassId) (msg : Option String) : Object × Store :=
  (.throwable s.minted c msg, { s with minted := s.minted + 1 })

/-- Room for the static slots of the class defined last. -/
def addClass (s : Store) (d : ClassDecl) : Store :=
  { s with statics := s.statics.push (d.staticTypes.map Value.zero).toArray }

/-! ## Slots -/

/-- The slots of an object; only instances have any. -/
def slotsOf? (s : Store) : Object → Option (Array Value)
  | .inst id _ => s.instances[id]?
  | _ => none

/-- Reads an instance slot. -/
def readField (s : Store) (o : Object) (offset : Nat) : Except Error Value :=
  match (s.slotsOf? o).bind (·[offset]?) with
  | some v => .ok v
  | none => .error (.missingSlot offset (.object o))

/-- Writes an instance slot. -/
def writeField (s : Store) (o : Object) (offset : Nat) (v : Value) : Except Error Store :=
  match o, s.slotsOf? o with
  | .inst id _, some slots =>
    if offset < slots.size then
      .ok { s with instances := s.instances.setIfInBounds id (slots.setIfInBounds offset v) }
    else .error (.missingSlot offset (.object o))
  | _, _ => .error (.missingSlot offset (.object o))

/-- Reads a static slot. -/
def readStatic (s : Store) (c : ClassId) (offset : Nat) : Except Error Value :=
  match (s.statics[c]?).bind (·[offset]?) with
  | some v => .ok v
  | none => .error (.missingSlot offset (.cls c))

/-- Writes a static slot. -/
def writeStatic (s : Store) (c : ClassId) (offset : Nat) (v : Value) : Except Error Store :=
  match s.statics[c]? with
  | some slots =>
    if offset < slots.size then
      .ok { s with statics := s.statics.setIfInBounds c (slots.setIfInBounds offset v) }
    else .error (.missingSlot offset (.cls c))
  | none => .error (.missingSlot offset (.cls c))

/-! ## Call sites -/

/-- Adds a call site. -/
def addSite (s : Store) (site : CallSite) : SiteId × Store :=
  (s.sites.size, { s with sites := s.sites.push site })

/-- The current target of a site. A number that is no site has none. -/
def getTarget (s : Store) (id : SiteId) : Except Error Handle :=
  match s.sites[id]? with
  | some site => site.getTarget
  | none => .error .notYetBound

/-- Binds a constant site that has no target yet. -/
def bindTarget (s : Store) (id : SiteId) (h : Handle) : Except Error Store :=
  match s.sites[id]? with
  | none => .error .notYetBound
  | some site =>
    match site.bind h with
    | .error e => .error e
    | .ok site => .ok { s with sites := s.sites.setIfInBounds id site }

/-- A handle that calls whatever the target of a site is by then. -/
def dynamicInvoker (s : Store) (id : SiteId) (stamp : Stamp) : Except Error Handle :=
  match s.sites[id]? with
  | none => .error .notYetBound
  | some site => site.dynamicInvoker id stamp

/-- Retargets a site and reports it. -/
def setTarget (s : Store) (id : SiteId) (h : Handle) : Except Error Store :=
  match s.sites[id]? with
  | none => .error .notYetBound
  | some site =>
    match site.setTarget h with
    | .error e => .error e
    | .ok (site, inPlace) =>
      .ok ({ s with sites := s.sites.setIfInBounds id site }.report
        (.relinked site.kind site.type inPlace site.epoch))

end Store

end HandleCalculus
