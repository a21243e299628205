import HandleCalculus.Store
import HandleCalculus.Handle.Adapt
import HandleCalculus.CompileOnce.Cache
import HandleCalculus.MemberCache

/-!
# The machine

The whole state in which handles are made and called: the store, the compiled thunks, what
variable-arity handles remember, the member cache, the supply of identities, and the method bodies
that have run. Handles are made in `Link`, which can only fail with an error of the calculus;
they are called in `Run`, which can also stop with a fault (a routine reached past its arguments)
or because the depth allowed is used up. State is kept however a computation ends.
-/

set_option autoImplicit false

namespace HandleCalculus

/-- Compiled dispatch code for one key: which entry routine to run, and the slots it takes. -/
structure Thunk where
  key : ThunkKey
  argSlots : Nat
  ret : Carrier
  id : Nat
  deriving DecidableEq

/-- Compiles the thunk of a key under the number `id`. A shape with too many slots cannot be
compiled. -/
def Thunk.compile (id : Nat) (key : ThunkKey) : Except CompileError Thunk :=
  if key.shape.slots > maxArgumentSlots then .error (.unsupportedShape key.shape.text)
  else .ok ⟨key, key.shape.slots, key.shape.ret, id⟩

/-- The thunks compiled so far and the number that the next one gets. -/
structure ThunkTable where
  cache : CompileOnce.Cache ThunkKey Thunk
  nextId : Nat

namespace ThunkTable

def empty : ThunkTable := ⟨.empty, 0⟩

/-- The thunk of a key, compiled now if it is not there, with what there is to report. -/
def get (t : ThunkTable) (key : ThunkKey) : Except Error Thunk × ThunkTable × List Event :=
  match t.cache.peek? key with
  | some thunk => (.ok thunk, t, [])
  | none =>
    match Thunk.compile t.nextId key with
    | .ok thunk =>
      let cache := (t.cache.get key (E := CompileError) (.ok thunk)).2
      (.ok thunk, ⟨cache, t.nextId + 1⟩, [.compiling key, .compiled thunk.id key])
    | .error e =>
      let cache := (t.cache.get key (.error e)).2
      (.error (.compile e), ⟨cache, t.nextId⟩, [.compiling key, .compileFailed key e])

end ThunkTable

/-- One run of a method body. -/
structure Call where
  method : MethodRef
  args : List Value

/-- The state in which handles are made and called. -/
structure Machine where
  store : Store
  thunks : ThunkTable
  /-- The thunk that each handle called so far keeps. A handle never changes, so its cell is found by
  its identity together with its key. -/
  cells : List ((Stamp × ThunkKey) × Thunk)
  /-- For each variable-arity handle, the collector it made last and for how many arguments. -/
  collectors : List (Stamp × (Nat × Handle))
  members : MemberCache
  nextStamp : Stamp
  /-- The method bodies run, oldest first. -/
  calls : Array Call

namespace Machine

def initial (memberCache : Bool) : Machine :=
  ⟨.initial, .empty, [], [], .empty memberCache, 0, #[]⟩

def report (m : Machine) (e : Event) : Machine := { m with store := m.store.report e }

end Machine

/-! ## Making handles -/

/-- A computation that makes handles. -/
abbrev Link := EStateM Error Machine

namespace Link

/-- What an error or a value of the pure calculus is here. -/
def ofExcept {α : Type} (x : Except Error α) : Link α := fun m =>
  match x with
  | .ok a => .ok a m
  | .error e => .error e m

theorem ofExcept_ok_bind {α β : Type} (a : α) (f : α → Link β) : (ofExcept (.ok a) >>= f) = f a :=
  pure_bind a f

/-- Makes a handle with a fresh identity; two identities are set aside for each. -/
def build (make : Stamp → Except Error Handle) : Link Handle := fun m =>
  match make m.nextStamp with
  | .ok h => .ok h { m with nextStamp := m.nextStamp + 2 }
  | .error e => .error e m

def report (e : Event) : Link Unit := fun m => .ok () (m.report e)

end Link

/-- A new collector for `count` arguments, which the variable-arity handle remembers. -/
def freshCollector (G : ClassGraph) (target : Handle) (array : Ty) (cell : Stamp) (count : Nat) :
    Link Handle := fun m =>
  match Link.build (fun s => target.asCollector G s array count) m with
  | .ok h m => .ok h { m with collectors := (cell, (count, h)) :: m.collectors }
  | .error e m => .error e m

/-- The collector that a variable-arity handle uses for `count` arguments: the one it made last if
that was for as many, else a new one. -/
def collectorFor (G : ClassGraph) (target : Handle) (array : Ty) (cell : Stamp) (count : Nat) :
    Link Handle := fun m =>
  match m.collectors.lookup cell with
  | some (n, h) => if n = count then .ok h m else freshCollector G target array cell count m
  | none => freshCollector G target array cell count m

/-- The handle under another signature. A variable-arity handle whose last parameter takes the
last argument as it is adapts its target; otherwise it collects as many trailing arguments as the
signature has too many. -/
def Handle.asType (G : ClassGraph) (h : Handle) (new : Signature) : Link Handle :=
  if new = h.type then pure h
  else
    match h.node with
    | .varargs target array cell =>
      let passesArray : Bool :=
        new.arity == h.type.arity &&
          match new.last?, target.type.last? with
          | some last, some targetLast => G.isAssignable last targetLast
          | _, _ => false
      if passesArray then Link.build fun s => target.convertTo G s new
      else if new.arity + 1 < h.type.arity then
        Link.ofExcept (.error
          (.misfit (.tooFewRequested h.type (h.type.arity - 1) new.arity)))
      else do
        let collector ← collectorFor G target array cell (new.arity + 1 - h.type.arity)
        Link.build fun s => collector.convertTo G s new
    | _ => Link.build fun s => h.convertTo G s new

/-! ## Calling handles -/

/-- Why a call stops without a value. -/
inductive Stop where
  /-- An error, which handlers may see. -/
  | error (e : Error)
  /-- The entry routine of a variant was given fewer arguments than it indexes. -/
  | fault (v : Variant)
  /-- The depth allowed was used up. -/
  | exhausted

/-- A computation that calls handles. -/
abbrev Run := EStateM Stop Machine

namespace Run

/-- What an error or a value of the pure calculus is here. -/
def ofExcept {α : Type} (x : Except Error α) : Run α := fun m =>
  match x with
  | .ok a => .ok a m
  | .error e => .error (.error e) m

/-- A computation that makes handles, as part of a call. -/
def link {α : Type} (x : Link α) : Run α := fun m =>
  match x m with
  | .ok a m => .ok a m
  | .error e m => .error (.error e) m

def fail {α : Type} (e : Error) : Run α := throw (.error e)

def fault {α : Type} (v : Variant) : Run α := throw (.fault v)

/-- A step that changes the store and makes an object. -/
def alloc (f : Store → Object × Store) : Run Object := fun m =>
  let (o, s) := f m.store
  .ok o { m with store := s }

/-- Reads the store. -/
def readStore {α : Type} (f : Store → Except Error α) : Run α := fun m =>
  match f m.store with
  | .ok a => .ok a m
  | .error e => .error (.error e) m

/-- Changes the store. -/
def writeStore (f : Store → Except Error Store) : Run Unit := fun m =>
  match f m.store with
  | .ok s => .ok () { m with store := s }
  | .error e => .error (.error e) m

/-- The outcome of a computation as a value, if it is a value or an error. -/
def attempt {α : Type} (x : Run α) : Run (Except Error α) := fun m =>
  match x m with
  | .ok a m => .ok (.ok a) m
  | .error (.error e) m => .ok (.error e) m
  | .error s m => .error s m

end Run

/-- The compiled thunk of a handle: the one it keeps, else the one the table has for its key,
which it keeps from then on. -/
def Handle.thunk (h : Handle) : Run Thunk := fun m =>
  match m.cells.lookup (h.stamp, h.key) with
  | some t => .ok t m
  | none =>
    match m.thunks.get h.key with
    | (result, thunks, events) =>
      let m := events.foldl Machine.report { m with thunks := thunks }
      match result with
      | .ok t => .ok t { m with cells := ((h.stamp, h.key), t) :: m.cells }
      | .error e => .error (.error e) m

end HandleCalculus
