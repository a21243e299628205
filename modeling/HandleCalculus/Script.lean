import HandleCalculus.Invocation

/-!
# Scripts

A small language for method bodies: expressions over the arguments that make values and objects,
read and write slots, throw, and retarget call sites, but call no handles. Operands are evaluated
from left to right. An operand of the wrong form throws an `Error` with the message `bad body`,
before the next operand is evaluated.
-/

set_option autoImplicit false

namespace HandleCalculus

/-- The source of a method body. -/
inductive Script where
  | arg (i : Nat)
  | val (v : Value)
  /-- The texts of the parts, one after the other. -/
  | str (parts : List Script)
  | add (a b : Script)
  | mul (a b : Script)
  | addLong (a b : Script)
  | less (a b : Script)
  /-- Whether the operands are the same, whatever the classes of wrappers are. -/
  | same (a b : Script)
  /-- Whether the operand is an object of the type. -/
  | isInstance (e : Script) (t : Ty)
  | cond (c a b : Script)
  /-- The last operand; nothing if there is none. -/
  | seq (parts : List Script)
  | get (o : Script) (slot : Nat)
  | set (o : Script) (slot : Nat) (e : Script)
  /-- The sum of an array of `int`s. -/
  | sum (e : Script)
  | length (e : Script)
  | box (e : Script)
  | new (c : ClassId)
  | array (component : Ty) (elems : List Script)
  | throw (c : ClassId) (msg : Script)
  | raise (e : Script)
  /-- The message of a throwable, with the mark for identities in numeric form; else null. -/
  | message (e : Script)
  | className (e : Script)
  /-- Retargets a call site; whether that succeeded. -/
  | retarget (site : SiteId) (target : Handle)
  | upper (e : Script)
  | endsWith (e : Script) (c : Char)
  /-- What has no meaning. -/
  | malformed

namespace Script

/-- A computation of a body: it may throw an object. -/
abbrev Eval := EStateM Object Store

/-- A step that changes the store and makes an object. -/
def alloc (f : Store → Object × Store) : Eval Object := fun s =>
  let (o, s) := f s
  .ok o s

/-- Throws a new throwable. -/
def throwNew {α : Type} (c : ClassId) (msg : String) : Eval α := do
  let o ← alloc (·.newThrowable c (some msg))
  MonadExcept.throw o

/-- What a malformed expression throws. -/
def bad {α : Type} : Eval α := throwNew ClassId.error "bad body"

/-- A value that there may be. -/
def orBad {α : Type} : Option α → Eval α
  | some a => pure a
  | none => bad

/-- The text of a value as part of a longer one: a string stands as it is, any other value shows the
mark for an identity in numeric form. -/
def plainText (G : ClassGraph) : Value → String
  | .obj (.str s) => s
  | v => Text.maskIdentities (v.text G)

def int? : Value → Option Int32
  | .prim (.int n) => some n
  | _ => none

def long? : Value → Option Int64
  | .prim (.long n) => some n
  | _ => none

def boolean? : Value → Option Bool
  | .prim (.boolean b) => some b
  | _ => none

def string? : Value → Option String
  | .obj (.str s) => some s
  | _ => none

def elements? (v : Value) : Option (List Value) := v.object?.bind Object.elements?

/-- The sum of `int`s, modulo the range of the type. -/
def sumInts? : List Value → Option Int32
  | [] => some 0
  | v :: vs => do
    let n ← int? v
    let m ← sumInts? vs
    return n + m

mutual

/-- The value of an expression. -/
def eval (G : ClassGraph) (args : List Value) : Script → Eval Value
  | .arg i => orBad args[i]?
  | .val v => pure v
  | .str parts => do
    let vs ← evalAll G args parts
    return .string (String.join (vs.map (plainText G)))
  | .add a b => do
    let m ← orBad (int? (← eval G args a))
    let n ← orBad (int? (← eval G args b))
    return .prim (.int (m + n))
  | .mul a b => do
    let m ← orBad (int? (← eval G args a))
    let n ← orBad (int? (← eval G args b))
    return .prim (.int (m * n))
  | .addLong a b => do
    let m ← orBad (long? (← eval G args a))
    let n ← orBad (long? (← eval G args b))
    return .prim (.long (m + n))
  | .less a b => do
    let m ← orBad (int? (← eval G args a))
    let n ← orBad (int? (← eval G args b))
    return .prim (.boolean (decide (m < n)))
  | .same a b => do
    let x ← eval G args a
    let y ← eval G args b
    return .prim (.boolean (x.same y))
  | .isInstance e t => do
    let v ← eval G args e
    return .prim (.boolean (v.object?.any (·.isInstance G t)))
  | .cond c a b => do
    let v ← eval G args c
    match ← orBad (boolean? v) with
    | true => eval G args a
    | false => eval G args b
  | .seq parts => do
    let vs ← evalAll G args parts
    return vs.getLast?.getD .void
  | .get o slot => do
    let v ← eval G args o
    let target ← orBad v.object?
    let s ← EStateM.get
    match s.readField target slot with
    | .ok w => pure w
    | .error _ => bad
  | .set o slot e => do
    let v ← eval G args o
    let target ← orBad v.object?
    let w ← eval G args e
    let s ← EStateM.get
    match s.writeField target slot w with
    | .ok s => EStateM.set s
    | .error _ => bad
    return .void
  | .sum e => do
    let v ← eval G args e
    let n ← orBad ((elements? v).bind sumInts?)
    return .prim (.int n)
  | .length e => do
    let v ← eval G args e
    let es ← orBad (elements? v)
    return .prim (.int (Int32.ofNat es.length))
  | .box e => do
    let v ← eval G args e
    return v.boxed
  | .new c => do
    let o ← alloc (·.newInstance G c)
    return .obj o
  | .array component elems => do
    let vs ← evalAll G args elems
    let o ← alloc (·.newArray component vs)
    return .obj o
  | .throw c msg => do
    let v ← eval G args msg
    throwNew c (plainText G v)
  | .raise e => do
    let v ← eval G args e
    let o ← orBad v.object?
    MonadExcept.throw o
  | .message e => do
    let v ← eval G args e
    let o ← orBad v.object?
    match o.message? with
    | some msg => return .string (Text.maskIdentities msg)
    | none => return .null
  | .className e => do
    let v ← eval G args e
    let o ← orBad v.object?
    return .string (G.name o.cls)
  | .retarget site target => do
    let s ← EStateM.get
    match s.setTarget site target with
    | .ok s =>
      EStateM.set s
      return .prim (.boolean true)
    | .error _ => return .prim (.boolean false)
  | .upper e => do
    let v ← eval G args e
    let s ← orBad (string? v)
    return .string (String.ofList (s.toList.map Char.toUpper))
  | .endsWith e c => do
    let v ← eval G args e
    let s ← orBad (string? v)
    return .prim (.boolean (s.toList.getLast? == some c))
  | .malformed => bad
termination_by structural e => e

/-- The values of several expressions, the first one first. -/
def evalAll (G : ClassGraph) (args : List Value) : List Script → Eval (List Value)
  | [] => pure []
  | e :: es => do
    let v ← eval G args e
    let vs ← evalAll G args es
    return v :: vs
termination_by structural es => es

end

end Script

end HandleCalculus
