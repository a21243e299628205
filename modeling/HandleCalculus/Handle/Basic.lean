import HandleCalculus.Signature.Basic
import HandleCalculus.ClassGraph.Members
import HandleCalculus.Conversion

/-!
# Handles

A handle is an immutable typed callable: a signature and a node that says what a call does. The
nodes are the leaves of the calculus (a method, a field, a constant, …) and its combinators, which
hold other handles. As values they are trees; a stamp tells two handles with the same contents
apart. What two handles can share beyond their parts is named by numbers: a call site by its place
in the store, the collector that a variable-arity handle remembers by the stamp it was made under.
-/

set_option autoImplicit false

namespace HandleCalculus

/-- The identity of a handle. -/
abbrev Stamp := Nat

/-- The number of a call site in the store. -/
abbrev SiteId := Nat

/-- How a method is called without dispatch. -/
inductive DirectMode where
  | static | special
  /-- Make an instance, run the method on it, answer the instance. -/
  | construct
  deriving DecidableEq, Repr

/-- The name of a mode. -/
def DirectMode.name : DirectMode → String
  | static => "Static"
  | special => "Special"
  | construct => "Constructor"

/-- What a call of a handle does, over the handles `H` that it holds. -/
inductive Node (H : Type) where
  /-- Run one method. -/
  | direct (m : MethodRef) (mode : DirectMode)
  /-- Run the method that the receiver's class selects. -/
  | virtual (m : MethodRef) (dispatch : ClassId) (interface : Bool)
  /-- Read a field, by the slot access given. -/
  | getField (f : FieldRef) (isStatic : Bool) (access : AccessId)
  /-- Write a field, by the slot access given. -/
  | setField (f : FieldRef) (isStatic : Bool) (access : AccessId)
  /-- Pass `values` from position `pos` on. -/
  | insert (target : H) (pos : Nat) (values : List Value)
  /-- Pass as argument `i` the incoming argument `reorder[i]`. -/
  | permute (target : H) (reorder : List Nat)
  /-- Pass `count` arguments from `pos` on as one array. -/
  | collect (target : H) (pos count : Nat) (array : Ty)
  /-- Pass the elements of the array at `pos` as `count` arguments. -/
  | spread (target : H) (pos count : Nat) (array : Ty)
  /-- Pass the arguments from `pos` on through filters, where there are any. -/
  | filterArgs (target : H) (pos : Nat) (filters : List (Option H))
  /-- Pass the result through a filter. -/
  | filterReturn (target filter : H)
  /-- Run the combiner on the arguments at `pos` and pass its result in front of them. -/
  | fold (target : H) (pos : Nat) (combiner : H)
  /-- Choose by a test on the first arguments. -/
  | guarded (test target fallback : H)
  /-- Run the handler on throwables of a class. -/
  | catching (target : H) (cls : ClassId) (handler : H)
  /-- Convert arguments and result. -/
  | convert (target : H) (args : List Conversion) (ret : Conversion)
  /-- Answer a fixed value. -/
  | constant (value : Value)
  /-- Answer the first argument. -/
  | identity
  /-- Call the target; `asType` collects trailing arguments into an array. -/
  | varargs (target : H) (array : Ty) (cell : Stamp)
  /-- Call the current target of a call site. -/
  | invoker (site : SiteId)
  /-- Fail with a message. -/
  | unlinked (message : String)
  /-- Throw the first argument. -/
  | throwing

/-- The variant of a node, by which its entry routine is chosen. -/
inductive Variant where
  | direct | virtual | getField | setField | insert | permute | collect | spread | filterArgs
  | filterReturn | fold | guarded | catching | convert | constant | identity | varargs | invoker
  | unlinked | throwing
  deriving DecidableEq, Repr

namespace Variant

def all : List Variant :=
  [direct, virtual, getField, setField, insert, permute, collect, spread, filterArgs,
    filterReturn, fold, guarded, catching, convert, constant, identity, varargs, invoker,
    unlinked, throwing]

/-- The name of a variant in handle texts. -/
def name : Variant → String
  | direct => "Direct"
  | virtual => "Virtual"
  | getField => "FieldGetter"
  | setField => "FieldSetter"
  | insert => "Insert"
  | permute => "Permute"
  | collect => "Collect"
  | spread => "Spread"
  | filterArgs => "FilterArguments"
  | filterReturn => "FilterReturn"
  | fold => "Fold"
  | guarded => "GuardWithTest"
  | catching => "Catch"
  | convert => "Convert"
  | constant => "Constant"
  | identity => "Identity"
  | varargs => "VarargsCollector"
  | invoker => "DynamicInvoker"
  | unlinked => "Unlinked"
  | throwing => "Throw"

/-- The variant that a name stands for. -/
def ofName? (s : String) : Option Variant := all.find? (·.name == s)

end Variant

/-- The variant of a node. -/
def Node.variant {H : Type} : Node H → Variant
  | .direct .. => .direct
  | .virtual .. => .virtual
  | .getField .. => .getField
  | .setField .. => .setField
  | .insert .. => .insert
  | .permute .. => .permute
  | .collect .. => .collect
  | .spread .. => .spread
  | .filterArgs .. => .filterArgs
  | .filterReturn .. => .filterReturn
  | .fold .. => .fold
  | .guarded .. => .guarded
  | .catching .. => .catching
  | .convert .. => .convert
  | .constant .. => .constant
  | .identity => .identity
  | .varargs .. => .varargs
  | .invoker .. => .invoker
  | .unlinked .. => .unlinked
  | .throwing => .throwing

/-- The handles that a node holds. -/
def Node.children {H : Type} : Node H → List H
  | .insert t .. | .permute t _ | .collect t .. | .spread t .. | .convert t .. | .varargs t .. =>
    [t]
  | .filterArgs t _ filters => t :: filters.filterMap id
  | .filterReturn t f => [t, f]
  | .fold t _ c => [t, c]
  | .guarded c t f => [c, t, f]
  | .catching t _ h => [t, h]
  | .direct .. | .virtual .. | .getField .. | .setField .. | .constant .. | .identity
  | .invoker .. | .unlinked .. | .throwing => []

/-- An immutable typed callable. -/
structure Handle where
  stamp : Stamp
  type : Signature
  node : Node Handle

namespace Handle

def variant (h : Handle) : Variant := h.node.variant

/-- The handles that a handle holds. -/
def children (h : Handle) : List Handle := h.node.children

/-- Whether two handles are the very same. -/
def isSame (a b : Handle) : Bool := a.stamp == b.stamp

def isVarargs (h : Handle) : Bool :=
  match h.node with
  | .varargs .. => true
  | _ => false

/-- The handle without its variable arity. -/
def asFixedArity (h : Handle) : Handle :=
  match h.node with
  | .varargs target .. => target
  | _ => h

/-- A handle as messages print it: its signature and variant. -/
def text (G : ClassGraph) (h : Handle) : String :=
  "MethodHandle" ++ h.type.text G ++ "<" ++ h.variant.name ++ ">"

end Handle

end HandleCalculus
