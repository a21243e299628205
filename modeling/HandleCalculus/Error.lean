import HandleCalculus.Access
import HandleCalculus.ClassGraph.Resolution
import HandleCalculus.Handle.Basic

/-!
# Errors

Every way in which making or calling a handle fails, as a cause with the things it is about.
`Error.kind` sorts causes into the kinds that callers tell apart, `Error.message` words them, and
`Error.exceptionClass?` says as which throwable a handler sees them.
-/

set_option autoImplicit false

namespace HandleCalculus

/-- Signatures that do not exist, and positions outside one. -/
inductive SignatureError where
  | voidParameter (i : Nat)
  | tooManySlots (slots : Nat)
  | indexOutOfRange (i : Nat) (s : Signature)
  | cannotDrop (start stop : Nat) (s : Signature)
  | tooManyArguments (count : Nat)
  | cannotInsert (count pos : Nat) (s : Signature)
  | reorderLength (length : Nat) (s : Signature)
  | reorderIndex (i : Nat) (s : Signature)
  | tooManyFilters (s : Signature)
  | collectorPosition (pos : Nat) (s : Signature)
  | cannotSpread (count pos : Nat) (s : Signature)
  | constructorResult (s : Signature)

/-- Signatures that do not fit each other. -/
inductive Misfit where
  | erasure (new old : Signature)
  | adaptation (old new : Signature)
  | noTrailingArray (s : Signature)
  | notArrayType (t : Ty)
  | cannotPassAs (array param : Ty)
  | elementsCannotPassAs (array param : Ty)
  | tooFewParameters (s : Signature) (count : Nat)
  | cannotCollectInto (array last : Ty)
  | tooFewRequested (s : Signature) (least requested : Nat)
  | returnTypes (new old : Signature)
  | reordered (i : Nat) (new : Signature) (param : Ty)
  | argumentFilter (filter : Signature) (i : Nat) (target : Signature)
  | returnFilter (filter target : Signature)
  | combinerLength (combiner target : Signature) (pos : Nat)
  | combinerResult (ret : Ty) (pos : Nat) (target : Signature)
  | combinerArguments (combiner target : Signature)
  | branches (target fallback : Signature)
  | testResult (test : Signature)
  | testArguments (test target : Signature)
  | notThrowable (c : ClassId)
  | handlerResult (handler target : Signature)
  | handlerException (handler : Signature) (c : ClassId)
  | handlerArguments (handler target : Signature)
  | siteTarget (target site : Signature)

/-- Arguments that a call does not take. -/
inductive ArgumentError where
  | count (expected : Nat) (s : Signature) (given : Nat)
  | mismatch (i : Nat) (s : Signature) (v : Value)
  | cannotCall (s : Signature) (count : Nat)

/-- Values of a wrong type, other than failed conversions. -/
inductive ValueError where
  | cannotBind (t : Ty) (e : ConversionError)
  | nothingToBind (s : Signature)
  | notArray (v : Value)
  | guardResult (v : Value)

/-- Receivers that a call cannot dispatch on. -/
inductive ReceiverError where
  | notObject (v : Value)
  | notInstance (o : Object) (c : ClassId)
  | conversion (e : ConversionError)

/-- Why a lookup refuses. -/
inductive Denial where
  | classNotAccessible (c : ClassId)
  | finalField (f : FieldRef)
  | methodNotAccessible (flags : Flags) (m : MethodRef)
  | fieldNotAccessible (flags : Flags) (f : FieldRef)
  | signatureNotVisible (s : Signature) (c : ClassId)
  | specialCaller (c : ClassId)
  | notSubclass (c ref : ClassId)

/-- A member that an instance is needed for. -/
inductive MemberRef where
  | method (m : MethodRef)
  | field (f : FieldRef)
  deriving DecidableEq

/-- Why no code could be made for a shape. -/
inductive CompileError where
  | unsupportedShape (text : String)
  | failed (text : String)
  deriving DecidableEq

/-- What lacks a slot. -/
inductive SlotHolder where
  | object (o : Object)
  | cls (c : ClassId)

/-- Why making or calling a handle fails. -/
inductive Error where
  | signature (e : SignatureError)
  | denied (d : Denial) (lookup : Lookup)
  | conversion (e : ConversionError)
  | value (e : ValueError)
  | argument (e : ArgumentError)
  | misfit (e : Misfit)
  /-- An array of the wrong length was spread. -/
  | arity (expected actual : Nat)
  | notYetBound
  | receiver (e : ReceiverError)
  | constantSite
  | wrongThunk (type : Signature) (variant : Variant)
  | illegalState (message : String)
  | nullReceiver (member : MemberRef)
  | throwNull
  | resolution (e : ResolutionError)
  | compile (e : CompileError)
  | missingSlot (offset : Nat) (holder : SlotHolder)
  | thrown (o : Object)

/-! ## Messages -/

def SignatureError.message (G : ClassGraph) : SignatureError → String
  | voidParameter i => s!"parameter {i} is void"
  | tooManySlots n => s!"{n} argument slots exceeds {maxArgumentSlots}"
  | indexOutOfRange i s => s!"index {i} out of range for " ++ s.text G
  | cannotDrop start stop s => s!"cannot drop {start}..{stop} from " ++ s.text G
  | tooManyArguments n => s!"{n} arguments exceeds invoker limit of {maxGenericArguments}"
  | cannotInsert count pos s => s!"cannot insert {count} values at {pos} into " ++ s.text G
  | reorderLength n s => s!"reorder length {n} does not match " ++ s.text G
  | reorderIndex i s => s!"reorder index {i} out of range for " ++ s.text G
  | tooManyFilters s => "too many filters for " ++ s.text G
  | collectorPosition pos s => s!"collector position {pos} out of range for " ++ s.text G
  | cannotSpread count pos s => s!"cannot spread {count} arguments at {pos} into " ++ s.text G
  | constructorResult s => "constructor type " ++ s.text G ++ " must return void"

def Misfit.message (G : ClassGraph) : Misfit → String
  | erasure new old => new.text G ++ " does not erase like " ++ old.text G
  | adaptation old new => "cannot adapt " ++ old.text G ++ " to " ++ new.text G
  | noTrailingArray s => s.text G ++ " has no trailing array parameter"
  | notArrayType t => t.source G ++ " is not an array type"
  | cannotPassAs array param => array.source G ++ " cannot be passed as " ++ param.source G
  | elementsCannotPassAs array param =>
    array.source G ++ " elements cannot be passed as " ++ param.source G
  | tooFewParameters s count => s.text G ++ s!" has fewer than {count} parameters"
  | cannotCollectInto array last => array.source G ++ " cannot collect into " ++ last.source G
  | tooFewRequested s least requested =>
    s.text G ++ s!" needs at least {least} arguments, {requested} requested"
  | returnTypes new old => "return types differ: " ++ new.text G ++ " vs " ++ old.text G
  | reordered i new param =>
    s!"parameter {i} of " ++ new.text G ++ " does not match " ++ param.source G
  | argumentFilter filter i target =>
    "filter " ++ filter.text G ++ s!" cannot feed parameter {i} of " ++ target.text G
  | returnFilter filter target =>
    "filter " ++ filter.text G ++ " cannot take the result of " ++ target.text G
  | combinerLength combiner target pos =>
    "combiner " ++ combiner.text G ++ " does not fit " ++ target.text G ++ s!" at {pos}"
  | combinerResult ret pos target =>
    "combiner result " ++ ret.source G ++ s!" does not match parameter {pos} of " ++ target.text G
  | combinerArguments combiner target =>
    "combiner " ++ combiner.text G ++ " does not match the arguments of " ++ target.text G
  | branches target fallback =>
    "target " ++ target.text G ++ " and fallback " ++ fallback.text G ++ " differ"
  | testResult test => "test " ++ test.text G ++ " does not return boolean"
  | testArguments test target =>
    "test " ++ test.text G ++ " is not a prefix of " ++ target.text G
  | notThrowable c => G.name c ++ " is not a throwable"
  | handlerResult handler target =>
    "handler " ++ handler.text G ++ " and target " ++ target.text G ++ " return differently"
  | handlerException handler c =>
    "handler " ++ handler.text G ++ " cannot accept " ++ G.name c
  | handlerArguments handler target =>
    "handler " ++ handler.text G ++ " does not match the arguments of " ++ target.text G
  | siteTarget target site =>
    "target " ++ target.text G ++ " does not match call site " ++ site.text G

def ArgumentError.message (G : ClassGraph) : ArgumentError → String
  | count expected s given =>
    s!"expected {expected} arguments for " ++ s.text G ++ s!", got {given}"
  | mismatch i s v => s!"argument {i} of " ++ s.text G ++ " is " ++ v.text G
  | cannotCall s n => "cannot call " ++ s.text G ++ s!" with {n} arguments"

/-- The wording of a failed conversion on its own, with the kind of the failure. -/
def ConversionError.message (G : ClassGraph) (e : ConversionError) : String :=
  (if e.isNullPointer then "null pointer: " else "type mismatch: ") ++ e.detail G

def ValueError.message (G : ClassGraph) : ValueError → String
  | cannotBind t e => "cannot bind to " ++ t.source G ++ ": " ++ e.message G
  | nothingToBind s => s.text G ++ " has no leading parameter to bind"
  | notArray v => v.text G ++ " is not an array"
  | guardResult v => "guard returned " ++ v.text G

def ReceiverError.message (G : ClassGraph) : ReceiverError → String
  | notObject v => v.text G ++ " is not an object"
  | notInstance o c => o.text G ++ " is not an instance of " ++ G.name c
  | conversion e => e.detail G

def MemberRef.text (G : ClassGraph) : MemberRef → String
  | method m => G.methodText m
  | field f => G.fieldText f

def Denial.message (G : ClassGraph) : Denial → String
  | classNotAccessible c => "class is not accessible: " ++ G.name c
  | finalField f => "cannot set final field " ++ G.fieldText f
  | methodNotAccessible flags m =>
    flags.visibilityWord ++ " member " ++ G.methodText m ++ " is not accessible"
  | fieldNotAccessible flags f =>
    flags.visibilityWord ++ " member " ++ G.fieldText f ++ " is not accessible"
  | signatureNotVisible s c => s.text G ++ " names classes not visible from " ++ G.text c
  | specialCaller c => "no private access for invokespecial as " ++ G.name c
  | notSubclass c ref => G.name c ++ " is not a subclass of " ++ G.name ref

def CompileError.message : CompileError → String
  | unsupportedShape text => "unsupported shape: " ++ text
  | failed text => "compiler failed: " ++ text

def SlotHolder.text (G : ClassGraph) : SlotHolder → String
  | object o => o.text G
  | cls c => G.text c

namespace Error

/-- The wording of an error. -/
def message (G : ClassGraph) : Error → String
  | signature e => "invalid signature: " ++ e.message G
  | denied d l => "access denied: " ++ d.message G ++ ", from " ++ l.text G
  | conversion e => e.message G
  | value e => "type mismatch: " ++ e.message G
  | argument e => "wrong argument type: " ++ e.message G
  | misfit e => "incompatible signature: " ++ e.message G
  | arity expected actual => s!"arity mismatch: expected {expected} elements, got {actual}"
  | notYetBound => "call site target not yet bound"
  | receiver e => "incompatible receiver: " ++ e.message G
  | constantSite => "unsupported operation: constant call site cannot be retargeted"
  | wrongThunk type variant =>
    "illegal state: thunk does not match handle MethodHandle" ++ type.text G ++ "<" ++
      variant.name ++ ">"
  | illegalState message => "illegal state: " ++ message
  | nullReceiver member => "null pointer: null receiver for " ++ member.text G
  | throwNull => "null pointer: cannot throw null"
  | resolution e => e.message G
  | compile e => e.message
  | missingSlot offset holder => s!"no field slot {offset} in " ++ holder.text G
  | thrown o => "exception " ++ o.text G

/-! ## Kinds -/

/-- The kinds of errors that callers tell apart. -/
inductive Kind where
  | invalidSignature | accessDenied | typeMismatch | wrongArgumentType | incompatibleSignature
  | arityMismatch | notYetBound | incompatibleReceiver | unsupportedOperation | illegalState
  | nullPointer | resolution (k : ResolutionError.Kind) | unsupportedShape | compileFailed
  | missingSlot | thrown
  deriving DecidableEq, Repr

def kind : Error → Kind
  | signature _ => .invalidSignature
  | denied .. => .accessDenied
  | conversion e => if e.isNullPointer then .nullPointer else .typeMismatch
  | value _ => .typeMismatch
  | argument _ => .wrongArgumentType
  | misfit _ => .incompatibleSignature
  | arity .. => .arityMismatch
  | notYetBound => .notYetBound
  | receiver _ => .incompatibleReceiver
  | constantSite => .unsupportedOperation
  | wrongThunk .. | illegalState _ => .illegalState
  | nullReceiver _ | throwNull => .nullPointer
  | resolution e => .resolution e.kind
  | compile (.unsupportedShape _) => .unsupportedShape
  | compile (.failed _) => .compileFailed
  | missingSlot .. => .missingSlot
  | thrown _ => .thrown

namespace Kind

/-- The name of a kind. -/
def name : Kind → String
  | invalidSignature => "InvalidSignature"
  | accessDenied => "AccessDenied"
  | typeMismatch => "TypeMismatch"
  | wrongArgumentType => "WrongArgumentType"
  | incompatibleSignature => "IncompatibleSignature"
  | arityMismatch => "ArityMismatch"
  | notYetBound => "NotYetBound"
  | incompatibleReceiver => "IncompatibleReceiver"
  | unsupportedOperation => "UnsupportedOperation"
  | illegalState => "IllegalState"
  | nullPointer => "NullPointer"
  | resolution k => "Resolution." ++ k.name
  | unsupportedShape => "Compile.UnsupportedShape"
  | compileFailed => "Compile.Failed"
  | missingSlot => "FieldAccess.MissingSlot"
  | thrown => "Thrown"

/-- The class of the throwable that an error of the kind turns into when a handler looks for it.
Errors of linking, access and construction turn into none. -/
def exceptionClass? : Kind → Option ClassId
  | arityMismatch => some ClassId.illegalArgument
  | typeMismatch => some ClassId.classCast
  | nullPointer => some ClassId.nullPointer
  | incompatibleReceiver | missingSlot => some ClassId.incompatibleClassChange
  | wrongArgumentType => some ClassId.wrongMethodType
  | illegalState => some ClassId.illegalState
  | unsupportedOperation => some ClassId.unsupportedOperation
  | thrown | invalidSignature | accessDenied | incompatibleSignature | notYetBound
  | resolution _ | unsupportedShape | compileFailed => none

end Kind

/-- The class of the throwable that an error turns into. -/
def exceptionClass? (e : Error) : Option ClassId := e.kind.exceptionClass?

end Error

end HandleCalculus
