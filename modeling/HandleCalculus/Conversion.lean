import HandleCalculus.Value

/-!
# Conversions

Adapting a value of one static type to another takes one conversion, chosen from the two types
alone (`Conversion.plan?`); there is none if not even a cast could work. `coerce` converts a value
whose static type is not known, as bound arguments and spread elements are; `fits` asks whether a
value needs no conversion at all.
-/

set_option autoImplicit false

namespace HandleCalculus

/-- Why a value cannot be converted. -/
inductive ConversionError where
  | cannotCast (v : Value) (t : Ty)
  | cannotConvert (v : Value) (t : Prim)
  | cannotUnbox (v : Value) (t : Prim)
  | unboxNull (t : Prim)
  | passVoid

namespace ConversionError

/-- Unboxing null is the only failure that is not a mismatch of types. -/
def isNullPointer : ConversionError → Bool
  | unboxNull _ => true
  | _ => false

def detail (G : ClassGraph) : ConversionError → String
  | cannotCast v t => "cannot cast " ++ v.text G ++ " to " ++ t.source G
  | cannotConvert v t => "cannot convert " ++ v.text G ++ " to " ++ t.keyword
  | cannotUnbox v t => "cannot unbox " ++ v.text G ++ " to " ++ t.keyword
  | unboxNull t => "cannot unbox null to " ++ t.keyword
  | passVoid => "cannot pass a value as void"

end ConversionError

/-- How one argument or result is converted. -/
inductive Conversion where
  | keep
  | checkCast (t : Ty)
  | box (p : Prim)
  /-- Unbox, then widen to the type. -/
  | unbox (t : Prim)
  | widen (t : Prim)
  /-- The zero of the type in place of no value. -/
  | zeroForVoid (t : Ty)
  | discard
  deriving DecidableEq

namespace Value

/-- A reference, checked to be null or an instance of the type. -/
def castTo (G : ClassGraph) (v : Value) (t : Ty) : Except ConversionError Value :=
  match v with
  | null => .ok null
  | obj o => if o.isInstance G t then .ok v else .error (.cannotCast v t)
  | _ => .error (.cannotCast v t)

/-- A primitive, widened to the type. -/
def widenTo (v : Value) (t : Prim) : Except ConversionError Value :=
  match v.widen? t with
  | some w => .ok w
  | none => .error (.cannotConvert v t)

/-- The contents of a wrapper object, widened to the type. -/
def unboxTo (v : Value) (t : Prim) : Except ConversionError Value :=
  if v.isNull then .error (.unboxNull t)
  else
    match v.unboxed? with
    | some content => content.widenTo t
    | none => .error (.cannotUnbox v t)

/-- A value of any type converted to the type: primitives are widened or boxed, wrappers unboxed,
references cast. -/
def coerce (G : ClassGraph) (v : Value) : Ty → Except ConversionError Value
  | .void => .error .passVoid
  | .prim p => if v.primType?.isSome then v.widenTo p else v.unboxTo p
  | t => v.boxed.castTo G t

/-- Whether a value may stand where the type is expected, without conversion. -/
def fits (G : ClassGraph) (v : Value) : Ty → Bool
  | .prim p => v.primType? == some p
  | .void => false
  | t =>
    match v with
    | null => true
    | obj o => o.isInstance G t
    | _ => false

end Value

namespace Conversion

/-- The conversion from a static type to another, if there is one. -/
def plan? (G : ClassGraph) (source target : Ty) : Option Conversion :=
  if source = target then some keep
  else
    match source, target with
    | _, .void => some discard
    | .void, t => some (zeroForVoid t)
    | .prim a, .prim b => if a.widensTo b then some (widen b) else none
    | .prim a, t => if G.isAssignable (Ty.wrapper a) t then some (box a) else none
    | s, .prim b =>
      match s.unwrapped? with
      | some a => if a.widensTo b then some (unbox b) else none
      | none => some (unbox b)
    | s, t => if G.isAssignable s t then some keep else some (checkCast t)

def isKeep : Conversion → Bool
  | keep => true
  | _ => false

/-- The value converted. -/
def apply (G : ClassGraph) (c : Conversion) (v : Value) : Except ConversionError Value :=
  match c with
  | keep => .ok v
  | checkCast t => v.castTo G t
  | box _ => .ok v.boxed
  | unbox t => v.unboxTo t
  | widen t => v.widenTo t
  | zeroForVoid t => .ok (Value.zero t)
  | discard => .ok .void

/-- A conversion as text. -/
def text (G : ClassGraph) : Conversion → String
  | keep => "NoOp"
  | checkCast t => "CheckCast(" ++ t.descriptor G ++ ")"
  | box p => "Box(" ++ p.title ++ ")"
  | unbox p => "Unbox(" ++ p.title ++ ")"
  | widen p => "Widen(" ++ p.title ++ ")"
  | zeroForVoid t => "ZeroForVoid(" ++ t.descriptor G ++ ")"
  | discard => "Discard"

end Conversion

end HandleCalculus
