import HandleCalculus.Proofs.LogBlindness

/-!
# Renumbering

Arrays and throwables are told apart by numbers, which are given out in the order in which they are made.
Renumbering puts `r i` in the place of each number `i`, in values, errors, handles and stores. Nothing that
a node of a handle does with its arguments or with the store looks at a number: no type, no text and no
conversion depends on one. So all that is done here commutes with renumbering, whatever `r` is; what is
made is numbered as `r` says as long as `r` goes on by ones from there (`Store.Renumbered`).
-/

set_option autoImplicit false

namespace HandleCalculus

/-! ## Values -/

mutual

/-- An object with its numbers replaced. -/
def Object.renumber (r : Nat → Nat) : Object → Object
  | .array i c es => .array (r i) c (Value.renumberAll r es)
  | .throwable i c msg => .throwable (r i) c msg
  | .str s => .str s
  | .boxed p content => .boxed p (content.renumber r)
  | .inst i c => .inst i c
termination_by structural o => o

/-- A value with its numbers replaced. -/
def Value.renumber (r : Nat → Nat) : Value → Value
  | .obj o => .obj (o.renumber r)
  | .prim s => .prim s
  | .null => .null
  | .void => .void
termination_by structural v => v

/-- Values with their numbers replaced. -/
def Value.renumberAll (r : Nat → Nat) : List Value → List Value
  | [] => []
  | v :: vs => v.renumber r :: Value.renumberAll r vs
termination_by structural vs => vs

end

variable {G : ClassGraph} {r : Nat → Nat}

theorem Value.renumberAll_eq_map (vs : List Value) : renumberAll r vs = vs.map (renumber r) := by
  induction vs with
  | nil => rfl
  | cons v vs ih => rw [renumberAll, ih, List.map_cons]

namespace Object

theorem renumber_array (i : Nat) (c : Ty) (es : List Value) :
    (array i c es).renumber r = .array (r i) c (es.map (Value.renumber r)) := by
  rw [renumber, Value.renumberAll_eq_map]

variable (o : Object)

@[simp] theorem cls_renumber : (o.renumber r).cls = o.cls := by cases o <;> rfl

@[simp] theorem runtimeType_renumber : (o.renumber r).runtimeType = o.runtimeType := by
  cases o <;> rfl

@[simp] theorem isInstance_renumber (t : Ty) : (o.renumber r).isInstance G t = o.isInstance G t := by
  rw [isInstance, runtimeType_renumber, isInstance]

@[simp] theorem message?_renumber : (o.renumber r).message? = o.message? := by cases o <;> rfl

theorem elements?_renumber :
    (o.renumber r).elements? = o.elements?.map (List.map (Value.renumber r)) := by
  cases o with
  | array i c es => rw [renumber_array]; rfl
  | _ => rfl

end Object

mutual

theorem Object.text_renumber : ∀ o : Object, (o.renumber r).text G = o.text G
  | .array i c es => by rw [Object.renumber, Object.text, Object.text, Value.texts_renumber es]
  | .boxed p content => by rw [Object.renumber, Object.text, Object.text, Value.text_renumber content]
  | .throwable .. | .str _ | .inst .. => rfl

theorem Value.text_renumber : ∀ v : Value, (v.renumber r).text G = v.text G
  | .obj o => Object.text_renumber o
  | .prim _ | .null | .void => rfl

theorem Value.texts_renumber :
    ∀ vs : List Value, Value.texts G (Value.renumberAll r vs) = Value.texts G vs
  | [] => rfl
  | v :: vs => by
    rw [Value.renumberAll, Value.texts, Value.texts, Value.text_renumber v, Value.texts_renumber vs]

end

attribute [simp] Object.text_renumber Value.text_renumber

namespace Value

variable (v : Value)

@[simp] theorem primType?_renumber : (v.renumber r).primType? = v.primType? := by cases v <;> rfl

@[simp] theorem isNull_renumber : (v.renumber r).isNull = v.isNull := by cases v <;> rfl

theorem object?_renumber : (v.renumber r).object? = v.object?.map (Object.renumber r) := by
  cases v <;> rfl

theorem boxed_renumber : (v.renumber r).boxed = v.boxed.renumber r := by cases v <;> rfl

theorem unboxed?_renumber : (v.renumber r).unboxed? = v.unboxed?.map (Value.renumber r) := by
  cases v with
  | obj o => cases o <;> rfl
  | _ => rfl

@[simp] theorem renumber_zero (t : Ty) : (zero t).renumber r = zero t := by cases t <;> rfl

theorem fits_renumber (t : Ty) : (v.renumber r).fits G t = v.fits G t := by
  cases t with
  | prim p => simp [fits]
  | void => rfl
  | cls c => cases v <;> simp [fits, renumber]
  | array c => cases v <;> simp [fits, renumber]

end Value

/-! ## Errors -/

/-- A result with its error and its value replaced. -/
def mapBoth {ε α : Type} (h : ε → ε) (g : α → α) : Except ε α → Except ε α
  | .error e => .error (h e)
  | .ok a => .ok (g a)

def ConversionError.renumber (r : Nat → Nat) : ConversionError → ConversionError
  | cannotCast v t => cannotCast (v.renumber r) t
  | cannotConvert v t => cannotConvert (v.renumber r) t
  | cannotUnbox v t => cannotUnbox (v.renumber r) t
  | e => e

def ArgumentError.renumber (r : Nat → Nat) : ArgumentError → ArgumentError
  | mismatch i s v => mismatch i s (v.renumber r)
  | e => e

def ValueError.renumber (r : Nat → Nat) : ValueError → ValueError
  | cannotBind t e => cannotBind t (e.renumber r)
  | notArray v => notArray (v.renumber r)
  | guardResult v => guardResult (v.renumber r)
  | e => e

def ReceiverError.renumber (r : Nat → Nat) : ReceiverError → ReceiverError
  | notObject v => notObject (v.renumber r)
  | notInstance o c => notInstance (o.renumber r) c
  | conversion e => conversion (e.renumber r)

def SlotHolder.renumber (r : Nat → Nat) : SlotHolder → SlotHolder
  | object o => object (o.renumber r)
  | cls c => cls c

/-- An error with the numbers of what it is about replaced. -/
def Error.renumber (r : Nat → Nat) : Error → Error
  | conversion e => conversion (e.renumber r)
  | value e => value (e.renumber r)
  | argument e => argument (e.renumber r)
  | receiver e => receiver (e.renumber r)
  | missingSlot offset holder => missingSlot offset (holder.renumber r)
  | thrown o => thrown (o.renumber r)
  | e => e

namespace ConversionError

variable (e : ConversionError)

@[simp] theorem isNullPointer_renumber : (e.renumber r).isNullPointer = e.isNullPointer := by
  cases e <;> rfl

@[simp] theorem detail_renumber : (e.renumber r).detail G = e.detail G := by
  cases e with
  | cannotCast v t | cannotConvert v t | cannotUnbox v t =>
    unfold renumber detail
    dsimp only
    rw [v.text_renumber]
  | unboxNull p => rfl
  | passVoid => rfl

@[simp] theorem message_renumber : (e.renumber r).message G = e.message G := by
  rw [message, message, isNullPointer_renumber, detail_renumber]

end ConversionError

theorem ValueError.message_renumber (e : ValueError) : (e.renumber r).message G = e.message G := by
  cases e with
  | cannotBind t e =>
    unfold renumber message
    dsimp only
    rw [e.message_renumber]
  | nothingToBind s => rfl
  | notArray v =>
    unfold renumber message
    dsimp only
    rw [v.text_renumber]
  | guardResult v =>
    unfold renumber message
    dsimp only
    rw [v.text_renumber]

theorem ArgumentError.message_renumber (e : ArgumentError) : (e.renumber r).message G = e.message G := by
  cases e with
  | mismatch i s v =>
    unfold renumber message
    dsimp only
    rw [v.text_renumber]
  | count n s given => rfl
  | cannotCall s n => rfl

theorem ReceiverError.message_renumber (e : ReceiverError) : (e.renumber r).message G = e.message G := by
  cases e with
  | notObject v =>
    unfold renumber message
    dsimp only
    rw [v.text_renumber]
  | notInstance o c =>
    unfold renumber message
    dsimp only
    rw [o.text_renumber]
  | conversion e => exact e.detail_renumber

theorem SlotHolder.text_renumber (holder : SlotHolder) : (holder.renumber r).text G = holder.text G := by
  cases holder with
  | object o => exact o.text_renumber
  | cls c => rfl

namespace Error

variable (e : Error)

@[simp] theorem exceptionClass?_renumber : (e.renumber r).exceptionClass? = e.exceptionClass? := by
  cases e <;> simp [renumber, exceptionClass?, kind]

/-- The wording of an error does not show any number. -/
@[simp] theorem message_renumber : (e.renumber r).message G = e.message G := by
  cases e with
  | conversion e => exact e.message_renumber
  | value e | argument e | receiver e =>
    unfold renumber message
    dsimp only
    rw [e.message_renumber]
  | missingSlot offset holder =>
    unfold renumber message
    dsimp only
    rw [holder.text_renumber]
  | thrown o =>
    unfold renumber message
    dsimp only
    rw [o.text_renumber]
  | _ => rfl

end Error

/-! ## Conversions -/

section Conversions

variable (v : Value)

theorem Value.castTo_renumber (t : Ty) :
    (v.renumber r).castTo G t = mapBoth (ConversionError.renumber r) (Value.renumber r) (v.castTo G t) := by
  cases v with
  | obj o =>
    simp only [Value.renumber, castTo, Object.isInstance_renumber]
    split <;> rfl
  | _ => rfl

theorem Value.widenTo_renumber (p : Prim) :
    (v.renumber r).widenTo p = mapBoth (ConversionError.renumber r) (Value.renumber r) (v.widenTo p) := by
  cases v with
  | prim s =>
    simp only [Value.renumber, widenTo, widen?]
    cases s.widen? p <;> rfl
  | _ => rfl

theorem Value.unboxTo_renumber (p : Prim) :
    (v.renumber r).unboxTo p = mapBoth (ConversionError.renumber r) (Value.renumber r) (v.unboxTo p) := by
  unfold unboxTo
  rw [isNull_renumber, unboxed?_renumber]
  cases v.isNull with
  | true => rfl
  | false =>
    cases v.unboxed? with
    | none => rfl
    | some content => exact content.widenTo_renumber p

theorem Value.coerce_renumber (t : Ty) :
    (v.renumber r).coerce G t = mapBoth (ConversionError.renumber r) (Value.renumber r) (v.coerce G t) := by
  cases t with
  | void => rfl
  | prim p =>
    show (if (v.renumber r).primType?.isSome then (v.renumber r).widenTo p else (v.renumber r).unboxTo p) =
      mapBoth _ _ (if v.primType?.isSome then v.widenTo p else v.unboxTo p)
    rw [primType?_renumber, widenTo_renumber, unboxTo_renumber]
    split <;> rfl
  | cls c =>
    show (v.renumber r).boxed.castTo G _ = mapBoth _ _ (v.boxed.castTo G _)
    rw [boxed_renumber, castTo_renumber]
  | array c =>
    show (v.renumber r).boxed.castTo G _ = mapBoth _ _ (v.boxed.castTo G _)
    rw [boxed_renumber, castTo_renumber]

theorem Conversion.apply_renumber (c : Conversion) :
    c.apply G (v.renumber r) = mapBoth (ConversionError.renumber r) (Value.renumber r) (c.apply G v) := by
  cases c with
  | keep => rfl
  | checkCast t => exact v.castTo_renumber t
  | box p => exact congrArg Except.ok v.boxed_renumber
  | unbox t => exact v.unboxTo_renumber t
  | widen t => exact v.widenTo_renumber t
  | zeroForVoid t => exact congrArg Except.ok (Value.renumber_zero t).symm
  | discard => rfl

end Conversions

/-! ## Arguments -/

section Arguments

variable (args : List Value)

theorem receiver_renumber (member : MemberRef) : receiver member (args.map (Value.renumber r)) =
    mapBoth (Error.renumber r) (Object.renumber r) (receiver member args) := by
  cases args with
  | nil => rfl
  | cons v vs => cases v <;> rfl

theorem pick?_renumber (order : List Nat) : pick? (args.map (Value.renumber r)) order =
    (pick? args order).map (List.map (Value.renumber r)) := by
  induction order with
  | nil => rfl
  | cons i order ih =>
    simp only [pick?, List.getElem?_map, ih]
    cases args[i]? with
    | none => rfl
    | some v => cases pick? args order <;> rfl

theorem spreadElements_renumber (n : Nat) (v : Value) : spreadElements n (v.renumber r) =
    mapBoth (Error.renumber r) (List.map (Value.renumber r)) (spreadElements n v) := by
  cases v with
  | null =>
    simp only [Value.renumber, spreadElements]
    split <;> rfl
  | obj o =>
    simp only [Value.renumber, spreadElements, o.elements?_renumber]
    cases o.elements? with
    | none => rfl
    | some es =>
      simp only [Option.map_some, List.length_map]
      split <;> rfl
  | prim s => rfl
  | void => rfl

theorem coerceElements_renumber (ts : List Ty) : coerceElements G (args.map (Value.renumber r)) ts =
    mapBoth (Error.renumber r) (List.map (Value.renumber r)) (coerceElements G args ts) := by
  induction args generalizing ts with
  | nil => cases ts <;> rfl
  | cons v vs ih =>
    cases ts with
    | nil => rfl
    | cons t ts =>
      simp only [List.map_cons, coerceElements, v.coerce_renumber, ih]
      cases v.coerce G t with
      | error e => rfl
      | ok w => cases coerceElements G vs ts <;> rfl

theorem argumentFailure_renumber (asReceiver : Bool) (e : ConversionError) :
    argumentFailure asReceiver (e.renumber r) = (argumentFailure asReceiver e).renumber r := by
  unfold argumentFailure
  rw [e.isNullPointer_renumber]
  split <;> rfl

theorem convertArguments_renumber (asReceiver : Bool) (cs : List Conversion) :
    convertArguments G asReceiver (args.map (Value.renumber r)) cs =
      mapBoth (Error.renumber r) (List.map (Value.renumber r))
        (convertArguments G asReceiver args cs) := by
  induction args generalizing asReceiver cs with
  | nil => cases cs <;> rfl
  | cons v vs ih =>
    cases cs with
    | nil => rfl
    | cons c cs =>
      simp only [List.map_cons, convertArguments, Conversion.apply_renumber, ih]
      cases c.apply G v with
      | error e => exact congrArg Except.error (argumentFailure_renumber asReceiver e)
      | ok w => cases convertArguments G false vs cs <;> rfl

theorem checkArguments_renumber (s : Signature) (i : Nat) (ts : List Ty) :
    checkArguments G s i (args.map (Value.renumber r)) ts =
      mapBoth (Error.renumber r) id (checkArguments G s i args ts) := by
  induction args generalizing i ts with
  | nil => cases ts <;> rfl
  | cons v vs ih =>
    cases ts with
    | nil => rfl
    | cons t ts =>
      simp only [List.map_cons, checkArguments, v.fits_renumber, ih]
      split <;> rfl

theorem Signature.check_renumber (s : Signature) : s.check G (args.map (Value.renumber r)) =
    mapBoth (Error.renumber r) id (s.check G args) := by
  unfold check
  rw [List.length_map, checkArguments_renumber]
  split <;> rfl

end Arguments

/-! ## Handles -/

mutual

/-- A handle with the numbers of the values that it holds replaced. -/
def Handle.renumber (r : Nat → Nat) : Handle → Handle
  | ⟨s, t, n⟩ => ⟨s, t, n.renumber r⟩
termination_by structural h => h

/-- A node with the numbers of the values that it holds replaced. -/
def Node.renumber (r : Nat → Nat) : Node Handle → Node Handle
  | .insert h pos vs => .insert (h.renumber r) pos (vs.map (Value.renumber r))
  | .permute h order => .permute (h.renumber r) order
  | .collect h pos n a => .collect (h.renumber r) pos n a
  | .spread h pos n a => .spread (h.renumber r) pos n a
  | .filterArgs h pos fs => .filterArgs (h.renumber r) pos (Filters.renumber r fs)
  | .filterReturn h f => .filterReturn (h.renumber r) (f.renumber r)
  | .fold h pos c => .fold (h.renumber r) pos (c.renumber r)
  | .guarded c h f => .guarded (c.renumber r) (h.renumber r) (f.renumber r)
  | .catching h c k => .catching (h.renumber r) c (k.renumber r)
  | .convert h cs ret => .convert (h.renumber r) cs ret
  | .constant v => .constant (v.renumber r)
  | .varargs h a cell => .varargs (h.renumber r) a cell
  | .direct m mode => .direct m mode
  | .virtual m c interface => .virtual m c interface
  | .getField f isStatic access => .getField f isStatic access
  | .setField f isStatic access => .setField f isStatic access
  | .identity => .identity
  | .invoker site => .invoker site
  | .unlinked message => .unlinked message
  | .throwing => .throwing
termination_by structural n => n

/-- Filters with the numbers of the values that they hold replaced. -/
def Filters.renumber (r : Nat → Nat) : List (Option Handle) → List (Option Handle)
  | [] => []
  | none :: fs => none :: Filters.renumber r fs
  | some f :: fs => some (f.renumber r) :: Filters.renumber r fs
termination_by structural fs => fs

end

namespace Handle

variable (h : Handle)

@[simp] theorem type_renumber : (h.renumber r).type = h.type := by cases h; rfl

theorem node_renumber : (h.renumber r).node = h.node.renumber r := by cases h; rfl

@[simp] theorem variant_renumber : (h.renumber r).variant = h.variant := by
  unfold variant
  rw [node_renumber]
  cases h.node <;> rfl

@[simp] theorem dispatches_renumber : (h.renumber r).dispatches = h.dispatches := by
  unfold dispatches
  rw [variant_renumber]

end Handle

/-! ## Stores -/

def CallSite.renumber (r : Nat → Nat) (site : CallSite) : CallSite :=
  { site with target := site.target.map (Handle.renumber r) }

/-- A store with all numbers replaced, also the one that is next. -/
def Store.renumber (r : Nat → Nat) (s : Store) : Store :=
  { s with
    instances := s.instances.map (Array.map (Value.renumber r))
    statics := s.statics.map (Array.map (Value.renumber r))
    minted := r s.minted
    sites := s.sites.map (CallSite.renumber r) }

namespace Store

variable (s : Store) (o : Object)

theorem slotsOf?_renumber : (s.renumber r).slotsOf? (o.renumber r) =
    (s.slotsOf? o).map (Array.map (Value.renumber r)) := by
  cases o with
  | inst i c => exact Array.getElem?_map
  | _ => rfl

theorem readField_renumber (offset : Nat) : (s.renumber r).readField (o.renumber r) offset =
    mapBoth (Error.renumber r) (Value.renumber r) (s.readField o offset) := by
  unfold readField
  rw [slotsOf?_renumber]
  cases s.slotsOf? o with
  | none => rfl
  | some slots =>
    simp only [Option.map_some, Option.bind_some, Array.getElem?_map]
    cases slots[offset]? <;> rfl

theorem writeField_renumber (offset : Nat) (v : Value) :
    (s.renumber r).writeField (o.renumber r) offset (v.renumber r) =
      mapBoth (Error.renumber r) (Store.renumber r) (s.writeField o offset v) := by
  have hslots := s.slotsOf?_renumber (r := r) o
  cases o with
  | inst i c =>
    unfold writeField
    simp only [Object.renumber] at hslots ⊢
    rw [hslots]
    cases s.slotsOf? (.inst i c) with
    | none => rfl
    | some slots =>
      simp only [Option.map_some, Array.size_map]
      split
      · simp [mapBoth, renumber]
      · rfl
  | _ => rfl

theorem readStatic_renumber (c : ClassId) (offset : Nat) : (s.renumber r).readStatic c offset =
    mapBoth (Error.renumber r) (Value.renumber r) (s.readStatic c offset) := by
  unfold readStatic
  rw [show (s.renumber r).statics[c]? = s.statics[c]?.map (Array.map (Value.renumber r)) from
    Array.getElem?_map]
  cases s.statics[c]? with
  | none => rfl
  | some slots =>
    simp only [Option.map_some, Option.bind_some, Array.getElem?_map]
    cases slots[offset]? <;> rfl

theorem writeStatic_renumber (c : ClassId) (offset : Nat) (v : Value) :
    (s.renumber r).writeStatic c offset (v.renumber r) =
      mapBoth (Error.renumber r) (Store.renumber r) (s.writeStatic c offset v) := by
  unfold writeStatic
  rw [show (s.renumber r).statics[c]? = s.statics[c]?.map (Array.map (Value.renumber r)) from
    Array.getElem?_map]
  cases s.statics[c]? with
  | none => rfl
  | some slots =>
    simp only [Option.map_some, Array.size_map]
    split
    · simp [mapBoth, renumber]
    · rfl

theorem getTarget_renumber (id : SiteId) : (s.renumber r).getTarget id =
    mapBoth (Error.renumber r) (Handle.renumber r) (s.getTarget id) := by
  unfold getTarget
  rw [show (s.renumber r).sites[id]? = s.sites[id]?.map (CallSite.renumber r) from Array.getElem?_map]
  cases s.sites[id]? with
  | none => rfl
  | some site =>
    show (site.renumber r).getTarget = mapBoth _ _ site.getTarget
    unfold CallSite.getTarget CallSite.renumber
    cases site.target <;> rfl

theorem newInstance_renumber (c : ClassId) : (s.renumber r).newInstance G c =
    ((s.newInstance G c).1.renumber r, (s.newInstance G c).2.renumber r) := by
  simp [newInstance, renumber, Object.renumber, Function.comp_def]

end Store

end HandleCalculus
