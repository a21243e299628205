import HandleCalculus.Scalar
import HandleCalculus.ClassGraph.Order
import HandleCalculus.Text.Identity

/-!
# Values

A value is a primitive, an object, null, or `void`, the result of a call that has none. A string is
its text. A wrapper object is its class and its contents; whoever makes one chooses both, and nothing
checks that the contents are a primitive of the type that the class wraps. An array carries its
elements, a throwable its message, and both carry a number that tells them from others with the same
contents. An instance is a number for its slots, which the store keeps.

What a program can change in objects are the slots of instances. An array keeps the elements that it
was made with: nothing in the calculus writes to one, and method bodies are taken not to either.

Two values are the same (`Value.same`) if they are one object or strings or wrappers with the same
contents. Wrappers of different classes can be the same; beside their classes nothing is lost
(`Value.same_and_wrappers_iff`).
-/

set_option autoImplicit false

namespace HandleCalculus

mutual

/-- An object. -/
inductive Object where
  | str (s : String)
  /-- A wrapper object of the class for `p`, whatever its contents are. -/
  | boxed (p : Prim) (content : Value)
  | array (id : Nat) (component : Ty) (elems : List Value)
  | throwable (id : Nat) (cls : ClassId) (msg : Option String)
  | inst (id : Nat) (cls : ClassId)

/-- What an argument, a result or a slot can be. -/
inductive Value where
  | prim (s : Scalar)
  | obj (o : Object)
  | null
  | void

end

/-! ## Deciding equality -/

mutual

/-- Whether two objects are equal. -/
def Object.equal : Object → Object → Bool
  | .str a, .str b => a == b
  | .boxed p v, .boxed q w => p == q && v.equal w
  | .array i t es, .array j u fs => i == j && t == u && Value.equalAll es fs
  | .throwable i c m, .throwable j d n => i == j && c == d && m == n
  | .inst i c, .inst j d => i == j && c == d
  | _, _ => false

/-- Whether two values are equal. -/
def Value.equal : Value → Value → Bool
  | .prim a, .prim b => a == b
  | .obj a, .obj b => a.equal b
  | .null, .null => true
  | .void, .void => true
  | _, _ => false

/-- Whether two lists of values are equal. -/
def Value.equalAll : List Value → List Value → Bool
  | [], [] => true
  | a :: as, b :: bs => a.equal b && Value.equalAll as bs
  | _, _ => false

end

mutual

theorem Object.equal_iff : ∀ a b : Object, a.equal b = true ↔ a = b
  | .boxed p v, b => by cases b <;> simp [Object.equal, Value.equal_iff v]
  | .array i t es, b => by
    cases b <;> simp [Object.equal, Value.equalAll_iff es, and_assoc]
  | .str a, b => by cases b <;> simp [Object.equal]
  | .throwable i c m, b => by cases b <;> simp [Object.equal, and_assoc]
  | .inst i c, b => by cases b <;> simp [Object.equal]

theorem Value.equal_iff : ∀ a b : Value, a.equal b = true ↔ a = b
  | .obj a, b => by cases b <;> simp [Value.equal, Object.equal_iff a]
  | .prim a, b => by cases b <;> simp [Value.equal]
  | .null, b => by cases b <;> simp [Value.equal]
  | .void, b => by cases b <;> simp [Value.equal]

theorem Value.equalAll_iff : ∀ as bs : List Value, Value.equalAll as bs = true ↔ as = bs
  | [], bs => by cases bs <;> simp [Value.equalAll]
  | a :: as, bs => by
    cases bs with
    | nil => simp [Value.equalAll]
    | cons b bs => simp [Value.equalAll, Value.equal_iff a, Value.equalAll_iff as]

end

/-! An array can hold another one many times over, so going through all that it holds can take
exponentially long. Two lists that are one and the same in memory are equal without looking at
them, which is what nearly always decides here, because arrays with different contents have
different numbers. -/

mutual

/-- Whether two objects are equal, without going through what they share. -/
def Object.compare : (a b : Object) → { r : Bool // r = a.equal b }
  | .array i t es, .array j u fs =>
    let elems := fun (_ : Unit) => (Value.compareAll es fs).val
    have h : ∀ x, elems x = Value.equalAll es fs := fun _ => (Value.compareAll es fs).property
    ⟨i == j && t == u &&
        withPtrEq es fs elems (fun e => by rw [h (), Value.equalAll_iff]; exact e),
      by simp [withPtrEq, Object.equal, h]⟩
  | .boxed p v, .boxed q w =>
    ⟨p == q && (v.compare w).val, by rw [(v.compare w).property, Object.equal]⟩
  | a, b => ⟨a.equal b, rfl⟩
termination_by structural a => a

/-- Whether two values are equal, without going through what they share. -/
def Value.compare : (v w : Value) → { r : Bool // r = v.equal w }
  | .obj a, .obj b => ⟨(a.compare b).val, by rw [(a.compare b).property, Value.equal]⟩
  | v, w => ⟨v.equal w, rfl⟩
termination_by structural v => v

/-- Whether two lists are equal, without going through what their values share. -/
def Value.compareAll : (vs ws : List Value) → { r : Bool // r = Value.equalAll vs ws }
  | v :: vs, w :: ws =>
    ⟨(v.compare w).val && (Value.compareAll vs ws).val, by
      rw [(v.compare w).property, (Value.compareAll vs ws).property, Value.equalAll]⟩
  | vs, ws => ⟨Value.equalAll vs ws, rfl⟩
termination_by structural vs => vs

end

instance : DecidableEq Object := fun a b =>
  decidable_of_iff ((a.compare b).val = true) (by rw [(a.compare b).property, Object.equal_iff])

instance : DecidableEq Value := fun v w =>
  decidable_of_iff ((v.compare w).val = true) (by rw [(v.compare w).property, Value.equal_iff])

/-! ## Values that are the same -/

mutual

/-- Whether two objects are the same: strings and wrappers by contents, others by identity. The
classes of wrappers do not count. -/
def Object.same : Object → Object → Bool
  | .boxed _ v, .boxed _ w => v.same w
  | a, b => a == b

/-- Whether two values are the same. -/
def Value.same : Value → Value → Bool
  | .obj a, .obj b => a.same b
  | v, w => v == w

end

mutual

/-- The classes of the wrappers around the contents of an object, the outermost first. -/
def Object.wrappers : Object → List Prim
  | .boxed p v => p :: v.wrappers
  | .str _ | .array .. | .throwable .. | .inst .. => []

/-- The classes of the wrappers around a value, the outermost first. -/
def Value.wrappers : Value → List Prim
  | .obj o => o.wrappers
  | .prim _ | .null | .void => []

end

/-- The class of the wrapper that a value is. -/
def Value.wrapper? (v : Value) : Option Prim := v.wrappers.head?

mutual

theorem Object.same_refl : ∀ a : Object, a.same a = true
  | .boxed _ v => Value.same_refl v
  | .str _ | .array .. | .throwable .. | .inst .. => by simp [Object.same]

theorem Value.same_refl : ∀ v : Value, v.same v = true
  | .obj a => Object.same_refl a
  | .prim _ | .null | .void => by simp [Value.same]

end

mutual

/-- Objects that are the same are equal if they are wrappers of the same classes, or none. -/
theorem Object.eq_of_same : ∀ {a b : Object}, a.same b = true → a.wrappers = b.wrappers → a = b
  | .boxed p v, .boxed q w, h, hw => by
    obtain ⟨rfl, hcontent⟩ := List.cons.inj hw
    rw [Value.eq_of_same h hcontent]
  | .boxed .., .str _, h, _ | .boxed .., .array .., h, _ | .boxed .., .throwable .., h, _
  | .boxed .., .inst .., h, _ => by simp [Object.same] at h
  | .str _, _, h, _ | .array .., _, h, _ | .throwable .., _, h, _ | .inst .., _, h, _ => by
    simpa [Object.same] using h

/-- Values that are the same are equal if the wrappers around them are of the same classes. -/
theorem Value.eq_of_same : ∀ {v w : Value}, v.same w = true → v.wrappers = w.wrappers → v = w
  | .obj a, .obj b, h, hw => by rw [Object.eq_of_same h hw]
  | .obj _, .prim _, h, _ | .obj _, .null, h, _ | .obj _, .void, h, _ => by simp [Value.same] at h
  | .prim _, _, h, _ | .null, _, h, _ | .void, _, h, _ => by simpa [Value.same] using h

end

/-- Beside the classes of wrappers, values that are the same do not differ. -/
theorem Value.same_and_wrappers_iff {v w : Value} :
    v.same w = true ∧ v.wrappers = w.wrappers ↔ v = w := by
  constructor
  · rintro ⟨h, hw⟩
    exact Value.eq_of_same h hw
  · rintro rfl
    exact ⟨v.same_refl, rfl⟩

/-! ## Objects -/

namespace Object

/-- The class of an object; every array is of the root class. -/
def cls : Object → ClassId
  | str _ => ClassId.string
  | boxed p _ => ClassId.wrapper p
  | array .. => ClassId.object
  | throwable _ c _ => c
  | inst _ c => c

/-- The type of an object as a value: an array type for an array, else its class. -/
def runtimeType : Object → Ty
  | array _ component _ => .array component
  | o => .cls o.cls

/-- Whether the object may stand where the type is expected. -/
def isInstance (G : ClassGraph) (o : Object) (t : Ty) : Bool := G.isAssignable o.runtimeType t

/-- The message of a throwable. -/
def message? : Object → Option String
  | throwable _ _ msg => msg
  | _ => none

/-- The elements of an array. -/
def elements? : Object → Option (List Value)
  | array _ _ elems => some elems
  | _ => none

end Object

/-! ## Texts -/

mutual

/-- An object as messages print it: a string in quotes, a wrapper by class and contents, an array
by component type and elements, a throwable by class and message, an instance by its class and a
mark that stands for its address. Texts are thus up to addresses: those of two instances of a class
do not differ. Errors are told apart by the objects that they carry, not by their texts. -/
def Object.text (G : ClassGraph) : Object → String
  | .str s => Text.quoted s
  | .boxed p content => p.wrapperName ++ "(" ++ content.text G ++ ")"
  | .array _ component elems =>
    component.source G ++ "[" ++ Text.bracketed (Value.texts G elems) ++ "]"
  | .throwable _ c msg => G.name c ++ ": " ++ msg.getD ""
  | .inst _ c => G.name c ++ Text.identityMark

/-- A value as messages print it. -/
def Value.text (G : ClassGraph) : Value → String
  | .prim s => s.text
  | .obj o => o.text G
  | .null => "null"
  | .void => "void"

/-- The texts of a list of values. -/
def Value.texts (G : ClassGraph) : List Value → List String
  | [] => []
  | v :: vs => v.text G :: Value.texts G vs

end

/-! ## Values -/

namespace Value

def string (s : String) : Value := .obj (.str s)

/-- The value that a slot of the type starts with. -/
def zero : Ty → Value
  | .prim p => prim (Scalar.zero p)
  | .void => void
  | _ => null

/-- The type of a primitive value. -/
def primType? : Value → Option Prim
  | prim s => some s.type
  | _ => none

def isNull : Value → Bool
  | null => true
  | _ => false

/-- The object that a value is. -/
def object? : Value → Option Object
  | obj o => some o
  | _ => none

/-- A primitive in an object of its own wrapper class; any other value as it is. -/
def boxed : Value → Value
  | prim s => obj (.boxed s.type (prim s))
  | v => v

/-- The contents of a wrapper object. -/
def unboxed? : Value → Option Value
  | obj (.boxed _ content) => some content
  | _ => none

/-- A primitive value widened; no other value can be. -/
def widen? : Value → Prim → Option Value
  | prim s, p => (s.widen? p).map prim
  | _, _ => none

end Value

end HandleCalculus
