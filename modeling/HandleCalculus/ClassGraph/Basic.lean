import HandleCalculus.ClassGraph.Bootstrap
import HandleCalculus.ClassName

/-!
# The class graph

The bootstrap classes followed by the classes defined later, each numbered by its place. A class
can only extend and implement older classes, so every walk towards supertypes ends
(`ClassGraph.lt_of_mem_supers`). A number outside the graph reads as an empty class that extends
the root; no class of a graph mentions one.
-/

set_option autoImplicit false

namespace HandleCalculus

/-- The identity of a slot access, by which field handles read and write slots. -/
abbrev AccessId := Nat

/-- The classes of a program. -/
structure ClassGraph where
  /-- The classes defined after the bootstrap classes. -/
  defined : Array ClassDecl
  /-- Supertypes are older. -/
  older : ∀ i d, defined[i]? = some d → ∀ s ∈ d.supers, s < bootstrapCount + i
  /-- The slot access that field handles made from these classes get. Two programs with the same
  classes may each have their own. -/
  access : AccessId := 0

namespace ClassGraph

/-- The graph of the bootstrap classes alone. -/
def bootstrap : ClassGraph where
  defined := #[]
  older := by simp

/-- What a number outside the graph reads as. -/
def outside : ClassDecl :=
  ⟨"", ⟨0⟩, .bootstrap, some ClassId.object, [], [], []⟩

/-- The number of classes. -/
def size (G : ClassGraph) : Nat := bootstrapCount + G.defined.size

/-- The declaration of a class. -/
def decl (G : ClassGraph) (c : ClassId) : ClassDecl :=
  if c < bootstrapCount then bootstrapClasses[c]?.getD outside
  else G.defined[c - bootstrapCount]?.getD outside

/-- What holds of the bootstrap classes, of the classes defined and of what is outside holds of every
declaration. -/
theorem forall_decl {G : ClassGraph} {p : ClassDecl → Prop} (bootstrap : ∀ d ∈ bootstrapClasses, p d)
    (defined : ∀ d ∈ G.defined, p d) (outside : p outside) (c : ClassId) : p (G.decl c) := by
  have getD : ∀ o : Option ClassDecl, (∀ d, o = some d → p d) → p (o.getD ClassGraph.outside) := by
    rintro (_ | d) h
    · exact outside
    · exact h d rfl
  unfold decl
  split
  · exact getD _ fun d hd => bootstrap d (List.mem_of_getElem? hd)
  · exact getD _ fun d hd => defined d (Array.mem_of_getElem? hd)

/-- Classes whose supertypes all stand before them are those of a graph. -/
theorem older_of_lt {ds : Array ClassDecl}
    (h : ∀ i : Fin ds.size, ∀ s ∈ ds[i].supers, s < bootstrapCount + i) :
    ∀ i d, ds[i]? = some d → ∀ s ∈ d.supers, s < bootstrapCount + i := by
  intro i d hd
  obtain ⟨hi, rfl⟩ := Array.getElem?_eq_some_iff.1 hd
  exact h ⟨i, hi⟩

def name (G : ClassGraph) (c : ClassId) : String := (G.decl c).name
def loader (G : ClassGraph) (c : ClassId) : Loader := (G.decl c).loader
def flags (G : ClassGraph) (c : ClassId) : Flags := (G.decl c).flags
def parent? (G : ClassGraph) (c : ClassId) : Option ClassId := (G.decl c).parent
def interfaces (G : ClassGraph) (c : ClassId) : List ClassId := (G.decl c).interfaces
def isInterface (G : ClassGraph) (c : ClassId) : Bool := (G.flags c).isInterface

/-- A class with its loader, as messages name it. -/
def text (G : ClassGraph) (c : ClassId) : String := G.name c ++ (G.loader c).text

private theorem bootstrap_older :
    ∀ c < bootstrapCount, ∀ s ∈ (bootstrapClasses[c]?.getD outside).supers, s < c := by
  decide

/-- Supertypes have smaller numbers. -/
theorem lt_of_mem_supers (G : ClassGraph) {c s : Nat} (h : s ∈ (G.decl c).supers) : s < c := by
  by_cases hc : c < bootstrapCount
  · rw [decl, if_pos hc] at h
    exact bootstrap_older c hc s h
  · rw [decl, if_neg hc] at h
    cases hd : G.defined[c - bootstrapCount]? with
    | some d =>
      rw [hd] at h
      have hs := G.older _ d hd s h
      rwa [Nat.add_sub_cancel' (Nat.le_of_not_lt hc)] at hs
    | none =>
      rw [hd] at h
      obtain rfl : s = ClassId.object := by simpa [outside, ClassDecl.supers] using h
      exact Nat.lt_of_lt_of_le (by decide) (Nat.le_of_not_lt hc)

theorem lt_of_parent? (G : ClassGraph) {c p : Nat} (h : G.parent? c = some p) : p < c :=
  G.lt_of_mem_supers (by simp [ClassDecl.supers, show (G.decl c).parent = some p from h])

theorem lt_of_mem_interfaces (G : ClassGraph) {c i : Nat} (h : i ∈ G.interfaces c) : i < c :=
  G.lt_of_mem_supers (by
    simp only [ClassDecl.supers, List.mem_append]
    exact Or.inr h)

/-- Adds a class whose supertypes are in the graph. -/
def add (G : ClassGraph) (d : ClassDecl) (h : ∀ s ∈ d.supers, s < G.size) : ClassGraph where
  defined := G.defined.push d
  older := by
    intro i e he s hs
    rw [Array.getElem?_push] at he
    split at he
    · next hi =>
      obtain rfl : d = e := by simpa using he
      subst hi
      exact h s hs
    · exact G.older i e he s hs
  access := G.access

/-- Adds a class at the next number, if its supertypes are in the graph. -/
def define (G : ClassGraph) (d : ClassDecl) : Option (ClassId × ClassGraph) :=
  if h : ∀ s ∈ d.supers, s < G.size then some (G.size, G.add d h) else none

end ClassGraph

namespace Ty

/-- The descriptor of a type: a letter, or the full class name between `L` and a semicolon. -/
def descriptor (G : ClassGraph) : Ty → String
  | prim p => p.descriptor.toString
  | void => "V"
  | cls c => "L" ++ G.name c ++ ";"
  | array t => "[" ++ t.descriptor G

/-- The type as source text writes it, a class by its simple name. -/
def source (G : ClassGraph) : Ty → String
  | prim p => p.keyword
  | void => "void"
  | cls c => ClassName.simple (G.name c)
  | array t => t.source G ++ "[]"

/-- The primitive type whose wrapper class the type is. -/
def unwrapped? : Ty → Option Prim
  | cls c => ClassId.unwrapped? c
  | _ => none

/-- The wrapper class of a primitive type, as a type. -/
def wrapper (p : Prim) : Ty := cls (ClassId.wrapper p)

def object : Ty := cls ClassId.object
def string : Ty := cls ClassId.string

theorem unwrapped?_wrapper (p : Prim) : (wrapper p).unwrapped? = some p :=
  ClassId.unwrapped?_wrapper p

end Ty

/-- The descriptor as text: parameters in parentheses, then the result. -/
def Descriptor.text (G : ClassGraph) (d : Descriptor) : String :=
  "(" ++ String.join (d.params.map (·.descriptor G)) ++ ")" ++ d.ret.descriptor G

end HandleCalculus
