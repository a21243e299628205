import HandleCalculus.Proofs.Assignability
import HandleCalculus.Value
import Mathlib.Logic.Relation
import Mathlib.Order.Defs.Unbundled

/-!
# The order of types

A class is below another one exactly if declared supertypes lead up from the one to the other
(`isSubclass_iff_leadsUp`). Supertypes are older, so that every way up ends. Two things follow: going
up from supertype to supertype answers the question, and it is the only answer that does
(`goesUp_iff`); and no two classes are below each other, so that being a subclass is a partial order.

Types inherit the order of classes. Arrays are ordered by their components, to any depth, and what
all of them share is to stand below the root class, above which there is nothing.
-/

set_option autoImplicit false

namespace HandleCalculus.ClassGraph

variable {G : ClassGraph} {a b c d : ClassId} {s t : Ty}

/-! ## The way up -/

/-- Whether `s` is the parent of a class or an interface that it lists. -/
def Extends (G : ClassGraph) (c s : ClassId) : Prop := s ∈ (G.decl c).supers

theorem extends_iff : G.Extends c d ↔ d ∈ G.interfaces c ∨ G.parent? c = some d := by
  show d ∈ (G.parent? c).toList ++ G.interfaces c ↔ _
  rw [List.mem_append, Option.mem_toList, or_comm]

theorem lt_of_extends (h : G.Extends c d) : d < c := G.lt_of_mem_supers h

/-- No way up goes on for ever. -/
theorem wellFounded_extends (G : ClassGraph) : WellFounded fun s c => G.Extends c s :=
  Subrelation.wf lt_of_extends Nat.lt_wfRel.wf

theorem isSubclass_of_extends (hcd : G.Extends c d) (h : G.isSubclass d a = true) :
    G.isSubclass c a = true := by
  rcases extends_iff.1 hcd with hi | hp
  · exact isSubclass_of_interface hi h
  · exact isSubclass_of_parent hp h

/-- A class is below those that declared supertypes lead up to, and no others. -/
theorem isSubclass_iff_leadsUp :
    G.isSubclass c d = true ↔ Relation.ReflTransGen G.Extends c d := by
  constructor
  · intro h
    induction c using (wellFounded_extends G).induction with
    | _ c ih =>
      rcases isSubclass_cases h with rfl | ⟨i, hi, hid⟩ | ⟨p, hp, hpd⟩
      · exact .refl
      · have hci : G.Extends c i := extends_iff.2 (.inl hi)
        exact .head hci (ih i hci hid)
      · have hcp : G.Extends c p := extends_iff.2 (.inr hp)
        exact .head hcp (ih p hcp hpd)
  · intro h
    induction h using Relation.ReflTransGen.head_induction_on with
    | refl => exact G.isSubclass_refl d
    | head hcb _ ih => exact isSubclass_of_extends hcb ih

/-! ## Going up -/

/-- Whether `f` answers by going up: a class is below itself, and below what its parent or an
interface that it lists is below. -/
def GoesUp (G : ClassGraph) (f : ClassId → ClassId → Bool) : Prop :=
  ∀ c d, f c d = (c == d || (G.parent? c).any (f · d) || (G.interfaces c).any (f · d))

theorem goesUp_isSubclass (G : ClassGraph) : G.GoesUp G.isSubclass := by
  intro c d
  rw [Bool.eq_iff_iff]
  simp only [Bool.or_eq_true, beq_iff_eq, Option.any_eq_true, List.any_eq_true]
  constructor
  · intro h
    rcases isSubclass_cases h with rfl | ⟨i, hi, hid⟩ | ⟨p, hp, hpd⟩
    · exact .inl (.inl rfl)
    · exact .inr ⟨i, hi, hid⟩
    · exact .inl (.inr ⟨p, hp, hpd⟩)
  · rintro ((rfl | ⟨p, hp, hpd⟩) | ⟨i, hi, hid⟩)
    · exact G.isSubclass_refl c
    · exact isSubclass_of_parent hp hpd
    · exact isSubclass_of_interface hi hid

/-- The way up ends, so going up has one answer. -/
theorem GoesUp.unique {f g : ClassId → ClassId → Bool} (hf : G.GoesUp f) (hg : G.GoesUp g) :
    f = g := by
  funext c d
  induction c using (wellFounded_extends G).induction with
  | _ c ih =>
    have hparent : (G.parent? c).any (f · d) = (G.parent? c).any (g · d) := by
      cases hp : G.parent? c with
      | none => rfl
      | some p => exact ih p (extends_iff.2 (.inr hp))
    have hinterfaces : (G.interfaces c).any (f · d) = (G.interfaces c).any (g · d) := by
      rw [Bool.eq_iff_iff, List.any_eq_true, List.any_eq_true]
      refine exists_congr fun i => and_congr_right fun hi => ?_
      rw [ih i (extends_iff.2 (.inl hi))]
    rw [hf c d, hg c d, hparent, hinterfaces]

theorem goesUp_iff {f : ClassId → ClassId → Bool} : G.GoesUp f ↔ f = G.isSubclass := by
  constructor
  · intro hf
    exact hf.unique G.goesUp_isSubclass
  · rintro rfl
    exact G.goesUp_isSubclass

/-! ## Types -/

/-- A class stands for the classes above it. -/
theorem isAssignable_cls_iff :
    G.isAssignable (.cls c) t = true ↔ ∃ d, t = .cls d ∧ G.isSubclass c d = true := by
  constructor
  · intro h
    cases t with
    | prim p => cases h
    | void => cases h
    | cls d => exact ⟨d, rfl, h⟩
    | array u => cases h
  · rintro ⟨d, rfl, h⟩
    exact h

theorem isAssignable_array_array_iff {s t : Ty} :
    G.isAssignable (.array s) (.array t) = true ↔
      s = t ∨ s.isReference = true ∧ t.isReference = true ∧ G.isAssignable s t = true := by
  simp [isAssignable, and_assoc]

/-- An array stands for the root class and for arrays: its own type, and where it holds references
those of what they stand for. -/
theorem isAssignable_array_iff {s t : Ty} :
    G.isAssignable (.array s) t = true ↔
      t = .object ∨ t = .array s ∨
        ∃ u, t = .array u ∧ s.isReference = true ∧ u.isReference = true ∧
          G.isAssignable s u = true := by
  constructor
  · intro h
    cases t with
    | prim p => cases h
    | void => cases h
    | cls c => exact .inl (congrArg Ty.cls (beq_iff_eq.1 h))
    | array u =>
      rcases isAssignable_array_array_iff.1 h with rfl | h
      · exact .inr (.inl rfl)
      · exact .inr (.inr ⟨u, rfl, h⟩)
  · rintro (rfl | rfl | ⟨u, rfl, h⟩)
    · rfl
    · exact G.isAssignable_refl _
    · exact isAssignable_array_array_iff.2 (.inr h)

/-- What holds no references stands for itself alone. -/
theorem isAssignable_iff_eq (hs : s.isReference = false) : G.isAssignable s t = true ↔ s = t := by
  constructor
  · exact eq_of_isAssignable hs
  · rintro rfl
    exact G.isAssignable_refl s

theorem isAssignable_antisymm (hst : G.isAssignable s t = true) (hts : G.isAssignable t s = true) :
    s = t := by
  -- on the first type: arrays compare by their components
  induction s generalizing t with
  | prim p => exact eq_of_isAssignable rfl hst
  | void => exact eq_of_isAssignable rfl hst
  | cls c =>
    obtain ⟨d, rfl, hcd⟩ := isAssignable_cls_iff.1 hst
    rw [isSubclass_antisymm hcd hts]
  | array s ih =>
    rcases isAssignable_array_iff.1 hst with rfl | rfl | ⟨u, rfl, -, -, hsu⟩
    · cases hts
    · rfl
    · rcases isAssignable_array_array_iff.1 hts with rfl | ⟨-, -, hus⟩
      · rfl
      · rw [ih hsu hus]

/-- **Assignability is a partial order.** Take a class graph in which every class that is defined
extends one. Being a subclass and being assignable are partial orders, of the classes and of the types.
No way up from class to class goes on for ever, and going up is answered by the one order and nothing
else. Every reference type stands for the root class; a class stands for the classes above it, an array
for the root class and for arrays, by its references, and what is no reference type for itself. So an
object that is an instance of a type is one of whatever that type stands for. -/
theorem assignability_is_partial_order (hG : ∀ d ∈ G.defined, d.parent ≠ none) :
    IsPartialOrder ClassId (fun c d => G.isSubclass c d = true) ∧
    IsPartialOrder Ty (fun s t => G.isAssignable s t = true) ∧
    (WellFounded fun s c => G.Extends c s) ∧ (∀ f, G.GoesUp f ↔ f = G.isSubclass) ∧
    (∀ t, t.isReference = true → G.isAssignable t .object = true) ∧
    (∀ c t, G.isAssignable (.cls c) t = true ↔ ∃ d, t = .cls d ∧ G.isSubclass c d = true) ∧
    (∀ s t, G.isAssignable (.array s) t = true ↔
      t = .object ∨ t = .array s ∨
        ∃ u, t = .array u ∧ s.isReference = true ∧ u.isReference = true ∧
          G.isAssignable s u = true) ∧
    (∀ s t, s.isReference = false → (G.isAssignable s t = true ↔ s = t)) ∧
    ∀ (o : Object) (s t : Ty), o.isInstance G s = true → G.isAssignable s t = true →
      o.isInstance G t = true := by
  refine ⟨?_, ?_, G.wellFounded_extends, fun f => goesUp_iff, fun t ht => ?_,
    fun c t => isAssignable_cls_iff, fun s t => isAssignable_array_iff,
    fun s t hs => isAssignable_iff_eq hs, ?_⟩
  · exact
      { refl := G.isSubclass_refl
        trans := fun a b c hab hbc => G.isSubclass_trans hab hbc
        antisymm := fun a b hab hba => isSubclass_antisymm hab hba }
  · exact
      { refl := G.isAssignable_refl
        trans := fun r s t hrs hst => G.isAssignable_trans hrs hst
        antisymm := fun s t hst hts => isAssignable_antisymm hst hts }
  · exact (parented_of_defined hG).isAssignable_object ht
  · intro o s t ho hst
    exact G.isAssignable_trans ho hst

/-- An interface `p/I`, interfaces `p/J` and `p/K` that extend it, and a class `p/D` that lists both. -/
def diamond : ClassGraph where
  defined := #[
    ⟨"p/I", ⟨0x0601⟩, .bootstrap, some ClassId.object, [], [], []⟩,
    ⟨"p/J", ⟨0x0601⟩, .bootstrap, some ClassId.object, [bootstrapCount], [], []⟩,
    ⟨"p/K", ⟨0x0601⟩, .bootstrap, some ClassId.object, [bootstrapCount], [], []⟩,
    ⟨"p/D", ⟨0x0001⟩, .bootstrap, some ClassId.object, [bootstrapCount + 1, bootstrapCount + 2], [],
      []⟩]
  older := ClassGraph.older_of_lt (by decide)

/-- Arrays of arrays of the class stand for arrays of arrays of the interface at the top, and not the
other way round; an array of such arrays is an array of objects. -/
theorem assignability_is_partial_order_of_diamond :
    let bottom : Ty := .array (.array (.cls (bootstrapCount + 3)))
    let top : Ty := .array (.array (.cls bootstrapCount))
    diamond.isAssignable bottom top = true ∧ ¬ diamond.isAssignable top bottom = true ∧
      ∀ n vs, (Object.array n (.array (.cls (bootstrapCount + 3))) vs).isInstance diamond
        (.array .object) = true := by
  intro bottom top
  have hparents : ∀ d ∈ diamond.defined, d.parent ≠ none := by decide
  obtain ⟨-, hTypes, -, -, hobject, -, harray, -, hinstance⟩ :=
    assignability_is_partial_order hparents
  have hup : diamond.isAssignable bottom top = true := rfl
  refine ⟨hup, fun hdown => ?_, fun n vs => ?_⟩
  · have heq : bottom = top := hTypes.antisymm _ _ hup hdown
    exact absurd heq (by decide)
  · have hrefs := (harray (.array (.cls bootstrapCount)) (.array .object)).2
      (.inr (.inr ⟨.object, rfl, rfl, rfl, hobject _ rfl⟩))
    exact hinstance _ top _ hup hrefs

end HandleCalculus.ClassGraph
