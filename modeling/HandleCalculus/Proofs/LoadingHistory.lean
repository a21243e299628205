import HandleCalculus.Loading
import HandleCalculus.World
import HandleCalculus.Proofs.Entries
import HandleCalculus.Proofs.LoaderAncestry

/-!
# Histories of classes and loaders

Every change of the classes comes down to three kinds of steps: a user loader is created, a class is
built, or a class that has been built is registered under its loader and name, which no class has taken
there (`Classes.Step`). So classes keep their declarations and registrations stay, and a class stands in
the table under its own loader and name (`Classes.Named`). The loaders are those that the creations of
the history make, in this order (`loaders_run`).
-/

set_option autoImplicit false

namespace HandleCalculus.Classes

/-- The steps that changes come down to. -/
inductive Step (C : Classes) : Classes → Prop where
  | newLoader (parent : Loader) : Step C (C.addLoader parent)
  | built (d : ClassDecl) (older : ∀ s ∈ d.supers, s < C.graph.size) :
    Step C { C with graph := C.graph.add d older }
  | registered {c : ClassId} (there : c < C.graph.size)
      (free : C.table.registered? (C.graph.loader c) (C.graph.name c) = none) :
    Step C { C with table :=
      { C.table with entries := ((C.graph.loader c, C.graph.name c), c) :: C.table.entries } }

/-- The second classes have come from the first. -/
def Later : Classes → Classes → Prop := Relation.ReflTransGen Step

variable {C D : Classes} {c : ClassId} {d : ClassDecl} {k : Loader} {name : String}

/-! ## What changes come down to -/

theorem build?_eq_some (h : C.build? d = some (c, D)) :
    ∃ older, c = C.graph.size ∧ D = { C with graph := C.graph.add d older } := by
  unfold build? ClassGraph.define at h
  split at h
  · next older =>
    obtain ⟨rfl, rfl⟩ := Prod.mk.inj (Option.some.inj h)
    exact ⟨older, rfl, rfl⟩
  · cases h

theorem register_eq_ok (h : C.register c = .ok D) :
    C.table.registered? (C.graph.loader c) (C.graph.name c) = none ∧ D = { C with table :=
      { C.table with entries := ((C.graph.loader c, C.graph.name c), c) :: C.table.entries } } := by
  unfold register ClassTable.register at h
  split at h
  · cases h
  · next free => exact ⟨free, (Except.ok.inj h).symm⟩

theorem step_of_register (there : c < C.graph.size) (h : C.register c = .ok D) :
    C.Step D ∧ D.table.loaders = C.table.loaders := by
  obtain ⟨free, rfl⟩ := register_eq_ok h
  exact ⟨.registered there free, rfl⟩

/-- The parent that a change names for a new loader. -/
def Change.parent? : Change → Option Loader
  | newLoader parent => some parent
  | _ => none

/-- What a change comes to: steps, and a new loader if it names a parent for one. -/
theorem later_after (C : Classes) (change : Change) : C.Later (C.after change) ∧
    (C.after change).table.loaders =
      (change.parent?.map fun parent => (C.table.loaders.add parent).2).getD C.table.loaders := by
  cases change with
  | newLoader parent => exact ⟨.single (.newLoader parent), rfl⟩
  | build d =>
    unfold after
    dsimp only
    split
    · next c D h =>
      obtain ⟨older, -, rfl⟩ := build?_eq_some h
      exact ⟨.single (.built d older), rfl⟩
    · exact ⟨.refl, rfl⟩
  | register c =>
    unfold after
    dsimp only
    split
    · next there =>
      split
      · next D h => exact (step_of_register there h).imp_left .single
      · exact ⟨.refl, rfl⟩
    · exact ⟨.refl, rfl⟩
  | define d =>
    unfold after define?
    dsimp only
    cases hbuild : C.build? d with
    | none => exact ⟨.refl, rfl⟩
    | some built =>
      obtain ⟨c, B⟩ := built
      obtain ⟨older, rfl, rfl⟩ := build?_eq_some hbuild
      dsimp only [Option.map_some]
      cases hregister : register _ C.graph.size with
      | error e => exact ⟨.refl, rfl⟩
      | ok D =>
        refine (step_of_register ?_ hregister).imp_left fun hstep => .tail (.single (.built d older)) hstep
        show C.graph.size < bootstrapCount + (C.graph.defined.push d).size
        rw [Array.size_push]
        exact Nat.lt_succ_self _

theorem later_run (C : Classes) (changes : List Change) : C.Later (C.run changes) := by
  induction changes generalizing C with
  | nil => exact .refl
  | cons change changes ih => exact (C.later_after change).1.trans (ih (C.after change))

theorem run_append (C : Classes) (before between : List Change) :
    C.run (before ++ between) = (C.run before).run between := List.foldl_append

/-! ## What stays -/

theorem Step.registered? (h : C.Step D) (hc : C.table.registered? k name = some c) :
    D.table.registered? k name = some c := by
  cases h with
  | newLoader parent => exact hc
  | built d older => exact hc
  | registered there free => exact lookup_cons_of_none free hc

theorem Step.decl (h : C.Step D) (hc : c < C.graph.size) :
    c < D.graph.size ∧ D.graph.decl c = C.graph.decl c := by
  cases h with
  | newLoader parent => exact ⟨hc, rfl⟩
  | built d older =>
    refine ⟨?_, ?_⟩
    · show c < bootstrapCount + (C.graph.defined.push d).size
      rw [Array.size_push]
      exact Nat.lt_succ_of_lt hc
    · unfold ClassGraph.decl
      split
      · rfl
      · next hlater =>
        have hc : c < bootstrapCount + C.graph.defined.size := hc
        have hplace : c - bootstrapCount < C.graph.defined.size :=
          Nat.sub_lt_left_of_lt_add (Nat.le_of_not_lt hlater) hc
        show (((C.graph.defined.push d)[c - bootstrapCount]?).getD _) = _
        rw [Array.getElem?_push_lt hplace, Array.getElem?_eq_getElem hplace]
  | registered there free => exact ⟨hc, rfl⟩

theorem Later.registered? (h : C.Later D) (hc : C.table.registered? k name = some c) :
    D.table.registered? k name = some c := by
  induction h with
  | refl => exact hc
  | tail _ hstep ih => exact hstep.registered? ih

/-! ## Classes stand under their own names -/

/-- Every class in the table has been built and stands there under its loader and name. -/
def Named (C : Classes) : Prop :=
  ∀ k name c, C.table.registered? k name = some c →
    c < C.graph.size ∧ C.graph.loader c = k ∧ C.graph.name c = name

theorem mem_of_registered? (h : C.table.registered? k name = some c) :
    ((k, name), c) ∈ C.table.entries := by
  obtain ⟨before, after, hsplit, -⟩ := List.lookup_eq_some_iff.1 h
  rw [hsplit]
  exact List.mem_append_right _ List.mem_cons_self

theorem named_initial : Named initial := by
  intro k name c hc
  obtain ⟨b, hb, hentry⟩ := List.mem_map.1 (mem_of_registered? hc)
  obtain ⟨⟨rfl, rfl⟩, rfl⟩ := (Prod.mk.inj hentry).imp_left Prod.mk.inj
  have hcount : b < bootstrapCount := List.mem_range.1 (List.mem_filter.1 hb).1
  have hloader : ∀ b < bootstrapCount, ClassGraph.bootstrap.loader b = .bootstrap := by decide
  exact ⟨hcount, hloader b hcount, rfl⟩

theorem Step.named (h : C.Step D) (hC : C.Named) : D.Named := by
  have hstays {k name c} (hc : C.table.registered? k name = some c) :
      c < D.graph.size ∧ D.graph.loader c = k ∧ D.graph.name c = name := by
    obtain ⟨hsize, hloader, hname⟩ := hC k name c hc
    obtain ⟨hsize', hdecl⟩ := h.decl hsize
    exact ⟨hsize', (congrArg ClassDecl.loader hdecl).trans hloader,
      (congrArg ClassDecl.name hdecl).trans hname⟩
  intro k name c hc
  cases h with
  | newLoader parent => exact hstays hc
  | built d older => exact hstays hc
  | registered there free =>
    rcases lookup_cons_cases hc with ⟨heq, rfl⟩ | hold
    · obtain ⟨rfl, rfl⟩ := Prod.mk.inj heq
      exact ⟨there, rfl, rfl⟩
    · exact hstays hold

theorem Later.named (h : C.Later D) (hC : C.Named) : D.Named := by
  induction h with
  | refl => exact hC
  | tail _ hstep ih => exact hstep.named ih

theorem named_run (changes : List Change) : (initial.run changes).Named :=
  (initial.later_run changes).named named_initial

/-! ## The loaders of a history -/

/-- The loaders after a history: those that its creations make, one after the other. -/
theorem loaders_run (C : Classes) (changes : List Change) :
    (C.run changes).table.loaders =
      (changes.filterMap Change.parent?).foldl (fun t parent => (t.add parent).2)
        C.table.loaders := by
  induction changes generalizing C with
  | nil => rfl
  | cons change changes ih =>
    show ((C.after change).run changes).table.loaders = _
    rw [ih, (C.later_after change).2]
    cases hparent : change.parent? with
    | none => rw [List.filterMap_cons_none hparent]; rfl
    | some parent => rw [List.filterMap_cons_some hparent]; rfl

end HandleCalculus.Classes

/-! ## In a world

The classes of a world change in the same way, whatever else the world does with them. -/

namespace HandleCalculus.World

theorem classes_addLoader (w : World) (parent : Loader) :
    (w.addLoader parent).2.classes = w.classes.addLoader parent := rfl

theorem classes_register (w : World) (c : ClassId) :
    (w.register c).map World.classes = (w.classes.register c).mapError .resolution := by
  unfold register Classes.register graph
  cases w.classes.table.register w.classes.graph c <;> rfl

theorem classes_declare (w : World) (d : ClassDecl) (scripts : List (Option Script)) :
    (w.declare d scripts).map (fun x => (x.1, x.2.classes)) = w.classes.build? d := by
  unfold declare Classes.build? graph
  cases w.classes.graph.define d <;> rfl

theorem classes_define (w : World) (d : ClassDecl) (scripts : List (Option Script)) :
    (w.define d scripts).map (fun r => r.map fun x => (x.1, x.2.classes)) =
      (w.classes.define? d).map fun r => r.mapError .resolution := by
  unfold define Classes.define?
  rw [← classes_declare w d scripts]
  cases w.declare d scripts with
  | none => rfl
  | some built =>
    obtain ⟨c, w'⟩ := built
    have hregister := w'.classes_register c
    simp only [Option.map_some]
    cases hw : w'.register c with
    | error e =>
      cases hC : w'.classes.register c with
      | error e' =>
        rw [hw, hC] at hregister
        cases hregister
        rfl
      | ok C =>
        rw [hw, hC] at hregister
        cases hregister
    | ok v =>
      cases hC : w'.classes.register c with
      | error e' =>
        rw [hw, hC] at hregister
        cases hregister
      | ok C =>
        rw [hw, hC] at hregister
        obtain rfl := Except.ok.inj hregister
        rfl

end HandleCalculus.World
