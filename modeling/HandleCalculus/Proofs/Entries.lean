import Mathlib.Data.List.Basic

/-!
# Entries under keys

Member handles, thunks, collectors and registered classes are kept in lists of entries, each under its
key. A new entry stands before the others and hides those under its own key, of which there are none
wherever an entry is made only after a look-up for its key has found nothing.
-/

set_option autoImplicit false

namespace HandleCalculus

variable {κ α : Type} [BEq κ] [LawfulBEq κ] {k k' : κ} {a a' : α} {entries : List (κ × α)}

theorem lookup_eq_none_iff_notMem : entries.lookup k = none ↔ k ∉ entries.map Prod.fst := by
  simp only [List.lookup_eq_none_iff, List.mem_map, not_exists, not_and, Prod.forall]
  constructor
  · rintro hnone k' a hmem rfl
    simpa using hnone _ a hmem
  · intro hnone k' a hmem
    simpa using fun heq : k = k' => hnone k' a hmem heq.symm

/-- What is found under a key is the new entry, or what was found there before. -/
theorem lookup_cons_cases (h : ((k', a') :: entries).lookup k = some a) :
    k = k' ∧ a = a' ∨ entries.lookup k = some a := by
  rw [List.lookup_cons] at h
  split at h
  · next heq => exact .inl ⟨eq_of_beq heq, (Option.some.inj h).symm⟩
  · exact .inr h

/-- What holds of all that is found still does if it holds of the new entry. -/
theorem forall_lookup_cons {P : κ → α → Prop} (hall : ∀ k a, entries.lookup k = some a → P k a)
    (hnew : P k' a') : ∀ k a, ((k', a') :: entries).lookup k = some a → P k a := by
  intro k a h
  obtain ⟨rfl, rfl⟩ | hold := lookup_cons_cases h
  · exact hnew
  · exact hall k a hold

/-- An entry under a key that had none hides nothing. -/
theorem lookup_cons_of_none (hnone : entries.lookup k' = none) (h : entries.lookup k = some a) :
    ((k', a') :: entries).lookup k = some a := by
  have hne : k ≠ k' := by
    rintro rfl
    cases hnone.symm.trans h
  rw [List.lookup_cons, beq_false_of_ne hne]
  exact h

end HandleCalculus
