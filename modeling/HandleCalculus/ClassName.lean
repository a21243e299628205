/-!
# Class names

A full class name is a package and a simple name with a slash between them. The simple name of a
nested class starts with the name of the class around it, up to the first dollar sign. All parts
are read off the list of characters: the simple name is what follows the last slash.
-/

set_option autoImplicit false

namespace HandleCalculus.ClassName

/-- What follows the last slash. -/
def simpleChars (cs : List Char) : List Char := (cs.reverse.takeWhile (· ≠ '/')).reverse

/-- What comes up to and with the last slash; empty in the default package. -/
def qualifierChars (cs : List Char) : List Char := (cs.reverse.dropWhile (· ≠ '/')).reverse

/-- A name is its qualifier followed by its simple name. -/
theorem qualifierChars_append_simpleChars (cs : List Char) :
    qualifierChars cs ++ simpleChars cs = cs := by
  simp [qualifierChars, simpleChars, ← List.reverse_append]

theorem slash_notMem_simpleChars (cs : List Char) : '/' ∉ simpleChars cs := by
  intro h
  have h' : '/' ∈ cs.reverse.takeWhile (· ≠ '/') := by simpa [simpleChars] using h
  have hall : ∀ (l : List Char), ∀ c ∈ l.takeWhile (· ≠ '/'), c ≠ '/' := by
    intro l
    induction l with
    | nil => simp
    | cons x xs ih =>
      intro c hc
      by_cases hx : x = '/'
      · simp [hx] at hc
      · simp only [List.takeWhile_cons, ne_eq, hx, not_false_eq_true, decide_true, if_true,
          List.mem_cons] at hc
        rcases hc with rfl | hc
        · exact hx
        · exact ih c (by simpa using hc)
  exact hall _ _ h' rfl

/-- The package: the qualifier without its last slash. -/
def package (name : String) : String := String.ofList (qualifierChars name.toList).dropLast

/-- The simple name. -/
def simple (name : String) : String := String.ofList (simpleChars name.toList)

/-- The name of the class that is not nested in another and encloses the class, itself if it is
not nested. -/
def outermost (name : String) : String :=
  String.ofList (qualifierChars name.toList ++ (simpleChars name.toList).takeWhile (· ≠ '$'))

/-- The name with dots for slashes. -/
def dotted (name : String) : String :=
  String.ofList (name.toList.map fun c => if c = '/' then '.' else c)

end HandleCalculus.ClassName
