import HandleCalculus.Text.Quoted

/-!
# Identities in texts

The text of an instance ends in its identity. Identities differ from run to run, so texts show the
mark `@#` in their place. A text that comes from elsewhere may still hold one in its numeric form,
`@0x` and hexadecimal digits: `maskIdentities` puts the mark there. It goes by the form alone, so it
also takes an `@0x` that no digit follows.

Two lemmas pin the function down: no numeric form is left (`notInfix_maskIdentityChars`), and a text
that holds none stays as it is (`maskIdentityChars_eq_self`).
-/

set_option autoImplicit false

namespace HandleCalculus.Text

/-- What stands for an identity. -/
def identityMark : String := "@#"

/-- A text with the mark in place of each `@0x` and the hexadecimal digits after it, both cases. -/
def maskIdentityChars : List Char → List Char
  | [] => []
  | '@' :: '0' :: 'x' :: rest =>
    '@' :: '#' :: maskIdentityChars (rest.dropWhile fun c => (ofHexDigit? c).isSome)
  | c :: rest => c :: maskIdentityChars rest
termination_by cs => cs.length
decreasing_by
  · have h := (List.dropWhile_suffix (l := rest) fun c => (ofHexDigit? c).isSome).length_le
    simp only [List.length_cons]
    omega
  · simp

/-- A text with the mark in place of each identity in numeric form. -/
def maskIdentities (s : String) : String := String.ofList (maskIdentityChars s.toList)

theorem maskIdentityChars_eq_self {cs : List Char} (h : ¬ ['@', '0', 'x'] <:+: cs) :
    maskIdentityChars cs = cs := by
  fun_induction maskIdentityChars cs with
  | case1 => rfl
  | case2 rest _ => exact absurd ⟨[], rest, rfl⟩ h
  | case3 c rest _ ih => rw [ih fun hr => h (List.infix_cons hr)]

/-- What stands in a masked text where no mark begins stood there before. -/
theorem exists_of_maskIdentityChars_eq_cons {cs t : List Char} {c : Char} (hc : c ≠ '@')
    (h : maskIdentityChars cs = c :: t) : ∃ rest, cs = c :: rest ∧ maskIdentityChars rest = t := by
  fun_cases maskIdentityChars cs with
  | case1 => simp [maskIdentityChars] at h
  | case2 rest =>
    rw [maskIdentityChars] at h
    exact absurd (List.cons.inj h).1.symm hc
  | case3 d rest hd =>
    rw [maskIdentityChars.eq_3 _ _ hd] at h
    obtain ⟨rfl, ht⟩ := List.cons.inj h
    exact ⟨rest, rfl, ht⟩

theorem notInfix_maskIdentityChars (cs : List Char) :
    ¬ ['@', '0', 'x'] <:+: maskIdentityChars cs := by
  fun_induction maskIdentityChars cs with
  | case1 => simp
  | case2 rest ih => simp [List.infix_cons_iff, ih]
  | case3 c rest hc ih =>
    rw [List.infix_cons_iff]
    rintro (⟨t, ht⟩ | hr)
    · obtain ⟨rfl, h0⟩ := List.cons.inj ht
      obtain ⟨r, rfl, hx⟩ := exists_of_maskIdentityChars_eq_cons (by decide) h0.symm
      obtain ⟨r, rfl, _⟩ := exists_of_maskIdentityChars_eq_cons (by decide) hx
      exact hc r rfl rfl
    · exact ih hr

end HandleCalculus.Text
