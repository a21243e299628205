import HandleCalculus.Proofs.Dispatch

/-!
# Members found as asked

A search for a member is given a name and a descriptor or a type. What it answers is always a member
that exists, declared by the class asked or by one above it, and it answers none in a class only if
that declares none. But a number of sixteen bits comes round after 65536 members, and then what is
found is another member of the class than the one that was looked for.

`FindsAsAsked` says that no search in a graph is answered so. This holds exactly if each member of a
class is among the first 65536 there or has one before it that looks the same (`finds_members`). The
classes of `crowded` are on either side.
-/

set_option autoImplicit false

namespace HandleCalculus.ClassGraph

/-- Whether all searches find what they are asked for: a member that looks as asked, in the class asked
or above it, and wherever a class declares one. -/
structure FindsAsAsked (G : ClassGraph) : Prop where
  methodHere : ∀ c name desc m, G.methodHere? c name desc = some m →
    m.cls = c ∧ G.HasMethod m ∧ (G.method m).LooksLike name desc
  noMethodHere : ∀ c name desc, G.methodHere? c name desc = none → ¬ G.DeclaresMethod c name desc
  fieldHere : ∀ c name type f, G.fieldHere? c name type = some f →
    f.cls = c ∧ G.HasField f ∧ (G.field f).LooksLike name type
  noFieldHere : ∀ c name type, G.fieldHere? c name type = none → ¬ G.DeclaresField c name type
  foundMethod : ∀ c name desc m, G.findMethod? c name desc = some m →
    G.isSubclass c m.cls = true ∧ G.HasMethod m ∧ (G.method m).LooksLike name desc
  foundField : ∀ c name type f, G.findField? c name type = some f →
    G.isSubclass c f.cls = true ∧ G.HasField f ∧ (G.field f).LooksLike name type

/-- Whether each member of a class is among the first 65536 or has one there that looks the same. -/
structure MembersReached (G : ClassGraph) : Prop where
  methods : ∀ c name desc, G.DeclaresMethod c name desc → G.ReachesMethod c name desc
  fields : ∀ c name type, G.DeclaresField c name type → G.ReachesField c name type

variable {G : ClassGraph}

theorem MembersNumbered.membersReached (hG : G.MembersNumbered) : G.MembersReached where
  methods _ _ _ h := reachesMethod_of_declares hG.methods h
  fields _ _ _ h := reachesField_of_declares hG.fields h

/-! ## Answers -/

/-- The method found for a class is one of a class above, which declares such a method as is asked
for. The method itself looks so if that class reaches one, and only then. -/
theorem hasMethod_of_findMethod? {c : ClassId} {name : String} {desc : Descriptor} {m : MethodRef}
    (h : G.findMethod? c name desc = some m) :
    G.isSubclass c m.cls = true ∧ G.HasMethod m ∧ G.DeclaresMethod m.cls name desc ∧
      ((G.method m).LooksLike name desc ↔ G.ReachesMethod m.cls name desc) := by
  obtain ⟨hhere, -⟩ := methodHere?_of_findMethod? h
  obtain ⟨hhas, hlooks⟩ := hasMethod_of_methodHere? hhere
  exact ⟨isSubclass_of_findMethod? h, hhas, declaresMethod_of_methodHere? hhere, hlooks⟩

/-- The same for fields. -/
theorem hasField_of_findField? {c : ClassId} {name : String} {type : Ty} {f : FieldRef}
    (h : G.findField? c name type = some f) :
    G.isSubclass c f.cls = true ∧ G.HasField f ∧ G.DeclaresField f.cls name type ∧
      ((G.field f).LooksLike name type ↔ G.ReachesField f.cls name type) := by
  obtain ⟨hhere, habove⟩ := fieldHere?_of_findField? h
  obtain ⟨hhas, hlooks⟩ := hasField_of_fieldHere? hhere
  exact ⟨habove, hhas, declaresField_of_fieldHere? hhere, hlooks⟩

/-- Where all members are reached, all searches find what they are asked for. -/
theorem MembersReached.findsAsAsked (hG : G.MembersReached) : G.FindsAsAsked where
  methodHere c name desc m h := by
    obtain ⟨hhas, hlooks⟩ := hasMethod_of_methodHere? h
    have hreaches := hG.methods _ _ _ (declaresMethod_of_methodHere? h)
    exact ⟨cls_of_methodHere? h, hhas, hlooks.2 hreaches⟩
  noMethodHere _ _ _ h := methodHere?_eq_none_iff.1 h
  fieldHere c name type f h := by
    obtain ⟨hhas, hlooks⟩ := hasField_of_fieldHere? h
    have hreaches := hG.fields _ _ _ (declaresField_of_fieldHere? h)
    exact ⟨cls_of_fieldHere? h, hhas, hlooks.2 hreaches⟩
  noFieldHere _ _ _ h := fieldHere?_eq_none_iff.1 h
  foundMethod c name desc m h := by
    obtain ⟨habove, hhas, hdeclares, hlooks⟩ := hasMethod_of_findMethod? h
    exact ⟨habove, hhas, hlooks.2 (hG.methods _ _ _ hdeclares)⟩
  foundField c name type f h := by
    obtain ⟨habove, hhas, hdeclares, hlooks⟩ := hasField_of_findField? h
    exact ⟨habove, hhas, hlooks.2 (hG.fields _ _ _ hdeclares)⟩

/-- A member that is declared is found, and then found as asked only if it is reached. -/
theorem FindsAsAsked.membersReached (hG : G.FindsAsAsked) : G.MembersReached where
  methods c name desc hdeclares := by
    cases hfound : G.methodHere? c name desc with
    | none => exact absurd hdeclares (methodHere?_eq_none_iff.1 hfound)
    | some m =>
      obtain ⟨-, -, hlooks⟩ := hG.methodHere c name desc m hfound
      exact (hasMethod_of_methodHere? hfound).2.1 hlooks
  fields c name type hdeclares := by
    cases hfound : G.fieldHere? c name type with
    | none => exact absurd hdeclares (fieldHere?_eq_none_iff.1 hfound)
    | some f =>
      obtain ⟨-, -, hlooks⟩ := hG.fieldHere c name type f hfound
      exact (hasField_of_fieldHere? hfound).2.1 hlooks

/-- What searches for members answer. -/
structure FindsMembers (G : ClassGraph) : Prop where
  /-- No method is found in a class exactly if it declares none that looks as asked. -/
  noMethodHere : ∀ c name desc, G.methodHere? c name desc = none ↔ ¬ G.DeclaresMethod c name desc
  /-- One that is found is a method of the class, and looks as asked exactly if such a one is reached. -/
  methodHere : ∀ c name desc m, G.methodHere? c name desc = some m →
    m.cls = c ∧ G.HasMethod m ∧ ((G.method m).LooksLike name desc ↔ G.ReachesMethod c name desc)
  noFieldHere : ∀ c name type, G.fieldHere? c name type = none ↔ ¬ G.DeclaresField c name type
  fieldHere : ∀ c name type f, G.fieldHere? c name type = some f →
    f.cls = c ∧ G.HasField f ∧ ((G.field f).LooksLike name type ↔ G.ReachesField c name type)
  /-- What is found for a class is a method of that class or of one above, which declares one that looks
  as asked. The method found looks so exactly if such a one is reached. -/
  foundMethod : ∀ c name desc m, G.findMethod? c name desc = some m →
    G.isSubclass c m.cls = true ∧ G.HasMethod m ∧ G.DeclaresMethod m.cls name desc ∧
      ((G.method m).LooksLike name desc ↔ G.ReachesMethod m.cls name desc)
  foundField : ∀ c name type f, G.findField? c name type = some f →
    G.isSubclass c f.cls = true ∧ G.HasField f ∧ G.DeclaresField f.cls name type ∧
      ((G.field f).LooksLike name type ↔ G.ReachesField f.cls name type)
  /-- All searches find what they are asked for exactly if all members are reached. -/
  asAsked_iff : G.FindsAsAsked ↔ G.MembersReached

/-- **A member is found as asked exactly if it is reached**, in every graph and by every search. -/
theorem finds_members (G : ClassGraph) : G.FindsMembers where
  noMethodHere _ _ _ := methodHere?_eq_none_iff
  methodHere _ _ _ _ h := ⟨cls_of_methodHere? h, hasMethod_of_methodHere? h⟩
  noFieldHere _ _ _ := fieldHere?_eq_none_iff
  fieldHere _ _ _ _ h := ⟨cls_of_fieldHere? h, hasField_of_fieldHere? h⟩
  foundMethod _ _ _ _ h := hasMethod_of_findMethod? h
  foundField _ _ _ _ h := hasField_of_findField? h
  asAsked_iff := ⟨FindsAsAsked.membersReached, MembersReached.findsAsAsked⟩

/-! ## A class with many members -/

section Crowd

variable {α : Type} {a b : α} {n : Nat}

/-- A member `n` times over, and then another one. -/
def crowd (n : Nat) (a b : α) : List α := List.replicate n a ++ [b]

@[simp] theorem length_crowd (n : Nat) (a b : α) : (crowd n a b).length = n + 1 := by
  simp [crowd]

theorem findIdx?_crowd {p : α → Bool} (ha : p a = false) (hb : p b = true) :
    (crowd n a b).findIdx? p = some n := by
  simp [crowd, List.findIdx?_append, ha, hb]

/-- The last member is among the first `k` exactly if fewer than `k` are before it. -/
theorem exists_mem_take_crowd_iff {k : Nat} {P : α → Prop} (ha : ¬ P a) (hb : P b) :
    (∃ d ∈ (crowd n a b).take k, P d) ↔ n < k := by
  constructor
  · rintro ⟨d, hd, hfits⟩
    rcases Nat.lt_or_ge n k with hlt | hge
    · exact hlt
    · rw [crowd, List.take_append_of_le_length (by simpa using hge)] at hd
      obtain rfl := List.eq_of_mem_replicate (List.mem_of_mem_take hd)
      exact absurd hfits ha
  · intro hlt
    have hlast : n < min k (crowd n a b).length := by
      rw [length_crowd]
      omega
    exact ⟨b, List.mem_take_iff_getElem.2 ⟨n, hlast, by simp [crowd]⟩, hb⟩

end Crowd

/-- A class `p/C` with `n` methods and `n` fields named `a`, and after them a method and a field named
`b`. -/
def crowded (n : Nat) : ClassGraph where
  defined := #[
    ⟨"p/C", ⟨0x0001⟩, .bootstrap, some ClassId.object, [],
      crowd n (.withBody "a" ⟨[], .prim .int⟩ ⟨0x0009⟩) (.withBody "b" ⟨[], .prim .int⟩ ⟨0x0009⟩),
      crowd n ⟨"a", .prim .int, ⟨0x0009⟩⟩ ⟨"b", .prim .int, ⟨0x0009⟩⟩⟩]
  older := ClassGraph.older_of_lt (by
    intro i s hs
    obtain rfl : s = ClassId.object := by simpa [ClassDecl.supers] using hs
    exact Nat.lt_of_lt_of_le (by decide) (Nat.le_add_right bootstrapCount i))

/-- The last members are found under the numbers that their places come to. -/
theorem find_crowded (n : Nat) :
    (crowded n).findMethod? bootstrapCount "b" ⟨[], .prim .int⟩ =
        some ⟨bootstrapCount, UInt16.ofNat n⟩ ∧
      (crowded n).findField? bootstrapCount "b" (.prim .int) =
        some ⟨bootstrapCount, UInt16.ofNat n⟩ := by
  constructor
  · apply findMethod?_of_methodHere?
    have hfirst : (((crowded n).decl bootstrapCount).methods.findIdx? fun m =>
        m.name == "b" && m.desc == ⟨[], .prim .int⟩) = some n := findIdx?_crowd rfl rfl
    rw [methodHere?, hfirst]
    rfl
  · apply findField?_of_fieldHere?
    have hfirst : (((crowded n).decl bootstrapCount).fields.findIdx? fun f =>
        f.name == "b" && f.type == .prim .int) = some n := findIdx?_crowd rfl rfl
    rw [fieldHere?, hfirst]
    rfl

theorem membersReached_crowded_iff (n : Nat) : (crowded n).MembersReached ↔ n < 65536 := by
  constructor
  · intro hreached
    have hdeclares : (crowded n).DeclaresMethod bootstrapCount "b" ⟨[], .prim .int⟩ :=
      ⟨_, List.mem_append_right _ List.mem_cons_self, rfl, rfl⟩
    have hother : ¬ (MethodDecl.withBody "a" ⟨[], .prim .int⟩ ⟨0x0009⟩).LooksLike "b"
        ⟨[], .prim .int⟩ := by
      simp [MethodDecl.LooksLike, MethodDecl.withBody]
    exact (exists_mem_take_crowd_iff (P := (MethodDecl.LooksLike · "b" ⟨[], .prim .int⟩)) hother
      ⟨rfl, rfl⟩).1 (hreached.methods _ _ _ hdeclares)
  · intro hlt
    apply MembersNumbered.membersReached
    constructor
    · refine forall_decl (p := fun d => d.methods.length ≤ 65536) (by decide) ?_ (by decide)
      intro d hd
      obtain rfl := Array.mem_singleton.1 hd
      show (crowd n _ _).length ≤ 65536
      rw [length_crowd]
      exact hlt
    · refine forall_decl (p := fun d => d.fields.length ≤ 65536) (by decide) ?_ (by decide)
      intro d hd
      obtain rfl := Array.mem_singleton.1 hd
      show (crowd n _ _).length ≤ 65536
      rw [length_crowd]
      exact hlt

/-- After 65535 others the last members are found. After one more they are not: their numbers have come
round to those of the first ones. -/
theorem finds_members_of_crowded :
    (crowded 65535).FindsAsAsked ∧ ¬ (crowded 65536).FindsAsAsked ∧
      (crowded 65536).findMethod? bootstrapCount "b" ⟨[], .prim .int⟩ = some ⟨bootstrapCount, 0⟩ ∧
      ((crowded 65536).method ⟨bootstrapCount, 0⟩).name = "a" ∧
      (crowded 65536).findField? bootstrapCount "b" (.prim .int) = some ⟨bootstrapCount, 0⟩ ∧
      ((crowded 65536).field ⟨bootstrapCount, 0⟩).name = "a" := by
  obtain ⟨hmethod, hfield⟩ := find_crowded 65536
  refine ⟨?_, ?_, hmethod, rfl, hfield, rfl⟩
  · exact (finds_members _).asAsked_iff.2 ((membersReached_crowded_iff _).2 (by decide))
  · intro hfinds
    have hreached := (finds_members _).asAsked_iff.1 hfinds
    exact absurd ((membersReached_crowded_iff _).1 hreached) (by decide)

end HandleCalculus.ClassGraph
