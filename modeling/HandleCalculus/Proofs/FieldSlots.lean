import HandleCalculus.Proofs.CachedDispatch
import HandleCalculus.Proofs.FieldOffsets

/-!
# Slots of fields

A field handle reaches one slot (`ClassGraph.place?`). Reading looks at nothing else in the store
(`Program.exists_getField`) and writing changes nothing else (`Program.setField_cases`), so what keeps
fields apart is that their places are (`ClassGraph.place?_ne`). They are as long as each receiver extends
the class that declares the field: then its slot is the field's own. A receiver that only implements that
class keeps something else at the offset, or nothing.

`Program.fieldSlots` says all of this of resolved fields and of handles on fields, called on machines
with any history.
-/

set_option autoImplicit false

namespace HandleCalculus

/-! ## Places -/

/-- Where a slot is: among those of an instance, or among the static ones of a class. -/
inductive Place where
  | ofInstance (id offset : Nat)
  | ofClass (c : ClassId) (offset : Nat)
  deriving DecidableEq

/-- What is in a slot. -/
def Store.slot? (s : Store) : Place → Option Value
  | .ofInstance id offset => s.instances[id]?.bind (·[offset]?)
  | .ofClass c offset => s.statics[c]?.bind (·[offset]?)

/-- The place that an access to a field reaches, if the arguments have one. -/
def ClassGraph.place? (G : ClassGraph) (f : FieldRef) (isStatic : Bool) (args : List Value) :
    Option Place :=
  if isStatic then some (.ofClass f.cls (G.fieldOffset f))
  else match args with
    | .obj (.inst id _) :: _ => some (.ofInstance id (G.fieldOffset f))
    | _ => none

namespace Store

variable {s s' : Store} {offset : Nat} {v : Value}

theorem slot?_unlogged (s : Store) (p : Place) : s.unlogged.slot? p = s.slot? p := by
  cases p <;> rfl

/-- Writing one slot of one row changes that slot only. -/
private theorem getElem?_set_row {rows : Array (Array Value)} {row : Array Value} {i : Nat}
    (hrow : rows[i]? = some row) (hoffset : offset < row.size) (j k : Nat) :
    (rows.setIfInBounds i (row.setIfInBounds offset v))[j]?.bind (·[k]?) =
      if j = i ∧ k = offset then some v else rows[j]?.bind (·[k]?) := by
  obtain ⟨hi, -⟩ := Array.getElem?_eq_some_iff.1 hrow
  rw [Array.getElem?_setIfInBounds]
  by_cases hj : i = j
  · subst hj
    rw [if_pos rfl, if_pos hi, hrow]
    show (row.setIfInBounds offset v)[k]? = if i = i ∧ k = offset then some v else row[k]?
    rw [Array.getElem?_setIfInBounds]
    by_cases hk : offset = k
    · subst hk
      rw [if_pos rfl, if_pos hoffset, if_pos ⟨rfl, rfl⟩]
    · rw [if_neg hk, if_neg fun h => hk h.2.symm]
  · rw [if_neg hj, if_neg fun h => hj h.1.symm]

/-- Writing an instance slot changes that slot only. -/
theorem slot?_of_writeField {o : Object} (h : s.writeField o offset v = .ok s') :
    ∃ id c, o = .inst id c ∧
      ∀ p, s'.slot? p = if p = .ofInstance id offset then some v else s.slot? p := by
  unfold writeField at h
  split at h
  · next id c slots hslots =>
    split at h
    · next hoffset =>
      obtain rfl := Except.ok.inj h
      refine ⟨id, c, rfl, fun p => ?_⟩
      cases p with
      | ofInstance j k =>
        refine (getElem?_set_row hslots hoffset j k).trans ?_
        simp only [Place.ofInstance.injEq]
        rfl
      | ofClass d k => rw [if_neg (by simp)]; rfl
    · cases h
  · cases h

/-- Writing a static slot changes that slot only. -/
theorem slot?_of_writeStatic {c : ClassId} (h : s.writeStatic c offset v = .ok s') (p : Place) :
    s'.slot? p = if p = .ofClass c offset then some v else s.slot? p := by
  unfold writeStatic at h
  split at h
  · next slots hslots =>
    split at h
    · next hoffset =>
      obtain rfl := Except.ok.inj h
      cases p with
      | ofInstance j k => rw [if_neg (by simp)]; rfl
      | ofClass d k =>
        refine (getElem?_set_row hslots hoffset d k).trans ?_
        simp only [Place.ofClass.injEq]
        rfl
    · cases h
  · cases h

/-- A new instance has the zero of its type in every slot. -/
theorem slot?_newInstance {G : ClassGraph} {c : ClassId} {t : Ty}
    (h : (G.layout c)[offset]? = some t) :
    (s.newInstance G c).2.slot? (.ofInstance s.instances.size offset) = some (.zero t) := by
  show (s.instances.push ((G.layout c).map Value.zero).toArray)[s.instances.size]?.bind
    (·[offset]?) = some (.zero t)
  rw [Array.getElem?_push_size]
  simp [h]

/-- A class defined last has the zero of its type in every static slot. -/
theorem slot?_addClass {d : ClassDecl} {t : Ty} (h : d.staticTypes[offset]? = some t) :
    (s.addClass d).slot? (.ofClass s.statics.size offset) = some (.zero t) := by
  show (s.statics.push (d.staticTypes.map Value.zero).toArray)[s.statics.size]?.bind
    (·[offset]?) = some (.zero t)
  rw [Array.getElem?_push_size]
  simp [h]

end Store

/-! ## Accesses -/

section Accesses

variable {P : Program} {f : FieldRef} {isStatic : Bool} {args : List Value} {v : Value}

/-- An access without a receiver reaches no slot. -/
theorem ClassGraph.place?_of_receiver_error {G : ClassGraph} {member : MemberRef} {e : Error}
    (h : receiver member args = .error e) : G.place? f false args = none := by
  unfold receiver at h
  split at h
  · cases h
  · rfl
  · rfl
  · next v rest hobj _ =>
    cases v with
    | obj o => exact absurd rfl (hobj o)
    | _ => rfl

/-- A step that reads a slot answers what is in it, and fails in one way if it is not there. -/
private theorem readStore_of_slot (read : Store → Except Error Value) (p : Place) {e : Error}
    (h : ∀ s, read s = match s.slot? p with
      | some v => .ok v
      | none => .error e) (m : Machine) :
    Run.readStore read m = match m.store.slot? p with
      | some v => .ok v m
      | none => .error (.error e) m := by
  unfold Run.readStore
  rw [h]
  cases m.store.slot? p <;> rfl

private theorem ofExcept_bind_of_error {α β : Type} {x : Except Error α} {e : Error}
    (h : x = .error e) (next : α → Run β) (m : Machine) :
    (Run.ofExcept x >>= next) m = .error (.error e) m := by
  rw [h]
  rfl

/-- Reading a field answers what is in the slot that it reaches, and fails in one way if there is
none. -/
theorem Program.exists_getField (P : Program) (f : FieldRef) (isStatic : Bool) (args : List Value) :
    ∃ e : Stop, ∀ m : Machine, P.getField f isStatic args m =
      match (P.graph.place? f isStatic args).bind m.store.slot? with
      | some v => .ok v m
      | none => .error e m := by
  cases isStatic with
  | true =>
    exact ⟨_, readStore_of_slot (·.readStatic f.cls (P.graph.fieldOffset f))
      (.ofClass f.cls (P.graph.fieldOffset f)) fun _ => rfl⟩
  | false =>
    cases hreceiver : receiver (.field f) args with
    | error e =>
      refine ⟨.error e, fun m => ?_⟩
      rw [ClassGraph.place?_of_receiver_error hreceiver]
      exact ofExcept_bind_of_error hreceiver _ m
    | ok o =>
      obtain ⟨rest, rfl⟩ := receiver_eq_ok hreceiver
      cases o with
      | inst id c =>
        exact ⟨_, readStore_of_slot (·.readField (.inst id c) (P.graph.fieldOffset f))
          (.ofInstance id (P.graph.fieldOffset f)) fun _ => rfl⟩
      | _ => exact ⟨_, fun m => rfl⟩

/-- A step that writes the store ends with what it writes or fails. -/
private theorem writeStore_bind (write : Store → Except Error Store) (m : Machine) :
    (∃ s, write m.store = .ok s ∧
      (Run.writeStore write >>= fun _ => pure Value.void) m = .ok .void { m with store := s }) ∨
      ∃ e, (Run.writeStore write >>= fun _ => pure Value.void) m = .error e m := by
  cases hwrite : write m.store with
  | ok s =>
    have hstep : Run.writeStore write m = .ok () { m with store := s } := by
      simp [Run.writeStore, hwrite]
    exact .inl ⟨s, rfl, bind_eq_of_ok hstep _⟩
  | error e =>
    have hstep : Run.writeStore write m = .error (.error e) m := by
      simp [Run.writeStore, hwrite]
    exact .inr ⟨_, bind_eq_of_error hstep _⟩

/-- Writing a field changes the slot that it reaches and no other, or fails and changes nothing. -/
theorem Program.setField_cases (P : Program) (f : FieldRef) (isStatic : Bool) (args : List Value)
    (v : Value) (m : Machine) :
    (∃ p s, P.graph.place? f isStatic args = some p ∧
      P.setField f isStatic args v m = .ok .void { m with store := s } ∧
        ∀ q, s.slot? q = if q = p then some v else m.store.slot? q) ∨
      ∃ e, P.setField f isStatic args v m = .error e m := by
  cases isStatic with
  | true =>
    rcases writeStore_bind (·.writeStatic f.cls (P.graph.fieldOffset f) v) m with
      ⟨s, hwrite, hset⟩ | ⟨e, hset⟩
    · exact .inl ⟨_, s, rfl, hset, Store.slot?_of_writeStatic hwrite⟩
    · exact .inr ⟨e, hset⟩
  | false =>
    cases hreceiver : receiver (.field f) args with
    | error e => exact .inr ⟨_, ofExcept_bind_of_error hreceiver _ m⟩
    | ok o =>
      obtain ⟨rest, rfl⟩ := receiver_eq_ok hreceiver
      rcases writeStore_bind (·.writeField o (P.graph.fieldOffset f) v) m with
        ⟨s, hwrite, hset⟩ | ⟨e, hset⟩
      · obtain ⟨id, c, rfl, hslots⟩ := Store.slot?_of_writeField hwrite
        exact .inl ⟨_, s, rfl, hset, hslots⟩
      · exact .inr ⟨e, hset⟩

end Accesses

/-! ## Places of different fields -/

/-- Whether an access goes to a slot of the field's own: if the field is not static and the receiver is
an instance, its class extends the class that declares the field. -/
def ClassGraph.ReceiverExtends (G : ClassGraph) (f : FieldRef) (args : List Value) : Prop :=
  (G.field f).isStatic = false →
    ∀ id c, args.head? = some (.obj (.inst id c)) → f.cls ∈ G.superclasses c

namespace ClassGraph

variable {G : ClassGraph} {f g : FieldRef} {args args' : List Value} {p : Place}

/-- An access to an instance field reaches a slot of an instance only. -/
theorem place?_of_notStatic (h : G.place? f false args = some p) :
    ∃ id c, args.head? = some (.obj (.inst id c)) ∧ p = .ofInstance id (G.fieldOffset f) := by
  unfold place? at h
  rw [if_neg Bool.false_ne_true] at h
  split at h
  · next id c rest => exact ⟨id, c, rfl, (Option.some.inj h).symm⟩
  · cases h

/-- Among live values, accesses to different fields reach different slots, if both receivers extend the
classes that declare the fields. -/
theorem place?_ne {classes : List ClassId} (hf : G.HasField f) (hg : G.HasField g) (hne : f ≠ g)
    (hargs : Value.AllLive classes args) (hargs' : Value.AllLive classes args')
    (hfargs : G.ReceiverExtends f args) (hgargs : G.ReceiverExtends g args')
    (hp : G.place? f (G.field f).isStatic args = some p) :
    G.place? g (G.field g).isStatic args' ≠ some p := by
  intro hq
  cases hfs : (G.field f).isStatic with
  | true =>
    rw [hfs] at hp
    obtain rfl := Option.some.inj hp
    cases hgs : (G.field g).isStatic with
    | true =>
      rw [hgs] at hq
      obtain ⟨hcls, hoffset⟩ := Place.ofClass.inj (Option.some.inj hq)
      exact hne (fieldOffset_inj_of_static hg hf hgs hfs hcls hoffset).symm
    | false =>
      rw [hgs] at hq
      obtain ⟨id, c, -, hplace⟩ := place?_of_notStatic hq
      cases hplace
  | false =>
    rw [hfs] at hp
    obtain ⟨id, c, hhead, rfl⟩ := place?_of_notStatic hp
    cases hgs : (G.field g).isStatic with
    | true =>
      rw [hgs] at hq
      cases hq
    | false =>
      rw [hgs] at hq
      obtain ⟨id', c', hhead', hplace⟩ := place?_of_notStatic hq
      obtain ⟨rfl, hoffset⟩ := Place.ofInstance.inj hplace
      -- one instance is of one class
      have hclass : classes[id]? = some c :=
        Value.allLive_iff.1 hargs _ (List.mem_of_head? hhead)
      have hclass' : classes[id]? = some c' :=
        Value.allLive_iff.1 hargs' _ (List.mem_of_head? hhead')
      obtain rfl : c = c' := Option.some.inj (hclass.symm.trans hclass')
      exact hne (HasInstanceField.fieldOffset_inj ⟨hf, hfs⟩ ⟨hg, hgs⟩ (hfargs hfs id c hhead)
        (hgargs hgs id c hhead') hoffset)

end ClassGraph

/-! ## Handles on fields -/

section Handles

variable {P : Program} {h : Handle} {f : FieldRef} {isStatic : Bool} {access : AccessId}
  {args : List Value} {v w : Value} {m n : Machine} {depth : Nat}

theorem Machine.slot?_of_visible_eq (h : m.visible = n.visible) (p : Place) :
    m.store.slot? p = n.store.slot? p :=
  calc m.store.slot? p
      = m.store.unlogged.slot? p := (m.store.slot?_unlogged p).symm
    _ = n.store.unlogged.slot? p := by rw [(Machine.visible_eq_iff.1 h).1]
    _ = n.store.slot? p := n.store.slot?_unlogged p

/-- A getter that accepts its arguments answers what is in the slot that it reaches. -/
theorem Machine.Keyed.getter_of_slot (hm : m.Keyed) (hnode : h.node = .getField f isStatic access)
    (hcheck : h.type.check P.graph args = .ok ()) {p : Place}
    (hp : P.graph.place? f isStatic args = some p) (hv : m.store.slot? p = some v) :
    (h.invokeExact P (depth + 1) args).answer m = .ok v := by
  obtain ⟨n, -, hvisible, hcall⟩ := hm.invokeVia P (Handle.invokeBasic P depth) h args
  obtain ⟨e, hget⟩ := P.exists_getField f isStatic args
  have hperform : h.perform P (Handle.invokeBasic P depth) args n = .ok v n := by
    simp only [Handle.perform, hnode]
    rw [hget, hp, Option.bind_some, Machine.slot?_of_visible_eq hvisible, hv]
  unfold Run.answer
  rw [Handle.invokeExact_of_check hcheck, Handle.invokeBasic_succ, hcall, hperform]
  rfl

/-- A getter answers the same on machines that have the same in the slot that it reaches. -/
theorem Machine.Keyed.getter_congr (hm : m.Keyed) (hn : n.Keyed)
    (hnode : h.node = .getField f isStatic access)
    (hslot : ∀ p, P.graph.place? f isStatic args = some p → m.store.slot? p = n.store.slot? p) :
    (h.invokeExact P depth args).answer m = (h.invokeExact P depth args).answer n := by
  unfold Run.answer
  cases hcheck : h.type.check P.graph args with
  | error e => rw [Handle.invokeExact_of_refused hcheck, Handle.invokeExact_of_refused hcheck]; rfl
  | ok u =>
    rw [Handle.invokeExact_of_check hcheck]
    cases depth with
    | zero => rfl
    | succ depth =>
      obtain ⟨m', -, hmvisible, hmcall⟩ := hm.invokeVia P (Handle.invokeBasic P depth) h args
      obtain ⟨n', -, hnvisible, hncall⟩ := hn.invokeVia P (Handle.invokeBasic P depth) h args
      obtain ⟨e, hget⟩ := P.exists_getField f isStatic args
      rw [Handle.invokeBasic_succ, hmcall, hncall]
      simp only [Handle.perform, hnode, hget]
      -- fetching the thunk has changed no slot
      cases hp : P.graph.place? f isStatic args with
      | none => rfl
      | some p =>
        have hsame : m'.store.slot? p = n'.store.slot? p := by
          rw [Machine.slot?_of_visible_eq hmvisible, hslot p hp,
            Machine.slot?_of_visible_eq hnvisible]
        rw [Option.bind_some, Option.bind_some, hsame]
        cases n'.store.slot? p <;> rfl

/-- A setter leaves every slot as it is but the one that it reaches. -/
theorem Machine.Keyed.setter_leaves (hm : m.Keyed) (hnode : h.node = .setField f isStatic access)
    (depth : Nat) (args : List Value) {p : Place}
    (hp : P.graph.place? f isStatic args.dropLast ≠ some p) :
    ((h.invokeExact P depth args).leaves m).store.slot? p = m.store.slot? p := by
  cases hcheck : h.type.check P.graph args with
  | error e => rw [Run.leaves_of_error (Handle.invokeExact_of_refused hcheck depth m)]
  | ok u =>
    rw [Handle.invokeExact_of_check hcheck]
    cases depth with
    | zero => rfl
    | succ depth =>
      obtain ⟨n, -, hvisible, hcall⟩ := hm.invokeVia P (Handle.invokeBasic P depth) h args
      rw [← Machine.slot?_of_visible_eq hvisible]
      unfold Run.leaves
      rw [Handle.invokeBasic_succ, hcall]
      simp only [Handle.perform, hnode]
      cases args.getLast? with
      | none => rfl
      | some v =>
        rcases P.setField_cases f isStatic args.dropLast v n with
          ⟨q, s, hq, hset, hslots⟩ | ⟨e, hset⟩
        · have hpq : p ≠ q := fun h => hp (h ▸ hq)
          simp only [hset, hslots, if_neg hpq]
        · simp only [hset]

/-- A setter that succeeds has written its last argument to the slot that it reaches. -/
theorem Machine.Keyed.setter_writes (hm : m.Keyed) (hnode : h.node = .setField f isStatic access)
    (hset : h.invokeExact P depth (args ++ [v]) m = .ok w n) :
    ∃ p, P.graph.place? f isStatic args = some p ∧ n.store.slot? p = some v := by
  cases hcheck : h.type.check P.graph (args ++ [v]) with
  | error e =>
    rw [Handle.invokeExact_of_refused hcheck] at hset
    cases hset
  | ok u =>
    rw [Handle.invokeExact_of_check hcheck] at hset
    cases depth with
    | zero => cases hset
    | succ depth =>
      obtain ⟨m', -, -, hcall⟩ := hm.invokeVia P (Handle.invokeBasic P depth) h (args ++ [v])
      rw [Handle.invokeBasic_succ, hcall] at hset
      simp only [Handle.perform, hnode, List.getLast?_concat, List.dropLast_concat] at hset
      rcases P.setField_cases f isStatic args v m' with ⟨p, s, hp, hok, hslots⟩ | ⟨e, herror⟩
      · rw [hok] at hset
        cases hset
        refine ⟨p, hp, ?_⟩
        rw [hslots, if_pos rfl]
      · rw [herror] at hset
        cases hset

end Handles

/-! ## Slots of resolved fields -/

/-- What can be relied on of the slots that fields resolve to and that handles on fields reach. -/
structure Program.FieldSlots (P : Program) : Prop where
  /-- An instance field resolved for a class has a slot of its own, of its type, in the instances of
  exactly those subtypes that extend the class which declares it. -/
  resolved : ∀ c name type f, P.graph.resolveField c name type false = .ok f →
    (P.graph.field f).type = type ∧ ∀ d, P.graph.isSubclass d c = true →
      (P.graph.OwnsSlot d f ↔ f.cls ∈ P.graph.superclasses d)
  /-- These are all subtypes if interfaces have no instance slots. -/
  bare : P.graph.InterfacesBare → ∀ c name type f, P.graph.resolveField c name type false = .ok f →
    ∀ d, P.graph.isSubclass d c = true → f.cls ∈ P.graph.superclasses d
  /-- A resolved static field has a slot of its own, of its type, in the class that declares it. -/
  resolvedStatic : ∀ c name type f, P.graph.resolveField c name type true = .ok f →
    (P.graph.decl f.cls).staticTypes[P.graph.fieldOffset f]? = some type ∧
      ∀ g, P.graph.HasField g → (P.graph.field g).isStatic = true → g.cls = f.cls →
        P.graph.fieldOffset g = P.graph.fieldOffset f → g = f
  /-- A getter answers the zero of the field's type for a new instance. -/
  fresh : ∀ (m : Machine), m.Visited → ∀ (f : FieldRef) (d : ClassId) (access : AccessId)
    (getter : Handle) (depth : Nat), P.graph.HasInstanceField f → f.cls ∈ P.graph.superclasses d →
      getter.node = .getField f false access → getter.type.check P.graph [.obj (m.store.newInstance P.graph d).1] = .ok () →
        (getter.invokeExact P (depth + 1) [.obj (m.store.newInstance P.graph d).1]).answer
            { m with store := (m.store.newInstance P.graph d).2 } =
          .ok (.zero (P.graph.field f).type)
  /-- So does a getter of a static field where the class has just been defined. -/
  freshStatic : ∀ (m : Machine), m.Visited → ∀ (f : FieldRef) (access : AccessId) (getter : Handle)
    (depth : Nat), P.graph.HasField f → (P.graph.field f).isStatic = true → m.store.statics.size = f.cls →
      getter.node = .getField f true access → getter.type.check P.graph [] = .ok () →
        (getter.invokeExact P (depth + 1) []).answer
            { m with store := m.store.addClass (P.graph.decl f.cls) } =
          .ok (.zero (P.graph.field f).type)
  /-- What a setter has written is what a getter of the same field answers. -/
  written : ∀ (m : Machine), m.Visited → ∀ (f : FieldRef) (isStatic : Bool) (access access' : AccessId)
    (getter setter : Handle) (depth depth' : Nat) (args : List Value) (v w : Value) (n : Machine),
    getter.node = .getField f isStatic access → setter.node = .setField f isStatic access' →
      getter.type.check P.graph args = .ok () →
        setter.invokeExact P depth' (args ++ [v]) m = .ok w n →
          (getter.invokeExact P (depth + 1) args).answer n = .ok v
  /-- A call of a setter does not change what a getter of another field answers, if the receivers extend
  the classes that declare the fields. -/
  others : ∀ (m : Machine), m.Visited → ∀ (f g : FieldRef) (access access' : AccessId)
    (getter setter : Handle) (depth depth' : Nat) (args args' : List Value),
    P.graph.HasField f → P.graph.HasField g → f ≠ g →
      getter.node = .getField f (P.graph.field f).isStatic access →
      setter.node = .setField g (P.graph.field g).isStatic access' →
      Value.AllLive m.store.live args → Value.AllLive m.store.live args' →
      P.graph.ReceiverExtends f args → P.graph.ReceiverExtends g args' →
        (getter.invokeExact P depth args).answer ((setter.invokeExact P depth' args').leaves m) =
          (getter.invokeExact P depth args).answer m

/-- The value to write stands last, behind the receiver. -/
private theorem head?_of_dropLast {α : Type} {l : List α} {a : α} (h : l.dropLast.head? = some a) :
    l.head? = some a := by
  cases l with
  | nil => cases h
  | cons b l =>
    cases l with
    | nil => cases h
    | cons c l => exact h

/-- **Fields do not share slots**, as long as the receivers extend the classes that declare them. -/
theorem Program.fieldSlots (P : Program) (hG : ∀ c, (P.graph.decl c).fields.length ≤ 65536) :
    P.FieldSlots where
  resolved c name type f h := by
    obtain ⟨hhas, htype, hstatic, -⟩ := ClassGraph.resolveField_eq_ok hG h
    exact ⟨htype, fun d _ => ClassGraph.HasInstanceField.ownsSlot_iff hG ⟨hhas, hstatic⟩⟩
  bare hI c name type f h d hd := by
    obtain ⟨hhas, -, hstatic, hsub⟩ := ClassGraph.resolveField_eq_ok hG h
    exact hI.mem_superclasses ⟨hhas, hstatic⟩ (P.graph.isSubclass_trans hd hsub)
  resolvedStatic c name type f h := by
    obtain ⟨hhas, htype, hstatic, -⟩ := ClassGraph.resolveField_eq_ok hG h
    refine ⟨?_, fun g hg hgs hcls hoffset =>
      ClassGraph.fieldOffset_inj_of_static hg hhas hgs hstatic hcls hoffset⟩
    rw [← htype]
    exact P.graph.staticTypes_fieldOffset (ClassGraph.getElem?_of_hasField hhas) hstatic
  fresh m hm f d access getter depth hf hd hnode hcheck := by
    have hkeyed := hm.keyed.withStore (m.store.newInstance P.graph d).2
    exact hkeyed.getter_of_slot hnode hcheck rfl
      (Store.slot?_newInstance (hf.layout_of_mem_superclasses hd))
  freshStatic m hm f access getter depth hf hstatic hsize hnode hcheck := by
    have hkeyed := hm.keyed.withStore (m.store.addClass (P.graph.decl f.cls))
    have hslot := P.graph.staticTypes_fieldOffset (ClassGraph.getElem?_of_hasField hf) hstatic
    refine hkeyed.getter_of_slot hnode hcheck rfl ?_
    rw [← hsize]
    exact Store.slot?_addClass (hsize ▸ hslot)
  written m hm f isStatic access access' getter setter depth depth' args v w n hget hset hcheck hwrite := by
    obtain ⟨p, hp, hslot⟩ := hm.keyed.setter_writes hset hwrite
    have hkeyed : n.Keyed := by
      have hleft := setter.keeps_keyed_invokeExact P depth' (args ++ [v]) m hm.keyed
      rwa [Run.leaves_of_ok hwrite] at hleft
    exact hkeyed.getter_of_slot hget hcheck hp hslot
  others m hm f g access access' getter setter depth depth' args args' hf hg hne hget hset hlive
      hlive' hfargs hgargs := by
    have hkeyed := setter.keeps_keyed_invokeExact P depth' args' m hm.keyed
    refine hkeyed.getter_congr hm.keyed hget fun p hp => ?_
    -- the slot written is not the one that is read
    refine hm.keyed.setter_leaves hset depth' args' (ClassGraph.place?_ne hf hg hne hlive
      (hlive'.of_sublist (List.dropLast_sublist args')) hfargs (fun hgs id c hhead => ?_) hp)
    exact hgargs hgs id c (head?_of_dropLast hhead)

/-! ## A class that extends one class and implements another -/

/-- The class `p/A` with a field `x`, an interface `p/I` with an instance field `z`, and a class `p/B`
with a field `y` that extends the one and implements the other. -/
def ClassGraph.mixed : ClassGraph where
  defined := #[
    ⟨"p/A", ⟨0x0001⟩, .bootstrap, some ClassId.object, [], [], [⟨"x", .prim .int, ⟨0x0001⟩⟩]⟩,
    ⟨"p/I", ⟨0x0601⟩, .bootstrap, some ClassId.object, [], [], [⟨"z", .prim .int, ⟨0x0001⟩⟩]⟩,
    ⟨"p/B", ⟨0x0001⟩, .bootstrap, some bootstrapCount, [bootstrapCount + 1], [],
      [⟨"y", .prim .int, ⟨0x0001⟩⟩]⟩]
  older := ClassGraph.older_of_lt (by decide)

/-- A getter of the first field of a class. -/
def Handle.getter (s : Stamp) (c : ClassId) (t : Ty) : Handle :=
  ⟨s, ⟨[.cls c], t, Ty.void_notMem_cls c, slotCount_cls_le c⟩, .getField ⟨c, 0⟩ false 0⟩

/-- A setter of the first field of a class, which is an `int`. -/
def Handle.setter (s : Stamp) (c : ClassId) : Handle :=
  ⟨s, ⟨[.cls c, .prim .int], .void, by simp, Nat.le_of_ble_eq_true rfl⟩, .setField ⟨c, 0⟩ false 0⟩

/-- A machine with a new instance of `p/B`. -/
def Machine.withMixed : Machine :=
  { Machine.initial false with
    store := ((Machine.initial false).store.newInstance .mixed (bootstrapCount + 2)).2 }

/-- An instance of `p/B` has slots for the fields of `p/A` and of its own, so that writing `y` leaves
`x` at zero. The slot at the offset of `z` is that of `x`, and what is written to `x` is read as `z`. -/
theorem Program.fieldSlots_of_mixed :
    (ClassGraph.mixed.OwnsSlot (bootstrapCount + 2) ⟨bootstrapCount, 0⟩ ∧
      ¬ ClassGraph.mixed.OwnsSlot (bootstrapCount + 2) ⟨bootstrapCount + 1, 0⟩) ∧
    ((Handle.getter 0 bootstrapCount (.prim .int)).invokeExact (.zeros .mixed) 1
        [.obj (.inst 0 (bootstrapCount + 2))]).answer
      (((Handle.setter 1 (bootstrapCount + 2)).invokeExact (.zeros .mixed) 1
        [.obj (.inst 0 (bootstrapCount + 2)), .prim (.int 7)]).leaves .withMixed) =
      .ok (.prim (.int 0)) ∧
    ((Handle.getter 0 (bootstrapCount + 1) (.prim .int)).invokeExact (.zeros .mixed) 1
        [.obj (.inst 0 (bootstrapCount + 2))]).answer
      (((Handle.setter 1 bootstrapCount).invokeExact (.zeros .mixed) 1
        [.obj (.inst 0 (bootstrapCount + 2)), .prim (.int 7)]).leaves .withMixed) =
      .ok (.prim (.int 7)) := by
  have hG : ∀ c, (ClassGraph.mixed.decl c).fields.length ≤ 65536 :=
    ClassGraph.forall_decl (p := fun d => d.fields.length ≤ 65536) (by decide) (by decide) (by decide)
  have hslots := (Program.zeros .mixed).fieldSlots hG
  have hx := (hslots.resolved bootstrapCount "x" (.prim .int) ⟨bootstrapCount, 0⟩ rfl).2
    (bootstrapCount + 2) (by decide)
  have hz := (hslots.resolved (bootstrapCount + 1) "z" (.prim .int) ⟨bootstrapCount + 1, 0⟩
    rfl).2 (bootstrapCount + 2) (by decide)
  have hstart : (Machine.initial false).Visited := .start false
  have hm : Machine.withMixed.Visited := .changed hstart _ _
  have hextends : ∀ f : FieldRef, f.cls ∈ ClassGraph.mixed.superclasses (bootstrapCount + 2) →
      ∀ rest, ClassGraph.mixed.ReceiverExtends f (.obj (.inst 0 (bootstrapCount + 2)) :: rest) := by
    intro f hf rest _ id c hhead
    cases hhead
    exact hf
  refine ⟨⟨hx.2 (by decide), fun h => absurd (hz.1 h) (by decide)⟩, ?_, rfl⟩
  have hothers := hslots.others _ hm ⟨bootstrapCount, 0⟩ ⟨bootstrapCount + 2, 0⟩ 0 0
    (.getter 0 bootstrapCount (.prim .int)) (.setter 1 (bootstrapCount + 2)) 1 1
    [.obj (.inst 0 (bootstrapCount + 2))] [.obj (.inst 0 (bootstrapCount + 2)), .prim (.int 7)]
    Nat.zero_lt_one Nat.zero_lt_one (by decide) rfl rfl ⟨rfl, trivial⟩ ⟨rfl, trivial, trivial⟩
    (hextends _ (by decide) _) (hextends _ (by decide) _)
  exact hothers.trans (hslots.fresh _ hstart ⟨bootstrapCount, 0⟩ (bootstrapCount + 2) 0
    (.getter 0 bootstrapCount (.prim .int)) 0 ⟨Nat.zero_lt_one, rfl⟩ (by decide) rfl rfl)

end HandleCalculus
