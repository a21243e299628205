import HandleCalculus.ClassGraph.Order

/-!
# Members

A declared member is named by its class and its place among the class's members, a number of
sixteen bits. Finding a member walks the search orders of the class graph: superclasses before
superinterfaces for methods, `supertypes` for fields. Selection (`selectMethod?`) starts over at
the class of the receiver. The layout of instances puts inherited fields first.
-/

set_option autoImplicit false

namespace HandleCalculus

/-- A method by its class and its place there. -/
structure MethodRef where
  cls : ClassId
  index : UInt16
  deriving DecidableEq, Repr

/-- A field by its class and its place there. -/
structure FieldRef where
  cls : ClassId
  index : UInt16
  deriving DecidableEq, Repr

namespace ClassGraph

/-! ## Declared members -/

/-- The declaration of a method. -/
def method (G : ClassGraph) (m : MethodRef) : MethodDecl :=
  (G.decl m.cls).methods[m.index.toNat]?.getD MethodDecl.missing

/-- The declaration of a field. -/
def field (G : ClassGraph) (f : FieldRef) : FieldDecl :=
  (G.decl f.cls).fields[f.index.toNat]?.getD FieldDecl.missing

/-- The method that a class itself declares with the name and descriptor. -/
def methodHere? (G : ClassGraph) (c : ClassId) (name : String) (desc : Descriptor) :
    Option MethodRef :=
  ((G.decl c).methods.findIdx? fun m => m.name == name && m.desc == desc).map
    fun i => ⟨c, UInt16.ofNat i⟩

/-- The field that a class itself declares with the name and type. -/
def fieldHere? (G : ClassGraph) (c : ClassId) (name : String) (type : Ty) : Option FieldRef :=
  ((G.decl c).fields.findIdx? fun f => f.name == name && f.type == type).map
    fun i => ⟨c, UInt16.ofNat i⟩

/-- A method as messages name it. -/
def methodText (G : ClassGraph) (m : MethodRef) : String :=
  G.name m.cls ++ "." ++ (G.method m).name ++ (G.method m).desc.text G

/-- A field as messages name it. -/
def fieldText (G : ClassGraph) (f : FieldRef) : String :=
  G.name f.cls ++ "." ++ (G.field f).name ++ ":" ++ (G.field f).type.descriptor G

/-! ## Search -/

/-- The first superinterface method with the name and descriptor that is neither static nor
private, and has a body if `wantBody`. -/
def findInSuperinterfaces? (G : ClassGraph) (c : ClassId) (name : String) (desc : Descriptor)
    (wantBody : Bool) : Option MethodRef :=
  (G.superinterfaces c).findSome? fun i =>
    (G.methodHere? i name desc).filter fun m =>
      !(G.method m).flags.isStatic && !(G.method m).flags.isPrivate &&
        (!wantBody || (G.method m).hasBody)

/-- The method found for a class: its own or the nearest superclass's, else a superinterface
method, one with a body before one without. -/
def findMethod? (G : ClassGraph) (c : ClassId) (name : String) (desc : Descriptor) :
    Option MethodRef :=
  (G.superclasses c).findSome? (G.methodHere? · name desc)
    <|> G.findInSuperinterfaces? c name desc true
    <|> G.findInSuperinterfaces? c name desc false

/-- The implementation that a call of `m` reaches on a receiver of class `c`: a private method
itself, else the nearest declaration among the superclasses that is neither static nor private,
else a superinterface method with a body. -/
def selectMethod? (G : ClassGraph) (c : ClassId) (m : MethodRef) : Option MethodRef :=
  if (G.method m).flags.isPrivate then some m
  else
    let name := (G.method m).name
    let desc := (G.method m).desc
    (G.superclasses c).findSome? (fun k =>
        (G.methodHere? k name desc).filter fun s =>
          !(G.method s).flags.isStatic && !(G.method s).flags.isPrivate)
      <|> G.findInSuperinterfaces? c name desc true

/-- The field found for a class: its own, else one of its interfaces, else its parent's. -/
def findField? (G : ClassGraph) (c : ClassId) (name : String) (type : Ty) : Option FieldRef :=
  (G.supertypes c).findSome? (G.fieldHere? · name type)

/-! ## Layout -/

/-- The declared types of the instance slots of a class, inherited ones first. -/
def layout (G : ClassGraph) (c : ClassId) : List Ty :=
  (G.superclasses c).reverse.flatMap fun k => (G.decl k).instanceTypes

/-- The number of instance slots that a class inherits. -/
def inheritedSlots (G : ClassGraph) (c : ClassId) : Nat :=
  match G.parent? c with
  | none => 0
  | some p => (G.layout p).length

/-- The slot of a field: among the static slots of its class, or among the instance slots. -/
def fieldOffset (G : ClassGraph) (f : FieldRef) : Nat :=
  let before := (G.decl f.cls).fields.take f.index.toNat
  if (G.field f).isStatic then (before.filter (·.isStatic)).length
  else G.inheritedSlots f.cls + (before.filter (!·.isStatic)).length

theorem layout_eq (G : ClassGraph) (c : ClassId) :
    G.layout c = (match G.parent? c with
      | none => []
      | some p => G.layout p) ++ (G.decl c).instanceTypes := by
  rw [layout, superclasses_eq]
  cases hp : G.parent? c with
  | none => simp
  | some p => simp [layout]

end ClassGraph

end HandleCalculus
