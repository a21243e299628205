import HandleCalculus.Handle.Adapt
import HandleCalculus.Proofs.ValueTyping

/-!
# Typing of handles

The signature of a handle is not read off its node: a handle can be seen under another signature
with the same node. So typing has two parts. A node has a type of its own, which follows from what
it does (`Node.Typed`); a handle is typed if its node has a type that the signature is a coarser view
of (`Handle.Typed`): the node takes what the signature takes and answers what it answers.

A node that calls a method on a receiver takes any reference as the receiver, since the call looks at
it anyway; that is what lets a lookup narrow the receiver of a protected method to its own class.

What a node is typed against is the extent of the store: the classes of the instances, for the
values that a node holds, and the signatures of the call sites. Both only grow.
-/

set_option autoImplicit false

namespace HandleCalculus

/-- The classes of the instances and the signatures of the call sites that there are so far. -/
structure Extent where
  classes : List ClassId
  sites : List Signature

/-- Whether an extent is a later one. -/
structure Extent.Grows (W W' : Extent) : Prop where
  classes : W.classes <+: W'.classes
  sites : W.sites <+: W'.sites

namespace Extent.Grows

theorem refl (W : Extent) : W.Grows W := ⟨List.prefix_rfl, List.prefix_rfl⟩

theorem trans {W W' W'' : Extent} (h : W.Grows W') (h' : W'.Grows W'') : W.Grows W'' :=
  ⟨h.classes.trans h'.classes, h.sites.trans h'.sites⟩

theorem site {W W' : Extent} (h : W.Grows W') {id : SiteId} {s : Signature}
    (hs : W.sites[id]? = some s) : W'.sites[id]? = some s := by
  obtain ⟨more, hmore⟩ := h.sites
  have hlt : id < W.sites.length := (List.getElem?_eq_some_iff.1 hs).1
  rw [← hmore, List.getElem?_append_left hlt]
  exact hs

end Extent.Grows

/-! ## Coarser views -/

/-- Parameters that take what others take, which take what third ones take, take that. -/
theorem ClassGraph.forall₂_isAssignable_trans (G : ClassGraph) {as bs cs : List Ty}
    (hab : List.Forall₂ (fun s t => G.isAssignable t s = true) as bs)
    (hbc : List.Forall₂ (fun s t => G.isAssignable t s = true) bs cs) :
    List.Forall₂ (fun s t => G.isAssignable t s = true) as cs := by
  induction hab generalizing cs with
  | nil => exact hbc
  | cons hab _ ih =>
    cases hbc with
    | cons hbc hrest => exact .cons (G.isAssignable_trans hbc hab) (ih hrest)

/-- Whether what is of type `p` may be seen under the type `q`: it takes what `q` takes and answers
what `q` answers. -/
structure Descriptor.Sub (G : ClassGraph) (p q : Descriptor) : Prop where
  params : List.Forall₂ (fun s t => G.isAssignable t s = true) p.params q.params
  ret : G.isAssignable p.ret q.ret = true

namespace Descriptor.Sub

variable {G : ClassGraph} {p q r : Descriptor}

theorem refl (G : ClassGraph) (p : Descriptor) : p.Sub G p :=
  ⟨List.forall₂_same.2 fun t _ => G.isAssignable_refl t, G.isAssignable_refl p.ret⟩

theorem trans (h : p.Sub G q) (h' : q.Sub G r) : p.Sub G r :=
  ⟨G.forall₂_isAssignable_trans h.params h'.params, G.isAssignable_trans h.ret h'.ret⟩

end Descriptor.Sub

/-! ## Nodes -/

/-- Whether a node calls a method on its first argument. -/
def Node.receives : Node Handle → Bool
  | .virtual .. | .direct _ .special => true
  | _ => false

/-- What filters make of parameters: a filter takes one argument in place of the parameter. -/
def Filters.types : List (Option Handle) → List Ty → List Ty → Prop
  | [], ps, ts => ps = ts
  | none :: fs, p :: ps, t :: ts => p = t ∧ Filters.types fs ps ts
  | some f :: fs, p :: ps, t :: ts =>
    f.type.params = [p] ∧ f.type.ret = t ∧ Filters.types fs ps ts
  | _ :: _, _, _ => False

mutual

/-- Whether the signature of a handle is a view of a type of its node. -/
inductive Handle.Typed (G : ClassGraph) (W : Extent) : Handle → Prop where
  | mk {h : Handle} {p : Descriptor} (node : Node.Typed G W h.node p)
      (sub : p.Sub G h.type.descriptor) : Handle.Typed G W h

/-- The types of a node. -/
inductive Node.Typed (G : ClassGraph) (W : Extent) : Node Handle → Descriptor → Prop where
  | static (m : MethodRef) : Node.Typed G W (.direct m .static) (G.method m).desc
  | special {m : MethodRef} {r : Ty} (hr : r.isReference = true) :
    Node.Typed G W (.direct m .special) ⟨r :: (G.method m).desc.params, (G.method m).desc.ret⟩
  | construct (m : MethodRef) :
    Node.Typed G W (.direct m .construct) ⟨(G.method m).desc.params, .cls m.cls⟩
  | virtual {m : MethodRef} {dispatch : ClassId} {interface : Bool} {r : Ty}
      (hr : r.isReference = true) :
    Node.Typed G W (.virtual m dispatch interface)
      ⟨r :: (G.method m).desc.params, (G.method m).desc.ret⟩
  | getStatic {f : FieldRef} {d : FieldDecl} {access : AccessId}
      (hd : (G.decl f.cls).fields[f.index.toNat]? = some d) (hs : d.isStatic = true) :
    Node.Typed G W (.getField f true access) ⟨[], d.type⟩
  | getInstance {f : FieldRef} {d : FieldDecl} {access : AccessId}
      (hd : (G.decl f.cls).fields[f.index.toNat]? = some d) (hs : d.isStatic = false) :
    Node.Typed G W (.getField f false access) ⟨[.cls f.cls], d.type⟩
  | setStatic {f : FieldRef} {d : FieldDecl} {access : AccessId}
      (hd : (G.decl f.cls).fields[f.index.toNat]? = some d) (hs : d.isStatic = true) :
    Node.Typed G W (.setField f true access) ⟨[d.type], .void⟩
  | setInstance {f : FieldRef} {d : FieldDecl} {access : AccessId}
      (hd : (G.decl f.cls).fields[f.index.toNat]? = some d) (hs : d.isStatic = false) :
    Node.Typed G W (.setField f false access) ⟨[.cls f.cls, d.type], .void⟩
  | insert {h : Handle} {pos : Nat} {vs : List Value} (target : Handle.Typed G W h)
      (hpos : pos + vs.length ≤ h.type.params.length)
      (hfit : Value.fitAll G vs ((h.type.params.drop pos).take vs.length) = true)
      (live : Value.AllLive W.classes vs) :
    Node.Typed G W (.insert h pos vs)
      ⟨h.type.params.take pos ++ h.type.params.drop (pos + vs.length), h.type.ret⟩
  | permute {h : Handle} {reorder : List Nat} {ps : List Ty} (target : Handle.Typed G W h)
      (horder : List.Forall₂ (fun i t => ∃ s, ps[i]? = some s ∧ G.isAssignable s t = true)
        reorder h.type.params) :
    Node.Typed G W (.permute h reorder) ⟨ps, h.type.ret⟩
  | collect {h : Handle} {pos count : Nat} {c t : Ty} (target : Handle.Typed G W h)
      (hpos : h.type.params[pos]? = some t) (ht : G.isAssignable (.array c) t = true) :
    Node.Typed G W (.collect h pos count (.array c))
      ⟨h.type.params.take pos ++ List.replicate count c ++ h.type.params.drop (pos + 1),
        h.type.ret⟩
  | spread {h : Handle} {pos count : Nat} {array : Ty} (target : Handle.Typed G W h)
      (hpos : pos + count ≤ h.type.params.length) :
    Node.Typed G W (.spread h pos count array)
      ⟨h.type.params.take pos ++ array :: h.type.params.drop (pos + count), h.type.ret⟩
  | filterArgs {h : Handle} {pos : Nat} {filters : List (Option Handle)} {ps : List Ty}
      (target : Handle.Typed G W h) (hpos : pos ≤ h.type.params.length)
      (typed : ∀ f, some f ∈ filters → Handle.Typed G W f)
      (htypes : Filters.types filters ps (h.type.params.drop pos)) :
    Node.Typed G W (.filterArgs h pos filters) ⟨h.type.params.take pos ++ ps, h.type.ret⟩
  | filterReturn {h f : Handle} (target : Handle.Typed G W h) (filter : Handle.Typed G W f)
      (htaken : f.type.params = if h.type.ret = .void then [] else [h.type.ret]) :
    Node.Typed G W (.filterReturn h f) ⟨h.type.params, f.type.ret⟩
  | fold {h c : Handle} {pos : Nat} (target : Handle.Typed G W h) (combiner : Handle.Typed G W c)
      (hvoid : c.type.ret = .void)
      (hparams : c.type.params <+: h.type.params.drop pos) (hpos : pos ≤ h.type.params.length) :
    Node.Typed G W (.fold h pos c) h.type.descriptor
  | foldValue {h c : Handle} {pos : Nat} {rest : List Ty} (target : Handle.Typed G W h)
      (combiner : Handle.Typed G W c) (hvoid : c.type.ret ≠ .void)
      (hdrop : h.type.params.drop pos = c.type.ret :: rest) (hparams : c.type.params <+: rest) :
    Node.Typed G W (.fold h pos c) ⟨h.type.params.take pos ++ rest, h.type.ret⟩
  | guarded {c h f : Handle} (test : Handle.Typed G W c) (target : Handle.Typed G W h)
      (fallback : Handle.Typed G W f) (hsame : h.type = f.type) (hret : c.type.ret = .boolean)
      (hparams : c.type.params <+: h.type.params) :
    Node.Typed G W (.guarded c h f) h.type.descriptor
  | catching {h e : Handle} {c : ClassId} {first : Ty} {leading : List Ty}
      (target : Handle.Typed G W h) (handler : Handle.Typed G W e)
      (hret : e.type.ret = h.type.ret) (hparams : e.type.params = first :: leading)
      (hfirst : G.isAssignable (.cls c) first = true) (hleading : leading <+: h.type.params) :
    Node.Typed G W (.catching h c e) h.type.descriptor
  | convert {h : Handle} {args : List Conversion} {ret : Conversion} {p : Descriptor}
      (target : Handle.Typed G W h) (hlength : p.params.length = h.type.params.length)
      (hargs : Handle.plans? G p.params h.type.params = some args)
      (hret : Conversion.plan? G h.type.ret p.ret = some ret) :
    Node.Typed G W (.convert h args ret) p
  | constant {v : Value} {t : Ty} (hfit : v.fits G t = true) (live : v.Lives W.classes) :
    Node.Typed G W (.constant v) ⟨[], t⟩
  | identity (t : Ty) : Node.Typed G W .identity ⟨[t], t⟩
  | varargs {h : Handle} {array : Ty} {cell : Stamp} (target : Handle.Typed G W h) :
    Node.Typed G W (.varargs h array cell) h.type.descriptor
  | varargsOf {h : Handle} {array r s : Ty} {ts : List Ty} {cell : Stamp}
      (target : Handle.Typed G W h) (hreceives : h.node.receives = true)
      (hparams : h.type.params = s :: ts) (hr : r.isReference = true) :
    Node.Typed G W (.varargs h array cell) ⟨r :: ts, h.type.ret⟩
  | invoker {id : SiteId} {s : Signature} (hs : W.sites[id]? = some s) :
    Node.Typed G W (.invoker id) s.descriptor
  | unlinked (message : String) (p : Descriptor) : Node.Typed G W (.unlinked message) p
  | throwing (c : ClassId) (r : Ty) : Node.Typed G W .throwing ⟨[.cls c], r⟩

end

/-! ## Typing is kept as the store grows -/

mutual

theorem Handle.Typed.mono {G : ClassGraph} {W W' : Extent} (hW : W.Grows W') :
    ∀ {h : Handle}, Handle.Typed G W h → Handle.Typed G W' h
  | _, .mk node sub => .mk (Node.Typed.mono hW node) sub

theorem Node.Typed.mono {G : ClassGraph} {W W' : Extent} (hW : W.Grows W') :
    ∀ {n : Node Handle} {p : Descriptor}, Node.Typed G W n p → Node.Typed G W' n p
  | _, _, .static m => .static m
  | _, _, .special hr => .special hr
  | _, _, .construct m => .construct m
  | _, _, .virtual hr => .virtual hr
  | _, _, .getStatic hd hs => .getStatic hd hs
  | _, _, .getInstance hd hs => .getInstance hd hs
  | _, _, .setStatic hd hs => .setStatic hd hs
  | _, _, .setInstance hd hs => .setInstance hd hs
  | _, _, .insert target hpos hfit live =>
    .insert (target.mono hW) hpos hfit (live.mono hW.classes)
  | _, _, .permute target horder => .permute (target.mono hW) horder
  | _, _, .collect target hpos ht => .collect (target.mono hW) hpos ht
  | _, _, .spread target hpos => .spread (target.mono hW) hpos
  | _, _, .filterArgs target hpos typed htypes =>
    .filterArgs (target.mono hW) hpos (fun f hf => (typed f hf).mono hW) htypes
  | _, _, .filterReturn target filter htaken =>
    .filterReturn (target.mono hW) (filter.mono hW) htaken
  | _, _, .fold target combiner hvoid hparams hpos =>
    .fold (target.mono hW) (combiner.mono hW) hvoid hparams hpos
  | _, _, .foldValue target combiner hvoid hdrop hparams =>
    .foldValue (target.mono hW) (combiner.mono hW) hvoid hdrop hparams
  | _, _, .guarded test target fallback hsame hret hparams =>
    .guarded (test.mono hW) (target.mono hW) (fallback.mono hW) hsame hret hparams
  | _, _, .catching target handler hret hparams hfirst hleading =>
    .catching (target.mono hW) (handler.mono hW) hret hparams hfirst hleading
  | _, _, .convert target hlength hargs hret => .convert (target.mono hW) hlength hargs hret
  | _, _, .constant hfit live => .constant hfit (live.mono hW.classes)
  | _, _, .identity t => .identity t
  | _, _, .varargs target => .varargs (target.mono hW)
  | _, _, .varargsOf target hreceives hparams hr =>
    .varargsOf (target.mono hW) hreceives hparams hr
  | _, _, .invoker hs => .invoker (hW.site hs)
  | _, _, .unlinked message p => .unlinked message p
  | _, _, .throwing c r => .throwing c r

end

end HandleCalculus
