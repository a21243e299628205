import HandleCalculus.Store
import HandleCalculus.Proofs.HandleTyping

/-!
# Typing of the store

Every slot holds a live value of its declared type (`Store.Holds`) and every call site has a typed
target of its own signature (`Store.Typed`). Reading a slot through a class finds a value of the type
that the class declares, whatever class below it the instance is of, since the slot has kept its
place in the layout.

Whatever changes the store, be it a method body or a call site's new target, takes it to one that it
may become (`Store.Becomes`), and a typed store becomes typed stores only.
-/

set_option autoImplicit false

namespace HandleCalculus

/-! ## Slots -/

/-- What is at a place after one place has been written. -/
theorem mem_setIfInBounds {α : Type} {xs : Array α} {i j : Nat} {a b : α}
    (h : (xs.setIfInBounds i a)[j]? = some b) : i = j ∧ b = a ∨ xs[j]? = some b := by
  rw [Array.getElem?_setIfInBounds] at h
  by_cases hij : i = j
  · rw [if_pos hij] at h
    split at h
    · exact Or.inl ⟨hij, (Option.some.inj h).symm⟩
    · cases h
  · rw [if_neg hij] at h
    exact Or.inr h

/-- Whether the slots are as many as the types and hold live values of them. -/
structure SlotsTyped (G : ClassGraph) (classes : List ClassId) (slots : Array Value)
    (types : List Ty) : Prop where
  size : slots.size = types.length
  typed : ∀ (i : Nat) (v : Value) (t : Ty), slots[i]? = some v → types[i]? = some t →
    v.isResultOf G t = true ∧ v.Lives classes

namespace SlotsTyped

variable {G : ClassGraph} {classes classes' : List ClassId} {slots : Array Value} {types : List Ty}

theorem mono (h : SlotsTyped G classes slots types) (hc : classes <+: classes') :
    SlotsTyped G classes' slots types := by
  refine ⟨h.size, fun i v t hv ht => ?_⟩
  obtain ⟨hresult, hlive⟩ := h.typed i v t hv ht
  exact ⟨hresult, hlive.mono hc⟩

/-- New slots, each at the zero of its type. -/
theorem zero (G : ClassGraph) (classes : List ClassId) (types : List Ty) :
    SlotsTyped G classes (types.map Value.zero).toArray types := by
  refine ⟨by simp, fun i v t hv ht => ?_⟩
  have hzero : v = Value.zero t := by simpa [ht] using hv.symm
  rw [hzero]
  exact ⟨Value.isResultOf_zero G t, Value.lives_zero classes t⟩

theorem set (h : SlotsTyped G classes slots types) {offset : Nat} {v : Value} {t : Ty}
    (ht : types[offset]? = some t) (hv : v.isResultOf G t = true) (hlive : v.Lives classes) :
    SlotsTyped G classes (slots.setIfInBounds offset v) types := by
  refine ⟨by simpa using h.size, fun i w u hw hu => ?_⟩
  rcases mem_setIfInBounds hw with ⟨rfl, rfl⟩ | hw
  · obtain rfl := Option.some.inj (ht.symm.trans hu)
    exact ⟨hv, hlive⟩
  · exact h.typed i w u hw hu

end SlotsTyped

/-- The classes of the instances, in order. -/
def Store.live (s : Store) : List ClassId := s.classes.toList

/-- Whether every slot holds a live value of its declared type. -/
structure Store.Holds (G : ClassGraph) (s : Store) : Prop where
  size : s.instances.size = s.live.length
  instances : ∀ (id : Nat) (slots : Array Value) (c : ClassId), s.instances[id]? = some slots →
    s.live[id]? = some c → SlotsTyped G s.live slots (G.layout c)
  statics : ∀ (c : ClassId) (slots : Array Value), s.statics[c]? = some slots →
    SlotsTyped G s.live slots (G.decl c).staticTypes

namespace Store.Holds

variable {G : ClassGraph} {s s' : Store}

theorem of_slots (h : s.Holds G) (hinstances : s'.instances = s.instances)
    (hclasses : s'.classes = s.classes) (hstatics : s'.statics = s.statics) : s'.Holds G := by
  have hlive : s'.live = s.live := congrArg Array.toList hclasses
  refine ⟨?_, ?_, ?_⟩
  · rw [hinstances, hlive]
    exact h.size
  · rw [hinstances, hlive]
    exact h.instances
  · rw [hstatics, hlive]
    exact h.statics

/-- The store of the bootstrap classes has no slots yet. -/
theorem initial (G : ClassGraph) : Store.initial.Holds G := by
  have hbootstrap : ∀ c < bootstrapCount,
      (bootstrapClasses[c]?.getD ClassGraph.outside).staticTypes = [] := by
    decide
  refine ⟨rfl, fun id slots c hslots _ => ?_, fun c slots hslots => ?_⟩
  · simp [Store.initial] at hslots
  · have hrow : (Array.replicate bootstrapCount (#[] : Array Value))[c]? = some slots := hslots
    rw [Array.getElem?_replicate] at hrow
    split at hrow
    · next hc =>
      obtain rfl := Option.some.inj hrow
      rw [ClassGraph.decl, if_pos hc, hbootstrap c hc]
      exact .zero G _ []
    · cases hrow

theorem live_newInstance (s : Store) (G : ClassGraph) (c : ClassId) :
    (s.newInstance G c).2.live = s.live ++ [c] := by
  simp [Store.newInstance, Store.live]

theorem newInstance (h : s.Holds G) (c : ClassId) :
    (s.newInstance G c).2.Holds G ∧
      (s.newInstance G c).1.Lives (s.newInstance G c).2.live := by
  have hlive := live_newInstance s G c
  have hgrows : s.live <+: s.live ++ [c] := List.prefix_append _ _
  refine ⟨⟨?_, fun id slots k hslots hk => ?_, fun k slots hslots => ?_⟩, ?_⟩
  · rw [hlive]
    simp [Store.newInstance, h.size]
  · have hslots : (s.instances.push ((G.layout c).map Value.zero).toArray)[id]? = some slots := hslots
    rw [hlive] at hk ⊢
    -- the number is that of the new instance, or of an old one
    rw [Array.getElem?_push] at hslots
    split at hslots
    · next hid =>
      obtain rfl := Option.some.inj hslots
      rw [hid, h.size, List.getElem?_concat_length] at hk
      obtain rfl := Option.some.inj hk
      exact .zero G _ _
    · next hid =>
      have hlt : id < s.live.length := by
        have hbound := (List.getElem?_eq_some_iff.1 hk).1
        rw [List.length_append, List.length_singleton] at hbound
        have hsize := h.size
        omega
      rw [List.getElem?_append_left hlt] at hk
      exact (h.instances id slots k hslots hk).mono hgrows
  · rw [hlive]
    exact (h.statics k slots hslots).mono hgrows
  · rw [hlive]
    show (s.live ++ [c])[s.instances.size]? = some c
    rw [h.size, List.getElem?_concat_length]

/-- A slot that a class declares is at its place in the instances of the classes below. -/
theorem layout_of_isInstance (hI : G.InterfacesBare) {id : Nat} {c k : ClassId}
    (ho : (Object.inst id c).isInstance G (.cls k) = true) {offset : Nat} {t : Ty}
    (ht : (G.layout k)[offset]? = some t) : (G.layout c)[offset]? = some t := by
  have hbelow : G.isSubclass c k = true := ho
  obtain ⟨more, hmore⟩ := G.layout_prefix hI hbelow
  have hlt : offset < (G.layout k).length := (List.getElem?_eq_some_iff.1 ht).1
  rw [← hmore, List.getElem?_append_left hlt]
  exact ht

theorem readField (h : s.Holds G) (hI : G.InterfacesBare) {o : Object} {k : ClassId}
    (hlive : o.Lives s.live) (ho : o.isInstance G (.cls k) = true) {offset : Nat} {t : Ty}
    (ht : (G.layout k)[offset]? = some t) {v : Value} (hv : s.readField o offset = .ok v) :
    v.isResultOf G t = true ∧ v.Lives s.live := by
  unfold Store.readField at hv
  split at hv
  · next w hw =>
    obtain rfl := Except.ok.inj hv
    obtain ⟨slots, hslots, hget⟩ := Option.bind_eq_some_iff.1 hw
    cases o with
    | str x => cases hslots
    | boxed x => cases hslots
    | array id c es => cases hslots
    | throwable id c m => cases hslots
    | inst id c =>
      have hclass : s.live[id]? = some c := hlive
      exact (h.instances id slots c hslots hclass).typed offset w t hget
        (layout_of_isInstance hI ho ht)
  · cases hv

theorem writeField (h : s.Holds G) (hI : G.InterfacesBare) {o : Object} {k : ClassId}
    (hlive : o.Lives s.live) (ho : o.isInstance G (.cls k) = true) {offset : Nat} {t : Ty}
    (ht : (G.layout k)[offset]? = some t) {v : Value} (hv : v.isResultOf G t = true)
    (hvlive : v.Lives s.live) (hw : s.writeField o offset v = .ok s') :
    s'.Holds G ∧ s'.live = s.live ∧ s'.sites = s.sites := by
  unfold Store.writeField at hw
  split at hw
  · next id c slots hslots =>
    split at hw
    · obtain rfl := Except.ok.inj hw
      have hslots : s.instances[id]? = some slots := hslots
      have hsize : (s.instances.setIfInBounds id (slots.setIfInBounds offset v)).size =
          s.live.length := by
        rw [Array.size_setIfInBounds]
        exact h.size
      refine ⟨⟨hsize, fun i slots' c' hi hc' => ?_, h.statics⟩, rfl, rfl⟩
      rcases mem_setIfInBounds hi with ⟨rfl, rfl⟩ | hi
      · have hclass : s.live[id]? = some c := hlive
        obtain rfl : c = c' := Option.some.inj (hclass.symm.trans hc')
        have htype := layout_of_isInstance hI ho ht
        exact (h.instances id slots c hslots hc').set htype hv hvlive
      · exact h.instances i slots' c' hi hc'
    · cases hw
  · cases hw

theorem readStatic (h : s.Holds G) {c : ClassId} {offset : Nat} {t : Ty}
    (ht : (G.decl c).staticTypes[offset]? = some t) {v : Value}
    (hv : s.readStatic c offset = .ok v) : v.isResultOf G t = true ∧ v.Lives s.live := by
  unfold Store.readStatic at hv
  split at hv
  · next w hw =>
    obtain rfl := Except.ok.inj hv
    obtain ⟨slots, hslots, hw⟩ := Option.bind_eq_some_iff.1 hw
    exact (h.statics c slots hslots).typed offset w t hw ht
  · cases hv

theorem writeStatic (h : s.Holds G) {c : ClassId} {offset : Nat} {t : Ty}
    (ht : (G.decl c).staticTypes[offset]? = some t) {v : Value} (hv : v.isResultOf G t = true)
    (hvlive : v.Lives s.live) (hw : s.writeStatic c offset v = .ok s') :
    s'.Holds G ∧ s'.live = s.live ∧ s'.sites = s.sites := by
  unfold Store.writeStatic at hw
  split at hw
  · next slots hslots =>
    split at hw
    · obtain rfl := Except.ok.inj hw
      refine ⟨⟨h.size, h.instances, fun k slots' hk => ?_⟩, rfl, rfl⟩
      rcases mem_setIfInBounds hk with ⟨rfl, rfl⟩ | hk
      · exact (h.statics c slots hslots).set ht hv hvlive
      · exact h.statics k slots' hk
    · cases hw
  · cases hw

end Store.Holds

/-! ## How the store may change -/

/-- The extent of a store. -/
def Store.extent (s : Store) : Extent := ⟨s.live, s.sites.toList.map CallSite.type⟩

/-- Whether the one store can become the other without breaking what handles rely on: instances keep
their class and call sites their signature, the slots are well typed again, and a call site has the
target that it had or one of the handles listed. -/
structure Store.Becomes (G : ClassGraph) (hs : List Handle) (s s' : Store) : Prop where
  holds : s'.Holds G
  grows : s.extent.Grows s'.extent
  targets : ∀ (id : SiteId) (site : CallSite) (h : Handle), s'.sites[id]? = some site →
    site.target = some h → h ∈ hs ∧ h.type = site.type ∨
      ∃ old : CallSite, s.sites[id]? = some old ∧ old.target = some h

/-- Whether every slot holds a live value of its type and every call site has a typed target, if any,
of its own signature. -/
structure Store.Typed (G : ClassGraph) (W : Extent) (s : Store) : Prop where
  holds : s.Holds G
  extent : s.extent = W
  targets : ∀ (id : SiteId) (site : CallSite) (h : Handle), s.sites[id]? = some site →
    site.target = some h → h.type = site.type ∧ h.Typed G W

theorem Store.extent_site {s : Store} {id : SiteId} {site : CallSite}
    (h : s.sites[id]? = some site) : s.extent.sites[id]? = some site.type := by
  have hlist : s.sites.toList[id]? = some site := by simpa using h
  simp [Store.extent, hlist]

namespace Store.Becomes

variable {G : ClassGraph} {hs : List Handle} {s s' : Store}

/-- The store may grow by instances while the call sites stay. -/
theorem of_sites (hholds : s'.Holds G) (hlive : s.live <+: s'.live) (hsites : s'.sites = s.sites) :
    s.Becomes G hs s' := by
  refine ⟨hholds, ⟨hlive, ?_⟩, fun id site h hsite htarget => .inr ⟨site, ?_, htarget⟩⟩
  · show s.sites.toList.map CallSite.type <+: s'.sites.toList.map CallSite.type
    rewrite [hsites]
    exact List.prefix_rfl
  · rw [← hsites]
    exact hsite

/-- The store may grow by a call site with a handle of the list as target, or none. -/
theorem addSite (h : s.Holds G) {site : CallSite}
    (hsite : ∀ t, site.target = some t → t ∈ hs ∧ t.type = site.type) :
    s.Becomes G hs (s.addSite site).2 := by
  refine ⟨h.of_slots rfl rfl rfl, ⟨List.prefix_rfl, ?_⟩, fun id new t hnew htarget => ?_⟩
  · simp [Store.extent, Store.addSite]
  · have hnew : (s.sites.push site)[id]? = some new := hnew
    rw [Array.getElem?_push] at hnew
    split at hnew
    · obtain rfl := Option.some.inj hnew
      exact .inl (hsite t htarget)
    · exact .inr ⟨new, hnew, htarget⟩

/-- A call site may get a handle of the list as target. -/
theorem set_site (h : s.Holds G) {id : SiteId} {old new : CallSite} {t : Handle}
    (hold : s.sites[id]? = some old) (htype : new.type = old.type) (htarget : new.target = some t)
    (ht : t ∈ hs) (hfits : t.type = new.type) (hslots : s'.instances = s.instances)
    (hclasses : s'.classes = s.classes) (hstatics : s'.statics = s.statics)
    (hsites : s'.sites = s.sites.setIfInBounds id new) : s.Becomes G hs s' := by
  refine ⟨h.of_slots hslots hclasses hstatics, ⟨?_, ?_⟩, fun i site t' hsite htarget' => ?_⟩
  · show s.live <+: s'.classes.toList
    rewrite [hclasses]
    exact List.prefix_rfl
  · have hsame : s'.extent.sites = s.extent.sites := by
      -- the signatures of the sites are what they were
      refine List.ext_getElem? fun i => ?_
      simp only [Store.extent, hsites, Array.toList_setIfInBounds, List.getElem?_map,
        List.getElem?_set, Array.getElem?_toList]
      split
      · next hid =>
        subst hid
        obtain ⟨hlt, rfl⟩ := Array.getElem?_eq_some_iff.1 hold
        simp [htype, hlt]
      · rfl
    rewrite [hsame]
    exact List.prefix_rfl
  · rw [hsites] at hsite
    rcases mem_setIfInBounds hsite with ⟨rfl, rfl⟩ | hsite
    · obtain rfl := Option.some.inj (htarget.symm.trans htarget')
      exact .inl ⟨ht, hfits⟩
    · exact .inr ⟨site, hsite, htarget'⟩

/-- Binding a call site to a handle of the list. -/
theorem bindTarget (h : s.Holds G) {id : SiteId} {t : Handle} (ht : t ∈ hs)
    (hbound : s.bindTarget id t = .ok s') : s.Becomes G hs s' := by
  unfold Store.bindTarget at hbound
  split at hbound
  · cases hbound
  next site hsite =>
  split at hbound
  · cases hbound
  next new hnew =>
  obtain rfl := Except.ok.inj hbound
  unfold CallSite.bind CallSite.checkTarget at hnew
  by_cases htype : t.type = site.type
  · rw [if_pos htype] at hnew
    cases htarget : site.target with
    | some old => simp [htarget] at hnew
    | none =>
      simp only [htarget, Except.ok.injEq] at hnew
      have hnewType : new.type = site.type := by rw [← hnew]
      have hnewTarget : new.target = some t := by rw [← hnew]
      exact set_site h hsite hnewType hnewTarget ht (htype.trans hnewType.symm) rfl rfl rfl rfl
  · rw [if_neg htype] at hnew
    cases hnew

/-- Retargeting a call site to a handle of the list. -/
theorem setTarget (h : s.Holds G) {id : SiteId} {t : Handle} (ht : t ∈ hs)
    (hset : s.setTarget id t = .ok s') : s.Becomes G hs s' := by
  unfold Store.setTarget at hset
  split at hset
  · cases hset
  next site hsite =>
  split at hset
  · cases hset
  next new inPlace hnew =>
  obtain rfl := Except.ok.inj hset
  have hnewSite : new.type = site.type ∧ new.target = some t ∧ t.type = site.type := by
    unfold CallSite.setTarget CallSite.checkTarget at hnew
    split at hnew
    · cases hnew
    by_cases htype : t.type = site.type
    · rw [if_pos htype] at hnew
      simp only at hnew
      split at hnew <;> cases hnew <;> exact ⟨rfl, rfl, htype⟩
    · rw [if_neg htype] at hnew
      cases hnew
  obtain ⟨htype, htarget, hfits⟩ := hnewSite
  exact set_site h hsite htype htarget ht (hfits.trans htype.symm) rfl rfl rfl rfl

end Store.Becomes

namespace Store.Typed

variable {G : ClassGraph} {W : Extent} {hs : List Handle} {s s' : Store}

theorem live_eq (h : s.Typed G W) : s.live = W.classes := congrArg Extent.classes h.extent

/-- A typed store stays typed, if the new targets are typed. -/
theorem becomes (h : s.Typed G W) (hb : s.Becomes G hs s') (hhs : ∀ t ∈ hs, t.Typed G W) :
    W.Grows s'.extent ∧ s'.Typed G s'.extent := by
  have hgrows : W.Grows s'.extent := by
    rw [← h.extent]
    exact hb.grows
  refine ⟨hgrows, hb.holds, rfl, fun id site t hsite htarget => ?_⟩
  rcases hb.targets id site t hsite htarget with ⟨ht, htype⟩ | ⟨old, hold, htarget⟩
  · exact ⟨htype, (hhs t ht).mono hgrows⟩
  · -- the call site is still of the signature that it had
    obtain ⟨htype, htyped⟩ := h.targets id old t hold htarget
    have hsame := hb.grows.site (Store.extent_site hold)
    rw [Store.extent_site hsite] at hsame
    exact ⟨htype.trans (Option.some.inj hsame).symm, htyped.mono hgrows⟩

theorem getTarget (h : s.Typed G W) {id : SiteId} {t : Handle} (ht : s.getTarget id = .ok t) :
    W.sites[id]? = some t.type ∧ t.Typed G W := by
  unfold Store.getTarget at ht
  split at ht
  · next site hsite =>
    unfold CallSite.getTarget at ht
    split at ht
    · next target htarget =>
      obtain rfl := Except.ok.inj ht
      obtain ⟨htype, htyped⟩ := h.targets id site target hsite htarget
      rw [htype, ← h.extent]
      exact ⟨Store.extent_site hsite, h.extent ▸ htyped⟩
    · cases ht
  · cases ht

/-- A handle that calls a call site is typed. -/
theorem dynamicInvoker (h : s.Typed G W) {id : SiteId} {stamp : Stamp} {t : Handle}
    (ht : s.dynamicInvoker id stamp = .ok t) : t.Typed G W := by
  unfold Store.dynamicInvoker at ht
  split at ht
  · cases ht
  · next site hsite =>
    unfold CallSite.dynamicInvoker at ht
    split at ht
    · have htarget : s.getTarget id = .ok t := by
        rw [Store.getTarget, hsite]
        exact ht
      exact (h.getTarget htarget).2
    · obtain rfl := Except.ok.inj ht
      have htype : W.sites[id]? = some site.type := by
        rw [← h.extent]
        exact Store.extent_site hsite
      exact .mk (.invoker htype) (.refl G _)

end Store.Typed

end HandleCalculus
