import HandleCalculus.Proofs.CollectorMemory
import HandleCalculus.Proofs.DirectCalls
import HandleCalculus.Proofs.SiteHistory

/-!
# Whatever a program makes is registered

A program makes handles in all the ways there are and calls them, in any order (`Handling`). All that
time the handles it has made are registered, and with them those that can be got out of them again
(`Handling.registers`).

The induction goes over a list that is closed: with each handle it has those that can be got out of it.
A new handle either opens nothing, or has the node of one that is listed, or is a new node of variable
arity or a new reordering on top of one that is (`Handle.Arises`).
-/

set_option autoImplicit false

namespace HandleCalculus

/-- Whether a list has with each handle those that can be got out of it. -/
def Handle.Closed (hs : List Handle) : Prop := ∀ h ∈ hs, ∀ k, h.Opens k → k ∈ hs

/-- How a handle may come about, under the identity and from the handles listed. -/
inductive Handle.Arises (s : Stamp) (hs : List Handle) (h : Handle) : Prop where
  | solid (hsolid : h.Solid)
  | seen {k : Handle} (hk : k ∈ hs) (hnode : h.node = k.node)
  | reorders {k : Handle} {order : List Nat} (hk : k ∈ hs) (hnode : h.node = .permute k order)
  | collects {k : Handle} {array : Ty} (hk : k ∈ hs) (hfixed : k.isVarargs = false)
      (hnode : h.node = .varargs k array s)

namespace Handle

variable {G : ClassGraph} {T : Cells} {hs : List Handle} {h h' k : Handle} {s : Stamp}

theorem Closed.asFixedArity (hc : Closed hs) (hh : h ∈ hs) : h.asFixedArity ∈ hs := by
  unfold Handle.asFixedArity
  split
  · next hnode => exact hc h hh _ (.varargs hnode)
  · exact hh

theorem Arises.newUnder (ha : h.Arises s hs) : h.NewUnder s hs := by
  cases ha with
  | solid hsolid => exact .inl hsolid.isVarargs
  | seen hk hnode => exact .inr (.inl ⟨_, hk, hnode⟩)
  | reorders hk hnode =>
    refine .inl ?_
    rw [isVarargs, hnode]
  | collects hk hfixed hnode => exact .inr (.inr ⟨_, _, hfixed, hnode⟩)

theorem Arises.mem (hc : Closed hs) (ha : h.Arises s hs) (hk : h.Opens k) : k ∈ hs := by
  cases ha with
  | solid hsolid => exact absurd hk (hsolid k)
  | seen hmem hnode => exact hc _ hmem k (hk.congr hnode)
  | @reorders k' order hmem hnode =>
    cases hk with
    | varargs h => cases hnode.symm.trans h
    | permute h =>
      cases hnode.symm.trans h
      exact hmem
  | @collects k' array hmem hfixed hnode =>
    cases hk with
    | varargs h =>
      cases hnode.symm.trans h
      exact hmem
    | permute h => cases hnode.symm.trans h

/-! ## Combinators -/

/-- A node that is neither of variable arity nor a reordering. -/
theorem Arises.of_variant {t : Signature} {n : Node Handle} (hvarargs : n.variant ≠ .varargs)
    (hpermute : n.variant ≠ .permute) : (⟨s, t, n⟩ : Handle).Arises s hs :=
  .solid (solid_of_variant hvarargs hpermute)

theorem arises_insertArguments (hh : h ∈ hs) {pos : Nat} {vs : List Value}
    (hmade : h.insertArguments G s pos vs = .ok h') : h'.Arises s hs := by
  rcases insertArguments_eq_ok hmade with rfl | ⟨t, bound, rfl⟩
  · exact .seen hh rfl
  · exact .of_variant nofun nofun

theorem arises_permuteArguments (hc : Closed hs) (hh : h ∈ hs) {new : Signature}
    {reorder : List Nat} (hmade : h.permuteArguments s new reorder = .ok h') : h'.Arises s hs := by
  have hinner : ∀ {inner : Handle} {order : List Nat}, h.node = .permute inner order → inner ∈ hs :=
    fun hnode => hc h hh _ (.permute hnode)
  cases (permuteArguments_eq_ok hmade).2 with
  | same _ _ => exact .seen hh rfl
  | fresh _ => exact .reorders hh rfl
  | collapsed hnode => exact .reorders (hinner hnode) rfl
  | cancelled hnode _ _ _ => exact .seen (hinner hnode) rfl
  | retyped hnode _ _ _ => exact .seen (hinner hnode) rfl

theorem arises_dropArguments (hc : Closed hs) (hh : h ∈ hs) {pos : Nat} {types : List Ty}
    (hmade : h.dropArguments s pos types = .ok h') : h'.Arises s hs := by
  rcases dropArguments_eq_ok hmade with rfl | ⟨new, reorder, hmade⟩
  · exact .seen hh rfl
  · exact arises_permuteArguments hc hh hmade

theorem arises_filterArguments (hh : h ∈ hs) {pos : Nat} {filters : List (Option Handle)}
    (hmade : h.filterArguments s pos filters = .ok h') : h'.Arises s hs := by
  rcases filterArguments_eq_ok hmade with rfl | ⟨t, rfl⟩
  · exact .seen hh rfl
  · exact .of_variant nofun nofun

theorem arises_asVarargsCollector (hc : Closed hs) (hh : h ∈ hs) (hr : h.Registered T) {array : Ty}
    (hmade : h.asVarargsCollector G s array = .ok h') : h'.Arises s hs := by
  rcases asVarargsCollector_eq_ok hmade with rfl | rfl
  · exact .seen hh rfl
  · exact .collects (hc.asFixedArity hh) hr.asFixedArity rfl

/-- What is got out of a conversion is got out of the handle converted. -/
theorem opens_of_convertTo {new : Signature} (hmade : h.convertTo G s new = .ok h')
    (hk : h'.Opens k) : h.Opens k := by
  rcases convertTo_eq_ok hmade with rfl | ⟨args, ret, -, -, -, ⟨-, -, hretype⟩ | rfl⟩
  · exact hk
  · exact hk.congr (retype_eq_ok hretype).1
  · cases hk with
    | varargs hnode => cases hnode
    | permute hnode => cases hnode

theorem solid_asCollectorAt {pos count : Nat} {array : Ty}
    (hmade : h.asCollectorAt G s pos array count = .ok h') : h'.Solid := by
  obtain ⟨c, t, -, -, -, hnode, -⟩ := asCollectorAt_eq_ok hmade
  intro k hk
  cases hk with
  | varargs h => cases hnode.symm.trans h
  | permute h => cases hnode.symm.trans h

theorem solid_asCollector {array : Ty} {count : Nat}
    (hmade : h.asCollector G s array count = .ok h') : h'.Solid := by
  obtain ⟨pos, hmade⟩ := asCollectorAt_of_asCollector hmade
  exact solid_asCollectorAt hmade

/-- Whatever signature a handle is seen under, what can be got out of it then is listed. -/
theorem SeenAs.mem (hc : Closed hs) (hh : h ∈ hs) {new : Signature} (hseen : h.SeenAs G new h')
    (hk : h'.Opens k) : k ∈ hs := by
  cases hseen with
  | same => exact hc h hh k hk
  | converted _ hmade => exact hc h hh k (opens_of_convertTo hmade hk)
  | passed hnode hmade => exact hc _ (hc h hh _ (.varargs hnode)) k (opens_of_convertTo hmade hk)
  | collected _ hcollector hmade =>
    exact absurd (opens_of_convertTo hmade hk) (solid_asCollector hcollector k)

end Handle

/-! ## Making handles -/

/-- Whether the call sites have no other targets than handles that are listed and those that fail
because the site is not linked. -/
def Store.Retains (s : Store) (hs : List Handle) : Prop :=
  ∀ id h, s.getTarget id = .ok h → h ∈ hs ∨ h.variant = .unlinked

theorem Store.Retains.congr {s s' : Store} {hs : List Handle} (hr : s.Retains hs)
    (hsites : s'.sites = s.sites) : s'.Retains hs := by
  intro id h hh
  unfold Store.getTarget at hh
  rw [hsites] at hh
  exact hr id h hh

theorem Store.Retains.mono {s : Store} {hs ks : List Handle} (hr : s.Retains hs)
    (hks : ∀ h ∈ hs, h ∈ ks) : s.Retains ks :=
  fun id h hh => (hr id h hh).imp_left (hks h)

theorem Store.Retains.solid {s : Store} {hs : List Handle} (hr : s.Retains hs) {id : SiteId}
    {h : Handle} (hh : s.getTarget id = .ok h) : h ∈ hs ∨ h.Solid := by
  rcases hr id h hh with hmem | hvariant
  · exact .inl hmem
  · refine .inr (Handle.solid_of_variant ?_ ?_) <;> rw [hvariant] <;> exact nofun

/-- Making handles leaves the call sites alone. -/
theorem Making.sameSites_run (mk : Making) (G : ClassGraph) :
    (mk.run G).Stays fun m n => n.store.sites = m.store.sites := by
  have hallows : Machine.Allows fun m n => n.store.sites = m.store.sites :=
    ⟨fun _ => rfl, fun h h' => h'.trans h, fun _ _ => rfl, fun _ _ => rfl⟩
  exact mk.stays_run hallows (fun _ _ => rfl) (fun _ _ => rfl) G

/-- Whether what can be got out of a handle is listed or is solid. -/
def Handle.Fits (hs : List Handle) (h : Handle) : Prop := ∀ k, h.Opens k → k ∈ hs ∨ k.Solid

namespace Making

variable {G : ClassGraph} {T : Cells} {hs : List Handle}

theorem registers_build (hc : Handle.Closed hs) {f : Stamp → Except Error Handle}
    (hf : ∀ s h, f s = .ok h → h.Arises s hs) :
    Link.Registers G T hs (Link.build f) (Handle.Fits hs) :=
  .build fun s h hmade => ⟨(hf s h hmade).newUnder, fun _ hk => .inl ((hf s h hmade).mem hc hk)⟩

theorem registers_ofExcept (hc : Handle.Closed hs) {x : Except Error Handle}
    (hx : ∀ h, x = .ok h → h ∈ hs ∨ h.Solid) :
    Link.Registers G T hs (Link.ofExcept x) (Handle.Fits hs) := by
  cases x with
  | ok h =>
    rcases hx h rfl with hmem | hsolid
    · exact .pure hmem fun k hk => .inl (hc h hmem k hk)
    · exact fun m hm => ⟨T, .refl T, hm.cons (.of_fixed hsolid.isVarargs),
        fun k hk => absurd hk (hsolid k)⟩
  | error e => exact fun m hm => ⟨T, .refl T, hm⟩

/-- From handles that are listed, a handle is made that may be listed too. -/
theorem registers_run {mk : Making} (hc : Handle.Closed hs) (hhandles : ∀ h ∈ mk.handles, h ∈ hs)
    {m : Machine} (hm : m.Registers G T hs) (hsites : m.store.Retains hs) :
    ∃ T', T.Extends T' ∧
      match mk.run G m with
      | .ok h m' => m'.Registers G T' (h :: hs) ∧ h.Fits hs
      | .error _ m' => m'.Registers G T' hs := by
  have hfirst : ∀ {h : Handle} {ks : List Handle}, mk.handles = h :: ks → h ∈ hs :=
    fun hmk => hhandles _ (by rw [hmk]; exact List.mem_cons_self)
  have build : ∀ {f : Stamp → Except Error Handle}, (∀ s h, f s = .ok h → h.Arises s hs) →
      Link.Registers G T hs (Link.build f) (Handle.Fits hs) := fun hf => registers_build hc hf
  -- a new node that holds what it is given for good
  have fresh : ∀ {f : Stamp → Except Error Handle},
      (∀ s h, f s = .ok h → ∃ t n, h = ⟨s, t, n⟩ ∧ n.variant ≠ .varargs ∧ n.variant ≠ .permute) →
        Link.Registers G T hs (Link.build f) (Handle.Fits hs) := by
    refine fun hf => build fun s h hmade => ?_
    obtain ⟨t, n, rfl, hvarargs, hpermute⟩ := hf s h hmade
    exact .of_variant hvarargs hpermute
  unfold run
  cases mk with
  | member table l op =>
    exact (l.registers_answer ⟨G, table⟩ op).mono (fun _ _ _ _ h _ hk => .inr (hk.solid h.1)) m hm
  | insertArguments => exact build (fun s a ha => Handle.arises_insertArguments (hfirst rfl) ha) m hm
  | bindTo =>
    exact build (fun s a ha =>
      Handle.arises_insertArguments (hfirst rfl) (Handle.insertArguments_of_bindTo ha)) m hm
  | permuteArguments =>
    exact build (fun s a ha => Handle.arises_permuteArguments hc (hfirst rfl) ha) m hm
  | dropArguments =>
    exact build (fun s a ha => Handle.arises_dropArguments hc (hfirst rfl) ha) m hm
  | filterArguments => exact build (fun s a ha => Handle.arises_filterArguments (hfirst rfl) ha) m hm
  | filterReturnValue =>
    refine fresh (fun s a ha => ?_) m hm
    obtain ⟨t, rfl⟩ := Handle.filterReturnValue_eq_ok ha
    exact ⟨_, _, rfl, nofun, nofun⟩
  | foldArguments =>
    refine fresh (fun s a ha => ?_) m hm
    obtain ⟨t, rfl⟩ := Handle.foldArguments_eq_ok ha
    exact ⟨_, _, rfl, nofun, nofun⟩
  | collectArguments =>
    refine fresh (fun s a ha => ?_) m hm
    obtain ⟨_, _, _, t, -, rfl⟩ := Handle.collectArguments_eq_ok ha
    exact ⟨_, _, rfl, nofun, nofun⟩
  | guardWithTest =>
    refine fresh (fun s a ha => ?_) m hm
    obtain rfl := Handle.guardWithTest_eq_ok ha
    exact ⟨_, _, rfl, nofun, nofun⟩
  | catchException =>
    refine fresh (fun s a ha => ?_) m hm
    obtain rfl := Handle.catchException_eq_ok ha
    exact ⟨_, _, rfl, nofun, nofun⟩
  | constant =>
    refine fresh (fun s a ha => ?_) m hm
    obtain ⟨t, v, rfl⟩ := Handle.constant_eq_ok ha
    exact ⟨_, _, rfl, nofun, nofun⟩
  | identity =>
    refine fresh (fun s a ha => ?_) m hm
    obtain ⟨t, rfl⟩ := Handle.identity_eq_ok ha
    exact ⟨_, _, rfl, nofun, nofun⟩
  | throwException =>
    refine fresh (fun s a ha => ?_) m hm
    obtain ⟨t, rfl⟩ := Handle.throwException_eq_ok ha
    exact ⟨_, _, rfl, nofun, nofun⟩
  | unlinked t message =>
    refine fresh (f := fun s => .ok (Handle.unlinked s t message)) (fun s a ha => ?_) m hm
    obtain rfl := Except.ok.inj ha
    exact ⟨_, _, rfl, nofun, nofun⟩
  | asType h new =>
    have hmem := hfirst rfl
    exact (Handle.registers_asType hmem new).mono
      (fun _ _ _ _ hseen _ hk => .inl (hseen.mem hc hmem hk)) m hm
  | asCollectorAt => exact build (fun s a ha => .solid (Handle.solid_asCollectorAt ha)) m hm
  | asCollector => exact build (fun s a ha => .solid (Handle.solid_asCollector ha)) m hm
  | asSpreaderAt =>
    refine fresh (fun s a ha => ?_) m hm
    obtain ⟨t, rfl⟩ := Handle.asSpreaderAt_made ha
    exact ⟨_, _, rfl, nofun, nofun⟩
  | asSpreader =>
    refine fresh (fun s a ha => ?_) m hm
    obtain ⟨pos, ha⟩ := Handle.asSpreaderAt_of_asSpreader ha
    obtain ⟨t, rfl⟩ := Handle.asSpreaderAt_made ha
    exact ⟨_, _, rfl, nofun, nofun⟩
  | asVarargsCollector h array =>
    have hmem := hfirst rfl
    exact build (fun s a ha =>
      Handle.arises_asVarargsCollector hc hmem (hm.handles h hmem) ha) m hm
  | asFixedArity h =>
    have hmem := hc.asFixedArity (hfirst rfl)
    exact Link.Registers.pure hmem (fun k hk => .inl (hc _ hmem k hk)) m hm
  | target site => exact registers_ofExcept hc (fun h hh => hsites.solid hh) m hm
  | invoker site =>
    refine build (f := fun s => m.store.dynamicInvoker site s) (fun s a ha => ?_) m hm
    rcases Store.dynamicInvoker_eq_ok ha with htarget | ⟨c, -, -, rfl⟩
    · -- a constant site hands out its target
      rcases hsites.solid htarget with hmem | hsolid
      · exact .seen hmem rfl
      · exact .solid hsolid
    · exact .of_variant nofun nofun

end Making

/-! ## Histories -/

/-- What a program does with handles, in any order: the machine it has reached, and the handles it has.
From these it makes others, in all the ways there are, and it calls handles, for any program. Slots and
the record of what has run change in any way, and so do call sites, by what the program does to them or
by what it calls, as long as only handles that it has become targets. -/
inductive Handling (G : ClassGraph) : Machine → List Handle → Prop where
  | start (memberCache : Bool) : Handling G (.initial memberCache) []
  | made {m m' : Machine} {hs : List Handle} {mk : Making} {h : Handle} (before : Handling G m hs)
      (has : ∀ k ∈ mk.handles, k ∈ hs) (result : mk.run G m = .ok h m') : Handling G m' (h :: hs)
  | refused {m m' : Machine} {hs : List Handle} {mk : Making} {e : Error} (before : Handling G m hs)
      (has : ∀ k ∈ mk.handles, k ∈ hs) (result : mk.run G m = .error e m') : Handling G m' hs
  | called {m : Machine} {hs : List Handle} (before : Handling G m hs) (P : Program) (depth : Nat)
      (h : Handle) (args : List Value)
      (retains : ((h.invokeExact P depth args).leaves m).store.Retains hs) :
    Handling G ((h.invokeExact P depth args).leaves m) hs
  | changed {m : Machine} {hs : List Handle} (before : Handling G m hs) {s : Store}
      (retains : s.Retains hs) (calls : Array Call) :
    Handling G { m with store := s, calls := calls } hs

/-- What every step of a program keeps. -/
structure Machine.Handles (G : ClassGraph) (m : Machine) (hs : List Handle) : Prop where
  settled : m.Settled
  retains : m.store.Retains hs
  registers : ∃ T ks, (∀ h ∈ hs, h ∈ ks) ∧ Handle.Closed ks ∧ m.Registers G T ks

namespace Machine.Handles

variable {G : ClassGraph} {m n : Machine} {hs : List Handle} {mk : Making}

theorem congr (hm : m.Handles G hs) (hsettled : n.Settled) (hretains : n.store.Retains hs)
    (hmembers : n.members = m.members) (hcollectors : n.collectors = m.collectors)
    (hstamp : m.nextStamp ≤ n.nextStamp) : n.Handles G hs := by
  obtain ⟨T, ks, hks, hc, hregisters⟩ := hm.registers
  exact ⟨hsettled, hretains, T, ks, hks, hc, hregisters.congr hmembers hcollectors hstamp⟩

/-- One more handle is listed, and what can be got out of it. -/
theorem exists_closed {T : Cells} {ks : List Handle} {h : Handle} (hc : Handle.Closed ks)
    (hm : m.Registers G T (h :: ks)) (hfits : h.Fits ks) :
    ∃ ks', (∀ k ∈ h :: ks, k ∈ ks') ∧ Handle.Closed ks' ∧ m.Registers G T ks' := by
  by_cases hopen : ∀ k, h.Opens k → k ∈ ks
  · refine ⟨h :: ks, fun k hk => hk, fun k hk j hj => ?_, hm⟩
    rcases List.mem_cons.1 hk with rfl | hk
    · exact List.mem_cons_of_mem _ (hopen j hj)
    · exact List.mem_cons_of_mem _ (hc k hk j hj)
  · obtain ⟨k, hk, hnew⟩ : ∃ k, h.Opens k ∧ k ∉ ks := by simpa using hopen
    have hsolid : k.Solid := (hfits k hk).resolve_left hnew
    refine ⟨k :: h :: ks, fun _ => List.mem_cons_of_mem _, fun i hi j hj => ?_,
      hm.cons (.of_fixed hsolid.isVarargs)⟩
    rcases List.mem_cons.1 hi with rfl | hi
    · exact absurd hj (hsolid j)
    rcases List.mem_cons.1 hi with rfl | hi
    · rw [hj.unique hk]
      exact List.mem_cons_self
    · exact List.mem_cons_of_mem _ (List.mem_cons_of_mem _ (hc i hi j hj))

/-- A handle is made of those at hand, or is not. -/
theorem run (hm : m.Handles G hs) (has : ∀ k ∈ mk.handles, k ∈ hs) :
    match mk.run G m with
    | .ok h m' => m'.Handles G (h :: hs)
    | .error _ m' => m'.Handles G hs := by
  obtain ⟨hsettled, hretains, T, ks, hks, hc, hregisters⟩ := hm
  obtain ⟨T', -, hstep⟩ :=
    mk.registers_run hc (fun h hh => hks h (has h hh)) hregisters (hretains.mono hks)
  have hthunks := mk.sameThunks_run G m
  have hsites := mk.sameSites_run G m
  unfold Link.start at hthunks hsites
  cases hrun : mk.run G m with
  | ok h m' =>
    rw [hrun] at hstep hthunks hsites
    obtain ⟨ks', hks', hc', hregisters'⟩ := exists_closed hc hstep.1 hstep.2
    refine ⟨hthunks.settled hsettled, ?_, T', ks', fun k hk => hks' k ?_, hc', hregisters'⟩
    · exact (hretains.congr hsites).mono fun _ => List.mem_cons_of_mem _
    · rcases List.mem_cons.1 hk with rfl | hk
      · exact List.mem_cons_self
      · exact List.mem_cons_of_mem _ (hks k hk)
  | error e m' =>
    rw [hrun] at hstep hthunks hsites
    exact ⟨hthunks.settled hsettled, hretains.congr hsites, T', ks, hks, hc, hstep⟩

end Machine.Handles

/-- Whatever a program has made is registered. -/
theorem Handling.handles {G : ClassGraph} {m : Machine} {hs : List Handle} (hH : Handling G m hs) :
    m.Handles G hs := by
  induction hH with
  | start memberCache =>
    have hsites : (Machine.initial memberCache).store.Retains [] := by
      intro id h hh
      have hnone : (Machine.initial memberCache).store.getTarget id = .error .notYetBound := rfl
      rw [hnone] at hh
      cases hh
    refine ⟨(Machine.Reached.start memberCache).settled, hsites, fun _ => none, [], nofun, nofun, ?_⟩
    exact ⟨fun _ _ => rfl, nofun, nofun, nofun⟩
  | made _ has result ih =>
    have hstep := ih.run has
    rw [result] at hstep
    exact hstep
  | refused _ has result ih =>
    have hstep := ih.run has
    rw [result] at hstep
    exact hstep
  | called _ P depth h args retains ih =>
    obtain ⟨hsettled, hkept⟩ :=
      ih.settled.leaves (Handle.alike_invokeExact P depth h.coincides_refl args)
    exact ih.congr hsettled retains hkept.members hkept.collectors
      (Nat.le_of_eq hkept.nextStamp.symm)
  | changed _ retains calls ih =>
    exact ih.congr ⟨ih.settled.table, ih.settled.cells⟩ retains rfl rfl (Nat.le_refl _)

/-- It leaves every thunk under its own key. -/
theorem Handling.keyed {G : ClassGraph} {m : Machine} {hs : List Handle} (hH : Handling G m hs) :
    m.Keyed := by
  induction hH with
  | start memberCache => exact Machine.keyed_initial memberCache
  | @made m m' hs mk h _ _ result ih =>
    have hrun := mk.keyed_run ih G
    rwa [Link.start_of_ok result] at hrun
  | @refused m m' hs mk e _ _ result ih =>
    have hrun := mk.keyed_run ih G
    rwa [Link.start_of_error result] at hrun
  | called _ P depth h args _ ih => exact h.keeps_keyed_invokeExact P depth args _ ih
  | changed _ _ calls ih => exact ih.change _ calls

end HandleCalculus
