import HandleCalculus.Proofs.EndlessCalls
import HandleCalculus.Proofs.SitedHandles

/-!
# Programs that link call sites

The states of the call sites that a program can reach, in any order of making sites, making handles,
setting targets and calling (`Linking`). A new site and a constant one have no invokers, so to give
them a target closes no way back; what can is to set a target that leads to its own site, and then it
does (`Store.Linked.acyclic_serve_iff`). What follows for calls is put together in `Linking.calls_end`.
-/

set_option autoImplicit false

namespace HandleCalculus

open Relation (ReflTransGen TransGen)

/-! ## Steps on the call sites -/

/-- The handles that a step would make targets. -/
def SiteOp.handles : SiteOp → List Handle
  | .make _ target | .bind _ target | .setTarget _ target => [target]
  | .makeUnlinked .. | .makeUnbound _ | .getTarget _ | .dynamicInvoker .. | .elsewhere _ => []

namespace Store

/-- Whether each site is as a site is at every moment. -/
def Consistent (s : Store) : Prop :=
  ∀ (site : SiteId) (c : CallSite), s.sites[site]? = some c → c.Consistent

/-- Whether targets are among the handles listed, or fail, and the handles listed call only sites
that have invokers. -/
structure Linked (s : Store) (hs : List Handle) : Prop where
  consistent : s.Consistent
  retains : s.Retains hs
  sited : ∀ h ∈ hs, h.Sited s.HasInvoker

section Steps

variable {s s' : Store} {hs : List Handle} {h : Handle} {site : SiteId} {op : SiteOp}

/-- Sites that have invokers have them for ever. -/
theorem HasInvoker.serve (hsite : s.HasInvoker site) (op : SiteOp) :
    (s.serve op).2.HasInvoker site := by
  obtain ⟨c, hc, hkind⟩ := hsite
  obtain ⟨c', hc', hlater, -⟩ := (advances_serve s op site).later c hc
  exact ⟨c', hc', hlater.kind_eq ▸ hkind⟩

theorem Consistent.serve (hs : s.Consistent) (op : SiteOp) : (s.serve op).2.Consistent := by
  intro i c hc
  cases hold : s.sites[i]? with
  | none => exact (((advances_serve s op i).fresh hold).2 c hc).1
  | some old =>
    obtain ⟨c', hc', -, hkept, -⟩ := (advances_serve s op i).later old hold
    obtain rfl : c' = c := by simpa [hc'] using hc
    exact hkept (hs i old hold)

/-- A site that is not there has no invokers. -/
theorem not_hasInvoker_size (s : Store) : ¬ s.HasInvoker s.sites.size := by
  rintro ⟨c, hc, -⟩
  rw [Array.getElem?_size] at hc
  cases hc

/-- A step leaves all targets as they are or sets one. Unless it is there for that, the site has no
invokers, as it is new or constant. -/
theorem serve_cases (hs : s.Consistent) (op : SiteOp) :
    (∀ i, (s.serve op).2.getTarget i = s.getTarget i) ∨
      ∃ site h, (s.serve op).2.getTarget site = .ok h ∧
        (∀ i, i ≠ site → (s.serve op).2.getTarget i = s.getTarget i) ∧
        (h ∈ op.handles ∨ h.variant = .unlinked) ∧
        ((op = .setTarget site h ∧ ∃ s', s.setTarget site h = .ok s') ∨ ¬ s.HasInvoker site) := by
  have fresh : ∀ {c : CallSite} {k : Handle}, c.target = some k →
      (s.addSite c).2.getTarget s.sites.size = .ok k ∧
        ∀ i, i ≠ s.sites.size → (s.addSite c).2.getTarget i = s.getTarget i := by
    intro c k hk
    have hadd := s.getTarget_addSite c
    rwa [CallSite.getTarget, hk] at hadd
  cases op with
  | make kind target =>
    obtain ⟨hcurrent, hother⟩ := fresh (c := .ofTarget kind target) rfl
    exact .inr ⟨_, target, hcurrent, hother, .inl List.mem_cons_self, .inr s.not_hasInvoker_size⟩
  | makeUnlinked stamp kind type =>
    obtain ⟨hcurrent, hother⟩ := fresh (c := .unlinked stamp kind type) rfl
    exact .inr ⟨_, _, hcurrent, hother, .inr rfl, .inr s.not_hasInvoker_size⟩
  | makeUnbound type =>
    refine .inl fun i => ?_
    obtain ⟨hcurrent, hother⟩ := s.getTarget_addSite (.unbound type)
    by_cases hi : i = s.sites.size
    · subst hi
      refine hcurrent.trans ?_
      rw [getTarget, Array.getElem?_size]
      rfl
    · exact hother i hi
  | bind i target =>
    cases hbind : s.bindTarget i target with
    | error e =>
      left
      simp only [serve, settle, hbind, implies_true]
    | ok s' =>
      have hserve : (s.serve (.bind i target)).2 = s' := by simp only [serve, settle, hbind]
      obtain ⟨hcurrent, hother⟩ := getTarget_bindTarget hbind
      rw [hserve]
      refine .inr ⟨i, target, hcurrent, hother, .inl List.mem_cons_self, .inr ?_⟩
      -- only a constant site can be without a target
      rintro ⟨c, hc, hkind⟩
      obtain ⟨old, new, hold, hnew, -⟩ := bindTarget_eq_ok hbind
      obtain rfl : old = c := by simpa [hold] using hc
      have hsome := (hs i old hold).isSome_target hkind
      rw [(CallSite.bind_eq_ok hnew).2.1] at hsome
      cases hsome
  | setTarget i target =>
    cases hset : s.setTarget i target with
    | error e =>
      left
      simp only [serve, settle, hset, implies_true]
    | ok s' =>
      obtain ⟨hcurrent, hother⟩ := getTarget_setTarget hset
      rw [serve_setTarget hset]
      exact .inr ⟨i, target, hcurrent, hother, .inl List.mem_cons_self, .inl ⟨rfl, s', hset⟩⟩
  | getTarget i => exact .inl fun _ => rfl
  | dynamicInvoker i stamp => exact .inl fun _ => rfl
  | elsewhere work => exact .inl fun _ => rfl

namespace Linked

/-- What may become a target calls only sites that have invokers. -/
theorem sited_of (hL : s.Linked hs) (hh : h ∈ hs ∨ h.variant = .unlinked) :
    h.Sited s.HasInvoker := by
  rcases hh with hmem | hvariant
  · exact hL.sited h hmem
  · obtain ⟨stamp, type, node⟩ := h
    cases node with
    | unlinked => exact .of_leaf nofun rfl
    | _ => cases hvariant

/-- All ways lead to sites that have invokers. -/
theorem hasInvoker_of_leads (hL : s.Linked hs) (hh : h.Sited s.HasInvoker)
    (hleads : s.Leads h site) : s.HasInvoker site := by
  obtain ⟨k, hway, hk⟩ := hleads
  -- along the way
  induction hway using ReflTransGen.head_induction_on with
  | refl => exact hh.own hk
  | head hn _ ih =>
    refine ih ?_
    cases hn with
    | held child => exact hh.held child
    | target _ current => exact hL.sited_of (hL.retains _ _ current)

theorem congr (hL : s.Linked hs) (hsites : s'.sites = s.sites) : s'.Linked hs := by
  refine ⟨?_, hL.retains.congr hsites, fun k hk => (hL.sited k hk).mono fun i hi => ?_⟩
  · unfold Consistent
    rw [hsites]
    exact hL.consistent
  · unfold HasInvoker
    rwa [hsites]

/-- One more handle is listed. -/
theorem cons (hL : s.Linked hs) (hh : h.Sited s.HasInvoker) : s.Linked (h :: hs) where
  consistent := hL.consistent
  retains := hL.retains.mono fun _ => List.mem_cons_of_mem _
  sited k hk := by
    rcases List.mem_cons.1 hk with rfl | hk
    · exact hh
    · exact hL.sited k hk

theorem serve (hL : s.Linked hs) (hop : ∀ k ∈ op.handles, k ∈ hs) : (s.serve op).2.Linked hs where
  consistent := hL.consistent.serve op
  retains i k hk := by
    rcases serve_cases hL.consistent op with hsame | ⟨site, h, hcurrent, hother, hh, -⟩
    · exact hL.retains i k ((hsame i).symm.trans hk)
    · by_cases hi : i = site
      · subst hi
        obtain rfl := Except.ok.inj (hcurrent.symm.trans hk)
        exact hh.imp_left (hop h)
      · exact hL.retains i k ((hother i hi).symm.trans hk)
  sited k hk := (hL.sited k hk).mono fun _ hi => hi.serve op

/-- **A step closes a way back if and only if it sets a target that leads to its own site.** -/
theorem acyclic_serve_iff (hL : s.Linked hs) (hacyclic : s.Acyclic)
    (hop : ∀ k ∈ op.handles, k ∈ hs) : (s.serve op).2.Acyclic ↔ op.Clear s := by
  constructor
  · intro hserved
    cases op with
    | setTarget i target =>
      intro s' hset
      rw [serve_setTarget hset] at hserved
      exact (hacyclic.setTarget_iff hset).1 hserved
    | _ => exact trivial
  · intro hclear
    rcases serve_cases hL.consistent op with hsame | ⟨site, h, hcurrent, hother, hh, hcase⟩
    · exact hacyclic.congr (next_of_getTarget hsame)
    · rw [hacyclic.iff_of_target hcurrent hother]
      intro hleads
      rcases hcase with ⟨rfl, s', hset⟩ | hnone
      · exact hclear s' hset hleads
      · exact hnone (hL.hasInvoker_of_leads (hL.sited_of (hh.imp_left (hop h))) hleads)

end Linked

/-! ### Many steps -/

theorem Linked.after (hL : s.Linked hs) {ops : List SiteOp}
    (hops : ∀ op ∈ ops, ∀ k ∈ op.handles, k ∈ hs) : (s.after ops).Linked hs := by
  induction ops generalizing s with
  | nil => exact hL
  | cons op ops ih =>
    exact ih (hL.serve (hops op List.mem_cons_self)) fun op' h => hops op' (List.mem_cons_of_mem _ h)

theorem Linked.acyclic_after (hL : s.Linked hs) (hacyclic : s.Acyclic) {ops : List SiteOp}
    (hops : ∀ op ∈ ops, ∀ k ∈ op.handles, k ∈ hs) {allowed : Store → SiteOp → Prop}
    (hclear : ∀ s op, allowed s op → op.Clear s) (hallows : s.Allows allowed ops) :
    (s.after ops).Acyclic := by
  induction ops generalizing s with
  | nil => exact hacyclic
  | cons op ops ih =>
    have hop := hops op List.mem_cons_self
    exact ih (hL.serve hop) ((hL.acyclic_serve_iff hacyclic hop).2 (hclear s op hallows.1))
      (fun op' h => hops op' (List.mem_cons_of_mem _ h)) hallows.2

theorem getTarget_of_empty (hsites : s.sites = #[]) (i : SiteId) (k : Handle) :
    s.getTarget i ≠ .ok k := by
  intro hk
  rw [getTarget, hsites] at hk
  cases hk

theorem linked_of_empty (hsites : s.sites = #[]) : s.Linked [] := by
  refine ⟨fun i c hc => ?_, fun i k hk => absurd hk (getTarget_of_empty hsites i k), nofun⟩
  rw [hsites] at hc
  cases hc

end Steps

end Store

/-! ## Histories -/

/-- What a program does that links call sites, in any order: the machine it has reached, and the
handles it has. From these it makes others, in all the ways there are. It takes steps on the call
sites that are allowed, alone or in the bodies of what it calls. Slots and the record of what has run
change in any way. -/
inductive Linking (G : ClassGraph) (allowed : Store → SiteOp → Prop) :
    Machine → List Handle → Prop where
  | start (memberCache : Bool) : Linking G allowed (.initial memberCache) []
  | made {m m' : Machine} {hs : List Handle} {mk : Making} {h : Handle}
      (before : Linking G allowed m hs) (has : ∀ k ∈ mk.handles, k ∈ hs)
      (result : mk.run G m = .ok h m') : Linking G allowed m' (h :: hs)
  | refused {m m' : Machine} {hs : List Handle} {mk : Making} {e : Error}
      (before : Linking G allowed m hs) (has : ∀ k ∈ mk.handles, k ∈ hs)
      (result : mk.run G m = .error e m') : Linking G allowed m' hs
  | called {m : Machine} {hs : List Handle} (before : Linking G allowed m hs) (P : Program)
      (depth : Nat) (h : Handle) (args : List Value) (ops : List SiteOp)
      (has : ∀ op ∈ ops, ∀ k ∈ op.handles, k ∈ hs) (allows : m.store.Allows allowed ops)
      (sites : ((h.invokeExact P depth args).leaves m).store.sites = (m.store.after ops).sites) :
    Linking G allowed ((h.invokeExact P depth args).leaves m) hs
  | changed {m : Machine} {hs : List Handle} (before : Linking G allowed m hs) (ops : List SiteOp)
      (has : ∀ op ∈ ops, ∀ k ∈ op.handles, k ∈ hs) (allows : m.store.Allows allowed ops) {s : Store}
      (sites : s.sites = (m.store.after ops).sites) (calls : Array Call) :
    Linking G allowed { m with store := s, calls := calls } hs

theorem Making.sites_of_start {mk : Making} {G : ClassGraph} {m m' : Machine}
    {x : Except Error Handle} (h : (mk.run G).start m = (x, m')) :
    m'.store.sites = m.store.sites := by
  have hsites := mk.sameSites_run G m
  rwa [h] at hsites

namespace Linking

variable {G : ClassGraph} {allowed : Store → SiteOp → Prop} {m : Machine} {hs : List Handle}

/-- What the program has is registered, and the sites are linked by it only. -/
theorem linked (hL : Linking G allowed m hs) : Handling G m hs ∧ m.store.Linked hs := by
  induction hL with
  | start memberCache => exact ⟨.start memberCache, Store.linked_of_empty rfl⟩
  | @made m m' hs mk h _ has result ih =>
    obtain ⟨hH, hstore⟩ := ih
    obtain ⟨-, -, T, ks, hks, -, hregisters⟩ := hH.handles
    have hsites := Making.sites_of_start (Link.start_of_ok result)
    refine ⟨.made hH has result, (hstore.cons ?_).congr hsites⟩
    exact mk.sited_run hregisters (fun k hk => hks k (has k hk))
      (fun k hk => hstore.sited k (has k hk))
      (fun i k hk => hstore.sited_of (hstore.retains i k hk)) (fun _ hi => hi) result
  | @refused m m' hs mk e _ has result ih =>
    obtain ⟨hH, hstore⟩ := ih
    have hsites := Making.sites_of_start (Link.start_of_error result)
    exact ⟨.refused hH has result, hstore.congr hsites⟩
  | called _ P depth h args ops has _ sites ih =>
    have hstore := (ih.2.after has).congr sites
    exact ⟨.called ih.1 P depth h args hstore.retains, hstore⟩
  | changed _ ops has _ sites calls ih =>
    have hstore := (ih.2.after has).congr sites
    exact ⟨.changed ih.1 hstore.retains calls, hstore⟩

theorem keyed (hL : Linking G allowed m hs) : m.Keyed := hL.linked.1.keyed

/-- **No way ever leads back** if only such steps are allowed as close none. -/
theorem acyclic (hclear : ∀ s op, allowed s op → op.Clear s) (hL : Linking G allowed m hs) :
    m.store.Acyclic := by
  induction hL with
  | start memberCache => exact Store.acyclic_of_getTarget (Store.getTarget_of_empty rfl)
  | @made m m' hs mk h _ _ result ih =>
    exact ih.congr (Store.next_congr (Making.sites_of_start (Link.start_of_ok result)))
  | @refused m m' hs mk e _ _ result ih =>
    exact ih.congr (Store.next_congr (Making.sites_of_start (Link.start_of_error result)))
  | called before P depth h args ops has allows sites ih =>
    exact (before.linked.2.acyclic_after ih has hclear allows).congr (Store.next_congr sites)
  | changed before ops has allows sites calls ih =>
    exact (before.linked.2.acyclic_after ih has hclear allows).congr (Store.next_congr sites)

/-- Nobody looks where a target leads: a site that is not constant takes its own invoker as its
target, and goes round then. -/
theorem ownInvoker (hL : Linking G allowed m hs) {site : SiteId} {c : CallSite}
    (hsite : m.store.sites[site]? = some c) (hkind : c.kind ≠ .constant) (stamp : Stamp) :
    ∃ h s', m.store.dynamicInvoker site stamp = .ok h ∧ m.store.setTarget site h = .ok s' ∧
      TransGen s'.Next h h ∧ ∀ (P : Program) (args : List Value),
        h.type.check P.graph args = .ok () → h.NeverEnds P args { m with store := s' } := by
  let h : Handle := ⟨stamp, c.type, .invoker site⟩
  obtain ⟨s', hset⟩ := Store.exists_setTarget (h := h) hsite hkind rfl
  have hcurrent := (Store.getTarget_setTarget hset).1
  refine ⟨h, s', ?_, hset, .single (.target rfl hcurrent), fun P args hargs => ?_⟩
  · rw [Store.dynamicInvoker, hsite]
    exact CallSite.dynamicInvoker_of_ne hkind site stamp
  · refine (hL.keyed.withStore s').neverEnds (S := (· = site)) ?_ rfl rfl hargs
    rintro i rfl
    exact ⟨h, _, hcurrent, rfl, rfl⟩

/-- **Calls end where no way leads back.** Take any state of the call sites that a program can reach,
and a handle from which no way through held handles and targets comes to a handle that leads back to
itself. Then a call of it comes to an end, on whatever arguments, if the bodies leave the sites
alone, and nothing is called again while it runs. If bodies set targets, it is enough that the ways
keep going down in one order, with no endless descent from the handle. One step on the call sites
closes a way back if and only if it sets a target that leads to its own site, so none ever does if
these steps are not allowed. All sites but constant ones allow them, and a call may never end then. -/
theorem calls_end (hL : Linking G allowed m hs) :
    ((∀ s op, allowed s op → op.Clear s) → m.store.Acyclic) ∧
    (∀ h : Handle, m.store.AcyclicFrom h → ∀ P : Program, P.SparesSites → ∀ args : List Value,
      h.Terminates P args m ∧ ∀ depth S b, Activation.Stack P ⟨h, args, depth, m⟩ S b →
        ∀ f ∈ S, f.1.handle ≠ b.handle) ∧
    (∀ (P : Program) (R : Handle → Handle → Prop), m.store.Below R → P.StaysBelow R →
      ∀ h : Handle, Acc R h → ∀ args : List Value, h.Terminates P args m) ∧
    (m.store.Acyclic → ∀ op : SiteOp, (∀ k ∈ op.handles, k ∈ hs) →
      ((m.store.serve op).2.Acyclic ↔ op.Clear m.store)) ∧
    (∀ site c stamp, m.store.sites[site]? = some c → c.kind ≠ .constant →
      ∃ h s', m.store.dynamicInvoker site stamp = .ok h ∧ m.store.setTarget site h = .ok s' ∧
        TransGen s'.Next h h ∧ ∀ (P : Program) (args : List Value),
          h.type.check P.graph args = .ok () → h.NeverEnds P args { m with store := s' }) := by
  refine ⟨hL.acyclic, fun h hfrom P hP args => ⟨hfrom.terminates hP args, ?_⟩,
    fun P R hm hP h hacc args => h.terminates_of_acc hP hm hacc args,
    fun hacyclic op hop => hL.linked.2.acyclic_serve_iff hacyclic hop,
    fun site c stamp hsite hkind => hL.ownInvoker hsite hkind stamp⟩
  exact fun depth S b hS f hf => hS.apart hP hfrom hf

end Linking

/-! ### One site -/

/-- An invoker of the first site. -/
def Handle.firstInvoker : Handle := ⟨0, .action, .invoker 0⟩

/-- A machine on which a site without a target has been made, and an invoker of it. -/
def Machine.oneSite : Machine :=
  { Machine.initial true with
    store := (Machine.initial true).store.after [.makeUnlinked 0 .mutable .action], nextStamp := 2 }

/-- The same with the invoker as the target of the site. -/
def Machine.ownTarget : Machine :=
  { Machine.oneSite with store := Machine.oneSite.store.after [.setTarget 0 .firstInvoker] }

namespace Linking

theorem oneSite {allowed : Store → SiteOp → Prop}
    (hmake : ∀ s, allowed s (.makeUnlinked 0 .mutable .action)) :
    Linking .bootstrap allowed .oneSite [.firstInvoker] := by
  have hsite : Linking .bootstrap allowed { Machine.oneSite with nextStamp := 0 } [] := by
    refine .changed (.start true) [.makeUnlinked 0 .mutable .action] (fun op hop k hk => ?_)
      ⟨hmake _, trivial⟩ rfl #[]
    obtain rfl := List.mem_singleton.1 hop
    cases hk
  exact @made _ _ _ _ _ (.invoker 0) _ hsite nofun rfl

/-- A call of the invoker ends, with the failure of a site that is not linked. It would not with the
invoker as the target, and to make it the target is not clear. -/
theorem calls_end_of_oneSite :
    Linking .bootstrap (fun s op => op.Clear s) .oneSite [.firstInvoker] ∧
    Machine.oneSite.store.Acyclic ∧
    Handle.firstInvoker.Terminates (.zeros .bootstrap) [] .oneSite ∧
    ¬ (SiteOp.setTarget 0 .firstInvoker).Clear Machine.oneSite.store := by
  have hL : Linking .bootstrap (fun s op => op.Clear s) .oneSite [.firstInvoker] :=
    oneSite fun _ => trivial
  obtain ⟨hacyclic, hends, -, hclear, hround⟩ := calls_end hL
  have hacyclic := hacyclic fun _ _ hclear => hclear
  have hspares : (Program.zeros .bootstrap).SparesSites := fun _ _ _ => rfl
  refine ⟨hL, hacyclic, (hends _ (hacyclic.from _) _ hspares []).1, ?_⟩
  obtain ⟨h, s', hinvoker, hset, hback, -⟩ := hround 0 (.unlinked 0 .mutable .action) 0 rfl nofun
  obtain rfl : Handle.firstInvoker = h := Except.ok.inj hinvoker
  rw [← hclear hacyclic (.setTarget 0 .firstInvoker) fun k hk => hk, Store.serve_setTarget hset]
  exact fun hserved => hserved .firstInvoker hback

/-- With its invoker as the target, the site is called for ever, although all bodies end and none of
them touches a site. -/
theorem neverEnds_of_ownInvoker :
    Linking .bootstrap (fun _ _ => True) .ownTarget [.firstInvoker] ∧
    (Program.zeros .bootstrap).SparesSites ∧
    Handle.firstInvoker.type.check ClassGraph.bootstrap [] = .ok () ∧
    TransGen Machine.ownTarget.store.Next .firstInvoker .firstInvoker ∧
    ¬ Handle.firstInvoker.Terminates (.zeros .bootstrap) [] .ownTarget ∧
    Handle.firstInvoker.NeverEnds (.zeros .bootstrap) [] .ownTarget := by
  have hL : Linking .bootstrap (fun _ _ => True) .oneSite [.firstInvoker] := oneSite fun _ => trivial
  have hsite : Machine.oneSite.store.sites[0]? = some (.unlinked 0 .mutable .action) := rfl
  obtain ⟨h, s', hinvoker, hset, hback, hnever⟩ := hL.ownInvoker hsite nofun 0
  obtain rfl : Handle.firstInvoker = h := Except.ok.inj hinvoker
  have hstore : Machine.ownTarget.store = s' := Store.serve_setTarget hset
  rw [← hstore] at hback hnever
  have hnever : Handle.firstInvoker.NeverEnds (.zeros .bootstrap) [] .ownTarget := hnever _ [] rfl
  refine ⟨?_, fun _ _ _ => rfl, rfl, hback, hnever.not_terminates, hnever⟩
  refine hL.changed [.setTarget 0 .firstInvoker] (fun op hop k hk => ?_) ⟨trivial, trivial⟩ rfl #[]
  obtain rfl := List.mem_singleton.1 hop
  exact hk

end Linking

end HandleCalculus
