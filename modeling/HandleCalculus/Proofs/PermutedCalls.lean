import HandleCalculus.Proofs.FittedHandles
import HandleCalculus.Proofs.DirectCalls

/-!
# Calls of reorderings

Whatever `permuteArguments` makes, its call ends as the call of the target on the arguments picked: with
the same answer or for the same reason, with the same bodies run. The handles that it saves cost a level
each, so either call may need a level that the other does without (`Handle.CallsAs`).

Where the target is a permutation, both calls come to calls of its inner handle on the same arguments, as
picking from what was picked is picking once (`Picks.combined`). If the two orders cancel out, the inner
handle may be called under the signature of the outer one. Its node does the same work there, because it
accepts every signature that erases alike (`Handle.perform_of_accepts`), and all handles that a program
makes fit their nodes.
-/

set_option autoImplicit false

namespace HandleCalculus

namespace Handle

variable {P : Program} {h k inner : Handle} {args picked : List Value}

/-! ## Work under another signature -/

/-- An argument whose type erases to a reference is an object or null. -/
theorem exists_first_of_carrier {G : ClassGraph} {ts : List Ty}
    (hargs : Value.fitAll G args ts = true) (hts : (ts.map Ty.carrier).head? = some .L) :
    ∃ v vs, args = v :: vs ∧ (v = .null ∨ ∃ o, v = .obj o) := by
  cases ts with
  | nil => cases hts
  | cons t ts =>
    cases args with
    | nil => cases hargs
    | cons v vs =>
      have hcarrier : t.carrier = .L := Option.some.inj hts
      have hreference : t.isReference = true := by
        cases t with
        | prim p => cases p <;> cases hcarrier
        | void => cases hcarrier
        | cls c => rfl
        | array a => rfl
      rw [Value.fitAll, Bool.and_eq_true] at hargs
      rcases (Value.fits_reference hreference).1 hargs.1 with rfl | ⟨o, rfl, -⟩
      · exact ⟨_, vs, rfl, .inl rfl⟩
      · exact ⟨_, vs, rfl, .inr ⟨o, rfl⟩⟩

/-- A node that accepts the signature that it stands under does the same work there as under its own. -/
theorem perform_of_accepts (hnode : k.node = h.node) (haccepts : h.node.Accepts k.type.shape)
    (hargs : Value.fitAll P.graph args k.type.params = true) (call : Caller) :
    k.perform P call args = h.perform P call args := by
  have hne : k.type.shape.params ≠ [] → args ≠ [] := by
    rintro hparams rfl
    have hlength : k.type.params.length = 0 := (Value.length_eq_of_fitAll hargs).symm
    exact hparams (by rw [Signature.shape, List.length_eq_zero_iff.1 hlength]; rfl)
  unfold perform
  rw [hnode]
  generalize h.node = n at haccepts
  cases n with
  | setField f isStatic => rw [List.getLast?_eq_some_getLast (hne haccepts)]
  | collect target pos count array =>
    obtain ⟨component, hcomponent⟩ := Option.isSome_iff_exists.1 haccepts
    dsimp only
    rw [hcomponent]
  | identity =>
    obtain ⟨v, vs, rfl⟩ := List.exists_cons_of_ne_nil (hne haccepts)
    rfl
  | throwing =>
    obtain ⟨v, vs, rfl, rfl | ⟨o, rfl⟩⟩ := exists_first_of_carrier hargs haccepts <;> rfl
  | _ => rfl

/-! ## Calls through a node -/

/-- The call of a permutation is the call of its target, a level further down. -/
theorem same_invokeBasic_of_permute (hP : P.Blind) {order : List Nat}
    (hnode : k.node = .permute h order) (hpicked : Picks args order picked) (depth : Nat) :
    Run.Same (k.invokeBasic P (depth + 1) args) (h.invokeBasic P depth picked) := by
  have hk := same_invokeBasic_succ hP depth k args
  unfold perform at hk
  simpa only [hnode, pick?_eq_some_iff.2 hpicked] using hk

/-! ## Calls that end alike -/

/-- Whether on a machine the exact call of one handle ends as that of another, with the same answer or for
the same reason, the same bodies run and the same store left, however deep calls may go, but for a few
levels that one of the two goes further down. -/
def CallsAs (P : Program) (m : Machine) (levels : Nat) (k : Handle) (args : List Value) (h : Handle)
    (picked : List Value) : Prop :=
  ∃ u v, u + v ≤ levels ∧ ∀ depth,
    seen Machine.visible (k.invokeExact P (depth + u) args m) =
      seen Machine.visible (h.invokeExact P (depth + v) picked m)

namespace CallsAs

variable {m : Machine} {i j : Nat}

theorem symm (hk : CallsAs P m i k args h picked) : CallsAs P m i h picked k args := by
  obtain ⟨u, v, hlevels, hsame⟩ := hk
  exact ⟨v, u, Nat.add_comm u v ▸ hlevels, fun depth => (hsame depth).symm⟩

theorem trans {vs : List Value} (hk : CallsAs P m i k args h picked)
    (hh : CallsAs P m j h picked inner vs) : CallsAs P m (i + j) k args inner vs := by
  obtain ⟨u, v, hlevels, hsame⟩ := hk
  obtain ⟨u', v', hlevels', hsame'⟩ := hh
  refine ⟨u' + u, v + v', by omega, fun depth => ?_⟩
  have hfirst := hsame (depth + u')
  have hsecond := hsame' (depth + v)
  rw [Nat.add_right_comm depth u' v, Nat.add_assoc] at hfirst
  rw [Nat.add_assoc depth v v'] at hsecond
  exact hfirst.trans hsecond

/-- Exact calls with arguments that fit end alike if the calls proper do. -/
theorem of_invokeBasic (hm : m.Keyed) (hargs : k.type.check P.graph args = .ok ())
    (hpicked : h.type.check P.graph picked = .ok ()) {u v : Nat} (hlevels : u + v ≤ i)
    (hsame : ∀ depth,
      Run.Same (k.invokeBasic P (depth + u) args) (h.invokeBasic P (depth + v) picked)) :
    CallsAs P m i k args h picked := by
  refine ⟨u, v, hlevels, fun depth => ?_⟩
  rw [invokeExact_of_check hargs, invokeExact_of_check hpicked]
  exact (hsame depth m m hm hm rfl).seen_eq

end CallsAs

/-! ## Calls of what is made -/

section Calls

variable {s : Stamp} {new : Signature} {reorder : List Nat}

/-- Arguments that a signature takes are picked from, and those picked are what the other one takes. -/
theorem exists_picked {G : ClassGraph} {old : Signature} (hroutes : new.Routes old reorder)
    (hargs : new.check G args = .ok ()) :
    ∃ picked, Picks args reorder picked ∧ old.check G picked = .ok () := by
  obtain ⟨picked, hpicked, hfits⟩ := hroutes.params.exists_of_forall₂
    (Value.fitAll_iff.1 (Signature.check_eq_ok_iff.1 hargs))
  exact ⟨picked, hpicked, Signature.check_eq_ok_iff.2 (Value.fitAll_iff.2 hfits)⟩

/-- Where an order lists each place at itself, the arguments are picked as they are. -/
theorem picked_eq_of_isIdentityOrder {order : List Nat} {ts : List Ty} {G : ClassGraph}
    (hidentity : isIdentityOrder order = true) (hlength : order.length = ts.length)
    (hargs : Value.fitAll G args ts = true) (hpicked : Picks args order picked) : picked = args :=
  hpicked.unique (picks_of_isIdentityOrder hidentity
    (hlength.trans (Value.length_eq_of_fitAll hargs).symm))

/-- A permutation finds what it picks, by the erased signature that it stands under. -/
theorem Fitted.exists_picked (hh : h.Fitted) {G : ClassGraph} {order : List Nat}
    (hnode : h.node = .permute inner order) (hpicked : h.type.check G picked = .ok ()) :
    ∃ vs, Picks picked order vs := by
  have hown := hh.own
  rw [hnode] at hown
  have hlength : picked.length = h.type.params.length :=
    Value.length_eq_of_fitAll (Signature.check_eq_ok_iff.1 hpicked)
  exact hown.1.exists_of_length (hlength.trans (List.length_map _).symm)

/-- **The call of a reordering is the call of its target on the arguments picked.** -/
theorem Permuted.callsAs (hmade : Permuted s h new reorder k) (hP : P.Blind) {m : Machine}
    (hm : m.Keyed) (hh : h.Fitted) (hroutes : new.Routes h.type reorder)
    (hargs : new.check P.graph args = .ok ()) (hpicked : Picks args reorder picked) :
    CallsAs P m 1 k args h picked := by
  have hold : h.type.check P.graph picked = .ok () := by
    obtain ⟨_, hothers, hchecked⟩ := exists_picked hroutes hargs
    rwa [hpicked.unique hothers]
  have hnew : k.type.check P.graph args = .ok () := by rwa [hmade.type_eq]
  have hfits := Signature.check_eq_ok_iff.1 hargs
  cases hmade with
  | same htype hidentity =>
    subst htype
    obtain rfl := picked_eq_of_isIdentityOrder hidentity hroutes.params.length_eq hfits hpicked
    exact .of_invokeBasic (u := 0) (v := 0) hm hnew hold (Nat.zero_le 1) fun depth =>
      same_invokeBasic_self hP depth _ _
  | fresh _ =>
    exact .of_invokeBasic (u := 1) (v := 0) hm hnew hold (Nat.le_refl 1) fun depth =>
      same_invokeBasic_of_permute hP rfl hpicked depth
  | collapsed hnode =>
    obtain ⟨vs, hvs⟩ := hh.exists_picked hnode hold
    refine .of_invokeBasic (u := 0) (v := 0) hm hnew hold (Nat.zero_le 1) fun depth => ?_
    cases depth with
    | zero => exact .throw _
    | succ depth =>
      exact (same_invokeBasic_of_permute hP rfl (hpicked.combined hvs) depth).trans
        (same_invokeBasic_of_permute hP hnode hvs depth).symm
  | cancelled hnode hlength hidentity _ =>
    obtain ⟨vs, hvs⟩ := hh.exists_picked hnode hold
    obtain rfl := picked_eq_of_isIdentityOrder hidentity hlength hfits (hpicked.combined hvs)
    exact .of_invokeBasic (u := 0) (v := 1) hm hnew hold (Nat.le_refl 1) fun depth =>
      (same_invokeBasic_of_permute hP hnode hvs depth).symm
  | @retyped inner order hnode hlength hidentity hshape =>
    obtain ⟨vs, hvs⟩ := hh.exists_picked hnode hold
    obtain rfl := picked_eq_of_isIdentityOrder hidentity hlength hfits (hpicked.combined hvs)
    have haccepts := (hh.opened (.permute hnode)).own
    rw [← hshape] at haccepts
    have hwork : ∀ call, (⟨s, new, inner.node⟩ : Handle).perform P call vs = inner.perform P call vs :=
      perform_of_accepts rfl haccepts hfits
    exact .of_invokeBasic (u := 0) (v := 1) hm hnew hold (Nat.le_refl 1) fun depth =>
      (same_invokeBasic_of_perform hP hwork depth).trans
        (same_invokeBasic_of_permute hP hnode hvs depth).symm

/-- Two reorderings one after the other make the same calls as the one that combines them. -/
theorem Permuted.combined_callsAs {s' s'' : Stamp} {k' c : Handle} {new' : Signature}
    {reorder' : List Nat} (hmade : Permuted s h new reorder k) (hmade' : Permuted s' k new' reorder' k')
    (hcombined : Permuted s'' h new' (Handle.combined reorder' reorder) c) (hP : P.Blind) {m : Machine}
    (hm : m.Keyed) (hh : h.Fitted) (hroutes : new.Routes h.type reorder)
    (hroutes' : new'.Routes new reorder') (hargs : new'.check P.graph args = .ok ()) :
    CallsAs P m 3 k' args c args := by
  obtain ⟨mid, hmid, hmidchecked⟩ := exists_picked hroutes' hargs
  obtain ⟨picked, hpicked, -⟩ := exists_picked hroutes hmidchecked
  have houter := hmade'.callsAs hP hm (hmade.fitted hroutes hh) (hmade.type_eq ▸ hroutes') hargs hmid
  have hinner := hmade.callsAs hP hm hh hroutes hmidchecked hpicked
  have hone := hcombined.callsAs hP hm hh (hroutes'.combined hroutes) hargs (hmid.combined hpicked)
  exact (houter.trans hinner).trans hone.symm

end Calls

end Handle

/-- **A reordering does not show.** In any state that a program can reach, whatever of its handles is
reordered: the reordering succeeds exactly if the signature asked for has the parameters and the result
that it needs, so no collapse fails. What is made has that signature, and its calls end as calls of the
target on the arguments that the order picks. So two reorderings, one after the other, can be done in one
step, and the calls of what is made end alike. -/
theorem Handling.permuteArguments_unseen {P : Program} (hP : P.Blind) {m : Machine} {hs : List Handle}
    (hH : Handling P.graph m hs) {h : Handle} (hh : h ∈ hs) (s : Stamp) (new : Signature)
    (reorder : List Nat) :
    ((∃ k, h.permuteArguments s new reorder = .ok k) ↔ new.Routes h.type reorder) ∧
      ∀ k, h.permuteArguments s new reorder = .ok k →
        k.type = new ∧
        (∀ args, new.check P.graph args = .ok () → ∃ picked, Picks args reorder picked ∧
          h.type.check P.graph picked = .ok () ∧ k.CallsAs P m 1 args h picked) ∧
        ∀ s' new' reorder' k', k.permuteArguments s' new' reorder' = .ok k' →
          ∀ s'', ∃ c, h.permuteArguments s'' new' (Handle.combined reorder' reorder) = .ok c ∧
            ∀ args, new'.check P.graph args = .ok () → k'.CallsAs P m 3 args c args := by
  have hfitted := hH.fitted.1 h hh
  refine ⟨Handle.permuteArguments_succeeds_iff hfitted, fun k hk => ?_⟩
  obtain ⟨hroutes, hmade⟩ := Handle.permuteArguments_eq_ok hk
  refine ⟨hmade.type_eq, fun args hargs => ?_, fun s' new' reorder' k' hk' s'' => ?_⟩
  · obtain ⟨picked, hpicked, hchecked⟩ := Handle.exists_picked hroutes hargs
    exact ⟨picked, hpicked, hchecked, hmade.callsAs hP hH.keyed hfitted hroutes hargs hpicked⟩
  · obtain ⟨hroutes', hmade'⟩ := Handle.permuteArguments_eq_ok hk'
    rw [hmade.type_eq] at hroutes'
    obtain ⟨c, hc⟩ := (Handle.permuteArguments_succeeds_iff hfitted).2 (hroutes'.combined hroutes)
    exact ⟨c, hc, fun args hargs => hmade.combined_callsAs hmade' (Handle.permuteArguments_eq_ok hc).2
      hP hH.keyed hfitted hroutes hroutes' hargs⟩

/-! ## A permutation seen under another signature -/

/-- The identity on numbers. -/
def Handle.itself : Handle :=
  ⟨0, ⟨[.cls .number], .cls .number, by decide, by decide⟩, .identity⟩

/-- A handle that answers the second of two numbers. -/
def Handle.second : Handle :=
  ⟨2, ⟨[.cls .number, .cls .number], .cls .number, by decide, by decide⟩, .permute .itself [1]⟩

/-- A program can make the two and do nothing else before. -/
theorem Handling.exists_second : ∃ m : Machine, m.store = .initial ∧ m.calls = #[] ∧
    Handling .bootstrap m [.second, .itself] := by
  have hitself := @Handling.made .bootstrap _ _ _ (.identity (.cls .number)) .itself (.start true)
    nofun rfl
  have hsecond := @Handling.made .bootstrap _ _ _ (.permuteArguments .itself Handle.second.type [1])
    .second hitself (fun k hk => hk) rfl
  exact ⟨_, rfl, rfl, hsecond⟩

/-- The one that answers the second of two boxed integers. -/
def Handle.secondInteger : Handle :=
  ⟨4, ⟨[.cls (.wrapper .int), .cls (.wrapper .int)], .cls .number, by decide, by decide⟩,
    .permute .itself [1]⟩

/-- With one boxed integer in both places, the second of two is the identity, seen under the signature for
boxed integers. -/
theorem Handling.permuteArguments_unseen_of_retyped :
    let integer : Ty := .cls (.wrapper .int)
    let new : Signature := ⟨[integer], .cls .number, by decide, by decide⟩
    let seven : Value := .boxed (.prim (.int 7))
    ∃ (m : Machine) (k : Handle), Handling .bootstrap m [.secondInteger, .second, .itself] ∧
      Handle.secondInteger.permuteArguments 6 new [0, 0] = .ok k ∧ k.node = .identity ∧
        k.CallsAs (.zeros .bootstrap) m 1 [seven] .secondInteger [seven, seven] := by
  intro integer new seven
  have hitself := @Handling.made .bootstrap _ _ _ (.identity (.cls .number)) .itself (.start true)
    nofun rfl
  have hsecond := @Handling.made .bootstrap _ _ _
    (.permuteArguments .itself
      ⟨[.cls .number, .cls .number], .cls .number, by decide, by decide⟩ [1]) .second hitself
    (fun k hk => hk) rfl
  have hinteger := @Handling.made .bootstrap _ _ _
    (.asType .second ⟨[integer, integer], .cls .number, by decide, by decide⟩) .secondInteger hsecond
    (fun k hk => List.mem_cons.2 (.inl (List.mem_singleton.1 hk))) rfl
  have hcalls := (Handling.permuteArguments_unseen (P := .zeros .bootstrap) (fun _ _ => .pure _)
    hinteger List.mem_cons_self 6 new [0, 0]).2 _ rfl
  obtain ⟨picked, hpicked, -, hends⟩ := hcalls.2.1 [seven] rfl
  obtain rfl := hpicked.unique (pick?_eq_some_iff.1 rfl)
  exact ⟨_, _, hinteger, rfl, rfl, hends⟩

end HandleCalculus
