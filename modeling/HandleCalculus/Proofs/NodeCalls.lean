import HandleCalculus.Proofs.CallTyping

/-!
# What each kind of node does when it is called

One lemma for each kind of node: on arguments of the node's parameters, the handles it holds are called
with arguments of theirs, and what comes of it is of the node's result type. The lemmas share a form.
The node is called through `call` and, the same way, through `call'`, which are known to do the same
with handles that take their arguments (`Caller.Sound`).
-/

set_option autoImplicit false

namespace HandleCalculus

/-! ## Parts of argument lists -/

section Arguments

variable {G : ClassGraph} {classes : List ClassId} {args : List Value} {ps ts : List Ty}

theorem Value.fitAll_getElem? (hargs : fitAll G args ts = true) (hlive : AllLive classes args)
    {i : Nat} {t : Ty} (ht : ts[i]? = some t) :
    ∃ v, args[i]? = some v ∧ v.fits G t = true ∧ v.Lives classes := by
  obtain ⟨hi, rfl⟩ := List.getElem?_eq_some_iff.1 ht
  have hi' : i < args.length := by
    rw [length_eq_of_fitAll hargs]
    exact hi
  refine ⟨args[i], List.getElem?_eq_getElem hi', ?_, ?_⟩
  · exact (List.forall₂_iff_get.1 (fitAll_iff.1 hargs)).2 i hi' hi
  · exact allLive_iff.1 hlive _ (List.getElem_mem hi')

theorem Value.allLive_take (h : AllLive classes args) (n : Nat) : AllLive classes (args.take n) :=
  h.of_sublist (List.take_sublist n args)

theorem Value.allLive_drop (h : AllLive classes args) (n : Nat) : AllLive classes (args.drop n) :=
  h.of_sublist (List.drop_sublist n args)

/-- Arguments for the types before a place and after it, taken apart. -/
theorem Value.fitAll_split {pos : Nat} {ts us : List Ty} (hpos : pos ≤ ts.length)
    (h : fitAll G args (ts.take pos ++ us) = true) :
    fitAll G (args.take pos) (ts.take pos) = true ∧ fitAll G (args.drop pos) us = true := by
  have hlength : (ts.take pos).length = pos := List.length_take_of_le hpos
  have hfirst := fitAll_take h pos
  have hrest := fitAll_drop h pos
  rw [List.take_left' hlength] at hfirst
  rw [List.drop_left' hlength] at hrest
  exact ⟨hfirst, hrest⟩

/-- A list is what comes before a place, some from there on, and what is left. -/
theorem take_append_between {α : Type} (as : List α) (pos count : Nat) :
    as.take pos ++ (as.drop pos).take count ++ as.drop (pos + count) = as :=
  calc as.take pos ++ (as.drop pos).take count ++ as.drop (pos + count)
      = as.take pos ++ ((as.drop pos).take count ++ (as.drop pos).drop count) := by
        rw [List.drop_drop, List.append_assoc]
    _ = as.take pos ++ as.drop pos := by rw [List.take_append_drop count]
    _ = as := List.take_append_drop pos as

/-- Arguments for the types before a place, for some from there on, and for those after them. -/
theorem Value.fitAll_splice {pos count : Nat} {before between after : List Value}
    (hbefore : fitAll G before (ts.take pos) = true)
    (hbetween : fitAll G between ((ts.drop pos).take count) = true)
    (hafter : fitAll G after (ts.drop (pos + count)) = true) :
    fitAll G (before ++ between ++ after) ts = true := by
  rw [← take_append_between ts pos count]
  exact fitAll_append (fitAll_append hbefore hbetween) hafter

/-- The same for a single argument. -/
theorem Value.fitAll_splice_one {pos : Nat} {before after : List Value} {v : Value} {t : Ty}
    {rest : List Ty} (hdrop : ts.drop pos = t :: rest)
    (hbefore : fitAll G before (ts.take pos) = true) (hv : v.fits G t = true)
    (hafter : fitAll G after rest = true) : fitAll G (before ++ v :: after) ts = true := by
  have hone : fitAll G [v] ((ts.drop pos).take 1) = true := by
    rw [hdrop, List.take_succ_cons, fitAll, hv]
    rfl
  have hrest : fitAll G after (ts.drop (pos + 1)) = true := by
    rw [← List.drop_drop, hdrop]
    exact hafter
  have hall := fitAll_splice hbefore hone hrest
  rwa [List.append_assoc, List.singleton_append] at hall

/-- Arguments taken from places of the right types exist and fit. -/
theorem pick?_eq_some {order : List Nat} (hargs : Value.fitAll G args ps = true)
    (hlive : Value.AllLive classes args)
    (horder : List.Forall₂ (fun i t => ∃ s, ps[i]? = some s ∧ G.isAssignable s t = true) order ts) :
    ∃ picked, pick? args order = some picked ∧ Value.fitAll G picked ts = true ∧
      Value.AllLive classes picked := by
  induction horder with
  | nil => exact ⟨[], rfl, rfl, trivial⟩
  | @cons i t order ts hfirst _ ih =>
    obtain ⟨s, hs, hst⟩ := hfirst
    obtain ⟨v, hv, hfit, hvlive⟩ := Value.fitAll_getElem? hargs hlive hs
    obtain ⟨vs, hvs, hfits, hvslive⟩ := ih
    refine ⟨v :: vs, ?_, ?_, hvlive, hvslive⟩
    · simp [pick?, hv, hvs]
    · rw [Value.fitAll, Bool.and_eq_true]
      exact ⟨Value.fits_of_isAssignable hfit hst, hfits⟩

/-- The elements that are spread are as many as asked, and live. -/
theorem spreadElements_eq_ok {count : Nat} {v : Value} {elements : List Value}
    (hv : v.Lives classes) (h : spreadElements count v = .ok elements) :
    elements.length = count ∧ Value.AllLive classes elements := by
  unfold spreadElements at h
  split at h
  · split at h
    · next hcount =>
      obtain rfl := Except.ok.inj h
      exact ⟨hcount.symm, trivial⟩
    · cases h
  · next o =>
    split at h
    · cases h
    · next es hes =>
      split at h
      · next hcount =>
        obtain rfl := Except.ok.inj h
        refine ⟨hcount, ?_⟩
        cases o with
        | array id c elems =>
          obtain rfl : elems = es := Option.some.inj hes
          exact hv
        | str s => cases hes
        | boxed s => cases hes
        | throwable id c m => cases hes
        | inst id c => cases hes
      · cases h
  · cases h

theorem safe_of_spreadElements {count : Nat} {v : Value} {e : Error}
    (h : spreadElements count v = .error e) : e.Safe classes := by
  unfold spreadElements at h
  repeat' split at h
  all_goals
    first
      | cases h
        done
      | obtain rfl := Except.error.inj h
        exact Error.safe_of_isPlain rfl

/-- Elements converted to types are of these types. -/
theorem coerceElements_eq_ok {vs ws : List Value} (hlength : vs.length = ts.length)
    (hlive : Value.AllLive classes vs) (h : coerceElements G vs ts = .ok ws) :
    Value.fitAll G ws ts = true ∧ Value.AllLive classes ws := by
  -- along both lists, which are equally long
  induction vs generalizing ts ws with
  | nil =>
    cases ts with
    | nil =>
      obtain rfl := Except.ok.inj h
      exact ⟨rfl, trivial⟩
    | cons t ts => cases hlength
  | cons v vs ih =>
    cases ts with
    | nil => cases hlength
    | cons t ts =>
      unfold coerceElements at h
      split at h
      · cases h
      · next w hw =>
        split at h
        · cases h
        · next ws' hws =>
          obtain rfl := Except.ok.inj h
          obtain ⟨hfits, hlive'⟩ := ih (by simpa using hlength) hlive.2 hws
          refine ⟨?_, Value.lives_of_coerce hlive.1 hw, hlive'⟩
          rw [Value.fitAll, Bool.and_eq_true]
          exact ⟨Value.fits_of_coerce hw, hfits⟩

theorem safe_of_coerceElements {vs : List Value} {e : Error}
    (h : coerceElements G vs ts = .error e) : e.Safe classes := by
  induction vs generalizing ts with
  | nil => cases h
  | cons v vs ih =>
    cases ts with
    | nil => cases h
    | cons t ts =>
      unfold coerceElements at h
      split at h
      · cases h
        exact Error.safe_of_isPlain rfl
      · split at h
        · next e' he' =>
          obtain rfl := Except.error.inj h
          exact ih he'
        · cases h

theorem safe_argumentFailure (asReceiver : Bool) (e : ConversionError) :
    (argumentFailure asReceiver e).Safe classes := by
  unfold argumentFailure
  split
  · exact Error.safe_of_isPlain rfl
  · exact Error.safe_of_isPlain rfl

theorem safe_of_convertArguments {asReceiver : Bool} {cs : List Conversion} {e : Error}
    (h : convertArguments G asReceiver args cs = .error e) : e.Safe classes := by
  induction args generalizing asReceiver cs with
  | nil => cases h
  | cons v vs ih =>
    cases cs with
    | nil => cases h
    | cons c cs =>
      unfold convertArguments at h
      split at h
      · obtain rfl := Except.error.inj h
        exact safe_argumentFailure asReceiver _
      · split at h
        · next e' he' =>
          obtain rfl := Except.error.inj h
          exact ih he'
        · cases h

/-- Arguments converted as planned are of the types that the plan leads to. -/
theorem fitAll_of_convertArguments {asReceiver : Bool} {cs : List Conversion} {ws : List Value}
    (hlength : ps.length = ts.length) (hplans : Handle.plans? G ps ts = some cs)
    (hts : Ty.void ∉ ts) (hargs : Value.fitAll G args ps = true)
    (h : convertArguments G asReceiver args cs = .ok ws) : Value.fitAll G ws ts = true := by
  -- along the arguments, with the types before and after and the plan between them
  induction args generalizing asReceiver ps ts cs ws with
  | nil =>
    cases ps with
    | cons p ps => cases hargs
    | nil =>
      cases ts with
      | cons t ts => cases hlength
      | nil =>
        obtain rfl := Except.ok.inj h
        rfl
  | cons v vs ih =>
    cases ps with
    | nil => cases hargs
    | cons p ps =>
      cases ts with
      | nil => cases hlength
      | cons t ts =>
        simp only [Handle.plans?, Option.bind_eq_bind, Option.bind_eq_some_iff] at hplans
        obtain ⟨c, hc, cs', hcs, hplans⟩ := hplans
        obtain rfl := Option.some.inj hplans
        rw [List.mem_cons, not_or] at hts
        rw [Value.fitAll, Bool.and_eq_true] at hargs
        unfold convertArguments at h
        split at h
        · cases h
        · next w hw =>
          split at h
          · cases h
          · next ws' hws =>
            obtain rfl := Except.ok.inj h
            have hfits := ih (by simpa using hlength) hcs hts.2 hargs.2 hws
            -- a parameter is never `void`, so a result of its type fits it
            have hresult := Conversion.isResultOf_of_apply hc (Value.isResultOf_of_fits hargs.1) hw
            rw [Value.isResultOf_of_ne (Ne.symm hts.1)] at hresult
            rw [Value.fitAll, Bool.and_eq_true]
            exact ⟨hresult, hfits⟩

theorem allLive_of_convertArguments {asReceiver : Bool} {cs : List Conversion} {ws : List Value}
    (hlive : Value.AllLive classes args) (h : convertArguments G asReceiver args cs = .ok ws) :
    Value.AllLive classes ws := by
  induction args generalizing asReceiver cs ws with
  | nil =>
    obtain rfl := Except.ok.inj h
    exact trivial
  | cons v vs ih =>
    cases cs with
    | nil =>
      obtain rfl := Except.ok.inj h
      exact trivial
    | cons c cs =>
      unfold convertArguments at h
      split at h
      · cases h
      · next w hw =>
        split at h
        · cases h
        · next ws' hws =>
          obtain rfl := Except.ok.inj h
          exact ⟨Conversion.lives_of_apply hlive.1 hw, ih hlive.2 hws⟩

/-- Where arguments are collected into an array there are enough of them, and with the array in their
place they are what the target takes. -/
theorem Value.fitAll_collected {pos count : Nat} {c t : Ty} (hpos : ts[pos]? = some t)
    (hassign : G.isAssignable (.array c) t = true)
    (hargs : fitAll G args (ts.take pos ++ List.replicate count c ++ ts.drop (pos + 1)) = true) :
    pos + count ≤ args.length ∧ ∀ o : Object, o.runtimeType = .array c →
      fitAll G (args.take pos ++ .obj o :: args.drop (pos + count)) ts = true := by
  have hlt : pos < ts.length := (List.getElem?_eq_some_iff.1 hpos).1
  have hlength := length_eq_of_fitAll hargs
  rw [List.append_assoc] at hargs
  obtain ⟨hbefore, hrest⟩ := fitAll_split (Nat.le_of_lt hlt) hargs
  have hafter := fitAll_drop hrest count
  rw [List.drop_left' (List.length_replicate), List.drop_drop] at hafter
  have hdrop : ts.drop pos = t :: ts.drop (pos + 1) := by
    obtain ⟨-, rfl⟩ := List.getElem?_eq_some_iff.1 hpos
    exact List.drop_eq_getElem_cons hlt
  refine ⟨?_, fun o ho => ?_⟩
  · rw [hlength, List.length_append, List.length_append, List.length_take, List.length_replicate]
    omega
  · -- the array is made of the type asked for, which the parameter takes
    exact fitAll_splice_one hdrop hbefore
      (fits_of_isAssignable (fits_of_runtimeType ho rfl) hassign) hafter

/-- What a handler takes of an error is a live throwable of its class. -/
theorem sound_caught? {W : Extent} (c : ClassId) {e : Error} (he : e.Safe W.classes) :
    Run.Sound G W (caught? G c e) (caught? G c e) (fun W' r => ∀ o, r = some o →
      o.Lives W'.classes ∧ (Value.obj o).fits G (.cls c) = true) := by
  unfold caught?
  split
  · next o =>
    refine .pure fun o' ho' => ?_
    split at ho'
    · next hinstance =>
      obtain rfl := Option.some.inj ho'
      exact ⟨he.lives o rfl, hinstance⟩
    · cases ho'
  · split
    · next k _ =>
      split
      · next hsub =>
        refine .bind (Q := fun W' o => o.Lives W'.classes ∧ o.runtimeType = .cls k)
          (.alloc (fun s hs => ?_) fun s W' _ _ _ => ⟨trivial, rfl⟩)
          fun W' o _ ⟨ho, htype⟩ => .pure fun o' ho' => ?_
        · exact .of_sites (hs.holds.of_slots rfl rfl rfl) List.prefix_rfl rfl
        · obtain rfl := Option.some.inj ho'
          exact ⟨ho, Value.fits_of_isAssignable (Value.fits_of_runtimeType htype rfl) hsub⟩
      · exact .pure fun o ho => by cases ho
    · exact .pure fun o ho => by cases ho

end Arguments

namespace Handle

variable {P : Program} {W : Extent} {call call' : Caller} {stamp : Stamp} {type : Signature}
  {target : Handle} {p : Descriptor} {args : List Value}

section Rearranging

variable (hcall : Caller.Serves P.graph W call call')
  (hlive : Value.AllLive W.classes args)
include hcall hlive

theorem sound_insert {pos : Nat} {values : List Value}
    (hp : Node.Typed P.graph W (.insert target pos values) p)
    (hargs : Value.fitAll P.graph args p.params = true) :
    Run.Sound P.graph W ((⟨stamp, type, .insert target pos values⟩ : Handle).perform P call args)
      ((⟨stamp, type, .insert target pos values⟩ : Handle).perform P call' args)
      (Value.Answers P.graph p.ret) := by
  cases hp with
  | insert ht hpos hfit hvalues =>
    obtain ⟨hbefore, hafter⟩ := Value.fitAll_split (by omega) hargs
    have hlength : pos ≤ args.length := by
      rw [Value.length_eq_of_fitAll hargs, List.length_append, List.length_take]
      omega
    have hall : Value.fitAll P.graph (args.take pos ++ values ++ args.drop pos)
        target.type.params = true := Value.fitAll_splice hbefore hfit hafter
    have hallLive : Value.AllLive W.classes (args.take pos ++ values ++ args.drop pos) := by
      rw [Value.allLive_append, Value.allLive_append]
      exact ⟨⟨Value.allLive_take hlive pos, hvalues⟩, Value.allLive_drop hlive pos⟩
    unfold perform
    simp only [if_pos hlength]
    exact hcall.run ht hall hallLive

theorem sound_permute {reorder : List Nat}
    (hp : Node.Typed P.graph W (.permute target reorder) p)
    (hargs : Value.fitAll P.graph args p.params = true) :
    Run.Sound P.graph W ((⟨stamp, type, .permute target reorder⟩ : Handle).perform P call args)
      ((⟨stamp, type, .permute target reorder⟩ : Handle).perform P call' args)
      (Value.Answers P.graph p.ret) := by
  cases hp with
  | permute ht horder =>
    obtain ⟨picked, hpicked, hfits, hpickedLive⟩ := pick?_eq_some hargs hlive horder
    unfold perform
    simp only [hpicked]
    exact hcall.run ht hfits hpickedLive

theorem sound_collect {pos count : Nat} {array : Ty}
    (hp : Node.Typed P.graph W (.collect target pos count array) p)
    (hargs : Value.fitAll P.graph args p.params = true) :
    Run.Sound P.graph W ((⟨stamp, type, .collect target pos count array⟩ : Handle).perform P call args)
      ((⟨stamp, type, .collect target pos count array⟩ : Handle).perform P call' args)
      (Value.Answers P.graph p.ret) := by
  cases hp with
  | @collect _ _ _ c t ht hpos hassign =>
    obtain ⟨hlength, hcollected⟩ := Value.fitAll_collected hpos hassign hargs
    show Run.Sound _ _ (if pos + count ≤ args.length then _ else _)
      (if pos + count ≤ args.length then _ else _) _
    rw [if_pos hlength, if_pos hlength]
    refine .bind (Q := fun W' o => o.Lives W'.classes ∧ o.runtimeType = .array c)
      (.alloc (fun s hs => ?_) fun s W' _ hW _ => ⟨?_, rfl⟩) fun W' o hW ⟨ho, htype⟩ => ?_
    · exact .of_sites (hs.holds.of_slots rfl rfl rfl) List.prefix_rfl rfl
    · exact (Value.allLive_take (Value.allLive_drop hlive pos) count).mono hW.classes
    · have hlive' := hlive.mono hW.classes
      have hallLive : Value.AllLive W'.classes (args.take pos ++ .obj o :: args.drop (pos + count)) :=
        Value.allLive_append.2
          ⟨Value.allLive_take hlive' pos, ho, Value.allLive_drop hlive' (pos + count)⟩
      exact (hcall.grow hW).run (ht.mono hW) (hcollected o htype) hallLive

theorem sound_spread {pos count : Nat} {array : Ty}
    (hp : Node.Typed P.graph W (.spread target pos count array) p)
    (hargs : Value.fitAll P.graph args p.params = true) :
    Run.Sound P.graph W ((⟨stamp, type, .spread target pos count array⟩ : Handle).perform P call args)
      ((⟨stamp, type, .spread target pos count array⟩ : Handle).perform P call' args)
      (Value.Answers P.graph p.ret) := by
  cases hp with
  | spread ht hpos =>
    have hle : pos ≤ target.type.params.length := by omega
    obtain ⟨hbefore, hrest⟩ := Value.fitAll_split hle hargs
    obtain ⟨v, hv, hvfit, hvlive⟩ := Value.fitAll_getElem? (i := pos) hargs hlive (t := array) (by
      rw [List.getElem?_append_right (Nat.le_of_eq (List.length_take_of_le hle)),
        List.length_take_of_le hle, Nat.sub_self]
      rfl)
    have hafter := Value.fitAll_drop hrest 1
    rw [List.drop_drop, List.drop_succ_cons, List.drop_zero] at hafter
    have hroom : pos + count ≤ target.type.arity := hpos
    unfold perform
    simp only [hv, if_pos hroom]
    refine .bind (.ofExcept (Q := fun _ es => es.length = count ∧ Value.AllLive W.classes es)
      (fun es hes => spreadElements_eq_ok hvlive hes) fun e he => safe_of_spreadElements he)
      fun W' es hW ⟨hcount, hes⟩ => ?_
    -- there are as many elements as parameters for them, or it has failed by now
    have hlength : es.length = ((target.type.params.drop pos).take count).length := by
      rw [hcount, List.length_take, List.length_drop]
      omega
    refine .bind (.ofExcept (Q := fun _ ws => Value.fitAll P.graph ws
        ((target.type.params.drop pos).take count) = true ∧ Value.AllLive W'.classes ws)
      (fun ws hws => coerceElements_eq_ok hlength (hes.mono hW.classes) hws)
      fun e he => safe_of_coerceElements he) fun W'' ws hW' ⟨hfits, hws⟩ => ?_
    have hlive' := hlive.mono (hW.trans hW').classes
    have hall : Value.fitAll P.graph (args.take pos ++ ws ++ args.drop (pos + 1))
        target.type.params = true := Value.fitAll_splice hbefore hfits hafter
    have hallLive : Value.AllLive W''.classes (args.take pos ++ ws ++ args.drop (pos + 1)) := by
      rw [Value.allLive_append, Value.allLive_append]
      exact ⟨⟨Value.allLive_take hlive' pos, hws.mono hW'.classes⟩, Value.allLive_drop hlive' _⟩
    exact (hcall.grow (hW.trans hW')).run (ht.mono (hW.trans hW')) hall hallLive

end Rearranging

/-! ## Filters and combiners -/

/-- Arguments that have gone through filters are of the types that the filters lead to. The first
`pre` arguments are left alone. -/
theorem sound_passFilters {G : ClassGraph} (hcall : Caller.Serves G W call call')
    {filters : List (Option Handle)} (hfilters : ∀ f, some f ∈ filters → f.Typed G W)
    {pre ps ts : List Ty} (hts : Ty.void ∉ ts) (htypes : Filters.types filters ps ts)
    (hargs : Value.fitAll G args (pre ++ ps) = true) (hlive : Value.AllLive W.classes args) :
    Run.Sound G W (passFilters call pre.length filters args)
      (passFilters call' pre.length filters args)
      (fun W' ws => Value.fitAll G ws (pre ++ ts) = true ∧ Value.AllLive W'.classes ws) := by
  -- along the filters; what has gone through moves from `ps` to the end of `pre`
  induction filters generalizing W pre ps ts args with
  | nil =>
    obtain rfl : ps = ts := htypes
    exact .pure ⟨hargs, hlive⟩
  | cons f fs ih =>
    have hfs : ∀ f, some f ∈ fs → f.Typed G W := fun f hf => hfilters f (List.mem_cons_of_mem _ hf)
    cases ps with
    | nil => cases f <;> exact htypes.elim
    | cons p ps =>
    cases ts with
    | nil => cases f <;> exact htypes.elim
    | cons t ts =>
    rw [List.mem_cons, not_or] at hts
    have hassoc : ∀ (q : Ty) (qs : List Ty), pre ++ q :: qs = (pre ++ [q]) ++ qs := by simp
    have hnext : ∀ q : Ty, pre.length + 1 = (pre ++ [q]).length := by simp
    cases f with
    | none =>
      obtain ⟨rfl, htypes⟩ := htypes
      rw [hassoc] at hargs ⊢
      have hrest := ih hcall hfs hts.2 htypes hargs hlive
      rw [← hnext] at hrest
      exact hrest
    | some f =>
      obtain ⟨hparams, hret, htypes⟩ := htypes
      have hplace : (pre ++ p :: ps)[pre.length]? = some p := by simp
      obtain ⟨v, hv, hvfit, hvlive⟩ := Value.fitAll_getElem? hargs hlive hplace
      have hft := hfilters f List.mem_cons_self
      have hone : Value.fitAll G [v] f.type.params = true := by
        rw [hparams, Value.fitAll, hvfit]
        rfl
      -- the filter takes one argument and answers the one that comes in its place
      have hstep := hcall.run hft hone ⟨hvlive, trivial⟩
      unfold passFilters
      simp only [hv]
      refine .bind hstep fun W' w hW hw => ?_
      have hwfit : w.fits G t = true := by
        rw [hret] at hw
        exact hw.fits (Ne.symm hts.1)
      have hset : Value.fitAll G (args.set pre.length w) ((pre ++ [t]) ++ ps) = true := by
        have hlength := Value.length_eq_of_fitAll hargs
        have hlt : pre.length < args.length := by simp [hlength]
        have hsplit : Value.fitAll G args ((pre ++ p :: ps).take pre.length ++ p :: ps) = true := by
          rw [List.take_left]
          exact hargs
        have hpre : pre.length ≤ (pre ++ p :: ps).length := by simp
        obtain ⟨hbefore, hafter⟩ := Value.fitAll_split hpre hsplit
        have hrest := Value.fitAll_drop hafter 1
        rw [List.drop_drop, List.drop_succ_cons, List.drop_zero] at hrest
        rw [List.take_left] at hbefore
        rw [List.set_eq_take_append_cons_drop, if_pos hlt, ← hassoc]
        refine Value.fitAll_append hbefore ?_
        rw [Value.fitAll, Bool.and_eq_true]
        exact ⟨hwfit, hrest⟩
      have hrest := ih (hcall.grow hW) (fun f hf => (hfs f hf).mono hW) hts.2 htypes hset
        ((hlive.mono hW.classes).set hw.lives _)
      rw [← hnext, ← hassoc] at hrest
      exact hrest

section Filters

variable (hcall : Caller.Serves P.graph W call call')
  (hlive : Value.AllLive W.classes args)
include hcall hlive

theorem sound_filterArgs {pos : Nat} {filters : List (Option Handle)}
    (hp : Node.Typed P.graph W (.filterArgs target pos filters) p)
    (hargs : Value.fitAll P.graph args p.params = true) :
    Run.Sound P.graph W ((⟨stamp, type, .filterArgs target pos filters⟩ : Handle).perform P call args)
      ((⟨stamp, type, .filterArgs target pos filters⟩ : Handle).perform P call' args)
      (Value.Answers P.graph p.ret) := by
  cases hp with
  | filterArgs ht hpos htyped htypes =>
    have hlength : (target.type.params.take pos).length = pos := List.length_take_of_le hpos
    have hvoid : Ty.void ∉ target.type.params.drop pos := fun hmem =>
      target.type.noVoid (List.mem_of_mem_drop hmem)
    have hfiltered := sound_passFilters hcall htyped hvoid htypes hargs hlive
    rw [hlength] at hfiltered
    refine .bind hfiltered fun W' ws hW ⟨hfits, hws⟩ => ?_
    rw [List.take_append_drop] at hfits
    exact (hcall.grow hW).run (ht.mono hW) hfits hws

theorem sound_filterReturn {filter : Handle}
    (hp : Node.Typed P.graph W (.filterReturn target filter) p)
    (hargs : Value.fitAll P.graph args p.params = true) :
    Run.Sound P.graph W ((⟨stamp, type, .filterReturn target filter⟩ : Handle).perform P call args)
      ((⟨stamp, type, .filterReturn target filter⟩ : Handle).perform P call' args)
      (Value.Answers P.graph p.ret) := by
  cases hp with
  | filterReturn ht hf htaken =>
    refine .bind (hcall.run ht hargs hlive) fun W' v hW hv => ?_
    by_cases hvoid : target.type.ret = .void
    · rw [if_pos hvoid] at htaken ⊢
      have hnone : Value.fitAll P.graph [] filter.type.params = true := by
        rw [htaken]
        rfl
      exact (hcall.grow hW).run (hf.mono hW) hnone trivial
    · rw [if_neg hvoid] at htaken ⊢
      have hone : Value.fitAll P.graph [v] filter.type.params = true := by
        rw [htaken, Value.fitAll, hv.fits hvoid]
        rfl
      exact (hcall.grow hW).run (hf.mono hW) hone ⟨hv.lives, trivial⟩

theorem sound_fold {pos : Nat} {combiner : Handle}
    (hp : Node.Typed P.graph W (.fold target pos combiner) p)
    (hargs : Value.fitAll P.graph args p.params = true) :
    Run.Sound P.graph W ((⟨stamp, type, .fold target pos combiner⟩ : Handle).perform P call args)
      ((⟨stamp, type, .fold target pos combiner⟩ : Handle).perform P call' args)
      (Value.Answers P.graph p.ret) := by
  have harity : combiner.type.arity = combiner.type.params.length := rfl
  unfold perform
  cases hp with
  | fold ht hc hvoid hparams hpos =>
    -- the combiner answers nothing: the target takes the arguments as they are
    have hroom : pos + combiner.type.arity ≤ args.length := by
      have hshort := hparams.length_le
      rw [List.length_drop] at hshort
      rw [Value.length_eq_of_fitAll hargs, harity]
      show _ ≤ target.type.params.length
      omega
    have hfirst := Value.fitAll_of_prefix (Value.fitAll_drop hargs pos) hparams
    simp only [if_pos hroom, if_pos hvoid]
    refine .bind (hcall.run hc hfirst (Value.allLive_take (Value.allLive_drop hlive pos) _))
      fun W' v hW hv => ?_
    exact (hcall.grow hW).run (ht.mono hW) hargs (hlive.mono hW.classes)
  | foldValue ht hc hvoid hdrop hparams =>
    -- the combiner's result goes in front of the arguments that the combiner has taken
    have hpos : pos < target.type.params.length := by
      have hcount := congrArg List.length hdrop
      rw [List.length_drop, List.length_cons] at hcount
      omega
    obtain ⟨hbefore, hafter⟩ := Value.fitAll_split (Nat.le_of_lt hpos) hargs
    have hroom : pos + combiner.type.arity ≤ args.length := by
      have hshort := hparams.length_le
      rw [Value.length_eq_of_fitAll hargs, harity, List.length_append, List.length_take]
      omega
    have hfirst := Value.fitAll_of_prefix hafter hparams
    simp only [if_pos hroom, if_neg hvoid]
    refine .bind (hcall.run hc hfirst (Value.allLive_take (Value.allLive_drop hlive pos) _))
      fun W' v hW hv => ?_
    have hlive' := hlive.mono hW.classes
    have hall : Value.fitAll P.graph (args.take pos ++ v :: args.drop pos) target.type.params =
        true := Value.fitAll_splice_one hdrop hbefore (hv.fits hvoid) hafter
    have hallLive : Value.AllLive W'.classes (args.take pos ++ v :: args.drop pos) :=
      Value.allLive_append.2
        ⟨Value.allLive_take hlive' pos, hv.lives, Value.allLive_drop hlive' pos⟩
    exact (hcall.grow hW).run (ht.mono hW) hall hallLive

end Filters

/-! ## Choices and conversions -/

section Choices

variable (hcall : Caller.Serves P.graph W call call')
  (hlive : Value.AllLive W.classes args)
include hcall hlive

theorem sound_guarded {test fallback : Handle}
    (hp : Node.Typed P.graph W (.guarded test target fallback) p)
    (hargs : Value.fitAll P.graph args p.params = true) :
    Run.Sound P.graph W ((⟨stamp, type, .guarded test target fallback⟩ : Handle).perform P call args)
      ((⟨stamp, type, .guarded test target fallback⟩ : Handle).perform P call' args)
      (Value.Answers P.graph p.ret) := by
  unfold perform
  cases hp with
  | guarded hc ht hf hsame hret hparams =>
    have hroom : test.type.arity ≤ args.length := by
      rw [Value.length_eq_of_fitAll hargs]
      exact hparams.length_le
    have hfirst := Value.fitAll_of_prefix hargs hparams
    simp only [if_pos hroom]
    refine .bind (hcall.run hc hfirst (Value.allLive_take hlive _)) fun W' v hW hv => ?_
    have hlive' := hlive.mono hW.classes
    -- the test answers a boolean, so one of the branches is taken
    have hboolean := hv.fits (by rw [hret]; exact fun h => by cases h)
    rw [hret, Ty.boolean, Value.fits_prim] at hboolean
    obtain ⟨b, rfl, hb⟩ := hboolean
    cases b with
    | boolean b =>
      cases b with
      | true => exact (hcall.grow hW).run (ht.mono hW) hargs hlive'
      | false =>
        have hargs' : Value.fitAll P.graph args fallback.type.params = true := by
          rw [← hsame]
          exact hargs
        have hrun := (hcall.grow hW).run (hf.mono hW) hargs' hlive'
        rw [← hsame] at hrun
        exact hrun
    | _ => cases hb

theorem sound_catching {c : ClassId} {handler : Handle}
    (hp : Node.Typed P.graph W (.catching target c handler) p)
    (hargs : Value.fitAll P.graph args p.params = true) :
    Run.Sound P.graph W ((⟨stamp, type, .catching target c handler⟩ : Handle).perform P call args)
      ((⟨stamp, type, .catching target c handler⟩ : Handle).perform P call' args)
      (Value.Answers P.graph p.ret) := by
  unfold perform
  cases hp with
  | @catching _ _ _ first leading ht hh hret hparams hfirst hleading =>
    have harity : handler.type.arity = leading.length + 1 := by
      rw [Signature.arity, hparams, List.length_cons]
    have hroom : 1 ≤ handler.type.arity ∧ handler.type.arity ≤ args.length + 1 := by
      have hshort := hleading.length_le
      rw [Value.length_eq_of_fitAll hargs, harity]
      show _ ∧ leading.length + 1 ≤ target.type.params.length + 1
      omega
    simp only [if_pos hroom]
    refine .bind (.attempt (hcall.run ht hargs hlive)) fun W' r hW hr => ?_
    cases r with
    | ok v => exact .pure hr
    | error e =>
      refine .bind (sound_caught? c hr) fun W'' o hW' ho => ?_
      cases o with
      | none => exact .fail (Error.Safe.mono hr hW'.classes)
      | some o =>
        obtain ⟨holive, hofit⟩ := ho o rfl
        have hgrows := hW.trans hW'
        -- the handler takes the throwable and the leading arguments
        have hall : Value.fitAll P.graph (.obj o :: args.take (handler.type.arity - 1))
            handler.type.params = true := by
          rw [hparams, harity, Nat.add_sub_cancel, Value.fitAll, Bool.and_eq_true]
          exact ⟨Value.fits_of_isAssignable hofit hfirst, Value.fitAll_of_prefix hargs hleading⟩
        have hallLive : Value.AllLive W''.classes (.obj o :: args.take (handler.type.arity - 1)) :=
          ⟨holive, Value.allLive_take (hlive.mono hgrows.classes) _⟩
        have hrun := (hcall.grow hgrows).run (hh.mono hgrows) hall hallLive
        rw [hret] at hrun
        exact hrun

theorem sound_convert {conversions : List Conversion} {ret : Conversion}
    (hp : Node.Typed P.graph W (.convert target conversions ret) p)
    (hargs : Value.fitAll P.graph args p.params = true) :
    Run.Sound P.graph W ((⟨stamp, type, .convert target conversions ret⟩ : Handle).perform P call args)
      ((⟨stamp, type, .convert target conversions ret⟩ : Handle).perform P call' args)
      (Value.Answers P.graph p.ret) := by
  cases hp with
  | convert ht hlength hplans hret =>
    refine .bind (.ofExcept (Q := fun _ ws => Value.fitAll P.graph ws target.type.params = true ∧
        Value.AllLive W.classes ws)
      (fun ws hws => ⟨fitAll_of_convertArguments hlength hplans target.type.noVoid hargs hws,
        allLive_of_convertArguments hlive hws⟩)
      fun e he => safe_of_convertArguments he) fun W' ws hW ⟨hfits, hws⟩ => ?_
    refine .bind ((hcall.grow hW).run (ht.mono hW) hfits (hws.mono hW.classes))
      fun W'' v hW' hv => ?_
    -- the result is converted last, and a failure there is the call's own
    cases hconverted : ret.apply P.graph v with
    | ok w =>
      exact .pure ⟨Conversion.isResultOf_of_apply hret hv.result hconverted,
        Conversion.lives_of_apply hv.lives hconverted⟩
    | error e => exact .fail (Error.safe_of_isPlain rfl)

theorem sound_invoker {site : SiteId} (hp : Node.Typed P.graph W (.invoker site) p)
    (hargs : Value.fitAll P.graph args p.params = true) :
    Run.Sound P.graph W ((⟨stamp, type, .invoker site⟩ : Handle).perform P call args)
      ((⟨stamp, type, .invoker site⟩ : Handle).perform P call' args)
      (Value.Answers P.graph p.ret) := by
  cases hp with
  | @invoker _ s hs =>
    refine .bind (.readStore (Q := fun W' t => t.type = s ∧ t.Typed P.graph W')
      (fun store t hstore ht => ?_) fun store e he => ?_) fun W' t hW ⟨htype, ht⟩ => ?_
    · obtain ⟨hsite, htyped⟩ := hstore.getTarget ht
      rw [hs] at hsite
      exact ⟨(Option.some.inj hsite).symm, htyped⟩
    · unfold Store.getTarget CallSite.getTarget at he
      repeat' split at he
      all_goals
        first
          | cases he
            done
          | obtain rfl := Except.error.inj he
            exact Error.safe_of_isPlain rfl
    · subst htype
      exact (hcall.grow hW).run ht hargs (hlive.mono hW.classes)

end Choices

/-! ## Leaves -/

theorem sound_answerFirst {h : Handle} {t : Ty} (hargs : Value.fitAll P.graph args [t] = true)
    (hlive : Value.AllLive W.classes args) :
    Run.Sound P.graph W (answerFirst h args) (answerFirst h args) (Value.Answers P.graph t) := by
  cases args with
  | nil => cases hargs
  | cons v vs =>
    rw [Value.fitAll, Bool.and_eq_true] at hargs
    exact .pure ⟨Value.isResultOf_of_fits hargs.1, hlive.1⟩

theorem sound_throwFirst {h : Handle} {c : ClassId} {Q : Extent → Value → Prop}
    (hargs : Value.fitAll P.graph args [.cls c] = true) (hlive : Value.AllLive W.classes args) :
    Run.Sound P.graph W (throwFirst h args) (throwFirst h args) Q := by
  cases args with
  | nil => cases hargs
  | cons v vs =>
    rw [Value.fitAll, Bool.and_eq_true] at hargs
    rcases (Value.fits_reference rfl).1 hargs.1 with rfl | ⟨o, rfl, -⟩
    · exact .fail (Error.safe_of_isPlain rfl)
    · refine .fail ⟨rfl, fun o' ho' => ?_⟩
      obtain rfl := Error.thrown.inj ho'
      exact hlive.1

theorem sound_setField (hI : P.graph.InterfacesBare) {f : FieldRef} {isStatic : Bool} {access : AccessId}
    (hp : Node.Typed P.graph W (.setField f isStatic access) p)
    (hargs : Value.fitAll P.graph args p.params = true) (hlive : Value.AllLive W.classes args) :
    Run.Sound P.graph W ((⟨stamp, type, .setField f isStatic access⟩ : Handle).perform P call args)
      ((⟨stamp, type, .setField f isStatic access⟩ : Handle).perform P call' args)
      (Value.Answers P.graph p.ret) := by
  have hsome : args ≠ [] := by
    rintro rfl
    cases hp <;> cases hargs
  obtain ⟨first, v, rfl⟩ := (List.eq_nil_or_concat args).resolve_left hsome
  rw [List.concat_eq_append] at hargs hlive ⊢
  unfold perform
  simp only [List.getLast?_concat, List.dropLast_concat]
  exact P.sound_setField hI hp hargs hlive

/-! ## Any node -/

/-- A variable-arity node passes on what its target takes. -/
theorem takes_of_varargs {array : Ty} {cell : Stamp}
    (hp : Node.Typed P.graph W (.varargs target array cell) p)
    (hargs : Value.fitAll P.graph args p.params = true) :
    target.Typed P.graph W ∧ target.takes P.graph args = true := by
  cases hp with
  | varargs ht => exact ⟨ht, ht.takes_of_fitAll hargs⟩
  | varargsOf ht hreceives hparams hr =>
    refine ⟨ht, ?_⟩
    cases args with
    | nil => cases hargs
    | cons v vs =>
      rw [Value.fitAll, Bool.and_eq_true] at hargs
      -- the target checks its receiver itself, so any reference will do
      rw [Handle.takes, hparams, Node.takes_cons hreceives, Bool.and_eq_true]
      exact ⟨Value.isReference_of_fits hr hargs.1, hargs.2⟩

/-- A variable-arity handle passes on what it takes, with a receiver that need not fit the target's
signature. -/
theorem sound_varargs {array : Ty} {cell : Stamp} (hcall : Caller.Sound P.graph W call call')
    (hlive : Value.AllLive W.classes args)
    (hp : Node.Typed P.graph W (.varargs target array cell) p)
    (hargs : Value.fitAll P.graph args p.params = true) :
    Run.Sound P.graph W ((⟨stamp, type, .varargs target array cell⟩ : Handle).perform P call args)
      ((⟨stamp, type, .varargs target array cell⟩ : Handle).perform P call' args)
      (Value.Answers P.graph p.ret) := by
  obtain ⟨ht, htakes⟩ := takes_of_varargs hp hargs
  have hret : p.ret = target.type.ret := by cases hp <;> rfl
  rw [hret]
  exact hcall W (.refl W) target args ht htakes hlive

section Nodes

variable {node : Node Handle} (hG : P.graph.MembersNumbered) (hI : P.graph.InterfacesBare)
  {hs : List Handle} (hP : P.Honest hs) (hhs : ∀ h ∈ hs, h.Typed P.graph W)
include hG hI hP hhs

/-- A node that takes the arguments does its work soundly, if what it holds is called soundly with
arguments that fit. This leaves out nodes of variable arity. -/
theorem sound_node (hcall : Caller.Serves P.graph W call call')
    (hfixed : (⟨stamp, type, node⟩ : Handle).isVarargs = false) (hp : Node.Typed P.graph W node p)
    (htakes : node.takes P.graph p.params args = true) (hlive : Value.AllLive W.classes args) :
    Run.Sound P.graph W ((⟨stamp, type, node⟩ : Handle).perform P call args)
      ((⟨stamp, type, node⟩ : Handle).perform P call' args) (Value.Answers P.graph p.ret) := by
  have hfit : node.receives = false → Value.fitAll P.graph args p.params = true := fun hn => by
    rwa [Node.takes_of_not_receives hn] at htakes
  -- the two kinds that call a method look at their receiver themselves; all others take what fits
  cases node with
  | direct m mode => exact P.sound_callDirect hP hhs hp htakes hlive
  | virtual m dispatch interface => exact P.sound_callVirtual hG hP hhs hp htakes hlive
  | getField f isStatic => exact P.sound_getField hI hp (hfit rfl) hlive
  | setField f isStatic => exact sound_setField hI hp (hfit rfl) hlive
  | insert target pos values => exact sound_insert hcall hlive hp (hfit rfl)
  | permute target reorder => exact sound_permute hcall hlive hp (hfit rfl)
  | collect target pos count array => exact sound_collect hcall hlive hp (hfit rfl)
  | spread target pos count array => exact sound_spread hcall hlive hp (hfit rfl)
  | filterArgs target pos filters => exact sound_filterArgs hcall hlive hp (hfit rfl)
  | filterReturn target filter => exact sound_filterReturn hcall hlive hp (hfit rfl)
  | fold target pos combiner => exact sound_fold hcall hlive hp (hfit rfl)
  | guarded test target fallback => exact sound_guarded hcall hlive hp (hfit rfl)
  | catching target c handler => exact sound_catching hcall hlive hp (hfit rfl)
  | convert target conversions ret => exact sound_convert hcall hlive hp (hfit rfl)
  | constant v =>
    cases hp with
    | constant hv hvlive => exact .pure ⟨Value.isResultOf_of_fits hv, hvlive⟩
  | identity =>
    cases hp with
    | identity t => exact sound_answerFirst (hfit rfl) hlive
  | varargs target array cell => cases hfixed
  | invoker site => exact sound_invoker hcall hlive hp (hfit rfl)
  | unlinked message => exact .fail (Error.safe_of_isPlain rfl)
  | throwing =>
    cases hp with
    | throwing c r => exact sound_throwFirst (hfit rfl) hlive

/-- A typed handle that takes the arguments does its work soundly, if it calls soundly what it
holds. -/
theorem sound_perform (hcall : Caller.Sound P.graph W call call') {h : Handle} (ht : h.Typed P.graph W)
    (htakes : h.takes P.graph args = true) (hlive : Value.AllLive W.classes args) :
    Run.Sound P.graph W (h.perform P call args) (h.perform P call' args)
      (Value.Answers P.graph h.type.ret) := by
  obtain ⟨stamp, type, node⟩ := h
  obtain ⟨p, hp, hsub⟩ : ∃ p, Node.Typed P.graph W node p ∧ p.Sub P.graph type.descriptor := by
    cases ht with
    | mk hp hsub => exact ⟨_, hp, hsub⟩
  have htakes : node.takes P.graph p.params args = true := Node.takes_of_sub hp hsub htakes
  suffices hsound : Run.Sound P.graph W ((⟨stamp, type, node⟩ : Handle).perform P call args)
      ((⟨stamp, type, node⟩ : Handle).perform P call' args) (Value.Answers P.graph p.ret) from
    hsound.mono fun W' v hv => hv.of_isAssignable hsub.ret
  cases hvarargs : (⟨stamp, type, node⟩ : Handle).isVarargs with
  | false => exact sound_node hG hI hP hhs hcall.serves hvarargs hp htakes hlive
  | true =>
    cases node with
    | varargs target array cell => exact sound_varargs hcall hlive hp htakes
    | _ => cases hvarargs

end Nodes

end Handle

end HandleCalculus
