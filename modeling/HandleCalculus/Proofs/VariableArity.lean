import HandleCalculus.Proofs.AdaptedDispatch
import HandleCalculus.Proofs.InterleavedViews
import HandleCalculus.Proofs.SpreadArrays

/-!
# Handles of variable arity

A variable-arity handle seen under a signature is its target under that signature, if the signature
passes an array on; else it is a collector on its target under that signature, for as many arguments as
there are too many. Whatever has been asked of it before or is asked at the same time makes no difference,
since what it remembers only saves it from making a collector anew (`Viewing.Sound.answered`).

What is called in the end is the target, once. In between there is the node of the collector, which puts
the last arguments into a fresh array, and before that the conversions if any are needed
(`Handle.Gathers`).
-/

set_option autoImplicit false

namespace HandleCalculus

/-! ## Courses of variable arity -/

/-- Whether a signature passes an array on to the handle: it has the arity, and its last type is
assignable to the handle's. -/
def Signature.PassesArray (G : ClassGraph) (new old : Signature) : Prop :=
  new.arity = old.arity ∧
    ∃ last oldLast, new.last? = some last ∧ old.last? = some oldLast ∧ G.isAssignable last oldLast = true

theorem Signature.passesArray_iff {G : ClassGraph} {new : Signature} {t : Handle} :
    new.passesArray G t.type t = true ↔ new.PassesArray G t.type := by
  unfold passesArray PassesArray
  rw [Bool.and_eq_true, beq_iff_eq]
  refine and_congr_right fun _ => ?_
  cases new.last? with
  | none => simp
  | some last => cases t.type.last? <;> simp

namespace Handle

variable {G : ClassGraph} {v t c d h : Handle} {array : Ty} {cell s s' : Stamp} {new : Signature}

/-- What a variable-arity handle does, if it has the signature of its target. -/
theorem courseTo_of_varargs (hnode : v.node = .varargs t array cell) (htype : v.type = t.type)
    (hnew : new ≠ v.type) :
    (new.PassesArray G t.type → v.courseTo G new = .convert t) ∧
    (new.arity < t.type.arity - 1 → ∃ e : Misfit, v.courseTo G new = .settled (.error (.misfit e))) ∧
    (¬ new.PassesArray G t.type → t.type.arity - 1 ≤ new.arity →
      v.courseTo G new = .collect t array cell (new.arity + 1 - t.type.arity)) := by
  unfold courseTo
  rw [if_neg hnew, hnode, htype]
  dsimp only
  refine ⟨fun hpasses => if_pos (Signature.passesArray_iff.2 hpasses), fun hfew => ?_,
    fun hpasses henough => ?_⟩
  · have hpasses : ¬ new.passesArray G t.type t = true := by
      intro hpasses
      have harity := (Signature.passesArray_iff.1 hpasses).1
      omega
    rw [if_neg hpasses, if_pos (by omega)]
    exact ⟨_, rfl⟩
  · rw [if_neg (mt Signature.passesArray_iff.1 hpasses), if_neg (by omega)]

/-- Equivalent handles are equivalent when they are converted, if only one of them may be asked for its
own signature. -/
theorem agree_asType_of_fixed (hcd : c.Equiv d) (hfixed : d.isVarargs = false) (new : Signature)
    (n : Machine) : Agree Equiv (c.convertTo G s new) ((d.asType G new).start n).1 := by
  have hconvert : Agree Equiv (c.convertTo G s new) (d.convertTo G n.nextStamp new) :=
    agree_convertTo G hcd new
  rw [asType_eq_of_fixed hfixed]
  split
  · next hsame =>
    unfold convertTo at hconvert ⊢
    dsimp only at hconvert ⊢
    rw [type_eq_of_equivalent hcd, if_pos hsame]
    exact .ok hcd
  · rwa [(Link.start_build _ n).1]

/-- A collector that is converted is what comes of collecting and then asking for the signature. -/
theorem agree_collected (t : Handle) (array : Ty) (count : Nat) (new : Signature) (n : Machine) :
    Agree Equiv (t.asCollector G s array count >>= (·.convertTo G s' new))
      ((Link.build (t.asCollector G · array count) >>= (·.asType G new)).start n).1 := by
  have hcollectors : Agree Equiv (t.asCollector G s array count)
      (t.asCollector G n.nextStamp array count) := agree_asCollector G t.equivalent_refl array count
  have hbuild := (Link.start_build (t.asCollector G · array count) n).1
  rw [Link.start_bind]
  generalize (Link.build (t.asCollector G · array count)).start n = p at hbuild
  obtain ⟨r, n'⟩ := p
  obtain rfl : r = t.asCollector G n.nextStamp array count := hbuild
  generalize hc : t.asCollector G s array count = x at hcollectors
  generalize hd : t.asCollector G n.nextStamp array count = y at hcollectors
  cases hcollectors with
  | ok hcd => exact agree_asType_of_fixed hcd (isVarargs_asCollector hd) new n'
  | error e => exact .error e

/-! ## Calls of collectors -/

variable {P : Program} {count depth : Nat} {elem : Ty} {args : List Value}

/-- What collecting the last arguments comes to: a new node, with the components of the array in place of
the last parameter. -/
theorem asCollector_eq_ok (hmade : t.asCollector G s (.array elem) count = .ok c) :
    c.node = .collect t (t.type.arity - 1) count (.array elem) ∧
      c.type.params = t.type.params.dropLast ++ List.replicate count elem ∧ c.type.ret = t.type.ret ∧
        ∃ last, t.type.params = t.type.params.dropLast ++ [last] ∧
          G.isAssignable (.array elem) last = true := by
  unfold asCollector at hmade
  split at hmade
  · cases hmade
  next n harity =>
  obtain ⟨elem', last, helem, hlast, hassign, hnode, hparams, hret⟩ := asCollectorAt_eq_ok hmade
  obtain rfl := Ty.array.inj helem
  have hlength : t.type.params.length = n + 1 := harity
  have hne : t.type.params ≠ [] := List.ne_nil_of_length_eq_add_one hlength
  have hdropLast : t.type.params.dropLast = t.type.params.take n := by
    rw [List.dropLast_eq_take, hlength, Nat.add_sub_cancel]
  have hsplit := List.dropLast_append_getLast hne
  obtain rfl : t.type.params.getLast hne = last := by
    refine Option.some.inj ?_
    rw [← List.getLast?_eq_getLast_of_ne_nil hne, List.getLast?_eq_getElem?, hlength,
      Nat.add_sub_cancel, hlast]
  rw [harity]
  refine ⟨hnode, ?_, hret, _, hsplit.symm, hassign⟩
  rw [hparams, hdropLast, List.drop_eq_nil_of_le (Nat.le_of_eq hlength), List.append_nil]

/-- A call of the handle on the arguments and an array of others, made for the call. -/
def callGathering (P : Program) (t : Handle) (elem : Ty) (depth : Nat) (leading rest : List Value) :
    Run Value := do
  let o ← Run.alloc (·.newArray elem rest)
  t.invokeExact P depth (leading ++ [.obj o])

/-- A collector makes the array and calls its target. -/
theorem same_of_collect (hP : P.Blind) {leading rest : List Value}
    (hnode : c.node = .collect t leading.length rest.length (.array elem))
    (hfits : ∀ i, t.type.check P.graph (leading ++ [.obj (.array i elem rest)]) = .ok ()) (depth : Nat) :
    Run.Same (c.invokeBasic P (depth + 1) (leading ++ rest))
      (t.callGathering P elem depth leading rest) := by
  have hroom : leading.length + rest.length ≤ (leading ++ rest).length :=
    Nat.le_of_eq List.length_append.symm
  have hnone : (leading ++ rest).drop (leading.length + rest.length) = [] := by
    rw [← List.length_append, List.drop_length]
  have hcall := same_invokeBasic_of_collect hP hnode hroom depth
  rw [List.take_left, List.drop_left, List.take_length, hnone] at hcall
  have hchecked : t.callGathering P elem depth leading rest =
      Run.alloc (·.newArray elem rest) >>= fun o => t.invokeBasic P depth (leading ++ [.obj o]) := by
    funext m
    show t.invokeExact P depth _ _ = t.invokeBasic P depth _ _
    rw [invokeExact_of_check (hfits m.store.minted)]
  rw [hchecked]
  exact hcall

end Handle

/-- A result converted, as part of a call. -/
def Conversion.convertResult (G : ClassGraph) (ret : Conversion) (v : Value) : Run Value :=
  match ret.apply G v with
  | .ok w => return w
  | .error e => Run.fail (.conversion e)

theorem Conversion.same_convertResult (G : ClassGraph) (ret : Conversion) (v : Value) :
    Run.Same (ret.convertResult G v) (ret.convertResult G v) := by
  unfold convertResult
  cases ret.apply G v with
  | ok w => exact .pure w
  | error e => exact .throw _

/-- Nothing is converted. -/
theorem convertArguments_of_isKeep {G : ClassGraph} {args : List Value} {cs : List Conversion}
    (hlength : args.length = cs.length) (hkeep : cs.all Conversion.isKeep = true)
    (asReceiver : Bool) : convertArguments G asReceiver args cs = .ok args := by
  induction args generalizing cs asReceiver with
  | nil => rfl
  | cons v vs ih =>
    cases cs with
    | nil => cases hlength
    | cons c cs =>
      rw [List.all_cons, Bool.and_eq_true] at hkeep
      obtain ⟨hc, hcs⟩ := hkeep
      cases c with
      | keep =>
        unfold convertArguments
        rw [ih (Nat.succ.inj hlength) hcs]
        rfl
      | _ => cases hc

namespace Handle

variable {G : ClassGraph} {P : Program} {t c h : Handle} {s s' : Stamp} {count : Nat} {elem : Ty}
  {new : Signature}

theorem length_of_plans? {ss ts : List Ty} {cs : List Conversion} (hlength : ss.length = ts.length)
    (h : plans? G ss ts = some cs) : cs.length = ss.length := by
  induction ss generalizing ts cs with
  | nil =>
    obtain rfl := Option.some.inj h
    rfl
  | cons s ss ih =>
    cases ts with
    | nil => cases hlength
    | cons t ts =>
      obtain ⟨c, cs, -, hcs, rfl⟩ := plans?_cons_eq_some.1 h
      rw [List.length_cons, List.length_cons, ih (Nat.succ.inj hlength) hcs]

theorem plans?_self (G : ClassGraph) (ts : List Ty) :
    plans? G ts ts = some (ts.map fun _ => .keep) := by
  induction ts with
  | nil => rfl
  | cons t ts ih => exact plans?_cons_eq_some.2 ⟨_, _, Conversion.plan?_self G t, ih, rfl⟩

/-- What seeing a handle under a signature comes to, with the conversions that it takes: none, and it is
the node of the handle, or they are a node of their own. -/
inductive Converted (G : ClassGraph) (h : Handle) (new : Signature) (cs : List Conversion)
    (ret : Conversion) : Handle → Prop where
  | kept {h' : Handle} (args : cs.all Conversion.isKeep = true) (result : ret.isKeep = true)
      (type : h'.type = new) (node : h'.node = h.node) : Converted G h new cs ret h'
  | node (s : Stamp) : Converted G h new cs ret ⟨s, new, .convert h cs ret⟩

theorem exists_converted (hmade : c.convertTo G s new = .ok h) :
    new.params.length = c.type.params.length ∧ ∃ cs ret,
      plans? G new.params c.type.params = some cs ∧ Conversion.plan? G c.type.ret new.ret = some ret ∧
        Converted G c new cs ret h := by
  have htype := type_of_convertTo hmade
  rcases convertTo_eq_ok hmade with rfl | ⟨cs, ret, hlength, hcs, hret, ⟨hkeep, hkeepRet, hretype⟩ | rfl⟩
  · subst htype
    refine ⟨rfl, _, _, plans?_self G _, Conversion.plan?_self G _, .kept ?_ rfl rfl rfl⟩
    simp [Conversion.isKeep]
  · exact ⟨hlength, cs, ret, hcs, hret, .kept hkeep hkeepRet htype (retype_eq_ok hretype).1⟩
  · exact ⟨hlength, cs, ret, hcs, hret, .node s⟩

/-- Whether calls of a handle convert the arguments, put the last `count` of them into a fresh array and
call the target once, on the others and the array, and convert what it answers. If an argument cannot be
converted, nothing is called. -/
structure Gathers (P : Program) (h t : Handle) (elem : Ty) (count : Nat) : Prop where
  arity : h.type.arity = t.type.arity - 1 + count
  calls : ∃ cs ret extra,
    plans? P.graph h.type.params (t.type.params.dropLast ++ List.replicate count elem) = some cs ∧
      Conversion.plan? P.graph t.type.ret h.type.ret = some ret ∧ extra ≤ 1 ∧
        ∀ {m : Machine} {args : List Value}, m.Keyed → h.type.check P.graph args = .ok () →
          ∀ depth,
            (∀ e, convertArguments P.graph false args cs = .error e →
              seen Machine.visible (h.invokeExact P (depth + 1) args m) =
                (.error (.error e), m.visible)) ∧
            (∀ ws, convertArguments P.graph false args cs = .ok ws → ∃ leading rest,
              ws = leading ++ rest ∧ rest.length = count ∧
                (∀ i, t.type.check P.graph (leading ++ [.obj (.array i elem rest)]) = .ok ()) ∧
                seen Machine.visible (h.invokeExact P (depth + 1 + extra) args m) =
                  seen Machine.visible
                    ((t.callGathering P elem depth leading rest >>= ret.convertResult P.graph) m))

/-- Arguments that fit a collector are leading ones and others, which its target takes in an array. -/
theorem exists_gathered (hmade : t.asCollector G s (.array elem) count = .ok c) {ws : List Value}
    (hws : Value.fitAll G ws c.type.params = true) : ∃ leading rest, ws = leading ++ rest ∧
      rest.length = count ∧ c.node = .collect t leading.length rest.length (.array elem) ∧
        ∀ i, t.type.check G (leading ++ [.obj (.array i elem rest)]) = .ok () := by
  obtain ⟨hcollect, hparams, -, last, hsplit, hassign⟩ := asCollector_eq_ok hmade
  have hlength : t.type.params.dropLast.length = t.type.arity - 1 := List.length_dropLast
  rw [hparams] at hws
  have hwhole := Value.length_eq_of_fitAll hws
  rw [List.length_append, List.length_replicate, hlength] at hwhole
  have hleading : (ws.take (t.type.arity - 1)).length = t.type.arity - 1 :=
    List.length_take_of_le (by omega)
  have hrest : (ws.drop (t.type.arity - 1)).length = count := by
    rw [List.length_drop]
    omega
  refine ⟨ws.take (t.type.arity - 1), ws.drop (t.type.arity - 1),
    (List.take_append_drop _ ws).symm, hrest, ?_, fun i => ?_⟩
  · rw [hleading, hrest]
    exact hcollect
  · have hfirst := Value.fitAll_take hws (t.type.arity - 1)
    rw [List.take_left' hlength] at hfirst
    have harray : Value.fits G (.obj (.array i elem (ws.drop (t.type.arity - 1)))) last = true :=
      Value.fits_of_isAssignable (Value.fits_of_runtimeType rfl rfl) hassign
    rw [Signature.check_eq_ok_iff, hsplit]
    exact Value.fitAll_append hfirst (by simpa [Value.fitAll] using harray)

/-- A conversion converts the arguments, calls its target and converts what that answers. -/
theorem same_of_convert (hP : P.Blind) {cs : List Conversion} {ret : Conversion}
    (hnode : h.node = .convert c cs ret) (args : List Value) (depth : Nat) :
    Run.Same (h.invokeBasic P (depth + 1) args)
      (Run.ofExcept (convertArguments P.graph c.dispatches args cs) >>= fun ws =>
        c.invokeBasic P depth ws >>= ret.convertResult P.graph) := by
  have hh := same_invokeBasic_succ hP depth h args
  unfold perform at hh
  simp only [hnode] at hh
  exact hh

/-- A collector under a signature gathers its arguments. -/
theorem gathers_of_collected (hP : P.Blind)
    (hcollector : t.asCollector P.graph s (.array elem) count = .ok c)
    (hmade : c.convertTo P.graph s' new = .ok h) : h.Gathers P t elem count := by
  obtain ⟨hcollect, hparams, hcollectorRet, -⟩ := asCollector_eq_ok hcollector
  obtain ⟨hlength, cs, ret, hcs, hret, hconverted⟩ := exists_converted hmade
  have harity : new.params.length = t.type.arity - 1 + count := by
    rw [hlength, hparams, List.length_append, List.length_replicate, List.length_dropLast]
    rfl
  -- arguments that have been converted fit the collector
  have hfits : ∀ {args ws : List Value}, new.check P.graph args = .ok () →
      convertArguments P.graph false args cs = .ok ws →
        Value.fitAll P.graph ws c.type.params = true := fun hargs hws =>
    fitAll_of_convertArguments hlength hcs c.type.noVoid (Signature.check_eq_ok_iff.1 hargs) hws
  have hcount := length_of_plans? hlength hcs
  rw [hparams] at hcs
  rw [hcollectorRet] at hret
  cases hconverted with
  | kept hkeep hkeepRet htype hnode =>
    subst htype
    refine ⟨harity, cs, ret, 0, hcs, hret, Nat.zero_le 1, fun {m args} hm hargs depth => ?_⟩
    have hkept : convertArguments P.graph false args cs = .ok args := by
      refine convertArguments_of_isKeep ?_ hkeep false
      rw [Value.length_eq_of_fitAll (Signature.check_eq_ok_iff.1 hargs), hcount]
    have hresult : ret.convertResult P.graph = pure := by
      funext v
      cases ret with
      | keep => rfl
      | _ => cases hkeepRet
    refine ⟨fun e he => (nomatch hkept.symm.trans he), fun ws hws => ?_⟩
    obtain rfl := Except.ok.inj (hkept.symm.trans hws)
    obtain ⟨leading, rest, rfl, hrest, hcollects, htaken⟩ :=
      exists_gathered hcollector (hfits hargs hws)
    refine ⟨leading, rest, rfl, hrest, htaken, ?_⟩
    rw [hresult, bind_pure, invokeExact_of_check hargs]
    exact (same_of_collect hP (hnode.trans hcollects) htaken depth m m hm hm rfl).seen_eq
  | node s' =>
    have hdispatches : c.dispatches = false := by
      rw [dispatches, variant, hcollect]
      rfl
    refine ⟨harity, cs, ret, 1, hcs, hret, Nat.le_refl 1, fun {m args} hm hargs depth =>
      ⟨fun e he => ?_, fun ws hws => ?_⟩⟩
    · have hcall := same_of_convert hP (h := ⟨s', new, .convert c cs ret⟩) rfl args depth
      rw [hdispatches, he] at hcall
      rw [invokeExact_of_check hargs, (hcall m m hm hm rfl).seen_eq]
      rfl
    · obtain ⟨leading, rest, rfl, hrest, hcollects, htaken⟩ :=
        exists_gathered hcollector (hfits hargs hws)
      refine ⟨leading, rest, rfl, hrest, htaken, ?_⟩
      have hcall := same_of_convert hP (h := ⟨s', new, .convert c cs ret⟩) rfl args (depth + 1)
      rw [hdispatches, hws, Run.ofExcept_ok, pure_bind] at hcall
      have hgathers := same_of_collect hP hcollects htaken depth
      have hsame := hcall.trans (.bind hgathers fun v => ret.same_convertResult P.graph v)
      rw [invokeExact_of_check hargs]
      exact (hsame m m hm hm rfl).seen_eq

end Handle

/-! ## Whatever is remembered -/

namespace Viewing

variable {G : ClassGraph} {hs : List Handle} {now : Viewing} {v t : Handle} {elem : Ty} {cell : Stamp}
  {new : Signature} {answer : Except Error Handle}

/-- What programs have can be seen under signatures by any number of calls at once. -/
theorem exists_sound_on {m : Machine} (hH : Handling G m hs) :
    ∃ ks, (∀ h ∈ hs, h ∈ ks) ∧ (on m).Sound G ks := by
  obtain ⟨T, ks, hks, -, hregisters⟩ := hH.handles.registers
  exact ⟨ks, hks, sound_on hregisters hH.keyed⟩

/-- Whether a handle is answered to be so under a signature: to one of the calls that take turns, or to
one more that nobody disturbs. -/
def Answers (G : ClassGraph) (now : Viewing) (h : Handle) (new : Signature)
    (answer : Except Error Handle) : Prop :=
  (∃ i, now.Answered i h new answer) ∨ ((h.asType G new).start now.machine).1 = answer

theorem Sound.answers (hnow : now.Sound G hs) (hv : v ∈ hs) (hanswer : now.Answers G v new answer) :
    ∃ s s', answer = v.afresh G new s s' := by
  rcases hanswer with ⟨i, hanswer⟩ | rfl
  · exact hnow.answered hanswer
  · obtain ⟨T, hm⟩ := hnow.registers
    have halone : ((on now.machine).run G [.ask v new, .goOn 0, .goOn 0]).Sound G hs := by
      refine (sound_on hm hnow.keyed).run fun h new' hmem => ?_
      obtain ⟨rfl, -⟩ : h = v ∧ new' = new := by simpa using hmem
      exact hv
    have hanswered : ((on now.machine).run G [.ask v new, .goOn 0, .goOn 0]).Answered 0 v new
        ((v.asType G new).start now.machine).1 := by
      rw [run_alone]
      rfl
    exact halone.answered hanswered

/-- The target of a variable-arity handle is of fixed arity. -/
theorem Sound.fixed (hnow : now.Sound G hs) (hv : v ∈ hs) {array : Ty}
    (hnode : v.node = .varargs t array cell) : t.isVarargs = false := by
  obtain ⟨T, hm⟩ := hnow.registers
  exact (hm.handles v hv t array cell hnode).1

/-- **Variable-arity handles collect exactly, whatever they remember.** A program has seen handles that it
has under any signatures, by calls that took turns in any way (`before`), or sees one under another now.
A variable-arity handle with the signature of its target comes out, under any other signature, as its
target under that signature, if the signature passes an array on; with an error if it has too few
parameters; and otherwise as a collector on the target under that signature, for the parameters from the
place of the array on, or with the same error. What such a collector does is to call the target once, on
the leading arguments and a fresh array of exactly the others, in their order, all of them converted.

Two steps of its own bring any call to its end, and its answer stays. -/
theorem collects_exactly {P : Program} (hP : P.Blind) {m : Machine} (hH : Handling P.graph m hs)
    {before between : List Move} (hasked : ∀ h new, .ask h new ∈ before → h ∈ hs) :
    let now := (on m).run P.graph before
    let later := now.run P.graph between
    now.machine.Keyed ∧
    (∀ i h new, now.Asks i h new → [Move.goOn i, .goOn i].Sublist between →
      ∃ answer, later.Answered i h new answer) ∧
    (∀ i h new answer, now.Answered i h new answer → later.Answered i h new answer) ∧
    ∀ {v t : Handle} {elem : Ty} {cell : Stamp} {new : Signature} {answer : Except Error Handle},
      v ∈ hs → v.node = .varargs t (.array elem) cell → v.type = t.type → new ≠ v.type →
        now.Answers P.graph v new answer →
          (new.PassesArray P.graph t.type → ∀ n : Machine,
            Agree (fun a b : Handle => a.isEquivalent b) answer ((t.asType P.graph new).start n).1) ∧
          (new.arity < t.type.arity - 1 → ∃ e, answer = .error e ∧ e.kind = .incompatibleSignature) ∧
          (¬ new.PassesArray P.graph t.type → t.type.arity - 1 ≤ new.arity →
            let count := new.arity + 1 - t.type.arity
            (∀ n : Machine, Agree (fun a b : Handle => a.isEquivalent b) answer
              ((Link.build (t.asCollector P.graph · (.array elem) count) >>=
                (·.asType P.graph new)).start n).1) ∧
            ∀ h, answer = .ok h → h.type = new ∧ h.Gathers P t elem count) := by
  intro now later
  obtain ⟨ks, hks, hsound⟩ := exists_sound_on hH
  have hnow : now.Sound P.graph ks := hsound.run fun h new hmem => hks h (hasked h new hmem)
  refine ⟨hnow.keyed, fun i h new hi hown => hi.answered_run hown,
    fun i h new answer hi => hi.run between, ?_⟩
  intro v t elem cell new answer hv hnode htype hnew hanswer
  have hfixed := hnow.fixed (hks v hv) hnode
  obtain ⟨s, s', rfl⟩ := hnow.answers (hks v hv) hanswer
  obtain ⟨hpassing, hfew, hcollecting⟩ :=
    Handle.courseTo_of_varargs (G := P.graph) hnode htype hnew
  have equiv : ∀ {x y : Except Error Handle}, Agree Handle.Equiv x y →
      Agree (fun a b : Handle => a.isEquivalent b) x y :=
    fun h => h.mono fun a b hab => (Handle.isEquivalent_eq a b).trans hab
  unfold Handle.afresh
  refine ⟨fun hpasses n => ?_, fun harity => ?_, fun hpasses harity => ?_⟩
  · rw [hpassing hpasses]
    exact equiv (Handle.agree_asType_of_fixed t.equivalent_refl hfixed new n)
  · obtain ⟨e, he⟩ := hfew harity
    rw [he]
    exact ⟨_, rfl, rfl⟩
  · rw [hcollecting hpasses harity]
    refine ⟨fun n => equiv (Handle.agree_collected t (.array elem) _ new n), fun h hh => ?_⟩
    dsimp only at hh
    cases hc : t.asCollector P.graph s (.array elem) (new.arity + 1 - t.type.arity) with
    | error e =>
      rw [hc] at hh
      cases hh
    | ok c =>
      rw [hc] at hh
      exact ⟨Handle.type_of_convertTo hh, Handle.gathers_of_collected hP hc hh⟩

/-- Two calls ask a handle that collects numbers for two and for three of them. The second takes its
collector between the two steps of the first, so what is remembered in the end is that of the second; each
gets what it asked for, all the same. -/
theorem collects_exactly_of_rivals :
    ∃ (P : Program) (m : Machine) (hs : List Handle) (k a : Handle) (two three : Signature) (c d : Handle),
      Handling P.graph m hs ∧ a ∈ hs ∧ a.node = .varargs k (.array (.prim .int)) a.stamp ∧
        let final := (on m).run P.graph [.ask a two, .ask a three, .goOn 0, .goOn 1, .goOn 0, .goOn 1]
        final.Answered 0 a two (.ok c) ∧ final.Answered 1 a three (.ok d) ∧
          final.machine.collectors.map (·.2.1) = [3, 2] ∧
          c.Gathers P k (.prim .int) 2 ∧ d.Gathers P k (.prim .int) 3 ∧
          ∀ n : Machine, Agree (fun a b : Handle => a.isEquivalent b) (.ok c)
            ((Link.build (k.asCollector P.graph · (.array (.prim .int)) 2) >>=
              (·.asType P.graph two)).start n).1 := by
  let P : Program := .zeros .bootstrap
  let int : Ty := .prim .int
  let ints : Ty := .array int
  let one : Signature := ⟨[ints], ints, by decide, by decide⟩
  let two : Signature := ⟨[int, int], ints, by decide, by decide⟩
  let three : Signature := ⟨[int, int, int], .object, by decide, by decide⟩
  let k : Handle := ⟨0, one, .identity⟩
  let a : Handle := ⟨2, one, .varargs k ints 2⟩
  let c : Handle := ⟨4, two, .collect k 0 2 ints⟩
  let made : Handle := ⟨6, ⟨[int, int, int], ints, by decide, by decide⟩, .collect k 0 3 ints⟩
  let d : Handle := ⟨10, three, .collect k 0 3 ints⟩
  let at' (s : Stamp) : Machine := { Machine.initial true with nextStamp := s }
  have hk : Handling P.graph (at' 2) [k] :=
    @Handling.made P.graph _ _ _ (.identity ints) k (.start true) nofun rfl
  have ha : Handling P.graph (at' 4) [a, k] :=
    @Handling.made P.graph _ _ _ (.asVarargsCollector k ints) a hk (fun _ h => h) rfl
  have hbegun : (on (at' 4)).run P.graph [.ask a two, .ask a three, .goOn 0, .goOn 1] =
      ⟨{ at' 8 with collectors := [(2, (3, made)), (2, (2, c))] },
        [⟨a, two, .collected c⟩, ⟨a, three, .collected made⟩]⟩ := by rfl
  have hfinal : (on (at' 4)).run P.graph [.ask a two, .ask a three, .goOn 0, .goOn 1, .goOn 0, .goOn 1] =
      ⟨{ at' 12 with collectors := [(2, (3, made)), (2, (2, c))] },
        [⟨a, two, .answered (.ok c)⟩, ⟨a, three, .answered (.ok d)⟩]⟩ := by
    have hsplit := (on (at' 4)).run_append P.graph [.ask a two, .ask a three, .goOn 0, .goOn 1]
      [.goOn 0, .goOn 1]
    simp only [List.cons_append, List.nil_append] at hsplit
    rw [hsplit, hbegun]
    rfl
  have hP : P.Blind := fun _ _ => .pure _
  have hasked : ∀ h new, Move.ask h new ∈
      [.ask a two, .ask a three, .goOn 0, .goOn 1, .goOn 0, .goOn 1] → h ∈ [a, k] := by
    intro h new hmem
    obtain rfl : h = a := by
      simp only [List.mem_cons, Move.ask.injEq, List.not_mem_nil, reduceCtorEq, or_false] at hmem
      rcases hmem with hmem | hmem <;> exact hmem.1
    exact List.mem_cons_self
  obtain ⟨-, -, -, hanswers⟩ := @collects_exactly [a, k] P hP (at' 4) ha _ [] hasked
  rw [hfinal] at hanswers
  have hmore : ∀ new : Signature, new.arity ≠ 1 → ¬ new.PassesArray P.graph one :=
    fun _ h hpasses => h hpasses.1
  have htwo := (hanswers List.mem_cons_self rfl rfl (by decide) (.inl ⟨0, rfl⟩)).2.2
    (hmore two (by decide)) (by decide)
  have hthree := (hanswers List.mem_cons_self rfl rfl (by decide) (.inl ⟨1, rfl⟩)).2.2
    (hmore three (by decide)) (by decide)
  refine ⟨P, at' 4, [a, k], k, a, two, three, c, d, ha, List.mem_cons_self, rfl, ?_⟩
  rw [hfinal]
  exact ⟨rfl, rfl, rfl, (htwo.2 c rfl).2, (hthree.2 d rfl).2, htwo.1⟩

end Viewing

end HandleCalculus
