import HandleCalculus.Handle.Combinators
import HandleCalculus.Handle.Equivalence

/-!
# Call sites

A call site holds a target handle of a fixed signature. A constant site is bound once and never
again; the others can be retargeted. Retargeting to an equivalent handle happens in place;
any other raises the epoch, so code made for one epoch need not look at the target again until
the epoch changes.
-/

set_option autoImplicit false

namespace HandleCalculus

/-- Whether and how a call site can be retargeted. -/
inductive SiteKind where
  | constant | mutable | volatile
  deriving DecidableEq, Repr

/-- The name of a kind. -/
def SiteKind.name : SiteKind → String
  | constant => "Constant"
  | mutable => "Mutable"
  | volatile => "Volatile"

/-- A call site. Only a constant site that is still being bound has no target. -/
structure CallSite where
  kind : SiteKind
  type : Signature
  target : Option Handle
  epoch : Nat
  fastSwaps : Nat
  invalidations : Nat

namespace CallSite

/-- A new site with a target, of the target's signature. -/
def ofTarget (kind : SiteKind) (target : Handle) : CallSite :=
  ⟨kind, target.type, some target, 0, 0, 0⟩

/-- A new site whose target fails with a message until it is retargeted. -/
def unlinked (stamp : Stamp) (kind : SiteKind) (type : Signature) : CallSite :=
  ⟨kind, type, some (Handle.unlinked stamp type "call site not linked"), 0, 0, 0⟩

/-- A constant site that has not been bound. -/
def unbound (type : Signature) : CallSite := ⟨.constant, type, none, 0, 0, 0⟩

/-- The current target. -/
def getTarget (s : CallSite) : Except Error Handle :=
  match s.target with
  | some h => .ok h
  | none => .error .notYetBound

/-- Refuses a handle of another signature. -/
def checkTarget (s : CallSite) (h : Handle) : Except Error Unit :=
  if h.type = s.type then .ok () else .error (.misfit (.siteTarget h.type s.type))

/-- Binds an unbound constant site. -/
def bind (s : CallSite) (h : Handle) : Except Error CallSite :=
  match s.checkTarget h with
  | .error e => .error e
  | .ok () =>
    match s.target with
    | some _ => .error (.illegalState "constant call site bound twice")
    | none => .ok { s with target := some h }

/-- Whether the current target is equivalent to `h`. -/
def isEquivalentTo (s : CallSite) (h : Handle) : Bool :=
  match s.target with
  | some old => old.isEquivalent h
  | none => false

/-- The site with the target replaced, in place if the two are equivalent and with a new epoch if
not; and whether it was in place. -/
def setTarget (s : CallSite) (h : Handle) : Except Error (CallSite × Bool) :=
  if s.kind = .constant then .error .constantSite
  else
    match s.checkTarget h with
    | .error e => .error e
    | .ok () =>
      if s.isEquivalentTo h then
        .ok ({ s with target := some h, fastSwaps := s.fastSwaps + 1 }, true)
      else
        .ok ({ s with
          target := some h, epoch := s.epoch + 1, invalidations := s.invalidations + 1 }, false)

/-- A handle that calls the target of the site `id`, whatever it is by then; for a constant site
the target itself. -/
def dynamicInvoker (s : CallSite) (id : SiteId) (stamp : Stamp) : Except Error Handle :=
  match s.kind with
  | .constant => s.getTarget
  | _ => .ok ⟨stamp, s.type, .invoker id⟩

/-- A site as messages print it. -/
def text (G : ClassGraph) (s : CallSite) : String :=
  s.kind.name ++ "CallSite" ++ s.type.text G

end CallSite

end HandleCalculus
