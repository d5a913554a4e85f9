import MiniHedge.Auth.Delegation
import MiniHedge.Auth.Lookups

/-! `revoke_access` among the requests that are on their way.

The caches of the process are cleared at one moment, after the relation has been
deleted. From then on nothing stale is found in them, unless a request stores an
answer later that it was given before, or that OpenFGA still gives.
-/

set_option autoImplicit false

namespace MiniHedge.Auth

open MiniHedge.Python MiniHedge.Library

inductive RevokeStage where
  /-- For the fund. -/
  | fetching
  /-- For `delete_tuples`, before and after the store has deleted the relation. -/
  | deleting
  | deleted
  /-- For the audit log. -/
  | auditing
  | returned
  | failed
  deriving DecidableEq, Repr

/-- `revoke_access` of the relation, for a user. -/
def RevokeStage.advance (authService : Bool) (userId fundId : String) (s : Lookups)
    (stage : RevokeStage) (raised : Bool) : Option (Lookups × RevokeStage) :=
  match stage, raised with
  | .returned, _ | .failed, _ => none
  | _, true => some (s, .failed)
  | .fetching, false => some (s, .deleting)
  | .deleting, false => some ({ s with granted := false }, .deleted)
  | .deleted, false =>
    let s := { s with checks := .empty, cleared := true }
    if authService then
      some ({ s with
        access := s.access.drop (concernsAccess userId fundId)
        ctx := .empty }, .auditing)
    else some (s, .auditing)
  | .auditing, false => some ({ s with returned := true }, .returned)

inductive LookupProcess where
  | request (r : Request)
  | revoke (stage : RevokeStage)
  /-- Entries expire, make room for others or are invalidated by other calls. -/
  | eviction

inductive LookupInput where
  | reply (reply : Reply)
  | evict (access : AccessKey → Bool) (ctx : CtxKey → Bool) (checks : CheckKey → Bool)
    (openfga : Question → Bool)

/-- A call as it begins. -/
def LookupProcess.Initial : LookupProcess → Prop
  | .request r => r.stage = .ready ∧ r.requestFgaCache = none ∧ r.after = none ∧ r.decisions = []
  | .revoke stage => stage = .fetching
  | .eviction => True

section System

variable (settings : Settings) (authService : Bool) (userId fundId : String)

def LookupProcess.advance (s : Lookups) :
    LookupProcess → LookupInput → Option (Lookups × LookupProcess)
  | .request r, .reply reply =>
    (r.advance settings userId fundId s reply).map fun (s, r) => (s, .request r)
  | .revoke stage, .reply .resumed =>
    (stage.advance authService userId fundId s false).map fun (s, stage) => (s, .revoke stage)
  | .revoke stage, .reply .raised =>
    (stage.advance authService userId fundId s true).map fun (s, stage) => (s, .revoke stage)
  | .eviction, .evict access ctx checks openfga =>
    some ({ s with
      access := s.access.drop access
      ctx := s.ctx.drop ctx
      checks := s.checks.drop checks
      openfga := s.openfga.filter fun answer => !openfga answer.question }, .eviction)
  | _, _ => none

def lookups : Processes Lookups LookupProcess LookupInput where
  advance s _ p input := p.advance settings authService userId fundId s input

/-- The request has a stale answer that it still has to store or to decide on. -/
def LookupStage.stale : LookupStage → Bool
  | .ready | .checking .. => false
  | .identifying _ stale => stale
  | .asking _ identification => identification.any (·.stale)
  | .answered key identification access =>
    identification.any (·.stale) || (access.about (concernsAccess userId fundId key)).stale
  | .delegating identification access => identification.stale || access.stale
  | .checked key _ allowed => (allowed.about (concernsCheck userId key)).stale

def LookupProcess.stale : LookupProcess → Bool
  | .request r => r.stage.stale userId fundId
  | .revoke _ | .eviction => false

/-- The turn in which `revoke_access` clears the caches. -/
def LookupProcess.clears : LookupProcess → LookupInput → Bool
  | .revoke .deleted, .reply .resumed => true
  | _, _ => false

/-- When the caches are cleared, all those of the process are, OpenFGA holds no answer that
goes back to the relation, and no other call has a stale answer left. -/
def Settled (s : Lookups) (others : List LookupProcess) (p : LookupProcess) (input : LookupInput) :
    Prop :=
  p.clears input = true → authService = true ∧
    (∀ answer ∈ s.openfga, answer.outdated userId fundId = false) ∧
    ∀ q ∈ others, q.stale userId fundId = false

instance (s : Lookups) (others : List LookupProcess) (p : LookupProcess) (input : LookupInput) :
    Decidable (Settled authService userId fundId s others p input) :=
  inferInstanceAs (Decidable (_ → _))

end System

/-! ## What a request does once everything is fresh -/

section Fresh

variable {settings : Settings} {userId fundId : String} {s s' : Lookups} {r r' : Request}

structure Lookups.Fresh (userId fundId : String) (s : Lookups) : Prop where
  access : s.access.Fresh (concernsAccess userId fundId)
  ctx : s.ctx.Fresh fun _ => true
  checks : s.checks.Fresh (concernsCheck userId)
  openfga : ∀ answer ∈ s.openfga, answer.outdated userId fundId = false

/-- What the request has of its own is fresh. -/
structure Request.Fresh (userId : String) (r : Request) : Prop where
  cache : ∀ memo ∈ r.requestFgaCache, memo.Fresh (concernsCheck userId)
  decisions : ∀ d ∈ r.decisions, d.stale = false

/-- Only what an earlier request has of its own may be stale. -/
structure Request.Clean (userId fundId : String) (s : Lookups) (r : Request) : Prop where
  shared : s.Fresh userId fundId
  stage : r.stage.stale userId fundId = false
  own : r.after = some true → r.Fresh userId

namespace Request.Clean

theorem of_eq {moved : Lookups × Request} (clean : moved.2.Clean userId fundId moved.1)
    (same : moved = (s', r')) : r'.Clean userId fundId s' := by
  subst same
  exact clean

theorem conclude (clean : r.Clean userId fundId s) {outcome : Outcome} {stale : Bool}
    (fresh : r.after = some true → stale = false) :
    (r.conclude outcome stale).Clean userId fundId s where
  shared := clean.shared
  stage := rfl
  own later := by
    refine ⟨(clean.own later).cache, fun d member => ?_⟩
    rcases List.mem_append.mp member with earlier | last
    · exact (clean.own later).decisions d earlier
    · rw [List.mem_singleton.mp last]
      exact fresh later

theorem raise (clean : r.Clean userId fundId s) : r.raise.Clean userId fundId s :=
  ⟨clean.shared, rfl, fun later => ⟨(clean.own later).cache, (clean.own later).decisions⟩⟩

theorem wait (clean : r.Clean userId fundId s) {stage : LookupStage}
    (fresh : stage.stale userId fundId = false) :
    { r with stage := stage }.Clean userId fundId s :=
  ⟨clean.shared, fresh, fun later => ⟨(clean.own later).cache, (clean.own later).decisions⟩⟩

theorem storeContext (clean : r.Clean userId fundId s) {key : CtxKey}
    {context : Dated RequestContext} (fresh : context.stale = false) :
    (r.storeContext s key context).2.Clean userId fundId (r.storeContext s key context).1 := by
  have stored : r.Clean userId fundId { s with ctx := s.ctx.store key context } := by
    refine ⟨⟨clean.shared.access, ?_, clean.shared.checks, clean.shared.openfga⟩, clean.stage,
      clean.own⟩
    exact clean.shared.ctx.store (by simp [Dated.about, fresh])
  exact stored.conclude fun _ => fresh

theorem receiveAccess (clean : r.Clean userId fundId s) {identification : Option Identification}
    {access : Dated Access} (found : identification.any (·.stale) = false)
    (fresh : access.stale = false) :
    (r.receiveAccess identification access).Clean userId fundId s := by
  cases identification with
  | none => exact clean.conclude fun _ => fresh
  | some identification =>
    unfold Request.receiveAccess
    dsimp only
    split
    · exact clean.raise
    · apply clean.wait
      simpa [LookupStage.stale, fresh] using found

theorem lookupAccess (clean : r.Clean userId fundId s) {key : AccessKey}
    {identification : Option Identification} (found : identification.any (·.stale) = false) :
    (r.lookupAccess userId fundId s key identification).Clean userId fundId s := by
  unfold Request.lookupAccess
  split
  · rename_i cached hit
    exact clean.receiveAccess found (clean.shared.access.about hit)
  · exact clean.wait found

/-- A check for an investor does not depend on the relation. -/
theorem receiveCheck (clean : r.Clean userId fundId s) {context : Option (CtxKey × RequestContext)}
    {allowed : Dated Bool} (fresh : context ≠ none ∨ r.after = some true → allowed.stale = false) :
    (r.receiveCheck s context allowed).2.Clean userId fundId
      (r.receiveCheck s context allowed).1 := by
  cases context with
  | none => exact clean.conclude fun later => fresh (.inr later)
  | some context =>
    unfold Request.receiveCheck
    dsimp only
    split
    · exact clean.storeContext (fresh (.inl (Option.some_ne_none _)))
    · exact clean.raise

theorem rememberCheck (clean : r.Clean userId fundId s) {key : CheckKey} {allowed : Dated Bool}
    (fresh : (allowed.about (concernsCheck userId key)).stale = false) :
    (r.rememberCheck key allowed).Clean userId fundId s := by
  refine ⟨clean.shared, clean.stage, fun later => ⟨?_, (clean.own later).decisions⟩⟩
  intro memo member
  obtain ⟨before, held, rfl⟩ := Option.mem_map.mp member
  exact ((clean.own later).cache before held).store fresh

theorem lookupCheck (clean : r.Clean userId fundId s) {key : CheckKey}
    {context : Option (CtxKey × RequestContext)}
    (other : context ≠ none → concernsCheck userId key = false) :
    (r.lookupCheck userId s key context).2.Clean userId fundId
      (r.lookupCheck userId s key context).1 := by
  unfold Request.lookupCheck
  split
  · rename_i cached hit
    obtain ⟨memo, held, found⟩ := Option.bind_eq_some_iff.mp hit
    apply clean.receiveCheck
    rintro (investor | later)
    · simp [Dated.about, other investor]
    · exact ((clean.own later).cache memo held).about found
  · split
    · rename_i cached hit
      have fresh := clean.shared.checks.about hit
      exact (clean.rememberCheck fresh).receiveCheck fun _ => fresh
    · exact clean.wait rfl

/-- Once the relation is gone and nothing older is held, an answer is fresh. -/
theorem evaluate (clean : r.Clean userId fundId s) (deleted : s.granted = false)
    (question : Question) (reused : Question → Bool) :
    (s.evaluate userId fundId question reused).2 = false ∧
      r.Clean userId fundId (s.evaluate userId fundId question reused).1 := by
  have fresh : (s.evaluate userId fundId question reused).2 = false := by
    simp only [Lookups.evaluate, deleted, Bool.false_or, List.any_eq_false, Bool.and_eq_true,
      not_and, Bool.not_eq_true]
    exact fun answer held _ => clean.shared.openfga answer held
  refine ⟨fresh, ⟨⟨clean.shared.access, clean.shared.ctx, clean.shared.checks, ?_⟩, clean.stage,
    clean.own⟩⟩
  intro answer held
  rcases List.mem_cons.mp held with rfl | earlier
  · exact Bool.and_eq_false_imp.mpr fun stale => absurd (fresh.symm.trans stale) Bool.false_ne_true
  · exact clean.shared.openfga answer (List.mem_of_mem_filter earlier)

end Request.Clean

/-- A request that has not started has nothing of its own. -/
def Request.Unstarted (r : Request) : Prop :=
  r.after = none → r.stage = .ready ∧ r.requestFgaCache = none ∧ r.decisions = []

theorem Request.Clean.resume (todo : List Operation) (clean : r.Clean userId fundId s)
    (unstarted : r.Unstarted) :
    { r with todo, after := some (r.after.getD s.returned) }.Clean userId fundId s := by
  refine ⟨clean.shared, clean.stage, fun now => ?_⟩
  cases started : r.after with
  | none =>
    obtain ⟨_, nothing, undecided⟩ := unstarted started
    exact ⟨by simp [nothing], by simp [undecided]⟩
  | some later =>
    rw [started] at now
    exact ⟨(clean.own (started.trans now)).cache, (clean.own (started.trans now)).decisions⟩

theorem Request.Clean.begin (clean : r.Clean userId fundId s) (unstarted : r.Unstarted)
    (began : r.begin userId fundId s = some (s', r')) : r'.Clean userId fundId s' := by
  unfold Request.begin at began
  split at began
  · cases began
  · rename_i operation todo _
    have resumed := clean.resume todo unstarted
    dsimp only at began
    split at began
    · cases began
      refine ⟨resumed.shared, resumed.stage, fun later => ⟨?_, (resumed.own later).decisions⟩⟩
      intro memo member
      cases member
      exact Memo.All.empty
    · split at began
      · rename_i cached hit
        cases began
        exact resumed.conclude fun _ => by simpa [Dated.about] using clean.shared.ctx.about hit
      · cases began
        exact resumed.wait rfl
    · cases began
      exact resumed.lookupAccess rfl
    · exact (resumed.lookupCheck fun investor => absurd rfl investor).of_eq (Option.some.inj began)

theorem Request.Clean.advance {reply : Reply} (clean : r.Clean userId fundId s)
    (unstarted : r.Unstarted) (deleted : s.granted = false)
    (advanced : r.advance settings userId fundId s reply = some (s', r')) :
    r'.Clean userId fundId s' := by
  have held := clean.stage
  unfold Request.advance at advanced
  split at advanced
  · exact clean.begin unstarted advanced
  · cases advanced
  · cases advanced
    exact clean.raise
  · rename_i staged
    rename_i user reused
    obtain ⟨fresh, kept⟩ := clean.evaluate deleted (.objects user) reused
    cases advanced
    rw [staged] at held
    exact kept.wait (by simpa [LookupStage.stale, fresh] using held)
  · rename_i staged
    cases advanced
    rw [staged] at held
    exact clean.lookupAccess (by simpa [LookupStage.stale] using held)
  · rename_i staged
    cases advanced
    rw [staged] at held
    exact clean.storeContext held
  · exact (clean.lookupCheck fun _ => concernsCheck_investor ..).of_eq (Option.some.inj advanced)
  · rename_i staged
    rename_i key identification relations reused
    obtain ⟨fresh, kept⟩ := clean.evaluate deleted (.relations key) reused
    cases advanced
    rw [staged] at held
    exact kept.wait (by simpa [LookupStage.stale, Dated.about, fresh] using held)
  · -- the answer that is stored now has been given before
    rename_i staged
    cases advanced
    rw [staged] at held
    simp only [LookupStage.stale, Bool.or_eq_false_iff] at held
    have stored : r.Clean userId fundId { s with access := s.access.store _ _ } :=
      ⟨⟨clean.shared.access.store held.2, clean.shared.ctx, clean.shared.checks,
        clean.shared.openfga⟩, clean.stage, clean.own⟩
    exact stored.receiveAccess held.1 held.2
  · rename_i staged
    rw [staged] at held
    simp only [LookupStage.stale, Bool.or_eq_false_iff] at held
    split at advanced
    · cases advanced
      exact clean.raise
    · cases advanced
      exact clean.storeContext (by simp [held.1, held.2])
  · rename_i key context allowed reused _
    obtain ⟨fresh, kept⟩ := clean.evaluate deleted (.check key) reused
    cases advanced
    exact kept.wait (by simp [LookupStage.stale, Dated.about, fresh])
  · rename_i staged
    rw [staged] at held
    have stored : r.Clean userId fundId { s with checks := s.checks.store _ _ } :=
      ⟨⟨clean.shared.access, clean.shared.ctx, clean.shared.checks.store held,
        clean.shared.openfga⟩, clean.stage, clean.own⟩
    exact ((stored.rememberCheck held).receiveCheck fun _ => held).of_eq (Option.some.inj advanced)
  · cases advanced

end Fresh

/-! ## What a request leaves alone -/

section Frame

variable {settings : Settings} {userId fundId : String} {s s' : Lookups} {r r' : Request}

/-- The turn of a request is none of the relation's. -/
structure Lookups.Same (s s' : Lookups) : Prop where
  granted : s'.granted = s.granted
  cleared : s'.cleared = s.cleared
  returned : s'.returned = s.returned

namespace Request

theorem same_of_eq {moved : Lookups × Request} (same : s.Same moved.1 ∧ moved.2.after = r.after)
    (eq : moved = (s', r')) : s.Same s' ∧ r'.after = r.after := by
  subst eq
  exact same

theorem receiveAccess_after (identification : Option Identification) (access : Dated Access) :
    (r.receiveAccess identification access).after = r.after := by
  unfold receiveAccess
  split
  · rfl
  · split <;> rfl

theorem lookupAccess_after (key : AccessKey) (identification : Option Identification) :
    (r.lookupAccess userId fundId s key identification).after = r.after := by
  unfold lookupAccess
  split
  · exact receiveAccess_after ..
  · rfl

theorem receiveCheck_same (s : Lookups) (context : Option (CtxKey × RequestContext))
    (allowed : Dated Bool) : s.Same (r.receiveCheck s context allowed).1 ∧
      (r.receiveCheck s context allowed).2.after = r.after := by
  unfold receiveCheck
  split
  · exact ⟨⟨rfl, rfl, rfl⟩, rfl⟩
  · split <;> exact ⟨⟨rfl, rfl, rfl⟩, rfl⟩

theorem lookupCheck_same (s : Lookups) (key : CheckKey)
    (context : Option (CtxKey × RequestContext)) : s.Same (r.lookupCheck userId s key context).1 ∧
      (r.lookupCheck userId s key context).2.after = r.after := by
  unfold lookupCheck
  split
  · exact receiveCheck_same ..
  · split
    · exact receiveCheck_same (r := r.rememberCheck key _) ..
    · exact ⟨⟨rfl, rfl, rfl⟩, rfl⟩

theorem begin_same (began : r.begin userId fundId s = some (s', r')) :
    s.Same s' ∧ r'.after = some (r.after.getD s.returned) := by
  unfold begin at began
  split at began
  · cases began
  · dsimp only at began
    split at began
    · cases began
      exact ⟨⟨rfl, rfl, rfl⟩, rfl⟩
    · split at began <;> cases began <;> exact ⟨⟨rfl, rfl, rfl⟩, rfl⟩
    · cases began
      exact ⟨⟨rfl, rfl, rfl⟩, lookupAccess_after ..⟩
    · rename_i todo _ key _
      let resumed : Request := { r with todo, after := some (r.after.getD s.returned) }
      have same : s.Same (resumed.lookupCheck userId s key none).1 ∧
          (resumed.lookupCheck userId s key none).2.after = resumed.after := lookupCheck_same s key none
      rw [Option.some.inj began] at same
      exact same

theorem advance_same_of_waiting {reply : Reply} (waiting : r.stage ≠ .ready)
    (advanced : r.advance settings userId fundId s reply = some (s', r')) :
    s.Same s' ∧ r'.after = r.after := by
  unfold advance at advanced
  split at advanced
  · rename_i staged
    exact absurd staged waiting
  · cases advanced
  · cases advanced
    exact ⟨⟨rfl, rfl, rfl⟩, rfl⟩
  · cases advanced
    exact ⟨⟨rfl, rfl, rfl⟩, rfl⟩
  · cases advanced
    exact ⟨⟨rfl, rfl, rfl⟩, lookupAccess_after ..⟩
  · cases advanced
    exact ⟨⟨rfl, rfl, rfl⟩, rfl⟩
  · exact same_of_eq (lookupCheck_same ..) (Option.some.inj advanced)
  · cases advanced
    exact ⟨⟨rfl, rfl, rfl⟩, rfl⟩
  · cases advanced
    exact ⟨⟨rfl, rfl, rfl⟩, receiveAccess_after ..⟩
  · split at advanced <;> cases advanced <;> exact ⟨⟨rfl, rfl, rfl⟩, rfl⟩
  · cases advanced
    exact ⟨⟨rfl, rfl, rfl⟩, rfl⟩
  · rename_i key context allowed _
    obtain ⟨same, after⟩ := receiveCheck_same (r := r.rememberCheck key allowed)
      { s with checks := s.checks.store key allowed } context
      (allowed.about (concernsCheck userId key))
    rw [Option.some.inj advanced] at same after
    exact ⟨⟨same.granted, same.cleared, same.returned⟩, after⟩
  · cases advanced

theorem advance_same {reply : Reply} (unstarted : r.Unstarted)
    (advanced : r.advance settings userId fundId s reply = some (s', r')) :
    s.Same s' ∧ r'.after = some (r.after.getD s.returned) := by
  by_cases ready : r.stage = .ready
  · unfold advance at advanced
    rw [ready] at advanced
    cases reply <;> first | cases advanced | exact begin_same advanced
  · obtain ⟨same, after⟩ := advance_same_of_waiting ready advanced
    refine ⟨same, after.trans ?_⟩
    cases started : r.after with
    | none => exact absurd (unstarted started).1 ready
    | some later => rfl

end Request

end Frame

/-! ## Runs -/

section Runs

variable (settings : Settings) (authService : Bool) (userId fundId : String)

structure Lookups.Kept (s : Lookups) : Prop where
  cleared : s.returned = true → s.cleared = true
  deleted : s.cleared = true → s.granted = false
  fresh : s.cleared = true → s.Fresh userId fundId

def LookupProcess.Kept (s : Lookups) : LookupProcess → Prop
  | .request r => r.Unstarted ∧ (s.cleared = true → r.stage.stale userId fundId = false) ∧
    (r.after = some true → s.cleared = true ∧ r.Fresh userId)
  | .revoke stage => (stage ∈ [.deleted, .auditing, .returned] → s.granted = false) ∧
    (stage ∈ [.auditing, .returned] → s.cleared = true)
  | .eviction => True

variable {settings authService userId fundId} {s s' : Lookups} {p p' q : LookupProcess}
  {input : LookupInput}

theorem LookupProcess.Kept.other (kept : q.Kept userId fundId s) (cleared : s'.cleared = s.cleared)
    (granted : s.granted = false → s'.granted = false) : q.Kept userId fundId s' := by
  cases q with
  | request r =>
    obtain ⟨unstarted, waiting, own⟩ := kept
    exact ⟨unstarted, cleared ▸ waiting, cleared ▸ own⟩
  | revoke stage => exact ⟨fun past => granted (kept.1 past), cleared ▸ kept.2⟩
  | eviction => trivial

theorem LookupProcess.Initial.kept (initial : p.Initial) : p.Kept userId fundId {} := by
  cases p with
  | request r =>
    obtain ⟨ready, nothing, started, undecided⟩ := initial
    refine ⟨fun _ => ⟨ready, nothing, undecided⟩, nofun, ?_⟩
    intro later
    rw [started] at later
    cases later
  | revoke stage =>
    cases initial
    exact ⟨fun past => absurd past (by decide), fun past => absurd past (by decide)⟩
  | eviction => trivial

theorem keeps_request {r r' : Request} {reply : Reply} (shared : s.Kept userId fundId)
    (own : (LookupProcess.request r).Kept userId fundId s)
    (advanced : r.advance settings userId fundId s reply = some (s', r')) :
    s'.Kept userId fundId ∧ (LookupProcess.request r').Kept userId fundId s' ∧ s.Same s' := by
  obtain ⟨unstarted, waiting, later⟩ := own
  obtain ⟨same, after⟩ := Request.advance_same unstarted advanced
  have started : r'.Unstarted := fun none => by rw [after] at none; cases none
  cases cleared : s.cleared with
  | false =>
    have uncleared : s'.cleared = true → False := fun now => by
      rw [same.cleared, cleared] at now
      cases now
    have before : s.returned = false := by
      by_contra returned
      rw [Bool.not_eq_false] at returned
      rw [shared.cleared returned] at cleared
      cases cleared
    refine ⟨⟨?_, fun now => (uncleared now).elim, fun now => (uncleared now).elim⟩,
      ⟨started, fun now => (uncleared now).elim, ?_⟩, same⟩
    · rw [same.returned, before]
      exact fun now => by cases now
    · rw [after]
      intro now
      cases known : r.after with
      | none =>
        rw [known, Option.getD_none, before] at now
        cases now
      | some earlier =>
        rw [known, Option.getD_some] at now
        have impossible := (later (known.trans now)).1
        rw [cleared] at impossible
        cases impossible
  | true =>
    have clean : r.Clean userId fundId s :=
      ⟨shared.fresh cleared, waiting cleared, fun now => (later now).2⟩
    have kept := clean.advance unstarted (shared.deleted cleared) advanced
    have still : s'.cleared = true := same.cleared.trans cleared
    refine ⟨⟨fun _ => still, fun _ => ?_, fun _ => kept.shared⟩,
      ⟨started, fun _ => kept.stage, fun now => ⟨still, kept.own now⟩⟩, same⟩
    exact same.granted.trans (shared.deleted cleared)

theorem keeps_eviction {access : AccessKey → Bool} {ctx : CtxKey → Bool} {checks : CheckKey → Bool}
    {openfga : Question → Bool} (shared : s.Kept userId fundId) :
    { s with
      access := s.access.drop access
      ctx := s.ctx.drop ctx
      checks := s.checks.drop checks
      openfga := s.openfga.filter fun answer => !openfga answer.question }.Kept userId fundId := by
  refine ⟨shared.cleared, shared.deleted, fun cleared => ?_⟩
  obtain ⟨access, ctx, checks, openfga⟩ := shared.fresh cleared
  exact ⟨access.drop, ctx.drop, checks.drop,
    fun answer held => openfga answer (List.mem_of_mem_filter held)⟩

theorem keeps_revoke {stage stage' : RevokeStage} {raised : Bool} {others : List LookupProcess}
    (shared : s.Kept userId fundId) (own : (LookupProcess.revoke stage).Kept userId fundId s)
    (rest : ∀ q ∈ others, q.Kept userId fundId s)
    (settled : stage = .deleted → raised = false → authService = true ∧
      (∀ answer ∈ s.openfga, answer.outdated userId fundId = false) ∧
      ∀ q ∈ others, q.stale userId fundId = false)
    (advanced : stage.advance authService userId fundId s raised = some (s', stage')) :
    s'.Kept userId fundId ∧ (LookupProcess.revoke stage').Kept userId fundId s' ∧
      ∀ q ∈ others, q.Kept userId fundId s' := by
  unfold RevokeStage.advance at advanced
  split at advanced
  · cases advanced
  · cases advanced
  · cases advanced
    exact ⟨shared, ⟨fun past => absurd past (by decide), fun past => absurd past (by decide)⟩, rest⟩
  · cases advanced
    exact ⟨shared, ⟨fun past => absurd past (by decide), fun past => absurd past (by decide)⟩, rest⟩
  · cases advanced
    refine ⟨⟨shared.cleared, fun _ => rfl, fun cleared => ?_⟩,
      ⟨fun _ => rfl, fun past => absurd past (by decide)⟩, fun q member => ?_⟩
    · obtain ⟨access, ctx, checks, openfga⟩ := shared.fresh cleared
      exact ⟨access, ctx, checks, openfga⟩
    · exact (rest q member).other rfl fun _ => rfl
  · -- the moment at which the caches are cleared
    obtain ⟨configured, unheld, others⟩ := settled rfl rfl
    rw [configured] at advanced
    cases advanced
    have deleted := own.1 (by decide)
    refine ⟨⟨fun _ => rfl, fun _ => deleted, fun _ => ?_⟩, ⟨fun _ => deleted, fun _ => rfl⟩,
      fun q member => ?_⟩
    · exact ⟨Memo.fresh_drop s.access _, Memo.All.empty, Memo.All.empty, unheld⟩
    · have kept := rest q member
      cases q with
      | request r => exact ⟨kept.1, fun _ => others _ member, fun later => ⟨rfl, (kept.2.2 later).2⟩⟩
      | revoke stage => exact ⟨kept.1, fun _ => rfl⟩
      | eviction => trivial
  · cases advanced
    have cleared := own.2 (by decide)
    have deleted := own.1 (by decide)
    refine ⟨⟨fun _ => cleared, shared.deleted, fun _ => ?_⟩, ⟨fun _ => deleted, fun _ => cleared⟩,
      fun q member => (rest q member).other rfl id⟩
    obtain ⟨access, ctx, checks, openfga⟩ := shared.fresh cleared
    exact ⟨access, ctx, checks, openfga⟩

theorem keeps_advance {others : List LookupProcess} (shared : s.Kept userId fundId)
    (own : p.Kept userId fundId s) (rest : ∀ q ∈ others, q.Kept userId fundId s)
    (settled : Settled authService userId fundId s others p input)
    (advanced : p.advance settings authService userId fundId s input = some (s', p')) :
    s'.Kept userId fundId ∧ p'.Kept userId fundId s' ∧ ∀ q ∈ others, q.Kept userId fundId s' := by
  unfold LookupProcess.advance at advanced
  split at advanced
  · obtain ⟨⟨s₁, r'⟩, moved, same⟩ := Option.map_eq_some_iff.mp advanced
    cases same
    obtain ⟨shared', own', same⟩ := keeps_request shared own moved
    exact ⟨shared', own', fun q member => (rest q member).other same.cleared fun deleted =>
      same.granted.trans deleted⟩
  · obtain ⟨⟨s₁, stage'⟩, moved, same⟩ := Option.map_eq_some_iff.mp advanced
    cases same
    refine keeps_revoke shared own rest (fun deleted _ => ?_) moved
    subst deleted
    exact settled rfl
  · obtain ⟨⟨s₁, stage'⟩, moved, same⟩ := Option.map_eq_some_iff.mp advanced
    cases same
    refine keeps_revoke shared own rest ?_ moved
    intro _ resumed
    cases resumed
  · cases advanced
    exact ⟨keeps_eviction shared, trivial, fun q member => (rest q member).other rfl id⟩
  · cases advanced

/-- Where no stale answer is on its way when the caches are cleared, no request
that starts after `revoke_access` has returned decides on one. -/
theorem undecided_of_settled {processes : List LookupProcess}
    {turns : List (Processes.Turn LookupInput)} {final : Processes.State Lookups LookupProcess}
    (initial : ∀ p ∈ processes, p.Initial)
    (along : (lookups settings authService userId fundId).system.Along
      (Processes.When (Settled authService userId fundId)) ⟨{}, processes⟩ turns)
    (ran : (lookups settings authService userId fundId).system.run ⟨{}, processes⟩ turns =
      some final) :
    ∀ r, .request r ∈ final.processes → r.after = some true →
      ∀ d ∈ r.decisions, d.stale = false := by
  have kept : ∀ s turn next, Processes.Holds (Lookups.Kept userId fundId)
      (LookupProcess.Kept userId fundId) (fun _ _ => True) s →
      Processes.When (Settled authService userId fundId) s turn →
      (lookups settings authService userId fundId).system.step s turn = some next →
      Processes.Holds (Lookups.Kept userId fundId) (LookupProcess.Kept userId fundId)
        (fun _ _ => True) next := by
    intro s turn next holds met stepped
    refine Processes.step_keeps (fun _ _ _ => trivial) ?_ holds met stepped
    intro s s' others p p' input shared own rest met advanced
    obtain ⟨shared', own', rest'⟩ :=
      keeps_advance shared own (fun q member => (rest q member).1) met advanced
    exact ⟨shared', own', fun q member => ⟨rest' q member, trivial⟩⟩
  have start : Processes.Holds (Lookups.Kept userId fundId) (LookupProcess.Kept userId fundId)
      (fun _ _ => True) ⟨{}, processes⟩ :=
    ⟨⟨nofun, nofun, nofun⟩, fun p member => (initial p member).kept,
      List.pairwise_of_forall fun _ _ => trivial⟩
  have holds := System.invariant_along kept along ran start
  intro r member later
  exact ((holds.each _ member).2.2 later).2.decisions

end Runs

/-! ## An answer that is stored too late -/

section Late

/-- A user that logs in to the fund of its own customer. -/
def login : LookupProcess := .request { todo := [.authenticateJwt ⟨"hash", some "alpha", none⟩] }

def resumed (index : Nat) : Processes.Turn LookupInput := ⟨index, .reply .resumed⟩

/-- The turns of a login that nobody answers from a cache, up to the answer of
the relation store. -/
def askedTurns (index : Nat) (relations : List String) : List (Processes.Turn LookupInput) :=
  [resumed index, ⟨index, .reply (.identified (openUser "customer") "alpha" (openFund "customer"))⟩,
    ⟨index, .reply (.relations relations fun _ => false)⟩]

def storedTurns (index : Nat) : List (Processes.Turn LookupInput) :=
  [resumed index, ⟨index, .reply (.edges (openAnswers "customer" "customer" []) 0)⟩]

def revokeTurns (index : Nat) : List (Processes.Turn LookupInput) :=
  [resumed index, resumed index, resumed index, resumed index]

def logins : Processes Lookups LookupProcess LookupInput :=
  lookups (openSettings true) true "user" "fund"

/-- The relation is revoked before the login. -/
def revokedFirst : List (Processes.Turn LookupInput) :=
  revokeTurns 0 ++ askedTurns 1 ["viewer"] ++ storedTurns 1

theorem undecided_of_revokedFirst : ∃ final,
    logins.system.run ⟨{}, [.revoke .fetching, login]⟩ revokedFirst = some final ∧
    ∀ r, .request r ∈ final.processes → r.after = some true →
      ∀ d ∈ r.decisions, d.stale = false := by
  have initial : ∀ p ∈ [.revoke .fetching, login], p.Initial := by
    simp [login, LookupProcess.Initial]
  have along : logins.system.Along (Processes.When (Settled true "user" "fund"))
      ⟨{}, [.revoke .fetching, login]⟩ revokedFirst := by decide +kernel
  have ends : (logins.system.run ⟨{}, [.revoke .fetching, login]⟩ revokedFirst).isSome := by
    decide +kernel
  obtain ⟨final, ran⟩ := Option.isSome_iff_exists.mp ends
  exact ⟨final, ran, undecided_of_settled initial along ran⟩

/-- The first login asks before the relation is deleted and stores the answer
after the caches are cleared; the second, after `revoke_access` has returned,
finds it. -/
theorem late_answer_served : ∃ final r d,
    logins.system.run ⟨{}, [login, .revoke .fetching, login]⟩
      (askedTurns 0 ["admin"] ++ revokeTurns 1 ++ storedTurns 0 ++ [resumed 2]) = some final ∧
    .request r ∈ final.processes ∧ r.after = some true ∧ d ∈ r.decisions ∧ d.stale = true ∧
    ∃ context, d.value = .context context ∧ context.roles = ["admin"] :=
  ⟨_, _, _, rfl, .tail _ (.tail _ (.head _)), rfl, .head _, rfl, _, rfl, rfl⟩

/-- A login that is answered by OpenFGA with what it holds. -/
def heldTurns (index : Nat) (relations : List String) : List (Processes.Turn LookupInput) :=
  [resumed index, ⟨index, .reply (.identified (openUser "customer") "alpha" (openFund "customer"))⟩,
    ⟨index, .reply (.relations relations fun _ => true)⟩]

/-- With nobody on the way, OpenFGA may still hold the answer of a login before. -/
example : ∃ final r d,
    logins.system.run ⟨{}, [login, .revoke .fetching, login]⟩
      (askedTurns 0 ["admin"] ++ storedTurns 0 ++ revokeTurns 1 ++ heldTurns 2 ["admin"] ++
        storedTurns 2) = some final ∧
    .request r ∈ final.processes ∧ r.after = some true ∧ d ∈ r.decisions ∧ d.stale = true :=
  ⟨_, _, _, rfl, .tail _ (.tail _ (.head _)), rfl, .head _, rfl⟩

end Late

end MiniHedge.Auth
