import MiniHedge.Library.Interleaving
import MiniHedge.Library.Caches
import MiniHedge.Auth.Orchestrator

/-! Requests that look up access while others do, from one `await` to the next.

One relation of a user on a fund may be deleted meanwhile. An answer of OpenFGA
carries whether it goes back to a time when the relation was there: OpenFGA has
a check cache of its own, whose answers it reuses for 30 seconds, also for parts
of other questions, and which no deletion clears. What is about other users or
funds does not depend on the relation: the relations on a fund come from the
tuples of that fund, and a check from those of its subject.
-/

set_option autoImplicit false

namespace MiniHedge.Auth

open MiniHedge.Python MiniHedge.Library

/-- Who a check is for: `user:…`, `operator:…` or `investor:…`. -/
inductive Subject where
  | user (id : String)
  | operator (id : String)
  | investor (id : String)
  deriving DecidableEq, Repr

structure CheckKey where
  subject : Subject
  relation : String
  object : String
  deriving DecidableEq, Repr

/-- What OpenFGA is asked. Listing relations or objects is made of checks. -/
inductive Question where
  | objects (userId : String)
  | relations (key : AccessKey)
  | check (key : CheckKey)
  deriving DecidableEq, Repr

/-- An answer that OpenFGA holds. -/
structure CachedAnswer where
  question : Question
  stale : Bool
  deriving DecidableEq, Repr

/-- The caches of the process, that of OpenFGA, and what has become of the relation. -/
structure Lookups where
  access : Memo AccessKey Access := .empty
  ctx : Memo CtxKey RequestContext := .empty
  checks : Memo CheckKey Bool := .empty
  openfga : List CachedAnswer := []
  granted : Bool := true
  /-- The caches have been cleared after the relation was deleted. -/
  cleared : Bool := false
  /-- `revoke_access` has returned. -/
  returned : Bool := false

section Concerned

variable (userId fundId : String)

/-- The relation of the user on the fund matters for the entry. -/
def concernsAccess (key : AccessKey) : Bool := key.userId = userId && key.fundId = fundId

def concernsCheck (key : CheckKey) : Bool := key.subject = .user userId

def Question.concerns : Question → Bool
  | .objects user => user = userId
  | .relations key => concernsAccess userId fundId key
  | .check key => concernsCheck userId key

/-- The answer goes back to the relation. -/
def CachedAnswer.outdated (answer : CachedAnswer) : Bool :=
  answer.stale && answer.question.concerns userId fundId

/-- OpenFGA answers, with some of what it holds, and holds the answer: whether it is stale. -/
def Lookups.evaluate (s : Lookups) (question : Question) (reused : Question → Bool) :
    Lookups × Bool :=
  let stale := s.granted ||
    s.openfga.any fun answer => reused answer.question && answer.outdated userId fundId
  ({ s with openfga := ⟨question, stale⟩ :: s.openfga.filter (·.question ≠ question) }, stale)

theorem concernsCheck_investor (investorId relation object : String) :
    concernsCheck userId ⟨.investor investorId, relation, object⟩ = false := rfl

end Concerned

/-- What a request calls, one after the other. -/
inductive Operation where
  | initRequestFgaCache
  | authenticateJwt (key : CtxKey)
  | resolveFundAccess (userId fundId : String) (customerId : Option String)
  | check (key : CheckKey)
  deriving DecidableEq, Repr

/-- An authentication that has found its user and its fund. -/
structure Identification where
  key : CtxKey
  /-- The fund was discovered through the relation. -/
  stale : Bool
  user : UserRecord
  fundSlug : String
  fund : FundRecord
  deriving DecidableEq, Repr

/-- Where a request waits. -/
inductive LookupStage where
  | ready
  /-- For Keycloak, the users and the funds. -/
  | identifying (key : CtxKey) (stale : Bool)
  /-- For `list_relations`, for an authentication or on its own. -/
  | asking (key : AccessKey) (identification : Option Identification)
  | answered (key : AccessKey) (identification : Option Identification) (access : Dated Access)
  /-- For the servicing edge. -/
  | delegating (identification : Identification) (access : Dated Access)
  /-- For `check`, for the context of an investor or on its own. -/
  | checking (key : CheckKey) (context : Option (CtxKey × RequestContext))
  | checked (key : CheckKey) (context : Option (CtxKey × RequestContext)) (allowed : Dated Bool)
  deriving DecidableEq, Repr

inductive Outcome where
  | context (context : RequestContext)
  | access (access : Access)
  | allowed (allowed : Bool)
  deriving DecidableEq, Repr

structure Request where
  todo : List Operation
  stage : LookupStage := .ready
  requestFgaCache : Option (Memo CheckKey Bool) := none
  /-- Once it has started: whether `revoke_access` had returned by then. -/
  after : Option Bool := none
  decisions : List (Dated Outcome) := []

/-- What ends the wait of a request, and the cached answers that OpenFGA reuses. -/
inductive Reply where
  | resumed
  | raised
  /-- `list_objects` is evaluated for the user. -/
  | discovered (userId : String) (reused : Question → Bool)
  | identified (user : UserRecord) (fundSlug : String) (fund : FundRecord)
  /-- The context rests on no relation of the user: operators, investors without
  a fund, tokens of the application. -/
  | unrelated (context : RequestContext)
  | investor (investorId fundId : String) (context : RequestContext)
  /-- `list_relations` is evaluated. -/
  | relations (relations : List String) (reused : Question → Bool)
  /-- `check` is evaluated. -/
  | allowed (allowed : Bool) (reused : Question → Bool)
  | edges (answers : Answers) (now : Datetime)

namespace Request

variable (settings : Settings) (userId fundId : String)

def conclude (r : Request) (outcome : Outcome) (stale : Bool) : Request :=
  { r with stage := .ready, decisions := r.decisions ++ [⟨outcome, stale⟩] }

/-- The exception leaves the request. -/
def raise (r : Request) : Request := { r with stage := .ready, todo := [] }

def storeContext (s : Lookups) (r : Request) (key : CtxKey) (context : Dated RequestContext) :
    Lookups × Request :=
  ({ s with ctx := s.ctx.store key context }, r.conclude (.context context.value) context.stale)

/-- `resolve_fund_access` returns. -/
def receiveAccess (r : Request) (identification : Option Identification) (access : Dated Access) :
    Request :=
  match identification with
  | none => r.conclude (.access access.value) access.stale
  | some identification =>
    if access.value.roles = [] ∧ access.value.permissions = [] then r.raise
    else { r with stage := .delegating identification access }

def lookupAccess (s : Lookups) (r : Request) (key : AccessKey)
    (identification : Option Identification) : Request :=
  match s.access key with
  | some cached => r.receiveAccess identification (cached.about (concernsAccess userId fundId key))
  | none => { r with stage := .asking key identification }

/-- `FGAClient.check` returns. -/
def receiveCheck (s : Lookups) (r : Request) (context : Option (CtxKey × RequestContext))
    (allowed : Dated Bool) : Lookups × Request :=
  match context with
  | none => (s, r.conclude (.allowed allowed.value) allowed.stale)
  | some (key, context) =>
    if allowed.value then r.storeContext s key ⟨context, allowed.stale⟩ else (s, r.raise)

def rememberCheck (r : Request) (key : CheckKey) (allowed : Dated Bool) : Request :=
  { r with requestFgaCache := r.requestFgaCache.map fun memo => memo.store key allowed }

def lookupCheck (s : Lookups) (r : Request) (key : CheckKey)
    (context : Option (CtxKey × RequestContext)) : Lookups × Request :=
  match r.requestFgaCache.bind fun memo => memo key with
  | some cached => r.receiveCheck s context (cached.about (concernsCheck userId key))
  | none =>
    match s.checks key with
    | some cached =>
      (r.rememberCheck key cached).receiveCheck s context (cached.about (concernsCheck userId key))
    | none => (s, { r with stage := .checking key context })

/-- The next call, up to its first `await`. -/
def begin (s : Lookups) (r : Request) : Option (Lookups × Request) :=
  match r.todo with
  | [] => none
  | operation :: todo =>
    let r := { r with todo, after := some (r.after.getD s.returned) }
    match operation with
    | .initRequestFgaCache => some (s, { r with requestFgaCache := some .empty })
    | .authenticateJwt key =>
      match s.ctx key with
      | some cached => some (s, r.conclude (.context cached.value) cached.stale)
      | none => some (s, { r with stage := .identifying key false })
    | .resolveFundAccess user fund customerId =>
      some (s, r.lookupAccess userId fundId s (accessKey user fund customerId) none)
    | .check key => some (r.lookupCheck userId s key none)

def advance (s : Lookups) (r : Request) (reply : Reply) : Option (Lookups × Request) :=
  match r.stage, reply with
  | .ready, .resumed => r.begin userId fundId s
  | .ready, _ => none
  | _, .raised => some (s, r.raise)
  | .identifying key stale, .discovered user reused =>
    let answer := s.evaluate userId fundId (.objects user) reused
    some (answer.1, { r with stage := .identifying key (stale || (answer.2 && user = userId)) })
  | .identifying key stale, .identified user fundSlug fund =>
    some (s, r.lookupAccess userId fundId s (accessKey user.id fund.id fund.customerId)
      (some ⟨key, stale, user, fundSlug, fund⟩))
  | .identifying key stale, .unrelated context => some (r.storeContext s key ⟨context, stale⟩)
  | .identifying key _, .investor investorId fund context =>
    some (r.lookupCheck userId s ⟨.investor investorId, "can_read", "fund:" ++ fund⟩ (some (key, context)))
  | .asking key identification, .relations relations reused =>
    let answer := s.evaluate userId fundId (.relations key) reused
    some (answer.1,
      { r with stage := .answered key identification ⟨accessOf relations, answer.2⟩ })
  | .answered key identification access, .resumed =>
    some ({ s with access := s.access.store key access },
      r.receiveAccess identification (access.about (concernsAccess userId fundId key)))
  | .delegating i access, .edges answers now =>
    match delegate settings answers now i.key.actingAsCustomerId
        ⟨i.user, i.fundSlug, i.fund, access.value⟩ with
    | .error _ => some (s, r.raise)
    | .ok context => some (r.storeContext s i.key ⟨context, i.stale || access.stale⟩)
  | .checking key context, .allowed allowed reused =>
    let answer := s.evaluate userId fundId (.check key) reused
    some (answer.1, { r with stage := .checked key context ⟨allowed, answer.2⟩ })
  | .checked key context allowed, .resumed =>
    some ((r.rememberCheck key allowed).receiveCheck
      { s with checks := s.checks.store key allowed } context
      (allowed.about (concernsCheck userId key)))
  | _, _ => none

end Request

end MiniHedge.Auth
