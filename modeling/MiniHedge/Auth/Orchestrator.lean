import MiniHedge.Library.Caches
import MiniHedge.Auth.Tokens
import Mathlib.Data.List.Infix

/-! `AuthService`: who a token is for and what it may do.

What Keycloak, the repositories and the relation store answer during a call is
one record; the caches are the state that a call leaves behind, also when it
fails. Writes of the repositories (the synchronisation of users) are not read
back here.
-/

set_option autoImplicit false

namespace MiniHedge.Auth

open MiniHedge.Python MiniHedge.Library

/-! ## Records and answers -/

structure UserRecord where
  id : String
  customerId : Option String
  isActive : Bool := true
  deriving DecidableEq, Repr

inductive FundStatus where
  | active
  | inactive
  | offboarded
  deriving DecidableEq, Repr

structure FundRecord where
  id : String
  customerId : Option String
  slug : String
  status : FundStatus := .active
  deriving DecidableEq, Repr

inductive ServicingEdgeStatus where
  | active
  | suspended
  | terminated
  deriving DecidableEq, Repr

structure ServicingEdgeRecord where
  adminCustomerId : String
  clientCustomerId : String
  scopedRoles : List String
  status : ServicingEdgeStatus := .active
  effectiveFrom : Datetime
  effectiveUntil : Option Datetime := none
  deriving DecidableEq, Repr

structure OperatorRecord where
  id : String
  isActive : Bool := true
  deriving DecidableEq, Repr

structure InvestorRecord where
  id : String
  isActive : Bool := true
  deriving DecidableEq, Repr

/-- The calls of the relation store; an open circuit is an error. -/
structure FgaClient where
  listRelations (user object : String) (relations : List String) : Except AuthError (List String)
  listObjects (user relation type : String) : Except AuthError (List String)
  check (user relation object : String) : Except AuthError Bool

structure Answers where
  keycloak : Except AuthError Unit := .ok ()
  upsertUser : KeycloakClaims → Except AuthError UserRecord
  getFundBySlug : String → Option FundRecord
  getFundById : String → Option FundRecord
  servicingEdges : List ServicingEdgeRecord
  fga : Option FgaClient
  upsertOperator : KeycloakClaims → Except AuthError OperatorRecord
  /-- The investor with the subject or the email, where investors are configured. -/
  investor : Option (KeycloakClaims → Option InvestorRecord)

def ServicingEdgeRecord.Active (edge : ServicingEdgeRecord) (now : Datetime) : Prop :=
  edge.status = .active ∧ edge.effectiveFrom ≤ now ∧ ∀ until_ ∈ edge.effectiveUntil, now < until_

instance (edge : ServicingEdgeRecord) (now : Datetime) : Decidable (edge.Active now) :=
  inferInstanceAs (Decidable (_ ∧ _ ∧ _))

def getActiveEdge (edges : List ServicingEdgeRecord) (admin client : String) (now : Datetime) :
    Option ServicingEdgeRecord :=
  edges.find? fun edge =>
    edge.adminCustomerId = admin ∧ edge.clientCustomerId = client ∧ edge.Active now

theorem getActiveEdge_some {edges : List ServicingEdgeRecord} {admin client : String}
    {now : Datetime} {edge : ServicingEdgeRecord}
    (found : getActiveEdge edges admin client now = some edge) :
    edge ∈ edges ∧ edge.adminCustomerId = admin ∧ edge.clientCustomerId = client ∧
      edge.Active now := by
  have fits := List.find?_some found
  simp only [decide_eq_true_eq] at fits
  exact ⟨List.mem_of_find?_eq_some found, fits⟩

/-! ## Calls on the caches -/

structure CtxKey where
  tokenHash : String
  fundSlug : Option String
  actingAsCustomerId : Option String
  deriving DecidableEq, Repr

structure AccessKey where
  userId : String
  fundId : String
  customerId : String
  deriving DecidableEq, Repr

/-- The roles and the permissions on a fund. -/
structure Access where
  roles : List String
  permissions : List Permission
  deriving DecidableEq, Repr

structure Caches where
  users : TtlCache String UserRecord := []
  funds : TtlCache String FundRecord := []
  access : TtlCache AccessKey Access := []
  ctx : TtlCache CtxKey RequestContext := []
  deriving DecidableEq, Repr

def Call (α : Type) := Caches → Except AuthError α × Caches

namespace Call

variable {α β : Type}

def error (e : AuthError) : Call α := fun c => (.error e, c)

/-- A computation that touches no cache. -/
def of (result : Except AuthError α) : Call α := fun c => (result, c)

def bind (x : Call α) (f : α → Call β) : Call β := fun c =>
  match x c with
  | (.ok a, c') => f a c'
  | (.error e, c') => (.error e, c')

instance : Monad Call where
  pure a := fun c => (.ok a, c)
  bind := bind

variable {c c' : Caches} {a : α} {b : β}

theorem bind_ok {x : Call α} {f : α → Call β} (ran : (x >>= f) c = (.ok b, c')) :
    ∃ a c₁, x c = (.ok a, c₁) ∧ f a c₁ = (.ok b, c') := by
  change bind x f c = _ at ran
  unfold bind at ran
  split at ran
  · rename_i a c₁ first
    exact ⟨a, c₁, first, ran⟩
  · cases ran

theorem bind_eq {x : Call α} {f : α → Call β} (first : x c = (.ok a, c')) :
    (x >>= f) c = f a c' := by
  change bind x f c = _
  simp only [bind, first]

theorem of_ok {result : Except AuthError α} (ran : of result c = (.ok a, c')) :
    result = .ok a ∧ c' = c := by
  simp only [of, Prod.mk.injEq] at ran
  exact ⟨ran.1, ran.2.symm⟩

theorem error_ne_ok {e : AuthError} (ran : (error e : Call α) c = (.ok a, c')) : False := by
  cases ran

end Call

/-! ## Access to a fund -/

def qualifyObjectId (typeName resourceId : String) (customerId : Option String) : String :=
  match given customerId with
  | some customer =>
    if typeName = "platform" then typeName ++ ":" ++ resourceId
    else typeName ++ ":" ++ customer ++ "/" ++ resourceId
  | none => typeName ++ ":" ++ resourceId

/-- `object_id.rsplit("/", 1)[-1]`. -/
def unqualifyObjectId (objectId : String) : String :=
  String.ofList ((split '/' objectId.toList).getLastD [])

def accessKey (userId fundId : String) (customerId : Option String) : AccessKey :=
  ⟨userId, fundId, (given customerId).getD "__none__"⟩

def accessOf (relations : List String) : Access where
  roles := relations.filter (· ∈ fundUserRoles)
  permissions := relations.filterMap fun relation => fgaPermissionMap.lookup relation

def resolveFundAccess (answers : Answers) (now : Datetime) (userId fundId : String)
    (customerId : Option String) : Call Access := fun c =>
  match c.access.get now (accessKey userId fundId customerId) with
  | some cached => (.ok cached, c)
  | none =>
    match answers.fga with
    | none => (.ok ⟨[], []⟩, c)
    | some fga =>
      match fga.listRelations ("user:" ++ userId) (qualifyObjectId "fund" fundId customerId)
          (fundUserRoles ++ fgaFundPermissions) with
      | .error e => (.error e, c)
      | .ok relations =>
        let access := accessOf relations
        (.ok access,
          { c with access := c.access.set (now + seconds 30) (accessKey userId fundId customerId) access })

def listFundIds (fga : FgaClient) (user : String) : Except AuthError (List String) :=
  (fga.listObjects user "can_read" "fund").map fun qualified =>
    (qualified.map unqualifyObjectId).mergeSort (· ≤ ·)

/-! ## Users of a fund -/

section Users

variable (settings : Settings) (answers : Answers) (now : Datetime)

def decodeKeycloak (realm : Realm) (token : Token) : Call KeycloakClaims :=
  if settings.keycloakUrl = "" then
    .error (.authentication "Identity provider not configured" "IDP_UNAVAILABLE")
  else do
    Call.of answers.keycloak
    Call.of (settings.decodeKeycloakToken realm now token)

def syncUser (claims : KeycloakClaims) : Call UserRecord := fun c =>
  match c.users.get now claims.sub with
  | some cached => (.ok cached, c)
  | none =>
    match answers.upsertUser claims with
    | .error e => (.error e, c)
    | .ok user => (.ok user, { c with users := c.users.set (now + seconds 60) claims.sub user })

def noFundAccess : AuthError := .authorization "No fund access" "NO_FUND_ACCESS"

def fundInactive : AuthError := .authorization "Fund inactive" "FUND_INACTIVE"

def fundNotFound : AuthError := .authorization "Fund not found" "FUND_NOT_FOUND"

def userInactive : AuthError := .authorization "User account is inactive" "USER_INACTIVE"

/-- Without a slug, the first fund that the user can read. -/
def discoverFund (user : UserRecord) : Except AuthError FundRecord :=
  match answers.fga with
  | none => .error (.authentication "Authorization service unavailable" "FGA_UNAVAILABLE")
  | some fga =>
    match listFundIds fga ("user:" ++ user.id) with
    | .error e => .error e
    | .ok [] => .error noFundAccess
    | .ok (fundId :: _) =>
      match answers.getFundById fundId with
      | none => .error fundInactive
      | some fund => if fund.status = .active then .ok fund else .error fundInactive

def lookupFund (fundSlug : String) : Call FundRecord := fun c =>
  match c.funds.get now fundSlug with
  | some cached => if cached.status = .active then (.ok cached, c) else (.error fundInactive, c)
  | none =>
    match answers.getFundBySlug fundSlug with
    | none => (.error fundNotFound, c)
    | some fund =>
      let c := { c with funds := c.funds.set (now + seconds 120) fundSlug fund }
      if fund.status = .active then (.ok fund, c) else (.error fundInactive, c)

/-- The user, the fund and the access to it, before customers are compared. -/
structure Identified where
  user : UserRecord
  fundSlug : String
  fund : FundRecord
  access : Access
  deriving DecidableEq, Repr

def identify (token : Token) (fundSlug actingAsCustomerId : Option String) : Call Identified := do
  let claims ← decodeKeycloak settings answers now (settings.resolveFundRealm actingAsCustomerId) token
  let user ← syncUser answers now claims
  if ¬ user.isActive then Call.error userInactive
  else do
    let fund ← match fundSlug with
      | none => Call.of (discoverFund answers user)
      | some fundSlug => lookupFund answers now fundSlug
    let access ← resolveFundAccess answers now user.id fund.id fund.customerId
    if access.roles = [] ∧ access.permissions = [] then Call.error noFundAccess
    else pure ⟨user, fundSlug.getD fund.slug, fund, access⟩

def noServicingEdge : AuthError := .authorization "No servicing relationship" "NO_SERVICING_EDGE"

/-- The context of a user in the fund: `X-Acting-As`, when it is given, takes
the place of the fund's own customer. -/
def delegate (actingAsCustomerId : Option String) (found : Identified) :
    Except AuthError RequestContext :=
  let target := (given actingAsCustomerId).or found.fund.customerId
  let context : RequestContext := {
    actorId := found.user.id
    actorType := .user
    customerId := target
    homeCustomerId := found.user.customerId
    fundSlug := some found.fundSlug
    fundId := some found.fund.id
    roles := found.access.roles
    permissions := found.access.permissions }
  match given found.user.customerId, given target with
  | some home, some client =>
    if home ≠ client ∧ settings.servicingEdgeRepo then
      match getActiveEdge answers.servicingEdges home client now with
      | none => .error noServicingEdge
      | some edge =>
        let roles := found.access.roles.filter (· ∈ edge.scopedRoles)
        .ok { context with
          roles
          permissions := resolvePermissions roles
          actingAsCustomerId := target }
    else .ok context
  | _, _ => .ok context

def authenticateKeycloak (token : Token) (fundSlug actingAsCustomerId : Option String) :
    Call RequestContext := do
  let found ← identify settings answers now token fundSlug actingAsCustomerId
  Call.of (delegate settings answers now actingAsCustomerId found)

end Users

/-! ## Operators and investors -/

section Others

variable (settings : Settings) (answers : Answers) (now : Datetime)

def operatorContext (operator : OperatorRecord) (platformRoles : List String) :
    Except AuthError RequestContext :=
  match platformRoles with
  | [] => .error (.authorization "No platform role assigned" "NO_PLATFORM_ROLE")
  | first :: _ =>
    let platformRole := if "ops_admin" ∈ platformRoles then "ops_admin" else first
    .ok {
      actorId := operator.id
      actorType := .operator
      platformRole := some platformRole
      roles := platformRoles
      permissions := ((PlatformRole.parse platformRole).map PlatformRole.permissions).getD [] }

def authenticateKeycloakOperator (token : Token) : Call RequestContext := do
  let claims ← decodeKeycloak settings answers now settings.opsRealm token
  let operator ← Call.of (answers.upsertOperator claims)
  if ¬ operator.isActive then
    Call.error (.authorization "Operator account is inactive" "USER_INACTIVE")
  else do
    let platformRoles ← Call.of (match answers.fga with
      | none => .ok []
      | some fga => fga.listRelations ("operator:" ++ operator.id) "platform:global"
          ["ops_admin", "ops_viewer"])
    Call.of (operatorContext operator platformRoles)

/-- The fund of an investor: the one asked for, else the first that can be read. -/
def investorFund (investor : InvestorRecord) (fundSlug : Option String) :
    Except AuthError (Option FundRecord) :=
  match given fundSlug with
  | some fundSlug =>
    match answers.getFundBySlug fundSlug with
    | none => .error fundNotFound
    | some fund =>
      if fund.status ≠ .active then .error fundNotFound
      else match answers.fga with
        | none => .ok (some fund)
        | some fga =>
          match fga.check ("investor:" ++ investor.id) "can_read" ("fund:" ++ fund.id) with
          | .error e => .error e
          | .ok true => .ok (some fund)
          | .ok false => .error fundNotFound
  | none =>
    match answers.fga with
    | none => .ok none
    | some fga =>
      match listFundIds fga ("investor:" ++ investor.id) with
      | .error e => .error e
      | .ok [] => .ok none
      | .ok (fundId :: _) =>
        .ok ((answers.getFundById fundId).filter (·.status = .active))

def investorContext (investor : InvestorRecord) (fundSlug : Option String)
    (fund : Option FundRecord) : RequestContext where
  actorId := investor.id
  actorType := .investor
  customerId := fund.bind (·.customerId)
  homeCustomerId := fund.bind (·.customerId)
  fundSlug := (given fundSlug).or ((fund.map (·.slug)).or fundSlug)
  fundId := fund.map (·.id)
  roles := ["investor"]
  permissions := resolvePermissions ["investor"]

def authenticateKeycloakInvestor (token : Token) (fundSlug : Option String) : Call RequestContext :=
  match answers.investor with
  | none => .error (.authentication
      (if settings.keycloakUrl = "" then "Identity provider not configured"
        else "Investor auth not configured") "IDP_UNAVAILABLE")
  | some lookup => do
    let claims ← decodeKeycloak settings answers now settings.investorsRealm token
    match lookup claims with
    | none => Call.error (.authorization "Investor account not found" "INVESTOR_NOT_FOUND")
    | some investor =>
      if ¬ investor.isActive then Call.error userInactive
      else do
        let fund ← Call.of (investorFund answers investor fundSlug)
        pure (investorContext investor fundSlug fund)

end Others

/-! ## `authenticate_jwt` -/

/-- Which way a token takes. -/
inductive TokenKind where
  | operator
  | investor
  | fundUser
  | application
  deriving DecidableEq, Repr

def isRealmOf (realm : Realm) (issuer : String) : Bool :=
  realm.realm ≠ "" ∧ ("/realms/" ++ realm.realm).toList <:+: issuer.toList

def Settings.kind (settings : Settings) (token : Token) : Except AuthError TokenKind :=
  match settings.jwt.alg token with
  | none => .error invalidToken
  | some (some "RS256") =>
    match settings.jwt.payload token with
    | none => .error invalidToken
    | some p =>
      if isRealmOf settings.opsRealm p.iss then .ok .operator
      else if isRealmOf settings.investorsRealm p.iss then .ok .investor
      else .ok .fundUser
  | some _ => .ok .application

section Authenticate

variable (settings : Settings) (answers : Answers) (now : Datetime)

/-- What a call does that is not answered from the context cache. -/
def authenticateFresh (token : Token) (fundSlug actingAsCustomerId : Option String) :
    Call RequestContext := do
  match ← Call.of (settings.kind token) with
  | .operator => authenticateKeycloakOperator settings answers now token
  | .investor => authenticateKeycloakInvestor settings answers now token fundSlug
  | .fundUser => authenticateKeycloak settings answers now token fundSlug actingAsCustomerId
  | .application => do
    let claims ← Call.of (settings.jwt.decodeAppToken now token)
    pure claims.context

/-- `digest` is the hash of the signature segment. -/
def ctxKey (digest : String → String) (token : Token)
    (fundSlug actingAsCustomerId : Option String) : CtxKey :=
  ⟨digest token.signature, fundSlug, actingAsCustomerId⟩

def authenticateJwt (digest : String → String) (token : Token)
    (fundSlug actingAsCustomerId : Option String) : Call RequestContext := fun c =>
  let key := ctxKey digest token fundSlug actingAsCustomerId
  match c.ctx.get now key with
  | some cached => (.ok cached, c)
  | none =>
    match authenticateFresh settings answers now token fundSlug actingAsCustomerId c with
    | (.error e, c') => (.error e, c')
    | (.ok context, c') => (.ok context, { c' with ctx := c'.ctx.set (now + seconds 300) key context })

end Authenticate

end MiniHedge.Auth
