import MiniHedge.Auth.Orchestrator

/-! Access to the funds of other customers.

Three customers meet: the user's own, the owner of the fund and the one that the
request acts as. The servicing edge is looked up from the first to the third, so
that it is the owner's only when the request acts as the owner or as nobody.
-/

set_option autoImplicit false

namespace MiniHedge.Auth

open MiniHedge.Python MiniHedge.Library

/-- An active edge from the one customer to the other allows what the context may do. -/
def Serviced (answers : Answers) (now : Datetime) (home owner : String)
    (context : RequestContext) : Prop :=
  ∃ edge ∈ answers.servicingEdges, edge.adminCustomerId = home ∧ edge.clientCustomerId = owner ∧
    edge.Active now ∧ context.roles ⊆ edge.scopedRoles ∧
      context.permissions ⊆ resolvePermissions edge.scopedRoles

/-- The edge that is looked up is the one to the owner of the fund. -/
def ChecksOwner (servicingEdgeRepo : Bool) (owner : String) (actingAsCustomerId : Option String) :
    Prop :=
  servicingEdgeRepo = true ∧ ∀ actingAs ∈ given actingAsCustomerId, actingAs = owner

instance (servicingEdgeRepo : Bool) (owner : String) (actingAsCustomerId : Option String) :
    Decidable (ChecksOwner servicingEdgeRepo owner actingAsCustomerId) :=
  inferInstanceAs (Decidable (_ ∧ _))

variable {settings : Settings} {answers : Answers} {now : Datetime} {home owner : String}
  {actingAsCustomerId : Option String} {found : Identified} {context : RequestContext}

theorem given_ne_empty {text : Option String} {value : String} (same : given text = some value) :
    text = some value ∧ value ≠ "" := by
  obtain ⟨had, kept⟩ := Option.filter_eq_some_iff.mp same
  exact ⟨had, by simpa using kept⟩

theorem delegate_serviced (apart : home ≠ owner) (homeGiven : home ≠ "") (ownerGiven : owner ≠ "")
    (user : found.user.customerId = some home) (fund : found.fund.customerId = some owner)
    (checks : ChecksOwner settings.servicingEdgeRepo owner actingAsCustomerId)
    (delegated : delegate settings answers now actingAsCustomerId found = .ok context) :
    Serviced answers now home owner context := by
  have target : (given actingAsCustomerId).or found.fund.customerId = some owner := by
    rw [fund]
    cases acting : given actingAsCustomerId with
    | none => rfl
    | some actingAs => rw [checks.2 actingAs acting, Option.some_or]
  simp only [delegate, target, user, given_some homeGiven, given_some ownerGiven, checks.1] at delegated
  rw [if_pos ⟨apart, trivial⟩] at delegated
  split at delegated
  · cases delegated
  · rename_i edge looked
    cases delegated
    obtain ⟨member, admin, client, active⟩ := getActiveEdge_some looked
    have within : found.access.roles.filter (· ∈ edge.scopedRoles) ⊆ edge.scopedRoles := fun role held =>
      of_decide_eq_true (List.mem_filter.mp held).2
    exact ⟨edge, member, admin, client, active, within, resolvePermissions_mono within⟩

theorem authenticateFresh_fundUser {token : Token} {fundSlug : Option String} {c c' : Caches}
    (kind : settings.kind token = .ok .fundUser)
    (authenticated : authenticateFresh settings answers now token fundSlug actingAsCustomerId c =
      (.ok context, c')) :
    ∃ found, identify settings answers now token fundSlug actingAsCustomerId c = (.ok found, c') ∧
      delegate settings answers now actingAsCustomerId found = .ok context := by
  obtain ⟨kind', c₁, first, second⟩ := Call.bind_ok authenticated
  obtain ⟨same, rfl⟩ := Call.of_ok first
  cases kind.symm.trans same
  obtain ⟨found, c₂, identified, last⟩ := Call.bind_ok second
  obtain ⟨delegated, rfl⟩ := Call.of_ok last
  exact ⟨found, identified, delegated⟩

/-- Whatever the stores answer: a user of the one customer gets a context for a
fund of the other only under an active edge, and then no more than it allows. -/
def RequiresServicing (servicingEdgeRepo : Bool) (home owner : String)
    (actingAsCustomerId : Option String) : Prop :=
  ∀ (settings : Settings) (digest : String → String) (answers : Answers) (now : Datetime)
    (token : Token) (fundSlug : Option String) (c c₁ c₂ : Caches) (found : Identified)
    (context : RequestContext), settings.servicingEdgeRepo = servicingEdgeRepo →
    settings.kind token = .ok .fundUser →
    c.ctx.get now (ctxKey digest token fundSlug actingAsCustomerId) = none →
    identify settings answers now token fundSlug actingAsCustomerId c = (.ok found, c₁) →
    found.user.customerId = some home → found.fund.customerId = some owner →
    authenticateJwt settings answers now digest token fundSlug actingAsCustomerId c =
      (.ok context, c₂) →
    Serviced answers now home owner context

theorem authenticateJwt_fresh {digest : String → String} {token : Token}
    {fundSlug : Option String} {c c' : Caches}
    (missed : c.ctx.get now (ctxKey digest token fundSlug actingAsCustomerId) = none)
    (authenticated : authenticateJwt settings answers now digest token fundSlug actingAsCustomerId c =
      (.ok context, c')) :
    ∃ c₁, authenticateFresh settings answers now token fundSlug actingAsCustomerId c =
      (.ok context, c₁) := by
  simp only [authenticateJwt, missed] at authenticated
  split at authenticated
  · cases authenticated
  · rename_i context' c₁ fresh
    simp only [Prod.mk.injEq, Except.ok.injEq] at authenticated
    exact ⟨c₁, authenticated.1 ▸ fresh⟩

theorem authenticateJwt_of_fresh {digest : String → String} {token : Token}
    {fundSlug : Option String} {c c' : Caches}
    (missed : c.ctx.get now (ctxKey digest token fundSlug actingAsCustomerId) = none)
    (fresh : authenticateFresh settings answers now token fundSlug actingAsCustomerId c =
      (.ok context, c')) :
    authenticateJwt settings answers now digest token fundSlug actingAsCustomerId c =
      (.ok context, { c' with
        ctx := c'.ctx.set (now + seconds 300) (ctxKey digest token fundSlug actingAsCustomerId) context }) := by
  simp only [authenticateJwt, missed, fresh]

theorem requiresServicing_of_checksOwner {servicingEdgeRepo : Bool} (apart : home ≠ owner)
    (homeGiven : home ≠ "") (ownerGiven : owner ≠ "")
    (checks : ChecksOwner servicingEdgeRepo owner actingAsCustomerId) :
    RequiresServicing servicingEdgeRepo home owner actingAsCustomerId := by
  intro settings digest answers now token fundSlug c c₁ c₂ found context repo kind missed identified
    user fund authenticated
  obtain ⟨c₃, fresh⟩ := authenticateJwt_fresh missed authenticated
  obtain ⟨found', identified', delegated⟩ := authenticateFresh_fundUser kind fresh
  cases identified.symm.trans identified'
  exact delegate_serviced apart homeGiven ownerGiven user fund (repo ▸ checks) delegated

/-! ## Stores that grant the access -/

section Open

variable (servicingEdgeRepo : Bool) (home owner : String) (edges : List ServicingEdgeRecord)

/-- Every token is one of the fund realm. -/
def openSettings : Settings where
  jwt := {
    alg := fun _ => some (some "RS256")
    payload := fun _ => some { sub := some "sub", aud := ["account"], iss := "kc/realms/funds" }
    hs256 := fun _ => false
    rs256 := fun realm _ => realm = "funds" }
  keycloakUrl := "kc"
  fundRealm := ⟨"funds", "app"⟩
  servicingEdgeRepo := servicingEdgeRepo

def openUser : UserRecord := ⟨"user", some home, true⟩

def openFund : FundRecord := ⟨"fund", some owner, "alpha", .active⟩

/-- The user is an administrator of the fund. -/
def openAnswers : Answers where
  upsertUser _ := .ok (openUser home)
  getFundBySlug _ := some (openFund owner)
  getFundById _ := some (openFund owner)
  servicingEdges := edges
  fga := some {
    listRelations := fun _ _ _ => .ok ["admin", "can_read_fund"]
    listObjects := fun _ _ _ => .ok ["fund"]
    check := fun _ _ _ => .ok true }
  upsertOperator _ := .error invalidToken
  investor := none

def openFound : Identified :=
  ⟨openUser home, "alpha", openFund owner, ⟨["admin"], [.fundsRead]⟩⟩

def anyToken : Token := ⟨["header", "payload"], "signature"⟩

theorem openSettings_kind : (openSettings servicingEdgeRepo).kind anyToken = .ok .fundUser := by
  cases servicingEdgeRepo <;> decide

theorem open_decode (actingAsCustomerId : Option String) (c : Caches) :
    decodeKeycloak (openSettings servicingEdgeRepo) (openAnswers home owner edges) 0
      ((openSettings servicingEdgeRepo).resolveFundRealm actingAsCustomerId) anyToken c =
      (.ok ⟨"sub", "", ""⟩, c) := by
  have realm : (openSettings servicingEdgeRepo).resolveFundRealm actingAsCustomerId =
      ⟨"funds", "app"⟩ := by
    unfold Settings.resolveFundRealm
    cases given actingAsCustomerId <;> rfl
  rw [realm]
  rfl

/-- What the call leaves in the caches. -/
def openCaches : Caches where
  users := [⟨"sub", openUser home, seconds 60⟩]
  funds := [⟨"alpha", openFund owner, seconds 120⟩]
  access := [⟨accessKey "user" "fund" (some owner), ⟨["admin"], [.fundsRead]⟩, seconds 30⟩]

theorem open_identify (actingAsCustomerId : Option String) :
    identify (openSettings servicingEdgeRepo) (openAnswers home owner edges) 0 anyToken
      (some "alpha") actingAsCustomerId {} = (.ok (openFound home owner), openCaches home owner) := by
  unfold identify
  rw [Call.bind_eq (open_decode servicingEdgeRepo home owner edges actingAsCustomerId {})]
  rfl

theorem open_authenticate {actingAsCustomerId : Option String} {context : RequestContext}
    (digest : String → String)
    (delegated : delegate (openSettings servicingEdgeRepo) (openAnswers home owner edges) 0
      actingAsCustomerId (openFound home owner) = .ok context) :
    ∃ c, authenticateJwt (openSettings servicingEdgeRepo) (openAnswers home owner edges) 0 digest
      anyToken (some "alpha") actingAsCustomerId {} = (.ok context, c) := by
  have kind : Call.of ((openSettings servicingEdgeRepo).kind anyToken) {} = (.ok .fundUser, {}) := by
    rw [openSettings_kind]
    rfl
  have fresh : authenticateFresh (openSettings servicingEdgeRepo) (openAnswers home owner edges) 0
      anyToken (some "alpha") actingAsCustomerId {} = (.ok context, openCaches home owner) := by
    have user : authenticateKeycloak (openSettings servicingEdgeRepo) (openAnswers home owner edges)
        0 anyToken (some "alpha") actingAsCustomerId {} =
        (.ok context, openCaches home owner) := by
      unfold authenticateKeycloak
      rw [Call.bind_eq (open_identify servicingEdgeRepo home owner edges actingAsCustomerId)]
      rw [delegated]
      rfl
    exact (Call.bind_eq kind).trans user
  exact ⟨_, authenticateJwt_of_fresh (TtlCache.get_nil ..) fresh⟩

end Open

/-! ## When the access requires the edge -/

section Whenever

variable {servicingEdgeRepo : Bool}

theorem serviced_of_requires {edges : List ServicingEdgeRecord}
    (requires : RequiresServicing servicingEdgeRepo home owner actingAsCustomerId)
    (delegated : delegate (openSettings servicingEdgeRepo) (openAnswers home owner edges) 0
      actingAsCustomerId (openFound home owner) = .ok context) :
    ∃ edge ∈ edges, edge.clientCustomerId = owner := by
  obtain ⟨c, authenticated⟩ := open_authenticate servicingEdgeRepo home owner edges id delegated
  obtain ⟨edge, member, _, client, _⟩ := requires _ id _ 0 anyToken (some "alpha") {} _ c _ _ rfl
    (openSettings_kind servicingEdgeRepo) (TtlCache.get_nil ..)
    (open_identify servicingEdgeRepo home owner edges actingAsCustomerId) rfl rfl authenticated
  exact ⟨edge, member, client⟩

theorem repo_of_requires
    (requires : RequiresServicing servicingEdgeRepo home owner actingAsCustomerId) :
    servicingEdgeRepo = true := by
  -- without the repository nothing is looked up
  by_contra unset
  rw [Bool.not_eq_true] at unset
  subst unset
  have granted : ∃ context, delegate (openSettings false) (openAnswers home owner []) 0
      actingAsCustomerId (openFound home owner) = .ok context := by
    simp only [delegate]
    split
    · exact ⟨_, if_neg fun both => absurd both.2 (by decide)⟩
    · exact ⟨_, rfl⟩
  obtain ⟨context, delegated⟩ := granted
  obtain ⟨edge, member, _⟩ := serviced_of_requires requires delegated
  cases member

/-- The edge that a request acting as someone else is checked against. -/
def edgeTo (home actingAs : String) : ServicingEdgeRecord :=
  ⟨home, actingAs, ["admin"], .active, 0, none⟩

theorem owner_of_requires {actingAs : String} (homeGiven : home ≠ "")
    (requires : RequiresServicing servicingEdgeRepo home owner actingAsCustomerId)
    (acting : given actingAsCustomerId = some actingAs) : actingAs = owner := by
  have found : getActiveEdge [edgeTo home actingAs] home actingAs 0 =
      some (edgeTo home actingAs) := by
    simp [getActiveEdge, edgeTo, ServicingEdgeRecord.Active]
  have granted : ∃ context, delegate (openSettings servicingEdgeRepo)
      (openAnswers home owner [edgeTo home actingAs]) 0
      actingAsCustomerId (openFound home owner) = .ok context := by
    have target : (given actingAsCustomerId).or (openFound home owner).fund.customerId =
      some actingAs := by rw [acting, Option.some_or]
    have actingGiven : given (some actingAs) = some actingAs :=
      given_some (given_ne_empty acting).2
    have user : given (openFound home owner).user.customerId = some home := given_some homeGiven
    simp only [delegate, target, actingGiven, user]
    split
    · have same : getActiveEdge (openAnswers home owner [edgeTo home actingAs]).servicingEdges home
        actingAs 0 = some (edgeTo home actingAs) := found
      rw [same]
      exact ⟨_, rfl⟩
    · exact ⟨_, rfl⟩
  obtain ⟨context, delegated⟩ := granted
  obtain ⟨edge, member, client⟩ := serviced_of_requires requires delegated
  rw [List.mem_singleton.mp member] at client
  exact client

theorem requiresServicing_iff_checksOwner (apart : home ≠ owner) (homeGiven : home ≠ "")
    (ownerGiven : owner ≠ "") :
    RequiresServicing servicingEdgeRepo home owner actingAsCustomerId ↔
      ChecksOwner servicingEdgeRepo owner actingAsCustomerId := by
  constructor
  · intro requires
    refine ⟨repo_of_requires requires, fun actingAs acting => ?_⟩
    exact owner_of_requires homeGiven requires acting
  · exact requiresServicing_of_checksOwner apart homeGiven ownerGiven

theorem requiresServicing_of_administrator :
    RequiresServicing true "administrator" "client" (some "client") ↔
      ChecksOwner true "client" (some "client") :=
  requiresServicing_iff_checksOwner (by decide) (by decide) (by decide)

/-- A user that acts as its own customer gets a fund of another without any edge. -/
theorem acting_as_home_unserviced :
    ∃ context c, authenticateJwt (openSettings true) (openAnswers "administrator" "client" []) 0 id
      anyToken (some "alpha") (some "administrator") {} = (.ok context, c) ∧
      context.homeCustomerId = some "administrator" ∧ context.fundId = some "fund" ∧
      ¬ Serviced (openAnswers "administrator" "client" []) 0 "administrator" "client" context := by
  have delegated : ∃ context, delegate (openSettings true) (openAnswers "administrator" "client" [])
      0 (some "administrator") (openFound "administrator" "client") = .ok context ∧
      context.homeCustomerId = some "administrator" ∧ context.fundId = some "fund" :=
    ⟨_, rfl, rfl, rfl⟩
  obtain ⟨context, delegated, home, fund⟩ := delegated
  obtain ⟨c, authenticated⟩ := open_authenticate true "administrator" "client" [] id delegated
  refine ⟨context, c, authenticated, home, fund, ?_⟩
  rintro ⟨edge, member, _⟩
  cases member

end Whenever

end MiniHedge.Auth
