import MiniHedge.Auth.Delegation

/-! The funds that an investor sees, with and without a slug.

The relation store is a parameter. What is relied on is that its checks and its
lists of objects come from the tuples written to it, under the definition of
`can_read` in `fga_model.json`.
-/

set_option autoImplicit false

namespace MiniHedge.Auth

open MiniHedge.Python MiniHedge.Library

/-! ## Tuples -/

structure ClientTuple where
  user : String
  relation : String
  object : String
  deriving DecidableEq, Repr

/-- Whoever has one of these on a fund can read it. -/
def fundReaders : List String :=
  ["admin", "portfolio_manager", "analyst", "risk_manager", "compliance_officer", "viewer",
    "ops_full", "ops_read", "investor"]

def canRead (tuples : List ClientTuple) (user object : String) : Bool :=
  tuples.any fun t => t.user = user ∧ t.relation ∈ fundReaders ∧ t.object = object

theorem canRead_iff {tuples : List ClientTuple} {user object : String} :
    canRead tuples user object ↔
      ∃ t ∈ tuples, t.user = user ∧ t.relation ∈ fundReaders ∧ t.object = object := by
  simp [canRead]

/-- The store answers from the tuples, in any order. -/
structure FgaClient.Serves (fga : FgaClient) (tuples : List ClientTuple) : Prop where
  check : ∀ user object, fga.check user "can_read" object = .ok (canRead tuples user object)
  listObjects : ∀ user, ∃ ids, fga.listObjects user "can_read" "fund" = .ok ids ∧
    ∀ id, id ∈ ids ↔ canRead tuples user ("fund:" ++ id)

/-- The tuple is not about a fund, or its object has the customer of the fund before the
id of the fund, which is a UUID. -/
def ClientTuple.Qualified (t : ClientTuple) : Prop :=
  ∀ id, t.object = "fund:" ++ id → ∃ customer fundId, customer ≠ "" ∧ '/' ∉ fundId.toList ∧
    t.object = qualifyObjectId "fund" fundId (some customer)

theorem qualifyObjectId_fund {customer : String} (nonempty : customer ≠ "") (fundId : String) :
    qualifyObjectId "fund" fundId (some customer) = "fund:" ++ (customer ++ "/" ++ fundId) := by
  simp [qualifyObjectId, given_some nonempty, String.append_assoc]

theorem split_last {c : Char} {m : List Char} (absent : c ∉ m) (l : List Char) :
    ∃ part parts, split c (l ++ c :: m) = part :: (parts ++ [m]) := by
  induction l with
  | nil => exact ⟨[], [], by simp [split, split_absent absent]⟩
  | cons d rest ih =>
    obtain ⟨part, parts, splits⟩ := ih
    by_cases same : d = c
    · exact ⟨[], part :: parts, by simp [split, same, splits]⟩
    · exact ⟨d :: part, parts, by simp [split, same, splits]⟩

theorem unqualifyObjectId_qualified {fundId : String} (plain : '/' ∉ fundId.toList)
    (customer : String) : unqualifyObjectId (customer ++ "/" ++ fundId) = fundId := by
  obtain ⟨part, parts, splits⟩ := split_last plain customer.toList
  have chars : (customer ++ "/" ++ fundId).toList = customer.toList ++ '/' :: fundId.toList := by
    simp
  rw [unqualifyObjectId, chars, splits, List.getLastD_eq_getLast?, ← List.cons_append,
    List.getLast?_concat]
  simp

/-! ## The two ways -/

/-- The funds that are found for an investor who does not name one. -/
def discoveredFundIds (answers : Answers) (investor : InvestorRecord) : List String :=
  match answers.fga with
  | none => []
  | some fga =>
    match listFundIds fga ("investor:" ++ investor.id) with
    | .ok ids => ids
    | .error _ => []

/-- Some tuple lets the investor read the fund. -/
def ReadsFund (tuples : List ClientTuple) (investor : InvestorRecord) (fund : FundRecord) : Prop :=
  ∃ t ∈ tuples, t.user = "investor:" ++ investor.id ∧ t.relation ∈ fundReaders ∧
    ∃ customer, customer ≠ "" ∧ t.object = qualifyObjectId "fund" fund.id (some customer)

section Tuples

variable {tuples : List ClientTuple} {fund : FundRecord}

theorem mem_discovered {answers : Answers} {fga : FgaClient} {investor : InvestorRecord}
    (configured : answers.fga = some fga) (serves : fga.Serves tuples)
    (qualified : ∀ t ∈ tuples, t.Qualified) (plain : '/' ∉ fund.id.toList) :
    fund.id ∈ discoveredFundIds answers investor ↔ ReadsFund tuples investor fund := by
  obtain ⟨ids, listed, holds⟩ := serves.listObjects ("investor:" ++ investor.id)
  have discovered : discoveredFundIds answers investor =
      (ids.map unqualifyObjectId).mergeSort (· ≤ ·) := by
    simp only [discoveredFundIds, configured, listFundIds, listed, Except.map]
  rw [discovered, List.mem_mergeSort, List.mem_map]
  constructor
  · rintro ⟨id, member, last⟩
    obtain ⟨t, inside, user, reads, object⟩ := canRead_iff.mp ((holds id).mp member)
    obtain ⟨customer, fundId, nonempty, plain', qualifies⟩ := qualified t inside id object
    refine ⟨t, inside, user, reads, customer, nonempty, ?_⟩
    rw [qualifyObjectId_fund nonempty] at qualifies
    have same : id = customer ++ "/" ++ fundId := by
      simpa using object.symm.trans qualifies
    rw [same, unqualifyObjectId_qualified plain'] at last
    rw [qualifies, last, qualifyObjectId_fund nonempty]
  · rintro ⟨t, inside, user, reads, customer, nonempty, object⟩
    rw [qualifyObjectId_fund nonempty] at object
    exact ⟨customer ++ "/" ++ fund.id, (holds _).mpr (canRead_iff.mpr ⟨t, inside, user, reads, object⟩),
      unqualifyObjectId_qualified plain customer⟩

/-- The check with a slug is for an object that no tuple has. -/
theorem canRead_unqualified (qualified : ∀ t ∈ tuples, t.Qualified) (plain : '/' ∉ fund.id.toList)
    (user : String) : canRead tuples user ("fund:" ++ fund.id) = false := by
  rw [Bool.eq_false_iff]
  intro reads
  obtain ⟨t, inside, -, -, object⟩ := canRead_iff.mp reads
  obtain ⟨customer, fundId, nonempty, -, qualifies⟩ := qualified t inside fund.id object
  rw [qualifyObjectId_fund nonempty] at qualifies
  have same : fund.id = customer ++ "/" ++ fundId := by
    simpa using object.symm.trans qualifies
  exact plain (by simp [same])

end Tuples

/-! ## Contexts -/

section Authenticate

variable (settings : Settings) (answers : Answers) (now : Datetime) (digest : String → String)
  (token : Token) (actingAsCustomerId : Option String) (c : Caches) (investor : InvestorRecord)
  (fund : FundRecord)

/-- The token is a valid one of the active investor. -/
structure SignsIn : Prop where
  kind : settings.kind token = .ok .investor
  keycloakUrl : settings.keycloakUrl ≠ ""
  keycloak : answers.keycloak = .ok ()
  known : ∃ claims lookup, settings.decodeKeycloakToken settings.investorsRealm now token =
    .ok claims ∧ answers.investor = some lookup ∧ lookup claims = some investor
  active : investor.isActive = true

/-- With its slug, the call answers with a context of the fund. -/
def GrantsFund : Prop :=
  ∃ context c', authenticateJwt settings answers now digest token (some fund.slug)
    actingAsCustomerId c = (.ok context, c') ∧ context.fundId = some fund.id

/-- What is to hold of an investor and a fund. -/
structure ThroughGrant : Prop where
  same : GrantsFund settings answers now digest token actingAsCustomerId c fund ↔
    fund.id ∈ discoveredFundIds answers investor
  configured : answers.fga = none →
    ¬ GrantsFund settings answers now digest token actingAsCustomerId c fund

/-- Nothing is cached for the token and the slug, the store is configured unless the fund is
inactive, and no tuple is for the investor; or what is cached agrees with the tuples. -/
def AgreesUnread (tuples : List ClientTuple) : Prop :=
  match c.ctx.get now (ctxKey digest token (some fund.slug) actingAsCustomerId) with
  | none => (answers.fga = none → fund.status ≠ .active) ∧
      (answers.fga ≠ none → ¬ ReadsFund tuples investor fund)
  | some cached => cached.fundId = some fund.id ↔
      answers.fga ≠ none ∧ ReadsFund tuples investor fund

variable {settings answers now token investor fund}

theorem authenticateFresh_investor (signsIn : SignsIn settings answers now token investor)
    (fundSlug : Option String) :
    authenticateFresh settings answers now token fundSlug actingAsCustomerId c =
      ((investorFund answers investor fundSlug).map (investorContext investor fundSlug), c) := by
  obtain ⟨claims, lookup, decoded, known, found⟩ := signsIn.known
  have decodes : decodeKeycloak settings answers now settings.investorsRealm token c =
      (.ok claims, c) := by
    rw [decodeKeycloak, if_neg signsIn.keycloakUrl]
    have answered : Call.of answers.keycloak c = (.ok (), c) := by
      simp [Call.of, signsIn.keycloak]
    refine (Call.bind_eq answered).trans ?_
    simp [Call.of, decoded]
  have investorKind : Call.of (settings.kind token) c = (.ok .investor, c) := by
    simp [Call.of, signsIn.kind]
  rw [authenticateFresh, Call.bind_eq investorKind]
  dsimp only
  rw [authenticateKeycloakInvestor, known]
  dsimp only
  rw [Call.bind_eq decodes, found]
  dsimp only
  rw [if_neg (by simp [signsIn.active])]
  cases resolved : investorFund answers investor fundSlug with
  | error e => rfl
  | ok fund => rfl

/-- With a slug the fund is resolved where there is no store to ask. -/
theorem investorFund_slug {tuples : List ClientTuple}
    (found : answers.getFundBySlug fund.slug = some fund) (slugGiven : fund.slug ≠ "")
    (serves : ∀ fga ∈ answers.fga, fga.Serves tuples) (qualified : ∀ t ∈ tuples, t.Qualified)
    (plain : '/' ∉ fund.id.toList) :
    investorFund answers investor (some fund.slug) =
      if fund.status = .active ∧ answers.fga = none then .ok (some fund)
      else .error fundNotFound := by
  rw [investorFund, given_some slugGiven]
  dsimp only
  rw [found]
  dsimp only
  by_cases active : fund.status = .active
  · rw [if_neg (by simp [active])]
    cases store : answers.fga with
    | none => simp [active]
    | some fga =>
      have checked := (serves fga store).check ("investor:" ++ investor.id) ("fund:" ++ fund.id)
      rw [canRead_unqualified qualified plain] at checked
      simp [checked]
  · simp [active]

theorem grantsFund_iff {tuples : List ClientTuple}
    (signsIn : SignsIn settings answers now token investor)
    (found : answers.getFundBySlug fund.slug = some fund) (slugGiven : fund.slug ≠ "")
    (serves : ∀ fga ∈ answers.fga, fga.Serves tuples) (qualified : ∀ t ∈ tuples, t.Qualified)
    (plain : '/' ∉ fund.id.toList)
    (missed : c.ctx.get now (ctxKey digest token (some fund.slug) actingAsCustomerId) = none) :
    GrantsFund settings answers now digest token actingAsCustomerId c fund ↔
      fund.status = .active ∧ answers.fga = none := by
  have fresh := authenticateFresh_investor actingAsCustomerId c signsIn (some fund.slug)
  rw [investorFund_slug found slugGiven serves qualified plain] at fresh
  constructor
  · rintro ⟨context, c', authenticated, -⟩
    obtain ⟨c₁, resolved⟩ := authenticateJwt_fresh missed authenticated
    by_contra refused
    rw [if_neg refused] at fresh
    cases fresh.symm.trans resolved
  · intro granted
    rw [if_pos granted] at fresh
    exact ⟨_, _, authenticateJwt_of_fresh missed fresh, rfl⟩

/-- An investor sees a fund the same way with and without its slug exactly when there is
no grant to see it by. -/
theorem throughGrant_iff {tuples : List ClientTuple}
    (signsIn : SignsIn settings answers now token investor)
    (found : answers.getFundBySlug fund.slug = some fund) (slugGiven : fund.slug ≠ "")
    (serves : ∀ fga ∈ answers.fga, fga.Serves tuples) (qualified : ∀ t ∈ tuples, t.Qualified)
    (plain : '/' ∉ fund.id.toList) :
    ThroughGrant settings answers now digest token actingAsCustomerId c investor fund ↔
      AgreesUnread answers now digest token actingAsCustomerId c investor fund tuples := by
  have discovered : fund.id ∈ discoveredFundIds answers investor ↔
      answers.fga ≠ none ∧ ReadsFund tuples investor fund := by
    cases store : answers.fga with
    | none => simp [discoveredFundIds, store]
    | some fga =>
      rw [mem_discovered store (serves fga store) qualified plain]
      simp
  have split : ThroughGrant settings answers now digest token actingAsCustomerId c investor fund ↔
      (GrantsFund settings answers now digest token actingAsCustomerId c fund ↔
        answers.fga ≠ none ∧ ReadsFund tuples investor fund) := by
    rw [← discovered]
    refine ⟨fun through => through.same, fun same => ⟨same, fun unconfigured granted => ?_⟩⟩
    exact (discovered.mp (same.mp granted)).1 unconfigured
  rw [split, AgreesUnread]
  cases cached : c.ctx.get now (ctxKey digest token (some fund.slug) actingAsCustomerId) with
  | none =>
    dsimp only
    rw [grantsFund_iff digest actingAsCustomerId c signsIn found slugGiven serves qualified plain
      cached]
    cases answers.fga <;> simp
  | some context =>
    have granted : GrantsFund settings answers now digest token actingAsCustomerId c fund ↔
        context.fundId = some fund.id := by
      simp [GrantsFund, authenticateJwt, cached]
    rw [granted]

end Authenticate

/-! ## An investor of a fund -/

section Ann

/-- Every token is one of the investors' realm. -/
def investorSettings : Settings where
  jwt := {
    alg := fun _ => some (some "RS256")
    payload := fun _ => some { sub := some "ann", aud := ["account"], iss := "kc/realms/investors" }
    hs256 := fun _ => false
    rs256 := fun realm _ => realm = "investors" }
  keycloakUrl := "kc"
  fundRealm := ⟨"funds", "app"⟩
  investorsRealm := ⟨"investors", "app"⟩

def ann : InvestorRecord := ⟨"ann", true⟩

def alpha : FundRecord := ⟨"f1", some "c1", "alpha", .active⟩

/-- A store that has the tuples. -/
def storeOf (tuples : List ClientTuple) : FgaClient where
  listRelations user object relations :=
    .ok (relations.filter fun relation => ⟨user, relation, object⟩ ∈ tuples)
  listObjects user _ type :=
    .ok ((tuples.filter fun t => canRead tuples user t.object).filterMap fun t =>
      (t.object.toList.dropPrefix? (type ++ ":").toList).map String.ofList)
  check user _ object := .ok (canRead tuples user object)

theorem storeOf_serves (tuples : List ClientTuple) : (storeOf tuples).Serves tuples where
  check _ _ := rfl
  listObjects user := by
    refine ⟨_, rfl, fun id => ?_⟩
    have strips : ∀ object : String, (object.toList.dropPrefix? ("fund" ++ ":").toList).map
        String.ofList = some id ↔ object = "fund:" ++ id := by
      intro object
      simp only [Option.map_eq_some_iff, List.dropPrefix?_eq_some_iff, beq_iff_eq]
      constructor
      · rintro ⟨rest, ⟨front, splits, rfl⟩, rfl⟩
        exact String.toList_inj.mp (by simp [splits])
      · rintro rfl
        exact ⟨id.toList, ⟨_, by simp, rfl⟩, by simp⟩
    simp only [List.mem_filterMap, List.mem_filter, strips]
    constructor
    · rintro ⟨t, ⟨-, reads⟩, object⟩
      rwa [object] at reads
    · intro reads
      obtain ⟨t, inside, -, -, object⟩ := canRead_iff.mp reads
      exact ⟨t, ⟨inside, object ▸ reads⟩, object⟩

/-- The answers to a token of the investor, for a store or for none. -/
def annAnswers (fga : Option FgaClient) : Answers where
  upsertUser _ := .error invalidToken
  getFundBySlug slug := if slug = "alpha" then some alpha else none
  getFundById id := if id = "f1" then some alpha else none
  servicingEdges := []
  fga
  upsertOperator _ := .error invalidToken
  investor := some fun _ => some ann

theorem ann_signsIn (fga : Option FgaClient) :
    SignsIn investorSettings (annAnswers fga) 0 anyToken ann :=
  ⟨by decide, by decide, rfl, ⟨_, _, rfl, rfl, rfl⟩, rfl⟩

/-- The grant of the fund to an investor. -/
def investsInAlpha (user : String) : ClientTuple := ⟨user, "investor", "fund:c1/f1"⟩

theorem investsInAlpha_qualified (user : String) : (investsInAlpha user).Qualified :=
  fun _ _ => ⟨"c1", "f1", by decide, by decide, by
    rw [qualifyObjectId_fund (by decide)]
    rfl⟩

/-- Who has no grant is refused with the slug and finds nothing without it. -/
theorem throughGrant_of_other :
    ThroughGrant investorSettings (annAnswers (some (storeOf [investsInAlpha "investor:bob"]))) 0 id
      anyToken none {} ann alpha := by
  refine (throughGrant_iff id none {} (ann_signsIn _) (by decide) (by decide)
    (by rintro fga ⟨⟩; exact storeOf_serves _) ?_ (by decide)).mpr ⟨by simp [annAnswers], ?_⟩
  · intro t member
    rw [List.mem_singleton.mp member]
    exact investsInAlpha_qualified _
  · rintro - ⟨t, member, user, -⟩
    rw [List.mem_singleton.mp member] at user
    revert user
    decide

/-- The fund is found for its investor and refused when it is named, and it is anyone's when
there is no store. -/
theorem granted_fund_refused :
    ¬ ThroughGrant investorSettings (annAnswers (some (storeOf [investsInAlpha "investor:ann"]))) 0
        id anyToken none {} ann alpha ∧
      ¬ ThroughGrant investorSettings (annAnswers none) 0 id anyToken none {} ann alpha := by
  constructor
  · intro through
    have listed : alpha.id ∈ discoveredFundIds
        (annAnswers (some (storeOf [investsInAlpha "investor:ann"]))) ann := by decide +kernel
    obtain ⟨context, c', authenticated, -⟩ := through.same.mpr listed
    have refused : (authenticateJwt investorSettings
        (annAnswers (some (storeOf [investsInAlpha "investor:ann"]))) 0 id anyToken
        (some alpha.slug) none {}).1 = .error fundNotFound := by rfl
    rw [authenticated] at refused
    cases refused
  · intro through
    exact through.configured rfl ⟨_, _, rfl, rfl⟩

end Ann

end MiniHedge.Auth
