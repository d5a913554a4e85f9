import MiniHedge.Library.Transition
import MiniHedge.Auth.Delegation
import MiniHedge.Auth.TokenRevocation

/-! Histories of requests and revocations, as the middleware sees them.

A context is found under the hash of the signature alone, for five minutes, and
whoever presents that signature gets it. What is said of the token is then true
of the one that the context was stored for.
-/

set_option autoImplicit false

namespace MiniHedge.Auth

open MiniHedge.Python MiniHedge.Library

/-- A request with a token; headers that are empty count as none. -/
structure JwtRequest where
  answers : Answers
  token : Token
  fundSlug : Option String := none
  actingAsCustomerId : Option String := none

def JwtRequest.key (digest : String → String) (r : JwtRequest) : CtxKey :=
  ctxKey digest r.token r.fundSlug r.actingAsCustomerId

/-- The last three fields are what has happened: for which token the context
under a key was stored, and every revocation so far. -/
structure Sessions where
  now : Datetime
  caches : Caches := {}
  revocation : TokenRevocation := {}
  storedFor : CtxKey → Option Token := fun _ => none
  /-- The identifiers of tokens, and until when they are revoked. -/
  tokenRevocations : List (String × Datetime) := []
  /-- The users, and which of their tokens are revoked: those issued before. -/
  userRevocations : List (String × Datetime) := []

inductive SessionStep where
  | request (r : JwtRequest)
  | revokeToken (jti : String) (expiresAt : Datetime)
  | revokeUserTokens (userId : String)
  | wait (duration : Nat)
  /-- The caches are bounded, and other calls invalidate entries. -/
  | evict (users funds : String → Bool) (access : AccessKey → Bool) (ctx : CtxKey → Bool)

namespace Sessions

variable (settings : Settings) (digest : String → String)

def authenticate (s : Sessions) (r : JwtRequest) : Except AuthError RequestContext × Caches :=
  authenticateJwt settings r.answers s.now digest r.token r.fundSlug r.actingAsCustomerId s.caches

/-- What the middleware makes of the request. -/
def respond (s : Sessions) (r : JwtRequest) : Except AuthError RequestContext :=
  match (s.authenticate settings digest r).1 with
  | .error e => .error e
  | .ok context =>
    if checkRevocation settings.jwt s.revocation s.now r.token context then .error tokenRevoked
    else .ok context

/-- The context of the request comes from the cache. -/
def Hit (s : Sessions) (r : JwtRequest) : Prop := (s.caches.ctx.get s.now (r.key digest)).isSome

instance (s : Sessions) (r : JwtRequest) : Decidable (Hit digest s r) :=
  inferInstanceAs (Decidable (_ = _))

def storeFor (s : Sessions) (r : JwtRequest) : CtxKey → Option Token :=
  if Hit digest s r then s.storedFor
  else match (s.authenticate settings digest r).1 with
    | .error _ => s.storedFor
    | .ok _ => Function.update s.storedFor (r.key digest) (some r.token)

def step (s : Sessions) : SessionStep → Option Sessions
  | .request r =>
    some { s with
      caches := (s.authenticate settings digest r).2
      storedFor := s.storeFor settings digest r }
  | .revokeToken jti expiresAt =>
    some { s with
      revocation := s.revocation.revokeToken s.now jti expiresAt
      tokenRevocations := (jti, expiresAt) :: s.tokenRevocations }
  | .revokeUserTokens userId =>
    some { s with
      revocation := s.revocation.revokeUserTokens s.now userId
      userRevocations := (userId, s.now) :: s.userRevocations }
  | .wait duration => some { s with now := s.now + duration }
  | .evict users funds access ctx =>
    some { s with caches := {
      users := s.caches.users.evict users
      funds := s.caches.funds.evict funds
      access := s.caches.access.evict access
      ctx := s.caches.ctx.evict ctx } }

def system : System Sessions SessionStep where
  step := step settings digest

/-! ## What an accepted token has to be -/

/-- The token is revoked, by its identifier or with its user. Without a time of
issue it counts as issued before the user was revoked. -/
def Revoked (s : Sessions) (p : Payload) (userId : String) : Prop :=
  (∃ r ∈ s.tokenRevocations, p.jti = some r.1 ∧ s.now < r.2) ∨
    ∃ r ∈ s.userRevocations, r.1 = userId ∧ ∀ iat ∈ p.iat, iat < r.2

structure Sound (s : Sessions) (token : Token) (context : RequestContext) : Prop where
  signed : settings.Signed token
  unrevoked : ∃ p ∈ settings.jwt.payload token,
    (∃ exp ∈ p.exp, s.now < exp) ∧ ¬ s.Revoked p context.actorId

/-- Nothing that the checks read is missing from the claims. -/
def Complete (s : Sessions) (p : Payload) : Prop :=
  p.exp ≠ none ∧ (p.iat = none → s.userRevocations = []) ∧
    (p.jti = some "" → ∀ r ∈ s.tokenRevocations, r.1 ≠ "")

instance (s : Sessions) (p : Payload) : Decidable (s.Complete p) :=
  inferInstanceAs (Decidable (_ ∧ _ ∧ _))

/-- The claims of the token are complete, and if its context is cached then it
was stored for this very token, which has not expired since. A revocation lasts
as long as it is asked for, and as the earlier ones of the same token were. -/
def Own (s : Sessions) : SessionStep → Prop
  | .request r =>
    (∀ p ∈ settings.jwt.payload r.token, s.Complete p) ∧
      (Hit digest s r → s.storedFor (r.key digest) = some r.token ∧
        ∀ p ∈ settings.jwt.payload r.token, ∀ exp ∈ p.exp, s.now < exp)
  | .revokeToken jti expiresAt => expiresAt ≤ s.now ∨
    ∀ r ∈ (jti, expiresAt) :: s.tokenRevocations, r.1 = jti → s.now < r.2 →
      r.2 ≤ s.now + seconds (TokenRevocation.ttlSeconds s.now expiresAt)
  | _ => True

instance (s : Sessions) : (label : SessionStep) → Decidable (Own settings digest s label)
  | .request _ => inferInstanceAs (Decidable (_ ∧ (_ → _ ∧ _)))
  | .revokeToken .. => inferInstanceAs (Decidable (_ ∨ _))
  | .revokeUserTokens _ | .wait _ | .evict .. => inferInstanceAs (Decidable True)

/-! ## What the stores hold -/

/-- A token that a context was stored for has been verified then, and the store
knows of every revocation that has not run out. -/
structure Kept (s : Sessions) : Prop where
  verified : ∀ key token, s.storedFor key = some token → ∃ t, settings.Verifies t token
  tokens : ∀ r ∈ s.tokenRevocations, s.now < r.2 →
    ∃ e ∈ s.revocation.tokens, e.key = r.1 ∧ r.2 ≤ e.expires
  users : ∀ r ∈ s.userRevocations, r.2 ≤ s.now ∧
    ∃ revokedAt ∈ s.revocation.users r.1, r.2 ≤ revokedAt

variable {settings digest} {s next : Sessions} {r : JwtRequest} {context : RequestContext}

theorem kept_start (now : Datetime) : Kept settings { now } where
  verified _ _ stored := by cases stored
  tokens _ member := by cases member
  users _ member := by cases member

theorem verifies_of_missed (missed : ¬ Hit digest s r)
    (authenticated : (s.authenticate settings digest r).1 = .ok context) :
    settings.Verifies s.now r.token := by
  have nothing : s.caches.ctx.get s.now (ctxKey digest r.token r.fundSlug r.actingAsCustomerId) =
      none := Option.not_isSome_iff_eq_none.mp missed
  obtain ⟨c, fresh⟩ := authenticateJwt_fresh nothing (Prod.ext authenticated rfl)
  exact verifies_of_authenticateFresh fresh

theorem Kept.request (kept : Kept settings s) :
    ∀ key token, s.storeFor settings digest r key = some token → ∃ t, settings.Verifies t token := by
  intro key token stored
  unfold storeFor at stored
  split at stored
  · exact kept.verified key token stored
  · rename_i missed
    cases authenticated : (s.authenticate settings digest r).1 with
    | error e =>
      rw [authenticated] at stored
      exact kept.verified key token stored
    | ok context =>
      rw [authenticated] at stored
      simp only [Function.update_apply] at stored
      split at stored
      · cases stored
        exact ⟨s.now, verifies_of_missed missed authenticated⟩
      · exact kept.verified key token stored

theorem Kept.revokeToken {jti : String} {expiresAt : Datetime} (kept : Kept settings s)
    (lasts : Own settings digest s (.revokeToken jti expiresAt)) :
    ∀ r ∈ (jti, expiresAt) :: s.tokenRevocations, s.now < r.2 →
      ∃ e ∈ (s.revocation.revokeToken s.now jti expiresAt).tokens, e.key = r.1 ∧ r.2 ≤ e.expires := by
  intro r member ahead
  by_cases same : r.1 = jti
  · -- the key that is stored now takes the place of the earlier one
    rcases lasts with past | lasts
    · rcases List.mem_cons.mp member with rfl | earlier
      · exact absurd ahead (not_lt.mpr past)
      · obtain ⟨e, held, key, lasting⟩ := kept.tokens r earlier ahead
        refine ⟨e, ?_, key, lasting⟩
        rw [TokenRevocation.revokeToken_of_past past]
        exact held
    · have long := lasts r member same ahead
      exact ⟨_, TokenRevocation.mem_revokeToken_self (lt_of_lt_of_le ahead long), same.symm, long⟩
  · have earlier : r ∈ s.tokenRevocations := by
      rcases List.mem_cons.mp member with rfl | earlier
      · exact absurd rfl same
      · exact earlier
    obtain ⟨e, held, key, lasting⟩ := kept.tokens r earlier ahead
    exact ⟨e, TokenRevocation.mem_revokeToken (by rwa [key]) held, key, lasting⟩

theorem Kept.step {label : SessionStep} (kept : Kept settings s)
    (own : Own settings digest s label) (stepped : s.step settings digest label = some next) :
    Kept settings next := by
  cases label with
  | request r =>
    cases stepped
    exact ⟨kept.request, kept.tokens, kept.users⟩
  | revokeToken jti expiresAt =>
    cases stepped
    refine ⟨kept.verified, kept.revokeToken own, ?_⟩
    simpa using kept.users
  | revokeUserTokens userId =>
    cases stepped
    refine ⟨kept.verified, kept.tokens, fun r member => ?_⟩
    rcases List.mem_cons.mp member with rfl | earlier
    · exact ⟨le_rfl, s.now, Function.update_self .., le_rfl⟩
    · obtain ⟨before, revokedAt, known, since⟩ := kept.users r earlier
      refine ⟨before, ?_⟩
      by_cases same : r.1 = userId
      · -- the user is revoked again, later
        exact ⟨s.now, by rw [same]; exact Function.update_self .., before⟩
      · exact ⟨revokedAt, (Function.update_of_ne same ..).trans known, since⟩
  | wait duration =>
    cases stepped
    have later : s.now ≤ s.now + duration := le_add_of_nonneg_right (Int.natCast_nonneg duration)
    refine ⟨kept.verified, fun r member ahead => ?_, fun r member => ?_⟩
    · exact kept.tokens r member (lt_of_le_of_lt later ahead)
    · obtain ⟨before, known⟩ := kept.users r member
      exact ⟨before.trans later, known⟩
  | evict users funds access ctx =>
    cases stepped
    exact ⟨kept.verified, kept.tokens, kept.users⟩

/-! ## Accepted requests -/

theorem verifies_of_accepted (kept : Kept settings s) (own : Own settings digest s (.request r))
    (accepted : (s.authenticate settings digest r).1 = .ok context) :
    settings.Signed r.token ∧ ∃ p ∈ settings.jwt.payload r.token, ∀ exp ∈ p.exp, s.now < exp := by
  by_cases hit : Hit digest s r
  · obtain ⟨stored, ahead⟩ := own.2 hit
    obtain ⟨t, signed, p, parsed, _⟩ := kept.verified _ _ stored
    exact ⟨signed, p, parsed, ahead p parsed⟩
  · obtain ⟨signed, p, parsed, timely⟩ := verifies_of_missed hit accepted
    exact ⟨signed, p, parsed, timely.1⟩

theorem unrevoked_of_check {p : Payload} (kept : Kept settings s)
    (parsed : p ∈ settings.jwt.payload r.token) (complete : s.Complete p)
    (passed : ¬ checkRevocation settings.jwt s.revocation s.now r.token context) :
    ¬ s.Revoked p context.actorId := by
  rintro (⟨revoked, member, jti, ahead⟩ | ⟨revoked, member, user, since⟩)
  · obtain ⟨e, held, key, lasting⟩ := kept.tokens revoked member ahead
    apply passed
    refine ⟨p, parsed, .inl ⟨revoked.1, ?_, ?_⟩⟩
    · rw [jti]
      exact given_some fun empty => complete.2.2 (empty ▸ jti) revoked member empty
    · rw [← key]
      exact TokenRevocation.isRevoked_of_mem held (lt_of_lt_of_le ahead lasting)
  · obtain ⟨_, revokedAt, known, later⟩ := kept.users revoked member
    cases issued : p.iat with
    | none =>
      rw [complete.2.1 issued] at member
      cases member
    | some iat =>
      apply passed
      exact ⟨p, parsed, .inr ⟨iat, issued, revokedAt, user ▸ known, (since iat issued).trans_le later⟩⟩

theorem Kept.sound (kept : Kept settings s) (own : Own settings digest s (.request r))
    (accepted : s.respond settings digest r = .ok context) : s.Sound settings r.token context := by
  unfold respond at accepted
  split at accepted
  · cases accepted
  · rename_i context' authenticated
    split at accepted
    · cases accepted
    · rename_i passed
      cases accepted
      obtain ⟨signed, p, parsed, ahead⟩ := verifies_of_accepted kept own authenticated
      have complete := own.1 p parsed
      obtain ⟨exp, expires⟩ := Option.ne_none_iff_exists'.mp complete.1
      exact ⟨signed, p, parsed, ⟨exp, expires, ahead exp expires⟩,
        unrevoked_of_check kept parsed complete passed⟩

theorem sound_of_own {now : Datetime} {labels : List SessionStep}
    (along : (system settings digest).Along (Own settings digest) { now } (labels ++ [.request r]))
    (ran : (system settings digest).run { now } labels = some s)
    (accepted : s.respond settings digest r = .ok context) : s.Sound settings r.token context := by
  have kept : Kept settings s := System.invariant_along
    (fun _ _ _ kept own stepped => kept.step own stepped) (along.left) ran (kept_start now)
  exact kept.sound (along.append ran).head accepted

/-! ## A signature that two tokens share -/

section Shared

/-- Only the token of alice is signed; every payload names alice. -/
def appSettings : Settings where
  jwt := {
    alg := fun _ => some (some "HS256")
    payload := fun _ => some {
      sub := some "alice", actorType := some .user, roles := ["viewer"]
      exp := some (seconds 3600), iat := some 0, jti := some "jti" }
    hs256 := fun token => token.head = ["header", "alice"]
    rs256 := fun _ _ => false }
  keycloakUrl := ""
  fundRealm := ⟨"", ""⟩

def noAnswers : Answers where
  upsertUser _ := .error invalidToken
  getFundBySlug _ := none
  getFundById _ := none
  servicingEdges := []
  fga := none
  upsertOperator _ := .error invalidToken
  investor := none

def ofAlice : JwtRequest := { answers := noAnswers, token := ⟨["header", "alice"], "signature"⟩ }

def forged : JwtRequest := { answers := noAnswers, token := ⟨["header", "mallory"], "signature"⟩ }

def othersRevoked : List SessionStep :=
  [.request ofAlice, .wait 10, .revokeToken "other" (seconds 60 + 10), .revokeUserTokens "bob"]

theorem sound_of_others_revoked : ∃ s context,
    (system appSettings id).run { now := 0 } othersRevoked = some s ∧
    s.respond appSettings id ofAlice = .ok context ∧ s.Sound appSettings ofAlice.token context := by
  have along : (system appSettings id).Along (Own appSettings id) { now := 0 }
      (othersRevoked ++ [.request ofAlice]) := by decide +kernel
  exact ⟨_, _, rfl, rfl, sound_of_own along rfl rfl⟩

/-- The context of alice is returned for a token that nobody has signed. -/
theorem forged_accepted : ∃ s context,
    (system appSettings id).run { now := 0 } [.request ofAlice] = some s ∧
    s.respond appSettings id forged = .ok context ∧
    ¬ s.Sound appSettings forged.token context := by
  refine ⟨_, _, rfl, rfl, ?_⟩
  rintro ⟨signed | ⟨_, signed⟩, _⟩
  · revert signed
    decide
  · cases signed

end Shared

end Sessions

end MiniHedge.Auth
