import MiniHedge.Auth.Orchestrator
import Mathlib.Logic.Function.Basic

/-! `TokenRevocationService` and the check of the middleware.

Redis keeps a key for each revoked token until the token would have expired, and
for each user the time of the last revocation. The check reads both from the
claims of the token that is presented, whose signature it does not look at.
-/

set_option autoImplicit false

namespace MiniHedge.Auth

open MiniHedge.Python MiniHedge.Library

/-- The keys `revoked:jti:…` and `revoked:user:…`. -/
structure TokenRevocation where
  tokens : TtlCache String Unit := []
  users : String → Option Datetime := fun _ => none

namespace TokenRevocation

variable (store : TokenRevocation) (now : Datetime)

/-- Whole seconds: `int` cuts off the rest. -/
def ttlSeconds (expiresAt : Datetime) : Int := (expiresAt - now).tdiv (seconds 1)

def revokeToken (jti : String) (expiresAt : Datetime) : TokenRevocation :=
  if ttlSeconds now expiresAt ≤ 0 then store
  else { store with
    tokens := store.tokens.set (now + seconds (ttlSeconds now expiresAt)) jti () }

def isRevoked (jti : String) : Bool := (store.tokens.get now jti).isSome

def revokeUserTokens (userId : String) : TokenRevocation :=
  { store with users := Function.update store.users userId (some now) }

def isUserRevokedSince (userId : String) (issuedAt : Datetime) : Prop :=
  ∃ revokedAt ∈ store.users userId, issuedAt < revokedAt

instance (userId : String) (issuedAt : Datetime) :
    Decidable (store.isUserRevokedSince userId issuedAt) :=
  inferInstanceAs (Decidable (∃ revokedAt ∈ store.users userId, issuedAt < revokedAt))

@[simp] theorem revokeToken_users (jti : String) (expiresAt : Datetime) :
    (store.revokeToken now jti expiresAt).users = store.users := by
  unfold revokeToken
  split <;> rfl

@[simp] theorem revokeUserTokens_tokens (userId : String) :
    (store.revokeUserTokens now userId).tokens = store.tokens := rfl

theorem isRevoked_of_mem {store : TokenRevocation} {now : Datetime} {e : TtlCache.Entry String Unit}
    (member : e ∈ store.tokens) (ahead : now < e.expires) : store.isRevoked now e.key = true :=
  TtlCache.isSome_get member ahead

section Keys

variable {store} {now} {jti : String} {expiresAt : Datetime} {e : TtlCache.Entry String Unit}

theorem mem_revokeToken (other : e.key ≠ jti) (member : e ∈ store.tokens) :
    e ∈ (store.revokeToken now jti expiresAt).tokens := by
  unfold revokeToken
  split
  · exact member
  · exact TtlCache.mem_set.mpr (.inr ⟨member, other⟩)

theorem mem_revokeToken_self (ahead : now < now + seconds (ttlSeconds now expiresAt)) :
    ⟨jti, (), now + seconds (ttlSeconds now expiresAt)⟩ ∈
      (store.revokeToken now jti expiresAt).tokens := by
  have positive : ¬ ttlSeconds now expiresAt ≤ 0 := by
    intro past
    have nothing : seconds (ttlSeconds now expiresAt) ≤ 0 :=
      Int.mul_nonpos_of_nonpos_of_nonneg past (by decide)
    exact absurd ahead (not_lt.mpr (add_le_of_nonpos_right nothing))
  rw [revokeToken, if_neg positive]
  exact TtlCache.mem_set.mpr (.inl rfl)

/-- A token that has expired already is left alone. -/
theorem revokeToken_of_past (past : expiresAt ≤ now) :
    store.revokeToken now jti expiresAt = store := by
  have nothing : ttlSeconds now expiresAt ≤ 0 := by
    unfold ttlSeconds
    rw [← neg_sub, Int.neg_tdiv]
    exact neg_nonpos.mpr (Int.tdiv_nonneg (sub_nonneg.mpr past) (by decide))
  rw [revokeToken, if_pos nothing]

end Keys

end TokenRevocation

/-- `_check_revocation`: an empty `jti` is not looked up, and without `iat`
neither is the user. -/
def checkRevocation (jwt : PyJwt) (store : TokenRevocation) (now : Datetime) (token : Token)
    (context : RequestContext) : Prop :=
  ∃ p ∈ jwt.payload token, (∃ jti ∈ given p.jti, store.isRevoked now jti = true) ∨
    ∃ iat ∈ p.iat, store.isUserRevokedSince context.actorId iat

instance (jwt : PyJwt) (store : TokenRevocation) (now : Datetime) (token : Token)
    (context : RequestContext) : Decidable (checkRevocation jwt store now token context) :=
  inferInstanceAs (Decidable (∃ p ∈ jwt.payload token, _))

def tokenRevoked : AuthError := .authentication "Token has been revoked" "TOKEN_REVOKED"

/-! ## What a fresh answer rests on -/

section Fresh

variable {settings : Settings} {answers : Answers} {now : Datetime} {token : Token}
  {c c' : Caches} {context : RequestContext}

theorem verifies_of_decodeKeycloak {realm : Realm} {claims : KeycloakClaims}
    (decoded : decodeKeycloak settings answers now realm token c = (.ok claims, c')) :
    settings.Verifies now token := by
  unfold decodeKeycloak at decoded
  split at decoded
  · exact (Call.error_ne_ok decoded).elim
  · obtain ⟨_, c₁, _, rest⟩ := Call.bind_ok decoded
    exact Settings.verifies_of_decodeKeycloakToken (Call.of_ok rest).1

theorem verifies_of_operator
    (authenticated : authenticateKeycloakOperator settings answers now token c = (.ok context, c')) :
    settings.Verifies now token := by
  obtain ⟨claims, c₁, decoded, _⟩ := Call.bind_ok authenticated
  exact verifies_of_decodeKeycloak decoded

theorem verifies_of_investor {fundSlug : Option String}
    (authenticated : authenticateKeycloakInvestor settings answers now token fundSlug c =
      (.ok context, c')) : settings.Verifies now token := by
  unfold authenticateKeycloakInvestor at authenticated
  cases configured : answers.investor with
  | none =>
    rw [configured] at authenticated
    exact (Call.error_ne_ok authenticated).elim
  | some lookup =>
    rw [configured] at authenticated
    obtain ⟨claims, c₁, decoded, _⟩ := Call.bind_ok authenticated
    exact verifies_of_decodeKeycloak decoded

theorem verifies_of_fundUser {fundSlug actingAsCustomerId : Option String}
    (authenticated : authenticateKeycloak settings answers now token fundSlug actingAsCustomerId c =
      (.ok context, c')) : settings.Verifies now token := by
  obtain ⟨found, c₁, identified, _⟩ := Call.bind_ok authenticated
  obtain ⟨claims, c₂, decoded, _⟩ := Call.bind_ok identified
  exact verifies_of_decodeKeycloak decoded

theorem verifies_of_authenticateFresh {fundSlug actingAsCustomerId : Option String}
    (authenticated : authenticateFresh settings answers now token fundSlug actingAsCustomerId c =
      (.ok context, c')) : settings.Verifies now token := by
  obtain ⟨kind, c₁, _, rest⟩ := Call.bind_ok authenticated
  cases kind with
  | operator => exact verifies_of_operator rest
  | investor => exact verifies_of_investor rest
  | fundUser => exact verifies_of_fundUser rest
  | application =>
    obtain ⟨claims, c₂, decoded, _⟩ := Call.bind_ok rest
    exact Settings.verifies_of_decodeAppToken (Call.of_ok decoded).1

end Fresh

end MiniHedge.Auth
