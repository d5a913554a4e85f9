import MiniHedge.Auth.Permissions

/-! Tokens and what is read from them.

A token is the text between its dots. Parsing and signatures are those of the
JWT library, which is a parameter: `hs256` and `rs256` hold when the signature
is the one of this header and payload, under the secret of the application or a
key of the realm. Time is counted in microseconds.
-/

set_option autoImplicit false

namespace MiniHedge.Auth

open MiniHedge.Python

def seconds (n : Int) : Int := n * 1000000

structure Token where
  /-- The segments before the last. -/
  head : List String
  signature : String
  deriving DecidableEq, Repr

inductive ActorType where
  | user
  | apiKey
  | agent
  | operator
  | investor
  | system
  deriving DecidableEq, Repr

structure Payload where
  sub : Option String := none
  iss : String := ""
  aud : List String := []
  exp : Option Datetime := none
  iat : Option Datetime := none
  nbf : Option Datetime := none
  jti : Option String := none
  email : String := ""
  name : String := ""
  actorType : Option ActorType := none
  roles : List String := []
  fundSlug : Option String := none
  fundId : Option String := none
  customerId : Option String := none
  delegatedBy : Option String := none
  deriving DecidableEq, Repr

structure PyJwt where
  /-- The `alg` of a header that can be parsed. -/
  alg : Token → Option (Option String)
  payload : Token → Option Payload
  hs256 : Token → Bool
  rs256 : String → Token → Bool

/-- What can go wrong: an error with its code, or an exception that passes through. -/
inductive AuthError where
  | authentication (message code : String)
  | authorization (message code : String)
  | raised (exc : Exc)
  deriving DecidableEq, Repr

def invalidToken : AuthError := .authentication "Invalid token" "INVALID_TOKEN"

/-- The checks of the registered claims, none of which has to be there. -/
def Payload.Timely (p : Payload) (now : Datetime) : Prop :=
  (∀ exp ∈ p.exp, now < exp) ∧ (∀ iat ∈ p.iat, iat ≤ now) ∧ ∀ nbf ∈ p.nbf, nbf ≤ now

instance (p : Payload) (now : Datetime) : Decidable (p.Timely now) :=
  inferInstanceAs (Decidable (_ ∧ _ ∧ _))

/-- An empty text counts as none. -/
def given (text : Option String) : Option String := text.filter (· ≠ "")

@[simp] theorem given_none : given none = none := rfl

theorem given_some {text : String} (nonempty : text ≠ "") : given (some text) = some text := by
  simp [given, nonempty]

/-! ## Request contexts -/

structure RequestContext where
  actorId : String
  actorType : ActorType
  customerId : Option String := none
  homeCustomerId : Option String := none
  actingAsCustomerId : Option String := none
  fundSlug : Option String := none
  fundId : Option String := none
  roles : List String := []
  permissions : List Permission := []
  platformRole : Option String := none
  delegatedBy : Option String := none
  deriving DecidableEq, Repr

/-! ## Tokens of the application -/

structure TokenClaims where
  sub : String
  actorType : ActorType
  fundSlug : Option String
  fundId : Option String
  customerId : Option String
  roles : List String
  exp : Datetime
  iat : Datetime
  jti : String
  delegatedBy : Option String
  deriving DecidableEq, Repr

def field {α : Type} (key : String) : Option α → Except AuthError α
  | some value => .ok value
  | none => .error (.raised (.keyError key))

def Payload.tokenClaims (p : Payload) : Except AuthError TokenClaims := do
  let sub ← field "sub" p.sub
  let actorType ← field "actor_type" p.actorType
  let exp ← field "exp" p.exp
  let iat ← field "iat" p.iat
  let jti ← field "jti" p.jti
  return { sub, actorType, exp, iat, jti, fundSlug := p.fundSlug, fundId := p.fundId,
           customerId := p.customerId, roles := p.roles, delegatedBy := p.delegatedBy }

def PyJwt.decodeAppToken (jwt : PyJwt) (now : Datetime) (token : Token) :
    Except AuthError TokenClaims :=
  match jwt.payload token with
  | none => .error invalidToken
  | some p =>
    -- no audience is asked for, so that a token may not name one
    if jwt.hs256 token ∧ p.Timely now ∧ p.aud = [] then p.tokenClaims else .error invalidToken

def TokenClaims.context (claims : TokenClaims) : RequestContext where
  actorId := claims.sub
  actorType := claims.actorType
  customerId := claims.customerId
  homeCustomerId := claims.customerId
  fundSlug := claims.fundSlug
  fundId := claims.fundId
  roles := claims.roles
  permissions := resolvePermissions claims.roles
  delegatedBy := claims.delegatedBy

/-! ## Tokens of Keycloak -/

structure KeycloakClaims where
  sub : String
  email : String
  name : String
  deriving DecidableEq, Repr

/-- A realm and the client that its tokens are for. -/
structure Realm where
  realm : String
  clientId : String
  deriving DecidableEq, Repr

structure Settings where
  jwt : PyJwt
  keycloakUrl : String
  keycloakBrowserUrl : String := ""
  fundRealm : Realm
  opsRealm : Realm := ⟨"", ""⟩
  investorsRealm : Realm := ⟨"", ""⟩
  /-- The realm, if it has its own, of a customer; what is left out is the default. -/
  customerRealm : String → Option (Option String × Option String) := fun _ => none
  servicingEdgeRepo : Bool := true

namespace Settings

variable (settings : Settings)

/-- `resolve_customer_realm`. -/
def resolveFundRealm (actingAsCustomerId : Option String) : Realm :=
  match (given actingAsCustomerId).bind settings.customerRealm with
  | none => settings.fundRealm
  | some (realm, clientId) =>
    ⟨realm.getD settings.fundRealm.realm, clientId.getD settings.fundRealm.clientId⟩

def issuer (realm : Realm) : String :=
  (given (some settings.keycloakBrowserUrl)).getD settings.keycloakUrl ++ "/realms/" ++ realm.realm

/-- `decode_keycloak_token`: an invalid token raises `PyJWTError`. -/
def decodeKeycloakToken (realm : Realm) (now : Datetime) (token : Token) :
    Except AuthError KeycloakClaims :=
  match settings.jwt.payload token with
  | none => .error invalidToken
  | some p =>
    if settings.jwt.rs256 realm.realm token ∧ p.Timely now ∧ ("account" ∈ p.aud ∨ realm.clientId ∈ p.aud)
        ∧ p.iss = settings.issuer realm then
      match p.sub with
      | none => .error (.raised (.keyError "sub"))
      | some sub => .ok ⟨sub, p.email, p.name⟩
    else .error invalidToken

/-- The token is signed, by the application or in some realm. -/
def Signed (token : Token) : Prop :=
  settings.jwt.hs256 token ∨ ∃ realm, settings.jwt.rs256 realm token

/-- The token is signed and in time. -/
def Verifies (now : Datetime) (token : Token) : Prop :=
  settings.Signed token ∧ ∃ p, settings.jwt.payload token = some p ∧ p.Timely now

variable {settings} {realm : Realm} {now : Datetime} {token : Token}

theorem verifies_of_decodeKeycloakToken {claims : KeycloakClaims}
    (decoded : settings.decodeKeycloakToken realm now token = .ok claims) :
    settings.Verifies now token := by
  unfold decodeKeycloakToken at decoded
  split at decoded
  · cases decoded
  · rename_i p parsed
    split at decoded
    · rename_i valid
      exact ⟨.inr ⟨realm.realm, valid.1⟩, p, parsed, valid.2.1⟩
    · cases decoded

theorem verifies_of_decodeAppToken {claims : TokenClaims}
    (decoded : settings.jwt.decodeAppToken now token = .ok claims) :
    settings.Verifies now token := by
  unfold PyJwt.decodeAppToken at decoded
  split at decoded
  · cases decoded
  · rename_i p parsed
    split at decoded
    · rename_i valid
      exact ⟨.inl valid.1, p, parsed, valid.2.1⟩
    · cases decoded

end Settings

end MiniHedge.Auth
