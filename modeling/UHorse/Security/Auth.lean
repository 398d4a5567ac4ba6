import Mathlib.Data.Finset.Card
import UHorse.Lib.Program

/-!
# Tokens of the JWT service

Access tokens and refresh tokens are encoded claims; a token is revoked by its id. The calls are
programs with one action for each reading of a clock and each section under the lock of the
revoked ids.

The library that encodes and decodes is a parameter, with the secret of the service in it.
What is decoded was encoded before: the state remembers all tokens that were issued, and a text
that is no such token does not decode.
-/

namespace UHorse.Security.Auth

open UHorse.Lib

structure Claims where
  sub : String
  exp : Int
  iat : Int
  deviceId : Option String
  scopes : List String
  tokenType : String
  jti : String
deriving DecidableEq

/-- A token decodes to what was encoded until a minute after it expires. -/
structure Jwt (Token : Type) where
  encode : Claims → Token
  decode : Token → Int → Option Claims
  decode_encode : ∀ claims now,
    decode (encode claims) now = if claims.exp + 60 < now then none else some claims

theorem Jwt.encode_injective {Token : Type} (jwt : Jwt Token) : Function.Injective jwt.encode := by
  intro claims other same
  have decoded := jwt.decode_encode claims (min claims.exp other.exp)
  have decoded' := jwt.decode_encode other (min claims.exp other.exp)
  rw [if_neg (by omega)] at decoded decoded'
  rw [same, decoded'] at decoded
  exact (Option.some.inj decoded).symm

theorem Jwt.eq_of_decode {Token : Type} (jwt : Jwt Token) {claims found : Claims} {now : Int}
    (decoded : jwt.decode (jwt.encode claims) now = some found) : found = claims := by
  rw [jwt.decode_encode] at decoded
  split at decoded
  · cases decoded
  · exact (Option.some.inj decoded).symm

structure JwtAuthService (Token : Type) where
  jwt : Jwt Token
  defaultExpiry : UInt64
  refreshExpiry : UInt64

inductive AuthError
  | invalidToken
  | tokenExpired
deriving DecidableEq

structure AccessToken (Token : Type) where
  token : Token
  deviceId : Option String
  userId : Option String
  scopes : List String
  expiresAt : UInt64
  createdAt : UInt64

structure TokenPair (Token : Type) where
  accessToken : Token
  refreshToken : Token
  tokenType : String
  expiresIn : UInt64

/-- The revoked ids, and the tokens issued so far. -/
structure AuthState (Token : Type) where
  revoked : Finset String
  issued : Finset Token

/-- The clocks: of the service in seconds and in nanoseconds, and of the library; and the order
the revoked ids are iterated in. -/
structure AuthEnv where
  utcNow : Int
  nanos : Nat
  current : Int
  order : List String

/-- What the claims of a new token are made of. -/
structure Draft where
  sub : String
  deviceId : Option String
  scopes : List String
  tokenType : String
  expiresIn : UInt64
deriving DecidableEq

def generateJti (nanos : Nat) : String := "jti_" ++ toString nanos

/-- `as i64` and `as u64`. -/
def asI64 (n : UInt64) : Int := n.toInt64.toInt

def asU64 (n : Int) : UInt64 := (Int64.ofInt n).toUInt64

def Draft.claims (draft : Draft) (env : AuthEnv) : Claims where
  sub := draft.sub
  exp := env.utcNow + asI64 draft.expiresIn
  iat := env.utcNow
  deviceId := draft.deviceId
  scopes := draft.scopes
  tokenType := draft.tokenType
  jti := generateJti env.nanos

/-- Notes name the token a call was given, with its id. -/
inductive Note (Token : Type)
  | issue (draft : Draft)
  | decode (token : Token)
  | verify (token : Token) (jti : String)
  | check (token : Token) (jti : String)
  | exchange (token : Token) (jti : String)
  | revoke (token : Token) (jti : String)
  | cleanup

abbrev Process (Token α : Type) := Program (AuthState Token) AuthEnv (Note Token) α

namespace JwtAuthService

variable {Token : Type} [DecidableEq Token] (service : JwtAuthService Token)

/-! ## Sections -/

def issue (draft : Draft) : Process Token Token :=
  Program.update (.issue draft)
    (fun env s => { s with issued := insert (service.jwt.encode (draft.claims env)) s.issued })
    fun env _ => service.jwt.encode (draft.claims env)

def decode (token : Token) : Process Token (Option Claims) :=
  Program.query (.decode token) fun env s =>
    if token ∈ s.issued then service.jwt.decode token env.current else none

omit [DecidableEq Token] in
def isRevoked (note : Note Token) (jti : String) : Process Token Bool :=
  Program.query note fun _ s => decide (jti ∈ s.revoked)

def insertRevoked (note : Note Token) (jti : String) : Process Token Unit :=
  Program.update note (fun _ s => { s with revoked := insert jti s.revoked }) fun _ _ => ()

/-- What `cleanup_revoked` removes. -/
def stale (revoked : Finset String) (order : List String) : Finset String :=
  if 10000 < revoked.card then (order.take (revoked.card / 2)).toFinset else ∅

def cleanupRevoked : Process Token Unit :=
  Program.update .cleanup
    (fun env s => { s with revoked := s.revoked \ stale s.revoked env.order }) fun _ _ => ()

/-- A call that first decodes its token and goes on with the claims. -/
def withClaims {α : Type} (token : Token) (refused : α) (process : Claims → Process Token α) :
    Process Token α := do
  let decoded ← service.decode token
  match decoded with
  | none => pure refused
  | some claims => process claims

/-! ## Calls -/

def createAccessToken (subject : String) (deviceId : Option String) (scopes : List String) :
    Process Token Token :=
  service.issue ⟨subject, deviceId, scopes, "access", service.defaultExpiry⟩

def createRefreshToken (subject : String) (deviceId : Option String) : Process Token Token :=
  service.issue ⟨subject, deviceId, ["refresh"], "refresh", service.refreshExpiry⟩

def subjectOf (deviceId userId : Option String) : String := userId.getD (deviceId.getD "")

def createToken (deviceId userId : Option String) (scopes : List String) (expiresIn : UInt64) :
    Process Token Token :=
  service.issue ⟨subjectOf deviceId userId, deviceId, scopes, "access", expiresIn⟩

def createTokenPair (deviceId userId : Option String) (scopes : List String) :
    Process Token (TokenPair Token) := do
  let subject := subjectOf deviceId userId
  let accessToken ← service.createAccessToken subject deviceId scopes
  let refreshToken ← service.createRefreshToken subject deviceId
  pure ⟨accessToken, refreshToken, "Bearer", service.defaultExpiry⟩

def accessToken (token : Token) (claims : Claims) : AccessToken Token where
  token := token
  deviceId := claims.deviceId
  userId := some claims.sub
  scopes := claims.scopes
  expiresAt := asU64 claims.exp
  createdAt := asU64 claims.iat

def verifyToken (token : Token) : Process Token (Except AuthError (AccessToken Token)) :=
  service.withClaims token (.error .invalidToken) fun claims =>
    if claims.tokenType = "access" then do
      let revoked ← isRevoked (.verify token claims.jti) claims.jti
      if revoked then pure (.error .tokenExpired) else pure (.ok (accessToken token claims))
    else pure (.error .invalidToken)

/-- An expired token is not refreshed after all. -/
def verifyWithAutoRefresh (token : Token) :
    Process Token (Except AuthError (AccessToken Token)) :=
  service.verifyToken token

def revokeToken (token : Token) : Process Token (Except AuthError Unit) :=
  service.withClaims token (.error .invalidToken) fun claims => do
    insertRevoked (.revoke token claims.jti) claims.jti
    pure (.ok ())

/-- What `refresh_token` and `refresh_access_token` do before they create tokens. -/
def exchange (token : Token) : Process Token (Except AuthError Claims) :=
  service.withClaims token (.error .invalidToken) fun claims =>
    if claims.tokenType = "refresh" then do
      let revoked ← isRevoked (.check token claims.jti) claims.jti
      if revoked then pure (.error .tokenExpired)
      else do
        insertRevoked (.exchange token claims.jti) claims.jti
        pure (.ok claims)
    else pure (.error .invalidToken)

def refreshToken (token : Token) : Process Token (Except AuthError Token) := do
  let exchanged ← service.exchange token
  match exchanged with
  | .error error => pure (.error error)
  | .ok claims => do
      let renewed ← service.createAccessToken claims.sub claims.deviceId []
      pure (.ok renewed)

def refreshAccessToken (token : Token) : Process Token (Except AuthError (TokenPair Token)) := do
  let exchanged ← service.exchange token
  match exchanged with
  | .error error => pure (.error error)
  | .ok claims => do
      let pair ← service.createTokenPair claims.deviceId (some claims.sub) []
      pure (.ok pair)

end JwtAuthService

end UHorse.Security.Auth
