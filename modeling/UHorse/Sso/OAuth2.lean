import UHorse.Lib.Program
import UHorse.Protocol.Types

/-!
# The OAuth2 authorization server

The server keeps clients, authorization codes and tokens in three maps, each under a lock of its
own. A call is a program of the sections it runs under these locks; an exchange holds the lock of
the codes until it has stored its tokens.

Generated strings come from outside, and the server remembers which ones were generated.
-/

namespace UHorse.Sso

open UHorse.Lib UHorse.Protocol

/-! ## Clients, codes and tokens -/

inductive SsoError
  | tokenError (message : String)
  | authenticationFailed (message : String)
  | invalidState (message : String)
deriving DecidableEq

structure OAuth2Config where
  authCodeTtl : UInt64
  accessTokenTtl : UInt64
  refreshTokenTtl : UInt64
  enableRefreshToken : Bool

/-- `chrono::Duration::seconds(ttl as i64)`. -/
def ttlSeconds (ttl : UInt64) : Int := ttl.toInt64.toInt * 1000000000

structure OAuth2Client where
  clientId : String
  clientSecret : String
  redirectUris : List String
  name : String
  grantTypes : List String
  scope : List String
  enabled : Bool
deriving DecidableEq

def OAuth2Client.validateRedirectUri (client : OAuth2Client) (uri : String) : Bool :=
  client.redirectUris.any (· = uri)

structure AuthorizationCode where
  code : String
  clientId : String
  redirectUri : String
  userId : String
  scope : List String
  state : Option String
  createdAt : DateTime
  expiresAt : DateTime
  used : Bool
deriving DecidableEq

namespace AuthorizationCode

def new (clientId redirectUri userId : String) (scope : List String) (ttlSecs : UInt64)
    (code : String) (now : DateTime) : AuthorizationCode where
  code := code
  clientId := clientId
  redirectUri := redirectUri
  userId := userId
  scope := scope
  state := none
  createdAt := now
  expiresAt := now + ttlSeconds ttlSecs
  used := false

def isExpired (authCode : AuthorizationCode) (now : DateTime) : Bool := authCode.expiresAt < now

def markUsed (authCode : AuthorizationCode) : AuthorizationCode := { authCode with used := true }

end AuthorizationCode

structure TokenInfo where
  accessToken : String
  refreshToken : Option String
  clientId : String
  userId : String
  scope : List String
  createdAt : DateTime
  expiresAt : DateTime
deriving DecidableEq

def TokenInfo.isExpired (info : TokenInfo) (now : DateTime) : Bool := info.expiresAt < now

structure TokenResponse where
  accessToken : String
  tokenType : String
  expiresIn : UInt64
  refreshToken : Option String
  scope : Option String
  idToken : Option String

/-! ## The state of the server -/

structure OAuth2Server where
  clients : HashMap String OAuth2Client
  authCodes : HashMap String AuthorizationCode
  /-- Whether an exchange holds the lock of the codes. -/
  exchanging : Bool
  tokens : HashMap String TokenInfo
  clock : DateTime
  generated : List String

/-- The strings an action generates, if it does. -/
structure OAuth2Env where
  first : String
  second : String

/-- What `generate_token_response` stores: the entry under the access token, and the one under
the refresh token if there is one. -/
structure NewTokens where
  tokenInfo : TokenInfo
  refreshInfo : Option (String × TokenInfo)
deriving DecidableEq

namespace OAuth2Server

variable (config : OAuth2Config) (s : OAuth2Server)

def new (clock : DateTime) : OAuth2Server := ⟨∅, ∅, false, ∅, clock, []⟩

def insertClient (client : OAuth2Client) : OAuth2Server :=
  { s with clients := s.clients.insert client.clientId client }

def insertCode (authCode : AuthorizationCode) : OAuth2Server :=
  { s with authCodes := s.authCodes.insert authCode.code authCode }

/-- The checks of an exchange, in the order of the source. -/
def checkCode (code clientId redirectUri : String) : Except SsoError AuthorizationCode :=
  match s.authCodes.lookup code with
  | none => .error (.invalidState "Invalid authorization code")
  | some authCode =>
    if authCode.clientId ≠ clientId then .error (.authenticationFailed "Client ID mismatch")
    else if authCode.redirectUri ≠ redirectUri then
      .error (.authenticationFailed "Redirect URI mismatch")
    else if authCode.used then .error (.invalidState "Authorization code already used")
    else if authCode.isExpired s.clock then .error (.invalidState "Authorization code expired")
    else .ok authCode

/-- A code that passes the checks is marked as used, and the lock of the codes is kept. -/
def takeCode (code clientId redirectUri : String) : OAuth2Server :=
  match s.checkCode code clientId redirectUri with
  | .error _ => s
  | .ok authCode =>
    { s with authCodes := s.authCodes.insert code authCode.markUsed, exchanging := true }

def checkRefresh (refreshToken clientId : String) : Except SsoError TokenInfo :=
  match s.tokens.lookup refreshToken with
  | none => .error (.invalidState "Invalid refresh token")
  | some info =>
    if info.clientId ≠ clientId then .error (.authenticationFailed "Client ID mismatch")
    else if info.isExpired s.clock then .error (.invalidState "Refresh token expired")
    else .ok info

/-- The entries for two generated strings. -/
def newTokens (clientId userId : String) (scope : List String) (env : OAuth2Env) : NewTokens :=
  let accessToken := env.first
  let refreshToken := if config.enableRefreshToken then some env.second else none
  let entry : UInt64 → TokenInfo := fun ttl =>
    ⟨accessToken, refreshToken, clientId, userId, scope, s.clock, s.clock + ttlSeconds ttl⟩
  { tokenInfo := entry config.accessTokenTtl
    refreshInfo := refreshToken.map fun refresh => (refresh, entry config.refreshTokenTtl) }

def generate (env : OAuth2Env) : OAuth2Server :=
  { s with generated := env.first :: env.second :: s.generated }

def storeTokens (issue : NewTokens) : OAuth2Server :=
  let stored := s.tokens.insert issue.tokenInfo.accessToken issue.tokenInfo
  match issue.refreshInfo with
  | none => { s with tokens := stored }
  | some (refresh, info) => { s with tokens := stored.insert refresh info }

def checkToken (accessToken : String) : Except SsoError TokenInfo :=
  match s.tokens.lookup accessToken with
  | none => .error (.tokenError "Invalid access token")
  | some info =>
    if info.isExpired s.clock then .error (.tokenError "Access token expired") else .ok info

def removeToken (token : String) : OAuth2Server := { s with tokens := s.tokens.erase token }

end OAuth2Server

/-! ## Calls -/

/-- Notes name what an action is given. -/
inductive Note
  | register (client : OAuth2Client)
  | code (clientId redirectUri userId : String) (scope : List String)
  | grant (authCode : AuthorizationCode)
  | exchange (code clientId redirectUri : String)
  | refresh (refreshToken clientId : String)
  | generate (clientId userId : String) (scope : List String)
  | store (issue : NewTokens)
  | release
  | validate (accessToken : String)
  | revoke (token : String)

abbrev Process (α : Type) := Program OAuth2Server OAuth2Env Note α

namespace OAuth2Server

variable (config : OAuth2Config)

def registerClient (client : OAuth2Client) : Process Unit :=
  Program.update (.register client) (fun _ s => s.insertClient client) fun _ _ => ()

/-- `AuthorizationCode::new`, which reads the clock and generates the code. -/
def generateCode (clientId redirectUri userId : String) (scope : List String) :
    Process AuthorizationCode :=
  Program.update (.code clientId redirectUri userId scope) (fun env s => s.generate env)
    fun env s => .new clientId redirectUri userId scope config.authCodeTtl env.first s.clock

def createAuthCode (clientId redirectUri userId : String) (scope : List String) :
    Process AuthorizationCode := do
  let authCode ← generateCode config clientId redirectUri userId scope
  Program.await (.grant authCode) (fun s => !s.exchanging) fun _ s => s.insertCode authCode
  pure authCode

def generateTokens (clientId userId : String) (scope : List String) : Process NewTokens :=
  Program.update (.generate clientId userId scope) (fun env s => s.generate env)
    fun env s => newTokens config s clientId userId scope env

def generateTokenResponse (clientId userId : String) (scope : List String) :
    Process TokenResponse := do
  let issue ← generateTokens config clientId userId scope
  Program.update (.store issue) (fun _ s => s.storeTokens issue) fun _ _ => ()
  pure {
    accessToken := issue.tokenInfo.accessToken
    tokenType := "Bearer"
    expiresIn := config.accessTokenTtl
    refreshToken := issue.tokenInfo.refreshToken
    scope := some (" ".intercalate scope)
    idToken := none }

def beginExchange (code clientId redirectUri : String) :
    Process (Except SsoError AuthorizationCode) :=
  .act (.exchange code clientId redirectUri) (fun s => !s.exchanging)
    (fun _ s => s.takeCode code clientId redirectUri)
    fun _ s => pure (s.checkCode code clientId redirectUri)

def exchangeAuthCode (code clientId redirectUri : String) :
    Process (Except SsoError TokenResponse) := do
  match ← beginExchange code clientId redirectUri with
  | .error error => pure (.error error)
  | .ok authCode => do
      let response ← generateTokenResponse config clientId authCode.userId authCode.scope
      Program.update .release (fun _ s => { s with exchanging := false }) fun _ _ => ()
      pure (.ok response)

def beginRefresh (refreshToken clientId : String) : Process (Except SsoError TokenInfo) :=
  Program.query (.refresh refreshToken clientId) fun _ s => s.checkRefresh refreshToken clientId

def refreshToken (token clientId : String) : Process (Except SsoError TokenResponse) := do
  match ← beginRefresh token clientId with
  | .error error => pure (.error error)
  | .ok info => do
      let response ← generateTokenResponse config clientId info.userId info.scope
      pure (.ok response)

def validateToken (accessToken : String) : Process (Except SsoError TokenInfo) :=
  Program.query (.validate accessToken) fun _ s => s.checkToken accessToken

def revokeToken (token : String) : Process Bool :=
  Program.update (.revoke token) (fun _ s => s.removeToken token)
    fun _ s => (s.tokens.lookup token).isSome

end OAuth2Server

end UHorse.Sso
