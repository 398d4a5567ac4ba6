import UHorse.Hub.NodeManager
import UHorse.Lib.Runs
import UHorse.Security.TokenRevocation

/-!
# Authenticated nodes

The hub gives a node a pair of tokens when it authenticates, keeps what it gave out in a cache,
and forgets the cache's entry when the node is revoked. Tokens are verified and refreshed by the
JWT service alone, whose revoked ids are those of the refresh tokens exchanged so far.
-/

namespace UHorse.Hub.Authentication

open UHorse.Lib UHorse.Protocol UHorse.Security.Auth

/-! ## The node authenticator -/

structure NodeAuthInfo (Token : Type) where
  nodeId : NodeId
  accessToken : Token
  refreshToken : Token
  expiresAt : Int
  authenticatedAt : Int

structure NodeAuthenticator (Token : Type) where
  jwtService : AuthState Token
  authenticatedNodes : HashMap NodeId (NodeAuthInfo Token)

inductive Note (Token : Type)
  | jwt (note : Security.Auth.Note Token)
  | readClock
  | cache (nodeId : NodeId)
  | revoke (nodeId : NodeId)

abbrev Handler (Token α : Type) := Program (NodeAuthenticator Token) AuthEnv (Note Token) α

def displayAuthError : AuthError → String
  | .invalidToken => "Invalid token"
  | .tokenExpired => "Token expired"

section Calls

variable {Token : Type} [DecidableEq Token] (service : JwtAuthService Token)

/-- A call of the JWT service. -/
def jwt {α : Type} (process : Process Token α) : Handler Token α :=
  process.zoom NodeAuthenticator.jwtService
    (fun jwtService authenticator => { authenticator with jwtService }) id .jwt

omit [DecidableEq Token] in
def readClock : Handler Token Int := Program.query .readClock fun env _ => env.utcNow

omit [DecidableEq Token] in
/-- Keep what was given out in the cache. -/
def cacheInfo (info : NodeAuthInfo Token) : Handler Token Unit :=
  Program.update (.cache info.nodeId)
    (fun _ s => { s with authenticatedNodes := s.authenticatedNodes.insert info.nodeId info })
    fun _ _ => ()

def authenticateNode (nodeId : NodeId) (credentials : String) :
    Handler Token (Except HubError (NodeAuthInfo Token)) :=
  if credentials = "" then pure (.error (.permission "Empty credentials"))
  else do
    let pair ← jwt (service.createTokenPair none (some nodeId.value) ["node"])
    let expiresAt ← readClock
    let authenticatedAt ← readClock
    let info : NodeAuthInfo Token :=
      ⟨nodeId, pair.accessToken, pair.refreshToken, expiresAt + 3600, authenticatedAt⟩
    cacheInfo info
    pure (.ok info)

def verifyToken (token : Token) : Handler Token (Except HubError NodeId) := do
  let verified ← jwt (service.verifyWithAutoRefresh token)
  match verified with
  | .error error =>
    pure (.error (.permission ("Token verification failed: " ++ displayAuthError error)))
  | .ok accessToken => pure (.ok ⟨accessToken.userId.getD "unknown"⟩)

def refreshToken (token : Token) : Handler Token (Except HubError (TokenPair Token)) := do
  let refreshed ← jwt (service.refreshAccessToken token)
  match refreshed with
  | .error error =>
    pure (.error (.permission ("Token refresh failed: " ++ displayAuthError error)))
  | .ok pair => pure (.ok pair)

omit [DecidableEq Token] in
def revokeNode (nodeId : NodeId) : Handler Token (Except HubError Unit) :=
  Program.update (.revoke nodeId)
    (fun _ s => { s with authenticatedNodes := s.authenticatedNodes.erase nodeId })
    fun _ _ => .ok ()

end Calls

/-! ## Calls of the JWT service that run alone -/

section Runs

variable {Token : Type} [DecidableEq Token] {service : JwtAuthService Token}
  {s t : AuthState Token} {trace : List (Security.Auth.Note Token × AuthEnv)} {claims : Claims}

/-- Only encoded claims have been issued, and they are of the two kinds. -/
def OfKinds (service : JwtAuthService Token) (s : AuthState Token) : Prop :=
  ∀ token ∈ s.issued, ∃ claims, token = service.jwt.encode claims ∧
    (claims.tokenType = "access" ∨ claims.tokenType = "refresh")

/-- The token was issued, has not expired, is of the kind and is not revoked. -/
structure Usable (service : JwtAuthService Token) (s : AuthState Token) (now : Int)
    (kind : String) (claims : Claims) : Prop where
  issued : service.jwt.encode claims ∈ s.issued
  unexpired : now ≤ claims.exp + 60
  kind : claims.tokenType = kind
  fresh : claims.jti ∉ s.revoked

theorem runs_decode {decoded : Option Claims} :
    (service.decode (service.jwt.encode claims)).Runs s trace decoded t ↔
      ∃ env, trace = [(.decode (service.jwt.encode claims), env)] ∧ t = s ∧
        decoded = if service.jwt.encode claims ∈ s.issued ∧ env.current ≤ claims.exp + 60
          then some claims else none := by
  have decoded_eq : ∀ env : AuthEnv,
      (if service.jwt.encode claims ∈ s.issued then
        service.jwt.decode (service.jwt.encode claims) env.current else none) =
      if service.jwt.encode claims ∈ s.issued ∧ env.current ≤ claims.exp + 60
        then some claims else none := by
    intro env
    rw [service.jwt.decode_encode]
    by_cases issued : service.jwt.encode claims ∈ s.issued
    · by_cases expired : claims.exp + 60 < env.current
      · have late : ¬ env.current ≤ claims.exp + 60 := by omega
        simp only [issued, expired, late, if_true, and_false, if_false]
      · have early : env.current ≤ claims.exp + 60 := by omega
        simp only [issued, expired, early, if_true, and_self, if_false]
    · simp only [issued, false_and, if_false]
  constructor
  · intro runs
    obtain ⟨env, rfl, rfl, rfl⟩ := Program.runs_query.mp runs
    exact ⟨env, rfl, rfl, decoded_eq env⟩
  · rintro ⟨env, rfl, rfl, rfl⟩
    exact Program.runs_query.mpr ⟨env, rfl, (decoded_eq env).symm, rfl⟩

/-- A decoding call that succeeds goes on with the claims. -/
theorem runs_withClaims {α : Type} {refused value : α} {process : Claims → Process Token α}
    (differs : value ≠ refused) :
    (service.withClaims (service.jwt.encode claims) refused process).Runs s trace value t ↔
      service.jwt.encode claims ∈ s.issued ∧ ∃ env rest,
        trace = (.decode (service.jwt.encode claims), env) :: rest ∧
          env.current ≤ claims.exp + 60 ∧ (process claims).Runs s rest value t := by
  rw [JwtAuthService.withClaims, Program.runs_bind]
  constructor
  · rintro ⟨first, rest, decoded, u, rfl, decodes, runs⟩
    obtain ⟨env, rfl, rfl, rfl⟩ := runs_decode.mp decodes
    split at runs
    · next missing =>
        obtain ⟨-, rfl, -⟩ := runs
        exact absurd rfl differs
    · next found =>
        split at found
        · next usable =>
            cases found
            exact ⟨usable.1, env, rest, rfl, usable.2, runs⟩
        · cases found
  · rintro ⟨issued, env, rest, rfl, unexpired, runs⟩
    refine ⟨[_], rest, some claims, s, rfl, runs_decode.mpr ⟨env, rfl, rfl, ?_⟩, runs⟩
    rw [if_pos ⟨issued, unexpired⟩]

theorem verifyToken_runs {access : AccessToken Token} :
    (service.verifyToken (service.jwt.encode claims)).Runs s trace (.ok access) t ↔
      access = JwtAuthService.accessToken (service.jwt.encode claims) claims ∧ t = s ∧
        ∃ first second, Usable service s first.current "access" claims ∧
          trace = [(.decode (service.jwt.encode claims), first),
            (.verify (service.jwt.encode claims) claims.jti, second)] := by
  have differs : Except.ok access ≠ Except.error AuthError.invalidToken := nofun
  rw [JwtAuthService.verifyToken, runs_withClaims differs]
  constructor
  · rintro ⟨issued, env, rest, rfl, unexpired, runs⟩
    split at runs
    · next kind =>
        obtain ⟨first, second, revoked, u, rfl, checks, runs⟩ := Program.runs_bind.mp runs
        obtain ⟨env', rfl, rfl, rfl⟩ := Program.runs_query.mp checks
        split at runs
        · obtain ⟨-, same, -⟩ := runs
          cases same
        · next fresh =>
            obtain ⟨rfl, same, rfl⟩ := runs
            exact ⟨Except.ok.inj same, rfl, env, env',
              ⟨issued, unexpired, kind, by simpa using fresh⟩, rfl⟩
    · obtain ⟨-, same, -⟩ := runs
      cases same
  · rintro ⟨rfl, rfl, first, second, usable, rfl⟩
    refine ⟨usable.issued, first, _, rfl, usable.unexpired, ?_⟩
    rw [if_pos usable.kind]
    refine Program.runs_bind.mpr ⟨[_], [], false, _, rfl, ?_, ⟨rfl, rfl, rfl⟩⟩
    exact Program.runs_query.mpr ⟨second, rfl, (decide_eq_false usable.fresh).symm, rfl⟩

/-- An exchange that succeeds marks the token as revoked. -/
theorem exchange_runs {found : Claims} :
    (service.exchange (service.jwt.encode claims)).Runs s trace (.ok found) t ↔
      found = claims ∧ t = { s with revoked := insert claims.jti s.revoked } ∧
        ∃ first second third, Usable service s first.current "refresh" claims ∧
          trace = [(.decode (service.jwt.encode claims), first),
            (.check (service.jwt.encode claims) claims.jti, second),
            (.exchange (service.jwt.encode claims) claims.jti, third)] := by
  have differs : Except.ok found ≠ Except.error AuthError.invalidToken := nofun
  rw [JwtAuthService.exchange, runs_withClaims differs]
  constructor
  · rintro ⟨issued, env, rest, rfl, unexpired, runs⟩
    split at runs
    · next kind =>
        obtain ⟨first, second, revoked, u, rfl, checks, runs⟩ := Program.runs_bind.mp runs
        obtain ⟨env', rfl, rfl, rfl⟩ := Program.runs_query.mp checks
        split at runs
        · obtain ⟨-, same, -⟩ := runs
          cases same
        · next fresh =>
            obtain ⟨_, _, _, u, rfl, marks, ⟨rfl, same, rfl⟩⟩ := Program.runs_bind.mp runs
            obtain ⟨env'', rfl, -, rfl⟩ := Program.runs_update.mp marks
            exact ⟨Except.ok.inj same, rfl, env, env', env'',
              ⟨issued, unexpired, kind, by simpa using fresh⟩, rfl⟩
    · obtain ⟨-, same, -⟩ := runs
      cases same
  · rintro ⟨rfl, rfl, first, second, third, usable, rfl⟩
    refine ⟨usable.issued, first, _, rfl, usable.unexpired, ?_⟩
    rw [if_pos usable.kind]
    refine Program.runs_bind.mpr ⟨[_], [_], false, s, rfl, ?_, ?_⟩
    · exact Program.runs_query.mpr ⟨second, rfl, (decide_eq_false usable.fresh).symm, rfl⟩
    · refine Program.runs_bind.mpr ⟨[_], [], (), _, rfl, ?_, ⟨rfl, rfl, rfl⟩⟩
      exact Program.runs_update.mpr ⟨third, rfl, rfl, rfl⟩

variable {token : Token} {pair : TokenPair Token}

/-- A token that was not issued is refused. -/
theorem issued_of_exchange {found : Claims}
    (runs : (service.exchange token).Runs s trace (.ok found) t) : token ∈ s.issued := by
  rw [JwtAuthService.exchange, JwtAuthService.withClaims, Program.runs_bind] at runs
  obtain ⟨first, rest, decoded, u, rfl, decodes, runs⟩ := runs
  obtain ⟨env, rfl, rfl, rfl⟩ := Program.runs_query.mp decodes
  split at runs
  · obtain ⟨-, same, -⟩ := runs
    cases same
  · next matched =>
      split at matched
      · next issued => exact issued
      · cases matched

/-- An exchange that fails changes nothing. -/
theorem exchange_error {error : AuthError}
    (runs : (service.exchange token).Runs s trace (.error error) t) : t = s := by
  rw [JwtAuthService.exchange, JwtAuthService.withClaims, Program.runs_bind] at runs
  obtain ⟨first, rest, decoded, u, rfl, decodes, runs⟩ := runs
  obtain ⟨env, rfl, -, rfl⟩ := Program.runs_query.mp decodes
  cases decoded with
  | none => exact runs.2.2
  | some claims =>
    dsimp only at runs
    split at runs
    · obtain ⟨first, second, revoked, u, rfl, checks, runs⟩ := Program.runs_bind.mp runs
      obtain ⟨env', rfl, -, rfl⟩ := Program.runs_query.mp checks
      cases revoked with
      | true => exact runs.2.2
      | false =>
        obtain ⟨_, _, _, u, rfl, -, ⟨-, same, -⟩⟩ := Program.runs_bind.mp runs
        cases same
    · exact runs.2.2

/-- The claims of two tokens, which are for one subject and of the two kinds. -/
structure PairClaims (service : JwtAuthService Token) (subject : String)
    (accessToken refreshToken : Token) (access refresh : Claims) : Prop where
  accessToken : accessToken = service.jwt.encode access
  refreshToken : refreshToken = service.jwt.encode refresh
  subjects : access.sub = subject ∧ refresh.sub = subject
  kinds : access.tokenType = "access" ∧ refresh.tokenType = "refresh"

theorem createTokenPair_runs {deviceId userId : Option String} {scopes : List String}
    (runs : (service.createTokenPair deviceId userId scopes).Runs s trace pair t) :
    ∃ access refresh,
      PairClaims service (JwtAuthService.subjectOf deviceId userId) pair.accessToken
          pair.refreshToken access refresh ∧
        t = ⟨s.revoked, insert pair.refreshToken (insert pair.accessToken s.issued)⟩ := by
  obtain ⟨first, rest, access, u, rfl, issues, runs⟩ := Program.runs_bind.mp runs
  obtain ⟨env, rfl, rfl, rfl⟩ := Program.runs_update.mp issues
  obtain ⟨second, rest, refresh, u, rfl, issues, ⟨-, rfl, rfl⟩⟩ := Program.runs_bind.mp runs
  obtain ⟨env', rfl, rfl, rfl⟩ := Program.runs_update.mp issues
  exact ⟨_, _, ⟨rfl, rfl, ⟨rfl, rfl⟩, rfl, rfl⟩, rfl⟩

variable (service s) in
theorem createTokenPair_exists (deviceId userId : Option String) (scopes : List String)
    (env : AuthEnv) : ∃ inner pair t,
      (service.createTokenPair deviceId userId scopes).Runs s inner pair t ∧
        ∀ entry ∈ inner, entry.2 = env := by
  refine ⟨_, _, _, Program.runs_bind.mpr ⟨[_], [_], _, _, rfl,
    Program.runs_update.mpr ⟨env, rfl, rfl, rfl⟩, Program.runs_bind.mpr ⟨[_], [], _, _, rfl,
      Program.runs_update.mpr ⟨env, rfl, rfl, rfl⟩, ⟨rfl, rfl, rfl⟩⟩⟩, ?_⟩
  simp

theorem issued_of_refreshAccessToken
    (runs : (service.refreshAccessToken token).Runs s trace (.ok pair) t) : token ∈ s.issued := by
  rw [JwtAuthService.refreshAccessToken, Program.runs_bind] at runs
  obtain ⟨first, rest, exchanged, u, rfl, exchanges, runs⟩ := runs
  cases exchanged with
  | error error =>
    obtain ⟨-, same, -⟩ := runs
    cases same
  | ok found => exact issued_of_exchange exchanges

theorem refreshAccessToken_error {error : AuthError}
    (runs : (service.refreshAccessToken token).Runs s trace (.error error) t) : t = s := by
  rw [JwtAuthService.refreshAccessToken, Program.runs_bind] at runs
  obtain ⟨first, rest, exchanged, u, rfl, exchanges, runs⟩ := runs
  cases exchanged with
  | error error =>
    obtain ⟨-, -, rfl⟩ := runs
    exact exchange_error exchanges
  | ok found =>
    obtain ⟨_, _, _, u, rfl, -, ⟨-, same, -⟩⟩ := Program.runs_bind.mp runs
    cases same

theorem refreshAccessToken_runs
    (runs : (service.refreshAccessToken (service.jwt.encode claims)).Runs s trace (.ok pair) t) :
    ∃ first later u, Usable service s first.current "refresh" claims ∧
      trace = (.decode (service.jwt.encode claims), first) :: later ∧
      (service.createTokenPair claims.deviceId (some claims.sub) []).Runs
        { s with revoked := insert claims.jti s.revoked } u pair t := by
  rw [JwtAuthService.refreshAccessToken, Program.runs_bind] at runs
  obtain ⟨first, rest, exchanged, u, rfl, exchanges, runs⟩ := runs
  cases exchanged with
  | error error =>
    obtain ⟨-, same, -⟩ := runs
    cases same
  | ok found =>
    obtain ⟨rfl, rfl, env, second, third, usable, rfl⟩ := exchange_runs.mp exchanges
    obtain ⟨issues, _, renewed, v, rfl, issuing, ⟨-, same, rfl⟩⟩ := Program.runs_bind.mp runs
    cases same
    exact ⟨env, _, issues, usable, rfl, issuing⟩

end Runs

/-! ## What the authenticator accepts -/

section Accepting

variable {Token : Type} [DecidableEq Token] {service : JwtAuthService Token}
  {a b : NodeAuthenticator Token} {trace : List (Note Token × AuthEnv)} {claims : Claims}

omit [DecidableEq Token] in
theorem jwt_runs {α : Type} {process : Process Token α} {value : α} :
    (jwt process).Runs a trace value b ↔ ∃ inner t, trace = inner.map (Prod.map .jwt id) ∧
      process.Runs a.jwtService inner value t ∧ b = { a with jwtService := t } := by
  refine Program.runs_zoom ?_ ?_ ?_
  · intro t a
    rfl
  · intro a
    rfl
  · intro t u a
    rfl

/-- The call succeeds with the value while the library's clock shows a time. -/
def Accepts {α : Type} (handler : Handler Token (Except HubError α))
    (a : NodeAuthenticator Token) (now : Int) (value : α) : Prop :=
  ∃ trace b, handler.Runs a trace (.ok value) b ∧ ∀ entry ∈ trace, entry.2.current = now

/-- The clock of the library shows a time. -/
def readingOf (now : Int) : AuthEnv := ⟨0, 0, now, []⟩

/-- An access token is accepted, as its node's, while it is usable. -/
theorem verifyToken_accepts {now : Int} {nodeId : NodeId} :
    Accepts (verifyToken service (service.jwt.encode claims)) a now nodeId ↔
      Usable service a.jwtService now "access" claims ∧ nodeId = ⟨claims.sub⟩ := by
  constructor
  · rintro ⟨trace, b, runs, shown⟩
    rw [verifyToken, Program.runs_bind] at runs
    obtain ⟨first, rest, verified, u, rfl, verifies, runs⟩ := runs
    obtain ⟨inner, t, rfl, inside, rfl⟩ := jwt_runs.mp verifies
    cases verified with
    | error error =>
      obtain ⟨-, same, -⟩ := runs
      cases same
    | ok access =>
      obtain ⟨rfl, -, env, env', usable, rfl⟩ := verifyToken_runs.mp inside
      have reading : env.current = now := shown _ List.mem_cons_self
      obtain ⟨-, same, -⟩ := runs
      exact ⟨reading ▸ usable, Except.ok.inj same⟩
  · rintro ⟨usable, rfl⟩
    have verifies := verifyToken_runs.mpr
      ⟨rfl, rfl, readingOf now, readingOf now, usable, rfl⟩
    refine ⟨_, a, Program.runs_bind.mpr ⟨_, [], _, a, rfl, jwt_runs.mpr ⟨_, _, rfl, verifies, rfl⟩,
      ⟨rfl, rfl, rfl⟩⟩, ?_⟩
    simp [readingOf]

theorem refreshToken_accepts {now : Int} :
    (∃ pair, Accepts (refreshToken service (service.jwt.encode claims)) a now pair) ↔
      Usable service a.jwtService now "refresh" claims := by
  constructor
  · rintro ⟨pair, trace, b, runs, shown⟩
    rw [refreshToken, Program.runs_bind] at runs
    obtain ⟨first, rest, refreshed, u, rfl, refreshes, runs⟩ := runs
    obtain ⟨inner, t, rfl, inside, rfl⟩ := jwt_runs.mp refreshes
    cases refreshed with
    | error error =>
      obtain ⟨-, same, -⟩ := runs
      cases same
    | ok found =>
      obtain ⟨env, later, _, usable, rfl, -⟩ := refreshAccessToken_runs inside
      have reading : env.current = now := shown _ List.mem_cons_self
      exact reading ▸ usable
  · intro usable
    have exchanges : (service.exchange (service.jwt.encode claims)).Runs a.jwtService _
        (.ok claims) _ := exchange_runs.mpr
      ⟨rfl, rfl, readingOf now, readingOf now, readingOf now, usable, rfl⟩
    obtain ⟨inner, pair, t, issues, shown⟩ :=
      createTokenPair_exists service _ claims.deviceId (some claims.sub) [] (readingOf now)
    have refreshes : (service.refreshAccessToken (service.jwt.encode claims)).Runs a.jwtService
        _ (.ok pair) t :=
      Program.runs_bind.mpr ⟨_, _, _, _, rfl, exchanges,
        Program.runs_bind.mpr ⟨_, [], _, _, rfl, issues, ⟨rfl, rfl, rfl⟩⟩⟩
    refine ⟨pair, _, _, Program.runs_bind.mpr ⟨_, [], _, _, rfl,
      jwt_runs.mpr ⟨_, _, rfl, refreshes, rfl⟩, ⟨rfl, rfl, rfl⟩⟩, ?_⟩
    simp only [List.append_nil, List.map_append, List.forall_mem_append, List.forall_mem_map]
    refine ⟨by simp [readingOf], ?_⟩
    intro entry member
    exact congrArg AuthEnv.current (shown entry member)

/-- The token is accepted by one of the two calls that take tokens. -/
def Accepted (service : JwtAuthService Token) (token : Token) (a : NodeAuthenticator Token)
    (now : Int) : Prop :=
  (∃ nodeId, Accepts (verifyToken service token) a now nodeId) ∨
    ∃ pair, Accepts (refreshToken service token) a now pair

/-- Every token that was issued is accepted until it expires or is revoked. -/
theorem accepted_iff {now : Int} (kinds : OfKinds service a.jwtService)
    (issued : service.jwt.encode claims ∈ a.jwtService.issued) :
    Accepted service (service.jwt.encode claims) a now ↔
      now ≤ claims.exp + 60 ∧ claims.jti ∉ a.jwtService.revoked := by
  rw [Accepted, refreshToken_accepts]
  constructor
  · rintro (⟨nodeId, accepts⟩ | usable)
    · obtain ⟨usable, -⟩ := verifyToken_accepts.mp accepts
      exact ⟨usable.unexpired, usable.fresh⟩
    · exact ⟨usable.unexpired, usable.fresh⟩
  · rintro ⟨unexpired, fresh⟩
    obtain ⟨found, same, kind | kind⟩ := kinds _ issued
    · obtain rfl := service.jwt.encode_injective same
      exact .inl ⟨_, verifyToken_accepts.mpr ⟨⟨issued, unexpired, kind, fresh⟩, rfl⟩⟩
    · obtain rfl := service.jwt.encode_injective same
      exact .inr ⟨issued, unexpired, kind, fresh⟩

end Accepting

/-! ## Histories of calls -/

inductive Call (Token : Type)
  | authenticateNode (nodeId : NodeId) (credentials : String)
      (reply : Except HubError (NodeAuthInfo Token))
  | refreshToken (token : Token) (reply : Except HubError (TokenPair Token))
  | revokeNode (nodeId : NodeId) (reply : Except HubError Unit)

/-- The tokens that a call gives out. -/
def Call.gives {Token : Type} : Call Token → List Token
  | .authenticateNode _ _ (.ok info) => [info.accessToken, info.refreshToken]
  | .refreshToken _ (.ok pair) => [pair.accessToken, pair.refreshToken]
  | _ => []

section Histories

variable {Token : Type} [DecidableEq Token] (service : JwtAuthService Token)

inductive Performs (a : NodeAuthenticator Token) :
    Call Token → NodeAuthenticator Token → Prop
  | authenticateNode (nodeId : NodeId) (credentials : String)
      (trace : List (Note Token × AuthEnv)) (reply : Except HubError (NodeAuthInfo Token))
      (b : NodeAuthenticator Token)
      (runs : (authenticateNode service nodeId credentials).Runs a trace reply b) :
      Performs a (.authenticateNode nodeId credentials reply) b
  | refreshToken (token : Token) (trace : List (Note Token × AuthEnv))
      (reply : Except HubError (TokenPair Token)) (b : NodeAuthenticator Token)
      (runs : (refreshToken service token).Runs a trace reply b) :
      Performs a (.refreshToken token reply) b
  | revokeNode (nodeId : NodeId) (trace : List (Note Token × AuthEnv))
      (reply : Except HubError Unit) (b : NodeAuthenticator Token)
      (runs : (revokeNode nodeId).Runs a trace reply b) : Performs a (.revokeNode nodeId reply) b

def newAuthenticator : NodeAuthenticator Token := ⟨⟨∅, ∅⟩, ∅⟩

/-- Calls of a new authenticator with a JWT service of its own, one after the other. -/
def calls : System (NodeAuthenticator Token) (Call Token) where
  Init a := a = newAuthenticator
  Step := Performs service

/-- The id is that of a refresh token that was exchanged. -/
def Spent (history : List (Call Token)) (jti : String) : Prop :=
  ∃ claims pair, .refreshToken (service.jwt.encode claims) (.ok pair) ∈ history ∧
    claims.jti = jti

/-- What the history says of the tokens. -/
structure Recorded (history : List (Call Token)) (a : NodeAuthenticator Token) : Prop where
  kinds : OfKinds service a.jwtService
  issued : ∀ token, token ∈ a.jwtService.issued ↔ token ∈ history.flatMap Call.gives
  revoked : ∀ jti, jti ∈ a.jwtService.revoked ↔ Spent service history jti
  authenticated : ∀ nodeId credentials info,
    .authenticateNode nodeId credentials (.ok info) ∈ history →
      ∃ access, info.accessToken = service.jwt.encode access ∧ access.sub = nodeId.value ∧
        access.tokenType = "access"

variable {service} {a b : NodeAuthenticator Token} {trace : List (Note Token × AuthEnv)}
  {history : List (Call Token)}

/-! ### Single calls -/

variable {nodeId : NodeId}

theorem authenticateNode_runs {credentials : String} {info : NodeAuthInfo Token}
    (runs : (authenticateNode service nodeId credentials).Runs a trace (.ok info) b) :
    ∃ access refresh,
      PairClaims service nodeId.value info.accessToken info.refreshToken access refresh ∧
        b.jwtService = ⟨a.jwtService.revoked, insert info.refreshToken
          (insert info.accessToken a.jwtService.issued)⟩ := by
  rw [authenticateNode] at runs
  split at runs
  · obtain ⟨-, same, -⟩ := runs
    cases same
  · obtain ⟨first, rest, pair, c, rfl, creates, runs⟩ := Program.runs_bind.mp runs
    obtain ⟨inner, t, rfl, inside, rfl⟩ := jwt_runs.mp creates
    obtain ⟨access, refresh, claims, rfl⟩ := createTokenPair_runs inside
    obtain ⟨first, rest, expiresAt, c, rfl, reads, runs⟩ := Program.runs_bind.mp runs
    obtain ⟨env, rfl, rfl, rfl⟩ := Program.runs_query.mp reads
    obtain ⟨first, rest, authenticatedAt, c, rfl, reads, runs⟩ := Program.runs_bind.mp runs
    obtain ⟨env', rfl, rfl, rfl⟩ := Program.runs_query.mp reads
    obtain ⟨first, rest, _, c, rfl, caches, ⟨-, same, rfl⟩⟩ := Program.runs_bind.mp runs
    obtain ⟨env'', rfl, -, rfl⟩ := Program.runs_update.mp caches
    cases same
    exact ⟨access, refresh, claims, rfl⟩

theorem authenticateNode_error {credentials : String} {error : HubError}
    (runs : (authenticateNode service nodeId credentials).Runs a trace (.error error) b) :
    b = a := by
  rw [authenticateNode] at runs
  split at runs
  · exact runs.2.2
  · obtain ⟨first, rest, pair, c, rfl, -, runs⟩ := Program.runs_bind.mp runs
    obtain ⟨first, rest, expiresAt, c, rfl, -, runs⟩ := Program.runs_bind.mp runs
    obtain ⟨first, rest, authenticatedAt, c, rfl, -, runs⟩ := Program.runs_bind.mp runs
    obtain ⟨first, rest, _, c, rfl, -, ⟨-, same, -⟩⟩ := Program.runs_bind.mp runs
    cases same

theorem refreshToken_runs {token : Token} {pair : TokenPair Token}
    (kinds : OfKinds service a.jwtService)
    (runs : (refreshToken service token).Runs a trace (.ok pair) b) :
    ∃ claims access refresh, token = service.jwt.encode claims ∧
      PairClaims service claims.sub pair.accessToken pair.refreshToken access refresh ∧
        b.jwtService = ⟨insert claims.jti a.jwtService.revoked,
          insert pair.refreshToken (insert pair.accessToken a.jwtService.issued)⟩ := by
  rw [refreshToken, Program.runs_bind] at runs
  obtain ⟨first, rest, refreshed, c, rfl, refreshes, runs⟩ := runs
  obtain ⟨inner, t, rfl, inside, rfl⟩ := jwt_runs.mp refreshes
  cases refreshed with
  | error error =>
    obtain ⟨-, same, -⟩ := runs
    cases same
  | ok found =>
    obtain ⟨-, same, rfl⟩ := runs
    cases same
    obtain ⟨claims, rfl, -⟩ := kinds token (issued_of_refreshAccessToken inside)
    obtain ⟨-, -, issues, -, -, issuing⟩ := refreshAccessToken_runs inside
    obtain ⟨access, refresh, made, rfl⟩ := createTokenPair_runs issuing
    exact ⟨claims, access, refresh, rfl, made, rfl⟩

theorem refreshToken_error {token : Token} {error : HubError}
    (runs : (refreshToken service token).Runs a trace (.error error) b) :
    b.jwtService = a.jwtService := by
  rw [refreshToken, Program.runs_bind] at runs
  obtain ⟨first, rest, refreshed, c, rfl, refreshes, runs⟩ := runs
  obtain ⟨inner, t, rfl, inside, rfl⟩ := jwt_runs.mp refreshes
  cases refreshed with
  | error error =>
    obtain ⟨-, -, rfl⟩ := runs
    exact refreshAccessToken_error inside
  | ok found =>
    obtain ⟨-, same, -⟩ := runs
    cases same

omit [DecidableEq Token] in
theorem revokeNode_runs {reply : Except HubError Unit}
    (runs : (revokeNode nodeId).Runs a trace reply b) : b.jwtService = a.jwtService := by
  obtain ⟨env, -, -, rfl⟩ := Program.runs_update.mp runs
  rfl

omit [DecidableEq Token] in

/-! ### What a history says -/

omit [DecidableEq Token] in
theorem spent_append_exchanged {claims : Claims} {pair : TokenPair Token} {jti : String} :
    Spent service (history ++ [.refreshToken (service.jwt.encode claims) (.ok pair)]) jti ↔
      jti = claims.jti ∨ Spent service history jti := by
  constructor
  · rintro ⟨found, given, member, rfl⟩
    obtain member | member := List.mem_append.mp member
    · exact .inr ⟨found, given, member, rfl⟩
    · obtain ⟨same, -⟩ := Call.refreshToken.inj (List.mem_singleton.mp member)
      exact .inl (congrArg Claims.jti (service.jwt.encode_injective same))
  · rintro (rfl | ⟨found, given, member, rfl⟩)
    · exact ⟨claims, pair, List.mem_append_right _ (List.mem_singleton_self _), rfl⟩
    · exact ⟨found, given, List.mem_append_left _ member, rfl⟩

omit [DecidableEq Token] in
/-- Only a refresh that succeeds exchanges a token. -/
theorem spent_append_other {call : Call Token} {jti : String}
    (other : ∀ token pair, call ≠ .refreshToken token (.ok pair)) :
    Spent service (history ++ [call]) jti ↔ Spent service history jti := by
  constructor
  · rintro ⟨found, given, member, rfl⟩
    obtain member | member := List.mem_append.mp member
    · exact ⟨found, given, member, rfl⟩
    · exact absurd (List.mem_singleton.mp member).symm (other _ _)
  · rintro ⟨found, given, member, rfl⟩
    exact ⟨found, given, List.mem_append_left _ member, rfl⟩

theorem OfKinds.pair {s : AuthState Token} {revoked : Finset String} {subject : String}
    {accessToken refreshToken : Token} {access refresh : Claims} (kinds : OfKinds service s)
    (made : PairClaims service subject accessToken refreshToken access refresh) :
    OfKinds service ⟨revoked, insert refreshToken (insert accessToken s.issued)⟩ := by
  intro token member
  obtain rfl | member := Finset.mem_insert.mp member
  · exact ⟨refresh, made.refreshToken, .inr made.kinds.2⟩
  · obtain rfl | member := Finset.mem_insert.mp member
    · exact ⟨access, made.accessToken, .inl made.kinds.1⟩
    · exact kinds token member

namespace Recorded

variable {call : Call Token}

omit [DecidableEq Token] in
theorem start : Recorded service [] newAuthenticator := by
  refine ⟨?_, ?_, ?_, ?_⟩
  · intro token issued
    cases Finset.notMem_empty token issued
  · simp [newAuthenticator]
  · simp [newAuthenticator, Spent]
  · intro nodeId credentials info member
    cases member

omit [DecidableEq Token] in
/-- A call that gives out nothing and exchanges nothing leaves the tokens as they are. -/
theorem quiet (recorded : Recorded service history a) (same : b.jwtService = a.jwtService)
    (nothing : call.gives = [])
    (notRefreshed : ∀ token pair, call ≠ .refreshToken token (.ok pair)) :
    Recorded service (history ++ [call]) b := by
  refine ⟨?_, ?_, ?_, ?_⟩
  · rw [same]
    exact recorded.kinds
  · intro token
    rw [same, recorded.issued, List.flatMap_append, List.flatMap_singleton, nothing,
      List.append_nil]
  · intro jti
    rw [same, recorded.revoked, spent_append_other notRefreshed]
  · intro nodeId credentials info member
    obtain member | member := List.mem_append.mp member
    · exact recorded.authenticated nodeId credentials info member
    · rw [← List.mem_singleton.mp member] at nothing
      cases nothing

/-- A call that gives out two tokens. -/
theorem mem_issued_append (recorded : Recorded service history a) {first second : Token}
    (gives : call.gives = [first, second]) (token : Token) :
    token ∈ insert second (insert first a.jwtService.issued) ↔
      token ∈ (history ++ [call]).flatMap Call.gives := by
  rw [List.flatMap_append, List.flatMap_singleton, gives, List.mem_append, List.mem_pair,
    Finset.mem_insert, Finset.mem_insert, recorded.issued]
  tauto

theorem performs (recorded : Recorded service history a) (performed : Performs service a call b) :
    Recorded service (history ++ [call]) b := by
  cases performed with
  | authenticateNode nodeId credentials trace reply _ runs =>
    cases reply with
    | error error =>
      obtain rfl := authenticateNode_error runs
      exact recorded.quiet rfl rfl nofun
    | ok info =>
      obtain ⟨access, refresh, made, same⟩ := authenticateNode_runs runs
      refine ⟨?_, ?_, ?_, ?_⟩
      · rw [same]
        exact recorded.kinds.pair made
      · rw [same]
        exact recorded.mem_issued_append rfl
      · intro jti
        rw [same, spent_append_other nofun]
        exact recorded.revoked jti
      · intro nodeId' credentials' info' member
        obtain member | member := List.mem_append.mp member
        · exact recorded.authenticated nodeId' credentials' info' member
        · cases List.mem_singleton.mp member
          exact ⟨access, made.accessToken, made.subjects.1, made.kinds.1⟩
  | refreshToken token trace reply _ runs =>
    cases reply with
    | error error => exact recorded.quiet (refreshToken_error runs) rfl nofun
    | ok pair =>
      obtain ⟨claims, access, refresh, rfl, made, same⟩ :=
        refreshToken_runs recorded.kinds runs
      refine ⟨?_, ?_, ?_, ?_⟩
      · rw [same]
        exact recorded.kinds.pair made
      · rw [same]
        exact recorded.mem_issued_append rfl
      · intro jti
        rw [same, spent_append_exchanged, Finset.mem_insert, recorded.revoked]
      · intro nodeId credentials info member
        obtain member | member := List.mem_append.mp member
        · exact recorded.authenticated nodeId credentials info member
        · cases List.mem_singleton.mp member
  | revokeNode nodeId trace reply _ runs => exact recorded.quiet (revokeNode_runs runs) rfl nofun

theorem of_exec (run : (calls service).Exec newAuthenticator history a) :
    Recorded service history a := by
  induction run with
  | refl => exact start
  | snoc _ performed ih => exact ih.performs performed

end Recorded

/-! ### Revoked nodes -/

variable (service)

/-- The access tokens a node got by authenticating verify as the node's until they expire. -/
def Honoured (history : List (Call Token)) (a : NodeAuthenticator Token) (now : Int)
    (nodeId : NodeId) : Prop :=
  ∀ credentials info claims, .authenticateNode nodeId credentials (.ok info) ∈ history →
    info.accessToken = service.jwt.encode claims → now ≤ claims.exp + 60 →
    ∀ found, Accepts (verifyToken service info.accessToken) a now found ↔ found = nodeId

/-- No token that was given out for the node before it was revoked is accepted. -/
def LockedOut (history : List (Call Token)) (a : NodeAuthenticator Token) (now : Int)
    (nodeId : NodeId) : Prop :=
  ∀ before reply after, history = before ++ .revokeNode nodeId reply :: after →
    ∀ claims, service.jwt.encode claims ∈ before.flatMap Call.gives →
      claims.sub = nodeId.value → ¬ Accepted service (service.jwt.encode claims) a now

/-- No access token a node got by authenticating shares its id with an exchanged token before
it expires. -/
def Unshared (history : List (Call Token)) (now : Int) (nodeId : NodeId) : Prop :=
  ∀ credentials info claims, .authenticateNode nodeId credentials (.ok info) ∈ history →
    info.accessToken = service.jwt.encode claims → now ≤ claims.exp + 60 →
    ¬ Spent service history claims.jti

/-- The tokens given out for the node before it was revoked have expired or share their ids with
exchanged tokens. -/
def Worthless (history : List (Call Token)) (now : Int) (nodeId : NodeId) : Prop :=
  ∀ before reply after, history = before ++ .revokeNode nodeId reply :: after →
    ∀ claims, service.jwt.encode claims ∈ before.flatMap Call.gives →
      claims.sub = nodeId.value → claims.exp + 60 < now ∨ Spent service history claims.jti

variable {service}

theorem Recorded.honoured_iff (recorded : Recorded service history a) {now : Int} :
    Honoured service history a now nodeId ↔ Unshared service history now nodeId := by
  refine forall_congr' fun credentials => forall_congr' fun info => forall_congr' fun claims =>
    forall_congr' fun member => forall_congr' fun encoded => forall_congr' fun unexpired => ?_
  obtain ⟨access, given, subject, kind⟩ := recorded.authenticated nodeId credentials info member
  obtain rfl := service.jwt.encode_injective (encoded.symm.trans given)
  have issued : service.jwt.encode claims ∈ a.jwtService.issued := by
    rw [recorded.issued, ← given]
    exact List.mem_flatMap.mpr ⟨_, member, List.mem_cons_self⟩
  rw [given, ← recorded.revoked]
  constructor
  · intro accepts spent
    obtain ⟨usable, -⟩ := verifyToken_accepts.mp ((accepts nodeId).mpr rfl)
    exact usable.fresh spent
  · intro fresh found
    rw [verifyToken_accepts, subject]
    exact and_iff_right ⟨issued, unexpired, kind, fresh⟩

theorem Recorded.lockedOut_iff (recorded : Recorded service history a) {now : Int} :
    LockedOut service history a now nodeId ↔ Worthless service history now nodeId := by
  refine forall_congr' fun before => forall_congr' fun reply => forall_congr' fun after =>
    forall_congr' fun split => forall_congr' fun claims => forall_congr' fun given =>
      forall_congr' fun subject => ?_
  have issued : service.jwt.encode claims ∈ a.jwtService.issued := by
    rw [recorded.issued, split, List.flatMap_append]
    exact List.mem_append_left _ given
  rw [accepted_iff recorded.kinds issued, recorded.revoked, ← not_le]
  tauto

/-- A node is locked out by its revocation exactly when its tokens are worthless anyway. -/
theorem revoked_locked_out (nodeId : NodeId) (now : Int)
    (run : (calls service).Exec newAuthenticator history a) :
    Honoured service history a now nodeId ∧ LockedOut service history a now nodeId ↔
      Unshared service history now nodeId ∧ Worthless service history now nodeId :=
  and_congr (Recorded.of_exec run).honoured_iff (Recorded.of_exec run).lockedOut_iff

end Histories

/-! ### A node that is revoked -/

def sampleInfo : NodeAuthInfo Claims where
  nodeId := ⟨"node-1"⟩
  accessToken := Draft.claims ⟨"node-1", none, ["node"], "access", 3600⟩ (sampleEnv 1)
  refreshToken := Draft.claims ⟨"node-1", none, ["refresh"], "refresh", 2592000⟩ (sampleEnv 2)
  expiresAt := 3600
  authenticatedAt := 0

def sampleHistory : List (Call Claims) :=
  [.authenticateNode ⟨"node-1"⟩ "credentials" (.ok sampleInfo), .revokeNode ⟨"node-1"⟩ (.ok ())]

theorem performs_revokeNode {Token : Type} [DecidableEq Token] (service : JwtAuthService Token)
    (a : NodeAuthenticator Token) (nodeId : NodeId) :
    ∃ b, Performs service a (.revokeNode nodeId (.ok ())) b :=
  ⟨_, .revokeNode nodeId _ _ _ (Program.runs_update.mpr ⟨sampleEnv 0, rfl, rfl, rfl⟩)⟩

theorem exec_sampleHistory : ∃ a, (calls sampleService).Exec newAuthenticator sampleHistory a := by
  have ran : (authenticateNode sampleService ⟨"node-1"⟩ "credentials").runAlone
      [sampleEnv 1, sampleEnv 2, sampleEnv 3, sampleEnv 3, sampleEnv 3] newAuthenticator =
        some (_, .ok sampleInfo, _) := rfl
  have authenticates := Performs.authenticateNode _ _ _ _ _ (Program.runs_of_runAlone ran)
  obtain ⟨b, revokes⟩ := performs_revokeNode sampleService _ ⟨"node-1"⟩
  exact ⟨b, (System.Exec.single authenticates).snoc revokes⟩

/-- Tokens of a revoked node are not accepted once they have expired. -/
theorem revoked_locked_out_sample :
    ∃ a, (calls sampleService).Exec newAuthenticator sampleHistory a ∧
      Honoured sampleService sampleHistory a 10000000 ⟨"node-1"⟩ ∧
        LockedOut sampleService sampleHistory a 10000000 ⟨"node-1"⟩ := by
  obtain ⟨a, run⟩ := exec_sampleHistory
  have expired : ∀ claims ∈ sampleHistory.flatMap Call.gives, claims.exp + 60 < 10000000 := by
    decide
  refine ⟨a, run, (revoked_locked_out _ _ run).mpr ⟨?_, ?_⟩⟩
  · rintro credentials info claims member rfl unexpired
    have given : info.accessToken ∈ sampleHistory.flatMap Call.gives :=
      List.mem_flatMap.mpr ⟨_, member, List.mem_cons_self⟩
    exact absurd (expired _ given) (Int.not_lt.mpr unexpired)
  · intro before reply after split claims given _
    refine .inl (expired claims ?_)
    rw [split, List.flatMap_append]
    exact List.mem_append_left _ given

/-- The access token of a revoked node is accepted. -/
theorem revoked_not_locked_out :
    ∃ a, (calls sampleService).Exec newAuthenticator sampleHistory a ∧
      ¬ LockedOut sampleService sampleHistory a 0 ⟨"node-1"⟩ := by
  obtain ⟨a, run⟩ := exec_sampleHistory
  refine ⟨a, run, ?_⟩
  rw [(Recorded.of_exec run).lockedOut_iff]
  intro worthless
  obtain expired | ⟨claims, pair, member, -⟩ :=
    worthless [_] (.ok ()) [] rfl sampleInfo.accessToken List.mem_cons_self rfl
  · revert expired
    decide
  · simp [sampleHistory] at member

end UHorse.Hub.Authentication
