import UHorse.Lib.Automaton
import UHorse.Sso.OAuth2

/-!
# The history of an authorization server

A history is kept of the clients that were registered, the codes that were granted and exchanged,
and the tokens that were issued, used and revoked. Generated strings are assumed to be new, so a
string is the name of one code or of one token, and what the maps hold is what the history says.
-/

namespace UHorse.Sso

open UHorse.Lib UHorse.Protocol

variable (config : OAuth2Config)

/-! ## Histories -/

inductive Kind
  | access
  | refresh
deriving DecidableEq

def Kind.ttl : Kind → UInt64
  | .access => config.accessTokenTtl
  | .refresh => config.refreshTokenTtl

/-- What happened; a token is issued with the code it goes back to. -/
inductive Event
  | registered (client : OAuth2Client)
  | granted (authCode : AuthorizationCode)
  | exchanged (code : String) (now : DateTime)
  | issued (kind : Kind) (token : String) (info : TokenInfo) (root : Option AuthorizationCode)
  | refreshed (token clientId : String) (now : DateTime)
  | validated (token : String) (now : DateTime)
  | revoked (token : String)
deriving DecidableEq

/-- The code or token an event gives a meaning to or takes it from. -/
def Event.name : Event → Option String
  | .granted authCode => some authCode.code
  | .exchanged code _ => some code
  | .issued _ token _ _ => some token
  | .revoked token => some token
  | .registered _ | .refreshed .. | .validated .. => none

/-- How a token was issued. -/
def issueOf (token : String) : List Event → Option (Kind × TokenInfo × Option AuthorizationCode)
  | [] => none
  | .issued kind other info root :: before =>
    if other = token then some (kind, info, root) else issueOf token before
  | _ :: before => issueOf token before

/-- The latest registration of a client. -/
def registration (clientId : String) : List Event → Option OAuth2Client
  | [] => none
  | .registered client :: before =>
    if client.clientId = clientId then some client else registration clientId before
  | _ :: before => registration clientId before

/-! ## What a call has in hand -/

/-- What tokens are issued for. -/
inductive Origin
  | exchange (authCode : AuthorizationCode)
  | refresh (token : String) (info : TokenInfo)

namespace Origin

def clientId : Origin → String
  | .exchange authCode => authCode.clientId
  | .refresh _ info => info.clientId

def scope : Origin → List String
  | .exchange authCode => authCode.scope
  | .refresh _ info => info.scope

def root (history : List Event) : Origin → Option AuthorizationCode
  | .exchange authCode => some authCode
  | .refresh token _ => (issueOf token history).bind fun issue => issue.2.2

end Origin

inductive Phase
  | idle
  | granting (authCode : AuthorizationCode)
  | checked (origin : Origin)
  | issuing (origin : Origin) (issue : NewTokens)

def NewTokens.names (issue : NewTokens) : List String :=
  issue.tokenInfo.accessToken :: (issue.refreshInfo.map Prod.fst).toList

/-- The strings a call has generated and not yet used. -/
def Phase.names : Phase → List String
  | .granting authCode => [authCode.code]
  | .issuing _ issue => issue.names
  | .idle | .checked _ => []

def calling : Observer OAuth2Server OAuth2Env Note Phase where
  start := .idle
  see seen note env s :=
    match note with
    | .code clientId redirectUri userId scope =>
      .granting (.new clientId redirectUri userId scope config.authCodeTtl env.first s.clock)
    | .exchange code clientId redirectUri =>
      match s.checkCode code clientId redirectUri with
      | .ok authCode => .checked (.exchange authCode)
      | .error _ => seen
    | .refresh token clientId =>
      match s.checkRefresh token clientId with
      | .ok info => .checked (.refresh token info)
      | .error _ => seen
    | .generate clientId userId scope =>
      match seen with
      | .checked origin =>
        .issuing origin (OAuth2Server.newTokens config s clientId userId scope env)
      | _ => seen
    | .grant _ | .store _ => .idle
    | _ => seen

/-- What an action does, and what the call has in hand for it. -/
def Note.Does (note : Note) (seen : Phase) (env : OAuth2Env) (s t : OAuth2Server) : Prop :=
  match note with
  | .register client => t = s.insertClient client
  | .code .. => t = s.generate env
  | .grant authCode => seen = .granting authCode ∧ t = s.insertCode authCode
  | .exchange given clientId redirectUri => t = s.takeCode given clientId redirectUri
  | .refresh .. | .validate _ => t = s
  | .generate clientId _ scope => (∃ origin, seen = .checked origin ∧
      origin.clientId = clientId ∧ origin.scope = scope) ∧ t = s.generate env
  | .store issue => (∃ origin, seen = .issuing origin issue) ∧ t = s.storeTokens issue
  | .release => t = { s with exchanging := false }
  | .revoke token => t = s.removeToken token

def callContract : Contract OAuth2Server OAuth2Env Note Phase where
  relies _ _ := True
  expects _ _ _ _ := True
  waits _ _ _ := True
  grants seen note env s t := note.Does seen env s t

abbrev KeepsCalls {α : Type} (process : Process α) (seen : Phase)
    (post : α → Phase → Prop) : Prop :=
  process.Keeps (calling config) callContract seen post

section Calls

variable {config} {α : Type} {seen : Phase}

theorem checkCode_ok {s : OAuth2Server} {code clientId redirectUri : String}
    {authCode : AuthorizationCode}
    (checked : s.checkCode code clientId redirectUri = .ok authCode) :
    s.authCodes.lookup code = some authCode ∧ authCode.clientId = clientId ∧
      authCode.redirectUri = redirectUri ∧ authCode.used = false ∧
      authCode.isExpired s.clock = false := by
  rw [OAuth2Server.checkCode] at checked
  split at checked
  · cases checked
  · next found here =>
      split_ifs at checked with client uri used expired
      cases checked
      exact ⟨here, not_not.mp client, not_not.mp uri, Bool.not_eq_true _ ▸ used,
        Bool.not_eq_true _ ▸ expired⟩

theorem checkRefresh_ok {s : OAuth2Server} {token clientId : String} {info : TokenInfo}
    (checked : s.checkRefresh token clientId = .ok info) :
    s.tokens.lookup token = some info ∧ info.clientId = clientId ∧
      info.isExpired s.clock = false := by
  rw [OAuth2Server.checkRefresh] at checked
  split at checked
  · cases checked
  · next found here =>
      split_ifs at checked with client expired
      cases checked
      exact ⟨here, not_not.mp client, Bool.not_eq_true _ ▸ expired⟩

theorem checkToken_ok {s : OAuth2Server} {token : String} {info : TokenInfo} :
    s.checkToken token = .ok info ↔
      s.tokens.lookup token = some info ∧ info.isExpired s.clock = false := by
  rw [OAuth2Server.checkToken]
  split
  · next absent => simp [absent]
  · next found here =>
      rw [here]
      cases expired : found.isExpired s.clock with
      | true =>
        simp only [if_true, Option.some.injEq, reduceCtorEq, false_iff, not_and]
        rintro rfl
        simp [expired]
      | false =>
        simp only [Bool.false_eq_true, if_false, Except.ok.injEq, Option.some.injEq]
        constructor
        · rintro rfl
          exact ⟨rfl, expired⟩
        · exact And.left

theorem keeps_done {value : α} : KeepsCalls config (pure value) seen fun _ _ => True :=
  Program.Keeps.pure trivial

theorem keeps_action {note : Note} {run : OAuth2Env → OAuth2Server → OAuth2Server}
    {value : OAuth2Env → OAuth2Server → α} (does : ∀ env s, note.Does seen env s (run env s)) :
    KeepsCalls config (Program.update note run value) seen fun _ _ => True :=
  Program.Keeps.update (fun env s _ _ => does env s) fun _ _ _ _ => trivial

theorem keeps_createAuthCode (clientId redirectUri userId : String) (scope : List String) :
    KeepsCalls config (OAuth2Server.createAuthCode config clientId redirectUri userId scope) seen
      fun _ _ => True := by
  have generates : KeepsCalls config
      (OAuth2Server.generateCode config clientId redirectUri userId scope) seen
      fun authCode after => after = .granting authCode :=
    Program.Keeps.update (fun _ _ _ _ => rfl) fun _ _ _ _ => rfl
  refine .bind generates ?_
  rintro authCode _ rfl
  have grants : KeepsCalls config (Program.await (.grant authCode) (fun s => !s.exchanging)
      fun _ s => s.insertCode authCode) (.granting authCode) fun _ _ => True :=
    Program.Keeps.await (fun _ _ => trivial) (fun _ _ _ _ => ⟨rfl, rfl⟩) fun _ _ _ _ => trivial
  exact .bind grants fun _ _ _ => keeps_done

theorem keeps_generateTokenResponse {origin : Origin} {clientId userId : String}
    {scope : List String} (client : origin.clientId = clientId) (scopes : origin.scope = scope) :
    KeepsCalls config (OAuth2Server.generateTokenResponse config clientId userId scope)
      (.checked origin) fun _ _ => True := by
  have generates : KeepsCalls config (OAuth2Server.generateTokens config clientId userId scope)
      (.checked origin) fun issue after => after = .issuing origin issue :=
    Program.Keeps.update (fun _ _ _ _ => ⟨⟨origin, rfl, client, scopes⟩, rfl⟩)
      fun _ _ _ _ => rfl
  refine .bind generates ?_
  rintro issue _ rfl
  refine .bind (keeps_action fun _ _ => ⟨⟨origin, rfl⟩, rfl⟩) ?_
  exact fun _ _ _ => keeps_done

theorem keeps_exchangeAuthCode (code clientId redirectUri : String) :
    KeepsCalls config (OAuth2Server.exchangeAuthCode config code clientId redirectUri) seen
      fun _ _ => True := by
  have begins : KeepsCalls config (OAuth2Server.beginExchange code clientId redirectUri) seen
      fun checked after => ∀ authCode, checked = .ok authCode →
        after = .checked (.exchange authCode) ∧ authCode.clientId = clientId := by
    refine ⟨fun _ _ => trivial, ?_⟩
    intro env s _ _ _
    refine ⟨rfl, ?_⟩
    intro authCode checked
    refine ⟨?_, (checkCode_ok checked).2.1⟩
    simp only [calling, checked]
  refine .bind begins ?_
  intro checked after known
  cases checked with
  | error error => exact keeps_done
  | ok authCode =>
    obtain ⟨rfl, client⟩ := known authCode rfl
    refine .bind (keeps_generateTokenResponse client rfl) ?_
    intro response after _
    refine .bind (keeps_action fun _ _ => rfl) ?_
    exact fun _ _ _ => keeps_done

theorem keeps_refreshToken (token clientId : String) :
    KeepsCalls config (OAuth2Server.refreshToken config token clientId) seen
      fun _ _ => True := by
  have begins : KeepsCalls config (OAuth2Server.beginRefresh token clientId) seen
      fun checked after => ∀ info, checked = .ok info →
        after = .checked (.refresh token info) ∧ info.clientId = clientId := by
    refine .update (fun _ _ _ _ => rfl) ?_
    intro env s _ _ info checked
    refine ⟨?_, (checkRefresh_ok checked).2.1⟩
    simp only [calling, checked]
  refine .bind begins ?_
  intro checked after known
  cases checked with
  | error error => exact keeps_done
  | ok info =>
    obtain ⟨rfl, client⟩ := known info rfl
    refine .bind (keeps_generateTokenResponse client rfl) ?_
    exact fun _ _ _ => keeps_done

variable (config) in
/-- The calls; what they return is seen in the history only. -/
inductive Calls : Process Unit → Prop
  | registerClient (client : OAuth2Client) : Calls (OAuth2Server.registerClient client)
  | createAuthCode (clientId redirectUri userId : String) (scope : List String) :
      Calls (OAuth2Server.createAuthCode config clientId redirectUri userId scope).discard
  | exchangeAuthCode (code clientId redirectUri : String) :
      Calls (OAuth2Server.exchangeAuthCode config code clientId redirectUri).discard
  | refreshToken (token clientId : String) :
      Calls (OAuth2Server.refreshToken config token clientId).discard
  | validateToken (accessToken : String) : Calls (OAuth2Server.validateToken accessToken).discard
  | revokeToken (token : String) : Calls (OAuth2Server.revokeToken token).discard

theorem keeps_discard {process : Process α}
    (keeps : KeepsCalls config process seen fun _ _ => True) :
    KeepsCalls config process.discard seen fun _ _ => True :=
  Program.Keeps.bind keeps fun _ _ _ => keeps_done

theorem keeps_of_calls {process : Process Unit} (calls : Calls config process) :
    KeepsCalls config process seen fun _ _ => True := by
  cases calls with
  | registerClient client => exact keeps_action fun _ _ => rfl
  | createAuthCode => exact keeps_discard (keeps_createAuthCode _ _ _ _)
  | exchangeAuthCode => exact keeps_discard (keeps_exchangeAuthCode _ _ _)
  | refreshToken => exact keeps_discard (keeps_refreshToken _ _)
  | validateToken => exact keeps_discard (keeps_action fun _ _ => rfl)
  | revokeToken => exact keeps_discard (keeps_action fun _ _ => rfl)

end Calls

/-! ## All interleavings -/

abbrev ServerPool := Pool OAuth2Server OAuth2Env Note Unit Phase

abbrev ServerLabel := PoolLabel OAuth2Server OAuth2Env Note Unit

def NewTokens.events (issue : NewTokens) (root : Option AuthorizationCode) : List Event :=
  (issue.refreshInfo.map fun entry => .issued .refresh entry.1 entry.2 root).toList ++
    [.issued .access issue.tokenInfo.accessToken issue.tokenInfo root]

/-- What an action adds to the history, the latest event first. -/
def entries (history : List Event) (seen : Phase) (note : Note) (s : OAuth2Server) :
    List Event :=
  match note with
  | .register client => [.registered client]
  | .grant authCode => [.granted authCode]
  | .exchange code clientId redirectUri =>
    match s.checkCode code clientId redirectUri with
    | .ok _ => [.exchanged code s.clock]
    | .error _ => []
  | .refresh token clientId =>
    match s.checkRefresh token clientId with
    | .ok _ => [.refreshed token clientId s.clock]
    | .error _ => []
  | .store issue =>
    match seen with
    | .issuing origin _ => issue.events (origin.root history)
    | _ => []
  | .validate token =>
    match s.checkToken token with
    | .ok _ => [.validated token s.clock]
    | .error _ => []
  | .revoke token => if (s.tokens.lookup token).isSome then [.revoked token] else []
  | _ => []

def recording : Pool.Ledger OAuth2Server OAuth2Env Note Phase (List Event) where
  opening := []
  enter history seen note _ s _ := entries history seen note s ++ history

/-- Strings that are generated are new. -/
def Fresh (s : OAuth2Server) (env : OAuth2Env) : Note → Prop
  | .code .. | .generate .. =>
    env.first ∉ s.generated ∧ env.second ∉ s.generated ∧ env.first ≠ env.second
  | _ => True

def KeepsFresh (s : ServerPool) : ServerLabel → Prop
  | .run index env => ∀ note ready act next seen,
      s.threads[index]? = some ⟨.act note ready act next, seen⟩ → Fresh s.shared env note
  | _ => True

/-- Time passes. -/
def Passes (s t : OAuth2Server) : Prop := ∃ clock, s.clock ≤ clock ∧ t = { s with clock }

/-- All interleavings of calls of a new server, with their history. -/
def oauth2 : System (ServerPool × List Event) ServerLabel :=
  Pool.accounted (calling config) (Calls config) Passes (fun s => ∃ clock, s = .new clock)
    KeepsFresh recording

/-! ## What the server holds -/

/-- A name no event has. -/
def Unheard (history : List Event) (name : String) : Prop :=
  ∀ event ∈ history, event.name ≠ some name

/-- The maps say what the history says, and no token was issued twice. -/
structure Recorded (s : OAuth2Server) (history : List Event) : Prop where
  known : ∀ event ∈ history, ∀ name, event.name = some name → name ∈ s.generated
  clients : ∀ clientId, s.clients.lookup clientId = registration clientId history
  codes : ∀ code authCode, s.authCodes.lookup code = some authCode →
    (∃ granted, .granted granted ∈ history ∧ granted.code = code ∧
      authCode = { granted with used := authCode.used }) ∧
    (authCode.used = false → ∀ now, .exchanged code now ∉ history)
  tokens : ∀ token info, s.tokens.lookup token = some info →
    (∃ kind root, .issued kind token info root ∈ history) ∧ .revoked token ∉ history
  lives : ∀ kind token info root, .issued kind token info root ∈ history →
    info.expiresAt = info.createdAt + ttlSeconds (kind.ttl config)
  rooted : ∀ kind token info root, .issued kind token info root ∈ history →
    ∃ authCode, root = some authCode ∧ info.clientId = authCode.clientId ∧
      info.scope = authCode.scope
  once : ∀ kind token info root, .issued kind token info root ∈ history →
    issueOf token history = some (kind, info, root)
  granted : ∀ authCode, .granted authCode ∈ history → authCode.used = false

/-- The code or token that tokens are issued for is known. -/
def Origin.Sound (history : List Event) : Origin → Prop
  | .exchange authCode => .granted authCode ∈ history
  | .refresh token info => ∃ kind root, .issued kind token info root ∈ history

/-- What a call has in hand is what it was made for. -/
def Phase.Sound (history : List Event) : Phase → Prop
  | .idle => True
  | .granting authCode => authCode.used = false
  | .checked origin => origin.Sound history
  | .issuing origin issue => origin.Sound history ∧
      ∃ s userId env, issue =
        OAuth2Server.newTokens config s origin.clientId userId origin.scope env

section Recorded

variable {config} {s : OAuth2Server} {history : List Event} {seen : Phase} {note : Note}
  {env : OAuth2Env} {name : String}

variable {event : Event} {authCode : AuthorizationCode} {t : OAuth2Server}

theorem Unheard.cons (unheard : Unheard history name) (other : event.name ≠ some name) :
    Unheard (event :: history) name :=
  List.forall_mem_cons.mpr ⟨other, unheard⟩

theorem earlier {other : Event} (member : other ∈ event :: history) (different : other ≠ event) :
    other ∈ history :=
  List.mem_of_ne_of_mem different member

/-- What the history says of a code it still says after an event that is no exchange of it. -/
theorem Recorded.code_kept (recorded : Recorded config s history) {code : String}
    (found : s.authCodes.lookup code = some authCode) (other : ∀ now, .exchanged code now ≠ event) :
    (∃ granted, .granted granted ∈ event :: history ∧ granted.code = code ∧
      authCode = { granted with used := authCode.used }) ∧
    (authCode.used = false → ∀ now, .exchanged code now ∉ event :: history) := by
  obtain ⟨⟨granted, member, same⟩, fresh⟩ := recorded.codes code authCode found
  refine ⟨⟨granted, List.mem_cons_of_mem _ member, same⟩, ?_⟩
  exact fun unused now exchanged => fresh unused now (earlier exchanged (other now))

/-- What the history says of a token it still says after an event that does not revoke it. -/
theorem Recorded.token_kept (recorded : Recorded config s history) {event : Event} {token : String}
    {info : TokenInfo} (found : s.tokens.lookup token = some info)
    (other : .revoked token ≠ event) :
    (∃ kind root, .issued kind token info root ∈ event :: history) ∧
      .revoked token ∉ event :: history := by
  obtain ⟨⟨kind, root, issued⟩, live⟩ := recorded.tokens token info found
  refine ⟨⟨kind, root, List.mem_cons_of_mem _ issued⟩, ?_⟩
  exact fun revoked => live (earlier revoked other)

/-- An event without a name about a client or a use changes nothing about codes and tokens. -/
theorem Recorded.remark (recorded : Recorded config s history) (nameless : event.name = none)
    {clients : HashMap String OAuth2Client}
    (registered : ∀ clientId, clients.lookup clientId = registration clientId (event :: history)) :
    Recorded config { s with clients } (event :: history) := by
  have other : ∀ {other : Event}, other.name ≠ none → other ≠ event := by
    rintro other named rfl
    exact named nameless
  refine ⟨?_, registered, ?_, ?_, ?_, ?_, ?_, ?_⟩
  · refine List.forall_mem_cons.mpr ⟨?_, recorded.known⟩
    intro name named
    rw [nameless] at named
    cases named
  · exact fun code authCode found => recorded.code_kept found fun now => other nofun
  · exact fun token info found => recorded.token_kept found (other nofun)
  · exact fun kind token info root issued => recorded.lives _ _ _ _ (earlier issued (other nofun))
  · exact fun kind token info root issued =>
      recorded.rooted _ token _ _ (earlier issued (other nofun))
  · intro kind token info root issued
    have before := recorded.once kind token info root (earlier issued (other nofun))
    cases event with
    | issued => cases nameless
    | _ => exact before
  · exact fun authCode granted => recorded.granted authCode (earlier granted (other nofun))

/-- The history says the same of a state that holds the same. -/
theorem Recorded.frame (recorded : Recorded config s history) (clients : t.clients = s.clients)
    (authCodes : t.authCodes = s.authCodes) (tokens : t.tokens = s.tokens)
    (generated : ∀ name ∈ s.generated, name ∈ t.generated) : Recorded config t history := by
  refine ⟨?_, ?_, ?_, ?_, recorded.lives, recorded.rooted, recorded.once, recorded.granted⟩
  · exact fun event member name named => generated name (recorded.known event member name named)
  · rw [clients]
    exact recorded.clients
  · rw [authCodes]
    exact recorded.codes
  · rw [tokens]
    exact recorded.tokens

theorem Recorded.grant (recorded : Recorded config s history) (known : authCode.code ∈ s.generated)
    (unheard : Unheard history authCode.code) (unused : authCode.used = false) :
    Recorded config (s.insertCode authCode) (.granted authCode :: history) := by
  refine ⟨?_, recorded.clients, ?_, ?_, ?_, ?_, ?_, ?_⟩
  · refine List.forall_mem_cons.mpr ⟨?_, recorded.known⟩
    intro name named
    cases named
    exact known
  · intro code found here
    have here : (s.authCodes.insert authCode.code authCode).lookup code = some found := here
    rw [HashMap.lookup_insert_ite] at here
    split at here
    · next same =>
        cases here
        refine ⟨⟨authCode, List.mem_cons_self, same.symm, rfl⟩, ?_⟩
        intro _ now exchanged
        rw [same] at exchanged
        exact unheard _ (earlier exchanged nofun) rfl
    · exact recorded.code_kept here fun now => nofun
  · exact fun token info found => recorded.token_kept found nofun
  · exact fun kind token info root issued => recorded.lives _ _ _ _ (earlier issued nofun)
  · exact fun kind token info root issued => recorded.rooted _ token _ _ (earlier issued nofun)
  · exact fun kind token info root issued => recorded.once _ _ _ _ (earlier issued nofun)
  · intro other granted
    obtain same | member := List.mem_cons.mp granted
    · cases same
      exact unused
    · exact recorded.granted other member

theorem Recorded.exchange (recorded : Recorded config s history)
    {code clientId redirectUri : String}
    (checked : s.checkCode code clientId redirectUri = .ok authCode) :
    Recorded config (s.takeCode code clientId redirectUri)
      (.exchanged code s.clock :: history) := by
  obtain ⟨found, -⟩ := checkCode_ok checked
  obtain ⟨⟨granted, member, same, shape⟩, -⟩ := recorded.codes code authCode found
  have taken : s.takeCode code clientId redirectUri =
      { s with authCodes := s.authCodes.insert code authCode.markUsed, exchanging := true } := by
    simp only [OAuth2Server.takeCode, checked]
  rw [taken]
  refine ⟨?_, recorded.clients, ?_, ?_, ?_, ?_, ?_, ?_⟩
  · refine List.forall_mem_cons.mpr ⟨?_, recorded.known⟩
    intro name named
    cases named
    exact recorded.known _ member _ (congrArg some same)
  · intro other authCode' here
    have here := here
    rw [HashMap.lookup_insert_ite] at here
    split at here
    · next equal =>
        cases here
        refine ⟨⟨granted, List.mem_cons_of_mem _ member, same.trans equal.symm, ?_⟩, nofun⟩
        rw [shape]
        rfl
    · next distinct =>
        refine recorded.code_kept here fun now equal => ?_
        exact distinct (Event.exchanged.inj equal).1
  · exact fun token info found => recorded.token_kept found nofun
  · exact fun kind token info root issued => recorded.lives _ _ _ _ (earlier issued nofun)
  · exact fun kind token info root issued => recorded.rooted _ token _ _ (earlier issued nofun)
  · exact fun kind token info root issued => recorded.once _ _ _ _ (earlier issued nofun)
  · exact fun other granted => recorded.granted other (earlier granted nofun)

/-- One token is stored. -/
theorem Recorded.issue (recorded : Recorded config s history) (kind : Kind) (token : String)
    (info : TokenInfo) (root : Option AuthorizationCode) (known : token ∈ s.generated)
    (unheard : Unheard history token)
    (lives : info.expiresAt = info.createdAt + ttlSeconds (kind.ttl config))
    (rooted : ∃ authCode, root = some authCode ∧ info.clientId = authCode.clientId ∧
      info.scope = authCode.scope) :
    Recorded config { s with tokens := s.tokens.insert token info }
      (.issued kind token info root :: history) := by
  refine ⟨?_, recorded.clients, ?_, ?_, ?_, ?_, ?_, ?_⟩
  · refine List.forall_mem_cons.mpr ⟨?_, recorded.known⟩
    intro name named
    cases named
    exact known
  · exact fun code authCode found => recorded.code_kept found fun now => nofun
  · intro other found here
    have here := here
    rw [HashMap.lookup_insert_ite] at here
    split at here
    · next same =>
        cases here
        rw [same]
        refine ⟨⟨kind, root, List.mem_cons_self⟩, ?_⟩
        exact fun revoked => unheard _ (earlier revoked nofun) rfl
    · exact recorded.token_kept here nofun
  · intro kind' token' info' root' issued
    obtain same | member := List.mem_cons.mp issued
    · cases same
      exact lives
    · exact recorded.lives _ _ _ _ member
  · intro kind' token' info' root' issued
    obtain same | member := List.mem_cons.mp issued
    · cases same
      exact rooted
    · exact recorded.rooted _ token' _ _ member
  · intro kind' token' info' root' issued
    obtain same | member := List.mem_cons.mp issued
    · cases same
      exact if_pos rfl
    · have distinct : token ≠ token' := by
        rintro rfl
        exact unheard _ member rfl
      rw [issueOf, if_neg distinct]
      exact recorded.once _ _ _ _ member
  · exact fun other granted => recorded.granted other (earlier granted nofun)

theorem Recorded.revoke (recorded : Recorded config s history) {token : String} {info : TokenInfo}
    (found : s.tokens.lookup token = some info) :
    Recorded config (s.removeToken token) (.revoked token :: history) := by
  refine ⟨?_, recorded.clients, ?_, ?_, ?_, ?_, ?_, ?_⟩
  · refine List.forall_mem_cons.mpr ⟨?_, recorded.known⟩
    intro name named
    cases named
    obtain ⟨⟨kind, root, issued⟩, -⟩ := recorded.tokens token info found
    exact recorded.known _ issued _ rfl
  · exact fun code authCode found => recorded.code_kept found fun now => nofun
  · intro other found here
    have here : (s.tokens.erase token).lookup other = some found := here
    rw [HashMap.lookup_erase_ite] at here
    split at here
    · cases here
    · next distinct =>
        exact recorded.token_kept here fun equal => distinct (Event.revoked.inj equal)
  · exact fun kind token info root issued => recorded.lives _ _ _ _ (earlier issued nofun)
  · exact fun kind token info root issued => recorded.rooted _ token _ _ (earlier issued nofun)
  · exact fun kind token info root issued => recorded.once _ _ _ _ (earlier issued nofun)
  · exact fun other granted => recorded.granted other (earlier granted nofun)

/-! ## One action -/

/-- The strings in hand of a call are new to the history. -/
def Phase.Pending (seen : Phase) (s : OAuth2Server) (history : List Event) : Prop :=
  seen.names.Nodup ∧ ∀ name ∈ seen.names, name ∈ s.generated ∧ Unheard history name

theorem Origin.Sound.rooted {origin : Origin} (sound : origin.Sound history)
    (recorded : Recorded config s history) :
    ∃ authCode, origin.root history = some authCode ∧ origin.clientId = authCode.clientId ∧
      origin.scope = authCode.scope := by
  cases origin with
  | exchange authCode => exact ⟨authCode, rfl, rfl, rfl⟩
  | refresh token info =>
    obtain ⟨kind, root, issued⟩ := sound
    obtain ⟨authCode, rfl, client, scope⟩ := recorded.rooted kind token info root issued
    refine ⟨authCode, ?_, client, scope⟩
    rw [Origin.root, recorded.once _ _ _ _ issued]
    rfl

theorem Recorded.store (recorded : Recorded config s history) {origin : Origin}
    {issue : NewTokens} (sound : (Phase.issuing origin issue).Sound config history)
    (pending : (Phase.issuing origin issue).Pending s history) :
    Recorded config (s.storeTokens issue) (issue.events (origin.root history) ++ history) := by
  obtain ⟨sound, drawn, userId, env, rfl⟩ := sound
  obtain ⟨distinct, pending⟩ := pending
  obtain ⟨authCode, root, client, scope⟩ := sound.rooted recorded
  have rooted : ∃ code, origin.root history = some code ∧ origin.clientId = code.clientId ∧
      origin.scope = code.scope := ⟨authCode, root, client, scope⟩
  obtain ⟨known, unheard⟩ := pending _ List.mem_cons_self
  let accessInfo := (OAuth2Server.newTokens config drawn origin.clientId userId origin.scope
    env).tokenInfo
  have access := recorded.issue .access accessInfo.accessToken accessInfo (origin.root history)
    known unheard rfl rooted
  cases enabled : config.enableRefreshToken with
  | false =>
    simp only [accessInfo, OAuth2Server.newTokens,
      enabled] at access ⊢
    exact access
  | true =>
    simp only [Phase.names, NewTokens.names, OAuth2Server.newTokens, enabled] at distinct pending
    obtain ⟨known', unheard'⟩ := pending env.second (by simp)
    have other : env.first ≠ env.second := by simpa using distinct
    have refresh := access.issue .refresh env.second
      ⟨env.first, some env.second, origin.clientId, userId, origin.scope, drawn.clock,
        drawn.clock + ttlSeconds config.refreshTokenTtl⟩
      (origin.root history) known'
      (unheard'.cons fun same => other (Option.some.inj same)) rfl rooted
    simp only [accessInfo, OAuth2Server.newTokens,
      enabled] at refresh ⊢
    exact refresh

/-- An action keeps the maps in step with the history. -/
theorem Recorded.does (recorded : Recorded config s history) (sound : seen.Sound config history)
    (pending : seen.Pending s history) (does : note.Does seen env s t) :
    Recorded config t (entries history seen note s ++ history) := by
  cases note with
  | register client =>
    obtain rfl := does
    have nameless : (Event.registered client).name = none := rfl
    refine recorded.remark nameless fun clientId => ?_
    rw [HashMap.lookup_insert_ite, registration, recorded.clients]
    by_cases same : clientId = client.clientId
    · rw [if_pos same, if_pos same.symm]
    · rw [if_neg same, if_neg (Ne.symm same)]
  | code =>
    obtain rfl := does
    exact recorded.frame rfl rfl rfl fun name => List.mem_cons_of_mem _ ∘ List.mem_cons_of_mem _
  | grant authCode =>
    obtain ⟨rfl, rfl⟩ := does
    obtain ⟨known, unheard⟩ := pending.2 _ List.mem_cons_self
    exact recorded.grant known unheard sound
  | exchange code clientId redirectUri =>
    obtain rfl := does
    cases checked : s.checkCode code clientId redirectUri with
    | error error =>
      simp only [entries, OAuth2Server.takeCode, checked]
      exact recorded
    | ok authCode =>
      simp only [entries, checked]
      exact recorded.exchange checked
  | refresh token clientId =>
    obtain rfl := does
    simp only [entries]
    split
    · exact recorded.remark rfl recorded.clients
    · exact recorded
  | generate =>
    obtain ⟨-, rfl⟩ := does
    exact recorded.frame rfl rfl rfl fun name => List.mem_cons_of_mem _ ∘ List.mem_cons_of_mem _
  | store issue =>
    obtain ⟨⟨origin, rfl⟩, rfl⟩ := does
    exact recorded.store sound pending
  | release =>
    obtain rfl := does
    exact recorded.frame rfl rfl rfl fun _ => id
  | validate token =>
    obtain rfl := does
    simp only [entries]
    split
    · exact recorded.remark rfl recorded.clients
    · exact recorded
  | revoke token =>
    obtain rfl := does
    cases found : s.tokens.lookup token with
    | none =>
      simp only [entries, found,
        OAuth2Server.removeToken]
      refine ⟨recorded.known, recorded.clients, recorded.codes, ?_, recorded.lives,
        recorded.rooted, recorded.once, recorded.granted⟩
      intro other info here
      have here := here
      rw [HashMap.lookup_erase_ite] at here
      split at here
      · cases here
      · exact recorded.tokens other info here
    | some info =>
      simp only [entries, found]
      exact recorded.revoke found

/-- Where the names come from that an action enters in the history and leaves in hand. -/
inductive Uses (seen after : Phase) (history added : List Event) (s t : OAuth2Server) : Prop
  | keeps (known : ∀ event ∈ added, ∀ name, event.name = some name → ¬ Unheard history name)
      (hand : ∀ name ∈ after.names,
        name ∈ seen.names ∨ name ∉ s.generated ∧ name ∈ t.generated)
  | spends (hand : after.names = [])
      (own : ∀ event ∈ added, ∀ name, event.name = some name → name ∈ seen.names)

theorem uses_nameless {after : Phase} {added : List Event} {t : OAuth2Server}
    (nameless : ∀ event ∈ added, event.name = none)
    (hand : ∀ name ∈ after.names, name ∈ seen.names) :
    Uses seen after history added s t := by
  refine .keeps ?_ fun name member => .inl (hand name member)
  intro event member name named
  rw [nameless event member] at named
  cases named

theorem names_issue {issue : NewTokens} {root : Option AuthorizationCode}
    (member : event ∈ issue.events root) (named : event.name = some name) : name ∈ issue.names := by
  obtain refresh | access := List.mem_append.mp member
  · obtain ⟨entry, found, rfl⟩ := Option.map_eq_some_iff.mp (Option.mem_toList.mp refresh)
    cases named
    exact List.mem_cons_of_mem _
      (Option.mem_toList.mpr (Option.map_eq_some_iff.mpr ⟨_, found, rfl⟩))
  · rw [List.mem_singleton.mp access] at named
    cases named
    exact List.mem_cons_self

theorem names_newTokens {drawn : OAuth2Server} {clientId userId : String} {scope : List String}
    (member : name ∈ (OAuth2Server.newTokens config drawn clientId userId scope env).names) :
    name = env.first ∨ name = env.second := by
  simp only [NewTokens.names, OAuth2Server.newTokens] at member
  split at member
  · simpa using member
  · exact .inl (by simpa using member)

theorem uses_of_does (recorded : Recorded config s history) (fresh : Fresh s env note)
    (does : note.Does seen env s t) :
    Uses seen ((calling config).see seen note env s) history (entries history seen note s) s t := by
  cases note with
  | register client => exact uses_nameless (List.forall_mem_singleton.mpr rfl) fun _ => id
  | code =>
    obtain rfl := does
    refine .keeps (List.forall_mem_nil _) ?_
    intro name member
    rw [List.mem_singleton.mp member]
    exact .inr ⟨fresh.1, List.mem_cons_self⟩
  | grant authCode =>
    obtain ⟨rfl, -⟩ := does
    refine .spends rfl (List.forall_mem_singleton.mpr ?_)
    intro name named
    cases named
    exact List.mem_cons_self
  | exchange code clientId redirectUri =>
    simp only [calling, entries]
    split
    · next authCode checked =>
        refine .keeps (List.forall_mem_singleton.mpr ?_) nofun
        intro name named unheard
        obtain ⟨found, -⟩ := checkCode_ok checked
        obtain ⟨⟨granted, member, same, -⟩, -⟩ := recorded.codes code authCode found
        exact unheard _ member ((congrArg some same).trans named)
    · exact uses_nameless (List.forall_mem_nil _) fun _ => id
  | refresh token clientId =>
    simp only [calling, entries]
    split
    · exact uses_nameless (List.forall_mem_singleton.mpr rfl) nofun
    · exact uses_nameless (List.forall_mem_nil _) fun _ => id
  | generate clientId userId scope =>
    obtain ⟨⟨origin, rfl, -, -⟩, rfl⟩ := does
    refine .keeps (List.forall_mem_nil _) ?_
    intro name member
    obtain ⟨new, new', -⟩ := fresh
    obtain rfl | rfl := names_newTokens member
    · exact .inr ⟨new, List.mem_cons_self⟩
    · exact .inr ⟨new', List.mem_cons_of_mem _ List.mem_cons_self⟩
  | store issue =>
    obtain ⟨⟨origin, rfl⟩, -⟩ := does
    exact .spends rfl fun event member name => names_issue member
  | release => exact uses_nameless (List.forall_mem_nil _) fun _ => id
  | validate token =>
    simp only [entries]
    split
    · exact uses_nameless (List.forall_mem_singleton.mpr rfl) fun _ => id
    · exact uses_nameless (List.forall_mem_nil _) fun _ => id
  | revoke token =>
    simp only [entries]
    split
    · next found =>
        obtain ⟨info, here⟩ := Option.isSome_iff_exists.mp found
        obtain ⟨⟨kind, root, issued⟩, -⟩ := recorded.tokens token info here
        refine .keeps (List.forall_mem_singleton.mpr ?_) fun _ => .inl
        intro name named unheard
        exact unheard _ issued named
    · exact uses_nameless (List.forall_mem_nil _) fun _ => id

/-- What a call has in hand stays sound. -/
theorem Phase.Sound.mono (sound : seen.Sound config history) (added : List Event) :
    seen.Sound config (added ++ history) := by
  have origins : ∀ {origin : Origin}, origin.Sound history → origin.Sound (added ++ history) := by
    intro origin sound
    cases origin with
    | exchange authCode => exact List.mem_append_right _ sound
    | refresh token info =>
      obtain ⟨kind, root, issued⟩ := sound
      exact ⟨kind, root, List.mem_append_right _ issued⟩
  cases seen with
  | idle => trivial
  | granting authCode => exact sound
  | checked origin => exact origins sound
  | issuing origin issue => exact ⟨origins sound.1, sound.2⟩

theorem Phase.Sound.see (sound : seen.Sound config history) (recorded : Recorded config s history)
    (does : note.Does seen env s t) :
    ((calling config).see seen note env s).Sound config history := by
  cases note with
  | register | release | validate | revoke => exact sound
  | code => rfl
  | grant | store => trivial
  | exchange code clientId redirectUri =>
    simp only [calling]
    split
    · next authCode checked =>
        obtain ⟨found, -, -, unused, -⟩ := checkCode_ok checked
        obtain ⟨⟨granted, member, -, shape⟩, -⟩ := recorded.codes code authCode found
        have same : granted = authCode := by
          rw [shape, unused, ← recorded.granted granted member]
        exact same ▸ member
    · exact sound
  | refresh token clientId =>
    simp only [calling]
    split
    · next info checked =>
        obtain ⟨found, -⟩ := checkRefresh_ok checked
        exact (recorded.tokens token info found).1
    · exact sound
  | generate clientId userId scope =>
    obtain ⟨⟨origin, rfl, rfl, rfl⟩, -⟩ := does
    exact ⟨sound, s, userId, env, rfl⟩

theorem nodup_see (distinct : seen.names.Nodup) (fresh : Fresh s env note) :
    ((calling config).see seen note env s).names.Nodup := by
  cases note with
  | register | release | validate | revoke => exact distinct
  | code => exact List.nodup_singleton _
  | grant | store => exact List.nodup_nil
  | exchange | refresh =>
    simp only [calling]
    split
    · exact List.nodup_nil
    · exact distinct
  | generate clientId userId scope =>
    simp only [calling]
    split
    · simp only [Phase.names, NewTokens.names, OAuth2Server.newTokens]
      split
      · simpa using fresh.2.2
      · simp
    · exact distinct

end Recorded

/-! ## Every run -/

/-- Every call keeps its contract with sound things in hand, the names in hand are new to the
history and to the other calls, and the maps are in step with the history. -/
structure Traced (s : ServerPool) (history : List Event) : Prop where
  lawful : ∀ thread ∈ s.threads,
    KeepsCalls config thread.program thread.seen fun _ _ => True
  sound : ∀ thread ∈ s.threads, thread.seen.Sound config history
  pending : ∀ thread ∈ s.threads, thread.seen.Pending s.shared history
  apart : ∀ (i j : Nat) thread other, s.threads[i]? = some thread → s.threads[j]? = some other →
    i ≠ j → ∀ name ∈ thread.seen.names, name ∉ other.seen.names
  recorded : Recorded config s.shared history

namespace Traced

variable {config} {s : ServerPool} {history : List Event} {index : Nat} {seen : Phase}
  {note : Note} {env : OAuth2Env}

theorem spawn (traced : Traced config s history) {process : Process Unit}
    (calls : Calls config process) :
    Traced config { s with threads := s.threads ++ [⟨process, .idle⟩] } history := by
  have last : ∀ (i : Nat) thread, (s.threads ++ [⟨process, Phase.idle⟩])[i]? = some thread →
      s.threads[i]? = some thread ∨ thread.seen = .idle := by
    intro i thread found
    rw [List.getElem?_append] at found
    split at found
    · exact .inl found
    · exact .inr (by rw [List.mem_singleton.mp (List.mem_of_getElem? found)])
  refine ⟨?_, ?_, ?_, ?_, traced.recorded⟩
  · exact List.forall_mem_append.mpr
      ⟨traced.lawful, List.forall_mem_singleton.mpr (keeps_of_calls calls)⟩
  · exact List.forall_mem_append.mpr ⟨traced.sound, List.forall_mem_singleton.mpr trivial⟩
  · exact List.forall_mem_append.mpr
      ⟨traced.pending, List.forall_mem_singleton.mpr ⟨List.nodup_nil, nofun⟩⟩
  · intro i j thread other here there distinct name mine
    obtain old | idle := last i thread here
    · obtain old' | idle := last j other there
      · exact traced.apart i j thread other old old' distinct name mine
      · rw [idle]
        exact nofun
    · rw [idle] at mine
      cases mine

/-- What the moved call and the others have in hand after an action. -/
theorem hand (traced : Traced config s history)
    {thread : Thread OAuth2Server OAuth2Env Note Unit Phase}
    (here : s.threads[index]? = some thread) {after : Phase} {added : List Event}
    {t : OAuth2Server} (uses : Uses thread.seen after history added s.shared t)
    (grows : ∀ name ∈ s.shared.generated, name ∈ t.generated) :
    (∀ name ∈ after.names, name ∈ t.generated ∧ Unheard (added ++ history) name) ∧
      ∀ (j : Nat) other, j ≠ index → s.threads[j]? = some other → ∀ name ∈ other.seen.names,
        (name ∈ t.generated ∧ Unheard (added ++ history) name) ∧ name ∉ after.names := by
  have member := List.mem_of_getElem? here
  have mine := (traced.pending thread member).2
  have unheard_known : ∀ {name}, name ∉ s.shared.generated → Unheard history name :=
    fun absent event inside named => absent (traced.recorded.known event inside _ named)
  cases uses with
  | keeps known hand =>
    have extends' : ∀ {name}, Unheard history name → Unheard (added ++ history) name :=
      fun unheard => List.forall_mem_append.mpr
        ⟨fun event inside named => known event inside _ named unheard, unheard⟩
    refine ⟨?_, ?_⟩
    · intro name inside
      obtain old | ⟨absent, present⟩ := hand name inside
      · exact ⟨grows name (mine name old).1, extends' (mine name old).2⟩
      · exact ⟨present, extends' (unheard_known absent)⟩
    · intro j other distinct there name theirs
      obtain ⟨known', unheard⟩ :=
        (traced.pending other (List.mem_of_getElem? there)).2 name theirs
      refine ⟨⟨grows name known', extends' unheard⟩, ?_⟩
      intro inside
      obtain old | ⟨absent, -⟩ := hand name inside
      · exact traced.apart index j thread other here there (Ne.symm distinct) name old theirs
      · exact absent known'
  | spends empty own =>
    rw [empty]
    refine ⟨nofun, ?_⟩
    intro j other distinct there name theirs
    obtain ⟨known', unheard⟩ := (traced.pending other (List.mem_of_getElem? there)).2 name theirs
    refine ⟨⟨grows name known', List.forall_mem_append.mpr ⟨?_, unheard⟩⟩, nofun⟩
    intro event inside named
    exact traced.apart index j thread other here there (Ne.symm distinct) name
      (own event inside name named) theirs

theorem generated_mono {s t : OAuth2Server} (does : note.Does seen env s t) (name : String)
    (known : name ∈ s.generated) : name ∈ t.generated := by
  cases note with
  | register | refresh | release | validate | revoke =>
    obtain rfl := does
    exact known
  | code =>
    obtain rfl := does
    exact List.mem_cons_of_mem _ (List.mem_cons_of_mem _ known)
  | exchange code clientId redirectUri =>
    obtain rfl := does
    rw [OAuth2Server.takeCode]
    split <;> exact known
  | grant =>
    obtain ⟨-, rfl⟩ := does
    exact known
  | generate =>
    obtain ⟨-, rfl⟩ := does
    exact List.mem_cons_of_mem _ (List.mem_cons_of_mem _ known)
  | store issue =>
    obtain ⟨-, rfl⟩ := does
    unfold OAuth2Server.storeTokens
    split <;> exact known

theorem run (traced : Traced config s history) {ready : OAuth2Server → Bool}
    {act : OAuth2Env → OAuth2Server → OAuth2Server}
    {next : OAuth2Env → OAuth2Server → Process Unit}
    (here : s.threads[index]? = some ⟨.act note ready act next, seen⟩)
    (enabled : ready s.shared = true) (fresh : Fresh s.shared env note) :
    Traced config
      { shared := act env s.shared
        threads := s.threads.set index
          ⟨next env s.shared, (calling config).see seen note env s.shared⟩ }
      (entries history seen note s.shared ++ history) := by
  have member := List.mem_of_getElem? here
  have sound := traced.sound _ member
  have pending := traced.pending _ member
  obtain ⟨does, later⟩ := (traced.lawful _ member).2 env s.shared enabled trivial trivial
  have uses := uses_of_does traced.recorded fresh does
  obtain ⟨mine, theirs⟩ := traced.hand here uses (generated_mono does)
  have moved : ∀ (i : Nat) thread, (s.threads.set index
      ⟨next env s.shared, (calling config).see seen note env s.shared⟩)[i]? = some thread →
      (i = index ∧ thread = ⟨next env s.shared, (calling config).see seen note env s.shared⟩) ∨
        (i ≠ index ∧ s.threads[i]? = some thread) := by
    intro i thread found
    rw [List.getElem?_set] at found
    split at found
    · next same =>
        split at found <;> cases found
        exact .inl ⟨same.symm, rfl⟩
    · next distinct => exact .inr ⟨Ne.symm distinct, found⟩
  refine ⟨?_, ?_, ?_, ?_, traced.recorded.does sound pending does⟩
  · intro thread present
    obtain old | rfl := List.mem_or_eq_of_mem_set present
    · exact traced.lawful thread old
    · exact later
  · intro thread present
    obtain old | rfl := List.mem_or_eq_of_mem_set present
    · exact (traced.sound thread old).mono _
    · exact (sound.see traced.recorded does).mono _
  · intro thread present
    obtain ⟨i, found⟩ := List.getElem?_of_mem present
    obtain ⟨-, rfl⟩ | ⟨distinct, old⟩ := moved i thread found
    · exact ⟨nodup_see pending.1 fresh, mine⟩
    · exact ⟨(traced.pending thread (List.mem_of_getElem? old)).1,
        fun name inside => (theirs i thread distinct old name inside).1⟩
  · intro i j thread other found found' distinct name inside inside'
    obtain ⟨rfl, rfl⟩ | ⟨apart, old⟩ := moved i thread found
    · obtain ⟨rfl, -⟩ | ⟨apart', old'⟩ := moved j other found'
      · exact distinct rfl
      · exact (theirs j other apart' old' name inside').2 inside
    · obtain ⟨rfl, rfl⟩ | ⟨-, old'⟩ := moved j other found'
      · exact (theirs i thread apart old name inside).2 inside'
      · exact traced.apart i j thread other old old' distinct name inside inside'

theorem of_reachable (reached : (oauth2 config).Reachable (s, history)) :
    Traced config s history := by
  refine reached.invariant (P := fun s => Traced config s.1 s.2) ?_ ?_
  · rintro ⟨pool, history⟩ ⟨⟨nobody, clock, begun⟩, rfl⟩
    have nobody : pool.threads = [] := nobody
    refine ⟨by simp [nobody], by simp [nobody], by simp [nobody], by simp [nobody], ?_⟩
    rw [begun]
    have empty : ∀ {V : Type} (key : String), (∅ : HashMap String V).lookup key = none :=
      fun key => Finmap.lookup_empty key
    have nothing : ∀ event : Event, event ∉ [] := fun _ => List.not_mem_nil
    refine ⟨List.forall_mem_nil _, empty, ?_, ?_, ?_, ?_, ?_, ?_⟩
    · intro code authCode found
      cases (empty code).symm.trans found
    · intro token info found
      cases (empty token).symm.trans found
    · intro _ _ _ _ issued
      exact absurd issued (nothing _)
    · intro _ _ _ _ issued
      exact absurd issued (nothing _)
    · intro _ _ _ _ issued
      exact absurd issued (nothing _)
    · intro _ granted
      exact absurd granted (nothing _)
  · rintro ⟨pool, history⟩ label ⟨after, _⟩ traced ⟨⟨fresh, step⟩, rfl⟩
    dsimp only at traced fresh step ⊢
    cases step with
    | spawn process calls => exact traced.spawn calls
    | run index env note ready act next seen here enabled =>
      rw [Pool.book_run here]
      exact traced.run here enabled (fresh _ _ _ _ _ here)
    | background shared passes =>
      obtain ⟨clock, -, rfl⟩ := passes
      exact ⟨traced.lawful, traced.sound, traced.pending, traced.apart,
        traced.recorded.frame rfl rfl rfl fun _ => id⟩

end Traced

/-! ## Running calls -/

/-- The default configuration. -/
def sampleConfig : OAuth2Config := ⟨600, 3600, 604800, true⟩

def sampleCallback : String := "http://localhost/callback"

/-- Strings for an action that generates none. -/
def spare : OAuth2Env := ⟨"spare-2", "spare-3"⟩

/-- Whether an action gets strings that are new. -/
def admitsFresh (s : ServerPool) (_ : Nat) (env : OAuth2Env) : Bool :=
  env.first ∉ s.shared.generated && env.second ∉ s.shared.generated &&
    decide (env.first ≠ env.second)

theorem keepsFresh_of_admits (s : ServerPool) (index : Nat) (env : OAuth2Env)
    (admitted : admitsFresh s index env = true) : KeepsFresh s (.run index env) := by
  intro note _ _ _ _ _
  obtain ⟨both, distinct⟩ := Bool.and_eq_true_iff.mp admitted
  obtain ⟨first, second⟩ := Bool.and_eq_true_iff.mp both
  have fresh := And.intro (of_decide_eq_true first)
    (And.intro (of_decide_eq_true second) (of_decide_eq_true distinct))
  cases note with
  | code | generate => exact fresh
  | _ => trivial

/-- What a script asks of the server. -/
abbrev ServerMove := Pool.Move (Calls sampleConfig) Passes

/-- Calls of a server that generates new strings. -/
def oauth2Player : (oauth2 sampleConfig).Player ServerMove :=
  (Pool.checked (Pool.player (calling sampleConfig) (Calls sampleConfig) Passes _) admitsFresh
    keepsFresh_of_admits (fun _ _ => trivial) fun _ _ => trivial).observe _ _

def newServer : ServerPool × List Event := (⟨.new 0, []⟩, [])

/-- A code is created and exchanged. -/
def codeCalls : List ServerMove :=
  [.spawn _ (.createAuthCode "client-1" sampleCallback "user-1" ["openid"]),
    .spawn _ (.exchangeAuthCode "code-1" "client-1" sampleCallback)]

theorem newServer_reachable : (oauth2 sampleConfig).Reachable newServer :=
  .init ⟨⟨rfl, 0, rfl⟩, rfl⟩

end UHorse.Sso
