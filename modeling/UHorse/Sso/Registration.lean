import UHorse.Sso.TokenHistory

/-!
# Tokens and the registrations of their clients

Tokens are issued for a code without a look at the clients. They stay within the registration of
their client just as long as every time tokens are stored the client of the code they go back to
is registered and enabled, and accepts the redirect URI and the scopes of the code.
-/

namespace UHorse.Sso

open UHorse.Lib UHorse.Protocol

variable (config : OAuth2Config)

/-- A client may be given tokens for the scopes through the redirect URI. -/
def OAuth2Client.Permits (client : OAuth2Client) (redirectUri : String) (scope : List String) :
    Prop :=
  client.enabled = true ∧ client.validateRedirectUri redirectUri = true ∧
    ∀ item ∈ scope, item ∈ client.scope

/-- The registration of the client of a token when the token was issued. -/
def clientAtIssue (token : String) : List Event → Option OAuth2Client
  | [] => none
  | .issued _ other info _ :: before =>
    if other = token then registration info.clientId before else clientAtIssue token before
  | _ :: before => clientAtIssue token before

/-- What was issued was issued within the registration of its client. -/
def Permitted (history : List Event) (token : String) (info : TokenInfo) : Prop :=
  ∃ kind authCode client, issueOf token history = some (kind, info, some authCode) ∧
    clientAtIssue token history = some client ∧ client.Permits authCode.redirectUri info.scope

/-- Every stored token was issued within the registration of its client. -/
def WithinRegistration (s : OAuth2Server) (history : List Event) : Prop :=
  ∀ token info, s.tokens.lookup token = some info → Permitted history token info

/-- Tokens are stored for a code that its client may use. -/
def Note.Registered (history : List Event) (s : OAuth2Server) (seen : Phase) : Note → Prop
  | .store _ => ∀ origin issue, seen = .issuing origin issue → ∃ authCode client,
      origin.root history = some authCode ∧ s.clients.lookup authCode.clientId = some client ∧
        client.Permits authCode.redirectUri authCode.scope
  | _ => True

/-- Tokens are only stored for codes that their clients may use. -/
def KeepsRegistered (s : ServerPool × List Event) : ServerLabel → Prop
  | .run index _ => ∀ note ready act next seen,
      s.1.threads[index]? = some ⟨.act note ready act next, seen⟩ →
        note.Registered s.2 s.1.shared seen
  | _ => True

variable {config} {s t : OAuth2Server} {history : List Event} {seen : Phase} {note : Note}
  {env : OAuth2Env} {token : String} {info : TokenInfo}

/-- Whether an event issues a token. -/
def Event.isIssue : Event → Bool
  | .issued .. => true
  | _ => false

theorem permitted_cons {event : Event} (other : event.isIssue = false) :
    Permitted (event :: history) token info ↔ Permitted history token info := by
  cases event with
  | issued => cases other
  | _ => exact Iff.rfl

theorem permitted_append {added : List Event} (other : ∀ event ∈ added, event.isIssue = false) :
    Permitted (added ++ history) token info ↔ Permitted history token info := by
  induction added with
  | nil => exact Iff.rfl
  | cons event added ih =>
    obtain ⟨first, rest⟩ := List.forall_mem_cons.mp other
    exact (permitted_cons first).trans (ih rest)

theorem WithinRegistration.mono (within : WithinRegistration s history) {added : List Event}
    (other : ∀ event ∈ added, event.isIssue = false)
    (kept : ∀ token info, t.tokens.lookup token = some info → s.tokens.lookup token = some info) :
    WithinRegistration t (added ++ history) :=
  fun token info found => (permitted_append other).mpr (within token info (kept token info found))

/-- The client of a token that is about to be issued may have it. -/
def MayIssue (history : List Event) (clientId : String) (scope : List String)
    (authCode : AuthorizationCode) : Prop :=
  ∃ client, registration clientId history = some client ∧
    client.Permits authCode.redirectUri scope

/-- One more token is stored with its issue. -/
abbrev issueOne (kind : Kind) (token : String) (info : TokenInfo) (authCode : AuthorizationCode)
    (history : List Event) : List Event :=
  .issued kind token info (some authCode) :: history

variable {kind : Kind} {authCode : AuthorizationCode}

theorem mayIssue_of_within
    (within : WithinRegistration s (issueOne kind token info authCode history))
    (stored : s.tokens.lookup token = some info) :
    MayIssue history info.clientId info.scope authCode := by
  obtain ⟨_, _, client, same, found, permits⟩ := within token info stored
  have issue : issueOf token (issueOne kind token info authCode history) =
      some (kind, info, some authCode) := if_pos rfl
  have atIssue : clientAtIssue token (issueOne kind token info authCode history) =
      registration info.clientId history := if_pos rfl
  cases issue.symm.trans same
  exact ⟨client, atIssue.symm.trans found, permits⟩

theorem WithinRegistration.issue (within : WithinRegistration s history)
    (may : MayIssue history info.clientId info.scope authCode) :
    WithinRegistration { s with tokens := s.tokens.insert token info }
      (issueOne kind token info authCode history) := by
  obtain ⟨client, found, permits⟩ := may
  intro other info' here
  have here : (s.tokens.insert token info).lookup other = some info' := here
  rw [HashMap.lookup_insert_ite] at here
  split at here
  · next same =>
      cases here
      rw [same]
      exact ⟨kind, authCode, client, if_pos rfl, (if_pos rfl).trans found, permits⟩
  · next distinct =>
      obtain ⟨kind', authCode', client', issue, atIssue, permits'⟩ := within other info' here
      refine ⟨kind', authCode', client', ?_, ?_, permits'⟩
      · exact (if_neg (Ne.symm distinct)).trans issue
      · exact (if_neg (Ne.symm distinct)).trans atIssue

/-- Tokens that are stored for a code are within the registration if its client may have them. -/
theorem within_store (recorded : Recorded config s history)
    (within : WithinRegistration s history) {origin : Origin} {issue : NewTokens}
    (sound : (Phase.issuing origin issue).Sound config history) :
    WithinRegistration (s.storeTokens issue) (issue.events (origin.root history) ++ history) ↔
      (Note.store issue).Registered history s (.issuing origin issue) := by
  obtain ⟨sound, drawn, userId, env, rfl⟩ := sound
  obtain ⟨authCode, root, client, scope⟩ := sound.rooted recorded
  have condition : MayIssue history origin.clientId origin.scope authCode ↔
      (Note.store (OAuth2Server.newTokens config drawn origin.clientId userId origin.scope
        env)).Registered history s (.issuing origin (OAuth2Server.newTokens config drawn
          origin.clientId userId origin.scope env)) := by
    rw [MayIssue, ← recorded.clients, client, scope]
    constructor
    · rintro ⟨found, here, permits⟩ _ _ same
      cases same
      exact ⟨authCode, found, root, here, permits⟩
    · intro registered
      obtain ⟨_, found, root', here, permits⟩ := registered _ _ rfl
      cases root.symm.trans root'
      exact ⟨found, here, permits⟩
  rw [root]
  refine Iff.trans ?_ condition
  cases enabled : config.enableRefreshToken with
  | false =>
    simp only [OAuth2Server.storeTokens, NewTokens.events, OAuth2Server.newTokens, enabled,
      Bool.false_eq_true, if_false, Option.map_none, Option.toList_none, List.nil_append,
      List.singleton_append]
    constructor
    · intro after
      have may := mayIssue_of_within after (Finmap.lookup_insert _)
      exact may
    · intro may
      exact within.issue may
  | true =>
    simp only [OAuth2Server.storeTokens, NewTokens.events, OAuth2Server.newTokens, enabled,
      if_true, Option.map_some, Option.toList_some, List.cons_append, List.nil_append]
    constructor
    · intro after
      have may := mayIssue_of_within after (Finmap.lookup_insert _)
      exact may
    · intro may
      refine WithinRegistration.issue (WithinRegistration.issue within ?_) ?_
      · exact may
      · exact may

theorem within_entries (recorded : Recorded config s history)
    (within : WithinRegistration s history) (sound : seen.Sound config history)
    (does : note.Does seen env s t) :
    WithinRegistration t (entries history seen note s ++ history) ↔
      note.Registered history s seen := by
  cases note with
  | store issue =>
    obtain ⟨⟨origin, rfl⟩, rfl⟩ := does
    exact within_store recorded within sound
  | register client =>
    obtain rfl := does
    exact iff_of_true (within.mono (List.forall_mem_singleton.mpr rfl) fun _ _ => id) trivial
  | code | release =>
    obtain rfl := does
    exact iff_of_true within trivial
  | generate =>
    obtain ⟨-, rfl⟩ := does
    exact iff_of_true within trivial
  | grant authCode =>
    obtain ⟨-, rfl⟩ := does
    exact iff_of_true (within.mono (List.forall_mem_singleton.mpr rfl) fun _ _ => id) trivial
  | exchange given clientId redirectUri =>
    obtain rfl := does
    refine iff_of_true (within.mono ?_ ?_) trivial
    · simp only [entries]
      split
      · exact List.forall_mem_singleton.mpr rfl
      · exact List.forall_mem_nil _
    · rw [OAuth2Server.takeCode]
      split <;> exact fun _ _ => id
  | refresh token clientId =>
    obtain rfl := does
    refine iff_of_true (within.mono ?_ fun _ _ => id) trivial
    simp only [entries]
    split
    · exact List.forall_mem_singleton.mpr rfl
    · exact List.forall_mem_nil _
  | validate token =>
    obtain rfl := does
    refine iff_of_true (within.mono ?_ fun _ _ => id) trivial
    simp only [entries]
    split
    · exact List.forall_mem_singleton.mpr rfl
    · exact List.forall_mem_nil _
  | revoke token =>
    obtain rfl := does
    refine iff_of_true (within.mono ?_ ?_) trivial
    · simp only [entries]
      split
      · exact List.forall_mem_singleton.mpr rfl
      · exact List.forall_mem_nil _
    · intro other info here
      have here : (s.tokens.erase token).lookup other = some info := here
      rw [HashMap.lookup_erase_ite] at here
      split at here
      · cases here
      · exact here

/-- A step keeps the stored tokens within the registrations just if it stores tokens for a code
that its client may use. -/
theorem within_step {s t : ServerPool × List Event} {label : ServerLabel}
    (reached : (oauth2 config).Reachable s) (step : (oauth2 config).Step s label t)
    (within : WithinRegistration s.1.shared s.2) :
    WithinRegistration t.1.shared t.2 ↔ KeepsRegistered s label := by
  obtain ⟨pool, history⟩ := s
  obtain ⟨after, _⟩ := t
  have traced := Traced.of_reachable reached
  obtain ⟨⟨fresh, step⟩, rfl⟩ := step
  dsimp only at step within ⊢
  cases step with
  | spawn process calls => exact iff_of_true within trivial
  | background shared passes =>
    obtain ⟨clock, -, rfl⟩ := passes
    exact iff_of_true within trivial
  | run index env note ready act next seen here enabled =>
    rw [Pool.book_run here]
    have member := List.mem_of_getElem? here
    obtain ⟨does, -⟩ := (traced.lawful _ member).2 env pool.shared enabled trivial trivial
    refine (within_entries traced.recorded within (traced.sound _ member) does).trans ?_
    constructor
    · intro registered note' ready' act' next' seen' here'
      cases here.symm.trans here'
      exact registered
    · exact fun registered => registered _ _ _ _ _ here

/-- As long as tokens are only stored for codes that their clients may use, every stored token is
within the registration of its client; the first that is stored otherwise is not. -/
theorem tokens_within_registration {s : ServerPool × List Event}
    (reached : ((oauth2 config).restrict KeepsRegistered).Reachable s) :
    WithinRegistration s.1.shared s.2 ∧ ∀ label t, (oauth2 config).Step s label t →
      (WithinRegistration t.1.shared t.2 ↔ KeepsRegistered s label) := by
  have within : WithinRegistration s.1.shared s.2 := by
    obtain ⟨origin, labels, start, run⟩ := reached
    induction run with
    | refl =>
      obtain ⟨⟨-, clock, begun⟩, -⟩ := start
      rw [begun]
      intro token info found
      cases (Finmap.lookup_empty token).symm.trans found
    | snoc before step ih =>
      have here : (oauth2 config).Reachable _ :=
        System.Reachable.of_restrict ⟨origin, _, start, before⟩
      exact (within_step here step.2 ih).mpr step.1
  exact ⟨within, fun label t step => within_step reached.of_restrict step within⟩

/-! ### A client with a code -/

def sampleClient : OAuth2Client where
  clientId := "client-1"
  clientSecret := "secret-1"
  redirectUris := [sampleCallback]
  name := "Test App"
  grantTypes := ["authorization_code"]
  scope := ["openid", "profile"]
  enabled := true

/-- A client is registered, and a code of it is exchanged and its tokens are refreshed. -/
def registeredCalls : List ServerMove :=
  .spawn _ (.registerClient sampleClient) :: codeCalls ++
    [.spawn _ (.refreshToken "refresh-1" "client-1")]

/-- The steps of the code and of its exchange. -/
def exchangeSteps : List (Nat × OAuth2Env) :=
  [(1, ⟨"code-1", "spare-1"⟩), (1, spare), (2, spare), (2, ⟨"access-1", "refresh-1"⟩),
    (2, spare), (2, spare)]

def refreshSteps : List (Nat × OAuth2Env) :=
  [(3, spare), (3, ⟨"access-2", "refresh-2"⟩), (3, spare)]

def OAuth2Client.permits (client : OAuth2Client) (authCode : AuthorizationCode) : Bool :=
  client.enabled && client.validateRedirectUri authCode.redirectUri &&
    authCode.scope.all (· ∈ client.scope)

/-- Whether the client of the code that tokens are stored for may use it. -/
def mayStore (s : ServerPool × List Event) : Phase → Bool
  | .issuing origin _ => (origin.root s.2).any fun authCode =>
    (s.1.shared.clients.lookup authCode.clientId).any (·.permits authCode)
  | _ => true

def admitsRegistered (s : ServerPool × List Event) (index : Nat) (_ : OAuth2Env) : Bool :=
  s.1.threads[index]?.all fun thread => mayStore s thread.seen

theorem registered_of_admits (s : ServerPool × List Event) (index : Nat) (env : OAuth2Env)
    (may : admitsRegistered s index env = true) : KeepsRegistered s (.run index env) := by
  intro note ready act next seen here
  cases note with
  | store issue =>
    rintro origin _ rfl
    simp only [admitsRegistered, here, Option.all_some, mayStore, Option.any_eq_true] at may
    obtain ⟨authCode, root, client, found, permits⟩ := may
    obtain ⟨both, scopes⟩ := Bool.and_eq_true_iff.mp permits
    obtain ⟨enabled, uri⟩ := Bool.and_eq_true_iff.mp both
    refine ⟨authCode, client, root, found, enabled, uri, ?_⟩
    exact fun item member => of_decide_eq_true (List.all_eq_true.mp scopes item member)
  | _ => trivial

theorem tokens_within_registration_sample :
    ∃ s, ((oauth2 sampleConfig).restrict KeepsRegistered).Reachable s ∧
      (∀ token ∈ ["access-1", "refresh-1", "access-2", "refresh-2"],
        (s.1.shared.tokens.lookup token).isSome = true) ∧
      WithinRegistration s.1.shared s.2 := by
  obtain ⟨s, reached, stored⟩ := (Pool.checked oauth2Player _ registered_of_admits
    (fun _ _ => trivial) fun _ _ => trivial).exists_reachable (s := newServer)
    (.init ⟨⟨rfl, 0, rfl⟩, rfl⟩)
    (registeredCalls ++ Pool.running ((0, spare) :: exchangeSteps ++ refreshSteps))
    (fun s => ∀ token ∈ ["access-1", "refresh-1", "access-2", "refresh-2"],
      (s.1.shared.tokens.lookup token).isSome = true) (by decide)
  exact ⟨s, reached, stored, (tokens_within_registration reached).1⟩

/-- Tokens are issued to a client that was never registered. -/
theorem tokens_without_registration : ¬ ∀ (config : OAuth2Config) s,
    (oauth2 config).Reachable s → WithinRegistration s.1.shared s.2 := by
  intro always
  obtain ⟨s, reached, held, unregistered⟩ := oauth2Player.exists_reachable newServer_reachable
    (registeredCalls ++ Pool.running exchangeSteps)
    (fun s => (s.1.shared.tokens.lookup "access-1").isSome = true ∧
      clientAtIssue "access-1" s.2 = none) (by decide)
  obtain ⟨info, found⟩ := Option.isSome_iff_exists.mp held
  have within := always sampleConfig s reached
  obtain ⟨_, _, client, -, atIssue, -⟩ := within "access-1" info found
  cases unregistered.symm.trans atIssue

end UHorse.Sso
