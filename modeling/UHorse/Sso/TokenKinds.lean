import UHorse.Sso.TokenHistory

/-!
# The kinds and lives of tokens

Access and refresh tokens are entries of one map that do not say which kind they are. Tokens are
used as they were issued just as long as no call presents a live token of the other kind; codes
are exchanged at most once and before they expire in every case.
-/

namespace UHorse.Sso

open UHorse.Lib UHorse.Protocol

variable (config : OAuth2Config)

/-- Whether an event may follow on others. -/
def Event.Follows (before : List Event) : Event → Prop
  | .validated token now => ∃ info root, .issued .access token info root ∈ before ∧
      now ≤ info.createdAt + seconds config.accessTokenTtl.toNat ∧ .revoked token ∉ before
  | .refreshed token clientId now => ∃ info root, .issued .refresh token info root ∈ before ∧
      info.clientId = clientId ∧
      now ≤ info.createdAt + seconds config.refreshTokenTtl.toNat ∧ .revoked token ∉ before
  | .exchanged code now => (∀ earlier, .exchanged code earlier ∉ before) ∧
      ∃ authCode, .granted authCode ∈ before ∧ authCode.code = code ∧ now ≤ authCode.expiresAt
  | _ => True

/-- Tokens are used while they live and as what they were issued, and codes are exchanged once and
before they expire. The latest event comes first. -/
def Lawful : List Event → Prop
  | [] => True
  | event :: before => event.Follows config before ∧ Lawful before

/-- A token that the server holds and that has not expired. -/
def OAuth2Server.Live (s : OAuth2Server) (token : String) (info : TokenInfo) : Prop :=
  s.tokens.lookup token = some info ∧ info.isExpired s.clock = false

/-- No live token is presented as one of the other kind. -/
def Note.RightKind (history : List Event) (s : OAuth2Server) : Note → Prop
  | .validate token => ∀ info root, s.Live token info → .issued .refresh token info root ∉ history
  | .refresh token clientId => ∀ info root, s.Live token info → info.clientId = clientId →
      .issued .access token info root ∉ history
  | _ => True

/-- Only tokens of the right kind are presented. -/
def RightKinds (s : ServerPool × List Event) : ServerLabel → Prop
  | .run index _ => ∀ note ready act next seen,
      s.1.threads[index]? = some ⟨.act note ready act next, seen⟩ → note.RightKind s.2 s.1.shared
  | _ => True

variable {config} {s : OAuth2Server} {history : List Event} {seen : Phase} {note : Note}

theorem ttlSeconds_le (ttl : UInt64) : ttlSeconds ttl ≤ seconds ttl.toNat := by
  have small : ttl.toInt64.toInt ≤ ttl.toNat := by
    have cast : ttl.toInt64.toInt = ttl.toBitVec.toInt := rfl
    rw [cast, BitVec.toInt_eq_toNat_cond]
    have same : ttl.toBitVec.toNat = ttl.toNat := rfl
    split <;> omega
  rw [ttlSeconds, seconds]
  omega

theorem le_of_not_expired {info : TokenInfo} {now : DateTime} {ttl : UInt64}
    (lives : info.expiresAt = info.createdAt + ttlSeconds ttl)
    (live : info.isExpired now = false) : now ≤ info.createdAt + seconds ttl.toNat := by
  calc now ≤ info.expiresAt := not_lt.mp (of_decide_eq_false live)
    _ = info.createdAt + ttlSeconds ttl := lives
    _ ≤ info.createdAt + seconds ttl.toNat := Int.add_le_add_left (ttlSeconds_le ttl) _

namespace Recorded

variable (recorded : Recorded config s history) {token : String} {info info' : TokenInfo}
  {root root' : Option AuthorizationCode}
include recorded

/-- A token has one kind. -/
theorem kind_eq {kind kind' : Kind} (issued : .issued kind token info root ∈ history)
    (issued' : .issued kind' token info' root' ∈ history) : kind = kind' := by
  have same := (recorded.once _ _ _ _ issued).symm.trans (recorded.once _ _ _ _ issued')
  exact congrArg Prod.fst (Option.some.inj same)

theorem validated_follows (live : s.Live token info) :
    (Event.validated token s.clock).Follows config history ↔
      (Note.validate token).RightKind history s := by
  obtain ⟨⟨kind, root, issued⟩, valid⟩ := recorded.tokens token info live.1
  constructor
  · rintro ⟨_, _, access, -, -⟩ info' root' - refresh
    cases recorded.kind_eq access refresh
  · intro right
    cases kind with
    | access =>
      have lives := recorded.lives _ _ _ _ issued
      exact ⟨info, root, issued, le_of_not_expired lives live.2, valid⟩
    | refresh => exact absurd issued (right info root live)

theorem refreshed_follows {clientId : String} (live : s.Live token info)
    (client : info.clientId = clientId) :
    (Event.refreshed token clientId s.clock).Follows config history ↔
      (Note.refresh token clientId).RightKind history s := by
  obtain ⟨⟨kind, root, issued⟩, valid⟩ := recorded.tokens token info live.1
  constructor
  · rintro ⟨_, _, refresh, -, -, -⟩ info' root' - - access
    cases recorded.kind_eq access refresh
  · intro right
    cases kind with
    | access => exact absurd issued (right info root live client)
    | refresh =>
      have lives := recorded.lives _ _ _ _ issued
      exact ⟨info, root, issued, client, le_of_not_expired lives live.2, valid⟩

theorem exchanged_follows {code clientId redirectUri : String} {authCode : AuthorizationCode}
    (checked : s.checkCode code clientId redirectUri = .ok authCode) :
    (Event.exchanged code s.clock).Follows config history := by
  obtain ⟨found, -, -, unused, live⟩ := checkCode_ok checked
  obtain ⟨⟨granted, member, same, shape⟩, fresh⟩ := recorded.codes code authCode found
  have expiry : granted.expiresAt = authCode.expiresAt := by rw [shape]
  refine ⟨fresh unused, granted, member, same, ?_⟩
  rw [expiry]
  exact not_lt.mp (of_decide_eq_false live)

/-- What an action adds is lawful just if it presents no token of the wrong kind. -/
theorem lawful_entries (lawful : Lawful config history) (fits : ∀ issue, note = .store issue →
      ∃ origin, seen = .issuing origin issue) :
    Lawful config (entries history seen note s ++ history) ↔ note.RightKind history s := by
  have single : ∀ {event : Event} {P : Prop}, (event.Follows config history ↔ P) →
      (Lawful config (event :: history) ↔ P) :=
    fun follows => (and_iff_left lawful).trans follows
  cases note with
  | register | grant => exact single Iff.rfl
  | code | generate | release => exact iff_of_true lawful trivial
  | exchange code clientId redirectUri =>
    simp only [entries]
    split
    · next authCode checked =>
        exact single (iff_of_true (recorded.exchanged_follows checked) trivial)
    · exact iff_of_true lawful trivial
  | refresh token clientId =>
    simp only [entries]
    split
    · next info checked =>
        obtain ⟨found, client, live⟩ := checkRefresh_ok checked
        exact single (recorded.refreshed_follows ⟨found, live⟩ client)
    · next error refused =>
        refine iff_of_true lawful ?_
        rintro info root ⟨found, live⟩ client
        have accepted : s.checkRefresh token clientId = .ok info := by
          simp [OAuth2Server.checkRefresh, found, client, live]
        cases accepted.symm.trans refused
  | store issue =>
    obtain ⟨origin, rfl⟩ := fits issue rfl
    refine iff_of_true ?_ trivial
    simp only [entries, NewTokens.events]
    cases issue.refreshInfo with
    | none => exact ⟨trivial, lawful⟩
    | some entry => exact ⟨trivial, trivial, lawful⟩
  | validate token =>
    simp only [entries]
    split
    · next info checked => exact single (recorded.validated_follows (checkToken_ok.mp checked))
    · next error refused =>
        refine iff_of_true lawful ?_
        intro info root live
        cases (checkToken_ok.mpr live).symm.trans refused
  | revoke token =>
    simp only [entries]
    split
    · exact single Iff.rfl
    · exact iff_of_true lawful trivial

end Recorded

/-- A step keeps the history lawful just if it presents no token of the wrong kind. -/
theorem lawful_step {s t : ServerPool × List Event} {label : ServerLabel}
    (reached : (oauth2 config).Reachable s) (step : (oauth2 config).Step s label t)
    (lawful : Lawful config s.2) : Lawful config t.2 ↔ RightKinds s label := by
  obtain ⟨pool, history⟩ := s
  obtain ⟨after, _⟩ := t
  have traced := Traced.of_reachable reached
  obtain ⟨⟨fresh, step⟩, rfl⟩ := step
  dsimp only at step lawful ⊢
  cases step with
  | spawn process calls => exact iff_of_true lawful trivial
  | background shared passes => exact iff_of_true lawful trivial
  | run index env note ready act next seen here enabled =>
    rw [Pool.book_run here]
    have member := List.mem_of_getElem? here
    obtain ⟨does, -⟩ := (traced.lawful _ member).2 env pool.shared enabled trivial trivial
    have fits : ∀ issue, note = .store issue → ∃ origin, seen = .issuing origin issue := by
      rintro issue rfl
      exact does.1
    refine (traced.recorded.lawful_entries lawful fits).trans ?_
    constructor
    · intro right note' ready' act' next' seen' here'
      cases here.symm.trans here'
      exact right
    · exact fun right => right _ _ _ _ _ here

/-- As long as no live token is presented as one of the other kind, tokens are used while they
live and codes are exchanged once; the first call that presents one breaks this. -/
theorem tokens_keep_kind {s : ServerPool × List Event}
    (reached : ((oauth2 config).restrict RightKinds).Reachable s) :
    Lawful config s.2 ∧ ∀ label t, (oauth2 config).Step s label t →
      (Lawful config t.2 ↔ RightKinds s label) := by
  have lawful : Lawful config s.2 := by
    obtain ⟨origin, labels, start, run⟩ := reached
    induction run with
    | refl =>
      rw [start.2]
      trivial
    | snoc before step ih =>
      have here : (oauth2 config).Reachable _ :=
        System.Reachable.of_restrict ⟨origin, _, start, before⟩
      exact (lawful_step here step.2 ih).mpr step.1
  exact ⟨lawful, fun label t step => lawful_step reached.of_restrict step lawful⟩

/-! ### One code and its tokens -/

/-- A code is created and exchanged, and then the access token and the refresh token are
presented as access tokens. -/
def presentingCalls : List ServerMove :=
  codeCalls ++ [.spawn _ (.validateToken "access-1"), .spawn _ (.validateToken "refresh-1")]

/-- The steps of the first two calls. -/
def issuingSteps : List (Nat × OAuth2Env) :=
  [(0, ⟨"code-1", "spare-1"⟩), (0, spare), (1, spare), (1, ⟨"access-1", "refresh-1"⟩),
    (1, spare), (1, spare)]

def Event.isIssued (kind : Kind) (token : String) : Event → Bool
  | .issued kind' token' _ _ => kind' = kind && token' = token
  | _ => false

def Note.presentsRight (history : List Event) : Note → Bool
  | .validate token => !history.any (Event.isIssued .refresh token)
  | .refresh token _ => !history.any (Event.isIssued .access token)
  | _ => true

/-- Whether an action presents a token of the right kind. -/
def admitsRight (s : ServerPool × List Event) (index : Nat) (_ : OAuth2Env) : Bool :=
  match s.1.threads[index]? with
  | some ⟨.act note _ _ _, _⟩ => note.presentsRight s.2
  | _ => false

theorem not_issued {kind : Kind} {token : String}
    (none : (!history.any (Event.isIssued kind token)) = true) (info : TokenInfo)
    (root : Option AuthorizationCode) : .issued kind token info root ∉ history := by
  intro issued
  have found : history.any (Event.isIssued kind token) = true :=
    List.any_eq_true.mpr ⟨_, issued, by simp [Event.isIssued]⟩
  rw [found] at none
  cases none

theorem rightKinds_of_admits (s : ServerPool × List Event) (index : Nat) (env : OAuth2Env)
    (right : admitsRight s index env = true) : RightKinds s (.run index env) := by
  intro note ready act next seen here
  simp only [admitsRight, here] at right
  cases note with
  | validate token => exact fun info root _ => not_issued right info root
  | refresh token clientId => exact fun info root _ _ => not_issued right info root
  | _ => trivial

/-- Whether codes and tokens were used. -/
def Event.isUse : Event → Bool
  | .exchanged .. | .refreshed .. | .validated .. => true
  | _ => false

theorem tokens_keep_kind_sample : ∃ s, ((oauth2 sampleConfig).restrict RightKinds).Reachable s ∧
    s.2.filter Event.isUse = [.validated "access-1" 0, .exchanged "code-1" 0] ∧
    Lawful sampleConfig s.2 := by
  obtain ⟨s, reached, uses⟩ := (Pool.checked oauth2Player _ rightKinds_of_admits
    (fun _ _ => trivial) fun _ _ => trivial).exists_reachable (s := newServer)
    (.init ⟨⟨rfl, 0, rfl⟩, rfl⟩) (presentingCalls ++ Pool.running (issuingSteps ++ [(2, spare)]))
    (·.2.filter Event.isUse = [.validated "access-1" 0, .exchanged "code-1" 0])
    (by decide)
  exact ⟨s, reached, uses, (tokens_keep_kind reached).1⟩

/-- A refresh token validates as an access token. -/
theorem tokens_change_kind : ¬ ∀ (config : OAuth2Config) s, (oauth2 config).Reachable s →
    Lawful config s.2 := by
  intro always
  obtain ⟨s, reached, latest, unissued⟩ := oauth2Player.exists_reachable newServer_reachable
    (presentingCalls ++ Pool.running (issuingSteps ++ [(3, spare)]))
    (fun s => s.2.head? = some (.validated "refresh-1" 0) ∧
      s.2.any (Event.isIssued .access "refresh-1") = false) (by decide)
  have lawful := always sampleConfig s reached
  obtain ⟨before, shape⟩ : ∃ before, s.2 = .validated "refresh-1" 0 :: before := by
    cases history : s.2 with
    | nil =>
      rw [history] at latest
      cases latest
    | cons event before =>
      rw [history] at latest
      exact ⟨before, congrArg (· :: before) (Option.some.inj latest)⟩
  rw [shape] at lawful unissued
  obtain ⟨info, root, issued, -⟩ := lawful.1
  have none : (!before.any (Event.isIssued .access "refresh-1")) = true := by
    rw [List.any_cons] at unissued
    rw [(Bool.or_eq_false_iff.mp unissued).2]
    rfl
  exact not_issued none info root issued

end UHorse.Sso
