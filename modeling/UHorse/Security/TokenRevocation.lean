import UHorse.Lib.Automaton
import UHorse.Lib.Occurrences
import UHorse.Security.Auth

/-!
# Revoked tokens stay revoked, and refresh tokens are exchanged once

A history is kept of one token: when it verified, was exchanged, was revoked or was refused
because its id is revoked. The history is as it should be as long as the token does not share
its id, its id is not cleaned up, and no call marks it as revoked while an exchange is between
its check and its own mark.
-/

namespace UHorse.Security.Auth

open UHorse.Lib

/-! ## Histories of a token -/

/-- What happened to a token; it is refused when its id is found revoked. -/
inductive Event
  | verified
  | refused
  | exchanged
  | revoked
deriving DecidableEq

/-- A revocation or an exchange is among the events. -/
def Ended (history : List Event) : Prop := .revoked ∈ history ∨ .exchanged ∈ history

instance (history : List Event) : Decidable (Ended history) :=
  inferInstanceAs (Decidable (_ ∨ _))

/-- Whether an event may follow on others. -/
def Event.Follows (event : Event) (before : List Event) : Prop :=
  match event with
  | .verified | .exchanged => ¬ Ended before
  | .refused => Ended before
  | .revoked => True

instance (event : Event) (before : List Event) : Decidable (event.Follows before) := by
  cases event <;> unfold Event.Follows <;> infer_instance

/-- A token that was revoked or exchanged neither verifies nor is exchanged any more, and one
that was not is not refused. The latest event comes first. -/
def Final : List Event → Prop
  | [] => True
  | event :: before => event.Follows before ∧ Final before

instance Final.decidable : (history : List Event) → Decidable (Final history)
  | [] => .isTrue trivial
  | event :: before =>
    have := Final.decidable before
    inferInstanceAs (Decidable (event.Follows before ∧ Final before))

theorem ended_cons {event : Event} {history : List Event} :
    Ended (event :: history) ↔ event = .revoked ∨ event = .exchanged ∨ Ended history := by
  unfold Ended
  simp only [List.mem_cons, eq_comm]
  tauto

section Tokens

variable {Token : Type} [DecidableEq Token]

/-! ## What a call has been given -/

/-- The token a call has decoded, and whether an exchange has checked it and not marked it. -/
structure Presented (Token : Type) where
  token : Option Token
  checked : Bool

def presenting : Observer (AuthState Token) AuthEnv (Note Token) (Presented Token) where
  start := ⟨none, false⟩
  see seen note _ s :=
    match note with
    | .decode token => if token ∈ s.issued then ⟨some token, false⟩ else seen
    | .check _ jti => if jti ∈ s.revoked then seen else { seen with checked := true }
    | .exchange _ _ => { seen with checked := false }
    | _ => seen

variable (service : JwtAuthService Token)

/-- The call has decoded the token, and the id is the token's. -/
def Names (seen : Presented Token) (token : Token) (jti : String) : Prop :=
  seen.token = some token ∧
    ∃ claims, token = service.jwt.encode claims ∧ jti = claims.jti

/-- What a note says of its call, and what the action does. -/
def Note.Does (note : Note Token) (seen : Presented Token) (env : AuthEnv)
    (s t : AuthState Token) : Prop :=
  match note with
  | .issue draft =>
    t = { s with issued := insert (service.jwt.encode (draft.claims env)) s.issued }
  | .decode _ => t = s
  | .verify token jti | .check token jti => Names service seen token jti ∧ t = s
  | .exchange token jti => Names service seen token jti ∧ seen.checked = true ∧
      t = { s with revoked := insert jti s.revoked }
  | .revoke token jti => Names service seen token jti ∧ seen.checked = false ∧
      t = { s with revoked := insert jti s.revoked }
  | .cleanup => t = { s with
      revoked := s.revoked \ JwtAuthService.stale s.revoked env.order }

/-- Only encoded claims have been issued. -/
def Genuine (s : AuthState Token) : Prop :=
  ∀ token ∈ s.issued, ∃ claims, token = service.jwt.encode claims

def tokenContract : Contract (AuthState Token) AuthEnv (Note Token) (Presented Token) where
  relies _ s := Genuine service s
  expects _ _ _ _ := True
  waits _ _ _ := True
  grants seen note env s t := note.Does service seen env s t

abbrev KeepsTokens {α : Type} (process : Process Token α) (seen : Presented Token)
    (post : α → Presented Token → Prop) : Prop :=
  process.Keeps presenting (tokenContract service) seen post

variable {service} {α : Type} {seen : Presented Token} {token : Token} {claims : Claims}

theorem keeps_pure (value : α) :
    KeepsTokens service (pure value) seen fun _ _ => True := Program.Keeps.pure trivial

theorem keeps_update {note : Note Token} {run : AuthEnv → AuthState Token → AuthState Token}
    {value : AuthEnv → AuthState Token → α}
    (does : ∀ env s, note.Does service seen env s (run env s)) :
    KeepsTokens service (Program.update note run value) seen fun _ _ => True :=
  Program.Keeps.update (fun env s _ _ => does env s) fun _ _ _ _ => trivial

theorem keeps_issue (draft : Draft) :
    KeepsTokens service (service.issue draft) seen fun _ _ => True :=
  keeps_update fun _ _ => rfl

theorem keeps_createTokenPair (deviceId userId : Option String) (scopes : List String) :
    KeepsTokens service (service.createTokenPair deviceId userId scopes) seen
      fun _ _ => True := by
  refine Program.Keeps.bind (keeps_issue _) fun accessToken after _ => ?_
  exact Program.Keeps.bind (keeps_issue _) fun refreshToken after _ => keeps_pure _

/-- What was decoded are the claims of the token. -/
theorem keeps_decode (token : Token) :
    KeepsTokens service (service.decode token) seen fun decoded after =>
      ∀ claims, decoded = some claims →
        token = service.jwt.encode claims ∧ after = ⟨some token, false⟩ := by
  refine Program.Keeps.update (fun _ _ _ _ => rfl) ?_
  intro env s genuine _ claims decoded
  split at decoded
  · next issued =>
      obtain ⟨found, rfl⟩ := genuine token issued
      exact ⟨congrArg _ (service.jwt.eq_of_decode decoded).symm, if_pos issued⟩
  · cases decoded

/-- A call that goes on with the claims it has decoded. -/
theorem keeps_decoded {refused : α} {process : Claims → Process Token α}
    (keeps : ∀ claims, token = service.jwt.encode claims →
      KeepsTokens service (process claims) ⟨some token, false⟩ fun _ _ => True) :
    KeepsTokens service (service.withClaims token refused process) seen fun _ _ => True := by
  refine Program.Keeps.bind (keeps_decode token) ?_
  intro decoded after matched
  cases decoded with
  | none => exact keeps_pure _
  | some claims =>
    obtain ⟨encoded, rfl⟩ := matched claims rfl
    exact keeps claims encoded

theorem keeps_verifyToken (token : Token) :
    KeepsTokens service (service.verifyToken token) seen fun _ _ => True := by
  refine keeps_decoded fun claims encoded => ?_
  split
  · refine Program.Keeps.bind (keeps_update fun _ _ => ⟨⟨rfl, claims, encoded, rfl⟩, rfl⟩) ?_
    intro revoked after _
    split <;> exact keeps_pure _
  · exact keeps_pure _

theorem keeps_revokeToken (token : Token) :
    KeepsTokens service (service.revokeToken token) seen fun _ _ => True := by
  refine keeps_decoded fun claims encoded => ?_
  refine Program.Keeps.bind (keeps_update fun _ _ => ⟨⟨rfl, claims, encoded, rfl⟩, rfl, rfl⟩) ?_
  intro _ after _
  exact keeps_pure _

/-- An exchange marks what it has checked. -/
theorem keeps_exchange (token : Token) :
    KeepsTokens service (service.exchange token) seen fun _ _ => True := by
  refine keeps_decoded fun claims encoded => ?_
  split
  · have checks : KeepsTokens service (JwtAuthService.isRevoked (.check token claims.jti)
        claims.jti) ⟨some token, false⟩ fun revoked after =>
        revoked = false → after = ⟨some token, true⟩ := by
      refine Program.Keeps.update ?_ ?_
      · intro env s _ _
        exact ⟨⟨rfl, claims, encoded, rfl⟩, rfl⟩
      · intro env s _ _ fresh
        exact if_neg (of_decide_eq_false fresh)
    refine Program.Keeps.bind checks ?_
    intro revoked after marked
    cases revoked with
    | true => exact keeps_pure _
    | false =>
      obtain rfl := marked rfl
      refine Program.Keeps.bind
        (keeps_update fun _ _ => ⟨⟨rfl, claims, encoded, rfl⟩, rfl, rfl⟩) ?_
      intro _ after _
      exact keeps_pure _
  · exact keeps_pure _

theorem keeps_refreshToken (token : Token) :
    KeepsTokens service (service.refreshToken token) seen fun _ _ => True := by
  refine Program.Keeps.bind (keeps_exchange token) fun exchanged after _ => ?_
  cases exchanged with
  | error error => exact keeps_pure _
  | ok claims => exact Program.Keeps.bind (keeps_issue _) fun renewed after _ => keeps_pure _

theorem keeps_refreshAccessToken (token : Token) :
    KeepsTokens service (service.refreshAccessToken token) seen fun _ _ => True := by
  refine Program.Keeps.bind (keeps_exchange token) fun exchanged after _ => ?_
  cases exchanged with
  | error error => exact keeps_pure _
  | ok claims =>
    exact Program.Keeps.bind (keeps_createTokenPair _ _ _) fun pair after _ => keeps_pure _

theorem keeps_cleanupRevoked :
    KeepsTokens service JwtAuthService.cleanupRevoked seen fun _ _ => True :=
  keeps_update fun _ _ => rfl

variable (service) in
/-- The calls; what they return is seen in the histories only. -/
inductive Calls : Process Token Unit → Prop
  | createToken (deviceId userId : Option String) (scopes : List String) (expiresIn : UInt64) :
      Calls (service.createToken deviceId userId scopes expiresIn).discard
  | createTokenPair (deviceId userId : Option String) (scopes : List String) :
      Calls (service.createTokenPair deviceId userId scopes).discard
  | revokeToken (token : Token) : Calls (service.revokeToken token).discard
  | refreshToken (token : Token) : Calls (service.refreshToken token).discard
  | refreshAccessToken (token : Token) : Calls (service.refreshAccessToken token).discard
  | cleanupRevoked : Calls (JwtAuthService.cleanupRevoked : Process Token Unit).discard
  | verifyToken (token : Token) : Calls (service.verifyToken token).discard

theorem keeps_discard {process : Process Token α}
    (keeps : KeepsTokens service process seen fun _ _ => True) :
    KeepsTokens service process.discard seen fun _ _ => True :=
  Program.Keeps.bind keeps fun _ _ _ => keeps_pure ()

theorem keeps_of_calls {process : Process Token Unit} (calls : Calls service process) :
    KeepsTokens service process seen fun _ _ => True := by
  cases calls with
  | createToken => exact keeps_discard (keeps_issue _)
  | createTokenPair => exact keeps_discard (keeps_createTokenPair _ _ _)
  | revokeToken token => exact keeps_discard (keeps_revokeToken token)
  | refreshToken token => exact keeps_discard (keeps_refreshToken token)
  | refreshAccessToken token => exact keeps_discard (keeps_refreshAccessToken token)
  | cleanupRevoked => exact keeps_discard keeps_cleanupRevoked
  | verifyToken token => exact keeps_discard (keeps_verifyToken token)

/-! ## One token among all interleavings -/

abbrev TokenPool (Token : Type) :=
  Pool (AuthState Token) AuthEnv (Note Token) Unit (Presented Token)

variable (service) (claims)

/-- The history of a token, the latest event first. -/
def recording : Pool.Ledger (AuthState Token) AuthEnv (Note Token) (Presented Token)
    (List Event) where
  opening := []
  enter history _ note _ s _ :=
    match note with
    | .verify token jti =>
      if token = service.jwt.encode claims then
        (if jti ∈ s.revoked then .refused else .verified) :: history
      else history
    | .check token jti =>
      if token = service.jwt.encode claims ∧ jti ∈ s.revoked then .refused :: history
      else history
    | .exchange token _ =>
      if token = service.jwt.encode claims then .exchanged :: history else history
    | .revoke token _ =>
      if token = service.jwt.encode claims then .revoked :: history else history
    | _ => history

/-- No other token gets the token's id, its id is not cleaned up, and it is marked as revoked
only while no other call is between checking it and marking it. -/
def Undisturbed (s : TokenPool Token) (index : Nat) (env : AuthEnv) : Note Token → Prop
  | .issue draft => (draft.claims env).jti = claims.jti → draft.claims env = claims
  | .exchange token _ | .revoke token _ => token = service.jwt.encode claims →
      ∀ other thread, other ≠ index → s.threads[other]? = some thread →
        thread.seen ≠ ⟨some token, true⟩
  | .cleanup => claims.jti ∉ JwtAuthService.stale s.shared.revoked env.order
  | _ => True

def KeepsUndisturbed (s : TokenPool Token) :
    PoolLabel (AuthState Token) AuthEnv (Note Token) Unit → Prop
  | .run index env => ∀ note ready act next seen,
      s.threads[index]? = some ⟨.act note ready act next, seen⟩ →
        Undisturbed service claims s index env note
  | _ => True

/-- All interleavings of calls of a new service, with the history of one token. -/
def tokens
    (guard : TokenPool Token → PoolLabel (AuthState Token) AuthEnv (Note Token) Unit → Prop) :
    System (TokenPool Token × List Event) (PoolLabel (AuthState Token) AuthEnv (Note Token) Unit) :=
  Pool.accounted presenting (Calls service) (fun _ _ => False) (fun s => s = ⟨∅, ∅⟩) guard
    (recording service claims)

/-- Whether an exchange of the token is between its check and its mark. -/
def Pending (seen : Presented Token) : Prop := seen = ⟨some (service.jwt.encode claims), true⟩

/-- The history is in step with the revoked ids. -/
structure InStep (s : AuthState Token) (history : List Event) : Prop where
  genuine : Genuine service s
  alone : ∀ other, service.jwt.encode other ∈ s.issued → other.jti = claims.jti → other = claims
  ended : claims.jti ∈ s.revoked ↔ Ended history
  final : Final history

variable {service} {claims} {s t : AuthState Token} {history : List Event} {note : Note Token}
  {env : AuthEnv}

namespace InStep

omit [DecidableEq Token] in
theorem start : InStep service claims ⟨∅, ∅⟩ [] := by
  refine ⟨?_, ?_, ?_, trivial⟩
  · intro token issued
    cases Finset.notMem_empty token issued
  · intro other issued
    cases Finset.notMem_empty _ issued
  · simp [Ended]

omit [DecidableEq Token] in
/-- Only the event of the token itself, and the revoked ids, are to be compared. -/
theorem record (inStep : InStep service claims s history) {event : Event}
    (follows : event.Follows history) (issued : t.issued = s.issued)
    (ended : claims.jti ∈ t.revoked ↔ Ended (event :: history)) :
    InStep service claims t (event :: history) := by
  refine ⟨?_, ?_, ended, follows, inStep.final⟩
  · rw [Genuine]
    rw [issued]
    exact inStep.genuine
  · rw [issued]
    exact inStep.alone

omit [DecidableEq Token] in
/-- A token with another text has another id. -/
theorem jti_ne (inStep : InStep service claims s history) {token : Token} {jti : String}
    (names : Names service seen token jti)
    (presented : ∀ token, seen.token = some token → token ∈ s.issued)
    (distinct : token ≠ service.jwt.encode claims) : claims.jti ≠ jti := by
  obtain ⟨known, other, rfl, rfl⟩ := names
  intro same
  have equal := inStep.alone other (presented _ known) same.symm
  exact distinct (congrArg _ equal)

omit [DecidableEq Token] in
theorem jti_eq {token : Token} {jti : String} (names : Names service seen token jti)
    (same : token = service.jwt.encode claims) : jti = claims.jti := by
  obtain ⟨-, other, rfl, rfl⟩ := names
  rw [service.jwt.encode_injective same]

/-- An id is marked as revoked, with the event of the token if it is the token's. -/
theorem mark (inStep : InStep service claims s history) {token : Token} {jti : String}
    {event : Event} (names : Names service seen token jti)
    (presented : ∀ token, seen.token = some token → token ∈ s.issued)
    (ends : event = .revoked ∨ event = .exchanged)
    (follows : token = service.jwt.encode claims → event.Follows history) :
    InStep service claims { s with revoked := insert jti s.revoked }
      (if token = service.jwt.encode claims then event :: history else history) := by
  split
  · next same =>
      refine inStep.record (follows same) rfl ?_
      rw [jti_eq names same, ended_cons]
      simp only [Finset.mem_insert_self, true_iff]
      tauto
  · next distinct =>
      refine ⟨inStep.genuine, inStep.alone, ?_, inStep.final⟩
      rw [Finset.mem_insert, or_iff_right (inStep.jti_ne names presented distinct)]
      exact inStep.ended

theorem issue (inStep : InStep service claims s history) {other : Claims}
    (alone : other.jti = claims.jti → other = claims) :
    InStep service claims { s with issued := insert (service.jwt.encode other) s.issued }
      history := by
  refine ⟨?_, ?_, inStep.ended, inStep.final⟩
  · intro token issued
    obtain rfl | old := Finset.mem_insert.mp issued
    · exact ⟨other, rfl⟩
    · exact inStep.genuine token old
  · intro found issued same
    obtain equal | old := Finset.mem_insert.mp issued
    · obtain rfl := service.jwt.encode_injective equal
      exact alone same
    · exact inStep.alone found old same

theorem does (inStep : InStep service claims s history)
    (presented : ∀ token, seen.token = some token → token ∈ s.issued)
    (pending : Pending service claims seen → ¬ Ended history)
    {pool : TokenPool Token} {index : Nat} (shared : pool.shared = s)
    (undisturbed : Undisturbed service claims pool index env note)
    (does : note.Does service seen env s t) :
    InStep service claims t ((recording service claims).enter history seen note env s t) := by
  cases note with
  | issue draft =>
    obtain rfl := does
    exact inStep.issue undisturbed
  | decode token =>
    obtain rfl := does
    exact inStep
  | verify token jti =>
    obtain ⟨names, rfl⟩ := does
    dsimp only [recording]
    split
    · next same =>
        have id := jti_eq names same
        split
        · next revoked =>
            have ended := inStep.ended.mp (id ▸ revoked)
            refine inStep.record ended rfl ?_
            rw [inStep.ended, ended_cons]
            simp
        · next fresh =>
            have open' : ¬ Ended history := fun ended => fresh (id ▸ inStep.ended.mpr ended)
            refine inStep.record open' rfl ?_
            rw [inStep.ended, ended_cons]
            simp
    · exact inStep
  | check token jti =>
    obtain ⟨names, rfl⟩ := does
    dsimp only [recording]
    split
    · next found =>
        have ended := inStep.ended.mp (jti_eq names found.1 ▸ found.2)
        refine inStep.record ended rfl ?_
        rw [inStep.ended, ended_cons]
        simp
    · exact inStep
  | exchange token jti =>
    obtain ⟨names, checked, rfl⟩ := does
    refine inStep.mark names presented (.inr rfl) ?_
    rintro rfl
    obtain ⟨token, check⟩ := seen
    obtain rfl : check = true := checked
    obtain rfl : token = some _ := names.1
    exact pending rfl
  | revoke token jti =>
    obtain ⟨names, -, rfl⟩ := does
    exact inStep.mark names presented (.inl rfl) fun _ => trivial
  | cleanup =>
    obtain rfl := does
    refine ⟨inStep.genuine, inStep.alone, ?_, inStep.final⟩
    subst shared
    have kept : claims.jti ∉ JwtAuthService.stale pool.shared.revoked env.order := undisturbed
    simp only [Finset.mem_sdiff, kept, not_false_iff, and_true]
    exact inStep.ended

end InStep

/-- An event ends the token only if the call marks it as revoked. -/
theorem ended_enter (ended : Ended ((recording service claims).enter history seen note env s t)) :
    Ended history ∨ ∃ jti, note = .exchange (service.jwt.encode claims) jti ∨
      note = .revoke (service.jwt.encode claims) jti := by
  cases note with
  | issue | decode | cleanup => exact .inl ended
  | verify token jti =>
    dsimp only [recording] at ended
    split at ended
    · split at ended <;> exact .inl (by simpa [ended_cons] using ended)
    · exact .inl ended
  | check token jti =>
    dsimp only [recording] at ended
    split at ended
    · exact .inl (by simpa [ended_cons] using ended)
    · exact .inl ended
  | exchange token jti =>
    dsimp only [recording] at ended
    split at ended
    · next same => exact .inr ⟨jti, .inl (same ▸ rfl)⟩
    · exact .inl ended
  | revoke token jti =>
    dsimp only [recording] at ended
    split at ended
    · next same => exact .inr ⟨jti, .inr (same ▸ rfl)⟩
    · exact .inl ended

/-- An exchange that is about to mark the token has found it neither revoked nor exchanged. -/
theorem InStep.pending_see (inStep : InStep service claims s history)
    (pending : Pending service claims seen → ¬ Ended history)
    (does : note.Does service seen env s t)
    (pends : Pending service claims (presenting.see seen note env s)) :
    ¬ Ended ((recording service claims).enter history seen note env s t) := by
  cases note with
  | issue | cleanup => exact pending pends
  | decode token =>
    dsimp only [presenting] at pends
    split at pends
    · cases pends
    · exact pending pends
  | verify token jti =>
    intro ended
    obtain old | ⟨jti, marks | marks⟩ := ended_enter ended
    · exact pending pends old
    · cases marks
    · cases marks
  | check token jti =>
    obtain ⟨names, -⟩ := does
    dsimp only [presenting, recording] at pends ⊢
    split at pends
    · next revoked =>
        split
        · next found =>
            have ended := inStep.ended.mp (jti_eq names found.1 ▸ revoked)
            exact absurd ended (pending pends)
        · exact pending pends
    · next fresh =>
        rw [if_neg fun found => fresh found.2]
        have same : token = service.jwt.encode claims := by
          have known : seen.token = some (service.jwt.encode claims) :=
            congrArg Presented.token (show (⟨seen.token, true⟩ : Presented Token) = _ from pends)
          exact Option.some.inj (names.1.symm.trans known)
        exact fun ended => fresh (jti_eq names same ▸ inStep.ended.mpr ended)
  | exchange token jti => cases congrArg Presented.checked pends
  | revoke token jti =>
    obtain ⟨-, checked, -⟩ := does
    cases checked.symm.trans (congrArg Presented.checked pends)

/-! ## Every run -/

variable (service claims) in
/-- Every call keeps its contract, and the history of the token is in step. -/
structure Recorded (s : TokenPool Token) (history : List Event) : Prop where
  lawful : ∀ thread ∈ s.threads, KeepsTokens service thread.program thread.seen fun _ _ => True
  presented : ∀ thread ∈ s.threads, ∀ token, thread.seen.token = some token →
    token ∈ s.shared.issued
  pending : ∀ thread ∈ s.threads, Pending service claims thread.seen → ¬ Ended history
  inStep : InStep service claims s.shared history

/-- Issued tokens stay issued. -/
theorem issued_mono (does : note.Does service seen env s t) {token : Token}
    (issued : token ∈ s.issued) : token ∈ t.issued := by
  cases note with
  | issue draft =>
    obtain rfl := does
    exact Finset.mem_insert_of_mem issued
  | decode | cleanup =>
    obtain rfl := does
    exact issued
  | verify | check =>
    obtain ⟨-, rfl⟩ := does
    exact issued
  | exchange | revoke =>
    obtain ⟨-, -, rfl⟩ := does
    exact issued

/-- What a call has decoded was issued. -/
theorem presented_see (does : note.Does service seen env s t)
    (presented : ∀ token, seen.token = some token → token ∈ s.issued) (token : Token)
    (known : (presenting.see seen note env s).token = some token) : token ∈ t.issued := by
  have before : token ∈ s.issued := by
    cases note with
    | decode other =>
      dsimp only [presenting] at known
      split at known
      · next issued =>
          cases known
          exact issued
      · exact presented token known
    | check other jti =>
      dsimp only [presenting] at known
      split at known <;> exact presented token known
    | _ => exact presented token known
  exact issued_mono does before

namespace Recorded

variable {pool : TokenPool Token} {index : Nat}

theorem spawn (recorded : Recorded service claims pool history) {process : Process Token Unit}
    (calls : Calls service process) :
    Recorded service claims { pool with threads := pool.threads ++ [⟨process, ⟨none, false⟩⟩] }
      history := by
  refine ⟨?_, ?_, ?_, recorded.inStep⟩
  · refine List.forall_mem_append.mpr ⟨recorded.lawful, ?_⟩
    intro thread member
    rw [List.mem_singleton.mp member]
    exact keeps_of_calls calls
  · refine List.forall_mem_append.mpr ⟨recorded.presented, ?_⟩
    intro thread member
    rw [List.mem_singleton.mp member]
    exact nofun
  · refine List.forall_mem_append.mpr ⟨recorded.pending, ?_⟩
    intro thread member
    rw [List.mem_singleton.mp member]
    exact nofun

theorem run (recorded : Recorded service claims pool history) {ready : AuthState Token → Bool}
    {act : AuthEnv → AuthState Token → AuthState Token}
    {next : AuthEnv → AuthState Token → Process Token Unit}
    (here : pool.threads[index]? = some ⟨.act note ready act next, seen⟩)
    (enabled : ready pool.shared = true)
    (undisturbed : Undisturbed service claims pool index env note) :
    Recorded service claims
      { shared := act env pool.shared
        threads := pool.threads.set index
          ⟨next env pool.shared, presenting.see seen note env pool.shared⟩ }
      ((recording service claims).enter history seen note env pool.shared
        (act env pool.shared)) := by
  have member := List.mem_of_getElem? here
  have presented := recorded.presented _ member
  have pending := recorded.pending _ member
  obtain ⟨does, later⟩ :=
    (recorded.lawful _ member).2 env pool.shared enabled recorded.inStep.genuine trivial
  refine ⟨?_, ?_, ?_, recorded.inStep.does presented pending rfl undisturbed does⟩
  · intro thread present
    obtain old | rfl := List.mem_or_eq_of_mem_set present
    · exact recorded.lawful thread old
    · exact later
  · intro thread present
    obtain old | rfl := List.mem_or_eq_of_mem_set present
    · exact fun token known => issued_mono does (recorded.presented thread old token known)
    · exact presented_see does presented
  · intro thread present pends ended
    obtain ⟨place, found⟩ := List.mem_iff_getElem?.mp present
    rw [List.getElem?_set] at found
    split at found
    · next same =>
        split at found <;> cases found
        exact recorded.inStep.pending_see pending does pends ended
    · next distinct =>
        have old := List.mem_of_getElem? found
        obtain before | ⟨jti, marks⟩ := ended_enter ended
        · exact recorded.pending thread old pends before
        · obtain rfl | rfl := marks
          · exact undisturbed rfl place thread (Ne.symm distinct) found pends
          · exact undisturbed rfl place thread (Ne.symm distinct) found pends

theorem of_reachable
    (reached : (tokens service claims (KeepsUndisturbed service claims)).Reachable
      (pool, history)) : Recorded service claims pool history := by
  refine reached.invariant (P := fun s => Recorded service claims s.1 s.2) ?_ ?_
  · rintro ⟨pool, history⟩ ⟨⟨nobody, begun⟩, rfl⟩
    have nobody : pool.threads = [] := nobody
    have begun : pool.shared = ⟨∅, ∅⟩ := begun
    refine ⟨by simp [nobody], by simp [nobody], by simp [nobody], ?_⟩
    rw [begun]
    exact InStep.start
  · rintro ⟨pool, history⟩ label ⟨after, _⟩ recorded ⟨⟨undisturbed, step⟩, rfl⟩
    dsimp only at recorded undisturbed step ⊢
    cases step with
    | spawn process calls => exact recorded.spawn calls
    | run index env note ready act next seen here enabled =>
      rw [Pool.book_run here]
      exact recorded.run here enabled (undisturbed _ _ _ _ _ here)
    | background shared never => cases never

end Recorded

/-- A token that was revoked or exchanged neither verifies nor is exchanged any more, and is
refused for no other token. -/
theorem revocation_final {pool : TokenPool Token}
    (reached : (tokens service claims (KeepsUndisturbed service claims)).Reachable
      (pool, history)) : Final history :=
  (Recorded.of_reachable reached).inStep.final

end Tokens

/-! ### A refresh token that is exchanged -/

/-- A library whose tokens are the claims. -/
def plainJwt : Jwt Claims where
  encode := id
  decode claims now := if claims.exp + 60 < now then none else some claims
  decode_encode _ _ := rfl

def sampleService : JwtAuthService Claims := ⟨plainJwt, 3600, 2592000⟩

def sampleEnv (nanos : Nat) : AuthEnv := ⟨0, nanos, 0, []⟩

def sampleRefresh : Claims :=
  Draft.claims ⟨"user-1", none, ["refresh"], "refresh", 2592000⟩ (sampleEnv 2)

def sampleAccess (user : String) : Claims :=
  Draft.claims ⟨user, none, [], "access", 60⟩ (sampleEnv 1)

def authPlayer := Pool.player presenting (Calls sampleService) (fun _ _ => False) (· = ⟨∅, ∅⟩)

/-- The history of a token is kept. -/
def tokensPlayer (claims : Claims)
    {guard : TokenPool Claims → PoolLabel (AuthState Claims) AuthEnv (Note Claims) Unit → Prop}
    (player : ((Pool.system presenting (Calls sampleService) (fun _ _ => False)
      (· = ⟨∅, ∅⟩)).restrict guard).Player (Pool.Move (Calls sampleService) fun _ _ => False)) :
    (tokens sampleService claims guard).Player
      (Pool.Move (Calls sampleService) fun _ _ => False) :=
  player.observe _ _

/-- A token pair of which the refresh token is exchanged twice. -/
def sampleCalls : List (Pool.Move (Calls sampleService) fun _ _ => False) :=
  [.spawn _ (.createTokenPair none (some "user-1") []), .spawn _ (.refreshToken sampleRefresh),
    .spawn _ (.refreshAccessToken sampleRefresh)]

/-- Two access tokens, of which one is revoked and the other one verified. -/
def sharingCalls : List (Pool.Move (Calls sampleService) fun _ _ => False) :=
  [.spawn _ (.createToken none (some "user-1") [] 60),
    .spawn _ (.createToken none (some "user-2") [] 60),
    .spawn _ (.revokeToken (sampleAccess "user-1")),
    .spawn _ (.verifyToken (sampleAccess "user-2"))]

def emptyPool : TokenPool Claims × List Event := (⟨⟨∅, ∅⟩, []⟩, [])

/-- Whether a call has checked its token or is about to mark it. -/
def exchanging (thread : Thread (AuthState Claims) AuthEnv (Note Claims) Unit (Presented Claims)) :
    Bool :=
  match thread.program with
  | .act (.exchange _ _) _ _ _ => true
  | _ => thread.seen.checked

/-- Whether the sample keeps undisturbed: other ids are new, and one call exchanges. -/
def admitsUndisturbed (s : TokenPool Claims) (note : Note Claims) (env : AuthEnv) : Bool :=
  match note with
  | .issue draft => (draft.claims env).jti ≠ sampleRefresh.jti || draft.claims env = sampleRefresh
  | .exchange _ _ => s.threads.countP exchanging ≤ 1
  | .revoke _ _ | .cleanup => false
  | _ => true

theorem keepsUndisturbed_of_admits (s : TokenPool Claims) (index : Nat) (env : AuthEnv)
    (passed : Pool.noteCheck id admitsUndisturbed s index env = true) :
    KeepsUndisturbed sampleService sampleRefresh s (.run index env) := by
  intro note ready act next seen here
  have admitted := Pool.admits_of_noteCheck passed here
  cases note with
  | issue draft =>
    intro same
    obtain distinct | equal := Bool.or_eq_true_iff.mp admitted
    · exact absurd same (of_decide_eq_true distinct)
    · exact of_decide_eq_true equal
  | exchange token jti =>
    rintro - other ⟨program, seen'⟩ distinct there rfl
    have once : s.threads.countP exchanging ≤ 1 := of_decide_eq_true admitted
    refine distinct (index_eq_of_countP_le_one once there ?_ here rfl)
    rw [exchanging]
    split <;> rfl
  | revoke => cases admitted
  | cleanup => cases admitted
  | _ => trivial

theorem revocation_final_sample :
    ∃ pool, (tokens sampleService sampleRefresh
        (KeepsUndisturbed sampleService sampleRefresh)).Reachable (pool, [.refused, .exchanged]) ∧
      Final [.refused, .exchanged] := by
  obtain ⟨⟨pool, _⟩, reached, rfl⟩ := (tokensPlayer sampleRefresh
    (Pool.checked authPlayer _ keepsUndisturbed_of_admits (fun _ _ => trivial)
      fun _ _ => trivial)).exists_reachable (s := emptyPool) (.init ⟨⟨rfl, rfl⟩, rfl⟩)
    (sampleCalls ++ Pool.running [(0, sampleEnv 1), (0, sampleEnv 2), (1, sampleEnv 3),
      (1, sampleEnv 3), (1, sampleEnv 3), (1, sampleEnv 3), (2, sampleEnv 4), (2, sampleEnv 4)])
    (fun s => s.2 = [.refused, .exchanged]) (by decide)
  exact ⟨pool, reached, revocation_final reached⟩

/-- Two exchanges both check the refresh token before either marks it; and a token is refused
because one that was issued at the same time is revoked. -/
theorem revocation_not_final :
    (∃ pool history, (tokens sampleService sampleRefresh fun _ _ => True).Reachable
        (pool, history) ∧ ¬ Final history) ∧
      ∃ pool history, (tokens sampleService (sampleAccess "user-2") fun _ _ => True).Reachable
        (pool, history) ∧ ¬ Final history := by
  constructor
  · obtain ⟨⟨pool, history⟩, reached, ends⟩ := (tokensPlayer sampleRefresh
      authPlayer.any).exists_reachable (s := emptyPool) (.init ⟨⟨rfl, rfl⟩, rfl⟩)
      (sampleCalls ++ Pool.running [(0, sampleEnv 1), (0, sampleEnv 2), (1, sampleEnv 3),
        (1, sampleEnv 3), (2, sampleEnv 3), (2, sampleEnv 3), (1, sampleEnv 3), (2, sampleEnv 3)])
      (fun s => ¬ Final s.2) (by decide)
    exact ⟨pool, history, reached, ends⟩
  · obtain ⟨⟨pool, history⟩, reached, ends⟩ := (tokensPlayer (sampleAccess "user-2")
      authPlayer.any).exists_reachable (s := emptyPool) (.init ⟨⟨rfl, rfl⟩, rfl⟩)
      (sharingCalls ++ Pool.running [(0, sampleEnv 1), (1, sampleEnv 1), (2, sampleEnv 3),
        (2, sampleEnv 3), (3, sampleEnv 3), (3, sampleEnv 3)])
      (fun s => ¬ Final s.2) (by decide)
    exact ⟨pool, history, reached, ends⟩

end UHorse.Security.Auth
