import UHorse.Lib.HashChain
import UHorse.Observability.Audit

/-!
# The chain of an honest audit log

Calls of `persist` are interleaved by their actions. The number and the hash of the latest event
are taken together but before the event is stored, so the log is a chain as long as no call takes
them while another call has not stored its event.
-/

namespace UHorse.Observability

open UHorse.Lib UHorse.Protocol

variable (sha256 : List UInt8 → String)

/-! ## What a call has in hand -/

inductive Phase
  | idle
  | reserved (sequence : UInt64) (prevHash : Option String)
  | signed (event : SignedAuditEvent)

def persisting : Observer AuditPersistor Int64 Note Phase where
  start := .idle
  see _ note now s :=
    match note with
    | .counter => .reserved s.sequenceCounter (s.storage.getLatest.map SignedAuditEvent.hash)
    | .sign event prevHash sequence => .signed (.new sha256 event prevHash sequence now)
    | .store _ => .idle

/-- What an action does, and what the call has in hand for it. -/
def Note.Does (note : Note) (seen : Phase) (s t : AuditPersistor) : Prop :=
  match note with
  | .counter => seen = .idle ∧ t = { s with sequenceCounter := s.sequenceCounter + 1 }
  | .sign _ prevHash sequence => seen = .reserved sequence prevHash ∧ t = s
  | .store signed => seen = .signed signed ∧ t = { s with storage := s.storage.store signed }

def persistContract : Contract AuditPersistor Int64 Note Phase where
  relies _ _ := True
  expects _ _ _ _ := True
  waits _ _ _ := True
  grants seen note _ s t := note.Does seen s t

abbrev KeepsLog {α : Type} (process : AuditPersistor.Process α) (seen : Phase)
    (post : α → Phase → Prop) : Prop :=
  process.Keeps (persisting sha256) persistContract seen post

theorem keeps_persist (event : AuditEvent) :
    KeepsLog sha256 (AuditPersistor.persist sha256 event) .idle fun _ after => after = .idle := by
  have takes : KeepsLog sha256 AuditPersistor.takeSequence .idle fun taken after =>
      after = .reserved taken.1 taken.2 :=
    Program.Keeps.update (fun _ _ _ _ => ⟨rfl, rfl⟩) fun _ _ _ _ => rfl
  refine Program.Keeps.bind takes ?_
  rintro ⟨sequence, prevHash⟩ _ rfl
  have signs : KeepsLog sha256 (AuditPersistor.sign sha256 event prevHash sequence)
      (.reserved sequence prevHash) fun signed after => after = .signed signed :=
    Program.Keeps.update (fun _ _ _ _ => ⟨rfl, rfl⟩) fun _ _ _ _ => rfl
  refine Program.Keeps.bind signs ?_
  rintro signed _ rfl
  have stores : KeepsLog sha256 (AuditPersistor.storeSigned signed) (.signed signed)
      fun _ after => after = .idle :=
    Program.Keeps.update (fun _ _ _ _ => ⟨rfl, rfl⟩) fun _ _ _ _ => rfl
  refine Program.Keeps.bind stores ?_
  rintro _ _ rfl
  exact Program.Keeps.pure rfl

/-! ## All interleavings -/

inductive Persists : AuditPersistor.Process Unit → Prop
  | persist (event : AuditEvent) : Persists (AuditPersistor.persist sha256 event).discard

theorem keeps_of_persists {process : AuditPersistor.Process Unit}
    (persists : Persists sha256 process) :
    KeepsLog sha256 process .idle fun _ after => after = .idle := by
  obtain ⟨event⟩ := persists
  refine Program.Keeps.bind (keeps_persist sha256 event) ?_
  rintro _ _ rfl
  exact Program.Keeps.pure rfl

abbrev LogPool := Pool AuditPersistor Int64 Note Unit Phase

/-- Any number of calls on a storage that starts empty. -/
def persists (maxEvents : UInt64) : System LogPool (PoolLabel AuditPersistor Int64 Note Unit) :=
  Pool.system (persisting sha256) (Persists sha256) (fun _ _ => False) (· = .new maxEvents)

/-- Whether there is room for an event that is stored. -/
def Room (s : LogPool) (_ : Nat) : Note → Prop
  | .store _ => s.shared.storage.events.length < s.shared.storage.maxEvents.toNat
  | _ => True

/-- Whether a call that takes the counter does so while no other call is between taking it and
storing its event. -/
def Apart (s : LogPool) (index : Nat) : Note → Prop
  | .counter => ∀ other thread, other ≠ index → s.threads[other]? = some thread →
      thread.seen = .idle
  | _ => True

/-- Only actions that meet a condition are performed. -/
def Performs (fits : LogPool → Nat → Note → Prop) (s : LogPool) :
    PoolLabel AuditPersistor Int64 Note Unit → Prop
  | .run index _ => ∀ note ready act next seen,
      s.threads[index]? = some ⟨.act note ready act next, seen⟩ → fits s index note
  | _ => True

/-- No event is dropped. -/
def persistsWithin (maxEvents : UInt64) :
    System LogPool (PoolLabel AuditPersistor Int64 Note Unit) :=
  (persists sha256 maxEvents).restrict (Performs Room)

/-- No event is dropped, and the calls keep apart. -/
def persistsApart (maxEvents : UInt64) :
    System LogPool (PoolLabel AuditPersistor Int64 Note Unit) :=
  (persists sha256 maxEvents).restrict
    (Performs fun s index note => Room s index note ∧ Apart s index note)

/-! ## Linked logs -/

abbrev SignedAuditEvent.number (signed : SignedAuditEvent) : Nat := signed.sequence.toNat

/-- The events are numbered in order, carry the hashes of their predecessors and verify. -/
structure Linked (events : List SignedAuditEvent) : Prop where
  numbered : Numbered SignedAuditEvent.number 0 events
  first : ∀ signed ∈ events.head?, signed.prevHash = none
  chain : HashChain SignedAuditEvent.hash SignedAuditEvent.prevHash events
  verified : ∀ signed ∈ events, signed.verify sha256 = true

variable {sha256} {events : List SignedAuditEvent} {signed : SignedAuditEvent}

theorem verify_new (event : AuditEvent) (prevHash : Option String) (sequence : UInt64)
    (now : Int64) :
    (SignedAuditEvent.new sha256 event prevHash sequence now).verify sha256 = true :=
  decide_eq_true rfl

namespace Linked

theorem nil : Linked sha256 [] := by
  refine ⟨?_, ?_, List.isChain_nil, ?_⟩
  · intro i signed found
    cases found
  · intro signed first
    cases first
  · intro signed member
    cases member

theorem concat (linked : Linked sha256 events)
    (number : signed.sequence.toNat = events.length + 1)
    (link : signed.prevHash = events.getLast?.map SignedAuditEvent.hash)
    (verifies : signed.verify sha256 = true) : Linked sha256 (events ++ [signed]) := by
  have next : signed.number = 0 + events.length + 1 := by
    rw [SignedAuditEvent.number, number, Nat.zero_add]
  refine ⟨linked.numbered.concat next, ?_, ?_, ?_⟩
  · intro first isFirst
    cases events with
    | nil =>
      cases isFirst
      exact link
    | cons other events => exact linked.first first isFirst
  · refine linked.chain.concat fun last isLast => ?_
    rw [link, isLast]
    rfl
  · intro other member
    obtain member | member := List.mem_append.mp member
    · exact linked.verified other member
    · rw [List.mem_singleton.mp member]
      exact verifies

end Linked

/-! ## Verification of a linked log -/

theorem checkLinks_of_hashChain
    (chain : HashChain SignedAuditEvent.hash SignedAuditEvent.prevHash events) :
    InMemoryAuditStorage.checkLinks events = .ok () := by
  fun_induction InMemoryAuditStorage.checkLinks events with
  | case1 prev curr rest _ ih => exact ih chain.tail
  | case2 prev curr rest broken => exact absurd (List.isChain_cons_cons.mp chain).1 broken
  | case3 => rfl

/-- Every part of a linked log verifies. -/
theorem Linked.verifyChain (linked : Linked sha256 events) (maxEvents fromSeq toSeq : UInt64) :
    InMemoryAuditStorage.verifyChain sha256 ⟨events, maxEvents⟩ fromSeq toSeq = .ok () := by
  rw [InMemoryAuditStorage.verifyChain]
  have inside := linked.numbered.filter_isInfix fromSeq.toNat toSeq.toNat
  have verified : (events.filter fun signed =>
      fromSeq ≤ signed.sequence && signed.sequence ≤ toSeq).all (·.verify sha256) = true := by
    rw [List.all_eq_true]
    intro signed member
    exact linked.verified signed (List.mem_of_mem_filter member)
  have chain := checkLinks_of_hashChain (linked.chain.of_isInfix inside)
  dsimp only
  split
  · rfl
  · exact chain

/-! ## Runs without overlapping calls -/

/-- The number and the hash are those of the next event, and the counter is past it. -/
def AuditPersistor.Next (s : AuditPersistor) (sequence : UInt64) (prevHash : Option String) :
    Prop :=
  sequence = .ofNat (s.storage.events.length + 1) ∧
    prevHash = s.storage.events.getLast?.map SignedAuditEvent.hash ∧
    s.sequenceCounter = sequence + 1

variable (sha256) in
/-- What a call has in hand continues the log. -/
def Phase.Continues (s : AuditPersistor) : Phase → Prop
  | .idle => True
  | .reserved sequence prevHash => s.Next sequence prevHash
  | .signed signed => s.Next signed.sequence signed.prevHash ∧ signed.verify sha256 = true

variable (sha256) in
/-- At most one call is between taking the counter and storing, and it continues the log. -/
structure Serial (s : LogPool) : Prop where
  lawful : ∀ thread ∈ s.threads,
    KeepsLog sha256 thread.program thread.seen fun _ after => after = .idle
  alone : ∀ (i j : Nat) thread other, s.threads[i]? = some thread →
    s.threads[j]? = some other → j ≠ i → thread.seen ≠ .idle → other.seen = .idle
  continues : ∀ thread ∈ s.threads, thread.seen.Continues sha256 s.shared
  counter : (∀ thread ∈ s.threads, thread.seen = .idle) →
    s.shared.sequenceCounter = .ofNat (s.shared.storage.events.length + 1)
  linked : Linked sha256 s.shared.storage.events

namespace Serial

variable {s : LogPool} {index : Nat} {seen : Phase}

theorem spawn (serial : Serial sha256 s) {process : AuditPersistor.Process Unit}
    (persists : Persists sha256 process) :
    Serial sha256 { s with threads := s.threads ++ [⟨process, .idle⟩] } := by
  have last : ∀ (i : Nat) thread, (s.threads ++ [⟨process, Phase.idle⟩])[i]? = some thread →
      s.threads[i]? = some thread ∨ thread = ⟨process, .idle⟩ := by
    intro i thread found
    rw [List.getElem?_append] at found
    split at found
    · exact .inl found
    · exact .inr (List.mem_singleton.mp (List.mem_of_getElem? found))
  refine ⟨?_, ?_, ?_, ?_, serial.linked⟩
  · refine List.forall_mem_append.mpr ⟨serial.lawful, ?_⟩
    intro thread member
    rw [List.mem_singleton.mp member]
    exact keeps_of_persists sha256 persists
  · intro i j thread other here there distinct busy
    obtain old | rfl := last i thread here
    · obtain old' | rfl := last j other there
      · exact serial.alone i j thread other old old' distinct busy
      · rfl
    · exact absurd rfl busy
  · refine List.forall_mem_append.mpr ⟨serial.continues, ?_⟩
    intro thread member
    rw [List.mem_singleton.mp member]
    trivial
  · exact fun idle => serial.counter (List.forall_mem_append.mp idle).1

/-- A call that has something in hand is the only one. -/
theorem others (serial : Serial sha256 s) {thread : Thread AuditPersistor Int64 Note Unit Phase}
    (here : s.threads[index]? = some thread) (busy : thread.seen ≠ .idle) (other : Nat)
    (found : Thread AuditPersistor Int64 Note Unit Phase) (distinct : other ≠ index)
    (there : s.threads[other]? = some found) : found.seen = .idle :=
  serial.alone index other thread found here there distinct busy

/-- One call moves while the others have nothing in hand. -/
theorem run (serial : Serial sha256 s) {shared : AuditPersistor}
    {process : AuditPersistor.Process Unit}
    (others : ∀ other thread, other ≠ index → s.threads[other]? = some thread →
      thread.seen = .idle)
    (lawful : KeepsLog sha256 process seen fun _ after => after = .idle)
    (continues : seen.Continues sha256 shared)
    (counter : seen = .idle → shared.sequenceCounter = .ofNat (shared.storage.events.length + 1))
    (linked : Linked sha256 shared.storage.events) (inside : index < s.threads.length) :
    Serial sha256 ⟨shared, s.threads.set index ⟨process, seen⟩⟩ := by
  have cases : ∀ (i : Nat) thread, (s.threads.set index ⟨process, seen⟩)[i]? = some thread →
      (i = index ∧ thread = ⟨process, seen⟩) ∨ (i ≠ index ∧ thread.seen = .idle) := by
    intro i thread found
    rw [List.getElem?_set] at found
    split at found
    · next same =>
        cases found
        exact .inl ⟨same.symm, rfl⟩
    · next distinct =>
        exact .inr ⟨Ne.symm distinct, others i thread (Ne.symm distinct) found⟩
  refine ⟨?_, ?_, ?_, ?_, linked⟩
  · intro thread member
    obtain old | rfl := List.mem_or_eq_of_mem_set member
    · exact serial.lawful thread old
    · exact lawful
  · intro i j thread other here there distinct busy
    obtain ⟨rfl, -⟩ | ⟨-, idle⟩ := cases i thread here
    · obtain ⟨rfl, -⟩ | ⟨-, idle⟩ := cases j other there
      · exact absurd rfl distinct
      · exact idle
    · exact absurd idle busy
  · intro thread member
    obtain ⟨i, found⟩ := List.getElem?_of_mem member
    obtain ⟨-, rfl⟩ | ⟨-, idle⟩ := cases i thread found
    · exact continues
    · rw [idle]
      trivial
  · intro idle
    exact counter (idle _ (List.mem_set inside _))

theorem step (serial : Serial sha256 s) {note : Note} {ready : AuditPersistor → Bool}
    {act : Int64 → AuditPersistor → AuditPersistor}
    {next : Int64 → AuditPersistor → AuditPersistor.Process Unit} {now : Int64}
    (here : s.threads[index]? = some ⟨.act note ready act next, seen⟩)
    (enabled : ready s.shared = true) (room : Room s index note)
    (apart : Apart s index note) :
    Serial sha256
      { shared := act now s.shared
        threads := s.threads.set index
          ⟨next now s.shared, (persisting sha256).see seen note now s.shared⟩ } := by
  have member := List.mem_of_getElem? here
  have inside : index < s.threads.length := (List.getElem?_eq_some_iff.mp here).1
  obtain ⟨does, later⟩ := (serial.lawful _ member).2 now s.shared enabled trivial trivial
  have continues := serial.continues _ member
  have does : note.Does seen s.shared (act now s.shared) := does
  cases note with
  | counter =>
    obtain ⟨rfl, after⟩ := does
    have idle : ∀ thread ∈ s.threads, thread.seen = .idle := by
      intro thread present
      obtain ⟨other, found⟩ := List.getElem?_of_mem present
      by_cases same : other = index
      · cases (same ▸ found).symm.trans here
        rfl
      · exact apart other thread same found
    rw [after]
    refine serial.run apart later ?_ nofun serial.linked inside
    exact ⟨serial.counter idle, List.getLast?_map.symm ▸ rfl, rfl⟩
  | sign event prevHash sequence =>
    obtain ⟨rfl, after⟩ := does
    rw [after]
    refine serial.run (serial.others here nofun) later ?_ nofun serial.linked inside
    exact ⟨continues, verify_new event prevHash sequence now⟩
  | store signed =>
    obtain ⟨rfl, after⟩ := does
    obtain ⟨⟨number, link, counter⟩, verifies⟩ := continues
    have room : s.shared.storage.events.length < s.shared.storage.maxEvents.toNat := room
    have stored : s.shared.storage.store signed =
        { s.shared.storage with events := s.shared.storage.events ++ [signed] } := by
      have kept : s.shared.storage.events.length + 1 - s.shared.storage.maxEvents.toNat = 0 := by
        omega
      rw [InMemoryAuditStorage.store, kept, List.drop_zero]
    have bounded := s.shared.storage.maxEvents.toNat_lt
    have number' : signed.sequence.toNat = s.shared.storage.events.length + 1 := by
      rw [number, UInt64.toNat_ofNat']
      exact Nat.mod_eq_of_lt (by omega)
    rw [after, stored]
    refine serial.run (serial.others here nofun) later trivial ?_ ?_ inside
    · intro _
      rw [counter, number, List.length_append]
      exact (UInt64.ofNat_add _ 1).symm
    · exact serial.linked.concat number' link verifies

theorem of_reachable {maxEvents : UInt64}
    (reached : (persistsApart sha256 maxEvents).Reachable s) : Serial sha256 s := by
  refine reached.invariant ?_ ?_
  · rintro s ⟨nobody, begun⟩
    have linked : Linked sha256 s.shared.storage.events := by
      rw [begun]
      exact .nil
    refine ⟨by simp [nobody], by simp [nobody], by simp [nobody], ?_, linked⟩
    intro _
    rw [begun]
    rfl
  · rintro s label t serial ⟨fits, step⟩
    cases step with
    | spawn process persists => exact serial.spawn persists
    | run index now note ready act next seen here enabled =>
        
      obtain ⟨room, apart⟩ := fits _ _ _ _ _ here
      exact serial.step here enabled room apart
    | background shared never => cases never

end Serial

/-! ## Honest logs -/

variable (sha256) in
/-- The events are numbered and linked, and every verification of them succeeds. -/
structure Honest (s : AuditPersistor) : Prop where
  numbered : Numbered SignedAuditEvent.number 0 s.storage.events
  first : ∀ signed ∈ s.storage.events.head?, signed.prevHash = none
  chain : HashChain SignedAuditEvent.hash SignedAuditEvent.prevHash s.storage.events
  verify : s.verify sha256 none none = .ok ()
  verifyChain : ∀ fromSeq toSeq, s.storage.verifyChain sha256 fromSeq toSeq = .ok ()

/-- No call is in progress. -/
def Quiet (s : LogPool) : Prop := ∀ thread ∈ s.threads, thread.program.isDone = true

theorem Linked.honest {s : AuditPersistor} (linked : Linked sha256 s.storage.events) :
    Honest sha256 s := by
  have every : ∀ fromSeq toSeq, s.storage.verifyChain sha256 fromSeq toSeq = .ok () :=
    linked.verifyChain s.storage.maxEvents
  exact ⟨linked.numbered, linked.first, linked.chain, every _ _, every⟩

/-- As long as the calls keep apart, the log verifies, also while a call is in progress. -/
theorem honest_log_verifies {maxEvents : UInt64} {s : LogPool}
    (reached : (persistsApart sha256 maxEvents).Reachable s) : Honest sha256 s.shared :=
  (Serial.of_reachable reached).linked.honest

/-! ### Two events -/

def sampleEvent (actor action : String) : AuditEvent where
  timestamp := 1234567890
  level := .info
  category := .auth
  actor := some actor
  action := action
  target := none
  details := none
  sessionId := none

/-- A digest that spells out the bytes. -/
def spellOut (bytes : List UInt8) : String := .ofList (bytes.map fun byte => .ofNat byte.toNat)

abbrev LogMove : Type := Pool.Move (Persists spellOut) fun _ _ => False

def logPlayer : (persists spellOut 100).Player LogMove :=
  Pool.player (persisting spellOut) (Persists spellOut) (fun _ _ => False) _

/-- Two events are persisted, with a time for each action. -/
def samplePersists (steps : List (Nat × Int64)) : List LogMove :=
  [.spawn _ (.persist (sampleEvent "user-1" "login")),
    .spawn _ (.persist (sampleEvent "user-2" "login"))] ++ Pool.running steps

theorem nothing_persisted {guard : LogPool → PoolLabel AuditPersistor Int64 Note Unit → Prop} :
    ((persists spellOut 100).restrict guard).Reachable ⟨.new 100, []⟩ := .init ⟨rfl, rfl⟩

def Phase.isIdle : Phase → Bool
  | .idle => true
  | _ => false

theorem Phase.eq_idle {seen : Phase} (idle : seen.isIdle = true) : seen = .idle := by
  cases seen with
  | idle => rfl
  | reserved | signed => cases idle

/-- Whether there is room and no other call has anything in hand. -/
def keepsApart (s : LogPool) (index : Nat) (_ : Int64) : Bool :=
  decide (s.shared.storage.events.length < s.shared.storage.maxEvents.toNat) &&
    (s.threads.eraseIdx index).all (·.seen.isIdle)

def keepsRoom (s : LogPool) (_ : Nat) (_ : Int64) : Bool :=
  s.shared.storage.events.length < s.shared.storage.maxEvents.toNat

theorem room_of_lt {s : LogPool} {index : Nat}
    (room : s.shared.storage.events.length < s.shared.storage.maxEvents.toNat) (note : Note) :
    Room s index note := by
  cases note with
  | store => exact room
  | counter | sign => trivial

theorem performs_of_keepsApart (s : LogPool) (index : Nat) (now : Int64)
    (kept : keepsApart s index now = true) :
    Performs (fun s index note => Room s index note ∧ Apart s index note) s (.run index now) := by
  intro note ready act next seen here
  obtain ⟨room, alone⟩ := Bool.and_eq_true_iff.mp kept
  refine ⟨room_of_lt (of_decide_eq_true room) note, ?_⟩
  cases note with
  | counter =>
    intro other thread distinct found
    have member : thread ∈ s.threads.eraseIdx index :=
      List.mem_eraseIdx_iff_getElem?.mpr ⟨other, distinct, found⟩
    exact Phase.eq_idle (List.all_eq_true.mp alone thread member)
  | sign | store => trivial

theorem performs_of_keepsRoom (s : LogPool) (index : Nat) (now : Int64)
    (kept : keepsRoom s index now = true) : Performs Room s (.run index now) :=
  fun note _ _ _ _ _ => room_of_lt (of_decide_eq_true kept) note

def apartPlayer : (persistsApart spellOut 100).Player LogMove :=
  Pool.checked logPlayer keepsApart performs_of_keepsApart (fun _ _ => trivial) fun _ _ => trivial

def roomPlayer : (persistsWithin spellOut 100).Player LogMove :=
  Pool.checked logPlayer keepsRoom performs_of_keepsRoom (fun _ _ => trivial) fun _ _ => trivial

/-- The second call starts when the first one has ended. -/
theorem reachable_oneByOne : ∃ s, (persistsApart spellOut 100).Reachable s ∧
    s.shared.storage.events.length = 2 ∧ Quiet s :=
  apartPlayer.exists_reachable nothing_persisted
    (samplePersists [(0, 5), (0, 5), (0, 5), (1, 6), (1, 6), (1, 6)])
    (fun s => s.shared.storage.events.length = 2 ∧
      ∀ thread ∈ s.threads, thread.program.isDone = true) (by decide)

theorem honest_log_verifies_sample : ∃ s, (persistsApart spellOut 100).Reachable s ∧
    s.shared.storage.events.length = 2 ∧ Quiet s ∧ Honest spellOut s.shared := by
  obtain ⟨s, reached, length, quiet⟩ := reachable_oneByOne
  exact ⟨s, reached, length, quiet, honest_log_verifies reached⟩

/-- Two calls that take the same predecessor before one of them stores its event leave a log that
does not verify. -/
theorem honest_log_broken : ¬ ∀ (sha256 : List UInt8 → String) (maxEvents : UInt64) s,
    (persistsWithin sha256 maxEvents).Reachable s → Quiet s → Honest sha256 s.shared := by
  intro always
  obtain ⟨s, reached, unlinked, quiet⟩ := roomPlayer.exists_reachable nothing_persisted
    (samplePersists [(0, 5), (1, 5), (0, 5), (0, 5), (1, 6), (1, 6)])
    (fun s => s.shared.storage.events.map SignedAuditEvent.prevHash = [none, none] ∧
      ∀ thread ∈ s.threads, thread.program.isDone = true) (by decide)
  have chain := (always spellOut 100 s reached quiet).chain
  obtain ⟨first, second, found⟩ : ∃ first second, s.shared.storage.events = [first, second] :=
    List.length_eq_two.mp (by simpa using congrArg List.length unlinked)
  rw [found] at chain unlinked
  have link := (List.isChain_cons_cons.mp chain).1
  simp only [List.map_cons, List.cons.injEq] at unlinked
  rw [link] at unlinked
  exact absurd unlinked.2.1 nofun

end UHorse.Observability
