import UHorse.Observability.AuditChain

/-!
# What a verified audit log says

The hash of an event determines its fields once it is known where each of them begins and ends,
which the hashed bytes do not say, and it does not cover the details. So a log that was changed and
still verifies is the one that was written as long as the events have their layouts and details.
-/

namespace UHorse.Observability

open UHorse.Lib UHorse.Lib.Bytes

/-! ## Layouts -/

/-- How many bytes the fields of variable length take, if they are there. -/
structure Layout where
  action : Nat
  actor : Option Nat
  target : Option Nat
  sessionId : Option Nat
  prevHash : Option Nat
deriving DecidableEq

def bytes (text : String) : Nat := (utf8 text).length

def AuditEvent.layout (event : AuditEvent) (prevHash : Option String) : Layout where
  action := bytes event.action
  actor := event.actor.map bytes
  target := event.target.map bytes
  sessionId := event.sessionId.map bytes
  prevHash := prevHash.map bytes

section Parts

variable {first second rest rest' : List UInt8}

theorem utf8_append {text other : String} (fits : bytes text = bytes other)
    (same : utf8 text ++ rest = utf8 other ++ rest') : text = other ∧ rest = rest' := by
  obtain ⟨texts, rests⟩ := List.append_inj same fits
  exact ⟨utf8_injective texts, rests⟩

theorem optionalUtf8_append {text other : Option String}
    (fits : text.map bytes = other.map bytes)
    (same : optionalUtf8 text ++ rest = optionalUtf8 other ++ rest') :
    text = other ∧ rest = rest' := by
  have present : text.isSome = other.isSome := by
    simpa using congrArg Option.isSome fits
  have lengths : (optionalUtf8 text).length = (optionalUtf8 other).length := by
    cases text with
    | none =>
      cases other with
      | none => rfl
      | some other => cases present
    | some text =>
      cases other with
      | none => cases present
      | some other => exact Option.some.inj fits
  obtain ⟨texts, rests⟩ := List.append_inj same lengths
  exact ⟨eq_of_optionalUtf8 present texts, rests⟩

theorem littleEndian_append {word other : BitVec 64}
    (same : littleEndian word ++ rest = littleEndian other ++ rest') :
    word = other ∧ rest = rest' := by
  obtain ⟨words, rests⟩ := List.append_inj same (by simp)
  exact ⟨littleEndian_injective words, rests⟩

/-- No name of a level begins another one. -/
theorem level_append {level other : AuditLevel}
    (same : utf8 level.debug ++ rest = utf8 other.debug ++ rest') :
    level = other ∧ rest = rest' := by
  have initial : (utf8 level.debug).head? = (utf8 other.debug).head? := by
    have heads := congrArg List.head? same
    cases level <;> cases other <;> exact heads
  obtain rfl : level = other := by
    revert initial
    cases level <;> cases other <;> decide
  exact ⟨rfl, List.append_cancel_left same⟩

/-- No name of a category begins another one. -/
theorem category_append {category other : AuditCategory}
    (same : utf8 category.debug ++ rest = utf8 other.debug ++ rest') :
    category = other ∧ rest = rest' := by
  have initial : (utf8 category.debug).take 2 = (utf8 other.debug).take 2 := by
    have heads := congrArg (List.take 2) same
    cases category <;> cases other <;> exact heads
  obtain rfl : category = other := by
    revert initial
    cases category <;> cases other <;> decide
  exact ⟨rfl, List.append_cancel_left same⟩

end Parts

/-- Events with one layout and the same details that are hashed to the same are the same. -/
theorem eq_of_hashInput {event other : AuditEvent} {prevHash prevHash' : Option String}
    {signedAt signedAt' : Int64} {sequence sequence' : UInt64}
    (same : SignedAuditEvent.hashInput event prevHash signedAt sequence =
      SignedAuditEvent.hashInput other prevHash' signedAt' sequence')
    (layout : event.layout prevHash = other.layout prevHash')
    (details : event.details = other.details) :
    (event, prevHash, signedAt, sequence) = (other, prevHash', signedAt', sequence') := by
  obtain ⟨action, actor, target, sessionId, prev⟩ := Layout.mk.inj layout
  simp only [SignedAuditEvent.hashInput, List.append_assoc] at same
  obtain ⟨timestamps, same⟩ := littleEndian_append same
  obtain ⟨levels, same⟩ := level_append same
  obtain ⟨categories, same⟩ := category_append same
  obtain ⟨actions, same⟩ := utf8_append action same
  obtain ⟨actors, same⟩ := optionalUtf8_append actor same
  obtain ⟨targets, same⟩ := optionalUtf8_append target same
  obtain ⟨sessions, same⟩ := optionalUtf8_append sessionId same
  obtain ⟨prevs, same⟩ := optionalUtf8_append prev same
  obtain ⟨signed, sequences⟩ := littleEndian_append same
  have sequences := UInt64.toBitVec_inj.mp (littleEndian_injective sequences)
  have signed := Int64.toBitVec_inj.mp signed
  have timestamps := UInt64.toBitVec_inj.mp timestamps
  obtain ⟨timestamp, level, category, actor, action, target, details, sessionId⟩ := event
  obtain ⟨timestamp', level', category', actor', action', target', details', sessionId'⟩ := other
  dsimp only at *
  subst timestamps levels categories actions actors targets sessions prevs signed sequences details
  rfl

/-! ## Logs that verify -/

/-- The fields of an event have the lengths, and the details, of the other one's. -/
def SignedAuditEvent.Resembles (signed other : SignedAuditEvent) : Prop :=
  signed.event.layout signed.prevHash = other.event.layout other.prevHash ∧
    signed.event.details = other.event.details

variable {sha256 : List UInt8 → String} {signed other : SignedAuditEvent}
  {events altered : List SignedAuditEvent}

/-- Events that verify, resemble each other and have one hash are the same. -/
theorem eq_of_verify (injective : Function.Injective sha256)
    (verifies : signed.verify sha256 = true) (verifies' : other.verify sha256 = true)
    (resembles : signed.Resembles other) (same : signed.hash = other.hash) : signed = other := by
  have computed : SignedAuditEvent.computeHash sha256 signed.event signed.prevHash signed.signedAt
      signed.sequence = signed.hash := of_decide_eq_true verifies
  have computed' : SignedAuditEvent.computeHash sha256 other.event other.prevHash other.signedAt
      other.sequence = other.hash := of_decide_eq_true verifies'
  have inputs := injective (computed.trans (same.trans computed'.symm))
  have fields := eq_of_hashInput inputs resembles.1 resembles.2
  obtain ⟨event, hash, prevHash, signedAt, sequence⟩ := signed
  obtain ⟨event', hash', prevHash', signedAt', sequence'⟩ := other
  dsimp only at same
  cases fields
  rw [same]

theorem hashChain_of_checkLinks (checked : InMemoryAuditStorage.checkLinks events = .ok ()) :
    HashChain SignedAuditEvent.hash SignedAuditEvent.prevHash events := by
  fun_induction InMemoryAuditStorage.checkLinks events with
  | case1 prev curr rest linked ih => exact List.isChain_cons_cons.mpr ⟨linked, ih checked⟩
  | case2 prev curr rest broken => cases checked
  | case3 events short =>
    obtain _ | ⟨prev, rest⟩ := events
    · exact List.isChain_nil
    · obtain _ | ⟨curr, rest⟩ := rest
      · exact List.isChain_singleton prev
      · exact absurd rfl (short prev curr rest)

/-- What verifies over all its numbers is a chain of events that verify. -/
theorem of_verifyChain {maxEvents fromSeq toSeq : UInt64}
    (covers : ∀ signed ∈ events, fromSeq ≤ signed.sequence ∧ signed.sequence ≤ toSeq)
    (verifies : InMemoryAuditStorage.verifyChain sha256 ⟨events, maxEvents⟩ fromSeq toSeq =
      .ok ()) :
    (∀ signed ∈ events, signed.verify sha256 = true) ∧
      HashChain SignedAuditEvent.hash SignedAuditEvent.prevHash events := by
  have relevant : (events.filter fun signed =>
      fromSeq ≤ signed.sequence && signed.sequence ≤ toSeq) = events := by
    refine List.filter_eq_self.mpr fun signed member => ?_
    obtain ⟨above, below⟩ := covers signed member
    exact Bool.and_eq_true_iff.mpr ⟨decide_eq_true above, decide_eq_true below⟩
  rw [InMemoryAuditStorage.verifyChain] at verifies
  dsimp only at verifies
  rw [relevant] at verifies
  split at verifies
  · next empty =>
      rw [List.isEmpty_iff.mp empty]
      exact ⟨List.forall_mem_nil _, List.isChain_nil⟩
  · split at verifies
    · next valid => exact ⟨List.all_eq_true.mp valid, hashChain_of_checkLinks verifies⟩
    · cases verifies

/-! ## Logs that were written -/

variable (sha256) in
/-- What a call is about to store verifies. -/
def Phase.Verifies : Phase → Prop
  | .signed signed => signed.verify sha256 = true
  | _ => True

variable (sha256) in
/-- Everything that is stored or about to be stored verifies. -/
structure Signed (s : LogPool) : Prop where
  lawful : ∀ thread ∈ s.threads,
    KeepsLog sha256 thread.program thread.seen fun _ after => after = .idle
  inHand : ∀ thread ∈ s.threads, thread.seen.Verifies sha256
  stored : ∀ signed ∈ s.shared.storage.events, signed.verify sha256 = true

namespace Signed

variable {s : LogPool}

theorem spawn (signed : Signed sha256 s) {process : AuditPersistor.Process Unit}
    (persists : Persists sha256 process) :
    Signed sha256 { s with threads := s.threads ++ [⟨process, .idle⟩] } := by
  refine ⟨?_, ?_, signed.stored⟩
  · refine List.forall_mem_append.mpr ⟨signed.lawful, ?_⟩
    intro thread member
    rw [List.mem_singleton.mp member]
    exact keeps_of_persists sha256 persists
  · refine List.forall_mem_append.mpr ⟨signed.inHand, ?_⟩
    intro thread member
    rw [List.mem_singleton.mp member]
    trivial

theorem step (signed : Signed sha256 s) {index : Nat} {note : Note}
    {ready : AuditPersistor → Bool} {act : Int64 → AuditPersistor → AuditPersistor}
    {next : Int64 → AuditPersistor → AuditPersistor.Process Unit} {seen : Phase} {now : Int64}
    (here : s.threads[index]? = some ⟨.act note ready act next, seen⟩)
    (enabled : ready s.shared = true) :
    Signed sha256
      { shared := act now s.shared
        threads := s.threads.set index
          ⟨next now s.shared, (persisting sha256).see seen note now s.shared⟩ } := by
  have member := List.mem_of_getElem? here
  obtain ⟨does, later⟩ := (signed.lawful _ member).2 now s.shared enabled trivial trivial
  have held := signed.inHand _ member
  have does : note.Does seen s.shared (act now s.shared) := does
  refine ⟨?_, ?_, ?_⟩
  · intro thread present
    obtain old | rfl := List.mem_or_eq_of_mem_set present
    · exact signed.lawful thread old
    · exact later
  · intro thread present
    obtain old | rfl := List.mem_or_eq_of_mem_set present
    · exact signed.inHand thread old
    · cases note with
      | counter | store => trivial
      | sign event prevHash sequence => exact verify_new event prevHash sequence now
  · cases note with
    | counter | sign =>
      rw [does.2]
      exact signed.stored
    | store event =>
      obtain ⟨rfl, after⟩ := does
      rw [after]
      refine List.forall_mem_append.mpr ⟨?_, ?_⟩
      · exact fun old present => signed.stored old (List.mem_of_mem_drop present)
      · intro new present
        rw [List.mem_singleton.mp present]
        exact held

theorem of_reachable {maxEvents : UInt64} (reached : (persists sha256 maxEvents).Reachable s) :
    Signed sha256 s := by
  refine reached.invariant ?_ ?_
  · rintro s ⟨nobody, begun⟩
    have nothing : s.shared.storage.events = [] := by
      rw [begun]
      rfl
    exact ⟨by simp [nobody], by simp [nobody], by simp [nothing]⟩
  · intro s label t signed step
    cases step with
    | spawn process persists => exact signed.spawn persists
    | run index now note ready act next seen here enabled => exact signed.step here enabled
    | background shared never => cases never

end Signed

/-! ## Tampering -/

theorem forall₂_verified {α : Type} {valid valid' : α → Prop} {related : α → α → Prop}
    {entries others : List α} (pairs : List.Forall₂ related entries others)
    (every : ∀ entry ∈ entries, valid entry) (every' : ∀ other ∈ others, valid' other) :
    List.Forall₂ (fun entry other => valid entry ∧ valid' other ∧ related entry other)
      entries others := by
  induction pairs with
  | nil => exact .nil
  | cons here rest ih =>
    obtain ⟨first, every⟩ := List.forall_mem_cons.mp every
    obtain ⟨first', every'⟩ := List.forall_mem_cons.mp every'
    exact .cons ⟨first, first', here⟩ (ih every every')

/-- What is hashed to the same is the same just if it has one layout and the same details. A log
that was changed, keeps its last hash and verifies is the one that was written just if that one
is a chain and each event resembles the one that was written in its place. -/
theorem tampering_evident (injective : Function.Injective sha256) :
    (∀ event prevHash signedAt sequence other prevHash' signedAt' sequence',
      SignedAuditEvent.hashInput event prevHash signedAt sequence =
        SignedAuditEvent.hashInput other prevHash' signedAt' sequence' →
      ((event, prevHash, signedAt, sequence) = (other, prevHash', signedAt', sequence') ↔
        event.layout prevHash = other.layout prevHash' ∧ event.details = other.details)) ∧
    ∀ (maxEvents : UInt64) s, (persists sha256 maxEvents).Reachable s →
      ∀ (altered : List SignedAuditEvent) (fromSeq toSeq : UInt64),
      (∀ signed ∈ altered, fromSeq ≤ signed.sequence ∧ signed.sequence ≤ toSeq) →
      InMemoryAuditStorage.verifyChain sha256 ⟨altered, maxEvents⟩ fromSeq toSeq = .ok () →
      altered.getLast?.map SignedAuditEvent.hash =
        s.shared.storage.events.getLast?.map SignedAuditEvent.hash →
      (altered = s.shared.storage.events ↔
        HashChain SignedAuditEvent.hash SignedAuditEvent.prevHash s.shared.storage.events ∧
          List.Forall₂ SignedAuditEvent.Resembles altered s.shared.storage.events) := by
  constructor
  · intro event prevHash signedAt sequence other prevHash' signedAt' sequence' same
    constructor
    · intro equal
      cases equal
      exact ⟨rfl, rfl⟩
    · rintro ⟨layout, details⟩
      exact eq_of_hashInput same layout details
  · intro maxEvents s reached altered fromSeq toSeq covers verifies lastHash
    obtain ⟨verified, chain⟩ := of_verifyChain covers verifies
    constructor
    · intro equal
      rw [equal] at chain
      refine ⟨chain, ?_⟩
      rw [equal]
      exact List.forall₂_same.mpr fun _ _ => ⟨rfl, rfl⟩
    · rintro ⟨written, resembles⟩
      have pairs := forall₂_verified resembles verified (Signed.of_reachable reached).stored
      refine HashChain.eq_of_forall₂ ?_ chain written pairs lastHash
      rintro signed other ⟨valid, valid', resembles⟩ same
      exact eq_of_verify injective valid valid' resembles same

/-! ### An actor that becomes the target -/

theorem spellOut_injective : Function.Injective spellOut := by
  have codes : ∀ code < 256, (Char.ofNat code).toNat = code := by
    intro code small
    rw [Char.ofNat, dif_pos (.inl (by omega))]
    rfl
  have bytes : Function.Injective fun byte : UInt8 => Char.ofNat byte.toNat := by
    intro byte other same
    have numbers := congrArg Char.toNat same
    dsimp only at numbers
    rw [codes _ byte.toNat_lt, codes _ other.toNat_lt] at numbers
    exact UInt8.toNat_inj.mp numbers
  intro input other same
  exact List.map_injective_iff.mpr bytes (String.ofList_injective same)

/-- The log of two calls, one after the other, is the only one of its layouts and details. -/
theorem tampering_evident_sample : ∃ s, (persists spellOut 100).Reachable s ∧
    s.shared.storage.events.length = 2 ∧
    HashChain SignedAuditEvent.hash SignedAuditEvent.prevHash s.shared.storage.events ∧
    List.Forall₂ SignedAuditEvent.Resembles s.shared.storage.events s.shared.storage.events := by
  obtain ⟨s, apart, length, -⟩ := reachable_oneByOne
  have reached : (persists spellOut 100).Reachable s := apart.of_restrict
  have verifies := (Serial.of_reachable apart).linked.verifyChain 100 0 (.ofNat (2 ^ 64 - 1))
  have covers : ∀ signed ∈ s.shared.storage.events,
      0 ≤ signed.sequence ∧ signed.sequence ≤ .ofNat (2 ^ 64 - 1) :=
    fun signed _ => ⟨Nat.zero_le _, Nat.le_of_lt_succ signed.sequence.toNat_lt⟩
  exact ⟨s, reached, length,
    ((tampering_evident spellOut_injective).2 100 s reached _ _ _ covers verifies rfl).mp rfl⟩

def sampleSigned : SignedAuditEvent := .new spellOut (sampleEvent "user-1" "login") none 1 5

/-- The event with the actor as its target. -/
def sampleAltered : SignedAuditEvent :=
  { sampleSigned with
    event := { sampleSigned.event with actor := none, target := sampleSigned.event.actor } }

theorem verify_sampleAltered : sampleAltered.verify spellOut = true := by
  refine decide_eq_true (congrArg spellOut ?_)
  simp [SignedAuditEvent.hashInput, sampleAltered, sampleSigned, SignedAuditEvent.new,
    sampleEvent, optionalUtf8]

/-- The event stored alone. -/
theorem reachable_sampleSigned : ∃ s, (persists spellOut 100).Reachable s ∧
    s.shared.storage.events = [sampleSigned] := by
  have stored : (logPlayer.play ⟨.new 100, []⟩ (samplePersists [(0, 5), (0, 5), (0, 5)])).map
      (·.shared.storage.events) = some [sampleSigned] := by with_unfolding_all rfl
  obtain ⟨s, played, same⟩ := Option.map_eq_some_iff.mp stored
  obtain ⟨labels, run⟩ := logPlayer.exec_play played
  have start : (persists spellOut 100).Reachable ⟨.new 100, []⟩ := .init ⟨rfl, rfl⟩
  exact ⟨s, start.exec run, same⟩

/-- A log with the actor moved to the target verifies and keeps its last hash. -/
theorem tampering_hidden : ¬ ∀ sha256 : List UInt8 → String, Function.Injective sha256 →
    ∀ (maxEvents : UInt64) s, (persists sha256 maxEvents).Reachable s →
    ∀ (altered : List SignedAuditEvent) (fromSeq toSeq : UInt64),
    (∀ signed ∈ altered, fromSeq ≤ signed.sequence ∧ signed.sequence ≤ toSeq) →
    InMemoryAuditStorage.verifyChain sha256 ⟨altered, maxEvents⟩ fromSeq toSeq = .ok () →
    altered.getLast?.map SignedAuditEvent.hash =
      s.shared.storage.events.getLast?.map SignedAuditEvent.hash →
    altered = s.shared.storage.events := by
  intro always
  obtain ⟨s, reached, written⟩ := reachable_sampleSigned
  have verifies :
      InMemoryAuditStorage.verifyChain spellOut ⟨[sampleAltered], 100⟩ 1 1 = .ok () := by
    have valid : [sampleAltered].all (·.verify spellOut) = true := by
      simp [verify_sampleAltered]
    exact if_pos (e := .error .signatureVerificationFailed) valid
  have covers : ∀ signed ∈ [sampleAltered], 1 ≤ signed.sequence ∧ signed.sequence ≤ 1 := by
    intro signed member
    rw [List.mem_singleton.mp member]
    decide
  have same := always spellOut spellOut_injective 100 s reached [sampleAltered] 1 1 covers verifies
    (by rw [written]; rfl)
  rw [written] at same
  have actors : sampleAltered.event.actor = sampleSigned.event.actor := by
    rw [(List.cons.inj same).1]
  cases actors

end UHorse.Observability
