import UHorse.Lib.Paging
import UHorse.Observability.Audit

/-!
# Queries of the audit log, page after page

A query skips events before it looks at the filter, so that the offset counts all stored events,
and reads its bounds of the time as unsigned numbers. A client that asks for page after page gets
exactly the events it wants if a full page never passes over an event, and if no negative bound
matters.
-/

namespace UHorse.Observability

open UHorse.Lib UHorse.Protocol

structure AuditQueryFilter where
  startTime : Option Int64
  endTime : Option Int64
  level : Option AuditLevel
  category : Option AuditCategory
  actor : Option String
  target : Option String
  sessionId : Option String
  limit : Option Nat
  offset : Option Nat

namespace AuditQueryFilter

variable (filter : AuditQueryFilter) (signed : SignedAuditEvent)

/-- The criteria other than the time. -/
def meets : Bool :=
  !filter.level.any (signed.event.level ≠ ·) && !filter.category.any (signed.event.category ≠ ·) &&
    !filter.actor.any (signed.event.actor ≠ some ·) &&
    !filter.target.any (signed.event.target ≠ some ·) &&
    !filter.sessionId.any (signed.event.sessionId ≠ some ·)

/-- The closure of the query, which casts the bounds. -/
def admits : Bool :=
  !filter.startTime.any (fun start => signed.event.timestamp < start.toUInt64) &&
    !filter.endTime.any (fun end_ => signed.event.timestamp > end_.toUInt64) && filter.meets signed

/-- The event is wanted, with the bounds as they are given. -/
def satisfies : Bool :=
  !filter.startTime.any (fun start => (signed.event.timestamp.toNat : Int) < start.toInt) &&
    !filter.endTime.any (fun end_ => (signed.event.timestamp.toNat : Int) > end_.toInt) &&
    filter.meets signed

end AuditQueryFilter

namespace InMemoryAuditStorage

variable (storage : InMemoryAuditStorage) (filter : AuditQueryFilter)

def query : List SignedAuditEvent :=
  ((storage.events.drop (filter.offset.getD 0)).filter filter.admits).take (filter.limit.getD 100)

/-- Queries for page after page, until one is shorter, give the wanted events in their order. -/
def PagesExactly (k : Nat) : Prop :=
  ∃ events,
    Paged (fun offset => storage.query { filter with limit := some k, offset := some offset })
      k 0 events ∧ events = storage.events.filter filter.satisfies

end InMemoryAuditStorage

/-! ## Bounds that are cast -/

section Bounds

variable {filter : AuditQueryFilter} {signed : SignedAuditEvent}

theorem toUInt64_le_iff {bound : Int64} (nonneg : 0 ≤ bound) (time : UInt64) :
    bound.toUInt64 ≤ time ↔ bound.toInt ≤ time.toNat := by
  rw [UInt64.le_iff_toNat_le, Int64.toNat_toUInt64_of_le nonneg,
    Int64.toInt_eq_toNatClampNeg nonneg, Int.ofNat_le]

theorem le_toUInt64_iff {bound : Int64} (nonneg : 0 ≤ bound) (time : UInt64) :
    time ≤ bound.toUInt64 ↔ (time.toNat : Int) ≤ bound.toInt := by
  rw [UInt64.le_iff_toNat_le, Int64.toNat_toUInt64_of_le nonneg,
    Int64.toInt_eq_toNatClampNeg nonneg, Int.ofNat_le]

theorem toInt_neg {bound : Int64} (negative : bound < 0) : bound.toInt < 0 := by
  simpa [Int64.lt_iff_toInt_lt] using negative

/-- A negative start excludes nothing that is wanted, and a negative end admits nothing. -/
structure CastsHarmlessly (filter : AuditQueryFilter) (signed : SignedAuditEvent) : Prop where
  start : ∀ start ∈ filter.startTime, start < 0 → filter.satisfies signed = true →
    start.toUInt64 ≤ signed.event.timestamp
  end_ : ∀ end_ ∈ filter.endTime, end_ < 0 → filter.admits signed = false

theorem admits_iff : filter.admits signed = true ↔
    (∀ start ∈ filter.startTime, start.toUInt64 ≤ signed.event.timestamp) ∧
      (∀ end_ ∈ filter.endTime, signed.event.timestamp ≤ end_.toUInt64) ∧
        filter.meets signed = true := by
  simp [AuditQueryFilter.admits, and_assoc, Option.any_eq_false]

theorem satisfies_iff : filter.satisfies signed = true ↔
    (∀ start ∈ filter.startTime, start.toInt ≤ signed.event.timestamp.toNat) ∧
      (∀ end_ ∈ filter.endTime, (signed.event.timestamp.toNat : Int) ≤ end_.toInt) ∧
        filter.meets signed = true := by
  simp [AuditQueryFilter.satisfies, and_assoc, Option.any_eq_false]

/-- A negative end leaves nothing. -/
theorem satisfies_of_negative_end {end_ : Int64} (given : end_ ∈ filter.endTime)
    (negative : end_ < 0) : filter.satisfies signed = false := by
  refine Bool.eq_false_iff.mpr fun satisfied => ?_
  have before := (satisfies_iff.mp satisfied).2.1 end_ given
  have below := toInt_neg negative
  omega

theorem admits_eq_satisfies_iff :
    filter.admits signed = filter.satisfies signed ↔ CastsHarmlessly filter signed := by
  constructor
  · intro same
    refine ⟨fun start given _ satisfied => ?_, fun end_ given negative => ?_⟩
    · exact (admits_iff.mp (same.trans satisfied)).1 start given
    · exact same.trans (satisfies_of_negative_end given negative)
  · rintro ⟨harmless, empty⟩
    rw [Bool.eq_iff_iff]
    constructor
    · intro admitted
      obtain ⟨started, ended, met⟩ := admits_iff.mp admitted
      refine satisfies_iff.mpr ⟨fun start given => ?_, fun end_ given => ?_, met⟩
      · by_cases negative : start < 0
        · have below := toInt_neg negative
          omega
        · exact (toUInt64_le_iff (Int64.not_lt.mp negative) _).mp (started start given)
      · by_cases negative : end_ < 0
        · exact absurd admitted (by simp [empty end_ given negative])
        · exact (le_toUInt64_iff (Int64.not_lt.mp negative) _).mp (ended end_ given)
    · intro satisfied
      obtain ⟨started, ended, met⟩ := satisfies_iff.mp satisfied
      refine admits_iff.mpr ⟨fun start given => ?_, fun end_ given => ?_, met⟩
      · by_cases negative : start < 0
        · exact harmless start given negative satisfied
        · exact (toUInt64_le_iff (Int64.not_lt.mp negative) _).mpr (started start given)
      · by_cases negative : end_ < 0
        · exact absurd satisfied (by simp [satisfies_of_negative_end given negative])
        · exact (le_toUInt64_iff (Int64.not_lt.mp negative) _).mpr (ended end_ given)

end Bounds

/-! ## Page after page -/

section Pages

variable {storage : InMemoryAuditStorage} {filter : AuditQueryFilter} {k : Nat}

/-- Every event is admitted if the pages together are what is wanted: an event that a negative end
admits would be on a page. -/
theorem admits_of_pages {events : List SignedAuditEvent}
    (paged : Paged (filteredPage filter.admits storage.events k) k 0 events)
    (exactly : events = storage.events.filter filter.satisfies) :
    ∀ signed ∈ storage.events, filter.admits signed = filter.satisfies signed := by
  intro signed stored
  refine admits_eq_satisfies_iff.mpr ⟨?_, ?_⟩
  · intro start given _ satisfied
    have read : signed ∈ events := by
      rw [exactly]
      exact List.mem_filter.mpr ⟨stored, satisfied⟩
    exact (admits_iff.mp (paged.meets read)).1 start given
  · intro end_ given negative
    refine Bool.eq_false_iff.mpr fun admitted => ?_
    have nothing : events = [] := by
      rw [exactly, List.filter_eq_nil_iff]
      intro other _
      rw [satisfies_of_negative_end given negative]
      exact Bool.false_ne_true
    have few := paged.length_filter_le
    rw [nothing, List.length_nil, Nat.le_zero, List.length_eq_zero_iff] at few
    exact List.filter_eq_nil_iff.mp few signed stored admitted

/-- The pages are exact just if no bound matters after its cast and no full page passes over an
event. -/
theorem pagesExactly_iff (positive : 0 < k) :
    storage.PagesExactly filter k ↔
      (∀ signed ∈ storage.events, CastsHarmlessly filter signed) ∧
        ∀ signed ∈ storage.events.take
          (k * ((storage.events.filter filter.satisfies).length / k)),
          filter.satisfies signed = true := by
  obtain ⟨events, paged⟩ := exists_paged filter.admits storage.events positive 0
  have exactly : storage.PagesExactly filter k ↔
      events = storage.events.filter filter.satisfies := by
    constructor
    · rintro ⟨other, paged', same⟩
      exact (paged.unique paged').trans same
    · intro same
      exact ⟨events, paged, same⟩
  have full := paged.eq_filter_iff positive
  rw [List.drop_zero] at full
  -- Where the casts are harmless the filter of the code is the wanted one.
  have congruent (same : ∀ signed ∈ storage.events,
      filter.admits signed = filter.satisfies signed) :
      events = storage.events.filter filter.satisfies ↔ ∀ signed ∈ storage.events.take
        (k * ((storage.events.filter filter.satisfies).length / k)),
        filter.satisfies signed = true := by
    rw [← List.filter_congr same, full]
    refine forall₂_congr fun signed member => ?_
    rw [same signed (List.mem_of_mem_take member)]
  rw [exactly]
  constructor
  · intro same
    have alike := admits_of_pages paged same
    exact ⟨fun signed stored => admits_eq_satisfies_iff.mp (alike signed stored),
      (congruent alike).mp same⟩
  · rintro ⟨harmless, wanted⟩
    exact (congruent fun signed stored => admits_eq_satisfies_iff.mpr (harmless signed stored)).mpr
      wanted

end Pages

def pageEvent (actor : String) (sequence : UInt64) : SignedAuditEvent where
  event := ⟨1000, .info, .auth, some actor, "login", none, none, none⟩
  hash := ""
  prevHash := none
  signedAt := 0
  sequence := sequence

def byAlice (startTime : Option Int64) : AuditQueryFilter where
  startTime := startTime
  endTime := none
  level := none
  category := none
  actor := some "alice"
  target := none
  sessionId := none
  limit := none
  offset := none

theorem pagesExactly_alice : InMemoryAuditStorage.PagesExactly
    ⟨[pageEvent "alice" 1, pageEvent "alice" 2, pageEvent "bob" 3], 10⟩
    (byAlice (some 500)) 1 := by
  refine (pagesExactly_iff (by decide)).mpr ⟨?_, by decide⟩
  intro signed member
  refine admits_eq_satisfies_iff.mp ?_
  revert signed
  decide

/-- The event in the middle is skipped by the third query and is not wanted, so that the last event
is on two pages. -/
theorem last_event_read_twice : ¬ ∀ (storage : InMemoryAuditStorage) (filter : AuditQueryFilter)
    (k : Nat), 0 < k → storage.PagesExactly filter k := by
  intro always
  let events := [pageEvent "alice" 1, pageEvent "bob" 2, pageEvent "alice" 3]
  obtain ⟨read, pages, same⟩ := always ⟨events, 10⟩ (byAlice none) 1 (by decide)
  have paged : Paged (filteredPage (byAlice none).admits events 1) 1 0 read := pages
  have wanted := (paged.eq_filter_iff (by decide)).mp same
  exact absurd wanted (by decide)

end UHorse.Observability
