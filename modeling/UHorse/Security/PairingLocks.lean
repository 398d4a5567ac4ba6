import UHorse.Lib.Occurrences
import UHorse.Security.PairingProcess

/-!
# The locks of the pairing manager

Two pairs of operations do not fit together. Whoever has found a code looks up its request
while reading the codes, and whoever decides a request removes its code while holding the
requests. And a confirmation pairs a device while holding the requests, where
`get_pairing_status` looks through the requests while reading the devices.

As long as the two sides of either pair keep apart, the locks are taken in an order; it is
not the same order at all times.
-/

namespace UHorse.Security.Pairing

open UHorse.Lib

/-! ## Operations in a pool -/

/-- The operations and the expiry tasks. What they return is not followed here. -/
inductive Runs : Process Unit → Prop
  | initiatePairing (deviceId deviceName deviceType : String) :
      Runs (Process.initiatePairing deviceId deviceName deviceType).discard
  | expireRequest (requestId : String) : Runs (Process.expireRequest requestId).discard
  | getRequestByCode (code : String) : Runs (Process.getRequestByCode code).discard
  | confirmPairing (code userId : String) : Runs (Process.confirmPairing code userId).discard
  | rejectPairing (code : String) : Runs (Process.rejectPairing code).discard
  | cancelPairing (requestId : String) : Runs (Process.cancelPairing requestId).discard
  | cleanupExpiredRequests : Runs Process.cleanupExpiredRequests.discard
  | getPairingRequest (requestId : String) : Runs (Process.getPairingRequest requestId).discard
  | listPendingRequests : Runs Process.listPendingRequests.discard
  | getPairingStatus (deviceId : String) : Runs (Process.getPairingStatus deviceId).discard
  | unpairDevice (deviceId : String) : Runs (Process.unpairDevice deviceId).discard

/-- The locks a thread holds, and what it is heading for before it has its next lock. -/
structure Holding where
  locks : List (Lock × Mode)
  heading : Option Heading

namespace Holding

def nothing : Holding := ⟨[], none⟩

def see (holding : Holding) : Note → Holding
  | .acquire lock mode => ⟨(lock, mode) :: holding.locks, none⟩
  | .release lock mode => { holding with locks := holding.locks.erase (lock, mode) }
  | .head heading => { holding with heading := some heading }
  | _ => holding

/-- Whether the thread has the requests for itself. -/
def decides (holding : Holding) : Bool := (.requests, .write) ∈ holding.locks

end Holding

def holder : Observer Guarded Reading Note Holding where
  start := .nothing
  see holding note _ _ := holding.see note

abbrev LockPool := Pool Guarded Reading Note Unit Holding

/-- All interleavings of operations on a new manager. -/
def pairings (pairingTtl : Nat) : System LockPool (PoolLabel Guarded Reading Note Unit) :=
  Pool.system holder Runs (fun _ _ => False) fun s => s = ⟨.new pairingTtl, fun _ => .free⟩

/-- The lock a thread waits for: it asks for it and cannot have it. -/
def waitsFor (s : LockPool) (index : Nat) : Option (Lock × Mode) :=
  match s.threads[index]? with
  | some ⟨.act (.acquire lock mode) ready _ _, _⟩ =>
    if ready s.shared then none else some (lock, mode)
  | _ => none

def holds (s : LockPool) (index : Nat) : List (Lock × Mode) :=
  match s.threads[index]? with
  | some thread => thread.seen.locks
  | none => []

/-- What must not be headed for at the same time. -/
def Heading.rival : Heading → Heading
  | .lookingUp => .clearing
  | .clearing => .lookingUp
  | .pairing => .inspecting
  | .inspecting => .pairing

/-- No thread heads for the rival of what another one is heading for. -/
def Apart (s : LockPool) : Note → Prop
  | .head heading => ∀ thread ∈ s.threads, thread.seen.heading ≠ some heading.rival
  | _ => True

def KeepsApart (s : LockPool) : PoolLabel Guarded Reading Note Unit → Prop
  | .run index _ => ∀ note ready act next seen,
      s.threads[index]? = some ⟨.act note ready act next, seen⟩ → Apart s note
  | _ => True

/-! ## What an operation holds -/

/-- The locks a thread may hold while it waits for another one. -/
inductive Waits : Holding → Note → Prop
  | empty (heading : Option Heading) (lock : Lock) (mode : Mode) :
      Waits ⟨[], heading⟩ (.acquire lock mode)
  | lookUp (mode : Mode) :
      Waits ⟨[(.codes, .read)], some .lookingUp⟩ (.acquire .requests mode)
  | pair :
      Waits ⟨[(.requests, .write), (.codes, .read)], some .pairing⟩ (.acquire .devices .write)
  | clear (locks : List (Lock × Mode)) (free : ∀ held ∈ locks, held.1 ≠ .codes) :
      Waits ⟨locks, some .clearing⟩ (.acquire .codes .write)
  | inspect : Waits ⟨[(.devices, .read)], some .inspecting⟩ (.acquire .requests .read)

/-- Whoever pairs or clears has the requests for itself. -/
def Secured (holding : Holding) : Prop :=
  holding.heading = some .pairing ∨ holding.heading = some .clearing → holding.decides = true

def Note.locks (note : Note) (locks : Lock → RwLock) : Lock → RwLock :=
  match note with
  | .acquire lock mode => Function.update locks lock ((locks lock).take mode)
  | .release lock mode => Function.update locks lock ((locks lock).drop mode)
  | _ => locks

/-- The notes of what is done under the locks. -/
def Note.plain : Note → Bool
  | .acquire .. | .release .. | .head _ => false
  | _ => true

structure Grants (holding : Holding) (note : Note) (s t : Guarded) : Prop where
  locks : t.locks = note.locks s.locks
  admitted : ∀ lock mode, note = .acquire lock mode → (s.locks lock).admits mode = true
  owned : ∀ lock mode, note = .release lock mode → (lock, mode) ∈ holding.locks ∧
    (lock, mode) ∉ holding.locks.erase (lock, mode)
  secured : Secured (holding.see note)

def lockContract : Contract Guarded Reading Note Holding where
  relies holding _ := Secured holding
  expects _ _ _ _ := True
  waits holding note _ := Waits holding note
  grants holding note _ s t := Grants holding note s t

/-- The program waits only as it may, and ends with the locks of `after`. -/
def Tracks {α : Type} (program : Process α) (before after : Holding) : Prop :=
  program.Keeps holder lockContract before fun _ final => final = after

namespace Tracks

variable {α β : Type} {before middle after : Holding} {locks : List (Lock × Mode)}

theorem pure (value : α) : Tracks (Pure.pure value) before before := Program.Keeps.pure rfl

theorem bind {program : Process α} {rest : α → Process β} (first : Tracks program before middle)
    (second : ∀ value, Tracks (rest value) middle after) :
    Tracks (program >>= rest) before after := by
  refine Program.Keeps.bind first ?_
  rintro value final rfl
  exact second value

variable {lock : Lock} {mode : Mode}

theorem acquire (waits : Waits before (.acquire lock mode)) :
    Tracks (Process.acquire lock mode) before ⟨(lock, mode) :: before.locks, none⟩ := by
  refine ⟨fun _ _ => waits, ?_⟩
  intro input s isReady _ _
  refine ⟨⟨rfl, ?_, nofun, nofun⟩, rfl⟩
  rintro _ _ ⟨⟩
  exact isReady

theorem release (owned : (lock, mode) ∈ locks) (gone : (lock, mode) ∉ locks.erase (lock, mode)) :
    Tracks (Process.release lock mode) ⟨locks, none⟩ ⟨locks.erase (lock, mode), none⟩ := by
  refine Program.Keeps.update ?_ fun _ _ _ _ => rfl
  intro input s _ _
  refine ⟨rfl, nofun, ?_, nofun⟩
  rintro _ _ ⟨⟩
  exact ⟨owned, gone⟩

theorem head {heading : Heading}
    (secured : heading = .pairing ∨ heading = .clearing → (.requests, .write) ∈ locks) :
    Tracks (Process.head heading) ⟨locks, none⟩ ⟨locks, some heading⟩ := by
  refine Program.Keeps.update ?_ fun _ _ _ _ => rfl
  intro input s _ _
  refine ⟨rfl, nofun, nofun, ?_⟩
  intro headed
  refine decide_eq_true (secured ?_)
  simpa [Holding.see] using headed

theorem apply {note : Note}
    (change : Reading → DevicePairingManager → DevicePairingManager × α)
    (plain : note.plain = true) : Tracks (Process.apply note change) before before := by
  have seen : before.see note = before := by cases note <;> first | rfl | cases plain
  refine Program.Keeps.update ?_ fun _ _ _ _ => seen
  intro input s secured _
  refine ⟨?_, ?_, ?_, seen.symm ▸ secured⟩
  · cases note <;> first | rfl | cases plain
  · rintro lock mode rfl
    cases plain
  · rintro lock mode rfl
    cases plain

theorem modify {note : Note} (change : Reading → DevicePairingManager → DevicePairingManager)
    (plain : note.plain = true) : Tracks (Process.modify note change) before before :=
  apply (fun reading manager => (change reading manager, ())) plain

theorem look (value : Reading → DevicePairingManager → α) :
    Tracks (Process.look value) before before :=
  apply (fun reading manager => (manager, value reading manager)) rfl

theorem within {section' : Process α} {heading : Option Heading}
    (waits : Waits ⟨locks, heading⟩ (.acquire lock mode)) (apart : (lock, mode) ∉ locks)
    (tracks : Tracks section' ⟨(lock, mode) :: locks, none⟩ ⟨(lock, mode) :: locks, none⟩) :
    Tracks (Process.within lock mode section') ⟨locks, heading⟩ ⟨locks, none⟩ := by
  have dropped : ((lock, mode) :: locks).erase (lock, mode) = locks := List.erase_cons_head ..
  refine (acquire waits).bind fun _ => tracks.bind fun value => ?_
  have released : Tracks (Process.release lock mode) ⟨(lock, mode) :: locks, none⟩
      ⟨((lock, mode) :: locks).erase (lock, mode), none⟩ :=
    release List.mem_cons_self (by rwa [dropped])
  rw [dropped] at released
  exact released.bind fun _ => pure value

theorem clearCode (code : String) (owned : (.requests, .write) ∈ locks)
    (free : ∀ held ∈ locks, held.1 ≠ .codes) :
    Tracks (Process.clearCode code) ⟨locks, none⟩ ⟨locks, none⟩ := by
  refine (head fun _ => owned).bind fun _ => ?_
  exact within (.clear locks free) (fun member => free _ member rfl) (modify _ rfl)

theorem first {section' : Process α}
    (tracks : Tracks section' ⟨[(lock, mode)], none⟩ ⟨[(lock, mode)], none⟩) :
    Tracks (Process.within lock mode section') .nothing .nothing :=
  within (.empty _ _ _) List.not_mem_nil tracks

theorem lookingUp : Tracks (Process.head .lookingUp) ⟨locks, none⟩ ⟨locks, some .lookingUp⟩ :=
  head nofun

theorem inspecting : Tracks (Process.head .inspecting) ⟨locks, none⟩ ⟨locks, some .inspecting⟩ :=
  head nofun

theorem initiatePairing (deviceId deviceName deviceType : String) :
    Tracks (.initiatePairing deviceId deviceName deviceType) .nothing .nothing := by
  refine (look _).bind fun request => ?_
  refine (first (modify _ rfl)).bind fun _ => ?_
  refine (first (modify _ rfl)).bind fun _ => ?_
  exact (first (modify _ rfl)).bind fun _ => pure request

theorem expireRequest (requestId : String) :
    Tracks (.expireRequest requestId) .nothing .nothing := by
  refine (acquire (.empty _ _ _)).bind fun _ => (apply _ rfl).bind fun lapsed => ?_
  cases lapsed with
  | none => exact (pure ()).bind fun _ => release (by decide) (by decide)
  | some code =>
    exact (clearCode code (by decide) (by decide)).bind fun _ => release (by decide) (by decide)

theorem getRequestByCode (code : String) :
    Tracks (.getRequestByCode code) .nothing .nothing := by
  refine first ((look _).bind fun found => ?_)
  cases found with
  | none => exact pure _
  | some requestId => exact lookingUp.bind fun _ => within (.lookUp _) (by decide) (look _)

theorem confirmPairing (code userId : String) :
    Tracks (.confirmPairing code userId) .nothing .nothing := by
  refine (acquire (.empty _ _ _)).bind fun _ => (look _).bind fun found => ?_
  cases found with
  | none => exact (release (by decide) (by decide)).bind fun _ => pure _
  | some requestId =>
    refine lookingUp.bind fun _ => (acquire (.lookUp _)).bind fun _ => ?_
    refine (apply _ rfl).bind fun claimed => ?_
    cases claimed with
    | error error =>
      refine (release (by decide) (by decide)).bind fun _ => ?_
      exact (release (by decide) (by decide)).bind fun _ => pure _
    | ok request =>
      refine (head fun _ => by decide).bind fun _ => (acquire .pair).bind fun _ => ?_
      refine (apply _ rfl).bind fun paired => ?_
      cases paired with
      | error error =>
        refine (release (by decide) (by decide)).bind fun _ => ?_
        refine (release (by decide) (by decide)).bind fun _ => ?_
        exact (release (by decide) (by decide)).bind fun _ => pure _
      | ok device =>
        refine (release (by decide) (by decide)).bind fun _ => ?_
        refine (clearCode code (by decide) (by decide)).bind fun _ => ?_
        refine (release (by decide) (by decide)).bind fun _ => ?_
        exact (release (by decide) (by decide)).bind fun _ => pure _

theorem rejectPairing (code : String) : Tracks (.rejectPairing code) .nothing .nothing := by
  refine (acquire (.empty _ _ _)).bind fun _ => (look _).bind fun found => ?_
  cases found with
  | none => exact (release (by decide) (by decide)).bind fun _ => pure _
  | some requestId =>
    refine lookingUp.bind fun _ => (acquire (.lookUp _)).bind fun _ => ?_
    refine (apply _ rfl).bind fun declined => ?_
    cases declined with
    | error error =>
      refine (release (by decide) (by decide)).bind fun _ => ?_
      exact (release (by decide) (by decide)).bind fun _ => pure _
    | ok =>
      refine (release (by decide) (by decide)).bind fun _ => ?_
      refine (clearCode code (by decide) (by decide)).bind fun _ => ?_
      exact (release (by decide) (by decide)).bind fun _ => pure _

theorem cancelPairing (requestId : String) :
    Tracks (.cancelPairing requestId) .nothing .nothing := by
  refine first ((apply _ rfl).bind fun withdrawn => ?_)
  cases withdrawn with
  | error error => exact pure _
  | ok code => exact (clearCode code (by decide) (by decide)).bind fun _ => pure _

theorem cleanupExpiredRequests : Tracks .cleanupExpiredRequests .nothing .nothing := by
  refine first ((head fun _ => by decide).bind fun _ => ?_)
  exact within (.clear _ (by decide)) (by decide) (apply _ rfl)

theorem getPairingStatus (deviceId : String) :
    Tracks (.getPairingStatus deviceId) .nothing .nothing := by
  refine first ((look _).bind fun found => ?_)
  cases found with
  | none => exact pure _
  | some device =>
    dsimp only
    split
    · exact pure _
    · exact inspecting.bind fun _ => within .inspect (by decide) (look _)

theorem discard {program : Process α} (tracks : Tracks program .nothing .nothing) :
    Tracks program.discard .nothing .nothing :=
  tracks.bind fun _ => pure ()

/-- Every operation holds no lock when it returns, and waits only as it may. -/
theorem of_runs {program : Process Unit} (runs : Runs program) :
    Tracks program .nothing .nothing := by
  cases runs with
  | initiatePairing => exact discard (initiatePairing _ _ _)
  | expireRequest requestId => exact discard (expireRequest requestId)
  | getRequestByCode code => exact discard (getRequestByCode code)
  | confirmPairing code userId => exact discard (confirmPairing code userId)
  | rejectPairing code => exact discard (rejectPairing code)
  | cancelPairing requestId => exact discard (cancelPairing requestId)
  | cleanupExpiredRequests => exact discard cleanupExpiredRequests
  | getPairingRequest => exact discard (first (look _))
  | listPendingRequests => exact discard (first (look _))
  | getPairingStatus deviceId => exact discard (getPairingStatus deviceId)
  | unpairDevice => exact discard (first (apply _ rfl))

end Tracks

/-! ## What is kept -/

variable {heading : Heading} {s : LockPool}

theorem heading_see {holding : Holding} {note : Note}
    (headed : (holding.see note).heading = some heading) :
    note = .head heading ∨ holding.heading = some heading := by
  cases note with
  | acquire lock mode => cases headed
  | head => exact .inl (congrArg _ (Option.some.inj headed))
  | _ => exact .inr headed

/-- An action that takes or drops the requests moves the lock with it. -/
theorem Grants.balance {holding : Holding} {note : Note} {s t : Guarded}
    (granted : Grants holding note s t)
    (held : holding.decides = true → (s.locks .requests).writer = true) :
    (holding.see note).decides.toNat + (s.locks .requests).writer.toNat =
      holding.decides.toNat + (t.locks .requests).writer.toNat := by
  rw [granted.locks]
  cases note with
  | acquire lock mode =>
    have admitted := granted.admitted lock mode rfl
    cases lock with
    | requests =>
      cases mode with
      | read => simp [Holding.see, Holding.decides, Note.locks, RwLock.take]
      | write =>
        have free : (s.locks .requests).writer = false := by
          simp only [RwLock.admits, Bool.and_eq_true, Bool.not_eq_true'] at admitted
          exact admitted.1
        have idle : holding.decides = false := by
          by_contra decides
          rw [held (by simpa using decides)] at free
          cases free
        simp [Holding.see, Holding.decides, Note.locks, RwLock.take, free] at idle ⊢
        exact idle
    | devices => simp [Holding.see, Holding.decides, Note.locks]
    | codes => simp [Holding.see, Holding.decides, Note.locks]
  | release lock mode =>
    obtain ⟨owned, gone⟩ := granted.owned lock mode rfl
    cases lock with
    | requests =>
      cases mode with
      | read =>
        simp [Holding.see, Holding.decides, Note.locks, RwLock.drop, List.mem_erase_of_ne]
      | write =>
        have decides : holding.decides = true := decide_eq_true owned
        have after : (holding.see (.release .requests .write)).decides = false :=
          decide_eq_false gone
        rw [held decides, decides, after]
        simp [Note.locks, RwLock.drop]
    | devices => simp [Holding.see, Holding.decides, Note.locks, List.mem_erase_of_ne]
    | codes => simp [Holding.see, Holding.decides, Note.locks, List.mem_erase_of_ne]
  | _ => rfl

/-- Every thread waits only as it may, rivals keep apart, and one thread at a time has the
requests for itself. -/
structure Orderly (s : LockPool) : Prop where
  tracked : ∀ thread ∈ s.threads,
    thread.program.Keeps holder lockContract thread.seen fun _ _ => True
  secured : ∀ thread ∈ s.threads, Secured thread.seen
  apart : ∀ thread ∈ s.threads, ∀ heading, thread.seen.heading = some heading →
    ∀ other ∈ s.threads, other.seen.heading ≠ some heading.rival
  exclusive : s.threads.countP (·.seen.decides) = (s.shared.locks .requests).writer.toNat

namespace Orderly

variable {s : LockPool} {index : Nat}

theorem held (orderly : Orderly s) {thread : Thread Guarded Reading Note Unit Holding}
    (member : thread ∈ s.threads) (decides : thread.seen.decides = true) :
    (s.shared.locks .requests).writer = true := by
  have counted : 0 < s.threads.countP (·.seen.decides) :=
    List.countP_pos_iff.mpr ⟨thread, member, decides⟩
  rw [orderly.exclusive] at counted
  cases writer : (s.shared.locks .requests).writer with
  | true => rfl
  | false => simp [writer] at counted

theorem spawn (orderly : Orderly s) {program : Process Unit} (runs : Runs program) :
    Orderly { s with threads := s.threads ++ [⟨program, .nothing⟩] } := by
  refine ⟨?_, ?_, ?_, ?_⟩
  · refine List.forall_mem_append.mpr ⟨orderly.tracked, ?_⟩
    intro thread member
    rw [List.mem_singleton.mp member]
    exact (Tracks.of_runs runs).weaken fun _ _ _ => trivial
  · refine List.forall_mem_append.mpr ⟨orderly.secured, ?_⟩
    intro thread member
    rw [List.mem_singleton.mp member]
    exact nofun
  · intro thread member heading headed
    obtain known | new := List.mem_append.mp member
    · refine List.forall_mem_append.mpr ⟨orderly.apart thread known heading headed, ?_⟩
      intro other new
      rw [List.mem_singleton.mp new]
      exact nofun
    · rw [List.mem_singleton.mp new] at headed
      cases headed
  · simpa [Holding.decides, Holding.nothing] using orderly.exclusive

/-- What a thread heads for after an action of its own is no rival of the others. -/
theorem headed (orderly : Orderly s) {seen : Holding} {program : Process Unit} {note : Note}
    (member : ⟨program, seen⟩ ∈ s.threads) (apart : Apart s note) {heading : Heading}
    (headed : (seen.see note).heading = some heading) :
    ∀ other ∈ s.threads, other.seen.heading ≠ some heading.rival := by
  obtain rfl | before := heading_see headed
  · exact apart
  · exact orderly.apart _ member heading before

theorem run (orderly : Orderly s) {input : Reading} {note : Note} {ready : Guarded → Bool}
    {act : Reading → Guarded → Guarded} {next : Reading → Guarded → Process Unit}
    {seen : Holding} (here : s.threads[index]? = some ⟨.act note ready act next, seen⟩)
    (enabled : ready s.shared = true) (apart : Apart s note) :
    Orderly { shared := act input s.shared
              threads := s.threads.set index ⟨next input s.shared, seen.see note⟩ } := by
  have member := List.mem_of_getElem? here
  obtain ⟨granted, later⟩ :=
    (orderly.tracked _ member).2 input s.shared enabled (orderly.secured _ member) trivial
  have others : ∀ heading, (seen.see note).heading = some heading →
      ∀ other ∈ s.threads, other.seen.heading ≠ some heading.rival :=
    fun _ => orderly.headed member apart
  refine ⟨?_, ?_, ?_, ?_⟩
  · intro thread present
    obtain old | rfl := List.mem_or_eq_of_mem_set present
    · exact orderly.tracked thread old
    · exact later
  · intro thread present
    obtain old | rfl := List.mem_or_eq_of_mem_set present
    · exact orderly.secured thread old
    · exact granted.secured
  · intro thread present heading headed other present' rival
    obtain old | rfl := List.mem_or_eq_of_mem_set present
    · obtain old' | rfl := List.mem_or_eq_of_mem_set present'
      · exact orderly.apart thread old heading headed other old' rival
      · refine others heading.rival rival thread old ?_
        cases heading <;> exact headed
    · obtain old' | rfl := List.mem_or_eq_of_mem_set present'
      · exact others heading headed other old' rival
      · rw [rival] at headed
        cases heading <;> cases headed
  · have moved := countP_set_add (fun thread : Thread Guarded Reading Note Unit Holding =>
      thread.seen.decides) here ⟨next input s.shared, seen.see note⟩
    have balance := granted.balance (orderly.held member)
    have exclusive := orderly.exclusive
    dsimp only at moved balance exclusive ⊢
    omega

theorem of_reachable {pairingTtl : Nat}
    (reached : ((pairings pairingTtl).restrict KeepsApart).Reachable s) : Orderly s := by
  refine reached.invariant (P := Orderly) ?_ ?_
  · rintro s ⟨empty, begun⟩
    have empty : s.threads = [] := empty
    refine ⟨by simp [empty], by simp [empty], by simp [empty], ?_⟩
    rw [empty, begun]
    rfl
  · rintro s label t orderly ⟨apart, step⟩
    cases step with
    | spawn program runs => exact orderly.spawn runs
    | run index input note ready act next seen here enabled =>
      exact orderly.run here enabled (apart _ _ _ _ _ here)
    | background shared never => cases never

end Orderly

/-! ## No deadlock -/

/-- What a waiting thread asks for and holds. -/
theorem Orderly.waits {index : Nat} (orderly : Orderly s) {wanted : Lock} {mode : Mode}
    (waiting : waitsFor s index = some (wanted, mode)) :
    ∃ thread ∈ s.threads, holds s index = thread.seen.locks ∧
      Waits thread.seen (.acquire wanted mode) := by
  rw [waitsFor] at waiting
  split at waiting
  · next lock mode' ready act next seen here =>
      split at waiting
      · cases waiting
      · next blocked =>
          cases waiting
          have member := List.mem_of_getElem? here
          refine ⟨_, member, by simp only [holds, here], ?_⟩
          exact (orderly.tracked _ member).1 s.shared (by simpa using blocked)
  · cases waiting

/-- A pairing and a clearing would both have the requests for themselves. -/
theorem Orderly.alone (orderly : Orderly s)
    {thread other : Thread Guarded Reading Note Unit Holding} (member : thread ∈ s.threads)
    (pairs : thread.seen.heading = some .pairing) (member' : other ∈ s.threads) :
    other.seen.heading ≠ some .clearing := by
  intro clears
  have once : s.threads.countP (·.seen.decides) ≤ 1 := by
    rw [orderly.exclusive]
    exact Bool.toNat_le _
  obtain rfl := eq_of_countP_le_one once member (orderly.secured thread member (.inl pairs))
    member' (orderly.secured other member' (.inr clears))
  cases pairs.symm.trans clears

/-- The order of the locks while a code is about to be removed, while a device is about to be
paired, and otherwise. -/
def rank (clearing pairing : Bool) : Lock → Nat
  | .devices => if pairing then 2 else 0
  | .requests => 1
  | .codes => if clearing then 2 else 0

/-- Whether some thread is heading there. -/
def heads (s : LockPool) (heading : Heading) : Bool :=
  s.threads.any fun thread => thread.seen.heading = some heading

theorem heads_eq_true {thread : Thread Guarded Reading Note Unit Holding}
    (member : thread ∈ s.threads) (headed : thread.seen.heading = some heading) :
    heads s heading = true :=
  List.any_eq_true.mpr ⟨thread, member, decide_eq_true headed⟩

theorem heads_eq_false (nobody : ∀ thread ∈ s.threads, thread.seen.heading ≠ some heading) :
    heads s heading = false :=
  List.any_eq_false.mpr fun thread member => by simpa using nobody thread member

/-- While rivals keep apart, no set of operations waits for each other's locks. -/
theorem pairings_not_deadlocked {pairingTtl : Nat} {s : LockPool}
    (reached : ((pairings pairingTtl).restrict KeepsApart).Reachable s) (members : Set Nat) :
    ¬ Deadlocked (waitsFor s) (holds s) members := by
  have orderly := Orderly.of_reachable reached
  refine not_deadlocked_of_rank (rank (heads s .clearing) (heads s .pairing)) 2 ?_ ?_ members
  · intro lock
    cases lock <;> cases heads s .clearing <;> cases heads s .pairing <;> decide
  · intro index wanted mode waiting held member
    obtain ⟨⟨program, seen⟩, present, same, waits⟩ := orderly.waits waiting
    rw [same] at member
    have rivals := orderly.apart _ present
    cases waits with
    | empty => cases member
    | lookUp =>
      cases List.mem_singleton.mp member
      have silent := heads_eq_false (rivals .lookingUp rfl)
      rw [Heading.rival] at silent
      simp [rank, silent]
    | pair =>
      have pairs := heads_eq_true present rfl
      have silent := heads_eq_false fun other => orderly.alone present rfl
      simp only [List.mem_cons, List.not_mem_nil, or_false] at member
      obtain rfl | rfl := member <;> simp [rank, pairs, silent]
    | clear locks free =>
      have clears := heads_eq_true present rfl
      have silent := heads_eq_false fun other member pairs =>
        orderly.alone member pairs present rfl
      obtain ⟨lock, mode⟩ := held
      cases lock with
      | devices => simp [rank, clears, silent]
      | requests => simp [rank, clears]
      | codes => exact absurd rfl (free _ member)
    | inspect =>
      cases List.mem_singleton.mp member
      have silent := heads_eq_false (rivals .inspecting rfl)
      rw [Heading.rival] at silent
      simp [rank, silent]

/-! ### A request that is confirmed, cancelled and looked through -/

def sampleReading : Reading := ⟨20, "request-1", 0, []⟩

abbrev LockMove : Type := Pool.Move Runs fun _ _ => False

def lockPlayer : (pairings 300).Player LockMove := Pool.player holder Runs (fun _ _ => False) _

def samplePrograms : List LockMove :=
  [.spawn _ (.initiatePairing "node-1" "laptop" "desktop"),
    .spawn _ (.confirmPairing "000000" "user-1"), .spawn _ (.cancelPairing "request-1"),
    .spawn _ (.getPairingStatus "node-1")]

def steps (index count : Nat) : List LockMove :=
  Pool.running (List.replicate count (index, sampleReading))

theorem pairings_reachable {guard : LockPool → PoolLabel Guarded Reading Note Unit → Prop} :
    ((pairings 300).restrict guard).Reachable ⟨⟨.new 300, fun _ => .free⟩, []⟩ := .init ⟨rfl, rfl⟩

/-- Whether the sample threads keep apart, by what they are about to do. -/
def admits (s : LockPool) (note : Note) (_ : Reading) : Bool :=
  match note with
  | .head heading => !heads s heading.rival
  | _ => true

theorem keepsApart_of_admits (s : LockPool) (index : Nat) (input : Reading)
    (passed : Pool.noteCheck id admits s index input = true) :
    KeepsApart s (.run index input) := by
  intro note ready act next seen here
  have admitted := Pool.admits_of_noteCheck passed here
  cases note with
  | head heading =>
    intro thread member headed
    rw [admits, heads_eq_true member headed] at admitted
    cases admitted
  | _ => trivial

/-- A reading of the status waits for a cancellation, which goes on to remove the code. -/
theorem pairings_not_deadlocked_sample :
    ∃ s : LockPool, ((pairings 300).restrict KeepsApart).Reachable s ∧
      (waitsFor s 3 = some (.requests, .read) ∧ holds s 3 = [(.devices, .read)]) ∧
      (waitsFor s 2 = none ∧ holds s 2 = [(.requests, .write)]) ∧
      ¬ Deadlocked (waitsFor s) (holds s) {2, 3} := by
  obtain ⟨s, reached, reads, cancels⟩ := (Pool.checked lockPlayer _ keepsApart_of_admits
    (fun _ _ => trivial) fun _ _ => trivial).exists_reachable pairings_reachable
    (samplePrograms ++ steps 0 10 ++ steps 2 3 ++ steps 3 3)
    (fun s : LockPool =>
      (waitsFor s 3 = some (.requests, .read) ∧ holds s 3 = [(.devices, .read)]) ∧
        waitsFor s 2 = none ∧ holds s 2 = [(.requests, .write)]) (by decide)
  exact ⟨s, reached, reads, cancels, pairings_not_deadlocked reached {2, 3}⟩

/-- A confirmation waits for a cancellation, and it for the confirmation; and likewise a
confirmation and a reading of the status. -/
theorem pairings_deadlocked :
    (∃ s, (pairings 300).Reachable s ∧ Deadlocked (waitsFor s) (holds s) {1, 2}) ∧
      ∃ s, (pairings 300).Reachable s ∧ Deadlocked (waitsFor s) (holds s) {1, 3} := by
  constructor
  · obtain ⟨s, reached, tied⟩ := lockPlayer.any.exists_reachable pairings_reachable
      (samplePrograms ++ steps 0 10 ++ steps 1 3 ++ steps 2 3)
      (fun s : LockPool => entangled (waitsFor s) (holds s) [1, 2] = true) (by decide)
    exact ⟨s, reached.of_restrict, deadlocked_of_entangled (by simp) tied⟩
  · obtain ⟨s, reached, tied⟩ := lockPlayer.any.exists_reachable pairings_reachable
      (samplePrograms ++ steps 0 10 ++ steps 1 6 ++ steps 3 3)
      (fun s : LockPool => entangled (waitsFor s) (holds s) [1, 3] = true) (by decide)
    exact ⟨s, reached.of_restrict, deadlocked_of_entangled (by simp) tied⟩

end UHorse.Security.Pairing
