import UHorse.Lib.Locks
import UHorse.Lib.Program
import UHorse.Security.Approval

/-!
# The locks of the approval manager

The operations of the manager and the expiry task of each request, as threads that
take and drop the locks of `pending`, `history` and `user_requests` around what they
read and write. Each section of an operation is the part of the uninterrupted
function that runs under its lock.

Two of them do not fit together: an approval that completes a request takes
`user_requests` while it holds `pending`, and `get_user_pending_requests` takes
them the other way round. And the expiry task asks for `pending` while it holds it.
-/

namespace UHorse.Security

open UHorse.Lib UHorse.Protocol

namespace ApprovalManager

/-- What an approval or rejection finds under the lock of `pending`. -/
inductive Verdict
  | refused
  | recorded (request : ApprovalRequest)
  | completed (request : ApprovalRequest)

def considerApproval (manager : ApprovalManager) (id approverId : String)
    (comment : Option String) (decidedAt now : Nat) : Verdict :=
  match manager.pending.lookup id with
  | none => .refused
  | some request =>
    if request.canApprove then
      match request.addDecision ⟨approverId, true, comment, decidedAt⟩ with
      | .error _ => .refused
      | .ok decided =>
        let updated := decided.updateStatus now
        if updated.isCompleted then .completed updated else .recorded updated
    else .refused

def considerRejection (manager : ApprovalManager) (id approverId : String)
    (comment : Option String) (decidedAt now : Nat) : Verdict :=
  match manager.pending.lookup id with
  | none => .refused
  | some request =>
    match request.addDecision ⟨approverId, false, comment, decidedAt⟩ with
    | .error _ => .refused
    | .ok decided => .completed (decided.updateStatus now)

def carryOut (manager : ApprovalManager) (id : String) : Verdict → ApprovalManager
  | .refused => manager
  | .recorded request => { manager with pending := manager.pending.insert id request }
  | .completed request => manager.settleAndForget id request

/-- Whether the expiry task of a request finds it waiting. -/
def awaitsDecision (manager : ApprovalManager) (id : String) : Bool :=
  (manager.pending.lookup id).any fun request => request.status = .pending

end ApprovalManager

/-! ## Operations as threads -/

inductive Lock
  | pending
  | history
  | userRequests
deriving DecidableEq, Repr

structure Guarded where
  manager : ApprovalManager
  locks : Lock → RwLock

/-- What an operation reads under a lock: the clock and the order `pending` iterates in. -/
structure Reading where
  decidedAt : Nat
  now : Nat
  clock : String → Nat
  order : List (String × ApprovalRequest)

inductive LockNote
  | acquire (lock : Lock) (mode : Mode)
  | release (lock : Lock) (mode : Mode)
  /-- A decision completes a request, whose users are to be forgotten. -/
  | settle
  /-- The expiry task looks at its request. -/
  | checkExpiry (id : String)
  | work
deriving DecidableEq

abbrev Process (α : Type) := Program Guarded Reading LockNote α

namespace Process

def acquire (lock : Lock) (mode : Mode) : Process Unit :=
  Program.await (.acquire lock mode) (fun s => (s.locks lock).admits mode) fun _ s =>
    { s with locks := Function.update s.locks lock ((s.locks lock).take mode) }

def release (lock : Lock) (mode : Mode) : Process Unit :=
  Program.update (.release lock mode)
    (fun _ s => { s with locks := Function.update s.locks lock ((s.locks lock).drop mode) })
    fun _ _ => ()

def modify (note : LockNote) (change : ApprovalManager → ApprovalManager) : Process Unit :=
  Program.update note (fun _ s => { s with manager := change s.manager }) fun _ _ => ()

def look {α : Type} (note : LockNote) (value : Reading → ApprovalManager → α) : Process α :=
  Program.query note fun reading s => value reading s.manager

def removePending (note : LockNote) (id : String) : Process Unit :=
  modify note fun manager => { manager with pending := manager.pending.erase id }

def archive (id : String) (request : ApprovalRequest) : Process Unit := do
  acquire .history .write
  modify .work fun manager => { manager with history := manager.history.insert id request }
  release .history .write

def createRequest (action requestedBy : String) (level : ApprovalLevel)
    (requiredApprovers : List Approver) (metadata : Json) (id : String) (now : Nat) :
    Process Unit := do
  let request :=
    { ApprovalRequest.new id action requestedBy level requiredApprovers now with
      metadata := metadata }
  let automatic ← look .work fun _ manager =>
    manager.ruleEngine.evaluateAutoApprove metadata ||
      manager.ruleEngine.evaluateAutoReject metadata
  if automatic then pure ()
  else
    acquire .pending .write
    modify .work fun manager => { manager with pending := manager.pending.insert id request }
    release .pending .write
    acquire .userRequests .write
    modify .work fun manager =>
      { manager with
        userRequests :=
          ApprovalManager.indexRequest manager.userRequests id request.approverIds }
    release .userRequests .write

/-- The rest of an approval or rejection, under the lock of `pending`. -/
def carryOut (id : String) : ApprovalManager.Verdict → Process Unit
  | .refused => pure ()
  | .recorded request =>
    modify .work fun manager => { manager with pending := manager.pending.insert id request }
  | .completed request => do
      removePending .settle id
      archive id request
      acquire .userRequests .write
      modify .work fun manager =>
        { manager with userRequests := ApprovalManager.forgetRequest manager.userRequests id }
      release .userRequests .write

def approveRequest (id approverId : String) (comment : Option String) : Process Unit := do
  acquire .pending .write
  let verdict ← look .work fun reading manager =>
    manager.considerApproval id approverId comment reading.decidedAt reading.now
  carryOut id verdict
  release .pending .write

def rejectRequest (id approverId : String) (comment : Option String) : Process Unit := do
  acquire .pending .write
  let verdict ← look .work fun reading manager =>
    manager.considerRejection id approverId comment reading.decidedAt reading.now
  carryOut id verdict
  release .pending .write

/-- Move a request that is still pending to `history` with a final status. -/
def close (id : String) (status : ApprovalStatus) : Process Unit := do
  let found ← look .work fun _ manager => manager.pending.lookup id
  match found with
  | some request =>
    removePending .work id
    archive id { request with status := status }
  | none => pure ()

def cancelRequest (id : String) : Process Unit := do
  acquire .pending .write
  close id .cancelled
  release .pending .write

def closeAll : List String → Process Unit
  | [] => pure ()
  | id :: ids => do
      close id .timedOut
      closeAll ids

def cleanupExpired : Process Unit := do
  acquire .pending .write
  let expired ← look .work fun reading _ =>
    ApprovalManager.expiredIds reading.order reading.clock
  closeAll expired
  release .pending .write

def getUserPendingRequests (user : String) : Process Unit := do
  acquire .userRequests .read
  acquire .pending .read
  let _ ← look .work fun _ manager => manager.getUserPendingRequests user
  release .pending .read
  release .userRequests .read

def getRequest (id : String) : Process Unit := do
  acquire .pending .read
  acquire .history .read
  let _ ← look .work fun _ manager => manager.getRequest id
  release .history .read
  release .pending .read

def listPending : Process Unit := do
  acquire .pending .read
  let _ ← look .work fun reading _ => ApprovalManager.listPending reading.order
  release .pending .read

/-- The task that `create_request` starts for the expiry of the request. -/
def expireRequest (id : String) : Process Unit := do
  acquire .pending .write
  let waiting ← look (.checkExpiry id) fun _ manager => manager.awaitsDecision id
  if waiting then
    modify .work fun manager => manager.expireRequest id
    acquire .pending .write
    let found ← look .work fun _ manager => manager.pending.lookup id
    removePending .work id
    release .pending .write
    match found with
    | some request => archive id request
    | none => pure ()
  else pure ()
  release .pending .write

end Process

/-- The operations and the expiry tasks. What they return is not followed here. -/
inductive Runs : Process Unit → Prop
  | createRequest (action requestedBy : String) (level : ApprovalLevel)
      (requiredApprovers : List Approver) (metadata : Json) (id : String) (now : Nat) :
      Runs (.createRequest action requestedBy level requiredApprovers metadata id now)
  | approveRequest (id approverId : String) (comment : Option String) :
      Runs (.approveRequest id approverId comment)
  | rejectRequest (id approverId : String) (comment : Option String) :
      Runs (.rejectRequest id approverId comment)
  | cancelRequest (id : String) : Runs (.cancelRequest id)
  | cleanupExpired : Runs .cleanupExpired
  | getUserPendingRequests (user : String) : Runs (.getUserPendingRequests user)
  | getRequest (id : String) : Runs (.getRequest id)
  | listPending : Runs .listPending
  | expireRequest (id : String) : Runs (.expireRequest id)

/-- The locks a thread holds; whether it completes a request and has yet to forget its
users; and whether it has the lock of the index but not that of `pending` it needs next. -/
structure Holding where
  locks : List (Lock × Mode)
  deciding : Bool
  listing : Bool

namespace Holding

def nothing : Holding := ⟨[], false, false⟩

def see (holding : Holding) : LockNote → Holding
  | .acquire .pending mode =>
    { holding with locks := (.pending, mode) :: holding.locks, listing := false }
  | .acquire .history mode => { holding with locks := (.history, mode) :: holding.locks }
  | .acquire .userRequests .read =>
    { holding with locks := (.userRequests, .read) :: holding.locks, listing := true }
  | .acquire .userRequests .write =>
    { holding with locks := (.userRequests, .write) :: holding.locks, deciding := false }
  | .release lock mode => { holding with locks := holding.locks.erase (lock, mode) }
  | .settle => { holding with deciding := true }
  | .checkExpiry _ | .work => holding

end Holding

def holder : Observer Guarded Reading LockNote Holding where
  start := .nothing
  see holding note _ _ := holding.see note

abbrev LockPool := Pool Guarded Reading LockNote Unit Holding

/-- All interleavings of operations on a new manager. -/
def approvals (ruleEngine : ApprovalRuleEngine) :
    System LockPool (PoolLabel Guarded Reading LockNote Unit) :=
  Pool.system holder Runs (fun _ _ => False) fun s => s = ⟨.new ruleEngine, fun _ => .free⟩

/-- The lock a thread waits for: it asks for it and cannot have it. -/
def waitsFor (s : LockPool) (index : Nat) : Option (Lock × Mode) :=
  match s.threads[index]? with
  | some ⟨.act (.acquire lock mode) ready _ _, _⟩ =>
    if ready s.shared then none else some (lock, mode)
  | _ => none

def holds (s : LockPool) (index : Nat) : List (Lock × Mode) :=
  match s.threads[index]? with
  | some thread => thread.seen.locks
  | none => []

/-- Expiry tasks find their request decided, and decisions that complete a request and
`get_user_pending_requests` keep apart between their two locks. -/
def Apart (s : LockPool) : LockNote → Prop
  | .checkExpiry id => s.shared.manager.awaitsDecision id = false
  | .settle => ∀ thread ∈ s.threads, thread.seen.listing = false
  | .acquire .userRequests .read => ∀ thread ∈ s.threads, thread.seen.deciding = false
  | _ => True

def KeepsApart (s : LockPool) : PoolLabel Guarded Reading LockNote Unit → Prop
  | .run index _ => ∀ note ready act next seen,
      s.threads[index]? = some ⟨.act note ready act next, seen⟩ → Apart s note
  | _ => True

/-! ## What a waiting thread holds -/

/-- The locks a thread may hold while it waits for another one. -/
inductive Waits : Holding → LockNote → Prop
  | empty (deciding listing : Bool) (lock : Lock) (mode : Mode) :
      Waits ⟨[], deciding, listing⟩ (.acquire lock mode)
  | archive (mode mode' : Mode) (deciding listing : Bool) :
      Waits ⟨[(.pending, mode)], deciding, listing⟩ (.acquire .history mode')
  | forget (listing : Bool) :
      Waits ⟨[(.pending, .write)], true, listing⟩ (.acquire .userRequests .write)
  | list (deciding : Bool) :
      Waits ⟨[(.userRequests, .read)], deciding, true⟩ (.acquire .pending .read)

def lockContract : Contract Guarded Reading LockNote Holding where
  relies _ _ := True
  expects _ note _ s := ∀ id, note = .checkExpiry id → s.manager.awaitsDecision id = false
  waits holding note _ := Waits holding note
  grants _ _ _ _ _ := True

/-- The program waits only as it may, and ends with the locks of `after`. -/
def Tracks {α : Type} (program : Process α) (before after : Holding) : Prop :=
  program.Keeps holder lockContract before fun _ final => final = after

namespace Tracks

variable {α β : Type} {before middle after : Holding}

theorem pure (value : α) : Tracks (Pure.pure value) before before :=
  Program.Keeps.pure rfl

theorem bind {program : Process α} {rest : α → Process β} (first : Tracks program before middle)
    (second : ∀ value, Tracks (rest value) middle after) :
    Tracks (program >>= rest) before after := by
  refine Program.Keeps.bind first ?_
  rintro value final rfl
  exact second value

theorem acquire {lock : Lock} {mode : Mode} (waits : Waits before (.acquire lock mode)) :
    Tracks (Process.acquire lock mode) before (before.see (.acquire lock mode)) :=
  Program.Keeps.await (fun _ _ => waits) (fun _ _ _ _ => trivial) fun _ _ _ _ => rfl

theorem release (lock : Lock) (mode : Mode) :
    Tracks (Process.release lock mode) before (before.see (.release lock mode)) :=
  Program.Keeps.update (fun _ _ _ _ => trivial) fun _ _ _ _ => rfl

theorem modify (note : LockNote) (change : ApprovalManager → ApprovalManager) :
    Tracks (Process.modify note change) before (before.see note) :=
  Program.Keeps.update (fun _ _ _ _ => trivial) fun _ _ _ _ => rfl

theorem look (note : LockNote) (value : Reading → ApprovalManager → α) :
    Tracks (Process.look note value) before (before.see note) :=
  Program.Keeps.update (fun _ _ _ _ => trivial) fun _ _ _ _ => rfl

/-- The locks of a decision that has not yet forgotten the users. -/
theorem archive {mode : Mode} {deciding listing : Bool} (id : String)
    (request : ApprovalRequest) :
    Tracks (Process.archive id request) ⟨[(.pending, mode)], deciding, listing⟩
      ⟨[(.pending, mode)], deciding, listing⟩ :=
  (acquire (.archive _ _ _ _)).bind fun _ => (modify _ _).bind fun _ => release _ _

theorem createRequest (action requestedBy : String) (level : ApprovalLevel)
    (requiredApprovers : List Approver) (metadata : Json) (id : String) (now : Nat) :
    Tracks (Process.createRequest action requestedBy level requiredApprovers metadata id now)
      .nothing .nothing := by
  refine (look _ _).bind fun automatic => ?_
  split
  · exact pure _
  · exact (acquire (.empty _ _ _ _)).bind fun _ => (modify _ _).bind fun _ =>
      (release _ _).bind fun _ => (acquire (.empty _ _ _ _)).bind fun _ =>
      (modify _ _).bind fun _ => release _ _

theorem removePending (note : LockNote) (id : String) :
    Tracks (Process.removePending note id) before (before.see note) := modify note _

theorem enter {mode : Mode} :
    Tracks (Process.acquire .pending mode) .nothing ⟨[(.pending, mode)], false, false⟩ :=
  acquire (.empty _ _ _ _)

theorem leave {mode : Mode} :
    Tracks (Process.release .pending mode) ⟨[(.pending, mode)], false, false⟩ .nothing := by
  have dropped : Holding.see ⟨[(.pending, mode)], false, false⟩ (.release .pending mode) =
      .nothing := by
    simp [Holding.see, Holding.nothing]
  rw [← dropped]
  exact release _ _

theorem carryOut (id : String) (verdict : ApprovalManager.Verdict) :
    Tracks (Process.carryOut id verdict) ⟨[(.pending, .write)], false, false⟩
      ⟨[(.pending, .write)], false, false⟩ := by
  cases verdict with
  | refused => exact pure _
  | recorded request =>
    exact modify .work fun manager =>
      { manager with pending := manager.pending.insert id request }
  | completed request =>
    exact (removePending _ _).bind fun _ => (archive _ _).bind fun _ =>
      (acquire (.forget _)).bind fun _ => (modify _ _).bind fun _ => release _ _

theorem close (id : String) (status : ApprovalStatus) :
    Tracks (Process.close id status) ⟨[(.pending, .write)], false, false⟩
      ⟨[(.pending, .write)], false, false⟩ := by
  refine (look _ _).bind fun found => ?_
  cases found with
  | none => exact pure _
  | some request => exact (removePending _ _).bind fun _ => archive _ _

theorem closeAll (ids : List String) :
    Tracks (Process.closeAll ids) ⟨[(.pending, .write)], false, false⟩
      ⟨[(.pending, .write)], false, false⟩ := by
  induction ids with
  | nil => exact pure _
  | cons id ids ih => exact (close id _).bind fun _ => ih

/-- The task finds its request decided and drops the lock again. -/
theorem expireRequest (id : String) :
    Tracks (Process.expireRequest id) .nothing .nothing := by
  have checked : (Process.look (.checkExpiry id) fun _ manager =>
      manager.awaitsDecision id).Keeps holder lockContract ⟨[(.pending, .write)], false, false⟩
        fun waiting final => waiting = false ∧ final = ⟨[(.pending, .write)], false, false⟩ := by
    refine Program.Keeps.update (fun _ _ _ _ => trivial) ?_
    intro reading s _ expected
    exact ⟨expected id rfl, rfl⟩
  refine enter.bind fun _ => Program.Keeps.bind checked ?_
  rintro waiting final ⟨rfl, rfl⟩
  exact leave

/-- Every operation holds no lock when it returns, and waits only as it may. -/
theorem of_runs {program : Process Unit} (runs : Runs program) :
    Tracks program .nothing .nothing := by
  cases runs with
  | createRequest => exact createRequest _ _ _ _ _ _ _
  | approveRequest id =>
    exact enter.bind fun _ => (look _ _).bind fun verdict => (carryOut id verdict).bind fun _ =>
      leave
  | rejectRequest id =>
    exact enter.bind fun _ => (look _ _).bind fun verdict => (carryOut id verdict).bind fun _ =>
      leave
  | cancelRequest id => exact enter.bind fun _ => (close id _).bind fun _ => leave
  | cleanupExpired =>
    exact enter.bind fun _ => (look _ _).bind fun expired => (closeAll expired).bind fun _ =>
      leave
  | getUserPendingRequests =>
    exact (acquire (.empty _ _ _ _)).bind fun _ => (acquire (.list _)).bind fun _ =>
      (look _ _).bind fun _ => (release _ _).bind fun _ => release _ _
  | getRequest =>
    exact enter.bind fun _ => (acquire (.archive _ _ _ _)).bind fun _ => (look _ _).bind fun _ =>
      (release _ _).bind fun _ => leave
  | listPending => exact enter.bind fun _ => (look _ _).bind fun _ => leave
  | expireRequest id => exact expireRequest id

end Tracks

/-! ## No deadlock -/

/-- Every thread waits only as it may, and no decision is under way while the index is
being read. -/
structure Orderly (s : LockPool) : Prop where
  tracked : ∀ thread ∈ s.threads,
    thread.program.Keeps holder lockContract thread.seen fun _ _ => True
  apart : ∀ thread ∈ s.threads, thread.seen.deciding = true →
    ∀ other ∈ s.threads, other.seen.listing = false

namespace Orderly

variable {s : LockPool} {index : Nat}

theorem spawn (orderly : Orderly s) {program : Process Unit} (runs : Runs program) :
    Orderly { s with threads := s.threads ++ [⟨program, .nothing⟩] } := by
  refine ⟨?_, ?_⟩
  · refine List.forall_mem_append.mpr ⟨orderly.tracked, ?_⟩
    intro thread member
    rw [List.mem_singleton.mp member]
    exact (Tracks.of_runs runs).weaken fun _ _ _ => trivial
  · intro thread member deciding
    have known : thread ∈ s.threads := by
      obtain known | new := List.mem_append.mp member
      · exact known
      · rw [List.mem_singleton.mp new] at deciding
        cases deciding
    refine List.forall_mem_append.mpr ⟨orderly.apart thread known deciding, ?_⟩
    intro other new
    rw [List.mem_singleton.mp new]
    rfl

/-- What a thread has seen after an action of its own keeps it apart from the others. -/
theorem see_apart (orderly : Orderly s) {seen : Holding} {program : Process Unit}
    {note : LockNote} (member : ⟨program, seen⟩ ∈ s.threads) (apart : Apart s note) :
    ((seen.see note).deciding = true → (∀ other ∈ s.threads, other.seen.listing = false) ∧
      (seen.see note).listing = false) ∧
    ((seen.see note).listing = true → ∀ other ∈ s.threads, other.seen.deciding = false) := by
  have quiet : seen.deciding = true →
      (∀ other ∈ s.threads, other.seen.listing = false) ∧ seen.listing = false := by
    intro deciding
    have others := orderly.apart _ member deciding
    exact ⟨others, others _ member⟩
  have alone : seen.listing = true → ∀ other ∈ s.threads, other.seen.deciding = false := by
    intro listing other present
    by_contra deciding
    have silent := orderly.apart other present (by simpa using deciding) _ member
    rw [listing] at silent
    cases silent
  cases note with
  | acquire lock mode =>
    cases lock with
    | pending => exact ⟨fun deciding => ⟨(quiet deciding).1, rfl⟩, nofun⟩
    | history => exact ⟨quiet, alone⟩
    | userRequests =>
      cases mode with
      | read =>
        have silent : seen.deciding = false := apart _ member
        refine ⟨?_, fun _ => apart⟩
        intro deciding
        cases silent.symm.trans deciding
      | write => exact ⟨nofun, alone⟩
  | release => exact ⟨quiet, alone⟩
  | settle =>
    have silent : seen.listing = false := apart _ member
    refine ⟨fun _ => ⟨apart, silent⟩, ?_⟩
    intro listing
    cases silent.symm.trans listing
  | checkExpiry => exact ⟨quiet, alone⟩
  | work => exact ⟨quiet, alone⟩

theorem run (orderly : Orderly s) {input : Reading} {note : LockNote} {ready : Guarded → Bool}
    {act : Reading → Guarded → Guarded} {next : Reading → Guarded → Process Unit}
    {seen : Holding} (here : s.threads[index]? = some ⟨.act note ready act next, seen⟩)
    (enabled : ready s.shared = true) (apart : Apart s note) :
    Orderly { shared := act input s.shared
              threads := s.threads.set index ⟨next input s.shared, seen.see note⟩ } := by
  have member := List.mem_of_getElem? here
  obtain ⟨decides, lists⟩ := orderly.see_apart member apart
  refine ⟨?_, ?_⟩
  · intro thread present
    obtain old | rfl := List.mem_or_eq_of_mem_set present
    · exact orderly.tracked thread old
    · have expected : lockContract.expects seen note input s.shared := by
        rintro id rfl
        exact apart
      exact ((orderly.tracked _ member).2 input s.shared enabled trivial expected).2
  · intro thread present deciding other present'
    obtain old | rfl := List.mem_or_eq_of_mem_set present
    · obtain old' | rfl := List.mem_or_eq_of_mem_set present'
      · exact orderly.apart thread old deciding other old'
      · by_contra listing
        have silent := lists (by simpa using listing) thread old
        rw [deciding] at silent
        cases silent
    · obtain ⟨others, own⟩ := decides deciding
      obtain old' | rfl := List.mem_or_eq_of_mem_set present'
      · exact others other old'
      · exact own

theorem of_reachable {ruleEngine : ApprovalRuleEngine}
    (reached : ((approvals ruleEngine).restrict KeepsApart).Reachable s) : Orderly s := by
  refine reached.invariant (P := Orderly) ?_ ?_
  · rintro s ⟨empty, -⟩
    exact ⟨by simp [empty], by simp [empty]⟩
  · rintro s label t orderly ⟨apart, step⟩
    cases step with
    | spawn program runs => exact orderly.spawn runs
    | run index input note ready act next seen here enabled =>
      exact orderly.run here enabled (apart _ _ _ _ _ here)
    | background shared never => cases never

/-- What a waiting thread asks for and holds. -/
theorem waits (orderly : Orderly s) {wanted : Lock} {mode : Mode}
    (waiting : waitsFor s index = some (wanted, mode)) :
    ∃ thread ∈ s.threads, holds s index = thread.seen.locks ∧
      Waits thread.seen (.acquire wanted mode) := by
  unfold waitsFor at waiting
  split at waiting
  · next lock mode' ready act next seen here =>
      split at waiting
      · cases waiting
      · next blocked =>
          cases waiting
          have member := List.mem_of_getElem? here
          refine ⟨_, member, by simp only [holds, here], ?_⟩
          exact (orderly.tracked _ member).1 s.shared (by simpa using blocked)
  · cases waiting

end Orderly

/-- The order of the locks while no decision clears the index, and while one does. -/
def rank (deciding : Bool) : Lock → Nat
  | .userRequests => if deciding then 1 else 0
  | .pending => if deciding then 0 else 1
  | .history => 2

/-- No set of operations waits for each other's locks. -/
theorem approvals_not_deadlocked {ruleEngine : ApprovalRuleEngine} {s : LockPool}
    (reached : ((approvals ruleEngine).restrict KeepsApart).Reachable s) (members : Set Nat) :
    ¬ Deadlocked (waitsFor s) (holds s) members := by
  have orderly := Orderly.of_reachable reached
  let deciding := s.threads.any fun thread => thread.seen.deciding
  refine not_deadlocked_of_rank (rank deciding) 2 ?_ ?_ members
  · intro lock
    cases lock <;> cases deciding <;> decide
  · intro index wanted mode waiting held member
    obtain ⟨⟨program, seen⟩, present, same, waits⟩ := orderly.waits waiting
    rw [same] at member
    cases waits with
    | empty => cases member
    | archive =>
      cases List.mem_singleton.mp member
      cases deciding <;> simp [rank]
    | forget =>
      have decides : deciding = true := List.any_eq_true.mpr ⟨_, present, rfl⟩
      cases List.mem_singleton.mp member
      rw [decides]
      decide
    | list =>
      have silent : deciding = false := by
        refine List.any_eq_false.mpr ?_
        intro other known decides
        cases orderly.apart other known decides _ present
      cases List.mem_singleton.mp member
      rw [silent]
      decide

/-! ### A request that is approved, listed and expires -/

def sampleReading : Reading := ⟨20, 20, fun _ => 20, []⟩

abbrev LockMove : Type := Pool.Move Runs fun _ _ => False

def lockPlayer : (approvals .new).Player LockMove := Pool.player holder Runs (fun _ _ => False) _

/-- A request is stored. -/
def samplePrograms : List LockMove :=
  [.spawn _ (.createRequest "deploy" "user-001" .single [⟨"admin-001", "Admin", "admin"⟩]
      (.object []) "request-1" 10),
    .spawn _ (.approveRequest "request-1" "admin-001" none),
    .spawn _ (.getUserPendingRequests "admin-001"), .spawn _ (.expireRequest "request-1")]

def steps (index count : Nat) : List LockMove :=
  Pool.running (List.replicate count (index, sampleReading))

theorem approvals_reachable {guard : LockPool → PoolLabel Guarded Reading LockNote Unit → Prop} :
    ((approvals .new).restrict guard).Reachable ⟨⟨.new .new, fun _ => .free⟩, []⟩ :=
  .init ⟨rfl, rfl⟩

/-- Whether the sample threads keep apart, by what they are about to do. -/
def admits (s : LockPool) (note : LockNote) (_ : Reading) : Bool :=
  match note with
  | .checkExpiry id => !s.shared.manager.awaitsDecision id
  | .settle => s.threads.all fun thread => !thread.seen.listing
  | .acquire .userRequests .read => s.threads.all fun thread => !thread.seen.deciding
  | _ => true

theorem keepsApart_of_admits (s : LockPool) (index : Nat) (input : Reading)
    (passed : Pool.noteCheck id admits s index input = true) :
    KeepsApart s (.run index input) := by
  intro note ready act next seen here
  have admitted := Pool.admits_of_noteCheck passed here
  unfold admits at admitted
  unfold Apart
  split <;> simp_all

theorem approvals_not_deadlocked_sample :
    ∃ s : LockPool, ((approvals .new).restrict KeepsApart).Reachable s ∧
      waitsFor s 3 = some (.pending, .write) ∧ holds s 1 = [(.pending, .write)] ∧
      ¬ Deadlocked (waitsFor s) (holds s) {1, 3} := by
  obtain ⟨s, reached, waits, held⟩ := (Pool.checked lockPlayer _ keepsApart_of_admits
    (fun _ _ => trivial) fun _ _ => trivial).exists_reachable approvals_reachable
    (samplePrograms ++ steps 0 7 ++ steps 1 3)
    (fun s : LockPool => waitsFor s 3 = some (.pending, .write) ∧
      holds s 1 = [(.pending, .write)]) (by decide)
  exact ⟨s, reached, waits, held, approvals_not_deadlocked reached {1, 3}⟩

/-- The expiry task waits for itself; an approval and a listing wait for each other. -/
theorem approvals_deadlocked :
    (∃ s, (approvals .new).Reachable s ∧ Deadlocked (waitsFor s) (holds s) {3}) ∧
      ∃ s, (approvals .new).Reachable s ∧ Deadlocked (waitsFor s) (holds s) {1, 2} := by
  constructor
  · obtain ⟨s, reached, tied⟩ := lockPlayer.any.exists_reachable approvals_reachable
      (samplePrograms ++ steps 0 7 ++ steps 3 3)
      (fun s : LockPool => entangled (waitsFor s) (holds s) [3] = true) (by decide)
    exact ⟨s, reached.of_restrict, deadlocked_of_entangled (by simp) tied⟩
  · obtain ⟨s, reached, tied⟩ := lockPlayer.any.exists_reachable approvals_reachable
      (samplePrograms ++ steps 0 7 ++ steps 2 1 ++ steps 1 6)
      (fun s : LockPool => entangled (waitsFor s) (holds s) [1, 2] = true) (by decide)
    exact ⟨s, reached.of_restrict, deadlocked_of_entangled (by simp) tied⟩

end UHorse.Security
