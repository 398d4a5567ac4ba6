import UHorse.Hub.DingTalk.Lanes

/-!
# Ended turns

A turn that is completed, failed or cancelled should stay so until the next message
starts another one. The operations of the session runtime write the status whatever
it was, so this rests on who performs them when. A handler that holds the lane of a
session knows that its turn has not ended, as long as operations from outside the
lane leave ended turns alone and end a turn only while the lane is free, and as long
as a result is taken up only into a turn that has not come to an answer.
-/

namespace UHorse.Hub

/-- The turn came to an answer or failed. -/
def TurnStatus.concluded : TurnStatus → Bool
  | .completed | .failed => true
  | _ => false

def TurnStatus.ended (status : TurnStatus) : Bool :=
  status.concluded || decide (status = .cancelled)

namespace DingTalk

open UHorse.Lib UHorse.Protocol

/-! ## Statuses -/

def Web.status (s : Web) (key : String) : Option TurnStatus := (s.core key).map TurnCore.status

def Web.Concluded (s : Web) (key : String) : Prop := (s.status key).any TurnStatus.concluded = true

def Web.Ended (s : Web) (key : String) : Prop := (s.status key).any TurnStatus.ended = true

/-- A cancelled turn is marked, which is what the handler of a result looks at. -/
def Web.Marked (s : Web) : Prop :=
  ∀ key core, s.core key = some core → core.status = .cancelled → core.cancelRequested = true

/-- The result of the task can be taken up: the turn has no answer yet, and if it was
cancelled, the record of the task is there. -/
def Resumable (s : Web) (taskId : TaskId) (key : String) : Prop :=
  ¬ s.Concluded key ∧ (s.status key = some .cancelled → taskId ∈ s.completed)

section Statuses

variable {s t : Web} {key : String}

theorem Web.Concluded.ended (concluded : s.Concluded key) : s.Ended key := by
  obtain ⟨status, found, holds⟩ := (Option.any_eq_true _ _).mp concluded
  refine (Option.any_eq_true _ _).mpr ⟨status, found, ?_⟩
  rw [TurnStatus.ended, holds, Bool.true_or]

theorem ended_iff : s.Ended key ↔ s.Concluded key ∨ s.status key = some .cancelled := by
  rw [Web.Ended, Web.Concluded]
  cases s.status key with
  | none => simp
  | some status => simp [TurnStatus.ended]

theorem ended_congr (same : t.status key = s.status key) : t.Ended key ↔ s.Ended key := by
  rw [Web.Ended, same, Web.Ended]

theorem concluded_congr (same : t.status key = s.status key) :
    t.Concluded key ↔ s.Concluded key := by
  rw [Web.Concluded, same, Web.Concluded]

theorem not_ended_of_status {status : TurnStatus} (active : status.ended = false)
    (found : ∀ other, s.status key = some other → other = status) : ¬ s.Ended key := by
  intro ended
  obtain ⟨other, here, holds⟩ := (Option.any_eq_true _ _).mp ended
  rw [found other here, active] at holds
  cases holds

theorem Resumable.congr {taskId : TaskId} (resumable : Resumable s taskId key)
    (same : t.status key = s.status key) (completed : t.completed = s.completed) :
    Resumable t taskId key := by
  refine ⟨fun concluded => resumable.1 ((concluded_congr same).mp concluded), ?_⟩
  rw [same, completed]
  exact resumable.2

theorem Resumable.of_active {taskId : TaskId} (active : ¬ s.Ended key) :
    Resumable s taskId key := by
  refine ⟨fun concluded => active concluded.ended, ?_⟩
  intro cancelled
  exact absurd (ended_iff.mpr (.inr cancelled)) active

theorem status_of_core (same : t.core key = s.core key) : t.status key = s.status key := by
  rw [Web.status, same, Web.status]

/-- A change to the turn of one session. -/
theorem core_updateTurn (s : Web) (holder : String)
    (change : SessionTurnState → SessionTurnState) (key : String) :
    Web.core { s with runtime := s.runtime.updateTurn holder change } key =
      if key = holder then (s.runtime.turnState holder).map fun turn => turnCore (change turn)
      else s.core key := by
  rw [Web.core]
  rw [SessionRuntime.turnState_updateTurn]
  split
  · rw [Option.map_map]
    rfl
  · rfl

variable {holder : String} {change : SessionTurnState → SessionTurnState}

theorem core_updateTurn_of_ne (distinct : key ≠ holder)
    (change : SessionTurnState → SessionTurnState) :
    Web.core { s with runtime := s.runtime.updateTurn holder change } key = s.core key := by
  rw [core_updateTurn, if_neg distinct]

/-- The status a change to a turn writes. -/
theorem status_updateTurn {written : TurnStatus} (writes : ∀ turn, (change turn).status = written)
    (status : TurnStatus)
    (found : Web.status { s with runtime := s.runtime.updateTurn holder change } holder =
      some status) : status = written := by
  rw [Web.status] at found
  rw [core_updateTurn, if_pos rfl] at found
  obtain ⟨core, before, rfl⟩ := Option.map_eq_some_iff.mp found
  obtain ⟨turn, -, rfl⟩ := Option.map_eq_some_iff.mp before
  exact writes turn

/-- A change that writes no status keeps it. -/
theorem status_updateTurn_of_keeps (keeps : ∀ turn, (change turn).status = turn.status) :
    Web.status { s with runtime := s.runtime.updateTurn holder change } key = s.status key := by
  unfold Web.status
  rw [core_updateTurn]
  split
  · next same =>
      subst same
      unfold Web.core
      cases s.runtime.turnState key with
      | none => rfl
      | some turn => exact congrArg some (keeps turn)
  · rfl

theorem Web.Marked.updateTurn (marked : s.Marked)
    (marks : ∀ turn, (change turn).status = .cancelled → (change turn).cancelRequested = true ∨
      (turn.status = .cancelled ∧ (change turn).cancelRequested = turn.cancelRequested)) :
    Web.Marked { s with runtime := s.runtime.updateTurn holder change } := by
  intro key core found cancelled
  rw [core_updateTurn] at found
  split at found
  · obtain ⟨turn, before, rfl⟩ := Option.map_eq_some_iff.mp found
    obtain marked' | ⟨already, same⟩ := marks turn cancelled
    · exact marked'
    · have old : s.core holder = some (turnCore turn) := by
        rw [Web.core, before, Option.map_some]
      exact same.trans (marked holder _ old already)
  · exact marked key core found cancelled

/-- A change that writes another status. -/
theorem Web.Marked.updateTurn_of_writes (marked : s.Marked) {written : TurnStatus}
    (writes : ∀ turn, (change turn).status = written) (other : written ≠ .cancelled) :
    Web.Marked { s with runtime := s.runtime.updateTurn holder change } := by
  refine marked.updateTurn fun turn cancelled => ?_
  exact absurd ((writes turn).symm.trans cancelled) other

end Statuses

/-! ## What a handler knows at its stage -/

/-- The handler works on the turn of the session, which has not ended. -/
def Stage.Works (stage : Stage) (key : String) : Prop :=
  match stage with
  | opened source | greeting source | planning source _ | counted source | calling source
  | submitted source _ | inserted source _ _ => source.key = key
  | answering source holder | spoken source holder => source.key = key ∧ holder = key
  | orphaned _ binding | uncancelled _ binding => binding.sessionKey = key
  | _ => False

/-- The result that the handler has got the lane for. -/
def Stage.holds : Stage → Option (TaskId × String)
  | holding taskId binding => some (taskId, binding.sessionKey)
  | _ => none

/-- The session of a result whose record was found. -/
def Stage.records : Stage → Option String
  | recorded _ binding => some binding.sessionKey
  | _ => none

/-- The task whose binding the handler has taken, as long as that matters. -/
def Stage.task : Stage → Option TaskId
  | took taskId _ | holding taskId _ => some taskId
  | _ => none

variable {stage : Stage} {key : String}

theorem lane_of_works (works : stage.Works key) : stage.lane = some key := by
  cases stage with
  | answering source holder => exact congrArg some works.1
  | spoken source holder => exact congrArg some works.1
  | opened | greeting | planning | counted | calling | submitted | inserted | orphaned
  | uncancelled => exact congrArg some works
  | _ => cases works

theorem lane_of_holds {taskId : TaskId} (holds : stage.holds = some (taskId, key)) :
    stage.lane = some key := by
  cases stage with
  | holding => cases holds; rfl
  | _ => cases holds

theorem lane_of_records (records : stage.records = some key) : stage.lane = some key := by
  cases stage with
  | recorded => cases records; rfl
  | _ => cases records

structure Rely (s : Web) (stage : Stage) : Prop where
  works : ∀ key, stage.Works key → ¬ s.Ended key
  holds : ∀ taskId key, stage.holds = some (taskId, key) → Resumable s taskId key
  records : ∀ key, stage.records = some key → ¬ s.Concluded key

section Moves

variable {stage after : Stage} {note : Note} {env : WebEnv} {s t : Web}

theorem Rely.congr (rely : Rely s stage) (status : ∀ key, t.status key = s.status key)
    (completed : t.completed = s.completed) : Rely t stage where
  works key works ended := rely.works key works ((ended_congr (status key)).mp ended)
  holds taskId key holds := (rely.holds taskId key holds).congr (status key) completed
  records key records concluded :=
    rely.records key records ((concluded_congr (status key)).mp concluded)

/-- What others do to the session of a lane leaves its turn active or as it is. -/
theorem Rely.elsewhere (rely : Rely s stage)
    (lane : ∀ key, stage.lane = some key → t.status key = s.status key ∨ ¬ t.Ended key)
    (completed : t.completed = s.completed) : Rely t stage := by
  refine ⟨?_, ?_, ?_⟩
  · intro key works
    obtain same | active := lane key (lane_of_works works)
    · rw [ended_congr same]
      exact rely.works key works
    · exact active
  · intro taskId key holds
    obtain same | active := lane key (lane_of_holds holds)
    · exact (rely.holds taskId key holds).congr same completed
    · exact .of_active active
  · intro key records
    obtain same | active := lane key (lane_of_records records)
    · rw [concluded_congr same]
      exact rely.records key records
    · exact fun concluded => active concluded.ended

/-- No action touches the scheduler's records. -/
theorem Move.completed (move : Move stage note env s after t) : t.completed = s.completed := by
  cases move with
  | quiet _ same => exact same.completed
  | _ => rfl

/-- The status of a session's turn is kept, unless a turn starts, or the handler works on the
turn or comes from outside the lane. -/
theorem Move.status (move : Move stage note env s after t) (key : String) :
    t.status key = s.status key ∨ note = .start key ∨ stage.Works key ∨
      stage.lane ≠ some key := by
  have elsewhere : ∀ (holder : String) (change : SessionTurnState → SessionTurnState),
      key ≠ holder →
      Web.status { s with runtime := s.runtime.updateTurn holder change } key = s.status key := by
    intro holder change distinct
    exact status_of_core (core_updateTurn_of_ne distinct change)
  have started : ∀ holder turnId text, key ≠ holder →
      Web.status { s with runtime := s.runtime.startTurn holder turnId text } key =
        s.status key := by
    intro holder turnId text distinct
    apply status_of_core
    show (Finmap.lookup key (s.runtime.turns.insert holder _)).map turnCore = _
    rw [HashMap.lookup_insert_ite, if_neg distinct]
    rfl
  cases move with
  | quiet _ same => exact .inl (status_of_core (same.turns key))
  | @start inbound _ _ _ =>
    by_cases mine : key = inbound.sessionKey
    · exact .inr (.inl (by rw [mine]))
    · exact .inl (started _ _ _ mine)
  | @greet inbound _ _ _ =>
    by_cases mine : key = inbound.sessionKey
    · exact .inr (.inl (by rw [mine]))
    · exact .inl (started _ _ _ mine)
  | @resume taskId binding _ _ =>
    by_cases mine : key = binding.sessionKey
    · exact .inr (.inr (.inl mine.symm))
    · exact .inl (elsewhere _ _ mine)
  | @call source _ _ _ =>
    by_cases mine : key = source.key
    · exact .inr (.inr (.inl mine.symm))
    · exact .inl (elsewhere _ _ mine)
  | count _ _ => exact .inl (status_updateTurn_of_keeps fun _ => rfl)
  | exhaust => exact .inl (status_updateTurn_of_keeps fun _ => rfl)
  | @bound source taskId binding _ _ =>
    by_cases mine : key = binding.sessionKey
    · by_cases own : source.key = key
      · exact .inr (.inr (.inl own))
      · exact .inr (.inr (.inr fun lane => own (Option.some.inj lane)))
    · exact .inl (elsewhere _ _ mine)
  | @complete source holder _ _ _ =>
    by_cases mine : key = holder
    · by_cases own : source.key = key
      · exact .inr (.inr (.inl ⟨own, mine.symm⟩))
      · exact .inr (.inr (.inr fun lane => own (Option.some.inj lane)))
    · exact .inl (elsewhere _ _ mine)
  | @completeOrphan taskId binding _ _ =>
    by_cases mine : key = binding.sessionKey
    · exact .inr (.inr (.inl mine.symm))
    · exact .inl (elsewhere _ _ mine)
  | @failOrphan taskId binding _ _ =>
    by_cases mine : key = binding.sessionKey
    · exact .inr (.inr (.inl mine.symm))
    · exact .inl (elsewhere _ _ mine)
  | approve => exact .inr (.inr (.inr nofun))
  | cancel => exact .inr (.inr (.inr nofun))
  | _ => exact .inl rfl

theorem Move.marked (move : Move stage note env s after t) (marked : s.Marked) : t.Marked := by
  have started : ∀ holder turnId text,
      Web.Marked { s with runtime := s.runtime.startTurn holder turnId text } := by
    intro holder turnId text key core found cancelled
    have lookup : (Finmap.lookup key (s.runtime.turns.insert holder _)).map turnCore =
      some core := found
    rw [HashMap.lookup_insert_ite] at lookup
    split at lookup
    · cases lookup
      cases cancelled
    · exact marked key core lookup cancelled
  cases move with
  | quiet _ same =>
    intro key core found
    rw [same.turns] at found
    exact marked key core found
  | start => exact started _ _ _
  | greet => exact started _ _ _
  | resume => exact marked.updateTurn_of_writes (fun _ => rfl) (by decide)
  | count _ _ => exact marked.updateTurn fun _ cancelled => .inr ⟨cancelled, rfl⟩
  | exhaust => exact marked.updateTurn fun _ cancelled => .inr ⟨cancelled, rfl⟩
  | call => exact marked.updateTurn_of_writes (fun _ => rfl) (by decide)
  | bound => exact marked.updateTurn_of_writes (fun _ => rfl) (by decide)
  | complete => exact marked.updateTurn_of_writes (fun _ => rfl) (by decide)
  | completeOrphan => exact marked.updateTurn_of_writes (fun _ => rfl) (by decide)
  | failOrphan => exact marked.updateTurn_of_writes (fun _ => rfl) (by decide)
  | approve => exact marked.updateTurn_of_writes (fun _ => rfl) (by decide)
  | cancel => exact marked.updateTurn fun _ _ => .inl rfl
  | _ => exact marked

/-- What a handler knows after its own action. Only a result that gets the lane has to be
told that it can be taken up. -/
theorem Move.rely (move : Move stage note env s after t) (rely : Rely s stage) (marked : s.Marked)
    (resumable : ∀ taskId key, stage.task = some taskId → note = .lock key →
      Resumable s taskId key) : Rely t after := by
  have started : ∀ holder turnId text,
      ¬ Web.Ended { s with runtime := s.runtime.startTurn holder turnId text } holder := by
    intro holder turnId text
    have planning : TurnStatus.planning.ended = false := rfl
    apply not_ended_of_status planning
    intro status found
    have lookup : ((Finmap.lookup holder (s.runtime.turns.insert holder _)).map turnCore).map
      TurnCore.status = some status := found
    rw [HashMap.lookup_insert_ite, if_pos rfl] at lookup
    cases lookup
    rfl
  have kept : ∀ (key holder : String) (change : SessionTurnState → SessionTurnState),
      (∀ turn, (change turn).status = turn.status) → ¬ s.Ended key →
      ¬ Web.Ended { s with runtime := s.runtime.updateTurn holder change } key := by
    intro key holder change keeps active
    rwa [ended_congr (status_updateTurn_of_keeps keeps)]
  cases move with
  | quiet _ same => exact rely.congr (fun key => status_of_core (same.turns key)) same.completed
  | start => exact ⟨by rintro key rfl; exact started _ _ _, nofun, nofun⟩
  | greet => exact ⟨by rintro key rfl; exact started _ _ _, nofun, nofun⟩
  | transcribe => exact ⟨rely.works, nofun, nofun⟩
  | greeted => exact ⟨fun key works => rely.works key works.1, nofun, nofun⟩
  | hold _ =>
    refine ⟨nofun, ?_, nofun⟩
    rintro taskId key ⟨⟩
    exact resumable _ _ rfl rfl
  | record _ =>
    refine ⟨nofun, nofun, ?_⟩
    rintro key ⟨⟩
    exact (rely.holds _ _ rfl).1
  | orphan missing =>
    refine ⟨?_, nofun, nofun⟩
    rintro key rfl ended
    obtain ⟨unconcluded, recorded⟩ := rely.holds _ _ rfl
    obtain concluded | cancelled := ended_iff.mp ended
    · exact unconcluded concluded
    · exact missing (recorded cancelled)
  | goOn active =>
    refine ⟨?_, nofun, nofun⟩
    rintro key rfl ended
    obtain concluded | cancelled := ended_iff.mp ended
    · exact rely.records _ rfl concluded
    · obtain ⟨core, found, status⟩ := Option.map_eq_some_iff.mp cancelled
      have requested := marked _ core found status
      obtain ⟨turn, here, rfl⟩ := Option.map_eq_some_iff.mp found
      rw [here] at active
      exact Bool.noConfusion (requested.symm.trans active)
  | resume =>
    refine ⟨?_, nofun, nofun⟩
    rintro key rfl
    exact not_ended_of_status rfl (status_updateTurn fun _ => rfl)
  | plan _ => exact ⟨rely.works, nofun, nofun⟩
  | count _ _ =>
    exact ⟨fun key works => kept key _ _ (fun _ => rfl) (rely.works key works), nofun, nofun⟩
  | exhaust =>
    exact ⟨fun key works => kept key _ _ (fun _ => rfl) (rely.works key works.1), nofun, nofun⟩
  | call =>
    refine ⟨?_, nofun, nofun⟩
    rintro key rfl
    exact not_ended_of_status rfl (status_updateTurn fun _ => rfl)
  | submit => exact ⟨rely.works, nofun, nofun⟩
  | bind _ _ _ => exact ⟨rely.works, nofun, nofun⟩
  | perform => exact ⟨fun key works => rely.works key works.1, nofun, nofun⟩
  | conclude => exact ⟨fun key works => rely.works key works.1, nofun, nofun⟩
  | answer => exact ⟨rely.works, nofun, nofun⟩
  | _ => exact ⟨nofun, nofun, nofun⟩

/-- A task is submitted by a handler that works on the turn of its lane. -/
theorem Move.works_of_submit (move : Move stage .submit env s after t) {key : String}
    (lane : stage.lane = some key) : stage.Works key := by
  cases move with
  | quiet ordinary _ => cases ordinary
  | submit => exact Option.some.inj lane

end Moves

/-! ## Considerate runs -/

/-- The lane a handler holds, and the task whose binding it has taken. -/
structure Standing where
  lane : Option String
  took : Option TaskId
deriving DecidableEq

def standing : Observer Web WebEnv Note Standing where
  start := ⟨none, none⟩
  see seen note _ _ :=
    match note with
    | .lock key => { seen with lane := some key }
    | .unlock _ => { seen with lane := none }
    | .take taskId => { seen with took := some taskId }
    | _ => seen

abbrev StatusPool : Type := Pool Web WebEnv Note Outcome Standing

/-- From outside the lane of a session a status is written only to a turn that has not ended,
and a turn is ended only while nobody holds the lane. -/
def ConsiderateTo (key : String) (s t : Web) : Prop :=
  t.status key = s.status key ∨ (¬ s.Ended key ∧ (t.Ended key → key ∉ s.lanes))

/-- Approval requests, cancellations and continuations under another session's key come while
the turn of the session has not ended, and do not end it under the hands of a handler; the
results of tasks come while they can be taken up, and their records stay until they are. -/
def Considerate (s : StatusPool) : PoolLabel Web WebEnv Note Outcome → Prop
  | .spawn _ => True
  | .run index env => ∀ note ready act next seen,
      s.threads[index]? = some ⟨.act note ready act next, seen⟩ →
        (∀ key, seen.lane ≠ some key → ConsiderateTo key s.shared (act env s.shared)) ∧
        ∀ key taskId, note = .lock key → seen.took = some taskId → Resumable s.shared taskId key
  | .background shared => ∀ thread ∈ s.threads, ∀ key taskId, thread.seen.lane = some key →
      thread.seen.took = some taskId → s.shared.status key = some .cancelled →
        taskId ∈ s.shared.completed → taskId ∈ shared.completed

/-- What has been seen of a handler fits its stage. -/
structure Sees (seen : Standing) (stage : Stage) : Prop where
  lane : seen.lane = stage.lane
  took : ∀ taskId, stage.task = some taskId → seen.took = some taskId

theorem Sees.run {seen : Standing} {after : Stage} {note : Note} {env : WebEnv} {s t : Web}
    (sees : Sees seen stage) (move : Move stage note env s after t) :
    Sees (standing.see seen note env s) after := by
  cases move with
  | quiet ordinary _ =>
    have same : standing.see seen note env s = seen := by
      cases note <;> first | rfl | cases ordinary
    rwa [same]
  | enter _ => exact ⟨rfl, nofun⟩
  | hold _ => exact ⟨rfl, by rintro taskId ⟨⟩; exact sees.took _ rfl⟩
  | leave _ => exact ⟨rfl, nofun⟩
  | take _ => exact ⟨sees.lane, by rintro taskId ⟨⟩; rfl⟩
  | _ => exact ⟨sees.lane, nofun⟩

structure Attentive (s : Web) (crew : List (Standing × Stage)) : Prop where
  laned : Laned s crew
  marked : s.Marked
  sees : ∀ member ∈ crew, Sees member.1 member.2
  relies : ∀ member ∈ crew, Rely s member.2

theorem steers_attentive (config : WebConfig) :
    Pool.Steers standing (Spawns config) Completes (fun s => s = .empty) Considerate Move
      .blank (fun s crew _ => Attentive s crew) where
  start := by
    rintro s rfl
    exact ⟨Laned.empty _, nofun, by simp, by simp⟩
  spawn := by
    intro s crew _ program _ attentive _ spawned
    obtain ⟨stage, begins, follows⟩ := spawned.follows
    obtain ⟨idle, sees, rely⟩ :
        stage.lane = none ∧ Sees standing.start stage ∧ Rely s.shared stage := by
      obtain rfl | ⟨_, _, _, -, rfl⟩ := begins
      · exact ⟨rfl, ⟨rfl, nofun⟩, ⟨nofun, nofun, nofun⟩⟩
      · exact ⟨rfl, ⟨rfl, nofun⟩, ⟨nofun, nofun, nofun⟩⟩
    refine ⟨stage, follows, attentive.laned.spawn idle, attentive.marked, ?_, ?_⟩
    · intro member present
      obtain old | new := List.mem_append.mp present
      · exact attentive.sees member old
      · cases List.mem_singleton.mp new
        exact sees
    · intro member present
      obtain old | new := List.mem_append.mp present
      · exact attentive.relies member old
      · cases List.mem_singleton.mp new
        exact rely
  run := by
    intro s crew _ index env note ready act next seen stage after _ attentive considerate there _
      here move
    have member : (seen, stage) ∈ crew := List.mem_of_getElem? here
    have sees := attentive.sees _ member
    obtain ⟨outside, resumable⟩ := considerate note ready act next seen there
    refine ⟨attentive.laned.run here move, move.marked attentive.marked, ?_, ?_⟩
    · intro other present
      obtain old | rfl := List.mem_or_eq_of_mem_set present
      · exact attentive.sees other old
      · exact sees.run move
    · intro other present
      obtain ⟨position, found⟩ := List.mem_iff_getElem?.mp present
      by_cases moved : index = position
      · subst moved
        rw [List.getElem?_set_self', here] at found
        cases found
        exact move.rely (attentive.relies _ member) attentive.marked fun taskId key task lock =>
          resumable key taskId lock (sees.took taskId task)
      · rw [List.getElem?_set_ne moved] at found
        have old := List.mem_of_getElem? found
        refine (attentive.relies other old).elsewhere ?_ move.completed
        intro key holds
        have apart : seen.lane ≠ some key := by
          intro also
          rw [sees.lane] at also
          exact moved (attentive.laned.unique here found also holds)
        obtain same | ⟨-, free⟩ := outside key apart
        · exact .inl same
        · exact .inr fun ended => free ended (attentive.laned.taken other old key holds)
  background := by
    rintro s crew _ shared staged attentive considerate ⟨completed, rfl⟩
    refine ⟨⟨attentive.laned.alone, attentive.laned.taken⟩, attentive.marked, attentive.sees, ?_⟩
    intro member present
    have rely := attentive.relies member present
    refine ⟨rely.works, ?_, rely.records⟩
    intro taskId key holds
    obtain ⟨unconcluded, recorded⟩ := rely.holds taskId key holds
    refine ⟨unconcluded, ?_⟩
    intro cancelled
    obtain ⟨position, found⟩ := List.mem_iff_getElem?.mp present
    obtain ⟨thread, there, seen⟩ := staged.thread found
    have sees := attentive.sees member present
    refine considerate thread (List.mem_of_getElem? there) key taskId ?_ ?_ cancelled
      (recorded cancelled)
    · rw [seen, sees.lane]
      exact lane_of_holds holds
    · rw [seen]
      apply sees.took
      cases stage : member.2 with
      | holding =>
        rw [stage] at holds
        cases holds
        rfl
      | _ =>
        rw [stage] at holds
        cases holds

/-! ## Ended turns stay ended -/

/-- The step starts a turn of the session. -/
def Starts (key : String) (s : StatusPool) (label : PoolLabel Web WebEnv Note Outcome) : Prop :=
  ∃ seen, Pool.action s label = some (.start key, seen)

/-- The step submits a task for the turn of the session. -/
def Submits (key : String) (s : StatusPool) (label : PoolLabel Web WebEnv Note Outcome) : Prop :=
  ∃ seen, Pool.action s label = some (.submit, seen) ∧ seen.lane = some key

/-- The Hub while everybody is considerate. -/
def considerateSystem (config : WebConfig) :
    System StatusPool (PoolLabel Web WebEnv Note Outcome) :=
  (system config standing).restrict Considerate

section Ended

variable {config : WebConfig} {key : String} {s t : StatusPool}
  {label : PoolLabel Web WebEnv Note Outcome}

theorem step_keeps_ended (reached : (considerateSystem config).Reachable s)
    (step : (considerateSystem config).Step s label t) (unstarted : ¬ Starts key s label)
    (ended : s.shared.Ended key) : t.shared.status key = s.shared.status key := by
  obtain ⟨crew, -, staged, attentive⟩ := (steers_attentive config).of_reachable reached
  obtain ⟨considerate, step⟩ := step
  cases step with
  | spawn program can => rfl
  | background shared can =>
    obtain ⟨completed, rfl⟩ := can
    rfl
  | run index env note ready act next seen here enabled =>
    obtain ⟨stage, after, present, move, -⟩ := staged.move standing here enabled env
    have member := List.mem_of_getElem? present
    obtain same | rfl | works | outside := move.status key
    · exact same
    · exact absurd ⟨seen, Pool.action_run here⟩ unstarted
    · exact absurd ended ((attentive.relies _ member).works key works)
    · rw [← (attentive.sees _ member).lane] at outside
      obtain same | ⟨active, -⟩ := (considerate note ready act next seen here).1 key outside
      · exact same
      · exact absurd ended active

theorem step_submits_nothing (reached : (considerateSystem config).Reachable s)
    (step : (considerateSystem config).Step s label t) (ended : s.shared.Ended key) :
    ¬ Submits key s label := by
  rintro ⟨seen, submits, lane⟩
  obtain ⟨crew, -, staged, attentive⟩ := (steers_attentive config).of_reachable reached
  obtain ⟨-, step⟩ := step
  cases step with
  | spawn program can => cases submits
  | background shared can => cases submits
  | run index env note ready act next known here enabled =>
    rw [Pool.action_run here] at submits
    cases submits
    obtain ⟨stage, after, present, move, -⟩ := staged.move standing here enabled env
    have member := List.mem_of_getElem? present
    rw [(attentive.sees _ member).lane] at lane
    exact (attentive.relies _ member).works key (move.works_of_submit lane) ended

/-- Once a turn has ended, its status stays as it is and no task is submitted for it, until
another turn is started. -/
theorem ended_turn_stays (config : WebConfig) (key : String) (s t : StatusPool)
    (labels : List (PoolLabel Web WebEnv Note Outcome))
    (reached : (considerateSystem config).Reachable s)
    (run : ((considerateSystem config).restrict fun s label =>
      ¬ Starts key s label).Exec s labels t)
    (ended : s.shared.Ended key) :
    t.shared.status key = s.shared.status key ∧
      ∀ label u, (considerateSystem config).Step t label u → ¬ Submits key t label := by
  have along : (considerateSystem config).Reachable t ∧
      t.shared.status key = s.shared.status key := by
    refine run.invariant (P := fun later => (considerateSystem config).Reachable later ∧
      later.shared.status key = s.shared.status key) ?_ ⟨reached, rfl⟩
    rintro before label after ⟨there, same⟩ ⟨unstarted, step⟩
    have still : before.shared.Ended key := (ended_congr same).mpr ended
    exact ⟨there.step step, (step_keeps_ended there step unstarted still).trans same⟩
  refine ⟨along.2, ?_⟩
  intro label u step
  exact step_submits_nothing along.1 step ((ended_congr along.2).mpr ended)

end Ended

/-! ### A cancelled turn -/

instance (s : Web) (key : String) : Decidable (s.Ended key) :=
  inferInstanceAs (Decidable (_ = true))

instance (s : Web) (key : String) : Decidable (s.Concluded key) :=
  inferInstanceAs (Decidable (_ = true))

instance (key : String) (s t : Web) : Decidable (ConsiderateTo key s t) :=
  inferInstanceAs (Decidable (_ ∨ _))

instance (s : Web) (taskId : TaskId) (key : String) : Decidable (Resumable s taskId key) :=
  inferInstanceAs (Decidable (_ ∧ _))

/-- Whether the next action of a handler is considerate. -/
def checkConsiderate (s : StatusPool) (index : Nat) (env : WebEnv) : Bool :=
  match s.threads[index]? with
  | some ⟨.act note _ act _, seen⟩ =>
    decide (∀ key ∈ s.shared.runtime.turns.keys ∪ (act env s.shared).runtime.turns.keys,
      seen.lane ≠ some key → ConsiderateTo key s.shared (act env s.shared)) &&
    match note, seen.took with
    | .lock key, some taskId => decide (Resumable s.shared taskId key)
    | _, _ => true
  | _ => true

/-- Whether a step is considerate. -/
def considers (s : StatusPool) : PoolLabel Web WebEnv Note Outcome → Bool
  | .spawn _ => true
  | .run index env => checkConsiderate s index env
  | .background shared => decide (s.shared.completed.keys ⊆ shared.completed.keys)

/-- Whether a step starts no turn. -/
def startsNothing (s : StatusPool) (label : PoolLabel Web WebEnv Note Outcome) : Bool :=
  match Pool.action s label with
  | some (.start _, _) => false
  | _ => true

theorem status_of_notMem {s : Web} (absent : key ∉ s.runtime.turns.keys) : s.status key = none := by
  have missing : s.runtime.turns.lookup key = none :=
    Finmap.lookup_eq_none.mpr fun member => absent (Finmap.mem_keys.mpr member)
  rw [Web.status, Web.core, SessionRuntime.turnState, missing]
  rfl

theorem checkConsiderate_sound {s : StatusPool} {index : Nat} {env : WebEnv}
    (checked : checkConsiderate s index env = true) : Considerate s (.run index env) := by
  intro note ready act next seen here
  simp only [checkConsiderate, here] at checked
  obtain ⟨outside, result⟩ := Bool.and_eq_true_iff.mp checked
  refine ⟨?_, ?_⟩
  · intro key apart
    by_cases known : key ∈ s.shared.runtime.turns.keys ∪ (act env s.shared).runtime.turns.keys
    · exact of_decide_eq_true outside key known apart
    · rw [Finset.mem_union, not_or] at known
      exact .inl ((status_of_notMem known.2).trans (status_of_notMem known.1).symm)
  · rintro key taskId rfl took
    rw [took] at result
    exact of_decide_eq_true result

theorem considerate_of_considers (s : StatusPool) (label : PoolLabel Web WebEnv Note Outcome)
    (passed : considers s label = true) : Considerate s label := by
  cases label with
  | spawn program => trivial
  | run index env => exact checkConsiderate_sound passed
  | background shared =>
    intro thread _ key taskId _ _ _ member
    exact Finmap.mem_keys.mp (of_decide_eq_true passed (Finmap.mem_keys.mpr member))

theorem not_starts_of_startsNothing (s : StatusPool) (label : PoolLabel Web WebEnv Note Outcome)
    (passed : startsNothing s label = true) : ¬ Starts key s label := by
  rintro ⟨seen, starts⟩
  rw [startsNothing, starts] at passed
  cases passed

abbrev sampleSession : String := "dingtalk:user"

def politePlayer : (considerateSystem sampleConfig).Player SampleMove :=
  (samplePlayer standing).restrict considers considerate_of_considers

/-- No turn starts in the session of the sample. -/
def calmPlayer {M : System StatusPool (PoolLabel Web WebEnv Note Outcome)}
    (player : M.Player SampleMove) :
    (M.restrict fun s label => ¬ Starts sampleSession s label).Player SampleMove :=
  player.restrict startsNothing not_starts_of_startsNothing

/-- The task of a message is submitted and its result recorded; the cancellation of the task has
found the binding. -/
def cancelling : List SampleMove :=
  [messageArrives, resultComes, .spawn _ (.cancellation ⟨"task-1"⟩)] ++
    Pool.running (List.replicate 18 (0, submitEnv)) ++
    recordResult :: Pool.running [(2, submitEnv)]

/-- The planner decides on another task. -/
def againEnv : WebEnv := { submitEnv with uuid := "call-2", taskId := ⟨"task-2"⟩ }

/-- A turn that is cancelled while it waits for its tool stays cancelled when the result comes. -/
theorem ended_turn_stays_sample :
    ∃ s t labels, (considerateSystem sampleConfig).Reachable s ∧
      ((considerateSystem sampleConfig).restrict fun s label =>
        ¬ Starts sampleSession s label).Exec s labels t ∧
      s.shared.status sampleSession = some .cancelled ∧
      (∀ thread ∈ t.threads, thread.program.isDone = true) ∧
      t.shared.status sampleSession = s.shared.status sampleSession ∧
      ∀ label u, (considerateSystem sampleConfig).Step t label u →
        ¬ Submits sampleSession t label := by
  obtain ⟨cancelled, answered, labels, reached, run, status, finished⟩ := politePlayer.exists_exec
    (calmPlayer politePlayer) emptyPool_reachable
    (cancelling ++ Pool.running (List.replicate 2 (2, submitEnv)))
    (Pool.running (List.replicate 8 (1, finalizeEnv)))
    (fun s t => s.shared.status sampleSession = some .cancelled ∧
      ∀ thread ∈ t.threads, thread.program.isDone = true) (by decide)
  have ended : cancelled.shared.Ended sampleSession := ended_iff.mpr (.inr status)
  exact ⟨cancelled, answered, labels, reached, run, status, finished,
    ended_turn_stays sampleConfig sampleSession cancelled answered labels reached run ended⟩

/-- A turn that is cancelled while the result of its task is handled, before the planner is asked,
goes on to the next task. -/
theorem cancelled_turn_goes_on :
    ∃ s t labels, (system sampleConfig standing).Reachable s ∧
      ((system sampleConfig standing).restrict fun s label =>
        ¬ Starts sampleSession s label).Exec s labels t ∧
      s.shared.status sampleSession = some .cancelled ∧
      s.shared.drawn = [⟨"task-1"⟩] ∧ t.shared.status sampleSession = some .waitingForTool ∧
      t.shared.drawn = [⟨"task-1"⟩, ⟨"task-2"⟩] :=
  (samplePlayer standing).exists_exec (calmPlayer (samplePlayer standing))
    (s := emptyPool) (.init ⟨rfl, rfl⟩)
    (cancelling ++ Pool.running (List.replicate 5 (1, againEnv) ++ [(2, submitEnv)]))
    (Pool.running (List.replicate 14 (1, againEnv)))
    (fun s t => s.shared.status sampleSession = some .cancelled ∧
      s.shared.drawn = [⟨"task-1"⟩] ∧ t.shared.status sampleSession = some .waitingForTool ∧
      t.shared.drawn = [⟨"task-1"⟩, ⟨"task-2"⟩]) (by decide)

end DingTalk
end UHorse.Hub
