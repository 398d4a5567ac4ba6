import UHorse.Hub.DingTalk.Lanes
import Mathlib.Algebra.BigOperators.Group.Finset.Basic
import Mathlib.Algebra.Order.Group.Nat
import Mathlib.Data.Multiset.AddSub

/-!
# The agent loop is bounded

A turn goes on from the handler of its message to the handlers of its tasks' results.
The right to go on is in one place at a time: with a handler, or with the binding of
the one task whose result will bring the next handler. Each handler counts a step
before it executes one, and gives the right up with its answer.

Books are kept on every turn: the tasks submitted for it, the results taken up, the
local skills run and the final answers written by its handlers, in any transcript.
-/

namespace UHorse.Hub.DingTalk

open UHorse.Lib UHorse.Protocol

/-! ## What is counted -/

/-- A handler works for the turn of a session; until it has the lane, it waits. -/
structure Working where
  session : Option String
  waiting : Option String
  plans : Nat

def working : Observer Web WebEnv Note Working where
  start := ⟨none, none, 0⟩
  see seen note _ s :=
    match note with
    | .start key => { seen with session := some key }
    | .take taskId =>
      match s.runtime.taskBinding taskId with
      | some binding =>
        { seen with session := some binding.sessionKey, waiting := some binding.sessionKey }
      | none => seen
    | .lock _ => { seen with waiting := none }
    | .plan _ => { seen with plans := seen.plans + 1 }
    | _ => seen

/-- What has been done for the current turn of a session. -/
structure Tally where
  submitted : Multiset TaskId
  taken : Multiset TaskId
  skills : Nat
  finals : Nat

namespace Tally

def zero : Tally := ⟨0, 0, 0, 0⟩

/-- The planned steps that were executed. -/
def executed (tally : Tally) : Nat := tally.submitted.card + tally.skills

/-- The tasks whose results have not been taken up. -/
def unfinished (tally : Tally) : Multiset TaskId := tally.submitted - tally.taken

end Tally

/-- The final answers an action writes, over all transcripts. -/
def newFinals (s t : Web) : Nat :=
  ∑ key ∈ t.runtime.transcripts.keys, (t.finals key - s.finals key)

/-- What an action adds to the tally of its session. -/
def Note.tally (note : Note) (env : WebEnv) (s t : Web) (tally : Tally) : Tally :=
  match note with
  | .start _ => .zero
  | .submit => { tally with submitted := env.taskId ::ₘ tally.submitted }
  | .take taskId =>
    if (s.runtime.taskBinding taskId).isSome then
      { tally with taken := taskId ::ₘ tally.taken }
    else tally
  | .localStep => { tally with skills := tally.skills + 1 }
  | _ => { tally with finals := tally.finals + newFinals s t }

/-- One tally for each session, of its current turn. -/
def tallies : Pool.Ledger Web WebEnv Note Working (String → Tally) where
  opening _ := .zero
  enter books seen note env s t :=
    match (working.see seen note env s).session with
    | none => books
    | some key => Function.update books key (note.tally env s t (books key))

abbrev LoopPool : Type := Pool Web WebEnv Note Outcome Working

/-- A message starts a turn only when nothing of the session's last turn is left: no task is
bound, and no handler of a result waits for the lane. -/
def Uninterrupted (s : LoopPool) : PoolLabel Web WebEnv Note Outcome → Prop
  | .run index _ => ∀ note ready act next seen,
      s.threads[index]? = some ⟨.act note ready act next, seen⟩ → ∀ key, note = .start key →
        (∀ taskId binding, s.shared.runtime.taskBinding taskId = some binding →
          binding.sessionKey ≠ key) ∧
        ∀ thread ∈ s.threads, thread.seen.waiting ≠ some key
  | _ => True

/-! ## Rights -/

/-- What a handler may still do for the turn of its session. -/
inductive Right
  | plan
  | step
  | task (taskId : TaskId)
  | answer
deriving DecidableEq

def Stage.right : Stage → Option (String × Right)
  | took _ binding | holding _ binding | recorded _ binding | uncancelled _ binding =>
    some (binding.sessionKey, .plan)
  | opened source | planning source _ => some (source.key, .plan)
  | counted source | calling source => some (source.key, .step)
  | submitted source taskId => some (source.key, .task taskId)
  | greeting source | answering source _ => some (source.key, .answer)
  | _ => none

/-- The kinds of rights that are counted: any, one to submit a task, one to execute a counted
step, and one to bind a submitted task. -/
inductive Gauge
  | any
  | room
  | step
  | task (taskId : TaskId)

def Gauge.holds : Gauge → Right → Bool
  | any, _ => true
  | room, .plan | room, .step => true
  | step, .step => true
  | task taskId, .task submitted => decide (submitted = taskId)
  | _, _ => false

/-- Whether a handler at the stage has a right of the kind for the session. -/
def Stage.has (key : String) (gauge : Gauge) (stage : Stage) : Bool :=
  stage.right.any fun right => decide (right.1 = key) && gauge.holds right.2

def total (key : String) (gauge : Gauge) (crew : List (Working × Stage)) : Nat :=
  crew.countP fun member => member.2.has key gauge

section Has

variable {stage : Stage} {key holder : String} {right : Right}

theorem has_of_none (lost : stage.right = none) (gauge : Gauge) : stage.has key gauge = false := by
  rw [Stage.has, lost]
  rfl

theorem has_of_some (held : stage.right = some (key, right)) (gauge : Gauge) :
    stage.has key gauge = gauge.holds right := by
  rw [Stage.has, held]
  simp

theorem has_of_map {right : Option Right} (held : stage.right = right.map (key, ·))
    (gauge : Gauge) : stage.has key gauge = right.any gauge.holds := by
  rw [Stage.has, held]
  cases right <;> simp

theorem has_of_ne (held : stage.right = some (holder, right)) (distinct : key ≠ holder)
    (gauge : Gauge) : stage.has key gauge = false := by
  rw [Stage.has, held]
  simp [Ne.symm distinct]

/-- Every right is a right of some kind. -/
theorem has_any {gauge : Gauge} (has : stage.has key gauge = true) : stage.has key .any = true := by
  obtain ⟨⟨holder, right⟩, held, fits⟩ := (Option.any_eq_true _ _).mp has
  obtain ⟨same, -⟩ := Bool.and_eq_true_iff.mp fits
  cases of_decide_eq_true same
  rw [has_of_some held]
  rfl

theorem right_of_has {gauge : Gauge} (has : stage.has key gauge = true) :
    ∃ right, stage.right = some (key, right) := by
  obtain ⟨⟨holder, right⟩, held, fits⟩ := (Option.any_eq_true _ _).mp has
  obtain ⟨same, -⟩ := Bool.and_eq_true_iff.mp fits
  cases of_decide_eq_true same
  exact ⟨right, held⟩

end Has

theorem total_le_any (key : String) (gauge : Gauge) (crew : List (Working × Stage)) :
    total key gauge crew ≤ total key .any crew :=
  List.countP_mono_left fun _ _ has => has_any has

/-! ## What one action does -/

/-- The step counter of a session's turn, and its limit. -/
def Web.stepCount (s : Web) (key : String) : Nat := ((s.core key).map TurnCore.stepCount).getD 0

def Web.maxSteps (s : Web) (key : String) : Nat := ((s.core key).map TurnCore.maxSteps).getD 0

/-- The bindings of a session only become fewer. -/
def Fewer (key : String) (s t : Web) : Prop :=
  ∀ taskId binding, t.runtime.taskBinding taskId = some binding → binding.sessionKey = key →
    s.runtime.taskBinding taskId = some binding

/-- The counters of a session's turn do not go back. -/
def Onward (key : String) (s t : Web) : Prop :=
  s.stepCount key ≤ t.stepCount key ∧ t.maxSteps key = s.maxSteps key

/-- A right is kept, given up or turned into one to answer. -/
def Yields (stage after : Stage) : Prop :=
  after.right = stage.right ∨ after.right = none ∨
    ∃ key, stage.right = some (key, .plan) ∧ after.right = some (key, .answer)

/-- The actions that matter to the tallies, and the others. -/
inductive Deed (stage : Stage) (note : Note) (env : WebEnv) (s : Web) (after : Stage)
    (t : Web) : Prop
  | rest (yields : Yields stage after) (unrecorded : ∀ tally, note.tally env s t tally = tally)
      (fewer : ∀ key, Fewer key s t) (onward : ∀ key, Onward key s t)
  | start (key : String) (isStart : note = .start key) (before : stage.right = none)
      (right : Right) (gains : after.right = some (key, right))
      (plans : right = .plan ∨ right = .answer)
      (same : ∃ text, t = { s with runtime := s.runtime.startTurn key env.uuid text })
  | take (taskId : TaskId) (binding : TaskContinuationBinding) (isTake : note = .take taskId)
      (found : s.runtime.taskBinding taskId = some binding) (before : stage.right = none)
      (gains : after.right = some (binding.sessionKey, .plan))
      (same : t = { s with runtime := s.runtime.removeBinding (some taskId) })
  | count (key : String) (unrecorded : ∀ tally, note.tally env s t tally = tally)
      (before : stage.right = some (key, .plan)) (gains : after.right = some (key, .step))
      (same : t = { s with runtime := s.runtime.incrementStepCount key })
      (counts : t.stepCount key = s.stepCount key + 1)
      (within : t.stepCount key ≤ t.maxSteps key)
  | submit (key : String) (isSubmit : note = .submit) (before : stage.right = some (key, .step))
      (gains : after.right = some (key, .task env.taskId))
      (same : t = { s with drawn := s.drawn ++ [env.taskId] })
  | bind (key : String) (taskId : TaskId) (binding : TaskContinuationBinding)
      (isBind : note = .bind taskId binding) (session : binding.sessionKey = key)
      (before : stage.right = some (key, .task taskId)) (lost : after.right = none)
      (same : t = { s with runtime := s.runtime.insertBinding taskId binding })
  | perform (key : String) (isLocal : note = .localStep) (before : stage.right = some (key, .step))
      (gains : after.right = some (key, .answer)) (same : t = s)
  | conclude (key transcript : String) (isPlain : note = .plain) (right : Right)
      (before : stage.right = some (key, right)) (lost : after.right = none)
      (same : ∃ text, t = { s with
        runtime := s.runtime.appendTranscriptEvent transcript .assistantFinal text env.now })

/-- The notes of actions that a tally counts by themselves. -/
def Note.counted : Note → Bool
  | .start _ | .submit | .take _ | .localStep => true
  | _ => false

variable {s t : Web} {note : Note} {env : WebEnv} {key : String} {stage : Stage}

theorem newFinals_of_le (fewer : ∀ key, t.finals key ≤ s.finals key) : newFinals s t = 0 := by
  apply Finset.sum_eq_zero
  intro key _
  exact Nat.sub_eq_zero_of_le (fewer key)

theorem tally_of_uncounted (tally : Tally) (uncounted : note.counted = false) :
    note.tally env s t tally = { tally with finals := tally.finals + newFinals s t } := by
  cases note <;> first | rfl | cases uncounted

theorem unrecorded_of_le (uncounted : note.counted = false)
    (fewer : ∀ key, t.finals key ≤ s.finals key) (tally : Tally) :
    note.tally env s t tally = tally := by
  rw [tally_of_uncounted tally uncounted, newFinals_of_le fewer, Nat.add_zero]

theorem finals_of_transcripts {s t : Web} (same : t.runtime.transcripts = s.runtime.transcripts)
    (key : String) : t.finals key = s.finals key := by
  unfold Web.finals
  rw [same]

theorem onward_of_core (same : t.core key = s.core key) : Onward key s t := by
  unfold Onward Web.stepCount Web.maxSteps
  rw [same]
  exact ⟨Nat.le_refl _, rfl⟩

theorem onward_updateTurn {holder : String} {change : SessionTurnState → SessionTurnState}
    (grows : ∀ turn, turn.stepCount ≤ (change turn).stepCount)
    (keeps : ∀ turn, (change turn).maxSteps = turn.maxSteps) (key : String) :
    Onward key s { s with runtime := s.runtime.updateTurn holder change } := by
  unfold Onward Web.stepCount Web.maxSteps Web.core
  rw [SessionRuntime.turnState_updateTurn]
  split
  · next same =>
      subst same
      cases s.runtime.turnState key with
      | none => exact ⟨Nat.le_refl _, rfl⟩
      | some turn => exact ⟨grows turn, keeps turn⟩
  · exact ⟨Nat.le_refl _, rfl⟩

theorem fewer_updateTurn {holder : String} {change : SessionTurnState → SessionTurnState}
    (key : String) : Fewer key s { s with runtime := s.runtime.updateTurn holder change } := by
  intro taskId binding found _
  unfold SessionRuntime.taskBinding at found ⊢
  rwa [SessionRuntime.taskBindings_updateTurn] at found

section Deeds

variable {stage after : Stage} {note : Note} {env : WebEnv} {s t : Web}

/-- Actions that leave the session runtime alone. -/
theorem Deed.of_runtime (yields : Yields stage after) (uncounted : note.counted = false)
    (same : t.runtime = s.runtime) : Deed stage note env s after t := by
  refine .rest yields (unrecorded_of_le uncounted ?_) ?_ ?_
  · intro key
    rw [finals_of_transcripts (congrArg SessionRuntime.transcripts same)]
  · intro key taskId binding found _
    rwa [same] at found
  · intro key
    apply onward_of_core
    rw [Web.core, same, Web.core]

/-- Actions on a turn that keep its limit and do not turn the counter back. -/
theorem Deed.of_updateTurn (yields : Yields stage after) {holder : String}
    {change : SessionTurnState → SessionTurnState}
    (same : t = { s with runtime := s.runtime.updateTurn holder change })
    (grows : ∀ turn, turn.stepCount ≤ (change turn).stepCount)
    (keeps : ∀ turn, (change turn).maxSteps = turn.maxSteps) :
    Deed stage .plain env s after t := by
  subst same
  refine .rest yields (unrecorded_of_le rfl ?_) fewer_updateTurn
    (onward_updateTurn grows keeps)
  intro key
  rw [finals_of_transcripts (s.runtime.transcripts_updateTurn holder change)]

theorem Deed.of_startTranscript (yields : Yields stage after) {holder turnId text : String}
    {now : DateTime}
    (same : t = { s with runtime := s.runtime.startTranscript holder turnId text now }) :
    Deed stage .plain env s after t := by
  subst same
  refine .rest yields (unrecorded_of_le rfl ?_) ?_ ?_
  · intro key
    show ((Finmap.lookup key (s.runtime.transcripts.insert holder _)).map _).getD 0 ≤ _
    rw [HashMap.lookup_insert_ite]
    split
    · exact Nat.zero_le _
    · exact Nat.le_refl _
  · exact fun _ _ _ found _ => found
  · exact fun _ => onward_of_core rfl

end Deeds

/-- What an action does to the rights and the tallies. -/
theorem Move.deed {after : Stage} (move : Move stage note env s after t) :
    Deed stage note env s after t := by
  have kept : ∀ {stage : Stage}, Yields stage stage := .inl rfl
  cases move with
  | quiet ordinary same =>
    have uncounted : note.counted = false := by
      cases note <;> first | rfl | cases ordinary
    refine .rest kept (unrecorded_of_le uncounted ?_) ?_ ?_
    · exact fun key => Nat.le_of_eq (same.finals key)
    · exact fun key taskId binding found _ => same.bindings taskId binding found
    · exact fun key => onward_of_core (same.turns key)
  | enter _ => exact .of_runtime (.inl rfl) rfl rfl
  | receive => exact .of_runtime (.inl rfl) rfl rfl
  | start => exact .start _ rfl rfl _ rfl (.inl rfl) ⟨_, rfl⟩
  | greet => exact .start _ rfl rfl _ rfl (.inr rfl) ⟨_, rfl⟩
  | transcribe => exact .of_startTranscript (.inl rfl) rfl
  | greeted => exact .of_startTranscript (.inl rfl) rfl
  | take found => exact .take _ _ rfl found rfl rfl rfl
  | @takeNothing taskId _ _ missing =>
    refine .rest (.inl rfl) ?_ ?_ (fun _ => onward_of_core rfl)
    · intro tally
      rw [Note.tally, missing]
      rfl
    · intro key other binding found _
      exact (Quiet.removeBinding (some taskId)).bindings other binding found
  | findNothing => exact .of_runtime (.inl rfl) rfl rfl
  | findToApprove _ => exact .of_runtime (.inl rfl) rfl rfl
  | findToCancel _ => exact .of_runtime (.inl rfl) rfl rfl
  | hold _ => exact .of_runtime (.inl rfl) rfl rfl
  | record _ => exact .of_runtime (.inl rfl) rfl rfl
  | orphan _ => exact .of_runtime (.inr (.inl rfl)) rfl rfl
  | stop => exact .of_runtime (.inr (.inl rfl)) rfl rfl
  | goOn _ => exact .of_runtime (.inl rfl) rfl rfl
  | resume => exact .of_updateTurn (.inl rfl) rfl (fun _ => Nat.le_refl _) (fun _ => rfl)
  | plan _ => exact .of_runtime (.inl rfl) rfl rfl
  | @count source plans env s turn present within =>
    obtain ⟨before, found, rfl⟩ : ∃ before, s.runtime.turnState source.key = some before ∧
        { before with stepCount := before.stepCount + 1 } = turn := by
      unfold SessionRuntime.incrementStepCount at present
      rw [SessionRuntime.turnState_updateTurn, if_pos rfl] at present
      exact Option.map_eq_some_iff.mp present
    refine .count source.key (unrecorded_of_le rfl ?_) rfl rfl rfl ?_ ?_
    · intro key
      rw [finals_of_transcripts (s.runtime.transcripts_updateTurn source.key _)]
    · unfold Web.stepCount Web.core
      rw [present, found]
      rfl
    · unfold Web.stepCount Web.maxSteps Web.core
      rw [present]
      exact within
  | exhaust =>
    exact .of_updateTurn (.inr (.inr ⟨_, rfl, rfl⟩)) rfl (fun _ => Nat.le_succ _) (fun _ => rfl)
  | call => exact .of_updateTurn (.inl rfl) rfl (fun _ => Nat.le_refl _) (fun _ => rfl)
  | submit => exact .submit _ rfl rfl rfl rfl
  | bind key _ _ => exact .bind _ _ _ rfl key rfl rfl rfl
  | bound => exact .of_updateTurn (.inl rfl) rfl (fun _ => Nat.le_refl _) (fun _ => rfl)
  | perform => exact .perform _ rfl rfl rfl rfl
  | conclude => exact .conclude _ _ rfl _ rfl rfl ⟨_, rfl⟩
  | answer => exact .conclude _ _ rfl _ rfl rfl ⟨_, rfl⟩
  | complete => exact .of_updateTurn (.inl rfl) rfl (fun _ => Nat.le_refl _) (fun _ => rfl)
  | completeOrphan => exact .of_updateTurn (.inl rfl) rfl (fun _ => Nat.le_refl _) (fun _ => rfl)
  | failOrphan => exact .of_updateTurn (.inl rfl) rfl (fun _ => Nat.le_refl _) (fun _ => rfl)
  | approve => exact .of_updateTurn (.inl rfl) rfl (fun _ => Nat.le_refl _) (fun _ => rfl)
  | cancel => exact .of_updateTurn (.inl rfl) rfl (fun _ => Nat.le_refl _) (fun _ => rfl)
  | leave _ => exact .of_runtime (.inr (.inl rfl)) rfl rfl

/-! ## Rights and tallies -/

/-- Whether the task is bound for the session. -/
def Web.bindsFor (s : Web) (key : String) (taskId : TaskId) : Bool :=
  (s.runtime.taskBinding taskId).any fun binding => decide (binding.sessionKey = key)

theorem bindsFor_iff {taskId : TaskId} :
    s.bindsFor key taskId = true ↔
      ∃ binding, s.runtime.taskBinding taskId = some binding ∧ binding.sessionKey = key := by
  unfold Web.bindsFor
  rw [Option.any_eq_true]
  simp

theorem Fewer.bindsFor (fewer : Fewer key s t) {taskId : TaskId}
    (bound : t.bindsFor key taskId = true) : s.bindsFor key taskId = true := by
  obtain ⟨binding, found, session⟩ := bindsFor_iff.mp bound
  exact bindsFor_iff.mpr ⟨binding, fewer taskId binding found session, session⟩

/-- The right to go on is held once and used up by a final answer, a bound task stands for
it, every result that is taken up was submitted, and each step that is executed was counted
while the limit was not reached. -/
structure Accounted (key : String) (s : Web) (crew : List (Working × Stage)) (tally : Tally) :
    Prop where
  claims : total key .any crew + tally.finals ≤ 1
  bound : ∀ taskId, s.bindsFor key taskId = true → total key .any crew = 0 ∧ tally.finals = 0 ∧
    ∀ other, s.bindsFor key other = true → other = taskId
  tasks : ∀ taskId, tally.taken.count taskId + (s.bindsFor key taskId).toNat +
    total key (.task taskId) crew ≤ tally.submitted.count taskId
  rooms : tally.submitted.card + total key .room crew ≤ tally.taken.card + 1
  steps : tally.executed + total key .step crew ≤ s.stepCount key
  limit : tally.executed + total key .step crew ≤ s.maxSteps key

theorem Yields.has {after : Stage} (yields : Yields stage after) {gauge : Gauge}
    (has : after.has key gauge = true) : stage.has key gauge = true := by
  obtain same | lost | ⟨holder, before, later⟩ := yields
  · rwa [Stage.has, ← same]
  · rw [has_of_none lost] at has
    cases has
  · by_cases mine : key = holder
    · subst mine
      rw [has_of_some later] at has
      rw [has_of_some before]
      cases gauge <;> first | rfl | cases has
    · rw [has_of_ne later mine] at has
      cases has

namespace Accounted

variable {key : String} {s t : Web} {crew crew' : List (Working × Stage)} {tally : Tally}

theorem empty (key : String) : Accounted key .empty [] .zero := by
  refine ⟨Nat.zero_le _, nofun, fun _ => Nat.le_refl _, Nat.zero_le _, Nat.le_refl _,
    Nat.le_refl _⟩

/-- Nothing is lost while no right is gained, no binding is made and no counter goes back. -/
theorem calm (kept : Accounted key s crew tally)
    (less : ∀ gauge, total key gauge crew' ≤ total key gauge crew) (fewer : Fewer key s t)
    (onward : Onward key s t) : Accounted key t crew' tally := by
  refine ⟨?_, ?_, ?_, ?_, ?_, ?_⟩
  · have before := kept.claims
    have claims := less .any
    omega
  · intro taskId bound
    obtain ⟨unclaimed, unanswered, only⟩ := kept.bound taskId (fewer.bindsFor bound)
    have claims := less .any
    refine ⟨by omega, unanswered, fun other also => only other (fewer.bindsFor also)⟩
  · intro taskId
    have before := kept.tasks taskId
    have pending := less (.task taskId)
    have binds : (t.bindsFor key taskId).toNat ≤ (s.bindsFor key taskId).toNat := by
      cases bound : t.bindsFor key taskId with
      | false => exact Nat.zero_le _
      | true => rw [fewer.bindsFor bound]
    omega
  · have before := kept.rooms
    have rooms := less .room
    omega
  · have before := kept.steps
    have steps := less .step
    have counter := onward.1
    omega
  · have before := kept.limit
    have steps := less .step
    have limit := onward.2
    omega

variable {index : Nat} {seen later : Working} {stage after : Stage}

theorem total_set (key : String) (later : Working) (after : Stage)
    (here : crew[index]? = some (seen, stage)) (gauge : Gauge) :
    total key gauge (crew.set index (later, after)) + (stage.has key gauge).toNat =
      total key gauge crew + (after.has key gauge).toNat :=
  countP_set_add (fun member : Working × Stage => member.2.has key gauge) here (later, after)

/-- Handlers gain no right by an action after which they hold none they did not hold. -/
theorem total_le (here : crew[index]? = some (seen, stage))
    (less : ∀ gauge, after.has key gauge = true → stage.has key gauge = true) (gauge : Gauge) :
    total key gauge (crew.set index (later, after)) ≤ total key gauge crew := by
  have counted := total_set key later after here gauge
  cases has : after.has key gauge with
  | false =>
    rw [has] at counted
    exact Nat.le_of_add_right_le (Nat.le_of_eq counted)
  | true =>
    rw [has, less gauge has] at counted
    omega

/-- The counts after the right of a handler has changed, or was gained or lost. -/
theorem total_turn (before next : Option Right) (later : Working)
    (here : crew[index]? = some (seen, stage)) (held : stage.right = before.map (key, ·))
    (gains : after.right = next.map (key, ·)) (gauge : Gauge) :
    total key gauge (crew.set index (later, after)) + (before.any gauge.holds).toNat =
      total key gauge crew + (next.any gauge.holds).toNat := by
  have counted := total_set key later after here gauge
  rwa [has_of_map held, has_of_map gains] at counted

variable {right : Right} {taskId : TaskId}

/-- Nothing is bound for a session of which some handler holds a right. -/
theorem unbound (kept : Accounted key s crew tally) (here : crew[index]? = some (seen, stage))
    (held : stage.right = some (key, right)) (taskId : TaskId) : s.bindsFor key taskId = false := by
  cases bound : s.bindsFor key taskId with
  | false => rfl
  | true =>
    obtain ⟨unclaimed, -, -⟩ := kept.bound taskId bound
    have some : 0 < total key .any crew :=
      List.countP_pos_iff.mpr ⟨_, List.mem_of_getElem? here, has_of_some held .any⟩
    omega

theorem still_unbound (kept : Accounted key s crew tally) (here : crew[index]? = some (seen, stage))
    (held : stage.right = some (key, right)) (fewer : Fewer key s t) (taskId : TaskId) :
    t.bindsFor key taskId = false := by
  cases bound : t.bindsFor key taskId with
  | false => rfl
  | true =>
    have before := fewer.bindsFor bound
    rw [kept.unbound here held] at before
    cases before

/-- What is to be shown while no task of the session is bound. -/
theorem of_unbound (unbound : ∀ taskId, s.bindsFor key taskId = false)
    (claims : total key .any crew + tally.finals ≤ 1)
    (tasks : ∀ taskId, tally.taken.count taskId + total key (.task taskId) crew ≤
      tally.submitted.count taskId)
    (rooms : tally.submitted.card + total key .room crew ≤ tally.taken.card + 1)
    (steps : tally.executed + total key .step crew ≤ s.stepCount key)
    (limit : tally.executed + total key .step crew ≤ s.maxSteps key) :
    Accounted key s crew tally := by
  refine ⟨claims, ?_, ?_, rooms, steps, limit⟩
  · intro taskId bound
    rw [unbound] at bound
    cases bound
  · intro taskId
    rw [unbound]
    exact tasks taskId

/-- A turn starts when no handler holds a right for its session and nothing is bound. -/
theorem start (here : crew[index]? = some (seen, stage)) (held : stage.right = none)
    (gains : after.right = some (key, right)) (plans : right = .plan ∨ right = .answer)
    (unclaimed : total key .any crew = 0) (unbound : ∀ taskId, t.bindsFor key taskId = false) :
    Accounted key t (crew.set index (later, after)) .zero := by
  have moved : ∀ gauge, total key gauge (crew.set index (later, after)) =
      (gauge.holds right).toNat := by
    intro gauge
    have less := total_le_any key gauge crew
    have turned := total_turn none (some right) later here held gains gauge
    rw [Option.any_none, Option.any_some, Bool.toNat_false] at turned
    omega
  have idle : Gauge.step.holds right = false ∧
      ∀ taskId, (Gauge.task taskId).holds right = false := by
    obtain rfl | rfl := plans
    · exact ⟨rfl, fun _ => rfl⟩
    · exact ⟨rfl, fun _ => rfl⟩
  apply of_unbound unbound
  · rw [moved]
    exact Nat.le_refl 1
  · intro taskId
    rw [moved, idle.2]
    exact Nat.le_refl 0
  · rw [moved]
    exact Nat.add_le_add (Nat.le_refl 0) (Bool.toNat_le _)
  · rw [moved, idle.1]
    exact Nat.zero_le _
  · rw [moved, idle.1]
    exact Nat.zero_le _

/-- The result of a bound task is taken up. -/
theorem take (kept : Accounted key s crew tally) (here : crew[index]? = some (seen, stage))
    (held : stage.right = none) (gains : after.right = some (key, .plan))
    (bound : s.bindsFor key taskId = true) (erased : ∀ other, t.bindsFor key other = true →
      other ≠ taskId ∧ s.bindsFor key other = true) (onward : Onward key s t) :
    Accounted key t (crew.set index (later, after))
      { tally with taken := taskId ::ₘ tally.taken } := by
  have moved : ∀ gauge, total key gauge (crew.set index (later, after)) =
      total key gauge crew + (gauge.holds .plan).toNat :=
    total_turn none (some .plan) later here held gains
  obtain ⟨unclaimed, unanswered, only⟩ := kept.bound taskId bound
  apply of_unbound
  · intro other
    cases also : t.bindsFor key other with
    | false => rfl
    | true => exact absurd (only other (erased other also).2) (erased other also).1
  · rw [moved, unclaimed, unanswered]
    exact Nat.le_refl 1
  · intro other
    have before := kept.tasks other
    rw [moved, Multiset.count_cons]
    show _ + (_ + 0) ≤ tally.submitted.count other
    split
    · next same =>
        rw [same, bound, Bool.toNat_true] at before
        rw [same]
        omega
    · omega
  · have before := kept.rooms
    rw [moved, Multiset.card_cons]
    show tally.submitted.card + (_ + 1) ≤ _
    omega
  · rw [moved]
    exact Nat.le_trans kept.steps onward.1
  · rw [moved, onward.2]
    exact kept.limit

/-- A step is counted while the limit is not reached. -/
theorem count (kept : Accounted key s crew tally) (here : crew[index]? = some (seen, stage))
    (held : stage.right = some (key, .plan)) (gains : after.right = some (key, .step))
    (fewer : Fewer key s t) (counts : t.stepCount key = s.stepCount key + 1)
    (within : t.stepCount key ≤ t.maxSteps key) :
    Accounted key t (crew.set index (later, after)) tally := by
  have moved := total_turn (some .plan) (some .step) later here held gains
  have steps : total key .step (crew.set index (later, after)) = total key .step crew + 1 :=
    moved .step
  have counted := kept.steps
  apply of_unbound (kept.still_unbound here held fewer)
  · rw [Nat.add_right_cancel (moved .any)]
    exact kept.claims
  · intro taskId
    have pending : total key (.task taskId) (crew.set index (later, after)) =
      total key (.task taskId) crew := moved (.task taskId)
    have before := kept.tasks taskId
    omega
  · rw [Nat.add_right_cancel (moved .room)]
    exact kept.rooms
  · omega
  · omega

/-- A handler that executes the step it counted, or answers, pays with its right for what is
entered. -/
theorem pay (kept : Accounted key s crew tally) (here : crew[index]? = some (seen, stage))
    (next : Option Right) (held : stage.right = some (key, right))
    (gains : after.right = next.map (key, ·)) (fewer : Fewer key s t) (onward : Onward key s t)
    {paid : Tally} (claims : (next.any Gauge.any.holds).toNat + paid.finals ≤ 1 + tally.finals)
    (tasks : ∀ taskId, paid.taken.count taskId + (next.any (Gauge.task taskId).holds).toNat +
      tally.submitted.count taskId ≤ paid.submitted.count taskId + tally.taken.count taskId)
    (rooms : paid.submitted.card + (next.any Gauge.room.holds).toNat + tally.taken.card ≤
      tally.submitted.card + (Gauge.room.holds right).toNat + paid.taken.card)
    (executes : paid.executed + (next.any Gauge.step.holds).toNat ≤
      tally.executed + (Gauge.step.holds right).toNat) :
    Accounted key t (crew.set index (later, after)) paid := by
  have moved := total_turn (some right) next later here held gains
  simp only [Option.any_some] at moved
  have steps := moved .step
  apply of_unbound (kept.still_unbound here held fewer)
  · have any : _ + 1 = _ := moved .any
    have before := kept.claims
    omega
  · intro taskId
    have pending := moved (.task taskId)
    have before := kept.tasks taskId
    have more := tasks taskId
    omega
  · have room := moved .room
    have before := kept.rooms
    omega
  · have before := kept.steps
    have counter := onward.1
    omega
  · have before := kept.limit
    have limit := onward.2
    omega

/-- The step that was counted submits a task. -/
theorem submit (kept : Accounted key s crew tally) (here : crew[index]? = some (seen, stage))
    (held : stage.right = some (key, .step)) (gains : after.right = some (key, .task taskId))
    (fewer : Fewer key s t) (onward : Onward key s t) :
    Accounted key t (crew.set index (later, after))
      { tally with submitted := taskId ::ₘ tally.submitted } := by
  refine kept.pay here (some _) held gains fewer onward ?_ (fun other => ?_) ?_ ?_
  · simp [Gauge.holds]
  · simp only [Option.any_some, Gauge.holds, Multiset.count_cons, eq_comm (a := taskId)]
    by_cases same : other = taskId <;> simp [same] <;> omega
  · simp [Gauge.holds]
  · simp [Gauge.holds, Tally.executed]
    omega

/-- The binding of the submitted task now stands for the right to go on. -/
theorem bind (kept : Accounted key s crew tally) (here : crew[index]? = some (seen, stage))
    (held : stage.right = some (key, .task taskId)) (lost : after.right = none)
    (bound : ∀ other, t.bindsFor key other = true → other = taskId) (onward : Onward key s t) :
    Accounted key t (crew.set index (later, after)) tally := by
  have moved := total_turn (some (.task taskId)) none later here held lost
  have any : total key .any (crew.set index (later, after)) + 1 = total key .any crew :=
    moved .any
  have claims := kept.claims
  refine ⟨by omega, ?_, ?_, ?_, ?_, ?_⟩
  · intro other also
    refine ⟨by omega, by omega, ?_⟩
    intro third more
    rw [bound third more, bound other also]
  · intro other
    have pending : total key (.task other) (crew.set index (later, after)) +
        (decide (taskId = other)).toNat = total key (.task other) crew := moved (.task other)
    have before := kept.tasks other
    cases also : t.bindsFor key other with
    | false =>
      rw [Bool.toNat_false]
      omega
    | true =>
      rw [decide_eq_true (bound other also).symm, Bool.toNat_true] at pending
      rw [Bool.toNat_true]
      omega
  · exact (Nat.add_le_add_left (Nat.le_of_eq (moved .room)) _).trans kept.rooms
  · exact (Nat.add_le_add_left (Nat.le_of_eq (moved .step)) _).trans (kept.steps.trans onward.1)
  · rw [onward.2]
    exact (Nat.add_le_add_left (Nat.le_of_eq (moved .step)) _).trans kept.limit

end Accounted

/-! ## The books after an action -/

/-- A final answer is written once. -/
theorem newFinals_append (s : Web) (transcript text : String) (now : DateTime) :
    newFinals s { s with
      runtime := s.runtime.appendTranscriptEvent transcript .assistantFinal text now } = 1 := by
  have finals : ∀ key, Web.finals { s with
      runtime := s.runtime.appendTranscriptEvent transcript .assistantFinal text now } key =
      s.finals key + if key = transcript then 1 else 0 := by
    intro key
    show ((Finmap.lookup key (s.runtime.transcripts.insert transcript _)).map _).getD 0 = _
    rw [HashMap.lookup_insert_ite]
    split
    · next same =>
        subst same
        cases found : s.runtime.transcripts.lookup key <;>
          simp [Web.finals, SessionRuntime.appendEvent, found, finalEvent]
    · rfl
  unfold newFinals
  rw [Finset.sum_eq_single transcript]
  · rw [finals, if_pos rfl]
    omega
  · intro key _ distinct
    rw [finals, if_neg distinct]
    omega
  · intro missing
    refine absurd ?_ missing
    exact HashMap.mem_of_lookup (Finmap.lookup_insert _)

section Books

variable {books : String → Tally} {seen : Working} {stage after : Stage} {note : Note}
  {env : WebEnv} {s t : Web}

theorem enter_of_session {holder : String}
    (session : (working.see seen note env s).session = some holder) :
    tallies.enter books seen note env s t =
      Function.update books holder (note.tally env s t (books holder)) := by
  simp only [tallies, session]

theorem enter_of_unrecorded (unrecorded : ∀ tally, note.tally env s t tally = tally) :
    tallies.enter books seen note env s t = books := by
  cases session : (working.see seen note env s).session with
  | none => simp only [tallies, session]
  | some holder => rw [enter_of_session session, unrecorded, Function.update_eq_self]

/-- A session other than the holder's keeps its rights and its tally. -/
theorem Accounted.elsewhere {key holder : String} {crew : List (Working × Stage)} {index : Nat}
    {later : Working} {tally : Tally} (kept : Accounted key s crew tally)
    (here : crew[index]? = some (seen, stage)) (distinct : key ≠ holder)
    (gains : ∀ other right, after.right = some (other, right) → other = holder)
    (fewer : Fewer key s t) (onward : Onward key s t) :
    Accounted key t (crew.set index (later, after)) tally := by
  refine kept.calm (total_le here ?_) fewer onward
  intro gauge has
  obtain ⟨right, held⟩ := right_of_has has
  exact absurd (gains key right held) distinct

variable {crew : List (Working × Stage)} {index : Nat} {crew' : List (Working × Stage)}

/-- The books are in order if the entry of the holder and the other tallies are. -/
theorem kept_of_entry {holder : String}
    (session : (working.see seen note env s).session = some holder)
    (mine : Accounted holder t crew' (note.tally env s t (books holder)))
    (others : ∀ key, key ≠ holder → Accounted key t crew' (books key)) (key : String) :
    Accounted key t crew' (tallies.enter books seen note env s t key) := by
  rw [enter_of_session session]
  by_cases same : key = holder
  · subst same
    rwa [Function.update_self]
  · rw [Function.update_of_ne same]
    exact others key same

/-- As `kept_of_entry`, for actions that enter nothing. -/
theorem kept_of_unrecorded (unrecorded : ∀ tally, note.tally env s t tally = tally)
    (kept : ∀ key, Accounted key t crew' (books key)) (key : String) :
    Accounted key t crew' (tallies.enter books seen note env s t key) := by
  rw [enter_of_unrecorded unrecorded]
  exact kept key

theorem onward_startTurn {key holder turnId text : String} (distinct : key ≠ holder) :
    Onward key s { s with runtime := s.runtime.startTurn holder turnId text } := by
  apply onward_of_core
  show (Finmap.lookup key (s.runtime.turns.insert holder _)).map turnCore = _
  rw [HashMap.lookup_insert_ite, if_neg distinct]
  rfl

theorem onward_incrementStepCount (holder key : String) :
    Onward key s { s with runtime := s.runtime.incrementStepCount holder } := by
  apply onward_updateTurn
  · intro turn
    exact Nat.le_succ _
  · intro turn
    rfl

theorem fewer_removeBinding (taskId : TaskId) (key : String) :
    Fewer key s { s with runtime := s.runtime.removeBinding (some taskId) } :=
  fun other binding found _ => (Quiet.removeBinding (some taskId)).bindings other binding found

/-- A binding that was taken is bound no more. -/
theorem unbound_removeBinding (taskId : TaskId) (key : String) :
    Web.bindsFor { s with runtime := s.runtime.removeBinding (some taskId) } key taskId =
      false := by
  show Option.any _ (Finmap.lookup taskId (s.runtime.taskBindings.erase taskId)) = false
  rw [HashMap.lookup_erase_ite, if_pos rfl]
  rfl

theorem lookup_insertBinding {taskId other : TaskId} {binding found : TaskContinuationBinding}
    (stored : (s.runtime.insertBinding taskId binding).taskBinding other = some found) :
    (other = taskId ∧ found = binding) ∨ s.runtime.taskBinding other = some found := by
  unfold SessionRuntime.insertBinding SessionRuntime.taskBinding at stored
  rw [HashMap.lookup_insert_ite] at stored
  split at stored
  · next same =>
      cases stored
      exact .inl ⟨same, rfl⟩
  · exact .inr stored

/-- An action keeps the books in order. -/
theorem Deed.kept (deed : Deed stage note env s after t)
    (here : crew[index]? = some (seen, stage))
    (session : ∀ key right, stage.right = some (key, right) → seen.session = some key)
    (free : ∀ key, note = .start key → total key .any crew = 0 ∧
      ∀ taskId, s.bindsFor key taskId = false)
    (kept : ∀ key, Accounted key s crew (books key)) (key : String) :
    Accounted key t (crew.set index (working.see seen note env s, after))
      (tallies.enter books seen note env s t key) := by
  have only : ∀ {holder right}, after.right = some (holder, right) →
      ∀ other right, after.right = some (other, right) → other = holder := by
    intro holder right held other right' also
    rw [held] at also
    cases also
    rfl
  have none : ∀ {holder}, after.right = none →
      ∀ other right, after.right = some (other, right) → other = holder := by
    intro holder lost other right also
    rw [lost] at also
    cases also
  cases deed with
  | rest yields unrecorded fewer onward =>
    refine kept_of_unrecorded unrecorded (fun key => ?_) key
    exact (kept key).calm (Accounted.total_le here fun _ => yields.has) (fewer key) (onward key)
  | start holder isStart before right gains plans same =>
    obtain ⟨text, rfl⟩ := same
    subst isStart
    obtain ⟨unclaimed, unbound⟩ := free holder rfl
    refine kept_of_entry rfl ?_ (fun key other => ?_) key
    · exact .start here before gains plans unclaimed unbound
    · exact (kept key).elsewhere here other (only gains) (fun _ _ found _ => found)
        (onward_startTurn other)
  | take taskId binding isTake found before gains same =>
    subst same isTake
    have taker : (working.see seen (.take taskId) env s).session = some binding.sessionKey := by
      simp only [working, found]
    have fewer := fewer_removeBinding (s := s) taskId
    refine kept_of_entry taker ?_ (fun key other => ?_) key
    · have counted : ∀ t tally, Note.tally (.take taskId) env s t tally =
          { tally with taken := taskId ::ₘ tally.taken } := by
        intro t tally
        simp only [Note.tally, found, Option.isSome_some, if_true]
      rw [counted]
      refine (kept _).take here before gains (bindsFor_iff.mpr ⟨binding, found, rfl⟩) ?_
        (onward_of_core rfl)
      intro other also
      refine ⟨?_, (fewer _).bindsFor also⟩
      rintro rfl
      rw [unbound_removeBinding] at also
      cases also
    · exact (kept key).elsewhere here other (only gains) (fewer key) (onward_of_core rfl)
  | count holder unrecorded before gains same counts within =>
    subst same
    refine kept_of_unrecorded unrecorded (fun key => ?_) key
    by_cases mine : key = holder
    · subst mine
      exact (kept key).count here before gains (fewer_updateTurn key) counts within
    · exact (kept key).elsewhere here mine (only gains) (fewer_updateTurn key)
        (onward_incrementStepCount holder key)
  | submit holder isSubmit before gains same =>
    subst same isSubmit
    have works : (working.see seen .submit env s).session = some holder := session holder _ before
    refine kept_of_entry works ?_ (fun key other => ?_) key
    · exact (kept holder).submit here before gains (fun _ _ found _ => found)
        (onward_of_core rfl)
    · exact (kept key).elsewhere here other (only gains) (fun _ _ found _ => found)
        (onward_of_core rfl)
  | bind holder taskId binding isBind same before lost next =>
    subst next isBind same
    have unrecorded : ∀ tally, Note.tally (.bind taskId binding) env s
        { s with runtime := s.runtime.insertBinding taskId binding } tally = tally :=
      unrecorded_of_le rfl fun _ => Nat.le_refl _
    refine kept_of_unrecorded unrecorded (fun key => ?_) key
    by_cases mine : key = binding.sessionKey
    · subst mine
      refine (kept _).bind here before lost ?_ (onward_of_core rfl)
      intro other also
      obtain ⟨found, stored, session⟩ := bindsFor_iff.mp also
      obtain ⟨isTask, -⟩ | old := lookup_insertBinding stored
      · exact isTask
      · have bound := bindsFor_iff.mpr ⟨found, old, session⟩
        rw [(kept _).unbound here before] at bound
        cases bound
    · refine (kept key).elsewhere here mine (none lost) ?_ (onward_of_core rfl)
      intro other found stored session
      obtain ⟨-, rfl⟩ | old := lookup_insertBinding stored
      · exact absurd session.symm mine
      · exact old
  | perform holder isLocal before gains same =>
    subst same isLocal
    have works : (working.see seen .localStep env t).session = some holder :=
      session holder _ before
    refine kept_of_entry works ?_ (fun key other => ?_) key
    · refine (kept holder).pay here (some _) before gains (fun _ _ found _ => found)
        (onward_of_core rfl) ?_ (fun taskId => ?_) ?_ ?_ <;>
        simp [Gauge.holds, Tally.executed, Note.tally] <;> omega
    · exact (kept key).elsewhere here other (only gains) (fun _ _ found _ => found)
        (onward_of_core rfl)
  | conclude holder transcript isPlain right before lost same =>
    obtain ⟨text, rfl⟩ := same
    subst isPlain
    have works : (working.see seen .plain env s).session = some holder := session holder _ before
    refine kept_of_entry works ?_ (fun key other => ?_) key
    · rw [tally_of_uncounted _ rfl, newFinals_append]
      refine (kept holder).pay here Option.none before lost (by exact fun _ _ found _ => found)
        (by exact onward_of_core rfl) ?_ (fun taskId => ?_) ?_ ?_
      all_goals simp [Tally.executed]
      all_goals omega
    · exact (kept key).elsewhere here other (none lost)
        (fun _ _ found _ => found) (onward_of_core rfl)

end Books

/-! ## Every run -/

/-- An upper bound of the planner calls for a result, known from the stage. -/
def Stage.plans : Stage → Nat
  | fresh | arriving _ | admitted _ | received _ | opened _ => 0
  | took .. | holding .. | recorded .. | uncancelled .. => 0
  | planning _ plans => plans
  | _ => 2

/-- The session whose lane the handler of a result still has to get. -/
def Stage.awaits : Stage → Option String
  | took _ binding => some binding.sessionKey
  | _ => none

/-- What has been seen of a handler fits its stage. -/
structure Fits (seen : Working) (stage : Stage) : Prop where
  session : ∀ key right, stage.right = some (key, right) → seen.session = some key
  waiting : ∀ key, stage.awaits = some key → seen.waiting = some key
  plans : seen.plans ≤ stage.plans
  few : stage.plans ≤ 2

section Moves

variable {stage after : Stage} {note : Note} {env : WebEnv} {s t : Web}

/-- A handler that goes on as before still fits. -/
theorem Fits.next {seen later : Working} (fits : Fits seen stage)
    (session : later.session = seen.session) (plans : later.plans = seen.plans)
    (right : after.right = none ∨ ∃ key before next, stage.right = some (key, before) ∧
      after.right = some (key, next)) (awaits : after.awaits = none)
    (room : after.plans = stage.plans ∨ after.plans = 2) : Fits later after := by
  refine ⟨?_, ?_, ?_, ?_⟩
  · intro key gained held
    obtain lost | ⟨holder, before, next, held', gains⟩ := right
    · rw [lost] at held
      cases held
    · rw [gains] at held
      cases held
      exact session.trans (fits.session _ _ held')
  · intro key waits
    rw [awaits] at waits
    cases waits
  · rw [plans]
    obtain same | most := room
    · rw [same]
      exact fits.plans
    · rw [most]
      exact Nat.le_trans fits.plans fits.few
  · obtain same | most := room
    · rw [same]
      exact fits.few
    · rw [most]

theorem Fits.run {seen : Working} (fits : Fits seen stage)
    (move : Move stage note env s after t) : Fits (working.see seen note env s) after := by
  cases move with
  | quiet ordinary _ =>
    have same : working.see seen note env s = seen := by
      cases note <;> first | rfl | cases ordinary
    rwa [same]
  | start => exact ⟨by rintro key right ⟨⟩; rfl, nofun, fits.plans, fits.few⟩
  | greet =>
    exact ⟨by rintro key right ⟨⟩; rfl, nofun, Nat.le_trans fits.plans fits.few, Nat.le_refl 2⟩
  | @take taskId binding _ _ found =>
    have taken : working.see seen (.take taskId) env s =
        { seen with session := some binding.sessionKey, waiting := some binding.sessionKey } := by
      simp only [working, found]
    rw [taken]
    exact ⟨by rintro key right ⟨⟩; rfl, by rintro key ⟨⟩; rfl, fits.plans, fits.few⟩
  | @takeNothing taskId _ _ missing =>
    have same : working.see seen (.take taskId) env s = seen := by
      simp only [working, missing]
    rw [same]
    exact fits.next rfl rfl (.inl rfl) rfl (.inr rfl)
  | plan few =>
    exact ⟨by rintro key right ⟨⟩; exact fits.session _ _ rfl, nofun,
      Nat.succ_le_succ fits.plans, few⟩
  | enter | receive => exact fits.next rfl rfl (.inl rfl) rfl (.inl rfl)
  | transcribe | hold | record | goOn | resume =>
    exact fits.next rfl rfl (.inr ⟨_, _, _, rfl, rfl⟩) rfl (.inl rfl)
  | greeted | count | exhaust | call | submit | perform =>
    exact fits.next rfl rfl (.inr ⟨_, _, _, rfl, rfl⟩) rfl (.inr rfl)
  | _ => exact fits.next rfl rfl (.inl rfl) rfl (.inr rfl)

theorem Move.of_start {key : String} (move : Move stage (.start key) env s after t) :
    stage.lane = some key ∧ stage.right = none := by
  cases move with
  | quiet ordinary _ => cases ordinary
  | start => exact ⟨rfl, rfl⟩
  | greet => exact ⟨rfl, rfl⟩

/-- A right goes with the lane, except while the handler waits for it. -/
theorem lane_of_right {key : String} {right : Right} (held : stage.right = some (key, right)) :
    stage.lane = some key ∨ stage.awaits = some key := by
  cases stage with
  | took taskId binding =>
    cases held
    exact .inr rfl
  | _ => cases held <;> exact .inl rfl

end Moves

structure Balanced (s : Web) (crew : List (Working × Stage)) (books : String → Tally) :
    Prop where
  laned : Laned s crew
  fits : ∀ member ∈ crew, Fits member.1 member.2
  kept : ∀ key, Accounted key s crew (books key)

/-- When a turn starts, nobody else has a right for its session. -/
theorem Balanced.unclaimed {s : LoopPool} {crew : List (Working × Stage)} {books : String → Tally}
    (balanced : Balanced s.shared crew books) (staged : Pool.Staged Move s crew) {index : Nat}
    {seen : Working} (here : crew[index]? = some (seen, stage)) (lane : stage.lane = some key)
    (idle : stage.right = none) (settled : ∀ thread ∈ s.threads, thread.seen.waiting ≠ some key) :
    total key .any crew = 0 := by
  apply Nat.eq_zero_of_not_pos
  intro claimed
  obtain ⟨member, present, has⟩ := List.countP_pos_iff.mp claimed
  obtain ⟨right, held⟩ := right_of_has has
  obtain ⟨position, there⟩ := List.mem_iff_getElem?.mp present
  obtain also | waits := lane_of_right held
  · have same := balanced.laned.unique here there lane also
    subst same
    rw [here] at there
    cases there
    rw [idle] at held
    cases held
  · obtain ⟨thread, found, sees⟩ := staged.thread there
    apply settled thread (List.mem_of_getElem? found)
    rw [sees, (balanced.fits member present).waiting key waits]

theorem steers_balanced (config : WebConfig) :
    Pool.Steers working (Spawns config) Completes (fun s => s = .empty) Uninterrupted Move
      tallies Balanced where
  start := by
    rintro s rfl
    exact ⟨Laned.empty _, by simp, Accounted.empty⟩
  spawn := by
    intro s crew books program _ balanced _ spawned
    obtain ⟨stage, begins, follows⟩ := spawned.follows
    obtain ⟨idle, unright, fits⟩ :
        stage.lane = none ∧ stage.right = none ∧ Fits working.start stage := by
      obtain rfl | ⟨_, _, _, -, rfl⟩ := begins
      · exact ⟨rfl, rfl, nofun, nofun, Nat.le_refl 0, Nat.zero_le 2⟩
      · exact ⟨rfl, rfl, nofun, nofun, Nat.le_refl 0, Nat.zero_le 2⟩
    refine ⟨stage, follows, balanced.laned.spawn idle, ?_, ?_⟩
    · intro member present
      obtain old | new := List.mem_append.mp present
      · exact balanced.fits member old
      · cases List.mem_singleton.mp new
        exact fits
    · intro key
      refine (balanced.kept key).calm ?_ (fun _ _ found _ => found) (onward_of_core rfl)
      intro gauge
      unfold total
      rw [List.countP_append, List.countP_singleton, has_of_none unright]
      exact Nat.le_refl _
  run := by
    intro s crew books index env note ready act next seen stage after staged balanced guarded
      there _ here move
    have member : (seen, stage) ∈ crew := List.mem_of_getElem? here
    refine ⟨balanced.laned.run here move, ?_, ?_⟩
    · intro other present
      obtain old | rfl := List.mem_or_eq_of_mem_set present
      · exact balanced.fits other old
      · exact (balanced.fits _ member).run move
    · refine move.deed.kept here (balanced.fits _ member).session ?_ balanced.kept
      rintro key rfl
      obtain ⟨free, settled⟩ := guarded _ ready act next seen there key rfl
      refine ⟨?_, ?_⟩
      · obtain ⟨lane, idle⟩ := move.of_start
        exact balanced.unclaimed staged here lane idle settled
      · intro taskId
        cases bound : s.shared.bindsFor key taskId with
        | false => rfl
        | true =>
          obtain ⟨binding, found, session⟩ := bindsFor_iff.mp bound
          exact absurd session (free taskId binding found)
  background := by
    rintro s crew books shared _ balanced _ ⟨completed, rfl⟩
    refine ⟨⟨balanced.laned.alone, balanced.laned.taken⟩, balanced.fits, ?_⟩
    intro key
    exact (balanced.kept key).calm (fun _ => Nat.le_refl _) (fun _ _ found _ => found)
      (onward_of_core rfl)

/-- The Hub while no message interrupts a turn, with books. -/
def loops (config : WebConfig) :
    System (LoopPool × (String → Tally)) (PoolLabel Web WebEnv Note Outcome) :=
  Pool.accounted working (Spawns config) Completes (fun s => s = .empty) Uninterrupted tallies

/-- For each turn at most `maxSteps` steps are executed, at most one task is unfinished and at
most one final answer is written; for each result the planner is called at most twice. -/
theorem agent_loop_bounded (config : WebConfig) (s : LoopPool) (books : String → Tally)
    (reached : (loops config).Reachable (s, books)) :
    (∀ key, (books key).executed ≤ s.shared.maxSteps key ∧ (books key).unfinished.card ≤ 1 ∧
      (books key).finals ≤ 1) ∧ ∀ thread ∈ s.threads, thread.seen.plans ≤ 2 := by
  obtain ⟨crew, staged, balanced⟩ := (steers_balanced config).of_accounted reached
  refine ⟨?_, ?_⟩
  · intro key
    have kept := balanced.kept key
    have included : (books key).taken ≤ (books key).submitted := by
      apply Multiset.le_iff_count.mpr
      intro taskId
      have counted := kept.tasks taskId
      omega
    refine ⟨?_, ?_, ?_⟩
    · have limit := kept.limit
      omega
    · have rooms := kept.rooms
      rw [Tally.unfinished, Multiset.card_sub included]
      omega
    · have claims := kept.claims
      omega
  · intro thread present
    obtain ⟨index, here⟩ := List.mem_iff_getElem?.mp present
    obtain ⟨stage, member⟩ := staged.member here
    have fits := balanced.fits _ (List.mem_of_getElem? member)
    exact Nat.le_trans fits.plans fits.few

/-! ### A turn with one task -/

/-- Nothing starts while a binding exists or a handler waits for the session. -/
def admitsSettled (s : LoopPool) (note : Note) (_ : WebEnv) : Bool :=
  match note with
  | .start key => decide (s.shared.runtime.taskBindings.keys = ∅) &&
      s.threads.all (fun thread => decide (thread.seen.waiting ≠ some key))
  | _ => true

theorem uninterrupted_of_admits (s : LoopPool) (index : Nat) (env : WebEnv)
    (passed : Pool.noteCheck id admitsSettled s index env = true) :
    Uninterrupted s (.run index env) := by
  intro note ready act next seen here key isStart
  have admitted := Pool.admits_of_noteCheck passed here
  subst isStart
  obtain ⟨unbound, settled⟩ := Bool.and_eq_true_iff.mp admitted
  refine ⟨?_, ?_⟩
  · intro taskId binding found
    have member := Finmap.mem_keys.mpr (HashMap.mem_of_lookup found)
    rw [of_decide_eq_true unbound] at member
    cases member
  · intro thread present
    exact of_decide_eq_true (List.all_eq_true.mp settled thread present)

def loopPlayer : (loops sampleConfig).Player SampleMove :=
  (Pool.checked (samplePlayer working) _ uninterrupted_of_admits (fun _ _ => trivial)
    fun _ _ => trivial).observe _ _

/-- A message is planned into a task, the scheduler records its result, and the result is planned
into an answer: one step is executed, one answer is written, and the planner is called once. -/
theorem agent_loop_bounded_sample :
    ∃ s books, (loops sampleConfig).Reachable (s, books) ∧
      (books "dingtalk:user").executed = 1 ∧ (books "dingtalk:user").finals = 1 ∧
      (∃ thread ∈ s.threads, thread.seen.plans = 1) ∧
      (∀ key, (books key).executed ≤ s.shared.maxSteps key ∧ (books key).unfinished.card ≤ 1 ∧
        (books key).finals ≤ 1) ∧ ∀ thread ∈ s.threads, thread.seen.plans ≤ 2 := by
  obtain ⟨⟨s, books⟩, reached, executed, finals, planned⟩ := loopPlayer.exists_reachable
    (s := (emptyPool, tallies.opening)) (.init ⟨⟨rfl, rfl⟩, rfl⟩)
    (sampleHandlers ++ Pool.running (List.replicate 18 (0, submitEnv)) ++
      recordResult :: Pool.running (List.replicate 18 (2, finalizeEnv)))
    (fun s => (s.2 "dingtalk:user").executed = 1 ∧ (s.2 "dingtalk:user").finals = 1 ∧
      ∃ thread ∈ s.1.threads, thread.seen.plans = 1) (by decide)
  exact ⟨s, books, reached, executed, finals, planned,
    agent_loop_bounded sampleConfig s books reached⟩

end UHorse.Hub.DingTalk
