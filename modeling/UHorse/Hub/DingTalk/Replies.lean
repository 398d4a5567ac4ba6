import UHorse.Hub.DingTalk.Handling
import UHorse.Lib.Occurrences

/-!
# Every result is answered

The result of a task finds its binding or does not. If it does, its handler answers:
with one reply to the route of the message the task was submitted for, or with one
task that continues the turn. The handlers of other messages and results run in
between, and whatever they do, the binding is gone from then on and the reply handle
is gone once the handler has taken it, since a task is bound once and its handle is
stored once. The reply route of the task stays: the bound path never takes it.
-/

namespace UHorse.Hub.DingTalk

open UHorse.Lib UHorse.Protocol

/-! ## What an action adds to the observations -/

/-- The bindings an action makes. -/
def Note.binds (seen : Handling) : Note → List Made
  | .bind taskId binding => [⟨taskId, binding, seen.message, seen.took⟩]
  | _ => []

/-- The tasks whose handles an action stores. -/
def Note.stores : Note → List TaskId
  | .storeHandle taskId => [taskId]
  | _ => []

section Observations

variable {capabilities : ChannelCapabilities} {seen : Handling} {note : Note} {env : WebEnv}
  {s t : Web}

theorem see_bound :
    ((handling capabilities).see seen note env s).bound = seen.bound ++ note.binds seen := by
  cases note <;> first | rfl | exact (List.append_nil _).symm

theorem see_stored :
    ((handling capabilities).see seen note env s).stored = seen.stored ++ note.stores := by
  cases note <;> first | rfl | exact (List.append_nil _).symm

theorem see_sent : ((handling capabilities).see seen note env s).sent =
    seen.sent ++ note.replies capabilities env := by
  cases note <;> first | rfl | exact (List.append_nil _).symm

/-- A binding that was taken was taken before, or is taken by this action. -/
theorem see_took {taken : Taken}
    (took : ((handling capabilities).see seen note env s).took = some taken) :
    (seen.took = some taken ∧ ∀ taskId ∈ ((handling capabilities).see seen note env s).cleared,
      taskId ∈ seen.cleared ∨ note = .takeHandle taskId) ∨
    (note = .take taken.taskId ∧ s.runtime.taskBinding taken.taskId = some taken.binding ∧
      (taken.hadHandle = true → taken.taskId ∈ s.handles) ∧
      ((handling capabilities).see seen note env s).cleared = []) := by
  cases note with
  | take taskId =>
    cases lookup : s.runtime.taskBinding taskId with
    | none =>
      have same : (handling capabilities).see seen (.take taskId) env s = seen := by
        simp [handling, lookup]
      rw [same] at took ⊢
      exact .inl ⟨took, fun _ member => .inl member⟩
    | some binding =>
      have after : (handling capabilities).see seen (.take taskId) env s =
          seen.take ⟨taskId, binding, decide (taskId ∈ s.handles)⟩ := by
        simp [handling, lookup, Handling.take]
      rw [after] at took ⊢
      cases took
      exact .inr ⟨rfl, lookup, of_decide_eq_true, rfl⟩
  | takeHandle taskId =>
    refine .inl ⟨took, ?_⟩
    intro other member
    obtain before | now := List.mem_append.mp member
    · exact .inl before
    · cases List.mem_singleton.mp now
      exact .inr rfl
  | _ => exact .inl ⟨took, fun _ member => .inl member⟩

/-- A task is owed when it is submitted, until it is bound. -/
theorem Performs.binds_le (granted : Performs capabilities seen note env s t) (taskId : TaskId) :
    tick? ((handling capabilities).see seen note env s).unbound taskId +
        (((handling capabilities).see seen note env s).bound.map Made.taskId).count taskId ≤
      tick? seen.unbound taskId + (seen.bound.map Made.taskId).count taskId +
        (note.draws env).count taskId := by
  cases note with
  | submit =>
    show tick? (some env.taskId) taskId + _ ≤ _ + List.count taskId [env.taskId]
    rw [tick?_some, count_singleton_tick]
    show _ + (seen.bound.map Made.taskId).count taskId ≤ _
    omega
  | bind bound binding =>
    obtain ⟨owed, -, -⟩ := granted.pledge
    rw [see_bound, List.map_append, List.count_append, owed, tick?_some]
    show 0 + (_ + List.count taskId [bound]) ≤ _
    rw [count_singleton_tick]
    omega
  | _ => exact Nat.le_add_right _ _

theorem Performs.stores_le (granted : Performs capabilities seen note env s t) (taskId : TaskId) :
    tick? ((handling capabilities).see seen note env s).unstored taskId +
        ((handling capabilities).see seen note env s).stored.count taskId ≤
      tick? seen.unstored taskId + seen.stored.count taskId + (note.draws env).count taskId := by
  cases note with
  | submit =>
    show tick? (some env.taskId) taskId + _ ≤ _ + List.count taskId [env.taskId]
    rw [tick?_some, count_singleton_tick]
    show _ + seen.stored.count taskId ≤ _
    omega
  | storeHandle stored =>
    have owed : seen.unstored = some stored := granted.pledge
    rw [see_stored, List.count_append, owed, tick?_some]
    show 0 + (_ + List.count taskId [stored]) ≤ _
    rw [count_singleton_tick]
    omega
  | _ => exact Nat.le_add_right _ _

/-- After its action a handler still has the turn of its session. -/
theorem Performs.attends_after (granted : Performs capabilities seen note env s t)
    (attends : Attends seen s)
    (turns : ∀ taskId binding, s.runtime.taskBinding taskId = some binding →
      (s.runtime.turnState binding.sessionKey).isSome) :
    Attends ((handling capabilities).see seen note env s) t := by
  intro key session
  cases note with
  | start started =>
    cases session
    exact granted.pledge
  | take taskId =>
    apply granted.turns key
    obtain taken | ⟨-, before⟩ := Option.or_eq_some_iff.mp session
    · obtain ⟨binding, found, rfl⟩ := Option.map_eq_some_iff.mp taken
      exact turns taskId binding found
    · exact attends key before
  | _ => exact granted.turns key (attends key session)

end Observations

/-! ## Tasks and the messages they were submitted for -/

abbrev ReplyPool := Pool Web WebEnv Note Outcome Handling

/-- The bindings that were made, by any handler. -/
def records (s : ReplyPool) : List Made := s.threads.flatMap fun thread => thread.seen.bound

/-- The tasks whose handles were stored. -/
def storedTasks (s : ReplyPool) : List TaskId := s.threads.flatMap fun thread => thread.seen.stored

/-- The task was submitted for the message, or to continue a task that was. -/
inductive SubmittedFor (made : List Made) (inbound : DingTalkInbound) :
    TaskId → TaskContinuationBinding → Prop
  | message (first : Made) (member : first ∈ made) (message : first.message = some inbound) :
      SubmittedFor made inbound first.taskId first.binding
  | followUp (next : Made) (taken : Taken) (member : next ∈ made)
      (parent : next.parent = some taken)
      (before : SubmittedFor made inbound taken.taskId taken.binding) :
      SubmittedFor made inbound next.taskId next.binding

theorem SubmittedFor.mono {made more : List Made} {inbound : DingTalkInbound} {taskId : TaskId}
    {binding : TaskContinuationBinding} (included : made ⊆ more)
    (submitted : SubmittedFor made inbound taskId binding) :
    SubmittedFor more inbound taskId binding := by
  induction submitted with
  | message first member message => exact .message first (included member) message
  | followUp next taken member parent _ ih => exact .followUp next taken (included member) parent ih

/-- The binding leads to the message its task was submitted for. -/
def Routed (made : List Made) (taskId : TaskId) (binding : TaskContinuationBinding) : Prop :=
  ∃ inbound, SubmittedFor made inbound taskId binding ∧
    binding.route = replyRouteFromInbound inbound

theorem Routed.mono {made more : List Made} {taskId : TaskId} {binding : TaskContinuationBinding}
    (included : made ⊆ more) (routed : Routed made taskId binding) :
    Routed more taskId binding := by
  obtain ⟨inbound, submitted, route⟩ := routed
  exact ⟨inbound, submitted.mono included, route⟩

/-- A binding that continues a routed one is routed. -/
theorem Continues.routed {made : List Made} {next : Made} (continues : Continues next)
    (member : next ∈ made)
    (before : ∀ taken, next.parent = some taken → Routed made taken.taskId taken.binding) :
    Routed made next.taskId next.binding := by
  obtain first | later := continues.origin
  · obtain ⟨inbound, message⟩ := Option.isSome_iff_exists.mp first
    exact ⟨inbound, .message next member message, continues.message inbound message⟩
  · obtain ⟨taken, parent⟩ := Option.isSome_iff_exists.mp later
    obtain ⟨inbound, submitted, route⟩ := before taken parent
    obtain ⟨-, -, same⟩ := continues.parent taken parent
    exact ⟨inbound, .followUp next taken member parent submitted, same.trans route⟩

/-! ## Bookkeeping -/

/-- Tasks are bound once and their handles are stored once, every binding leads to a
message, and what was taken is gone. -/
structure Bookkept (s : ReplyPool) : Prop where
  issued : s.shared.drawn.Nodup
  binds : Covers s.shared.drawn (fun thread => thread.seen.unbound)
    (fun thread => thread.seen.bound.map Made.taskId) s.threads
  stores : Covers s.shared.drawn (fun thread => thread.seen.unstored)
    (fun thread => thread.seen.stored) s.threads
  routed : ∀ made ∈ records s, Routed (records s) made.taskId made.binding
  bindings : ∀ taskId binding, s.shared.runtime.taskBinding taskId = some binding →
    (s.shared.runtime.turnState binding.sessionKey).isSome ∧
      ∃ made ∈ records s, made.taskId = taskId ∧ made.binding = binding
  handles : ∀ taskId ∈ s.shared.handles, taskId ∈ storedTasks s
  taken : ∀ thread ∈ s.threads, ∀ taken, thread.seen.took = some taken →
    s.shared.runtime.taskBinding taken.taskId = none ∧
      ∃ made ∈ records s, made.taskId = taken.taskId ∧ made.binding = taken.binding
  cleared : ∀ thread ∈ s.threads, ∀ taken, thread.seen.took = some taken →
    taken.hadHandle = true → taken.taskId ∈ storedTasks s ∧
      (taken.taskId ∈ thread.seen.cleared → taken.taskId ∉ s.shared.handles)

namespace Bookkept

variable {capabilities : ChannelCapabilities} {s : ReplyPool}

/-- A binding that was taken leads to a message. -/
theorem routed_of_took (kept : Bookkept s) {thread : Thread Web WebEnv Note Outcome Handling}
    (member : thread ∈ s.threads) {taken : Taken} (took : thread.seen.took = some taken) :
    Routed (records s) taken.taskId taken.binding := by
  obtain ⟨-, made, recorded, task, binding⟩ := kept.taken thread member taken took
  rw [← task, ← binding]
  exact kept.routed made recorded

/-- A task that is still to be bound has no record. -/
theorem unrecorded (kept : Bookkept s) {thread : Thread Web WebEnv Note Outcome Handling}
    (member : thread ∈ s.threads) {taskId : TaskId} (owed : thread.seen.unbound = some taskId)
    {made : Made} (recorded : made ∈ records s) : made.taskId ≠ taskId := by
  rintro rfl
  apply kept.binds.unmade_of_owed kept.issued member owed
  obtain ⟨maker, present, inside⟩ := List.mem_flatMap.mp recorded
  exact List.mem_flatMap.mpr ⟨maker, present, List.mem_map_of_mem inside⟩

section Run

variable {index : Nat} {env : WebEnv} {note : Note} {program next : Handler Outcome} {t : Web}
  {seen : Handling}

/-- The pool after an action of one handler. -/
def ran (capabilities : ChannelCapabilities) (s : ReplyPool) (index : Nat) (env : WebEnv)
    (note : Note) (next : Handler Outcome) (seen : Handling) (t : Web) : ReplyPool where
  shared := t
  threads := s.threads.set index ⟨next, (handling capabilities).see seen note env s.shared⟩

variable (here : s.threads[index]? = some ⟨program, seen⟩)
include here

theorem records_subset :
    records s ⊆ records (ran capabilities s index env note next seen t) := by
  apply flatMap_subset_set here
  show seen.bound ⊆ ((handling capabilities).see seen note env s.shared).bound
  rw [see_bound]
  exact List.subset_append_left _ _

theorem storedTasks_subset :
    storedTasks s ⊆ storedTasks (ran capabilities s index env note next seen t) := by
  apply flatMap_subset_set here
  show seen.stored ⊆ ((handling capabilities).see seen note env s.shared).stored
  rw [see_stored]
  exact List.subset_append_left _ _

variable {made : Made} {taskId : TaskId}

/-- What an action binds is recorded. -/
theorem binds_recorded (binds : made ∈ note.binds seen) :
    made ∈ records (ran capabilities s index env note next seen t) := by
  refine List.mem_flatMap.mpr ⟨_, mem_set_of_getElem? here, ?_⟩
  show made ∈ ((handling capabilities).see seen note env s.shared).bound
  rw [see_bound]
  exact List.mem_append_right _ binds

theorem stores_recorded (stores : taskId ∈ note.stores) :
    taskId ∈ storedTasks (ran capabilities s index env note next seen t) := by
  refine List.mem_flatMap.mpr ⟨_, mem_set_of_getElem? here, ?_⟩
  show taskId ∈ ((handling capabilities).see seen note env s.shared).stored
  rw [see_stored]
  exact List.mem_append_right _ stores

theorem mem_records (recorded : made ∈ records (ran capabilities s index env note next seen t)) :
    made ∈ records s ∨ made ∈ note.binds seen := by
  obtain old | new := mem_flatMap_of_mem_set recorded
  · exact .inl old
  · have new : made ∈ ((handling capabilities).see seen note env s.shared).bound := new
    rw [see_bound] at new
    obtain before | now := List.mem_append.mp new
    · exact .inl (List.mem_flatMap.mpr ⟨_, List.mem_of_getElem? here, before⟩)
    · exact .inr now

variable (kept : Bookkept s) (granted : Performs capabilities seen note env s.shared t)
include kept granted

theorem routed_ran (recorded : made ∈ records (ran capabilities s index env note next seen t)) :
    Routed (records (ran capabilities s index env note next seen t)) made.taskId made.binding := by
  obtain old | new := mem_records here recorded
  · exact (kept.routed made old).mono (records_subset here)
  · cases note with
    | bind taskId binding =>
      cases List.mem_singleton.mp new
      obtain ⟨-, -, continues⟩ := granted.pledge
      apply continues.routed recorded
      intro taken took
      exact (kept.routed_of_took (List.mem_of_getElem? here) took).mono (records_subset here)
    | _ => cases new

theorem bindings_ran {binding : TaskContinuationBinding} (attends : Attends seen s.shared)
    (found : t.runtime.taskBinding taskId = some binding) :
    (t.runtime.turnState binding.sessionKey).isSome ∧
      ∃ made ∈ records (ran capabilities s index env note next seen t),
        made.taskId = taskId ∧ made.binding = binding := by
  obtain before | rfl := granted.bindings taskId binding found
  · obtain ⟨alive, made, recorded, same⟩ := kept.bindings taskId binding before
    exact ⟨granted.turns _ alive, made, records_subset here recorded, same⟩
  · obtain ⟨-, own, -⟩ := granted.pledge
    refine ⟨granted.turns _ (attends _ own), ?_⟩
    exact ⟨_, binds_recorded here (List.mem_singleton_self _), rfl, rfl⟩

theorem handles_ran (present : taskId ∈ t.handles) :
    taskId ∈ storedTasks (ran capabilities s index env note next seen t) := by
  obtain before | rfl := granted.handles taskId present
  · exact storedTasks_subset here (kept.handles taskId before)
  · exact stores_recorded here (List.mem_singleton_self _)

/-- A recorded task without a binding is not bound again. -/
theorem unbound_ran (recorded : made ∈ records s)
    (gone : s.shared.runtime.taskBinding made.taskId = none) :
    t.runtime.taskBinding made.taskId = none := by
  by_contra present
  obtain ⟨binding, found⟩ := Option.ne_none_iff_exists'.mp present
  obtain before | rfl := granted.bindings _ binding found
  · cases gone.symm.trans before
  · obtain ⟨owed, -, -⟩ := granted.pledge
    exact kept.unrecorded (List.mem_of_getElem? here) owed recorded rfl

/-- A handle that was stored and is gone is not stored again. -/
theorem unstored_ran (stored : taskId ∈ storedTasks s) (gone : taskId ∉ s.shared.handles) :
    taskId ∉ t.handles := by
  intro present
  obtain before | rfl := granted.handles taskId present
  · exact gone before
  · have owed : seen.unstored = some taskId := granted.pledge
    exact kept.stores.unmade_of_owed kept.issued (List.mem_of_getElem? here) owed stored

theorem taken_ran {thread : Thread Web WebEnv Note Outcome Handling}
    (member : thread ∈ (ran capabilities s index env note next seen t).threads) {taken : Taken}
    (took : thread.seen.took = some taken) :
    t.runtime.taskBinding taken.taskId = none ∧
      ∃ made ∈ records (ran capabilities s index env note next seen t),
        made.taskId = taken.taskId ∧ made.binding = taken.binding := by
  have earlier : ∀ thread ∈ s.threads, thread.seen.took = some taken →
      t.runtime.taskBinding taken.taskId = none ∧
        ∃ made ∈ records (ran capabilities s index env note next seen t),
          made.taskId = taken.taskId ∧ made.binding = taken.binding := by
    intro thread member took
    obtain ⟨gone, made, recorded, task, binding⟩ := kept.taken thread member taken took
    refine ⟨?_, made, records_subset here recorded, task, binding⟩
    rw [← task] at gone ⊢
    exact unbound_ran here kept granted recorded gone
  obtain old | rfl := List.mem_or_eq_of_mem_set member
  · exact earlier thread old took
  · obtain ⟨before, -⟩ | ⟨rfl, found, -, -⟩ := see_took took
    · exact earlier _ (List.mem_of_getElem? here) before
    · obtain ⟨-, made, recorded, same⟩ := kept.bindings _ _ found
      exact ⟨granted.pledge, made, records_subset here recorded, same⟩

theorem cleared_ran {thread : Thread Web WebEnv Note Outcome Handling}
    (member : thread ∈ (ran capabilities s index env note next seen t).threads) {taken : Taken}
    (took : thread.seen.took = some taken) (had : taken.hadHandle = true) :
    taken.taskId ∈ storedTasks (ran capabilities s index env note next seen t) ∧
      (taken.taskId ∈ thread.seen.cleared → taken.taskId ∉ t.handles) := by
  obtain old | rfl := List.mem_or_eq_of_mem_set member
  · obtain ⟨stored, gone⟩ := kept.cleared thread old taken took had
    refine ⟨storedTasks_subset here stored, ?_⟩
    intro clears
    exact unstored_ran here kept granted stored (gone clears)
  · obtain ⟨before, clears⟩ | ⟨rfl, -, present, fresh⟩ := see_took took
    · obtain ⟨stored, gone⟩ := kept.cleared _ (List.mem_of_getElem? here) taken before had
      refine ⟨storedTasks_subset here stored, ?_⟩
      intro cleared
      obtain already | rfl := clears _ cleared
      · exact unstored_ran here kept granted stored (gone already)
      · exact granted.pledge
    · refine ⟨storedTasks_subset here (kept.handles _ (present had)), ?_⟩
      intro cleared
      have cleared : taken.taskId ∈
        ((handling capabilities).see seen (.take taken.taskId) env s.shared).cleared := cleared
      rw [fresh] at cleared
      cases cleared

theorem run (attends : Attends seen s.shared) (fresh : (s.shared.drawn ++ note.draws env).Nodup) :
    Bookkept (ran capabilities s index env note next seen t) where
  issued := by
    show t.drawn.Nodup
    rw [granted.drawn]
    exact fresh
  binds := by
    show Covers t.drawn _ _ _
    rw [granted.drawn]
    exact kept.binds.set here granted.binds_le
  stores := by
    show Covers t.drawn _ _ _
    rw [granted.drawn]
    exact kept.stores.set here granted.stores_le
  routed _ recorded := routed_ran here kept granted recorded
  bindings _ _ found := bindings_ran here kept granted attends found
  handles _ present := handles_ran here kept granted present
  taken _ member _ took := taken_ran here kept granted member took
  cleared _ member _ took had := cleared_ran here kept granted member took had

end Run

/-- A new handler has done nothing. -/
theorem spawn (kept : Bookkept s) (program : Handler Outcome) :
    Bookkept { s with threads := s.threads ++ [⟨program, (handling capabilities).start⟩] } := by
  have recorded : records { s with threads := s.threads ++
      [⟨program, (handling capabilities).start⟩] } = records s := by
    simp [records, handling]
  have stored : storedTasks { s with threads := s.threads ++
      [⟨program, (handling capabilities).start⟩] } = storedTasks s := by
    simp [storedTasks, handling]
  refine ⟨kept.issued, kept.binds.concat rfl rfl, kept.stores.concat rfl rfl, ?_, ?_, ?_, ?_, ?_⟩
  · rw [recorded]
    exact kept.routed
  · rw [recorded]
    exact kept.bindings
  · rw [stored]
    exact kept.handles
  · rw [recorded]
    intro thread member taken took
    obtain old | new := List.mem_append.mp member
    · exact kept.taken thread old taken took
    · cases List.mem_singleton.mp new
      cases took
  · rw [stored]
    intro thread member taken took
    obtain old | new := List.mem_append.mp member
    · exact kept.cleared thread old taken took
    · cases List.mem_singleton.mp new
      cases took

end Bookkept

/-! ## Runs -/

/-- Task ids are fresh, and the calls of the handler at `index` succeed. -/
def Smooth (config : WebConfig) (capabilities : ChannelCapabilities) (index : Nat)
    (s : ReplyPool) : PoolLabel Web WebEnv Note Outcome → Prop
  | .run runner env => ∀ note ready act next seen,
      s.threads[runner]? = some ⟨.act note ready act next, seen⟩ →
      (note = .submit → env.taskId ∉ s.shared.drawn) ∧
        (runner = index → Succeeds config capabilities note env s.shared)
  | _ => True

/-- The books are kept, every handler keeps its contract, lanes are held by handlers and
the replies are the ones the handlers sent. -/
structure Kept (config : WebConfig) (capabilities : ChannelCapabilities) (index : Nat)
    (s : ReplyPool) : Prop extends Bookkept s where
  fulfils : ∀ (runner : Nat) (thread : Thread Web WebEnv Note Outcome Handling),
    s.threads[runner]? = some thread →
    Fulfils config capabilities (runner = index) thread.program thread.seen (Ends (runner = index))
  attends : ∀ thread ∈ s.threads, Attends thread.seen s.shared
  lanes : ∀ key ∈ s.shared.lanes, ∃ thread ∈ s.threads, thread.seen.lane = some key
  replies : s.shared.replies.Perm (s.threads.flatMap fun thread => thread.seen.sent)

section Runs

variable {config : WebConfig} {capabilities : ChannelCapabilities} {index : Nat} {s t : ReplyPool}

namespace Kept

theorem init (start : ((system config (handling capabilities)).restrict
    (Smooth config capabilities index)).Init s) : Kept config capabilities index s := by
  obtain ⟨shared, threads⟩ := s
  obtain ⟨nobody, empty⟩ := start
  obtain rfl : threads = [] := nobody
  obtain rfl : shared = .empty := empty
  have unbound : ∀ taskId, Web.empty.runtime.taskBinding taskId = none := fun _ => rfl
  refine ⟨⟨List.nodup_nil, fun _ => Nat.le_refl _, fun _ => Nat.le_refl _, ?_, ?_, ?_, ?_, ?_⟩,
    ?_, ?_, ?_, List.Perm.refl _⟩
  · intro made recorded
    cases recorded
  · intro taskId binding found
    cases (unbound taskId).symm.trans found
  · intro taskId present
    exact absurd present Finmap.notMem_empty
  · intro thread member
    cases member
  · intro thread member
    cases member
  · intro runner thread here
    cases here
  · intro thread member
    cases member
  · intro key held
    cases held

theorem spawn (channel : config.channel = some capabilities)
    (kept : Kept config capabilities index s) {program : Handler Outcome}
    (spawned : Spawns config program) :
    Kept config capabilities index
      { s with threads := s.threads ++ [⟨program, (handling capabilities).start⟩] } := by
  refine ⟨kept.toBookkept.spawn program, ?_, ?_, ?_, ?_⟩
  · intro runner thread here
    rw [List.getElem?_append] at here
    split at here
    · exact kept.fulfils runner thread here
    · cases List.mem_singleton.mp (List.mem_of_getElem? here)
      exact spawned.ends channel
  · intro thread member
    obtain old | new := List.mem_append.mp member
    · exact kept.attends thread old
    · cases List.mem_singleton.mp new
      nofun
  · intro key held
    obtain ⟨thread, member, lane⟩ := kept.lanes key held
    exact ⟨thread, List.mem_append_left _ member, lane⟩
  · simpa [handling] using kept.replies

theorem background (kept : Kept config capabilities index s) {shared : Web}
    (recorded : Completes s.shared shared) : Kept config capabilities index { s with shared } := by
  obtain ⟨completed, rfl⟩ := recorded
  exact ⟨⟨kept.issued, kept.binds, kept.stores, kept.routed, kept.bindings, kept.handles,
    kept.taken, kept.cleared⟩, kept.fulfils, kept.attends, kept.lanes, kept.replies⟩

section Run

variable {runner : Nat} {env : WebEnv} {note : Note} {ready : Web → Bool}
  {act : WebEnv → Web → Web} {next : WebEnv → Web → Handler Outcome} {seen : Handling}
  (kept : Kept config capabilities index s)
  (here : s.threads[runner]? = some ⟨.act note ready act next, seen⟩)
include kept here

/-- What a handler's next action does. -/
theorem granted (enabled : ready s.shared = true)
    (succeeds : runner = index → Succeeds config capabilities note env s.shared) :
    Performs capabilities seen note env s.shared (act env s.shared) ∧
      Fulfils config capabilities (runner = index) (next env s.shared)
        ((handling capabilities).see seen note env s.shared) (Ends (runner = index)) :=
  (kept.fulfils runner _ here).2 env s.shared enabled
    (kept.attends _ (List.mem_of_getElem? here)) succeeds

/-- The lanes that are held after an action are held by handlers. -/
theorem lanes_ran {web : Web} (granted : Performs capabilities seen note env s.shared web)
    {key : String} (held : key ∈ web.lanes) :
    ∃ thread ∈ s.threads.set runner
        ⟨next env s.shared, (handling capabilities).see seen note env s.shared⟩,
      thread.seen.lane = some key := by
  have passed : key ∈ s.shared.lanes → (seen.lane = some key →
      ((handling capabilities).see seen note env s.shared).lane = some key) →
      ∃ thread ∈ s.threads.set runner
          ⟨next env s.shared, (handling capabilities).see seen note env s.shared⟩,
        thread.seen.lane = some key := by
    intro before keeps
    obtain ⟨thread, member, lane⟩ := kept.lanes key before
    obtain rfl | other := eq_or_mem_set here member
    · exact ⟨_, mem_set_of_getElem? here, keeps lane⟩
    · exact ⟨thread, other, lane⟩
  rw [granted.lanes] at held
  cases note with
  | lock locked =>
    obtain rfl | before := Finset.mem_insert.mp held
    · exact ⟨_, mem_set_of_getElem? here, rfl⟩
    · apply passed before
      intro lane
      have free : seen.lane = none := granted.pledge
      cases free.symm.trans lane
  | unlock unlocked =>
    obtain ⟨distinct, before⟩ := Finset.mem_erase.mp held
    apply passed before
    intro lane
    have mine : seen.lane = some unlocked := granted.pledge
    cases mine.symm.trans lane
    exact absurd rfl distinct
  | _ => exact passed held id

theorem run (enabled : ready s.shared = true)
    (smooth : Smooth config capabilities index s (.run runner env)) :
    Kept config capabilities index
      { shared := act env s.shared
        threads := s.threads.set runner
          ⟨next env s.shared, (handling capabilities).see seen note env s.shared⟩ } := by
  obtain ⟨unused, succeeds⟩ := smooth note ready act next seen here
  obtain ⟨granted, later⟩ := kept.granted here enabled succeeds
  have attends : Attends seen s.shared := kept.attends _ (List.mem_of_getElem? here)
  have fresh : (s.shared.drawn ++ note.draws env).Nodup := by
    cases note with
    | submit => exact List.concat_eq_append ▸ kept.issued.concat (unused rfl)
    | _ => exact (List.append_nil s.shared.drawn).symm ▸ kept.issued
  refine ⟨kept.toBookkept.run here granted attends fresh, ?_, ?_, ?_, ?_⟩
  · intro other thread there
    rw [List.getElem?_set] at there
    split at there
    · next same =>
        subst same
        split at there
        · cases there
          exact later
        · cases there
    · exact kept.fulfils other thread there
  · intro thread member
    obtain old | rfl := List.mem_or_eq_of_mem_set member
    · intro key session
      exact granted.turns key (kept.attends thread old key session)
    · apply granted.attends_after attends
      intro taskId binding found
      exact (kept.bindings taskId binding found).1
  · intro key held
    exact kept.lanes_ran here granted held
  · show (act env s.shared).replies.Perm _
    rw [granted.replies]
    exact (kept.replies.append_right _).trans (flatMap_set_perm here see_sent).symm

end Run

theorem step (channel : config.channel = some capabilities)
    {label : PoolLabel Web WebEnv Note Outcome} (kept : Kept config capabilities index s)
    (step : ((system config (handling capabilities)).restrict
      (Smooth config capabilities index)).Step s label t) : Kept config capabilities index t := by
  obtain ⟨smooth, step⟩ := step
  cases step with
  | spawn program spawned => exact kept.spawn channel spawned
  | run runner env note ready act next seen here enabled => exact kept.run here enabled smooth
  | background shared recorded => exact kept.background recorded

end Kept

theorem kept_of_reachable (channel : config.channel = some capabilities)
    (reached : ((system config (handling capabilities)).restrict
      (Smooth config capabilities index)).Reachable s) : Kept config capabilities index s := by
  refine reached.invariant ?_ ?_
  · intro initial start
    exact Kept.init start
  · intro before label after kept step
    exact kept.step channel step

/-- The handler can run, or it waits for a lane and the handler that holds the lane can run. -/
def Proceeds (s : ReplyPool) (index : Nat) : Prop :=
  ∃ runner note ready act next seen,
    s.threads[runner]? = some ⟨.act note ready act next, seen⟩ ∧ ready s.shared = true ∧
      (runner = index ∨ ∃ key ready act next waiting,
        s.threads[index]? = some ⟨.act (.lock key) ready act next, waiting⟩ ∧
          seen.lane = some key)

/-- A handler that holds a lane can run. -/
theorem Kept.holder_runs (kept : Kept config capabilities index s) {runner : Nat} {key : String}
    {thread : Thread Web WebEnv Note Outcome Handling} (here : s.threads[runner]? = some thread)
    (held : thread.seen.lane = some key) :
    ∃ note ready act next, thread.program = .act note ready act next ∧
      ready s.shared = true := by
  have fulfils := kept.fulfils runner thread here
  obtain ⟨program, seen⟩ := thread
  cases program with
  | done outcome =>
    obtain ⟨free, -⟩ := fulfils
    cases free.symm.trans held
  | act note ready act next =>
    refine ⟨note, ready, act, next, rfl, ?_⟩
    by_contra blocked
    obtain ⟨_, -, -, free⟩ := fulfils.1 s.shared (by simpa using blocked)
    cases free.symm.trans held

theorem Kept.proceeds (kept : Kept config capabilities index s) {runner : Nat}
    {thread : Thread Web WebEnv Note Outcome Handling} (here : s.threads[runner]? = some thread)
    (unfinished : thread.program.isDone = false) : Proceeds s runner := by
  have fulfils := kept.fulfils runner thread here
  obtain ⟨program, seen⟩ := thread
  cases program with
  | done outcome => cases unfinished
  | act note ready act next =>
    by_cases enabled : ready s.shared = true
    · exact ⟨runner, note, ready, act, next, seen, here, enabled, .inl rfl⟩
    · obtain ⟨key, rfl, taken, -⟩ := fulfils.1 s.shared (by simpa using enabled)
      obtain ⟨⟨program, holding⟩, member, held⟩ := kept.lanes key taken
      obtain ⟨holder, there⟩ := List.getElem?_of_mem member
      obtain ⟨note', ready', act', next', rfl, enabled'⟩ := kept.holder_runs there held
      exact ⟨holder, note', ready', act', next', holding, there, enabled',
        .inr ⟨key, ready, act, next, seen, here, held⟩⟩

/-- What becomes of a result whose handler, at `index`, took a binding. -/
structure Settles (s : ReplyPool) (index : Nat) (thread : Thread Web WebEnv Note Outcome Handling)
    (taken : Taken) : Prop where
  routed : Routed (records s) taken.taskId taken.binding
  unbound : s.shared.runtime.taskBinding taken.taskId = none
  proceeds : thread.program.isDone = false → Proceeds s index
  answered : ∀ outcome, thread.program = .done outcome →
    outcome = .ok () ∧ Answered taken thread.seen
  cleared : thread.program.isDone = true → taken.hadHandle = true → thread.seen.bound = [] →
    thread.seen.locally = false → taken.taskId ∉ s.shared.handles
  replies : s.shared.replies.Perm (s.threads.flatMap fun thread => thread.seen.sent)

/-- In every run in which its calls succeed, the handler of a result that took the binding
of its task answers it. -/
theorem result_is_answered (channel : config.channel = some capabilities)
    (reached : ((system config (handling capabilities)).restrict
      (Smooth config capabilities index)).Reachable s)
    {thread : Thread Web WebEnv Note Outcome Handling} (here : s.threads[index]? = some thread)
    {taken : Taken} (took : thread.seen.took = some taken) : Settles s index thread taken := by
  have kept := kept_of_reachable channel reached
  have member := List.mem_of_getElem? here
  have answered : ∀ outcome, thread.program = .done outcome →
      outcome = .ok () ∧ Answered taken thread.seen := by
    intro outcome finished
    have fulfils := kept.fulfils index thread here
    rw [finished] at fulfils
    exact fulfils.2 taken took rfl
  refine ⟨kept.routed_of_took member took, (kept.taken thread member taken took).1,
    kept.proceeds here, answered, ?_, kept.replies⟩
  intro finished had unbound remote
  obtain ⟨-, gone⟩ := kept.cleared thread member taken took had
  obtain ⟨program, seen⟩ := thread
  cases program with
  | act note ready act next => cases finished
  | done outcome =>
    obtain ⟨-, ⟨text, -, -, taken | locally⟩ | ⟨made, bound, -⟩⟩ := answered outcome rfl
    · exact gone taken
    · cases locally.symm.trans remote
    · cases bound.symm.trans unbound

end Runs

/-! ## The sample conversation -/

def sampleCapabilities : ChannelCapabilities := ⟨false, true, false⟩

/-- Ids are fresh and messages are delivered; nothing is done locally. -/
def admitsSmooth (s : ReplyPool) (note : Note) (env : WebEnv) : Bool :=
  match note with
  | .submit => decide (env.taskId ∉ s.shared.drawn)
  | .send route _ => sends sampleCapabilities route env
  | .sendUnlessAck route text =>
    decide (text ≠ processingAckText) && sends sampleCapabilities route env
  | .workspace _ workspacePath => (workspacePath.orElse fun _ => env.defaultWorkspaceRoot).isSome
  | .checkCancelled key =>
    !(s.shared.runtime.turnState key).any (fun turn => turn.cancelRequested)
  | .clear | .localStep => false
  | _ => true

theorem smooth_of_admits (s : ReplyPool) (runner : Nat) (env : WebEnv)
    (passed : Pool.noteCheck id admitsSmooth s runner env = true) :
    Smooth sampleConfig sampleCapabilities 2 s (.run runner env) := by
  intro note ready act next seen here
  have admitted := Pool.admits_of_noteCheck passed here
  refine ⟨?_, ?_⟩
  · rintro rfl
    exact of_decide_eq_true admitted
  · intro _
    cases note with
    | send route text => exact admitted
    | sendUnlessAck route text =>
      obtain ⟨distinct, sent⟩ := Bool.and_eq_true_iff.mp admitted
      exact ⟨of_decide_eq_true distinct, sent⟩
    | workspace command workspacePath =>
      obtain ⟨hint, resolved⟩ := Option.isSome_iff_exists.mp admitted
      exact ⟨hint, resolved, rfl⟩
    | checkCancelled key => exact (Bool.not_eq_true' _).mp admitted
    | clear => cases admitted
    | localStep => cases admitted
    | _ => trivial

/-- The handler of the result is done, the task had a reply handle when it took the binding,
and its reply route is still there. -/
def keepsRoute (s : ReplyPool) : Bool :=
  s.threads[2]?.any fun thread => thread.program.isDone && thread.seen.took.any fun taken =>
    taken.hadHandle && (s.shared.routes.lookup taken.taskId).isSome

/-- The first message submits a task, the scheduler records its result and the handler of
the result runs to its end. -/
theorem sampleReply_reachable : ∃ s thread taken,
    ((system sampleConfig (handling sampleCapabilities)).restrict
      (Smooth sampleConfig sampleCapabilities 2)).Reachable s ∧
    s.threads[2]? = some thread ∧ thread.program.isDone = true ∧
    thread.seen.took = some taken ∧ taken.hadHandle = true ∧
    (s.shared.routes.lookup taken.taskId).isSome = true := by
  obtain ⟨s, reached, kept⟩ := (Pool.checked (samplePlayer (handling sampleCapabilities)) _
    smooth_of_admits (fun _ _ => trivial) fun _ _ => trivial).exists_reachable
    emptyPool_reachable (sampleHandlers ++ Pool.running (List.replicate 18 (0, submitEnv)) ++
      recordResult :: Pool.running (List.replicate 18 (2, finalizeEnv)))
    (fun s => keepsRoute s = true) (by decide)
  obtain ⟨thread, here, kept⟩ := (Option.any_eq_true _ _).mp kept
  obtain ⟨finished, taking⟩ := Bool.and_eq_true_iff.mp kept
  obtain ⟨taken, took, had⟩ := (Option.any_eq_true _ _).mp taking
  obtain ⟨had, route⟩ := Bool.and_eq_true_iff.mp had
  exact ⟨s, thread, taken, reached, here, finished, took, had, route⟩

theorem result_is_answered_sample : ∃ s thread taken,
    ((system sampleConfig (handling sampleCapabilities)).restrict
      (Smooth sampleConfig sampleCapabilities 2)).Reachable s ∧
    s.threads[2]? = some thread ∧ thread.program.isDone = true ∧
    thread.seen.took = some taken ∧ taken.hadHandle = true ∧ Settles s 2 thread taken := by
  obtain ⟨s, thread, taken, reached, here, finished, took, had, -⟩ := sampleReply_reachable
  exact ⟨s, thread, taken, reached, here, finished, took, had,
    result_is_answered rfl reached here took⟩

/-- The result is answered and the reply route of its task stays. -/
theorem reply_route_remains : ∃ s thread taken,
    ((system sampleConfig (handling sampleCapabilities)).restrict
      (Smooth sampleConfig sampleCapabilities 2)).Reachable s ∧
    s.threads[2]? = some thread ∧ thread.program.isDone = true ∧
    thread.seen.took = some taken ∧ s.shared.routes.lookup taken.taskId ≠ none := by
  obtain ⟨s, thread, taken, reached, here, finished, took, -, route⟩ := sampleReply_reachable
  refine ⟨s, thread, taken, reached, here, finished, took, ?_⟩
  intro gone
  rw [gone] at route
  cases route

end UHorse.Hub.DingTalk
