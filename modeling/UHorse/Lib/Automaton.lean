import UHorse.Lib.Program

/-!
# Programs that follow an automaton

An automaton says at which stage a program is and which moves it has there: a move
is one atomic action, from a stage and a shared state to the next ones. A program
follows the automaton if each of its actions is a move, whatever the state it runs
in; the next stage may be chosen after the action, so a stage can stand for what
the program has found out.

In a pool whose programs follow an automaton, every thread has a stage. An
assertion about the shared state, what has been seen of the threads and their
stages is an invariant once it survives each move.
-/

namespace UHorse.Lib

/-- The moves of an automaton with stages `γ`. -/
abbrev Moves (σ ι ω γ : Type) := γ → ω → ι → σ → γ → σ → Prop

namespace Program

variable {σ ι ω γ α β : Type} {moves : Moves σ ι ω γ}

/-- Every action of the program is a move, and the program ends with `post`. -/
def Follows (moves : Moves σ ι ω γ) : Program σ ι ω α → γ → (α → γ → Prop) → Prop
  | .done value, stage, post => post value stage
  | .act note ready run next, stage, post => ∀ input s, ready s = true →
      ∃ after, moves stage note input s after (run input s) ∧
        (next input s).Follows moves after post

variable {stage : γ} {post : α → γ → Prop}

theorem Follows.weaken {program : Program σ ι ω α} {post' : α → γ → Prop}
    (follows : program.Follows moves stage post)
    (weaker : ∀ value after, post value after → post' value after) :
    program.Follows moves stage post' := by
  induction program generalizing stage with
  | done value => exact weaker value stage follows
  | act note ready run next ih =>
    intro input s isReady
    obtain ⟨after, move, later⟩ := follows input s isReady
    exact ⟨after, move, ih input s later⟩

theorem Follows.bind {program : Program σ ι ω α} {rest : α → Program σ ι ω β} {q : α → γ → Prop}
    {post : β → γ → Prop} (first : program.Follows moves stage q)
    (second : ∀ value after, q value after → (rest value).Follows moves after post) :
    (program >>= rest).Follows moves stage post := by
  induction program generalizing stage with
  | done value => exact second value stage first
  | act note ready run next ih =>
    intro input s isReady
    obtain ⟨after, move, later⟩ := first input s isReady
    exact ⟨after, move, ih input s later⟩

theorem Follows.pure {value : α} (here : post value stage) :
    (Pure.pure value : Program σ ι ω α).Follows moves stage post := here

theorem Follows.update {note : ω} {run : ι → σ → σ} {value : ι → σ → α}
    (move : ∀ input s, ∃ after, moves stage note input s after (run input s) ∧
      post (value input s) after) : (Program.update note run value).Follows moves stage post := by
  intro input s _
  exact move input s

theorem Follows.await {note : ω} {ready : σ → Bool} {run : ι → σ → σ} {post : Unit → γ → Prop}
    (move : ∀ input s, ready s = true → ∃ after, moves stage note input s after (run input s) ∧
      post () after) : (Program.await note ready run).Follows moves stage post := by
  intro input s isReady
  exact move input s isReady

end Program

namespace Pool

variable {σ ι ω ρ κ γ : Type}

/-- The crew of a pool: what has been seen of each thread, and its stage. -/
structure Staged (moves : Moves σ ι ω γ) (s : Pool σ ι ω ρ κ) (crew : List (κ × γ)) : Prop where
  seen : crew.map Prod.fst = s.threads.map Thread.seen
  follows : ∀ (index : Nat) (thread : Thread σ ι ω ρ κ) (member : κ × γ),
    s.threads[index]? = some thread → crew[index]? = some member →
    thread.program.Follows moves member.2 (fun _ _ => True)

section Staged

variable {moves : Moves σ ι ω γ} {observer : Observer σ ι ω κ} {s : Pool σ ι ω ρ κ}
  {crew : List (κ × γ)} {index : Nat}

theorem Staged.member (staged : Staged moves s crew) {thread : Thread σ ι ω ρ κ}
    (here : s.threads[index]? = some thread) :
    ∃ stage, crew[index]? = some (thread.seen, stage) := by
  have same := congrArg (fun seen => seen[index]?) staged.seen
  simp only [List.getElem?_map, here, Option.map_some] at same
  obtain ⟨⟨seen, stage⟩, found, rfl⟩ := Option.map_eq_some_iff.mp same
  exact ⟨stage, found⟩

theorem Staged.thread (staged : Staged moves s crew) {member : κ × γ}
    (here : crew[index]? = some member) :
    ∃ thread, s.threads[index]? = some thread ∧ thread.seen = member.1 := by
  have same := congrArg (fun seen => seen[index]?) staged.seen
  simp only [List.getElem?_map, here, Option.map_some] at same
  exact Option.map_eq_some_iff.mp same.symm

/-- What the next action of a thread is for the automaton. -/
theorem Staged.move (observer : Observer σ ι ω κ) (staged : Staged moves s crew) {note : ω}
    {ready : σ → Bool} {act : ι → σ → σ}
    {next : ι → σ → Program σ ι ω ρ} {seen : κ}
    (here : s.threads[index]? = some ⟨.act note ready act next, seen⟩)
    (enabled : ready s.shared = true) (input : ι) :
    ∃ stage after, crew[index]? = some (seen, stage) ∧
      moves stage note input s.shared after (act input s.shared) ∧
      Staged moves
        { shared := act input s.shared
          threads := s.threads.set index
            ⟨next input s.shared, observer.see seen note input s.shared⟩ }
        (crew.set index (observer.see seen note input s.shared, after)) := by
  obtain ⟨stage, member⟩ := staged.member here
  obtain ⟨after, move, later⟩ := staged.follows index _ _ here member input s.shared enabled
  refine ⟨stage, after, member, move, ?_, ?_⟩
  · rw [List.map_set, List.map_set, staged.seen]
  · intro other thread member' there found
    rw [List.getElem?_set] at there found
    split at there
    · next same =>
        subst same
        rw [if_pos rfl] at found
        split at there <;> [cases there; cases there]
        split at found <;> [cases found; cases found]
        exact later
    · next distinct =>
        rw [if_neg distinct] at found
        exact staged.follows other thread member' there found

theorem Staged.spawn (staged : Staged moves s crew) {program : Program σ ι ω ρ} {stage : γ}
    {start : κ} (follows : program.Follows moves stage (fun _ _ => True)) :
    Staged moves { s with threads := s.threads ++ [⟨program, start⟩] }
      (crew ++ [(start, stage)]) := by
  have size : crew.length = s.threads.length := by
    simpa using congrArg List.length staged.seen
  refine ⟨by simp [staged.seen], ?_⟩
  intro index thread member here found
  rw [List.getElem?_append] at here found
  rw [size] at found
  split at here
  · next inside =>
      rw [if_pos inside] at found
      exact staged.follows index thread member here found
  · next outside =>
      rw [if_neg outside] at found
      cases List.mem_singleton.mp (List.mem_of_getElem? here)
      cases List.mem_singleton.mp (List.mem_of_getElem? found)
      exact follows

end Staged

/-- The note of the action a step performs, with what has been seen of its thread. -/
def action (s : Pool σ ι ω ρ κ) : PoolLabel σ ι ω ρ → Option (ω × κ)
  | .run index _ =>
    match s.threads[index]? with
    | some ⟨.act note _ _ _, seen⟩ => some (note, seen)
    | _ => none
  | _ => none

theorem action_run {s : Pool σ ι ω ρ κ} {index : Nat} {input : ι} {note : ω} {ready : σ → Bool}
    {act : ι → σ → σ} {next : ι → σ → Program σ ι ω ρ} {seen : κ}
    (here : s.threads[index]? = some ⟨.act note ready act next, seen⟩) :
    action s (.run index input) = some (note, seen) := by
  simp only [action, here]

/-- Keep books on the actions of a pool: what each enters, from what has been seen of its
thread, its note, its input, and the states before and after it. -/
structure Ledger (σ ι ω κ β : Type) where
  opening : β
  enter : β → κ → ω → ι → σ → σ → β

/-- Nothing is entered. -/
def Ledger.blank : Ledger σ ι ω κ Unit where
  opening := ()
  enter books _ _ _ _ _ := books

variable {β : Type}

/-- The books after a step. -/
def book (ledger : Ledger σ ι ω κ β) (books : β) (s : Pool σ ι ω ρ κ) :
    PoolLabel σ ι ω ρ → β
  | .run index input =>
    match s.threads[index]? with
    | some ⟨.act note _ act _, seen⟩ =>
      ledger.enter books seen note input s.shared (act input s.shared)
    | _ => books
  | _ => books

theorem book_run {ledger : Ledger σ ι ω κ β} {books : β} {s : Pool σ ι ω ρ κ} {index : Nat}
    {input : ι} {note : ω} {ready : σ → Bool} {act : ι → σ → σ}
    {next : ι → σ → Program σ ι ω ρ} {seen : κ}
    (here : s.threads[index]? = some ⟨.act note ready act next, seen⟩) :
    book ledger books s (.run index input) =
      ledger.enter books seen note input s.shared (act input s.shared) := by
  simp only [book, here]

/-- The steps within `guard`, with books kept on them. -/
def accounted (observer : Observer σ ι ω κ) (Spawns : Program σ ι ω ρ → Prop)
    (Background : σ → σ → Prop) (Start : σ → Prop)
    (guard : Pool σ ι ω ρ κ → PoolLabel σ ι ω ρ → Prop) (ledger : Ledger σ ι ω κ β) :
    System (Pool σ ι ω ρ κ × β) (PoolLabel σ ι ω ρ) :=
  ((system observer Spawns Background Start).restrict guard).observe ledger.opening
    (fun books s label => book ledger books s label)

/-- An assertion about the shared state, the crew and the books that survives every step
within `guard`. -/
structure Steers (observer : Observer σ ι ω κ) (Spawns : Program σ ι ω ρ → Prop)
    (Background : σ → σ → Prop) (Start : σ → Prop)
    (guard : Pool σ ι ω ρ κ → PoolLabel σ ι ω ρ → Prop) (moves : Moves σ ι ω γ)
    (ledger : Ledger σ ι ω κ β) (J : σ → List (κ × γ) → β → Prop) : Prop where
  start : ∀ s, Start s → J s [] ledger.opening
  spawn : ∀ s crew books program, Staged moves s crew → J s.shared crew books →
    guard s (.spawn program) → Spawns program →
    ∃ stage, program.Follows moves stage (fun _ _ => True) ∧
      J s.shared (crew ++ [(observer.start, stage)]) books
  run : ∀ s crew books index input note ready act next seen stage after, Staged moves s crew →
    J s.shared crew books → guard s (.run index input) →
    s.threads[index]? = some ⟨.act note ready act next, seen⟩ → ready s.shared = true →
    crew[index]? = some (seen, stage) →
    moves stage note input s.shared after (act input s.shared) →
    J (act input s.shared) (crew.set index (observer.see seen note input s.shared, after))
      (ledger.enter books seen note input s.shared (act input s.shared))
  background : ∀ s crew books shared, Staged moves s crew → J s.shared crew books →
    guard s (.background shared) → Background s.shared shared → J shared crew books

section Steers

variable {observer : Observer σ ι ω κ} {Spawns : Program σ ι ω ρ → Prop}
  {Background : σ → σ → Prop} {Start : σ → Prop}
  {guard : Pool σ ι ω ρ κ → PoolLabel σ ι ω ρ → Prop} {moves : Moves σ ι ω γ}
  {ledger : Ledger σ ι ω κ β} {J : σ → List (κ × γ) → β → Prop}
  (steers : Steers observer Spawns Background Start guard moves ledger J)
include steers

/-- In every state that is reached, the threads have stages for which the assertion holds. -/
theorem Steers.of_accounted {s : Pool σ ι ω ρ κ} {books : β}
    (reached : (accounted observer Spawns Background Start guard ledger).Reachable (s, books)) :
    ∃ crew, Staged moves s crew ∧ J s.shared crew books := by
  refine reached.invariant (P := fun s => ∃ crew, Staged moves s.1 crew ∧ J s.1.shared crew s.2)
    ?_ ?_
  · rintro ⟨initial, books⟩ ⟨⟨nobody, begun⟩, rfl⟩
    have nobody : initial.threads = [] := nobody
    refine ⟨[], ⟨by simp [nobody], ?_⟩, steers.start _ begun⟩
    intro index thread member here
    simp [nobody] at here
  · rintro ⟨before, books⟩ label ⟨after, _⟩ ⟨crew, staged, holds⟩ ⟨⟨guarded, step⟩, rfl⟩
    dsimp only at staged holds guarded step ⊢
    cases step with
    | spawn program can =>
      obtain ⟨stage, follows, still⟩ :=
        steers.spawn before crew books program staged holds guarded can
      exact ⟨_, staged.spawn follows, still⟩
    | run index input note ready act next seen here enabled =>
      obtain ⟨stage, after, member, move, staged'⟩ :=
        staged.move observer here enabled input
      rw [book_run here]
      exact ⟨_, staged', steers.run before crew books index input note ready act next seen stage
        after staged holds guarded here enabled member move⟩
    | background shared can =>
      exact ⟨crew, ⟨staged.seen, staged.follows⟩,
        steers.background before crew books shared staged holds guarded can⟩

theorem Steers.of_reachable {s : Pool σ ι ω ρ κ}
    (reached : ((system observer Spawns Background Start).restrict guard).Reachable s) :
    ∃ crew books, Staged moves s crew ∧ J s.shared crew books := by
  obtain ⟨books, accounted⟩ :=
    reached.observed ledger.opening (fun books s label => book ledger books s label)
  obtain ⟨crew, staged, holds⟩ := steers.of_accounted accounted
  exact ⟨crew, books, staged, holds⟩

end Steers

/-! ### Running a pool with books -/

/-- `runAll` with books. -/
def accountAll (observer : Observer σ ι ω κ) (ledger : Ledger σ ι ω κ β)
    (admits : Pool σ ι ω ρ κ → ω → ι → Bool) :
    Pool σ ι ω ρ κ × β → List (Nat × ι) → Option (Pool σ ι ω ρ κ × β)
  | s, [] => some s
  | (s, books), (index, input) :: rest =>
    (runAt observer admits s index input).bind fun t =>
      accountAll observer ledger admits (t, book ledger books s (.run index input)) rest

end Pool
end UHorse.Lib
