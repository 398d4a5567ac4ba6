import UHorse.Lib.Program

/-!
# Threads that do what their notes say

A relation says what an action with a note does, relative to what has been seen of its thread. When
every program that may start performs such actions only, so does every thread of every pool that is
reached, whatever the interleaving.
-/

namespace UHorse.Lib

variable {σ ι ω ρ κ α β : Type}

/-- Each action does what the relation says; nothing is relied on. -/
def Contract.doing (does : κ → ω → ι → σ → σ → Prop) : Contract σ ι ω κ where
  relies _ _ := True
  expects _ _ _ _ := True
  waits _ _ _ := True
  grants := does

/-- Actions are not looked at. -/
abbrev Anything : κ → ω → ι → σ → σ → Prop := fun _ _ _ _ _ => True

variable {observer : Observer σ ι ω κ} {does : κ → ω → ι → σ → σ → Prop}

namespace Program

variable (observer does) in
/-- Every action does what its note says. -/
abbrev Doing (program : Program σ ι ω α) (seen : κ) (post : α → κ → Prop) : Prop :=
  program.Keeps observer (.doing does) seen post

theorem Doing.update {note : ω} {run : ι → σ → σ} {value : ι → σ → α} {seen : κ}
    {post : α → κ → Prop} (act : ∀ input s, does seen note input s (run input s))
    (after : ∀ input s, post (value input s) (observer.see seen note input s)) :
    (Program.update note run value).Doing observer does seen post :=
  Keeps.update (fun input s _ _ => act input s) fun input s _ _ => after input s

theorem Doing.discard {program : Program σ ι ω α} {seen : κ}
    (doing : program.Doing observer does seen fun _ _ => True) :
    program.discard.Doing observer does seen fun _ _ => True :=
  Keeps.bind doing fun _ _ _ => Keeps.pure trivial

end Program

namespace Pool

variable (observer does) in
/-- All threads do what their notes say, and end with `post`. -/
def Ending (post : ρ → κ → Prop) (s : Pool σ ι ω ρ κ) : Prop :=
  ∀ thread ∈ s.threads, thread.program.Doing observer does thread.seen post

variable (observer does) in
/-- All threads do what their notes say. -/
def Doing (s : Pool σ ι ω ρ κ) : Prop :=
  ∀ thread ∈ s.threads, thread.program.Doing observer does thread.seen fun _ _ => True

variable {Spawns : Program σ ι ω ρ → Prop} {Background : σ → σ → Prop} {Start : σ → Prop}
  {s t : Pool σ ι ω ρ κ} {label : PoolLabel σ ι ω ρ} {index : Nat} {note : ω} {ready : σ → Bool}
  {act : ι → σ → σ} {next : ι → σ → Program σ ι ω ρ} {seen : κ} {post : ρ → κ → Prop}

theorem Ending.action (ending : s.Ending observer does post)
    (here : s.threads[index]? = some ⟨.act note ready act next, seen⟩)
    (enabled : ready s.shared = true) (input : ι) :
    does seen note input s.shared (act input s.shared) :=
  ((ending _ (List.mem_of_getElem? here)).2 input s.shared enabled trivial trivial).1

theorem Doing.action (doing : s.Doing observer does)
    (here : s.threads[index]? = some ⟨.act note ready act next, seen⟩)
    (enabled : ready s.shared = true) (input : ι) :
    does seen note input s.shared (act input s.shared) :=
  Ending.action doing here enabled input

/-- A finished thread has seen what its program promises. -/
theorem Ending.finished (ending : s.Ending observer does post) {thread : Thread σ ι ω ρ κ}
    (member : thread ∈ s.threads) (done : thread.program.isDone = true) :
    ∃ value, post value thread.seen := by
  have ends := ending thread member
  obtain ⟨program, seen⟩ := thread
  cases program with
  | done value => exact ⟨value, ends⟩
  | act => cases done

section Spawned

variable (spawned : ∀ program, Spawns program →
    program.Doing observer does observer.start post)
include spawned

theorem Ending.step (ending : s.Ending observer does post)
    (step : Step observer Spawns Background s label t) : t.Ending observer does post := by
  cases step with
  | spawn program can =>
    refine List.forall_mem_append.mpr ⟨ending, ?_⟩
    exact List.forall_mem_singleton.mpr (spawned program can)
  | run index input note ready act next seen here enabled =>
    intro thread member
    obtain old | rfl := List.mem_or_eq_of_mem_set member
    · exact ending thread old
    · exact ((ending _ (List.mem_of_getElem? here)).2 input s.shared enabled trivial trivial).2
  | background shared can => exact ending

theorem ending_of_reachable (reached : (system observer Spawns Background Start).Reachable s) :
    s.Ending observer does post := by
  refine reached.invariant ?_ fun s label t ending step => ending.step spawned step
  rintro s ⟨nobody, -⟩
  rw [Ending, nobody]
  exact List.forall_mem_nil _

end Spawned

section Spawned

variable (spawned : ∀ program, Spawns program →
    program.Doing observer does observer.start fun _ _ => True)
include spawned

theorem Doing.step (doing : s.Doing observer does)
    (step : Step observer Spawns Background s label t) : t.Doing observer does :=
  Ending.step spawned doing step

end Spawned
end Pool

/-! ## Programs that never wait -/

namespace Program

/-- No action has to wait. -/
def Immediate : Program σ ι ω α → Prop
  | .done _ => True
  | .act _ ready _ next => (∀ s, ready s = true) ∧ ∀ input s, (next input s).Immediate

theorem Immediate.bind {program : Program σ ι ω α} {rest : α → Program σ ι ω β}
    (first : program.Immediate) (second : ∀ value, (rest value).Immediate) :
    (program >>= rest).Immediate := by
  induction program with
  | done value => exact second value
  | act note ready run next ih => exact ⟨first.1, fun input s => ih input s (first.2 input s)⟩

theorem immediate_update (note : ω) (run : ι → σ → σ) (value : ι → σ → α) :
    (update note run value).Immediate := ⟨fun _ => rfl, fun _ _ => trivial⟩

end Program

/-- No thread ever waits if no program that starts does. -/
theorem Pool.immediate_of_reachable {Spawns : Program σ ι ω ρ → Prop} {Background : σ → σ → Prop}
    {Start : σ → Prop} (spawned : ∀ program, Spawns program → program.Immediate)
    {s : Pool σ ι ω ρ κ} (reached : (system observer Spawns Background Start).Reachable s) :
    ∀ thread ∈ s.threads, thread.program.Immediate := by
  refine reached.invariant (P := fun s => ∀ thread ∈ s.threads, thread.program.Immediate) ?_ ?_
  · rintro s ⟨nobody, -⟩
    rw [nobody]
    exact List.forall_mem_nil _
  · intro s label t immediate step
    cases step with
    | spawn program can =>
      refine List.forall_mem_append.mpr ⟨immediate, ?_⟩
      exact List.forall_mem_singleton.mpr (spawned program can)
    | run index input note ready act next seen here enabled =>
      intro thread member
      obtain old | rfl := List.mem_or_eq_of_mem_set member
      · exact immediate thread old
      · exact (immediate _ (List.mem_of_getElem? here)).2 input s.shared
    | background shared can => exact immediate

end UHorse.Lib
