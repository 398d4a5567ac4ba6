import UHorse.Lib.Program

/-!
# Threads that share an invariant

Every action finds an invariant of the shared state and leaves it, as long as the action is one
that is admitted where it happens. In a pool that takes such actions only the invariant always
holds, and finished threads end as their programs promise.
-/

namespace UHorse.Lib

variable {σ ι ω ρ κ α β : Type}

/-- Each admitted action keeps what holds of the shared state. -/
def Contract.sharing (holds : σ → Prop) (admits : κ → ω → ι → σ → Prop) : Contract σ ι ω κ where
  relies _ := holds
  expects := admits
  waits _ _ _ := True
  grants _ _ _ _ := holds

variable {observer : Observer σ ι ω κ} {holds : σ → Prop} {admits : κ → ω → ι → σ → Prop}

namespace Program

variable (observer holds admits) in
abbrev Sharing (program : Program σ ι ω α) (seen : κ) (post : α → κ → Prop) : Prop :=
  program.Keeps observer (.sharing holds admits) seen post

theorem Sharing.update {note : ω} {run : ι → σ → σ} {value : ι → σ → α} {seen : κ}
    {post : α → κ → Prop}
    (kept : ∀ input s, holds s → admits seen note input s → holds (run input s))
    (after : ∀ input s, holds s → admits seen note input s →
      post (value input s) (observer.see seen note input s)) :
    (Program.update note run value).Sharing observer holds admits seen post :=
  Keeps.update kept after

theorem Sharing.query {note : ω} {value : ι → σ → α} {seen : κ} {post : α → κ → Prop}
    (after : ∀ input s, holds s → admits seen note input s →
      post (value input s) (observer.see seen note input s)) :
    (Program.query note value).Sharing observer holds admits seen post :=
  Keeps.update (fun _ _ held _ => held) after

end Program

namespace Pool

variable (observer holds admits) in
/-- The invariant holds, and every thread keeps it and ends with `post`. -/
structure Sharing (post : ρ → κ → Prop) (s : Pool σ ι ω ρ κ) : Prop where
  shared : holds s.shared
  threads : ∀ thread ∈ s.threads,
    thread.program.Sharing observer holds admits thread.seen post

variable {Spawns : Program σ ι ω ρ → Prop} {Background : σ → σ → Prop} {Start : σ → Prop}
  {guard : Pool σ ι ω ρ κ → PoolLabel σ ι ω ρ → Prop} {post : ρ → κ → Prop}
  {s : Pool σ ι ω ρ κ}

theorem sharing_of_reachable (initial : ∀ s, Start s → holds s)
    (background : ∀ s t, holds s → Background s t → holds t)
    (spawned : ∀ program, Spawns program →
      program.Sharing observer holds admits observer.start post)
    (guarded : ∀ (s : Pool σ ι ω ρ κ) index input note ready act next seen,
      s.threads[index]? = some ⟨.act note ready act next, seen⟩ → guard s (.run index input) →
      admits seen note input s.shared)
    (reached : ((system observer Spawns Background Start).restrict guard).Reachable s) :
    s.Sharing observer holds admits post := by
  refine reached.invariant ?_ ?_
  · rintro s ⟨nobody, started⟩
    refine ⟨initial _ started, ?_⟩
    rw [nobody]
    exact List.forall_mem_nil _
  · rintro s label t ⟨held, threads⟩ ⟨met, step⟩
    cases step with
    | spawn program can =>
      refine ⟨held, List.forall_mem_append.mpr ⟨threads, ?_⟩⟩
      exact List.forall_mem_singleton.mpr (spawned program can)
    | run index input note ready act next seen here enabled =>
      have admitted := guarded s index input note ready act next seen here met
      obtain ⟨kept, later⟩ :=
        (threads _ (List.mem_of_getElem? here)).2 input s.shared enabled held admitted
      refine ⟨kept, fun thread member => ?_⟩
      obtain old | rfl := List.mem_or_eq_of_mem_set member
      · exact threads thread old
      · exact later
    | background shared can => exact ⟨background _ _ held can, threads⟩

theorem Sharing.finished (sharing : s.Sharing observer holds admits post)
    {value : ρ} {seen : κ} (member : ⟨.done value, seen⟩ ∈ s.threads) : post value seen :=
  sharing.threads _ member

end Pool
end UHorse.Lib
