import UHorse.Lib.Program

/-!
# Programs that run alone

A program that runs alone performs its actions one after the other, each with an input
of its own; the trace lists the notes of the actions with their inputs. `Runs` unfolds
along the structure of the program. What every single action of a program does, whatever
it is given, is known of its runs without unfolding them.
-/

namespace UHorse.Lib.Program

variable {σ ι ω α β : Type}

/-- The program runs from `s` to `t` with the actions and inputs of the trace, and returns
the value. -/
def Runs : Program σ ι ω α → σ → List (ω × ι) → α → σ → Prop
  | .done value, s, trace, result, t => trace = [] ∧ result = value ∧ t = s
  | .act note ready run next, s, trace, result, t => ready s = true ∧
      ∃ input rest, trace = (note, input) :: rest ∧
        (next input s).Runs (run input s) rest result t

section Rules

variable {s t : σ} {trace : List (ω × ι)} {value : α}

theorem runs_pure {result : α} :
    (pure value : Program σ ι ω α).Runs s trace result t ↔
      trace = [] ∧ result = value ∧ t = s := Iff.rfl

theorem runs_bind {program : Program σ ι ω α} {rest : α → Program σ ι ω β} {result : β} :
    (program >>= rest).Runs s trace result t ↔
      ∃ first second value u, trace = first ++ second ∧ program.Runs s first value u ∧
        (rest value).Runs u second result t := by
  induction program generalizing s trace with
  | done value =>
    constructor
    · intro runs
      exact ⟨[], trace, value, s, rfl, ⟨rfl, rfl, rfl⟩, runs⟩
    · rintro ⟨_, second, _, _, rfl, ⟨rfl, rfl, rfl⟩, runs⟩
      exact runs
  | act note ready run next ih =>
    constructor
    · rintro ⟨isReady, input, later, rfl, runs⟩
      obtain ⟨first, second, value, u, rfl, before, after⟩ := (ih input s).mp runs
      exact ⟨(note, input) :: first, second, value, u, rfl,
        ⟨isReady, input, first, rfl, before⟩, after⟩
    · rintro ⟨_, second, value, u, rfl, ⟨isReady, input, first, rfl, before⟩, after⟩
      exact ⟨isReady, input, first ++ second, rfl,
        (ih input s).mpr ⟨first, second, value, u, rfl, before, after⟩⟩

theorem runs_update {note : ω} {run : ι → σ → σ} {result : ι → σ → α} :
    (update note run result).Runs s trace value t ↔
      ∃ input, trace = [(note, input)] ∧ value = result input s ∧ t = run input s := by
  constructor
  · rintro ⟨-, input, _, rfl, rfl, rfl, rfl⟩
    exact ⟨input, rfl, rfl, rfl⟩
  · rintro ⟨input, rfl, rfl, rfl⟩
    exact ⟨rfl, input, [], rfl, rfl, rfl, rfl⟩

theorem runs_query {note : ω} {result : ι → σ → α} :
    (query note result : Program σ ι ω α).Runs s trace value t ↔
      ∃ input, trace = [(note, input)] ∧ value = result input s ∧ t = s := runs_update

theorem runs_await {note : ω} {ready : σ → Bool} {run : ι → σ → σ} :
    (await note ready run).Runs s trace () t ↔
      ready s = true ∧ ∃ input, trace = [(note, input)] ∧ t = run input s := by
  constructor
  · rintro ⟨isReady, input, _, rfl, rfl, -, rfl⟩
    exact ⟨isReady, input, rfl, rfl⟩
  · rintro ⟨isReady, input, rfl, rfl⟩
    exact ⟨isReady, input, [], rfl, rfl, rfl, rfl⟩

/-- A program on a part of the state runs there. -/
theorem runs_zoom {τ υ : Type} {get : τ → σ} {put : σ → τ → τ} {rename : ω → υ}
    (get_put : ∀ s t, get (put s t) = s) (put_get : ∀ t, put (get t) t = t)
    (put_put : ∀ s s' t, put s' (put s t) = put s' t) {program : Program σ ι ω α} {t t' : τ}
    {trace : List (υ × ι)} :
    (program.zoom get put id rename).Runs t trace value t' ↔
      ∃ inner s, trace = inner.map (Prod.map rename id) ∧
        program.Runs (get t) inner value s ∧ t' = put s t := by
  induction program generalizing t trace with
  | done result =>
    constructor
    · rintro ⟨rfl, rfl, rfl⟩
      exact ⟨[], get t', rfl, ⟨rfl, rfl, rfl⟩, (put_get t').symm⟩
    · rintro ⟨_, _, rfl, ⟨rfl, rfl, rfl⟩, rfl⟩
      exact ⟨rfl, rfl, put_get t⟩
  | act note ready run next ih =>
    constructor
    · rintro ⟨isReady, input, later, rfl, runs⟩
      obtain ⟨inner, s, rfl, ran, rfl⟩ := (ih input (get t)).mp runs
      rw [get_put] at ran
      exact ⟨(note, input) :: inner, s, rfl, ⟨isReady, input, inner, rfl, ran⟩, put_put _ _ _⟩
    · rintro ⟨_, s, rfl, ⟨isReady, input, inner, rfl, ran⟩, rfl⟩
      refine ⟨isReady, input, inner.map (Prod.map rename id), rfl, ?_⟩
      refine (ih input (get t)).mpr ⟨inner, s, rfl, ?_, (put_put _ _ _).symm⟩
      rwa [get_put]

end Rules

/-! ## What every action does -/

/-- Every action of the program satisfies `holds`, whatever state and input it gets. -/
inductive Each (holds : ω → σ → σ → Prop) : Program σ ι ω α → Prop
  | done (value : α) : Each holds (.done value)
  | act {note : ω} {ready : σ → Bool} {run : ι → σ → σ} {next : ι → σ → Program σ ι ω α}
      (here : ∀ input s, holds note s (run input s))
      (later : ∀ input s, Each holds (next input s)) : Each holds (.act note ready run next)

section Each

variable {holds : ω → σ → σ → Prop}

theorem Each.pure (value : α) : (Pure.pure value : Program σ ι ω α).Each holds := .done value

theorem Each.bind {program : Program σ ι ω α} {rest : α → Program σ ι ω β}
    (first : program.Each holds) (second : ∀ value, (rest value).Each holds) :
    (program >>= rest).Each holds := by
  induction first with
  | done value => exact second value
  | act here _ ih => exact .act here ih

theorem Each.update {note : ω} {run : ι → σ → σ} {value : ι → σ → α}
    (every : ∀ input s, holds note s (run input s)) : (update note run value).Each holds :=
  .act every fun _ _ => .done _

theorem Each.query {note : ω} {value : ι → σ → α} (every : ∀ s, holds note s s) :
    (query note value : Program σ ι ω α).Each holds :=
  Each.update fun _ s => every s

/-- What every action keeps, a run keeps, and its trace has only their notes. -/
theorem Each.runs {fits : ω → Prop} {keeps : σ → σ → Prop} {program : Program σ ι ω α}
    (each : program.Each fun note s t => fits note ∧ keeps s t) (refl : ∀ s, keeps s s)
    (trans : ∀ s t u, keeps s t → keeps t u → keeps s u) {s t : σ} {trace : List (ω × ι)}
    {value : α} (runs : program.Runs s trace value t) :
    (∀ entry ∈ trace, fits entry.1) ∧ keeps s t := by
  induction each generalizing s trace with
  | done value =>
    obtain ⟨rfl, -, rfl⟩ := runs
    exact ⟨nofun, refl _⟩
  | act here _ ih =>
    obtain ⟨-, input, rest, rfl, later⟩ := runs
    obtain ⟨fitting, first⟩ := here input s
    obtain ⟨others, second⟩ := ih input s later
    refine ⟨?_, trans _ _ _ first second⟩
    intro entry member
    obtain rfl | member := List.mem_cons.mp member
    · exact fitting
    · exact others entry member

end Each

/-! ## Running a program -/

/-- Run the program with one input for each of its actions. -/
def runAlone : Program σ ι ω α → List ι → σ → Option (List (ω × ι) × α × σ)
  | .done value, [], s => some ([], value, s)
  | .act note ready run next, input :: inputs, s =>
    if ready s then
      ((next input s).runAlone inputs (run input s)).map fun after =>
        ((note, input) :: after.1, after.2)
    else none
  | _, _, _ => none

theorem runs_of_runAlone {program : Program σ ι ω α} {inputs : List ι} {s t : σ}
    {trace : List (ω × ι)} {value : α}
    (ran : program.runAlone inputs s = some (trace, value, t)) :
    program.Runs s trace value t := by
  induction program generalizing inputs s trace with
  | done result =>
    cases inputs with
    | nil =>
      cases ran
      exact ⟨rfl, rfl, rfl⟩
    | cons input inputs => cases ran
  | act note ready run next ih =>
    cases inputs with
    | nil => cases ran
    | cons input inputs =>
      rw [runAlone] at ran
      split at ran
      · next isReady =>
          obtain ⟨⟨later, result, u⟩, after, same⟩ := Option.map_eq_some_iff.mp ran
          cases same
          exact ⟨isReady, input, later, rfl, ih input s after⟩
      · cases ran

/-! ## Waiting alone -/

/-- Some run alone comes to an action that is not ready. -/
def CanBlock : Program σ ι ω α → σ → Prop
  | .done _, _ => False
  | .act _ ready run next, s =>
    ready s = false ∨ ready s = true ∧ ∃ input, (next input s).CanBlock (run input s)

section CanBlock

variable {s : σ}

theorem canBlock_bind {program : Program σ ι ω α} {rest : α → Program σ ι ω β} :
    (program >>= rest).CanBlock s ↔ program.CanBlock s ∨
      ∃ trace value t, program.Runs s trace value t ∧ (rest value).CanBlock t := by
  induction program generalizing s with
  | done value =>
    constructor
    · intro blocks
      exact .inr ⟨[], value, s, ⟨rfl, rfl, rfl⟩, blocks⟩
    · rintro (never | ⟨_, _, _, ⟨rfl, rfl, rfl⟩, blocks⟩)
      · exact never.elim
      · exact blocks
  | act note ready run next ih =>
    constructor
    · rintro (waits | ⟨isReady, input, blocks⟩)
      · exact .inl (.inl waits)
      · obtain inside | ⟨trace, value, t, runs, later⟩ := (ih input s).mp blocks
        · exact .inl (.inr ⟨isReady, input, inside⟩)
        · exact .inr ⟨(note, input) :: trace, value, t, ⟨isReady, input, trace, rfl, runs⟩, later⟩
    · rintro ((waits | ⟨isReady, input, inside⟩) | ⟨_, value, t, ⟨isReady, input, trace, -, runs⟩,
        later⟩)
      · exact .inl waits
      · exact .inr ⟨isReady, input, (ih input s).mpr (.inl inside)⟩
      · exact .inr ⟨isReady, input, (ih input s).mpr (.inr ⟨trace, value, t, runs, later⟩)⟩

theorem not_canBlock_update (note : ω) (run : ι → σ → σ) (value : ι → σ → α) :
    ¬ (update note run value).CanBlock s := by
  rintro (waits | ⟨-, input, never⟩)
  · cases waits
  · exact never

theorem canBlock_update_bind {note : ω} {run : ι → σ → σ} {value : ι → σ → α}
    {rest : α → Program σ ι ω β} :
    (update note run value >>= rest).CanBlock s ↔
      ∃ input, (rest (value input s)).CanBlock (run input s) :=
  ⟨fun blocks => blocks.elim Bool.noConfusion And.right, fun blocks => .inr ⟨rfl, blocks⟩⟩

theorem canBlock_await {note : ω} {ready : σ → Bool} {run : ι → σ → σ} :
    (await note ready run).CanBlock s ↔ ready s = false :=
  ⟨fun blocks => blocks.elim id fun later => later.2.elim fun _ never => never.elim, .inl⟩

/-- A program that never waits runs to its end. -/
theorem exists_runs [Inhabited ι] {program : Program σ ι ω α} (free : ¬ program.CanBlock s) :
    ∃ trace value t, program.Runs s trace value t := by
  induction program generalizing s with
  | done value => exact ⟨[], value, s, rfl, rfl, rfl⟩
  | act note ready run next ih =>
    obtain ⟨goes, later⟩ := not_or.mp free
    have isReady : ready s = true := by simpa using goes
    obtain ⟨trace, value, t, runs⟩ :=
      ih default s fun blocks => later ⟨isReady, default, blocks⟩
    exact ⟨(note, default) :: trace, value, t, isReady, default, trace, rfl, runs⟩

end CanBlock

end UHorse.Lib.Program
