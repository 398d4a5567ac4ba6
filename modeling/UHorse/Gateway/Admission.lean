import UHorse.Gateway.GlobalRateLimiter
import UHorse.Lib.Automaton
import UHorse.Lib.Doing
import UHorse.Lib.Numerals
import UHorse.Lib.Occurrences

/-!
# What the global rate limiter admits

A check that is allowed belongs to the window in which it raised the counter of requests. The
counter is read and raised in two steps, and cleared in a step of its own after a window was
opened; as long as no check raises it beyond the limit or between these two steps, it counts
the checks of the present window. The counter of connections counts those that are open and
those that are about to be refused.
-/

namespace UHorse.Gateway.GlobalRateLimiter

open UHorse.Lib

/-- What is remembered of a call: the window it was counted in, and whether its connection is
open. -/
structure Visit where
  counted : Option Nat
  connected : Bool
deriving DecidableEq

/-- The counter that a connection raised was below the limit. -/
def admits (config : GlobalRateLimitConfig) (s : Limiter) : Bool :=
  decide (s.currentConcurrent < config.maxConcurrent)

def visits (config : GlobalRateLimitConfig) : Observer Limiter Instant LimiterNote Visit where
  start := ⟨none, false⟩
  see seen note _ s :=
    match note with
    | .count => { seen with counted := some s.window }
    | .begin => { seen with connected := admits config s }
    | .finish => { seen with connected := false }
    | .loadConcurrent | .readClock | .enterWindow | .clearRequests | .loadRequests | .readStart
    | .undo => seen

abbrev LimiterPool := Pool Limiter Instant LimiterNote LimiterReply Visit

def limiterSystem (config : GlobalRateLimitConfig) :
    System LimiterPool (PoolLabel Limiter Instant LimiterNote LimiterReply) :=
  Pool.system (visits config) (Spawns config) (fun _ _ => False) fun s => ∃ now, s = .new now

/-- The note of the action that a program can perform. -/
def nextNote {α : Type} (s : Limiter) : LimiterProgram α → Option LimiterNote
  | .done _ => none
  | .act note ready _ _ => if ready s then some note else none

/-- Every check that was allowed was counted in one window, the windows and the connections
stay within their limits, and no subtraction underflows. -/
structure NeverOverAdmits (config : GlobalRateLimitConfig) (s : LimiterPool) : Prop where
  allowed : ∀ remaining resetAfter seen,
    ⟨.done (.checked (.allowed remaining resetAfter)), seen⟩ ∈ s.threads →
    seen.counted.isSome = true ∧ remaining < config.base.maxRequests
  windows : ∀ window,
    s.threads.countP (fun thread => thread.seen.counted = some window) ≤
      config.base.maxRequests.toNat
  connections :
    s.threads.countP (fun thread => thread.seen.connected) ≤ config.maxConcurrent.toNat
  subtractions : ∀ thread ∈ s.threads,
    nextNote s.shared thread.program = some .undo ∨
      nextNote s.shared thread.program = some .finish →
    0 < s.shared.currentConcurrent.toNat

/-! ## The condition on the steps -/

/-- The counter of requests is raised below the limit and not before it was cleared for the
present window; the counter of connections does not wrap around. -/
def Fits (config : GlobalRateLimitConfig) (s : Limiter) : LimiterNote → Prop
  | .count => s.windowRequests < config.base.maxRequests ∧ s.locked = false
  | .begin => s.currentConcurrent.toNat + 1 < 2 ^ 64
  | .loadConcurrent | .readClock | .enterWindow | .clearRequests | .loadRequests | .readStart
  | .undo | .finish => True

/-- The next action of the thread that moves fits. -/
def Admitted (config : GlobalRateLimitConfig) (s : LimiterPool) :
    PoolLabel Limiter Instant LimiterNote LimiterReply → Prop
  | .run index _ => ∀ note ready act next seen,
      s.threads[index]? = some ⟨.act note ready act next, seen⟩ → Fits config s.shared note
  | .spawn _ | .background _ => True

/-! ## The stages of a call -/

inductive Stage
  | idle
  /-- It opened a window and holds the mutex. -/
  | resetting
  /-- It was counted in a window. -/
  | counted
  /-- Its connection is to be refused. -/
  | refused
  | connected
deriving DecidableEq

/-- What a call can do next. -/
inductive Moves (config : GlobalRateLimitConfig) :
    Stage → LimiterNote → Instant → Limiter → Stage → Limiter → Prop
  | look {stage : Stage} {note : LimiterNote} {now : Instant} {s : Limiter} :
      note ∉ [.count, .begin, .undo, .finish] → Moves config stage note now s stage s
  | openWindow {now start : Instant} {s : Limiter} : s.locked = false →
      Moves config .idle .enterWindow now s .resetting
        { s with windowStart := start, locked := true, window := s.window + 1 }
  | clear {now : Instant} {s : Limiter} :
      Moves config .resetting .clearRequests now s .idle
        { s with windowRequests := 0, locked := false }
  | count {now : Instant} {s : Limiter} :
      Moves config .idle .count now s .counted { s with windowRequests := s.windowRequests + 1 }
  | accept {now : Instant} {s : Limiter} : admits config s = true →
      Moves config .idle .begin now s .connected
        { s with currentConcurrent := s.currentConcurrent + 1 }
  | refuse {now : Instant} {s : Limiter} : admits config s = false →
      Moves config .idle .begin now s .refused
        { s with currentConcurrent := s.currentConcurrent + 1 }
  | undo {now : Instant} {s : Limiter} :
      Moves config .refused .undo now s .idle
        { s with currentConcurrent := s.currentConcurrent - 1 }
  | finish {now : Instant} {s : Limiter} :
      Moves config .connected .finish now s .idle
        { s with currentConcurrent := s.currentConcurrent - 1 }

section Follows

variable {config : GlobalRateLimitConfig}

theorem follows_query {α : Type} {note : LimiterNote} {value : Instant → Limiter → α}
    {stage : Stage} (looks : note ∉ [.count, .begin, .undo, .finish]) :
    (Program.query note value).Follows (Moves config) stage fun _ after => after = stage :=
  Program.Follows.update fun _ _ => ⟨stage, .look looks, rfl⟩

theorem follows_withStart {α : Type} {note : LimiterNote} {run : Limiter → Limiter}
    {value : Limiter → α} {stage : Stage} {post : α → Stage → Prop}
    (move : ∀ now s, s.locked = false →
      ∃ after, Moves config stage note now s after (run s) ∧ post (value s) after) :
    (withStart note run value).Follows (Moves config) stage post := by
  intro now s free
  exact move now s (by simpa using free)

theorem follows_readStart {α : Type} (stage : Stage) (value : Limiter → α) :
    (withStart .readStart id value).Follows (Moves config) stage fun _ _ => True :=
  follows_withStart fun _ _ _ => ⟨stage, .look (by decide), trivial⟩

theorem follows_resetWindow (now : Instant) :
    (resetWindow config now).Follows (Moves config) .idle fun _ stage => stage = .idle := by
  rw [resetWindow]
  refine Program.Follows.bind (q := fun over_ stage =>
    stage = if over_ then .resetting else .idle) ?_ ?_
  · refine follows_withStart fun _ s free => ?_
    by_cases over_ : expired config now s = true
    · refine ⟨.resetting, ?_, (if_pos over_).symm⟩
      rw [if_pos over_]
      exact .openWindow free
    · refine ⟨.idle, ?_, (if_neg over_).symm⟩
      rw [if_neg over_]
      exact .look (by decide)
  · rintro (_ | _) stage rfl
    · exact Program.Follows.pure rfl
    · exact Program.Follows.update fun _ _ => ⟨.idle, .clear, rfl⟩

theorem follows_checkWindow :
    (checkWindow config).Follows (Moves config) .idle fun _ _ => True := by
  rw [checkWindow]
  refine Program.Follows.bind (follows_query (by decide)) ?_
  rintro now _ rfl
  refine Program.Follows.bind (follows_resetWindow now) ?_
  rintro ⟨⟩ _ rfl
  refine Program.Follows.bind (follows_query (by decide)) ?_
  rintro requests _ rfl
  split
  · exact Program.Follows.bind (follows_readStart .idle _) fun _ _ _ => Program.Follows.pure trivial
  · refine Program.Follows.bind (q := fun _ stage => stage = .counted)
      (Program.Follows.update fun _ _ => ⟨.counted, .count, rfl⟩) ?_
    rintro ⟨⟩ _ rfl
    exact Program.Follows.bind (follows_readStart .counted _)
      fun _ _ _ => Program.Follows.pure trivial

theorem follows_check : (check config).Follows (Moves config) .idle fun _ _ => True := by
  rw [check]
  split
  · exact Program.Follows.pure trivial
  · refine Program.Follows.bind (follows_query (by decide)) ?_
    rintro concurrent _ rfl
    split
    · exact Program.Follows.pure trivial
    · exact follows_checkWindow

theorem follows_startConnection :
    (startConnection config).Follows (Moves config) .idle
      fun started stage => stage = if started then .connected else .idle := by
  rw [startConnection]
  refine Program.Follows.bind (q := fun current stage =>
    stage = if current ≥ config.maxConcurrent then .refused else .connected) ?_ ?_
  · refine Program.Follows.update fun _ s => ?_
    cases below : admits config s with
    | true =>
      refine ⟨.connected, .accept below, ?_⟩
      rw [if_neg (UInt64.not_le.mpr (of_decide_eq_true below))]
    | false =>
      refine ⟨.refused, .refuse below, ?_⟩
      rw [if_pos (UInt64.not_lt.mp (of_decide_eq_false below))]
  · rintro current _ rfl
    split
    · exact Program.Follows.bind (q := fun _ stage => stage = .idle)
        (Program.Follows.update fun _ _ => ⟨.idle, .undo, rfl⟩)
        fun _ _ here => Program.Follows.pure here
    · exact Program.Follows.pure rfl

theorem follows_connect : (connect config).Follows (Moves config) .idle fun _ _ => True := by
  rw [connect]
  refine Program.Follows.bind follows_startConnection ?_
  rintro (_ | _) _ rfl
  · exact Program.Follows.pure trivial
  · exact Program.Follows.bind (q := fun _ _ => True)
      (Program.Follows.update fun _ _ => ⟨.idle, .finish, trivial⟩)
      fun _ _ _ => Program.Follows.pure trivial

theorem follows_spawned {program : LimiterProgram LimiterReply} (spawns : Spawns config program) :
    program.Follows (Moves config) .idle fun _ _ => True := by
  cases spawns with
  | check => exact Program.Follows.bind follows_check fun _ _ _ => Program.Follows.pure trivial
  | connect => exact Program.Follows.bind follows_connect fun _ _ _ => Program.Follows.pure trivial

end Follows

/-! ## Counting calls -/

abbrev Crew := List (Visit × Stage)

def countedIn (window : Nat) (crew : Crew) : Nat :=
  crew.countP fun member => decide (member.1.counted = some window)

def atStage (p : Stage → Bool) (crew : Crew) : Nat := crew.countP fun member => p member.2

def Stage.holdsMutex : Stage → Bool
  | .resetting => true
  | .idle | .counted | .refused | .connected => false

def Stage.isCounted : Stage → Bool
  | .counted => true
  | .idle | .resetting | .refused | .connected => false

def Stage.isConnected : Stage → Bool
  | .connected => true
  | .idle | .resetting | .counted | .refused => false

/-- It has raised the counter of connections. -/
def Stage.isConcurrent : Stage → Bool
  | .refused | .connected => true
  | .idle | .resetting | .counted => false

/-- What is remembered of a call agrees with its stage. -/
structure Agrees (member : Visit × Stage) : Prop where
  connected : member.1.connected = member.2.isConnected
  counted : member.1.counted.isSome = member.2.isCounted

/-- The counters count the calls. -/
structure Tallied (config : GlobalRateLimitConfig) (s : Limiter) (crew : Crew) : Prop where
  agree : ∀ member ∈ crew, Agrees member
  mutex : atStage Stage.holdsMutex crew = s.locked.toNat
  concurrent : atStage Stage.isConcurrent crew = s.currentConcurrent.toNat
  connections : atStage Stage.isConnected crew ≤ config.maxConcurrent.toNat
  requests : countedIn s.window crew = if s.locked then 0 else s.windowRequests.toNat
  windows : ∀ window, countedIn window crew ≤ config.base.maxRequests.toNat
  later : ∀ window, s.window < window → countedIn window crew = 0

section Counting

variable {crew : Crew} {index : Nat} {seen : Visit} {stage : Stage}

theorem atStage_set (here : crew[index]? = some (seen, stage)) (p : Stage → Bool) (visit : Visit)
    (after : Stage) :
    atStage p (crew.set index (visit, after)) + (p stage).toNat =
      atStage p crew + (p after).toNat :=
  countP_set_add (fun member : Visit × Stage => p member.2) here (visit, after)

theorem countedIn_set (here : crew[index]? = some (seen, stage)) (window : Nat) (visit : Visit)
    (after : Stage) :
    countedIn window (crew.set index (visit, after)) +
        (decide (seen.counted = some window)).toNat =
      countedIn window crew + (decide (visit.counted = some window)).toNat :=
  countP_set_add (fun member : Visit × Stage => decide (member.1.counted = some window)) here
    (visit, after)

/-- A call whose window is not touched changes no window. -/
theorem countedIn_set_same (here : crew[index]? = some (seen, stage)) (window : Nat)
    {visit : Visit} (same : visit.counted = seen.counted) (after : Stage) :
    countedIn window (crew.set index (visit, after)) = countedIn window crew := by
  have counts := countedIn_set here window visit after
  rw [same] at counts
  exact Nat.add_right_cancel counts

theorem agree_set (agree : ∀ member ∈ crew, Agrees member) {visit : Visit} {after : Stage}
    (agrees : Agrees (visit, after)) :
    ∀ member ∈ crew.set index (visit, after), Agrees member := by
  intro member inside
  obtain old | rfl := List.mem_or_eq_of_mem_set inside
  · exact agree member old
  · exact agrees

theorem atStage_append (p : Stage → Bool) (visit : Visit) (stage : Stage) :
    atStage p (crew ++ [(visit, stage)]) = atStage p crew + (p stage).toNat := by
  rw [atStage, List.countP_append, ← atStage]
  cases holds : p stage <;> simp [holds]

theorem countedIn_append {visit : Visit} (none_ : visit.counted = none) (window : Nat)
    (stage : Stage) : countedIn window (crew ++ [(visit, stage)]) = countedIn window crew := by
  rw [countedIn, List.countP_append]
  simp [none_, countedIn]

theorem atStage_pos (here : crew[index]? = some (seen, stage)) {p : Stage → Bool}
    (holds : p stage = true) : 0 < atStage p crew :=
  List.countP_pos_iff.mpr ⟨_, List.mem_of_getElem? here, holds⟩

theorem atStage_le {p q : Stage → Bool} (implies : ∀ stage, p stage = true → q stage = true)
    (crew : Crew) : atStage p crew ≤ atStage q crew :=
  List.countP_mono_left fun member _ => implies member.2

end Counting

namespace Tallied

variable {config : GlobalRateLimitConfig} {s : Limiter} {crew : Crew} {index : Nat} {seen : Visit}
  {stage : Stage}

theorem empty (config : GlobalRateLimitConfig) (now : Instant) :
    Tallied config (.new now) [] where
  agree _ member := absurd member List.not_mem_nil
  mutex := rfl
  concurrent := rfl
  connections := Nat.zero_le _
  requests := rfl
  windows _ := Nat.zero_le _
  later _ _ := rfl

theorem spawn (tallied : Tallied config s crew) :
    Tallied config s (crew ++ [(⟨none, false⟩, .idle)]) where
  agree := List.forall_mem_append.mpr
    ⟨tallied.agree, List.forall_mem_singleton.mpr ⟨rfl, rfl⟩⟩
  mutex := by rw [atStage_append]; exact tallied.mutex
  concurrent := by rw [atStage_append]; exact tallied.concurrent
  connections := by rw [atStage_append]; exact tallied.connections
  requests := by rw [countedIn_append rfl]; exact tallied.requests
  windows window := by rw [countedIn_append rfl]; exact tallied.windows window
  later window less := by rw [countedIn_append rfl]; exact tallied.later window less

/-- A window is opened: nothing was counted in it yet. -/
theorem openWindow (tallied : Tallied config s crew) (here : crew[index]? = some (seen, .idle))
    (free : s.locked = false) (start : Instant) :
    Tallied config { s with windowStart := start, locked := true, window := s.window + 1 }
      (crew.set index (seen, .resetting)) := by
  have agrees := tallied.agree _ (List.mem_of_getElem? here)
  have mutex := atStage_set here Stage.holdsMutex seen .resetting
  have concurrent := atStage_set here Stage.isConcurrent seen .resetting
  have connections := atStage_set here Stage.isConnected seen .resetting
  refine ⟨agree_set tallied.agree ⟨agrees.connected, agrees.counted⟩, ?_, ?_, ?_, ?_, ?_, ?_⟩
  · rw [tallied.mutex, free] at mutex
    exact mutex
  · exact concurrent.trans tallied.concurrent
  · exact (Nat.le_of_eq connections).trans tallied.connections
  · rw [countedIn_set_same here _ rfl, if_pos rfl]
    exact tallied.later _ (Nat.lt_succ_self _)
  · intro window
    rw [countedIn_set_same here _ rfl]
    exact tallied.windows window
  · intro window less
    rw [countedIn_set_same here _ rfl]
    exact tallied.later window ((Nat.lt_succ_self _).trans less)

/-- The counter is cleared for a window in which nothing was counted. -/
theorem clear (tallied : Tallied config s crew) (here : crew[index]? = some (seen, .resetting)) :
    Tallied config { s with windowRequests := 0, locked := false }
      (crew.set index (seen, .idle)) := by
  have agrees := tallied.agree _ (List.mem_of_getElem? here)
  have held : s.locked = true := by
    have some_ := atStage_pos (p := Stage.holdsMutex) here rfl
    rw [tallied.mutex] at some_
    cases held : s.locked with
    | true => rfl
    | false => simp [held] at some_
  have mutex := atStage_set here Stage.holdsMutex seen .idle
  have concurrent := atStage_set here Stage.isConcurrent seen .idle
  have connections := atStage_set here Stage.isConnected seen .idle
  have requests := tallied.requests
  rw [held, if_pos rfl] at requests
  refine ⟨agree_set tallied.agree ⟨agrees.connected, agrees.counted⟩, ?_, ?_, ?_, ?_, ?_, ?_⟩
  · rw [tallied.mutex, held] at mutex
    exact Nat.add_right_cancel mutex
  · exact concurrent.trans tallied.concurrent
  · exact (Nat.le_of_eq connections).trans tallied.connections
  · rw [countedIn_set_same here _ rfl]
    exact requests
  · intro window
    rw [countedIn_set_same here _ rfl]
    exact tallied.windows window
  · intro window less
    rw [countedIn_set_same here _ rfl]
    exact tallied.later window less

/-- A check is counted below the limit. -/
theorem count (tallied : Tallied config s crew) (here : crew[index]? = some (seen, .idle))
    (fits : Fits config s .count) :
    Tallied config { s with windowRequests := s.windowRequests + 1 }
      (crew.set index ({ seen with counted := some s.window }, .counted)) := by
  obtain ⟨below, free⟩ := fits
  have small := UInt64.lt_iff_toNat_lt.mp below
  have next := Numerals.toNat_succ_of_lt below
  have agrees := tallied.agree _ (List.mem_of_getElem? here)
  have uncounted : seen.counted = none := Option.isSome_eq_false_iff.mp agrees.counted |>
    Option.isNone_iff_eq_none.mp
  have mutex := atStage_set here Stage.holdsMutex { seen with counted := some s.window } .counted
  have concurrent := atStage_set here Stage.isConcurrent { seen with counted := some s.window }
    .counted
  have connections := atStage_set here Stage.isConnected { seen with counted := some s.window }
    .counted
  have counts : ∀ window,
      countedIn window (crew.set index ({ seen with counted := some s.window }, .counted)) =
        countedIn window crew + (decide (s.window = window)).toNat := by
    intro window
    have counted := countedIn_set here window { seen with counted := some s.window } .counted
    simpa [uncounted] using counted
  have requests := tallied.requests
  rw [free] at requests
  refine ⟨agree_set tallied.agree ⟨agrees.connected, rfl⟩, ?_, ?_, ?_, ?_, ?_, ?_⟩
  · exact mutex.trans tallied.mutex
  · exact concurrent.trans tallied.concurrent
  · exact (Nat.le_of_eq connections).trans tallied.connections
  · rw [counts, requests, free, decide_eq_true rfl]
    exact next.symm
  · intro window
    rw [counts]
    by_cases present : s.window = window
    · subst present
      rw [requests, decide_eq_true rfl]
      exact small
    · rw [decide_eq_false present]
      exact tallied.windows window
  · intro window less
    rw [counts, decide_eq_false (Nat.ne_of_lt less)]
    exact tallied.later window less

/-- A call that changes the counter of connections leaves the windows alone. -/
theorem reconnect (tallied : Tallied config s crew) (here : crew[index]? = some (seen, stage))
    {visit : Visit} {after : Stage} {current : UInt64} (same : visit.counted = seen.counted)
    (mutex : stage.holdsMutex = after.holdsMutex) (agrees : Agrees (visit, after))
    (concurrent : current.toNat + stage.isConcurrent.toNat =
      s.currentConcurrent.toNat + after.isConcurrent.toNat)
    (connections : atStage Stage.isConnected crew + after.isConnected.toNat ≤
      config.maxConcurrent.toNat + stage.isConnected.toNat) :
    Tallied config { s with currentConcurrent := current } (crew.set index (visit, after)) := by
  refine ⟨agree_set tallied.agree agrees, ?_, ?_, ?_, ?_, ?_, ?_⟩
  · have moved := atStage_set here Stage.holdsMutex visit after
    rw [mutex] at moved
    exact (Nat.add_right_cancel moved).trans tallied.mutex
  · have moved := atStage_set here Stage.isConcurrent visit after
    rw [tallied.concurrent, ← concurrent] at moved
    exact Nat.add_right_cancel moved
  · have moved := atStage_set here Stage.isConnected visit after
    omega
  · rw [countedIn_set_same here _ same]
    exact tallied.requests
  · intro window
    rw [countedIn_set_same here _ same]
    exact tallied.windows window
  · intro window less
    rw [countedIn_set_same here _ same]
    exact tallied.later window less

theorem toNat_raise (fits : Fits config s .begin) :
    (s.currentConcurrent + 1).toNat = s.currentConcurrent.toNat + 1 := by
  have bound : s.currentConcurrent.toNat + 1 < 2 ^ 64 := fits
  rw [UInt64.toNat_add, UInt64.toNat_one]
  omega

theorem accept (tallied : Tallied config s crew) (here : crew[index]? = some (seen, .idle))
    (fits : Fits config s .begin) (below : admits config s = true) :
    Tallied config { s with currentConcurrent := s.currentConcurrent + 1 }
      (crew.set index ({ seen with connected := true }, .connected)) := by
  have agrees := tallied.agree _ (List.mem_of_getElem? here)
  refine tallied.reconnect here rfl rfl ⟨rfl, agrees.counted⟩ (toNat_raise fits) ?_
  have small := UInt64.lt_iff_toNat_lt.mp (of_decide_eq_true below)
  have inside := atStage_le (p := Stage.isConnected) (q := Stage.isConcurrent)
    (by rintro (_ | _ | _ | _ | _) connected <;> first | rfl | cases connected) crew
  rw [tallied.concurrent] at inside
  exact Nat.succ_le_of_lt (inside.trans_lt small)

theorem refuse (tallied : Tallied config s crew) (here : crew[index]? = some (seen, .idle))
    (fits : Fits config s .begin) :
    Tallied config { s with currentConcurrent := s.currentConcurrent + 1 }
      (crew.set index ({ seen with connected := false }, .refused)) := by
  have agrees := tallied.agree _ (List.mem_of_getElem? here)
  exact tallied.reconnect here rfl rfl ⟨rfl, agrees.counted⟩ (toNat_raise fits)
    tallied.connections

/-- The counter is positive while a call is counted in it. -/
theorem concurrent_pos (tallied : Tallied config s crew)
    (here : crew[index]? = some (seen, stage)) (concurrent : stage.isConcurrent = true) :
    0 < s.currentConcurrent.toNat := by
  rw [← tallied.concurrent]
  exact atStage_pos here concurrent

theorem leave (tallied : Tallied config s crew) (here : crew[index]? = some (seen, stage))
    (concurrent : stage.isConcurrent = true) :
    Tallied config { s with currentConcurrent := s.currentConcurrent - 1 }
      (crew.set index ({ seen with connected := false }, .idle)) := by
  have agrees := tallied.agree _ (List.mem_of_getElem? here)
  have positive := tallied.concurrent_pos here concurrent
  have previous : (s.currentConcurrent - 1).toNat = s.currentConcurrent.toNat - 1 :=
    UInt64.toNat_sub_of_le _ _ (UInt64.le_iff_toNat_le.mpr positive)
  have free : stage.holdsMutex = false ∧ stage.isCounted = false := by
    cases stage <;> first | exact ⟨rfl, rfl⟩ | cases concurrent
  refine tallied.reconnect here rfl free.1 ⟨rfl, agrees.counted.trans free.2⟩ ?_ ?_
  · rw [previous, concurrent]
    exact Nat.sub_add_cancel positive
  · exact Nat.le_add_right_of_le tallied.connections

/-- Every move keeps the counters right. -/
theorem move (tallied : Tallied config s crew) (here : crew[index]? = some (seen, stage))
    {note : LimiterNote} {now : Instant} {after : Stage} {t : Limiter} (fits : Fits config s note)
    (move : Moves config stage note now s after t) :
    Tallied config t (crew.set index ((visits config).see seen note now s, after)) := by
  cases move with
  | look looks =>
    have same : (visits config).see seen note now s = seen := by
      cases note <;> first | rfl | exact absurd looks (by decide)
    obtain ⟨inside, member⟩ := List.getElem?_eq_some_iff.mp here
    rw [same, ← member, List.set_getElem_self inside]
    exact tallied
  | openWindow free => exact tallied.openWindow here free _
  | clear => exact tallied.clear here
  | count => exact tallied.count here fits
  | accept below =>
    have visit : (visits config).see seen .begin now s = { seen with connected := true } := by
      rw [← below]
      rfl
    rw [visit]
    exact tallied.accept here fits below
  | refuse above =>
    have visit : (visits config).see seen .begin now s = { seen with connected := false } := by
      rw [← above]
      rfl
    rw [visit]
    exact tallied.refuse here fits
  | undo =>
    have agrees := tallied.agree _ (List.mem_of_getElem? here)
    have visit : (visits config).see seen .undo now s = { seen with connected := false } := by
      have closed : seen.connected = false := agrees.connected
      rw [← closed]
      rfl
    rw [visit]
    exact tallied.leave here rfl
  | finish => exact tallied.leave here rfl

end Tallied

theorem steers (config : GlobalRateLimitConfig) :
    Pool.Steers (visits config) (Spawns config) (fun _ _ => False) (fun s => ∃ now, s = .new now)
      (Admitted config) (Moves config) Pool.Ledger.blank
      fun s crew _ => Tallied config s crew where
  start := by
    rintro _ ⟨now, rfl⟩
    exact .empty config now
  spawn s crew books program staged tallied free spawns :=
    ⟨.idle, follows_spawned spawns, tallied.spawn⟩
  run s crew books index input note ready act next seen stage after staged tallied met here enabled
      member move :=
    tallied.move member (met note ready act next seen here) move
  background _ _ _ _ _ _ _ := False.elim

/-! ## The results of checks -/

/-- A check that is allowed was counted, below the limit. -/
def Counted (config : GlobalRateLimitConfig) (result : RateLimitResult) (seen : Visit) : Prop :=
  ∀ remaining resetAfter, result = .allowed remaining resetAfter →
    seen.counted.isSome = true ∧ remaining < config.base.maxRequests

section Results

variable {config : GlobalRateLimitConfig}

theorem doing_query {α : Type} {note : LimiterNote} {value : Instant → Limiter → α}
    (seen : Visit) :
    (Program.query note value).Doing (visits config) Anything seen fun _ _ => True :=
  Program.Doing.update (fun _ _ => trivial) fun _ _ => trivial

theorem doing_withStart {α : Type} {note : LimiterNote} {run : Limiter → Limiter}
    {value : Limiter → α} {seen : Visit} {post : α → Visit → Prop}
    (after : ∀ now s, post (value s) ((visits config).see seen note now s)) :
    (withStart note run value).Doing (visits config) Anything seen post :=
  ⟨fun _ _ => trivial, fun now s _ _ _ => ⟨trivial, after now s⟩⟩

theorem doing_resetWindow (now : Instant) (seen : Visit) :
    (resetWindow config now).Doing (visits config) Anything seen fun _ _ => True := by
  rw [resetWindow]
  refine Program.Keeps.bind (q := fun _ _ => True) (doing_withStart fun _ _ => trivial) ?_
  rintro (_ | _) after -
  · exact Program.Keeps.pure trivial
  · exact Program.Doing.update (fun _ _ => trivial) fun _ _ => trivial

/-- What is left of the limit after a request below it. -/
theorem remaining_lt {limit requests : UInt64} (below : ¬ requests ≥ limit) :
    limit - requests - 1 < limit := by
  have small := UInt64.lt_iff_toNat_lt.mp (UInt64.not_le.mp below)
  have first : (limit - requests).toNat = limit.toNat - requests.toNat :=
    UInt64.toNat_sub_of_le _ _ (UInt64.le_of_lt (UInt64.not_le.mp below))
  have second : (limit - requests - 1).toNat = (limit - requests).toNat - 1 := by
    refine UInt64.toNat_sub_of_le _ _ (UInt64.le_iff_toNat_le.mpr ?_)
    rw [first, UInt64.toNat_one]
    omega
  rw [UInt64.lt_iff_toNat_lt, second, first]
  omega

theorem doing_checkWindow (seen : Visit) :
    (checkWindow config).Doing (visits config) Anything seen (Counted config) := by
  rw [checkWindow]
  refine Program.Keeps.bind (doing_query seen) fun now seen _ => ?_
  refine Program.Keeps.bind (doing_resetWindow now seen) fun _ seen _ => ?_
  refine Program.Keeps.bind (doing_query seen) fun requests seen _ => ?_
  split
  · refine Program.Keeps.bind (q := fun _ _ => True) (doing_withStart fun _ _ => trivial) ?_
    exact fun _ _ _ => Program.Keeps.pure nofun
  · next below =>
      refine Program.Keeps.bind (q := fun _ seen => seen.counted.isSome = true)
        (Program.Doing.update (fun _ _ => trivial) fun _ _ => rfl) fun _ seen counted => ?_
      refine Program.Keeps.bind (q := fun _ seen => seen.counted.isSome = true)
        (doing_withStart fun _ _ => counted) fun _ seen counted => ?_
      refine Program.Keeps.pure ?_
      rintro _ _ ⟨⟩
      exact ⟨counted, remaining_lt below⟩

theorem doing_check (enabled : config.base.enabled = true) (seen : Visit) :
    (check config).Doing (visits config) Anything seen (Counted config) := by
  rw [check]
  rw [enabled, if_neg (by decide)]
  refine Program.Keeps.bind (doing_query seen) fun concurrent seen _ => ?_
  split
  · exact Program.Keeps.pure nofun
  · exact doing_checkWindow seen

theorem doing_connect (seen : Visit) :
    (connect config).Doing (visits config) Anything seen fun _ _ => True := by
  rw [connect, startConnection, endConnection]
  refine Program.Keeps.bind (q := fun _ _ => True) ?_ ?_
  · refine Program.Keeps.bind (q := fun _ _ => True)
      (Program.Doing.update (fun _ _ => trivial) fun _ _ => trivial) fun current _ _ => ?_
    split
    · exact Program.Keeps.bind (q := fun _ _ => True)
        (Program.Doing.update (fun _ _ => trivial) fun _ _ => trivial)
        fun _ _ _ => Program.Keeps.pure trivial
    · exact Program.Keeps.pure trivial
  · rintro (_ | _) _ -
    · exact Program.Keeps.pure trivial
    · exact Program.Keeps.bind (q := fun _ _ => True)
        (Program.Doing.update (fun _ _ => trivial) fun _ _ => trivial)
        fun _ _ _ => Program.Keeps.pure trivial

/-- What a finished call returned. -/
def Concluded (config : GlobalRateLimitConfig) : LimiterReply → Visit → Prop
  | .checked result, seen => Counted config result seen
  | .connected _, _ => True

theorem doing_spawned (enabled : config.base.enabled = true)
    {program : LimiterProgram LimiterReply} (spawns : Spawns config program) :
    program.Doing (visits config) Anything (visits config).start (Concluded config) := by
  cases spawns with
  | check =>
    exact Program.Keeps.bind (doing_check enabled _) fun _ _ counted => Program.Keeps.pure counted
  | connect => exact Program.Keeps.bind (doing_connect _) fun _ _ _ => Program.Keeps.pure trivial

end Results

/-! ## The limits -/

/-- A thread about to subtract is counted. -/
theorem concurrent_of_next {config : GlobalRateLimitConfig} {note : LimiterNote}
    {ready : Limiter → Bool} {act : Instant → Limiter → Limiter}
    {next : Instant → Limiter → LimiterProgram LimiterReply} {stage : Stage} {s : Limiter}
    (follows : Program.Follows (Moves config) (.act note ready act next) stage fun _ _ => True)
    (enabled : ready s = true) (subtracts : note = .undo ∨ note = .finish) :
    stage.isConcurrent = true := by
  obtain ⟨after, move, -⟩ := follows 0 s enabled
  generalize act 0 s = t at move
  obtain rfl | rfl := subtracts
  · cases move with
    | look looks => exact absurd looks (by decide)
    | undo => rfl
  · cases move with
    | look looks => exact absurd looks (by decide)
    | finish => rfl

/-- What is remembered of the threads is what is remembered of their crew. -/
theorem countP_seen {s : LimiterPool} {crew : Crew} (same : crew.map Prod.fst =
      s.threads.map Thread.seen) (p : Visit → Bool) :
    s.threads.countP (fun thread => p thread.seen) = crew.countP fun member => p member.1 := by
  have counts := congrArg (List.countP p) same
  rw [List.countP_map, List.countP_map] at counts
  exact counts.symm

/-- Along every interleaving in which the counter of requests is raised below the limit and not
before it was cleared, the limits are kept. -/
theorem never_overAdmits (config : GlobalRateLimitConfig) (enabled : config.base.enabled = true)
    (s : LimiterPool)
    (reached : ((limiterSystem config).restrict (Admitted config)).Reachable s) :
    NeverOverAdmits config s := by
  obtain ⟨crew, -, staged, tallied⟩ := (steers config).of_reachable reached
  have ending : s.Ending (visits config) Anything (Concluded config) :=
    Pool.ending_of_reachable (fun _ spawns => doing_spawned enabled spawns) reached.of_restrict
  refine ⟨?_, ?_, ?_, ?_⟩
  · intro remaining resetAfter seen member
    exact ending _ member remaining resetAfter rfl
  · intro window
    rw [countP_seen staged.seen fun seen => decide (seen.counted = some window)]
    exact tallied.windows window
  · rw [countP_seen staged.seen Visit.connected]
    have same : crew.countP (fun member => member.1.connected) =
        atStage Stage.isConnected crew :=
      List.countP_congr fun member inside => by rw [(tallied.agree member inside).connected]
    rw [same]
    exact tallied.connections
  · rintro ⟨program, seen⟩ inside subtracts
    obtain ⟨index, here⟩ := List.getElem?_of_mem inside
    obtain ⟨stage, member⟩ := staged.member here
    cases program with
    | done value => obtain next | next := subtracts <;> cases next
    | act note ready act next =>
      cases enabled : ready s.shared with
      | false => simp [nextNote, enabled] at subtracts
      | true =>
        refine tallied.concurrent_pos member ?_
        refine concurrent_of_next (staged.follows index _ _ here member) enabled ?_
        simpa [nextNote, enabled] using subtracts

/-! ## Running some calls -/

/-- One request in a window of a second, and one connection. -/
def sampleConfig : GlobalRateLimitConfig := ⟨⟨1, 1, true⟩, 1⟩

abbrev LimiterMove : Type := Pool.Move (Spawns sampleConfig) fun _ _ => False

def limiterPlayer : (limiterSystem sampleConfig).Player LimiterMove :=
  Pool.player (visits sampleConfig) (Spawns sampleConfig) (fun _ _ => False) _

/-- Two checks and a connection start and take turns. -/
def takingTurns (order : List Nat) : List LimiterMove :=
  [.spawn _ .check, .spawn _ .check, .spawn _ .connect] ++ Pool.running (order.map (·, 0))

theorem nothing_counted
    {guard : LimiterPool → PoolLabel Limiter Instant LimiterNote LimiterReply → Prop} :
    ((limiterSystem sampleConfig).restrict guard).Reachable ⟨.new 0, []⟩ := .init ⟨rfl, 0, rfl⟩

/-- Whether an action fits. -/
def permits (s : LimiterPool) (note : LimiterNote) (_ : Instant) : Bool :=
  match note with
  | .count =>
    decide (s.shared.windowRequests < sampleConfig.base.maxRequests) && !s.shared.locked
  | .begin => decide (s.shared.currentConcurrent.toNat + 1 < 2 ^ 64)
  | _ => true

theorem admitted_of_permits (s : LimiterPool) (index : Nat) (now : Instant)
    (passed : Pool.noteCheck id permits s index now = true) :
    Admitted sampleConfig s (.run index now) := by
  intro note ready act next seen here
  have permitted := Pool.admits_of_noteCheck passed here
  cases note with
  | count => simpa [permits, Fits] using permitted
  | begin => simpa [permits, Fits] using permitted
  | _ => exact trivial

theorem never_overAdmits_sample :
    sampleConfig.base.enabled = true ∧ ∃ s,
      ((limiterSystem sampleConfig).restrict (Admitted sampleConfig)).Reachable s ∧
        s.threads.map Thread.seen = [⟨some 0, false⟩, ⟨none, false⟩, ⟨none, true⟩] ∧
        NeverOverAdmits sampleConfig s := by
  obtain ⟨s, reached, seen⟩ := (Pool.checked limiterPlayer _ admitted_of_permits
    (fun _ _ => trivial) fun _ _ => trivial).exists_reachable nothing_counted
    (takingTurns [0, 0, 0, 0, 0, 2])
    (fun s => s.threads.map Thread.seen = [⟨some 0, false⟩, ⟨none, false⟩, ⟨none, true⟩])
    (by decide)
  exact ⟨rfl, s, reached, seen, never_overAdmits sampleConfig rfl s reached⟩

/-- Two checks that have read the counter before either raises it are both allowed. -/
theorem overAdmits : ∃ s, (limiterSystem sampleConfig).Reachable s ∧
    s.threads.map Thread.seen = [⟨some 0, false⟩, ⟨some 0, false⟩, ⟨none, false⟩] ∧
    ¬ NeverOverAdmits sampleConfig s := by
  obtain ⟨s, reached, seen⟩ := limiterPlayer.any.exists_reachable nothing_counted
    (takingTurns [0, 0, 0, 0, 1, 1, 1, 1, 0, 1, 0, 1])
    (fun s => s.threads.map Thread.seen = [⟨some 0, false⟩, ⟨some 0, false⟩, ⟨none, false⟩])
    (by decide)
  refine ⟨s, reached.of_restrict, seen, fun never => ?_⟩
  have limit := never.windows 0
  have counts := congrArg (List.countP fun visit => decide (visit.counted = some 0)) seen
  rw [List.countP_map] at counts
  exact absurd (counts.symm.trans_le limit) (by decide)

end UHorse.Gateway.GlobalRateLimiter
