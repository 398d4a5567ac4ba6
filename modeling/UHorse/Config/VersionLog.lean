import UHorse.Config.Versioning
import UHorse.Lib.Automaton
import UHorse.Lib.Doing
import UHorse.Lib.Occurrences

/-!
# The log of versions under interleaved calls

Between its two sections a record has a version that is not stored yet, and a removal has
removed the entries but not the version. As long as the records of a key store in the order in
which they took their versions, and none of them overlaps with a removal of the key, the entries
of the key are in the order of their versions. Its version is that of the last entry, or of a
record that is not stored yet.
-/

namespace UHorse.Config

open UHorse.Lib UHorse.Protocol ConfigHistory ConfigRollback

/-- What a call has done of what it will do to a key. -/
inductive Pending
  | recording (key : String) (version : UInt64)
  | clearing (key : String)
deriving DecidableEq

def pendings : Observer ConfigHistory DateTime Note (Option Pending) where
  start := none
  see seen note _ s :=
    match note with
    | .takeVersion key => some (.recording key (s.versionOf key + 1))
    | .removeHistory key => some (.clearing key)
    | .store _ | .removeVersions _ => none
    | .readClock | .readHistory | .readVersions => seen

abbrev HistoryPool := Pool ConfigHistory DateTime Note HistoryReply (Option Pending)

def historySystem (maxHistory : Nat) :
    System HistoryPool (PoolLabel ConfigHistory DateTime Note HistoryReply) :=
  Pool.system pendings (Spawns maxHistory) (fun _ _ => False) fun s => s = .new

/-- The entries of a key are in the order of their versions, no two since it was cleared have
the same, not more are kept than allowed, and when no call is in progress the newest entry has the
version of the key and the value for which it was taken. -/
structure FaithfulLog (maxHistory : Nat) (s : HistoryPool) : Prop where
  increasing : ∀ key, (s.shared.stored key).Pairwise fun a b => a.version < b.version
  distinct : ∀ key, ((s.shared.log key).map ConfigVersion.version).Nodup
  bounded : ∀ key, (s.shared.stored key).length ≤ maxHistory
  settled : (∀ thread ∈ s.threads, thread.program.isDone = true) → ∀ key,
    (∀ entry, (s.shared.stored key).getLast? = some entry →
      s.shared.versionOf key = entry.version ∧ s.shared.taken key = some entry.value) ∧
    (s.shared.stored key = [] → s.shared.versionOf key = 0)

/-! ## The condition on the steps -/

/-- A version is taken while no removal of its key is under way and while it can go up; it is
stored while no record of the key has an earlier one; and the entries of a key are removed while
no record of it is under way. -/
def Fits (s : HistoryPool) (seen : Option Pending) : Note → Prop
  | .takeVersion key =>
    (∀ thread ∈ s.threads, thread.seen ≠ some (.clearing key)) ∧
      (s.shared.versionOf key).toNat + 1 < 2 ^ 64
  | .store key => ∀ version, seen = some (.recording key version) →
      ∀ thread ∈ s.threads, ∀ earlier, thread.seen = some (.recording key earlier) →
        version ≤ earlier
  | .removeHistory key =>
    ∀ thread ∈ s.threads, ∀ version, thread.seen ≠ some (.recording key version)
  | .readClock | .readHistory | .readVersions | .removeVersions _ => True

/-- The next action of the thread that moves fits. -/
def Admitted (s : HistoryPool) : PoolLabel ConfigHistory DateTime Note HistoryReply → Prop
  | .run index _ => ∀ note ready act next seen,
      s.threads[index]? = some ⟨.act note ready act next, seen⟩ → Fits s seen note
  | .spawn _ | .background _ => True

/-! ## The stages of a call -/

inductive Stage
  | idle
  /-- It has taken a version for a value that is not stored yet. -/
  | taken (key : String) (version : UInt64) (value : String)
  /-- It has removed the entries of a key and holds the lock of the history. -/
  | clearing (key : String)

def Stage.pending : Stage → Option Pending
  | .idle => none
  | .taken key version _ => some (.recording key version)
  | .clearing key => some (.clearing key)

/-- The key of which a call has done a part. -/
def Stage.key? : Stage → Option String
  | .idle => none
  | .taken key _ _ => some key
  | .clearing key => some key

def Stage.isClearing : Stage → Bool
  | .clearing _ => true
  | .idle | .taken _ _ _ => false

/-- What a call can do next. -/
inductive Moves (maxHistory : Nat) :
    Stage → Note → DateTime → ConfigHistory → Stage → ConfigHistory → Prop
  | look {stage : Stage} {note : Note} {now : DateTime} {s : ConfigHistory}
      (looks : note = .readClock ∨ note = .readHistory ∨ note = .readVersions) :
      Moves maxHistory stage note now s stage s
  | take {key value : String} {now : DateTime} {s : ConfigHistory} :
      Moves maxHistory .idle (.takeVersion key) now s (.taken key (s.versionOf key + 1) value)
        { s with
          currentVersions := s.currentVersions.insert key (s.versionOf key + 1)
          taken := Function.update s.taken key (some value) }
  | store {entry : ConfigVersion} {now : DateTime} {s : ConfigHistory} :
      Moves maxHistory (.taken entry.key entry.version entry.value) (.store entry.key) now s .idle
        { s with
          history := s.history.insert entry.key (trim maxHistory (s.stored entry.key ++ [entry]))
          log := Function.update s.log entry.key (s.log entry.key ++ [entry]) }
  | remove {key : String} {now : DateTime} {s : ConfigHistory} (free : s.held = false) :
      Moves maxHistory .idle (.removeHistory key) now s (.clearing key)
        { s with
          history := s.history.erase key
          held := true
          log := Function.update s.log key [] }
  | finish {key : String} {now : DateTime} {s : ConfigHistory} :
      Moves maxHistory (.clearing key) (.removeVersions key) now s .idle
        { s with
          currentVersions := s.currentVersions.erase key
          held := false
          taken := Function.update s.taken key none }

section Follows

variable {maxHistory : Nat}

theorem follows_withHistory {α : Type} {note : Note} {run : ConfigHistory → ConfigHistory}
    {value : ConfigHistory → α} {stage : Stage} {post : α → Stage → Prop}
    (move : ∀ now s, s.held = false →
      ∃ after, Moves maxHistory stage note now s after (run s) ∧ post (value s) after) :
    (withHistory note run value).Follows (Moves maxHistory) stage post := by
  intro now s free
  exact move now s (by simpa using free)

theorem follows_record (key value : String) (changedBy description : Option String) :
    (record maxHistory key value changedBy description).Follows (Moves maxHistory) .idle
      fun _ stage => stage = .idle := by
  refine .bind (q := fun version stage => stage = .taken key version value)
    (Program.Follows.update fun _ _ => ⟨_, .take, rfl⟩) ?_
  rintro version _ rfl
  refine .bind (q := fun _ stage => stage = .taken key version value)
    (Program.Follows.update fun _ _ => ⟨_, .look (.inl rfl), rfl⟩) ?_
  rintro timestamp _ rfl
  refine .bind (q := fun _ stage => stage = .idle) ?_ ?_
  · exact follows_withHistory fun _ _ _ =>
      ⟨.idle, @Moves.store _ ⟨version, key, value, timestamp, changedBy, description⟩ _ _, rfl⟩
  · exact fun _ _ here => Program.Follows.pure here

theorem follows_getVersion (key : String) (version : UInt64) :
    (getVersion key version).Follows (Moves maxHistory) .idle fun _ stage => stage = .idle :=
  follows_withHistory fun _ _ _ => ⟨.idle, .look (.inr (.inl rfl)), rfl⟩

theorem follows_currentVersion (key : String) :
    (currentVersion key).Follows (Moves maxHistory) .idle fun _ stage => stage = .idle :=
  Program.Follows.update fun _ _ => ⟨.idle, .look (.inr (.inr rfl)), rfl⟩

theorem follows_clearHistory (key : String) :
    (clearHistory key).Follows (Moves maxHistory) .idle fun _ stage => stage = .idle := by
  refine .bind (q := fun _ stage => stage = .clearing key)
    (follows_withHistory fun _ _ free => ⟨_, .remove free, rfl⟩) ?_
  rintro ⟨⟩ _ rfl
  exact .update fun _ _ => ⟨.idle, .finish, rfl⟩

theorem follows_rollbackTo (key : String) (version : UInt64) :
    (rollbackTo maxHistory key version).Follows (Moves maxHistory) .idle
      fun _ stage => stage = .idle := by
  refine .bind (follows_getVersion key version) ?_
  rintro (_ | entry) _ rfl
  · exact .pure rfl
  · exact .bind (follows_record _ _ _ _) fun _ _ here => Program.Follows.pure here

theorem follows_rollbackPrevious (key : String) :
    (rollbackPrevious maxHistory key).Follows (Moves maxHistory) .idle
      fun _ stage => stage = .idle := by
  refine .bind (follows_currentVersion key) ?_
  rintro current _ rfl
  split
  · exact .pure rfl
  · exact follows_rollbackTo key _

theorem follows_spawned {program : HistoryProgram HistoryReply}
    (spawns : Spawns maxHistory program) :
    program.Follows (Moves maxHistory) .idle fun _ _ => True := by
  cases spawns with
  | record key value changedBy description =>
    exact .bind (follows_record key value changedBy description)
      fun _ _ _ => Program.Follows.pure trivial
  | rollbackTo key version =>
    exact .bind (follows_rollbackTo key version)
      fun _ _ _ => Program.Follows.pure trivial
  | rollbackPrevious key =>
    exact .bind (follows_rollbackPrevious key)
      fun _ _ _ => Program.Follows.pure trivial
  | getVersion key version =>
    exact .bind (follows_getVersion key version)
      fun _ _ _ => Program.Follows.pure trivial
  | clearHistory key =>
    exact .bind (follows_clearHistory key)
      fun _ _ _ => Program.Follows.pure trivial
  | currentVersion key =>
    exact .bind (follows_currentVersion key)
      fun _ _ _ => Program.Follows.pure trivial

end Follows

/-! ## One key -/

/-- The entries of a key are in order, and as many of the last are kept as are allowed. -/
structure InOrder (maxHistory : Nat) (s : ConfigHistory) (key : String) : Prop where
  increasing : (s.log key).Pairwise fun a b => a.version < b.version
  stored : s.stored key = trim maxHistory (s.log key)

/-- The version of a key is that of its last entry. -/
structure Quiet (s : ConfigHistory) (key : String) : Prop where
  last : ∀ entry, (s.log key).getLast? = some entry →
    s.versionOf key = entry.version ∧ s.taken key = some entry.value
  empty : s.log key = [] → s.versionOf key = 0

/-- What is true of a key of which a call has done a part. -/
def Underway (s : ConfigHistory) : Stage → Prop
  | .idle => True
  | .taken key version value =>
    (∀ entry ∈ s.log key, entry.version < version) ∧ version ≤ s.versionOf key ∧
      (version = s.versionOf key → s.taken key = some value)
  | .clearing key => s.log key = []

/-- Nothing about a key has changed. -/
structure Same (s t : ConfigHistory) (key : String) : Prop where
  stored : t.stored key = s.stored key
  versionOf : t.versionOf key = s.versionOf key
  log : t.log key = s.log key
  taken : t.taken key = s.taken key

section Same

variable {maxHistory : Nat} {s t : ConfigHistory} {key : String}

theorem InOrder.same (inOrder : InOrder maxHistory s key) (same : Same s t key) :
    InOrder maxHistory t key := by
  constructor
  · rw [same.log]
    exact inOrder.increasing
  · rw [same.log, same.stored]
    exact inOrder.stored

theorem Quiet.same (quiet : Quiet s key) (same : Same s t key) : Quiet t key := by
  constructor
  · rw [same.log, same.versionOf, same.taken]
    exact quiet.last
  · rw [same.log, same.versionOf]
    exact quiet.empty

theorem Underway.same {stage : Stage} (underway : Underway s stage)
    (same : ∀ key, stage.key? = some key → Same s t key) : Underway t stage := by
  cases stage with
  | idle => trivial
  | taken key version value =>
    have here := same key rfl
    rw [Underway, here.versionOf, here.taken, here.log]
    exact underway
  | clearing key =>
    rw [Underway, (same key rfl).log]
    exact underway

end Same

/-- Trimming after each entry trims all of them. -/
theorem trim_append (maxHistory : Nat) (entries : List ConfigVersion) (entry : ConfigVersion) :
    trim maxHistory (trim maxHistory entries ++ [entry]) =
      trim maxHistory (entries ++ [entry]) := by
  have first : entries.drop (entries.length - maxHistory) ++ [entry] =
      (entries ++ [entry]).drop (entries.length - maxHistory) :=
    (List.drop_append_of_le_length (Nat.sub_le _ _)).symm
  rw [trim, trim, trim, first, List.drop_drop, List.length_drop, List.length_append]
  congr 1
  omega

/-- A key's entries rise to the last of them. -/
theorem le_last {entries : List ConfigVersion}
    (increasing : entries.Pairwise fun a b => a.version < b.version) {last : ConfigVersion}
    (ends : entries.getLast? = some last) :
    ∀ entry ∈ entries, entry.version ≤ last.version := by
  obtain ⟨front, rfl⟩ := List.getLast?_eq_some_iff.mp ends
  intro entry member
  obtain early | rfl := List.mem_append.mp member |>.imp_right List.mem_singleton.mp
  · exact UInt64.le_of_lt ((List.pairwise_append.mp increasing).2.2 entry early last
      List.mem_cons_self)
  · exact UInt64.le_refl _

/-- No entry of a quiet key is above its version. -/
theorem Quiet.le_versionOf {maxHistory : Nat} {s : ConfigHistory} {key : String}
    (quiet : Quiet s key) (inOrder : InOrder maxHistory s key) :
    ∀ entry ∈ s.log key, entry.version ≤ s.versionOf key := by
  intro entry member
  obtain ⟨last, ends⟩ := Option.ne_none_iff_exists'.mp
    (mt List.getLast?_eq_none_iff.mp (List.ne_nil_of_mem member))
  rw [(quiet.last last ends).1]
  exact le_last inOrder.increasing ends entry member

/-- A record of a quiet key has its version. -/
theorem Quiet.eq_versionOf {s : ConfigHistory} {key value : String} {version : UInt64}
    (quiet : Quiet s key) (underway : Underway s (.taken key version value)) :
    version = s.versionOf key := by
  obtain ⟨above, atMost, -⟩ := underway
  refine UInt64.le_antisymm atMost ?_
  cases ends : (s.log key).getLast? with
  | none =>
    rw [quiet.empty (List.getLast?_eq_none_iff.mp ends)]
    exact UInt64.zero_le
  | some last =>
    rw [(quiet.last last ends).1]
    exact UInt64.le_of_lt (above last (List.mem_of_getLast? ends))

/-! ## All keys -/

abbrev Crew := List (Option Pending × Stage)

/-- How many calls are to store a version of a key. -/
def recordings (key : String) (version : UInt64) (crew : Crew) : Nat :=
  crew.countP fun member => decide (member.1 = some (.recording key version))

def clearings (crew : Crew) : Nat := crew.countP fun member => member.2.isClearing

/-- A call is to store the present version of a key, or to remove it. -/
def Claims (s : ConfigHistory) (key : String) (pending : Option Pending) : Prop :=
  pending = some (.recording key (s.versionOf key)) ∨ pending = some (.clearing key)

/-- Each key is in order, no two calls are to store the same version of it, none is while it is
cleared, and its version is that of its last entry unless a call is to store or to remove it. -/
structure Ordered (maxHistory : Nat) (s : ConfigHistory) (crew : Crew) : Prop where
  agree : ∀ member ∈ crew, member.1 = member.2.pending
  lock : clearings crew = s.held.toNat
  distinct : ∀ key version, recordings key version crew ≤ 1
  apart : ∀ key, ∀ member ∈ crew, member.1 = some (.clearing key) →
    ∀ other ∈ crew, ∀ version, other.1 ≠ some (.recording key version)
  underway : ∀ member ∈ crew, Underway s member.2
  newest : ∀ key, Quiet s key ∨ ∃ member ∈ crew, Claims s key member.1
  inOrder : ∀ key, InOrder maxHistory s key

/-- A stage at which no other call is in the way. -/
def Compatible (crew : Crew) : Stage → Prop
  | .idle => True
  | .taken key version _ => ∀ member ∈ crew,
      member.1 ≠ some (.clearing key) ∧ member.1 ≠ some (.recording key version)
  | .clearing key => ∀ member ∈ crew, ∀ version, member.1 ≠ some (.recording key version)

section Replacing

variable {maxHistory : Nat} {s t : ConfigHistory} {crew : Crew} {index : Nat}
  {seen : Option Pending} {stage after : Stage}

theorem clearings_set (here : crew[index]? = some (seen, stage)) (after : Stage) :
    clearings (crew.set index (after.pending, after)) + stage.isClearing.toNat =
      clearings crew + after.isClearing.toNat :=
  countP_set_add (fun member : Option Pending × Stage => member.2.isClearing) here
    (after.pending, after)

theorem agree_set (agree : ∀ member ∈ crew, member.1 = member.2.pending) (after : Stage) :
    ∀ member ∈ crew.set index (after.pending, after), member.1 = member.2.pending := by
  intro member inside
  obtain old | rfl := List.mem_or_eq_of_mem_set inside
  · exact agree member old
  · rfl

theorem recordings_set (here : crew[index]? = some (seen, stage)) (key : String)
    (version : UInt64) (after : Stage) :
    recordings key version (crew.set index (after.pending, after)) +
        (decide (seen = some (.recording key version))).toNat =
      recordings key version crew +
        (decide (after.pending = some (.recording key version))).toNat :=
  countP_set_add
    (fun member : Option Pending × Stage => decide (member.1 = some (.recording key version)))
    here (after.pending, after)

theorem distinct_set (distinct : ∀ key version, recordings key version crew ≤ 1)
    (here : crew[index]? = some (seen, stage)) (compatible : Compatible crew after)
    (key : String) (version : UInt64) :
    recordings key version (crew.set index (after.pending, after)) ≤ 1 := by
  have counts := recordings_set here key version after
  by_cases mine : after.pending = some (.recording key version)
  · have nobody : recordings key version crew = 0 := by
      simp only [recordings, List.countP_eq_zero, decide_eq_true_eq]
      cases after with
      | idle => cases mine
      | clearing key => cases mine
      | taken key version value =>
        cases mine
        exact fun member inside => (compatible member inside).2
    rw [decide_eq_true mine, Bool.toNat_true] at counts
    omega
  · rw [decide_eq_false mine] at counts
    exact (Nat.le_of_add_right_le (Nat.le_of_eq counts)).trans (distinct key version)

theorem apart_set
    (apart : ∀ key, ∀ member ∈ crew, member.1 = some (.clearing key) →
      ∀ other ∈ crew, ∀ version, other.1 ≠ some (.recording key version))
    (compatible : Compatible crew after) (key : String) :
    ∀ member ∈ crew.set index (after.pending, after), member.1 = some (.clearing key) →
      ∀ other ∈ crew.set index (after.pending, after), ∀ version,
        other.1 ≠ some (.recording key version) := by
  intro member inside clears other outside version records
  obtain old | rfl := List.mem_or_eq_of_mem_set inside
  · obtain old' | rfl := List.mem_or_eq_of_mem_set outside
    · exact apart key member old clears other old' version records
    · cases after with
      | idle => cases records
      | clearing key => cases records
      | taken key version value =>
        cases records
        exact (compatible member old).1 clears
  · obtain old' | rfl := List.mem_or_eq_of_mem_set outside
    · cases after with
      | idle => cases clears
      | taken key version value => cases clears
      | clearing key =>
        cases clears
        exact compatible other old' version records
    · cases clears.symm.trans records

/-- The calls after one has moved are that one and the others. -/
theorem eq_or_other {x member : Option Pending × Stage} (inside : member ∈ crew.set index x) :
    member = x ∨ ∃ other, other ≠ index ∧ crew[other]? = some member := by
  obtain ⟨other, there⟩ := List.mem_iff_getElem?.mp inside
  by_cases same : other = index
  · subst same
    rw [List.getElem?_set_self'] at there
    obtain ⟨_, -, rfl⟩ := Option.map_eq_some_iff.mp there
    exact .inl rfl
  · rw [List.getElem?_set_ne (Ne.symm same)] at there
    exact .inr ⟨other, same, there⟩

/-- A key is quiet or claimed as before unless the call that moves claimed it. -/
theorem newest_set (here : crew[index]? = some (seen, stage)) {key : String}
    (newest : Quiet s key ∨ ∃ member ∈ crew, Claims s key member.1) (same : Same s t key)
    (unclaimed : ¬ Claims s key seen) (x : Option Pending × Stage) :
    Quiet t key ∨ ∃ member ∈ crew.set index x, Claims t key member.1 := by
  obtain quiet | ⟨member, inside, claims⟩ := newest
  · exact .inl (quiet.same same)
  · obtain rfl | kept := eq_or_mem_set (b := x) here inside
    · exact absurd claims unclaimed
    · refine .inr ⟨member, kept, ?_⟩
      rwa [Claims, same.versionOf]

end Replacing

/-! ## Each move keeps the keys ordered -/

section Changes

variable {s : ConfigHistory} {key other : String}

theorem same_take (distinct : other ≠ key) (version : UInt64) (value : String) :
    Same s
      { s with
        currentVersions := s.currentVersions.insert key version
        taken := Function.update s.taken key (some value) } other where
  stored := rfl
  versionOf := by simp only [versionOf, HashMap.lookup_insert_ite, if_neg distinct]
  log := rfl
  taken := Function.update_of_ne distinct _ _

variable {entry : ConfigVersion} {stage : Stage}

theorem same_store (maxHistory : Nat) (distinct : other ≠ entry.key) :
    Same s
      { s with
        history := s.history.insert entry.key (trim maxHistory (s.stored entry.key ++ [entry]))
        log := Function.update s.log entry.key (s.log entry.key ++ [entry]) } other where
  stored := by simp only [stored, HashMap.lookup_insert_ite, if_neg distinct]
  versionOf := rfl
  log := Function.update_of_ne distinct _ _
  taken := rfl

theorem same_remove (distinct : other ≠ key) :
    Same s
      { s with
        history := s.history.erase key
        held := true
        log := Function.update s.log key [] } other where
  stored := by simp only [stored, HashMap.lookup_erase_ite, if_neg distinct]
  versionOf := rfl
  log := Function.update_of_ne distinct _ _
  taken := rfl

theorem same_finish (distinct : other ≠ key) :
    Same s
      { s with
        currentVersions := s.currentVersions.erase key
        held := false
        taken := Function.update s.taken key none } other where
  stored := rfl
  versionOf := by simp only [versionOf, HashMap.lookup_erase_ite, if_neg distinct]
  log := rfl
  taken := Function.update_of_ne distinct _ _

theorem stage_of_recording {version : UInt64}
    (records : stage.pending = some (.recording key version)) :
    ∃ value, stage = .taken key version value := by
  cases stage with
  | idle => cases records
  | clearing key => cases records
  | taken key version value =>
    cases records
    exact ⟨value, rfl⟩

theorem stage_of_clearing (clears : stage.pending = some (.clearing key)) :
    stage = .clearing key := by
  cases stage with
  | idle => cases clears
  | taken key version value => cases clears
  | clearing key =>
    cases clears
    rfl

theorem versionOf_take (s : ConfigHistory) (key : String) (version : UInt64)
    (taken : String → Option String) :
    versionOf { s with currentVersions := s.currentVersions.insert key version, taken } key =
      version := by
  simp only [versionOf, Finmap.lookup_insert, Option.getD_some]

/-- A call claims no other key than the one it has done a part of. -/
theorem not_claims (stage : Stage) (elsewhere : stage.key? ≠ some key) :
    ¬ Claims s key stage.pending := by
  rintro (records | clears)
  · obtain ⟨value, rfl⟩ := stage_of_recording records
    exact elsewhere rfl
  · obtain rfl := stage_of_clearing clears
    exact elsewhere rfl

/-- What is at most the version of a key is below the next. -/
theorem lt_next {version : UInt64} (atMost : version ≤ s.versionOf key)
    (small : (s.versionOf key).toNat + 1 < 2 ^ 64) : version < s.versionOf key + 1 := by
  have bound := UInt64.le_iff_toNat_le.mp atMost
  rw [UInt64.lt_iff_toNat_lt, UInt64.toNat_add, UInt64.toNat_one]
  omega

/-- The version of a key goes up while other records of it are under way. -/
theorem Underway.take (underway : Underway s stage) (small : (s.versionOf key).toNat + 1 < 2 ^ 64)
    (uncleared : stage ≠ .clearing key) {value : String} :
    Underway
      { s with
        currentVersions := s.currentVersions.insert key (s.versionOf key + 1)
        taken := Function.update s.taken key (some value) } stage := by
  by_cases mine : stage.key? = some key
  · cases stage with
    | idle => trivial
    | clearing key => exact absurd (congrArg Stage.clearing (Option.some.inj mine)) uncleared
    | taken key version value =>
      cases mine
      obtain ⟨above, atMost, -⟩ := underway
      have below := lt_next atMost small
      rw [Underway, versionOf_take]
      exact ⟨above, UInt64.le_of_lt below, fun same => absurd same (UInt64.ne_of_lt below)⟩
  · refine underway.same fun other elsewhere => same_take ?_ _ _
    rintro rfl
    exact mine elsewhere

/-- A version is stored below those that are under way. -/
theorem Underway.store (underway : Underway s stage) (maxHistory : Nat)
    (uncleared : stage ≠ .clearing entry.key)
    (below : ∀ version value, stage = .taken entry.key version value → entry.version < version) :
    Underway
      { s with
        history := s.history.insert entry.key (trim maxHistory (s.stored entry.key ++ [entry]))
        log := Function.update s.log entry.key (s.log entry.key ++ [entry]) } stage := by
  by_cases mine : stage.key? = some entry.key
  · cases stage with
    | idle => trivial
    | clearing key => exact absurd (congrArg Stage.clearing (Option.some.inj mine)) uncleared
    | taken key version value =>
      obtain rfl : key = entry.key := Option.some.inj mine
      refine ⟨?_, underway.2⟩
      dsimp only
      rw [Function.update_self]
      exact List.forall_mem_append.mpr
        ⟨underway.1, List.forall_mem_singleton.mpr (below version value rfl)⟩
  · refine underway.same fun other elsewhere => same_store maxHistory ?_
    rintro rfl
    exact mine elsewhere

theorem InOrder.store {maxHistory : Nat} (inOrder : InOrder maxHistory s entry.key)
    (above : ∀ earlier ∈ s.log entry.key, earlier.version < entry.version) :
    InOrder maxHistory
      { s with
        history := s.history.insert entry.key (trim maxHistory (s.stored entry.key ++ [entry]))
        log := Function.update s.log entry.key (s.log entry.key ++ [entry]) } entry.key := by
  constructor
  · dsimp only
    rw [Function.update_self]
    refine List.pairwise_append.mpr ⟨inOrder.increasing, List.pairwise_singleton _ _, ?_⟩
    exact fun earlier member => List.forall_mem_singleton.mpr (above earlier member)
  · dsimp only
    rw [ConfigHistory.stored, Finmap.lookup_insert, Option.getD_some, Function.update_self,
      inOrder.stored, trim_append]

/-- A key is quiet once its last version is stored. -/
theorem quiet_store (maxHistory : Nat) (last : entry.version = s.versionOf entry.key)
    (taken : s.taken entry.key = some entry.value) :
    Quiet
      { s with
        history := s.history.insert entry.key (trim maxHistory (s.stored entry.key ++ [entry]))
        log := Function.update s.log entry.key (s.log entry.key ++ [entry]) } entry.key := by
  constructor
  · dsimp only
    rw [Function.update_self, List.getLast?_concat]
    rintro _ ⟨⟩
    exact ⟨last.symm, taken⟩
  · dsimp only
    rw [Function.update_self]
    exact fun none_ => absurd none_ (List.append_ne_nil_of_right_ne_nil _ (List.cons_ne_nil _ _))

/-- The entries of a key are removed while no record of it is under way. -/
theorem Underway.remove (underway : Underway s stage)
    (unrecorded : ∀ version value, stage ≠ .taken key version value) :
    Underway
      { s with
        history := s.history.erase key
        held := true
        log := Function.update s.log key [] } stage := by
  by_cases mine : stage.key? = some key
  · cases stage with
    | idle => trivial
    | clearing key =>
      cases mine
      exact Function.update_self ..
    | taken key version value =>
      cases mine
      exact absurd rfl (unrecorded version value)
  · refine underway.same fun other elsewhere => same_remove ?_
    rintro rfl
    exact mine elsewhere

theorem inOrder_remove (maxHistory : Nat) :
    InOrder maxHistory
      { s with
        history := s.history.erase key
        held := true
        log := Function.update s.log key [] } key := by
  constructor
  · dsimp only
    rw [Function.update_self]
    exact .nil
  · dsimp only
    rw [stored, Finmap.lookup_erase, Function.update_self]
    exact List.drop_nil.symm

theorem Underway.finish (underway : Underway s stage) (cleared : s.log key = [])
    (unrecorded : ∀ version value, stage ≠ .taken key version value) :
    Underway
      { s with
        currentVersions := s.currentVersions.erase key
        held := false
        taken := Function.update s.taken key none } stage := by
  by_cases mine : stage.key? = some key
  · cases stage with
    | idle => trivial
    | clearing key =>
      cases mine
      exact cleared
    | taken key version value =>
      cases mine
      exact absurd rfl (unrecorded version value)
  · refine underway.same fun other elsewhere => same_finish ?_
    rintro rfl
    exact mine elsewhere

/-- A key is quiet once it is cleared. -/
theorem quiet_finish (cleared : s.log key = []) :
    Quiet
      { s with
        currentVersions := s.currentVersions.erase key
        held := false
        taken := Function.update s.taken key none } key := by
  constructor
  · intro entry ends
    cases (congrArg List.getLast? cleared).symm.trans ends
  · intro _
    rw [versionOf, Finmap.lookup_erase, Option.getD_none]

end Changes

namespace Ordered

variable {maxHistory : Nat} {s : ConfigHistory} {crew : Crew} {index : Nat}
  {seen : Option Pending} {stage : Stage} {key : String}

theorem empty (maxHistory : Nat) : Ordered maxHistory .new [] where
  agree _ member := absurd member List.not_mem_nil
  lock := rfl
  distinct _ _ := Nat.zero_le _
  apart _ _ member := absurd member List.not_mem_nil
  underway _ member := absurd member List.not_mem_nil
  newest _ := .inl ⟨nofun, fun _ => rfl⟩
  inOrder _ := ⟨.nil, List.drop_nil.symm⟩

theorem spawn (ordered : Ordered maxHistory s crew) :
    Ordered maxHistory s (crew ++ [(none, .idle)]) where
  agree := List.forall_mem_append.mpr ⟨ordered.agree, List.forall_mem_singleton.mpr rfl⟩
  lock := by
    rw [clearings, List.countP_append]
    exact ordered.lock
  distinct key version := by
    rw [recordings, List.countP_append]
    exact ordered.distinct key version
  apart key := by
    refine List.forall_mem_append.mpr ⟨fun member inside clears => ?_, ?_⟩
    · refine List.forall_mem_append.mpr ⟨ordered.apart key member inside clears, ?_⟩
      exact List.forall_mem_singleton.mpr nofun
    · exact List.forall_mem_singleton.mpr nofun
  underway := List.forall_mem_append.mpr
    ⟨ordered.underway, List.forall_mem_singleton.mpr trivial⟩
  newest key := (ordered.newest key).imp_right fun ⟨member, inside, claims⟩ =>
    ⟨member, List.mem_append_left _ inside, claims⟩
  inOrder := ordered.inOrder

theorem recording (ordered : Ordered maxHistory s crew) {member : Option Pending × Stage}
    (inside : member ∈ crew) {version : UInt64}
    (records : member.1 = some (.recording key version)) :
    ∃ value, Underway s (.taken key version value) := by
  obtain ⟨value, same⟩ := stage_of_recording ((ordered.agree member inside).symm.trans records)
  exact ⟨value, same ▸ ordered.underway member inside⟩

theorem clearing (ordered : Ordered maxHistory s crew) {member : Option Pending × Stage}
    (inside : member ∈ crew) (clears : member.1 = some (.clearing key)) : s.log key = [] := by
  have same := stage_of_clearing ((ordered.agree member inside).symm.trans clears)
  have underway := ordered.underway member inside
  rwa [same] at underway

/-- No entry of a key is above its version. -/
theorem le_versionOf (ordered : Ordered maxHistory s crew) (key : String) :
    ∀ entry ∈ s.log key, entry.version ≤ s.versionOf key := by
  obtain quiet | ⟨member, inside, records | clears⟩ := ordered.newest key
  · exact quiet.le_versionOf (ordered.inOrder key)
  · obtain ⟨value, above, -⟩ := ordered.recording inside records
    exact fun entry logged => UInt64.le_of_lt (above entry logged)
  · rw [ordered.clearing inside clears]
    exact List.forall_mem_nil _

/-- A version is taken that is above all others of the key. -/
theorem take (ordered : Ordered maxHistory s crew) (here : crew[index]? = some (seen, .idle))
    (uncleared : ∀ member ∈ crew, member.1 ≠ some (.clearing key))
    (small : (s.versionOf key).toNat + 1 < 2 ^ 64) (value : String) :
    Ordered maxHistory
      { s with
        currentVersions := s.currentVersions.insert key (s.versionOf key + 1)
        taken := Function.update s.taken key (some value) }
      (crew.set index (some (.recording key (s.versionOf key + 1)),
        .taken key (s.versionOf key + 1) value)) := by
  have compatible : Compatible crew (.taken key (s.versionOf key + 1) value) := by
    refine fun member inside => ⟨uncleared member inside, fun records => ?_⟩
    obtain ⟨_, -, atMost, -⟩ := ordered.recording inside records
    exact UInt64.lt_irrefl _ (lt_next atMost small)
  have lock := clearings_set here (.taken key (s.versionOf key + 1) value)
  refine ⟨agree_set ordered.agree (.taken key (s.versionOf key + 1) value),
    lock.trans ordered.lock, distinct_set ordered.distinct here compatible,
    apart_set ordered.apart compatible, ?_, ?_, ?_⟩
  · intro member inside
    obtain old | rfl := List.mem_or_eq_of_mem_set inside
    · refine (ordered.underway member old).take small fun clears => ?_
      exact uncleared member old ((ordered.agree member old).trans (congrArg Stage.pending clears))
    · refine ⟨fun entry logged => lt_next (ordered.le_versionOf key entry logged) small, ?_⟩
      rw [versionOf_take]
      exact ⟨UInt64.le_refl _, fun _ => Function.update_self ..⟩
  · intro other
    by_cases mine : other = key
    · subst mine
      refine .inr ⟨_, mem_set_of_getElem? here, .inl ?_⟩
      rw [versionOf_take]
    · refine newest_set here (ordered.newest other) (same_take mine _ _) ?_ _
      obtain rfl : seen = none := ordered.agree _ (List.mem_of_getElem? here)
      exact not_claims .idle nofun
  · intro other
    exact ⟨(ordered.inOrder other).increasing, (ordered.inOrder other).stored⟩

/-- A version is stored that is above the entries of the key and below what others will store. -/
theorem store (ordered : Ordered maxHistory s crew) {entry : ConfigVersion}
    (here : crew[index]? = some (seen, .taken entry.key entry.version entry.value))
    (first : ∀ member ∈ crew, ∀ version, member.1 = some (.recording entry.key version) →
      entry.version ≤ version) :
    Ordered maxHistory
      { s with
        history := s.history.insert entry.key (trim maxHistory (s.stored entry.key ++ [entry]))
        log := Function.update s.log entry.key (s.log entry.key ++ [entry]) }
      (crew.set index (none, .idle)) := by
  have agrees : seen = some (.recording entry.key entry.version) :=
    ordered.agree _ (List.mem_of_getElem? here)
  have underway := ordered.underway _ (List.mem_of_getElem? here)
  have compatible : Compatible crew .idle := trivial
  have lock := clearings_set here .idle
  refine ⟨agree_set ordered.agree .idle, lock.trans ordered.lock,
    distinct_set ordered.distinct here compatible, apart_set ordered.apart compatible, ?_, ?_, ?_⟩
  · intro member inside
    obtain rfl | ⟨other, distinct, there⟩ := eq_or_other inside
    · trivial
    · have old := List.mem_of_getElem? there
      refine .store (ordered.underway member old) maxHistory ?_ ?_
      · intro clears
        have cleared := (ordered.agree member old).trans (congrArg Stage.pending clears)
        exact ordered.apart _ member old cleared _ (List.mem_of_getElem? here) _ agrees
      · intro version value records
        have recorded := (ordered.agree member old).trans (congrArg Stage.pending records)
        refine UInt64.lt_of_le_of_ne (first member old version recorded) ?_
        rintro rfl
        exact distinct (index_eq_of_countP_le_one (ordered.distinct _ _) there
          (decide_eq_true recorded) here (decide_eq_true agrees))
  · intro other
    by_cases mine : other = entry.key
    · subst mine
      by_cases last : entry.version = s.versionOf entry.key
      · exact .inl (quiet_store maxHistory last (underway.2.2 last))
      · obtain quiet | ⟨member, inside, claims⟩ := ordered.newest entry.key
        · exact absurd (quiet.eq_versionOf underway) last
        · obtain rfl | kept := eq_or_mem_set (b := (none, .idle)) here inside
          · obtain records | clears := claims
            · have same := Option.some.inj (agrees.symm.trans records)
              exact absurd (Pending.recording.inj same).2 last
            · cases agrees.symm.trans clears
          · exact .inr ⟨member, kept, claims⟩
    · refine newest_set here (ordered.newest other) (same_store maxHistory mine) ?_ _
      rw [agrees]
      exact not_claims (.taken entry.key entry.version entry.value)
        fun same => mine (Option.some.inj same).symm
  · intro other
    by_cases mine : other = entry.key
    · subst mine
      exact (ordered.inOrder entry.key).store underway.1
    · exact (ordered.inOrder other).same (same_store maxHistory mine)

/-- The entries of a key are removed while none is to be stored. -/
theorem remove (ordered : Ordered maxHistory s crew) (here : crew[index]? = some (seen, .idle))
    (free : s.held = false)
    (unrecorded : ∀ member ∈ crew, ∀ version, member.1 ≠ some (.recording key version)) :
    Ordered maxHistory
      { s with
        history := s.history.erase key
        held := true
        log := Function.update s.log key [] }
      (crew.set index (some (.clearing key), .clearing key)) := by
  have compatible : Compatible crew (.clearing key) := unrecorded
  have lock := clearings_set here (.clearing key)
  rw [ordered.lock, free] at lock
  refine ⟨agree_set ordered.agree (.clearing key), lock,
    distinct_set ordered.distinct here compatible, apart_set ordered.apart compatible, ?_, ?_, ?_⟩
  · intro member inside
    obtain old | rfl := List.mem_or_eq_of_mem_set inside
    · refine (ordered.underway member old).remove fun version value records => ?_
      exact unrecorded member old version
        ((ordered.agree member old).trans (congrArg Stage.pending records))
    · exact Function.update_self ..
  · intro other
    by_cases mine : other = key
    · subst mine
      exact .inr ⟨_, mem_set_of_getElem? here, .inr rfl⟩
    · refine newest_set here (ordered.newest other) (same_remove mine) ?_ _
      obtain rfl : seen = none := ordered.agree _ (List.mem_of_getElem? here)
      exact not_claims .idle nofun
  · intro other
    by_cases mine : other = key
    · subst mine
      exact inOrder_remove maxHistory
    · exact (ordered.inOrder other).same (same_remove mine)

/-- The version of a key is removed after its entries. -/
theorem finish (ordered : Ordered maxHistory s crew)
    (here : crew[index]? = some (seen, .clearing key)) :
    Ordered maxHistory
      { s with
        currentVersions := s.currentVersions.erase key
        held := false
        taken := Function.update s.taken key none }
      (crew.set index (none, .idle)) := by
  have inside := List.mem_of_getElem? here
  have agrees : seen = some (.clearing key) := ordered.agree _ inside
  have cleared : s.log key = [] := ordered.underway _ inside
  have compatible : Compatible crew .idle := trivial
  have lock := clearings_set here .idle
  refine ⟨agree_set ordered.agree .idle, ?_,
    distinct_set ordered.distinct here compatible, apart_set ordered.apart compatible, ?_, ?_, ?_⟩
  · rw [ordered.lock] at lock
    cases held : s.held with
    | true =>
      rw [held] at lock
      exact Nat.add_right_cancel lock
    | false =>
      rw [held] at lock
      cases lock
  · intro member member_
    obtain old | rfl := List.mem_or_eq_of_mem_set member_
    · refine (ordered.underway member old).finish cleared fun version value records => ?_
      exact ordered.apart key _ inside agrees member old version
        ((ordered.agree member old).trans (congrArg Stage.pending records))
    · trivial
  · intro other
    by_cases mine : other = key
    · subst mine
      exact .inl (quiet_finish cleared)
    · refine newest_set here (ordered.newest other) (same_finish mine) ?_ _
      rw [agrees]
      exact not_claims (.clearing key) fun same => mine (Option.some.inj same).symm
  · exact fun other => ⟨(ordered.inOrder other).increasing, (ordered.inOrder other).stored⟩

/-- Every move that fits keeps the keys ordered. -/
theorem move {pool : HistoryPool} (ordered : Ordered maxHistory pool.shared crew)
    (staged : crew.map Prod.fst = pool.threads.map Thread.seen)
    (here : crew[index]? = some (seen, stage)) {note : Note} {now : DateTime} {after : Stage}
    {t : ConfigHistory} (fits : Fits pool seen note)
    (move : Moves maxHistory stage note now pool.shared after t) :
    Ordered maxHistory t (crew.set index (pendings.see seen note now pool.shared, after)) := by
  have thread : ∀ member ∈ crew, ∃ thread ∈ pool.threads, thread.seen = member.1 := by
    intro member inside
    exact List.mem_map.mp (staged ▸ List.mem_map_of_mem inside)
  cases move with
  | look looks =>
    have same : pendings.see seen note now pool.shared = seen := by
      obtain rfl | rfl | rfl := looks <;> rfl
    obtain ⟨inside, member⟩ := List.getElem?_eq_some_iff.mp here
    rw [same, ← member, List.set_getElem_self inside]
    exact ordered
  | @take key value =>
    refine ordered.take here (fun member inside => ?_) fits.2 value
    obtain ⟨thread, running, same⟩ := thread member inside
    exact same ▸ fits.1 thread running
  | @store entry =>
    have agrees := ordered.agree _ (List.mem_of_getElem? here)
    refine ordered.store here fun member inside version records => ?_
    obtain ⟨thread, running, same⟩ := thread member inside
    exact fits entry.version agrees thread running version (same.trans records)
  | remove free =>
    refine ordered.remove here free fun member inside version records => ?_
    obtain ⟨thread, running, same⟩ := thread member inside
    exact fits thread running version (same.trans records)
  | finish => exact ordered.finish here

end Ordered

theorem steers (maxHistory : Nat) :
    Pool.Steers pendings (Spawns maxHistory) (fun _ _ => False) (fun s => s = .new) Admitted
      (Moves maxHistory) Pool.Ledger.blank fun s crew _ => Ordered maxHistory s crew where
  start := by
    rintro _ rfl
    exact .empty maxHistory
  spawn s crew books program staged ordered free spawns :=
    ⟨.idle, follows_spawned spawns, ordered.spawn⟩
  run s crew books index input note ready act next seen stage after staged ordered met here enabled
      member move :=
    ordered.move staged.seen member (met note ready act next seen here) move
  background _ _ _ _ _ _ _ := False.elim

/-! ## Finished calls -/

section Finished

variable {maxHistory : Nat}

theorem doing_withHistory {α : Type} {note : Note} {run : ConfigHistory → ConfigHistory}
    {value : ConfigHistory → α} {seen : Option Pending} {post : α → Option Pending → Prop}
    (after : ∀ now s, post (value s) (pendings.see seen note now s)) :
    (withHistory note run value).Doing pendings Anything seen post :=
  ⟨fun _ _ => trivial, fun now s _ _ _ => ⟨trivial, after now s⟩⟩

theorem doing_record (key value : String) (changedBy description : Option String) :
    (record maxHistory key value changedBy description).Doing pendings Anything none
      fun _ seen => seen = none := by
  refine .bind (q := fun _ _ => True)
    (Program.Doing.update (fun _ _ => trivial) fun _ _ => trivial) ?_
  intro version seen _
  refine .bind (q := fun _ _ => True)
    (Program.Doing.update (fun _ _ => trivial) fun _ _ => trivial) ?_
  intro timestamp seen _
  exact .bind (doing_withHistory fun _ _ => rfl)
    fun _ _ here => Program.Keeps.pure here

theorem doing_getVersion (key : String) (version : UInt64) :
    (getVersion key version).Doing pendings Anything none fun _ seen => seen = none :=
  doing_withHistory fun _ _ => rfl

theorem doing_currentVersion (key : String) :
    (currentVersion key).Doing pendings Anything none fun _ seen => seen = none :=
  Program.Doing.update (fun _ _ => trivial) fun _ _ => rfl

theorem doing_clearHistory (key : String) :
    (clearHistory key).Doing pendings Anything none fun _ seen => seen = none := by
  refine .bind (q := fun _ _ => True) (doing_withHistory fun _ _ => trivial) ?_
  intro _ seen _
  exact Program.Doing.update (fun _ _ => trivial) fun _ _ => rfl

theorem doing_rollbackTo (key : String) (version : UInt64) :
    (rollbackTo maxHistory key version).Doing pendings Anything none
      fun _ seen => seen = none := by
  refine .bind (doing_getVersion key version) ?_
  rintro (_ | entry) _ rfl
  · exact .pure rfl
  · exact .bind (doing_record _ _ _ _) fun _ _ here => Program.Keeps.pure here

theorem doing_rollbackPrevious (key : String) :
    (rollbackPrevious maxHistory key).Doing pendings Anything none
      fun _ seen => seen = none := by
  refine .bind (doing_currentVersion key) ?_
  rintro current _ rfl
  split
  · exact .pure rfl
  · exact doing_rollbackTo key _

theorem doing_spawned {program : HistoryProgram HistoryReply}
    (spawns : Spawns maxHistory program) :
    program.Doing pendings Anything pendings.start fun _ seen => seen = none := by
  cases spawns with
  | record key value changedBy description =>
    exact .bind (doing_record key value changedBy description)
      fun _ _ here => Program.Keeps.pure here
  | rollbackTo key version =>
    exact .bind (doing_rollbackTo key version)
      fun _ _ here => Program.Keeps.pure here
  | rollbackPrevious key =>
    exact .bind (doing_rollbackPrevious key)
      fun _ _ here => Program.Keeps.pure here
  | getVersion key version =>
    exact .bind (doing_getVersion key version)
      fun _ _ here => Program.Keeps.pure here
  | clearHistory key =>
    exact .bind (doing_clearHistory key) fun _ _ here => Program.Keeps.pure here
  | currentVersion key =>
    exact .bind (doing_currentVersion key) fun _ _ here => Program.Keeps.pure here

end Finished

/-! ## The log is faithful -/

/-- When no call has done a part of what it does, every key is quiet. -/
theorem Ordered.quiet {maxHistory : Nat} {s : ConfigHistory} {crew : Crew}
    (ordered : Ordered maxHistory s crew) (idle : ∀ member ∈ crew, member.1 = none)
    (key : String) : Quiet s key := by
  obtain quiet | ⟨member, inside, claims⟩ := ordered.newest key
  · exact quiet
  · rw [idle member inside] at claims
    exact claims.elim nofun nofun

theorem getLast?_trim {maxHistory : Nat} (positive : 0 < maxHistory)
    (entries : List ConfigVersion) : (trim maxHistory entries).getLast? = entries.getLast? := by
  rw [trim, List.getLast?_drop]
  split
  · next short =>
      have none_ : entries.length = 0 := by omega
      rw [List.length_eq_zero_iff.mp none_]
      rfl
  · rfl

theorem length_trim (maxHistory : Nat) (entries : List ConfigVersion) :
    (trim maxHistory entries).length ≤ maxHistory := by
  rw [trim, List.length_drop]
  omega

/-- Along every run in which the records of a key store in the order in which they took their
versions and do not overlap with its removal, the history is a faithful log. -/
theorem log_faithful (maxHistory : Nat) (positive : 0 < maxHistory) (s : HistoryPool)
    (reached : ((historySystem maxHistory).restrict Admitted).Reachable s) :
    FaithfulLog maxHistory s := by
  obtain ⟨crew, -, staged, ordered⟩ := (steers maxHistory).of_reachable reached
  refine ⟨fun key => ?_, fun key => ?_, fun key => ?_, fun finished key => ?_⟩
  · rw [(ordered.inOrder key).stored]
    exact (ordered.inOrder key).increasing.sublist (List.drop_sublist _ _)
  · refine List.pairwise_map.mpr ((ordered.inOrder key).increasing.imp ?_)
    exact UInt64.ne_of_lt
  · rw [(ordered.inOrder key).stored]
    exact length_trim maxHistory _
  · have ending : s.Ending pendings Anything fun _ seen => seen = none :=
      Pool.ending_of_reachable (fun _ spawns => doing_spawned spawns) reached.of_restrict
    have quiet : Quiet s.shared key := by
      refine ordered.quiet (fun member inside => ?_) key
      obtain ⟨thread, running, same⟩ :=
        List.mem_map.mp (staged.seen ▸ List.mem_map_of_mem (f := Prod.fst) inside)
      obtain ⟨_, ended⟩ := ending.finished running (finished thread running)
      exact same.symm.trans ended
    have last := getLast?_trim positive (s.shared.log key)
    rw [(ordered.inOrder key).stored, last]
    refine ⟨quiet.last, fun none_ => quiet.empty ?_⟩
    rw [none_] at last
    exact List.getLast?_eq_none_iff.mp last.symm

/-! ## Running some calls -/

abbrev HistoryMove : Type := Pool.Move (Spawns 2) fun _ _ => False

def historyPlayer : (historySystem 2).Player HistoryMove :=
  Pool.player pendings (Spawns 2) (fun _ _ => False) _

/-- Two records of one key and a removal of another start and take turns. -/
def takingTurns (order : List Nat) : List HistoryMove :=
  [.spawn _ (.record "a" "x" none none), .spawn _ (.record "a" "y" none none),
    .spawn _ (.clearHistory "b")] ++ Pool.running (order.map (·, 0))

theorem nothing_recorded
    {guard : HistoryPool → PoolLabel ConfigHistory DateTime Note HistoryReply → Prop} :
    ((historySystem 2).restrict guard).Reachable ⟨.new, []⟩ := .init ⟨rfl, rfl⟩

/-- A record of a key that is under way has no earlier version. -/
def yields (key : String) (version : UInt64) : Option Pending → Bool
  | some (.recording other earlier) => decide (other = key → version ≤ earlier)
  | some (.clearing _) | none => true

/-- Whether an action fits. -/
def permits (s : HistoryPool) (seen : Option Pending) : Note → Bool
  | .takeVersion key =>
    s.threads.all (fun thread => thread.seen ≠ some (.clearing key)) &&
      decide ((s.shared.versionOf key).toNat + 1 < 2 ^ 64)
  | .store key =>
    match seen with
    | some (.recording _ version) => s.threads.all fun thread => yields key version thread.seen
    | some (.clearing _) | none => true
  | .removeHistory _ => s.threads.all fun thread => thread.seen = none
  | .readClock | .readHistory | .readVersions | .removeVersions _ => true

theorem fits_of_permits {s : HistoryPool} {seen : Option Pending} {note : Note}
    (permitted : permits s seen note = true) : Fits s seen note := by
  cases note with
  | takeVersion key => simpa [permits, Fits] using permitted
  | store key =>
    rintro version rfl thread running earlier records
    have yielded := List.all_eq_true.mp permitted thread running
    rw [records] at yielded
    exact of_decide_eq_true yielded rfl
  | removeHistory key =>
    intro thread running version records
    have idle := of_decide_eq_true (List.all_eq_true.mp permitted thread running)
    cases records.symm.trans idle
  | readClock => exact trivial
  | readHistory => exact trivial
  | readVersions => exact trivial
  | removeVersions key => exact trivial

/-- Whether the next action of a thread fits. -/
def permitsNext (s : HistoryPool) (index : Nat) (_ : DateTime) : Bool :=
  match s.threads[index]? with
  | some ⟨.act note _ _ _, seen⟩ => permits s seen note
  | _ => true

theorem admitted_of_permitsNext (s : HistoryPool) (index : Nat) (now : DateTime)
    (permitted : permitsNext s index now = true) : Admitted s (.run index now) := by
  intro note ready act next seen here
  simp only [permitsNext, here] at permitted
  exact fits_of_permits permitted

/-- The second record takes its version before the first has stored its own. -/
theorem log_faithful_sample : 0 < 2 ∧ ∃ s,
    ((historySystem 2).restrict Admitted).Reachable s ∧
      (s.shared.stored "a").map ConfigVersion.version = [1, 2] ∧ FaithfulLog 2 s := by
  obtain ⟨s, reached, stored⟩ := (Pool.checked historyPlayer _ admitted_of_permitsNext
    (fun _ _ => trivial) fun _ _ => trivial).exists_reachable nothing_recorded
    (takingTurns [2, 0, 1, 2, 1, 0, 0, 1])
    (fun s => (s.shared.stored "a").map ConfigVersion.version = [1, 2]) (by decide)
  exact ⟨Nat.two_pos, s, reached, stored, log_faithful 2 Nat.two_pos s reached⟩

/-- Two records of a key can store in the other order than they took their versions. -/
theorem log_unfaithful : ∃ s, (historySystem 2).Reachable s ∧
    (s.shared.stored "a").map ConfigVersion.version = [2, 1] ∧ ¬ FaithfulLog 2 s := by
  obtain ⟨s, reached, stored⟩ := historyPlayer.any.exists_reachable nothing_recorded
    (takingTurns [0, 1, 0, 1, 1, 0])
    (fun s => (s.shared.stored "a").map ConfigVersion.version = [2, 1]) (by decide)
  refine ⟨s, reached.of_restrict, stored, fun faithful => ?_⟩
  have increasing := List.pairwise_map.mpr (faithful.increasing "a")
  rw [stored] at increasing
  exact absurd increasing (by decide)

end UHorse.Config
