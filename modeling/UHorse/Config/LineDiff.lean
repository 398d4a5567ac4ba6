import UHorse.Config.Versioning
import UHorse.Node.OutputText

/-!
# The line diff of two versions

Two cursors go through the lines of the old and of the new value. A pass of the loop takes a line
from each of them as long as both have one, and from the one that is left afterwards, so the diff is
a script that leads from the old lines to the new ones.
-/

namespace UHorse.Config

open Node (lines)

structure ConfigDiff where
  key : String
  oldVersion : UInt64
  newVersion : UInt64
  oldValue : String
  newValue : String

inductive DiffLine
  | unchanged (line : List Char)
  | added (line : List Char)
  | removed (line : List Char)
deriving DecidableEq

namespace DiffLine

/-- The line of the old value, if there is one. -/
def old? : DiffLine → Option (List Char)
  | unchanged line | removed line => some line
  | added _ => none

/-- The line of the new value, if there is one. -/
def new? : DiffLine → Option (List Char)
  | unchanged line | added line => some line
  | removed _ => none

def IsUnchanged (entry : DiffLine) : Prop := ∃ line, entry = unchanged line

end DiffLine

/-- The lines behind the two cursors, and the diff so far. -/
structure DiffCursors where
  old : List (List Char)
  new : List (List Char)
  result : List DiffLine

namespace DiffCursors

/-- A pass of the loop; `none` is the break. -/
def pass (cursors : DiffCursors) : Option DiffCursors :=
  match cursors.old, cursors.new with
  | old :: olds, new :: news =>
    if old = new then some ⟨olds, news, cursors.result ++ [.unchanged old]⟩
    else some ⟨olds, news, cursors.result ++ [.removed old, .added new]⟩
  | old :: olds, [] => some ⟨olds, [], cursors.result ++ [.removed old]⟩
  | [], new :: news => some ⟨[], news, cursors.result ++ [.added new]⟩
  | [], [] => none

/-- The loop, which may take so many passes. -/
def loop : Nat → DiffCursors → Option (List DiffLine)
  | 0, _ => none
  | passes + 1, cursors =>
    match cursors.pass with
    | none => some cursors.result
    | some next => loop passes next

end DiffCursors

namespace ConfigDiff

def new (key : String) (old new : ConfigVersion) : ConfigDiff :=
  ⟨key, old.version, new.version, old.value, new.value⟩

def oldLines (diff : ConfigDiff) : List (List Char) := lines diff.oldValue.toList

def newLines (diff : ConfigDiff) : List (List Char) := lines diff.newValue.toList

/-- `line_diff`, with a bound on the passes of its loop. -/
def lineDiff (diff : ConfigDiff) (passes : Nat) : Option (List DiffLine) :=
  DiffCursors.loop passes ⟨diff.oldLines, diff.newLines, []⟩

end ConfigDiff

/-! ## Scripts -/

/-- The entries lead from the old lines to the new ones, and leave all of them unchanged just when
they are the same. -/
structure Leads (old new : List (List Char)) (script : List DiffLine) : Prop where
  fromOld : script.filterMap DiffLine.old? = old
  fromNew : script.filterMap DiffLine.new? = new
  unchanged : (∀ entry ∈ script, entry.IsUnchanged) ↔ old = new

namespace Leads

variable {olds news : List (List Char)} {script : List DiffLine}

theorem nil : Leads [] [] [] := ⟨rfl, rfl, by simp⟩

theorem unchanged_cons (leads : Leads olds news script) (line : List Char) :
    Leads (line :: olds) (line :: news) (.unchanged line :: script) := by
  refine ⟨congrArg (List.cons line) leads.fromOld, congrArg (List.cons line) leads.fromNew, ?_⟩
  rw [List.forall_mem_cons, leads.unchanged, List.cons_inj_right]
  exact and_iff_right ⟨line, rfl⟩

theorem not_isUnchanged_removed (line : List Char) : ¬ (DiffLine.removed line).IsUnchanged := by
  rintro ⟨other, same⟩
  cases same

theorem not_isUnchanged_added (line : List Char) : ¬ (DiffLine.added line).IsUnchanged := by
  rintro ⟨other, same⟩
  cases same

theorem changed (leads : Leads olds news script) {old new : List Char} (different : old ≠ new) :
    Leads (old :: olds) (new :: news) (.removed old :: .added new :: script) := by
  refine ⟨congrArg (List.cons old) leads.fromOld, congrArg (List.cons new) leads.fromNew, ?_⟩
  refine iff_of_false (fun all => ?_) fun same => different (List.cons.inj same).1
  exact not_isUnchanged_removed old (all _ List.mem_cons_self)

theorem removed (leads : Leads olds [] script) (old : List Char) :
    Leads (old :: olds) [] (.removed old :: script) := by
  refine ⟨congrArg (List.cons old) leads.fromOld, leads.fromNew, ?_⟩
  refine iff_of_false (fun all => ?_) (List.cons_ne_nil _ _)
  exact not_isUnchanged_removed old (all _ List.mem_cons_self)

theorem added (leads : Leads [] news script) (new : List Char) :
    Leads [] (new :: news) (.added new :: script) := by
  refine ⟨leads.fromOld, congrArg (List.cons new) leads.fromNew, ?_⟩
  refine iff_of_false (fun all => ?_) (List.cons_ne_nil _ _).symm
  exact not_isUnchanged_added new (all _ List.mem_cons_self)

end Leads

theorem DiffCursors.loop_of_pass {cursors next : DiffCursors} (step : cursors.pass = some next)
    (passes : Nat) : loop (passes + 1) cursors = loop passes next := by
  rw [loop, step]

/-- What one pass pushes stands in front of what the loop pushes after it. -/
theorem DiffCursors.loop_cons {olds news olds' news' : List (List Char)}
    {entries script : List DiffLine}
    (step : ∀ result, pass ⟨olds, news, result⟩ = some ⟨olds', news', result ++ entries⟩)
    (shorter : olds'.length + news'.length < olds.length + news.length)
    (ends : ∀ result passes, olds'.length + news'.length < passes →
      loop passes ⟨olds', news', result⟩ = some (result ++ script))
    (result : List DiffLine) (passes : Nat) (enough : olds.length + news.length < passes) :
    loop passes ⟨olds, news, result⟩ = some (result ++ (entries ++ script)) := by
  obtain ⟨passes, rfl⟩ := Nat.exists_eq_add_one_of_ne_zero (show passes ≠ 0 by omega)
  rw [loop_of_pass (step result), ends _ passes (by omega), List.append_assoc]

/-- With a pass for each line and one for the break, the loop ends with a script. -/
theorem DiffCursors.exists_loop (olds news : List (List Char)) :
    ∃ script, Leads olds news script ∧ ∀ result passes, olds.length + news.length < passes →
      loop passes ⟨olds, news, result⟩ = some (result ++ script) := by
  -- a pass takes a line from each side that has one, so the old side leads the induction
  induction olds generalizing news with
  | nil =>
    induction news with
    | nil =>
      refine ⟨[], .nil, fun result passes enough => ?_⟩
      obtain ⟨passes, rfl⟩ := Nat.exists_eq_add_one_of_ne_zero (Nat.ne_of_gt enough)
      rw [loop, List.append_nil]
      rfl
    | cons new news ih =>
      obtain ⟨script, leads, ends⟩ := ih
      have step : ∀ result, pass ⟨[], new :: news, result⟩ =
          some ⟨[], news, result ++ [.added new]⟩ := fun _ => rfl
      refine ⟨_, leads.added new, loop_cons step ?_ ends⟩
      exact Nat.add_lt_add_left (Nat.lt_succ_self _) _
  | cons old olds ih =>
    cases news with
    | nil =>
      obtain ⟨script, leads, ends⟩ := ih []
      have step : ∀ result, pass ⟨old :: olds, [], result⟩ =
          some ⟨olds, [], result ++ [.removed old]⟩ := fun _ => rfl
      refine ⟨_, leads.removed old, loop_cons step ?_ ends⟩
      exact Nat.add_lt_add_right (Nat.lt_succ_self _) _
    | cons new news =>
      obtain ⟨script, leads, ends⟩ := ih news
      have shorter : olds.length + news.length < (old :: olds).length + (new :: news).length :=
        Nat.add_lt_add (Nat.lt_succ_self _) (Nat.lt_succ_self _)
      by_cases same : old = new
      · subst same
        have step : ∀ result, pass ⟨old :: olds, old :: news, result⟩ =
            some ⟨olds, news, result ++ [.unchanged old]⟩ := fun _ => if_pos rfl
        exact ⟨_, leads.unchanged_cons old, loop_cons step shorter ends⟩
      · have step : ∀ result, pass ⟨old :: olds, new :: news, result⟩ =
            some ⟨olds, news, result ++ [.removed old, .added new]⟩ := fun _ => if_neg same
        exact ⟨_, leads.changed same, loop_cons step shorter ends⟩

/-- The diff comes to an end, and it is a script from the old lines to the new ones. -/
theorem lineDiff_leads (diff : ConfigDiff) :
    ∃ script, (∀ passes, diff.oldLines.length + diff.newLines.length < passes →
      diff.lineDiff passes = some script) ∧ Leads diff.oldLines diff.newLines script := by
  obtain ⟨script, leads, ends⟩ := DiffCursors.exists_loop diff.oldLines diff.newLines
  exact ⟨script, fun passes enough => ends [] passes enough, leads⟩

example : ConfigDiff.lineDiff ⟨"k", 1, 2, "a\nb\nc", "a\nd"⟩ 6 =
    some [.unchanged ['a'], .removed ['b'], .added ['d'], .removed ['c']] := by decide

end UHorse.Config
