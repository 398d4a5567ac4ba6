import UHorse.Lib.FileSystem

/-!
# Normalizing a path whose end may be missing

The longest existing ancestor of a path is the one that can be canonicalized;
what is left of the path is appended to it component by component, with `..`
removing the last name and no further look at the file system.
-/

namespace UHorse.Lib.Unix

variable {fs : FileSystem}

/-- The search loop: the path itself, then its parents, until one exists. -/
def existingAncestor (fs : FileSystem) (path : Path) : Option Path :=
  if fs.pathExists path then some path
  else match _step : path.parent? with
    | none => none
    | some above => existingAncestor fs above
termination_by path.parts.length
decreasing_by exact Path.parent?_length_lt _step

def stripPrefix (path base : List Component) : Option (List Component) :=
  if base <+: path then some (path.drop base.length) else none

/-- What the loop over the remainder does with one component. -/
def pushComponent (normalized : Location) : Component → Location
  | .curDir => normalized
  | .normal part => normalized ++ [part]
  | .parentDir => normalized.dropLast

theorem parent?_ofLocation_concat (front : Location) (name : String) :
    (Path.ofLocation (front ++ [name])).parent? = some (.ofLocation front) := by
  have split : (front ++ [name]).map Component.normal = front.map .normal ++ [.normal name] := by
    simp
  rw [Path.ofLocation]
  rw [split]
  apply Path.parent?_concat
  rw [← split]
  exact Path.curDir_notMem_normal _

theorem existingAncestor_of_exists {path : Path} (present : fs.pathExists path = true) :
    existingAncestor fs path = some path := by
  rw [existingAncestor, if_pos present]

theorem existingAncestor_of_missing {path : Path} (missing : fs.pathExists path = false) :
    existingAncestor fs path = path.parent?.bind (existingAncestor fs) := by
  rw [existingAncestor, if_neg (by simp [missing])]
  split
  · next top => rw [top, Option.bind_none]
  · next above step => rw [step, Option.bind_some]

/-- For a path without `.` and `..`, the search stops at some front of it. -/
theorem existingAncestor_ofLocation {loc : Location} {ancestor : Path}
    (found : existingAncestor fs (.ofLocation loc) = some ancestor) :
    ∃ front rest, loc = front ++ rest ∧ ancestor = .ofLocation front := by
  induction loc using List.reverseRecOn with
  | nil =>
    cases present : fs.pathExists (.ofLocation []) with
    | true =>
      rw [existingAncestor_of_exists present] at found
      exact ⟨[], [], rfl, (Option.some.inj found).symm⟩
    | false =>
      rw [existingAncestor_of_missing present] at found
      cases found
  | append_singleton front name ih =>
    cases present : fs.pathExists (.ofLocation (front ++ [name])) with
    | true =>
      rw [existingAncestor_of_exists present] at found
      exact ⟨front ++ [name], [], by simp, (Option.some.inj found).symm⟩
    | false =>
      rw [existingAncestor_of_missing present, parent?_ofLocation_concat] at found
      obtain ⟨shorter, rest, rfl, same⟩ := ih found
      exact ⟨shorter, rest ++ [name], by simp, same⟩

theorem components_of_notMem {parts : List Component} (plain : .curDir ∉ parts) :
    Path.components ⟨true, parts⟩ = parts := by
  have kept : ∀ part ∈ parts, part ≠ .curDir := fun part member same => plain (same ▸ member)
  simpa [Path.components, List.filter_eq_self] using kept

theorem components_ofLocation (loc : Location) :
    (Path.ofLocation loc).components = loc.map .normal :=
  components_of_notMem (Path.curDir_notMem_normal loc)

theorem foldl_pushComponent_normal (loc names : Location) :
    (names.map Component.normal).foldl pushComponent loc = loc ++ names := by
  induction names generalizing loc with
  | nil => simp
  | cons name rest ih => simp [pushComponent, ih]

/-- Above a missing entry of a real directory, the search stops at that directory. -/
theorem existingAncestor_of_missing_child {loc : Location} {name : String}
    (solid : Solid fs.tree loc) (missing : fs.tree.find? (loc ++ [name]) = none)
    {tail : List Component} (plain : .curDir ∉ tail) :
    existingAncestor fs ⟨true, loc.map .normal ++ .normal name :: tail⟩ =
      some (.ofLocation loc) := by
  have absent := FileSystem.pathExists_missing_child solid missing
  have names := Path.curDir_notMem_normal loc
  induction tail using List.reverseRecOn with
  | nil =>
    have present : fs.pathExists (.ofLocation loc) = true := by
      simp [FileSystem.pathExists, FileSystem.canonicalize_ofLocation solid]
    rw [existingAncestor_of_missing (absent []), Path.parent?_concat (by simp),
      Option.bind_some]
    exact existingAncestor_of_exists present
  | append_singleton front part ih =>
    have before : .curDir ∉ front := fun member => plain (by simp [member])
    rw [existingAncestor_of_missing (absent _), ← List.cons_append, ← List.append_assoc,
      Path.parent?_concat (by simpa using plain), Option.bind_some]
    exact ih before

end UHorse.Lib.Unix
