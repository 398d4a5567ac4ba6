import Mathlib.Data.List.DropRight
import UHorse.Lib.FileSystem

/-!
# The net effect of a path

Where no link is met, the components of a path climb some levels and then go down along some
names, whatever they do in between. A path that climbs leaves a directory unless it comes back
along the names it has climbed.
-/

namespace UHorse.Lib.Unix

/-- First up, then down. -/
structure Net where
  ups : Nat
  downs : Location
deriving DecidableEq, Repr

namespace Net

variable {net : Net} {home rest : Location}

def step (net : Net) : Component → Net
  | .curDir => net
  | .parentDir => if net.downs = [] then ⟨net.ups + 1, []⟩ else ⟨net.ups, net.downs.dropLast⟩
  | .normal name => ⟨net.ups, net.downs ++ [name]⟩

def ofParts (parts : List Component) : Net := parts.foldl step ⟨0, []⟩

/-- Where the effect leads from a directory. -/
def apply (net : Net) (home : Location) : Location := home.rdrop net.ups ++ net.downs

@[simp] theorem apply_zero (home : Location) : (⟨0, []⟩ : Net).apply home = home := by
  simp [apply]

@[simp] theorem apply_step_curDir : (net.step .curDir).apply home = net.apply home := rfl

@[simp] theorem apply_step_normal (name : String) :
    (net.step (.normal name)).apply home = net.apply home ++ [name] := by
  simp [step, apply]

theorem rdrop_succ (home : Location) (n : Nat) : home.rdrop (n + 1) = (home.rdrop n).dropLast := by
  rw [List.rdrop, List.rdrop, List.dropLast_eq_take, List.take_take, List.length_take]
  congr 1
  omega

@[simp] theorem apply_step_parentDir :
    (net.step .parentDir).apply home = (net.apply home).dropLast := by
  by_cases empty : net.downs = []
  · simp [step, apply, empty, rdrop_succ]
  · simp [step, apply, empty, List.dropLast_append_of_ne_nil]

theorem rdrop_append_rtake (home : Location) (n : Nat) : home.rdrop n ++ home.rtake n = home := by
  rw [List.rdrop, List.rtake, List.take_append_drop]

/-- A climb stays below a directory exactly when the names climbed are the first ones gone
down again. -/
theorem apply_eq_append : net.apply home = home ++ rest ↔
    net.downs = home.rtake net.ups ++ rest := by
  conv_lhs => rhs; rw [← rdrop_append_rtake home net.ups, List.append_assoc]
  exact List.append_right_inj _

end Net

end UHorse.Lib.Unix
