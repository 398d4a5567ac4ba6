import UHorse.Lib.ExistingAncestor

/-!
# Paths that only go down

Below a directory, a path made of names resolves to the names appended to the
directory's location, as long as no link is met on the way. Neither `.` between
the names nor a missing end changes that, but `..` and links do.
-/

namespace UHorse.Lib.Unix

def Component.name? : Component → Option String
  | .normal name => some name
  | _ => none

/-- The names among the components. -/
def namesOf (parts : List Component) : Location := parts.filterMap Component.name?

/-- No `..` among the components. -/
def Descending (parts : List Component) : Prop := .parentDir ∉ parts

/-- No link on the way down from the location along the names. -/
def LinkFree (tree : Tree) (loc names : Location) : Prop :=
  ∀ front name, front ++ [name] <+: names →
    ∀ target, tree.find? (loc ++ (front ++ [name])) ≠ some (.link target)

section Names

@[simp] theorem namesOf_nil : namesOf [] = [] := rfl

@[simp] theorem namesOf_curDir (rest : List Component) :
    namesOf (.curDir :: rest) = namesOf rest := rfl

@[simp] theorem namesOf_normal (name : String) (rest : List Component) :
    namesOf (.normal name :: rest) = name :: namesOf rest := rfl

@[simp] theorem namesOf_append (first second : List Component) :
    namesOf (first ++ second) = namesOf first ++ namesOf second := by
  simp [namesOf]

@[simp] theorem namesOf_map_normal (names : Location) :
    namesOf (names.map .normal) = names := by
  induction names with
  | nil => rfl
  | cons name rest ih => rw [List.map_cons, namesOf_normal, ih]

theorem Descending.tail {part : Component} {rest : List Component}
    (descending : Descending (part :: rest)) : Descending rest :=
  fun member => descending (List.mem_cons_of_mem _ member)

theorem Descending.left {first second : List Component}
    (descending : Descending (first ++ second)) : Descending first :=
  fun member => descending (List.mem_append_left _ member)

theorem descending_map_normal (names : Location) : Descending (names.map .normal) := by
  simp [Descending]

theorem LinkFree.tail {tree : Tree} {loc names : Location} {name : String}
    (free : LinkFree tree loc (name :: names)) : LinkFree tree (loc ++ [name]) names := by
  intro front last isPrefix target
  have further := free (name :: front) last (by simpa using isPrefix) target
  simpa using further

theorem LinkFree.singleton {tree : Tree} {loc : Location} {name : String}
    (free : ∀ target, tree.find? (loc ++ [name]) ≠ some (.link target)) :
    LinkFree tree loc [name] := by
  intro front last isPrefix
  have whole : front ++ [last] = [name] := isPrefix.eq_of_length_le (by simp)
  rw [whole]
  exact free

theorem LinkFree.left {tree : Tree} {loc first second : Location}
    (free : LinkFree tree loc (first ++ second)) : LinkFree tree loc first :=
  fun front name isPrefix => free front name (isPrefix.trans (List.prefix_append _ _))

end Names

theorem stripPrefix_eq_some {path base rest : List Component} :
    stripPrefix path base = some rest ↔ path = base ++ rest := by
  rw [stripPrefix]
  constructor
  · intro stripped
    split at stripped
    · next isPrefix =>
        obtain ⟨tail, rfl⟩ := isPrefix
        simp_all
    · cases stripped
  · rintro rfl
    simp

/-- Going down without meeting a link ends at the names below the start. -/
theorem Walks.eq_append_of_linkFree {tree : Tree} {create : Bool} {links left : Nat}
    {loc finish : Location} {parts : List Component}
    (walked : Walks tree create links loc parts left finish) (descending : Descending parts)
    (free : LinkFree tree loc (namesOf parts)) : finish = loc ++ namesOf parts := by
  induction walked with
  | done => simp
  | curDir _ _ ih => exact ih descending.tail free
  | parentDir _ _ _ => exact absurd List.mem_cons_self descending
  | make _ _ _ _ _ ih =>
    rw [ih descending.tail free.tail]
    simp
  | enter _ _ _ _ _ ih =>
    rw [ih descending.tail free.tail]
    simp
  | follow _ _ found _ _ => exact absurd found (free [] _ (by simp) _)

/-! ## Trailing dots -/

namespace Path

theorem trimEnd_concat (parts : List Component) (last : Component) :
    trimEnd (parts ++ [last]) = if last = .curDir then trimEnd parts else parts ++ [last] := by
  simp [trimEnd, List.rdropWhile_concat]

@[simp] theorem trimEnd_trimEnd (parts : List Component) :
    trimEnd (trimEnd parts) = trimEnd parts :=
  List.rdropWhile_idempotent _ _

/-- What is kept of the front does not depend on the dots after it. -/
theorem trimEnd_append {base : List Component} (trimmed : trimEnd base = base)
    (rest : List Component) : trimEnd (base ++ rest) = base ++ trimEnd rest := by
  induction rest using List.reverseRecOn with
  | nil =>
    rw [List.append_nil, trimmed]
    exact (List.append_nil base).symm
  | append_singleton front last ih =>
    rw [← List.append_assoc, trimEnd_concat, trimEnd_concat]
    split
    · exact ih
    · rw [List.append_assoc]

variable {parts : List Component}

theorem getLast_trimEnd_ne (nonempty : trimEnd parts ≠ []) :
    (trimEnd parts).getLast nonempty ≠ .curDir := by
  have kept :=
    List.rdropWhile_last_not (fun part => decide (part = Component.curDir)) parts nonempty
  intro dot
  exact kept (decide_eq_true dot)

theorem filter_trimEnd (parts : List Component) :
    (trimEnd parts).filter (· ≠ .curDir) = parts.filter (· ≠ .curDir) := by
  induction parts using List.reverseRecOn with
  | nil => rfl
  | append_singleton front last ih =>
    rw [trimEnd_concat]
    split
    · next dot => rw [ih, dot, List.filter_append]; simp
    · rfl

theorem namesOf_trimEnd (parts : List Component) : namesOf (trimEnd parts) = namesOf parts := by
  induction parts using List.reverseRecOn with
  | nil => rfl
  | append_singleton front last ih =>
    rw [trimEnd_concat]
    split
    · next dot => rw [ih, dot]; simp
    · rfl

theorem trimEnd_descending (descending : Descending parts) : Descending (trimEnd parts) :=
  fun member => descending ((List.rdropWhile_prefix _ _).subset member)

/-- Without names and without `..`, only dots are there to drop. -/
theorem trimEnd_eq_nil (descending : Descending parts) (nameless : namesOf parts = []) :
    trimEnd parts = [] := by
  induction parts using List.reverseRecOn with
  | nil => rfl
  | append_singleton front last ih =>
    rw [namesOf_append, List.append_eq_nil_iff] at nameless
    rw [trimEnd_concat]
    cases last with
    | curDir => exact ih descending.left nameless.1
    | parentDir => exact absurd (by simp) descending
    | normal name => simp [namesOf, Component.name?] at nameless

/-- The last component that is no dot is a name. -/
theorem exists_last_name (descending : Descending parts) (named : namesOf parts ≠ []) :
    ∃ front name, trimEnd parts = front ++ [.normal name] := by
  have nonempty : trimEnd parts ≠ [] := by
    intro empty
    apply named
    rw [← namesOf_trimEnd, empty, namesOf_nil]
  have split := List.dropLast_append_getLast nonempty
  cases last : (trimEnd parts).getLast nonempty with
  | curDir => exact absurd last (getLast_trimEnd_ne nonempty)
  | parentDir =>
    have member : Component.parentDir ∈ trimEnd parts := last ▸ List.getLast_mem nonempty
    exact absurd member (trimEnd_descending descending)
  | normal name =>
    rw [last] at split
    exact ⟨_, name, split.symm⟩

/-- Going up one level drops the last name and the dots around it. -/
theorem parent?_append {base rest front : List Component} {name : String}
    (trimmed : trimEnd base = base) (last : trimEnd rest = front ++ [.normal name]) :
    parent? ⟨true, base ++ rest⟩ = some ⟨true, base ++ trimEnd front⟩ := by
  have kept : trimEnd (base ++ rest) = base ++ front ++ [.normal name] := by
    rw [trimEnd_append trimmed, last, List.append_assoc]
  rw [parent?]
  rw [kept]
  split
  · next empty => simp at empty
  · rw [List.dropLast_concat, trimEnd_append trimmed]

/-- The components of a path are those of its parent and one more. -/
theorem components_parent? {path above : Path} (absolute : path.absolute = true)
    (up : path.parent? = some above) : above.absolute = true ∧
      ∃ part, part ≠ .curDir ∧ path.components = above.components ++ [part] := by
  obtain ⟨_, parts⟩ := path
  obtain rfl : _ = true := absolute
  rw [parent?] at up
  split at up
  · cases up
  · next nonempty =>
      cases up
      have plain : (trimEnd parts).getLast nonempty ≠ .curDir := getLast_trimEnd_ne nonempty
      refine ⟨rfl, (trimEnd parts).getLast nonempty, plain, ?_⟩
      calc parts.filter (· ≠ .curDir)
          = (trimEnd parts).filter (· ≠ .curDir) := (filter_trimEnd parts).symm
        _ = ((trimEnd parts).dropLast ++ [(trimEnd parts).getLast nonempty]).filter
              (· ≠ .curDir) := by rw [List.dropLast_append_getLast]
        _ = (trimEnd (trimEnd parts).dropLast).filter (· ≠ .curDir) ++
              [(trimEnd parts).getLast nonempty] := by
            rw [List.filter_append, filter_trimEnd]
            simp [plain]

end Path

end UHorse.Lib.Unix
