import Mathlib.Data.List.DropRight
import Mathlib.Data.List.Infix

/-!
# Searching and splitting texts

Texts are lists. `splitOnce` cuts a text at the first occurrence of a pattern and `split` at
every occurrence, from left to right and without overlaps. A pattern without a border cannot
overlap itself, so cutting a concatenation at such a pattern is cutting its parts.
-/

namespace UHorse.Lib.Text

variable {α : Type*}

/-! ## Occurrences across a joint -/

section Joint

variable {p x y y₀ : List α}

/-- No proper end of `p` begins `y`. -/
def ApartFrom (p y : List α) : Prop := ∀ k < p.length, 0 < k → ¬ p.drop k <+: y

/-- No proper beginning of `p` ends `x`. -/
def ApartAfter (p x : List α) : Prop := ∀ k < p.length, 0 < k → ¬ p.take k <:+ x

instance [DecidableEq α] (p y : List α) : Decidable (ApartFrom p y) :=
  inferInstanceAs (Decidable (∀ k < p.length, 0 < k → ¬ p.drop k <+: y))

instance [DecidableEq α] (p x : List α) : Decidable (ApartAfter p x) :=
  inferInstanceAs (Decidable (∀ k < p.length, 0 < k → ¬ p.take k <:+ x))

theorem ApartFrom.append (apart : ApartFrom p y₀) (long : p.length ≤ y₀.length + 1) (y : List α) :
    ApartFrom p (y₀ ++ y) := by
  intro k inside positive begins
  refine apart k inside positive
    (List.prefix_of_prefix_length_le begins (List.prefix_append _ _) ?_)
  rw [List.length_drop]
  omega

/-- A beginning of `p` that ends `x` would bring a letter of `p` there. -/
theorem apartAfter_of_notMem {a : α} (absent : a ∉ x) : ApartAfter (a :: p) x := by
  rintro k - positive ends
  obtain ⟨k, rfl⟩ := Nat.exists_eq_succ_of_ne_zero positive.ne'
  exact absent (ends.subset List.mem_cons_self)

/-- An end of `p` that begins `y` would begin with a letter of `p`. -/
theorem apartFrom_of_notMem {a : α} (absent : a ∉ p) : ApartFrom p (a :: y) := by
  rintro k inside - begins
  obtain ⟨first, rest, same⟩ := List.exists_cons_of_ne_nil
    (show p.drop k ≠ [] by simpa using inside)
  rw [same, List.cons_prefix_cons] at begins
  refine absent (List.mem_of_mem_drop (i := k) ?_)
  rw [same, begins.1]
  exact List.mem_cons_self

theorem infix_append_iff_of_from (apart : ApartFrom p y) :
    p <:+: x ++ y ↔ p <:+: x ∨ p <:+: y := by
  rw [List.infix_append_iff_ne_nil]
  refine or_congr_right (or_iff_left ?_)
  rintro ⟨q, r, begun, rest, rfl, -, begins⟩
  refine apart q.length ?_ (List.length_pos_of_ne_nil begun) ?_
  · rw [List.length_append]
    have positive := List.length_pos_of_ne_nil rest
    omega
  · rwa [List.drop_left]

theorem infix_append_iff_of_after (apart : ApartAfter p x) :
    p <:+: x ++ y ↔ p <:+: x ∨ p <:+: y := by
  rw [List.infix_append_iff_ne_nil]
  refine or_congr_right (or_iff_left ?_)
  rintro ⟨q, r, begun, rest, rfl, ends, -⟩
  refine apart q.length ?_ (List.length_pos_of_ne_nil begun) ?_
  · rw [List.length_append]
    have positive := List.length_pos_of_ne_nil rest
    omega
  · rwa [List.take_left]

end Joint

/-! ## Cutting at a pattern -/

section Splitting

variable [DecidableEq α]

/-- The parts before and after the first occurrence of the pattern. -/
def splitOnce (pattern : List α) : List α → Option (List α × List α)
  | [] => if pattern = [] then some ([], []) else none
  | a :: text =>
    if pattern <+: a :: text then some ([], (a :: text).drop pattern.length)
    else (splitOnce pattern text).map fun parts => (a :: parts.1, parts.2)

/-- The parts between the occurrences of the pattern, at most `fuel` of them cut. -/
def splitFuel (pattern : List α) : Nat → List α → List (List α)
  | 0, text => [text]
  | fuel + 1, text =>
    match splitOnce pattern text with
    | none => [text]
    | some (first, rest) => first :: splitFuel pattern fuel rest

def split (pattern text : List α) : List (List α) := splitFuel pattern text.length text

/-- No proper end of the pattern begins it. -/
def Borderless (pattern : List α) : Prop := pattern ≠ [] ∧ ApartFrom pattern pattern

instance (pattern : List α) : Decidable (Borderless pattern) :=
  inferInstanceAs (Decidable (_ ∧ _))

variable {pattern text first rest : List α}

theorem splitOnce_eq_none : splitOnce pattern text = none ↔ ¬ pattern <:+: text := by
  induction text with
  | nil => simp [splitOnce]
  | cons a text ih =>
    rw [splitOnce, List.infix_cons_iff]
    split
    · next begins => simp [begins]
    · next other => simp [other, ih]

theorem splitOnce_eq_some (cut : splitOnce pattern text = some (first, rest)) :
    text = first ++ (pattern ++ rest) := by
  induction text generalizing first with
  | nil =>
    rw [splitOnce] at cut
    split at cut
    · next empty =>
        cases cut
        simp [empty]
    · cases cut
  | cons a text ih =>
    rw [splitOnce] at cut
    split at cut
    · next begins =>
        cases cut
        exact (List.prefix_iff_eq_append.mp begins).symm
    · obtain ⟨⟨before, after⟩, found, same⟩ := Option.map_eq_some_iff.mp cut
      cases same
      rw [ih found]
      rfl

/-- The first occurrence stays the first when the text goes on. -/
theorem splitOnce_append (cut : splitOnce pattern text = some (first, rest)) (more : List α) :
    splitOnce pattern (text ++ more) = some (first, rest ++ more) := by
  induction text generalizing first with
  | nil =>
    rw [splitOnce] at cut
    split at cut
    · next empty =>
        cases cut
        subst empty
        cases more <;> simp [splitOnce]
    · cases cut
  | cons a text ih =>
    rw [splitOnce] at cut
    rw [List.cons_append, splitOnce]
    split at cut
    · next begins =>
        cases cut
        have longer : pattern <+: a :: (text ++ more) := begins.trans (List.prefix_append _ _)
        rw [if_pos longer, ← List.cons_append, List.drop_append_of_le_length begins.length_le]
    · next other =>
        obtain ⟨⟨before, after⟩, found, same⟩ := Option.map_eq_some_iff.mp cut
        cases same
        have longer : ¬ pattern <+: a :: (text ++ more) := by
          intro begins
          have occurs : pattern <:+: text := by
            rw [splitOnce_eq_some found]
            exact List.infix_append' _ _ _
          exact other (List.prefix_of_prefix_length_le begins
            (List.prefix_append (a :: text) more) (occurs.length_le.trans (Nat.le_succ _)))
        rw [if_neg longer, ih found]
        rfl

/-- In front of a text without the pattern, a borderless pattern is found where it stands. -/
theorem splitOnce_append_pattern (borderless : Borderless pattern) (absent : ¬ pattern <:+: first)
    (rest : List α) : splitOnce pattern (first ++ (pattern ++ rest)) = some (first, rest) := by
  induction first with
  | nil =>
    obtain ⟨a, tail, rfl⟩ := List.exists_cons_of_ne_nil borderless.1
    rw [List.nil_append, List.cons_append, splitOnce, ← List.cons_append,
      if_pos (List.prefix_append _ _), List.drop_left]
  | cons a first ih =>
    rw [List.infix_cons_iff, not_or] at absent
    have other : ¬ pattern <+: a :: (first ++ (pattern ++ rest)) := by
      intro begins
      obtain shorter | longer := le_or_gt pattern.length (a :: first).length
      · exact absent.1 (List.prefix_of_prefix_length_le begins
          (List.prefix_append (a :: first) _) shorter)
      · obtain ⟨more, same⟩ := begins
        have dropped := congrArg (List.drop (a :: first).length) same
        rw [List.drop_append_of_le_length longer.le, ← List.cons_append, List.drop_left]
          at dropped
        exact borderless.2.append (Nat.le_succ _) rest _ longer (Nat.succ_pos _) ⟨more, dropped⟩
    rw [List.cons_append, splitOnce, if_neg other, ih absent.2]
    rfl

/-- The part before the first occurrence has none. -/
theorem splitOnce_first (nonempty : pattern ≠ [])
    (cut : splitOnce pattern text = some (first, rest)) : ¬ pattern <:+: first := by
  intro occurs
  cases earlier : splitOnce pattern first with
  | none => exact splitOnce_eq_none.mp earlier occurs
  | some parts =>
    have longer := splitOnce_append earlier (pattern ++ rest)
    rw [← splitOnce_eq_some cut, cut, Option.some.injEq, Prod.mk.injEq] at longer
    have whole := congrArg List.length (splitOnce_eq_some earlier)
    have positive := List.length_pos_of_ne_nil nonempty
    simp only [List.length_append, ← longer.1] at whole
    omega

/-- No occurrence begins before the first one. -/
theorem splitOnce_earliest (cut : splitOnce pattern text = some (first, rest)) :
    ∀ place < first.length, ¬ pattern <+: text.drop place := by
  induction text generalizing first with
  | nil =>
    rw [splitOnce] at cut
    split at cut
    · cases cut
      exact fun place below => absurd below (Nat.not_lt_zero _)
    · cases cut
  | cons a text ih =>
    rw [splitOnce] at cut
    split at cut
    · cases cut
      exact fun place below => absurd below (Nat.not_lt_zero _)
    · next other =>
        obtain ⟨⟨before, after⟩, found, same⟩ := Option.map_eq_some_iff.mp cut
        cases same
        rintro (_ | place) below
        · exact other
        · exact ih found place (Nat.lt_of_succ_lt_succ below)

/-! A single letter is found first where it is absent before. -/

theorem splitOnce_singleton_eq_none {a : α} : splitOnce [a] text = none ↔ a ∉ text := by
  rw [splitOnce_eq_none, List.singleton_infix_iff a text]

theorem splitOnce_singleton_eq_some {a : α} :
    splitOnce [a] text = some (first, rest) ↔ text = first ++ a :: rest ∧ a ∉ first := by
  constructor
  · intro cut
    refine ⟨splitOnce_eq_some cut, fun member => ?_⟩
    exact splitOnce_first (by simp) cut ((List.singleton_infix_iff a first).mpr member)
  · rintro ⟨rfl, absent⟩
    have borderless : Borderless [a] := ⟨by simp, fun k few positive => by simp at few; omega⟩
    have apart : ¬ [a] <:+: first := fun occurs =>
      absent ((List.singleton_infix_iff a first).mp occurs)
    exact splitOnce_append_pattern borderless apart rest

theorem splitFuel_of_le (nonempty : pattern ≠ []) {fuel more : Nat} (enough : text.length ≤ fuel)
    (further : text.length ≤ more) : splitFuel pattern fuel text = splitFuel pattern more text := by
  induction fuel generalizing text more with
  | zero =>
    obtain rfl := List.length_eq_zero_iff.mp (Nat.le_zero.mp enough)
    cases more with
    | zero => rfl
    | succ more => simp [splitFuel, splitOnce, nonempty]
  | succ fuel ih =>
    cases more with
    | zero =>
      obtain rfl := List.length_eq_zero_iff.mp (Nat.le_zero.mp further)
      simp [splitFuel, splitOnce, nonempty]
    | succ more =>
      rw [splitFuel, splitFuel]
      cases cut : splitOnce pattern text with
      | none => rfl
      | some parts =>
        have whole := congrArg List.length (splitOnce_eq_some cut)
        have positive := List.length_pos_of_ne_nil nonempty
        simp only [List.length_append] at whole
        exact congrArg (parts.1 :: ·) (ih (by omega) (by omega))

theorem split_of_unmatched (absent : ¬ pattern <:+: text) : split pattern text = [text] := by
  rw [split]
  cases text with
  | nil => rfl
  | cons a text =>
    rw [List.length_cons, splitFuel, splitOnce_eq_none.mpr absent]

theorem split_of_splitOnce (nonempty : pattern ≠ [])
    (cut : splitOnce pattern text = some (first, rest)) :
    split pattern text = first :: split pattern rest := by
  have whole := congrArg List.length (splitOnce_eq_some cut)
  have positive := List.length_pos_of_ne_nil nonempty
  simp only [List.length_append] at whole
  obtain ⟨fuel, length⟩ := Nat.exists_eq_succ_of_ne_zero (show text.length ≠ 0 by omega)
  rw [split, length, splitFuel, cut]
  exact congrArg (first :: ·) (splitFuel_of_le nonempty (by omega) le_rfl)

/-- Cutting a concatenation at a borderless pattern in its joint. -/
theorem split_append (borderless : Borderless pattern) (text rest : List α) :
    split pattern (text ++ (pattern ++ rest)) = split pattern text ++ split pattern rest := by
  induction length : text.length using Nat.strong_induction_on generalizing text with
  | _ n ih =>
    subst length
    cases cut : splitOnce pattern text with
    | none =>
      have absent := splitOnce_eq_none.mp cut
      rw [split_of_splitOnce borderless.1 (splitOnce_append_pattern borderless absent rest),
        split_of_unmatched absent]
      rfl
    | some parts =>
      have longer := splitOnce_append cut (pattern ++ rest)
      have whole := congrArg List.length (splitOnce_eq_some cut)
      have positive := List.length_pos_of_ne_nil borderless.1
      simp only [List.length_append] at whole
      rw [split_of_splitOnce borderless.1 longer, split_of_splitOnce borderless.1 cut,
        ih parts.2.length (by omega) parts.2 rfl]
      rfl

theorem infix_of_mem_split {chunk : List α} (nonempty : pattern ≠ [])
    (member : chunk ∈ split pattern text) : chunk <:+: text := by
  induction length : text.length using Nat.strong_induction_on generalizing text with
  | _ n ih =>
    subst length
    cases cut : splitOnce pattern text with
    | none =>
      rw [split_of_unmatched (splitOnce_eq_none.mp cut), List.mem_singleton] at member
      rw [member]
    | some parts =>
      have whole := splitOnce_eq_some cut
      have lengths := congrArg List.length whole
      have positive := List.length_pos_of_ne_nil nonempty
      simp only [List.length_append] at lengths
      rw [split_of_splitOnce nonempty cut, List.mem_cons] at member
      obtain rfl | later := member
      · rw [whole]
        exact (List.prefix_append _ _).isInfix
      · have inner := ih parts.2.length (by omega) later rfl
        rw [whole, ← List.append_assoc]
        exact inner.trans (List.suffix_append _ _).isInfix

end Splitting

/-! ## Pieces between separators -/

section Pieces

variable [DecidableEq α] {sep : α} {x y piece : List α}

/-- The pieces hold the letters of the text but the separators. -/
theorem exists_mem_splitOn {c : α} : (∃ piece ∈ x.splitOn sep, c ∈ piece) ↔ c ∈ x ∧ c ≠ sep := by
  induction x with
  | nil => simp [List.splitOn_nil]
  | cons a x ih =>
    obtain ⟨first, others, pieces⟩ := List.exists_cons_of_ne_nil (List.splitOn_ne_nil sep x)
    rw [List.splitOn_cons_eq_if_modifyHead]
    rw [pieces] at ih ⊢
    by_cases cut : a = sep
    · rw [if_pos (beq_iff_eq.mpr cut), List.exists_mem_cons_iff, ih]
      constructor
      · rintro (none_ | ⟨member, other⟩)
        · cases none_
        · exact ⟨List.mem_cons_of_mem a member, other⟩
      · rintro ⟨member, other⟩
        obtain rfl | later := List.mem_cons.mp member
        · exact absurd cut other
        · exact .inr ⟨later, other⟩
    · rw [List.exists_mem_cons_iff] at ih
      rw [if_neg (by simpa using cut), List.modifyHead_cons, List.exists_mem_cons_iff,
        List.mem_cons, or_assoc, ih, List.mem_cons]
      constructor
      · rintro (rfl | ⟨member, other⟩)
        · exact ⟨.inl rfl, cut⟩
        · exact ⟨.inr member, other⟩
      · rintro ⟨rfl | member, other⟩
        · exact .inl rfl
        · exact .inr ⟨member, other⟩

/-- Letters put before a text without a separator belong to its first piece. -/
theorem splitOn_append_left (free : sep ∉ x) {w : List α} {after : List (List α)}
    (pieces : y.splitOn sep = w :: after) : (x ++ y).splitOn sep = (x ++ w) :: after := by
  induction x with
  | nil => exact pieces
  | cons a x ih =>
    obtain ⟨other, later⟩ := List.ne_and_not_mem_of_not_mem_cons free
    rw [List.cons_append, List.splitOn_cons_eq_if_modifyHead,
      if_neg (by simpa using other.symm), ih later, List.modifyHead_cons, List.cons_append]

/-- Letters put behind a text without a separator belong to its last piece. -/
theorem splitOn_append_right (free : sep ∉ y) (x : List α) :
    ∃ before w, x.splitOn sep = before ++ [w] ∧ (x ++ y).splitOn sep = before ++ [w ++ y] := by
  induction x with
  | nil => exact ⟨[], [], rfl, List.splitOn_eq_singleton free⟩
  | cons a x ih =>
    obtain ⟨before, w, pieces, pieces'⟩ := ih
    rw [List.cons_append, List.splitOn_cons_eq_if_modifyHead,
      List.splitOn_cons_eq_if_modifyHead, pieces, pieces']
    by_cases cut : (a == sep) = true
    · rw [if_pos cut, if_pos cut]
      exact ⟨[] :: before, w, rfl, rfl⟩
    · rw [if_neg cut, if_neg cut]
      cases before with
      | nil => exact ⟨[], a :: w, rfl, rfl⟩
      | cons first before => exact ⟨(a :: first) :: before, w, rfl, rfl⟩

/-- The pieces of texts joined by separators, of which the last may hold separators itself. -/
theorem splitOn_joined {middle : List (List α)} (free : ∀ piece ∈ middle, sep ∉ piece)
    (y : List α) :
    (middle.flatMap (fun piece => piece ++ [sep]) ++ y).splitOn sep = middle ++ y.splitOn sep := by
  induction middle with
  | nil => rfl
  | cons piece middle ih =>
    obtain ⟨head, others⟩ := List.forall_mem_cons.mp free
    rw [List.flatMap_cons, List.append_assoc, List.append_assoc, List.singleton_append,
      List.splitOn_append_cons_self, ih others, List.splitOn_eq_singleton head,
      List.singleton_append, List.cons_append]

omit [DecidableEq α] in
theorem intercalate_append {back : List (List α)} (nonempty : back ≠ []) (front : List (List α)) :
    [sep].intercalate (front ++ back) =
      front.flatMap (fun piece => piece ++ [sep]) ++ [sep].intercalate back := by
  induction front with
  | nil => rfl
  | cons piece front ih =>
    rw [List.cons_append, List.intercalate_cons_of_ne_nil (by simp [nonempty]), ih,
      List.flatMap_cons, List.append_assoc, List.append_assoc, List.append_assoc]

variable {first last text : List α} {middle : List (List α)}

/-- Words joined by separators occur in a text just when the inner words are pieces one after the
other, behind a piece that the first word ends and before one that the last word begins. -/
theorem infix_joined_iff (freeFirst : sep ∉ first) (freeMiddle : ∀ piece ∈ middle, sep ∉ piece)
    (freeLast : sep ∉ last) :
    first ++ sep :: (middle.flatMap (fun piece => piece ++ [sep]) ++ last) <:+: text ↔
      ∃ before w w' after, text.splitOn sep = before ++ w :: (middle ++ w' :: after) ∧
        first <:+ w ∧ last <+: w' := by
  constructor
  · rintro ⟨x, y, rfl⟩
    obtain ⟨before, w, -, front⟩ := splitOn_append_right freeFirst x
    obtain ⟨w', after, pieces⟩ := List.exists_cons_of_ne_nil (List.splitOn_ne_nil sep y)
    have back := splitOn_append_left freeLast pieces
    refine ⟨before, w ++ first, last ++ w', after, ?_, ⟨w, rfl⟩, ⟨w', rfl⟩⟩
    have whole :
        x ++ (first ++ sep :: (middle.flatMap (fun piece => piece ++ [sep]) ++ last)) ++ y =
          (x ++ first) ++ sep :: (middle.flatMap (fun piece => piece ++ [sep]) ++ (last ++ y)) := by
      simp
    rw [whole, List.splitOn_append_cons_self, front, splitOn_joined freeMiddle, back]
    simp
  · rintro ⟨before, w, w', after, pieces, ⟨u, rfl⟩, ⟨v, rfl⟩⟩
    have joined : text = before.flatMap (fun piece => piece ++ [sep]) ++
        [sep].intercalate ((u ++ first) :: (middle ++ (last ++ v) :: after)) := by
      rw [← intercalate_append (by simp), ← pieces, List.intercalate_splitOn]
    obtain ⟨rest, tail⟩ : ∃ rest, [sep].intercalate ((last ++ v) :: after) = last ++ rest := by
      cases after with
      | nil => exact ⟨v, List.intercalate_singleton⟩
      | cons next after => exact ⟨_, by rw [List.intercalate_cons_cons, List.append_assoc,
          List.append_assoc]⟩
    rw [List.intercalate_cons_of_ne_nil (by simp), intercalate_append (by simp), tail] at joined
    refine ⟨before.flatMap (fun piece => piece ++ [sep]) ++ u, rest, ?_⟩
    rw [joined]
    simp

end Pieces

/-! ## Trimming -/

section Trimming

variable (blank : α → Bool)

def trimEnd (text : List α) : List α := text.rdropWhile blank

def trim (text : List α) : List α := trimEnd blank (text.dropWhile blank)

/-- How many letters are not blank. -/
def weight (text : List α) : Nat := text.countP fun a => !blank a

variable {blank} {x y text : List α} {a : α}

theorem weight_append (x y : List α) : weight blank (x ++ y) = weight blank x + weight blank y :=
  List.countP_append

theorem weight_eq_zero : weight blank text = 0 ↔ ∀ a ∈ text, blank a = true := by
  simp [weight, List.countP_eq_zero]

theorem weight_le_of_isInfix (blank : α → Bool) (inside : x <:+: y) :
    weight blank x ≤ weight blank y :=
  inside.sublist.countP_le

theorem length_trim_le (blank : α → Bool) (text : List α) :
    (trim blank text).length ≤ text.length :=
  (List.rdropWhile_prefix blank _).length_le.trans (List.dropWhile_suffix blank).length_le

theorem trimEnd_of_blank (all : ∀ a ∈ y, blank a = true) (x : List α) :
    trimEnd blank (x ++ y) = trimEnd blank x := by
  rw [trimEnd, List.rdropWhile, List.reverse_append, List.dropWhile_append_of_pos]
  · rfl
  · simpa using all

theorem trimEnd_of_solid (solid : 0 < weight blank y) (x : List α) :
    trimEnd blank (x ++ y) = x ++ trimEnd blank y := by
  have nonempty : y.reverse.dropWhile blank ≠ [] := by
    intro empty
    have all : ∀ a ∈ y, blank a = true := by simpa using List.dropWhile_eq_nil_iff.mp empty
    exact solid.ne' (weight_eq_zero.mpr all)
  rw [trimEnd, List.rdropWhile, List.reverse_append, List.dropWhile_append,
    if_neg (by simpa using nonempty), List.reverse_append, List.reverse_reverse]
  rfl

theorem trimEnd_of_getLast (solid : ∀ a ∈ text.getLast?, blank a = false) :
    trimEnd blank text = text := by
  refine List.rdropWhile_eq_self_iff.mpr fun nonempty => ?_
  simp [solid _ (List.getLast?_eq_some_getLast nonempty)]

theorem exists_trimEnd (blank : α → Bool) (text : List α) :
    ∃ rest, text = trimEnd blank text ++ rest ∧ ∀ a ∈ rest, blank a = true := by
  refine ⟨text.rtakeWhile blank, List.rdropWhile_append_rtakeWhile.symm, ?_⟩
  exact fun a member => List.mem_rtakeWhile_imp member

theorem weight_trimEnd (text : List α) : weight blank (trimEnd blank text) = weight blank text := by
  obtain ⟨rest, whole, all⟩ := exists_trimEnd blank text
  conv_rhs => rw [whole, weight_append, weight_eq_zero.mpr all]
  rfl

theorem weight_trim (text : List α) : weight blank (trim blank text) = weight blank text := by
  rw [trim, weight_trimEnd]
  conv_rhs => rw [← List.takeWhile_append_dropWhile (l := text) (p := blank), weight_append,
    weight_eq_zero.mpr fun a member => List.mem_takeWhile_imp member]
  exact (Nat.zero_add _).symm

theorem trim_of_head (solid : blank a = false) :
    trim blank (a :: text) = trimEnd blank (a :: text) := by
  rw [trim, List.dropWhile_cons_of_neg (by simp [solid])]

/-- There is nothing to trim from a text with solid ends. -/
theorem trim_of_ends (first : ∀ a ∈ text.head?, blank a = false)
    (last : ∀ a ∈ text.getLast?, blank a = false) : trim blank text = text := by
  cases text with
  | nil => rfl
  | cons a text => rw [trim_of_head (first a rfl), trimEnd_of_getLast last]

theorem trim_eq_nil : trim blank text = [] ↔ weight blank text = 0 := by
  constructor
  · intro empty
    rw [← weight_trim, empty]
    rfl
  · intro light
    rw [trim, List.dropWhile_eq_nil_iff.mpr fun a member => weight_eq_zero.mp light a member]
    rfl

theorem trim_trimEnd (text : List α) : trim blank (trimEnd blank text) = trim blank text := by
  obtain ⟨rest, whole, all⟩ := exists_trimEnd blank text
  conv_rhs => rw [trim, whole, List.dropWhile_append]
  rw [trim]
  split
  · next empty =>
      rw [List.isEmpty_iff.mp empty, List.dropWhile_eq_nil_iff.mpr all]
  · rw [trimEnd_of_blank all]

theorem trim_append_blank (all : ∀ a ∈ y, blank a = true) (x : List α) :
    trim blank (x ++ y) = trim blank x := by
  rw [← trim_trimEnd, trimEnd_of_blank all, trim_trimEnd]

theorem trim_trim (text : List α) : trim blank (trim blank text) = trim blank text := by
  conv_lhs => rw [trim.eq_1 blank text, trim_trimEnd, trim, List.dropWhile_idempotent]
  rfl

/-- Trimming does not cut off an occurrence that ends in a solid letter. -/
theorem infix_trimEnd_iff {p : List α} (solid : ∀ a ∈ p.getLast?, blank a = false)
    (nonempty : p ≠ []) : p <:+: trimEnd blank text ↔ p <:+: text := by
  obtain ⟨rest, whole, all⟩ := exists_trimEnd blank text
  have last : p.getLast nonempty ∉ rest := fun member =>
    absurd (all _ member) (by simp [solid _ (List.getLast?_eq_some_getLast nonempty)])
  have apart : ApartFrom p rest := by
    rintro k inside - begins
    refine last (begins.subset ?_)
    have there : p.drop k ≠ [] := by simpa using inside
    rw [← List.getLast_drop there]
    exact List.getLast_mem there
  conv_rhs => rw [whole, infix_append_iff_of_from apart]
  refine (or_iff_left fun inside => ?_).symm
  exact last (inside.subset (List.getLast_mem nonempty))

end Trimming

/-! ## Pieces -/

/-- Pieces that together yield what each of them should yield, and that yield nothing beside
what they should, yield just that. -/
theorem eq_singleton_of_flatMap_eq {β γ : Type*} {yields : β → List γ} {due : β → γ} {l : List β}
    (own : ∀ b ∈ l, due b ∈ yields b → yields b = [due b]) {early : List γ}
    (same : l.flatMap yields = early ++ l.map due) :
    early = [] ∧ ∀ b ∈ l, yields b = [due b] := by
  induction l generalizing early with
  | nil =>
    refine ⟨?_, fun b member => absurd member List.not_mem_nil⟩
    simpa using same.symm
  | cons b l ih =>
    have later : ∀ early, l.flatMap yields = early ++ l.map due →
        early = [] ∧ ∀ c ∈ l, yields c = [due c] := fun early =>
      ih fun c member => own c (List.mem_cons_of_mem _ member)
    rw [List.flatMap_cons, List.map_cons] at same
    obtain ⟨rest, rfl, whole⟩ | ⟨rest, whole, tail⟩ := List.append_eq_append_iff.mp same
    · -- the first piece yields too little, so the others yield too much
      have tooMuch := (later (rest ++ [due b]) (by simp [whole])).1
      simp at tooMuch
    · cases rest with
      | nil =>
        have tooMuch := (later [due b] tail.symm).1
        cases tooMuch
      | cons first rest =>
        rw [List.cons_append, List.cons.injEq] at tail
        obtain ⟨rfl, tail⟩ := tail
        have alone := own b List.mem_cons_self (by rw [whole]; simp)
        have one := congrArg List.length (alone.symm.trans whole)
        simp only [List.length_append, List.length_cons, List.length_nil] at one
        obtain rfl := List.length_eq_zero_iff.mp (show early.length = 0 by omega)
        obtain rfl := List.length_eq_zero_iff.mp (show rest.length = 0 by omega)
        refine ⟨rfl, fun c member => ?_⟩
        obtain rfl | further := List.mem_cons.mp member
        · exact alone
        · exact (later [] tail.symm).2 c further

end UHorse.Lib.Text
