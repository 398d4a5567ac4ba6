import UHorse.Lib.Utf8Slices
import UHorse.Webhook.Template

/-!
# The placeholders of a template

`extract_variables` walks through a template by byte positions. Each turn of its loop passes both
delimiters, so it gets on unless both are empty; then it stays where it is for ever.
-/

namespace UHorse.Webhook

open UHorse.Lib UHorse.Lib.Utf8Slices

/-- The text is cut where the delimiter first occurs. -/
structure CutFirst (delimiter text before after : List Char) : Prop where
  written : text = before ++ (delimiter ++ after)
  first : ∀ place < before.length, ¬ delimiter <+: text.drop place

/-- The texts between a left delimiter and the next right one, from left to right. -/
inductive Scanned (left right : List Char) : List Char → List (List Char) → Prop
  | unopened {text : List Char} : ¬ left <:+: text → Scanned left right text []
  | unclosed {text skipped afterLeft : List Char} : CutFirst left text skipped afterLeft →
      ¬ right <:+: afterLeft → Scanned left right text []
  | next {text skipped afterLeft raw rest : List Char} {raws : List (List Char)} :
      CutFirst left text skipped afterLeft → CutFirst right afterLeft raw rest →
      Scanned left right rest raws → Scanned left right text (raw :: raws)

namespace TemplateEngine

def withDelimiters (engine : TemplateEngine) (left right : String) : TemplateEngine :=
  { engine with leftDelimiter := left, rightDelimiter := right }

variable (engine : TemplateEngine)

/-- The loop from a byte on. `none` is a loop that has not ended, `some none` a panic. -/
def extractFrom (template : List Char) : Nat → Nat → List String → Option (Option (List String))
  | 0, _, _ => none
  | turns + 1, start, names =>
    match sliceFrom template start with
    | none => some none
    | some text =>
      match findText engine.leftDelimiter.toList text with
      | none => some (some names)
      | some opening =>
        let afterLeft := start + opening + byteLength engine.leftDelimiter.toList
        match sliceFrom template afterLeft with
        | none => some none
        | some text =>
          match findText engine.rightDelimiter.toList text with
          | none => some (some names)
          | some stop =>
            match slice template afterLeft (afterLeft + stop) with
            | none => some none
            | some raw =>
              let varName := trimmed raw
              extractFrom template turns
                (afterLeft + stop + byteLength engine.rightDelimiter.toList)
                (if varName ≠ "" ∧ varName ∉ names then names ++ [varName]
                  else names)

/-- The loop ends without a panic with the names that stand between the delimiters, trimmed and
without the empty one, in the order in which they first occur. -/
def ExtractsExactly (template : String) : Prop :=
  ∃ names raws, (∃ turns, engine.extractFrom template.toList turns 0 [] = some (some names)) ∧
    Scanned engine.leftDelimiter.toList engine.rightDelimiter.toList template.toList raws ∧
    names.Nodup ∧ "" ∉ names ∧ names = ((raws.map trimmed).filter fun name => name ≠ "").eraseDups

variable {engine} {text : List Char}

theorem cutFirst_of_splitOnce {delimiter before after : List Char}
    (cut : Text.splitOnce delimiter text = some (before, after)) :
    CutFirst delimiter text before after :=
  ⟨Text.splitOnce_eq_some cut, Text.splitOnce_earliest cut⟩

/-- The loop over positions is the loop over what is left of the text: it slices where characters
start. -/
theorem extractFrom_append (engine : TemplateEngine) (text front : List Char) (turns : Nat)
    (names : List String) :
    engine.extractFrom (front ++ text) turns (byteLength front) names =
      (engine.extractFuel turns text names).map some := by
  induction turns generalizing front text names with
  | zero => rfl
  | succ turns ih =>
    rw [extractFrom, extractFuel, sliceFrom_append]
    dsimp only
    rw [findText]
    cases left : Text.splitOnce engine.leftDelimiter.toList text with
    | none => rfl
    | some sides =>
      obtain ⟨skipped, afterLeft⟩ := sides
      have opened : front ++ text =
          front ++ skipped ++ engine.leftDelimiter.toList ++ afterLeft := by
        rw [Text.splitOnce_eq_some left]
        simp only [List.append_assoc]
      dsimp only [Option.map_some]
      rw [opened, ← byteLength_append, ← byteLength_append, sliceFrom_append]
      dsimp only
      rw [findText]
      cases right : Text.splitOnce engine.rightDelimiter.toList afterLeft with
      | none => rfl
      | some sides =>
        obtain ⟨raw, rest⟩ := sides
        have closed : front ++ skipped ++ engine.leftDelimiter.toList ++ afterLeft =
            front ++ skipped ++ engine.leftDelimiter.toList ++ raw ++
              (engine.rightDelimiter.toList ++ rest) := by
          rw [Text.splitOnce_eq_some right]
          simp only [List.append_assoc]
        dsimp only [Option.map_some]
        rw [closed, slice_append, ← List.append_assoc]
        dsimp only
        rw [← byteLength_append, ← byteLength_append, ih]
        rfl

/-- A name that is read is added unless it is empty or known. -/
theorem pushed_append (name : String) (names later : List String) :
    (if name ≠ "" ∧ name ∉ names then names ++ [name] else names) ++
        (later.filter fun other => other ≠ "" ∧
          other ∉ if name ≠ "" ∧ name ∉ names then names ++ [name] else names).eraseDups =
      names ++ ((name :: later).filter fun other => other ≠ "" ∧ other ∉ names).eraseDups := by
  by_cases fresh : name ≠ "" ∧ name ∉ names
  · have wanted : decide (name ≠ "" ∧ name ∉ names) = true := decide_eq_true fresh
    rw [if_pos fresh, List.filter_cons, if_pos wanted, List.eraseDups_cons, List.append_assoc,
      List.singleton_append, List.filter_filter]
    congr 4
    funext other
    by_cases same : other = name <;> simp [same]
  · rw [if_neg fresh, List.filter_cons, if_neg (by simpa using fresh)]

theorem nodup_eraseDups : (names : List String) → names.eraseDups.Nodup
  | [] => List.nodup_nil
  | name :: names => by
      rw [List.eraseDups_cons, List.nodup_cons]
      refine ⟨?_, nodup_eraseDups _⟩
      simp [List.mem_eraseDups]
  termination_by names => names.length
  decreasing_by exact Nat.lt_succ_of_le (List.length_filter_le _ _)

/-- What the loop adds to the names is what the scan finds, each name once. -/
theorem scanned_of_extractFuel {turns : Nat} {names found : List String}
    (ended : engine.extractFuel turns text names = some found) :
    ∃ raws, Scanned engine.leftDelimiter.toList engine.rightDelimiter.toList text raws ∧
      found = names ++ ((raws.map trimmed).filter fun name =>
        name ≠ "" ∧ name ∉ names).eraseDups := by
  induction turns generalizing text names with
  | zero => cases ended
  | succ turns ih =>
    rw [extractFuel] at ended
    cases left : Text.splitOnce engine.leftDelimiter.toList text with
    | none =>
      rw [left] at ended
      cases ended
      exact ⟨[], .unopened (Text.splitOnce_eq_none.mp left), by simp⟩
    | some sides =>
      obtain ⟨skipped, afterLeft⟩ := sides
      rw [left] at ended
      dsimp only at ended
      cases right : Text.splitOnce engine.rightDelimiter.toList afterLeft with
      | none =>
        rw [right] at ended
        cases ended
        exact ⟨[], .unclosed (cutFirst_of_splitOnce left) (Text.splitOnce_eq_none.mp right),
          by simp⟩
      | some sides =>
        obtain ⟨raw, rest⟩ := sides
        rw [right] at ended
        obtain ⟨raws, scanned, rfl⟩ := ih ended
        refine ⟨raw :: raws, .next (cutFirst_of_splitOnce left) (cutFirst_of_splitOnce right)
          scanned, ?_⟩
        rw [List.map_cons]
        exact pushed_append _ _ _

/-- Two empty delimiters are passed without a step. -/
theorem extractFrom_of_empty (left : engine.leftDelimiter = "")
    (right : engine.rightDelimiter = "") (turns : Nat) :
    engine.extractFrom text turns 0 [] = none := by
  have all := extractFrom_append engine text [] turns []
  rw [extractFuel_of_empty left right] at all
  exact all

/-- For every text, the names are read exactly if not both delimiters are empty. -/
theorem extractsExactly_iff (engine : TemplateEngine) (left right template : String) :
    (engine.withDelimiters left right).ExtractsExactly template ↔ ¬ (left = "" ∧ right = "") := by
  constructor
  · rintro ⟨names, raws, ⟨turns, ended⟩, -⟩ ⟨rfl, rfl⟩
    rw [extractFrom_of_empty rfl rfl] at ended
    cases ended
  · intro delimits
    obtain ⟨names, ended⟩ : ∃ names, (engine.withDelimiters left right).extractFuel
        (template.toList.length + 1) template.toList [] = some names :=
      exists_extractFuel (not_and_or.mp delimits) (Nat.lt_succ_self _) []
    obtain ⟨raws, scanned, rfl⟩ := scanned_of_extractFuel ended
    have bytes := extractFrom_append (engine.withDelimiters left right) template.toList []
      (template.toList.length + 1) []
    rw [List.nil_append, ended] at bytes
    simp only [List.not_mem_nil, not_false_eq_true, and_true, List.nil_append] at bytes
    refine ⟨_, raws, ⟨_, bytes⟩, scanned, nodup_eraseDups _, ?_, rfl⟩
    simp [List.mem_eraseDups]

/-- Between two empty delimiters nothing is read and the loop goes on. -/
theorem not_extractsExactly : ¬ (new.withDelimiters "" "").ExtractsExactly "text" := by
  rintro ⟨names, raws, ⟨turns, ended⟩, -⟩
  rw [extractFrom_of_empty rfl rfl] at ended
  cases ended

end TemplateEngine

end UHorse.Webhook
