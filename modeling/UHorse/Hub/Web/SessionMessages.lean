import UHorse.Hub.Web.SessionHistory

/-!
# From stored messages to the console

The context of a session has the memories of its scopes in front of the history. What is
read as the history begins behind the first line that announces one, wherever it stands.
-/

namespace UHorse.Hub.Web

open UHorse.Lib UHorse.Lib.Text UHorse.Lib.Unix UHorse.Agent
open FileMemory (historyHeading globalHeading)

/-! ## The memories in a context -/

/-- The memories of a context under their headings. -/
def memoryPart (store : LayeredMemoryStore) (disk : Disk) (sessionId : String) : Agent.Text :=
  match namespaceForSession sessionId with
  | none => globalHeading ++ (store.globalMemory.readMemoryMd disk).getD []
  | some namespaces => "\n\n".toList.intercalate
      (namespaces.memoryContextChain.filterMap (store.memorySection disk namespaces))

/-- The heading of a history without the end of its line. -/
def headingLine : Agent.Text := "=== Session History ===".toList

theorem historyHeading_eq : historyHeading = headingLine ++ ['\n'] := by decide

theorem joint_eq : "\n\n".toList ++ headingLine = sectionMark ++ " Session History ===".toList := by
  decide

/-- What a context has behind its memories. -/
inductive Behind (memory history : Agent.Text) : Agent.Text → Prop
  /-- There is no history. -/
  | nothing : history = [] → Behind memory history memory
  /-- There is neither a memory nor a history, and nothing is said about either. -/
  | silent : history = [] → ¬ historyHeading <:+: memory → Behind memory history []
  | alone : memory = [] → history ≠ [] → Behind memory history (historyHeading ++ history)
  | section_ : memory ≠ [] →
      Behind memory history (memory ++ ("\n\n".toList ++ (historyHeading ++ history)))

theorem intercalate_concat {separator last : Agent.Text} {parts : List Agent.Text}
    (nonempty : parts ≠ []) : separator.intercalate (parts ++ [last]) =
      separator.intercalate parts ++ (separator ++ last) := by
  induction parts with
  | nil => exact absurd rfl nonempty
  | cons part parts ih =>
    cases parts with
    | nil => simp [List.intercalate]
    | cons next parts =>
      have later := ih (List.cons_ne_nil _ _)
      simp only [List.intercalate, List.cons_append, List.intersperse_cons_cons,
        List.flatten_cons] at later ⊢
      rw [later]
      simp only [List.append_assoc]

theorem intercalate_head (separator : Agent.Text) {parts : List Agent.Text}
    (headed : ∀ part ∈ parts, part.head? = some '=') (nonempty : parts ≠ []) :
    (separator.intercalate parts).head? = some '=' := by
  cases parts with
  | nil => exact absurd rfl nonempty
  | cons part parts =>
    have first := headed part List.mem_cons_self
    cases parts with
    | nil => simpa [List.intercalate] using first
    | cons next parts => simp [List.intercalate, List.intersperse_cons_cons, first]

variable {memory section_ context history : Agent.Text}

theorem head_memorySection {store : LayeredMemoryStore} {disk : Disk}
    {namespaces : SessionNamespace} {scope : String}
    (section_ : store.memorySection disk namespaces scope = some memory) :
    memory.head? = some '=' := by
  simp only [LayeredMemoryStore.memorySection, Option.ite_none_left_eq_some] at section_
  rw [← Option.some.inj section_.2]
  rfl

theorem head_memories (store : LayeredMemoryStore) (disk : Disk) (namespaces : SessionNamespace)
    (scopes : List String) : ∀ memory ∈ scopes.filterMap (store.memorySection disk namespaces),
    memory.head? = some '=' := by
  intro memory member
  obtain ⟨scope, -, section_⟩ := List.mem_filterMap.mp member
  exact head_memorySection section_

/-- Memories begin with the line of their first heading. -/
theorem head_memoryPart (store : LayeredMemoryStore) (disk : Disk) (sessionId : String) :
    ∀ first ∈ (memoryPart store disk sessionId).head?, first = '=' := by
  intro first head
  rw [memoryPart] at head
  cases named : namespaceForSession sessionId with
  | none =>
    rw [named] at head
    cases head
    rfl
  | some namespaces =>
    rw [named] at head
    dsimp only at head
    by_cases empty : namespaces.memoryContextChain.filterMap
        (store.memorySection disk namespaces) = []
    · rw [empty] at head
      cases head
    · rw [intercalate_head _ (head_memories _ _ _ _) empty] at head
      exact (Option.some.inj head).symm

theorem behind_global (memory : FileMemory) (disk : Disk) (sessionId : String) :
    Behind (globalHeading ++ (memory.readMemoryMd disk).getD [])
      (memory.readSessionHistory disk sessionId) (memory.getContext disk sessionId) := by
  rw [FileMemory.getContext]
  generalize (memory.readMemoryMd disk).getD [] = text
  generalize memory.readSessionHistory disk sessionId = history
  by_cases empty : text = [] ∧ history = []
  · obtain ⟨rfl, rfl⟩ := empty
    exact .silent rfl (by decide)
  · have written : (text.isEmpty && history.isEmpty) = false := by
      rwa [Bool.and_eq_false_iff, List.isEmpty_eq_false_iff, List.isEmpty_eq_false_iff,
        ← not_and_or]
    rw [written, if_neg Bool.false_ne_true]
    have grouped : globalHeading ++ text ++ "\n\n".toList ++ historyHeading ++ history =
        globalHeading ++ text ++ ("\n\n".toList ++ (historyHeading ++ history)) := by
      simp only [List.append_assoc]
    rw [grouped]
    exact .section_ (List.append_ne_nil_of_left_ne_nil (List.cons_ne_nil _ _) _)

/-- A context is the memories of the session and then its history. -/
theorem behind_getContext (store : LayeredMemoryStore) (disk : Disk) (sessionId : String) :
    Behind (memoryPart store disk sessionId)
      (store.globalMemory.readSessionHistory disk sessionId)
      (store.getContext disk sessionId) := by
  rw [memoryPart, LayeredMemoryStore.getContext]
  cases namespaceForSession sessionId with
  | none => exact behind_global _ _ _
  | some namespaces =>
    dsimp only
    rw [LayeredMemoryStore.getContextForNamespace]
    generalize store.globalMemory.readSessionHistory disk sessionId = history
    have headed := head_memories store disk namespaces
      namespaces.memoryContextChain
    generalize namespaces.memoryContextChain.filterMap
      (store.memorySection disk namespaces) = memories at headed ⊢
    by_cases empty : history = []
    · rw [if_pos (List.isEmpty_iff.mpr empty)]
      exact .nothing empty
    · rw [if_neg (mt List.isEmpty_iff.mp empty)]
      by_cases none : memories = []
      · subst none
        rw [List.nil_append, List.intercalate_singleton]
        exact .alone rfl empty
      · rw [intercalate_concat none]
        refine .section_ fun silent => ?_
        have first := intercalate_head "\n\n".toList headed none
        rw [silent] at first
        cases first

/-! ## Finding the history -/

/-- A text announces a history of its own: `section_` is what stands behind the first
heading and in front of the next section. -/
def Planted (text section_ : Agent.Text) : Prop :=
  ∃ front rest after, text = front ++ (historyHeading ++ rest) ∧
    rest ++ sectionMark = section_ ++ (sectionMark ++ after) ∧
    ¬ historyHeading <:+: front ∧ ¬ sectionMark <:+: section_

theorem beforeSection_of_notMem (absent : ¬ sectionMark <:+: section_) (rest : Agent.Text) :
    beforeSection (section_ ++ (sectionMark ++ rest)) = section_ := by
  rw [beforeSection, splitOnce_append_pattern borderless_sectionMark absent]

theorem beforeSection_append_mark (text rest : Agent.Text) :
    beforeSection (text ++ (sectionMark ++ rest)) = beforeSection text := by
  cases cut : splitOnce sectionMark text with
  | none =>
    rw [beforeSection_of_notMem (splitOnce_eq_none.mp cut), beforeSection, cut]
  | some parts =>
    rw [beforeSection, beforeSection, cut, splitOnce_append cut]

theorem beforeSection_isPrefix (text : Agent.Text) : beforeSection text <+: text := by
  cases cut : splitOnce sectionMark text with
  | none => rw [beforeSection, cut]
  | some parts =>
    rw [beforeSection, cut]
    exact ⟨_, (splitOnce_eq_some cut).symm⟩

/-- White space at the end is trimmed before or after the next section is looked for. -/
theorem trimText_beforeSection_append {blanks : Agent.Text}
    (all : ∀ letter ∈ blanks, isWhitespace letter = true) (text : Agent.Text) :
    trimText (beforeSection (text ++ blanks)) = trimText (beforeSection text) := by
  cases cut : splitOnce sectionMark text with
  | some parts => rw [beforeSection, beforeSection, cut, splitOnce_append cut]
  | none =>
    have absent : ¬ sectionMark <:+: text ++ blanks := by
      rw [← infix_trimEnd_iff solid_last_sectionMark borderless_sectionMark.1,
        trimEnd_of_blank all, infix_trimEnd_iff solid_last_sectionMark borderless_sectionMark.1]
      exact splitOnce_eq_none.mp cut
    rw [beforeSection, beforeSection, cut, splitOnce_eq_none.mpr absent]
    exact trim_append_blank all text

/-- What is extracted from a text that begins with a letter does not depend on the white
space at its end. -/
theorem extractSessionHistory_eq {content : Agent.Text}
    (headed : ∀ first ∈ content.head?, isWhitespace first = false) :
    extractSessionHistory content = match splitOnce historyHeading content with
      | none => []
      | some (_, rest) => trimText (beforeSection rest) := by
  have trimmed : trimText content = trimEnd isWhitespace content := by
    cases content with
    | nil => rfl
    | cons first rest => exact trim_of_head (headed first rfl)
  obtain ⟨blanks, whole, all⟩ := exists_trimEnd isWhitespace content
  rw [extractSessionHistory, trimmed]
  have again : trimEnd isWhitespace (trimEnd isWhitespace content) =
    trimEnd isWhitespace content := List.rdropWhile_idempotent _ _
  generalize trimEnd isWhitespace content = text at whole again
  subst whole
  cases cut : splitOnce historyHeading text with
  | some parts =>
    have nonempty : text ≠ [] := by
      rw [splitOnce_eq_some cut]
      exact List.append_ne_nil_of_right_ne_nil _ (List.cons_ne_nil _ _)
    rw [if_neg (mt List.isEmpty_iff.mp nonempty), splitOnce_append cut]
    exact (trimText_beforeSection_append all parts.2).symm
  | none =>
    rw [ite_self]
    cases later : splitOnce historyHeading (text ++ blanks) with
    | none => rfl
    | some parts =>
      -- the end of the heading's line is white space that was trimmed
      have joint := splitOnce_eq_some later
      have light : solid parts.2 = 0 := by
        by_contra heavy
        have regroup : parts.1 ++ (historyHeading ++ parts.2) =
            parts.1 ++ historyHeading ++ parts.2 := (List.append_assoc _ _ _).symm
        have same : text = parts.1 ++ historyHeading ++ trimEnd isWhitespace parts.2 := by
          rw [← trimEnd_of_solid (Nat.pos_of_ne_zero heavy), ← regroup, ← joint,
            trimEnd_of_blank all, again]
        refine splitOnce_eq_none.mp cut ?_
        rw [same]
        exact ⟨_, _, rfl⟩
      have lighter := weight_le_of_isInfix isWhitespace (beforeSection_isPrefix parts.2).isInfix
      exact (trim_eq_nil.mpr (Nat.le_zero.mp (light ▸ lighter))).symm

theorem Planted.beforeSection {rest after : Agent.Text}
    (whole : rest ++ sectionMark = section_ ++ (sectionMark ++ after))
    (uncut : ¬ sectionMark <:+: section_) : Web.beforeSection rest = section_ := by
  have joint : rest ++ (sectionMark ++ []) = section_ ++ (sectionMark ++ after) := by
    rw [List.append_nil, whole]
  rw [← beforeSection_append_mark rest [], joint, beforeSection_of_notMem uncut]

theorem exists_planted {text : Agent.Text} (occurs : historyHeading <:+: text) :
    ∃ section_, Planted text section_ := by
  cases cut : splitOnce historyHeading text with
  | none => exact absurd occurs (splitOnce_eq_none.mp cut)
  | some parts =>
    have first := splitOnce_first borderless_historyHeading.1 cut
    have there : splitOnce sectionMark (parts.2 ++ sectionMark) ≠ none := fun none =>
      splitOnce_eq_none.mp none (List.suffix_append _ _).isInfix
    obtain ⟨⟨section_, after⟩, found⟩ := Option.ne_none_iff_exists'.mp there
    exact ⟨section_, parts.1, parts.2, after, splitOnce_eq_some cut, splitOnce_eq_some found,
      first, splitOnce_first borderless_sectionMark.1 found⟩

/-- A history that the memories announce is what is extracted, whatever follows them. -/
theorem extractSessionHistory_planted (planted : Planted memory section_)
    (headed : ∀ first ∈ context.head?, isWhitespace first = false)
    (behind : context = memory ∨ ∃ more, context = memory ++ (sectionMark ++ more)) :
    extractSessionHistory context = trimText section_ := by
  obtain ⟨front, rest, after, rfl, whole, first, uncut⟩ := planted
  have before := Planted.beforeSection whole uncut
  have found := splitOnce_append_pattern borderless_historyHeading first
  rw [extractSessionHistory_eq headed]
  obtain rfl | ⟨more, rfl⟩ := behind
  · rw [found]
    exact congrArg trimText before
  · rw [List.append_assoc, List.append_assoc, found]
    exact congrArg trimText ((beforeSection_append_mark rest more).trans before)

theorem beforeSection_append {lead text : Agent.Text}
    (joint : ∀ part, part <+: text → sectionMark <:+: lead ++ part → sectionMark <:+: part) :
    beforeSection (lead ++ text) = lead ++ beforeSection text := by
  cases cut : splitOnce sectionMark text with
  | none =>
    have uncut : ¬ sectionMark <:+: lead ++ text := fun occurs =>
      splitOnce_eq_none.mp cut (joint text (List.prefix_refl _) occurs)
    rw [beforeSection, beforeSection, cut, splitOnce_eq_none.mpr uncut]
  | some parts =>
    have whole := splitOnce_eq_some cut
    have first := splitOnce_first borderless_sectionMark.1 cut
    have uncut : ¬ sectionMark <:+: lead ++ parts.1 := fun occurs =>
      first (joint parts.1 ⟨_, whole.symm⟩ occurs)
    rw [whole, ← List.append_assoc, beforeSection_of_notMem uncut,
      beforeSection_of_notMem first]

/-- A text that is empty or begins with the heading of an exchange. -/
def Opened (history : Agent.Text) : Prop :=
  history = [] ∨ ∃ (now : Stamp) (tail : Agent.Text), history = "## ".toList ++ (now.text ++ tail)

/-- The line of a heading in front of the first exchange is no record. -/
theorem readTexts_headingLine (opened : Opened history) :
    readTexts (trimText (beforeSection ('\n' :: historyHeading ++ history))) =
      readTexts (trimText (beforeSection history)) := by
  obtain rfl | ⟨now, tail, rfl⟩ := opened
  · decide
  have outer : beforeSection ('\n' :: historyHeading ++ ("## ".toList ++ (now.text ++ tail))) =
      '\n' :: historyHeading ++ beforeSection ("## ".toList ++ (now.text ++ tail)) := by
    refine beforeSection_append fun part inside occurs => ?_
    have apart : ApartFrom sectionMark part := by
      cases part with
      | nil => decide
      | cons letter rest =>
        obtain rfl : letter = '#' := (List.cons_prefix_cons.mp inside).1
        exact apartFrom_of_notMem (by decide)
    exact ((infix_append_iff_of_from apart).mp occurs).resolve_left (by decide)
  have inner : beforeSection ("## ".toList ++ (now.text ++ tail)) =
      "## ".toList ++ (now.text ++ beforeSection tail) := by
    have line : '\n' ∉ "## ".toList ++ now.text := by
      rw [List.mem_append, not_or]
      exact ⟨by decide, Stamp.notMem_text now⟩
    have absent : ¬ sectionMark <:+: "## ".toList ++ now.text := fun occurs =>
      line (occurs.subset (by decide))
    rw [← List.append_assoc, beforeSection_append fun part _ occurs =>
      ((infix_append_iff_of_after (apartAfter_of_notMem line)).mp occurs).resolve_left absent,
      List.append_assoc]
  have heavy : 0 < weight isWhitespace (now.text ++ beforeSection tail) := by
    rw [Stamp.text, List.cons_append, weight,
      List.countP_cons_of_pos (by simp [(Stamp.first_solid now).1])]
    exact Nat.succ_pos _
  have begun : Begun (trimEnd isWhitespace (now.text ++ beforeSection tail)) :=
    begun_of_isPrefix now (trimEnd_isPrefix _) (List.prefix_append _ _)
  have own : trimText ("## ".toList ++ (now.text ++ beforeSection tail)) =
      "## ".toList ++ trimEnd isWhitespace (now.text ++ beforeSection tail) := by
    rw [← trimEnd_of_solid heavy]
    exact trim_of_head (by decide)
  have headed : trimText ('\n' :: historyHeading ++
      ("## ".toList ++ (now.text ++ beforeSection tail))) = headingLine ++
        (entryMark ++ trimEnd isWhitespace (now.text ++ beforeSection tail)) := by
    have regroup : ∀ text, headingLine ++ (entryMark ++ text) =
        historyHeading ++ "## ".toList ++ text := by
      intro text
      have marks : headingLine ++ entryMark = historyHeading ++ "## ".toList := by decide
      rw [← List.append_assoc, marks]
    have dropped : trimText ('\n' :: historyHeading ++
        ("## ".toList ++ (now.text ++ beforeSection tail))) =
          trimText (historyHeading ++ "## ".toList ++ (now.text ++ beforeSection tail)) := by
      rw [List.append_assoc]
      rfl
    rw [regroup, dropped, ← trimEnd_of_solid heavy]
    exact trim_of_head (by decide)
  have noise : readTexts headingLine = [] := by decide
  rw [outer, inner, own, headed, readTexts_heading begun, readTexts,
    split_append borderless_entryMark, List.filterMap_append, List.map_append]
  exact (congrArg (· ++ _) noise).trans (List.nil_append _)

/-- The memories end in the line of the heading when they announce a history only together
with what follows them. -/
theorem eq_append_headingLine (silent : ¬ historyHeading <:+: memory)
    (announced : historyHeading <:+: memory ++ "\n\n".toList) :
    ∃ front, memory = front ++ headingLine := by
  rw [List.infix_append_iff_ne_nil] at announced
  obtain inside | inside | ⟨part, rest, -, nonempty, same, ends, begins⟩ := announced
  · exact absurd inside silent
  · exact absurd inside (by decide)
  · obtain ⟨front, rfl⟩ := ends
    refine ⟨front, congrArg (front ++ ·) ?_⟩
    have blank : "\n\n".toList = ['\n', '\n'] := by decide
    rw [blank] at begins
    have line : rest = ['\n'] := by
      cases rest with
      | nil => exact absurd rfl nonempty
      | cons letter rest =>
        obtain ⟨first, later⟩ := List.cons_prefix_cons.mp begins
        subst first
        cases rest with
        | nil => rfl
        | cons other rest =>
          obtain ⟨second, last⟩ := List.cons_prefix_cons.mp later
          subst second
          obtain rfl := List.prefix_nil.mp last
          have ends : ['\n', '\n'] <:+ historyHeading := ⟨part, same.symm⟩
          exact absurd ends (by decide)
    rw [historyHeading_eq, line] at same
    exact (List.append_inj_left' same rfl).symm

/-- Without an announced history the session's own is found. -/
theorem readTexts_extract (silent : ¬ historyHeading <:+: memory) (opened : Opened history)
    (headed : ∀ first ∈ memory.head?, first = '=') (behind : context = historyHeading ++ history ∨
      memory ≠ [] ∧ context = memory ++ ("\n\n".toList ++ (historyHeading ++ history))) :
    readTexts (extractSessionHistory context) =
      readTexts (trimText (beforeSection history)) := by
  have solid : ∀ first ∈ context.head?, isWhitespace first = false := by
    intro first head
    obtain rfl | ⟨nonempty, rfl⟩ := behind
    · cases head
      decide
    · cases memory with
      | nil => exact absurd rfl nonempty
      | cons letter rest =>
        cases head
        rw [headed first rfl]
        decide
  rw [extractSessionHistory_eq solid]
  obtain rfl | ⟨-, rfl⟩ := behind
  · have found : splitOnce historyHeading ([] ++ (historyHeading ++ history)) =
        some ([], history) :=
      splitOnce_append_pattern borderless_historyHeading (by decide) history
    rw [List.nil_append] at found
    rw [found]
  · by_cases announced : historyHeading <:+: memory ++ "\n\n".toList
    · obtain ⟨front, rfl⟩ := eq_append_headingLine silent announced
      have absent : ¬ historyHeading <:+: front := fun occurs =>
        silent (occurs.trans (List.prefix_append _ _).isInfix)
      have regroup : front ++ headingLine ++ ("\n\n".toList ++ (historyHeading ++ history)) =
          front ++ (historyHeading ++ ('\n' :: historyHeading ++ history)) := by
        have joint : headingLine ++ "\n\n".toList = historyHeading ++ ['\n'] := by decide
        rw [List.append_assoc, ← List.append_assoc headingLine, joint]
        simp only [List.append_assoc, List.cons_append, List.nil_append]
      rw [regroup, splitOnce_append_pattern borderless_historyHeading absent]
      exact readTexts_headingLine opened
    · rw [← List.append_assoc, splitOnce_append_pattern borderless_historyHeading announced]

/-! ## What the parser accepts -/

/-- How a chunk is read: as the texts behind its first marks, or as nothing. -/
inductive Chunk (chunk : Agent.Text) : Option (Agent.Text × Agent.Text) → Prop
  | record {timestamp user assistant : Agent.Text} :
      stripHeading (trimText chunk) =
        timestamp ++ (userMark ++ (user ++ (assistantMark ++ assistant))) →
      ¬ userMark <:+: timestamp → ¬ assistantMark <:+: user →
      Chunk chunk (some (trimText user, trimText assistant))
  | unaddressed : ¬ userMark <:+: stripHeading (trimText chunk) → Chunk chunk none
  | unanswered {timestamp rest : Agent.Text} :
      stripHeading (trimText chunk) = timestamp ++ (userMark ++ rest) →
      ¬ userMark <:+: timestamp → ¬ assistantMark <:+: rest → Chunk chunk none

/-- Chunks with the headings of exchanges between them. -/
inductive Transcript : Agent.Text → List (Agent.Text × Agent.Text) → Prop
  | last {chunk : Agent.Text} {texts : Option (Agent.Text × Agent.Text)} :
      ¬ entryMark <:+: chunk → Chunk chunk texts → Transcript chunk texts.toList
  | cons {chunk rest : Agent.Text} {texts : Option (Agent.Text × Agent.Text)}
      {later : List (Agent.Text × Agent.Text)} :
      ¬ entryMark <:+: chunk → Chunk chunk texts → Transcript rest later →
      Transcript (chunk ++ (entryMark ++ rest)) (texts.toList ++ later)

theorem texts_parseChunk (chunk : Agent.Text) :
    (parseChunk chunk).map SessionMessageRecord.texts =
      (splitOnce userMark (stripHeading (trimText chunk))).bind fun parts =>
        (splitOnce assistantMark parts.2).map fun texts =>
          (trimText texts.1, trimText texts.2) := by
  rw [parseChunk]
  by_cases empty : trimText chunk = []
  · rw [if_pos (List.isEmpty_iff.mpr empty), empty]
    decide
  · rw [if_neg (mt List.isEmpty_iff.mp empty), Option.map_bind]
    refine congrArg _ (funext fun parts => ?_)
    rw [Function.comp_apply, Option.map_map]
    rfl

theorem chunk_iff {chunk : Agent.Text} {texts : Option (Agent.Text × Agent.Text)} :
    (parseChunk chunk).map SessionMessageRecord.texts = texts ↔ Chunk chunk texts := by
  rw [texts_parseChunk]
  constructor
  · rintro rfl
    cases outer : splitOnce userMark (stripHeading (trimText chunk)) with
    | none => exact .unaddressed (splitOnce_eq_none.mp outer)
    | some parts =>
      obtain ⟨timestamp, rest⟩ := parts
      have whole := splitOnce_eq_some outer
      have first := splitOnce_first borderless_userMark.1 outer
      rw [Option.bind_some]
      cases inner : splitOnce assistantMark rest with
      | none => exact .unanswered whole first (splitOnce_eq_none.mp inner)
      | some texts =>
        rw [splitOnce_eq_some inner] at whole
        exact .record whole first (splitOnce_first borderless_assistantMark.1 inner)
  · intro read
    cases read with
    | record whole first second =>
      rw [whole, splitOnce_append_pattern borderless_userMark first, Option.bind_some,
        splitOnce_append_pattern borderless_assistantMark second]
      rfl
    | unaddressed absent =>
      rw [splitOnce_eq_none.mpr absent]
      rfl
    | unanswered whole first absent =>
      rw [whole, splitOnce_append_pattern borderless_userMark first, Option.bind_some,
        splitOnce_eq_none.mpr absent]
      rfl

theorem readTexts_cons {chunk : Agent.Text} (absent : ¬ entryMark <:+: chunk)
    (rest : Agent.Text) : readTexts (chunk ++ (entryMark ++ rest)) =
      ((parseChunk chunk).map SessionMessageRecord.texts).toList ++ readTexts rest := by
  rw [← Exchange.readTexts_of_notMem absent, readTexts, split_append borderless_entryMark,
    List.filterMap_append, List.map_append]
  rfl

/-- The parser reads exactly the transcripts. -/
theorem readTexts_iff {texts : List (Agent.Text × Agent.Text)} :
    readTexts history = texts ↔ Transcript history texts := by
  constructor
  · rintro rfl
    induction length : history.length using Nat.strong_induction_on generalizing history with
    | _ n ih =>
      subst length
      cases cut : splitOnce entryMark history with
      | none =>
        have absent := splitOnce_eq_none.mp cut
        rw [Exchange.readTexts_of_notMem absent]
        exact .last absent (chunk_iff.mp rfl)
      | some parts =>
        obtain ⟨chunk, rest⟩ := parts
        obtain rfl := splitOnce_eq_some cut
        have absent := splitOnce_first borderless_entryMark.1 cut
        have shorter : rest.length < (chunk ++ (entryMark ++ rest)).length := by
          have positive := List.length_pos_of_ne_nil borderless_entryMark.1
          rw [List.length_append, List.length_append]
          omega
        rw [readTexts_cons absent]
        exact .cons absent (chunk_iff.mp rfl) (ih rest.length shorter rfl)
  · intro transcript
    induction transcript with
    | last absent chunk => rw [Exchange.readTexts_of_notMem absent, chunk_iff.mpr chunk]
    | cons absent chunk _ ih => rw [readTexts_cons absent, chunk_iff.mpr chunk, ih]

/-! ## Storing and reading -/

/-- A call of `store_message`; the operating system may refuse it. -/
structure StoreCall where
  exchange : Exchange
  granted : Bool

section Calls

variable (store : LayeredMemoryStore) (sessionId : String)

def StoreCall.run (call : StoreCall) (disk : Disk) : Option Disk :=
  if call.granted then
    store.storeMessage disk sessionId call.exchange.now call.exchange.user call.exchange.assistant
  else none

/-- The disk after the calls of one session. -/
def storeAll (disk : Disk) (calls : List StoreCall) : Disk :=
  calls.foldl (fun disk call => (call.run store sessionId disk).getD disk) disk

/-- The exchanges whose calls report success. -/
def stored (disk : Disk) : List StoreCall → List Exchange
  | [] => []
  | call :: calls =>
    match call.run store sessionId disk with
    | none => stored disk calls
    | some disk' => call.exchange :: stored disk' calls

variable {store sessionId} {disk : Disk}

theorem storeAll_spec (calls : List StoreCall) :
    store.globalMemory.readSessionHistory (storeAll store sessionId disk calls) sessionId =
        store.globalMemory.readSessionHistory disk sessionId ++
          historyText (stored store sessionId disk calls) ∧
      ∀ memory : FileMemory, memory.readMemoryMd (storeAll store sessionId disk calls) =
        memory.readMemoryMd disk := by
  induction calls generalizing disk with
  | nil => exact ⟨(List.append_nil _).symm, fun _ => rfl⟩
  | cons call calls ih =>
    rw [storeAll, List.foldl_cons, stored]
    cases ran : call.run store sessionId disk with
    | none => exact ih
    | some disk' =>
      have granted : store.storeMessage disk sessionId call.exchange.now call.exchange.user
          call.exchange.assistant = some disk' := by
        rw [StoreCall.run] at ran
        exact (Option.ite_none_right_eq_some.mp ran).2
      obtain ⟨history, memories⟩ := LayeredMemoryStore.storeMessage_spec granted
      obtain ⟨later, kept⟩ := @ih disk'
      refine ⟨?_, fun memory => (kept memory).trans (memories memory)⟩
      rw [Option.getD_some]
      refine later.trans ?_
      rw [history, List.append_assoc]
      rfl

/-- No call changes the memories in front of the history. -/
theorem memoryPart_storeAll (calls : List StoreCall) :
    memoryPart store (storeAll store sessionId disk calls) sessionId =
      memoryPart store disk sessionId := by
  have memories : ∀ memory : FileMemory,
      memory.readMemoryMd (storeAll store sessionId disk calls) = memory.readMemoryMd disk :=
    (storeAll_spec calls).2
  have scopes : ∀ namespaces : SessionNamespace,
      store.readScopeMemory (storeAll store sessionId disk calls) namespaces =
        store.readScopeMemory disk namespaces := by
    intro namespaces
    funext scope
    simp only [LayeredMemoryStore.readScopeMemory, memories]
  have sections : ∀ namespaces : SessionNamespace,
      store.memorySection (storeAll store sessionId disk calls) namespaces =
        store.memorySection disk namespaces := by
    intro namespaces
    funext scope
    rw [LayeredMemoryStore.memorySection, LayeredMemoryStore.memorySection, scopes]
  simp only [memoryPart, memories, sections]

end Calls

theorem opened_historyText (exchanges : List Exchange) : Opened (historyText exchanges) := by
  cases exchanges with
  | nil => exact .inl rfl
  | cons first rest =>
    refine .inr ⟨first.now, userMark ++ (first.user ++ (assistantMark ++ first.assistant)) ++
      "\n\n".toList ++ historyText rest, ?_⟩
    rw [historyText, List.flatMap_cons, Exchange.entry_eq, Exchange.body]
    simp only [List.append_assoc]
    rfl

/-- The history of a session as it is read beside given memories. -/
theorem readTexts_history {exchanges : List Exchange} :
    readTexts (trimText (beforeSection (historyText exchanges))) =
      exchanges.map Exchange.texts ↔ Clean exchanges := by
  obtain rfl | ⟨front, last, rfl⟩ := List.eq_nil_or_concat' exchanges
  · refine iff_of_true (by decide) ⟨?_, ?_, ?_, ?_, ?_⟩ <;> simp
  · obtain ⟨blanks, whole, all⟩ :=
      exists_trimEnd isWhitespace (historyText (front ++ [last]))
    rw [← readTexts_beforeSection]
    conv_lhs => rw [whole, trimText_beforeSection_append all]

/-- The condition under which the exchanges of a session are read back: the memories in front
of them announce no history and the exchanges are clean, or the announced history happens to
be a transcript of the same texts. -/
structure ReadBack (memory : Agent.Text) (exchanges : List Exchange) : Prop where
  announced : historyHeading <:+: memory → ∃ section_, Planted memory section_ ∧
    Transcript (trimText section_) (exchanges.map Exchange.texts)
  own : ¬ historyHeading <:+: memory → Clean exchanges

theorem readTexts_behind {exchanges : List Exchange} (headed : ∀ first ∈ memory.head?, first = '=')
    (behind : Behind memory (historyText exchanges) context) :
    readTexts (extractSessionHistory context) = exchanges.map Exchange.texts ↔
      ReadBack memory exchanges := by
  have solid : ∀ first ∈ memory.head?, isWhitespace first = false := by
    intro first head
    rw [headed first head]
    decide
  by_cases announced : historyHeading <:+: memory
  · have nonempty : memory ≠ [] := by
      rintro rfl
      exact absurd announced (by decide)
    have further : context = memory ∨ ∃ more, context = memory ++ (sectionMark ++ more) := by
      cases behind with
      | nothing => exact .inl rfl
      | silent _ absent => exact absurd announced absent
      | alone empty => exact absurd empty nonempty
      | section_ =>
        refine .inr ⟨" Session History ===".toList ++ (['\n'] ++ historyText exchanges), ?_⟩
        rw [historyHeading_eq, List.append_assoc, ← List.append_assoc "\n\n".toList, joint_eq,
          List.append_assoc]
    have first : ∀ letter ∈ context.head?, isWhitespace letter = false := by
      intro letter head
      obtain ⟨start, rest, rfl⟩ := List.exists_cons_of_ne_nil nonempty
      obtain rfl | ⟨more, rfl⟩ := further
      · exact solid letter head
      · exact solid letter head
    constructor
    · intro read
      obtain ⟨section_, planted⟩ := exists_planted announced
      rw [extractSessionHistory_planted planted first further] at read
      exact ⟨fun _ => ⟨section_, planted, readTexts_iff.mp read⟩, absurd announced⟩
    · intro readBack
      obtain ⟨section_, planted, transcript⟩ := readBack.announced announced
      rw [extractSessionHistory_planted planted first further]
      exact readTexts_iff.mpr transcript
  · have own : readTexts (extractSessionHistory context) =
        readTexts (trimText (beforeSection (historyText exchanges))) := by
      cases behind with
      | nothing empty =>
        rw [empty, extractSessionHistory_eq solid, splitOnce_eq_none.mpr announced]
        decide
      | silent empty =>
        rw [empty]
        decide
      | alone empty =>
        exact readTexts_extract announced (opened_historyText exchanges) headed (.inl rfl)
      | section_ nonempty =>
        exact readTexts_extract announced (opened_historyText exchanges) headed
          (.inr ⟨nonempty, rfl⟩)
    rw [own, readTexts_history]
    exact ⟨fun clean => ⟨fun occurs => absurd occurs announced, fun _ => clean⟩,
      fun readBack => readBack.own announced⟩

/-- The texts of a session's exchanges are read back from its files exactly if they and the
memories pass for nothing else. -/
theorem session_history_round_trip (projected : Option (List SessionMessageRecord))
    (fresh : projected.getD [] = []) (store : LayeredMemoryStore) (disk : Disk)
    (sessionId : String) (new : store.globalMemory.readSessionHistory disk sessionId = [])
    (calls : List StoreCall) :
    (readSessionMessages projected store (storeAll store sessionId disk calls) sessionId).map
        SessionMessageRecord.texts = (stored store sessionId disk calls).map Exchange.texts ↔
      ReadBack (memoryPart store disk sessionId) (stored store sessionId disk calls) := by
  have read : readSessionMessages projected store (storeAll store sessionId disk calls)
      sessionId = parseSessionMessages (extractSessionHistory
        (store.getContext (storeAll store sessionId disk calls) sessionId)) := by
    cases projected with
    | none => rfl
    | some records =>
      obtain rfl : records = [] := fresh
      rfl
  have behind := behind_getContext store (storeAll store sessionId disk calls) sessionId
  rw [memoryPart_storeAll, (storeAll_spec calls).1, new, List.nil_append] at behind
  have trimmed : ∀ content, trimText (extractSessionHistory content) =
      extractSessionHistory content := by
    intro content
    rw [extractSessionHistory]
    split
    · rfl
    · split
      · rfl
      · exact trim_trim _
  rw [read, texts_parseSessionMessages, trimmed]
  exact readTexts_behind (head_memoryPart store disk sessionId) behind

section Sample

def sampleStore : LayeredMemoryStore := ⟨Path.parse "/data"⟩

def emptyDisk : Disk := ⟨[], fun _ => none⟩

def sampleStamp : Stamp where
  first := '2'
  rest := "026-01-02 10:00:00 UTC".toList
  begins := .inl (by decide)
  oneLine := by decide

/-- One exchange of two texts. -/
def sampleCall (user assistant : String) : StoreCall :=
  ⟨⟨sampleStamp, user.toList, assistant.toList⟩, true⟩

theorem session_history_round_trip_sample :
    ReadBack (memoryPart sampleStore emptyDisk "web:u1") (stored sampleStore "web:u1" emptyDisk
      [sampleCall "hello" "hi", sampleCall "bye" "Steps\n\n- one"]) :=
  (session_history_round_trip none rfl sampleStore emptyDisk "web:u1" (by decide)
    [sampleCall "hello" "hi", sampleCall "bye" "Steps\n\n- one"]).mp (by decide +kernel)

/-- A reply with a heading of its own is cut there. -/
theorem reply_cut_at_heading :
    (readSessionMessages none sampleStore (storeAll sampleStore "web:u1" emptyDisk
        [sampleCall "plan?" "Plan\n## Steps"]) "web:u1").map SessionMessageRecord.texts ≠
      (stored sampleStore "web:u1" emptyDisk [sampleCall "plan?" "Plan\n## Steps"]).map
        Exchange.texts := by
  decide +kernel

end Sample

end UHorse.Hub.Web
