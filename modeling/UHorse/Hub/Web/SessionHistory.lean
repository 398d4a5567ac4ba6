import UHorse.Agent.Memory
import UHorse.Lib.Text

/-!
# Reading a session's history back

The console reads the messages of a session from the context of its memory store: it looks
for the line that announces the history, stops at the next section, and cuts what is between
at the headings of the exchanges. The texts of the exchanges and the memory files stand in
the same text unescaped.
-/

namespace UHorse.Hub.Web

open UHorse.Lib UHorse.Lib.Text UHorse.Agent

structure SessionMessageRecord where
  timestamp : Agent.Text
  userMessage : Agent.Text
  assistantMessage : Agent.Text
deriving DecidableEq

/-- `str::trim`. -/
def trimText (text : Agent.Text) : Agent.Text := trim isWhitespace text

def entryMark : Agent.Text := "\n## ".toList

def sectionMark : Agent.Text := "\n\n===".toList

/-- What stands before the next section. -/
def beforeSection (rest : Agent.Text) : Agent.Text :=
  match splitOnce sectionMark rest with
  | none => rest
  | some (history, _) => history

def extractSessionHistory (content : Agent.Text) : Agent.Text :=
  if (trimText content).isEmpty then []
  else
    match splitOnce FileMemory.historyHeading (trimText content) with
    | none => []
    | some (_, rest) => trimText (beforeSection rest)

def stripHeading (chunk : Agent.Text) : Agent.Text :=
  if "## ".toList <+: chunk then chunk.drop 3 else chunk

def parseChunk (chunk : Agent.Text) : Option SessionMessageRecord :=
  if (trimText chunk).isEmpty then none
  else
    (splitOnce userMark (stripHeading (trimText chunk))).bind fun (timestamp, rest) =>
      (splitOnce assistantMark rest).map fun (user, assistant) =>
        ⟨trimText timestamp, trimText user, trimText assistant⟩

def parseSessionMessages (content : Agent.Text) : List SessionMessageRecord :=
  if (trimText content).isEmpty then []
  else (split entryMark (trimText content)).filterMap parseChunk

/-- A transcript that the Hub still holds comes first, projected to messages. -/
def readSessionMessages (projected : Option (List SessionMessageRecord))
    (store : LayeredMemoryStore) (disk : Disk) (sessionId : String) : List SessionMessageRecord :=
  match projected with
  | some (record :: records) => record :: records
  | _ => parseSessionMessages (extractSessionHistory (store.getContext disk sessionId))

/-! ## Exchanges -/

structure Exchange where
  now : Stamp
  user : Agent.Text
  assistant : Agent.Text

namespace Exchange

def texts (exchange : Exchange) : Agent.Text × Agent.Text :=
  (trimText exchange.user, trimText exchange.assistant)

def body (exchange : Exchange) : Agent.Text :=
  exchange.now.text ++ (userMark ++ (exchange.user ++ (assistantMark ++ exchange.assistant)))

def entry (exchange : Exchange) : Agent.Text :=
  historyEntry exchange.now exchange.user exchange.assistant

theorem entry_eq (exchange : Exchange) :
    exchange.entry = "## ".toList ++ (exchange.body ++ "\n\n".toList) := by
  unfold entry historyEntry body
  simp only [List.append_assoc]

end Exchange

def SessionMessageRecord.texts (record : SessionMessageRecord) : Agent.Text × Agent.Text :=
  (record.userMessage, record.assistantMessage)

/-- The texts of the records a piece of history is read as. -/
def readTexts (history : Agent.Text) : List (Agent.Text × Agent.Text) :=
  ((split entryMark history).filterMap parseChunk).map SessionMessageRecord.texts

theorem texts_parseSessionMessages (content : Agent.Text) :
    (parseSessionMessages content).map SessionMessageRecord.texts =
      readTexts (trimText content) := by
  rw [parseSessionMessages]
  split
  · next empty =>
      rw [List.isEmpty_iff.mp empty]
      rfl
  · rfl

/-! ## The marks -/

section Marks

theorem borderless_entryMark : Borderless entryMark := by decide

theorem borderless_userMark : Borderless userMark := by decide

theorem borderless_assistantMark : Borderless assistantMark := by decide

theorem borderless_sectionMark : Borderless sectionMark := by decide

theorem borderless_historyHeading : Borderless FileMemory.historyHeading := by decide

/-- The letters of a text that count for `weight`. -/
abbrev solid (text : Agent.Text) : Nat := weight isWhitespace text

theorem solid_userMark : solid userMark = 9 := by decide

theorem solid_assistantMark : solid assistantMark = 14 := by decide

theorem solid_entryMark : solid entryMark = 2 := by decide

theorem solid_last_sectionMark (a : Char) (last : a ∈ sectionMark.getLast?) :
    isWhitespace a = false := by
  have ends : sectionMark.getLast? = some '=' := by decide
  obtain rfl := Option.some_inj.mp (ends.symm.trans last)
  decide

theorem Stamp.first_solid (now : Stamp) : isWhitespace now.first = false ∧ now.first ≠ '#' := by
  obtain digit | same | same := now.begins
  · refine ⟨isWhitespace_of_isDigit digit, fun same => ?_⟩
    rw [same] at digit
    revert digit
    decide
  · rw [same]
    decide
  · rw [same]
    decide

theorem Stamp.notMem_text (now : Stamp) : '\n' ∉ now.text := by
  intro member
  obtain first | rest := List.mem_cons.mp member
  · have solid := (Stamp.first_solid now).1
    rw [← first] at solid
    revert solid
    decide
  · exact now.oneLine rest

end Marks

/-! ## What a record weighs -/

section Weights

variable {chunk history : Agent.Text} {record : SessionMessageRecord}
  {texts : Agent.Text × Agent.Text}

theorem parseChunk_eq_some (parsed : parseChunk chunk = some record) :
    ∃ timestamp user assistant,
      stripHeading (trimText chunk) =
        timestamp ++ (userMark ++ (user ++ (assistantMark ++ assistant))) ∧
      splitOnce userMark (stripHeading (trimText chunk)) =
        some (timestamp, user ++ (assistantMark ++ assistant)) ∧
      splitOnce assistantMark (user ++ (assistantMark ++ assistant)) = some (user, assistant) ∧
      record.texts = (trimText user, trimText assistant) := by
  rw [parseChunk] at parsed
  split at parsed
  · cases parsed
  · obtain ⟨⟨timestamp, rest⟩, outer, inner⟩ := Option.bind_eq_some_iff.mp parsed
    obtain ⟨⟨user, assistant⟩, found, rfl⟩ := Option.map_eq_some_iff.mp inner
    have whole := splitOnce_eq_some outer
    have later := splitOnce_eq_some found
    subst later
    exact ⟨timestamp, user, assistant, whole, outer, found, rfl⟩

/-- What the texts of a record and its marks weigh. -/
def recordWeight (texts : Agent.Text × Agent.Text) : Nat := 23 + solid texts.1 + solid texts.2

theorem stripHeading_isSuffix (chunk : Agent.Text) : stripHeading chunk <:+ chunk := by
  rw [stripHeading]
  split
  · exact List.drop_suffix _ _
  · exact List.suffix_refl _

theorem recordWeight_le (parsed : parseChunk chunk = some record) :
    recordWeight record.texts ≤ solid chunk := by
  obtain ⟨timestamp, user, assistant, whole, -, -, same⟩ := parseChunk_eq_some parsed
  have light : solid (stripHeading (trimText chunk)) ≤ solid chunk :=
    (weight_le_of_isInfix _ (stripHeading_isSuffix _).isInfix).trans (weight_trim chunk).le
  rw [same]
  simp only [recordWeight, trimText, solid, weight_trim]
  simp only [whole, solid, weight_append] at light
  have userWeight := solid_userMark
  have assistantWeight := solid_assistantMark
  simp only [solid] at userWeight assistantWeight
  omega

/-- A text that begins with a time has its first mark behind the time. -/
theorem prefix_of_mark {mark first rest : Agent.Text} (now : Stamp)
    (begins : now.text <+: history) (line : mark.head? = some '\n')
    (cut : history = first ++ (mark ++ rest)) : now.text <+: first := by
  obtain ⟨tail, rfl⟩ : ∃ tail, mark = '\n' :: tail := by
    cases mark with
    | nil => cases line
    | cons letter tail =>
      cases line
      exact ⟨tail, rfl⟩
  obtain shorter | longer := le_or_gt now.text.length first.length
  · rw [cut] at begins
    exact List.prefix_of_prefix_length_le begins (List.prefix_append _ _) shorter
  · have there : first ++ ['\n'] <+: history := by
      rw [cut]
      exact ⟨tail ++ rest, by simp⟩
    have inside : first ++ ['\n'] <+: now.text :=
      List.prefix_of_prefix_length_le there begins
        (by rw [List.length_append]; exact longer)
    exact absurd (inside.subset (by simp)) (Stamp.notMem_text now)

theorem trimEnd_isPrefix (text : Agent.Text) : trimEnd isWhitespace text <+: text :=
  List.rdropWhile_prefix _ _

/-- A chunk that begins with a time is trimmed at its end only. -/
theorem stripHeading_trimText (now : Stamp) (begins : now.text <+: chunk) :
    stripHeading (trimText chunk) = trimEnd isWhitespace chunk := by
  obtain ⟨tail, rfl⟩ := begins
  have trimmed : trimText (now.text ++ tail) = trimEnd isWhitespace (now.text ++ tail) :=
    trim_of_head (Stamp.first_solid now).1
  rw [trimmed, stripHeading, if_neg]
  intro heading
  have first : '#' = now.first :=
    (List.cons_prefix_cons.mp (heading.trans (trimEnd_isPrefix _))).1
  exact (Stamp.first_solid now).2 first.symm

theorem recordWeight_le_of_stamp (now : Stamp) (begins : now.text <+: chunk)
    (parsed : parseChunk chunk = some record) :
    solid now.text + recordWeight record.texts ≤ solid chunk := by
  obtain ⟨timestamp, user, assistant, whole, -, -, same⟩ := parseChunk_eq_some parsed
  rw [stripHeading_trimText now begins] at whole
  have light : solid (trimEnd isWhitespace chunk) = solid chunk := weight_trimEnd chunk
  have further : now.text <+: trimEnd isWhitespace chunk := by
    obtain shorter | longer := le_total now.text.length (trimEnd isWhitespace chunk).length
    · exact List.prefix_of_prefix_length_le begins (trimEnd_isPrefix _) shorter
    · have inside := List.prefix_of_prefix_length_le (trimEnd_isPrefix _) begins longer
      have line : '\n' ∈ trimEnd isWhitespace chunk := by
        rw [whole]
        exact List.mem_append_right _ (List.mem_append_left _ List.mem_cons_self)
      exact absurd (inside.subset line) (Stamp.notMem_text now)
  have behind := weight_le_of_isInfix isWhitespace
    (prefix_of_mark now further rfl whole).isInfix
  rw [same]
  simp only [recordWeight, trimText, solid, weight_trim]
  simp only [whole, solid, weight_append] at light behind
  have userWeight := solid_userMark
  have assistantWeight := solid_assistantMark
  simp only [solid] at userWeight assistantWeight
  omega

theorem mem_readTexts : texts ∈ readTexts history ↔
    ∃ chunk ∈ split entryMark history, ∃ record, parseChunk chunk = some record ∧
      record.texts = texts := by
  simp only [readTexts, List.mem_map, List.mem_filterMap]
  constructor
  · rintro ⟨record, ⟨chunk, member, parsed⟩, same⟩
    exact ⟨chunk, member, record, parsed, same⟩
  · rintro ⟨chunk, member, record, parsed, same⟩
    exact ⟨record, ⟨chunk, member, parsed⟩, same⟩

/-- What begins with a time and is cut somewhere is too heavy to be read as one of its
parts. -/
theorem recordWeight_add_le (now : Stamp) (begins : now.text <+: history)
    (read : texts ∈ readTexts history) :
    solid now.text + recordWeight texts ≤ solid history ∧
      (entryMark <:+: history → solid now.text + recordWeight texts < solid history) := by
  obtain ⟨chunk, member, record, parsed, rfl⟩ := mem_readTexts.mp read
  cases cut : splitOnce entryMark history with
  | none =>
    have absent := splitOnce_eq_none.mp cut
    rw [split_of_unmatched absent, List.mem_singleton] at member
    subst member
    exact ⟨recordWeight_le_of_stamp now begins parsed, fun occurs => absurd occurs absent⟩
  | some parts =>
    obtain ⟨first, rest⟩ := parts
    have whole := splitOnce_eq_some cut
    have front := prefix_of_mark now begins rfl whole
    have weights := congrArg solid whole
    have markWeight := solid_entryMark
    have frontWeight := weight_le_of_isInfix isWhitespace front.isInfix
    simp only [solid, weight_append] at weights markWeight
    rw [split_of_splitOnce borderless_entryMark.1 cut, List.mem_cons] at member
    have strict : solid now.text + recordWeight record.texts < solid history := by
      obtain rfl | later := member
      · have heavy := recordWeight_le_of_stamp now front parsed
        simp only [solid] at heavy ⊢
        omega
      · have heavy := recordWeight_le parsed
        have inside := weight_le_of_isInfix isWhitespace
          (infix_of_mem_split borderless_entryMark.1 later)
        simp only [solid] at heavy ⊢
        omega
    exact ⟨strict.le, fun _ => strict⟩

end Weights

/-! ## One exchange -/

namespace Exchange

variable {exchange : Exchange} {piece : Agent.Text}

/-- The exchange can be read from a piece that holds it alone. -/
structure Readable (exchange : Exchange) : Prop where
  unmarked : ¬ assistantMark <:+: exchange.user
  answered : trimText exchange.assistant ≠ []

/-- The piece is the body of the exchange up to white space at its end. -/
structure Holds (exchange : Exchange) (piece : Agent.Text) : Prop where
  begins : exchange.now.text <+: piece
  body : trimEnd isWhitespace piece = trimEnd isWhitespace exchange.body

theorem solid_body (exchange : Exchange) :
    solid exchange.body = solid exchange.now.text + recordWeight exchange.texts := by
  have userWeight := solid_userMark
  have assistantWeight := solid_assistantMark
  simp only [solid] at userWeight assistantWeight
  simp only [body, recordWeight, texts, trimText, solid, weight_append, weight_trim]
  omega

theorem Holds.solid (holds : exchange.Holds piece) :
    solid piece = Web.solid exchange.now.text + recordWeight exchange.texts := by
  rw [← solid_body, Web.solid, Web.solid, ← weight_trimEnd, holds.body, weight_trimEnd]

/-- A mark that begins a line and does not lie across the joints of a body. -/
structure Interior (mark : Agent.Text) : Prop where
  line : ∃ tail, mark = '\n' :: tail
  user : ¬ mark <:+: userMark ∧ ApartAfter mark userMark
  assistant : ¬ mark <:+: assistantMark ∧ ApartAfter mark assistantMark ∧
    ApartFrom mark assistantMark
  short : mark.length ≤ assistantMark.length + 1

theorem interior_entryMark : Interior entryMark :=
  ⟨⟨_, rfl⟩, by decide, by decide, by decide⟩

theorem interior_sectionMark : Interior sectionMark :=
  ⟨⟨_, rfl⟩, by decide, by decide, by decide⟩

theorem Interior.infix_body {mark : Agent.Text} (interior : Interior mark) {v : Agent.Text} :
    mark <:+: exchange.now.text ++ (userMark ++ (exchange.user ++ (assistantMark ++ v))) ↔
      mark <:+: exchange.user ∨ mark <:+: v := by
  obtain ⟨⟨tail, rfl⟩, ⟨user, afterUser⟩, ⟨assistant, afterAssistant, apart⟩, short⟩ := interior
  have line : ¬ '\n' :: tail <:+: exchange.now.text := fun occurs =>
    Stamp.notMem_text exchange.now (occurs.subset List.mem_cons_self)
  have afterTime : ApartAfter ('\n' :: tail) exchange.now.text :=
    apartAfter_of_notMem (Stamp.notMem_text exchange.now)
  rw [infix_append_iff_of_after afterTime, infix_append_iff_of_after afterUser,
    infix_append_iff_of_from (apart.append short v), infix_append_iff_of_after afterAssistant]
  simp only [line, user, assistant, false_or]

theorem splitOnce_userMark (now : Stamp) (rest : Agent.Text) :
    splitOnce userMark (now.text ++ (userMark ++ rest)) = some (now.text, rest) :=
  splitOnce_append_pattern borderless_userMark
    (fun occurs => Stamp.notMem_text now (occurs.subset List.mem_cons_self)) rest

/-- The body without white space at its end. -/
theorem trimEnd_body (answered : trimText exchange.assistant ≠ []) :
    trimEnd isWhitespace exchange.body = exchange.now.text ++ (userMark ++ (exchange.user ++
      (assistantMark ++ trimEnd isWhitespace exchange.assistant))) := by
  have heavy : 0 < weight isWhitespace exchange.assistant :=
    Nat.pos_of_ne_zero fun light => answered (trim_eq_nil.mpr light)
  have regroup : ∀ v, exchange.now.text ++ (userMark ++ (exchange.user ++ (assistantMark ++ v))) =
      exchange.now.text ++ userMark ++ exchange.user ++ assistantMark ++ v := by simp
  rw [body, regroup, regroup, trimEnd_of_solid heavy]

theorem trimEnd_body_of_blank (blank : trimText exchange.assistant = []) :
    trimEnd isWhitespace exchange.body = exchange.now.text ++ (userMark ++ (exchange.user ++
      trimEnd isWhitespace assistantMark)) := by
  have regroup : exchange.body = exchange.now.text ++ (userMark ++ exchange.user) ++
      assistantMark ++ exchange.assistant := by simp [body]
  have heavy : 0 < weight isWhitespace assistantMark := by decide
  rw [regroup, trimEnd_of_blank (weight_eq_zero.mp (trim_eq_nil.mp blank)),
    trimEnd_of_solid heavy]
  simp

/-- The first mark of a user text ends what is read of it. -/
theorem unmarked_of_splitOnce {v user rest : Agent.Text}
    (cut : splitOnce assistantMark (exchange.user ++ v) = some (user, rest))
    (same : trimText user = trimText exchange.user) : ¬ assistantMark <:+: exchange.user := by
  intro occurs
  cases earlier : splitOnce assistantMark exchange.user with
  | none => exact splitOnce_eq_none.mp earlier occurs
  | some parts =>
    have first := splitOnce_append earlier v
    rw [cut, Option.some.injEq, Prod.mk.injEq] at first
    have weights := congrArg Web.solid (splitOnce_eq_some earlier)
    have equal := congrArg Web.solid same
    have assistantWeight := solid_assistantMark
    rw [Web.solid] at assistantWeight
    simp only [Web.solid, weight_append, trimText, weight_trim, first.1] at weights equal
    omega

theorem texts_parseChunk (holds : exchange.Holds piece) :
    (parseChunk piece).map SessionMessageRecord.texts = some exchange.texts ↔
      exchange.Readable := by
  have stripped := (stripHeading_trimText exchange.now holds.begins).trans holds.body
  constructor
  · intro read
    obtain ⟨record, parsed, same⟩ := Option.map_eq_some_iff.mp read
    obtain ⟨timestamp, user, assistant, whole, outer, inner, texts⟩ := parseChunk_eq_some parsed
    rw [texts, Exchange.texts, Prod.mk.injEq] at same
    rw [stripped] at outer
    by_cases blank : trimText exchange.assistant = []
    · rw [trimEnd_body_of_blank blank, splitOnce_userMark, Option.some.injEq, Prod.mk.injEq]
        at outer
      rw [← outer.2] at inner
      have unmarked := unmarked_of_splitOnce inner same.1
      have absent : ¬ assistantMark <:+: exchange.user ++ trimEnd isWhitespace assistantMark := by
        rw [infix_append_iff_of_from (by decide)]
        exact not_or.mpr ⟨unmarked, by decide⟩
      rw [splitOnce_eq_none.mpr absent] at inner
      cases inner
    · rw [trimEnd_body blank, splitOnce_userMark, Option.some.injEq, Prod.mk.injEq] at outer
      rw [← outer.2] at inner
      exact ⟨unmarked_of_splitOnce inner same.1, blank⟩
  · intro readable
    have nonempty : (trimText piece).isEmpty = false := by
      rw [List.isEmpty_eq_false_iff, ne_eq, trimText, trim_eq_nil]
      have heavy := holds.solid
      simp only [Web.solid, recordWeight] at heavy
      omega
    rw [parseChunk, nonempty, stripped, trimEnd_body readable.answered, splitOnce_userMark]
    simp only [Bool.false_eq_true, if_false, Option.bind_some,
      splitOnce_append_pattern borderless_assistantMark readable.unmarked, Option.map_some]
    rw [SessionMessageRecord.texts, texts]
    exact congrArg (fun assistant => some (trimText exchange.user, assistant))
      (trim_trimEnd exchange.assistant)

theorem readTexts_of_notMem {history : Agent.Text} (absent : ¬ entryMark <:+: history) :
    readTexts history = ((parseChunk history).map SessionMessageRecord.texts).toList := by
  rw [readTexts, split_of_unmatched absent]
  cases parsed : parseChunk history <;> simp [parsed]

/-- A piece is read as the exchange it holds when it is not cut. -/
theorem Holds.readTexts_iff (holds : exchange.Holds piece) :
    readTexts piece = [exchange.texts] ↔ exchange.Readable ∧ ¬ entryMark <:+: piece := by
  constructor
  · intro read
    have absent : ¬ entryMark <:+: piece := fun occurs =>
      absurd ((recordWeight_add_le exchange.now holds.begins (read ▸ List.mem_singleton_self _)).2
        occurs) (by rw [holds.solid]; exact lt_irrefl _)
    rw [readTexts_of_notMem absent] at read
    exact ⟨(texts_parseChunk holds).mp (Option.toList_eq_singleton_iff.mp read), absent⟩
  · rintro ⟨readable, absent⟩
    rw [readTexts_of_notMem absent, (texts_parseChunk holds).mpr readable]
    rfl

theorem Holds.alone (holds : exchange.Holds piece) (read : exchange.texts ∈ readTexts piece) :
    readTexts piece = [exchange.texts] := by
  have absent : ¬ entryMark <:+: piece := fun occurs =>
    absurd ((recordWeight_add_le exchange.now holds.begins read).2 occurs)
      (by rw [holds.solid]; exact lt_irrefl _)
  rw [readTexts_of_notMem absent] at read ⊢
  rw [Option.mem_toList.mp read]
  rfl

theorem holds_body (exchange : Exchange) : exchange.Holds (exchange.body ++ ['\n']) where
  begins := ⟨_, (List.append_assoc _ _ _).symm⟩
  body := trimEnd_of_blank (List.all_eq_true.mp (by decide)) exchange.body

theorem stamp_prefix_trimEnd (exchange : Exchange) :
    exchange.now.text <+: trimEnd isWhitespace exchange.body := by
  have heavy : 0 < weight isWhitespace
      (userMark ++ (exchange.user ++ (assistantMark ++ exchange.assistant))) := by
    have userWeight := solid_userMark
    simp only [Web.solid] at userWeight
    rw [weight_append]
    omega
  rw [body, trimEnd_of_solid heavy]
  exact List.prefix_append _ _

theorem holds_trimEnd (exchange : Exchange) :
    exchange.Holds (trimEnd isWhitespace exchange.body) where
  begins := stamp_prefix_trimEnd exchange
  body := List.rdropWhile_idempotent _ _

theorem entryMark_infix_holds_body :
    entryMark <:+: exchange.body ++ ['\n'] ↔
      entryMark <:+: exchange.user ∨ entryMark <:+: exchange.assistant := by
  have regroup : exchange.body ++ ['\n'] = exchange.now.text ++ (userMark ++ (exchange.user ++
      (assistantMark ++ (exchange.assistant ++ ['\n'])))) := by simp [body]
  have fromEnd : ApartFrom entryMark ['\n'] := by decide
  have newline : ¬ entryMark <:+: ['\n'] := by decide
  rw [regroup, interior_entryMark.infix_body, infix_append_iff_of_from fromEnd]
  simp only [newline, or_false]

theorem entryMark_infix_trimEnd_body (answered : trimText exchange.assistant ≠ []) :
    entryMark <:+: trimEnd isWhitespace exchange.body ↔ entryMark <:+: exchange.user ∨
      entryMark <:+: trimEnd isWhitespace exchange.assistant := by
  rw [trimEnd_body answered, interior_entryMark.infix_body]

/-- Less than the whole body is not read as the exchange. -/
theorem notMem_readTexts (part : piece <+: exchange.body)
    (lighter : Web.solid piece < Web.solid exchange.body) :
    exchange.texts ∉ readTexts piece := by
  intro read
  have begins : exchange.now.text <+: exchange.body := List.prefix_append _ _
  obtain longer | shorter := le_total exchange.now.text.length piece.length
  · have heavy := (recordWeight_add_le exchange.now
      (List.prefix_of_prefix_length_le begins part longer) read).1
    rw [solid_body] at lighter
    omega
  · -- a part of the time has no mark
    have inside := List.prefix_of_prefix_length_le part begins shorter
    obtain ⟨chunk, member, record, parsed, -⟩ := mem_readTexts.mp read
    obtain ⟨timestamp, user, assistant, whole, -, -, -⟩ := parseChunk_eq_some parsed
    have line : '\n' ∈ stripHeading (trimText chunk) := by
      rw [whole]
      exact List.mem_append_right _ (List.mem_append_left _ List.mem_cons_self)
    have trimmed : trimText chunk ⊆ chunk := fun letter there =>
      List.dropWhile_subset _ ((List.rdropWhile_prefix _ _).subset there)
    have there := (infix_of_mem_split borderless_entryMark.1 member).subset
      (trimmed ((stripHeading_isSuffix _).subset line))
    exact Stamp.notMem_text exchange.now (inside.subset there)

end Exchange

/-! ## A whole history -/

section History

variable {exchanges : List Exchange} {piece : Agent.Text}

def historyText (exchanges : List Exchange) : Agent.Text := exchanges.flatMap Exchange.entry

/-- The text begins like the body of an exchange, or is empty. -/
def Begun (text : Agent.Text) : Prop :=
  ∀ first ∈ text.head?, isWhitespace first = false ∧ first ≠ '#'

theorem begun_of_isPrefix {text whole : Agent.Text} (now : Stamp) (part : text <+: whole)
    (begins : now.text <+: whole) : Begun text := by
  intro first head
  cases text with
  | nil => cases head
  | cons letter rest =>
    cases head
    obtain ⟨more, rfl⟩ := begins
    obtain ⟨rfl, -⟩ := List.cons_prefix_cons.mp part
    exact Stamp.first_solid now

theorem splitOnce_heading (text : Agent.Text) :
    splitOnce entryMark ("## ".toList ++ text) =
      (splitOnce entryMark text).map fun parts => ("## ".toList ++ parts.1, parts.2) := by
  change splitOnce entryMark ('#' :: '#' :: ' ' :: text) = _
  have other : ∀ (letter : Char) (more : Agent.Text), letter ≠ '\n' →
      ¬ entryMark <+: letter :: more := by
    intro letter more distinct begins
    exact distinct (List.cons_prefix_cons.mp begins).1.symm
  rw [splitOnce, if_neg (other _ _ (by decide)), splitOnce, if_neg (other _ _ (by decide)),
    splitOnce, if_neg (other _ _ (by decide))]
  cases splitOnce entryMark text <;> rfl

theorem parseChunk_heading {chunk : Agent.Text} (begun : Begun chunk) :
    parseChunk ("## ".toList ++ chunk) = parseChunk chunk := by
  cases chunk with
  | nil => decide
  | cons first rest =>
    obtain ⟨solid, distinct⟩ := begun first rfl
    have heavy : 0 < weight isWhitespace (first :: rest) := by
      rw [weight, List.countP_cons_of_pos (by simp [solid])]
      exact Nat.succ_pos _
    have trimmed : trimText (first :: rest) = trimEnd isWhitespace (first :: rest) :=
      trim_of_head solid
    have headed : trimText ("## ".toList ++ first :: rest) =
        "## ".toList ++ trimEnd isWhitespace (first :: rest) := by
      rw [← trimEnd_of_solid heavy]
      exact trim_of_head (by decide)
    have unheaded : ¬ "## ".toList <+: trimEnd isWhitespace (first :: rest) := fun heading =>
      distinct (List.cons_prefix_cons.mp (heading.trans (trimEnd_isPrefix _))).1.symm
    have nonempty : (trimEnd isWhitespace (first :: rest)).isEmpty = false := by
      rw [List.isEmpty_eq_false_iff]
      intro empty
      rw [← weight_trimEnd, empty] at heavy
      exact absurd heavy (lt_irrefl _)
    rw [parseChunk, parseChunk, headed, trimmed, nonempty, stripHeading, stripHeading,
      if_neg unheaded, if_pos (List.prefix_append _ _)]
    rfl

theorem readTexts_heading {text : Agent.Text} (begun : Begun text) :
    readTexts ("## ".toList ++ text) = readTexts text := by
  unfold readTexts
  cases cut : splitOnce entryMark text with
  | none =>
    have headed := splitOnce_heading text
    rw [cut] at headed
    rw [split_of_unmatched (splitOnce_eq_none.mp cut),
      split_of_unmatched (splitOnce_eq_none.mp headed)]
    simp only [List.filterMap_cons, parseChunk_heading begun]
  | some parts =>
    have headed := splitOnce_heading text
    rw [cut] at headed
    have first : Begun parts.1 := by
      intro letter head
      have whole := splitOnce_eq_some cut
      refine begun letter ?_
      rw [whole, List.head?_append, Option.mem_def.mp head]
      rfl
    rw [split_of_splitOnce borderless_entryMark.1 cut,
      split_of_splitOnce borderless_entryMark.1 headed]
    simp only [List.filterMap_cons, parseChunk_heading first]

/-- The bodies of the exchanges and a last piece, with their headings between them. -/
def bodies (exchanges : List Exchange) (rest : Agent.Text) : Agent.Text :=
  exchanges.foldr (fun exchange text => exchange.body ++ ['\n'] ++ (entryMark ++ text)) rest

theorem historyText_append (exchanges : List Exchange) (rest : Agent.Text) :
    historyText exchanges ++ ("## ".toList ++ rest) = "## ".toList ++ bodies exchanges rest := by
  induction exchanges with
  | nil => rfl
  | cons exchange exchanges ih =>
    have mark : "\n\n".toList ++ "## ".toList = ['\n'] ++ entryMark := by decide
    calc historyText (exchange :: exchanges) ++ ("## ".toList ++ rest)
        = exchange.entry ++ (historyText exchanges ++ ("## ".toList ++ rest)) := by
          simp only [historyText, List.flatMap_cons, List.append_assoc]
      _ = "## ".toList ++ (exchange.body ++
            (("\n\n".toList ++ "## ".toList) ++ bodies exchanges rest)) := by
          rw [ih, Exchange.entry_eq]
          simp only [List.append_assoc]
      _ = "## ".toList ++ bodies (exchange :: exchanges) rest := by
          rw [mark]
          simp only [bodies, List.foldr_cons, List.append_assoc]

theorem readTexts_bodies (exchanges : List Exchange) (rest : Agent.Text) :
    readTexts (bodies exchanges rest) =
      (exchanges.flatMap fun exchange => readTexts (exchange.body ++ ['\n'])) ++
        readTexts rest := by
  induction exchanges with
  | nil => rfl
  | cons exchange exchanges ih =>
    have cut : split entryMark (bodies (exchange :: exchanges) rest) =
        split entryMark (exchange.body ++ ['\n']) ++ split entryMark (bodies exchanges rest) :=
      split_append borderless_entryMark _ _
    rw [List.flatMap_cons, List.append_assoc, ← ih, readTexts, cut, List.filterMap_append,
      List.map_append]
    rfl

/-- A history whose last piece is any beginning of a body is read piece by piece. -/
theorem readTexts_historyText {rest : Agent.Text} (begun : Begun rest) :
    readTexts (historyText exchanges ++ ("## ".toList ++ rest)) =
      (exchanges.flatMap fun exchange => readTexts (exchange.body ++ ['\n'])) ++
        readTexts rest := by
  have started : Begun (bodies exchanges rest) := by
    cases exchanges with
    | nil => exact begun
    | cons exchange exchanges =>
      have begins : exchange.now.text <+: bodies (exchange :: exchanges) rest := by
        rw [bodies, List.foldr_cons, Exchange.body]
        simp only [List.append_assoc]
        exact List.prefix_append _ _
      exact begun_of_isPrefix exchange.now (List.prefix_refl _) begins
  rw [historyText_append, readTexts_heading started, readTexts_bodies]

theorem sectionMark_infix_entry {exchange : Exchange} :
    sectionMark <:+: exchange.entry ↔
      sectionMark <:+: exchange.user ∨ sectionMark <:+: exchange.assistant := by
  have regroup : exchange.entry = "## ".toList ++ (exchange.now.text ++ (userMark ++
      (exchange.user ++ (assistantMark ++ (exchange.assistant ++ "\n\n".toList))))) := by
    rw [Exchange.entry_eq, Exchange.body]
    simp only [List.append_assoc]
  have heading : ¬ sectionMark <:+: "## ".toList := by decide
  have afterHeading : ApartAfter sectionMark "## ".toList := by decide
  have ending : ¬ sectionMark <:+: "\n\n".toList := by decide
  have fromEnding : ApartFrom sectionMark "\n\n".toList := by decide
  rw [regroup, infix_append_iff_of_after afterHeading, Exchange.interior_sectionMark.infix_body,
    infix_append_iff_of_from fromEnding]
  simp only [heading, ending, false_or, or_false]

theorem sectionMark_infix_historyText :
    sectionMark <:+: historyText exchanges ↔ ∃ exchange ∈ exchanges,
      sectionMark <:+: exchange.user ∨ sectionMark <:+: exchange.assistant := by
  induction exchanges with
  | nil =>
    have nothing : ¬ sectionMark <:+: [] := by decide
    simp [historyText, nothing]
  | cons exchange exchanges ih =>
    have apart : ApartFrom sectionMark (historyText exchanges) := by
      cases exchanges with
      | nil => decide
      | cons next exchanges =>
        rw [historyText, List.flatMap_cons, Exchange.entry_eq, List.append_assoc]
        exact apartFrom_of_notMem (a := '#') (by decide)
    rw [List.exists_mem_cons_iff, ← ih, ← sectionMark_infix_entry, historyText,
      List.flatMap_cons]
    exact infix_append_iff_of_from apart

theorem first_ne_equals (now : Stamp) : now.first ≠ '=' := by
  obtain digit | same | same := now.begins
  · intro same
    rw [same] at digit
    revert digit
    decide
  · simp [same]
  · simp [same]

/-- An equals sign in an entry stands in the body of its exchange. -/
theorem entry_cut {exchange : Exchange} {p q : Agent.Text}
    (whole : exchange.entry = p ++ '=' :: q) :
    ∃ part rest, p = "## ".toList ++ part ∧ exchange.body = part ++ '=' :: rest := by
  rw [Exchange.entry_eq] at whole
  obtain ⟨part, rfl, tail⟩ | ⟨rest, heading, tail⟩ := List.append_eq_append_iff.mp whole
  · obtain ⟨rest, rfl, ending⟩ | ⟨rest, body, ending⟩ := List.append_eq_append_iff.mp tail
    · have member : '=' ∈ "\n\n".toList := by
        rw [ending]
        simp
      exact absurd member (by decide)
    · cases rest with
      | nil =>
        have first : some '=' = "\n\n".toList.head? := congrArg List.head? ending
        exact absurd first (by decide)
      | cons letter rest =>
        rw [List.cons_append, List.cons.injEq] at ending
        obtain ⟨rfl, -⟩ := ending
        exact ⟨part, rest, rfl, body⟩
  · cases rest with
    | nil =>
      have first := congrArg List.head? tail
      exact absurd (Option.some.inj first).symm (first_ne_equals exchange.now)
    | cons letter rest =>
      rw [List.cons_append, List.cons.injEq] at tail
      obtain ⟨rfl, -⟩ := tail
      have member : '=' ∈ "## ".toList := by
        rw [heading]
        simp
      exact absurd member (by decide)

/-- Where a history is cut in front of a letter that no time begins with. -/
theorem historyText_cut {p q : Agent.Text} (whole : historyText exchanges = p ++ '=' :: q) :
    ∃ front exchange back part, exchanges = front ++ exchange :: back ∧
      p = historyText front ++ ("## ".toList ++ part) ∧ part <+: exchange.body ∧
      solid part < solid exchange.body ∧ part ≠ [] := by
  induction exchanges generalizing p with
  | nil => simp [historyText] at whole
  | cons exchange exchanges ih =>
    rw [historyText, List.flatMap_cons] at whole
    obtain ⟨rest, rfl, tail⟩ | ⟨rest, inside, tail⟩ := List.append_eq_append_iff.mp whole
    · obtain ⟨front, other, back, part, rfl, rfl, found⟩ := ih tail
      exact ⟨exchange :: front, other, back, part, rfl, by simp [historyText], found⟩
    · cases rest with
      | nil =>
        obtain ⟨front, other, back, part, rfl, same, found⟩ := ih (p := []) tail.symm
        simp at same
      | cons letter rest =>
        rw [List.cons_append, List.cons.injEq] at tail
        obtain ⟨rfl, -⟩ := tail
        obtain ⟨part, more, rfl, body⟩ := entry_cut inside
        refine ⟨[], exchange, exchanges, part, rfl, rfl, ⟨_, body.symm⟩, ?_, ?_⟩
        · have heavy : solid ('=' :: more) = solid more + 1 :=
            List.countP_cons_of_pos (by decide)
          simp only [solid] at heavy ⊢
          rw [body, weight_append, heavy]
          omega
        · rintro rfl
          have first := congrArg List.head? body
          exact first_ne_equals exchange.now (Option.some.inj first)

theorem trimEnd_historyText (front : List Exchange) {part : Agent.Text} (heavy : 0 < solid part) :
    trimEnd isWhitespace (historyText front ++ ("## ".toList ++ part)) =
      historyText front ++ ("## ".toList ++ trimEnd isWhitespace part) := by
  rw [← List.append_assoc, trimEnd_of_solid heavy, List.append_assoc]

/-- Nothing but the exchanges themselves reads as them, piece by piece. -/
theorem readTexts_pieces {pieces : List (Exchange × Agent.Text)}
    (alone : ∀ piece ∈ pieces, piece.1.texts ∈ readTexts piece.2 →
      readTexts piece.2 = [piece.1.texts]) :
    (pieces.flatMap fun piece => readTexts piece.2) = pieces.map (fun piece => piece.1.texts) ↔
      ∀ piece ∈ pieces, readTexts piece.2 = [piece.1.texts] := by
  constructor
  · intro same
    have behind : (pieces.flatMap fun piece => readTexts piece.2) =
        [] ++ pieces.map fun piece => piece.1.texts := same
    exact (eq_singleton_of_flatMap_eq alone behind).2
  · intro each
    rw [List.map_eq_flatMap]
    exact List.flatMap_congr each

/-- The condition under which a history is read back. -/
structure Clean (exchanges : List Exchange) : Prop where
  readable : ∀ exchange ∈ exchanges, exchange.Readable
  whole : ∀ exchange ∈ exchanges,
    ¬ sectionMark <:+: exchange.user ∧ ¬ sectionMark <:+: exchange.assistant
  user : ∀ exchange ∈ exchanges, ¬ entryMark <:+: exchange.user
  assistant : ∀ exchange ∈ exchanges.dropLast, ¬ entryMark <:+: exchange.assistant
  last : ∀ exchange ∈ exchanges.getLast?,
    ¬ entryMark <:+: trimEnd isWhitespace exchange.assistant

/-- The exchanges with the pieces of an uncut history they are read from. -/
def piecesOf (front : List Exchange) (last : Exchange) : List (Exchange × Agent.Text) :=
  front.map (fun exchange => (exchange, exchange.body ++ ['\n'])) ++
    [(last, trimEnd isWhitespace last.body)]

theorem holds_piecesOf (front : List Exchange) (last : Exchange) :
    ∀ piece ∈ piecesOf front last, piece.1.Holds piece.2 := by
  intro piece member
  obtain before | final := List.mem_append.mp member
  · obtain ⟨exchange, -, rfl⟩ := List.mem_map.mp before
    exact exchange.holds_body
  · obtain rfl := List.mem_singleton.mp final
    exact last.holds_trimEnd

theorem readTexts_uncut (front : List Exchange) (last : Exchange) :
    readTexts (trimEnd isWhitespace (historyText (front ++ [last]))) =
        (front ++ [last]).map Exchange.texts ↔
      ∀ piece ∈ piecesOf front last, piece.1.Readable ∧ ¬ entryMark <:+: piece.2 := by
  have heavy : 0 < solid last.body := by
    have weight := last.solid_body
    simp only [recordWeight] at weight
    omega
  have whole : historyText (front ++ [last]) =
      historyText front ++ ("## ".toList ++ last.body) ++ "\n\n".toList := by
    simp only [historyText, List.flatMap_append, List.flatMap_singleton, Exchange.entry_eq,
      List.append_assoc]
  have read : readTexts (trimEnd isWhitespace (historyText (front ++ [last]))) =
      (piecesOf front last).flatMap fun piece => readTexts piece.2 := by
    rw [whole, trimEnd_of_blank (List.all_eq_true.mp (by decide)), trimEnd_historyText front heavy,
      readTexts_historyText (begun_of_isPrefix last.now (List.prefix_refl _)
        last.stamp_prefix_trimEnd), piecesOf, List.flatMap_append, List.flatMap_map,
      List.flatMap_singleton]
  have due : (front ++ [last]).map Exchange.texts =
      (piecesOf front last).map fun piece => piece.1.texts := by
    simp [piecesOf]
  rw [read, due, readTexts_pieces fun piece member =>
    (holds_piecesOf front last piece member).alone]
  exact forall₂_congr fun piece member => (holds_piecesOf front last piece member).readTexts_iff

theorem readTexts_cut {p q : Agent.Text} (whole : historyText exchanges = p ++ '=' :: q) :
    readTexts (trimEnd isWhitespace p) ≠ exchanges.map Exchange.texts := by
  obtain ⟨front, exchange, back, part, rfl, rfl, inside, lighter, nonempty⟩ :=
    historyText_cut whole
  have begun : Begun part := begun_of_isPrefix exchange.now inside (List.prefix_append _ _)
  have heavy : 0 < solid part := by
    obtain ⟨first, rest, rfl⟩ := List.exists_cons_of_ne_nil nonempty
    rw [solid, weight, List.countP_cons_of_pos (by simp [(begun first rfl).1])]
    exact Nat.succ_pos _
  have shorter : Begun (trimEnd isWhitespace part) :=
    begun_of_isPrefix exchange.now ((trimEnd_isPrefix part).trans inside) (List.prefix_append _ _)
  have unread : exchange.texts ∉ readTexts (trimEnd isWhitespace part) :=
    exchange.notMem_readTexts ((trimEnd_isPrefix part).trans inside) (by
      rw [solid, weight_trimEnd]
      exact lighter)
  let pieces := front.map (fun exchange => (exchange, exchange.body ++ ['\n'])) ++
    (exchange, trimEnd isWhitespace part) :: back.map fun exchange => (exchange, [])
  have nothing : readTexts [] = [] := by decide
  have alone : ∀ piece ∈ pieces, piece.1.texts ∈ readTexts piece.2 →
      readTexts piece.2 = [piece.1.texts] := by
    intro piece member read
    obtain before | now | after := (List.mem_append.mp member).imp_right List.mem_cons.mp
    · obtain ⟨other, -, rfl⟩ := List.mem_map.mp before
      exact other.holds_body.alone read
    · subst now
      exact absurd read unread
    · obtain ⟨other, -, rfl⟩ := List.mem_map.mp after
      rw [nothing] at read
      cases read
  have read : readTexts (trimEnd isWhitespace (historyText front ++ ("## ".toList ++ part))) =
      pieces.flatMap fun piece => readTexts piece.2 := by
    rw [trimEnd_historyText front heavy, readTexts_historyText shorter]
    simp [pieces, List.flatMap_append, List.flatMap_map, nothing]
  have due : (front ++ exchange :: back).map Exchange.texts =
      pieces.map fun piece => piece.1.texts := by
    simp [pieces, Function.comp_def]
  rw [read, due, ne_eq, readTexts_pieces alone]
  intro each
  have own := each (exchange, trimEnd isWhitespace part)
    (List.mem_append_right _ List.mem_cons_self)
  exact unread (own ▸ List.mem_singleton_self _)

theorem head_historyText (front : List Exchange) (last : Exchange) :
    ∃ tail, historyText (front ++ [last]) = '#' :: tail := by
  cases front with
  | nil => exact ⟨_, rfl⟩
  | cons exchange front => exact ⟨_, rfl⟩

theorem trimText_of_head {text tail : Agent.Text} (headed : text = '#' :: tail) :
    trimText text = trimEnd isWhitespace text := by
  subst headed
  exact trim_of_head (by decide)

theorem clean_iff (front : List Exchange) (last : Exchange) :
    Clean (front ++ [last]) ↔
      (∀ piece ∈ piecesOf front last, piece.1.Readable ∧ ¬ entryMark <:+: piece.2) ∧
        ¬ sectionMark <:+: historyText (front ++ [last]) := by
  constructor
  · intro clean
    refine ⟨fun piece member => ?_, ?_⟩
    · obtain before | final := List.mem_append.mp member
      · obtain ⟨exchange, there, rfl⟩ := List.mem_map.mp before
        have inside : exchange ∈ front ++ [last] := List.mem_append_left _ there
        refine ⟨clean.readable exchange inside, ?_⟩
        rw [Exchange.entryMark_infix_holds_body, not_or]
        exact ⟨clean.user exchange inside, clean.assistant exchange (by simpa using there)⟩
      · obtain rfl := List.mem_singleton.mp final
        have inside : last ∈ front ++ [last] := List.mem_append_right _ (List.mem_singleton_self _)
        refine ⟨clean.readable last inside, ?_⟩
        rw [Exchange.entryMark_infix_trimEnd_body (clean.readable last inside).answered, not_or]
        exact ⟨clean.user last inside, clean.last last (by simp)⟩
    · rw [sectionMark_infix_historyText]
      rintro ⟨exchange, member, occurs⟩
      exact occurs.elim (clean.whole exchange member).1 (clean.whole exchange member).2
  · rintro ⟨each, uncut⟩
    rw [sectionMark_infix_historyText] at uncut
    push Not at uncut
    have final := each (last, trimEnd isWhitespace last.body)
      (List.mem_append_right _ (List.mem_singleton_self _))
    rw [Exchange.entryMark_infix_trimEnd_body final.1.answered, not_or] at final
    have before : ∀ exchange ∈ front, exchange.Readable ∧ ¬ entryMark <:+: exchange.user ∧
        ¬ entryMark <:+: exchange.assistant := by
      intro exchange member
      have piece := each (exchange, exchange.body ++ ['\n'])
        (List.mem_append_left _ (List.mem_map_of_mem member))
      rwa [Exchange.entryMark_infix_holds_body, not_or] at piece
    refine ⟨?_, uncut, ?_, ?_, ?_⟩
    · simpa [or_imp, forall_and, final.1] using fun exchange member => (before exchange member).1
    · simpa [or_imp, forall_and, final.2.1] using
        fun exchange member => (before exchange member).2.1
    · simpa using fun exchange member => (before exchange member).2.2
    · simpa using final.2.2

/-- What stands in front of the next section reads as the exchanges when they are clean. -/
theorem readTexts_beforeSection (front : List Exchange) (last : Exchange) :
    readTexts (trimText (beforeSection
        (trimEnd isWhitespace (historyText (front ++ [last]))))) =
        (front ++ [last]).map Exchange.texts ↔ Clean (front ++ [last]) := by
  obtain ⟨tail, headed⟩ := head_historyText front last
  have mark : sectionMark = "\n\n".toList ++ '=' :: "==".toList := by decide
  cases cut : splitOnce sectionMark (trimEnd isWhitespace (historyText (front ++ [last]))) with
  | none =>
    have absent := splitOnce_eq_none.mp cut
    rw [infix_trimEnd_iff solid_last_sectionMark borderless_sectionMark.1] at absent
    have trimmed : trimText (trimEnd isWhitespace (historyText (front ++ [last]))) =
        trimEnd isWhitespace (historyText (front ++ [last])) :=
      (trim_trimEnd _).trans (trimText_of_head headed)
    rw [beforeSection, cut, trimmed, readTexts_uncut, clean_iff, and_iff_left absent]
  | some parts =>
    obtain ⟨history, after⟩ := parts
    have occurs : sectionMark <:+: historyText (front ++ [last]) := by
      rw [← infix_trimEnd_iff solid_last_sectionMark borderless_sectionMark.1,
        splitOnce_eq_some cut]
      exact List.infix_append' _ _ _
    obtain ⟨blanks, whole, -⟩ := exists_trimEnd isWhitespace (historyText (front ++ [last]))
    have joint : historyText (front ++ [last]) =
        (history ++ "\n\n".toList) ++ '=' :: ("==".toList ++ after ++ blanks) := by
      rw [whole, splitOnce_eq_some cut, mark]
      simp only [List.append_assoc, List.cons_append]
    have start : ∃ tail, history ++ "\n\n".toList = '#' :: tail := by
      rw [headed] at joint
      cases history with
      | nil => cases joint
      | cons first history =>
        rw [List.cons_append, List.cons_append, List.cons.injEq] at joint
        exact ⟨_, by rw [← joint.1]; rfl⟩
    obtain ⟨more, begins⟩ := start
    have trimmed : trimText history = trimEnd isWhitespace (history ++ "\n\n".toList) := by
      rw [← trimText_of_head begins]
      exact (trim_append_blank (List.all_eq_true.mp (by decide)) history).symm
    rw [beforeSection, cut]
    refine iff_of_false ?_ ?_
    · rw [trimmed]
      exact readTexts_cut joint
    · rw [clean_iff]
      exact fun clean => clean.2 occurs

end History

end UHorse.Hub.Web
