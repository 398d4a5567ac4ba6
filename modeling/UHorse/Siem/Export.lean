import UHorse.Lib.Cef
import UHorse.Lib.Csv
import UHorse.Protocol.Types

/-!
# Exported audit events

Audit events are exported as comma-separated values and in the Common Event Format. The texts of an
event are placed between the separators of the format as they are: no field is put in quotes and no
character is escaped. A reader of the format gets the events back just if their texts hold nothing
that the format would read as a mark.

What `serde_json` and `chrono` write, and the number of the process, are parameters.
-/

namespace UHorse.Siem

open UHorse.Lib UHorse.Protocol

inductive ExportFormat
  | json
  | cef
  | syslog
  | csv

structure AuditEvent where
  id : String
  timestamp : DateTime
  eventType : String
  tenantId : String
  actor : String
  resource : String
  action : String
  result : String
  /-- The entries in the order of their iteration. -/
  details : List (String × Json)
  ipAddress : Option String
  userAgent : Option String
  signature : Option String

inductive SiemError
  | serializationError (message : String)

structure Writers where
  /-- `serde_json::to_string` of an event. -/
  eventJson : AuditEvent → Except String String
  /-- `serde_json::to_string_pretty` of a list of events. -/
  eventsJson : List AuditEvent → Except String String
  /-- `serde_json::to_string` of details. -/
  detailsJson : List (String × Json) → Except String String
  toRfc3339 : DateTime → String
  /-- `format("%b %d %H:%M:%S")`. -/
  formatSyslog : DateTime → String
  processId : Nat

/-- `chrono::DateTime::timestamp_millis`. -/
def timestampMillis (time : DateTime) : Int := time / 1000000

namespace AuditEvent

def new (id : String) (now : DateTime) (eventType tenantId actor resource action : String) :
    AuditEvent where
  id
  timestamp := now
  eventType
  tenantId
  actor
  resource
  action
  result := "success"
  details := []
  ipAddress := none
  userAgent := none
  signature := none

def cefSeverity (event : AuditEvent) : Nat :=
  match event.result with
  | "failure" | "denied" => 8
  | "error" => 7
  | "warning" => 5
  | _ => 3

end AuditEvent

section Exporter

variable (writers : Writers)

def serialized : Except String String → Except SiemError String
  | .ok text => .ok text
  | .error message => .error (.serializationError message)

def exportJson (event : AuditEvent) : Except SiemError String :=
  serialized (writers.eventJson event)

def buildCefExtension (event : AuditEvent) : String :=
  let parts := ["rt=" ++ toString (timestampMillis event.timestamp), "suser=" ++ event.actor,
    "duser=" ++ event.tenantId, "request=" ++ event.resource, "act=" ++ event.action,
    "outcome=" ++ event.result]
  let parts := match event.ipAddress with
    | some ip => parts ++ ["src=" ++ ip]
    | none => parts
  let parts := match event.userAgent with
    | some ua => parts ++ ["requestClientApplication=" ++ ua]
    | none => parts
  " ".intercalate parts

def exportCef (event : AuditEvent) : String :=
  "CEF:0|uHorse|AI Gateway|2.0|" ++ event.eventType ++ "|" ++
    (event.action ++ " " ++ event.resource) ++ "|" ++ toString event.cefSeverity ++ "|" ++
    buildCefExtension event

def exportSyslog (event : AuditEvent) : String :=
  let priority := 13 * 8 + 6
  "<" ++ toString priority ++ ">" ++ writers.formatSyslog event.timestamp ++ " " ++ "localhost" ++
    " uhorse[" ++ toString writers.processId ++ "]: [" ++ event.eventType ++ "] " ++
    event.tenantId ++ " " ++ event.actor ++ " " ++ event.resource ++ " " ++ event.action ++ " " ++
    event.result

/-- `details` of `export_csv`. -/
def detailsText (event : AuditEvent) : String :=
  match writers.detailsJson event.details with
  | .ok text => text
  | .error _ => ""

def exportCsv (event : AuditEvent) : String :=
  event.id ++ "," ++ writers.toRfc3339 event.timestamp ++ "," ++ event.eventType ++ "," ++
    event.tenantId ++ "," ++ event.actor ++ "," ++ event.resource ++ "," ++ event.action ++ "," ++
    event.result ++ "," ++ event.ipAddress.getD "" ++ "," ++ event.userAgent.getD "" ++ "," ++
    detailsText writers event

def exportEvent (format : ExportFormat) (event : AuditEvent) : Except SiemError String :=
  match format with
  | .json => exportJson writers event
  | .cef => .ok (exportCef event)
  | .syslog => .ok (exportSyslog writers event)
  | .csv => .ok (exportCsv writers event)

def exportEvents (format : ExportFormat) (events : List AuditEvent) : Except SiemError String :=
  match format with
  | .json => serialized (writers.eventsJson events)
  | _ => events.foldlM (fun output event => do
      let text ← exportEvent writers format event
      return output ++ text ++ "\n") ""

end Exporter

def csvHeader : String :=
  "id,timestamp,event_type,tenant_id,actor,resource,action,result,ip_address,user_agent,details"

/-! ## What readers of the formats should get -/

def csvColumns : List String :=
  ["id", "timestamp", "event_type", "tenant_id", "actor", "resource", "action", "result",
    "ip_address", "user_agent", "details"]

/-- The values of an event, in the order of the columns. -/
def csvValues (writers : Writers) (event : AuditEvent) : List String :=
  [event.id, writers.toRfc3339 event.timestamp, event.eventType, event.tenantId, event.actor,
    event.resource, event.action, event.result, event.ipAddress.getD "", event.userAgent.getD "",
    detailsText writers event]

def cefHeader (event : AuditEvent) : List String :=
  ["CEF:0", "uHorse", "AI Gateway", "2.0", event.eventType, event.action ++ " " ++ event.resource,
    toString event.cefSeverity]

def cefValues (event : AuditEvent) : List (String × String) :=
  [("rt", toString (timestampMillis event.timestamp)), ("suser", event.actor),
    ("duser", event.tenantId), ("request", event.resource), ("act", event.action),
    ("outcome", event.result)] ++
      (event.ipAddress.toList.map fun ip => ("src", ip)) ++
      event.userAgent.toList.map fun ua => ("requestClientApplication", ua)

def cefKeys : List String :=
  ["rt", "suser", "duser", "request", "act", "outcome"] ++ ["src", "requestClientApplication"]

def record (texts : List String) : Csv.Record := texts.map String.toList

def pair (entry : String × String) : Cef.Pair := (entry.1.toList, entry.2.toList)

def cefLine (event : AuditEvent) : Cef.Line where
  header := (cefHeader event).map String.toList
  extension := (cefValues event).map pair

/-- Under the header, the output is read as one record for each event. -/
def CsvReadsBack (writers : Writers) (events : List AuditEvent) : Prop :=
  ∃ output, exportEvents writers .csv events = .ok output ∧
    Csv.read (csvHeader ++ "\n" ++ output).toList =
      some ((csvColumns :: events.map (csvValues writers)).map record)

/-- The output is read as one line for each event. -/
def CefReadsBack (writers : Writers) (events : List AuditEvent) : Prop :=
  ∃ output, exportEvents writers .cef events = .ok output ∧
    Cef.read output.toList = some (events.map cefLine)

/-- No event is read as anything else than itself. -/
def Unforgeable (writers : Writers) (events : List AuditEvent) : Prop :=
  CsvReadsBack writers events ∧ CefReadsBack writers events

/-- What `chrono` and `serde_json` write: a time has digits, signs and letters, and the object of
details has the quotes of its keys. -/
structure Documented (writers : Writers) : Prop where
  time : ∀ time, Csv.Plain (writers.toRfc3339 time).toList
  noDetails : writers.detailsJson [] = .ok "\x7b\x7d"
  details : ∀ entry rest, ∃ text, writers.detailsJson (entry :: rest) = .ok text ∧
    '"' ∈ text.toList

/-- The texts of an event that come from outside. -/
def AuditEvent.texts (event : AuditEvent) : List String :=
  [event.id, event.eventType, event.tenantId, event.actor, event.resource, event.action,
    event.result, event.ipAddress.getD "", event.userAgent.getD ""]

/-- The texts of an event hold no mark of the places where they are written. -/
structure AuditEvent.Unmarked (event : AuditEvent) : Prop where
  csv : ∀ text ∈ event.texts, Csv.Plain text.toList
  header : ∀ text ∈ [event.eventType, event.action, event.resource], Cef.HeaderPlain text.toList
  extension : ∀ text ∈ [event.actor, event.tenantId, event.resource, event.action, event.result,
    event.ipAddress.getD "", event.userAgent.getD ""], Cef.ValuePlain text.toList
  details : event.details = []

/-! ## The output as it is written -/

section Output

variable {writers : Writers} {event : AuditEvent} {events : List AuditEvent}

/-- Texts with commas between them and a line feed behind the last. -/
theorem toList_intercalate_comma (first : String) (rest : List String) :
    (",".intercalate (first :: rest)).toList ++ ['\n'] = Csv.line (record (first :: rest)) := by
  induction rest generalizing first with
  | nil => simp [record, Csv.line]
  | cons next rest ih =>
    rw [String.intercalate_cons_cons, String.toList_append, List.append_assoc, ih next]
    simp [record, Csv.line]

theorem exportCsv_eq (writers : Writers) (event : AuditEvent) :
    exportCsv writers event = ",".intercalate (csvValues writers event) := by
  unfold exportCsv csvValues
  simp only [String.intercalate_cons_cons, String.intercalate_singleton, String.append_assoc]

theorem csvHeader_eq : csvHeader = ",".intercalate csvColumns := by
  decide

def written (entry : String × String) : String := entry.1 ++ "=" ++ entry.2

theorem buildCefExtension_eq (event : AuditEvent) :
    buildCefExtension event = " ".intercalate ((cefValues event).map written) := by
  unfold buildCefExtension cefValues
  cases event.ipAddress <;> cases event.userAgent <;> rfl

/-- Pairs with blanks between them and a line feed behind the last. -/
theorem toList_intercalate_blank (first : String × String) (rest : List (String × String)) :
    (" ".intercalate (written first :: rest.map written)).toList ++ ['\n'] =
      Cef.pairsText (pair first :: rest.map pair) := by
  rw [pair, Cef.pairsText]
  induction rest generalizing first with
  | nil => simp [written, Cef.further]
  | cons next rest ih =>
    rw [List.map_cons, List.map_cons, String.intercalate_cons_cons, String.toList_append,
      List.append_assoc, ih next]
    simp [written, pair, Cef.further]

theorem toList_join_bars (texts : List String) :
    (String.join (texts.map fun text => text ++ "|")).toList =
      (texts.map String.toList).flatMap fun field => field ++ ['|'] := by
  induction texts with
  | nil => rfl
  | cons text texts ih =>
    rw [List.map_cons, String.join_cons, String.toList_append, ih]
    simp

theorem exportCef_eq (event : AuditEvent) :
    exportCef event = String.join ((cefHeader event).map fun text => text ++ "|") ++
      buildCefExtension event := by
  have product : "CEF:0|uHorse|AI Gateway|2.0|" =
      "CEF:0" ++ "|" ++ "uHorse" ++ "|" ++ "AI Gateway" ++ "|" ++ "2.0" ++ "|" := by rfl
  unfold exportCef cefHeader
  rw [product]
  simp only [List.map_cons, List.map_nil, String.join_cons, String.join_nil, String.append_empty,
    String.append_assoc]

theorem exportCef_line (event : AuditEvent) :
    (exportCef event).toList ++ ['\n'] = (cefLine event).text := by
  rw [exportCef_eq, buildCefExtension_eq, String.toList_append, toList_join_bars, List.append_assoc]
  exact congrArg _ (toList_intercalate_blank _ _)

/-- The events are written one after the other, with a line feed behind each. -/
theorem foldlM_lines (events : List AuditEvent) {format : ExportFormat}
    {shown : AuditEvent → String}
    (shows : ∀ event, exportEvent writers format event = .ok (shown event)) (start : String) :
    ∃ output, (events.foldlM (fun output event => do
        let text ← exportEvent writers format event
        return output ++ text ++ "\n") start : Except SiemError String) = .ok output ∧
      output.toList = start.toList ++ events.flatMap fun event =>
        (shown event).toList ++ ['\n'] := by
  induction events generalizing start with
  | nil => exact ⟨start, rfl, (List.append_nil _).symm⟩
  | cons event events ih =>
    obtain ⟨output, exported, text⟩ := ih (start ++ shown event ++ "\n")
    refine ⟨output, ?_, ?_⟩
    · rw [List.foldlM_cons, shows]
      exact exported
    · rw [text, List.flatMap_cons]
      simp

theorem exportEvents_csv (writers : Writers) (events : List AuditEvent) :
    ∃ output, exportEvents writers .csv events = .ok output ∧
      (csvHeader ++ "\n" ++ output).toList =
        ((csvColumns :: events.map (csvValues writers)).map record).flatMap Csv.line := by
  have shows : ∀ event, exportEvent writers .csv event = .ok (exportCsv writers event) :=
    fun _ => rfl
  obtain ⟨output, exported, text⟩ := foldlM_lines events shows ""
  refine ⟨output, exported, ?_⟩
  have header : csvHeader.toList ++ ['\n'] = Csv.line (record csvColumns) := by
    rw [csvHeader_eq]
    exact toList_intercalate_comma _ _
  have each : ∀ event, (exportCsv writers event).toList ++ ['\n'] =
      Csv.line (record (csvValues writers event)) := by
    intro event
    rw [exportCsv_eq]
    exact toList_intercalate_comma _ _
  rw [String.toList_append, String.toList_append, text, List.map_cons, List.flatMap_cons, ← header,
    List.map_map, List.flatMap_map]
  exact congrArg (_ ++ ·) (congrArg (List.flatMap · events) (funext each))

theorem exportEvents_cef (writers : Writers) (events : List AuditEvent) :
    ∃ output, exportEvents writers .cef events = .ok output ∧
      output.toList = (events.map cefLine).flatMap Cef.Line.text := by
  have shows : ∀ event, exportEvent writers .cef event = .ok (exportCef event) := fun _ => rfl
  obtain ⟨output, exported, text⟩ := foldlM_lines events shows ""
  refine ⟨output, exported, ?_⟩
  rw [text, List.flatMap_map]
  exact congrArg (List.flatMap · events) (funext exportCef_line)

end Output

/-! ## When the output can be read -/

section Reading

variable {writers : Writers} {event : AuditEvent} {events : List AuditEvent}

theorem csvColumns_plain : ∀ text ∈ csvColumns, Csv.Plain text.toList := by
  decide

theorem csvReadsBack_iff : CsvReadsBack writers events ↔
    ∀ event ∈ events, ∀ text ∈ csvValues writers event, Csv.Plain text.toList := by
  obtain ⟨output, exported, text⟩ := exportEvents_csv writers events
  have nonempty : ∀ fields ∈ (csvColumns :: events.map (csvValues writers)).map record,
      fields ≠ [] := by
    simp [csvColumns, csvValues, record]
  have reads : CsvReadsBack writers events ↔ Csv.read (csvHeader ++ "\n" ++ output).toList =
      some ((csvColumns :: events.map (csvValues writers)).map record) := by
    refine ⟨fun ⟨other, same, read⟩ => ?_, fun read => ⟨output, exported, read⟩⟩
    cases exported.symm.trans same
    exact read
  rw [reads, text, Csv.read_lines_iff nonempty]
  constructor
  · intro plain event member text inside
    refine plain (record (csvValues writers event)) ?_ _ (List.mem_map_of_mem inside)
    exact List.mem_map_of_mem (List.mem_cons_of_mem _ (List.mem_map_of_mem member))
  · intro plain fields member field inside
    obtain ⟨texts, listed, rfl⟩ := List.mem_map.mp member
    obtain ⟨text, valued, rfl⟩ := List.mem_map.mp inside
    rcases List.mem_cons.mp listed with rfl | later
    · exact csvColumns_plain text valued
    · obtain ⟨event, known, rfl⟩ := List.mem_map.mp later
      exact plain event known text valued

theorem mem_cefKeys {entry : String × String} (member : entry ∈ cefValues event) :
    entry.1 ∈ cefKeys := by
  rw [cefValues, List.mem_append, List.mem_append] at member
  rcases member with (fixed | source) | client
  · have key := List.mem_map_of_mem (f := Prod.fst) fixed
    exact List.mem_append_left _ key
  · obtain ⟨ip, -, rfl⟩ := List.mem_map.mp source
    exact List.mem_append_right _ List.mem_cons_self
  · obtain ⟨ua, -, rfl⟩ := List.mem_map.mp client
    exact List.mem_append_right _ (List.mem_cons_of_mem _ List.mem_cons_self)

theorem cefKeys_formed : ∀ key ∈ cefKeys, key.toList ≠ [] ∧ ' ' ∉ key.toList := by
  decide

theorem cefLine_formed (event : AuditEvent) : (cefLine event).Formed where
  seven := rfl
  opens field first := by
    cases first
    decide
  nonempty := by
    rw [cefLine, cefValues]
    simp
  keys entry member := by
    obtain ⟨value, valued, rfl⟩ := List.mem_map.mp member
    exact cefKeys_formed value.1 (mem_cefKeys valued)

theorem cefReadsBack_iff : CefReadsBack writers events ↔
    ∀ event ∈ events, (cefLine event).Plain := by
  obtain ⟨output, exported, text⟩ := exportEvents_cef writers events
  have formed : ∀ line ∈ events.map cefLine, line.Formed := by
    intro line member
    obtain ⟨event, -, rfl⟩ := List.mem_map.mp member
    exact cefLine_formed event
  have reads : CefReadsBack writers events ↔
      Cef.read output.toList = some (events.map cefLine) := by
    refine ⟨fun ⟨other, same, read⟩ => ?_, fun read => ⟨output, exported, read⟩⟩
    cases exported.symm.trans same
    exact read
  rw [reads, text, Cef.read_texts_iff formed]
  exact List.forall_mem_map

/-! ## Events without marks -/

theorem isDigit_of_mem_repr {n : Nat} {c : Char} (member : c ∈ n.repr.toList) :
    c.isDigit = true := by
  rw [Nat.toList_repr] at member
  exact Nat.isDigit_of_mem_toDigits (by omega) (by omega) member

theorem headerPlain_of_isDigit {c : Char} (digit : c.isDigit = true) :
    Cef.isHeaderPlain c = true := by
  rw [Cef.isHeaderPlain_iff]
  refine ⟨?_, ?_, ?_⟩
  · rintro rfl
    cases digit
  · rintro rfl
    cases digit
  · rintro (rfl | rfl) <;> cases digit

theorem valuePlain_of_isDigit {c : Char} (digit : c.isDigit = true) :
    Cef.isValuePlain c = true := by
  rw [Cef.isValuePlain_iff]
  refine ⟨?_, ?_, ?_, ?_⟩ <;> rintro rfl <;> cases digit

theorem valuePlain_repr (n : Int) : Cef.ValuePlain n.repr.toList := by
  cases n with
  | ofNat m => exact fun c member => valuePlain_of_isDigit (isDigit_of_mem_repr member)
  | negSucc m =>
    have text : (Int.negSucc m).repr.toList = '-' :: (m + 1).repr.toList := by
      rw [Int.repr, String.toList_append]
      rfl
    intro c member
    rw [text] at member
    rcases List.mem_cons.mp member with rfl | digit
    · decide
    · exact valuePlain_of_isDigit (isDigit_of_mem_repr digit)

theorem headerPlain_append {x y : List Char} :
    Cef.HeaderPlain (x ++ ' ' :: y) ↔ Cef.HeaderPlain x ∧ Cef.HeaderPlain y := by
  constructor
  · intro plain
    exact ⟨fun c member => plain c (List.mem_append_left _ member),
      fun c member => plain c (List.mem_append_right x (List.mem_cons_of_mem _ member))⟩
  · rintro ⟨first, second⟩ c member
    rcases List.mem_append.mp member with left | right
    · exact first c left
    · rcases List.mem_cons.mp right with rfl | inside
      · rfl
      · exact second c inside

theorem Documented.detailsText_plain_iff (documented : Documented writers) :
    Csv.Plain (detailsText writers event).toList ↔ event.details = [] := by
  rw [detailsText]
  cases entries : event.details with
  | nil =>
    rw [documented.noDetails]
    simp only [iff_true]
    decide
  | cons entry rest =>
    obtain ⟨text, written, quote⟩ := documented.details entry rest
    rw [written]
    refine ⟨fun plain => ?_, fun empty => by cases empty⟩
    have unquoted := plain '"' quote
    cases unquoted

theorem Documented.csvValues_plain_iff (documented : Documented writers) :
    (∀ text ∈ csvValues writers event, Csv.Plain text.toList) ↔
      (∀ text ∈ event.texts, Csv.Plain text.toList) ∧ event.details = [] := by
  simp only [csvValues, AuditEvent.texts, List.forall_mem_cons, documented.time,
    documented.detailsText_plain_iff, List.not_mem_nil, false_implies, implies_true, true_and,
    and_true, and_assoc]

theorem header_plain_iff (event : AuditEvent) :
    (∀ field ∈ (cefLine event).header, Cef.HeaderPlain field) ↔
      ∀ text ∈ [event.eventType, event.action, event.resource], Cef.HeaderPlain text.toList := by
  have fixed : ∀ text ∈ ["CEF:0", "uHorse", "AI Gateway", "2.0"], Cef.HeaderPlain text.toList := by
    decide
  have severity : Cef.HeaderPlain (toString event.cefSeverity).toList :=
    fun c member => headerPlain_of_isDigit (isDigit_of_mem_repr member)
  have name : (event.action ++ " " ++ event.resource).toList =
      event.action.toList ++ ' ' :: event.resource.toList := by simp
  simp only [List.forall_mem_cons] at fixed
  simp only [cefLine, cefHeader, List.forall_mem_map, List.forall_mem_cons, fixed, severity, name,
    headerPlain_append, List.not_mem_nil, false_implies, implies_true, true_and, and_true]

theorem optional_plain_iff (value : Option String) :
    (∀ text ∈ value.toList, Cef.ValuePlain text.toList) ↔
      Cef.ValuePlain (value.getD "").toList := by
  cases value with
  | none => simp [Cef.ValuePlain]
  | some text => simp

theorem extension_plain_iff (event : AuditEvent) :
    (∀ entry ∈ (cefLine event).extension, Cef.PairPlain entry) ↔
      ∀ text ∈ [event.actor, event.tenantId, event.resource, event.action, event.result,
        event.ipAddress.getD "", event.userAgent.getD ""], Cef.ValuePlain text.toList := by
  have keys : ∀ key ∈ cefKeys, Cef.ValuePlain key.toList := by decide
  simp only [cefKeys, List.cons_append, List.nil_append, List.forall_mem_cons] at keys
  have millis : Cef.ValuePlain (toString (timestampMillis event.timestamp)).toList :=
    valuePlain_repr _
  simp only [cefLine, cefValues, List.forall_mem_map, List.forall_mem_append,
    List.forall_mem_cons, pair, Cef.PairPlain, keys, millis, optional_plain_iff,
    List.not_mem_nil, false_implies, implies_true, true_and, and_true, and_assoc]

/-- The marks of the two formats in an event are those in its texts. -/
theorem Documented.unmarked_iff (documented : Documented writers) :
    event.Unmarked ↔ (∀ text ∈ csvValues writers event, Csv.Plain text.toList) ∧
      (cefLine event).Plain := by
  rw [documented.csvValues_plain_iff]
  constructor
  · intro unmarked
    exact ⟨⟨unmarked.csv, unmarked.details⟩, (header_plain_iff event).mpr unmarked.header,
      (extension_plain_iff event).mpr unmarked.extension⟩
  · rintro ⟨⟨csv, details⟩, plain⟩
    exact ⟨csv, (header_plain_iff event).mp plain.header,
      (extension_plain_iff event).mp plain.extension, details⟩

end Reading

/-- Exported events cannot be forged just if their texts are unmarked: nothing is quoted or
escaped. -/
theorem unforgeable_iff {writers : Writers} (documented : Documented writers)
    (events : List AuditEvent) :
    Unforgeable writers events ↔ ∀ event ∈ events, event.Unmarked := by
  rw [Unforgeable, csvReadsBack_iff, cefReadsBack_iff]
  constructor
  · rintro ⟨csv, cef⟩ event member
    exact documented.unmarked_iff.mpr ⟨csv event member, cef event member⟩
  · intro unmarked
    exact ⟨fun event member => (documented.unmarked_iff.mp (unmarked event member)).1,
      fun event member => (documented.unmarked_iff.mp (unmarked event member)).2⟩

def sampleWriters : Writers where
  eventJson _ := .ok "\x7b\x7d"
  eventsJson _ := .ok "[]"
  detailsJson
    | [] => .ok "\x7b\x7d"
    | _ :: _ => .ok "\x7b\"key\":null\x7d"
  toRfc3339 _ := "2025-01-01T00:00:00+00:00"
  formatSyslog _ := "Jan 01 00:00:00"
  processId := 1

theorem sampleWriters_documented : Documented sampleWriters where
  time _ := (by decide : Csv.Plain "2025-01-01T00:00:00+00:00".toList)
  noDetails := rfl
  details _ _ := ⟨_, rfl, by decide⟩

def loginOf (actor : String) : AuditEvent :=
  .new "1" 1735689600000000000 "user.login" "tenant-001" actor "/auth/login" "login"

theorem login_unmarked : (loginOf "user-123").Unmarked where
  csv := by decide
  header := by decide
  extension := by decide
  details := rfl

theorem unforgeable_login : Unforgeable sampleWriters [loginOf "user-123"] :=
  (unforgeable_iff sampleWriters_documented _).mpr (List.forall_mem_singleton.mpr login_unmarked)

/-- A comma in a name adds a field to the record. -/
theorem actor_adds_field : Documented sampleWriters ∧
    ¬ Unforgeable sampleWriters [loginOf "user-123,admin"] := by
  refine ⟨sampleWriters_documented, fun unforgeable => ?_⟩
  have plain := csvReadsBack_iff.mp unforgeable.1 (loginOf "user-123,admin") List.mem_cons_self
    "user-123,admin" (by decide)
  revert plain
  decide

end UHorse.Siem
