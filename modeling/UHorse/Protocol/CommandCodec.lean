import UHorse.Protocol.Codec

/-!
# The JSON form of commands and their results

The variants of the enumerations under their tags. `Portable` says which values
come back as they were: a command whose timeout is in whole seconds, a result whose
CPU share is finite, and both without an optional JSON value that is `Some(null)`.
-/

namespace UHorse.Protocol

open UHorse.Lib Serde

namespace FileCommand

abbrev readVariant : Variant FileCommand (String × Option Nat × Option Nat) where
  name := "read"
  fields :=
    (Fields.required "path" .string).and <|
    (Fields.optional "limit" .nat).and <|
    Fields.optional "offset" .nat
  make := fun (path, limit, offset) => .read path limit offset

abbrev writeVariant : Variant FileCommand (String × String × Bool) where
  name := "write"
  fields :=
    (Fields.required "path" .string).and <|
    (Fields.required "content" .string).and <|
    Fields.required "overwrite" .bool
  make := fun (path, content, overwrite) => .write path content overwrite

abbrev appendVariant : Variant FileCommand (String × String) where
  name := "append"
  fields :=
    (Fields.required "path" .string).and <|
    Fields.required "content" .string
  make := fun (path, content) => .append path content

abbrev deleteVariant : Variant FileCommand (String × Bool) where
  name := "delete"
  fields :=
    (Fields.required "path" .string).and <|
    Fields.required "recursive" .bool
  make := fun (path, recursive) => .delete path recursive

abbrev listVariant : Variant FileCommand (String × Bool × Option String) where
  name := "list"
  fields :=
    (Fields.required "path" .string).and <|
    (Fields.required "recursive" .bool).and <|
    Fields.optional "pattern" .string
  make := fun (path, recursive, pattern) => .list path recursive pattern

abbrev searchVariant : Variant FileCommand (String × String × Bool × Option String) where
  name := "search"
  fields :=
    (Fields.required "pattern" .string).and <|
    (Fields.required "path" .string).and <|
    (Fields.required "recursive" .bool).and <|
    Fields.optional "content_pattern" .string
  make := fun (pattern, path, recursive, contentPattern) => .search pattern path recursive
    contentPattern

abbrev copyVariant : Variant FileCommand (String × String × Bool) where
  name := "copy"
  fields :=
    (Fields.required "from" .string).and <|
    (Fields.required "to" .string).and <|
    Fields.required "overwrite" .bool
  make := fun (source, target, overwrite) => .copy source target overwrite

abbrev moveVariant : Variant FileCommand (String × String × Bool) where
  name := "move"
  fields :=
    (Fields.required "from" .string).and <|
    (Fields.required "to" .string).and <|
    Fields.required "overwrite" .bool
  make := fun (source, target, overwrite) => .move source target overwrite

abbrev infoVariant : Variant FileCommand String where
  name := "info"
  fields := Fields.required "path" .string
  make := .info

abbrev createDirVariant : Variant FileCommand (String × Bool) where
  name := "create_dir"
  fields :=
    (Fields.required "path" .string).and <|
    Fields.required "recursive" .bool
  make := fun (path, recursive) => .createDir path recursive

abbrev existsVariant : Variant FileCommand String where
  name := "exists"
  fields := Fields.required "path" .string
  make := .exists

def variants : Variants FileCommand where
  write
    | .read path limit offset => readVariant.write (path, limit, offset)
    | .write path content overwrite => writeVariant.write (path, content, overwrite)
    | .append path content => appendVariant.write (path, content)
    | .delete path recursive => deleteVariant.write (path, recursive)
    | .list path recursive pattern => listVariant.write (path, recursive, pattern)
    | .search pattern path recursive contentPattern => searchVariant.write (pattern, path,
        recursive, contentPattern)
    | .copy source target overwrite => copyVariant.write (source, target, overwrite)
    | .move source target overwrite => moveVariant.write (source, target, overwrite)
    | .info path => infoVariant.write path
    | .createDir path recursive => createDirVariant.write (path, recursive)
    | .exists path => existsVariant.write path
  keys := ["path", "limit", "offset", "content", "overwrite", "recursive", "pattern",
    "content_pattern", "from", "to"]
  written
    | .read .. => readVariant.written_within rfl _
    | .write .. => writeVariant.written_within rfl _
    | .append .. => appendVariant.written_within rfl _
    | .delete .. => deleteVariant.written_within rfl _
    | .list .. => listVariant.written_within rfl _
    | .search .. => searchVariant.written_within rfl _
    | .copy .. => copyVariant.written_within rfl _
    | .move .. => moveVariant.written_within rfl _
    | .info .. => infoVariant.written_within rfl _
    | .createDir .. => createDirVariant.written_within rfl _
    | .exists .. => existsVariant.written_within rfl _
  cases := [readVariant.case, writeVariant.case, appendVariant.case, deleteVariant.case,
    listVariant.case, searchVariant.case, copyVariant.case, moveVariant.case, infoVariant.case,
    createDirVariant.case, existsVariant.case]

def body : Body FileCommand := variants.tagged "action"

instance : body.RoundTrips fun _ => True := by
  refine Variants.tagged_roundTrips rfl fun value => ?_
  cases value with
  | read path limit offset =>
    exact readVariant.reread_iff variants (path, limit, offset) rfl rfl (by simp)
  | write path content overwrite =>
    exact writeVariant.reread_iff variants (path, content, overwrite) rfl rfl (by simp)
  | append path content => exact appendVariant.reread_iff variants (path, content) rfl rfl (by simp)
  | delete path recursive =>
    exact deleteVariant.reread_iff variants (path, recursive) rfl rfl (by simp)
  | list path recursive pattern =>
    exact listVariant.reread_iff variants (path, recursive, pattern) rfl rfl (by simp)
  | search pattern path recursive contentPattern =>
    exact searchVariant.reread_iff variants (pattern, path, recursive, contentPattern) rfl rfl
      (by simp)
  | copy source target overwrite =>
    exact copyVariant.reread_iff variants (source, target, overwrite) rfl rfl (by simp)
  | move source target overwrite =>
    exact moveVariant.reread_iff variants (source, target, overwrite) rfl rfl (by simp)
  | info path => exact infoVariant.reread_iff variants path rfl rfl (by simp)
  | createDir path recursive =>
    exact createDirVariant.reread_iff variants (path, recursive) rfl rfl (by simp)
  | «exists» path => exact existsVariant.reread_iff variants path rfl rfl (by simp)

end FileCommand

namespace BrowserCommand

abbrev openSystemVariant : Variant BrowserCommand String where
  name := "open_system"
  fields := Fields.required "url" .string
  make := .openSystem

abbrev navigateVariant : Variant BrowserCommand String where
  name := "navigate"
  fields := Fields.required "url" .string
  make := .navigate

abbrev screenshotVariant : Variant BrowserCommand (Option String × Bool) where
  name := "screenshot"
  fields :=
    (Fields.optional "selector" .string).and <|
    Fields.required "full_page" .bool
  make := fun (selector, fullPage) => .screenshot selector fullPage

abbrev clickVariant : Variant BrowserCommand String where
  name := "click"
  fields := Fields.required "selector" .string
  make := .click

abbrev typeVariant : Variant BrowserCommand (String × String) where
  name := "type"
  fields :=
    (Fields.required "selector" .string).and <|
    Fields.required "text" .string
  make := fun (selector, text) => .type selector text

abbrev waitForVariant : Variant BrowserCommand (String × Nat) where
  name := "wait_for"
  fields :=
    (Fields.required "selector" .string).and <|
    Fields.required "timeout_secs" .nat
  make := fun (selector, timeoutSecs) => .waitFor selector timeoutSecs

abbrev getTextVariant : Variant BrowserCommand String where
  name := "get_text"
  fields := Fields.required "selector" .string
  make := .getText

abbrev evaluateVariant : Variant BrowserCommand String where
  name := "evaluate"
  fields := Fields.required "script" .string
  make := .evaluate

abbrev closeVariant : Variant BrowserCommand Unit where
  name := "close"
  fields := .nothing
  make := fun _ => .close

def variants : Variants BrowserCommand where
  write
    | .openSystem url => openSystemVariant.write url
    | .navigate url => navigateVariant.write url
    | .screenshot selector fullPage => screenshotVariant.write (selector, fullPage)
    | .click selector => clickVariant.write selector
    | .type selector text => typeVariant.write (selector, text)
    | .waitFor selector timeoutSecs => waitForVariant.write (selector, timeoutSecs)
    | .getText selector => getTextVariant.write selector
    | .evaluate script => evaluateVariant.write script
    | .close => closeVariant.write ()
  keys := ["url", "selector", "full_page", "text", "timeout_secs", "script"]
  written
    | .openSystem .. => openSystemVariant.written_within rfl _
    | .navigate .. => navigateVariant.written_within rfl _
    | .screenshot .. => screenshotVariant.written_within rfl _
    | .click .. => clickVariant.written_within rfl _
    | .type .. => typeVariant.written_within rfl _
    | .waitFor .. => waitForVariant.written_within rfl _
    | .getText .. => getTextVariant.written_within rfl _
    | .evaluate .. => evaluateVariant.written_within rfl _
    | .close => closeVariant.written_within rfl _
  cases := [openSystemVariant.case, navigateVariant.case, screenshotVariant.case,
    clickVariant.case, typeVariant.case, waitForVariant.case, getTextVariant.case,
    evaluateVariant.case, closeVariant.case]

def body : Body BrowserCommand := variants.tagged "action"

instance : body.RoundTrips fun _ => True := by
  refine Variants.tagged_roundTrips rfl fun value => ?_
  cases value with
  | openSystem url => exact openSystemVariant.reread_iff variants url rfl rfl (by simp)
  | navigate url => exact navigateVariant.reread_iff variants url rfl rfl (by simp)
  | screenshot selector fullPage =>
    exact screenshotVariant.reread_iff variants (selector, fullPage) rfl rfl (by simp)
  | click selector => exact clickVariant.reread_iff variants selector rfl rfl (by simp)
  | type selector text => exact typeVariant.reread_iff variants (selector, text) rfl rfl (by simp)
  | waitFor selector timeoutSecs =>
    exact waitForVariant.reread_iff variants (selector, timeoutSecs) rfl rfl (by simp)
  | getText selector => exact getTextVariant.reread_iff variants selector rfl rfl (by simp)
  | evaluate script => exact evaluateVariant.reread_iff variants script rfl rfl (by simp)
  | close => exact closeVariant.reread_iff variants () rfl rfl (by simp)

end BrowserCommand

namespace Command

/-- Each variant is written as what it wraps. -/
def variants (wire : Wire) : Variants Command where
  write
    | .file command => ("file", FileCommand.body.write command)
    | .shell command => ("shell", (ShellCommand.fields wire).write command)
    | .code command => ("code", (CodeCommand.fields wire).write command)
    | .database command => ("database", DatabaseCommand.fields.write command)
    | .api command => ("api", (ApiCommand.fields wire).write command)
    | .browser command => ("browser", BrowserCommand.body.write command)
    | .skill command => ("skill", (SkillCommand.fields wire).write command)
  keys := ("action" :: FileCommand.variants.keys) ++ ("action" :: BrowserCommand.variants.keys) ++
    (ShellCommand.fields wire).keys ++ (CodeCommand.fields wire).keys ++
    DatabaseCommand.fields.keys ++ (ApiCommand.fields wire).keys ++ (SkillCommand.fields wire).keys
  written
    | .file command => FileCommand.variants.tagged_written_within "action" rfl command
    | .shell command => (ShellCommand.fields wire).written_within rfl command
    | .code command => (CodeCommand.fields wire).written_within rfl command
    | .database command => DatabaseCommand.fields.written_within rfl command
    | .api command => (ApiCommand.fields wire).written_within rfl command
    | .browser command => BrowserCommand.variants.tagged_written_within "action" rfl command
    | .skill command => (SkillCommand.fields wire).written_within rfl command
  cases := [("file", FileCommand.body.into .file),
    ("shell", (ShellCommand.fields wire).into .shell),
    ("code", (CodeCommand.fields wire).into .code),
    ("database", DatabaseCommand.fields.into .database),
    ("api", (ApiCommand.fields wire).into .api), ("browser", BrowserCommand.body.into .browser),
    ("skill", (SkillCommand.fields wire).into .skill)]

def body (wire : Wire) : Body Command := (variants wire).tagged "type"

/-- The timeout is in whole seconds, and the body of an API call is not the value `null`. -/
def Portable : Command → Prop
  | .shell command => command.timeout.Whole
  | .code command => command.timeout.Whole
  | .database command => command.timeout.Whole
  | .api command => command.body ≠ some .null ∧ command.timeout.Whole
  | .skill command => command.timeout.Whole
  | _ => True

instance (wire : Wire) : (body wire).RoundTrips Portable := by
  refine Variants.tagged_roundTrips rfl fun value => ?_
  cases value with
  | file command =>
    exact (variants wire).reread_iff "file" FileCommand.body (fun _ _ => file.inj) command rfl rfl
  | shell command =>
    exact (variants wire).reread_iff "shell" (ShellCommand.fields wire).toBody
      (fun _ _ => shell.inj) command rfl rfl
  | code command =>
    exact (variants wire).reread_iff "code" (CodeCommand.fields wire).toBody (fun _ _ => code.inj)
      command rfl rfl
  | database command =>
    exact (variants wire).reread_iff "database" DatabaseCommand.fields.toBody
      (fun _ _ => database.inj) command rfl rfl
  | api command =>
    exact (variants wire).reread_iff "api" (ApiCommand.fields wire).toBody (fun _ _ => api.inj)
      command rfl rfl
  | browser command =>
    exact (variants wire).reread_iff "browser" BrowserCommand.body (fun _ _ => browser.inj)
      command rfl rfl
  | skill command =>
    exact (variants wire).reread_iff "skill" (SkillCommand.fields wire).toBody
      (fun _ _ => skill.inj) command rfl rfl

end Command

namespace BrowserResult

abbrev openSystemVariant : Variant BrowserResult String where
  name := "open_system"
  fields := Fields.required "url" .string
  make := .openSystem

abbrev navigateVariant : Variant BrowserResult (String × Option String) where
  name := "navigate"
  fields :=
    (Fields.required "final_url" .string).and <|
    Fields.optional "title" .string
  make := fun (finalUrl, title) => .navigate finalUrl title

abbrev screenshotVariant : Variant BrowserResult (String × String × Nat × Nat) where
  name := "screenshot"
  fields :=
    (Fields.required "format" .string).and <|
    (Fields.required "data" .string).and <|
    (Fields.required "width" .nat).and <|
    Fields.required "height" .nat
  make := fun (format, data, width, height) => .screenshot format data width height

abbrev getTextVariant : Variant BrowserResult String where
  name := "get_text"
  fields := Fields.required "text" .string
  make := .getText

abbrev evaluateVariant : Variant BrowserResult Json where
  name := "evaluate"
  fields := Fields.required "value" .json
  make := .evaluate

abbrev okVariant : Variant BrowserResult Unit where
  name := "ok"
  fields := .nothing
  make := fun _ => .ok

abbrev errorVariant : Variant BrowserResult String where
  name := "error"
  fields := Fields.required "message" .string
  make := .error

def variants : Variants BrowserResult where
  write
    | .openSystem url => openSystemVariant.write url
    | .navigate finalUrl title => navigateVariant.write (finalUrl, title)
    | .screenshot format data width height => screenshotVariant.write (format, data, width, height)
    | .getText text => getTextVariant.write text
    | .evaluate value => evaluateVariant.write value
    | .ok => okVariant.write ()
    | .error message => errorVariant.write message
  keys := ["url", "final_url", "title", "format", "data", "width", "height", "text", "value",
    "message"]
  written
    | .openSystem .. => openSystemVariant.written_within rfl _
    | .navigate .. => navigateVariant.written_within rfl _
    | .screenshot .. => screenshotVariant.written_within rfl _
    | .getText .. => getTextVariant.written_within rfl _
    | .evaluate .. => evaluateVariant.written_within rfl _
    | .ok => okVariant.written_within rfl _
    | .error .. => errorVariant.written_within rfl _
  cases := [openSystemVariant.case, navigateVariant.case, screenshotVariant.case,
    getTextVariant.case, evaluateVariant.case, okVariant.case, errorVariant.case]

def body : Body BrowserResult := variants.tagged "type"

instance : body.RoundTrips fun _ => True := by
  refine Variants.tagged_roundTrips rfl fun value => ?_
  cases value with
  | openSystem url => exact openSystemVariant.reread_iff variants url rfl rfl (by simp)
  | navigate finalUrl title =>
    exact navigateVariant.reread_iff variants (finalUrl, title) rfl rfl (by simp)
  | screenshot format data width height =>
    exact screenshotVariant.reread_iff variants (format, data, width, height) rfl rfl (by simp)
  | getText text => exact getTextVariant.reread_iff variants text rfl rfl (by simp)
  | evaluate value => exact evaluateVariant.reread_iff variants value rfl rfl (by simp)
  | ok => exact okVariant.reread_iff variants () rfl rfl (by simp)
  | error message => exact errorVariant.reread_iff variants message rfl rfl (by simp)

end BrowserResult

namespace CommandOutput

abbrev textVariant : Variant CommandOutput String where
  name := "text"
  fields := Fields.required "content" .string
  make := .text

abbrev jsonVariant : Variant CommandOutput Json where
  name := "json"
  fields := Fields.required "content" .json
  make := .json

abbrev binaryVariant : Variant CommandOutput (String × Nat × String) where
  name := "binary"
  fields :=
    (Fields.required "mime_type" .string).and <|
    (Fields.required "size" .nat).and <|
    Fields.required "storage_ref" .string
  make := fun (mimeType, size, storageRef) => .binary mimeType size storageRef

abbrev fileListVariant (wire : Wire) : Variant CommandOutput (List FileInfo) where
  name := "file_list"
  fields := Fields.required "files" (FileInfo.fields wire).codec.list
  make := .fileList

abbrev databaseVariant : Variant CommandOutput (List String × List (List Json) × Option Nat) where
  name := "database"
  fields :=
    (Fields.required "columns" Codec.string.list).and <|
    (Fields.required "rows" Codec.json.list.list).and <|
    Fields.optional "total_rows" .nat
  make := fun (columns, rows, totalRows) => .database columns rows totalRows

abbrev apiResponseVariant (wire : Wire) : Variant CommandOutput (Nat × HashMap String String ×
    Option Json) where
  name := "api_response"
  fields :=
    (Fields.required "status" .nat).and <|
    (Fields.required "headers" wire.strings).and <|
    Fields.optional "body" .json
  make := fun (status, headers, body) => .apiResponse status headers body

abbrev browserVariant : Variant CommandOutput BrowserResult where
  name := "browser"
  fields := Fields.required "result" BrowserResult.body.codec
  make := .browser

abbrev skillVariant : Variant CommandOutput (String × Json) where
  name := "skill"
  fields :=
    (Fields.required "skill_name" .string).and <|
    Fields.required "output" .json
  make := fun (skillName, output) => .skill skillName output

abbrev noneVariant : Variant CommandOutput Unit where
  name := "none"
  fields := .nothing
  make := fun _ => .none

def variants (wire : Wire) : Variants CommandOutput where
  write
    | .text content => textVariant.write content
    | .json content => jsonVariant.write content
    | .binary mimeType size storageRef => binaryVariant.write (mimeType, size, storageRef)
    | .fileList files => (fileListVariant wire).write files
    | .database columns rows totalRows => databaseVariant.write (columns, rows, totalRows)
    | .apiResponse status headers body => (apiResponseVariant wire).write (status, headers, body)
    | .browser result => browserVariant.write result
    | .skill skillName output => skillVariant.write (skillName, output)
    | .none => noneVariant.write ()
  keys := ["content", "mime_type", "size", "storage_ref", "files", "columns", "rows", "total_rows",
    "status", "headers", "body", "result", "skill_name", "output"]
  written
    | .text .. => textVariant.written_within rfl _
    | .json .. => jsonVariant.written_within rfl _
    | .binary .. => binaryVariant.written_within rfl _
    | .fileList .. => (fileListVariant wire).written_within rfl _
    | .database .. => databaseVariant.written_within rfl _
    | .apiResponse .. => (apiResponseVariant wire).written_within rfl _
    | .browser .. => browserVariant.written_within rfl _
    | .skill .. => skillVariant.written_within rfl _
    | .none => noneVariant.written_within rfl _
  cases := [textVariant.case, jsonVariant.case, binaryVariant.case, (fileListVariant wire).case,
    databaseVariant.case, (apiResponseVariant wire).case, browserVariant.case, skillVariant.case,
    noneVariant.case]

def body (wire : Wire) : Body CommandOutput := (variants wire).tagged "type"

/-- The body of an API response is not the value `null`. -/
def Portable : CommandOutput → Prop
  | .apiResponse _ _ body => body ≠ some .null
  | _ => True

instance (wire : Wire) : (body wire).RoundTrips Portable := by
  refine Variants.tagged_roundTrips rfl fun value => ?_
  cases value with
  | text content =>
    exact textVariant.reread_iff (variants wire) content rfl rfl (by simp [Portable])
  | json content =>
    exact jsonVariant.reread_iff (variants wire) content rfl rfl (by simp [Portable])
  | binary mimeType size storageRef =>
    exact binaryVariant.reread_iff (variants wire) (mimeType, size, storageRef) rfl rfl (by simp
      [Portable])
  | fileList files =>
    exact (fileListVariant wire).reread_iff (variants wire) files rfl rfl (by simp [Portable])
  | database columns rows totalRows =>
    exact databaseVariant.reread_iff (variants wire) (columns, rows, totalRows) rfl rfl (by simp
      [Portable])
  | apiResponse status headers body =>
    exact (apiResponseVariant wire).reread_iff (variants wire) (status, headers, body) rfl rfl
      (by simp [Portable])
  | browser result =>
    exact browserVariant.reread_iff (variants wire) result rfl rfl (by simp [Portable])
  | skill skillName output =>
    exact skillVariant.reread_iff (variants wire) (skillName, output) rfl rfl (by simp [Portable])
  | none => exact noneVariant.reread_iff (variants wire) () rfl rfl (by simp [Portable])

end CommandOutput

def CommandResult.fields (wire : Wire) : Fields CommandResult :=
  ((Fields.required "success" .bool).and <|
    (Fields.required "output" (CommandOutput.body wire).codec).and <|
    (Fields.optional "exit_code" .int).and <|
    (Fields.required "duration_ms" .nat).and <|
    (Fields.required "resources" (ResourceUsage.fields wire).codec).and <|
    (Fields.skipNone "error" ExecutionError.fields.codec).and <|
    (skipEmptyStrings "warnings").and <|
    wire.skipEmptyValues "metadata").as
  ⟨fun (success, output, exitCode, durationMs, resources, error, warnings, metadata) =>
      ⟨success, output, exitCode, durationMs, resources, error, warnings, metadata⟩,
    fun result => (result.success, result.output, result.exitCode, result.durationMs,
      result.resources, result.error, result.warnings, result.metadata),
    fun _ => rfl, fun _ => rfl⟩

/-- The output survives, the CPU share is finite, and the details of an error are not the value
`null`. -/
def CommandResult.Portable (result : CommandResult) : Prop :=
  result.output.Portable ∧ finite32 result.resources.cpuPercent = true ∧
    ∀ error, result.error = some error → error.details ≠ some .null

instance (wire : Wire) : (CommandResult.fields wire).RoundTrips CommandResult.Portable := by
  rw [CommandResult.fields]
  exact Body.RoundTrips.congr inferInstance fun _ => by simp [CommandResult.Portable]

end UHorse.Protocol
