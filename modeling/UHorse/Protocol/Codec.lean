import UHorse.Protocol.Message
import UHorse.Protocol.Serde

/-!
# The JSON form of protocol data

The codec of every record of the protocol, field by field as its serialisation
attributes say. Between the JSON value and the text the parser and printer are
taken as faithful; what they and the other libraries decide is collected in `Wire`:
the text of a time, the text of a floating-point number, and the order in which a
map iterates.

`durationSer` writes whole seconds. It and the floating-point numbers are, next to
`Some(null)`, what does not survive.
-/

namespace UHorse.Protocol

open UHorse.Lib Serde

/-- The exponent is not all ones. -/
def finite32 (bits : BitVec 32) : Bool := bits.extractLsb' 23 8 ≠ 255

def finite64 (bits : BitVec 64) : Bool := bits.extractLsb' 52 11 ≠ 2047

/-- How floating-point numbers are printed and parsed: finite ones come back, and the others
are printed as `null`, which is not a number. -/
structure FloatFormat {w : Nat} (finite : BitVec w → Bool) where
  write : BitVec w → Json
  read : Json → Option (BitVec w)
  read_write : ∀ bits, finite bits = true → read (write bits) = some bits
  write_other : ∀ bits, finite bits = false → write bits = .null
  read_null : read .null = none

/-- What encoding and decoding draw from libraries, and the id a message without one gets. -/
structure Wire where
  formatTime : DateTime → String
  parseTime : String → Option DateTime
  parse_format : ∀ time, parseTime (formatTime time) = some time
  float : FloatFormat finite32
  double : FloatFormat finite64
  stringOrder : HashMap String String → List (String × String)
  stringOrder_lists : ∀ entries : HashMap String String, entries.Lists (stringOrder entries)
  valueOrder : HashMap String Json → List (String × Json)
  valueOrder_lists : ∀ entries : HashMap String Json, entries.Lists (valueOrder entries)
  freshId : MessageId

def FloatFormat.codec {w : Nat} {finite : BitVec w → Bool} (format : FloatFormat finite) :
    Codec (BitVec w) := ⟨format.write, format.read⟩

instance {w : Nat} {finite : BitVec w → Bool} (format : FloatFormat finite) :
    format.codec.RoundTrips fun bits => finite bits = true := by
  refine ⟨fun bits => ?_⟩
  dsimp only [FloatFormat.codec]
  cases kind : finite bits with
  | true => exact iff_of_true (format.read_write bits kind) rfl
  | false =>
    rw [format.write_other bits kind, format.read_null]
    simp

/-- `duration_ser`. -/
def durationSer : Codec Duration where
  encode duration := Codec.nat.encode duration.secs
  decode value := (Codec.nat.decode value).map Duration.fromSecs

/-- A duration keeps its whole seconds. -/
instance : durationSer.RoundTrips fun duration => duration.Whole := by
  refine ⟨fun duration => ?_⟩
  obtain ⟨secs, nanos⟩ := duration
  dsimp only [durationSer]
  rw [Codec.eq_of_roundTrips Codec.nat, Option.map_some, Duration.fromSecs]
  simp [eq_comm]

namespace Wire

variable (wire : Wire)

def time : Codec DateTime where
  encode time := .string (wire.formatTime time)
  decode value := value.asStr.bind wire.parseTime

def strings : Codec (HashMap String String) := Codec.string.map wire.stringOrder

def values : Codec (HashMap String Json) := Codec.json.map wire.valueOrder

instance : wire.time.RoundTrips fun _ => True := Codec.roundTrips_of_eq wire.parse_format

instance : wire.time.Visible := ⟨fun _ => nofun⟩

instance : wire.strings.RoundTrips fun _ => True := Codec.map_roundTrips wire.stringOrder_lists _

instance : wire.values.RoundTrips fun _ => True := Codec.map_roundTrips wire.valueOrder_lists _

/-- `#[serde(default, skip_serializing_if = "HashMap::is_empty")]`. -/
def skipEmptyValues (key : String) : Fields (HashMap String Json) :=
  .skipEmpty key wire.values (fun entries => entries.keys = ∅) ∅

instance {key : String} : (wire.skipEmptyValues key).RoundTrips fun _ => True := by
  refine Fields.skip_roundTrips inferInstance ?_ trivial
  intro entries empty
  refine Finmap.ext_lookup fun key => ?_
  have absent : key ∉ entries := by
    rw [← Finmap.mem_keys, of_decide_eq_true empty]
    simp
  rw [Finmap.lookup_eq_none.mpr absent, Finmap.lookup_empty]

end Wire

/-- `#[serde(default, skip_serializing_if = "Vec::is_empty")]`. -/
def skipEmptyStrings (key : String) : Fields (List String) :=
  .skipEmpty key Codec.string.list List.isEmpty []

instance {key : String} : (skipEmptyStrings key).RoundTrips fun _ => True := by
  refine Body.RoundTrips.congr (Fields.skip_roundTrips inferInstance ?_ (by simp)) (by simp)
  intro items empty
  exact List.isEmpty_iff.mp empty

/-! ## Names -/

def NodeId.codec : Codec NodeId :=
  Codec.string.wrap ⟨NodeId.mk, NodeId.value, fun _ => rfl, fun _ => rfl⟩

def TaskId.codec : Codec TaskId :=
  Codec.string.wrap ⟨TaskId.mk, TaskId.value, fun _ => rfl, fun _ => rfl⟩

def UserId.codec : Codec UserId :=
  Codec.string.wrap ⟨UserId.mk, UserId.value, fun _ => rfl, fun _ => rfl⟩

def SessionId.codec : Codec SessionId :=
  Codec.string.wrap ⟨SessionId.mk, SessionId.value, fun _ => rfl, fun _ => rfl⟩

def MessageId.codec : Codec MessageId :=
  Codec.string.wrap ⟨MessageId.mk, MessageId.value, fun _ => rfl, fun _ => rfl⟩

instance : NodeId.codec.RoundTrips fun _ => True := by
  rw [NodeId.codec]
  infer_instance

instance : TaskId.codec.RoundTrips fun _ => True := by
  rw [TaskId.codec]
  infer_instance

instance : TaskId.codec.Visible := by
  rw [TaskId.codec]
  infer_instance

instance : UserId.codec.RoundTrips fun _ => True := by
  rw [UserId.codec]
  infer_instance

instance : SessionId.codec.RoundTrips fun _ => True := by
  rw [SessionId.codec]
  infer_instance

instance : MessageId.codec.RoundTrips fun _ => True := by
  rw [MessageId.codec]
  infer_instance

def Priority.name : Priority → String
  | .background => "background"
  | .low => "low"
  | .normal => "normal"
  | .high => "high"
  | .urgent => "urgent"
  | .critical => "critical"

def Priority.codec : Codec Priority :=
  .enumeration Priority.name [.background, .low, .normal, .high, .urgent, .critical]

instance : Priority.codec.RoundTrips fun _ => True :=
  Codec.enumeration_roundTrips fun priority => by cases priority <;> rfl

def CommandType.name : CommandType → String
  | .file => "file"
  | .shell => "shell"
  | .code => "code"
  | .database => "database"
  | .api => "api"
  | .browser => "browser"
  | .skill => "skill"

def CommandType.codec : Codec CommandType :=
  .enumeration CommandType.name [.file, .shell, .code, .database, .api, .browser, .skill]

instance : CommandType.codec.RoundTrips fun _ => True :=
  Codec.enumeration_roundTrips fun commandType => by cases commandType <;> rfl

def CodeLanguage.name : CodeLanguage → String
  | .python => "python"
  | .javaScript => "javascript"
  | .typeScript => "typescript"
  | .rust => "rust"
  | .go => "go"
  | .shell => "shell"
  | .sql => "sql"

def CodeLanguage.codec : Codec CodeLanguage :=
  .enumeration CodeLanguage.name [.python, .javaScript, .typeScript, .rust, .go, .shell, .sql]

instance : CodeLanguage.codec.RoundTrips fun _ => True :=
  Codec.enumeration_roundTrips fun language => by cases language <;> rfl

def DatabaseType.name : DatabaseType → String
  | .postgres => "postgres"
  | .mysql => "mysql"
  | .sqlite => "sqlite"
  | .mongodb => "mongodb"
  | .redis => "redis"

def DatabaseType.codec : Codec DatabaseType :=
  .enumeration DatabaseType.name [.postgres, .mysql, .sqlite, .mongodb, .redis]

instance : DatabaseType.codec.RoundTrips fun _ => True :=
  Codec.enumeration_roundTrips fun dbType => by cases dbType <;> rfl

def HttpMethod.name : HttpMethod → String
  | .get => "GET"
  | .post => "POST"
  | .put => "PUT"
  | .delete => "DELETE"
  | .patch => "PATCH"
  | .head => "HEAD"

def HttpMethod.codec : Codec HttpMethod :=
  .enumeration HttpMethod.name [.get, .post, .put, .delete, .patch, .head]

instance : HttpMethod.codec.RoundTrips fun _ => True :=
  Codec.enumeration_roundTrips fun method => by cases method <;> rfl

def ErrorSource.name : ErrorSource → String
  | .parser => "parser"
  | .permission => "permission"
  | .validation => "validation"
  | .executor => "executor"
  | .timeout => "timeout"
  | .resource => "resource"
  | .external => "external"
  | .internal => "internal"

def ErrorSource.codec : Codec ErrorSource :=
  .enumeration ErrorSource.name
    [.parser, .permission, .validation, .executor, .timeout, .resource, .external, .internal]

instance : ErrorSource.codec.RoundTrips fun _ => True :=
  Codec.enumeration_roundTrips fun source => by cases source <;> rfl

def ProtocolAction.name : ProtocolAction → String
  | .read => "read"
  | .write => "write"
  | .delete => "delete"
  | .execute => "execute"
  | .list => "list"
  | .admin => "admin"

def ProtocolAction.codec : Codec ProtocolAction :=
  .enumeration ProtocolAction.name [.read, .write, .delete, .execute, .list, .admin]

instance : ProtocolAction.codec.RoundTrips fun _ => True :=
  Codec.enumeration_roundTrips fun action => by cases action <;> rfl

def NotificationEventKind.name : NotificationEventKind → String
  | .test => "test"
  | .info => "info"
  | .warn => "warn"
  | .error => "error"

def NotificationEventKind.codec : Codec NotificationEventKind :=
  .enumeration NotificationEventKind.name [.test, .info, .warn, .error]

instance : NotificationEventKind.codec.RoundTrips fun _ => True :=
  Codec.enumeration_roundTrips fun kind => by cases kind <;> rfl

/-! ## Records -/

section Records

variable (wire : Wire)

def ShellCommand.fields : Fields ShellCommand :=
  ((Fields.required "command" .string).and <|
    (Fields.defaulted "args" Codec.string.list []).and <|
    (Fields.optional "cwd" .string).and <|
    (Fields.defaulted "env" wire.strings ∅).and <|
    (Fields.defaulted "timeout" durationSer (.fromSecs 60)).and <|
    Fields.defaulted "capture_stderr" .bool true).as
  ⟨fun (command, args, cwd, env, timeout, captureStderr) => ⟨command, args, cwd, env, timeout,
    captureStderr⟩,
    fun c => (c.command, c.args, c.cwd, c.env, c.timeout, c.captureStderr),
    fun _ => rfl, fun _ => rfl⟩

instance : (ShellCommand.fields wire).RoundTrips fun c => c.timeout.Whole := by
  rw [ShellCommand.fields]
  exact Body.RoundTrips.congr inferInstance fun _ => by simp

def CodeCommand.fields : Fields CodeCommand :=
  ((Fields.required "language" CodeLanguage.codec).and <|
    (Fields.required "code" .string).and <|
    (Fields.optional "entry_file" .string).and <|
    (Fields.required "dependencies" Codec.string.list).and <|
    (Fields.required "timeout" durationSer).and <|
    (Fields.required "env" wire.strings).and <|
    Fields.optional "workdir" .string).as
  ⟨fun (language, code, entryFile, dependencies, timeout, env, workdir) => ⟨language, code,
    entryFile, dependencies, timeout, env, workdir⟩,
    fun c => (c.language, c.code, c.entryFile, c.dependencies, c.timeout, c.env, c.workdir),
    fun _ => rfl, fun _ => rfl⟩

instance : (CodeCommand.fields wire).RoundTrips fun c => c.timeout.Whole := by
  rw [CodeCommand.fields]
  exact Body.RoundTrips.congr inferInstance fun _ => by simp

def DatabaseCommand.fields : Fields DatabaseCommand :=
  ((Fields.required "db_type" DatabaseType.codec).and <|
    (Fields.optional "connection_name" .string).and <|
    (Fields.optional "connection_string" .string).and <|
    (Fields.required "query" .string).and <|
    (Fields.required "params" Codec.json.list).and <|
    (Fields.required "timeout" durationSer).and <|
    Fields.optional "limit" .nat).as
  ⟨fun (dbType, connectionName, connectionString, query, params, timeout, limit) => ⟨dbType,
    connectionName, connectionString, query, params, timeout, limit⟩,
    fun c => (c.dbType, c.connectionName, c.connectionString, c.query, c.params, c.timeout,
      c.limit),
    fun _ => rfl, fun _ => rfl⟩

instance : DatabaseCommand.fields.RoundTrips fun c => c.timeout.Whole := by
  rw [DatabaseCommand.fields]
  exact Body.RoundTrips.congr inferInstance fun _ => by simp

def ApiCommand.fields : Fields ApiCommand :=
  ((Fields.required "method" HttpMethod.codec).and <|
    (Fields.required "url" .string).and <|
    (Fields.required "headers" wire.strings).and <|
    (Fields.required "query" wire.strings).and <|
    (Fields.optional "body" .json).and <|
    (Fields.required "timeout" durationSer).and <|
    Fields.required "verify_ssl" .bool).as
  ⟨fun (method, url, headers, query, body, timeout, verifySsl) => ⟨method, url, headers, query,
    body, timeout, verifySsl⟩,
    fun c => (c.method, c.url, c.headers, c.query, c.body, c.timeout, c.verifySsl),
    fun _ => rfl, fun _ => rfl⟩

instance : (ApiCommand.fields wire).RoundTrips
    fun c => c.body ≠ some .null ∧ c.timeout.Whole := by
  rw [ApiCommand.fields]
  exact Body.RoundTrips.congr inferInstance fun _ => by simp

def SkillCommand.fields : Fields SkillCommand :=
  ((Fields.required "skill_name" .string).and <|
    (Fields.optional "version" .string).and <|
    (Fields.required "input" .json).and <|
    (Fields.required "timeout" durationSer).and <|
    Fields.required "options" wire.values).as
  ⟨fun (skillName, version, input, timeout, options) => ⟨skillName, version, input, timeout,
    options⟩,
    fun c => (c.skillName, c.version, c.input, c.timeout, c.options),
    fun _ => rfl, fun _ => rfl⟩

instance : (SkillCommand.fields wire).RoundTrips fun c => c.timeout.Whole := by
  rw [SkillCommand.fields]
  exact Body.RoundTrips.congr inferInstance fun _ => by simp

def FileInfo.fields : Fields FileInfo :=
  ((Fields.required "path" .string).and <|
    (Fields.required "name" .string).and <|
    (Fields.required "is_dir" .bool).and <|
    (Fields.required "size" .nat).and <|
    (Fields.optional "modified" wire.time).and <|
    (Fields.optional "created" wire.time).and <|
    (Fields.optional "mode" .nat).and <|
    (Fields.optional "mime_type" .string).and <|
    wire.skipEmptyValues "extra").as
  ⟨fun (path, name, isDir, size, modified, created, mode, mimeType, extra) => ⟨path, name, isDir,
    size, modified, created, mode, mimeType, extra⟩,
    fun file => (file.path, file.name, file.isDir, file.size, file.modified, file.created,
      file.mode, file.mimeType, file.extra),
    fun _ => rfl, fun _ => rfl⟩

instance : (FileInfo.fields wire).RoundTrips fun _ => True := by
  rw [FileInfo.fields]
  exact Body.RoundTrips.congr inferInstance fun _ => by simp

def ResourceUsage.fields : Fields ResourceUsage :=
  ((Fields.required "cpu_percent" wire.float.codec).and <|
    (Fields.required "memory_mb" .nat).and <|
    (Fields.required "peak_memory_mb" .nat).and <|
    (Fields.required "disk_read_kb" .nat).and <|
    (Fields.required "disk_write_kb" .nat).and <|
    (Fields.required "network_sent_kb" .nat).and <|
    Fields.required "network_recv_kb" .nat).as
  ⟨fun (cpuPercent, memoryMb, peakMemoryMb, diskReadKb, diskWriteKb, networkSentKb, networkRecvKb)
    => ⟨cpuPercent, memoryMb, peakMemoryMb, diskReadKb, diskWriteKb, networkSentKb, networkRecvKb⟩,
    fun usage => (usage.cpuPercent, usage.memoryMb, usage.peakMemoryMb, usage.diskReadKb,
      usage.diskWriteKb, usage.networkSentKb, usage.networkRecvKb),
    fun _ => rfl, fun _ => rfl⟩

instance : (ResourceUsage.fields wire).RoundTrips
    fun usage => finite32 usage.cpuPercent = true := by
  rw [ResourceUsage.fields]
  exact Body.RoundTrips.congr inferInstance fun _ => by simp

def ExecutionError.fields : Fields ExecutionError :=
  ((Fields.required "code" .string).and <|
    (Fields.required "message" .string).and <|
    (Fields.skipNone "details" .json).and <|
    (Fields.required "source" ErrorSource.codec).and <|
    (Fields.defaulted "retryable" .bool false).and <|
    Fields.skipNone "retry_after_ms" .nat).as
  ⟨fun (code, message, details, source, retryable, retryAfterMs) => ⟨code, message, details,
    source, retryable, retryAfterMs⟩,
    fun error => (error.code, error.message, error.details, error.source, error.retryable,
      error.retryAfterMs),
    fun _ => rfl, fun _ => rfl⟩

instance : ExecutionError.fields.RoundTrips fun error => error.details ≠ some .null := by
  rw [ExecutionError.fields]
  exact Body.RoundTrips.congr inferInstance fun _ => by simp

def NodeCapabilities.fields : Fields NodeCapabilities :=
  ((Fields.required "supported_commands" CommandType.codec.list).and <|
    (Fields.required "tags" Codec.string.list).and <|
    (Fields.required "max_concurrent_tasks" .nat).and <|
    Fields.required "available_tools" Codec.string.list).as
  ⟨fun (supportedCommands, tags, maxConcurrentTasks, availableTools) => ⟨supportedCommands, tags,
    maxConcurrentTasks, availableTools⟩,
    fun offered => (offered.supportedCommands, offered.tags, offered.maxConcurrentTasks,
      offered.availableTools),
    fun _ => rfl, fun _ => rfl⟩

instance : NodeCapabilities.fields.RoundTrips fun _ => True := by
  rw [NodeCapabilities.fields]
  exact Body.RoundTrips.congr inferInstance fun _ => by simp

def WorkspaceInfo.fields : Fields WorkspaceInfo :=
  ((Fields.skipNone "workspace_id" .string).and <|
    (Fields.required "name" .string).and <|
    (Fields.required "path" .string).and <|
    (Fields.required "read_only" .bool).and <|
    (Fields.required "allowed_patterns" Codec.string.list).and <|
    Fields.required "denied_patterns" Codec.string.list).as
  ⟨fun (workspaceId, name, path, readOnly, allowedPatterns, deniedPatterns) => ⟨workspaceId, name,
    path, readOnly, allowedPatterns, deniedPatterns⟩,
    fun workspace => (workspace.workspaceId, workspace.name, workspace.path, workspace.readOnly,
      workspace.allowedPatterns, workspace.deniedPatterns),
    fun _ => rfl, fun _ => rfl⟩

instance : WorkspaceInfo.fields.RoundTrips fun _ => True := by
  rw [WorkspaceInfo.fields]
  exact Body.RoundTrips.congr inferInstance fun _ => by simp

def NodeStatus.fields : Fields NodeStatus :=
  ((Fields.required "node_id" NodeId.codec).and <|
    (Fields.required "online" .bool).and <|
    (Fields.required "current_tasks" .nat).and <|
    (Fields.required "max_tasks" .nat).and <|
    (Fields.required "cpu_percent" wire.float.codec).and <|
    (Fields.required "memory_mb" .nat).and <|
    (Fields.required "disk_gb" wire.double.codec).and <|
    (Fields.optional "network_latency_ms" .nat).and <|
    Fields.required "last_heartbeat" wire.time).as
  ⟨fun (nodeId, online, currentTasks, maxTasks, cpuPercent, memoryMb, diskGb, networkLatencyMs,
    lastHeartbeat) => ⟨nodeId, online, currentTasks, maxTasks, cpuPercent, memoryMb, diskGb,
    networkLatencyMs, lastHeartbeat⟩,
    fun status => (status.nodeId, status.online, status.currentTasks, status.maxTasks,
      status.cpuPercent, status.memoryMb, status.diskGb, status.networkLatencyMs,
      status.lastHeartbeat),
    fun _ => rfl, fun _ => rfl⟩

instance : (NodeStatus.fields wire).RoundTrips
    fun status => finite32 status.cpuPercent = true ∧ finite64 status.diskGb = true := by
  rw [NodeStatus.fields]
  exact Body.RoundTrips.congr inferInstance fun _ => by simp

def LoadInfo.fields : Fields LoadInfo :=
  ((Fields.required "cpu_usage" wire.float.codec).and <|
    (Fields.required "memory_usage" wire.float.codec).and <|
    (Fields.required "task_count" .nat).and <|
    Fields.optional "latency_ms" .nat).as
  ⟨fun (cpuUsage, memoryUsage, taskCount, latencyMs) => ⟨cpuUsage, memoryUsage, taskCount,
    latencyMs⟩,
    fun load => (load.cpuUsage, load.memoryUsage, load.taskCount, load.latencyMs),
    fun _ => rfl, fun _ => rfl⟩

instance : (LoadInfo.fields wire).RoundTrips
    fun load => finite32 load.cpuUsage = true ∧ finite32 load.memoryUsage = true := by
  rw [LoadInfo.fields]
  exact Body.RoundTrips.congr inferInstance fun _ => by simp

def TaskContext.fields : Fields TaskContext :=
  ((Fields.required "user_id" UserId.codec).and <|
    (Fields.required "session_id" SessionId.codec).and <|
    (Fields.required "channel" .string).and <|
    (Fields.skipNone "execution_workspace_id" .string).and <|
    (Fields.skipNone "collaboration_workspace_id" .string).and <|
    (Fields.optional "intent" .string).and <|
    (Fields.required "env" wire.strings).and <|
    Fields.required "created_at" wire.time).as
  ⟨fun (userId, sessionId, channel, executionWorkspaceId, collaborationWorkspaceId, intent, env,
    createdAt) => ⟨userId, sessionId, channel, executionWorkspaceId, collaborationWorkspaceId,
    intent, env, createdAt⟩,
    fun context => (context.userId, context.sessionId, context.channel,
      context.executionWorkspaceId, context.collaborationWorkspaceId, context.intent, context.env,
      context.createdAt),
    fun _ => rfl, fun _ => rfl⟩

instance : (TaskContext.fields wire).RoundTrips fun _ => True := by
  rw [TaskContext.fields]
  exact Body.RoundTrips.congr inferInstance fun _ => by simp

def ExecutionMetrics.fields : Fields ExecutionMetrics :=
  ((Fields.required "duration_ms" .nat).and <|
    (Fields.required "cpu_time_ms" .nat).and <|
    (Fields.required "peak_memory_mb" .nat).and <|
    (Fields.required "bytes_read" .nat).and <|
    (Fields.required "bytes_written" .nat).and <|
    Fields.required "network_requests" .nat).as
  ⟨fun (durationMs, cpuTimeMs, peakMemoryMb, bytesRead, bytesWritten, networkRequests) =>
    ⟨durationMs, cpuTimeMs, peakMemoryMb, bytesRead, bytesWritten, networkRequests⟩,
    fun metrics => (metrics.durationMs, metrics.cpuTimeMs, metrics.peakMemoryMb, metrics.bytesRead,
      metrics.bytesWritten, metrics.networkRequests),
    fun _ => rfl, fun _ => rfl⟩

instance : ExecutionMetrics.fields.RoundTrips fun _ => True := by
  rw [ExecutionMetrics.fields]
  exact Body.RoundTrips.congr inferInstance fun _ => by simp

def NotificationEvent.fields : Fields NotificationEvent :=
  ((Fields.required "event_id" .string).and <|
    (Fields.required "kind" NotificationEventKind.codec).and <|
    (Fields.required "title" .string).and <|
    (Fields.required "body" .string).and <|
    (Fields.required "details_included" .bool).and <|
    (Fields.required "timestamp" wire.time).and <|
    Fields.skipNone "dedupe_key" .string).as
  ⟨fun (eventId, kind, title, body, detailsIncluded, timestamp, dedupeKey) => ⟨eventId, kind,
    title, body, detailsIncluded, timestamp, dedupeKey⟩,
    fun event => (event.eventId, event.kind, event.title, event.body, event.detailsIncluded,
      event.timestamp, event.dedupeKey),
    fun _ => rfl, fun _ => rfl⟩

instance : (NotificationEvent.fields wire).RoundTrips fun _ => True := by
  rw [NotificationEvent.fields]
  exact Body.RoundTrips.congr inferInstance fun _ => by simp

/-- `NodeError`. -/
def NodeErrorReport.fields : Fields NodeErrorReport :=
  ((Fields.required "code" .string).and <|
    (Fields.required "message" .string).and <|
    (Fields.optional "details" .json).and <|
    (Fields.defaulted "retryable" .bool false).and <|
    Fields.skipNone "stack_trace" .string).as
  ⟨fun (code, message, details, retryable, stackTrace) => ⟨code, message, details, retryable,
    stackTrace⟩,
    fun error => (error.code, error.message, error.details, error.retryable, error.stackTrace),
    fun _ => rfl, fun _ => rfl⟩

instance : NodeErrorReport.fields.RoundTrips fun error => error.details ≠ some .null := by
  rw [NodeErrorReport.fields]
  exact Body.RoundTrips.congr inferInstance fun _ => by simp

end Records

end UHorse.Protocol
