import UHorse.Lib.HashMap

/-!
# Identifiers, commands and results of the Hub-Node protocol

The data both sides exchange, with the field names of the protocol crate.
Times are `DateTime` values counted in nanoseconds since the epoch, so that
adding a duration in seconds is ordinary integer arithmetic. Floating-point
fields are carried as their bit patterns: no modelled function computes with
them.
-/

namespace UHorse.Protocol

open UHorse.Lib

/-- `chrono::DateTime<Utc>`, in nanoseconds since the epoch. -/
abbrev DateTime := Int

/-- `chrono::Duration::seconds`. -/
def seconds (n : Nat) : Int := (n : Int) * 1000000000

structure NodeId where
  value : String
deriving DecidableEq, Repr

structure TaskId where
  value : String
deriving DecidableEq, Repr

structure UserId where
  value : String
deriving DecidableEq, Repr

structure SessionId where
  value : String
deriving DecidableEq, Repr

structure MessageId where
  value : String
deriving DecidableEq, Repr

/-- Task priorities, lowest first. -/
inductive Priority
  | background
  | low
  | normal
  | high
  | urgent
  | critical
deriving DecidableEq, Repr

inductive TaskStatus
  | created
  | queued
  | assigned
  | running
  | completed
  | failed
  | cancelled
  | timeout
deriving DecidableEq, Repr

inductive CommandType
  | file
  | shell
  | code
  | database
  | api
  | browser
  | skill
deriving DecidableEq, Repr

/-- `serde_json::Value`, with numbers kept as their text. -/
inductive Json
  | null
  | bool (value : Bool)
  | number (text : String)
  | string (value : String)
  | array (items : List Json)
  | object (fields : List (String × Json))

namespace Json

mutual

/-- Equality of values; the fields of an object are kept in key order. -/
def same : Json → Json → Bool
  | .null, .null => true
  | .bool a, .bool b => a = b
  | .number a, .number b => a = b
  | .string a, .string b => a = b
  | .array a, .array b => sameItems a b
  | .object a, .object b => sameFields a b
  | _, _ => false

def sameItems : List Json → List Json → Bool
  | [], [] => true
  | a :: as, b :: bs => same a b && sameItems as bs
  | _, _ => false

def sameFields : List (String × Json) → List (String × Json) → Bool
  | [], [] => true
  | (key, a) :: as, (key', b) :: bs => key = key' && same a b && sameFields as bs
  | _, _ => false

end

mutual

theorem same_iff : ∀ a b, same a b = true ↔ a = b
  | .null, b => by cases b <;> simp [same]
  | .bool _, b => by cases b <;> simp [same]
  | .number _, b => by cases b <;> simp [same]
  | .string _, b => by cases b <;> simp [same]
  | .array items, b => by cases b <;> simp [same, sameItems_iff items]
  | .object fields, b => by cases b <;> simp [same, sameFields_iff fields]

theorem sameItems_iff : ∀ as bs, sameItems as bs = true ↔ as = bs
  | [], bs => by cases bs <;> simp [sameItems]
  | a :: as, bs => by cases bs <;> simp [sameItems, same_iff a, sameItems_iff as]

theorem sameFields_iff : ∀ as bs, sameFields as bs = true ↔ as = bs
  | [], bs => by cases bs <;> simp [sameFields]
  | (key, a) :: as, bs => by
      cases bs with
      | nil => simp [sameFields]
      | cons b bs =>
        obtain ⟨key', b⟩ := b
        simp [sameFields, same_iff a, sameFields_iff as]

end

instance : DecidableEq Json := fun a b => decidable_of_iff (same a b = true) (same_iff a b)

/-- `Value::get` with a key. -/
def get (value : Json) (key : String) : Option Json :=
  match value with
  | .object fields => fields.lookup key
  | _ => none

def asStr : Json → Option String
  | .string value => some value
  | _ => none

end Json

/-- `std::time::Duration`: whole seconds and nanoseconds below one second. -/
structure Duration where
  secs : Nat
  nanos : Fin 1000000000
deriving DecidableEq

def Duration.fromSecs (secs : Nat) : Duration := ⟨secs, 0⟩

/-- A whole number of seconds. -/
abbrev Duration.Whole (duration : Duration) : Prop := duration.nanos = 0

inductive FileCommand
  | read (path : String) (limit offset : Option Nat)
  | write (path content : String) (overwrite : Bool)
  | append (path content : String)
  | delete (path : String) (recursive : Bool)
  | list (path : String) (recursive : Bool) (pattern : Option String)
  | search (pattern path : String) (recursive : Bool) (contentPattern : Option String)
  | copy (source target : String) (overwrite : Bool)
  | move (source target : String) (overwrite : Bool)
  | info (path : String)
  | createDir (path : String) (recursive : Bool)
  | exists (path : String)

/-- The path a file command is about; of a copy or a move it is the source. -/
def FileCommand.targetPath : FileCommand → String
  | .read path _ _ => path
  | .write path _ _ => path
  | .append path _ => path
  | .delete path _ => path
  | .list path _ _ => path
  | .search _ path _ _ => path
  | .copy source _ _ => source
  | .move source _ _ => source
  | .info path => path
  | .createDir path _ => path
  | .exists path => path

structure ShellCommand where
  command : String
  args : List String
  cwd : Option String
  env : HashMap String String
  timeout : Duration
  captureStderr : Bool

inductive CodeLanguage
  | python
  | javaScript
  | typeScript
  | rust
  | go
  | shell
  | sql
deriving DecidableEq, Repr

structure CodeCommand where
  language : CodeLanguage
  code : String
  entryFile : Option String
  dependencies : List String
  timeout : Duration
  env : HashMap String String
  workdir : Option String

inductive DatabaseType
  | postgres
  | mysql
  | sqlite
  | mongodb
  | redis
deriving DecidableEq, Repr

structure DatabaseCommand where
  dbType : DatabaseType
  connectionName : Option String
  connectionString : Option String
  query : String
  params : List Json
  timeout : Duration
  limit : Option Nat

inductive HttpMethod
  | get
  | post
  | put
  | delete
  | patch
  | head
deriving DecidableEq, Repr

structure ApiCommand where
  method : HttpMethod
  url : String
  headers : HashMap String String
  query : HashMap String String
  body : Option Json
  timeout : Duration
  verifySsl : Bool

inductive BrowserCommand
  | openSystem (url : String)
  | navigate (url : String)
  | screenshot (selector : Option String) (fullPage : Bool)
  | click (selector : String)
  | type (selector text : String)
  | waitFor (selector : String) (timeoutSecs : Nat)
  | getText (selector : String)
  | evaluate (script : String)
  | close

structure SkillCommand where
  skillName : String
  version : Option String
  input : Json
  timeout : Duration
  options : HashMap String Json

inductive Command
  | file (command : FileCommand)
  | shell (command : ShellCommand)
  | code (command : CodeCommand)
  | database (command : DatabaseCommand)
  | api (command : ApiCommand)
  | browser (command : BrowserCommand)
  | skill (command : SkillCommand)

def Command.commandType : Command → CommandType
  | .file _ => .file
  | .shell _ => .shell
  | .code _ => .code
  | .database _ => .database
  | .api _ => .api
  | .browser _ => .browser
  | .skill _ => .skill

inductive ErrorSource
  | parser
  | permission
  | validation
  | executor
  | timeout
  | resource
  | external
  | internal
deriving DecidableEq, Repr

structure ExecutionError where
  code : String
  message : String
  details : Option Json
  source : ErrorSource
  retryable : Bool
  retryAfterMs : Option Nat

namespace ExecutionError

def new (code message : String) (source : ErrorSource) : ExecutionError where
  code := code
  message := message
  details := none
  source := source
  retryable := false
  retryAfterMs := none

def withRetryable (error : ExecutionError) (retryAfterMs : Nat) : ExecutionError :=
  { error with retryable := true, retryAfterMs := some retryAfterMs }

def permissionDenied (message : String) : ExecutionError :=
  new "PERMISSION_DENIED" message .permission

def timeout (message : String) : ExecutionError :=
  (new "TIMEOUT" message .timeout).withRetryable 1000

def executionFailed (message : String) : ExecutionError :=
  new "EXECUTION_FAILED" message .executor

def validationFailed (message : String) : ExecutionError :=
  new "VALIDATION_FAILED" message .validation

end ExecutionError

structure FileInfo where
  path : String
  name : String
  isDir : Bool
  size : Nat
  modified : Option DateTime
  created : Option DateTime
  mode : Option Nat
  mimeType : Option String
  extra : HashMap String Json

inductive BrowserResult
  | openSystem (url : String)
  | navigate (finalUrl : String) (title : Option String)
  | screenshot (format data : String) (width height : Nat)
  | getText (text : String)
  | evaluate (value : Json)
  | ok
  | error (message : String)

inductive CommandOutput
  | text (content : String)
  | json (content : Json)
  | binary (mimeType : String) (size : Nat) (storageRef : String)
  | fileList (files : List FileInfo)
  | database (columns : List String) (rows : List (List Json)) (totalRows : Option Nat)
  | apiResponse (status : Nat) (headers : HashMap String String) (body : Option Json)
  | browser (result : BrowserResult)
  | skill (skillName : String) (output : Json)
  | none

/-- Resource usage; the CPU share is the bit pattern of an `f32`. -/
structure ResourceUsage where
  cpuPercent : BitVec 32
  memoryMb : Nat
  peakMemoryMb : Nat
  diskReadKb : Nat
  diskWriteKb : Nat
  networkSentKb : Nat
  networkRecvKb : Nat

def ResourceUsage.default : ResourceUsage := ⟨0, 0, 0, 0, 0, 0, 0⟩

structure CommandResult where
  success : Bool
  output : CommandOutput
  exitCode : Option Int
  durationMs : Nat
  resources : ResourceUsage
  error : Option ExecutionError
  warnings : List String
  metadata : HashMap String Json

/-- `CommandResult::success`; the field of that name is the flag it sets. -/
def CommandResult.succeeded (output : CommandOutput) : CommandResult where
  success := true
  output := output
  exitCode := some 0
  durationMs := 0
  resources := .default
  error := none
  warnings := []
  metadata := ∅

def CommandResult.failure (error : ExecutionError) : CommandResult where
  success := false
  output := .none
  exitCode := some 1
  durationMs := 0
  resources := .default
  error := some error
  warnings := []
  metadata := ∅

def CommandResult.withDuration (result : CommandResult) (ms : Nat) : CommandResult :=
  { result with durationMs := ms }

structure NodeCapabilities where
  supportedCommands : List CommandType
  tags : List String
  maxConcurrentTasks : Nat
  availableTools : List String
deriving DecidableEq

namespace NodeCapabilities

def default : NodeCapabilities where
  supportedCommands := [.file, .shell, .code]
  tags := ["default"]
  maxConcurrentTasks := 5
  availableTools := []

/-- Whether a node offers what a task requires. Tags are not compared here. -/
def meets (offered required : NodeCapabilities) : Bool :=
  if offered.maxConcurrentTasks < required.maxConcurrentTasks then false
  else if required.supportedCommands.any (fun c => !offered.supportedCommands.contains c) then false
  else if required.availableTools.any (fun t => !offered.availableTools.contains t) then false
  else true

end NodeCapabilities

structure WorkspaceInfo where
  workspaceId : Option String
  name : String
  path : String
  readOnly : Bool
  allowedPatterns : List String
  deniedPatterns : List String
deriving DecidableEq

/-- Load figures of a heartbeat; the two shares are bit patterns of `f32`. -/
structure LoadInfo where
  cpuUsage : BitVec 32
  memoryUsage : BitVec 32
  taskCount : Nat
  latencyMs : Option Nat
deriving DecidableEq

def LoadInfo.default : LoadInfo := ⟨0, 0, 0, none⟩

structure NodeStatus where
  nodeId : NodeId
  online : Bool
  currentTasks : Nat
  maxTasks : Nat
  cpuPercent : BitVec 32
  memoryMb : Nat
  diskGb : BitVec 64
  networkLatencyMs : Option Nat
  lastHeartbeat : DateTime

structure TaskContext where
  userId : UserId
  sessionId : SessionId
  channel : String
  executionWorkspaceId : Option String
  collaborationWorkspaceId : Option String
  intent : Option String
  env : HashMap String String
  createdAt : DateTime

/-- `TaskContext::new`, at the time `now`. -/
def TaskContext.new (userId : UserId) (sessionId : SessionId) (channel : String)
    (now : DateTime) : TaskContext where
  userId := userId
  sessionId := sessionId
  channel := channel
  executionWorkspaceId := none
  collaborationWorkspaceId := none
  intent := none
  env := ∅
  createdAt := now

structure ExecutionMetrics where
  durationMs : Nat
  cpuTimeMs : Nat
  peakMemoryMb : Nat
  bytesRead : Nat
  bytesWritten : Nat
  networkRequests : Nat

def ExecutionMetrics.ofDuration (durationMs : Nat) : ExecutionMetrics :=
  ⟨durationMs, 0, 0, 0, 0, 0⟩

end UHorse.Protocol
