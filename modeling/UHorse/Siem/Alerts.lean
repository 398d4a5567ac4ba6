import UHorse.Lib.System
import UHorse.Lib.HashMap
import UHorse.Siem.Export

/-!
# Security alerts

Rules are matched against audit events, and for each rule the timestamps of the events that matched
it are kept under its id. A call drops the timestamps behind the window and returns an alert if
those that are left reach the threshold. The timestamps stay when the rule is removed or replaced,
those in the future count as well, and every alert says that its count is one.

A call reads the clock for each rule; it takes the rules in an order that is not specified.
-/

namespace UHorse.Siem

open UHorse.Lib UHorse.Protocol

inductive AlertSeverity
  | low
  | medium
  | high
  | critical

inductive AlertCondition
  | always
  | resultEquals (result : String)
  | actorEquals (actor : String)
  | resourceMatches (pattern : String)
  | actionEquals (action : String)
  | custom (expression : String)
  | and (conditions : List AlertCondition)
  | or (conditions : List AlertCondition)
  | not (condition : AlertCondition)

namespace AlertCondition

mutual

def evaluate (event : AuditEvent) : AlertCondition → Bool
  | .always => true
  | .resultEquals result => event.result = result
  | .actorEquals actor => event.actor = actor
  | .resourceMatches pattern => decide (pattern.toList <:+: event.resource.toList)
  | .actionEquals action => event.action = action
  | .custom _ => true
  | .and conditions => evaluateAll event conditions
  | .or conditions => evaluateAny event conditions
  | .not condition => !evaluate event condition

/-- `conditions.iter().all`. -/
def evaluateAll (event : AuditEvent) : List AlertCondition → Bool
  | [] => true
  | condition :: rest => evaluate event condition && evaluateAll event rest

/-- `conditions.iter().any`. -/
def evaluateAny (event : AuditEvent) : List AlertCondition → Bool
  | [] => false
  | condition :: rest => evaluate event condition || evaluateAny event rest

end

end AlertCondition

structure AlertRule where
  id : String
  name : String
  severity : AlertSeverity
  eventTypes : List String
  condition : AlertCondition
  threshold : UInt32
  windowSecs : UInt64
  enabled : Bool

namespace AlertRule

def new (id name : String) (severity : AlertSeverity) : AlertRule where
  id
  name
  severity
  eventTypes := []
  condition := .always
  threshold := 1
  windowSecs := 300
  enabled := true

def matchesEvent (rule : AlertRule) (event : AuditEvent) : Bool :=
  if !rule.enabled then false
  else if !rule.eventTypes.isEmpty && !rule.eventTypes.contains event.eventType then false
  else rule.condition.evaluate event

end AlertRule

inductive AlertStatus
  | open_
  | acknowledged
  | resolved
  | ignored

structure Alert where
  id : String
  ruleId : String
  ruleName : String
  severity : AlertSeverity
  triggeredAt : DateTime
  eventCount : UInt32
  events : List AuditEvent
  status : AlertStatus

structure AlertManager where
  rules : HashMap String AlertRule
  alerts : HashMap String Alert
  eventCounters : HashMap String (List DateTime)

/-- `DateTime::<Utc>::MIN_UTC` and `MAX_UTC`. -/
structure TimeRange where
  earliest : DateTime
  latest : DateTime

/-- `now - Duration::seconds(window_secs as i64)`, where neither the duration nor the difference
overflows. -/
def windowStart (range : TimeRange) (now : DateTime) (windowSecs : UInt64) : Option DateTime :=
  let secs := windowSecs.toInt64.toInt
  if secs.natAbs ≤ 9223372036854775 then
    let start := now - secs * 1000000000
    if range.earliest ≤ start ∧ start ≤ range.latest then some start else none
  else none

/-- What a call of `process_event` reads from outside, for each rule. -/
structure Moment where
  /-- The order in which the rules are iterated. -/
  order : List (String × AlertRule)
  now : String → DateTime
  alertId : String → String
  triggeredAt : String → DateTime

namespace AlertManager

def new : AlertManager := ⟨∅, ∅, ∅⟩

def addRule (manager : AlertManager) (rule : AlertRule) : AlertManager :=
  { manager with rules := manager.rules.insert rule.id rule }

def removeRule (manager : AlertManager) (ruleId : String) : AlertManager :=
  { manager with rules := manager.rules.erase ruleId }

/-- The timestamps kept for a rule. -/
def counter (manager : AlertManager) (ruleId : String) : List DateTime :=
  (manager.eventCounters.lookup ruleId).getD []

def setCounter (manager : AlertManager) (ruleId : String) (counter : List DateTime) :
    AlertManager :=
  { manager with eventCounters := manager.eventCounters.insert ruleId counter }

/-- Keep a new alert. -/
def save (manager : AlertManager) (alert : Alert) : AlertManager :=
  { manager with alerts := manager.alerts.insert alert.id alert }

/-- `none` is a panic; the timestamp has been added by then. -/
def updateCounter (range : TimeRange) (manager : AlertManager) (ruleId : String)
    (timestamp : DateTime) (windowSecs : UInt64) (now : DateTime) : AlertManager × Option Bool :=
  let counter := manager.counter ruleId ++ [timestamp]
  match windowStart range now windowSecs with
  | none => (manager.setCounter ruleId counter, none)
  | some start => (manager.setCounter ruleId (counter.filter (start < ·)), some true)

def checkThreshold (manager : AlertManager) (ruleId : String) (threshold : UInt32) : Bool :=
  match manager.eventCounters.lookup ruleId with
  | some counter => threshold.toNat ≤ counter.length
  | none => false

def alertFor (event : AuditEvent) (moment : Moment) (ruleId : String) (rule : AlertRule) :
    Alert where
  id := moment.alertId ruleId
  ruleId
  ruleName := rule.name
  severity := rule.severity
  triggeredAt := moment.triggeredAt ruleId
  eventCount := 1
  events := [event]
  status := .open_

/-- The loop of `process_event`. -/
def processRules (range : TimeRange) (event : AuditEvent) (moment : Moment) :
    List (String × AlertRule) → AlertManager → AlertManager × Option (List Alert)
  | [], manager => (manager, some [])
  | (ruleId, rule) :: rest, manager =>
    if !rule.matchesEvent event then processRules range event moment rest manager
    else
      match manager.updateCounter range ruleId event.timestamp rule.windowSecs
        (moment.now ruleId) with
      | (manager, none) => (manager, none)
      | (manager, some shouldAlert) =>
        if shouldAlert && manager.checkThreshold ruleId rule.threshold then
          let alert := alertFor event moment ruleId rule
          let behind := processRules range event moment rest (manager.save alert)
          (behind.1, behind.2.map (alert :: ·))
        else processRules range event moment rest manager

def processEvent (range : TimeRange) (manager : AlertManager) (event : AuditEvent)
    (moment : Moment) : AlertManager × Option (List Alert) :=
  manager.processRules range event moment moment.order

end AlertManager

/-! ## One call -/

namespace AlertManager

variable {range : TimeRange} {event : AuditEvent} {moment : Moment}
variable {manager : AlertManager} {order rest : List (String × AlertRule)}
variable {ruleId : String} {rule : AlertRule}

/-- The timestamps of a rule that a call leaves: those after the start of the window. -/
def recent (manager : AlertManager) (ruleId : String) (event : AuditEvent) (start : DateTime) :
    List DateTime :=
  (manager.counter ruleId ++ [event.timestamp]).filter (start < ·)

theorem counter_setCounter (manager : AlertManager) (ruleId other : String)
    (times : List DateTime) : (manager.setCounter ruleId times).counter other =
      if other = ruleId then times else manager.counter other := by
  rw [counter, setCounter, HashMap.lookup_insert_ite]
  split <;> rfl

theorem checkThreshold_setCounter (manager : AlertManager) (ruleId : String)
    (times : List DateTime) (threshold : UInt32) :
    (manager.setCounter ruleId times).checkThreshold ruleId threshold =
      decide (threshold.toNat ≤ times.length) := by
  rw [checkThreshold, setCounter, Finmap.lookup_insert]

/-- What the loop does with a rule that does not match. -/
theorem processRules_unmatched (unmatched : rule.matchesEvent event = false) :
    manager.processRules range event moment ((ruleId, rule) :: rest) =
      manager.processRules range event moment rest := by
  rw [processRules, unmatched]
  rfl

/-- A rule that matches and has no window is the end of the call. -/
theorem processRules_panic (matched : rule.matchesEvent event = true)
    (overflow : windowStart range (moment.now ruleId) rule.windowSecs = none) :
    manager.processRules range event moment ((ruleId, rule) :: rest) =
      (manager.setCounter ruleId (manager.counter ruleId ++ [event.timestamp]), none) := by
  rw [processRules, matched]
  simp only [Bool.not_true, Bool.false_eq_true, if_false]
  rw [updateCounter, overflow]

/-- What the loop does with a rule that matches: its timestamps are recent, and there is an alert
first if they reach the threshold. -/
theorem exists_processRules_matched (manager : AlertManager)
    (rest : List (String × AlertRule)) (matched : rule.matchesEvent event = true) {start : DateTime}
    (starts : windowStart range (moment.now ruleId) rule.windowSecs = some start) :
    ∃ next : AlertManager, next.rules = manager.rules ∧
      (∀ other, next.counter other =
        if other = ruleId then manager.recent ruleId event start else manager.counter other) ∧
      (manager.processRules range event moment ((ruleId, rule) :: rest)).1 =
        (next.processRules range event moment rest).1 ∧
      (manager.processRules range event moment ((ruleId, rule) :: rest)).2 =
        (next.processRules range event moment rest).2.map fun alerts =>
          if rule.threshold.toNat ≤ (manager.recent ruleId event start).length then
            alertFor event moment ruleId rule :: alerts
          else alerts := by
  rw [processRules, matched]
  simp only [Bool.not_true, Bool.false_eq_true, if_false]
  rw [updateCounter, starts]
  simp only [Bool.true_and]
  rw [← recent, checkThreshold_setCounter]
  by_cases enough : rule.threshold.toNat ≤ (manager.recent ruleId event start).length
  · simp only [decide_eq_true enough, if_true]
    exact ⟨(manager.setCounter ruleId (manager.recent ruleId event start)).save
      (alertFor event moment ruleId rule), rfl,
      fun other => counter_setCounter manager ruleId other _, rfl, by simp [enough]⟩
  · simp only [decide_eq_false enough, Bool.false_eq_true, if_false]
    exact ⟨manager.setCounter ruleId (manager.recent ruleId event start), rfl,
      fun other => counter_setCounter manager ruleId other _, rfl, by simp [enough]⟩

/-- What a call does to the rules of an order that it goes through without a panic. -/
structure Processed (range : TimeRange) (manager : AlertManager) (event : AuditEvent)
    (moment : Moment) (order : List (String × AlertRule)) (next : AlertManager)
    (alerts : List Alert) : Prop where
  fires : ∀ ruleId rule, (ruleId, rule) ∈ order →
    ((∃ alert ∈ alerts, alert.ruleId = ruleId) ↔ rule.matchesEvent event = true ∧
      ∃ start, windowStart range (moment.now ruleId) rule.windowSecs = some start ∧
        rule.threshold.toNat ≤ (manager.recent ruleId event start).length)
  fromRules : (alerts.map Alert.ruleId).Sublist (order.map Prod.fst)
  counts : ∀ alert ∈ alerts, alert.eventCount = 1
  counter : ∀ ruleId rule, (ruleId, rule) ∈ order → next.counter ruleId =
    if rule.matchesEvent event then
      (windowStart range (moment.now ruleId) rule.windowSecs).elim [] (manager.recent ruleId event)
    else manager.counter ruleId
  others : ∀ ruleId ∉ order.map Prod.fst, next.counter ruleId = manager.counter ruleId

theorem processRules_rules (range : TimeRange) (event : AuditEvent) (moment : Moment)
    (order : List (String × AlertRule)) (manager : AlertManager) :
    (manager.processRules range event moment order).1.rules = manager.rules := by
  induction order generalizing manager with
  | nil => rfl
  | cons entry rest ih =>
    obtain ⟨ruleId, rule⟩ := entry
    cases matched : rule.matchesEvent event with
    | false => rw [processRules_unmatched matched, ih]
    | true =>
      cases starts : windowStart range (moment.now ruleId) rule.windowSecs with
      | none =>
        rw [processRules_panic matched starts]
        rfl
      | some start =>
        obtain ⟨next, rules, -, same, -⟩ := exists_processRules_matched manager rest
          matched starts
        rw [same, ih, rules]

theorem processRules_overflow (manager : AlertManager) (overflow : ∃ entry ∈ order,
    entry.2.matchesEvent event = true ∧
      windowStart range (moment.now entry.1) entry.2.windowSecs = none) :
    (manager.processRules range event moment order).2 = none := by
  induction order generalizing manager with
  | nil =>
    obtain ⟨entry, member, -⟩ := overflow
    exact absurd member List.not_mem_nil
  | cons first rest ih =>
    obtain ⟨ruleId, rule⟩ := first
    obtain ⟨entry, member, matches_, none⟩ := overflow
    rcases List.mem_cons.mp member with rfl | later
    · rw [processRules_panic matches_ none]
    · cases matched : rule.matchesEvent event with
      | false =>
        rw [processRules_unmatched matched]
        exact ih manager ⟨entry, later, matches_, none⟩
      | true =>
        cases starts : windowStart range (moment.now ruleId) rule.windowSecs with
        | none => rw [processRules_panic matched starts]
        | some start =>
          obtain ⟨next, -, -, -, alerts⟩ := exists_processRules_matched manager
            rest matched starts
          rw [alerts, ih next ⟨entry, later, matches_, none⟩, Option.map_none]

namespace Processed

variable {next middle : AlertManager} {alerts : List Alert}

theorem ruleId_mem (processed : Processed range manager event moment order next alerts)
    {alert : Alert} (member : alert ∈ alerts) : alert.ruleId ∈ order.map Prod.fst :=
  processed.fromRules.subset (List.mem_map_of_mem member)

theorem skip (processed : Processed range manager event moment rest next alerts)
    (fresh : ruleId ∉ rest.map Prod.fst) (unmatched : rule.matchesEvent event = false) :
    Processed range manager event moment ((ruleId, rule) :: rest) next alerts where
  fires other otherRule member := by
    rcases List.mem_cons.mp member with same | later
    · cases same
      refine iff_of_false ?_ fun matched => ?_
      · rintro ⟨alert, inside, rfl⟩
        exact fresh (processed.ruleId_mem inside)
      · rw [unmatched] at matched
        exact Bool.false_ne_true matched.1
    · exact processed.fires other otherRule later
  fromRules := processed.fromRules.cons ruleId
  counts := processed.counts
  counter other otherRule member := by
    rcases List.mem_cons.mp member with same | later
    · cases same
      rw [unmatched]
      exact processed.others ruleId fresh
    · exact processed.counter other otherRule later
  others other outside :=
    processed.others other fun inside => outside (List.mem_cons_of_mem ruleId inside)

theorem take (processed : Processed range middle event moment rest next alerts)
    (nodup : (((ruleId, rule) :: rest).map Prod.fst).Nodup)
    (matched : rule.matchesEvent event = true) {start : DateTime}
    (starts : windowStart range (moment.now ruleId) rule.windowSecs = some start)
    (counters : ∀ other, middle.counter other =
      if other = ruleId then manager.recent ruleId event start else manager.counter other) :
    Processed range manager event moment ((ruleId, rule) :: rest) next
      (if rule.threshold.toNat ≤ (manager.recent ruleId event start).length then
        alertFor event moment ruleId rule :: alerts
      else alerts) := by
  obtain ⟨fresh, -⟩ := List.nodup_cons.mp nodup
  have apart : ∀ other ∈ rest.map Prod.fst, other ≠ ruleId := by
    rintro other member rfl
    exact fresh member
  have same : ∀ other ≠ ruleId, middle.counter other = manager.counter other := by
    intro other different
    rw [counters, if_neg different]
  have recents : ∀ other ≠ ruleId, middle.recent other event = manager.recent other event := by
    intro other different
    funext edge
    rw [recent, same other different, recent]
  have here : next.counter ruleId = manager.recent ruleId event start := by
    rw [processed.others ruleId fresh, counters, if_pos rfl]
  have silent : ¬ ∃ alert ∈ alerts, alert.ruleId = ruleId := by
    rintro ⟨alert, inside, rfl⟩
    exact fresh (processed.ruleId_mem inside)
  have listed : ∀ other, (∃ alert ∈ (if rule.threshold.toNat ≤
      (manager.recent ruleId event start).length then alertFor event moment ruleId rule :: alerts
      else alerts), alert.ruleId = other) ↔
        (other = ruleId ∧ rule.threshold.toNat ≤ (manager.recent ruleId event start).length) ∨
          ∃ alert ∈ alerts, alert.ruleId = other := by
    intro other
    split
    · next enough => simp [alertFor, enough, eq_comm]
    · next few => simp [few]
  refine ⟨fun other otherRule member => ?_, ?_, ?_, fun other otherRule member => ?_,
    fun other outside => ?_⟩
  · rw [listed]
    rcases List.mem_cons.mp member with head | later
    · cases head
      simp [matched, silent, starts]
    · have different := apart other (List.mem_map.mpr ⟨_, later, rfl⟩)
      rw [processed.fires other otherRule later, recents other different]
      simp [different]
  · split
    · exact processed.fromRules.cons_cons ruleId
    · exact processed.fromRules.cons ruleId
  · intro alert member
    split at member
    · rcases List.mem_cons.mp member with rfl | inside
      · rfl
      · exact processed.counts alert inside
    · exact processed.counts alert member
  · rcases List.mem_cons.mp member with head | later
    · cases head
      rw [here, matched, starts]
      rfl
    · have different := apart other (List.mem_map.mpr ⟨_, later, rfl⟩)
      rw [processed.counter other otherRule later, recents other different, same other different]
  · rw [List.map_cons, List.mem_cons] at outside
    rw [processed.others other fun inside => outside (.inr inside),
      same other fun head => outside (.inl head)]

end Processed

theorem exists_processed (manager : AlertManager) (nodup : (order.map Prod.fst).Nodup)
    (starts : ∀ ruleId rule, (ruleId, rule) ∈ order → rule.matchesEvent event = true →
      ∃ start, windowStart range (moment.now ruleId) rule.windowSecs = some start) :
    ∃ alerts, (manager.processRules range event moment order).2 = some alerts ∧
      Processed range manager event moment order
        (manager.processRules range event moment order).1 alerts := by
  induction order generalizing manager with
  | nil =>
    refine ⟨[], rfl, fun _ _ member => absurd member List.not_mem_nil, List.Sublist.refl _,
      fun _ member => absurd member List.not_mem_nil, fun _ _ member => absurd member
        List.not_mem_nil, fun _ _ => rfl⟩
  | cons entry rest ih =>
    obtain ⟨ruleId, rule⟩ := entry
    obtain ⟨fresh, later⟩ := List.nodup_cons.mp nodup
    have begins : ∀ ruleId rule, (ruleId, rule) ∈ rest → rule.matchesEvent event = true →
        ∃ start, windowStart range (moment.now ruleId) rule.windowSecs = some start :=
      fun other otherRule member => starts other otherRule (List.mem_cons_of_mem _ member)
    cases matched : rule.matchesEvent event with
    | false =>
      rw [processRules_unmatched matched]
      obtain ⟨alerts, returned, processed⟩ := ih manager later begins
      exact ⟨alerts, returned, processed.skip fresh matched⟩
    | true =>
      obtain ⟨start, found⟩ := starts ruleId rule List.mem_cons_self matched
      obtain ⟨middle, -, counters, same, returns⟩ := exists_processRules_matched manager rest
        matched found
      obtain ⟨alerts, returned, processed⟩ := ih middle later begins
      rw [same, returns, returned]
      exact ⟨_, rfl, processed.take nodup matched found counters⟩

end AlertManager

/-! ## Runs -/

inductive AlertCall
  | addRule (rule : AlertRule)
  | removeRule (ruleId : String)
  | processEvent (event : AuditEvent) (moment : Moment)

/-- A manager in use: for each rule the timestamps of the events that matched it since it was added,
and the last reading of the clock. -/
structure AlertRun where
  manager : AlertManager
  matched : String → List DateTime
  clock : String → DateTime

namespace AlertRun

def start (began : DateTime) : AlertRun := ⟨.new, fun _ => [], fun _ => began⟩

/-- The timestamps of the events that matched a rule since it was added, with a new event. -/
def matchedWith (run : AlertRun) (event : AuditEvent) (ruleId : String) : List DateTime :=
  match run.manager.rules.lookup ruleId with
  | some rule =>
    if rule.matchesEvent event then run.matched ruleId ++ [event.timestamp]
    else run.matched ruleId
  | none => run.matched ruleId

def after (range : TimeRange) (run : AlertRun) : AlertCall → AlertRun
  | .addRule rule =>
    { run with
      manager := run.manager.addRule rule
      matched := Function.update run.matched rule.id [] }
  | .removeRule ruleId => { run with manager := run.manager.removeRule ruleId }
  | .processEvent event moment =>
    ⟨(run.manager.processEvent range event moment).1, run.matchedWith event, moment.now⟩

/-- How many of the events that matched a rule are within its window. -/
def counted (run : AlertRun) (event : AuditEvent) (moment : Moment) (ruleId : String)
    (rule : AlertRule) : Nat :=
  (run.matchedWith event ruleId).countP fun time =>
    moment.now ruleId - seconds rule.windowSecs.toNat < time ∧ time ≤ moment.now ruleId

/-- An alert for each rule that reached its threshold with the event, and no other. -/
structure ExactAlerts (run : AlertRun) (event : AuditEvent) (moment : Moment)
    (alerts : List Alert) : Prop where
  once : (alerts.map Alert.ruleId).Nodup
  known : ∀ alert ∈ alerts, alert.ruleId ∈ run.manager.rules
  fires : ∀ ruleId rule, run.manager.rules.lookup ruleId = some rule →
    ((∃ alert ∈ alerts, alert.ruleId = ruleId) ↔ rule.enabled = true ∧
      rule.matchesEvent event = true ∧
      rule.threshold.toNat ≤ run.counted event moment ruleId rule)
  counts : ∀ alert ∈ alerts, ∀ rule, run.manager.rules.lookup alert.ruleId = some rule →
    alert.eventCount.toNat = run.counted event moment alert.ruleId rule

end AlertRun

namespace AlertCall

/-- The call iterates over the rules there are, and the clock has not been set back. -/
def Fits (run : AlertRun) : AlertCall → Prop
  | .addRule _ | .removeRule _ => True
  | .processEvent _ moment =>
    run.manager.rules.Lists moment.order ∧ ∀ ruleId, run.clock ruleId ≤ moment.now ruleId

/-- The call returns, with the alerts that are due. -/
def FiresExactly (range : TimeRange) (run : AlertRun) : AlertCall → Prop
  | .addRule _ | .removeRule _ => True
  | .processEvent event moment => ∃ alerts,
      (run.manager.processEvent range event moment).2 = some alerts ∧
        run.ExactAlerts event moment alerts

/-- The window of every rule that matches has a start, and the timestamps after it do not reach
the threshold, except for a threshold of one at most and one event that counts. A window that is
negative as a signed number must not hide that the events that count reach the threshold. -/
def Settled (range : TimeRange) (run : AlertRun) : AlertCall → Prop
  | .addRule _ | .removeRule _ => True
  | .processEvent event moment => ∀ ruleId rule, run.manager.rules.lookup ruleId = some rule →
      rule.matchesEvent event = true →
      ∃ start, windowStart range (moment.now ruleId) rule.windowSecs = some start ∧
        (rule.threshold.toNat ≤ (run.manager.recent ruleId event start).length →
          rule.threshold.toNat ≤ 1 ∧ run.counted event moment ruleId rule = 1) ∧
        (2 ^ 63 ≤ rule.windowSecs.toNat →
          (run.manager.recent ruleId event start).length < rule.threshold.toNat →
          run.counted event moment ruleId rule < rule.threshold.toNat)

end AlertCall

theorem windowStart_eq {range : TimeRange} {now start : DateTime} {windowSecs : UInt64}
    (starts : windowStart range now windowSecs = some start)
    (small : windowSecs.toNat < 2 ^ 63) : start = now - seconds windowSecs.toNat := by
  have signed : windowSecs.toInt64.toInt = windowSecs.toNat :=
    BitVec.toInt_eq_toNat_of_lt (x := windowSecs.toBitVec) (by
      have same : windowSecs.toBitVec.toNat = windowSecs.toNat := rfl
      omega)
  unfold windowStart at starts
  rw [signed] at starts
  dsimp only at starts
  split at starts
  · split at starts
    · exact (Option.some.inj starts).symm
    · cases starts
  · cases starts

theorem AlertRule.enabled_of_matchesEvent {rule : AlertRule} {event : AuditEvent}
    (matched : rule.matchesEvent event = true) : rule.enabled = true := by
  rw [AlertRule.matchesEvent] at matched
  cases enabled : rule.enabled with
  | true => rfl
  | false =>
    rw [enabled] at matched
    cases matched

namespace AlertRun

variable {range : TimeRange} {run : AlertRun} {event : AuditEvent} {moment : Moment}
variable {ruleId : String} {rule : AlertRule}

/-- The events that may still count for a rule are among the timestamps kept for it. -/
def Kept (run : AlertRun) : Prop :=
  ∀ ruleId rule, run.manager.rules.lookup ruleId = some rule → rule.windowSecs.toNat < 2 ^ 63 →
    ((run.matched ruleId).filter
      (run.clock ruleId - seconds rule.windowSecs.toNat < ·)).Sublist (run.manager.counter ruleId)

theorem kept_start (began : DateTime) : (start began).Kept := by
  intro ruleId rule found
  cases found

/-- A later start of the window leaves a part of what an earlier one leaves. -/
theorem filter_sublist {times kept : List DateTime} {earlier later : DateTime}
    (sublist : (times.filter (earlier < ·)).Sublist kept) (order : earlier ≤ later) :
    (times.filter (later < ·)).Sublist (kept.filter (later < ·)) := by
  have narrowed : times.filter (later < ·) =
      (times.filter (earlier < ·)).filter (later < ·) := by
    rw [List.filter_filter]
    refine List.filter_congr fun time _ => ?_
    by_cases inside : later < time
    · simp [inside, Int.lt_of_le_of_lt order inside]
    · simp [inside]
  rw [narrowed]
  exact sublist.filter _

theorem Kept.addRule (kept : run.Kept) (rule : AlertRule) :
    (run.after range (.addRule rule)).Kept := by
  intro ruleId other found small
  simp only [AlertRun.after, AlertManager.addRule, HashMap.lookup_insert_ite] at found ⊢
  split at found
  · next same =>
      rw [same, Function.update_self]
      exact List.nil_sublist _
  · next different =>
      rw [Function.update_of_ne different]
      exact kept ruleId other found small

theorem Kept.removeRule (kept : run.Kept) (removed : String) :
    (run.after range (.removeRule removed)).Kept := by
  intro ruleId rule found small
  simp only [AlertRun.after, AlertManager.removeRule, HashMap.lookup_erase_ite] at found ⊢
  split at found
  · cases found
  · exact kept ruleId rule found small

/-- The timestamps that a call keeps for a rule hold those that count. -/
theorem Kept.recent (kept : run.Kept) (fits : run.clock ruleId ≤ moment.now ruleId)
    (found : run.manager.rules.lookup ruleId = some rule)
    (small : rule.windowSecs.toNat < 2 ^ 63) (matched : rule.matchesEvent event = true)
    {edge : DateTime} (starts : windowStart range (moment.now ruleId) rule.windowSecs = some edge) :
    ((run.matchedWith event ruleId).filter
      (moment.now ruleId - seconds rule.windowSecs.toNat < ·)).Sublist
        (run.manager.recent ruleId event edge) := by
  have same := windowStart_eq starts small
  rw [matchedWith, found]
  simp only [matched, if_true]
  rw [AlertManager.recent, same, List.filter_append, List.filter_append]
  have later := Int.sub_le_sub_right fits (seconds rule.windowSecs.toNat)
  exact (filter_sublist (kept ruleId rule found small) later).append (List.Sublist.refl _)

theorem Kept.counted_le (kept : run.Kept) (fits : run.clock ruleId ≤ moment.now ruleId)
    (found : run.manager.rules.lookup ruleId = some rule)
    (small : rule.windowSecs.toNat < 2 ^ 63) (matched : rule.matchesEvent event = true)
    {edge : DateTime} (starts : windowStart range (moment.now ruleId) rule.windowSecs = some edge) :
    run.counted event moment ruleId rule ≤ (run.manager.recent ruleId event edge).length := by
  refine Nat.le_trans ?_ (kept.recent fits found small matched starts).length_le
  rw [counted, ← List.countP_eq_length_filter]
  exact List.countP_mono_left fun time _ inside => by simp at inside ⊢; exact inside.1

/-- What a call that returns does to the rules there are. -/
theorem exists_processed (listed : run.manager.rules.Lists moment.order)
    (starts : ∀ ruleId rule, run.manager.rules.lookup ruleId = some rule →
      rule.matchesEvent event = true →
      ∃ start, windowStart range (moment.now ruleId) rule.windowSecs = some start) :
    ∃ alerts, (run.manager.processEvent range event moment).2 = some alerts ∧
      AlertManager.Processed range run.manager event moment moment.order
        (run.manager.processEvent range event moment).1 alerts :=
  AlertManager.exists_processed run.manager listed.1 fun ruleId rule member =>
    starts ruleId rule ((listed.2 ruleId rule).mp member)

/-- A call that returns found a window for every rule that matches. -/
theorem exists_start (listed : run.manager.rules.Lists moment.order) {alerts : List Alert}
    (returned : (run.manager.processEvent range event moment).2 = some alerts)
    (found : run.manager.rules.lookup ruleId = some rule)
    (matched : rule.matchesEvent event = true) :
    ∃ start, windowStart range (moment.now ruleId) rule.windowSecs = some start := by
  cases starts : windowStart range (moment.now ruleId) rule.windowSecs with
  | some start => exact ⟨start, rfl⟩
  | none =>
    have panics := AlertManager.processRules_overflow run.manager
      ⟨(ruleId, rule), (listed.2 ruleId rule).mpr found, matched, starts⟩
    rw [AlertManager.processEvent, panics] at returned
    cases returned

theorem Kept.processEvent (kept : run.Kept)
    (fits : (AlertCall.processEvent event moment).Fits run) {alerts : List Alert}
    (returned : (run.manager.processEvent range event moment).2 = some alerts) :
    (run.after range (.processEvent event moment)).Kept := by
  obtain ⟨listed, onward⟩ := fits
  obtain ⟨_, -, processed⟩ := exists_processed listed (fun ruleId rule found matched =>
    exists_start listed returned found matched)
  intro ruleId rule found small
  have known : run.manager.rules.lookup ruleId = some rule := by
    rw [after, AlertManager.processEvent] at found
    dsimp only at found
    rwa [AlertManager.processRules_rules] at found
  rw [after]
  dsimp only
  rw [processed.counter ruleId rule ((listed.2 ruleId rule).mpr known)]
  cases matched : rule.matchesEvent event with
  | true =>
    obtain ⟨start, starts⟩ := exists_start listed returned known matched
    rw [if_pos rfl, starts, Option.elim_some]
    exact kept.recent (onward ruleId) known small matched starts
  | false =>
    have unchanged : run.matchedWith event ruleId = run.matched ruleId := by
      rw [matchedWith, known]
      simp only [matched, Bool.false_eq_true, if_false]
    have later := Int.sub_le_sub_right (onward ruleId) (seconds rule.windowSecs.toNat)
    rw [if_neg Bool.false_ne_true, unchanged]
    exact (filter_sublist (kept ruleId rule known small) later).trans List.filter_sublist

theorem Kept.after (kept : run.Kept) {call : AlertCall} (fits : call.Fits run)
    (fires : call.FiresExactly range run) : (run.after range call).Kept := by
  cases call with
  | addRule rule => exact kept.addRule rule
  | removeRule ruleId => exact kept.removeRule ruleId
  | processEvent event moment =>
    obtain ⟨alerts, returned, -⟩ := fires
    exact kept.processEvent fits returned

/-- The timestamps that are kept and the events that count agree about the threshold, and one event
counts: this is what a settled call has for a rule. -/
theorem Kept.agree_iff (kept : run.Kept) (fits : run.clock ruleId ≤ moment.now ruleId)
    (found : run.manager.rules.lookup ruleId = some rule) (matched : rule.matchesEvent event = true)
    {edge : DateTime} (starts : windowStart range (moment.now ruleId) rule.windowSecs = some edge) :
    ((rule.threshold.toNat ≤ (run.manager.recent ruleId event edge).length ↔
        rule.threshold.toNat ≤ run.counted event moment ruleId rule) ∧
      (rule.threshold.toNat ≤ (run.manager.recent ruleId event edge).length →
        run.counted event moment ruleId rule = 1)) ↔
      (rule.threshold.toNat ≤ (run.manager.recent ruleId event edge).length →
        rule.threshold.toNat ≤ 1 ∧ run.counted event moment ruleId rule = 1) ∧
      (2 ^ 63 ≤ rule.windowSecs.toNat →
        (run.manager.recent ruleId event edge).length < rule.threshold.toNat →
        run.counted event moment ruleId rule < rule.threshold.toNat) := by
  by_cases wide : 2 ^ 63 ≤ rule.windowSecs.toNat
  · simp only [wide, true_implies]
    omega
  · have le := kept.counted_le fits found (Nat.not_le.mp wide) matched starts
    simp only [wide, false_implies, and_true]
    omega

/-- The alerts of a call are those that are due just if, for every rule that matches, the timestamps
that are kept and the events that count agree about the threshold, and one event counts. -/
theorem exactAlerts_iff (listed : run.manager.rules.Lists moment.order) {alerts : List Alert}
    {next : AlertManager}
    (processed : AlertManager.Processed range run.manager event moment moment.order next alerts)
    (starts : ∀ ruleId rule, run.manager.rules.lookup ruleId = some rule →
      rule.matchesEvent event = true →
      ∃ start, windowStart range (moment.now ruleId) rule.windowSecs = some start) :
    run.ExactAlerts event moment alerts ↔
      ∀ ruleId rule start, run.manager.rules.lookup ruleId = some rule →
        rule.matchesEvent event = true →
        windowStart range (moment.now ruleId) rule.windowSecs = some start →
        (rule.threshold.toNat ≤ (run.manager.recent ruleId event start).length ↔
          rule.threshold.toNat ≤ run.counted event moment ruleId rule) ∧
        (rule.threshold.toNat ≤ (run.manager.recent ruleId event start).length →
          run.counted event moment ruleId rule = 1) := by
  constructor
  · intro exact_ ruleId rule start found matched begins
    have returned := processed.fires ruleId rule ((listed.2 ruleId rule).mpr found)
    have due := exact_.fires ruleId rule found
    have enabled := AlertRule.enabled_of_matchesEvent matched
    simp only [matched, enabled, begins, true_and, Option.some.injEq, exists_eq_left']
      at returned due
    refine ⟨returned.symm.trans due, fun enough => ?_⟩
    obtain ⟨alert, member, rfl⟩ := returned.mpr enough
    rw [← exact_.counts alert member rule found, processed.counts alert member]
    rfl
  · intro agree
    have fires : ∀ ruleId rule, run.manager.rules.lookup ruleId = some rule →
        ((∃ alert ∈ alerts, alert.ruleId = ruleId) ↔ rule.enabled = true ∧
          rule.matchesEvent event = true ∧
          rule.threshold.toNat ≤ run.counted event moment ruleId rule) := by
      intro ruleId rule found
      rw [processed.fires ruleId rule ((listed.2 ruleId rule).mpr found)]
      constructor
      · rintro ⟨matched, start, begins, enough⟩
        exact ⟨AlertRule.enabled_of_matchesEvent matched, matched,
          (agree ruleId rule start found matched begins).1.mp enough⟩
      · rintro ⟨-, matched, enough⟩
        obtain ⟨start, begins⟩ := starts ruleId rule found matched
        exact ⟨matched, start, begins, (agree ruleId rule start found matched begins).1.mpr enough⟩
    refine ⟨processed.fromRules.nodup listed.1, fun alert member => ?_, fires,
      fun alert member rule found => ?_⟩
    · exact (listed.mem_keys _).mp (processed.ruleId_mem member)
    · obtain ⟨matched, start, begins, enough⟩ :=
        (processed.fires alert.ruleId rule ((listed.2 _ rule).mpr found)).mp ⟨alert, member, rfl⟩
      rw [processed.counts alert member, (agree _ rule start found matched begins).2 enough]
      rfl

theorem Kept.firesExactly_iff (kept : run.Kept) {call : AlertCall} (fits : call.Fits run) :
    call.FiresExactly range run ↔ call.Settled range run := by
  cases call with
  | addRule rule => exact Iff.rfl
  | removeRule ruleId => exact Iff.rfl
  | processEvent event moment =>
    obtain ⟨listed, onward⟩ := fits
    constructor
    · rintro ⟨alerts, returned, exact_⟩ ruleId rule found matched
      have starts : ∀ ruleId rule, run.manager.rules.lookup ruleId = some rule →
          rule.matchesEvent event = true →
          ∃ start, windowStart range (moment.now ruleId) rule.windowSecs = some start :=
        fun _ _ known matches_ => exists_start listed returned known matches_
      obtain ⟨others, again, processed⟩ := exists_processed listed starts
      cases returned.symm.trans again
      obtain ⟨start, begins⟩ := starts ruleId rule found matched
      exact ⟨start, begins, (kept.agree_iff (onward ruleId) found matched begins).mp
        ((exactAlerts_iff listed processed starts).mp exact_ ruleId rule start found matched
          begins)⟩
    · intro settled
      have starts : ∀ ruleId rule, run.manager.rules.lookup ruleId = some rule →
          rule.matchesEvent event = true →
          ∃ start, windowStart range (moment.now ruleId) rule.windowSecs = some start :=
        fun ruleId rule found matched =>
          (settled ruleId rule found matched).imp fun _ => And.left
      obtain ⟨alerts, returned, processed⟩ := exists_processed listed starts
      refine ⟨alerts, returned, (exactAlerts_iff listed processed starts).mpr
        fun ruleId rule start found matched begins => ?_⟩
      obtain ⟨other, begins', met⟩ := settled ruleId rule found matched
      cases begins.symm.trans begins'
      exact (kept.agree_iff (onward ruleId) found matched begins).mpr met

end AlertRun

/-- Alerts fire exactly along a run just when every call of it is settled. -/
theorem alerts_exact_iff (range : TimeRange) (began : DateTime) (calls : List AlertCall)
    (fits : Along (AlertRun.after range) (fun run call => call.Fits run) (.start began) calls) :
    Along (AlertRun.after range) (fun run call => call.FiresExactly range run) (.start began)
        calls ↔
      Along (AlertRun.after range) (fun run call => call.Settled range run) (.start began) calls :=
  along_iff (fun _ _ kept fits fires => kept.after fits fires)
    (fun _ _ kept fits => kept.firesExactly_iff fits) (AlertRun.kept_start began) fits

def wholeRange : TimeRange := ⟨-1000000000000000000000, 1000000000000000000000⟩

def loginRule (threshold : UInt32) : AlertRule :=
  { AlertRule.new "login" "Logins" .medium with threshold }

def loginMoment (threshold : UInt32) : Moment where
  order := [("login", loginRule threshold)]
  now _ := 1735689600000000000
  alertId _ := "alert"
  triggeredAt _ := 1735689600000000000

/-- A rule is added, and the same event is processed a number of times. -/
def loginCalls (threshold : UInt32) (times : Nat) : List AlertCall :=
  .addRule (loginRule threshold) ::
    List.replicate times (.processEvent (loginOf "user-123") (loginMoment threshold))

theorem fits_logins (threshold : UInt32) (times : Nat) {run : AlertRun}
    (rules : run.manager.rules.Lists [("login", loginRule threshold)])
    (clock : ∀ ruleId, run.clock ruleId ≤ 1735689600000000000) :
    Along (AlertRun.after wholeRange) (fun run call => call.Fits run) run
      (List.replicate times (.processEvent (loginOf "user-123") (loginMoment threshold))) := by
  induction times generalizing run with
  | zero => trivial
  | succ times ih =>
    refine ⟨⟨rules, clock⟩, ih ?_ fun _ => Int.le_refl _⟩
    rw [AlertRun.after, AlertManager.processEvent]
    dsimp only
    rw [AlertManager.processRules_rules]
    exact rules

theorem fits_loginCalls (threshold : UInt32) (times : Nat) :
    Along (AlertRun.after wholeRange) (fun run call => call.Fits run) (.start 0)
      (loginCalls threshold times) := by
  refine ⟨trivial, fits_logins threshold times ?_ fun _ => ?_⟩
  · exact HashMap.lists_empty.insert (Finmap.notMem_empty) (loginRule threshold)
  · have positive : (0 : Int) ≤ 1735689600000000000 := by decide
    exact positive

theorem alerts_exact_login :
    Along (AlertRun.after wholeRange) (fun run call => call.FiresExactly wholeRange run) (.start 0)
      (loginCalls 1 1) := by
  refine (alerts_exact_iff wholeRange 0 (loginCalls 1 1) (fits_loginCalls 1 1)).mpr
    ⟨trivial, fun ruleId rule found matched => ?_, trivial⟩
  rw [AlertRun.after, AlertRun.start] at found
  dsimp only at found
  rw [AlertManager.addRule, HashMap.lookup_insert_ite] at found
  split at found
  · next same =>
      cases found
      cases same
      exact ⟨1735689300000000000, rfl, fun _ => ⟨by decide, by decide⟩,
        fun wide => absurd wide (by decide)⟩
  · cases found

/-- The second login reaches a threshold of two, and the alert says that it was one. -/
theorem second_login_counts_one :
    Along (AlertRun.after wholeRange) (fun run call => call.Fits run) (.start 0) (loginCalls 2 2) ∧
      ¬ Along (AlertRun.after wholeRange) (fun run call => call.FiresExactly wholeRange run)
        (.start 0) (loginCalls 2 2) := by
  refine ⟨fits_loginCalls 2 2, ?_⟩
  rintro ⟨-, -, ⟨alerts, returned, exact_⟩, -⟩
  have alert : alerts = [AlertManager.alertFor (loginOf "user-123") (loginMoment 2) "login"
      (loginRule 2)] := (Option.some.inj returned).symm
  have counts := exact_.counts _ (by rw [alert]; exact List.mem_cons_self) (loginRule 2) rfl
  revert counts
  decide

end UHorse.Siem
