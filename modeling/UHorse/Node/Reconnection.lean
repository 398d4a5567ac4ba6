import UHorse.Node.Connection

/-!
# Messages of a node across reconnections

The messages put in the outbound channel are taken in order, each at most once. Along a behaviour
that serves a connection again and again every message is taken, and it is delivered exactly if
the socket takes it: a message that the socket refuses is in no channel any more. However the
task ends, it leaves the connection disconnected.
-/

namespace UHorse.Node.HubConnection

open UHorse.Lib UHorse.Protocol

/-! ## Single steps -/

/-- A message that was taken from the channel and is with the socket. -/
def inHand : Position → Option NodeToHub
  | .sending _ message => some message
  | _ => none

def isLeft : Position → Bool
  | .left _ => true
  | _ => false

/-- Everything that was put in the channel, in order. -/
def accepted (s : Connection) : List NodeToHub :=
  s.outcomes.map Prod.fst ++ (inHand s.position).toList ++ s.outbound.messages

/-- The message an event puts in the channel. -/
def message? : ConnectionEvent → Option NodeToHub
  | .put message => some message
  | _ => none

/-- How many messages were taken from the channel. -/
def taken (s : Connection) : Nat := s.outcomes.length + (inHand s.position).toList.length

/-- What a step does with the messages of the node. -/
inductive Effect (s t : Connection) : ConnectionEvent → Prop
  | put (message : NodeToHub) (hand : inHand t.position = inHand s.position)
      (outcomes : t.outcomes = s.outcomes)
      (outbound : t.outbound.messages = s.outbound.messages ++ [message]) :
      Effect s t (.put message)
  | takes (message : NodeToHub) (free : inHand s.position = none)
      (hand : inHand t.position = some message) (outcomes : t.outcomes = s.outcomes)
      (outbound : s.outbound.messages = message :: t.outbound.messages) :
      Effect s t (.run .outbound)
  | answered (confirmed : Bool) (message : NodeToHub) (result : Except String Unit)
      (hand : s.position = .sending confirmed message) (free : inHand t.position = none)
      (outcomes : t.outcomes = s.outcomes ++ [(message, result.isOk)])
      (outbound : t.outbound = s.outbound) : Effect s t (.run (.sink result))
  | quiet (event : ConnectionEvent) (other : message? event = none)
      (hand : inHand t.position = inHand s.position) (outcomes : t.outcomes = s.outcomes)
      (outbound : t.outbound = s.outbound) : Effect s t event

variable {node : HubConnection} {s t : Connection} {event : ConnectionEvent}

/-- What a frame brings stays with the task: the next position has no message of the node. -/
theorem receive_eq (s : Connection) (confirmed : Bool) (frame : Option (Except String Frame)) :
    ∃ position, inHand position = none ∧ isLeft position = false ∧
      receive s confirmed frame = { s with position } := by
  cases frame with
  | none => cases confirmed <;> exact ⟨_, rfl, rfl, rfl⟩
  | some frame =>
    cases frame with
    | error error => exact ⟨_, rfl, rfl, rfl⟩
    | ok frame =>
      cases frame with
      | binary message =>
        cases message with
        | none => exact ⟨_, rfl, rfl, rfl⟩
        | some message => cases confirmed <;> exact ⟨_, rfl, rfl, rfl⟩
      | close reason => cases confirmed <;> exact ⟨_, rfl, rfl, rfl⟩
      | _ => exact ⟨_, rfl, rfl, rfl⟩

variable {confirmed : Bool} {input : Input}

theorem receiveOutbound_effect (here : s.position = .selecting confirmed)
    (step : receiveOutbound s confirmed = some t) : Effect s t (.run .outbound) := by
  have free : inHand s.position = none := by
    rw [here]
    rfl
  unfold receiveOutbound at step
  split at step
  · next message outbound received =>
      cases step
      exact .takes message free rfl rfl (Channel.receive_eq_some_iff.mp received)
  · split at step
    · cases step
    · cases step
      exact .quiet _ rfl free.symm rfl rfl

theorem finishSend_effect {message : NodeToHub} {result : Except String Unit}
    (here : s.position = .sending confirmed message) :
    Effect s (finishSend s confirmed message result) (.run (.sink result)) := by
  cases result with
  | ok => exact .answered confirmed message _ here rfl rfl rfl
  | error error => exact .answered confirmed message _ here rfl rfl rfl

theorem recordError_eq (node : HubConnection) (s : Connection) (error : ConnectionError) :
    ∃ position, inHand position = none ∧ isLeft position = false ∧ node.recordError s error =
      { s with reconnectAttempts := s.reconnectAttempts + 1, position } := by
  by_cases exhausted : node.config.maxReconnectAttempts < s.reconnectAttempts + 1
  · exact ⟨.givingUp error, rfl, rfl, if_pos exhausted⟩
  · exact ⟨.retrying, rfl, rfl, if_neg exhausted⟩

/-- Away from the outbound channel nothing happens to the messages of the node. -/
theorem Effect.elsewhere {position : Position} (here : s.position = position)
    (free : inHand position = none) (moved : inHand t.position = none)
    (outcomes : t.outcomes = s.outcomes) (outbound : t.outbound = s.outbound) :
    Effect s t (.run input) :=
  .quiet _ rfl (moved.trans (here ▸ free).symm) outcomes outbound

theorem effect_of_advance (step : node.advance s input = some t) : Effect s t (.run input) := by
  unfold advance at step
  split at step
  case h_10 here =>
    cases step
    obtain ⟨position, free, -, same⟩ := receive_eq s _ _
    rw [same]
    exact .elsewhere here rfl free rfl rfl
  case h_11 here => exact receiveOutbound_effect here step
  case h_19 here =>
    cases step
    exact finishSend_effect here
  case h_23 here =>
    cases step
    obtain ⟨position, free, -, same⟩ := recordError_eq node s _
    rw [same]
    exact .elsewhere here rfl free rfl rfl
  case h_1 here =>
    cases step
    exact .elsewhere here rfl (by dsimp only; split <;> rfl) rfl rfl
  case h_9 here =>
    cases step
    exact .elsewhere here rfl (by dsimp only; split <;> rfl) rfl rfl
  case h_28 => cases step
  all_goals
    cases step
    exact .elsewhere ‹_› rfl rfl rfl rfl

/-- Only a connection that waits takes messages of the node. -/
theorem receiveOutbound_of_advance (step : node.advance s .outbound = some t) :
    ∃ confirmed, s.position = .selecting confirmed ∧ receiveOutbound s confirmed = some t := by
  unfold advance at step
  split at step
  case h_11 here _ => exact ⟨_, here, step⟩
  case h_28 => cases step
  all_goals contradiction

theorem eq_finishSend_of_advance {confirmed : Bool} {message : NodeToHub}
    {result : Except String Unit} (hand : s.position = .sending confirmed message)
    (step : node.advance s (.sink result) = some t) :
    t = finishSend s confirmed message result := by
  unfold advance at step
  rw [hand] at step
  exact (Option.some.inj step).symm

theorem taken_lt_of_outbound (step : node.advance s .outbound = some t)
    (some : s.outbound.messages ≠ []) : taken s < taken t := by
  obtain ⟨confirmed, here, step⟩ := receiveOutbound_of_advance step
  unfold receiveOutbound at step
  split at step
  · cases step
    simp [taken, here, inHand]
  · next nothing => exact absurd (Channel.receive_eq_none_iff.mp nothing) some

theorem effect_of_handle (step : node.handle s event = some t) : Effect s t event := by
  cases event with
  | run input => exact effect_of_advance step
  | put message =>
    rw [handle] at step
    split at step
    · split at step
      · cases step
      · obtain ⟨outbound, went, rfl⟩ := Option.map_eq_some_iff.mp step
        exact .put message rfl rfl (Channel.messages_of_send went)
    · cases step
  | close =>
    cases step
    exact .quiet _ rfl rfl rfl rfl
  | stop =>
    cases step
    exact .quiet _ rfl rfl rfl rfl
  | stopped =>
    rw [handle] at step
    split at step
    · cases step
    · cases step
      exact .quiet _ rfl rfl rfl rfl

theorem isLeft_receiveOutbound (step : receiveOutbound s confirmed = some t) :
    isLeft t.position = false := by
  unfold receiveOutbound at step
  split at step
  · cases step
    rfl
  · split at step <;> cases step
    rfl

/-- The task leaves the connection disconnected. -/
theorem disconnected_of_advance (step : node.advance s input = some t)
    (left : isLeft t.position = true) : t.state = .disconnected := by
  unfold advance at step
  split at step
  case h_27 =>
    cases step
    rfl
  case h_10 =>
    cases step
    obtain ⟨position, -, stays, same⟩ := receive_eq s _ _
    rw [same, stays] at left
    cases left
  case h_11 =>
    rw [isLeft_receiveOutbound step] at left
    cases left
  case h_19 result _ =>
    cases step
    cases result <;> cases left
  case h_23 =>
    cases step
    obtain ⟨position, -, stays, same⟩ := recordError_eq node s _
    rw [same, stays] at left
    cases left
  case h_1 =>
    cases step
    dsimp only at left
    split at left <;> cases left
  case h_9 =>
    cases step
    dsimp only at left
    split at left <;> cases left
  case h_28 => cases step
  all_goals
    cases step
    cases left

theorem disconnected_of_handle {failure : Option ConnectionError}
    (before : ∀ failure, s.position = .left failure → s.state = .disconnected)
    (step : node.handle s event = some t) (left : t.position = .left failure) :
    t.state = .disconnected := by
  cases event with
  | run input => exact disconnected_of_advance step (congrArg isLeft left)
  | put message =>
    rw [handle] at step
    split at step
    · split at step
      · cases step
      · obtain ⟨outbound, -, rfl⟩ := Option.map_eq_some_iff.mp step
        exact before failure left
    · cases step
  | close =>
    cases step
    exact before failure left
  | stop =>
    cases step
    exact before failure left
  | stopped =>
    rw [handle] at step
    split at step
    · cases step
    · cases step
      rfl

/-- A task that has ended stays so. -/
theorem left_of_handle {failure : Option ConnectionError} (left : s.position = .left failure)
    (step : node.handle s event = some t) : t.position = .left failure := by
  cases event with
  | run input =>
    rw [handle] at step
    unfold advance at step
    rw [left] at step
    cases step
  | put message =>
    rw [handle, left] at step
    split at step <;> cases step
  | close =>
    cases step
    exact left
  | stop =>
    cases step
    exact left
  | stopped =>
    rw [handle] at step
    split at step
    · cases step
    · cases step
      exact left

namespace Effect

/-- What was put in the channel stays in order. -/
theorem accepted_eq (effect : Effect s t event) :
    accepted t = accepted s ++ (message? event).toList := by
  unfold accepted
  cases effect with
  | put message hand outcomes outbound =>
    rw [hand, outcomes, outbound, ← List.append_assoc]
    rfl
  | takes message free hand outcomes outbound =>
    rw [free, hand, outcomes, outbound]
    simp [message?]
  | answered confirmed message result hand free outcomes outbound =>
    rw [free, hand, outcomes, outbound, inHand]
    simp [message?]
  | quiet event other hand outcomes outbound =>
    rw [hand, outcomes, outbound, other, Option.toList_none, List.append_nil]

theorem outcomes_isPrefix (effect : Effect s t event) : s.outcomes <+: t.outcomes := by
  cases effect with
  | answered confirmed message result hand free outcomes outbound =>
    rw [outcomes]
    exact List.prefix_append _ _
  | put message hand outcomes outbound => rw [outcomes]
  | takes message free hand outcomes outbound => rw [outcomes]
  | quiet event other hand outcomes outbound => rw [outcomes]

theorem taken_le (effect : Effect s t event) : taken s ≤ taken t := by
  unfold taken
  cases effect with
  | put message hand outcomes outbound => rw [hand, outcomes]
  | takes message free hand outcomes outbound =>
    rw [free, outcomes]
    exact Nat.le_add_right _ _
  | answered confirmed message result hand free outcomes outbound =>
    rw [free, hand, outcomes, List.length_append]
    exact Nat.le_refl _
  | quiet event other hand outcomes outbound => rw [hand, outcomes]

end Effect

/-! ## Behaviours -/

/-- The connection is established and waits for what comes next. -/
def Selecting (s : Connection) : Prop := ∃ confirmed, s.position = .selecting confirmed

section Behaviours

variable (b : Behaviour node.loop)

/-- Connections are established again and again. -/
def Reconnects : Prop := Behaviour.Recurs fun i => Selecting (b.state i)

/-- The branch that takes messages of the node is taken again and again, if again and again a
connection waits while there are any. -/
def Fair : Prop :=
  (Behaviour.Recurs fun i => Selecting (b.state i) ∧ (b.state i).outbound.messages ≠ []) →
    Behaviour.Recurs fun i => b.label i = some (.run .outbound) ∧
      (b.state i).outbound.messages ≠ []

/-- The messages put in the outbound channel before a time, in order. -/
def messagesPut (i : ℕ) : List NodeToHub :=
  (List.range i).filterMap fun j => (b.label j).bind message?

/-- The message was taken from the channel as the one of this index, and a hub connection took
it. -/
def Delivered (s : Connection) (k : ℕ) (message : NodeToHub) : Prop :=
  s.outcomes[k]? = some (message, true)

/-- Every message put in the outbound channel is delivered. -/
def Delivers : Prop :=
  ∀ i k message, (messagesPut b i)[k]? = some message → ∃ j, Delivered (b.state j) k message

/-- The socket takes every message of the node. -/
def SendsSucceed : Prop :=
  ∀ i confirmed message result, (b.state i).position = .sending confirmed message →
    b.label i = some (.run (.sink result)) → result = .ok ()

/-- When the attempts were exhausted the connection ends as failed. -/
def EndsFailed : Prop :=
  ∀ i error, (b.state i).position = .left (some error) → (b.state i).state = .failed error.toString

/-- The task does not end because the attempts were exhausted. -/
def NeverGivesUp : Prop := ∀ i error, (b.state i).position ≠ .left (some error)

theorem accepted_eq_messagesPut (i : ℕ) : accepted (b.state i) = messagesPut b i := by
  induction i with
  | zero =>
    rw [b.start]
    rfl
  | succ i ih =>
    have grown : messagesPut b (i + 1) =
        messagesPut b i ++ ((b.label i).bind message?).toList := by
      unfold messagesPut
      rw [List.range_succ, List.filterMap_append]
      cases put : (b.label i).bind message? <;> simp [put]
    rw [grown, ← ih]
    obtain ⟨rests, same⟩ | ⟨event, taken, step⟩ := b.next i
    · rw [rests, same]
      simp
    · rw [taken]
      exact (effect_of_handle step).accepted_eq

theorem outcomes_isPrefix {i j : ℕ} (before : i ≤ j) :
    (b.state i).outcomes <+: (b.state j).outcomes :=
  b.relates (fun s t => s.outcomes <+: t.outcomes) (fun _ => List.prefix_rfl)
    (fun _ _ _ => List.IsPrefix.trans) (fun _ _ _ step => (effect_of_handle step).outcomes_isPrefix)
    before

theorem accepted_isPrefix {i j : ℕ} (before : i ≤ j) :
    accepted (b.state i) <+: accepted (b.state j) :=
  b.relates (fun s t => accepted s <+: accepted t) (fun _ => List.prefix_rfl)
    (fun _ _ _ => List.IsPrefix.trans)
    (fun _ _ _ step => ⟨_, (effect_of_handle step).accepted_eq.symm⟩) before

theorem taken_monotone : Monotone fun i => taken (b.state i) := fun _ _ before =>
  b.relates (fun s t => taken s ≤ taken t) (fun _ => Nat.le_refl _) (fun _ _ _ => Nat.le_trans)
    (fun _ _ _ step => (effect_of_handle step).taken_le) before

theorem getElem?_of_prefix {α : Type} {entries longer : List α} (grown : entries <+: longer) {k : ℕ}
    {entry : α} (found : entries[k]? = some entry) : longer[k]? = some entry := by
  obtain ⟨inside, here⟩ := List.getElem?_eq_some_iff.mp found
  rw [← here]
  exact List.prefix_iff_getElem?.mp grown k inside

/-- The messages with an answer are the first ones. -/
theorem accepted_of_outcomes {k : ℕ} {message : NodeToHub} {took : Bool}
    (found : s.outcomes[k]? = some (message, took)) : (accepted s)[k]? = some message := by
  refine getElem?_of_prefix ⟨(inHand s.position).toList ++ s.outbound.messages,
    (List.append_assoc _ _ _).symm⟩ ?_
  rw [List.getElem?_map, found]
  rfl

variable {b}

/-- Every message put in the channel is taken from it. -/
theorem exists_taken (reconnects : Reconnects b) (fair : Fair b) {i k : ℕ} {message : NodeToHub}
    (put : (accepted (b.state i))[k]? = some message) : ∃ j, k < taken (b.state j) := by
  by_contra never
  have few : ∀ j, taken (b.state j) ≤ k := fun j => Nat.not_lt.mp fun above => never ⟨j, above⟩
  have waiting : ∀ j ≥ i, (b.state j).outbound.messages ≠ [] := by
    intro j later nothing
    have long : k < (accepted (b.state i)).length := (List.getElem?_eq_some_iff.mp put).1
    have kept := (accepted_isPrefix b later).length_le
    have bound := few j
    simp only [accepted, nothing, List.append_nil, List.length_append, List.length_map] at kept
    simp only [accepted, List.length_append, List.length_map] at long
    unfold taken at bound
    omega
  have recurs : Behaviour.Recurs fun j => Selecting (b.state j) ∧
      (b.state j).outbound.messages ≠ [] := by
    refine Behaviour.recurs_iff.mpr fun n => ?_
    obtain ⟨j, late, selecting⟩ := Behaviour.recurs_iff.mp reconnects (max i n)
    exact ⟨j, (le_max_right _ _).trans late, selecting, waiting j ((le_max_left _ _).trans late)⟩
  have rises : Behaviour.Recurs fun j => taken (b.state j) < taken (b.state (j + 1)) := by
    refine Behaviour.recurs_iff.mpr fun n => ?_
    obtain ⟨j, late, takes, some⟩ := Behaviour.recurs_iff.mp (fair recurs) n
    exact ⟨j, late, taken_lt_of_outbound (b.step takes) some⟩
  exact never (Behaviour.exists_lt_of_recurs (taken_monotone b) rises k)

/-- What the socket has answered so far it took. -/
theorem outcomes_succeed (succeed : SendsSucceed b) (i : ℕ) :
    ∀ outcome ∈ (b.state i).outcomes, outcome.2 = true := by
  induction i with
  | zero =>
    intro outcome member
    rw [b.start] at member
    exact absurd member List.not_mem_nil
  | succ i ih =>
    obtain ⟨-, same⟩ | ⟨event, taken, step⟩ := b.next i
    · rwa [same]
    · intro outcome member
      cases effect_of_handle step with
      | answered confirmed message result hand free outcomes outbound =>
        rw [outcomes] at member
        obtain member | member := List.mem_append.mp member
        · exact ih outcome member
        · rw [List.mem_singleton.mp member, succeed i confirmed message result hand taken]
          rfl
      | put message hand outcomes outbound => exact ih outcome (outcomes ▸ member)
      | takes message free hand outcomes outbound => exact ih outcome (outcomes ▸ member)
      | quiet _ other hand outcomes outbound => exact ih outcome (outcomes ▸ member)

theorem delivers_of_sendsSucceed (reconnects : Reconnects b) (fair : Fair b)
    (succeed : SendsSucceed b) : Delivers b := by
  intro i k message put
  rw [← accepted_eq_messagesPut] at put
  obtain ⟨n, above⟩ := exists_taken reconnects fair put
  obtain ⟨j, late, confirmed, selecting⟩ := Behaviour.recurs_iff.mp reconnects (max i n)
  have done : k < (b.state j).outcomes.length := by
    have kept := taken_monotone b ((le_max_right i n).trans late)
    have free : taken (b.state j) = (b.state j).outcomes.length := by
      rw [taken, selecting]
      rfl
    exact free ▸ above.trans_le kept
  have same : (accepted (b.state j))[k]? = some message :=
    getElem?_of_prefix (accepted_isPrefix b ((le_max_left i n).trans late)) put
  obtain ⟨⟨found, took⟩, here⟩ : ∃ outcome, (b.state j).outcomes[k]? = some outcome :=
    ⟨_, List.getElem?_eq_getElem done⟩
  obtain rfl : took = true := outcomes_succeed succeed j _ (List.mem_of_getElem? here)
  obtain rfl : found = message := Option.some.inj ((accepted_of_outcomes here).symm.trans same)
  exact ⟨j, here⟩

/-- A message the socket refuses is delivered at no time. -/
theorem sendsSucceed_of_delivers (delivers : Delivers b) : SendsSucceed b := by
  intro i confirmed message result hand answered
  cases result with
  | ok => rfl
  | error error =>
    have refused : (b.state (i + 1)).outcomes = (b.state i).outcomes ++ [(message, false)] :=
      congrArg Connection.outcomes (eq_finishSend_of_advance hand (b.step answered))
    have last : (b.state (i + 1)).outcomes[(b.state i).outcomes.length]? =
        some (message, false) := by
      rw [refused, List.getElem?_concat_length]
    have put : (messagesPut b (i + 1))[(b.state i).outcomes.length]? = some message := by
      rw [← accepted_eq_messagesPut]
      exact accepted_of_outcomes last
    obtain ⟨j, delivered⟩ := delivers _ _ _ put
    have later := getElem?_of_prefix (outcomes_isPrefix b (le_max_left (i + 1) j)) last
    have same := getElem?_of_prefix (outcomes_isPrefix b (le_max_right (i + 1) j)) delivered
    cases later.symm.trans same

/-- However the task ends, the connection is disconnected then. -/
theorem disconnected_of_left (i : ℕ) (failure : Option ConnectionError)
    (left : (b.state i).position = .left failure) : (b.state i).state = .disconnected := by
  refine (b.reachable i).invariant
    (P := fun s => ∀ failure, s.position = .left failure → s.state = .disconnected) ?_ ?_ failure
      left
  · rintro _ rfl failure left
    cases left
  · intro s event t before step failure left
    exact disconnected_of_handle before step left

/-- Messages are lost exactly if the socket refuses some, and a connection never ends as
failed. -/
theorem reconnects_without_loss :
    (Reconnects b → Fair b → Delivers b) ∧ EndsFailed b ↔
      (Reconnects b → Fair b → SendsSucceed b) ∧ NeverGivesUp b := by
  refine and_congr ⟨?_, ?_⟩ ⟨?_, ?_⟩
  · intro delivers reconnects fair
    exact sendsSucceed_of_delivers (delivers reconnects fair)
  · intro succeed reconnects fair
    exact delivers_of_sendsSucceed reconnects fair (succeed reconnects fair)
  · intro failed i error left
    have same := (failed i error left).symm.trans (disconnected_of_left i _ left)
    cases same
  · intro never i error left
    exact absurd left (never i error)

/-- A behaviour that comes to rest while it waits connects again and again, and misses no message
if there are none. -/
theorem reconnects_of_restsIn {n : ℕ} (rests : b.RestsIn n t) (selecting : Selecting t) :
    Reconnects b :=
  rests.recurs selecting

theorem fair_of_restsIn {n : ℕ} (rests : b.RestsIn n t) (nothing : t.outbound.messages = []) :
    Fair b := by
  intro recurs
  refine absurd recurs (rests.not_recurs (P := fun s => Selecting s ∧ s.outbound.messages ≠ []) ?_)
  rintro ⟨-, some⟩
  exact some nothing

theorem neverGivesUp_of_restsIn {n : ℕ} (rests : b.RestsIn n t)
    (stays : isLeft t.position = false) : NeverGivesUp b := by
  intro i error left
  have later : (b.state (max i n)).position = .left (some error) :=
    b.relates (fun s t => s.position = .left (some error) → t.position = .left (some error))
      (fun _ => id) (fun _ _ _ first second => second ∘ first)
      (fun _ _ _ step left => left_of_handle left step) (le_max_left i n) left
  rw [(rests _ (le_max_right i n)).1] at later
  rw [later] at stays
  cases stays

end Behaviours

/-! ### A message and a connection that fails -/

def sampleNode (maxReconnectAttempts : UInt32) : HubConnection where
  config := ⟨maxReconnectAttempts, none⟩
  nodeId := ⟨"node-1"⟩
  nodeName := "node-1"
  workspacePath := "/tmp"
  capabilities := NodeCapabilities.default

def sampleMessage : NodeToHub := .unregister ⟨"message-1"⟩ ⟨"node-1"⟩ "shutdown"

/-- The task connects and registers until it waits. -/
def connectingEvents : List ConnectionEvent :=
  [.run .proceed, .run (.connect (.ok ())), .run (.clock 0), .run (.register ⟨"message-0"⟩ 0),
    .run .proceed, .run (.sink (.ok ())), .run .proceed]

/-- Whether the socket takes what the step offers it of the node's messages. -/
def socketTakes (s : Connection) : ConnectionEvent → Bool
  | .run (.sink (.error _)) => (inHand s.position).isNone
  | _ => true

def play (node : HubConnection) (admits : Connection → ConnectionEvent → Bool) :
    Connection → List ConnectionEvent → Option Connection
  | s, [] => some s
  | s, event :: rest =>
    if admits s event then (node.handle s event).bind (play node admits · rest) else none

theorem reachable_of_play {admits : Connection → ConnectionEvent → Bool}
    {events : List ConnectionEvent}
    (reached : (node.loop.restrict fun s event => admits s event = true).Reachable s)
    (played : play node admits s events = some t) :
    (node.loop.restrict fun s event => admits s event = true).Reachable t := by
  induction events generalizing s with
  | nil =>
    cases played
    exact reached
  | cons event rest ih =>
    unfold play at played
    split at played
    · next admitted =>
        obtain ⟨middle, step, later⟩ := Option.bind_eq_some_iff.mp played
        exact ih (reached.step ⟨admitted, step⟩) later
    · cases played

theorem exists_restsIn_of_play {admits : Connection → ConnectionEvent → Bool}
    {events : List ConnectionEvent} (played : play node admits start events = some t) :
    ∃ (b : Behaviour node.loop) (n : ℕ), b.Meets (fun s event => admits s event = true) ∧
      b.RestsIn n t :=
  Behaviour.exists_restsIn (reachable_of_play (.init rfl) played)

theorem reconnects_without_loss_sample :
    ∃ (b : Behaviour (sampleNode 10).loop) (n : ℕ), messagesPut b n = [sampleMessage] ∧
      Reconnects b ∧ Fair b ∧ Delivers b ∧ EndsFailed b := by
  have played : play (sampleNode 10) socketTakes start
      (.put sampleMessage :: connectingEvents ++
        [.run .outbound, .run (.sink (.ok ())), .run .proceed]) = some _ := rfl
  obtain ⟨b, n, meets, rests⟩ := exists_restsIn_of_play played
  have succeed : SendsSucceed b := by
    intro i confirmed message result hand answered
    cases result with
    | ok => rfl
    | error error =>
      have taken := meets i _ answered
      dsimp only [socketTakes] at taken
      rw [hand] at taken
      cases taken
  have reconnects := reconnects_of_restsIn rests ⟨false, rfl⟩
  have fair := fair_of_restsIn rests rfl
  obtain ⟨delivers, failed⟩ := reconnects_without_loss.mpr
    ⟨fun _ _ => succeed, neverGivesUp_of_restsIn rests rfl⟩
  refine ⟨b, n, ?_, reconnects, fair, delivers reconnects fair, failed⟩
  rw [← accepted_eq_messagesPut, (rests n le_rfl).1]
  rfl

/-- A message is lost with the connection it was sent on; and a node that cannot connect ends as
disconnected. -/
theorem reconnects_with_loss :
    (∃ b : Behaviour (sampleNode 10).loop, Reconnects b ∧ Fair b ∧ ¬ Delivers b) ∧
      ∃ b : Behaviour (sampleNode 0).loop, ¬ EndsFailed b := by
  constructor
  · have played : play (sampleNode 10) (fun _ _ => true) start
        (.put sampleMessage :: connectingEvents ++
          [.run .outbound, .run (.sink (.error "closed")), .run .proceed] ++ connectingEvents) =
        some _ := rfl
    obtain ⟨b, n, -, rests⟩ := exists_restsIn_of_play played
    refine ⟨b, reconnects_of_restsIn rests ⟨false, rfl⟩, fair_of_restsIn rests rfl, ?_⟩
    intro delivers
    have put : (messagesPut b n)[0]? = some sampleMessage := by
      rw [← accepted_eq_messagesPut, (rests n le_rfl).1]
      rfl
    obtain ⟨j, delivered⟩ := delivers n 0 sampleMessage put
    have later := getElem?_of_prefix (outcomes_isPrefix b (le_max_left j n)) delivered
    rw [(rests _ (le_max_right j n)).1] at later
    cases later
  · have played : play (sampleNode 0) (fun _ _ => true) start
        [.run .proceed, .run (.connect (.error (.timeout "Connection timeout"))), .run .proceed,
          .run .proceed, .run .proceed] = some _ := rfl
    obtain ⟨b, n, -, rests⟩ := exists_restsIn_of_play played
    refine ⟨b, ?_⟩
    intro failed
    have ends := failed n (.timeout "Connection timeout") (by rw [(rests n le_rfl).1])
    rw [(rests n le_rfl).1] at ends
    cases ends

end UHorse.Node.HubConnection
