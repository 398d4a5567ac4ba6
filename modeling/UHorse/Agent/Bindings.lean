import Mathlib.Data.Prod.Lex
import UHorse.Agent.SessionKey
import UHorse.Lib.StableOrder

/-!
# Routing to agents

A binding names the agent for the messages of a channel, a team or some users. The documented
precedence is by priority and then by what a binding asks for: a channel and a team, a channel, or
neither. The router sorts by priority alone.
-/

namespace UHorse.Agent

open UHorse.Lib

namespace SessionKey

def matchesChannel (key : SessionKey) (channelType : String) : Bool :=
  key.channelType = channelType

def matchesTeam (key : SessionKey) (teamId : String) : Bool :=
  (key.teamId.map fun team => decide (team = teamId)).getD false

end SessionKey

structure Binding where
  agent : String
  channel : Option String
  teamId : Option String
  priority : Option Int
  users : Option (List String)
  enabled : Bool
deriving DecidableEq

namespace Binding

def matches_ (binding : Binding) (key : SessionKey) : Bool :=
  binding.enabled && (binding.channel.all fun channel => key.matchesChannel channel) &&
    (binding.teamId.all fun teamId => key.matchesTeam teamId) &&
    (binding.users.all fun users => users.contains key.channelUserId)

def getPriority (binding : Binding) : Int := binding.priority.getD 0

/-- How much a binding asks for: a channel and a team, only a channel, or no channel. -/
def specificity (binding : Binding) : Nat :=
  if binding.channel.isNone then 0 else if binding.teamId.isNone then 1 else 2

end Binding

structure BindingsConfig where
  bindings : List Binding
  defaultAgent : String

structure BindingsRouter where
  config : BindingsConfig
  availableAgents : List String

namespace BindingsRouter

/-- The text of the error for an agent that is not there. -/
def unavailable (agentId : String) : String := "Agent '" ++ agentId ++ "' is not available"

def matched (router : BindingsRouter) (key : SessionKey) : List Binding :=
  router.config.bindings.filter fun binding => binding.matches_ key

def route (router : BindingsRouter) (key : SessionKey) : Except String String :=
  match (router.matched key).mergeSort fun a b => b.getPriority ≤ a.getPriority with
  | [] => .ok router.config.defaultAgent
  | chosen :: _ =>
    if chosen.agent ∈ router.availableAgents then .ok chosen.agent
    else .error (unavailable chosen.agent)

variable (router : BindingsRouter) (key : SessionKey)

/-- The first of the matching bindings of the highest priority. -/
def Chosen (binding : Binding) : Prop :=
  Foremost Binding.getPriority (fun _ => true) (router.matched key) binding

/-- The first of the most specific ones among the matching bindings of the highest priority. -/
def Preferred (binding : Binding) : Prop :=
  Foremost (fun binding => toLex (binding.getPriority, binding.specificity)) (fun _ => true)
    (router.matched key) binding

/-- The documented precedence: the preferred binding decides, without a match the default agent is
used, and only an available agent is returned. -/
structure FollowsPrecedence : Prop where
  preferred : ∀ binding, router.Preferred key binding →
    router.route key = if binding.agent ∈ router.availableAgents then .ok binding.agent
      else .error (unavailable binding.agent)
  default : router.matched key = [] → router.config.defaultAgent ∈ router.availableAgents →
    router.route key = .ok router.config.defaultAgent
  available : ∀ agent, router.route key = .ok agent → agent ∈ router.availableAgents

variable {router key}

variable (router key) in
/-- The router takes the default agent without a match, and the chosen binding otherwise. -/
theorem route_spec :
    (router.matched key = [] ∧ router.route key = .ok router.config.defaultAgent) ∨
      ∃ binding, router.Chosen key binding ∧
        router.route key = if binding.agent ∈ router.availableAgents then .ok binding.agent
          else .error (unavailable binding.agent) := by
  have order : StablySorted Binding.getPriority (router.matched key)
      ((router.matched key).mergeSort fun a b => b.getPriority ≤ a.getPriority) :=
    .of_mergeSort (fun _ _ => decide_eq_true_iff) _
  rw [route]
  cases sorted : (router.matched key).mergeSort fun a b => b.getPriority ≤ a.getPriority with
  | nil =>
    rw [sorted] at order
    exact .inl ⟨order.perm.nil_eq.symm, rfl⟩
  | cons chosen rest =>
    rw [sorted] at order
    exact .inr ⟨chosen, order.foremost_of_find? rfl, rfl⟩

theorem not_chosen_of_nil {κ : Type*} [LinearOrder κ] {rank : Binding → κ} {binding : Binding}
    (none : router.matched key = []) :
    ¬ Foremost rank (fun _ => true) (router.matched key) binding := by
  rw [none]
  rintro ⟨-, before, after, same, -⟩
  simp at same

/-- A decision tells the agent it is about. -/
theorem decision_inj {agent agent' : String} :
    ((if agent ∈ router.availableAgents then Except.ok agent else .error (unavailable agent)) =
      if agent' ∈ router.availableAgents then Except.ok agent' else .error (unavailable agent')) ↔
      agent = agent' := by
  refine ⟨fun same => ?_, fun same => by rw [same]⟩
  split at same <;> split at same <;>
    simp only [Except.ok.injEq, Except.error.injEq, reduceCtorEq] at same
  · exact same
  · rw [unavailable, unavailable, String.append_left_inj, String.append_right_inj] at same
    exact same

/-- The precedence is followed exactly if priority alone leads to the agent that the preferred
binding names, and without a match the default agent is available. -/
theorem followsPrecedence_iff (router : BindingsRouter) (key : SessionKey) :
    router.FollowsPrecedence key ↔
      (∀ chosen preferred, router.Chosen key chosen → router.Preferred key preferred →
        chosen.agent = preferred.agent) ∧
      (router.matched key = [] → router.config.defaultAgent ∈ router.availableAgents) := by
  obtain ⟨none, default⟩ | ⟨binding, foremost, decided⟩ :=
    route_spec router key
  · constructor
    · intro follows
      exact ⟨fun chosen _ isChosen _ => absurd isChosen (not_chosen_of_nil none),
        fun _ => follows.available _ default⟩
    · rintro ⟨-, present⟩
      refine ⟨fun _ preferred => absurd preferred (not_chosen_of_nil none), fun _ _ => default, ?_⟩
      intro agent returned
      cases default.symm.trans returned
      exact present none
  · constructor
    · intro follows
      refine ⟨fun chosen preferred isChosen isPreferred => ?_,
        fun none => absurd foremost (not_chosen_of_nil none)⟩
      obtain rfl := foremost.unique isChosen
      exact decision_inj.mp (decided.symm.trans (follows.preferred preferred isPreferred))
    · rintro ⟨agree, -⟩
      refine ⟨fun preferred isPreferred => ?_, fun none => absurd foremost (not_chosen_of_nil none),
        fun agent returned => ?_⟩
      · rw [decided, agree binding preferred foremost isPreferred]
      · rw [decided] at returned
        split at returned
        · next present =>
            cases returned
            exact present
        · cases returned

end BindingsRouter

/-- A binding of the default priority, enabled and for all users. -/
def Binding.new (agent : String) (channel teamId : Option String) : Binding where
  agent := agent
  channel := channel
  teamId := teamId
  priority := none
  users := none
  enabled := true

/-- The bindings `main` of a channel and `coder` of a channel and a team. -/
def documentedRouter : BindingsRouter where
  config :=
    { bindings := [.new "main" (some "slack") none, .new "coder" (some "slack") (some "T123")]
      defaultAgent := "main" }
  availableAgents := ["main", "coder"]

/-- A message of the team goes to the agent of the channel. -/
theorem precedence_not_followed :
    ¬ documentedRouter.FollowsPrecedence (.withTeam "slack" "user" "T123") := by
  intro follows
  have preferred : documentedRouter.Preferred (.withTeam "slack" "user" "T123")
      (.new "coder" (some "slack") (some "T123")) := by
    refine ⟨rfl, [.new "main" (some "slack") none], [], by decide, ?_, by simp⟩
    simp only [List.mem_singleton, forall_eq]
    decide
  have decided := follows.preferred _ preferred
  have sorted : documentedRouter.matched (.withTeam "slack" "user" "T123") =
      [.new "main" (some "slack") none, .new "coder" (some "slack") (some "T123")] := by
    decide
  rw [BindingsRouter.route, sorted, List.mergeSort_of_pairwise (by decide)] at decided
  revert decided
  decide

end UHorse.Agent
