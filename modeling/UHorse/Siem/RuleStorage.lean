import UHorse.Protocol.Serde
import UHorse.Siem.Alerts

/-!
# Alert rules as JSON

A condition is written with its name under `type`, merged into its content, which has to be a map.
The contents of most conditions are texts or lists, for which writing fails; a negated condition
has a map with a `type` of its own, and what is written then has the key twice.
-/

namespace UHorse.Siem

open UHorse.Protocol UHorse.Protocol.Serde

namespace AlertCondition

/-- The content with the tag merged into it. -/
def mergeTag (tag : String) : Json → Option Json
  | .object entries => some (.object (("type", .string tag) :: entries))
  | _ => none

mutual

def serialize : AlertCondition → Option Json
  | .always => mergeTag "always" (.object [])
  | .resultEquals result => mergeTag "result_equals" (.string result)
  | .actorEquals actor => mergeTag "actor_equals" (.string actor)
  | .resourceMatches pattern => mergeTag "resource_matches" (.string pattern)
  | .actionEquals action => mergeTag "action_equals" (.string action)
  | .custom expression => mergeTag "custom" (.string expression)
  | .and conditions => (serializeAll conditions).bind fun items => mergeTag "and" (.array items)
  | .or conditions => (serializeAll conditions).bind fun items => mergeTag "or" (.array items)
  | .not condition => (serialize condition).bind (mergeTag "not")

def serializeAll : List AlertCondition → Option (List Json)
  | [] => some []
  | condition :: rest =>
    (serialize condition).bind fun first => (serializeAll rest).map (first :: ·)

end

/-- What is left of a map without its tag. -/
def untagged (entries : List (String × Json)) : List (String × Json) :=
  entries.filter fun entry => entry.1 ≠ "type"

end AlertCondition

/-- A rule with the parts of it that no matching reads. -/
structure StoredRule extends AlertRule where
  description : String
  notificationChannels : List String

/-- A number of a fixed width, written as a number. -/
def unsigned {α : Type} (size : Nat) (toNat : α → Nat) (ofNat : Nat → α) : Codec α where
  encode a := Codec.nat.encode (toNat a)
  decode value := (Codec.nat.decode value).bind fun n =>
    if n < size then some (ofNat n) else none

theorem unsigned_roundTrips {α : Type} {size : Nat} {toNat : α → Nat} {ofNat : Nat → α}
    (small : ∀ a, toNat a < size) (inverse : ∀ a, ofNat (toNat a) = a) :
    (unsigned size toNat ofNat).RoundTrips fun _ => True := by
  refine Codec.roundTrips_of_eq fun a => ?_
  dsimp only [unsigned]
  rw [Codec.eq_of_roundTrips Codec.nat, Option.bind_some, if_pos (small a), inverse]

def thresholdCodec : Codec UInt32 := unsigned UInt32.size UInt32.toNat UInt32.ofNat

def windowCodec : Codec UInt64 := unsigned UInt64.size UInt64.toNat UInt64.ofNat

instance : thresholdCodec.RoundTrips fun _ => True :=
  unsigned_roundTrips UInt32.toNat_lt fun _ => UInt32.ofNat_toNat

instance : windowCodec.RoundTrips fun _ => True :=
  unsigned_roundTrips UInt64.toNat_lt fun _ => UInt64.ofNat_toNat

def AlertSeverity.name : AlertSeverity → String
  | low => "low"
  | medium => "medium"
  | high => "high"
  | critical => "critical"

def AlertSeverity.codec : Codec AlertSeverity :=
  .enumeration AlertSeverity.name [.low, .medium, .high, .critical]

instance : AlertSeverity.codec.RoundTrips fun _ => True :=
  Codec.enumeration_roundTrips fun severity => by cases severity <;> rfl

namespace StoredRule

/-- The fields of a rule around its condition, in their order. -/
def fields :=
  (Fields.required "id" Codec.string).and <| (Fields.required "name" Codec.string).and <|
    (Fields.required "description" Codec.string).and <|
    (Fields.required "severity" AlertSeverity.codec).and <|
    (Fields.required "event_types" Codec.string.list).and <|
    (Fields.required "condition" Codec.json).and <|
    (Fields.required "threshold" thresholdCodec).and <|
    (Fields.required "window_secs" windowCodec).and <|
    (Fields.required "enabled" Codec.bool).and <|
    Fields.required "notification_channels" Codec.string.list

instance : fields.RoundTrips fun _ => True := by
  rw [fields]
  exact Body.RoundTrips.congr inferInstance fun _ => by simp

def serialize (rule : StoredRule) : Option Json :=
  rule.condition.serialize.map fun condition =>
    fields.codec.encode (rule.id, rule.name, rule.description, rule.severity, rule.eventTypes,
      condition, rule.threshold, rule.windowSecs, rule.enabled, rule.notificationChannels)

end StoredRule
end UHorse.Siem
