import Mathlib
import UHorse.Protocol.Types

/-!
# Codecs in the manner of derived serialisation

A codec maps the values of a type to JSON values and back; reading fails where
a deserialiser would return an error. Records are assembled field by field: a
`Fields` writes entries under its keys only and reads nothing else, so fields with
different keys do not disturb each other. An enumeration with data writes the name of the
variant under a tag next to the fields of the variant.

`Exact` says for which values reading back what was written returns the value.
Every construction comes with the rule that gives its exact condition from those
of its parts; `RoundTrips` lets instance resolution put the rules together. The
widths of integers are not part of a codec: a number fits the type it was written
from.
-/

namespace UHorse.Protocol.Serde

open UHorse.Lib

structure Codec (α : Type) where
  encode : α → Json
  decode : Json → Option α

/-- The values that satisfy `P`, and no others, survive being written and read. -/
def Codec.Exact {α : Type} (codec : Codec α) (P : α → Prop) : Prop :=
  ∀ a, codec.decode (codec.encode a) = some a ↔ P a

/-- The exact condition of a codec, found from its construction. -/
class Codec.RoundTrips {α : Type} (codec : Codec α) (P : outParam (α → Prop)) : Prop where
  exact : codec.Exact P

/-- No value is written as `null`. -/
class Codec.Visible {α : Type} (codec : Codec α) : Prop where
  encode_ne_null : ∀ a, codec.encode a ≠ .null

namespace Codec

variable {α β : Type}

/-- Every value survives. -/
theorem roundTrips_of_eq {codec : Codec α} (same : ∀ a, codec.decode (codec.encode a) = some a) :
    codec.RoundTrips fun _ => True := ⟨fun a => iff_of_true (same a) trivial⟩

theorem eq_of_roundTrips (codec : Codec α) [kept : codec.RoundTrips fun _ => True] (a : α) :
    codec.decode (codec.encode a) = some a := (kept.exact a).mpr trivial

/-! ## Single values -/

def string : Codec String where
  encode := .string
  decode := Json.asStr

def bool : Codec Bool where
  encode := .bool
  decode
    | .bool value => some value
    | _ => none

def nat : Codec Nat where
  encode n := .number n.repr
  decode
    | .number text => text.toNat?
    | _ => none

def int : Codec Int where
  encode n := .number n.repr
  decode
    | .number text => text.toInt?
    | _ => none

/-- A `u8`, written as a number. -/
def byte : Codec UInt8 where
  encode n := nat.encode n.toNat
  decode value := (nat.decode value).bind fun n =>
    if n < UInt8.size then some (UInt8.ofNat n) else none

/-- A value that is JSON itself. -/
def json : Codec Json where
  encode := id
  decode := some

/-- A newtype is written as what it wraps. -/
def wrap (codec : Codec α) (same : α ≃ β) : Codec β where
  encode b := codec.encode (same.symm b)
  decode value := (codec.decode value).map same

/-- Variants without data, by name. -/
def enumeration (name : α → String) (all : List α) : Codec α where
  encode a := .string (name a)
  decode
    | .string text => all.find? fun a => name a = text
    | _ => none

/-- `null` stands for `None`. -/
def option (codec : Codec α) : Codec (Option α) where
  encode
    | none => .null
    | some a => codec.encode a
  decode
    | .null => some none
    | value => (codec.decode value).map some

def list (codec : Codec α) : Codec (List α) where
  encode items := .array (items.map codec.encode)
  decode
    | .array items => items.mapM codec.decode
    | _ => none

/-- Insert entries into a map; the last one of a key stays. -/
def readEntries (codec : Codec α) :
    List (String × Json) → HashMap String α → Option (HashMap String α)
  | [], entries => some entries
  | (key, value) :: rest, entries =>
    (codec.decode value).bind fun a => readEntries codec rest (entries.insert key a)

/-- A map is written in the order it iterates in. -/
def map (order : HashMap String α → List (String × α)) (codec : Codec α) :
    Codec (HashMap String α) where
  encode entries := .object ((order entries).map fun entry => (entry.1, codec.encode entry.2))
  decode
    | .object fields => readEntries codec fields ∅
    | _ => none

instance : string.RoundTrips fun _ => True := roundTrips_of_eq fun _ => rfl

instance : bool.RoundTrips fun _ => True := roundTrips_of_eq fun _ => rfl

instance : json.RoundTrips fun _ => True := roundTrips_of_eq fun _ => rfl

instance : nat.RoundTrips fun _ => True := roundTrips_of_eq Nat.toNat?_repr

instance : int.RoundTrips fun _ => True := roundTrips_of_eq Int.toInt?_repr

instance : byte.RoundTrips fun _ => True := by
  refine roundTrips_of_eq fun n => ?_
  have small : n.toNat < UInt8.size := n.toNat_lt
  dsimp only [byte]
  rw [eq_of_roundTrips nat, Option.bind_some, if_pos small, UInt8.ofNat_toNat]

instance {codec : Codec α} [codec.RoundTrips fun _ => True] (same : α ≃ β) :
    (codec.wrap same).RoundTrips fun _ => True := by
  refine roundTrips_of_eq fun b => ?_
  dsimp only [wrap]
  rw [eq_of_roundTrips codec, Option.map_some, Equiv.apply_symm_apply]

theorem enumeration_roundTrips {name : α → String} {all : List α}
    (found : ∀ a, (all.find? fun other => name other = name a) = some a) :
    (enumeration name all).RoundTrips fun _ => True := roundTrips_of_eq found

/-- A present value that is written as `null` comes back as `None`. -/
theorem option_exact {codec : Codec α} {P : α → Prop} (exact : codec.Exact P) :
    codec.option.Exact fun value => ∀ a, value = some a → codec.encode a ≠ .null ∧ P a := by
  intro value
  cases value with
  | none => simp [option]
  | some a =>
    have read : codec.option.decode (codec.encode a) =
        if codec.encode a = .null then some none
        else (codec.decode (codec.encode a)).map some := by
      cases written : codec.encode a <;> simp [option]
    have shown : codec.option.encode (some a) = codec.encode a := rfl
    rw [shown, read]
    by_cases null : codec.encode a = .null
    · simp [null]
    · simp [null, exact a]

instance {codec : Codec α} {P : α → Prop} [kept : codec.RoundTrips P] [visible : codec.Visible] :
    codec.option.RoundTrips fun value => ∀ a, value = some a → P a := by
  refine ⟨fun value => (option_exact kept.exact value).trans ?_⟩
  simp [visible.encode_ne_null]

/-- Of optional JSON values, `Some(null)` is lost. -/
instance : json.option.RoundTrips fun value => value ≠ some .null := by
  have kept : json.RoundTrips fun _ => True := inferInstance
  refine ⟨fun value => (option_exact kept.exact value).trans ?_⟩
  cases value <;> simp [json]

instance {codec : Codec α} {P : α → Prop} [kept : codec.RoundTrips P] :
    codec.list.RoundTrips fun items => ∀ a ∈ items, P a := by
  refine ⟨fun items => ?_⟩
  dsimp only [list]
  induction items with
  | nil => simp
  | cons first rest ih =>
    rw [List.map_cons, List.mapM_cons, List.forall_mem_cons, ← kept.exact first, ← ih]
    simp [Option.bind_eq_some_iff]

instance : string.Visible := ⟨fun _ => nofun⟩

instance : nat.Visible := ⟨fun _ => nofun⟩

instance : int.Visible := ⟨fun _ => nofun⟩

instance {codec : Codec α} : codec.list.Visible := ⟨fun _ => nofun⟩

instance {codec : Codec α} [visible : codec.Visible] (same : α ≃ β) : (codec.wrap same).Visible :=
  ⟨fun b => visible.encode_ne_null (same.symm b)⟩

theorem readEntries_written (codec : Codec α) [codec.RoundTrips fun _ => True]
    (order : List (String × α)) (entries : HashMap String α) :
    readEntries codec (order.map fun entry => (entry.1, codec.encode entry.2)) entries =
      some (order.foldl (fun entries entry => entries.insert entry.1 entry.2) entries) := by
  induction order generalizing entries with
  | nil => rfl
  | cons first rest ih =>
    rw [List.map_cons, readEntries, eq_of_roundTrips codec, Option.bind_some, ih,
      List.foldl_cons]

theorem lookup_inserts {order : List (String × α)} (nodup : (order.map Prod.fst).Nodup)
    (entries : HashMap String α) (key : String) (a : α) :
    (order.foldl (fun entries entry => entries.insert entry.1 entry.2) entries).lookup key =
        some a ↔
      (key, a) ∈ order ∨ key ∉ order.map Prod.fst ∧ entries.lookup key = some a := by
  induction order generalizing entries with
  | nil => simp
  | cons first rest ih =>
    obtain ⟨fresh, nodup⟩ := List.nodup_cons.mp nodup
    rw [List.foldl_cons, ih nodup, HashMap.lookup_insert_ite]
    obtain ⟨firstKey, firstValue⟩ := first
    by_cases same : key = firstKey
    · subst same
      have elsewhere : (key, a) ∉ rest := fun member =>
        fresh (List.mem_map.mpr ⟨_, member, rfl⟩)
      have absent : key ∉ rest.map Prod.fst := fresh
      rw [if_pos rfl]
      simp only [elsewhere, absent, List.mem_cons, List.map_cons]
      grind
    · rw [if_neg same]
      simp [same]

/-- A map whose iteration lists its entries survives. -/
theorem map_roundTrips {order : HashMap String α → List (String × α)}
    (listed : ∀ entries : HashMap String α, entries.Lists (order entries)) (codec : Codec α)
    [codec.RoundTrips fun _ => True] : (codec.map order).RoundTrips fun _ => True := by
  refine roundTrips_of_eq fun entries => ?_
  dsimp only [map]
  rw [readEntries_written codec]
  congr 1
  obtain ⟨nodup, mem⟩ := listed entries
  refine Finmap.ext_lookup fun key => Option.ext fun a => ?_
  rw [lookup_inserts nodup, mem]
  simp

end Codec

/-! ## Objects -/

/-- What is written between the braces of an object. -/
structure Body (α : Type) where
  write : α → List (String × Json)
  read : List (String × Json) → Option α

/-- Entries under the keys of `keys`, read independently of all others. -/
structure Fields (α : Type) extends Body α where
  keys : List String
  written : ∀ a, ∀ entry ∈ write a, entry.1 ∈ keys
  reads : ∀ entries, read (entries.filter fun entry => entry.1 ∈ keys) = read entries

def Body.Exact {α : Type} (body : Body α) (P : α → Prop) : Prop :=
  ∀ a, body.read (body.write a) = some a ↔ P a

/-- The object with a body. -/
def Body.codec {α : Type} (body : Body α) : Codec α where
  encode a := .object (body.write a)
  decode
    | .object entries => body.read entries
    | _ => none

/-- The exact condition of a body, found from its construction. -/
class Body.RoundTrips {α : Type} (body : Body α) (P : outParam (α → Prop)) : Prop where
  exact : body.Exact P

theorem Body.RoundTrips.congr {α : Type} {body : Body α} {P Q : α → Prop}
    (kept : body.RoundTrips P) (same : ∀ a, P a ↔ Q a) : body.RoundTrips Q :=
  ⟨fun a => (kept.exact a).trans (same a)⟩

instance {α : Type} {body : Body α} {P : α → Prop} [kept : body.RoundTrips P] :
    body.codec.RoundTrips P := ⟨kept.exact⟩

instance {α : Type} {body : Body α} : body.codec.Visible := ⟨fun _ => nofun⟩

namespace Fields

variable {α β : Type}

/-- One field: left out if `skip` says so, read as `missing` where it is absent, and refused
where it occurs twice. -/
def field (key : String) (codec : Codec α) (skip : α → Bool) (missing : Option α) : Fields α where
  write a := if skip a then [] else [(key, codec.encode a)]
  read entries :=
    match entries.filter fun entry => entry.1 = key with
    | [] => missing
    | [entry] => codec.decode entry.2
    | _ => none
  keys := [key]
  written a entry member := by
    split at member
    · cases member
    · cases List.mem_singleton.mp member
      exact List.mem_singleton_self key
  reads entries := by
    have same : ((entries.filter fun entry => entry.1 ∈ [key]).filter fun entry => entry.1 = key) =
        entries.filter fun entry => entry.1 = key := by
      rw [List.filter_filter]
      congr 1
      funext entry
      simp
    rw [same]

/-- A field that has to be there. -/
def required (key : String) (codec : Codec α) : Fields α := field key codec (fun _ => false) none

/-- `#[serde(default)]` and `#[serde(default = "..")]`. -/
def defaulted (key : String) (codec : Codec α) (default : α) : Fields α :=
  field key codec (fun _ => false) (some default)

/-- An `Option` field; it may be absent whatever its attributes. -/
def optional (key : String) (codec : Codec α) : Fields (Option α) :=
  defaulted key codec.option none

/-- `#[serde(skip_serializing_if = "Option::is_none")]`. -/
def skipNone (key : String) (codec : Codec α) : Fields (Option α) :=
  field key codec.option Option.isNone (some none)

/-- `#[serde(default, skip_serializing_if = "..::is_empty")]`. -/
def skipEmpty (key : String) (codec : Codec α) (isEmpty : α → Bool) (empty : α) : Fields α :=
  field key codec isEmpty (some empty)

/-- No fields. -/
def nothing : Fields Unit where
  write _ := []
  read _ := some ()
  keys := []
  written _ _ member := nomatch member
  reads _ := rfl

/-- No key of the first list is in the second. -/
def apart (first second : List String) : Bool := first.all fun key => !second.contains key

theorem notMem_of_apart {first second : List String} (disjoint : apart first second = true)
    {key : String} (member : key ∈ first) : key ∉ second := by
  simpa using List.all_eq_true.mp disjoint key member

/-- The fields of both, which have no key in common. -/
def and (first : Fields α) (second : Fields β)
    (_disjoint : apart first.keys second.keys = true := by exact of_decide_eq_true rfl) :
    Fields (α × β) where
  write pair := first.write pair.1 ++ second.write pair.2
  read entries := (first.read entries).bind fun a => (second.read entries).map fun b => (a, b)
  keys := first.keys ++ second.keys
  written pair entry member := by
    rw [List.mem_append] at member ⊢
    exact member.imp (first.written _ entry) (second.written _ entry)
  reads entries := by
    have narrow : ∀ keys : List String, (∀ key ∈ keys, key ∈ first.keys ++ second.keys) →
        ((entries.filter fun entry => entry.1 ∈ first.keys ++ second.keys).filter
          fun entry => entry.1 ∈ keys) = entries.filter fun entry => entry.1 ∈ keys := by
      intro keys included
      rw [List.filter_filter]
      congr 1
      funext entry
      by_cases listed : entry.1 ∈ keys
      · simp [listed, List.mem_append.mp (included _ listed)]
      · simp [listed]
    rw [← first.reads, narrow _ fun key member => List.mem_append_left _ member, first.reads,
      ← second.reads, narrow _ fun key member => List.mem_append_right _ member, second.reads]

/-- The fields of a record, given by its parts. -/
def as (fields : Fields α) (parts : α ≃ β) : Fields β where
  write b := fields.write (parts.symm b)
  read entries := (fields.read entries).map parts
  keys := fields.keys
  written b entry member := fields.written _ entry member
  reads entries := by rw [fields.reads]

theorem field_exact {key : String} {codec : Codec α} {skip : α → Bool} {missing : Option α}
    {P : α → Prop} (exact : codec.Exact P) :
    (field key codec skip missing).Exact fun a => if skip a then missing = some a else P a := by
  intro a
  cases skipped : skip a with
  | true => simp [field, skipped]
  | false => simp [field, skipped, exact a]

instance {key : String} {codec : Codec α} {P : α → Prop} [kept : codec.RoundTrips P] :
    (required key codec).RoundTrips P := ⟨field_exact kept.exact⟩

instance {key : String} {codec : Codec α} {default : α} {P : α → Prop}
    [kept : codec.RoundTrips P] : (defaulted key codec default).RoundTrips P :=
  ⟨field_exact kept.exact⟩

instance {key : String} {codec : Codec α} {P : Option α → Prop} [kept : codec.option.RoundTrips P] :
    (optional key codec).RoundTrips P := ⟨field_exact kept.exact⟩

theorem skip_roundTrips {key : String} {codec : Codec α} {P : α → Prop} {skip : α → Bool}
    {missing : α} (kept : codec.RoundTrips P) (unique : ∀ a, skip a = true → a = missing)
    (fine : P missing) : (field key codec skip (some missing)).RoundTrips P := by
  refine ⟨fun a => (field_exact kept.exact a).trans ?_⟩
  cases skipped : skip a with
  | true =>
    obtain rfl := unique a skipped
    simp [skipped, fine]
  | false => simp [skipped]

instance {key : String} {codec : Codec α} {P : α → Prop} [kept : codec.RoundTrips P]
    [codec.Visible] : (skipNone key codec).RoundTrips fun value => ∀ a, value = some a → P a :=
  skip_roundTrips inferInstance (fun _ => Option.isNone_iff_eq_none.mp) nofun

instance {key : String} : (skipNone key Codec.json).RoundTrips fun value => value ≠ some .null :=
  skip_roundTrips inferInstance (fun _ => Option.isNone_iff_eq_none.mp) nofun

instance : nothing.RoundTrips fun _ => True := ⟨fun _ => iff_of_true rfl trivial⟩

/-- What others write under other keys is not read. -/
theorem read_append {fields : Fields α} {others : List (String × Json)}
    (apart : ∀ entry ∈ others, entry.1 ∉ fields.keys) (a : α) :
    fields.read (fields.write a ++ others) = fields.read (fields.write a) ∧
      fields.read (others ++ fields.write a) = fields.read (fields.write a) := by
  have own : (fields.write a).filter (fun entry => entry.1 ∈ fields.keys) = fields.write a :=
    List.filter_eq_self.mpr fun entry member => decide_eq_true (fields.written a entry member)
  have foreign : others.filter (fun entry => entry.1 ∈ fields.keys) = [] := by
    refine List.filter_eq_nil_iff.mpr fun entry member => ?_
    simpa using apart entry member
  constructor
  · rw [← fields.reads, List.filter_append, own, foreign, List.append_nil]
  · rw [← fields.reads, List.filter_append, own, foreign, List.nil_append]

instance {first : Fields α} {second : Fields β} {P : α → Prop} {Q : β → Prop}
    [kept : first.RoundTrips P] [kept' : second.RoundTrips Q]
    (disjoint : apart first.keys second.keys = true) :
    (first.and second disjoint).RoundTrips fun pair => P pair.1 ∧ Q pair.2 := by
  refine ⟨?_⟩
  rintro ⟨a, b⟩
  have left : first.read (first.write a ++ second.write b) = first.read (first.write a) := by
    refine (read_append ?_ a).1
    intro entry member listed
    exact notMem_of_apart disjoint listed (second.written b entry member)
  have right : second.read (first.write a ++ second.write b) = second.read (second.write b) := by
    refine (read_append ?_ b).2
    intro entry member listed
    exact notMem_of_apart disjoint (first.written a entry member) listed
  dsimp only [and]
  rw [← kept.exact a, ← kept'.exact b, left, right]
  simp [Option.bind_eq_some_iff]

instance {fields : Fields α} {P : α → Prop} [kept : fields.RoundTrips P] (parts : α ≃ β) :
    (fields.as parts).RoundTrips fun b => P (parts.symm b) := by
  refine ⟨fun b => ?_⟩
  dsimp only [as]
  rw [← kept.exact (parts.symm b), Option.map_eq_some_iff]
  constructor
  · rintro ⟨a, read, rfl⟩
    rw [read, Equiv.symm_apply_apply]
  · intro read
    exact ⟨parts.symm b, read, parts.apply_symm_apply b⟩

end Fields

/-! ## Enumerations with data -/

/-- How the body of a variant is read. -/
def Body.into {α β : Type} (body : Body β) (make : β → α) (entries : List (String × Json)) :
    Option α :=
  (body.read entries).map make

/-- A variant with fields: its name and the value they make. -/
structure Variant (α β : Type) where
  name : String
  fields : Fields β
  make : β → α
  injective : Function.Injective make := by intro _ _ same; grind

/-- What each value is written as, under which keys, and how each name is read. -/
structure Variants (α : Type) where
  write : α → String × List (String × Json)
  keys : List String
  written : ∀ a, ∀ entry ∈ (write a).2, entry.1 ∈ keys
  cases : List (String × (List (String × Json) → Option α))

/-- `#[serde(tag = "..")]`: the name stands under the tag, once, and is taken out before the
body is read. -/
def Variants.tagged {α : Type} (variants : Variants α) (tag : String) : Body α where
  write a := (tag, .string (variants.write a).1) :: (variants.write a).2
  read entries :=
    match entries.filter fun entry => entry.1 = tag with
    | [(_, .string name)] => (variants.cases.lookup name).bind fun read =>
      read (entries.filter fun entry => entry.1 ≠ tag)
    | _ => none

/-- Every key of the first list is in the second. -/
def within (first second : List String) : Bool := first.all second.contains

theorem mem_of_within {first second : List String} (included : within first second = true)
    {key : String} (member : key ∈ first) : key ∈ second := by
  simpa using List.all_eq_true.mp included key member

namespace Fields

theorem written_within {β : Type} (fields : Fields β) {keys : List String}
    (included : within fields.keys keys = true) (b : β) :
    ∀ entry ∈ fields.write b, entry.1 ∈ keys :=
  fun entry member => mem_of_within included (fields.written b entry member)

end Fields

namespace Variants

variable {α β : Type} (variants : Variants α)

theorem tagged_written_within (tag : String) {keys : List String}
    (included : within (tag :: variants.keys) keys = true) (a : α) :
    ∀ entry ∈ (variants.tagged tag).write a, entry.1 ∈ keys := by
  intro entry member
  refine mem_of_within included ?_
  obtain rfl | inside := List.mem_cons.mp member
  · exact List.mem_cons_self
  · exact List.mem_cons_of_mem _ (variants.written a entry inside)

/-- Reading the body of a variant under its own name. -/
def reread (a : α) : Option α :=
  (variants.cases.lookup (variants.write a).1).bind fun read => read (variants.write a).2

variable {variants}

theorem tagged_roundTrips {tag : String} {P : α → Prop}
    (apart : variants.keys.contains tag = false)
    (each : ∀ a, variants.reread a = some a ↔ P a) : (variants.tagged tag).RoundTrips P := by
  refine ⟨fun a => ?_⟩
  rw [← each a]
  have other : ∀ entry ∈ (variants.write a).2, entry.1 ≠ tag := by
    rintro entry member rfl
    have absent : entry.1 ∉ variants.keys := by simpa using apart
    exact absent (variants.written a entry member)
  have untagged : (variants.write a).2.filter (fun entry => entry.1 = tag) = [] :=
    List.filter_eq_nil_iff.mpr fun entry member => by simpa using other entry member
  have rest : (variants.write a).2.filter (fun entry => entry.1 ≠ tag) = (variants.write a).2 :=
    List.filter_eq_self.mpr fun entry member => decide_eq_true (other entry member)
  dsimp only [tagged]
  rw [List.filter_cons_of_pos (by simp), untagged, List.filter_cons_of_neg (by simp), rest]
  rfl

variable (variants)

/-- A variant that is found under its name survives exactly if its body does. -/
theorem reread_iff (name : String) (body : Body β) {make : β → α} {P : β → Prop}
    [kept : body.RoundTrips P] (injective : Function.Injective make) (b : β)
    (written : variants.write (make b) = (name, body.write b))
    (found : variants.cases.lookup name = some (body.into make)) :
    variants.reread (make b) = some (make b) ↔ P b := by
  rw [reread, written, found, Option.bind_some, Body.into, ← kept.exact b,
    Option.map_eq_some_iff]
  constructor
  · rintro ⟨b', read, same⟩
    rw [read, injective same]
  · intro read
    exact ⟨b, read, rfl⟩

end Variants

namespace Variant

variable {α β : Type} (variant : Variant α β)

def write (b : β) : String × List (String × Json) := (variant.name, variant.fields.write b)

/-- How the fields of the variant are read, under its name. -/
def case : String × (List (String × Json) → Option α) :=
  (variant.name, variant.fields.into variant.make)

theorem written_within {keys : List String} (included : within variant.fields.keys keys = true)
    (b : β) : ∀ entry ∈ (variant.write b).2, entry.1 ∈ keys :=
  variant.fields.written_within included b

theorem reread_iff (variants : Variants α) {P : β → Prop} {Q : Prop}
    [variant.fields.RoundTrips P] (b : β)
    (written : variants.write (variant.make b) = variant.write b)
    (found : variants.cases.lookup variant.name = some variant.case.2) (same : P b ↔ Q) :
    variants.reread (variant.make b) = some (variant.make b) ↔ Q :=
  (variants.reread_iff variant.name variant.fields.toBody variant.injective b written found).trans
    same

end Variant
end UHorse.Protocol.Serde
