import Mathlib.Algebra.Group.Int.Defs
import Mathlib.Algebra.Group.Nat.Defs
import Mathlib.Algebra.GroupWithZero.Nat
import Mathlib.Data.List.Basic
import Mathlib.Data.UInt
import Std.Data.String.ToInt

/-!
# Numbers and bytes written as texts

`int64?` reads a decimal number of 64 bits with an optional sign, and reads every number back
from its decimal text. `hex` writes bytes with two hexadecimal digits each, by which they are
determined.
-/

namespace UHorse.Lib.Numerals

theorem toNat_max (x y : UInt64) : (max x y).toNat = max x.toNat y.toNat := by
  show (if x ≤ y then y else x).toNat = _
  split
  · next below => exact (Nat.max_eq_right (UInt64.le_iff_toNat_le.mp below)).symm
  · next above =>
      have larger := UInt64.lt_iff_toNat_lt.mp (UInt64.not_le.mp above)
      exact (Nat.max_eq_left (Nat.le_of_lt larger)).symm

/-- A number below another has a next one. -/
theorem toNat_succ_of_lt {x y : UInt64} (below : x < y) : (x + 1).toNat = x.toNat + 1 := by
  have room := UInt64.lt_iff_toNat_lt.mp below
  have bound := y.toNat_lt
  rw [UInt64.toNat_add, UInt64.toNat_one]
  omega

/-- A sum of 64 bits that does not wrap around. -/
theorem toNat_sum_of_lt {numbers : List UInt64} (fits : (numbers.map UInt64.toNat).sum < 2 ^ 64) :
    numbers.sum.toNat = (numbers.map UInt64.toNat).sum := by
  induction numbers with
  | nil => rfl
  | cons first numbers ih =>
    rw [List.map_cons, List.sum_cons] at fits
    rw [List.map_cons, List.sum_cons, List.sum_cons, UInt64.toNat_add, ih (by omega)]
    exact Nat.mod_eq_of_lt fits

/-! ## Decimal numbers -/

/-- The number that decimal digits write. -/
def natural? (digits : List Char) : Option Nat :=
  if digits ≠ [] ∧ digits.all Char.isDigit then some (Nat.ofDigitChars 10 digits 0) else none

/-- A number that fits into 64 bits. -/
def fit? (n : Int) : Option Int64 :=
  if -2 ^ 63 ≤ n ∧ n < 2 ^ 63 then some (.ofInt n) else none

def int64? : List Char → Option Int64
  | '-' :: digits => (natural? digits).bind fun n => fit? (-n)
  | '+' :: digits => (natural? digits).bind fun n => fit? n
  | digits => (natural? digits).bind fun n => fit? n

/-- A number that fits into 32 bits; a plus sign may lead it. -/
def uint32? : List Char → Option Nat
  | '+' :: digits => (natural? digits).filter fun n => n < 2 ^ 32
  | digits => (natural? digits).filter fun n => n < 2 ^ 32

theorem digits_of_natural? {digits : List Char} {n : Nat} (read : natural? digits = some n) :
    digits ≠ [] ∧ ∀ c ∈ digits, c.isDigit = true := by
  rw [natural?] at read
  by_cases formed : digits ≠ [] ∧ digits.all Char.isDigit
  · exact ⟨formed.1, List.all_eq_true.mp formed.2⟩
  · rw [if_neg formed] at read
    cases read

theorem uint32?_of_natural? {digits : List Char} {n : Nat} (read : natural? digits = some n) :
    uint32? digits = if n < 2 ^ 32 then some n else none := by
  have each := (digits_of_natural? read).2
  have plain : uint32? digits = (natural? digits).filter fun n => n < 2 ^ 32 := by
    rcases digits with _ | ⟨c, digits⟩
    · rfl
    · unfold uint32?
      split
      · next same =>
          obtain ⟨rfl, -⟩ := List.cons.inj same
          have digit : '+'.isDigit = true := each '+' List.mem_cons_self
          cases digit
      · rfl
  rw [plain, read, Option.filter_some]
  simp

/-- Only digits and a plus sign are read. -/
theorem digits_of_uint32? {text : List Char} {n : Nat} (read : uint32? text = some n) :
    text ≠ [] ∧ (∀ c ∈ text, c = '+' ∨ c.isDigit = true) ∧ n < 2 ^ 32 := by
  unfold uint32? at read
  split at read
  · next digits =>
      obtain ⟨value, small⟩ := Option.filter_eq_some_iff.mp read
      refine ⟨List.cons_ne_nil _ _, List.forall_mem_cons.mpr ⟨.inl rfl, fun c member => .inr ?_⟩,
        by simpa using small⟩
      exact (digits_of_natural? value).2 c member
  · obtain ⟨value, small⟩ := Option.filter_eq_some_iff.mp read
    obtain ⟨nonempty, each⟩ := digits_of_natural? value
    exact ⟨nonempty, fun c member => .inr (each c member), by simpa using small⟩

theorem natural?_repr (n : Nat) : natural? n.repr.toList = some n := by
  rw [natural?, Nat.toList_repr, if_pos]
  · rw [Nat.ofDigitChars_ten_toDigits]
  · refine ⟨Nat.toDigits_ne_nil, List.all_eq_true.mpr fun c member => ?_⟩
    exact Nat.isDigit_of_mem_toDigits (by omega) (by omega) member

theorem fit?_toInt (n : Int64) : fit? n.toInt = some n := by
  rw [fit?, if_pos ⟨n.le_toInt, n.toInt_lt⟩, Int64.ofInt_toInt]

/-- A decimal text of a natural number begins with a digit. -/
theorem int64?_repr_nat (n : Nat) : int64? n.repr.toList = fit? n := by
  have value := natural?_repr n
  have digits : ∀ c ∈ n.repr.toList, c.isDigit = true := by
    rw [Nat.toList_repr]
    exact fun c member => Nat.isDigit_of_mem_toDigits (by omega) (by omega) member
  unfold int64?
  split
  · next whole =>
      have digit := digits '-' (by rw [whole]; exact List.mem_cons_self)
      cases digit
  · next whole =>
      have digit := digits '+' (by rw [whole]; exact List.mem_cons_self)
      cases digit
  · rw [value, Option.bind_some]

theorem int64?_repr (n : Int64) : int64? n.toInt.repr.toList = some n := by
  have fits := fit?_toInt n
  generalize n.toInt = value at fits ⊢
  cases value with
  | ofNat m => exact (int64?_repr_nat m).trans fits
  | negSucc m =>
    have text : (Int.negSucc m).repr.toList = '-' :: (m + 1).repr.toList := by
      rw [Int.repr, String.toList_append]
      rfl
    rw [text, int64?, natural?_repr, Option.bind_some]
    exact fits

/-- A decimal number of 64 bits has twenty characters at most. -/
theorem length_repr_le (n : Int64) : n.toInt.repr.toList.length ≤ 20 := by
  have lower := n.le_toInt
  have upper := n.toInt_lt
  generalize n.toInt = value at lower upper ⊢
  cases value with
  | ofNat m =>
    have small : (m : Int) < 2 ^ 63 := upper
    have digits : m.repr.toList.length ≤ 19 := by
      rw [Nat.toList_repr, Nat.length_toDigits_le_iff (by omega) (by omega)]
      omega
    exact Nat.le_succ_of_le digits
  | negSucc m =>
    have text : (Int.negSucc m).repr.toList = '-' :: (m + 1).repr.toList := by
      rw [Int.repr, String.toList_append]
      rfl
    have digits : (m + 1).repr.toList.length ≤ 19 := by
      rw [Nat.toList_repr, Nat.length_toDigits_le_iff (by omega) (by omega)]
      omega
    rw [text, List.length_cons]
    omega

/-! ## Hexadecimal digits -/

/-- Two lowercase hexadecimal digits for each byte. -/
def hex (bytes : List UInt8) : List Char :=
  bytes.flatMap fun byte => [(byte.toNat / 16).digitChar, (byte.toNat % 16).digitChar]

@[simp] theorem length_hex (bytes : List UInt8) : (hex bytes).length = 2 * bytes.length := by
  induction bytes with
  | nil => rfl
  | cons byte bytes ih =>
    rw [hex, List.flatMap_cons, List.length_append, ← hex, ih]
    exact Nat.add_comm _ _

theorem eq_of_digitChar {m n : Nat} (small : m < 16) (small' : n < 16)
    (same : m.digitChar = n.digitChar) : m = n := by
  have all : ∀ m < 16, ∀ n < 16, Nat.digitChar m = Nat.digitChar n → m = n := by decide
  exact all m small n small' same

theorem hex_injective : Function.Injective hex := by
  intro bytes
  induction bytes with
  | nil =>
    rintro (_ | ⟨byte, others⟩) same
    · rfl
    · cases same
  | cons byte bytes ih =>
    rintro (_ | ⟨other, others⟩) same
    · cases same
    · simp only [hex, List.flatMap_cons, List.cons_append, List.nil_append,
        List.cons.injEq] at same
      obtain ⟨high, low, rest⟩ := same
      have bound := byte.toNat_lt
      have bound' := other.toNat_lt
      have highs := eq_of_digitChar (by omega) (by omega) high
      have lows := eq_of_digitChar (by omega) (by omega) low
      have bytesSame : byte = other := UInt8.toNat_inj.mp (by omega)
      rw [bytesSame, ih rest]

end UHorse.Lib.Numerals
