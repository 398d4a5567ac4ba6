import Mathlib.Data.List.TakeWhile

/-!
# Internet addresses as texts

A parser reads a number, a separator or an address from the beginning of a text and leaves the rest;
a text is an address if nothing is left. Whatever is read is digits, dots and colons. An address of
version 4 is read back from its four decimal numbers.
-/

namespace UHorse.Lib.IpAddr

structure Ipv4Addr where
  a : UInt8
  b : UInt8
  c : UInt8
  d : UInt8
deriving DecidableEq

structure Ipv6Addr where
  segments : Fin 8 → UInt16

inductive Addr
  | v4 (address : Ipv4Addr)
  | v6 (address : Ipv6Addr)

/-! ## What an address is for -/

namespace Ipv4Addr

variable (address : Ipv4Addr)

def isLoopback : Bool := address.a = 127

def isPrivate : Bool :=
  address.a = 10 || (address.a = 172 && 16 ≤ address.b && address.b ≤ 31) ||
    (address.a = 192 && address.b = 168)

def isLinkLocal : Bool := address.a = 169 && address.b = 254

def isUnspecified : Bool := address = ⟨0, 0, 0, 0⟩

def isBroadcast : Bool := address = ⟨255, 255, 255, 255⟩

def isDocumentation : Bool :=
  (address.a = 192 && address.b = 0 && address.c = 2) ||
    (address.a = 198 && address.b = 51 && address.c = 100) ||
    (address.a = 203 && address.b = 0 && address.c = 113)

/-- The four decimal numbers with dots between them. -/
def display : List Char :=
  Nat.toDigits 10 address.a.toNat ++ '.' :: (Nat.toDigits 10 address.b.toNat ++ '.' ::
    (Nat.toDigits 10 address.c.toNat ++ '.' :: Nat.toDigits 10 address.d.toNat))

end Ipv4Addr

namespace Ipv6Addr

def ofList (segments : List UInt16) : Ipv6Addr := ⟨fun i => segments.getD i 0⟩

variable (address : Ipv6Addr)

def isUnspecified : Bool := decide (∀ i, address.segments i = 0)

def isLoopback : Bool := decide (∀ i, address.segments i = if i = 7 then 1 else 0)

def isUniqueLocal : Bool := address.segments 0 &&& 0xfe00 = 0xfc00

def isUnicastLinkLocal : Bool := address.segments 0 &&& 0xffc0 = 0xfe80

/-- The address of version 4 that is mapped to this one, or that it is compatible with. -/
def embedded : Option Ipv4Addr :=
  if (∀ i, i < 5 → address.segments i = 0) ∧
      (address.segments 5 = 0 ∨ address.segments 5 = 0xffff) then
    some ⟨(address.segments 6 >>> 8).toUInt8, (address.segments 6).toUInt8,
      (address.segments 7 >>> 8).toUInt8, (address.segments 7).toUInt8⟩
  else none

end Ipv6Addr

/-! ## The parsers -/

/-- The value of a digit. -/
def digit? (radix : Nat) (c : Char) : Option Nat :=
  let value :=
    if '0' ≤ c ∧ c ≤ '9' then some (c.toNat - '0'.toNat)
    else if 'a' ≤ c ∧ c ≤ 'z' then some (c.toNat - 'a'.toNat + 10)
    else if 'A' ≤ c ∧ c ≤ 'Z' then some (c.toNat - 'A'.toNat + 10)
    else none
  value.filter fun value => value < radix

def readGivenChar (given : Char) : List Char → Option (List Char)
  | [] => none
  | c :: rest => if c = given then some rest else none

/-- A number of at most so many digits, below the bound. -/
def readNumber (radix maxDigits : Nat) (allowZeroPrefix : Bool) (bound : Nat) (text : List Char) :
    Option (Nat × List Char) :=
  let isDigit := fun c => (digit? radix c).isSome
  let digits := text.takeWhile isDigit
  if maxDigits < digits.length ∨ digits = [] then none
  else if !allowZeroPrefix && text.head? = some '0' && 1 < digits.length then none
  else
    let value := digits.foldl (fun value c => value * radix + (digit? radix c).getD 0) 0
    if value < bound then some (value, text.dropWhile isDigit) else none

def readOctet (text : List Char) : Option (Nat × List Char) := readNumber 10 3 false 256 text

def readIpv4 (text : List Char) : Option (Ipv4Addr × List Char) := do
  let (a, rest) ← readOctet text
  let (b, rest) ← (readGivenChar '.' rest).bind readOctet
  let (c, rest) ← (readGivenChar '.' rest).bind readOctet
  let (d, rest) ← (readGivenChar '.' rest).bind readOctet
  some (⟨.ofNat a, .ofNat b, .ofNat c, .ofNat d⟩, rest)

/-- No separator stands before the first. -/
def readSeparated {α : Type} (first : Bool) (inner : List Char → Option (α × List Char))
    (text : List Char) : Option (α × List Char) :=
  if first then inner text else (readGivenChar ':' text).bind inner

/-- Groups between colons, at most `fuel` of them; an address of version 4 may stand for the last
two. The flag says whether it does. -/
def readGroups (first : Bool) : Nat → List Char → List UInt16 × Bool × List Char
  | 0, text => ([], false, text)
  | fuel + 1, text =>
    match if 0 < fuel then readSeparated first readIpv4 text else none with
    | some (v4, rest) =>
      ([v4.a.toUInt16 <<< 8 ||| v4.b.toUInt16, v4.c.toUInt16 <<< 8 ||| v4.d.toUInt16], true,
        rest)
    | none =>
      match readSeparated first (readNumber 16 4 true 65536) text with
      | none => ([], false, text)
      | some (group, rest) =>
        let others := readGroups false fuel rest
        (.ofNat group :: others.1, others.2)

/-- Eight groups, or fewer around `::`. -/
def readIpv6 (text : List Char) : Option (Ipv6Addr × List Char) :=
  match readGroups true 8 text with
  | (head, ended, rest) =>
    if head.length = 8 then some (.ofList head, rest)
    else if ended then none
    else
      ((readGivenChar ':' rest).bind (readGivenChar ':')).map fun rest =>
        match readGroups true (8 - (head.length + 1)) rest with
        | (tail, _, rest) =>
          (.ofList (head ++ List.replicate (8 - head.length - tail.length) 0 ++ tail), rest)

/-- The version is the one that can be read; nothing may be left then. -/
def parse (text : List Char) : Option Addr :=
  match (readIpv4 text).map fun read => (Addr.v4 read.1, read.2) with
  | some (address, rest) => if rest = [] then some address else none
  | none =>
    match readIpv6 text with
    | some (address, rest) => if rest = [] then some (.v6 address) else none
    | none => none

/-! ## What is read -/

/-- The letters of addresses. -/
def isLetter (c : Char) : Bool := (digit? 16 c).isSome || c = '.' || c = ':'

/-- Whatever the parser reads from the beginning of a text is letters of addresses. -/
def Reads {α : Type} (parser : List Char → Option (α × List Char)) : Prop :=
  ∀ text value rest, parser text = some (value, rest) →
    ∃ front, text = front ++ rest ∧ ∀ c ∈ front, isLetter c = true

theorem isSome_digit?_mono {radix more : Nat} (fewer : radix ≤ more) {c : Char}
    (digit : (digit? radix c).isSome) : (digit? more c).isSome := by
  obtain ⟨value, found⟩ := Option.isSome_iff_exists.mp digit
  obtain ⟨shape, small⟩ := Option.filter_eq_some_iff.mp found
  have below : value < more := Nat.lt_of_lt_of_le (of_decide_eq_true small) fewer
  have kept : digit? more c = some value :=
    Option.filter_eq_some_iff.mpr ⟨shape, decide_eq_true below⟩
  rw [kept]
  rfl

theorem reads_readNumber {radix : Nat} (few : radix ≤ 16) (maxDigits : Nat)
    (allowZeroPrefix : Bool) (bound : Nat) :
    Reads (readNumber radix maxDigits allowZeroPrefix bound) := by
  intro text value rest read
  simp only [readNumber] at read
  split_ifs at read with tooMany zero small
  obtain ⟨-, rfl⟩ := Prod.mk.inj (Option.some.inj read)
  refine ⟨text.takeWhile fun c => (digit? radix c).isSome, ?_, fun c member => ?_⟩
  · rw [List.takeWhile_append_dropWhile]
  · have digit := isSome_digit?_mono few
      (List.mem_takeWhile_imp (p := fun c => (digit? radix c).isSome) member)
    simp [isLetter, digit]

theorem Reads.bind {α β : Type} {first : List Char → Option (α × List Char)}
    {second : α → List Char → Option (β × List Char)} (reads : Reads first)
    (further : ∀ value, Reads (second value)) :
    Reads fun text => (first text).bind fun read => second read.1 read.2 := by
  intro text value rest read
  obtain ⟨⟨middle, between⟩, early, late⟩ := Option.bind_eq_some_iff.mp read
  obtain ⟨front, rfl, letters⟩ := reads text middle between early
  obtain ⟨back, rfl, more⟩ := further middle between value rest late
  exact ⟨front ++ back, by rw [List.append_assoc], List.forall_mem_append.mpr ⟨letters, more⟩⟩

theorem Reads.after {α : Type} {parser : List Char → Option (α × List Char)} (reads : Reads parser)
    {given : Char} (letter : isLetter given = true) :
    Reads fun text => (readGivenChar given text).bind parser := by
  intro text value rest read
  obtain ⟨between, early, late⟩ := Option.bind_eq_some_iff.mp read
  cases text with
  | nil => cases early
  | cons c text =>
    simp only [readGivenChar] at early
    split_ifs at early with same
    obtain rfl := Option.some.inj early
    obtain ⟨front, rfl, letters⟩ := reads text value rest late
    exact ⟨c :: front, rfl, List.forall_mem_cons.mpr ⟨same ▸ letter, letters⟩⟩

theorem reads_pure {α : Type} (value : α) : Reads fun text => some (value, text) := by
  rintro text _ _ ⟨⟩
  exact ⟨[], rfl, by simp⟩

theorem reads_readOctet : Reads readOctet := reads_readNumber (by decide) 3 false 256

theorem reads_readIpv4 : Reads readIpv4 := by
  have dot : Reads fun text => (readGivenChar '.' text).bind readOctet :=
    reads_readOctet.after (by decide)
  exact reads_readOctet.bind fun a => dot.bind fun b => dot.bind fun c => dot.bind fun d =>
    reads_pure (⟨.ofNat a, .ofNat b, .ofNat c, .ofNat d⟩ : Ipv4Addr)

theorem Reads.separated {α : Type} {inner : List Char → Option (α × List Char)}
    (reads : Reads inner) (first : Bool) : Reads (readSeparated first inner) := by
  cases first with
  | false => exact reads.after (by decide)
  | true => exact reads

/-- The groups are letters of addresses. -/
theorem exists_of_readGroups (first : Bool) (fuel : Nat) (text : List Char) :
    ∃ front, text = front ++ (readGroups first fuel text).2.2 ∧
      ∀ c ∈ front, isLetter c = true := by
  induction fuel generalizing first text with
  | zero => exact ⟨[], rfl, by simp⟩
  | succ fuel ih =>
    rw [readGroups]
    cases early : if 0 < fuel then readSeparated first readIpv4 text else none with
    | some read =>
      split_ifs at early
      exact reads_readIpv4.separated first text read.1 read.2 early
    | none =>
      cases grouped : readSeparated first (readNumber 16 4 true 65536) text with
      | none => exact ⟨[], rfl, by simp⟩
      | some read =>
        obtain ⟨front, rfl, letters⟩ := (reads_readNumber (le_refl 16) 4 true
          65536).separated first text read.1 read.2 grouped
        obtain ⟨back, whole, more⟩ := ih false read.2
        refine ⟨front ++ back, ?_, List.forall_mem_append.mpr ⟨letters, more⟩⟩
        rw [List.append_assoc]
        exact congrArg (front ++ ·) whole

theorem eq_of_readGivenChar {given : Char} {text rest : List Char}
    (read : readGivenChar given text = some rest) : text = given :: rest := by
  cases text with
  | nil => cases read
  | cons c text =>
    simp only [readGivenChar] at read
    split_ifs at read with same
    rw [same, Option.some.inj read]

theorem reads_readIpv6 : Reads readIpv6 := by
  intro text value rest read
  obtain ⟨front, whole, letters⟩ := exists_of_readGroups true 8 text
  simp only [readIpv6] at read
  split_ifs at read with eight ended
  · obtain ⟨-, rfl⟩ := Prod.mk.inj (Option.some.inj read)
    exact ⟨front, whole, letters⟩
  · obtain ⟨between, colons, same⟩ := Option.map_eq_some_iff.mp read
    obtain ⟨-, rfl⟩ := Prod.mk.inj same
    obtain ⟨later, first, second⟩ := Option.bind_eq_some_iff.mp colons
    obtain ⟨back, whole', more⟩ := exists_of_readGroups true
      (8 - ((readGroups true 8 text).1.length + 1)) between
    refine ⟨front ++ ':' :: ':' :: back, ?_, ?_⟩
    · rw [List.append_assoc, List.cons_append, List.cons_append, ← whole', ←
        eq_of_readGivenChar second, ← eq_of_readGivenChar first]
      exact whole
    · simp only [List.forall_mem_append, List.forall_mem_cons]
      exact ⟨letters, by decide, by decide, more⟩

/-- Every letter of a text that is an address is a digit, a dot or a colon. -/
theorem letters_of_parse {text : List Char} {address : Addr} (parsed : parse text = some address) :
    ∀ c ∈ text, isLetter c = true := by
  have whole : ∀ {α : Type} {parser : List Char → Option (α × List Char)} {value : α},
      Reads parser → parser text = some (value, []) → ∀ c ∈ text, isLetter c = true := by
    intro α parser value reads read
    obtain ⟨front, rfl, letters⟩ := reads text value [] read
    simpa using letters
  rw [parse] at parsed
  cases early : readIpv4 text with
  | some read =>
    obtain ⟨value, rest⟩ := read
    simp only [early, Option.map_some] at parsed
    split_ifs at parsed with ended
    exact whole reads_readIpv4 (ended ▸ early)
  | none =>
    simp only [early, Option.map_none] at parsed
    cases late : readIpv6 text with
    | none => simp [late] at parsed
    | some read =>
      obtain ⟨value, rest⟩ := read
      simp only [late] at parsed
      split_ifs at parsed with ended
      exact whole reads_readIpv6 (ended ▸ late)

theorem parse_eq_none {text : List Char} {c : Char} (member : c ∈ text)
    (other : isLetter c = false) : parse text = none := by
  cases parsed : parse text with
  | none => rfl
  | some address =>
    rw [letters_of_parse parsed c member] at other
    cases other

/-! ## An address of version 4 is read back -/

def decimalValue (digits : List Char) : Nat :=
  digits.foldl (fun value c => value * 10 + (digit? 10 c).getD 0) 0

set_option maxRecDepth 4000 in
theorem octet_digits : ∀ n < 256, decimalValue (Nat.toDigits 10 n) = n ∧
    (Nat.toDigits 10 n).all (fun c => (digit? 10 c).isSome) = true ∧
      (Nat.toDigits 10 n).length ≤ 3 ∧ Nat.toDigits 10 n ≠ [] ∧
        ((Nat.toDigits 10 n).head? = some '0' → (Nat.toDigits 10 n).length ≤ 1) := by
  decide

theorem readOctet_toDigits {n : Nat} (small : n < 256) {rest : List Char}
    (stop : ∀ c ∈ rest.head?, (digit? 10 c).isSome = false) :
    readOctet (Nat.toDigits 10 n ++ rest) = some (n, rest) := by
  obtain ⟨value, digits, short, nonempty, plain⟩ := octet_digits n small
  have stops : rest.takeWhile (fun c => (digit? 10 c).isSome) = [] ∧
      rest.dropWhile (fun c => (digit? 10 c).isSome) = rest := by
    cases rest with
    | nil => exact ⟨rfl, rfl⟩
    | cons c rest =>
      have other := stop c rfl
      exact ⟨List.takeWhile_cons_of_neg (by simp [other]),
        List.dropWhile_cons_of_neg (by simp [other])⟩
  have taken : (Nat.toDigits 10 n ++ rest).takeWhile (fun c => (digit? 10 c).isSome) =
      Nat.toDigits 10 n := by
    rw [List.takeWhile_append_of_pos (List.all_eq_true.mp digits), stops.1, List.append_nil]
  have left : (Nat.toDigits 10 n ++ rest).dropWhile (fun c => (digit? 10 c).isSome) = rest := by
    rw [List.dropWhile_append_of_pos (List.all_eq_true.mp digits), stops.2]
  have head : (Nat.toDigits 10 n ++ rest).head? = (Nat.toDigits 10 n).head? := by
    obtain ⟨c, digits, shape⟩ := List.exists_cons_of_ne_nil nonempty
    rw [shape, List.cons_append, List.head?_cons, List.head?_cons]
  have unpadded : ¬ ((!false && decide ((Nat.toDigits 10 n).head? = some '0') &&
      decide (1 < (Nat.toDigits 10 n).length)) = true) := by
    simp only [Bool.not_false, Bool.true_and, Bool.and_eq_true, decide_eq_true_eq, not_and]
    intro zero
    have most := plain zero
    omega
  have fits : ¬ (3 < (Nat.toDigits 10 n).length ∨ Nat.toDigits 10 n = []) := by
    rw [not_or]
    exact ⟨by omega, nonempty⟩
  have number : (Nat.toDigits 10 n).foldl
      (fun value c => value * 10 + (digit? 10 c).getD 0) 0 = n := value
  simp only [readOctet, readNumber, taken, left, head]
  rw [if_neg fits, if_neg unpadded, number, if_pos small]

theorem digit?_dot : digit? 10 '.' = none := by decide

/-- The numbers of an address are read back one after the other. -/
theorem readIpv4_display (address : Ipv4Addr) : readIpv4 address.display = some (address, []) := by
  have dot : ∀ {n : Nat} (rest : List Char), n < 256 →
      readOctet (Nat.toDigits 10 n ++ '.' :: rest) = some (n, '.' :: rest) :=
    fun rest small => readOctet_toDigits small (by simp [digit?_dot])
  have last : readOctet (Nat.toDigits 10 address.d.toNat) = some (address.d.toNat, []) := by
    have read : readOctet (Nat.toDigits 10 address.d.toNat ++ []) = some (address.d.toNat, []) :=
      readOctet_toDigits address.d.toNat_lt (by simp)
    rwa [List.append_nil] at read
  have given : ∀ rest, readGivenChar '.' ('.' :: rest) = some rest := by
    simp [readGivenChar]
  rw [readIpv4, Ipv4Addr.display]
  simp only [dot _ address.a.toNat_lt, Option.bind_eq_bind, Option.bind_some, given,
    dot _ address.b.toNat_lt, dot _ address.c.toNat_lt, last, UInt8.ofNat_toNat]

theorem parse_display (address : Ipv4Addr) : parse address.display = some (.v4 address) := by
  simp only [parse, readIpv4_display, Option.map_some, if_true]

theorem digits_of_display {address : Ipv4Addr} :
    ∀ c ∈ address.display, c = '.' ∨ c.isDigit = true := by
  have digits : ∀ n, ∀ c ∈ Nat.toDigits 10 n, c = '.' ∨ c.isDigit = true :=
    fun n c member => .inr (Nat.isDigit_of_mem_toDigits (by decide) (by decide) member)
  simp only [Ipv4Addr.display, List.forall_mem_append, List.forall_mem_cons, true_or, true_and]
  exact ⟨digits _, digits _, digits _, digits _⟩

end UHorse.Lib.IpAddr
