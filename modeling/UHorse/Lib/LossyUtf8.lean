import UHorse.Lib.Bytes

/-!
# Bytes read as a text that may be broken

`lossy` reads bytes as UTF-8 and puts one replacement character for every broken piece: a
longest beginning of a character that does not go on, or a byte that begins none. What was
written as a text is read as that text. Bytes are determined by what is read from them just
when no replacement character is read.
-/

namespace UHorse.Lib.LossyUtf8

/-- The UTF-8 bytes of characters. -/
def encode (text : List Char) : List UInt8 := text.flatMap String.utf8EncodeChar

/-- The character at the beginning of the bytes. -/
def decodeChar? (bytes : List UInt8) : Option Char := bytes.toByteArray.utf8DecodeChar? 0

def replacement : Char := '\uFFFD'

def isContinuation (byte : UInt8) : Bool := 0x80 ≤ byte && byte ≤ 0xBF

/-- The two bytes begin a character of three bytes. -/
def beginsThree (first second : UInt8) : Bool :=
  (first == 0xE0 && 0xA0 ≤ second && second ≤ 0xBF) ||
  (0xE1 ≤ first && first ≤ 0xEC && isContinuation second) ||
  (first == 0xED && 0x80 ≤ second && second ≤ 0x9F) ||
  (0xEE ≤ first && first ≤ 0xEF && isContinuation second)

/-- The two bytes begin a character of four bytes. -/
def beginsFour (first second : UInt8) : Bool :=
  (first == 0xF0 && 0x90 ≤ second && second ≤ 0xBF) ||
  (0xF1 ≤ first && first ≤ 0xF3 && isContinuation second) ||
  (first == 0xF4 && 0x80 ≤ second && second ≤ 0x8F)

/-- How many bytes belong to the broken piece at the beginning of bytes that begin with no
character. -/
def brokenLength : List UInt8 → Nat
  | first :: second :: rest =>
    if beginsThree first second then 2
    else if beginsFour first second then if (rest.head?.any isContinuation) then 3 else 2
    else 1
  | _ => 1

theorem brokenLength_pos (bytes : List UInt8) : 0 < brokenLength bytes := by
  unfold brokenLength
  split
  · split
    · omega
    · split
      · split <;> omega
      · omega
  · omega

def lossy (bytes : List UInt8) : List Char :=
  if bytes = [] then []
  else
    match decodeChar? bytes with
    | some c => c :: lossy (bytes.drop c.utf8Size)
    | none => replacement :: lossy (bytes.drop (brokenLength bytes))
termination_by bytes.length
decreasing_by
  · have size := c.utf8Size_pos
    have positive := List.length_pos_of_ne_nil ‹bytes ≠ []›
    rw [List.length_drop]
    omega
  · have size := brokenLength_pos bytes
    have positive := List.length_pos_of_ne_nil ‹bytes ≠ []›
    rw [List.length_drop]
    omega

/-- The bytes of a text. -/
theorem utf8_eq_encode (text : String) : Bytes.utf8 text = encode text.toList := by
  have whole : text.toByteArray = (encode text.toList).toByteArray := by
    rw [encode, ← List.utf8Encode.eq_def, ← String.toByteArray_ofList, String.ofList_toList]
  rw [Bytes.utf8, whole, List.toList_data_toByteArray]

/-! ## One character -/

theorem decodeChar?_encodeChar (c : Char) (rest : List UInt8) :
    decodeChar? (String.utf8EncodeChar c ++ rest) = some c := by
  rw [decodeChar?, List.toByteArray_append]
  exact ByteArray.utf8DecodeChar?_utf8EncodeChar_append

theorem eq_of_decodeChar? {bytes : List UInt8} {c : Char} (read : decodeChar? bytes = some c) :
    bytes = String.utf8EncodeChar c ++ bytes.drop c.utf8Size := by
  obtain ⟨⟨⟨rest⟩⟩, whole⟩ := ByteArray.exists_of_utf8DecodeChar?_eq_some read
  have same : bytes = String.utf8EncodeChar c ++ rest := by
    have lists := congrArg (fun array : ByteArray => array.data.toList) whole
    simpa using lists
  rw [same]
  congr 1
  rw [← String.length_utf8EncodeChar, List.drop_left]

/-! ## Texts -/

theorem lossy_nil : lossy [] = [] := by rw [lossy, if_pos rfl]

theorem lossy_of_decodeChar? {bytes : List UInt8} {c : Char}
    (read : decodeChar? bytes = some c) : lossy bytes = c :: lossy (bytes.drop c.utf8Size) := by
  have some_ : bytes ≠ [] := by
    rintro rfl
    cases read
  rw [lossy, if_neg some_, read]

theorem lossy_broken {bytes : List UInt8} (some_ : bytes ≠ [])
    (broken : decodeChar? bytes = none) :
    lossy bytes = replacement :: lossy (bytes.drop (brokenLength bytes)) := by
  rw [lossy, if_neg some_, broken]

theorem lossy_encodeChar_append (c : Char) (rest : List UInt8) :
    lossy (String.utf8EncodeChar c ++ rest) = c :: lossy rest := by
  rw [lossy_of_decodeChar? (decodeChar?_encodeChar c rest), ← String.length_utf8EncodeChar,
    List.drop_left]

/-- What was written as a text is read as that text. -/
theorem lossy_encode_append (text : List Char) (rest : List UInt8) :
    lossy (encode text ++ rest) = text ++ lossy rest := by
  induction text with
  | nil => rfl
  | cons c text ih =>
    rw [encode, List.flatMap_cons, List.append_assoc, lossy_encodeChar_append]
    exact congrArg (c :: ·) ih

theorem lossy_encode (text : List Char) : lossy (encode text) = text := by
  have read := lossy_encode_append text []
  rwa [List.append_nil, lossy_nil, List.append_nil] at read

/-- Bytes from which no replacement character is read are the text that is read. -/
theorem encode_lossy (bytes : List UInt8) (clean : replacement ∉ lossy bytes) :
    encode (lossy bytes) = bytes := by
  induction bytes using lossy.induct with
  | case1 => rw [lossy_nil]; rfl
  | case2 bytes some_ c read ih =>
    rw [lossy_of_decodeChar? read] at clean ⊢
    have rest := ih fun member => clean (List.mem_cons_of_mem _ member)
    rw [encode, List.flatMap_cons, ← encode, rest]
    exact (eq_of_decodeChar? read).symm
  | case3 bytes some_ broken ih =>
    rw [lossy_broken some_ broken] at clean
    exact absurd List.mem_cons_self clean

/-- No character begins with this byte. -/
theorem decodeChar?_ff (rest : List UInt8) : decodeChar? (0xFF :: rest) = none := by
  have some_ : 0 < (List.toByteArray (0xFF :: rest)).size := by simp
  have first : ByteArray.utf8DecodeChar?.parseFirstByte (List.toByteArray (0xFF :: rest))[0] =
      .invalid := by
    rw [List.getElem_toByteArray, List.getElem_cons_zero, ByteArray.utf8DecodeChar?.parseFirstByte,
      if_neg (by decide), if_neg (by decide), if_neg (by decide), if_neg (by decide)]
  rw [decodeChar?, ByteArray.utf8DecodeChar?, dif_pos some_]
  split
  · rfl
  all_goals
    next other => cases first.symm.trans other

theorem lossy_ff (rest : List UInt8) : lossy (0xFF :: rest) = replacement :: lossy rest := by
  have one : brokenLength (0xFF :: rest) = 1 := by
    cases rest with
    | nil => rfl
    | cons second rest => simp [brokenLength, beginsThree, beginsFour]
  rw [lossy_broken (List.cons_ne_nil _ _) (decodeChar?_ff rest), one]
  rfl

/-- A replacement character can be read from other bytes as well. -/
theorem exists_ne_of_replacement {bytes : List UInt8} (doubtful : replacement ∈ lossy bytes) :
    ∃ other ≠ bytes, lossy other = lossy bytes := by
  by_cases written : encode (lossy bytes) = bytes
  · obtain ⟨before, after, whole⟩ := List.append_of_mem doubtful
    refine ⟨encode before ++ 0xFF :: encode after, ?_, ?_⟩
    · rw [← written, whole, encode, encode, encode, List.flatMap_append, List.flatMap_cons]
      intro same
      have tails := List.append_cancel_left same
      have mark : String.utf8EncodeChar replacement = [0xEF, 0xBF, 0xBD] := by decide
      rw [mark] at tails
      cases tails
    · rw [lossy_encode_append, lossy_ff, lossy_encode, whole]
  · exact ⟨encode (lossy bytes), written, lossy_encode _⟩

/-- Bytes are determined by what is read from them just when that has no replacement
character. -/
theorem lossy_determines_iff (bytes : List UInt8) :
    (∀ other, lossy other = lossy bytes → other = bytes) ↔ replacement ∉ lossy bytes := by
  constructor
  · intro determined doubtful
    obtain ⟨other, different, same⟩ := exists_ne_of_replacement doubtful
    exact different (determined other same)
  · intro clean other same
    rw [← encode_lossy bytes clean, ← same, encode_lossy other (same ▸ clean)]

end UHorse.Lib.LossyUtf8
