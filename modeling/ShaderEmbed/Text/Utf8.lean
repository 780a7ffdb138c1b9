/-!
# Bytes and text

Files and streams hold bytes; fragments and artifacts are text. `encode` writes a text as UTF-8,
`decode` reads bytes that are valid UTF-8, and `decodeLossy` reads any bytes: each longest run that
starts like a character and does not become one is read as one replacement character.
-/

namespace ShaderEmbed

/-- A sequence of bytes, as a file holds it. -/
abbrev Bytes := List UInt8

namespace Text

def encode (s : String) : Bytes := s.toUTF8.toList

/-- The text that bytes spell, if they are valid UTF-8. -/
def decode (bytes : Bytes) : Option String := String.fromUTF8? ⟨bytes.toArray⟩

/-- The list of a byte array is gathered from a place on, behind what has been gathered before. -/
theorem toList_loop_eq (bs : ByteArray) (i : Nat) (r : List UInt8) :
    ByteArray.toList.loop bs i r = r.reverse ++ bs.data.toList.drop i := by
  fun_induction ByteArray.toList.loop bs i r with
  | case1 i r h ih =>
    have h' : i < bs.data.size := h
    have hi : i < bs.data.toList.length := by rw [Array.length_toList]; exact h'
    have hget : bs.get! i = bs.data.toList[i] := by
      show bs.data[i]! = _
      rw [getElem!_pos bs.data i h', Array.getElem_toList]
    rw [ih, List.drop_eq_getElem_cons hi, hget, List.reverse_cons,
      List.append_assoc, List.singleton_append]
  | case2 i r h =>
    have hi : bs.data.toList.length ≤ i := by rw [Array.length_toList]; exact Nat.le_of_not_lt h
    rw [List.drop_eq_nil_of_le hi, List.append_nil]

/-- What is written as UTF-8 reads back. -/
theorem decode_encode (s : String) : decode (encode s) = some s := by
  have h : (⟨(encode s).toArray⟩ : ByteArray) = s.toUTF8 := by
    rw [encode, ByteArray.toList, toList_loop_eq, List.reverse_nil, List.nil_append, List.drop_zero,
      Array.toArray_toList]
  have hvalid : s.toUTF8.IsValidUTF8 := s.isValidUTF8
  rw [decode, h, String.fromUTF8?, dif_pos hvalid]
  rfl

theorem encode_injective : Function.Injective encode := by
  intro s other h
  have hdecoded := congrArg decode h
  rw [decode_encode, decode_encode] at hdecoded
  exact Option.some.inj hdecoded

theorem encode_ne_nil {s : String} (h : s ≠ "") : encode s ≠ [] := by
  intro hnil
  refine h (encode_injective ?_)
  rw [hnil, encode, ByteArray.toList, toList_loop_eq]
  rfl

/-- How many bytes follow the lead byte of a character, and the range in which the first of them
lies. -/
def continuation (lead : UInt8) : Option (Nat × UInt8 × UInt8) :=
  if 0xC2 ≤ lead && lead ≤ 0xDF then some (1, 0x80, 0xBF)
  else if lead = 0xE0 then some (2, 0xA0, 0xBF)
  else if lead = 0xED then some (2, 0x80, 0x9F)
  else if 0xE1 ≤ lead && lead ≤ 0xEF then some (2, 0x80, 0xBF)
  else if lead = 0xF0 then some (3, 0x90, 0xBF)
  else if lead = 0xF4 then some (3, 0x80, 0x8F)
  else if 0xF1 ≤ lead && lead ≤ 0xF3 then some (3, 0x80, 0xBF)
  else none

def replacement : Char := '\uFFFD'

/-- What is awaited after a byte: nothing, or so many further bytes whose first lies in a range, on
top of the bits read so far. -/
inductive Awaiting where
  | lead
  | more (count : Nat) (low high : UInt8) (bits : Nat)

/-- The characters that one byte completes when a new character may start, and what is awaited after
it. -/
def startCharacter (byte : UInt8) : List Char × Awaiting :=
  if byte < 0x80 then ([Char.ofNat byte.toNat], .lead)
  else
    match continuation byte with
    | none => ([replacement], .lead)
    | some (count, low, high) =>
      ([], .more count low high
        (byte.toNat % (if count = 1 then 32 else if count = 2 then 16 else 8)))

/-- The characters that one byte completes, and what is awaited after it. -/
def readByte : Awaiting → UInt8 → List Char × Awaiting
  | .lead, byte => startCharacter byte
  | .more count low high bits, byte =>
    if low ≤ byte && byte ≤ high then
      let bits := bits * 64 + byte.toNat % 64
      if count ≤ 1 then ([Char.ofNat bits], .lead) else ([], .more (count - 1) 0x80 0xBF bits)
    else
      -- the byte that breaks a character off may lead the next one
      let (completed, awaiting) := startCharacter byte
      (replacement :: completed, awaiting)

def readBytes : Awaiting → Bytes → List Char
  | .lead, [] => []
  | .more .., [] => [replacement]
  | awaiting, byte :: rest =>
    let (completed, awaiting) := readByte awaiting byte
    completed ++ readBytes awaiting rest

/-- The text that bytes spell, with each ill-formed run replaced. -/
def decodeLossy (bytes : Bytes) : String := String.ofList (readBytes .lead bytes)

end Text

end ShaderEmbed
