/-!
# UTF-8

Source files are byte strings, names and messages are character strings.  `Utf8.encode`
goes from the second to the first.  In the other direction a byte string is first cut into
*chunks*: a chunk is either the encoding of one character or a longest run of bytes that
starts such an encoding and then breaks off.  `Utf8.decodeLossy` reads every broken chunk as
one replacement character, `Utf8.decode` refuses the first one and says why.
-/

namespace SingleUse

/-- A byte string. -/
abbrev Bytes := List UInt8

/-- The bytes from `start` up to `stop`, as far as there are such bytes. -/
def Bytes.slice (bytes : Bytes) (start stop : Nat) : Bytes :=
  (bytes.drop start).take (stop - start)

namespace Utf8

/-- Why a run of bytes encodes no character. -/
inductive Fault where
  /-- The first byte starts no encoding. -/
  | startByte
  /-- A later byte does not continue the encoding that the first one starts. -/
  | continuation
  /-- The bytes end inside an encoding. -/
  | truncated
deriving DecidableEq, Repr

/-- The wording of a fault. -/
def Fault.reason : Fault → String
  | .startByte => "invalid start byte"
  | .continuation => "invalid continuation byte"
  | .truncated => "unexpected end of data"

/-- Lowest and highest value of each byte that has to follow `lead`; none when `lead` starts
no encoding.  The narrow bounds after `0xE0`, `0xED`, `0xF0` and `0xF4` exclude overlong
forms, surrogates and values above `0x10FFFF`. -/
def followers (lead : UInt8) : Option (List (UInt8 × UInt8)) :=
  if lead < 0x80 then some []
  else if lead < 0xC2 then none
  else if lead < 0xE0 then some [(0x80, 0xBF)]
  else if lead = 0xE0 then some [(0xA0, 0xBF), (0x80, 0xBF)]
  else if lead = 0xED then some [(0x80, 0x9F), (0x80, 0xBF)]
  else if lead < 0xF0 then some [(0x80, 0xBF), (0x80, 0xBF)]
  else if lead = 0xF0 then some [(0x90, 0xBF), (0x80, 0xBF), (0x80, 0xBF)]
  else if lead < 0xF4 then some [(0x80, 0xBF), (0x80, 0xBF), (0x80, 0xBF)]
  else if lead = 0xF4 then some [(0x80, 0x8F), (0x80, 0xBF), (0x80, 0xBF)]
  else none

/-- The longest initial run of bytes that stay within the given bounds. -/
def matching : List (UInt8 × UInt8) → Bytes → Bytes
  | (low, high) :: bounds, byte :: bytes =>
    if low ≤ byte ∧ byte ≤ high then byte :: matching bounds bytes else []
  | _, _ => []

/-- The character that a lead byte and its followers stand for. -/
def assemble (lead : UInt8) (tail : Bytes) : Char :=
  let payload := match tail.length with
    | 0 => lead.toNat
    | 1 => lead.toNat % 0x20
    | 2 => lead.toNat % 0x10
    | _ => lead.toNat % 0x08
  Char.ofNat (tail.foldl (fun value byte => value * 0x40 + byte.toNat % 0x40) payload)

/-- Some bytes of a byte string with the character they encode, or the reason why they
encode none. -/
structure Chunk where
  bytes : Bytes
  content : Except Fault Char

/-- The chunk that starts with `lead`, where `rest` are the bytes after it. -/
def Chunk.first (lead : UInt8) (rest : Bytes) : Chunk :=
  match followers lead with
  | none => ⟨[lead], .error .startByte⟩
  | some bounds =>
    let tail := matching bounds rest
    if tail.length = bounds.length then ⟨lead :: tail, .ok (assemble lead tail)⟩
    else if tail.length = rest.length then ⟨lead :: tail, .error .truncated⟩
    else ⟨lead :: tail, .error .continuation⟩

/-- A byte string cut into chunks. -/
def chunks : Bytes → List Chunk
  | [] => []
  | lead :: rest =>
    let chunk := Chunk.first lead rest
    chunk :: chunks (rest.drop (chunk.bytes.length - 1))
termination_by bytes => bytes.length
decreasing_by simp only [List.length_drop, List.length_cons]; omega

/-- U+FFFD, which stands for a broken chunk. -/
def replacement : Char := '\uFFFD'

/-- The characters of a byte string, each broken chunk read as `replacement`. -/
def decodeLossy (bytes : Bytes) : String :=
  String.ofList ((chunks bytes).map fun chunk =>
    match chunk.content with
    | .ok c => c
    | .error _ => replacement)

/-- A broken chunk with its place in the byte string. -/
structure DecodeError where
  position : Nat
  bytes : Bytes
  fault : Fault
deriving DecidableEq, Repr

/-- The first broken chunk, where the list starts at `position`; the characters otherwise. -/
def decodeFrom (position : Nat) : List Chunk → Except DecodeError (List Char)
  | [] => .ok []
  | chunk :: rest =>
    match chunk.content with
    | .error fault => .error ⟨position, chunk.bytes, fault⟩
    | .ok c => (decodeFrom (position + chunk.bytes.length) rest).map (c :: ·)

/-- The characters of a byte string without broken chunks. -/
def decode (bytes : Bytes) : Except DecodeError String :=
  (decodeFrom 0 (chunks bytes)).map String.ofList

/-- The UTF-8 encoding of a character string. -/
def encode (text : String) : Bytes :=
  text.toList.flatMap String.utf8EncodeChar

/-- Two lowercase hexadecimal digits. -/
def hexByte (byte : UInt8) : String :=
  let digit (n : Nat) : Char := (Nat.toDigits 16 n).headD '0'
  String.ofList [digit (byte.toNat / 16), digit (byte.toNat % 16)]

/-- The wording of a decoding error: a single byte is shown, several are given by position. -/
def DecodeError.message (e : DecodeError) : String :=
  let place := match e.bytes with
    | [byte] => s!"byte 0x{hexByte byte} in position {e.position}"
    | bytes => s!"bytes in position {e.position}-{e.position + bytes.length - 1}"
  s!"'utf-8' codec can't decode {place}: {e.fault.reason}"

end Utf8

end SingleUse
