import SingleUse.Text.Utf8

/-!
# Checksums

The 32-bit xxHash with seed zero.  The bytes are read as little-endian words; four words
make a stripe, which feeds four accumulators; the words and bytes that are left over are
mixed in one by one, and an avalanche step ends the computation.
-/

namespace SingleUse.Checksum

/-- The five odd constants of the hash. -/
def prime1 : UInt32 := 0x9E3779B1
def prime2 : UInt32 := 0x85EBCA77
def prime3 : UInt32 := 0xC2B2AE3D
def prime4 : UInt32 := 0x27D4EB2F
def prime5 : UInt32 := 0x165667B1

/-- Rotation to the left by `n` bits, for `0 < n < 32`. -/
def rotate (word : UInt32) (n : UInt32) : UInt32 :=
  (word <<< n) ||| (word >>> (32 - n))

/-- The little-endian words of a byte string, and the fewer than four bytes after them. -/
def words : Bytes → List UInt32 × Bytes
  | a :: b :: c :: d :: rest =>
    let word := a.toUInt32 ||| (b.toUInt32 <<< 8) ||| (c.toUInt32 <<< 16) ||| (d.toUInt32 <<< 24)
    let (more, left) := words rest
    (word :: more, left)
  | left => ([], left)

/-- The four accumulators. -/
structure Lanes where
  first : UInt32 := prime1 + prime2
  second : UInt32 := prime2
  third : UInt32 := 0
  fourth : UInt32 := 0 - prime1

/-- One word taken into an accumulator. -/
def mixLane (lane word : UInt32) : UInt32 :=
  rotate (lane + word * prime2) 13 * prime1

/-- All whole stripes taken into the accumulators, and the fewer than four words after them. -/
def stripes (lanes : Lanes) : List UInt32 → Lanes × List UInt32
  | a :: b :: c :: d :: rest =>
    stripes ⟨mixLane lanes.first a, mixLane lanes.second b, mixLane lanes.third c,
      mixLane lanes.fourth d⟩ rest
  | left => (lanes, left)

/-- The accumulators joined into one word. -/
def Lanes.join (lanes : Lanes) : UInt32 :=
  rotate lanes.first 1 + rotate lanes.second 7 + rotate lanes.third 12 + rotate lanes.fourth 18

/-- A word that fills no stripe. -/
def mixWord (hash word : UInt32) : UInt32 :=
  rotate (hash + word * prime3) 17 * prime4

/-- A byte that fills no word. -/
def mixByte (hash : UInt32) (byte : UInt8) : UInt32 :=
  rotate (hash + byte.toUInt32 * prime5) 11 * prime1

/-- The last step, which lets every bit bear on every other. -/
def avalanche (hash : UInt32) : UInt32 :=
  let hash := (hash ^^^ (hash >>> 15)) * prime2
  let hash := (hash ^^^ (hash >>> 13)) * prime3
  hash ^^^ (hash >>> 16)

/-- The checksum of a byte string. -/
def ofBytes (bytes : Bytes) : UInt32 :=
  let (all, tail) := words bytes
  let (lanes, left) := stripes {} all
  let start := if bytes.length < 16 then prime5 else lanes.join
  let hash := left.foldl mixWord (start + bytes.length.toUInt32)
  avalanche (tail.foldl mixByte hash)

/-- Eight lowercase hexadecimal digits. -/
def hex (hash : UInt32) : String :=
  let digits := Nat.toDigits 16 hash.toNat
  String.ofList (List.replicate (8 - digits.length) '0' ++ digits)

/-- The checksum of a byte string as text. -/
def digest (bytes : Bytes) : String := hex (ofBytes bytes)

end SingleUse.Checksum
