/-!
# Digests

The MD5 digest of a text: its UTF-8 bytes, filled up to whole blocks of sixteen words with a mark, with
zeros and with the number of bits, change a state of four words block by block; the digest is the
state at the end in hexadecimal digits. Words have 32 bits and are taken and written low byte first.
-/

set_option autoImplicit false

namespace Predictive.Digest

/-- A state of the computation. -/
structure State where
  a : UInt32
  b : UInt32
  c : UInt32
  d : UInt32

/-- The state before the first block. -/
def State.start : State := ⟨0x67452301, 0xefcdab89, 0x98badcfe, 0x10325476⟩

/-- The sum of two states, word by word. -/
def State.add (s t : State) : State := ⟨s.a + t.a, s.b + t.b, s.c + t.c, s.d + t.d⟩

/-- The constants of the sixty-four steps: the whole parts of `2 ^ 32 * |sin i|` for `i` from one. -/
def constants : Array UInt32 := #[
    0xd76aa478, 0xe8c7b756, 0x242070db, 0xc1bdceee,
    0xf57c0faf, 0x4787c62a, 0xa8304613, 0xfd469501,
    0x698098d8, 0x8b44f7af, 0xffff5bb1, 0x895cd7be,
    0x6b901122, 0xfd987193, 0xa679438e, 0x49b40821,
    0xf61e2562, 0xc040b340, 0x265e5a51, 0xe9b6c7aa,
    0xd62f105d, 0x02441453, 0xd8a1e681, 0xe7d3fbc8,
    0x21e1cde6, 0xc33707d6, 0xf4d50d87, 0x455a14ed,
    0xa9e3e905, 0xfcefa3f8, 0x676f02d9, 0x8d2a4c8a,
    0xfffa3942, 0x8771f681, 0x6d9d6122, 0xfde5380c,
    0xa4beea44, 0x4bdecfa9, 0xf6bb4b60, 0xbebfbc70,
    0x289b7ec6, 0xeaa127fa, 0xd4ef3085, 0x04881d05,
    0xd9d4d039, 0xe6db99e5, 0x1fa27cf8, 0xc4ac5665,
    0xf4292244, 0x432aff97, 0xab9423a7, 0xfc93a039,
    0x655b59c3, 0x8f0ccc92, 0xffeff47d, 0x85845dd1,
    0x6fa87e4f, 0xfe2ce6e0, 0xa3014314, 0x4e0811a1,
    0xf7537e82, 0xbd3af235, 0x2ad7d2bb, 0xeb86d391]

/-- By how much the steps of each round rotate. -/
def rotations : Array (Array UInt32) := #[
  #[7, 12, 17, 22], #[5, 9, 14, 20], #[4, 11, 16, 23], #[6, 10, 15, 21]]

/-- A word rotated to the left. -/
def rotate (w count : UInt32) : UInt32 := (w <<< count) ||| (w >>> (32 - count))

/-- How a round mixes three words. -/
def mix (round : Nat) (b c d : UInt32) : UInt32 :=
  match round with
  | 0 => (b &&& c) ||| (~~~b &&& d)
  | 1 => (d &&& b) ||| (~~~d &&& c)
  | 2 => b ^^^ c ^^^ d
  | _ => c ^^^ (b ||| ~~~d)

/-- The word of the block that a step of a round takes. -/
def wordOf (round step : Nat) : Nat :=
  match round with
  | 0 => step % 16
  | 1 => (5 * step + 1) % 16
  | 2 => (3 * step + 5) % 16
  | _ => (7 * step) % 16

/-- The state after one step. -/
def stepState (block : Array UInt32) (s : State) (step : Nat) : State :=
  let round := step / 16
  let sum := s.a + mix round s.b s.c s.d + constants.getD step 0 +
    block.getD (wordOf round step) 0
  let count := (rotations.getD round #[]).getD (step % 4) 0
  ⟨s.d, s.b + rotate sum count, s.b, s.c⟩

/-- The state after a block. -/
def addBlock (s : State) (block : Array UInt32) : State :=
  s.add ((List.range 64).foldl (stepState block) s)

/-- The low bytes of a number, lowest first. -/
def littleEndian : Nat → Nat → List UInt8
  | 0, _ => []
  | count + 1, n => UInt8.ofNat n :: littleEndian count (n / 256)

/-- The bytes filled up to whole blocks. -/
def filled (bytes : List UInt8) : List UInt8 :=
  let zeros := (119 - bytes.length % 64) % 64
  bytes ++ [0x80] ++ List.replicate zeros 0 ++ littleEndian 8 (8 * bytes.length)

/-- The words of bytes, four bytes each. -/
def words : List UInt8 → List UInt32
  | a :: b :: c :: d :: rest =>
      (a.toUInt32 ||| (b.toUInt32 <<< 8) ||| (c.toUInt32 <<< 16) ||| (d.toUInt32 <<< 24)) ::
        words rest
  | _ => []

/-- The state after the blocks of words; `fuel` bounds their number. -/
def addBlocks : Nat → State → List UInt32 → State
  | 0, s, _ => s
  | fuel + 1, s, ws =>
      match ws with
      | [] => s
      | _ :: _ => addBlocks fuel (addBlock s (ws.take 16).toArray) (ws.drop 16)

/-- A byte as two hexadecimal digits. -/
def hexByte (b : UInt8) : List Char :=
  [Nat.digitChar (b.toNat / 16), Nat.digitChar (b.toNat % 16)]

/-- The state as hexadecimal digits. -/
def State.hex (s : State) : String :=
  String.ofList ([s.a, s.b, s.c, s.d].flatMap fun w => (littleEndian 4 w.toNat).flatMap hexByte)

/-- The MD5 digest of a text. -/
def md5 (text : String) : String :=
  let ws := words (filled text.toUTF8.toList)
  (addBlocks ws.length State.start ws).hex

end Predictive.Digest
