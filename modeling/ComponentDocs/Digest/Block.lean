import ComponentDocs.Text.Quoted

/-!
# Blocks of bytes

What the digests share: messages are padded to whole blocks of sixty-four bytes, blocks are read as
words of four bytes, and words are rotated.

* `pad`, `blocks`: a padded message and its blocks;
* `wordsLittle`, `wordsBig`, `bytesLittle`, `bytesBig`: words and bytes;
* `hex`: bytes in hexadecimal digits.
-/

namespace ComponentDocs.Digest

/-- The word rotated to the left; the distance is between one and thirty-one. -/
def rotateLeft (word distance : UInt32) : UInt32 := (word <<< distance) ||| (word >>> (32 - distance))

/-! ## Words -/

/-- The bytes of a word, lowest first. -/
def bytesLittle (word : UInt32) : List UInt8 :=
  [word.toUInt8, (word >>> 8).toUInt8, (word >>> 16).toUInt8, (word >>> 24).toUInt8]

/-- The bytes of a word, highest first. -/
def bytesBig (word : UInt32) : List UInt8 := (bytesLittle word).reverse

/-- The word of four bytes, lowest first. -/
def wordOf (a b c d : UInt8) : UInt32 :=
  a.toUInt32 ||| (b.toUInt32 <<< 8) ||| (c.toUInt32 <<< 16) ||| (d.toUInt32 <<< 24)

/-- The words of some bytes, each with its lowest byte first. -/
def wordsLittle : List UInt8 → List UInt32
  | a :: b :: c :: d :: rest => wordOf a b c d :: wordsLittle rest
  | _ => []

/-- The words of some bytes, each with its highest byte first. -/
def wordsBig : List UInt8 → List UInt32
  | a :: b :: c :: d :: rest => wordOf d c b a :: wordsBig rest
  | _ => []

/-! ## Messages -/

/-- The eight bytes of a length in bits, lowest first. -/
def lengthLittle (bits : Nat) : List UInt8 := (List.range 8).map fun i => (bits >>> (8 * i)).toUInt8

/-- The eight bytes of a length in bits, highest first. -/
def lengthBig (bits : Nat) : List UInt8 := (lengthLittle bits).reverse

/-- The message, a one bit, zeros, and the length of the message in bits at the end of a block. -/
def pad (lengthBytes : Nat → List UInt8) (bytes : List UInt8) : List UInt8 :=
  let zeros := (119 - bytes.length % 64) % 64
  bytes ++ 0x80 :: List.replicate zeros 0 ++ lengthBytes (8 * bytes.length)

/-- The first `count` blocks of sixty-four bytes. -/
def blocksOf : Nat → List UInt8 → List (List UInt8)
  | 0, _ => []
  | count + 1, bytes => bytes.take 64 :: blocksOf count (bytes.drop 64)

/-- The blocks of a padded message. -/
def blocks (bytes : List UInt8) : List (List UInt8) := blocksOf (bytes.length / 64) bytes

/-- Bytes in hexadecimal digits. -/
def hex (bytes : List UInt8) : List Char := bytes.flatMap fun b => Text.hexDigits 2 b.toNat

end ComponentDocs.Digest
