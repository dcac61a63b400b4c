import ComponentDocs.Digest.Block

/-!
# MD5

The MD5 digest, which names the content of records and texts.

* `md5`: the sixteen bytes of the digest.
-/

namespace ComponentDocs.Digest

namespace Md5

/-! ## Tables -/

/-- The constants of the sixty-four steps: the sines of 1, 2, … in units of `2 ^ -32`. -/
def constants : List UInt32 :=
  [0xd76aa478, 0xe8c7b756, 0x242070db, 0xc1bdceee, 0xf57c0faf, 0x4787c62a, 0xa8304613, 0xfd469501,
  0x698098d8, 0x8b44f7af, 0xffff5bb1, 0x895cd7be, 0x6b901122, 0xfd987193, 0xa679438e, 0x49b40821,
  0xf61e2562, 0xc040b340, 0x265e5a51, 0xe9b6c7aa, 0xd62f105d, 0x02441453, 0xd8a1e681, 0xe7d3fbc8,
  0x21e1cde6, 0xc33707d6, 0xf4d50d87, 0x455a14ed, 0xa9e3e905, 0xfcefa3f8, 0x676f02d9, 0x8d2a4c8a,
  0xfffa3942, 0x8771f681, 0x6d9d6122, 0xfde5380c, 0xa4beea44, 0x4bdecfa9, 0xf6bb4b60, 0xbebfbc70,
  0x289b7ec6, 0xeaa127fa, 0xd4ef3085, 0x04881d05, 0xd9d4d039, 0xe6db99e5, 0x1fa27cf8, 0xc4ac5665,
  0xf4292244, 0x432aff97, 0xab9423a7, 0xfc93a039, 0x655b59c3, 0x8f0ccc92, 0xffeff47d, 0x85845dd1,
  0x6fa87e4f, 0xfe2ce6e0, 0xa3014314, 0x4e0811a1, 0xf7537e82, 0xbd3af235, 0x2ad7d2bb, 0xeb86d391]

/-- How far each step rotates. -/
def rotations : List UInt32 :=
  let rounds : List (List UInt32) := [[7, 12, 17, 22], [5, 9, 14, 20], [4, 11, 16, 23], [6, 10, 15, 21]]
  rounds.flatMap fun round => round ++ round ++ round ++ round

/-- The state: four words. -/
structure State where
  a : UInt32
  b : UInt32
  c : UInt32
  d : UInt32

/-- The state before the first block. -/
def start : State := ⟨0x67452301, 0xefcdab89, 0x98badcfe, 0x10325476⟩

/-! ## Steps -/

/-- The mixed words of a step and the index of the word of the block that it takes. -/
def mix (s : State) (step : Nat) : UInt32 × Nat :=
  if step < 16 then ((s.b &&& s.c) ||| (~~~s.b &&& s.d), step)
  else if step < 32 then ((s.d &&& s.b) ||| (~~~s.d &&& s.c), (5 * step + 1) % 16)
  else if step < 48 then (s.b ^^^ s.c ^^^ s.d, (3 * step + 5) % 16)
  else (s.c ^^^ (s.b ||| ~~~s.d), (7 * step) % 16)

/-- One step on a block. -/
def step (words : Array UInt32) (s : State) (table : Nat × UInt32 × UInt32) : State :=
  let (index, constant, rotation) := table
  let (mixed, word) := mix s index
  let sum := s.a + mixed + constant + words.getD word 0
  ⟨s.d, s.b + rotateLeft sum rotation, s.b, s.c⟩

/-- The steps with their constants and rotations. -/
def steps : List (Nat × UInt32 × UInt32) := (List.range 64).zip (constants.zip rotations)

/-- The state after a block. -/
def block (s : State) (bytes : List UInt8) : State :=
  let words := (wordsLittle bytes).toArray
  let t := steps.foldl (step words) s
  ⟨s.a + t.a, s.b + t.b, s.c + t.c, s.d + t.d⟩

end Md5

/-- The MD5 digest of some bytes. -/
def md5 (bytes : List UInt8) : List UInt8 :=
  let s := (blocks (pad lengthLittle bytes)).foldl Md5.block Md5.start
  [s.a, s.b, s.c, s.d].flatMap bytesLittle

end ComponentDocs.Digest
