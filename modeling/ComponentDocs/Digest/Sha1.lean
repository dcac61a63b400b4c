import ComponentDocs.Digest.Block

/-!
# SHA-1

The SHA-1 digest, from which the identifiers of graph nodes are made.

* `sha1`: the twenty bytes of the digest.
-/

namespace ComponentDocs.Digest

namespace Sha1

/-- The state: five words. -/
structure State where
  a : UInt32
  b : UInt32
  c : UInt32
  d : UInt32
  e : UInt32

/-- The state before the first block. -/
def start : State := ⟨0x67452301, 0xefcdab89, 0x98badcfe, 0x10325476, 0xc3d2e1f0⟩

/-- The sixteen words of a block and the sixty-four made of them, by `count` more words; `recent` holds
the words so far, last first. -/
def extend : Nat → List UInt32 → List UInt32
  | 0, recent => recent.reverse
  | count + 1, recent =>
    let word i := recent.getD i 0
    extend count (rotateLeft (word 2 ^^^ word 7 ^^^ word 13 ^^^ word 15) 1 :: recent)

/-- The mixed words and the constant of a step. -/
def mix (s : State) (step : Nat) : UInt32 × UInt32 :=
  if step < 20 then ((s.b &&& s.c) ||| (~~~s.b &&& s.d), 0x5a827999)
  else if step < 40 then (s.b ^^^ s.c ^^^ s.d, 0x6ed9eba1)
  else if step < 60 then ((s.b &&& s.c) ||| (s.b &&& s.d) ||| (s.c &&& s.d), 0x8f1bbcdc)
  else (s.b ^^^ s.c ^^^ s.d, 0xca62c1d6)

/-- One step with its index and word. -/
def step (s : State) (entry : Nat × UInt32) : State :=
  let (mixed, constant) := mix s entry.1
  ⟨rotateLeft s.a 5 + mixed + s.e + constant + entry.2, s.a, rotateLeft s.b 30, s.c, s.d⟩

/-- The state after a block. -/
def block (s : State) (bytes : List UInt8) : State :=
  let t := ((List.range 80).zip (extend 64 (wordsBig bytes).reverse)).foldl step s
  ⟨s.a + t.a, s.b + t.b, s.c + t.c, s.d + t.d, s.e + t.e⟩

end Sha1

/-- The SHA-1 digest of some bytes. -/
def sha1 (bytes : List UInt8) : List UInt8 :=
  let s := (blocks (pad lengthBig bytes)).foldl Sha1.block Sha1.start
  [s.a, s.b, s.c, s.d, s.e].flatMap bytesBig

end ComponentDocs.Digest
