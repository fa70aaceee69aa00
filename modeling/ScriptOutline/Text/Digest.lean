/-
**Digests of texts.**

Kept results are told apart by numbers of 64 bits that stand for their texts.  The number is a hash
of the bytes of the text: *SipHash* with one round for each word and three rounds at the end, under
a key of zeros.  A byte that no text has in UTF-8 closes the text.

Main definitions:

* `HashState`, `HashState.round` — four words, and how a round mixes them;
* `wordsOf` — bytes as words, of which the last one tells how many bytes there are;
* `hashBytes` — the hash of a sequence of bytes;
* `textDigest` — the digest of a text.
-/

import ScriptOutline.Text.Utf8

set_option relaxedAutoImplicit false
set_option autoImplicit false

namespace ScriptOutline

/-- A word whose bits are moved to the left; those that fall out come in at the right. -/
def rotateLeft (word places : UInt64) : UInt64 :=
  word <<< places ||| word >>> (64 - places)

/-- The words of a hash that is being computed. -/
structure HashState where
  a : UInt64
  b : UInt64
  c : UInt64
  d : UInt64
  deriving DecidableEq, Repr

namespace HashState

/-- The words that the hash starts with under a key of zeros. -/
def start : HashState :=
  ⟨0x736F6D6570736575, 0x646F72616E646F6D, 0x6C7967656E657261, 0x7465646279746573⟩

/-- One round: each word takes in two others. -/
def round (s : HashState) : HashState :=
  let a := s.a + s.b
  let b := rotateLeft s.b 13 ^^^ a
  let c := s.c + s.d
  let d := rotateLeft s.d 16 ^^^ c
  let a := rotateLeft a 32 + d
  let d := rotateLeft d 21 ^^^ a
  let c := c + b
  let b := rotateLeft b 17 ^^^ c
  ⟨a, b, rotateLeft c 32, d⟩

/-- The words after one more word of what is hashed. -/
def absorb (s : HashState) (word : UInt64) : HashState :=
  let mixed := { s with d := s.d ^^^ word }.round
  { mixed with a := mixed.a ^^^ word }

/-- The hash, once all words are taken in. -/
def finish (s : HashState) : UInt64 :=
  let last := { s with c := s.c ^^^ 0xFF }.round.round.round
  last.a ^^^ last.b ^^^ last.c ^^^ last.d

end HashState

/-- A word with the given bytes, the lowest first. -/
def wordOf (bytes : List UInt8) : UInt64 :=
  bytes.foldr (fun byte word => word <<< 8 ||| byte.toUInt64) 0

/--
Bytes as words of eight.  What is left at the end is filled up with zeros, and its highest byte
tells the length of the whole.
-/
def wordsOf (length : Nat) : List UInt8 → List UInt64
  | b₀ :: b₁ :: b₂ :: b₃ :: b₄ :: b₅ :: b₆ :: b₇ :: rest =>
    wordOf [b₀, b₁, b₂, b₃, b₄, b₅, b₆, b₇] :: wordsOf length rest
  | rest => [wordOf rest ||| UInt64.ofNat length <<< 56]

/-- The hash of a sequence of bytes. -/
def hashBytes (bytes : List UInt8) : UInt64 :=
  ((wordsOf bytes.length bytes).foldl HashState.absorb HashState.start).finish

/-- The digest of a text. -/
def textDigest (text : String) : UInt64 :=
  hashBytes (Utf8.encode text.toList ++ [0xFF])

end ScriptOutline
