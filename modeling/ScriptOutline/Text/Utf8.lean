/-
**Texts as bytes.**

Files hold UTF-8.  A reader that must not fail takes the longest start of each ill-formed sequence
that could still have become a character, puts one replacement character for it, and goes on with
the byte that ruled it out.

Main definitions:

* `Utf8.State` — between characters, or inside one with bytes still owed;
* `Utf8.step` — one byte: the characters it completes and the state after it;
* `Utf8.decode` — the characters of a sequence of bytes;
* `Utf8.encode` — the bytes of a sequence of characters;
* `Utf8.decode?` — the characters of a sequence of bytes that is well-formed.
-/

set_option relaxedAutoImplicit false
set_option autoImplicit false

namespace ScriptOutline.Utf8

/-- Where a reader stands between two bytes. -/
inductive State where
  /-- Between characters. -/
  | between
  /--
  Inside a character: `owed + 1` bytes are missing, the next one lies between `low` and `high`, and
  the bits read so far make up `bits`.
  -/
  | inside (owed low high bits : Nat)
  deriving DecidableEq, Repr

/-- The character that stands for an ill-formed sequence. -/
def replacement : Char := '\uFFFD'

/-- The first byte of a character. -/
def start (b : Nat) : List Char × State :=
  if b < 0x80 then ([Char.ofNat b], .between)
  else if 0xC2 ≤ b && b ≤ 0xDF then ([], .inside 0 0x80 0xBF (b - 0xC0))
  else if b = 0xE0 then ([], .inside 1 0xA0 0xBF 0)
  else if b = 0xED then ([], .inside 1 0x80 0x9F 0xD)
  else if 0xE1 ≤ b && b ≤ 0xEF then ([], .inside 1 0x80 0xBF (b - 0xE0))
  else if b = 0xF0 then ([], .inside 2 0x90 0xBF 0)
  else if 0xF1 ≤ b && b ≤ 0xF3 then ([], .inside 2 0x80 0xBF (b - 0xF0))
  else if b = 0xF4 then ([], .inside 2 0x80 0x8F 4)
  else ([replacement], .between)

/-- One byte: the characters it completes, and the state after it. -/
def step : State → Nat → List Char × State
  | .between, b => start b
  | .inside owed low high bits, b =>
    if low ≤ b && b ≤ high then
      let bits := bits * 64 + (b - 0x80)
      match owed with
      | 0 => ([Char.ofNat bits], .between)
      | owed + 1 => ([], .inside owed 0x80 0xBF bits)
    else
      let (cs, state) := start b
      (replacement :: cs, state)

/-- The characters of the bytes that follow, from a state on. -/
def decodeFrom : State → List UInt8 → List Char
  | .between, [] => []
  | .inside .., [] => [replacement]
  | state, b :: rest =>
    let (cs, next) := step state b.toNat
    cs ++ decodeFrom next rest

/-- The characters of a sequence of bytes. -/
def decode (bytes : List UInt8) : List Char :=
  decodeFrom .between bytes

/-- The bytes of a sequence of characters. -/
def encode (cs : List Char) : List UInt8 :=
  cs.flatMap String.utf8EncodeChar

/-- The characters of a sequence of bytes, if it is well-formed throughout. -/
def decode? (bytes : List UInt8) : Option (List Char) :=
  if encode (decode bytes) = bytes then some (decode bytes) else none

end ScriptOutline.Utf8
