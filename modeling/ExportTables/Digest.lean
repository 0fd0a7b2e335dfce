import ExportTables.Text.Hex

/-!
# Digests

A generated file is identified by the SHA-256 digest of its bytes, written with lower-case
hexadecimal digits, or by the first twelve of those digits where a short form is enough.

The message is padded to whole blocks of sixteen words; each block is expanded to sixty-four words,
one for each round, and the rounds update eight words of state.
-/

namespace ExportTables.Digest

open Text

/-- The eight words that the rounds update. -/
structure State where
  (a b c d e f g h : UInt32)
  deriving DecidableEq, Repr

/-- The state before the first block. -/
def initial : State :=
  ⟨0x6A09E667, 0xBB67AE85, 0x3C6EF372, 0xA54FF53A, 0x510E527F, 0x9B05688C, 0x1F83D9AB, 0x5BE0CD19⟩

/-- The constant of each round. -/
def roundConstants : List UInt32 := [
  0x428A2F98, 0x71374491, 0xB5C0FBCF, 0xE9B5DBA5, 0x3956C25B, 0x59F111F1, 0x923F82A4, 0xAB1C5ED5,
  0xD807AA98, 0x12835B01, 0x243185BE, 0x550C7DC3, 0x72BE5D74, 0x80DEB1FE, 0x9BDC06A7, 0xC19BF174,
  0xE49B69C1, 0xEFBE4786, 0x0FC19DC6, 0x240CA1CC, 0x2DE92C6F, 0x4A7484AA, 0x5CB0A9DC, 0x76F988DA,
  0x983E5152, 0xA831C66D, 0xB00327C8, 0xBF597FC7, 0xC6E00BF3, 0xD5A79147, 0x06CA6351, 0x14292967,
  0x27B70A85, 0x2E1B2138, 0x4D2C6DFC, 0x53380D13, 0x650A7354, 0x766A0ABB, 0x81C2C92E, 0x92722C85,
  0xA2BFE8A1, 0xA81A664B, 0xC24B8B70, 0xC76C51A3, 0xD192E819, 0xD6990624, 0xF40E3585, 0x106AA070,
  0x19A4C116, 0x1E376C08, 0x2748774C, 0x34B0BCB5, 0x391C0CB3, 0x4ED8AA4A, 0x5B9CCA4F, 0x682E6FF3,
  0x748F82EE, 0x78A5636F, 0x84C87814, 0x8CC70208, 0x90BEFFFA, 0xA4506CEB, 0xBEF9A3F7, 0xC67178F2]

/-- Rotation to the right. -/
def rotate (x : UInt32) (n : UInt32) : UInt32 := (x >>> n) ||| (x <<< (32 - n))

/-- Expands a block by `count` words. The words stand last one first. -/
def expand : (count : Nat) → List UInt32 → List UInt32
  | 0, words => words
  | count + 1, words =>
    let early := words.getD 14 0
    let late := words.getD 1 0
    let mixEarly := rotate early 7 ^^^ rotate early 18 ^^^ (early >>> 3)
    let mixLate := rotate late 17 ^^^ rotate late 19 ^^^ (late >>> 10)
    expand count ((mixLate + words.getD 6 0 + mixEarly + words.getD 15 0) :: words)

/-- One round, with its word of the block and its constant. -/
def State.round (s : State) (word constant : UInt32) : State :=
  let mixE := rotate s.e 6 ^^^ rotate s.e 11 ^^^ rotate s.e 25
  let choice := (s.e &&& s.f) ^^^ ((s.e ^^^ 0xFFFFFFFF) &&& s.g)
  let t := s.h + mixE + choice + constant + word
  let mixA := rotate s.a 2 ^^^ rotate s.a 13 ^^^ rotate s.a 22
  let majority := (s.a &&& s.b) ^^^ (s.a &&& s.c) ^^^ (s.b &&& s.c)
  ⟨t + (mixA + majority), s.a, s.b, s.c, s.d + t, s.e, s.f, s.g⟩

/-- The state after a block of sixteen words, which stand last one first. -/
def State.absorb (s : State) (block : List UInt32) : State :=
  let words := (expand 48 block).reverse
  let t := (words.zip roundConstants).foldl (fun t (word, constant) => t.round word constant) s
  ⟨s.a + t.a, s.b + t.b, s.c + t.c, s.d + t.d, s.e + t.e, s.f + t.f, s.g + t.g, s.h + t.h⟩

/-- The bytes of a number, most significant byte first, in a field of the given width. -/
def bigEndian : (width : Nat) → Nat → List UInt8
  | 0, _ => []
  | width + 1, n => bigEndian width (n / 256) ++ [UInt8.ofNat (n % 256)]

/-- The message followed by its end mark, zeros and its length in bits, in whole blocks. -/
def pad (message : List UInt8) : List UInt8 :=
  let length := message.length
  message ++ 0x80 :: List.replicate ((119 - length % 64) % 64) 0 ++ bigEndian 8 (8 * length)

/-- The words of a row of bytes. -/
def toWords : List UInt8 → List UInt32
  | a :: b :: c :: d :: rest =>
    ((a.toUInt32 <<< 24) ||| (b.toUInt32 <<< 16) ||| (c.toUInt32 <<< 8) ||| d.toUInt32) ::
      toWords rest
  | _ => []

/-- The state after a row of words, where `pending` is the block begun last, last word first. -/
def State.absorbAll (s : State) (pending : List UInt32) : List UInt32 → State
  | [] => s
  | word :: rest =>
    let block := word :: pending
    if block.length = 16 then (s.absorb block).absorbAll [] rest else s.absorbAll block rest

/-- The digest of a row of bytes, in hexadecimal. -/
def sha256 (message : List UInt8) : String :=
  let s := initial.absorbAll [] (toWords (pad message))
  String.ofList <|
    [s.a, s.b, s.c, s.d, s.e, s.f, s.g, s.h].flatMap fun word => hexDigits 8 word.toNat

/-- The digest of the bytes of a text. -/
def ofText (text : String) : String := sha256 text.toUTF8.toList

/-- The characters of a text that lie within its first `count` bytes, unless a character lies
there in part. -/
def firstBytes? : (count : Nat) → List Char → Option (List Char)
  | _, [] => some []
  | 0, _ => some []
  | count + 1, c :: rest =>
    if c.utf8Size ≤ count + 1 then (firstBytes? (count + 1 - c.utf8Size) rest).map (c :: ·)
    else none

/-- The short form of a digest: its first twelve bytes, or all of it if it is no longer. There is
none if the twelfth byte is followed by the rest of a character. -/
def short? (digest : String) : Option String :=
  (firstBytes? 12 digest.toList).map String.ofList

end ExportTables.Digest
