/-!
The SHA-256 digest of a byte sequence, and its hexadecimal form. It names templates by their
content and variable stores by their bindings.
-/

namespace Stencil.Digest

/-- The eight words of a digest under way. -/
structure Words where
  a : UInt32
  b : UInt32
  c : UInt32
  d : UInt32
  e : UInt32
  f : UInt32
  g : UInt32
  h : UInt32

/-- The words a digest starts from. -/
def Words.start : Words :=
  ⟨0x6A09E667, 0xBB67AE85, 0x3C6EF372, 0xA54FF53A, 0x510E527F, 0x9B05688C, 0x1F83D9AB, 0x5BE0CD19⟩

/-- The constant of each of the sixty-four rounds. -/
def roundConstants : List UInt32 := [
  0x428A2F98, 0x71374491, 0xB5C0FBCF, 0xE9B5DBA5, 0x3956C25B, 0x59F111F1, 0x923F82A4, 0xAB1C5ED5,
  0xD807AA98, 0x12835B01, 0x243185BE, 0x550C7DC3, 0x72BE5D74, 0x80DEB1FE, 0x9BDC06A7, 0xC19BF174,
  0xE49B69C1, 0xEFBE4786, 0x0FC19DC6, 0x240CA1CC, 0x2DE92C6F, 0x4A7484AA, 0x5CB0A9DC, 0x76F988DA,
  0x983E5152, 0xA831C66D, 0xB00327C8, 0xBF597FC7, 0xC6E00BF3, 0xD5A79147, 0x06CA6351, 0x14292967,
  0x27B70A85, 0x2E1B2138, 0x4D2C6DFC, 0x53380D13, 0x650A7354, 0x766A0ABB, 0x81C2C92E, 0x92722C85,
  0xA2BFE8A1, 0xA81A664B, 0xC24B8B70, 0xC76C51A3, 0xD192E819, 0xD6990624, 0xF40E3585, 0x106AA070,
  0x19A4C116, 0x1E376C08, 0x2748774C, 0x34B0BCB5, 0x391C0CB3, 0x4ED8AA4A, 0x5B9CCA4F, 0x682E6FF3,
  0x748F82EE, 0x78A5636F, 0x84C87814, 0x8CC70208, 0x90BEFFFA, 0xA4506CEB, 0xBEF9A3F7, 0xC67178F2]

/-- A word turned right by a number of bits. -/
def turn (x : UInt32) (count : UInt32) : UInt32 := (x >>> count) ||| (x <<< (32 - count))

/-- The word that extends a schedule whose last sixteen words are given, latest first. -/
def nextWord (latest : List UInt32) : UInt32 :=
  let word (i : Nat) := latest.getD i 0
  let old := word 14
  let new := word 1
  let mixOld := turn old 7 ^^^ turn old 18 ^^^ (old >>> 3)
  let mixNew := turn new 17 ^^^ turn new 19 ^^^ (new >>> 10)
  word 15 + mixOld + word 6 + mixNew

/-- The schedule of a block, latest word first, extended by `count` words. -/
def extend (latest : List UInt32) : Nat → List UInt32
  | 0 => latest
  | count + 1 => extend (nextWord latest :: latest) count

/-- One round. -/
def Words.round (s : Words) (constant word : UInt32) : Words :=
  let mixE := turn s.e 6 ^^^ turn s.e 11 ^^^ turn s.e 25
  let choice := (s.e &&& s.f) ^^^ (~~~s.e &&& s.g)
  let first := s.h + mixE + choice + constant + word
  let mixA := turn s.a 2 ^^^ turn s.a 13 ^^^ turn s.a 22
  let majority := (s.a &&& s.b) ^^^ (s.a &&& s.c) ^^^ (s.b &&& s.c)
  { a := first + (mixA + majority), b := s.a, c := s.b, d := s.c
    e := s.d + first, f := s.e, g := s.f, h := s.g }

/-- The words after a block of sixteen words. -/
def Words.block (s : Words) (block : List UInt32) : Words :=
  let schedule := (extend block.reverse 48).reverse
  let t := (roundConstants.zip schedule).foldl (fun s (constant, word) => s.round constant word) s
  ⟨s.a + t.a, s.b + t.b, s.c + t.c, s.d + t.d, s.e + t.e, s.f + t.f, s.g + t.g, s.h + t.h⟩

/-- The words that bytes write, four bytes each, the first the highest. -/
def toWords : List UInt8 → List UInt32
  | a :: b :: c :: d :: rest =>
      ((a.toUInt32 <<< 24) ||| (b.toUInt32 <<< 16) ||| (c.toUInt32 <<< 8) ||| d.toUInt32)
        :: toWords rest
  | _ => []

/-- The bytes of a number, the highest first. -/
def bytesOf (n : Nat) : Nat → List UInt8
  | 0 => []
  | count + 1 => UInt8.ofNat (n / Nat.pow 256 count % 256) :: bytesOf n count

/-- The bytes filled up to whole blocks: a one bit, zeros, and the length in bits. -/
def padded (bytes : List UInt8) : List UInt8 :=
  let zeros := (55 + 64 - bytes.length % 64) % 64
  bytes ++ 0x80 :: (List.replicate zeros 0 ++ bytesOf (8 * bytes.length) 8)

/-- The words after `count` blocks of sixty-four bytes. -/
def Words.blocks (s : Words) (bytes : List UInt8) : Nat → Words
  | 0 => s
  | count + 1 => (s.block (toWords (bytes.take 64))).blocks (bytes.drop 64) count

/-- The eight words of the digest. -/
def sha256 (bytes : List UInt8) : List UInt32 :=
  let whole := padded bytes
  let s := Words.start.blocks whole (whole.length / 64)
  [s.a, s.b, s.c, s.d, s.e, s.f, s.g, s.h]

/-- A number in `count` hexadecimal digits. -/
def hexDigits (n : Nat) : Nat → List Char
  | 0 => []
  | count + 1 => Nat.digitChar (n / Nat.pow 16 count % 16) :: hexDigits n count

/-- The digest of a string's bytes as sixty-four hexadecimal digits. -/
def sha256Hex (s : String) : String :=
  String.ofList ((sha256 s.toUTF8.toList).flatMap fun word => hexDigits word.toNat 8)

end Stencil.Digest
