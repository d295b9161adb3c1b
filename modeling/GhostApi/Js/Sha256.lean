import Mathlib.Data.List.Basic

/-!
# SHA-256 of a text, in lowercase hexadecimal

createHash("sha256").update(value, "utf8").digest("hex") on words that are
natural numbers below 2 ^ 32. Proofs use nothing of the compression function
but the shape of its result.
-/

namespace Js.Sha256

def word (n : Nat) : Nat := n % 4294967296

def rotr (x n : Nat) : Nat := word (x >>> n ||| x <<< (32 - n))

def roundConstants : List Nat :=
  [0x428a2f98, 0x71374491, 0xb5c0fbcf, 0xe9b5dba5, 0x3956c25b, 0x59f111f1, 0x923f82a4, 0xab1c5ed5,
   0xd807aa98, 0x12835b01, 0x243185be, 0x550c7dc3, 0x72be5d74, 0x80deb1fe, 0x9bdc06a7, 0xc19bf174,
   0xe49b69c1, 0xefbe4786, 0x0fc19dc6, 0x240ca1cc, 0x2de92c6f, 0x4a7484aa, 0x5cb0a9dc, 0x76f988da,
   0x983e5152, 0xa831c66d, 0xb00327c8, 0xbf597fc7, 0xc6e00bf3, 0xd5a79147, 0x06ca6351, 0x14292967,
   0x27b70a85, 0x2e1b2138, 0x4d2c6dfc, 0x53380d13, 0x650a7354, 0x766a0abb, 0x81c2c92e, 0x92722c85,
   0xa2bfe8a1, 0xa81a664b, 0xc24b8b70, 0xc76c51a3, 0xd192e819, 0xd6990624, 0xf40e3585, 0x106aa070,
   0x19a4c116, 0x1e376c08, 0x2748774c, 0x34b0bcb5, 0x391c0cb3, 0x4ed8aa4a, 0x5b9cca4f, 0x682e6ff3,
   0x748f82ee, 0x78a5636f, 0x84c87814, 0x8cc70208, 0x90befffa, 0xa4506ceb, 0xbef9a3f7, 0xc67178f2]

structure Digest where
  a : Nat
  b : Nat
  c : Nat
  d : Nat
  e : Nat
  f : Nat
  g : Nat
  h : Nat

def initialDigest : Digest :=
  ⟨0x6a09e667, 0xbb67ae85, 0x3c6ef372, 0xa54ff53a, 0x510e527f, 0x9b05688c, 0x1f83d9ab, 0x5be0cd19⟩

def Digest.words (s : Digest) : List Nat := [s.a, s.b, s.c, s.d, s.e, s.f, s.g, s.h]

def Digest.round (s : Digest) (k w : Nat) : Digest :=
  let sum1 := rotr s.e 6 ^^^ rotr s.e 11 ^^^ rotr s.e 25
  let choice := (s.e &&& s.f) ^^^ ((4294967295 - s.e) &&& s.g)
  let temp1 := s.h + sum1 + choice + k + w
  let sum0 := rotr s.a 2 ^^^ rotr s.a 13 ^^^ rotr s.a 22
  let majority := (s.a &&& s.b) ^^^ (s.a &&& s.c) ^^^ (s.b &&& s.c)
  ⟨word (temp1 + sum0 + majority), s.a, s.b, s.c, word (s.d + temp1), s.e, s.f, s.g⟩

def Digest.add (s t : Digest) : Digest :=
  ⟨word (s.a + t.a), word (s.b + t.b), word (s.c + t.c), word (s.d + t.d),
   word (s.e + t.e), word (s.f + t.f), word (s.g + t.g), word (s.h + t.h)⟩

def nextWord (w : List Nat) : Nat :=
  let w15 := w.getD 14 0
  let w2 := w.getD 1 0
  let sigma0 := rotr w15 7 ^^^ rotr w15 18 ^^^ (w15 >>> 3)
  let sigma1 := rotr w2 17 ^^^ rotr w2 19 ^^^ (w2 >>> 10)
  word (w.getD 15 0 + sigma0 + w.getD 6 0 + sigma1)

def extend : Nat → List Nat → List Nat
  | 0, w => w
  | n + 1, w => extend n (nextWord w :: w)

def compress (s : Digest) (block : List Nat) : Digest :=
  let schedule := (extend 48 block.reverse).reverse
  s.add ((roundConstants.zip schedule).foldl (fun t kw => t.round kw.1 kw.2) s)

def bytesBE : Nat → Nat → List Nat
  | 0, _ => []
  | n + 1, x => bytesBE n (x / 256) ++ [x % 256]

def padded (bytes : List Nat) : List Nat :=
  bytes ++ [0x80] ++ List.replicate ((119 - bytes.length % 64) % 64) 0 ++ bytesBE 8 (8 * bytes.length)

/-- The big-endian words of a byte string; a rest of fewer than four bytes is dropped. -/
def wordsBE : List Nat → List Nat
  | a :: b :: c :: d :: rest => (((a * 256 + b) * 256 + c) * 256 + d) :: wordsBE rest
  | _ => []

def blocks : Nat → List Nat → List (List Nat)
  | 0, _ => []
  | n + 1, words => words.take 16 :: blocks n (words.drop 16)

def digestWords (bytes : List Nat) : List Nat :=
  let words := wordsBE (padded bytes)
  ((blocks (words.length / 16) words).foldl compress initialDigest).words

def hexChars : List Char := "0123456789abcdef".toList

def hexDigit (n : Nat) : Char := hexChars.getD (n % 16) '0'

def hex : Nat → Nat → List Char
  | 0, _ => []
  | n + 1, x => hex n (x / 16) ++ [hexDigit x]

def hexOfBytes (bytes : List Nat) : List Char := (digestWords bytes).flatMap (hex 8)

end Sha256

/-- The SHA-256 digest of the UTF-8 encoding. -/
def sha256 (value : String) : String :=
  String.ofList (Sha256.hexOfBytes (value.toUTF8.data.toList.map UInt8.toNat))

namespace Sha256

def isHexChar (c : Char) : Bool := hexChars.contains c

theorem hexDigit_isHexChar (n : Nat) : isHexChar (hexDigit n) = true := by
  have hAll : ∀ i : Fin 16, isHexChar (hexChars.getD i.val '0') = true := by decide
  exact hAll ⟨n % 16, Nat.mod_lt _ (by decide)⟩

theorem hex_length (n x : Nat) : (hex n x).length = n := by
  induction n generalizing x with
  | zero => rfl
  | succ n ih => simp [hex, ih]

theorem hex_isHexChar (n x : Nat) : ∀ c ∈ hex n x, isHexChar c = true := by
  induction n generalizing x with
  | zero => simp [hex]
  | succ n ih =>
    intro c hc
    rcases List.mem_append.mp hc with hc | hc
    · exact ih _ c hc
    · rw [List.mem_singleton.mp hc]
      exact hexDigit_isHexChar x

theorem digestWords_length (bytes : List Nat) : (digestWords bytes).length = 8 := rfl

theorem hexOfBytes_length (bytes : List Nat) : (hexOfBytes bytes).length = 64 := by
  simp [hexOfBytes, List.length_flatMap, hex_length, digestWords_length]

theorem hexOfBytes_isHexChar (bytes : List Nat) : ∀ c ∈ hexOfBytes bytes, isHexChar c = true := by
  intro c hc
  obtain ⟨w, _, hw⟩ := List.mem_flatMap.mp hc
  exact hex_isHexChar 8 w c hw

end Sha256

theorem sha256_length (value : String) : (sha256 value).toList.length = 64 := by
  rw [sha256, String.toList_ofList, Sha256.hexOfBytes_length]

theorem sha256_isHexChar (value : String) : ∀ c ∈ (sha256 value).toList, Sha256.isHexChar c = true := by
  rw [sha256, String.toList_ofList]
  exact Sha256.hexOfBytes_isHexChar _

example : sha256 "abc" = "ba7816bf8f01cfea414140de5dae2223b00361a396177a9cb410ff61f20015ad" := by
  decide +kernel

attribute [irreducible] sha256

end Js
