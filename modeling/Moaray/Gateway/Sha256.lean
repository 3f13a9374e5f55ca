import Moaray.Core.Text

/-!
# The gateway's SHA-256

The digest the gateway computes to compare a presented token with a configured one, loop by loop as
the source has it.

* `pad` — the message with its padding: a byte, zeros until the length fits, and eight bytes of
  length.
* `schedule`, `compress` — one chunk of 64 bytes.
* `digest` — all chunks, and the result in hexadecimal.

**Design.**  The arrays of the source are lists and its eight variables a structure.  Two loops of
the source run until a test holds; they carry fuel here, a number that suffices at every length, so
they are structurally recursive and evaluate.
-/

namespace Moaray

namespace Sha256

/-- The eight working words, `v[0]` to `v[7]`. -/
structure Words where
  v0 : UInt32
  v1 : UInt32
  v2 : UInt32
  v3 : UInt32
  v4 : UInt32
  v5 : UInt32
  v6 : UInt32
  v7 : UInt32
  deriving DecidableEq, Repr

def initial : Words :=
  ⟨0x6a09e667, 0xbb67ae85, 0x3c6ef372, 0xa54ff53a, 0x510e527f, 0x9b05688c, 0x1f83d9ab, 0x5be0cd19⟩

def roundConstants : List UInt32 := [
  0x428a2f98, 0x71374491, 0xb5c0fbcf, 0xe9b5dba5, 0x3956c25b, 0x59f111f1, 0x923f82a4,
  0xab1c5ed5, 0xd807aa98, 0x12835b01, 0x243185be, 0x550c7dc3, 0x72be5d74, 0x80deb1fe,
  0x9bdc06a7, 0xc19bf174, 0xe49b69c1, 0xefbe4786, 0x0fc19dc6, 0x240ca1cc, 0x2de92c6f,
  0x4a7484aa, 0x5cb0a9dc, 0x76f988da, 0x983e5152, 0xa831c66d, 0xb00327c8, 0xbf597fc7,
  0xc6e00bf3, 0xd5a79147, 0x06ca6351, 0x14292967, 0x27b70a85, 0x2e1b2138, 0x4d2c6dfc,
  0x53380d13, 0x650a7354, 0x766a0abb, 0x81c2c92e, 0x92722c85, 0xa2bfe8a1, 0xa81a664b,
  0xc24b8b70, 0xc76c51a3, 0xd192e819, 0xd6990624, 0xf40e3585, 0x106aa070, 0x19a4c116,
  0x1e376c08, 0x2748774c, 0x34b0bcb5, 0x391c0cb3, 0x4ed8aa4a, 0x5b9cca4f, 0x682e6ff3,
  0x748f82ee, 0x78a5636f, 0x84c87814, 0x8cc70208, 0x90befffa, 0xa4506ceb, 0xbef9a3f7,
  0xc67178f2]

def rotateRight (x : UInt32) (n : UInt32) : UInt32 := (x >>> n) ||| (x <<< (32 - n))

/-- Append zeros until the length is 56 modulo 64; at most 63 rounds are needed. -/
def padZeros : ℕ → Bytes → Bytes
  | 0, msg => msg
  | fuel + 1, msg => if msg.length % 64 = 56 then msg else padZeros fuel (msg ++ [0])

/-- `to_be_bytes` of a 64-bit word. -/
def toBeBytes (n : UInt64) : Bytes :=
  ([56, 48, 40, 32, 24, 16, 8, 0] : List UInt64).map fun shift => (n >>> shift).toUInt8

/-- The padded message.  The length is multiplied in 64 bits, where it wraps from 2^61 bytes on. -/
def pad (data : Bytes) : Bytes :=
  let bitlen := UInt64.ofNat data.length * 8
  padZeros 64 (data ++ [0x80]) ++ toBeBytes bitlen

def chunks : ℕ → Bytes → List Bytes
  | 0, _ => []
  | fuel + 1, msg => if msg.isEmpty then [] else msg.take 64 :: chunks fuel (msg.drop 64)

/-- `from_be_bytes` of the four bytes at `4 * i`. -/
def wordAt (chunk : Bytes) (i : ℕ) : UInt32 :=
  let byte j := (chunk.getD (4 * i + j) 0).toUInt32
  (byte 0 <<< 24) ||| (byte 1 <<< 16) ||| (byte 2 <<< 8) ||| byte 3

/-- The next word of the message schedule, from the words so far. -/
def extend (w : List UInt32) : List UInt32 :=
  let at' i := w.getD (w.length - i) 0
  let s0 := rotateRight (at' 15) 7 ^^^ rotateRight (at' 15) 18 ^^^ (at' 15 >>> 3)
  let s1 := rotateRight (at' 2) 17 ^^^ rotateRight (at' 2) 19 ^^^ (at' 2 >>> 10)
  w ++ [at' 16 + s0 + at' 7 + s1]

/-- The 64 words of the message schedule. -/
def schedule (chunk : Bytes) : List UInt32 :=
  (List.range 48).foldl (fun w _ => extend w) ((List.range 16).map (wordAt chunk))

def round (v : Words) (kw : UInt32 × UInt32) : Words :=
  let s1 := rotateRight v.v4 6 ^^^ rotateRight v.v4 11 ^^^ rotateRight v.v4 25
  let ch := (v.v4 &&& v.v5) ^^^ (~~~v.v4 &&& v.v6)
  let t1 := v.v7 + s1 + ch + kw.1 + kw.2
  let s0 := rotateRight v.v0 2 ^^^ rotateRight v.v0 13 ^^^ rotateRight v.v0 22
  let maj := (v.v0 &&& v.v1) ^^^ (v.v0 &&& v.v2) ^^^ (v.v1 &&& v.v2)
  let t2 := s0 + maj
  { v7 := v.v6, v6 := v.v5, v5 := v.v4, v4 := v.v3 + t1
    v3 := v.v2, v2 := v.v1, v1 := v.v0, v0 := t1 + t2 }

def add (a b : Words) : Words :=
  ⟨a.v0 + b.v0, a.v1 + b.v1, a.v2 + b.v2, a.v3 + b.v3, a.v4 + b.v4, a.v5 + b.v5, a.v6 + b.v6,
    a.v7 + b.v7⟩

/-- Process one chunk: 64 rounds from the state `h`, and their result added to it. -/
def compress (h : Words) (chunk : Bytes) : Words :=
  add h ((roundConstants.zip (schedule chunk)).foldl round h)

def hexDigit (n : UInt32) : Char :=
  ['0', '1', '2', '3', '4', '5', '6', '7', '8', '9', 'a', 'b', 'c', 'd', 'e', 'f'].getD n.toNat '0'

/-- A word as eight lowercase hexadecimal digits. -/
def hexWord (word : UInt32) : List Char :=
  ([28, 24, 20, 16, 12, 8, 4, 0] : List UInt32).map fun shift => hexDigit ((word >>> shift) &&& 0xF)

def digest (data : Bytes) : String :=
  let msg := pad data
  let h := (chunks msg.length msg).foldl compress initial
  String.ofList ([h.v0, h.v1, h.v2, h.v3, h.v4, h.v5, h.v6, h.v7].flatMap hexWord)

end Sha256

end Moaray
