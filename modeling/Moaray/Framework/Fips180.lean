import Mathlib.Data.Nat.NthRoot.Defs
import Mathlib.Tactic

/-!
# SHA-256 as FIPS 180-4 states it

The hash of a string of bits, section by section of the standard: the functions on words, the
constants as roots of the first primes, the padding, the parsing into blocks, the message schedule
and the computation.

* `isLeast_zeros` — the padding takes the least number of zeros that fits.
* `length_pad` — a padded message is a whole number of blocks.
* `value_bits`, `bits_eq_groups` — bit strings and the numbers they stand for.

This is a transcription, made for comparison: nothing in it is taken from a program.  A message is
a list of bits, the most significant first, of any length; a word is a `BitVec 32`, on which the
standard's operations are Lean's own.

**Design.**  Where the standard gives a table and says what the table holds, the definition says
what it holds.  The round constants are the fractional parts of cube roots of primes, and `K`
computes them as such with integer roots; the initial hash value comes from square roots in the
same way; and the primes are the least sixty-four (`primes_eq`).  Where the standard asks for the
smallest solution of an equation, `zeros` is a formula and `isLeast_zeros` shows it is that.

The lemmas on bit strings are what an implementation over bytes and words needs in order to be
compared with this: a number, and its groups of bits, stand for the same string.
-/

namespace Moaray.Framework.Fips180

/-- A word of 32 bits. -/
abbrev Word := BitVec 32

/-! ## Functions and constants -/

def rotr (n : ℕ) (x : Word) : Word := x.rotateRight n

def shr (n : ℕ) (x : Word) : Word := x >>> n

def ch (x y z : Word) : Word := (x &&& y) ^^^ (~~~x &&& z)

def maj (x y z : Word) : Word := (x &&& y) ^^^ (x &&& z) ^^^ (y &&& z)

def bigSigma0 (x : Word) : Word := rotr 2 x ^^^ rotr 13 x ^^^ rotr 22 x

def bigSigma1 (x : Word) : Word := rotr 6 x ^^^ rotr 11 x ^^^ rotr 25 x

def smallSigma0 (x : Word) : Word := rotr 7 x ^^^ rotr 18 x ^^^ shr 3 x

def smallSigma1 (x : Word) : Word := rotr 17 x ^^^ rotr 19 x ^^^ shr 10 x

/-- The first sixty-four primes, in order. -/
def primes : List ℕ := (List.range 312).filter fun n => decide (Nat.Prime n)

lemma prime_iff_of_lt {n : ℕ} (h : n < 324) :
    n.Prime ↔ 2 ≤ n ∧ ∀ d < 18, 2 ≤ d → d * d ≤ n → ¬ d ∣ n := by
  rw [Nat.prime_def_le_sqrt]
  refine and_congr_right fun _ => ⟨fun hall d _ hd hle => ?_, fun hall d hd hle => ?_⟩
  · exact hall d hd (Nat.le_sqrt.2 hle)
  · have hsq : d * d ≤ n := Nat.le_sqrt.1 hle
    exact hall d (by nlinarith) hd hsq

lemma primes_eq : primes =
    [2, 3, 5, 7, 11, 13, 17, 19, 23, 29, 31, 37, 41, 43, 47, 53, 59, 61, 67, 71, 73, 79, 83, 89,
      97, 101, 103, 107, 109, 113, 127, 131, 137, 139, 149, 151, 157, 163, 167, 173, 179, 181,
      191, 193, 197, 199, 211, 223, 227, 229, 233, 239, 241, 251, 257, 263, 269, 271, 277, 281,
      283, 293, 307, 311] := by
  have htrial : primes = (List.range 312).filter fun n =>
      decide (2 ≤ n ∧ ∀ d < 18, 2 ≤ d → d * d ≤ n → ¬ d ∣ n) := by
    refine List.filter_congr fun n hn => ?_
    have hlt : n < 312 := List.mem_range.1 hn
    rw [decide_eq_decide]
    exact prime_iff_of_lt (by omega)
  rw [htrial]
  decide +kernel

/-- The first 32 bits of the fractional part of the square root of `p`: the root of `p` shifted by
64 bits, as an integer, modulo a word. -/
def squareRootBits (p : ℕ) : Word := BitVec.ofNat 32 (Nat.sqrt (p * 2 ^ 64))

/-- The first 32 bits of the fractional part of the cube root of `p`. -/
def cubeRootBits (p : ℕ) : Word := BitVec.ofNat 32 (Nat.nthRoot 3 (p * 2 ^ 96))

/-- The round constants. -/
def K (t : ℕ) : Word := cubeRootBits (primes.getD t 0)

/-- The working variables of the computation.  The intermediate hash values have the same shape, one
word for each variable. -/
structure Working where
  a : Word
  b : Word
  c : Word
  d : Word
  e : Word
  f : Word
  g : Word
  h : Word
  deriving DecidableEq

def Working.words (v : Working) : List Word := [v.a, v.b, v.c, v.d, v.e, v.f, v.g, v.h]

/-- The initial hash value. -/
def initial : Working where
  a := squareRootBits (primes.getD 0 0)
  b := squareRootBits (primes.getD 1 0)
  c := squareRootBits (primes.getD 2 0)
  d := squareRootBits (primes.getD 3 0)
  e := squareRootBits (primes.getD 4 0)
  f := squareRootBits (primes.getD 5 0)
  g := squareRootBits (primes.getD 6 0)
  h := squareRootBits (primes.getD 7 0)

/-! ## Bit strings -/

/-- The bits of a bit vector, the most significant first. -/
def bits {w : ℕ} (x : BitVec w) : List Bool := (List.range w).map x.getMsbD

/-- The number a bit string stands for when it is read after the bits of `n`, the most significant
first. -/
def value (n : ℕ) (bs : List Bool) : ℕ := bs.foldl (fun n b => 2 * n + b.toNat) n

/-- The word a string of 32 bits stands for. -/
def word (bs : List Bool) : Word := BitVec.ofNat 32 (value 0 bs)

@[simp] lemma length_bits {w : ℕ} (x : BitVec w) : (bits x).length = w := by simp [bits]

/-! ## Padding and parsing -/

/-- How many zeros follow the one in the padding of a message of `l` bits. -/
def zeros (l : ℕ) : ℕ := (959 - l % 512) % 512

/-- The message padded to a whole number of blocks: a one, the least number of zeros that fits, and
its length as a number of 64 bits. -/
def pad (m : List Bool) : List Bool :=
  m ++ true :: List.replicate (zeros m.length) false ++ bits (BitVec.ofNat 64 m.length)

lemma isLeast_zeros (l : ℕ) : IsLeast {k | (l + 1 + k) % 512 = 448} (zeros l) := by
  unfold zeros
  constructor
  · show (l + 1 + (959 - l % 512) % 512) % 512 = 448
    omega
  · intro k hk
    replace hk : (l + 1 + k) % 512 = 448 := hk
    omega

lemma length_pad (m : List Bool) : (pad m).length % 512 = 0 := by
  have hfits := (isLeast_zeros m.length).1
  replace hfits : (m.length + 1 + zeros m.length) % 512 = 448 := hfits
  simp only [pad, List.length_append, List.length_cons, List.length_replicate, length_bits]
  omega

/-- The blocks of 512 bits of a padded message. -/
def blocks (m : List Bool) : List (List Bool) :=
  (List.range (m.length / 512)).map fun i => (m.drop (512 * i)).take 512

def blockWord (block : List Bool) (t : ℕ) : Word := word ((block.drop (32 * t)).take 32)

/-! ## Computation -/

/-- The message schedule of a block with words `m`: sixteen words of the block, and then each from
four before it. -/
def W (m : ℕ → Word) (t : ℕ) : Word :=
  if t < 16 then m t
  else smallSigma1 (W m (t - 2)) + W m (t - 7) + smallSigma0 (W m (t - 15)) + W m (t - 16)
termination_by t

/-- One round: the working variables move down by one, and the first and the fifth take up the
constant and the word of the schedule. -/
def round (v : Working) (k w : Word) : Working :=
  let t1 := v.h + bigSigma1 v.e + ch v.e v.f v.g + k + w
  let t2 := bigSigma0 v.a + maj v.a v.b v.c
  { h := v.g, g := v.f, f := v.e, e := v.d + t1, d := v.c, c := v.b, b := v.a, a := t1 + t2 }

def add (v v' : Working) : Working where
  a := v.a + v'.a
  b := v.b + v'.b
  c := v.c + v'.c
  d := v.d + v'.d
  e := v.e + v'.e
  f := v.f + v'.f
  g := v.g + v'.g
  h := v.h + v'.h

lemma add_comm (v v' : Working) : add v v' = add v' v := by
  unfold add
  congr 1 <;> exact BitVec.add_comm _ _

/-- The next hash value, after a block: sixty-four rounds from the last one, and the two added word
by word. -/
def compress (v : Working) (block : List Bool) : Working :=
  add ((List.range 64).foldl (fun v t => round v (K t) (W (blockWord block) t)) v) v

def hash (m : List Bool) : Working := (blocks (pad m)).foldl compress initial

/-- The message digest, as a string of 256 bits. -/
def digest (m : List Bool) : List Bool := (hash m).words.flatMap bits

/-! ## Hexadecimal notation -/

/-- The digit of a string of four bits. -/
def hexDigit (bs : List Bool) : Char := Nat.digitChar (value 0 bs)

/-- A bit string in hexadecimal notation, four bits a digit, in lower case. -/
def hex : List Bool → List Char
  | a :: b :: c :: d :: rest => hexDigit [a, b, c, d] :: hex rest
  | _ => []

/-! ## Reading bits back -/

lemma value_append (n : ℕ) (bs cs : List Bool) : value n (bs ++ cs) = value (value n bs) cs := by
  simp [value]

/-- The last bit of a number is its parity, and the bits before it are those of its half. -/
lemma bits_succ {w : ℕ} (x : BitVec (w + 1)) :
    bits x = bits (x.extractLsb' 1 w) ++ [x.getLsbD 0] := by
  unfold bits
  rw [List.range_succ, List.map_append, List.map_singleton]
  congr 1
  · refine List.map_congr_left fun i hi => ?_
    have hlt : i < w := List.mem_range.1 hi
    have hindex : w + 1 - 1 - i = 1 + (w - 1 - i) := by omega
    have hlt' : i < w + 1 := by omega
    have hwidth : w - 1 - i < w := by omega
    rw [BitVec.getMsbD, BitVec.getMsbD, BitVec.getLsbD_extractLsb', hindex]
    simp only [hlt, hlt', hwidth, decide_true, Bool.true_and]
  · simp [BitVec.getMsbD]

/-- The bits of a number after others stand for the number after theirs. -/
lemma value_bits {w : ℕ} (n : ℕ) (x : BitVec w) : value n (bits x) = n * 2 ^ w + x.toNat := by
  induction w with
  | zero =>
      have hzero : x.toNat = 0 := by
        have hlt := x.isLt
        omega
      simp [bits, value, hzero]
  | succ w ih =>
      have hlt : x.toNat < 2 ^ w * 2 := by simpa [pow_succ] using x.isLt
      have hhalf : (x.extractLsb' 1 w).toNat = x.toNat / 2 := by
        rw [BitVec.extractLsb'_toNat, Nat.shiftRight_eq_div_pow, pow_one]
        exact Nat.mod_eq_of_lt (by omega)
      have hparity : (x.getLsbD 0).toNat = x.toNat % 2 := by
        rw [BitVec.getLsbD, Nat.testBit_zero]
        rcases Nat.mod_two_eq_zero_or_one x.toNat with h | h <;> simp [h]
      rw [bits_succ, value_append, ih, hhalf]
      simp only [value, List.foldl_cons, List.foldl_nil, hparity]
      have hdiv := Nat.div_add_mod x.toNat 2
      rw [pow_succ]
      linarith

/-- Groups of `w` bits, the most significant first, stand for the number they are cut from, as far
as the groups reach. -/
lemma value_groups (w n m x : ℕ) :
    value n ((List.range m).reverse.flatMap fun k => bits (BitVec.ofNat w (x >>> (w * k)))) =
      n * 2 ^ (w * m) + x % 2 ^ (w * m) := by
  induction m generalizing n with
  | zero => simp [value, Nat.mod_one]
  | succ m ih =>
      have hgroup : x % 2 ^ (w * m + w) =
          x % 2 ^ (w * m) + 2 ^ (w * m) * (x / 2 ^ (w * m) % 2 ^ w) := by
        rw [pow_add, Nat.mod_mul]
      have hindex : w * (m + 1) = w * m + w := Nat.mul_succ w m
      rw [List.range_succ, List.reverse_append, List.reverse_singleton, List.singleton_append,
        List.flatMap_cons, value_append, value_bits, ih, BitVec.toNat_ofNat,
        Nat.shiftRight_eq_div_pow, hindex, hgroup, pow_add]
      ring

/-- Bit strings of one length that stand for one number are equal, and so are the numbers they were
read after. -/
lemma value_inj {n m : ℕ} {bs cs : List Bool} (hlength : bs.length = cs.length)
    (h : value n bs = value m cs) : n = m ∧ bs = cs := by
  induction bs generalizing n m cs with
  | nil =>
      cases cs with
      | nil => exact ⟨h, rfl⟩
      | cons c cs => simp at hlength
  | cons b bs ih =>
      cases cs with
      | nil => simp at hlength
      | cons c cs =>
          have hrest : value (2 * n + b.toNat) bs = value (2 * m + c.toNat) cs := h
          obtain ⟨hnm, rfl⟩ := ih (by simpa using hlength) hrest
          have hb := b.toNat_lt
          have hc := c.toNat_lt
          have hparity : b.toNat = c.toNat := by omega
          have hbit : b = c := by
            cases b <;> cases c <;> first | rfl | exact absurd hparity (by decide)
          rw [hbit]
          exact ⟨by omega, rfl⟩

/-- The bits of a number, cut into `m` groups of `w`. -/
lemma bits_eq_groups {w m : ℕ} (x : BitVec (w * m)) :
    bits x = (List.range m).reverse.flatMap fun k => bits (x.extractLsb' (w * k) w) := by
  refine (value_inj (n := 0) (m := 0) ?_ ?_).2
  · rw [List.length_flatMap]
    simp [mul_comm]
  · have hgroups := value_groups w 0 m x.toNat
    rw [Nat.mod_eq_of_lt x.isLt] at hgroups
    rw [value_bits]
    exact hgroups.symm

end Moaray.Framework.Fips180
