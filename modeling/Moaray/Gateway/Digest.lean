import Moaray.Framework.Fips180
import Moaray.Gateway.Sha256

/-!
# The gateway's SHA-256 is SHA-256

`Sha256.digest` against the standard, which speaks of bits where the gateway has bytes, and of
words by their index where the gateway keeps arrays.

* `roundConstants_eq`, `toWorking_initial` — the tables hold the roots of primes the standard says
  they hold.
* `toBitVec_wordAt`, `schedule_eq` — the words of a chunk and its message schedule.
* `toWorking_compress` — one block.
* `messageBits_pad`, `map_messageBits_chunks` — padding and parsing, at every length.
* `digest_eq` — the digest of every byte string whose length in bits fits 64 bits.

The bits of a byte string are those of its bytes, the most significant first.  A word that the
gateway puts together from four bytes with shifts is the number their bits stand for; a word that
it appends to its array is the one the standard defines by recursion; and a round on eight
variables is the standard's round.  From there the loops are followed by induction, over the
rounds, the steps of the schedule and the chunks.

**Design.**  The standard is transcribed elsewhere without regard to this program, and the proof
compares the two piece by piece, under the names of either.  The condition on the length is where
the two part: the source multiplies the length by eight in 64 bits.
-/

namespace Moaray

open Framework

namespace Sha256

/-! ## Functions and constants -/

section Functions

variable (x y z : UInt32)

lemma toBitVec_rotateRight {n : UInt32} (hpos : 0 < n.toNat) (hlt : n.toNat < 32) :
    (rotateRight x n).toBitVec = Fips180.rotr n.toNat x.toBitVec := by
  have hmod : n.toNat % 32 = n.toNat := Nat.mod_eq_of_lt hlt
  have hback : (4294967296 - n.toNat) % 32 = 32 - n.toNat := by omega
  unfold rotateRight Fips180.rotr BitVec.rotateRight BitVec.rotateRightAux
  rw [UInt32.toBitVec_or, UInt32.toBitVec_shiftRight, UInt32.toBitVec_shiftLeft,
    BitVec.ushiftRight_eq', BitVec.shiftLeft_eq']
  simp [hmod, hback]

lemma toBitVec_bigSigma0 :
    (rotateRight x 2 ^^^ rotateRight x 13 ^^^ rotateRight x 22).toBitVec =
      Fips180.bigSigma0 x.toBitVec := by
  rw [UInt32.toBitVec_xor, UInt32.toBitVec_xor, toBitVec_rotateRight x (by decide) (by decide),
    toBitVec_rotateRight x (by decide) (by decide), toBitVec_rotateRight x (by decide) (by decide)]
  rfl

lemma toBitVec_bigSigma1 :
    (rotateRight x 6 ^^^ rotateRight x 11 ^^^ rotateRight x 25).toBitVec =
      Fips180.bigSigma1 x.toBitVec := by
  rw [UInt32.toBitVec_xor, UInt32.toBitVec_xor, toBitVec_rotateRight x (by decide) (by decide),
    toBitVec_rotateRight x (by decide) (by decide), toBitVec_rotateRight x (by decide) (by decide)]
  rfl

lemma toBitVec_smallSigma0 :
    (rotateRight x 7 ^^^ rotateRight x 18 ^^^ (x >>> 3)).toBitVec =
      Fips180.smallSigma0 x.toBitVec := by
  rw [UInt32.toBitVec_xor, UInt32.toBitVec_xor, toBitVec_rotateRight x (by decide) (by decide),
    toBitVec_rotateRight x (by decide) (by decide)]
  rfl

lemma toBitVec_smallSigma1 :
    (rotateRight x 17 ^^^ rotateRight x 19 ^^^ (x >>> 10)).toBitVec =
      Fips180.smallSigma1 x.toBitVec := by
  rw [UInt32.toBitVec_xor, UInt32.toBitVec_xor, toBitVec_rotateRight x (by decide) (by decide),
    toBitVec_rotateRight x (by decide) (by decide)]
  rfl

end Functions

/-- The working words, as the standard has them. -/
def toWorking (v : Words) : Fips180.Working where
  a := v.v0.toBitVec
  b := v.v1.toBitVec
  c := v.v2.toBitVec
  d := v.v3.toBitVec
  e := v.v4.toBitVec
  f := v.v5.toBitVec
  g := v.v6.toBitVec
  h := v.v7.toBitVec

/-- The table of round constants holds the cube roots of the first primes. -/
lemma roundConstants_eq :
    roundConstants = (List.range 64).map fun t => UInt32.ofBitVec (Fips180.K t) := by
  unfold Fips180.K
  rw [Fips180.primes_eq]
  decide +kernel

/-- The initial hash value holds the square roots of the first eight primes. -/
lemma toWorking_initial : toWorking initial = Fips180.initial := by
  unfold Fips180.initial
  rw [Fips180.primes_eq]
  decide +kernel

lemma toWorking_add (v v' : Words) :
    toWorking (add v v') = Fips180.add (toWorking v) (toWorking v') := rfl

lemma toWorking_round (v : Words) (k w : UInt32) :
    toWorking (round v (k, w)) = Fips180.round (toWorking v) k.toBitVec w.toBitVec := by
  simp only [toWorking, round, Fips180.round, UInt32.toBitVec_add, toBitVec_bigSigma0,
    toBitVec_bigSigma1]
  rfl

/-! ## Words and the message schedule -/

def messageBits (data : Bytes) : List Bool := data.flatMap fun b => Fips180.bits b.toBitVec

section MessageBits

variable (data : Bytes)

@[simp] lemma messageBits_nil : messageBits [] = [] := rfl

@[simp] lemma messageBits_cons (b : UInt8) :
    messageBits (b :: data) = Fips180.bits b.toBitVec ++ messageBits data := rfl

lemma messageBits_append (data' : Bytes) :
    messageBits (data ++ data') = messageBits data ++ messageBits data' := by
  simp [messageBits]

@[simp] lemma length_messageBits : (messageBits data).length = 8 * data.length := by
  induction data with
  | nil => rfl
  | cons b data ih =>
      rw [messageBits_cons, List.length_append, Fips180.length_bits, ih, List.length_cons]
      omega

lemma messageBits_take (n : ℕ) : (messageBits data).take (8 * n) = messageBits (data.take n) := by
  induction data generalizing n with
  | nil => simp
  | cons b data ih =>
      cases n with
      | zero => simp
      | succ n =>
          have hmul : 8 * (n + 1) = 8 + 8 * n := by omega
          rw [messageBits_cons, List.take_succ_cons, messageBits_cons, hmul, List.take_append,
            Fips180.length_bits, List.take_of_length_le (by simp), Nat.add_sub_cancel_left, ih]

lemma messageBits_drop (n : ℕ) : (messageBits data).drop (8 * n) = messageBits (data.drop n) := by
  induction data generalizing n with
  | nil => simp
  | cons b data ih =>
      cases n with
      | zero => simp
      | succ n =>
          have hmul : 8 * (n + 1) = 8 + 8 * n := by omega
          rw [messageBits_cons, List.drop_succ_cons, hmul, List.drop_append,
            Fips180.length_bits, List.drop_of_length_le (by simp), Nat.add_sub_cancel_left, ih,
            List.nil_append]

end MessageBits

/-- A byte fits below a number shifted by eight bits more. -/
lemma shiftLeft_or_byte (n k : ℕ) (b : UInt8) :
    n <<< (k + 8) ||| b.toNat <<< k = (n * 2 ^ 8 + b.toNat) <<< k := by
  have hlt : b.toNat <<< k < 2 ^ (k + 8) := by
    have hb : b.toNat < 2 ^ 8 := b.toNat_lt
    rw [Nat.shiftLeft_eq, pow_add, mul_comm]
    exact Nat.mul_lt_mul_of_pos_left hb (Nat.two_pow_pos k)
  rw [← Nat.shiftLeft_add_eq_or_of_lt hlt]
  simp only [Nat.shiftLeft_eq]
  ring

/-- Four bytes, the most significant first, as one number. -/
lemma toNat_bigEndian (a b c d : UInt8) :
    ((a.toUInt32 <<< 24) ||| (b.toUInt32 <<< 16) ||| (c.toUInt32 <<< 8) ||| d.toUInt32).toNat =
      ((a.toNat * 2 ^ 8 + b.toNat) * 2 ^ 8 + c.toNat) * 2 ^ 8 + d.toNat := by
  have hshift (x : UInt8) (k : ℕ) (hk : k ≤ 24) : x.toNat <<< k % 2 ^ 32 = x.toNat <<< k := by
    have hx : x.toNat < 2 ^ 8 := x.toNat_lt
    have hpow : 2 ^ k ≤ 2 ^ 24 := Nat.pow_le_pow_right (by decide) hk
    exact Nat.mod_eq_of_lt (by rw [Nat.shiftLeft_eq]; nlinarith)
  calc ((a.toUInt32 <<< 24) ||| (b.toUInt32 <<< 16) ||| (c.toUInt32 <<< 8) ||| d.toUInt32).toNat
      = a.toNat <<< 24 % 2 ^ 32 ||| b.toNat <<< 16 % 2 ^ 32 ||| c.toNat <<< 8 % 2 ^ 32 |||
          d.toNat := by
        simp [UInt32.toNat_or, UInt32.toNat_shiftLeft]
    _ = a.toNat <<< (16 + 8) ||| b.toNat <<< 16 ||| c.toNat <<< 8 ||| d.toNat <<< 0 := by
        rw [hshift a 24 (by decide), hshift b 16 (by decide), hshift c 8 (by decide),
          Nat.shiftLeft_zero]
    _ = _ := by
        rw [shiftLeft_or_byte a.toNat 16 b, shiftLeft_or_byte _ 8 c, shiftLeft_or_byte _ 0 d,
          Nat.shiftLeft_zero]

lemma take_four {chunk : Bytes} {i : ℕ} (h : 4 * i + 4 ≤ chunk.length) :
    (chunk.drop (4 * i)).take 4 = [chunk.getD (4 * i) 0, chunk.getD (4 * i + 1) 0,
      chunk.getD (4 * i + 2) 0, chunk.getD (4 * i + 3) 0] := by
  have hget (k : ℕ) (hk : k < chunk.length) : chunk.getD k 0 = chunk[k] := by
    rw [List.getD_eq_getElem?_getD, List.getElem?_eq_getElem hk, Option.getD_some]
  refine List.ext_getElem (by simp; omega) fun j hj _ => ?_
  have hlt : j < 4 := by simp at hj; omega
  rw [List.getElem_take, List.getElem_drop]
  interval_cases j <;> exact (hget _ (by omega)).symm

/-- The words of a chunk are those of the standard's block. -/
lemma toBitVec_wordAt {chunk : Bytes} {i : ℕ} (h : 4 * i + 4 ≤ chunk.length) :
    (wordAt chunk i).toBitVec = Fips180.blockWord (messageBits chunk) i := by
  have hindex : 32 * i = 8 * (4 * i) := by omega
  have htake : (messageBits (chunk.drop (4 * i))).take 32 =
      messageBits ((chunk.drop (4 * i)).take 4) := messageBits_take _ 4
  have hword : (wordAt chunk i).toBitVec = BitVec.ofNat 32 (wordAt chunk i).toNat := by
    rw [← UInt32.toNat_toBitVec, BitVec.ofNat_toNat, BitVec.setWidth_eq]
  rw [Fips180.blockWord, hindex, messageBits_drop, htake, take_four h, hword]
  simp only [messageBits_cons, messageBits_nil, List.append_nil, Fips180.word,
    Fips180.value_append, Fips180.value_bits, zero_mul, zero_add]
  exact congrArg (BitVec.ofNat 32) (toNat_bigEndian _ _ _ _)

section Schedule

variable (m : ℕ → Fips180.Word)

/-- The first `n` words of the message schedule. -/
def words (n : ℕ) : List UInt32 := (List.range n).map fun t => UInt32.ofBitVec (Fips180.W m t)

lemma toBitVec_getD_words {n t : ℕ} (h : t < n) :
    ((words m n).getD t 0).toBitVec = Fips180.W m t := by
  simp [words, List.getD_eq_getElem?_getD, h]

lemma extend_words {n : ℕ} (h : 16 ≤ n) : extend (words m n) = words m (n + 1) := by
  have hlength : (words m n).length = n := by simp [words]
  have hlast : words m (n + 1) = words m n ++ [UInt32.ofBitVec (Fips180.W m n)] := by
    simp [words, List.range_succ]
  have hback (i : ℕ) (hpos : 0 < i) (hle : i ≤ 16) :
      ((words m n).getD (n - i) 0).toBitVec = Fips180.W m (n - i) :=
    toBitVec_getD_words m (by omega)
  have hrec : Fips180.W m n = Fips180.smallSigma1 (Fips180.W m (n - 2)) + Fips180.W m (n - 7) +
      Fips180.smallSigma0 (Fips180.W m (n - 15)) + Fips180.W m (n - 16) := by
    rw [Fips180.W, if_neg (by omega)]
  rw [hlast]
  unfold extend
  simp only [hlength]
  congr 2
  rw [← UInt32.toBitVec_inj]
  simp only [UInt32.toBitVec_add, toBitVec_smallSigma0, toBitVec_smallSigma1,
    hback 16 (by decide) (by decide), hback 15 (by decide) (by decide),
    hback 7 (by decide) (by decide), hback 2 (by decide) (by decide)]
  rw [hrec]
  ac_rfl

lemma foldl_extend_words (k : ℕ) :
    (List.range k).foldl (fun w _ => extend w) (words m 16) = words m (16 + k) := by
  induction k with
  | zero => rfl
  | succ k ih => rw [List.range_succ, List.foldl_append, ih, List.foldl_cons, List.foldl_nil,
      extend_words m (by omega), Nat.add_assoc]

end Schedule

lemma schedule_eq {chunk : Bytes} (h : chunk.length = 64) :
    schedule chunk = words (Fips180.blockWord (messageBits chunk)) 64 := by
  have hfirst : (List.range 16).map (wordAt chunk) =
      words (Fips180.blockWord (messageBits chunk)) 16 := by
    refine List.map_congr_left fun t ht => ?_
    have hlt : t < 16 := List.mem_range.1 ht
    rw [← UInt32.toBitVec_inj, toBitVec_wordAt (by omega), UInt32.toBitVec_ofBitVec, Fips180.W,
      if_pos hlt]
  rw [schedule, hfirst, foldl_extend_words]

/-! ## Compression -/

lemma toWorking_compress (v : Words) {chunk : Bytes} (h : chunk.length = 64) :
    toWorking (compress v chunk) = Fips180.compress (toWorking v) (messageBits chunk) := by
  have hzip : roundConstants.zip (schedule chunk) = (List.range 64).map fun t =>
      (UInt32.ofBitVec (Fips180.K t),
        UInt32.ofBitVec (Fips180.W (Fips180.blockWord (messageBits chunk)) t)) := by
    rw [roundConstants_eq, schedule_eq h, words, List.zip_map']
  have hrounds : toWorking ((List.range 64).foldl (fun v t => round v
        (UInt32.ofBitVec (Fips180.K t),
          UInt32.ofBitVec (Fips180.W (Fips180.blockWord (messageBits chunk)) t))) v) =
      (List.range 64).foldl (fun v t => Fips180.round v (Fips180.K t)
        (Fips180.W (Fips180.blockWord (messageBits chunk)) t)) (toWorking v) :=
    (List.foldl_hom toWorking fun v t => (toWorking_round v _ _).symm).symm
  rw [compress, hzip, List.foldl_map, toWorking_add, Fips180.compress, hrounds, Fips180.add_comm]

lemma toWorking_foldl_compress (v : Words) {cs : List Bytes} (h : ∀ chunk ∈ cs, chunk.length = 64) :
    toWorking (cs.foldl compress v) = (cs.map messageBits).foldl Fips180.compress (toWorking v) := by
  induction cs generalizing v with
  | nil => rfl
  | cons chunk cs ih =>
      rw [List.foldl_cons, List.map_cons, List.foldl_cons,
        ← toWorking_compress v (h chunk List.mem_cons_self)]
      exact ih _ fun c hc => h c (List.mem_cons_of_mem _ hc)

/-! ## Padding and chunks -/

/-- How many zeros the loop appends to a message of `l` bytes. -/
def zeroBytes (l : ℕ) : ℕ := (120 - l % 64) % 64

/-- The loop of the padding, with fuel for the zeros it appends. -/
lemma padZeros_eq {fuel : ℕ} {msg : Bytes} (h : zeroBytes msg.length ≤ fuel) :
    padZeros fuel msg = msg ++ List.replicate (zeroBytes msg.length) 0 := by
  induction fuel generalizing msg with
  | zero =>
      have hnone : zeroBytes msg.length = 0 := by omega
      rw [padZeros, hnone, List.replicate_zero, List.append_nil]
  | succ fuel ih =>
      unfold zeroBytes at h
      rw [padZeros]
      split
      next hstop =>
        have hnone : zeroBytes msg.length = 0 := by
          unfold zeroBytes
          omega
        rw [hnone, List.replicate_zero, List.append_nil]
      next hstop =>
        have hlength : (msg ++ [0]).length = msg.length + 1 := by simp
        have hone : zeroBytes msg.length = zeroBytes (msg.length + 1) + 1 := by
          unfold zeroBytes
          omega
        rw [ih (by rw [hlength]; unfold zeroBytes; omega), hlength, hone, List.replicate_succ,
          List.append_assoc, List.singleton_append]

lemma zeroBytes_le (l : ℕ) : zeroBytes l ≤ 64 := by
  unfold zeroBytes
  omega

lemma length_padZeros (msg : Bytes) : (padZeros 64 msg).length % 64 = 56 := by
  rw [padZeros_eq (zeroBytes_le _), List.length_append, List.length_replicate]
  unfold zeroBytes
  omega

lemma messageBits_zeros (k : ℕ) :
    messageBits (List.replicate k 0) = List.replicate (8 * k) false := by
  induction k with
  | zero => rfl
  | succ k ih =>
      have hmul : 8 * (k + 1) = 8 + 8 * k := by omega
      rw [List.replicate_succ, messageBits_cons, ih, hmul, List.replicate_add]
      rfl

/-- The eight bytes of a 64-bit word, the most significant first, are its bits. -/
lemma messageBits_toBeBytes (n : UInt64) : messageBits (toBeBytes n) = Fips180.bits n.toBitVec := by
  have hshifts : ([56, 48, 40, 32, 24, 16, 8, 0] : List UInt64) =
      (List.range 8).reverse.map fun k => UInt64.ofNat (8 * k) := rfl
  rw [toBeBytes, hshifts, messageBits, List.flatMap_map, List.flatMap_map]
  refine Eq.trans ?_ (Fips180.bits_eq_groups (w := 8) (m := 8) n.toBitVec).symm
  refine List.flatMap_congr fun k hk => congrArg Fips180.bits (BitVec.eq_of_toNat_eq ?_)
  have hlt : k < 8 := List.mem_range.1 (List.mem_reverse.1 hk)
  have hshift : (UInt64.ofNat (8 * k)).toNat % 64 = 8 * k := by
    rw [UInt64.toNat_ofNat', Nat.mod_eq_of_lt (by omega), Nat.mod_eq_of_lt (by omega)]
  rw [UInt8.toNat_toBitVec, UInt64.toNat_toUInt8, UInt64.toNat_shiftRight, hshift,
    BitVec.extractLsb'_toNat, UInt64.toNat_toBitVec]

lemma toNat_bitlen (l : ℕ) : (UInt64.ofNat l * 8).toNat = 8 * l % 2 ^ 64 := by
  have height : (8 : UInt64).toNat = 8 := rfl
  rw [UInt64.toNat_mul, UInt64.toNat_ofNat', height, Nat.mod_mul_mod, mul_comm]

/-- The padding is the standard's. -/
lemma messageBits_pad (data : Bytes) : messageBits (pad data) = Fips180.pad (messageBits data) := by
  have hlength : (data ++ [0x80]).length = data.length + 1 := by simp
  have hzeros : Fips180.zeros (8 * data.length) = 7 + 8 * zeroBytes (data.length + 1) := by
    unfold Fips180.zeros zeroBytes
    omega
  have hbitlen : (UInt64.ofNat data.length * 8).toBitVec =
      BitVec.ofNat 64 (8 * data.length) := by
    refine BitVec.eq_of_toNat_eq ?_
    rw [UInt64.toNat_toBitVec, toNat_bitlen, BitVec.toNat_ofNat]
  have hone : messageBits [0x80] = true :: List.replicate 7 false := rfl
  unfold pad
  simp only [padZeros_eq (zeroBytes_le _), hlength, messageBits_append, messageBits_zeros,
    messageBits_toBeBytes, hbitlen, Fips180.pad, length_messageBits, hzeros]
  rw [hone, List.replicate_add]
  simp only [List.append_assoc, List.cons_append]

lemma chunks_eq {fuel n : ℕ} {msg : Bytes} (h : msg.length = 64 * n) (hfuel : n ≤ fuel) :
    chunks fuel msg = (List.range n).map fun i => (msg.drop (64 * i)).take 64 := by
  induction n generalizing fuel msg with
  | zero =>
      have hempty : msg = [] := List.length_eq_zero_iff.1 h
      cases fuel with
      | zero => rfl
      | succ fuel => simp [chunks, hempty]
  | succ n ih =>
      obtain ⟨fuel, rfl⟩ : ∃ k, fuel = k + 1 := ⟨fuel - 1, by omega⟩
      have hsome : msg.isEmpty = false := by
        cases msg with
        | nil => simp at h
        | cons b msg => rfl
      have hrest : (msg.drop 64).length = 64 * n := by
        rw [List.length_drop, h]
        omega
      have hnext (i : ℕ) : 64 + 64 * i = 64 * (i + 1) := by omega
      rw [chunks, hsome, ih hrest (by omega), List.range_succ_eq_map, List.map_cons, List.map_map]
      simp [Function.comp_def, hnext]

lemma flatten_chunks {fuel : ℕ} {msg : Bytes} (h : msg.length ≤ fuel) :
    (chunks fuel msg).flatten = msg := by
  induction fuel generalizing msg with
  | zero => exact (List.length_eq_zero_iff.1 (by omega)).symm
  | succ fuel ih =>
      cases msg with
      | nil => rfl
      | cons b msg =>
          have hrest : ((b :: msg).drop 64).length ≤ fuel := by
            rw [List.length_drop]
            rw [List.length_cons] at h ⊢
            omega
          have hsome : (b :: msg).isEmpty = false := rfl
          rw [chunks, hsome, if_neg (by decide), List.flatten_cons, ih hrest, List.take_append_drop]

lemma length_pad (data : Bytes) : (pad data).length % 64 = 0 := by
  have hblocks := Fips180.length_pad (messageBits data)
  rw [← messageBits_pad, length_messageBits] at hblocks
  omega

/-- The chunks of the padded message, whole chunks all of them. -/
lemma chunks_pad (data : Bytes) :
    chunks (pad data).length (pad data) = (List.range ((pad data).length / 64)).map fun i =>
      ((pad data).drop (64 * i)).take 64 := by
  have hwhole := length_pad data
  exact chunks_eq (by omega) (by omega)

lemma length_of_mem_chunks {data chunk : Bytes} (h : chunk ∈ chunks (pad data).length (pad data)) :
    chunk.length = 64 := by
  rw [chunks_pad] at h
  obtain ⟨i, hi, rfl⟩ := List.mem_map.1 h
  have hlt : i < (pad data).length / 64 := List.mem_range.1 hi
  simp only [List.length_take, List.length_drop]
  omega

/-- The chunks of the padded message are the standard's blocks, as bits. -/
lemma map_messageBits_chunks (data : Bytes) :
    (chunks (pad data).length (pad data)).map messageBits =
      Fips180.blocks (Fips180.pad (messageBits data)) := by
  have hcount : 8 * (pad data).length / 512 = (pad data).length / 64 := by omega
  rw [chunks_pad, ← messageBits_pad, Fips180.blocks, length_messageBits, hcount, List.map_map]
  refine List.map_congr_left fun i _ => ?_
  have hindex : 512 * i = 8 * (64 * i) := by omega
  rw [hindex, messageBits_drop]
  exact (messageBits_take _ 64).symm

/-! ## The digest -/

lemma hexDigit_eq {n : UInt32} (h : n.toNat < 16) : hexDigit n = Nat.digitChar n.toNat := by
  unfold hexDigit
  interval_cases n.toNat <;> rfl

/-- The four bits that `shift` leaves at the end of a word. -/
def nibble (x : UInt32) (shift : UInt32) : BitVec 4 := BitVec.ofNat 4 (x >>> shift).toNat

lemma bits_eq_nibbles (x : UInt32) :
    Fips180.bits x.toBitVec =
      ([28, 24, 20, 16, 12, 8, 4, 0] : List UInt32).flatMap fun shift =>
        Fips180.bits (nibble x shift) := by
  have hshifts : ([28, 24, 20, 16, 12, 8, 4, 0] : List UInt32) =
      (List.range 8).reverse.map fun k => UInt32.ofNat (4 * k) := rfl
  rw [hshifts, List.flatMap_map]
  refine (Fips180.bits_eq_groups (w := 4) (m := 8) x.toBitVec).trans ?_
  refine List.flatMap_congr fun k hk => congrArg Fips180.bits (BitVec.eq_of_toNat_eq ?_)
  have hlt : k < 8 := List.mem_range.1 (List.mem_reverse.1 hk)
  have hshift : (UInt32.ofNat (4 * k)).toNat % 32 = 4 * k := by
    rw [UInt32.toNat_ofNat', Nat.mod_eq_of_lt (by omega), Nat.mod_eq_of_lt (by omega)]
  rw [nibble, BitVec.toNat_ofNat, UInt32.toNat_shiftRight, hshift, BitVec.extractLsb'_toNat,
    UInt32.toNat_toBitVec]

lemma hex_append_bits (x : UInt32) (rest : List Bool) :
    Fips180.hex (Fips180.bits x.toBitVec ++ rest) = hexWord x ++ Fips180.hex rest := by
  have hdigit (y : BitVec 4) (rest : List Bool) :
      Fips180.hex (Fips180.bits y ++ rest) = Nat.digitChar y.toNat :: Fips180.hex rest := by
    have hvalue : Fips180.value 0 (Fips180.bits y) = y.toNat := by
      rw [Fips180.value_bits, zero_mul, zero_add]
    rw [← hvalue]
    rfl
  have hnibble (shift : UInt32) : hexDigit ((x >>> shift) &&& 0xF) =
      Nat.digitChar (nibble x shift).toNat := by
    have hand : ((x >>> shift) &&& 0xF).toNat = (x >>> shift).toNat % 2 ^ 4 := by
      rw [UInt32.toNat_and]
      exact Nat.and_two_pow_sub_one_eq_mod _ 4
    have hlt : ((x >>> shift) &&& 0xF).toNat < 16 := by
      rw [hand]
      exact Nat.mod_lt _ (by decide)
    rw [hexDigit_eq hlt, hand, nibble, BitVec.toNat_ofNat]
  rw [bits_eq_nibbles, hexWord]
  simp only [List.flatMap_cons, List.flatMap_nil, List.append_nil, List.append_assoc, hdigit,
    hnibble, List.map_cons, List.map_nil, List.cons_append, List.nil_append]

/-- The digest of a byte string, whatever the standard says of its length. -/
lemma digest_eq_hex (data : Bytes) :
    digest data = String.ofList (Fips180.hex (Fips180.digest (messageBits data))) := by
  have hhash : toWorking ((chunks (pad data).length (pad data)).foldl compress initial) =
      Fips180.hash (messageBits data) := by
    rw [toWorking_foldl_compress _ fun chunk => length_of_mem_chunks, map_messageBits_chunks,
      toWorking_initial, Fips180.hash]
  have hnil : Fips180.hex [] = [] := rfl
  simp only [digest, Fips180.digest, ← hhash, Fips180.Working.words, toWorking,
    List.flatMap_cons, List.flatMap_nil, hex_append_bits, hnil]

/-- **The gateway's SHA-256 is SHA-256.**  For every byte string whose length in bits fits 64
bits, the arithmetic does not overflow, the padding loop stops by its own test, the chunks are
whole and make up the padded message, and the digest is the standard's in lower-case
hexadecimal. -/
theorem digest_eq (data : Bytes) (h : data.length < 2 ^ 61) :
    (UInt64.ofNat data.length * 8).toNat = 8 * data.length ∧
      (padZeros 64 (data ++ [0x80])).length % 64 = 56 ∧
      (∀ chunk ∈ chunks (pad data).length (pad data), chunk.length = 64) ∧
      (chunks (pad data).length (pad data)).flatten = pad data ∧
      digest data = String.ofList (Fips180.hex (Fips180.digest (messageBits data))) := by
  refine ⟨?_, length_padZeros _, fun chunk => length_of_mem_chunks, flatten_chunks le_rfl,
    digest_eq_hex data⟩
  rw [toNat_bitlen]
  exact Nat.mod_eq_of_lt (by omega)

/-- The digest of the three bytes of `abc`. -/
theorem digest_eq_abc :
    digest [0x61, 0x62, 0x63] =
      String.ofList (Fips180.hex (Fips180.digest (messageBits [0x61, 0x62, 0x63]))) :=
  (digest_eq [0x61, 0x62, 0x63] (by decide)).2.2.2.2

end Sha256

end Moaray
