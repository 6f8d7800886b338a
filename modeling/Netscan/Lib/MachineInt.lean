import Mathlib

/-! # Fixed-width integers and byte buffers

Unsigned machine words are natural numbers reduced modulo a power of two where an operation can
leave their range; a cast to a signed word is the balanced remainder. Byte buffers are lists of
`UInt8`, with little- and big-endian fields. -/

namespace MachineInt

/-- Reduction to a 16-bit unsigned word, as a cast or an assignment does it. -/
def u16 (n : ℕ) : ℕ := n % 2 ^ 16

/-- Reduction to a 32-bit unsigned word, as a cast or an assignment does it. -/
def u32 (n : ℕ) : ℕ := n % 2 ^ 32

/-- Subtraction of 64-bit unsigned words, which wraps around. -/
def subU64 (a b : ℕ) : ℕ := (a + (2 ^ 64 - b % 2 ^ 64)) % 2 ^ 64

/-- Subtraction of 32-bit unsigned words, which wraps around. -/
def subU32 (a b : ℕ) : ℕ := (a + (2 ^ 32 - b % 2 ^ 32)) % 2 ^ 32

/-- The cast of an unsigned word to a signed 32-bit word. -/
def toInt32 (n : ℕ) : ℤ := Int.bmod n (2 ^ 32)

/-- The cast of an unsigned word to a signed 64-bit word. -/
def toInt64 (n : ℕ) : ℤ := Int.bmod n (2 ^ 64)

/-- The two's complement bit pattern of a signed 32-bit word. -/
def ofInt32 (i : ℤ) : ℕ := (i % 2 ^ 32).toNat

/-- The two's complement bit pattern of a signed 64-bit word. -/
def ofInt64 (i : ℤ) : ℕ := (i % 2 ^ 64).toNat

/-- A word keeps its value. -/
theorem u32_of_lt {n : ℕ} (h : n < 2 ^ 32) : u32 n = n := Nat.mod_eq_of_lt h

/-- Without a borrow, word subtraction is subtraction. -/
theorem subU64_of_le {a b : ℕ} (h : b ≤ a) (ha : a < 2 ^ 64) : subU64 a b = a - b := by
  unfold subU64
  omega

/-- Without a borrow, word subtraction is subtraction. -/
theorem subU32_of_le {a b : ℕ} (h : b ≤ a) (ha : a < 2 ^ 32) : subU32 a b = a - b := by
  unfold subU32
  omega

/-- With a borrow, word subtraction wraps around. -/
theorem subU32_of_lt {a b : ℕ} (h : a < b) (hb : b < 2 ^ 32) : subU32 a b = 2 ^ 32 - (b - a) := by
  unfold subU32
  omega

/-- Words below `2 ^ 31` keep their value as signed words. -/
theorem toInt32_of_lt {n : ℕ} (h : n < 2 ^ 31) : toInt32 n = n := by
  unfold toInt32
  rw [Int.bmod_def]
  omega

/-- Other words do not: they wrap around. -/
theorem toInt32_eq_self_iff {n : ℕ} : toInt32 n = n ↔ n < 2 ^ 31 := by
  constructor
  · intro h
    unfold toInt32 at h
    rw [Int.bmod_def] at h
    omega
  · exact toInt32_of_lt

/-- A signed 64-bit word is in its range. -/
theorem toInt64_mem (n : ℕ) : -2 ^ 63 ≤ toInt64 n ∧ toInt64 n < 2 ^ 63 := by
  unfold toInt64
  rw [Int.bmod_def]
  omega

/-- The result of an operation on signed words of `w` bits; there is none if it overflows. -/
def checkedSigned (w : ℕ) (i : ℤ) : Option ℤ :=
  if -2 ^ (w - 1) ≤ i ∧ i < 2 ^ (w - 1) then some i else none

/-- An operation that does not overflow has the result that it has on integers. -/
theorem checkedSigned_eq_some {w : ℕ} {i j : ℤ} :
    checkedSigned w i = some j ↔ (-2 ^ (w - 1) ≤ i ∧ i < 2 ^ (w - 1)) ∧ i = j := by
  unfold checkedSigned
  split_ifs with h
  · rw [Option.some.injEq]
    exact (and_iff_right h).symm
  · constructor
    · intro hnone
      cases hnone
    · rintro ⟨hfits, -⟩
      exact absurd hfits h

/-! ### Bytes -/

/-- The `w` low bytes of `n`, least significant first. -/
def leBytes : ℕ → ℕ → List UInt8
  | 0, _ => []
  | w + 1, n => UInt8.ofNat n :: leBytes w (n / 256)

/-- The `w` low bytes of `n`, most significant first (network order). -/
def beBytes (w n : ℕ) : List UInt8 := (leBytes w n).reverse

/-- The number whose bytes are given, least significant first. -/
def leNat : List UInt8 → ℕ
  | [] => 0
  | b :: bs => b.toNat + 256 * leNat bs

@[simp] theorem length_leBytes (w n : ℕ) : (leBytes w n).length = w := by
  induction w generalizing n with
  | zero => rfl
  | succ w ih => simp [leBytes, ih]

/-- Reading the bytes of a number back gives its low bytes. -/
theorem leNat_leBytes (w n : ℕ) : leNat (leBytes w n) = n % 256 ^ w := by
  induction w generalizing n with
  | zero => simp [leBytes, leNat, Nat.mod_one]
  | succ w ih =>
    have hsplit : n % 256 ^ (w + 1) = n % 256 + 256 * (n / 256 % 256 ^ w) := by
      rw [Nat.pow_succ', Nat.mod_mul]
    rw [leBytes, leNat, ih, hsplit, UInt8.toNat_ofNat']

/-- A number of `w` bytes is below `256 ^ w`. -/
theorem leNat_lt (bs : List UInt8) : leNat bs < 256 ^ bs.length := by
  induction bs with
  | nil => simp [leNat]
  | cons b bs ih =>
    have hb : b.toNat < 256 := b.toNat_lt
    rw [leNat, List.length_cons, Nat.pow_succ']
    omega

/-- A bit pattern of 32 bits fits four bytes. -/
theorem ofInt32_lt (i : ℤ) : ofInt32 i < 256 ^ 4 := by
  unfold ofInt32
  omega

/-- A signed word of 32 bits is read back from its bit pattern. -/
theorem toInt32_ofInt32 {i : ℤ} (hlo : -2 ^ 31 ≤ i) (hhi : i < 2 ^ 31) :
    toInt32 (ofInt32 i) = i := by
  unfold toInt32 ofInt32
  rw [Int.bmod_def]
  omega

/-- A signed word is read back from its bit pattern. -/
theorem toInt64_ofInt64 {i : ℤ} (hlo : -2 ^ 63 ≤ i) (hhi : i < 2 ^ 63) :
    toInt64 (ofInt64 i) = i := by
  unfold toInt64 ofInt64
  rw [Int.bmod_def]
  omega

/-- The field of `w` bytes at offset `off`, cut off at the end of the buffer. -/
def field (buf : List UInt8) (off w : ℕ) : List UInt8 := (buf.drop off).take w

/-- `memcpy` of `bs` into a buffer at offset `off`; what would leave the buffer is not written. -/
def writeAt (buf : List UInt8) (off : ℕ) (bs : List UInt8) : List UInt8 :=
  buf.mapIdx fun i b => if off ≤ i then bs.getD (i - off) b else b

@[simp] theorem length_writeAt (buf : List UInt8) (off : ℕ) (bs : List UInt8) :
    (writeAt buf off bs).length = buf.length := by
  simp [writeAt]

/-- A byte of a buffer after `memcpy`: the one copied there, or the old one. -/
theorem getElem?_writeAt (buf : List UInt8) (off : ℕ) (bs : List UInt8) (i : ℕ) :
    (writeAt buf off bs)[i]? =
      buf[i]?.map fun b => if off ≤ i then bs.getD (i - off) b else b := by
  simp [writeAt, List.getElem?_mapIdx]

/-- Bytes outside the target of `memcpy` stay as they were. -/
theorem getElem?_writeAt_of_outside {buf bs : List UInt8} {off i : ℕ}
    (h : i < off ∨ off + bs.length ≤ i) : (writeAt buf off bs)[i]? = buf[i]? := by
  rw [getElem?_writeAt]
  rcases h with h | h
  · simp [Nat.not_le.mpr h]
  · have hnone : bs[i - off]? = none := List.getElem?_eq_none (by omega)
    simp [List.getD_eq_getElem?_getD, hnone]

/-- The target of `memcpy` is what was copied, if it lies in the buffer. -/
theorem field_writeAt {buf bs : List UInt8} {off : ℕ} (h : off + bs.length ≤ buf.length) :
    field (writeAt buf off bs) off bs.length = bs := by
  apply List.ext_getElem?
  intro i
  rw [field]
  by_cases hi : i < bs.length
  · have hbuf : buf[off + i]? = some buf[off + i] := List.getElem?_eq_getElem (by omega)
    rw [List.getElem?_take_of_lt hi, List.getElem?_drop, getElem?_writeAt, hbuf]
    simp [hi]
  · rw [List.getElem?_eq_none (by simp; omega), List.getElem?_eq_none (by omega)]

/-- A field outside the target of `memcpy` stays as it was. -/
theorem field_writeAt_of_disjoint {buf bs : List UInt8} {off off' w : ℕ}
    (h : off' + w ≤ off ∨ off + bs.length ≤ off') :
    field (writeAt buf off bs) off' w = field buf off' w := by
  apply List.ext_getElem?
  intro i
  rw [field, field]
  by_cases hi : i < w
  · rw [List.getElem?_take_of_lt hi, List.getElem?_take_of_lt hi, List.getElem?_drop,
      List.getElem?_drop, getElem?_writeAt_of_outside (by omega)]
  · rw [List.getElem?_eq_none (by simp; omega), List.getElem?_eq_none (by simp; omega)]

/-- A field of a field is a field of the buffer. -/
theorem field_field {buf : List UInt8} {off w off' w' : ℕ} (h : off' + w' ≤ w) :
    field (field buf off w) off' w' = field buf (off + off') w' := by
  rw [field, field, field, List.drop_take, List.take_take, List.drop_drop]
  congr 1
  omega

end MachineInt
