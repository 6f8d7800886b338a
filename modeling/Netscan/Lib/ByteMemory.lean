import Netscan.Lib.MachineInt

/-! # Memory as a byte at every offset

A receive buffer that is read through pointers and lengths found in its own contents: unlike a
list, it has something to read at every offset, so that a read past the end of the data is a read
like any other and can be spoken about. Fields are unsigned numbers in either byte order. -/

namespace MachineInt

/-- A memory: a byte at every offset, so that reading past an object is possible and visible. -/
abbrev ByteMemory := ℕ → UInt8

namespace ByteMemory

/-- The `w` bytes from offset `off` on, in order. -/
def bytes (m : ByteMemory) : ℕ → ℕ → List UInt8
  | _, 0 => []
  | off, w + 1 => m off :: bytes m (off + 1) w

/-- The unsigned field of `w` bytes at `off`, in the order of a little-endian host. -/
def uint (m : ByteMemory) (off w : ℕ) : ℕ := leNat (m.bytes off w)

/-- The unsigned field of `w` bytes at `off`, in network order. -/
def uintBE (m : ByteMemory) (off w : ℕ) : ℕ := leNat (m.bytes off w).reverse

/-- Overwrite the memory from offset `0` on; what lies behind stays. -/
def store (m : ByteMemory) (bs : List UInt8) : ByteMemory := fun i => bs.getD i (m i)

/-- The memory holds the bytes `bs` from `off` on, whatever it holds elsewhere. -/
def Holds (m : ByteMemory) (off : ℕ) (bs : List UInt8) : Prop := m.bytes off bs.length = bs

variable {m : ByteMemory} {off : ℕ}

@[simp] theorem length_bytes (m : ByteMemory) (off w : ℕ) : (m.bytes off w).length = w := by
  induction w generalizing off with
  | zero => rfl
  | succ w ih => simp [bytes, ih]

/-- The bytes of two adjacent ranges are those of one range. -/
theorem bytes_add (m : ByteMemory) (off v w : ℕ) :
    m.bytes off (v + w) = m.bytes off v ++ m.bytes (off + v) w := by
  induction v generalizing off with
  | zero => simp [bytes]
  | succ v ih =>
    rw [Nat.add_right_comm v 1 w, bytes, bytes, ih, List.cons_append]
    congr 3
    omega

/-- A memory holds a concatenation iff it holds the parts one behind the other. -/
@[simp] theorem holds_append {xs ys : List UInt8} :
    m.Holds off (xs ++ ys) ↔ m.Holds off xs ∧ m.Holds (off + xs.length) ys := by
  unfold Holds
  rw [List.length_append, bytes_add]
  constructor
  · intro h
    exact List.append_inj h (length_bytes m off xs.length)
  · rintro ⟨hx, hy⟩
    rw [hx, hy]

/-- Every memory holds no bytes anywhere, so this is where inductions on bytes begin. -/
@[simp] theorem holds_nil : m.Holds off [] := rfl

/-- What is stored is held, from offset `0` on. -/
theorem holds_store (m : ByteMemory) (bs : List UInt8) : (m.store bs).Holds 0 bs := by
  -- Of any list `pre ++ bs` the memory holds `bs` behind `pre`.
  have key : ∀ pre : List UInt8, (m.store (pre ++ bs)).Holds pre.length bs := by
    induction bs with
    | nil => intro pre; exact holds_nil
    | cons b bs ih =>
      intro pre
      have htail := ih (pre ++ [b])
      unfold Holds at htail ⊢
      rw [List.append_assoc, List.singleton_append, List.length_append, List.length_singleton]
        at htail
      rw [List.length_cons, bytes, htail]
      simp [store]
  exact key []

/-- Of bytes that are held, the first `n` are read back. -/
theorem Holds.bytes_eq_take {bs : List UInt8} (h : m.Holds off bs) {n : ℕ} (hn : n ≤ bs.length) :
    m.bytes off n = bs.take n := by
  rw [← List.take_append_drop n bs, holds_append] at h
  obtain ⟨hfirst, -⟩ := h
  unfold Holds at hfirst
  rwa [List.length_take, Nat.min_eq_left hn] at hfirst

/-- A held number is read back, least significant byte first. -/
theorem Holds.uint_eq {w n : ℕ} (h : m.Holds off (leBytes w n)) (hn : n < 256 ^ w) :
    m.uint off w = n := by
  unfold Holds at h
  rw [length_leBytes] at h
  rw [uint, h, leNat_leBytes, Nat.mod_eq_of_lt hn]

/-- The bytes held at an offset, read as a number in network order. -/
theorem Holds.uintBE_eq {bs : List UInt8} (h : m.Holds off bs) :
    m.uintBE off bs.length = leNat bs.reverse := by
  rw [uintBE, h]

/-- An unsigned field fits its width, whatever its bytes are. -/
theorem uint_lt (m : ByteMemory) (off w : ℕ) : m.uint off w < 256 ^ w := by
  have h := leNat_lt (m.bytes off w)
  rwa [length_bytes] at h

end ByteMemory

end MachineInt
