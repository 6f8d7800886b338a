import Netscan.Lib.MachineInt
import Mathlib

/-! # `parse_cidr`

The CIDR parser of `utils.cpp`, over C strings given as the bytes before the terminating NUL, with
the two library functions it calls: `inet_pton` for the dotted quad and `strtol` for the prefix. -/

namespace Netscan

open MachineInt

/-- A C string: its bytes, without the terminating NUL. -/
abbrev CString := List UInt8

/-- `BITS_IN_IPV4`. -/
def bitsInIpv4 : ℕ := 32

/-- The value of a decimal digit, if the byte is one. -/
def digit? (ch : UInt8) : Option ℕ :=
  if 48 ≤ ch.toNat ∧ ch.toNat ≤ 57 then some (ch.toNat - 48) else none

/-! ### `inet_pton` -/

/-- The loop of `inet_pton(AF_INET)`: `acc` holds the finished fields, `cur` the field being read,
`octets` the number of fields begun. Fields are decimal, at most 255 and without leading zeros. -/
def inetPtonLoop : CString → (acc cur octets : ℕ) → (sawDigit : Bool) → Option ℕ
  | [], acc, cur, octets, _ => if octets < 4 then none else some (acc * 256 + cur)
  | ch :: src, acc, cur, octets, sawDigit =>
    match digit? ch with
    | some d =>
      let new := cur * 10 + d
      if sawDigit && cur == 0 then none
      else if new > 255 then none
      else if sawDigit then inetPtonLoop src acc new octets true
      else if octets + 1 > 4 then none
      else inetPtonLoop src acc new (octets + 1) true
    | none =>
      if ch = 46 ∧ sawDigit then
        if octets = 4 then none else inetPtonLoop src (acc * 256 + cur) 0 octets false
      else none

/-- `inet_pton(AF_INET, src, …)`: the address in host byte order, if the string is a dotted quad. -/
def inetPton (src : CString) : Option ℕ := inetPtonLoop src 0 0 0 false

/-- The loop reads at most four fields of one byte each. By induction on the string: `acc` holds the
fields before the current one. -/
theorem inetPtonLoop_lt (src : CString) (acc cur octets : ℕ) (sawDigit : Bool) {a : ℕ}
    (hcur : cur ≤ 255) (hoct : octets ≤ 4)
    (hacc : if sawDigit then 1 ≤ octets ∧ acc < 256 ^ (octets - 1)
      else octets < 4 ∧ acc < 256 ^ octets)
    (h : inetPtonLoop src acc cur octets sawDigit = some a) : a < 2 ^ 32 := by
  induction src generalizing acc cur octets sawDigit with
  | nil =>
    rw [inetPtonLoop] at h
    split at h
    · cases h
    · have h4 : octets = 4 := by omega
      -- the end of the string: all four fields are complete
      obtain rfl : acc * 256 + cur = a := by simpa using h
      subst h4
      cases sawDigit <;> simp at hacc
      omega
  | cons ch src ih =>
    rw [inetPtonLoop] at h
    split at h
    · rename_i d _
      dsimp only at h
      split at h
      · cases h
      split at h
      · cases h
      split at h
      · rename_i hsaw
        exact ih _ _ _ _ (by omega) hoct (by simpa [hsaw] using hacc) h
      · rename_i hsaw
        split at h
        · cases h
        -- the first digit of a field, for which there must be room
        · exact ih _ _ _ _ (by omega) (by omega) (by simp [hsaw] at hacc; simp; omega) h
    · split at h
      · rename_i hdot
        split at h
        · cases h
        · simp only [hdot.2, if_true] at hacc
          -- a dot closes the field
          refine ih _ _ _ _ (by omega) hoct ?_ h
          have : 256 ^ octets = 256 ^ (octets - 1) * 256 := by
            rw [← Nat.pow_succ]; congr 1; omega
          simp only [Bool.false_eq_true, if_false]
          omega
      · cases h

/-- `inet_pton` yields 32-bit addresses, as its loop does. -/
theorem inetPton_lt {src : CString} {a : ℕ} (h : inetPton src = some a) : a < 2 ^ 32 :=
  inetPtonLoop_lt src 0 0 0 false (by omega) (by omega) (by simp) h

/-! ### `strtol` -/

/-- `isspace` in the C locale: the blank, and tab to carriage return. -/
def isSpace (ch : UInt8) : Bool := ch = 32 || (9 ≤ ch.toNat && ch.toNat ≤ 13)

/-- The value of the longest prefix of decimal digits, added to `acc`, and what follows it. -/
def readDigits : CString → ℕ → ℕ × CString
  | [], acc => (acc, [])
  | ch :: s, acc =>
    match digit? ch with
    | some d => readDigits s (acc * 10 + d)
    | none => (acc, ch :: s)

/-- `strtol(nptr, &end, 10)`: the value, saturated to a 64-bit `long`, and the string at `end`.
Without a digit to convert, `end` is `nptr`. -/
def strtol (nptr : CString) : ℤ × CString :=
  let body := nptr.dropWhile isSpace
  let (neg, rest) := match body with
    | 45 :: s => (true, s)
    | 43 :: s => (false, s)
    | s => (false, s)
  if (rest.head?.bind digit?).isNone then (0, nptr)
  else
    let (n, tail) := readDigits rest 0
    (if neg then max (-(2 ^ 63 : ℤ)) (-n) else min (2 ^ 63 - 1 : ℤ) n, tail)

/-! ### `parse_cidr` -/

/-- `mask` of `parse_cidr`: `0` for prefix `0`, else `~0U << (BITS_IN_IPV4 - prefix)`. -/
def prefixMask (pfx : ℕ) : ℕ := if pfx = 0 then 0 else u32 ((2 ^ 32 - 1) <<< (bitsInIpv4 - pfx))

/-- `parse_cidr`: the pair `(out_base_ip, out_count)`, or `none` when it returns false (and leaves
its outputs as they were). -/
def parseCidr (input : CString) : Option (ℕ × ℕ) :=
  if 47 ∉ input then (inetPton input).map fun a => (a, 1)
  else
    match inetPton (input.takeWhile (· ≠ 47)) with
    | none => none
    | some base =>
      let prefixStr := (input.dropWhile (· ≠ 47)).drop 1
      if prefixStr.isEmpty then none
      else
        let (prefixLong, endPtr) := strtol prefixStr
        if endPtr = prefixStr ∨ endPtr ≠ [] then none
        else if prefixLong < 0 ∨ prefixLong > bitsInIpv4 then none
        else
          let pfx := prefixLong.toNat
          let mask := prefixMask pfx
          some (base &&& mask, if pfx = bitsInIpv4 then 1 else u32 ((2 ^ 32 - 1 - mask) + 1))

/-- Every prefix length but `0` has a mask of at least half the address space. -/
theorem prefixMask_bounds {p : ℕ} (h0 : 0 < p) (h : p ≤ 32) :
    2 ^ 31 ≤ prefixMask p ∧ prefixMask p < 2 ^ 32 := by
  interval_cases p <;> decide

/-- An accepted range ends inside the address space and has at most `2 ^ 31` hosts: the prefix
lengths `1`–`32` by their masks, and `/0` because its host count wraps to `0`. -/
theorem parseCidr_range {input : CString} {base count : ℕ}
    (h : parseCidr input = some (base, count)) : base + count ≤ 2 ^ 32 ∧ count ≤ 2 ^ 31 := by
  rw [parseCidr] at h
  split at h
  · obtain ⟨a, ha, hp⟩ := Option.map_eq_some_iff.mp h
    obtain ⟨rfl, rfl⟩ := Prod.mk.inj hp
    have := inetPton_lt ha
    omega
  · split at h
    · cases h
    · rename_i a _
      dsimp only at h
      split at h
      · cases h
      split at h
      · cases h
      split at h
      · cases h
      · rename_i hrange
        simp only [not_or, Int.not_lt, bitsInIpv4] at hrange
        obtain ⟨rfl, rfl⟩ := Prod.mk.inj (Option.some.inj h)
        generalize hp : (strtol _).1.toNat = p
        have hle : p ≤ 32 := by omega
        rcases Nat.eq_zero_or_pos p with rfl | hpos
        · simp [prefixMask, bitsInIpv4, u32]
        -- a mask with at least one bit leaves at most half of the address space
        · have hmask := prefixMask_bounds hpos hle
          have hand : a &&& prefixMask p ≤ prefixMask p := Nat.and_le_right
          split
          · omega
          · simp only [u32]; omega

example : parseCidr [49, 48, 46, 48, 46, 48, 46, 57, 47, 51, 48] = some (167772168, 4) := by
  decide

end Netscan
