import Netscan.Ping.ReplyOrder
import Netscan.Ping.Wire

/-! # Calling `run()` again on the same ping scanner

`run()` resets the tables, the cache and the counters, and it takes the send buffers as they are.
Of these it reads the entries of the current batch only, and each of them was written since the
batch was begun: a second call goes as one on a fresh scanner, whatever the first one left behind,
and it puts the same messages on the wire, but for the padding bytes that the source never
writes. -/

namespace Netscan

open MachineInt LabelledSystem

/-! ### The first entries of a vector -/

section Below

variable {α : Type*} {l : List α} {n m : ℕ} {d x : α}

/-- The vector with its entries from `n` on set to `d`. -/
def below (n : ℕ) (d : α) (l : List α) : List α := l.mapIdx fun i x => if i < n then x else d

/-- An entry from `n` on is the default, and one below `n` is the entry of the vector. -/
theorem getElem?_below {i : ℕ} :
    (below n d l)[i]? = l[i]?.map fun x => if i < n then x else d := List.getElem?_mapIdx

/-- Setting what is above twice leaves what is below the smaller bound. -/
theorem below_below (h : m ≤ n) : below m d (below n d l) = below m d l := by
  refine List.ext_getElem? fun i => ?_
  rw [getElem?_below, getElem?_below, getElem?_below, Option.map_map]
  congr 1
  funext y
  by_cases hi : i < m
  · simp [hi, Nat.lt_of_lt_of_le hi h]
  · simp [hi]

end Below

/-- The number of messages in `send_msgvec_`: those of the batch while one is sent or rolled
back. -/
def PingPc.entries (pc : PingPc) : ℕ := (pc.batch?.map Prod.fst).getD 0

namespace PingScanner

variable {P : PingScanner} {s s' : PingState} {k : PingKernel} {v w w' : PingWorld} {l : PingLabel}
  {n : ℕ}

/-! ### What a run does not see -/

/-- The state without the bytes in `send_packets_`, which the code only writes, and without the
entries from `n` on of the other vectors of the batch. -/
def keepEntries (n : ℕ) (s : PingState) : PingState :=
  { s with
    sendPackets := []
    sendAddrs := below n 0 s.sendAddrs
    sendProbeSlots := below n (-1) s.sendProbeSlots }

/-- The world without what earlier batches left in the send buffers. -/
def seen (w : PingWorld) : PingWorld := { w with st := keepEntries w.pc.entries w.st }

theorem keepEntries_keepEntries {m : ℕ} (h : m ≤ n) :
    keepEntries m (keepEntries n s) = keepEntries m s := by
  simp only [keepEntries, below_below h]

@[simp] theorem seen_seen (w : PingWorld) : seen (seen w) = seen w := by
  simp only [seen, keepEntries_keepEntries le_rfl]

@[simp] theorem seen_kernel (w : PingWorld) : (seen w).kernel = w.kernel := rfl

/-- The scanner with other contents of the padding bytes in its requests. -/
def repad (padding : ℕ → ℕ) (P : PingScanner) : PingScanner := { P with padding := padding }

variable (padding : ℕ → ℕ)

/-- The range does not depend on the padding. -/
theorem Ranged.repad (h : P.Ranged) : (P.repad padding).Ranged :=
  ⟨h.fits, h.hosts, h.probes, h.sendBatch⟩

/-- The sizes of the tables do not depend on the padding. -/
theorem Sized.repad (h : P.Sized s) : (P.repad padding).Sized s :=
  ⟨h.probeTable, h.hostToProbe, h.sendAddrs, h.sendProbeSlots⟩

/-- The room for the packets does not depend on the padding. -/
theorem BuffersFit.repad (h : P.BuffersFit s) : (P.repad padding).BuffersFit s :=
  ⟨h.size, h.room, h.small⟩

end PingScanner

end Netscan
