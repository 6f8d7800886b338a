import Netscan.Main

/-! # Sizes that become signed 32-bit words

The constructors bound the sizes of a scan by its host count, which is at most `2 ^ 31`, and several
of these sizes are then cast to `int` for the kernel. Slot numbers and host indices lie below the
host count and keep their value. The socket buffer sizes are multiplied, by the ping scanner before
the cast and by the TCP scanner after it, and `max_events` is a batch size: these keep their value
only below smaller bounds. -/

namespace Netscan

open MachineInt

/-! ### The sizes -/

/-- `send_buf_size` and `recv_buf_size` of `PingScanner::initialize_socket`: a product of 64-bit
words, cast to `int`. -/
def PingScanner.socketBufferSize (P : PingScanner) : ℤ :=
  toInt32 (maxRxPacketSize * max 1 P.maxProbes % 2 ^ 64)

/-- `tcp_buf_size` of `TcpScanner::initiate_single_connection`: a product of `int`s, the first of
which is a cast. There is none if it overflows. -/
def TcpScanner.tcpBufferSize (P : TcpScanner) : Option ℤ :=
  checkedSigned 32 (toInt32 P.maxProbes * 1024)

/-- The number of the first free entry of a probe table, `-1` without one. -/
def firstFree {ε : Type*} (active : ε → Bool) (t : List ε) : ℤ :=
  match t.findIdx? fun p => !active p with
  | some i => i
  | none => -1

/-- The sizes and numbers of the ping scanner keep their value through the casts of the code. -/
structure PingScanner.KeepsSizes (P : PingScanner) : Prop where
  /-- The socket buffers. -/
  buffer : P.socketBufferSize = maxRxPacketSize * max 1 P.maxProbes
  /-- The slot number that `find_available_probe_slot` returns. -/
  slot : ∀ s, P.Sized s → findAvailableProbeSlot s = firstFree ProbeInfo.active s.probeTable
  /-- The host index. -/
  hostIndex : ∀ ip, P.hostIndexForIp ip =
    if P.baseIp ≤ ip ∧ ip < P.baseIp + P.totalHosts then (ip : ℤ) - P.baseIp else -1

/-- The sizes and numbers of the TCP scanner keep their value through the casts of the code. -/
structure TcpScanner.KeepsSizes (P : TcpScanner) : Prop where
  /-- The socket buffers. -/
  buffer : P.tcpBufferSize = some ((P.maxProbes : ℤ) * 1024)
  /-- `max_events`. -/
  maxEvents : P.maxEvents = P.batchSize
  /-- The slot number of `initiate_single_connection`. -/
  slot : ∀ s : TcpState, s.probeTable.length = P.maxProbes →
    findSlot s = firstFree TcpProbeInfo.active s.probeTable
  /-- The slot number in the epoll event, unless there is no slot. -/
  event : ∀ s : TcpState, s.probeTable.length = P.maxProbes → findSlot s ≠ -1 →
    (u32 (findSlot s).toNat : ℤ) = firstFree TcpProbeInfo.active s.probeTable

/-- The sizes and numbers of a scan keep their value, by its mode. -/
def Scan.KeepsSizes (routedIp : Option ℕ) (ifaddrs : Option (List IfAddrs)) (pid : ℕ) :
    Scan → Prop
  | .ping config => (PingScanner.construct config routedIp ifaddrs pid).KeepsSizes
  | .tcp config => (TcpScanner.construct config routedIp ifaddrs).KeepsSizes

/-- The bounds below which they do: fewer than `2 ^ 20` concurrent probes in a ping scan, fewer than
`2 ^ 21` in a TCP scan and a batch of fewer than `2 ^ 31` there. -/
def Scan.SizesFit (config : Config) : Scan → Prop
  | .ping scan => min config.maxProbes scan.totalHosts < 2 ^ 20
  | .tcp scan => min config.maxProbes scan.totalHosts < 2 ^ 21 ∧
      min config.sendBatch scan.totalHosts < 2 ^ 31

instance (config : Config) : (scan : Scan) → Decidable (scan.SizesFit config)
  | .ping _ => inferInstanceAs (Decidable (_ < _))
  | .tcp _ => inferInstanceAs (Decidable (_ ∧ _))

/-! ### Slot numbers -/

/-- Slot numbers of a table with at most `2 ^ 31` entries keep their value as `int`s. -/
theorem firstFree_eq {ε : Type*} (active : ε → Bool) {t : List ε} (ht : t.length ≤ 2 ^ 31) :
    (match t.findIdx? fun p => !active p with
      | some i => toInt32 i
      | none => -1) = firstFree active t := by
  unfold firstFree
  split
  · rename_i i hfind
    have hlt := (List.findIdx?_eq_some_iff_getElem.mp hfind).1
    exact toInt32_of_lt (by omega)
  · rfl

/-- A slot number is `-1` or the number of an entry of the table. -/
theorem firstFree_mem {ε : Type*} (active : ε → Bool) (t : List ε) :
    firstFree active t = -1 ∨ 0 ≤ firstFree active t ∧ firstFree active t < t.length := by
  unfold firstFree
  split
  · rename_i i hfind
    have hlt := (List.findIdx?_eq_some_iff_getElem.mp hfind).1
    exact .inr ⟨by omega, by omega⟩
  · exact .inl rfl

/-! ### The ping scanner -/

namespace PingScanner

variable {P : PingScanner}

/-- The buffer size keeps its value below `2 ^ 20` probes, where it fits an `int`. -/
theorem socketBufferSize_iff (hP : P.Ranged) :
    P.socketBufferSize = maxRxPacketSize * max 1 P.maxProbes ↔ P.maxProbes < 2 ^ 20 := by
  have hprobes := hP.probes
  have hhosts := hP.hosts
  -- with at most `2 ^ 31` probes the product does not wrap, so all depends on the cast
  have hword : maxRxPacketSize * max 1 P.maxProbes % 2 ^ 64 = 2048 * max 1 P.maxProbes := by
    unfold maxRxPacketSize
    exact Nat.mod_eq_of_lt (by omega)
  have hcast : ((maxRxPacketSize : ℤ) * max 1 P.maxProbes) =
      ((2048 * max 1 P.maxProbes : ℕ) : ℤ) := by
    push_cast
    rfl
  rw [socketBufferSize, hword, hcast, toInt32_eq_self_iff]
  omega

/-- The sizes of the ping scanner keep their value below `2 ^ 20` probes. -/
theorem keepsSizes_iff (hP : P.Ranged) : P.KeepsSizes ↔ P.maxProbes < 2 ^ 20 := by
  have hprobes := hP.probes
  have hhosts := hP.hosts
  constructor
  · intro h
    exact (socketBufferSize_iff hP).mp h.buffer
  · intro h
    refine ⟨(socketBufferSize_iff hP).mpr h, ?_, ?_⟩
    · intro s hs
      exact firstFree_eq ProbeInfo.active (by rw [hs.probeTable]; omega)
    -- host indices are below `2 ^ 31` in any range, so only the buffer can go wrong
    · intro ip
      by_cases hip : P.baseIp ≤ ip ∧ ip < P.baseIp + P.totalHosts
      · rw [if_pos hip, hostIndexForIp_of_mem hP hip.1 hip.2]
        omega
      · rw [if_neg hip]
        unfold hostIndexForIp
        dsimp only
        split_ifs
        · rfl
        · rfl
        · omega

end PingScanner

/-! ### The TCP scanner -/

namespace TcpScanner

variable {P : TcpScanner}

/-- The buffer size keeps its value below `2 ^ 21` probes, where the product fits an `int`. -/
theorem tcpBufferSize_iff (hP : P.Ranged) :
    P.tcpBufferSize = some ((P.maxProbes : ℤ) * 1024) ↔ P.maxProbes < 2 ^ 21 := by
  have hprobes := hP.probes
  have hhosts := hP.hosts
  rw [tcpBufferSize, checkedSigned_eq_some]
  constructor
  · -- the product is 1024 times the number of probes only if the cast has kept that number
    rintro ⟨⟨-, hhi⟩, heq⟩
    omega
  · intro h
    rw [toInt32_of_lt (by omega)]
    omega

/-- The sizes of the TCP scanner keep their value below `2 ^ 21` probes and a batch of `2 ^ 31`. -/
theorem keepsSizes_iff (hP : P.Ranged) :
    P.KeepsSizes ↔ P.maxProbes < 2 ^ 21 ∧ P.batchSize < 2 ^ 31 := by
  have hprobes := hP.probes
  have hhosts := hP.hosts
  constructor
  · intro h
    exact ⟨(tcpBufferSize_iff hP).mp h.buffer, toInt32_eq_self_iff.mp h.maxEvents⟩
  · rintro ⟨hbuffer, hevents⟩
    have hslot : ∀ s : TcpState, s.probeTable.length = P.maxProbes →
        findSlot s = firstFree TcpProbeInfo.active s.probeTable := by
      intro s hs
      exact firstFree_eq TcpProbeInfo.active (by omega)
    -- the other numbers are slots, which are fewer than the probes
    refine ⟨(tcpBufferSize_iff hP).mpr hbuffer, toInt32_of_lt hevents, hslot, ?_⟩
    intro s hs hne
    rw [hslot s hs] at hne ⊢
    obtain ⟨hnonneg, hlt⟩ := (firstFree_mem TcpProbeInfo.active s.probeTable).resolve_left hne
    rw [u32_of_lt (by omega)]
    omega

end TcpScanner

/-- **When the sizes of a scan keep their value.** The numbers that a scan of `main` casts to signed
32-bit words, and the products of such numbers, have their mathematical value if and only if the
sizes are below the bounds. -/
theorem sizes_kept_iff {config : Config} {scan : Scan}
    (hscan : executeNetworkScan config = some scan) (routedIp : Option ℕ)
    (ifaddrs : Option (List IfAddrs)) (pid : ℕ) :
    scan.KeepsSizes routedIp ifaddrs pid ↔ scan.SizesFit config := by
  rcases executeNetworkScan_cases hscan with
    ⟨ping, rfl, hparse, hprobes, -⟩ | ⟨tcp, rfl, hparse, hprobes, hbatch⟩
  · have hkeeps := PingScanner.keepsSizes_iff
      (PingScanner.ranged_construct hparse routedIp ifaddrs pid)
    rw [Scan.KeepsSizes, hkeeps, Scan.SizesFit, ← hprobes]
    rfl
  · have hP := TcpScanner.ranged_construct hparse routedIp ifaddrs
    have hhosts : tcp.totalHosts ≤ 2 ^ 31 := hP.hosts
    rw [Scan.KeepsSizes, TcpScanner.keepsSizes_iff hP, Scan.SizesFit, ← hprobes, ← hbatch]
    apply and_congr Iff.rfl
    -- `safe_batch_size` bounds the batch by `UINT_MAX`, which is no help here
    show min (min tcp.batchSize tcp.totalHosts) (2 ^ 32 - 1) < 2 ^ 31 ↔ _
    omega

/-- The ping scan of `10.0.0.8/31` with the default options keeps them. -/
theorem sizes_kept_iff_pair :
    ∃ scan, executeNetworkScan { cidrArg := [49, 48, 46, 48, 46, 48, 46, 56, 47, 51, 49] } =
      some scan ∧ scan.totalHosts = 2 ∧ scan.KeepsSizes none none 7 := by
  refine ⟨_, rfl, by decide, ?_⟩
  exact (@sizes_kept_iff { cidrArg := [49, 48, 46, 48, 46, 48, 46, 56, 47, 51, 49] } _ rfl none none
    7).mpr (by decide)

/-- The ping scan of `10.0.0.0/12` with `-c 1048576`, whose buffer size is negative, and the TCP
scan of `10.0.0.0/11` with `-c 2097152`, whose buffer size overflows. -/
theorem not_sizes_kept :
    (∃ scan, executeNetworkScan
        { cidrArg := [49, 48, 46, 48, 46, 48, 46, 48, 47, 49, 50], maxProbes := 1048576 } =
      some scan ∧ ¬ scan.KeepsSizes none none 7) ∧
    ∃ scan, executeNetworkScan
        { cidrArg := [49, 48, 46, 48, 46, 48, 46, 48, 47, 49, 49], mode := "tcp",
          maxProbes := 2097152 } =
      some scan ∧ ¬ scan.KeepsSizes none none 7 := by
  constructor
  · refine ⟨_, rfl, ?_⟩
    intro h
    have hbuffer := PingScanner.KeepsSizes.buffer h
    revert hbuffer
    decide
  · refine ⟨_, rfl, ?_⟩
    intro h
    have hbuffer := TcpScanner.KeepsSizes.buffer h
    revert hbuffer
    decide

end Netscan
