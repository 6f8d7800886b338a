import Netscan.Ping.Frame

/-! # Where packet assembly writes

`initialize_buffers` sizes the vectors of the send path once, with 64-bit products, and
`prepare_single_packet` writes as many filler bytes as were asked for. The writes stay in place as
long as these sizes do not wrap. -/

namespace Netscan

open MachineInt LabelledSystem

/-- The vectors that the send path indexes with the batch index. -/
inductive SendVector where
  /-- `send_packets_`. -/
  | packets
  /-- `send_addrs_`. -/
  | addrs
  /-- `send_iovs_`. -/
  | iovs
  /-- `send_msgvec_`. -/
  | msgvec
  /-- `send_probe_slots_`. -/
  | probeSlots
  deriving DecidableEq, Repr

namespace PingScanner

variable {P : PingScanner} {s s' : PingState} {w w' : PingWorld} {l : PingLabel}

/-- `send_count` of `initialize_buffers`. -/
def sendCount (P : PingScanner) : ℕ := max 1 P.sendBatchSize

/-- The sizes of the vectors. Nothing reads `send_iovs_` and `send_msgvec_` but the kernel, so the
state does not carry them; their size is that of their only `resize`. -/
def vectorSize (P : PingScanner) (s : PingState) : SendVector → ℕ
  | .packets => s.sendPackets.length
  | .addrs => s.sendAddrs.length
  | .iovs | .msgvec => P.sendCount
  | .probeSlots => s.sendProbeSlots.length

/-- The number of bytes that `prepare_single_packet` writes: a header, a payload and the filler. -/
def packetLength (P : PingScanner) : ℕ := icmpHdrSize + pingPayloadSize + P.payloadLen

/-- Index `k` of the vector is written when entry `i` of a batch is assembled. The bytes of a packet
are written one after the other, at offsets that are 64-bit words. -/
def Writes (P : PingScanner) (i : ℕ) : SendVector → ℕ → Prop
  | .packets, k => ∃ j < P.packetLength, k = (P.packetOffset i + j) % 2 ^ 64
  | .addrs, k | .iovs, k | .msgvec, k | .probeSlots, k => k = i

/-- `populate_batch_entries` passes `i` as the batch index to `prepare_single_packet`, in some
state. -/
def Passes (P : PingScanner) (i : ℕ) : Prop :=
  ∃ ts s s', P.populateStep ts s i = some (s', i + 1)

/-- Packets are assembled in place: nothing is written outside the vectors or the part of the
packet, and the sizes are what they are meant to be. -/
structure AssemblesInPlace (P : PingScanner) (s : PingState) : Prop where
  /-- `packet_buffer_size_` is the length of a packet. -/
  bufferSize : P.packetBufferSize = icmpHdrSize + pingPayloadSize + P.payloadLen
  /-- `send_packets_` has room for all packets of a batch. -/
  packetsSize : s.sendPackets.length = P.packetBufferSize * P.sendCount
  /-- A packet is written to its own part of `send_packets_`. -/
  ownPart : ∀ i, P.Passes i → ∀ k, P.Writes i .packets k →
    i * P.packetBufferSize ≤ k ∧ k < (i + 1) * P.packetBufferSize
  /-- No vector is indexed out of range. -/
  inRange : ∀ i, P.Passes i → ∀ v k, P.Writes i v k → k < P.vectorSize s v

/-! ### What is written is what `prepareSinglePacket` writes -/

@[simp] theorem length_filler (n : ℕ) : (filler n).length = n := by
  simp [filler]

/-- A request has the length of a packet, whatever its fields are. -/
@[simp] theorem length_requestBytes (P : PingScanner) (ip seq : ℕ) (ts : Timespec) :
    (P.requestBytes ip seq ts).length = P.packetLength := by
  simp [requestBytes, packetLength, Nat.add_assoc]

/-- `prepareSinglePacket` changes no byte of `send_packets_` but those of `Writes`, so the relation
is not too small. -/
theorem writes_of_prepareSinglePacket {i ip seq k : ℕ} {ts : Timespec} (hk : k < 2 ^ 64)
    (h : (P.prepareSinglePacket i ip seq ts s).sendPackets[k]? ≠ s.sendPackets[k]?) :
    P.Writes i .packets k := by
  by_contra hnot
  refine h (getElem?_writeAt_of_outside ?_)
  rw [length_requestBytes]
  by_contra hinside
  refine hnot ⟨k - P.packetOffset i, by omega, ?_⟩
  have hsum : P.packetOffset i + (k - P.packetOffset i) = k := by omega
  rw [hsum, Nat.mod_eq_of_lt hk]

/-- The sizes that `initialize_buffers` gives to the vectors: one entry, or one packet, for each
message. -/
theorem vectorSize_initializeBuffers (P : PingScanner) (v : SendVector) :
    P.vectorSize P.initializeBuffers v =
      if v = .packets then P.packetBufferSize * P.sendCount % 2 ^ 64 else P.sendCount := by
  cases v <;> simp [vectorSize, initializeBuffers, sendCount]

/-! ### The sizes never change -/

/-- The sizes depend on the three vectors that the state carries. The other two keep the size of
construction. -/
theorem vectorSize_congr (hpackets : s'.sendPackets.length = s.sendPackets.length)
    (haddrs : s'.sendAddrs.length = s.sendAddrs.length)
    (hslots : s'.sendProbeSlots.length = s.sendProbeSlots.length) :
    P.vectorSize s' = P.vectorSize s := by
  funext v
  cases v with
  | packets => exact hpackets
  | addrs => exact haddrs
  | probeSlots => exact hslots
  | iovs | msgvec => rfl

/-- One turn of the populate loop writes entries and bytes in place. -/
theorem vectorSize_populateStep {ts : Timespec} {n n' : ℕ}
    (h : P.populateStep ts s n = some (s', n')) : P.vectorSize s' = P.vectorSize s := by
  unfold populateStep at h
  split at h
  · split at h
    · cases h
    · dsimp only at h
      split at h
      · cases h
        rfl
      · split at h
        · cases h
          rfl
        · cases h
          apply vectorSize_congr <;> simp [claimSlot, prepareSinglePacket]
  · cases h

/-- `populate_batch_entries` keeps the sizes, by its loop. -/
theorem vectorSize_populateBatchEntries (P : PingScanner) (ts : Timespec) (s : PingState) :
    P.vectorSize (P.populateBatchEntries ts s).1 = P.vectorSize s :=
  populateLoop_induction (motive := fun s' _ => P.vectorSize s' = P.vectorSize s)
    (fun _ _ _ _ hs hstep => (vectorSize_populateStep hstep).trans hs) _ s 0 rfl

/-- `release_probe_slot` does not touch the vectors. -/
theorem vectorSize_releaseProbeSlot (P : PingScanner) (slot : ℤ) (s : PingState) :
    P.vectorSize (P.releaseProbeSlot slot s) = P.vectorSize s := by
  unfold releaseProbeSlot
  split
  · rfl
  · dsimp only
    split <;> rfl

/-- `reap_timed_out_probes` does not touch the vectors, by its loop. -/
theorem vectorSize_reapTimedOutProbes (P : PingScanner) (now : Timespec) (s : PingState) :
    P.vectorSize (P.reapTimedOutProbes now s) = P.vectorSize s := by
  refine List.foldlRecOn (motive := fun s' : PingState => P.vectorSize s' = P.vectorSize s)
    _ _ rfl fun s' hs i _ => ?_
  rw [← hs]
  unfold reapSlot
  dsimp only
  split
  · rfl
  · split <;> rfl

/-- The end of the handling of a reply does not touch the vectors. -/
theorem vectorSize_acceptReply (P : PingScanner) (recvTs : Timespec) (ttl : ℤ)
    (dns : Option String) (throws : Bool) (payload : PingPayload) (hostIdx : ℕ) (s : PingState) :
    P.vectorSize (P.acceptReply recvTs ttl dns throws payload hostIdx s).1 = P.vectorSize s := by
  unfold acceptReply
  dsimp only
  split_ifs <;> rfl

/-- The handling of a datagram does not touch the vectors, on every exit. -/
theorem vectorSize_receiveMessage (P : PingScanner) (recvNow : Timespec) (dns : Option String)
    (throws : Bool) (d : Datagram) (s : PingState) :
    P.vectorSize (P.receiveMessage recvNow dns throws d s).1 = P.vectorSize s := by
  unfold receiveMessage
  split
  · rfl
  · unfold processReceivedPacket
    dsimp only
    split
    · rfl
    split
    · rfl
    split
    · rfl
    split
    · rfl
    split
    · rfl
    · exact P.vectorSize_acceptReply _ _ _ _ _ _ _

/-- No step changes the size of a vector: they are resized in `initialize_buffers` only. -/
theorem vectorSize_step (hstep : PingStep P w l w') :
    P.vectorSize w'.st = P.vectorSize w.st := by
  cases hstep with
  | populate _ hout =>
    have := P.vectorSize_populateBatchEntries w.kernel.clock w.st
    rwa [hout] at this
  | flushDone => apply vectorSize_congr <;> simp
  | @release n k i _ _ s hout =>
    subst hout
    rw [← P.vectorSize_releaseProbeSlot (w.st.sendProbeSlots.getD i (-1)) w.st]
    apply vectorSize_congr <;> simp
  | @message d _ _ dns throws _ _ _ hout =>
    have := P.vectorSize_receiveMessage w.kernel.clock dns throws d w.st
    rwa [hout] at this
  | reap _ hout =>
    subst hout
    exact P.vectorSize_reapTimedOutProbes _ _
  | _ => rfl

/-- The vectors keep the sizes they were constructed with, in every reachable state. -/
theorem vectorSize_of_reachable {k : PingKernel}
    (hw : Reachable P.step (start P.initializeBuffers k) w) :
    P.vectorSize w.st = P.vectorSize P.initializeBuffers :=
  hw.invariant (I := fun w => P.vectorSize w.st = P.vectorSize P.initializeBuffers) rfl
    fun _ _ _ h _ hstep => (vectorSize_step (step_cases hstep)).trans h

/-! ### When packets are assembled in place -/

/-- Batch indices are below the batch size, by the gate of the populate loop. -/
theorem Passes.lt {i : ℕ} (h : P.Passes i) : i < P.sendBatchSize := by
  obtain ⟨ts, s, s', hstep⟩ := h
  unfold populateStep at hstep
  split at hstep
  · rename_i hcond
    exact hcond.2.2
  · cases hstep

/-- While the sizes do not wrap, the parts of the packets lie one after the other in
`send_packets_`. -/
theorem assemblesInPlace_of_fits (hsize : P.packetBufferSize = P.packetLength % 2 ^ 64)
    (hfits : P.packetLength * P.sendCount < 2 ^ 64)
    (hs : P.vectorSize s = P.vectorSize P.initializeBuffers) : P.AssemblesInPlace s := by
  have hcount : 1 ≤ P.sendCount := Nat.le_max_left _ _
  have hlen : P.packetLength ≤ P.packetLength * P.sendCount := Nat.le_mul_of_pos_right _ hcount
  rw [Nat.mod_eq_of_lt (by omega)] at hsize
  have hpackets := congrFun hs .packets
  rw [vectorSize_initializeBuffers, if_pos rfl, hsize, Nat.mod_eq_of_lt hfits] at hpackets
  -- the last byte of packet `i` is below the end of the vector
  have hpart : ∀ i, P.Passes i → ∀ k, P.Writes i .packets k →
      i * P.packetLength ≤ k ∧ k < (i + 1) * P.packetLength ∧ k < P.packetLength * P.sendCount := by
    rintro i hi k ⟨j, hj, rfl⟩
    have hbatch : P.sendBatchSize ≤ P.sendCount := Nat.le_max_right _ _
    have hend : (i + 1) * P.packetLength ≤ P.sendCount * P.packetLength :=
      Nat.mul_le_mul_right _ (by have := hi.lt; omega)
    rw [Nat.mul_comm P.sendCount] at hend
    rw [Nat.add_mul, Nat.one_mul] at hend ⊢
    rw [packetOffset, hsize, Nat.mod_eq_of_lt (a := i * P.packetLength) (by omega),
      Nat.mod_eq_of_lt (by omega)]
    omega
  refine ⟨hsize, hpackets.trans (by rw [hsize]), ?_, ?_⟩
  · intro i hi k hk
    rw [hsize]
    exact ⟨(hpart i hi k hk).1, (hpart i hi k hk).2.1⟩
  · intro i hi v k hk
    have hlt : i < P.sendCount := lt_of_lt_of_le hi.lt (Nat.le_max_right _ _)
    cases v with
    | packets => exact lt_of_lt_of_eq (hpart i hi k hk).2.2 hpackets.symm
    | addrs | iovs | msgvec | probeSlots =>
      rw [hs, vectorSize_initializeBuffers]
      simpa [Writes, hk] using lt_of_eq_of_lt hk hlt

/-- **When packets are assembled in place.** In every state of a scanner, the writes of packet
assembly stay in their vectors and in the part of their packet exactly if the size of a packet, and
of all packets of a batch, fits a 64-bit word. -/
theorem assembles_in_place_iff (config : PingScannerConfig) (routedIp : Option ℕ)
    (ifaddrs : Option (List IfAddrs)) (pid : ℕ) (k : PingKernel) (w : PingWorld)
    (hw : Reachable (construct config routedIp ifaddrs pid).step
      (start (construct config routedIp ifaddrs pid).initializeBuffers k) w) :
    (construct config routedIp ifaddrs pid).AssemblesInPlace w.st ↔
      (icmpHdrSize + pingPayloadSize + config.payloadLen) *
        max 1 (safeBatchSize config.sendBatchSize config.totalHosts) < 2 ^ 64 := by
  have hs := vectorSize_of_reachable hw
  constructor
  · intro h
    have hpackets := congrFun hs .packets
    rw [vectorSize_initializeBuffers, if_pos rfl] at hpackets
    have hsize := h.packetsSize
    rw [show w.st.sendPackets.length = _ from hpackets, h.bufferSize] at hsize
    calc _ = (icmpHdrSize + pingPayloadSize + config.payloadLen) *
          max 1 (safeBatchSize config.sendBatchSize config.totalHosts) % 2 ^ 64 := hsize.symm
      _ < 2 ^ 64 := Nat.mod_lt _ (by decide)
  · intro hfits
    exact assemblesInPlace_of_fits rfl hfits hs

/-- A `/31` with 56 filler bytes: two packets of 88 bytes, each in its own part. -/
theorem assembles_in_place_iff_pair :
    (construct { baseIp := 167772168, totalHosts := 2, payloadLen := 56 } none none
      7).AssemblesInPlace
      (start (construct { baseIp := 167772168, totalHosts := 2, payloadLen := 56 } none none
        7).initializeBuffers { clock := {}, rxQueue := [], rxEdge := false }).st :=
  (assembles_in_place_iff { baseIp := 167772168, totalHosts := 2, payloadLen := 56 } none none 7 _ _
    .refl).mpr (by decide)

/-- A scanner for two hosts with `2 ^ 64 - 32` filler bytes: the size of a packet wraps to zero. -/
def wrappedScanner : PingScanner :=
  construct { baseIp := 167772168, totalHosts := 2, payloadLen := 2 ^ 64 - 32 } none none 7

/-- `wrappedScanner` writes the first byte of its first packet to an empty vector. -/
theorem not_assembles_in_place :
    parseCidr [49, 48, 46, 48, 46, 48, 46, 56, 47, 51, 49] =
      some (wrappedScanner.baseIp, wrappedScanner.totalHosts) ∧
    wrappedScanner.Passes 0 ∧ wrappedScanner.Writes 0 .packets 0 ∧
    wrappedScanner.vectorSize wrappedScanner.initializeBuffers .packets = 0 ∧
    ¬ wrappedScanner.AssemblesInPlace wrappedScanner.initializeBuffers := by
  have hpasses : wrappedScanner.Passes 0 := ⟨{}, wrappedScanner.initializeBuffers, _, rfl⟩
  have hwrites : wrappedScanner.Writes 0 .packets 0 := ⟨0, by decide, rfl⟩
  have hsize : wrappedScanner.vectorSize wrappedScanner.initializeBuffers .packets = 0 := by
    rw [vectorSize_initializeBuffers]
    rfl
  refine ⟨by decide, hpasses, hwrites, hsize, fun h => ?_⟩
  have hlt := h.inRange 0 hpasses .packets 0 hwrites
  rw [hsize] at hlt
  exact Nat.lt_irrefl 0 hlt

end PingScanner

end Netscan
