import Netscan.Ping.Scanner

/-! # The receive buffers

`recvmmsg` fills the slots of `rx_storage_`, `rx_addrs_`, `rx_controls_` and `rx_msgvec_`, and
`process_received_packet` reads them back by slot index. The buffers are used again for every
batch, and `rx_storage_` is never cleared. Reading a slot gives the datagram that was stored last,
whatever was there before, so the member functions on slots are those on datagrams. -/

namespace Netscan

open MachineInt

/-- The receive buffers of `recvCount` slots; their sizes, and the bound that `iov_len` puts on
`msg_len`, are part of the type. -/
structure RxBuffers (recvCount : ℕ) where
  /-- `rx_storage_`. -/
  storage : List UInt8
  /-- The `msg_len` members of `rx_msgvec_`. -/
  msgLens : List ℕ
  /-- The host-order addresses in `rx_addrs_`. -/
  addrs : List ℕ
  /-- The control messages in `rx_controls_`, slot by slot. -/
  controls : List (List ControlMessage)
  /-- `rx_storage_.size()`. -/
  length_storage : storage.length = recvCount * maxRxPacketSize
  /-- `rx_msgvec_.size()`. -/
  length_msgLens : msgLens.length = recvCount
  /-- `rx_addrs_.size()`. -/
  length_addrs : addrs.length = recvCount
  /-- The slots of `rx_controls_`. -/
  length_controls : controls.length = recvCount
  /-- No message is longer than its slot. -/
  msgLens_le : ∀ len ∈ msgLens, len ≤ maxRxPacketSize

namespace RxBuffers

variable {n : ℕ}

/-- The buffers as `initialize_buffers` sizes them, before the first datagram. -/
def zeroed (recvCount : ℕ) : RxBuffers recvCount where
  storage := List.replicate (recvCount * maxRxPacketSize) 0
  msgLens := List.replicate recvCount 0
  addrs := List.replicate recvCount 0
  controls := List.replicate recvCount []
  length_storage := List.length_replicate
  length_msgLens := List.length_replicate
  length_addrs := List.length_replicate
  length_controls := List.length_replicate
  msgLens_le := fun len hlen => by simp [List.eq_of_mem_replicate hlen]

/-- What `receive_responses` clears before a call for `recvBatchSize` messages: all of
`rx_msgvec_`, the addresses and the control buffers of the slots used, but not `rx_storage_`. -/
def clear (recvBatchSize : ℕ) (b : RxBuffers n) : RxBuffers n where
  storage := b.storage
  msgLens := b.msgLens.map fun _ => 0
  addrs := b.addrs.mapIdx fun i ip => if i < recvBatchSize then 0 else ip
  controls := b.controls.mapIdx fun i control => if i < recvBatchSize then [] else control
  length_storage := b.length_storage
  length_msgLens := by rw [List.length_map, b.length_msgLens]
  length_addrs := by rw [List.length_mapIdx, b.length_addrs]
  length_controls := by rw [List.length_mapIdx, b.length_controls]
  msgLens_le := fun len hlen => by
    obtain ⟨_, _, rfl⟩ := List.mem_map.mp hlen
    exact Nat.zero_le _

/-- The kernel puts a datagram into slot `j`: what fits of its bytes, how many these are, its source
and its ancillary data. -/
def store (j : ℕ) (d : Datagram) (b : RxBuffers n) : RxBuffers n where
  storage := writeAt b.storage (j * maxRxPacketSize) (d.bytes.take maxRxPacketSize)
  msgLens := b.msgLens.set j (min d.bytes.length maxRxPacketSize)
  addrs := b.addrs.set j d.srcIp
  controls := b.controls.set j d.control
  length_storage := by rw [length_writeAt, b.length_storage]
  length_msgLens := by rw [List.length_set, b.length_msgLens]
  length_addrs := by rw [List.length_set, b.length_addrs]
  length_controls := by rw [List.length_set, b.length_controls]
  msgLens_le := fun len hlen => by
    obtain hold | rfl := List.mem_or_eq_of_mem_set hlen
    · exact b.msgLens_le _ hold
    · exact Nat.min_le_right _ _

/-- The kernel puts datagrams into the slots from `j` on, one after the other. -/
def storeFrom : (j : ℕ) → List Datagram → RxBuffers n → RxBuffers n
  | _, [], b => b
  | j, d :: ds, b => storeFrom (j + 1) ds (b.store j d)

/-- What slot `j` holds: its source, as many bytes as `msg_len` says, and its control messages. -/
def datagramAt (b : RxBuffers n) (j : ℕ) : Datagram where
  srcIp := b.addrs.getD j 0
  bytes := field b.storage (j * maxRxPacketSize) (b.msgLens.getD j 0)
  control := b.controls.getD j []

variable {b : RxBuffers n} {j : ℕ}

/-- No `msg_len` is larger than a slot, as the kernel truncates. -/
theorem msgLen_le (b : RxBuffers n) (j : ℕ) : b.msgLens.getD j 0 ≤ maxRxPacketSize := by
  rw [List.getD_eq_getElem?_getD]
  cases hlen : b.msgLens[j]? with
  | none => exact Nat.zero_le _
  | some len => exact b.msgLens_le len (List.mem_of_getElem? hlen)

/-- Slot `j` lies in `rx_storage_`, with all its bytes. -/
theorem slot_le (b : RxBuffers n) (hj : j < n) :
    j * maxRxPacketSize + maxRxPacketSize ≤ b.storage.length := by
  rw [b.length_storage]
  calc j * maxRxPacketSize + maxRxPacketSize = (j + 1) * maxRxPacketSize := by ring
    _ ≤ n * maxRxPacketSize := Nat.mul_le_mul_right _ hj

/-- The bytes of a slot are as many as its `msg_len`. -/
theorem length_datagramAt (b : RxBuffers n) (hj : j < n) :
    (b.datagramAt j).bytes.length = b.msgLens.getD j 0 := by
  have hslot := b.slot_le hj
  have hlen := b.msgLen_le j
  simp only [datagramAt, field, List.length_take, List.length_drop]
  omega

/-- The length of what was stored last, cut to the slot. -/
theorem msgLen_store (b : RxBuffers n) (d : Datagram) (hj : j < n) :
    (b.store j d).msgLens.getD j 0 = min d.bytes.length maxRxPacketSize := by
  simp [store, b.length_msgLens, hj]

/-- **A slot holds what was stored last**, cut to the size of the slot. -/
theorem datagramAt_store (b : RxBuffers n) (d : Datagram) (hj : j < n) :
    (b.store j d).datagramAt j = d.received := by
  have hbytes : field (b.store j d).storage (j * maxRxPacketSize)
      (min d.bytes.length maxRxPacketSize) = d.bytes.take maxRxPacketSize := by
    have hlen : (d.bytes.take maxRxPacketSize).length = min d.bytes.length maxRxPacketSize := by
      rw [List.length_take, Nat.min_comm]
    have hfits := b.slot_le hj
    rw [← hlen]
    apply field_writeAt
    omega
  have haddr : (b.store j d).addrs.getD j 0 = d.srcIp := by
    simp [store, b.length_addrs, hj]
  have hcontrol : (b.store j d).controls.getD j [] = d.control := by
    simp [store, b.length_controls, hj]
  rw [datagramAt, b.msgLen_store d hj, haddr, hcontrol, hbytes]
  rfl

/-- Slots do not overlap, so storing into one leaves what the others hold. -/
theorem datagramAt_store_of_ne (b : RxBuffers n) (d : Datagram) {i : ℕ} (hij : i ≠ j) :
    (b.store j d).datagramAt i = b.datagramAt i := by
  have hmsgLen : (b.store j d).msgLens.getD i 0 = b.msgLens.getD i 0 := by
    simp [store, Ne.symm hij]
  have haddr : (b.store j d).addrs.getD i 0 = b.addrs.getD i 0 := by
    simp [store, Ne.symm hij]
  have hcontrol : (b.store j d).controls.getD i [] = b.controls.getD i [] := by
    simp [store, Ne.symm hij]
  have hbytes : field (b.store j d).storage (i * maxRxPacketSize) (b.msgLens.getD i 0) =
      field b.storage (i * maxRxPacketSize) (b.msgLens.getD i 0) := by
    -- neither what slot `i` holds nor what is written into slot `j` is longer than a slot
    apply field_writeAt_of_disjoint
    have hlen := b.msgLen_le i
    have htake : (d.bytes.take maxRxPacketSize).length ≤ maxRxPacketSize := by
      rw [List.length_take]
      exact Nat.min_le_left _ _
    rcases Nat.lt_or_gt_of_ne hij with hlt | hgt
    · left
      have hmul := Nat.mul_le_mul_right maxRxPacketSize (Nat.succ_le_of_lt hlt)
      rw [Nat.succ_mul] at hmul
      omega
    · right
      have hmul := Nat.mul_le_mul_right maxRxPacketSize (Nat.succ_le_of_lt hgt)
      rw [Nat.succ_mul] at hmul
      omega
  rw [datagramAt, hmsgLen, haddr, hcontrol, hbytes]
  rfl

/-- The payload in a slot stands behind the header, at its place in `rx_storage_`. -/
theorem payload_datagramAt (b : RxBuffers n)
    (hlong : ¬ b.msgLens.getD j 0 < icmpHdrSize + pingPayloadSize) :
    (b.datagramAt j).payload = PingPayload.decode
      (field b.storage (j * maxRxPacketSize + icmpHdrSize) pingPayloadSize) := by
  rw [Datagram.payload, datagramAt, field_field (by omega)]

/-- Slots before the first one filled stay, by induction on the datagrams. -/
theorem datagramAt_storeFrom_of_lt {i : ℕ} (ds : List Datagram) (hij : i < j) (b : RxBuffers n) :
    (storeFrom j ds b).datagramAt i = b.datagramAt i := by
  induction ds generalizing j b with
  | nil => rfl
  | cons d ds ih =>
    rw [storeFrom, ih (Nat.lt_succ_of_lt hij), datagramAt_store_of_ne b d (Nat.ne_of_lt hij)]

/-- **The filled slots hold the batch**, in order, each datagram cut to its slot. -/
theorem datagramAt_storeFrom {ds : List Datagram} (hfits : j + ds.length ≤ n) (b : RxBuffers n)
    {i : ℕ} {d : Datagram} (hi : ds[i]? = some d) :
    (storeFrom j ds b).datagramAt (j + i) = d.received := by
  induction ds generalizing j b i with
  | nil => simp at hi
  | cons d' ds ih =>
    rw [List.length_cons] at hfits
    rw [storeFrom]
    cases i with
    | zero =>
      obtain rfl : d' = d := by simpa using hi
      show (storeFrom (j + 1) ds (b.store j d')).datagramAt j = d'.received
      rw [datagramAt_storeFrom_of_lt ds (Nat.lt_add_one j), datagramAt_store b d' (by omega)]
    | succ i =>
      rw [← Nat.add_assoc, Nat.add_right_comm]
      exact ih (by omega) _ (by simpa using hi)

end RxBuffers

namespace PingScanner

variable (P : PingScanner)

/-! ### The member functions on slots -/

/-- The slots that `initialize_buffers` reserves: at least one, also for a batch size of zero. -/
def recvCount : ℕ := max 1 P.recvBatchSize

variable {n : ℕ}

/-- `process_received_packet` as it reads slot `msgIndex` of the buffers. -/
def processReceivedPacketAt (b : RxBuffers n) (msgIndex : ℕ) (recvTs : Timespec) (ttl : ℤ)
    (dns : Option String) (throws : Bool) (s : PingState) : PingState × Bool :=
  let packetOffset := msgIndex * maxRxPacketSize
  let packetLen := b.msgLens.getD msgIndex 0
  if packetLen < icmpHdrSize + pingPayloadSize then
    ({ s with unmatchedReplies := u32 (s.unmatchedReplies + 1) }, false)
  else
    let icmp := IcmpHdr.decode (field b.storage packetOffset icmpHdrSize)
    if icmp.type ≠ icmpEchoReply then (s, false)
    else
      let s := { s with echoReplies := u32 (s.echoReplies + 1) }
      let unmatched := { s with unmatchedReplies := u32 (s.unmatchedReplies + 1) }
      let actualSrcIp := b.addrs.getD msgIndex 0
      let payload :=
        PingPayload.decode (field b.storage (packetOffset + icmpHdrSize) pingPayloadSize)
      if actualSrcIp ≠ payload.targetIp then (unmatched, false)
      else
        let hostIdx := P.hostIndexForIp payload.targetIp
        if hostIdx < 0 then (unmatched, false)
        else if isHostFound s payload.targetIp then (unmatched, false)
        else P.acceptReply recvTs ttl dns throws payload hostIdx.toNat s

/-- One turn of the message loop of `receive_responses`, on slot `msgIndex`. -/
def receiveMessageAt (b : RxBuffers n) (msgIndex : ℕ) (recvNow : Timespec) (dns : Option String)
    (throws : Bool) (s : PingState) : PingState × Bool :=
  if b.msgLens.getD msgIndex 0 < icmpHdrSize then (s, false)
  else
    let (ttl, recvTs, overflows) :=
      extractControlData recvNow (b.controls.getD msgIndex []) s.rxQueueOverflows
    P.processReceivedPacketAt b msgIndex recvTs ttl dns throws
      { s with rxQueueOverflows := overflows }

/-- Reading a slot is reading the datagram it holds: the offsets of header and payload agree. -/
theorem processReceivedPacketAt_eq (b : RxBuffers n) {j : ℕ} (hj : j < n) (recvTs : Timespec)
    (ttl : ℤ) (dns : Option String) (throws : Bool) (s : PingState) :
    P.processReceivedPacketAt b j recvTs ttl dns throws s =
      P.processReceivedPacket recvTs ttl dns throws (b.datagramAt j) s := by
  unfold processReceivedPacketAt processReceivedPacket
  rw [b.length_datagramAt hj]
  dsimp only
  by_cases hshort : b.msgLens.getD j 0 < icmpHdrSize + pingPayloadSize
  · rw [if_pos hshort, if_pos hshort]
  · have hicmp : (b.datagramAt j).icmp =
        IcmpHdr.decode (field b.storage (j * maxRxPacketSize) icmpHdrSize) := by
      rw [Datagram.icmp, RxBuffers.datagramAt, field_field (by omega), Nat.add_zero]
    rw [hicmp, b.payload_datagramAt hshort]
    rfl

/-- A packet is handled the same after it was cut to the size of a slot. -/
theorem processReceivedPacket_received (recvTs : Timespec) (ttl : ℤ) (dns : Option String)
    (throws : Bool) (d : Datagram) (s : PingState) :
    P.processReceivedPacket recvTs ttl dns throws d.received s =
      P.processReceivedPacket recvTs ttl dns throws d s := by
  -- a slot has room for a header and a payload, so the cut changes none of the fields read
  unfold processReceivedPacket
  simp only [Datagram.length_received_lt (m := icmpHdrSize + pingPayloadSize) (by decide),
    Datagram.received_icmp, Datagram.received_payload, Datagram.received_srcIp]

/-- A message is handled the same after it was cut to the size of a slot. -/
theorem receiveMessage_received (recvNow : Timespec) (dns : Option String) (throws : Bool)
    (d : Datagram) (s : PingState) :
    P.receiveMessage recvNow dns throws d.received s = P.receiveMessage recvNow dns throws d s := by
  unfold receiveMessage
  simp only [Datagram.length_received_lt (m := icmpHdrSize) (by decide),
    processReceivedPacket_received]
  rfl

/-- One turn of the message loop on a slot is one turn on the datagram it holds. -/
theorem receiveMessageAt_eq (b : RxBuffers n) {j : ℕ} (hj : j < n) (recvNow : Timespec)
    (dns : Option String) (throws : Bool) (s : PingState) :
    P.receiveMessageAt b j recvNow dns throws s =
      P.receiveMessage recvNow dns throws (b.datagramAt j) s := by
  unfold receiveMessageAt receiveMessage
  rw [b.length_datagramAt hj]
  by_cases hshort : b.msgLens.getD j 0 < icmpHdrSize
  · rw [if_pos hshort, if_pos hshort]
  · rw [if_neg hshort, if_neg hshort]
    exact P.processReceivedPacketAt_eq b hj _ _ _ _ _

/-- What was stored in a slot is processed as it was sent. -/
theorem processReceivedPacketAt_store (b : RxBuffers n) {j : ℕ} (hj : j < n) (d : Datagram)
    (recvTs : Timespec) (ttl : ℤ) (dns : Option String) (throws : Bool) (s : PingState) :
    P.processReceivedPacketAt (b.store j d) j recvTs ttl dns throws s =
      P.processReceivedPacket recvTs ttl dns throws d s := by
  rw [P.processReceivedPacketAt_eq _ hj, b.datagramAt_store d hj, processReceivedPacket_received]

end PingScanner

end Netscan
