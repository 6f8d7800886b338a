import Netscan.Ping.RxBuffers
import Netscan.Ping.SendBuffers
import Netscan.Ping.SlotSafety

/-! # From the request to its reply

`prepare_single_packet` writes a request into its part of `send_packets_`, and
`process_received_packet` reads the reply out of a slot of `rx_storage_`. A reply repeats the
request but for its type, its checksum and its identifier. The two layouts agree: what was written
is recovered, whatever the slot held before and however long the packet is, and the scanner accepts
the reply of an outstanding or already reaped host once. -/

namespace Netscan

open MachineInt SlotTable LabelledSystem

/-- A timestamp that a real clock returns: seconds since the epoch, and less than a second in
nanoseconds. -/
structure Timespec.Real (t : Timespec) : Prop where
  /-- `tv_sec`. -/
  sec : 0 ≤ t.tvSec ∧ t.tvSec < 2 ^ 33
  /-- `tv_nsec`. -/
  nsec : 0 ≤ t.tvNsec ∧ t.tvNsec < 10 ^ 9

/-- The difference of two real timestamps is computed without overflow: each intermediate result is
a signed 64-bit word. -/
theorem Timespec.Real.difference_fits {now since : Timespec} (hnow : now.Real)
    (hsince : since.Real) :
    (-2 ^ 63 ≤ (now.tvSec - since.tvSec) * nanosecondsPerSecond ∧
      (now.tvSec - since.tvSec) * nanosecondsPerSecond < 2 ^ 63) ∧
    -2 ^ 63 ≤ now.elapsedNs since ∧ now.elapsedNs since < 2 ^ 63 := by
  obtain ⟨⟨h₁, h₂⟩, h₃, h₄⟩ := hnow
  obtain ⟨⟨h₅, h₆⟩, h₇, h₈⟩ := hsince
  unfold elapsedNs nanosecondsPerSecond
  omega

/-- The answer of an echo responder: the type is that of a reply, the checksum and the identifier
are anything, the rest is repeated. -/
def asEchoReply (checksum id : UInt8 × UInt8) (bytes : List UInt8) : List UInt8 :=
  writeAt (writeAt bytes 0 [UInt8.ofNat icmpEchoReply]) 2 [checksum.1, checksum.2, id.1, id.2]

namespace PingScanner

/-- The bytes of message `i` of the batch: what its entry of `send_iovs_` points at. -/
def packetBytes (P : PingScanner) (i : ℕ) (s : PingState) : List UInt8 :=
  field s.sendPackets (P.packetOffset i) P.packetBufferSize

/-- Packet `i` fits the send buffers, and the length of a packet is computed without a wrap. -/
structure PacketFits (P : PingScanner) (i : ℕ) (s : PingState) : Prop where
  /-- `packet_buffer_size_` is the length of a packet. -/
  size : P.packetBufferSize = P.packetLength
  /-- The packet lies in `send_packets_`. -/
  room : P.packetOffset i + P.packetBufferSize ≤ s.sendPackets.length

/-- The scanner accepted the reply of `ip` to the request sent at `sendTs`: it counted one echo
reply, cached the host, appended its result and freed its slot, if it still held one. -/
structure AcceptsReply (P : PingScanner) (ip : ℕ) (sendTs recvTs : Timespec) (s s' : PingState) :
    Prop where
  /-- `echo_replies_`. -/
  echo : s'.echoReplies = u32 (s.echoReplies + 1)
  /-- `unmatched_replies_`. -/
  unmatched : s'.unmatchedReplies = s.unmatchedReplies
  /-- `found_ips_cache_`. -/
  cached : s'.foundIpsCache = s.foundIpsCache ++ [ip]
  /-- `hosts_found`. -/
  counted : s'.hostsFound = s.hostsFound + 1
  /-- `scan_results`. -/
  result : ∃ r : PingHostResult, s'.scanResults = s.scanResults ++ [r] ∧ r.ip = ip ∧
    r.rttNs = max 0 (recvTs.elapsedNs sendTs)
  /-- The slot that held the host is free, the others are as before. -/
  slots : ∀ i : ℕ, s'.probeTable[i]? = s.probeTable[i]?.map fun p =>
    if p.held = some ip then { p with active := false } else p
  /-- The host has no slot. -/
  unmapped : slotOfHost s' (ip - P.baseIp) < 0
  /-- The other hosts have the slots they had. -/
  others : ∀ h, h ≠ ip - P.baseIp → slotOfHost s' h = slotOfHost s h
  /-- `active_probes`. -/
  active : s'.activeProbes + (s.probeTable.countP fun p => p.held = some ip) = s.activeProbes

/-- A reply that is not accepted adds one echo reply and one unmatched reply. -/
def rejectReply (s : PingState) : PingState :=
  { s with
    echoReplies := u32 (s.echoReplies + 1)
    unmatchedReplies := u32 (s.unmatchedReplies + 1) }

/-- What becomes of a packet to `ip`, sent at `sendTs`, that comes back as `bytes` in any slot of
any receive buffers while the scanner is in state `s`. -/
structure DecodesEcho (P : PingScanner) (bytes : List UInt8) (ip : ℕ) (sendTs : Timespec)
    (s : PingState) : Prop where
  /-- The payload is recovered. -/
  payload : ∀ {n : ℕ} (b : RxBuffers n) {j : ℕ}, j < n → ∀ srcIp control,
    PingPayload.decode (field (b.store j ⟨srcIp, bytes, control⟩).storage
        (j * maxRxPacketSize + icmpHdrSize) pingPayloadSize) =
      { targetIp := ip, sendSec := sendTs.tvSec, sendNsec := sendTs.tvNsec }
  /-- From its target, the first reply is accepted. -/
  accepted : isHostFound s ip = false → ∀ {n : ℕ} (b : RxBuffers n) {j : ℕ}, j < n →
    ∀ control {recvTs : Timespec}, recvTs.Real → ∀ ttl dns throws,
    (P.resultCallback = true → throws = false) →
    ∃ s', P.processReceivedPacketAt (b.store j ⟨ip, bytes, control⟩) j recvTs ttl dns throws s =
        (s', false) ∧ P.AcceptsReply ip sendTs recvTs s s'
  /-- From any other source, it is not. -/
  foreign : ∀ {n : ℕ} (b : RxBuffers n) {j : ℕ}, j < n → ∀ srcIp control, srcIp ≠ ip →
    ∀ recvTs ttl dns throws,
    P.processReceivedPacketAt (b.store j ⟨srcIp, bytes, control⟩) j recvTs ttl dns throws s =
      (rejectReply s, false)
  /-- Once the host is found, it is not accepted again. -/
  again : ∀ s', isHostFound s' ip = true → ∀ {n : ℕ} (b : RxBuffers n) {j : ℕ}, j < n →
    ∀ control recvTs ttl dns throws,
    P.processReceivedPacketAt (b.store j ⟨ip, bytes, control⟩) j recvTs ttl dns throws s' =
      (rejectReply s', false)

variable {P : PingScanner} {s : PingState} {ip seq : ℕ} {sendTs recvTs : Timespec}
  {checksum id : UInt8 × UInt8}

/-! ### The bytes of a reply -/

/-- The bytes handed to `sendmmsg` are the request: header, payload, padding and filler. -/
theorem packetBytes_prepareSinglePacket {i : ℕ} (h : P.PacketFits i s) :
    P.packetBytes i (P.prepareSinglePacket i ip seq sendTs s) = P.requestBytes ip seq sendTs := by
  have hlen : P.packetBufferSize = (P.requestBytes ip seq sendTs).length := by
    rw [length_requestBytes, h.size]
  rw [packetBytes, hlen]
  apply field_writeAt
  rw [← hlen]
  exact h.room

/-- The payload of a request stands behind its header. -/
theorem field_requestBytes (P : PingScanner) (ip seq : ℕ) (sendTs : Timespec) :
    field (P.requestBytes ip seq sendTs) icmpHdrSize pingPayloadSize =
      ({ targetIp := ip, sendSec := sendTs.tvSec, sendNsec := sendTs.tvNsec } :
        PingPayload).encode (P.padding ip) := by
  simp [requestBytes, field, List.append_assoc]

/-- A reply is as long as its request. -/
theorem length_asEchoReply (bytes : List UInt8) :
    (asEchoReply checksum id bytes).length = bytes.length := by
  simp [asEchoReply]

/-- A reply keeps the payload of its request, as only the type, the checksum and the id may
change. -/
theorem field_asEchoReply (bytes : List UInt8) :
    field (asEchoReply checksum id bytes) icmpHdrSize pingPayloadSize =
      field bytes icmpHdrSize pingPayloadSize := by
  -- both writes of the responder lie in the header
  rw [asEchoReply, field_writeAt_of_disjoint (by simp [icmpHdrSize]),
    field_writeAt_of_disjoint (by simp [icmpHdrSize])]

/-- A reply has the type of a reply, in its first byte. -/
theorem type_asEchoReply {bytes : List UInt8} (hlen : 0 < bytes.length) :
    (IcmpHdr.decode (field (asEchoReply checksum id bytes) 0 icmpHdrSize)).type =
      icmpEchoReply := by
  have htype : field (asEchoReply checksum id bytes) 0 1 = [UInt8.ofNat icmpEchoReply] := by
    rw [asEchoReply, field_writeAt_of_disjoint (by simp)]
    exact field_writeAt (by rw [List.length_singleton]; omega)
  rw [IcmpHdr.decode, field_field (by decide), Nat.add_zero, htype]
  rfl

/-- **What comes back is the reply of the target**: long enough, of the right type, with the payload
of the request. -/
theorem reply_of_request (checksum id : UInt8 × UInt8) (seq : ℕ) (hip : ip < 2 ^ 32)
    (hsend : sendTs.Real) (srcIp : ℕ) (control : List ControlMessage) {d : Datagram}
    (hd : d = ⟨srcIp, asEchoReply checksum id (P.requestBytes ip seq sendTs), control⟩) :
    ¬ d.bytes.length < icmpHdrSize + pingPayloadSize ∧ d.icmp.type = icmpEchoReply ∧
      d.payload = { targetIp := ip, sendSec := sendTs.tvSec, sendNsec := sendTs.tvNsec } := by
  subst hd
  have hlen : (P.requestBytes ip seq sendTs).length = P.packetLength := length_requestBytes ..
  refine ⟨?_, ?_, ?_⟩
  · dsimp only
    rw [length_asEchoReply, hlen, packetLength]
    omega
  · refine type_asEchoReply ?_
    rw [hlen, packetLength, icmpHdrSize]
    omega
  -- the payload is read back as it was written, as every field fits its bytes
  · obtain ⟨⟨h₁, h₂⟩, h₃, h₄⟩ := hsend
    rw [Datagram.payload]
    dsimp only
    rw [field_asEchoReply, field_requestBytes]
    exact PingPayload.decode_encode hip ⟨by dsimp only; omega, by dsimp only; omega⟩
      ⟨by dsimp only; omega, by dsimp only; omega⟩

/-! ### The decoder on a reply -/

section Decoder

variable {d : Datagram} {payload : PingPayload}
  (hlong : ¬ d.bytes.length < icmpHdrSize + pingPayloadSize) (htype : d.icmp.type = icmpEchoReply)
  (hpayload : d.payload = payload)
include hlong htype hpayload

/-- A reply from another source than its target is rejected and counted as unmatched. -/
theorem processReceivedPacket_foreign (hsrc : d.srcIp ≠ payload.targetIp) (recvTs : Timespec)
    (ttl : ℤ) (dns : Option String) (throws : Bool) :
    P.processReceivedPacket recvTs ttl dns throws d s = (rejectReply s, false) := by
  unfold processReceivedPacket
  rw [if_neg hlong, if_neg (not_not.mpr htype), hpayload]
  dsimp only
  rw [if_pos hsrc]
  rfl

/-- A reply of a host that is found is rejected and counted as unmatched. -/
theorem processReceivedPacket_again (hP : P.Ranged) (hsrc : d.srcIp = payload.targetIp)
    (hlo : P.baseIp ≤ payload.targetIp) (hhi : payload.targetIp < P.baseIp + P.totalHosts)
    (hfound : isHostFound s payload.targetIp = true) (recvTs : Timespec) (ttl : ℤ)
    (dns : Option String) (throws : Bool) :
    P.processReceivedPacket recvTs ttl dns throws d s = (rejectReply s, false) := by
  have hidx : ¬ P.hostIndexForIp payload.targetIp < 0 :=
    Int.not_lt.mpr ((hostIndexForIp_nonneg_iff hP).mpr ⟨hlo, hhi⟩)
  have hcounted : isHostFound { s with echoReplies := u32 (s.echoReplies + 1) } payload.targetIp =
      true := hfound
  unfold processReceivedPacket
  rw [if_neg hlong, if_neg (not_not.mpr htype), hpayload]
  dsimp only
  rw [if_neg (not_not.mpr hsrc), if_neg hidx, if_pos hcounted]
  rfl

/-- A reply of a host of the range that is not found is accepted. -/
theorem SlotInv.processReceivedPacket_accepted (hP : P.Ranged) (hs : P.SlotInv s)
    (hsrc : d.srcIp = payload.targetIp) (hlo : P.baseIp ≤ payload.targetIp)
    (hhi : payload.targetIp < P.baseIp + P.totalHosts)
    (hnew : isHostFound s payload.targetIp = false) (recvTs : Timespec) (ttl : ℤ)
    (dns : Option String) (throws : Bool) :
    P.processReceivedPacket recvTs ttl dns throws d s =
      P.report throws (P.replyResult recvTs ttl dns payload)
        (P.foundState payload.targetIp { s with echoReplies := u32 (s.echoReplies + 1) }) := by
  have hcounted : P.SlotInv { s with echoReplies := u32 (s.echoReplies + 1) } := hs.congr rfl
  have hidx : ¬ P.hostIndexForIp payload.targetIp < 0 :=
    Int.not_lt.mpr ((hostIndexForIp_nonneg_iff hP).mpr ⟨hlo, hhi⟩)
  have hfound : isHostFound { s with echoReplies := u32 (s.echoReplies + 1) } payload.targetIp =
      false := hnew
  unfold processReceivedPacket
  rw [if_neg hlong, if_neg (not_not.mpr htype), hpayload]
  dsimp only
  rw [if_neg (not_not.mpr hsrc), if_neg hidx, if_neg (by simp [hfound]),
    hostIndexForIp_of_mem hP hlo hhi, Int.toNat_natCast]
  exact hcounted.acceptReply_eq recvTs ttl dns throws payload hlo

end Decoder

/-! ### The accepted reply -/

/-- The slots after a host is found: those that it held are free, and the others are as before. -/
theorem SlotInv.slots_foundState (hs : P.SlotInv s) (ip : ℕ) (i : ℕ) :
    (P.foundState ip s).probeTable[i]? = s.probeTable[i]?.map fun p =>
      if p.held = some ip then { p with active := false } else p := by
  have hholds : ∀ p, s.probeTable[i]? = some p → p.held = some ip →
      backPointers P.baseIp s.hostToProbe ip = some i :=
    fun p hp hheld => (hs.linked ip i).mpr ⟨p, hp, hheld⟩
  cases hback : backPointers P.baseIp s.hostToProbe ip with
  | none =>
    have hsame : (P.foundState ip s).probeTable = s.probeTable := by
      simp [PingScanner.foundState, hback]
    rw [hsame]
    cases hp : s.probeTable[i]? with
    | none => rfl
    | some p =>
      have hfree : p.held ≠ some ip := fun hheld => by simp [hholds p hp hheld] at hback
      simp [hfree]
  | some slot =>
    obtain ⟨q, hq, hheld⟩ := (hs.linked ip slot).mp hback
    have htable : (P.foundState ip s).probeTable =
        s.probeTable.set slot { q with active := false } := by
      simp [PingScanner.foundState, hback, PingScanner.freeSlot, probeAt_of_getElem? hq]
    rw [htable, List.getElem?_set]
    by_cases hi : slot = i
    · subst hi
      obtain ⟨hlt, -⟩ := List.getElem?_eq_some_iff.mp hq
      rw [if_pos rfl, if_pos hlt, hq, Option.map_some, if_pos hheld]
    · rw [if_neg hi]
      cases hp : s.probeTable[i]? with
      | none => rfl
      | some p =>
        -- by the back-pointer, slot `slot` is the only one that holds `ip`
        have hfree : p.held ≠ some ip := fun h => by
          have hboth := (hholds p hp h).symm.trans hback
          exact hi (Option.some.inj hboth).symm
        simp [hfree]

/-- The host found last has no slot, as it is unmapped when its slot is freed. -/
theorem SlotInv.unmapped_foundState (hs : P.SlotInv s) (hlo : P.baseIp ≤ ip)
    (hhi : ip < P.baseIp + P.totalHosts) (hnew : ip ∉ s.foundIpsCache) :
    slotOfHost (P.foundState ip s) (ip - P.baseIp) < 0 := by
  have hfree := (hs.foundState hlo hhi hnew).foundFree ip (by simp [PingScanner.foundState])
  have hip : P.baseIp + (ip - P.baseIp) = ip := by omega
  rw [← Int.not_le, ← ge_iff_le, slotOfHost_nonneg_iff (P := P), hip, hfree]
  simp

/-- Finding a host leaves the slots of the others, which have other indices. -/
theorem SlotInv.others_foundState (hs : P.SlotInv s) {h : ℕ} (hne : h ≠ ip - P.baseIp) :
    slotOfHost (P.foundState ip s) h = slotOfHost s h := by
  cases hback : backPointers P.baseIp s.hostToProbe ip with
  | none => simp [PingScanner.foundState, hback, slotOfHost]
  | some slot =>
    obtain ⟨q, hq, hheld⟩ := (hs.linked ip slot).mp hback
    obtain ⟨-, hdest⟩ := ProbeInfo.held_eq_some.mp hheld
    simp [PingScanner.foundState, hback, PingScanner.freeSlot, probeAt_of_getElem? hq, slotOfHost,
      hdest, List.getElem?_set_ne (Ne.symm hne)]

/-- Finding a host frees its slot, if it holds one, and the counter follows. -/
theorem SlotInv.active_foundState (hs : P.SlotInv s) (ip : ℕ) :
    (P.foundState ip s).activeProbes + (s.probeTable.countP fun p => p.held = some ip) =
      s.activeProbes := by
  rw [hs.linked.countP_key ip]
  cases hback : backPointers P.baseIp s.hostToProbe ip with
  | none => simp [PingScanner.foundState, hback]
  | some slot =>
    obtain ⟨q, hq, hheld⟩ := (hs.linked ip slot).mp hback
    have hpos : 0 < s.activeProbes := by
      rw [hs.count]
      exact List.length_pos_of_mem (mem_keys.mpr ⟨slot, q, hq, hheld⟩)
    simp only [PingScanner.foundState, hback, PingScanner.freeSlot, Option.isSome_some, if_true]
    omega

/-- The report of a result that is not interrupted: the callback is called first, and the result is
kept. -/
theorem report_of_returns {throws : Bool} (h : P.resultCallback = true → throws = false)
    (r : PingHostResult) (s : PingState) : P.report throws r s =
      ({ s with
        called := if P.resultCallback then s.called ++ [r] else s.called
        scanResults := s.scanResults ++ [r] }, false) := by
  have hreturns : (P.resultCallback && throws) = false := by
    cases hcb : P.resultCallback with
    | false => rfl
    | true => simp [h hcb]
  rw [report, hreturns]
  rfl

/-- What accepting a reply does to the tables, the counters and the results. -/
theorem SlotInv.acceptsReply (hs : P.SlotInv s) (hlo : P.baseIp ≤ ip)
    (hhi : ip < P.baseIp + P.totalHosts) (hnew : isHostFound s ip = false) {r : PingHostResult}
    (hr : r.ip = ip ∧ r.rttNs = max 0 (recvTs.elapsedNs sendTs)) (called : List PingHostResult) :
    P.AcceptsReply ip sendTs recvTs s
      { P.foundState ip { s with echoReplies := u32 (s.echoReplies + 1) } with
        called := called
        scanResults :=
          (P.foundState ip { s with echoReplies := u32 (s.echoReplies + 1) }).scanResults ++ [r] }
      := by
  have hcounted : P.SlotInv { s with echoReplies := u32 (s.echoReplies + 1) } := hs.congr rfl
  have hmem : ip ∉ s.foundIpsCache := by simpa [isHostFound] using hnew
  refine ⟨?_, ?_, ?_, ?_, ⟨r, ?_, hr⟩, hcounted.slots_foundState ip,
    hcounted.unmapped_foundState hlo hhi hmem, fun h hne => hcounted.others_foundState hne,
    hcounted.active_foundState ip⟩
  all_goals
    unfold PingScanner.foundState
    split <;> rfl

/-! ### The round trip -/

/-- The payload of a long enough datagram is read from its slot. -/
theorem payload_store {n : ℕ} (b : RxBuffers n) {j : ℕ} (hj : j < n) {d : Datagram}
    (hlong : ¬ d.bytes.length < icmpHdrSize + pingPayloadSize) :
    PingPayload.decode (field (b.store j d).storage (j * maxRxPacketSize + icmpHdrSize)
      pingPayloadSize) = d.payload := by
  have hstored : ¬ (b.store j d).msgLens.getD j 0 < icmpHdrSize + pingPayloadSize := by
    rw [b.msgLen_store d hj]
    simp only [icmpHdrSize, pingPayloadSize, maxRxPacketSize] at hlong ⊢
    omega
  rw [← RxBuffers.payload_datagramAt _ hstored, b.datagramAt_store d hj, Datagram.received_payload]

/-- What becomes of the reply to a request, in a state with the slot-table invariant. -/
theorem SlotInv.decodesEcho (hP : P.Ranged) (hs : P.SlotInv s) (hlo : P.baseIp ≤ ip)
    (hhi : ip < P.baseIp + P.totalHosts) (hsend : sendTs.Real) :
    P.DecodesEcho (asEchoReply checksum id (P.requestBytes ip seq sendTs)) ip sendTs s := by
  have hfits := hP.fits
  have hip : ip < 2 ^ 32 := by omega
  have hreply := fun srcIp control => reply_of_request (P := P) checksum id seq
    hip hsend srcIp control rfl
  refine ⟨?_, ?_, ?_, ?_⟩
  · intro n b j hj srcIp control
    obtain ⟨hlong, -, hpayload⟩ := hreply srcIp control
    rw [payload_store b hj hlong, hpayload]
  -- the first reply of the target is accepted
  · intro hnew n b j hj control recvTs hrecv ttl dns throws hcall
    obtain ⟨hlong, htype, hpayload⟩ := hreply ip control
    rw [P.processReceivedPacketAt_store b hj, hs.processReceivedPacket_accepted hlong htype hpayload
      hP rfl hlo hhi hnew, report_of_returns hcall]
    refine ⟨_, rfl, ?_⟩
    exact hs.acceptsReply hlo hhi hnew (r := P.replyResult recvTs ttl dns
      { targetIp := ip, sendSec := sendTs.tvSec, sendNsec := sendTs.tvNsec }) ⟨rfl, rfl⟩ _
  -- one from elsewhere is rejected
  · intro n b j hj srcIp control hsrc recvTs ttl dns throws
    obtain ⟨hlong, htype, hpayload⟩ := hreply srcIp control
    rw [P.processReceivedPacketAt_store b hj]
    exact processReceivedPacket_foreign hlong htype hpayload hsrc _ _ _ _
  -- a second one finds its host in the cache
  · intro s' hfound n b j hj control recvTs ttl dns throws
    obtain ⟨hlong, htype, hpayload⟩ := hreply ip control
    rw [P.processReceivedPacketAt_store b hj]
    exact processReceivedPacket_again hlong htype hpayload hP rfl hlo hhi hfound _ _ _ _

/-- **The reply decoder undoes the request encoder.** For every request that fits its buffer,
written in any state `u`, the reply to it is decoded in every state of every run, from any slot of
any receive buffers: its payload is the one that was sent, the first reply of a host is accepted
from its target only, and any further one is rejected. -/
theorem decodes_echo {input : CString} {config : PingScannerConfig}
    (hparse : parseCidr input = some (config.baseIp, config.totalHosts)) (routedIp : Option ℕ)
    (ifaddrs : Option (List IfAddrs)) (pid : ℕ) {s₀ : PingState}
    (hs : (construct config routedIp ifaddrs pid).Sized s₀) (k : PingKernel) {w : PingWorld}
    (hw : Reachable (construct config routedIp ifaddrs pid).step (start s₀ k) w)
    {i : ℕ} {u : PingState} (hfits : (construct config routedIp ifaddrs pid).PacketFits i u)
    {ip : ℕ} (hlo : config.baseIp ≤ ip) (hhi : ip < config.baseIp + config.totalHosts) (seq : ℕ)
    {sendTs : Timespec} (hsend : sendTs.Real) (checksum id : UInt8 × UInt8) :
    (construct config routedIp ifaddrs pid).DecodesEcho
      (asEchoReply checksum id ((construct config routedIp ifaddrs pid).packetBytes i
        ((construct config routedIp ifaddrs pid).prepareSinglePacket i ip seq sendTs u)))
      ip sendTs w.st := by
  have hP := ranged_construct hparse routedIp ifaddrs pid
  rw [packetBytes_prepareSinglePacket hfits]
  exact (slotInv_of_reachable hP hs hw).decodesEcho hP hlo hhi hsend

/-- `10.0.0.9/31`, probes outstanding: the packet of the second host, with 2100 bytes of filler
(more than a receive slot takes), comes back. -/
theorem decodes_echo_pair : ∃ w : PingWorld, w.st.activeProbes = 2 ∧
    (construct { baseIp := 167772168, totalHosts := 2, payloadLen := 2100 } none none 7).DecodesEcho
      (asEchoReply (1, 2) (3, 4)
        ((construct { baseIp := 167772168, totalHosts := 2, payloadLen := 2100 } none none
          7).packetBytes 1
          ((construct { baseIp := 167772168, totalHosts := 2, payloadLen := 2100 } none none
            7).prepareSinglePacket 1 167772169 2 { tvSec := 5, tvNsec := 6 }
            (construct { baseIp := 167772168, totalHosts := 2, payloadLen := 2100 } none none
              7).initializeBuffers)))
      167772169 { tvSec := 5, tvNsec := 6 } w.st := by
  have hparse : parseCidr [49, 48, 46, 48, 46, 48, 46, 57, 47, 51, 49] = some (167772168, 2) := by
    decide
  have hfits : (construct { baseIp := 167772168, totalHosts := 2, payloadLen := 2100 } none none
      7).PacketFits 1 (construct { baseIp := 167772168, totalHosts := 2, payloadLen := 2100 } none
        none 7).initializeBuffers :=
    ⟨rfl, by simp only [initializeBuffers, List.length_replicate]; decide⟩
  obtain ⟨w, hw, hp⟩ := exists_reachable_of_exec (M := (construct
      { baseIp := 167772168, totalHosts := 2, payloadLen := 2100 } none none 7).step)
    (s := start (construct { baseIp := 167772168, totalHosts := 2, payloadLen := 2100 } none none
      7).initializeBuffers { clock := {}, rxQueue := [], rxEdge := false })
    [.run, .run] (fun w => w.st.activeProbes == 2) (by decide)
  exact ⟨w, by simpa using hp, decodes_echo hparse none none 7 (sized_initializeBuffers _) _ hw
    hfits (by decide) (by decide) 2 ⟨by decide, by decide⟩ (1, 2) (3, 4)⟩

end PingScanner

end Netscan
