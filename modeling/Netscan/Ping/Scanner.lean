import Netscan.Ping.Packet

/-! # The ping scanner: state and member functions

`PingScanner` holds the members that never change after construction, `PingState` the others
together with the locals of `run()` that its member functions update by reference. Each member
function is a function on `PingState`; what the kernel, the resolver or the callback decides is an
argument. -/

namespace Netscan

open MachineInt

/-- `PingHostResult`. The round-trip time is kept in nanoseconds, clamped at zero: `rtt_ms` is this
number divided by `10 ^ 6` as a `double`. -/
structure PingHostResult where
  /-- The host. -/
  ip : ℕ
  /-- Its dotted-quad text. -/
  ipStr : String
  /-- Its name, or `N/A`. -/
  hostname : String
  /-- Round-trip time in nanoseconds. -/
  rttNs : ℤ
  /-- Time to live, `-1` when unknown. -/
  ttl : ℤ
  deriving DecidableEq, Repr

/-- `PingScannerConfig`, with the defaults of the source. `resultCallback` says whether a callback
is set; what a call of it does is decided by the label of the step that makes it. -/
structure PingScannerConfig where
  /-- First address of the range. -/
  baseIp : ℕ := 0
  /-- Number of addresses. -/
  totalHosts : ℕ := 0
  /-- Filler bytes after the payload. -/
  payloadLen : ℕ := 0
  /-- Concurrent probes. -/
  maxProbes : ℕ := 4096
  /-- Probe timeout. -/
  timeoutMs : ℕ := 800
  /-- Messages per `sendmmsg`. -/
  sendBatchSize : ℕ := 4
  /-- Messages per `recvmmsg`. -/
  recvBatchSize : ℕ := 128
  /-- Whether names are resolved. -/
  resolveDns : Bool := true
  /-- Whether a callback is set. -/
  resultCallback : Bool := false
  /-- What the padding bytes in the request to an address happen to hold. This is no member in the
  source: like the process number it is a value that the code does not determine. -/
  padding : ℕ → ℕ := fun _ => 0

/-- `PingScanner::ProbeInfo`, one entry of `probe_table_`. An entry that is not active keeps its
last values, which nothing reads. -/
structure ProbeInfo where
  /-- The slot is in use. -/
  active : Bool := false
  /-- The probed host. -/
  destIp : ℕ := 0
  /-- Sequence number of the request. -/
  seq : ℕ := 0
  /-- Recorded send time. -/
  sendTime : Timespec := {}
  deriving DecidableEq, Repr

/-- The members of `PingScanner` that the constructor fixes and no member function changes. All
functions of the model take them from here. -/
structure PingScanner where
  /-- `base_ip_`. -/
  baseIp : ℕ
  /-- `total_hosts_`. -/
  totalHosts : ℕ
  /-- `network_interface_`. -/
  networkInterface : NetworkInterface
  /-- `payload_len_`. -/
  payloadLen : ℕ
  /-- `max_probes_`. -/
  maxProbes : ℕ
  /-- `timeout_ms_`. -/
  timeoutMs : ℕ
  /-- `send_batch_size_`. -/
  sendBatchSize : ℕ
  /-- `recv_batch_size_`. -/
  recvBatchSize : ℕ
  /-- `resolve_dns_`. -/
  resolveDns : Bool
  /-- Whether `result_callback_` is set. -/
  resultCallback : Bool
  /-- `packet_buffer_size_`. -/
  packetBufferSize : ℕ
  /-- `getpid()`. -/
  pid : ℕ
  /-- The contents of the padding bytes in the request to an address. -/
  padding : ℕ → ℕ

/-- The other members of `PingScanner` and the locals of `run()`, which its member functions change
by reference. `called` is not in the source: it records what the callback was given. -/
structure PingState where
  /-- `tx_drops_`. -/
  txDrops : ℕ := 0
  /-- `rx_queue_overflows_`. -/
  rxQueueOverflows : ℕ := 0
  /-- `echo_replies_`. -/
  echoReplies : ℕ := 0
  /-- `unmatched_replies_`. -/
  unmatchedReplies : ℕ := 0
  /-- `probe_timeouts_`. -/
  probeTimeouts : ℕ := 0
  /-- `probe_table_`. -/
  probeTable : List ProbeInfo
  /-- `host_to_probe_`. -/
  hostToProbe : List ℤ
  /-- `found_ips_cache_`. -/
  foundIpsCache : List ℕ := []
  /-- `send_packets_`. -/
  sendPackets : List UInt8
  /-- The host-order addresses in `send_addrs_`. -/
  sendAddrs : List ℕ
  /-- `send_probe_slots_`. -/
  sendProbeSlots : List ℤ
  /-- `next_host_idx`. -/
  nextHostIdx : ℕ := 0
  /-- `active_probes`. -/
  activeProbes : ℕ := 0
  /-- `hosts_found`. -/
  hostsFound : ℕ := 0
  /-- `next_seq`. -/
  nextSeq : ℕ := 1
  /-- `scan_results`. -/
  scanResults : List PingHostResult := []
  /-- The arguments of the calls made to `result_callback_`, in order. -/
  called : List PingHostResult := []
  deriving Repr

namespace PingScanner

/-! ### Construction and the start of `run()` -/

/-- The constructor's member initializers: the sizes are clamped to the range from above only, and
the size of a packet is computed in 64 bits, where it can wrap. -/
def construct (config : PingScannerConfig) (routedIp : Option ℕ)
    (ifaddrs : Option (List IfAddrs)) (pid : ℕ) : PingScanner where
  baseIp := config.baseIp
  totalHosts := config.totalHosts
  networkInterface :=
    NetworkInterface.fetch routedIp ifaddrs config.baseIp (u32 config.totalHosts)
  payloadLen := config.payloadLen
  maxProbes := min config.maxProbes config.totalHosts
  timeoutMs := config.timeoutMs
  sendBatchSize := safeBatchSize config.sendBatchSize config.totalHosts
  recvBatchSize := safeBatchSize config.recvBatchSize config.totalHosts
  resolveDns := config.resolveDns
  resultCallback := config.resultCallback
  packetBufferSize := (icmpHdrSize + pingPayloadSize + config.payloadLen) % 2 ^ 64
  pid := pid
  padding := config.padding

variable (P : PingScanner)

/-- The tables of a constructed scanner and the buffers that `initialize_buffers` sizes. There is at
least one slot for a message, whatever the batch size. -/
def initializeBuffers : PingState :=
  let sendCount := max 1 P.sendBatchSize
  { probeTable := List.replicate P.maxProbes {}
    hostToProbe := List.replicate P.totalHosts (-1)
    sendPackets := List.replicate (P.packetBufferSize * sendCount % 2 ^ 64) 0
    sendAddrs := List.replicate sendCount 0
    sendProbeSlots := List.replicate sendCount (-1) }

/-- The state at the first loop head of `run()`: the tables are filled with their defaults, the
cache and the counters cleared and the locals initialized. -/
def beginRun (s : PingState) : PingState :=
  { s with
    probeTable := s.probeTable.map fun _ => {}
    hostToProbe := s.hostToProbe.map fun _ => -1
    foundIpsCache := []
    txDrops := 0
    rxQueueOverflows := 0
    echoReplies := 0
    unmatchedReplies := 0
    probeTimeouts := 0
    nextHostIdx := 0
    activeProbes := 0
    hostsFound := 0
    nextSeq := 1
    scanResults := []
    called := [] }

/-- A scanner object on which `run()` can be called: its tables have the sizes that the constructor
gave them. Nothing else is asked, so the object may have run before. -/
structure Sized (s : PingState) : Prop where
  /-- `probe_table_.size()`. -/
  probeTable : s.probeTable.length = P.maxProbes
  /-- `host_to_probe_.size()`. -/
  hostToProbe : s.hostToProbe.length = P.totalHosts
  /-- `send_addrs_.size()`. -/
  sendAddrs : s.sendAddrs.length = max 1 P.sendBatchSize
  /-- `send_probe_slots_.size()`. -/
  sendProbeSlots : s.sendProbeSlots.length = max 1 P.sendBatchSize

/-- A constructed scanner is sized, so `run()` can be called on it at once. -/
theorem sized_initializeBuffers : P.Sized P.initializeBuffers := by
  constructor <;> simp [initializeBuffers]

/-! ### Lookups -/

/-- `find_available_probe_slot`: the first entry of the table that is not active, and `-1` when all
of them are. -/
def findAvailableProbeSlot (s : PingState) : ℤ :=
  match s.probeTable.findIdx? fun p => !p.active with
  | some i => toInt32 i
  | none => -1

/-- `host_index_for_ip`: where an address stands in the range, and `-1` for an address outside
it. -/
def hostIndexForIp (ip : ℕ) : ℤ :=
  if ip < P.baseIp then -1
  else
    let index := ip - P.baseIp
    if index ≥ P.totalHosts then -1 else toInt32 index

/-- `is_host_found`: whether the host has been answered in this call of `run()`. -/
def isHostFound (s : PingState) (ip : ℕ) : Bool := s.foundIpsCache.contains ip

/-- `allocate_sequence`: the sequence number taken and the next one. Zero is stepped over, also when
the counter wraps at 16 bits. -/
def allocateSequence (nextSeq : ℕ) : ℕ × ℕ :=
  let candidate := if nextSeq = 0 then 1 else nextSeq
  let next := u16 (candidate + 1)
  (candidate, if next = 0 then 1 else next)

/-- The entry of `probe_table_` at a slot; where there is none, an entry that is not active. -/
def probeAt (s : PingState) (slot : ℕ) : ProbeInfo := s.probeTable.getD slot {}

/-- The entry of `host_to_probe_` at a host index: the slot of the host, or `-1`. -/
def slotOfHost (s : PingState) (hostIdx : ℕ) : ℤ := s.hostToProbe.getD hostIdx (-1)

/-- `if (active_probes > 0) --active_probes`, the guard with which every function of the source
lowers the counter. -/
def decrementActive (activeProbes : ℕ) : ℕ :=
  if activeProbes > 0 then activeProbes - 1 else activeProbes

/-! ### Sending -/

/-- `release_probe_slot`: give the slot of an active probe back, and clear the host's entry if it
still names this slot. Anything else it is called with is left alone. -/
def releaseProbeSlot (slot : ℤ) (s : PingState) : PingState :=
  if slot < 0 ∨ slot.toNat ≥ s.probeTable.length then s
  else
    let probe := probeAt s slot.toNat
    if !probe.active then s
    else
      let hostIdx := P.hostIndexForIp probe.destIp
      { s with
        hostToProbe :=
          if hostIdx ≥ 0 ∧ slotOfHost s hostIdx.toNat = slot then
            s.hostToProbe.set hostIdx.toNat (-1)
          else s.hostToProbe
        probeTable := s.probeTable.set slot.toNat { probe with active := false }
        activeProbes := decrementActive s.activeProbes }

/-- The filler that `prepare_single_packet` appends, byte by byte (`PAYLOAD_CHAR_MOD` is 26 and
`PAYLOAD_CHAR_OFFSET` 10). -/
def filler (payloadLen : ℕ) : List UInt8 :=
  (List.range payloadLen).map fun i => UInt8.ofNat ((i + 26) % 10)

/-- The bytes of one echo request as they stand in the send buffer: header, payload with its padding
bytes, and filler. -/
def requestBytes (targetIp sequence : ℕ) (sendTs : Timespec) : List UInt8 :=
  let icmp : IcmpHdr :=
    { type := icmpEcho, code := 0, checksum := 0, id := u16 P.pid, sequence := sequence }
  let payload : PingPayload :=
    { targetIp := targetIp, sendSec := sendTs.tvSec, sendNsec := sendTs.tvNsec }
  icmp.encode ++ payload.encode (P.padding targetIp) ++ filler P.payloadLen

/-- `packet_offset` of `prepare_single_packet`, a product of 64-bit words that wraps for huge
packets. -/
def packetOffset (batchCount : ℕ) : ℕ := batchCount * P.packetBufferSize % 2 ^ 64

/-- `prepare_single_packet`: write the request into its part of `send_packets_` and its target into
`send_addrs_`. -/
def prepareSinglePacket (batchCount targetIp sequence : ℕ) (sendTs : Timespec) (s : PingState) :
    PingState :=
  { s with
    sendPackets :=
      writeAt s.sendPackets (P.packetOffset batchCount) (P.requestBytes targetIp sequence sendTs)
    sendAddrs := s.sendAddrs.set batchCount targetIp }

/-- The skip test of `populate_batch_entries` for the local subnet's own addresses: the network and
the broadcast address of the interface, if the range lies in its subnet. -/
def skipsLocal (targetIp : ℕ) : Bool :=
  P.networkInterface.isLocal &&
    (targetIp == P.networkInterface.networkIp || targetIp == P.networkInterface.broadcastIp)

/-- The end of the loop body of `populate_batch_entries`: slot `slot` is claimed for `targetIp`, its
packet is written at the end of the batch, and the cursor moves on. -/
def claimSlot (sendTs : Timespec) (targetIp : ℕ) (hostIdx slot : ℤ) (batchCount : ℕ)
    (s : PingState) : PingState :=
  let seq := allocateSequence s.nextSeq
  let s := { s with
    nextSeq := seq.2
    probeTable := s.probeTable.set slot.toNat
      { active := true, destIp := targetIp, seq := seq.1, sendTime := sendTs }
    hostToProbe := s.hostToProbe.set hostIdx.toNat slot }
  let s := P.prepareSinglePacket batchCount targetIp seq.1 sendTs s
  { s with
    sendProbeSlots := s.sendProbeSlots.set batchCount slot
    nextHostIdx := s.nextHostIdx + 1
    activeProbes := s.activeProbes + 1 }

/-- One turn of the loop of `populate_batch_entries`: the state and `batch_count` after it, or
`none` when the loop ends. -/
def populateStep (sendTs : Timespec) (s : PingState) (batchCount : ℕ) :
    Option (PingState × ℕ) :=
  if s.nextHostIdx < P.totalHosts ∧ s.activeProbes < P.maxProbes ∧ batchCount < P.sendBatchSize then
    if findAvailableProbeSlot s < 0 then none
    else
      let targetIp := u32 (P.baseIp + u32 s.nextHostIdx)
      if P.skipsLocal targetIp then some ({ s with nextHostIdx := s.nextHostIdx + 1 }, batchCount)
      else
        let hostIdx := P.hostIndexForIp targetIp
        if hostIdx < 0 ∨ isHostFound s targetIp ∨ slotOfHost s hostIdx.toNat ≥ 0 then
          some ({ s with nextHostIdx := s.nextHostIdx + 1 }, batchCount)
        else
          let slot := findAvailableProbeSlot s
          if slot < 0 then none
          else some (P.claimSlot sendTs targetIp hostIdx slot batchCount s, batchCount + 1)
  else none

/-- The loop of `populate_batch_entries`; every turn advances the cursor, so the hosts left bound
the number of turns. -/
def populateLoop (sendTs : Timespec) : (hostsLeft : ℕ) → PingState → ℕ → PingState × ℕ
  | 0, s, batchCount => (s, batchCount)
  | hostsLeft + 1, s, batchCount =>
    match P.populateStep sendTs s batchCount with
    | none => (s, batchCount)
    | some (s', batchCount') => populateLoop sendTs hostsLeft s' batchCount'

/-- `populate_batch_entries` on an empty batch: the state it leaves and the size of the batch, which
may be zero. -/
def populateBatchEntries (sendTs : Timespec) (s : PingState) : PingState × ℕ :=
  P.populateLoop sendTs (P.totalHosts - s.nextHostIdx) s 0

/-! ### Receiving -/

/-- The loop of `extract_control_data`: the time to live, the receive time and the overflow
counter after the control messages. -/
def extractControlData (recvNow : Timespec) (control : List ControlMessage)
    (rxQueueOverflows : ℕ) : ℤ × Timespec × ℕ :=
  let step := fun (acc : ℤ × Option Timespec × ℕ) (c : ControlMessage) =>
    match c with
    | .ipTtl ttl => (ttl, acc.2.1, acc.2.2)
    | .timestampns ts => (acc.1, some ts, acc.2.2)
    | .rxqOvfl drops => (acc.1, acc.2.1, max drops acc.2.2)
    | .other => acc
  let out := control.foldl step (-1, none, rxQueueOverflows)
  -- without a kernel timestamp the clock is read
  (out.1, out.2.1.getD recvNow, out.2.2)

/-- The end of `process_received_packet`, for a reply that is accepted: cache it, free the slot its
host still holds, report it. `dns` is the resolver's answer; with `throws` the callback leaves by
an exception, and the second component is true. -/
def acceptReply (recvTs : Timespec) (ttl : ℤ) (dns : Option String) (throws : Bool)
    (payload : PingPayload) (hostIdx : ℕ) (s : PingState) : PingState × Bool :=
  let diffNs := recvTs.elapsedNs ⟨payload.sendSec, payload.sendNsec⟩
  let rttNs := max 0 diffNs
  let s := { s with
    foundIpsCache := s.foundIpsCache ++ [payload.targetIp]
    hostsFound := s.hostsFound + 1 }
  let slot := slotOfHost s hostIdx
  let s :=
    if slot ≥ 0 ∧ slot.toNat < s.probeTable.length then
      let probe := probeAt s slot.toNat
      let s :=
        if probe.active ∧ probe.destIp = payload.targetIp then
          { s with
            probeTable := s.probeTable.set slot.toNat { probe with active := false }
            activeProbes := decrementActive s.activeProbes }
        else s
      { s with hostToProbe := s.hostToProbe.set hostIdx (-1) }
    else s
  let result : PingHostResult :=
    { ip := payload.targetIp
      ipStr := formatIp payload.targetIp
      hostname := if P.resolveDns then resolveHostname dns else "N/A"
      rttNs := rttNs
      ttl := ttl }
  let s := if P.resultCallback then { s with called := s.called ++ [result] } else s
  if P.resultCallback && throws then (s, true)
  else ({ s with scanResults := s.scanResults ++ [result] }, false)

/-- `process_received_packet`: the tests in the order of the source, with the counter that each of
them raises, and `acceptReply` behind the last one. A short datagram is counted as unmatched before
its type is looked at. -/
def processReceivedPacket (recvTs : Timespec) (ttl : ℤ) (dns : Option String) (throws : Bool)
    (d : Datagram) (s : PingState) : PingState × Bool :=
  if d.bytes.length < icmpHdrSize + pingPayloadSize then
    ({ s with unmatchedReplies := u32 (s.unmatchedReplies + 1) }, false)
  else if d.icmp.type ≠ icmpEchoReply then (s, false)
  else
    let s := { s with echoReplies := u32 (s.echoReplies + 1) }
    let unmatched := { s with unmatchedReplies := u32 (s.unmatchedReplies + 1) }
    let payload := d.payload
    if d.srcIp ≠ payload.targetIp then (unmatched, false)
    else
      let hostIdx := P.hostIndexForIp payload.targetIp
      if hostIdx < 0 then (unmatched, false)
      else if isHostFound s payload.targetIp then (unmatched, false)
      else P.acceptReply recvTs ttl dns throws payload hostIdx.toNat s

/-- The body of the message loop of `receive_responses`: datagrams shorter than an ICMP header are
skipped, the others go through `extract_control_data` and `process_received_packet`. -/
def receiveMessage (recvNow : Timespec) (dns : Option String) (throws : Bool) (d : Datagram)
    (s : PingState) : PingState × Bool :=
  if d.bytes.length < icmpHdrSize then (s, false)
  else
    let (ttl, recvTs, overflows) := extractControlData recvNow d.control s.rxQueueOverflows
    P.processReceivedPacket recvTs ttl dns throws d { s with rxQueueOverflows := overflows }

/-! ### Reaping -/

/-- `timeout_ns` of `reap_timed_out_probes`, the timeout in nanoseconds. -/
def timeoutNs : ℤ := P.timeoutMs * nanosecondsPerMillisecond

/-- The loop body of `reap_timed_out_probes`: a probe whose age exceeds the timeout is retired and
counted, any other one is left alone. -/
def reapSlot (now : Timespec) (s : PingState) (slot : ℕ) : PingState :=
  let probe := probeAt s slot
  if !probe.active then s
  else if now.elapsedNs probe.sendTime > P.timeoutNs then
    let hostIdx := P.hostIndexForIp probe.destIp
    { s with
      hostToProbe :=
        if hostIdx ≥ 0 ∧ slotOfHost s hostIdx.toNat = toInt32 slot then
          s.hostToProbe.set hostIdx.toNat (-1)
        else s.hostToProbe
      probeTable := s.probeTable.set slot { probe with active := false }
      activeProbes := decrementActive s.activeProbes
      probeTimeouts := u32 (s.probeTimeouts + 1) }
  else s

/-- `reap_timed_out_probes`, at the clock value `now`, which the source reads once before the loop
over all slots. -/
def reapTimedOutProbes (now : Timespec) (s : PingState) : PingState :=
  (List.range s.probeTable.length).foldl (P.reapSlot now) s

end PingScanner

end Netscan
