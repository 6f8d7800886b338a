import Netscan.Lib.MachineInt
import Netscan.Utils.Interface

/-! # The TCP scanner: state and member functions

`TcpScanner` holds the members that never change after construction, `TcpState` the probe table
together with the locals of `run()` that its member functions update by reference. What the member
functions do to sockets is in the next module; here are their effects on the scanner's own state,
with what the kernel, the resolver or the callback decides as arguments. -/

namespace Netscan

open MachineInt

/-- `TcpHostResult`. The round-trip time is kept in nanoseconds, clamped at zero: `rtt_ms` is this
number divided by `10 ^ 6` as a `double`. -/
structure TcpHostResult where
  /-- The host. -/
  ip : ℕ
  /-- Its dotted-quad text. -/
  ipStr : String
  /-- Its name, or `N/A`. -/
  hostname : String
  /-- The open port. -/
  port : ℕ
  /-- Time to connect in nanoseconds. -/
  rttNs : ℤ
  deriving DecidableEq, Repr

/-- `TcpScannerConfig`, with the defaults of the source. `resultCallback` says whether a callback is
set; what a call of it does is decided by a label. -/
structure TcpScannerConfig where
  /-- First address of the range. -/
  baseIp : ℕ := 0
  /-- Number of addresses. -/
  totalHosts : ℕ := 0
  /-- The port to connect to. -/
  targetPort : ℕ := 443
  /-- Concurrent probes. -/
  maxProbes : ℕ := 4096
  /-- Probe timeout. -/
  timeoutMs : ℕ := 600
  /-- Connections started, and events fetched, in one turn of the loop. -/
  batchSize : ℕ := 64
  /-- Whether names are resolved. -/
  resolveDns : Bool := true
  /-- Whether a callback is set. -/
  resultCallback : Bool := false
  deriving Repr

/-- `TcpScanner::ProbeInfo`, one entry of `probe_table_`. An entry that is not active keeps its old
descriptor, which may be in use again elsewhere. -/
structure TcpProbeInfo where
  /-- The slot is in use. -/
  active : Bool := false
  /-- Its socket. -/
  sock : ℤ := -1
  /-- The probed host. -/
  destIp : ℕ := 0
  /-- Recorded send time. -/
  sendTime : Timespec := {}
  deriving DecidableEq, Repr

/-- The members of `TcpScanner` that the constructor fixes and no member function changes. -/
structure TcpScanner where
  /-- `base_ip_`. -/
  baseIp : ℕ
  /-- `total_hosts_`. -/
  totalHosts : ℕ
  /-- `network_interface_`. -/
  networkInterface : NetworkInterface
  /-- `target_port_`. -/
  targetPort : ℕ
  /-- `max_probes_`. -/
  maxProbes : ℕ
  /-- `timeout_ms_`. -/
  timeoutMs : ℕ
  /-- `batch_size_`. -/
  batchSize : ℕ
  /-- `resolve_dns_`. -/
  resolveDns : Bool
  /-- Whether `result_callback_` is set. -/
  resultCallback : Bool

/-- `probe_table_` and the locals of `run()`. The table is all that a call leaves to the next
one. -/
structure TcpState where
  /-- `probe_table_`. -/
  probeTable : List TcpProbeInfo
  /-- `next_host_idx`. -/
  nextHostIdx : ℕ := 0
  /-- `active_probes`. -/
  activeProbes : ℕ := 0
  /-- `hosts_found`. -/
  hostsFound : ℕ := 0
  /-- `scan_results`. -/
  scanResults : List TcpHostResult := []
  /-- The arguments of the calls made to `result_callback_`, in order. -/
  called : List TcpHostResult := []
  deriving Repr

namespace TcpScanner

/-! ### Construction and the start of `run()` -/

/-- The constructor's member initializers; without an epoll descriptor it throws, and there is no
scanner. -/
def construct (config : TcpScannerConfig) (routedIp : Option ℕ) (ifaddrs : Option (List IfAddrs)) :
    TcpScanner where
  baseIp := config.baseIp
  totalHosts := config.totalHosts
  networkInterface :=
    NetworkInterface.fetch routedIp ifaddrs config.baseIp (u32 config.totalHosts)
  targetPort := config.targetPort
  maxProbes := min config.maxProbes config.totalHosts
  timeoutMs := config.timeoutMs
  batchSize := safeBatchSize config.batchSize config.totalHosts
  resolveDns := config.resolveDns
  resultCallback := config.resultCallback

variable (P : TcpScanner)

/-- The probe table of a constructed scanner: as many entries as probes are allowed, none of them
active. -/
def initialState : TcpState := { probeTable := List.replicate P.maxProbes {} }

/-- The state at the first loop head of `run()`: the locals are initialized, and the table is used
as it is. -/
def beginRun (s : TcpState) : TcpState := { probeTable := s.probeTable }

/-- A scanner object none of whose probes is active: a constructed one, or one whose last run
returned (`idle_of_returned`). -/
structure Idle (s : TcpState) : Prop where
  /-- `probe_table_.size()`. -/
  probeTable : s.probeTable.length = P.maxProbes
  /-- No probe is active. -/
  inactive : ∀ p ∈ s.probeTable, p.active = false

/-- A constructed scanner is idle, so the results about a first call apply to it. -/
theorem idle_initialState : P.Idle P.initialState where
  probeTable := List.length_replicate
  inactive p hp := by
    obtain ⟨-, rfl⟩ := List.mem_replicate.mp hp
    rfl

/-! ### Connecting -/

/-- The address of the host at the cursor, as the source computes it in 32 bits. -/
def targetIp (s : TcpState) : ℕ := u32 (P.baseIp + u32 s.nextHostIdx)

/-- The skip test of `initiate_single_connection` for the local subnet's own addresses: the network
and the broadcast address of the interface, if the range lies in its subnet. -/
def skipsLocal (targetIp : ℕ) : Bool :=
  P.networkInterface.isLocal &&
    (targetIp == P.networkInterface.networkIp || targetIp == P.networkInterface.broadcastIp)

/-- The slot search of `initiate_single_connection`: the first entry that is not active, or `-1`. -/
def findSlot (s : TcpState) : ℤ :=
  match s.probeTable.findIdx? fun p => !p.active with
  | some i => toInt32 i
  | none => -1

/-- The entry of `probe_table_` at a slot; where there is none, an entry that is not active. -/
def probeAt (s : TcpState) (slot : ℕ) : TcpProbeInfo := s.probeTable.getD slot {}

/-- The end of `initiate_single_connection`: the slot is claimed for a registered socket, with the
time read after the `connect` call. -/
def claimSlot (slot : ℕ) (sock : ℤ) (targetIp : ℕ) (now : Timespec) (s : TcpState) : TcpState :=
  { s with
    probeTable := s.probeTable.set slot
      { active := true, sock := sock, destIp := targetIp, sendTime := now }
    activeProbes := s.activeProbes + 1 }

/-- The test of the loop of `initiate_connections`: hosts, slots and the batch must all have
something left. -/
def Initiates (s : TcpState) (initiated : ℕ) : Prop :=
  s.nextHostIdx < P.totalHosts ∧ s.activeProbes < P.maxProbes ∧ initiated < P.batchSize

instance (s : TcpState) (initiated : ℕ) : Decidable (P.Initiates s initiated) :=
  inferInstanceAs (Decidable (_ ∧ _ ∧ _))

/-! ### Polling and reaping -/

/-- `max_events` of `poll_connections`, a cast to `int` that is negative for batches of `2 ^ 31` and
more. -/
def maxEvents : ℤ := toInt32 P.batchSize

/-- The end of a probe: its entry becomes inactive and `active_probes` is decremented, as a 64-bit
word and without a guard. -/
def retire (slot : ℕ) (s : TcpState) : TcpState :=
  { s with
    probeTable := s.probeTable.set slot { probeAt s slot with active := false }
    activeProbes := subU64 s.activeProbes 1 }

/-- The result of a probe that connected. `dns` is the resolver's answer. -/
def probeResult (now : Timespec) (dns : Option String) (probe : TcpProbeInfo) : TcpHostResult :=
  { ip := probe.destIp
    ipStr := formatIp probe.destIp
    hostname := if P.resolveDns then resolveHostname dns else "N/A"
    port := P.targetPort
    rttNs := max 0 (now.elapsedNs probe.sendTime) }

/-- The end of the loop body of `poll_connections` for a probe whose socket has no error: call back,
and store the result unless its address is there already. With `throws` the callback leaves by an
exception, and the second component is true. -/
def report (throws : Bool) (result : TcpHostResult) (s : TcpState) : TcpState × Bool :=
  let s := if P.resultCallback then { s with called := s.called ++ [result] } else s
  if P.resultCallback && throws then (s, true)
  else if s.scanResults.any fun r => r.ip == result.ip then (s, false)
  else
    ({ s with scanResults := s.scanResults ++ [result], hostsFound := s.hostsFound + 1 }, false)

/-- `timeout_ms_` in nanoseconds, the bound that the reap compares an age with. -/
def timeoutNs : ℤ := P.timeoutMs * nanosecondsPerMillisecond

/-- The test of `reap_timed_out_probes` on an entry: it is active and older than the timeout.
Whether its socket has connected is not asked. -/
def Overdue (now : Timespec) (probe : TcpProbeInfo) : Prop :=
  probe.active = true ∧ now.elapsedNs probe.sendTime > P.timeoutNs

instance (now : Timespec) (probe : TcpProbeInfo) : Decidable (P.Overdue now probe) :=
  inferInstanceAs (Decidable (_ ∧ _))

end TcpScanner

end Netscan
