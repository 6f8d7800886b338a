import Netscan.Ping.Termination
import Netscan.Tcp.Termination

/-! # The command line tool

`main.cpp` fills a `Config` from its options, and `execute_network_scan` builds a scanner from it
and runs it. Which of these runs end is decided by the two sizes that open the gates of the
scanners' sending loops and, in a ping scan, by the timeout, which the wait for a writable socket
hands to `epoll_wait` as an `int`. -/

namespace Netscan

open MachineInt LabelledSystem

/-- `Config`, as far as `execute_network_scan` reads it, with the defaults of its fields. -/
structure Config where
  /-- `cidr_arg`. -/
  cidrArg : CString := []
  /-- `mode`. -/
  mode : String := "ping"
  /-- `port`. -/
  port : ℕ := 443
  /-- `payload_len`. -/
  payloadLen : ℕ := 0
  /-- `max_probes`. -/
  maxProbes : ℕ := 4096
  /-- `timeout_ms`; `0` stands for the default of the mode. -/
  timeoutMs : ℕ := 0
  /-- `send_batch`. -/
  sendBatch : ℕ := 4
  /-- `recv_batch`. -/
  recvBatch : ℕ := 128
  /-- `resolve_dns`. -/
  resolveDns : Bool := true

/-- The scan that `execute_network_scan` runs, by its mode. -/
inductive Scan where
  /-- A ping scan. -/
  | ping (config : PingScannerConfig)
  /-- A TCP scan. -/
  | tcp (config : TcpScannerConfig)

/-- The number of hosts of a scan, of either mode. -/
def Scan.totalHosts : Scan → ℕ
  | .ping config => config.totalHosts
  | .tcp config => config.totalHosts

/-- `timeout_ms` of `execute_network_scan`: the default depends on the mode. -/
def Config.resolveTimeout (config : Config) : ℕ :=
  if config.timeoutMs = 0 then if config.mode = "tcp" then 600 else 800 else config.timeoutMs

/-- `execute_network_scan` up to the construction of the scanner; `none` when it returns with an
error. Its callback prints the result. The padding bytes of requests stay at the model's default
here, as nothing in this file reads them. -/
def executeNetworkScan (config : Config) : Option Scan :=
  match parseCidr config.cidrArg with
  | none => none
  | some (baseIp, totalHosts) =>
    let timeoutMs := config.resolveTimeout
    if config.mode = "ping" then
      some (.ping
        { baseIp := baseIp
          totalHosts := totalHosts
          payloadLen := config.payloadLen
          maxProbes := config.maxProbes
          timeoutMs := timeoutMs
          sendBatchSize := config.sendBatch
          recvBatchSize := config.recvBatch
          resolveDns := config.resolveDns
          resultCallback := true })
    else if config.mode = "tcp" then
      some (.tcp
        { baseIp := baseIp
          totalHosts := totalHosts
          targetPort := config.port
          maxProbes := config.maxProbes
          timeoutMs := timeoutMs
          batchSize := config.sendBatch
          resolveDns := config.resolveDns
          resultCallback := true })
    else none

/-- Whatever a fair environment does, `run()` on the constructed scanner is left. -/
def Scan.Ends (routedIp : Option ℕ) (ifaddrs : Option (List IfAddrs)) (pid : ℕ) : Scan → Prop
  | .ping config =>
    ∀ (k : PingKernel) (e : Execution (PingScanner.construct config routedIp ifaddrs pid).step),
      e.state 0 = PingScanner.start
        (PingScanner.construct config routedIp ifaddrs pid).initializeBuffers k →
      PingScanner.Fair e → ∃ i, (e.state i).pc.isFinal = true
  | .tcp config =>
    ∀ (clock : Timespec) (e : Execution (TcpScanner.construct config routedIp ifaddrs).step),
      e.state 0 = TcpScanner.start (TcpScanner.construct config routedIp ifaddrs).initialState
        clock →
      TcpScanner.Fair e → ∃ i, (e.state i).pc.isFinal = true

/-- No message of the ping scan can wait without a time limit for room in the socket: the timeout is
not negative as an `int`, or there is no message, as all hosts are the network and the broadcast
address of the interface itself. -/
def PingScannerConfig.WaitsEnd (config : PingScannerConfig) (routedIp : Option ℕ)
    (ifaddrs : Option (List IfAddrs)) : Prop :=
  0 ≤ toInt32 config.timeoutMs ∨
    ∀ h < config.totalHosts, IsSubnetAddress routedIp ifaddrs (config.baseIp + h)

/-- The sending loops can go on: there is nothing to send, or both of the sizes that open their
gates are positive and no wait for room is without a time limit. In a TCP scan a batch size of
`2 ^ 31` or more becomes negative as `max_events`, and the first `poll_connections` throws. -/
def Scan.CanProceed (config : Config) (routedIp : Option ℕ) (ifaddrs : Option (List IfAddrs)) :
    Scan → Prop
  | .ping scan => scan.totalHosts = 0 ∨
      0 < config.maxProbes ∧ 0 < config.sendBatch ∧ scan.WaitsEnd routedIp ifaddrs
  | .tcp scan => scan.totalHosts = 0 ∨ 0 < config.maxProbes ∧ 0 < config.sendBatch ∨
      2 ^ 31 ≤ config.sendBatch ∧ 2 ^ 31 ≤ scan.totalHosts

/-- A scan is over the range that `parse_cidr` read and has the sizes of the options. -/
theorem executeNetworkScan_cases {config : Config} {scan : Scan}
    (h : executeNetworkScan config = some scan) :
    (∃ ping, scan = .ping ping ∧ parseCidr config.cidrArg = some (ping.baseIp, ping.totalHosts) ∧
      ping.maxProbes = config.maxProbes ∧ ping.sendBatchSize = config.sendBatch) ∨
    ∃ tcp, scan = .tcp tcp ∧ parseCidr config.cidrArg = some (tcp.baseIp, tcp.totalHosts) ∧
      tcp.maxProbes = config.maxProbes ∧ tcp.batchSize = config.sendBatch := by
  unfold executeNetworkScan at h
  split at h
  · cases h
  · rename_i baseIp totalHosts hparse
    -- the range was parsed; the mode decides which scanner gets it
    dsimp only at h
    split at h
    · cases h
      exact .inl ⟨_, rfl, hparse, rfl, rfl⟩
    · split at h
      · cases h
        exact .inr ⟨_, rfl, hparse, rfl, rfl⟩
      · cases h

/-- When a ping scan ends, whatever the hosts and the network do, in a fair environment. -/
theorem ping_ends_iff {input : CString} {config : PingScannerConfig}
    (hparse : parseCidr input = some (config.baseIp, config.totalHosts)) (routedIp : Option ℕ)
    (ifaddrs : Option (List IfAddrs)) (pid : ℕ) :
    (Scan.ping config).Ends routedIp ifaddrs pid ↔ config.totalHosts = 0 ∨
      0 < config.maxProbes ∧ 0 < config.sendBatchSize ∧ config.WaitsEnd routedIp ifaddrs := by
  have hP := PingScanner.ranged_construct hparse routedIp ifaddrs pid
  have hs := PingScanner.sized_initializeBuffers (PingScanner.construct config routedIp ifaddrs pid)
  have hprobes : (PingScanner.construct config routedIp ifaddrs pid).maxProbes =
      min config.maxProbes config.totalHosts := rfl
  have hbatch : (PingScanner.construct config routedIp ifaddrs pid).sendBatchSize =
      safeBatchSize config.sendBatchSize config.totalHosts := rfl
  have hskips : ∀ h < config.totalHosts,
      (PingScanner.construct config routedIp ifaddrs pid).skipsLocal (config.baseIp + h) = true ↔
        IsSubnetAddress routedIp ifaddrs (config.baseIp + h) :=
    fun h hlt => PingScanner.skipsLocal_construct hP hlt
  have hopen : 0 < config.totalHosts → 0 < config.maxProbes → 0 < config.sendBatchSize →
      0 < (PingScanner.construct config routedIp ifaddrs pid).maxProbes ∧
        0 < (PingScanner.construct config routedIp ifaddrs pid).sendBatchSize := by
    intro htotal hmax hsend
    rw [hprobes, hbatch, safeBatchSize_pos]
    omega
  constructor
  · intro hends
    by_contra hgate
    push Not at hgate
    obtain ⟨hne, hgate⟩ := hgate
    have htotal : 0 < config.totalHosts := Nat.pos_of_ne_zero hne
    -- a run that is never left: round and round the loop, or in the wait for room
    obtain ⟨k, e, hstart, hfair, hnever⟩ : ∃ (k : PingKernel)
        (e : Execution (PingScanner.construct config routedIp ifaddrs pid).step),
        e.state 0 = PingScanner.start
          (PingScanner.construct config routedIp ifaddrs pid).initializeBuffers k ∧
        PingScanner.Fair e ∧ ∀ i, (e.state i).pc.isFinal = false := by
      by_cases hsizes : 0 < config.maxProbes ∧ 0 < config.sendBatchSize
      · have hwaits := hgate hsizes.1 hsizes.2
        rw [PingScannerConfig.WaitsEnd] at hwaits
        push Not at hwaits
        obtain ⟨hneg, h, hlt, hprobed⟩ := hwaits
        obtain ⟨hmax, hsend⟩ := hopen htotal hsizes.1 hsizes.2
        exact PingScanner.exists_stuck hP hs hmax hsend hlt
          (Bool.eq_false_iff.mpr fun hskip => hprobed ((hskips h hlt).mp hskip)) hneg
      · refine PingScanner.exists_endless
          (PingScanner.construct config routedIp ifaddrs pid).initializeBuffers htotal ?_
        rw [hprobes, hbatch, safeBatchSize]
        omega
    obtain ⟨i, hi⟩ := hends k e hstart hfair
    rw [hnever i] at hi
    cases hi
  · rintro hgate k e hstart hfair
    rcases Nat.eq_zero_or_pos config.totalHosts with hzero | htotal
    · exact PingScanner.ends_of_empty hP hs hzero hstart hfair
    · obtain hzero | ⟨hmax, hsend, hwaits⟩ := hgate
      · omega
      · refine PingScanner.ends_of_fair hP hs (hopen htotal hmax hsend).1
          (hopen htotal hmax hsend).2 hstart hfair fun i => ?_
        rcases hwaits with htimeout | hall
        · exact PingScanner.not_blocks_of_timeout
            (P := PingScanner.construct config routedIp ifaddrs pid) htimeout (e.state i)
        · have hreach := e.reachable i
          rw [hstart] at hreach
          exact PingScanner.not_blocks_of_skipped hP hs
            (fun h hlt => (hskips h hlt).mpr (hall h hlt)) hreach

/-- When a TCP scan ends, in a fair environment: its gates are open, or `max_events` is negative and
`epoll_wait` throws. -/
theorem tcp_ends_iff {input : CString} {config : TcpScannerConfig}
    (hparse : parseCidr input = some (config.baseIp, config.totalHosts)) (routedIp : Option ℕ)
    (ifaddrs : Option (List IfAddrs)) (pid : ℕ) :
    (Scan.tcp config).Ends routedIp ifaddrs pid ↔
      config.totalHosts = 0 ∨ 0 < config.maxProbes ∧ 0 < config.batchSize ∨
        2 ^ 31 ≤ config.batchSize ∧ 2 ^ 31 ≤ config.totalHosts := by
  have hP := TcpScanner.ranged_construct hparse routedIp ifaddrs
  have hs := TcpScanner.idle_initialState (TcpScanner.construct config routedIp ifaddrs)
  have hhosts : config.totalHosts ≤ 2 ^ 31 := hP.hosts
  have hprobes : (TcpScanner.construct config routedIp ifaddrs).maxProbes =
      min config.maxProbes config.totalHosts := rfl
  have hbatch : (TcpScanner.construct config routedIp ifaddrs).batchSize =
      min (min config.batchSize config.totalHosts) (2 ^ 32 - 1) := rfl
  constructor
  · intro hends
    by_contra hgate
    have htotal : 0 < config.totalHosts := by omega
    have hevents : (TcpScanner.construct config routedIp ifaddrs).maxEvents =
        min config.batchSize config.totalHosts := by
      rw [TcpScanner.maxEvents, hbatch, toInt32_of_lt (by omega)]
      omega
    -- with a closed gate and a size that keeps its sign, the loop turns forever
    obtain ⟨clock, e, hstart, hfair, hnever⟩ := TcpScanner.exists_endless hs htotal (by
      rw [hprobes, hbatch]
      omega) (by
      rw [hevents]
      omega)
    obtain ⟨i, hi⟩ := hends clock e hstart hfair
    rw [hnever i] at hi
    cases hi
  · rintro hgate clock e hstart hfair
    -- without hosts the loop is not entered
    rcases Nat.eq_zero_or_pos config.totalHosts with hzero | htotal
    · exact TcpScanner.ends_of_empty hzero hstart hfair
    · rcases hgate with hzero | hgate | hlarge
      · omega
      · refine TcpScanner.ends_of_fair hP hs ?_ ?_ hstart hfair
        · rw [hprobes]
          omega
        · rw [hbatch]
          omega
      -- a batch of `2 ^ 31` makes `max_events` negative
      · refine TcpScanner.ends_of_negative ?_ hstart hfair
        have hsize : (TcpScanner.construct config routedIp ifaddrs).batchSize = 2 ^ 31 := by
          rw [hbatch]
          omega
        rw [TcpScanner.maxEvents, hsize]
        decide

/-- **When a scan ends.** A scan that `execute_network_scan` builds ends in every fair environment
if and only if its sending loop can go on. -/
theorem scan_ends_iff {config : Config} {scan : Scan}
    (hscan : executeNetworkScan config = some scan) (routedIp : Option ℕ)
    (ifaddrs : Option (List IfAddrs)) (pid : ℕ) :
    scan.Ends routedIp ifaddrs pid ↔ scan.CanProceed config routedIp ifaddrs := by
  rcases executeNetworkScan_cases hscan with
    ⟨ping, rfl, hparse, hprobes, hbatch⟩ | ⟨tcp, rfl, hparse, hprobes, hbatch⟩
  · rw [ping_ends_iff hparse, hprobes, hbatch]
    rfl
  · rw [tcp_ends_iff hparse, hprobes, hbatch]
    rfl

/-- The ping scan of `10.0.0.8/31` with the default options ends. -/
theorem scan_ends_iff_pair :
    ∃ scan, executeNetworkScan { cidrArg := [49, 48, 46, 48, 46, 48, 46, 56, 47, 51, 49] } =
      some scan ∧ scan.totalHosts = 2 ∧ scan.Ends none none 7 := by
  refine ⟨_, rfl, by decide, ?_⟩
  exact (@scan_ends_iff { cidrArg := [49, 48, 46, 48, 46, 48, 46, 56, 47, 51, 49] } _ rfl none none
    7).mpr (.inr ⟨by decide, by decide, .inl (by decide)⟩)

/-- The ping scan and the TCP scan of `10.0.0.8/31` with the option `-s 0`, and the ping scan with
`-t 2147483648`: none of them ends. -/
theorem not_scan_ends :
    (∃ scan, executeNetworkScan
        { cidrArg := [49, 48, 46, 48, 46, 48, 46, 56, 47, 51, 49], sendBatch := 0 } =
      some scan ∧ ¬ scan.Ends none none 7) ∧
    (∃ scan, executeNetworkScan
        { cidrArg := [49, 48, 46, 48, 46, 48, 46, 56, 47, 51, 49], mode := "tcp", sendBatch := 0 } =
      some scan ∧ ¬ scan.Ends none none 7) ∧
    ∃ scan, executeNetworkScan
        { cidrArg := [49, 48, 46, 48, 46, 48, 46, 56, 47, 51, 49], timeoutMs := 2147483648 } =
      some scan ∧ ¬ scan.Ends none none 7 := by
  have hparse : parseCidr [49, 48, 46, 48, 46, 48, 46, 56, 47, 51, 49] = some (167772168, 2) := by
    decide
  refine ⟨⟨_, rfl, ?_⟩, ⟨_, rfl, ?_⟩, ⟨_, rfl, ?_⟩⟩
  · rw [ping_ends_iff hparse]
    rintro (hzero | ⟨-, hsend, -⟩)
    · exact absurd hzero (by decide)
    · exact absurd hsend (by decide)
  · rw [tcp_ends_iff hparse]
    decide
  · rw [ping_ends_iff hparse]
    rintro (hzero | ⟨-, -, htimeout | hall⟩)
    · exact absurd hzero (by decide)
    · exact absurd htimeout (by decide)
    · -- no interface is selected, so there is no address to be passed over
      obtain ⟨a, m, hselected, -⟩ := hall 0 (by decide)
      cases hselected

end Netscan
