import Netscan.Lib.LastWins
import Netscan.Ping.Network
import Netscan.Ping.ReplyOrder
import Netscan.TimeOverflow

/-! # What the records of a scan are measured on

A record may be made of any of the replies of its host, late ones and copies included. Since a host
is sent to once, the send time that comes back in each of them is that of the host's own request, so
the round-trip time in the record is the time from this request to the reply, as the kernel has
stamped it. -/

namespace Netscan

open MachineInt LabelledSystem

/-! ### Ancillary data -/

/-- The time to live that a control message tells, if it is of that kind. -/
def ControlMessage.ttl? : ControlMessage → Option ℤ
  | .ipTtl ttl => some ttl
  | _ => none

/-- The receive time that a control message tells, if it is of that kind. -/
def ControlMessage.stamp? : ControlMessage → Option Timespec
  | .timestampns ts => some ts
  | _ => none

/-- The time to live of a datagram, if the kernel tells it. -/
def Datagram.ttl? (d : Datagram) : Option ℤ := (d.control.filterMap ControlMessage.ttl?).getLast?

/-- The kernel's receive time of a datagram, if the kernel tells it. -/
def Datagram.stamp? (d : Datagram) : Option Timespec :=
  (d.control.filterMap ControlMessage.stamp?).getLast?

namespace PingScanner

/-- `extract_control_data` takes the last time to live and the last receive time. -/
theorem read_extractControlData (recvNow : Timespec) (d : Datagram) (rxQueueOverflows : ℕ) :
    (extractControlData recvNow d.control rxQueueOverflows).1 = d.ttl?.getD (-1) ∧
      (extractControlData recvNow d.control rxQueueOverflows).2.1 = d.stamp?.getD recvNow := by
  unfold extractControlData
  constructor
  · refine Option.some.inj ((LastWins.foldl_getLast?
      (fun acc : ℤ × Option Timespec × ℕ => some acc.1) ControlMessage.ttl? (fun acc c => ?_)
      (-1, none, rxQueueOverflows) d.control).trans Option.or_some)
    cases c <;> rfl
  · refine congrArg (·.getD recvNow) ((LastWins.foldl_getLast?
      (fun acc : ℤ × Option Timespec × ℕ => acc.2.1) ControlMessage.stamp? (fun acc c => ?_)
      (-1, none, rxQueueOverflows) d.control).trans Option.or_none)
    cases c <;> rfl

variable {P : PingScanner} {s s' s₀ : PingState} {k : PingKernel} {w w' : PingWorld}
  {l : PingLabel} {v : Network} {alive : ℕ → Bool} {d : Datagram}

/-! ### Records of a run -/

/-- The body of the message loop adds at most the result of its datagram. -/
theorem isResultOf_receiveMessage {recvNow : Timespec} {dns : Option String} {throws : Bool}
    {r : PingHostResult} (h : r ∈ (P.receiveMessage recvNow dns throws d s).1.scanResults) :
    r ∈ s.scanResults ∨ P.IsResultOf [d] r := by
  have hexit := P.handles_receiveMessage recvNow dns throws d s
  generalize P.receiveMessage recvNow dns throws d s = out at h hexit
  cases hexit with
  | discovered hdisc =>
    rw [hdisc.1.2.1, acceptReply_eq_settle, report_fst] at h
    dsimp only at h
    split_ifs at h
    · -- the callback throws before the result is appended
      exact .inl h
    · rcases List.mem_append.mp h with hold | hnew
      · exact .inl hold
      · rw [List.mem_singleton.mp hnew]
        exact .inr ⟨d, List.mem_singleton_self d, hdisc.1, hdisc.1.2.1.symm, recvNow, _, dns, rfl⟩
  | _ => exact .inl h

/-- Every record of a run is the result of a datagram that was handled. -/
theorem isResultOf_of_reachable (hw : Reachable P.step (start s₀ k) w) :
    ∀ r ∈ w.st.scanResults, P.IsResultOf (handledDatagrams w.trace) r := by
  refine hw.invariant (I := fun w => ∀ r ∈ w.st.scanResults,
    P.IsResultOf (handledDatagrams w.trace) r) (fun r hr => absurd hr List.not_mem_nil) ?_
  intro u l v h _ hstep
  by_cases hl : ∀ dns throws, l ≠ .message dns throws
  · have hreports := reports_step (step_cases hstep) hl
    simp only [PingState.reports, Prod.mk.injEq] at hreports
    rw [hreports.2.1, handledDatagrams_step (step_cases hstep) hl]
    exact h
  -- the handling of a datagram: it keeps the old records and may add one of its own
  · push Not at hl
    obtain ⟨dns, throws, rfl⟩ := hl
    cases step_cases hstep with
    | @message d batch full _ _ hpc s threw hout =>
      intro r hr
      have hevents := P.handledDatagrams_messageEvents d u.st s
      have hsplit : handledDatagrams (u.trace ++ P.messageEvents d u.st s) =
          handledDatagrams u.trace ++ [d] := by
        rw [handledDatagrams, List.filterMap_append]
        exact congrArg _ hevents
      have hmem : r ∈ (P.receiveMessage u.kernel.clock dns throws d u.st).1.scanResults := by
        rw [hout]
        exact hr
      dsimp only
      rw [hsplit]
      rcases isResultOf_receiveMessage hmem with hold | ⟨d', hd', hrest⟩
      · obtain ⟨d', hd', hrest⟩ := h r hold
        exact ⟨d', List.mem_append_left _ hd', hrest⟩
      · exact ⟨d', List.mem_append_right _ hd', hrest⟩

/-! ### Send times of a run -/

/-- A request that is recorded as accepted was so before the step, or `sendmmsg` has just taken it
from the batch. -/
theorem accepted_step {ip : ℕ} {ts began : Timespec} (h : PingStep P w l w')
    (he : .accepted ip ts began ∈ w'.trace) : .accepted ip ts began ∈ w.trace ∨
      ∃ n k count, w.pc = .flush n k ∧ k + count ≤ n ∧
        .accepted ip ts began ∈ acceptedEvents w.st w.kernel.clock k count := by
  cases h with
  -- only an accepting `sendmmsg` records requests
  | sent hpc hpos hle => exact (List.mem_append.mp he).imp id fun hnew => ⟨_, _, _, hpc, hle, hnew⟩
  | populate =>
    refine (List.mem_append.mp he).imp id fun hnew => ?_
    obtain ⟨i, hi⟩ := mem_reachedEvents hnew
    cases hi
  | message =>
    refine (List.mem_append.mp he).imp id fun hnew => ?_
    obtain hev | ⟨_, _, hev⟩ := mem_messageEvents hnew <;> cases hev
  | reap =>
    refine (List.mem_append.mp he).imp id fun hnew => ?_
    obtain ⟨i, -, -, hev⟩ := mem_expiredEvents hnew
    cases hev
  | arrive | refused | pollTimeout | recvFailed | recvEmpty | recvShort =>
    exact .inl (by simpa using he)
  | _ => exact .inl he

/-- With a real clock, all send times are real: they are read off the clock when a batch is
populated. -/
theorem request_real (hP : P.Ranged) (hs : P.Sized s₀) (hk : k.clock.Real)
    (hw : Runs P.step ClockReal (start s₀ k) w) {q : ℕ × Timespec} (hq : q ∈ requests w.trace) :
    q.2.Real := by
  suffices h : ∀ ip ts began, .accepted ip ts began ∈ w.trace → ts.Real by
    obtain ⟨e, he, hev⟩ := List.mem_filterMap.mp hq
    cases e <;> simp only [PingEvent.request?, Option.some.injEq, reduceCtorEq] at hev
    cases hev
    exact h _ _ _ he
  refine hw.invariant_of_runs
    (I := fun w => ∀ ip ts began, .accepted ip ts began ∈ w.trace → ts.Real)
    (fun ip ts began hv => absurd hv List.not_mem_nil) ?_
  intro u l v hrun h _ hstep ip ts began hv
  rcases accepted_step (step_cases hstep) hv with hold | ⟨n, m, count, hpc, hle, hnew⟩
  · exact h ip ts began hold
  · -- the entry of the batch has its probe, which is active
    obtain ⟨i, -, hi, hev⟩ := mem_acceptedEvents hnew
    cases hev
    have hledger := ledgerInv_of_reachable hP hs hrun.reachable (by rw [hpc]; rfl)
    obtain ⟨p, hactive, -, slot, hslot, hp⟩ := hledger.staged n (by rw [hpc]; rfl) i (by omega)
    have hprobe : probeAt u.st (u.st.sendProbeSlots.getD i (-1)).toNat = p := by
      rw [List.getD_eq_getElem?_getD, hslot]
      show u.st.probeTable.getD slot {} = p
      rw [List.getD_eq_getElem?_getD, hp]
      rfl
    rw [hprobe]
    exact (stamped_of_runs hk hrun).2 p (List.mem_of_getElem? hp) hactive

/-! ### What a record is measured on -/

/-- The record `r` is about the request sent at `sendTs` and the reply `d`. -/
structure MeasuredOn (v : Network) (sendTs : Timespec) (d : Datagram) (r : PingHostResult) :
    Prop where
  /-- The request was sent to the host of the record. -/
  request : (r.ip, sendTs) ∈ requests v.self.trace
  /-- No other one was. -/
  only : ∀ ts, (r.ip, ts) ∈ requests v.self.trace → ts = sendTs
  /-- The reply was read from the network, and comes from this host. -/
  reply : d ∈ v.delivered ∧ d.srcIp = r.ip
  /-- The text is that of the host's address. -/
  text : r.ipStr = formatIp r.ip
  /-- The time to live is that of the reply. -/
  ttl : r.ttl = d.ttl?.getD (-1)
  /-- If the kernel has stamped the reply, the round-trip time is the time from the request to the
  stamp, or zero if the clock was set back in between. -/
  rtt : ∀ recvTs, d.stamp? = some recvTs → r.rttNs = max 0 (recvTs.elapsedNs sendTs)

/-- The clock is set to real values only, in the scanner's part of the loop. -/
def TicksReal (v : Network) (l : LoopLabel PingLabel EchoAnswer) : Prop :=
  ∀ own, l = .own own → ClockReal v.self own

instance (v : Network) : (l : LoopLabel PingLabel EchoAnswer) → Decidable (TicksReal v l)
  | .own l => decidable_of_iff (ClockReal v.self l)
      ⟨fun h _ hl => LoopLabel.own.inj hl ▸ h, fun h => h l rfl⟩
  | .deliver _ | .answer _ _ | .loseRequest _ | .loseReply _ | .repeatRequest _ | .repeatReply _ =>
    isTrue fun _ hl => by cases hl

/-- **Every record is measured on its host's own request**, in every state of a scan of a network:
whatever is lost, repeated, late or out of order, a host is sent one request, and its record is
about this request and a reply of this host. -/
theorem records_measured {input : CString} {config : PingScannerConfig}
    (hparse : parseCidr input = some (config.baseIp, config.totalHosts)) (routedIp : Option ℕ)
    (ifaddrs : Option (List IfAddrs)) (pid : ℕ)
    (hfits : (icmpHdrSize + pingPayloadSize + config.payloadLen) *
      max 1 (safeBatchSize config.sendBatchSize config.totalHosts) < 2 ^ 64)
    (alive : ℕ → Bool) (hk : k.rxQueue = []) (hclock : k.clock.Real)
    (hv : Runs (loop (construct config routedIp ifaddrs pid).component (echoHosts alive)) TicksReal
      (.begin (start (construct config routedIp ifaddrs pid).initializeBuffers k)) v) :
    ∀ r ∈ v.self.st.scanResults, ∃ sendTs d, MeasuredOn v sendTs d r := by
  have hP := ranged_construct hparse routedIp ifaddrs pid
  have hs := sized_initializeBuffers (construct config routedIp ifaddrs pid)
  have h := carried_of_reachable hP hs (buffersFit_initializeBuffers rfl hfits) hv.reachable
  have hruns : Runs (construct config routedIp ifaddrs pid).step ClockReal
      (start (construct config routedIp ifaddrs pid).initializeBuffers k) v.self :=
    hv.self_runs (fun u l hok => hok l rfl) fun _ _ _ hl => PingLabel.noConfusion hl
  intro r hr
  obtain ⟨d, hd, -, -, recvNow, overflows, dns, hresult⟩ := isResultOf_of_reachable h.reachable r hr
  -- the datagram handled is a reply that was read from the network
  obtain ⟨taken, hdelivered⟩ := delivered_of_reachable hP hs h.reachable
  obtain ⟨d, htaken, rfl⟩ := List.mem_map.mp (hdelivered.handled.subset hd)
  have hqueue := hdelivered.queue
  rw [hk, List.nil_append, h.arrived] at hqueue
  have hread : d ∈ v.delivered := by
    rw [hqueue]
    exact List.mem_append_left _ htaken
  -- it brings back what the request to its host has carried
  obtain ⟨j, q, hq, a, hrespond⟩ := h.answers d hread
  obtain ⟨haccepted, hlt⟩ := h.request_lt hP hs hq
  have hmem : (q.1, q.2) ∈ requests v.self.trace := List.mem_of_getElem? hq
  have hreal : q.2.Real := request_real hP hs hclock hruns hmem
  obtain ⟨-, hd⟩ := respond_eq_some hrespond
  obtain ⟨-, -, hpayload⟩ := reply_of_request a.checksum a.id (seqAt j) hlt hreal q.1 a.control hd
  have hsrc : d.srcIp = q.1 := by rw [hd]; rfl
  obtain ⟨httl, hstamp⟩ := read_extractControlData recvNow d overflows
  rw [Datagram.received_payload, hpayload] at hresult
  have hnodup : ((requests v.self.trace).map Prod.fst).Nodup := by
    rw [map_fst_requests]
    exact (coverInv_of_reachable hP hs h.reachable).pairwise_acceptedIps.imp fun hlt => hlt.ne
  subst hresult
  refine ⟨q.2, d, hmem, fun ts hts => ?_, ⟨hread, hsrc⟩, rfl, httl, fun recvTs hrecv => ?_⟩
  · exact congrArg Prod.snd (List.inj_on_of_nodup_map hnodup hts hmem rfl)
  · have hrecvTs : (extractControlData recvNow d.received.control overflows).2.1 = recvTs := by
      rw [hrecv] at hstamp
      exact hstamp
    rw [replyResult, hrecvTs]

/-- `10.0.0.8/31`, where the second host is alive: its request is repeated, and the reply to the
copy arrives first. -/
theorem records_measured_pair : ∃ v : Network, v.repeated = [167772169] ∧
    v.self.st.scanResults.map (fun r => (r.ip, r.rttNs, r.ttl)) = [(167772169, 2000000, 64)] ∧
    ∀ r ∈ v.self.st.scanResults, ∃ sendTs d, MeasuredOn v sendTs d r := by
  obtain ⟨v, hv, hp⟩ := exists_runs_of_execWhen
    (M := loop (construct { baseIp := 167772168, totalHosts := 2 } none none 7).component
      (echoHosts (· == 167772169)))
    (s := .begin (start (construct { baseIp := 167772168, totalHosts := 2 } none none
      7).initializeBuffers { clock := { tvSec := 3 }, rxQueue := [], rxEdge := false }))
    TicksReal
    [.own .run, .own .run, .own (.sendmmsg (.sent 2)), .own .run, .loseRequest 0, .repeatRequest 0,
      .answer 0 ⟨(1, 2), (3, 4), [.timestampns ⟨3, 7000000⟩, .ipTtl 64]⟩,
      .answer 0 ⟨(1, 2), (3, 4), [.timestampns ⟨3, 2000000⟩, .ipTtl 64]⟩, .deliver 1, .deliver 0,
      .own (.tick { tvSec := 4 }), .own (.epollWait .ready), .own (.recvmmsg false),
      .own (.message none false), .own (.message none false)]
    (fun v : Network => v.repeated == [167772169] &&
      v.self.st.scanResults.map (fun r => (r.ip, r.rttNs, r.ttl)) == [(167772169, 2000000, 64)])
    (by decide)
  simp only [Bool.and_eq_true, beq_iff_eq] at hp
  have hparse : parseCidr [49, 48, 46, 48, 46, 48, 46, 56, 47, 51, 49] = some (167772168, 2) := by
    decide
  exact ⟨v, hp.1, hp.2, records_measured hparse none none 7 (by decide) _ rfl (by decide) hv⟩

end PingScanner

end Netscan
