import Netscan.Tcp.Trace

/-! # TCP results agree with the callback and with the wire

Events carry slot numbers only. Between the `epoll_wait` call that reports them and their handling
no slot is given to another socket, so every event is handled at the entry whose socket it is about
(`Fetched`), and no host is probed twice, so the test for duplicates before a result is stored never
differs from the callback made before it. -/

namespace Netscan

open MachineInt SlotTable LabelledSystem Descriptors History

/-- Whether the event records the handling of an epoll event, which is all that results depend
on. -/
def TcpEvent.isHandled : TcpEvent → Bool
  | .handled _ _ _ _ => true
  | _ => false

/-- What the kernel can report is a registered ready socket, with the slot of its registration as
data. -/
theorem TcpKernel.socket_of_reports {k : TcpKernel} {ev : EpollEvent} (h : k.reports ev = true) :
    ∃ fd s, k.socketAt fd = some s ∧ s.id = ev.source ∧ s.ready = true ∧
      s.slot = some ev.data := by
  obtain ⟨⟨fd, s⟩, hmem, hs⟩ := List.any_eq_true.mp h
  simp only [Bool.and_eq_true, beq_iff_eq] at hs
  exact ⟨fd, s, AList.mem_lookup_iff.mpr hmem, hs.1.1, hs.1.2, hs.2⟩

namespace TcpScanner

variable {P : TcpScanner} {s₀ : TcpState} {clock : Timespec} {w w' : TcpWorld} {l : TcpLabel}
  {ev : EpollEvent} {evs : List EpollEvent} {p : TcpProbeInfo}

/-! ### Events between their report and their handling -/

/-- The event is about an open socket, registered under the slot number it carries. -/
structure InFlight (w : TcpWorld) (ev : EpollEvent) : Prop where
  /-- The socket is open, ready and registered under the slot number. -/
  socket : ∃ fd s, w.kernel.socketAt fd = some s ∧ s.id = ev.source ∧ s.ready = true ∧
    s.slot = some ev.data
  /-- It was reported. -/
  reported : .reported ev.source ∈ w.trace

/-- The events left in the loop of `poll_connections` are about distinct open sockets. -/
def Fetched (w : TcpWorld) : Prop :=
  ∀ evs, w.pc = .handle evs → (evs.map (·.source)).Nodup ∧ ∀ ev ∈ evs, InFlight w ev

/-- The event that is handled next is about the socket of the entry at its slot. -/
theorem Fetched.head (hown : P.Owned none w) (h : Fetched w) (hpc : w.pc = .handle (ev :: evs)) :
    ∃ p s, w.st.probeTable[ev.data]? = some p ∧ p.active = true ∧
      w.kernel.socketAt p.sock = some s ∧ s.id = ev.source ∧ s.ready = true ∧
      s.peer = some p.destIp := by
  obtain ⟨fd, s, hs, hid, hready, hslot⟩ := ((h _ hpc).2 ev List.mem_cons_self).socket
  obtain ⟨p, hi, hp, rfl⟩ := hown.active_of_socket hs hslot
  exact ⟨p, s, hi, hp, hs, hid, hready, hown.peer _ p s hi hp hs⟩

/-- Closing the socket of the event that is handled leaves the other events in flight. -/
theorem Fetched.tail (hown : P.Owned none w) (h : Fetched w) (hpc : w.pc = .handle (ev :: evs))
    (hi : w.st.probeTable[ev.data]? = some p) (hkernel : w'.kernel = w.kernel.close p.sock)
    (htrace : ∀ e ∈ w.trace, e ∈ w'.trace) :
    (evs.map (·.source)).Nodup ∧ ∀ ev' ∈ evs, InFlight w' ev' := by
  obtain ⟨hnodup, hflight⟩ := h _ hpc
  rw [List.map_cons, List.nodup_cons] at hnodup
  refine ⟨hnodup.2, fun ev' hev' => ?_⟩
  obtain ⟨⟨fd, s, hs, hid, hready, hslot⟩, hreported⟩ := hflight ev' (List.mem_cons_of_mem _ hev')
  obtain ⟨q, so, hq, -, hso, hsource, -⟩ := h.head hown hpc
  rw [hi] at hq
  cases hq
  have hne : fd ≠ p.sock := by
    rintro rfl
    rw [hs] at hso
    cases hso
    exact hnodup.1 (List.mem_map.mpr ⟨ev', hev', hid.symm.trans hsource⟩)
  refine ⟨⟨fd, s, ?_, hid, hready, hslot⟩, htrace _ hreported⟩
  rw [hkernel, TcpKernel.socketAt_close, Function.update_of_ne hne]
  exact hs

/-- Every step keeps the events in flight: while they wait, the sockets that they are about stay
open and registered. -/
theorem Fetched.step (hown : P.OwnInv w) (h : Fetched w) (hstep : TcpStep P w l w') :
    Fetched w' := by
  intro evs hevs
  cases hstep with
  | tick =>
    obtain ⟨hnodup, hflight⟩ := h evs hevs
    exact ⟨hnodup, fun ev hev => ⟨(hflight ev hev).socket, (hflight ev hev).reported⟩⟩
  | @complete fd err s hs hpending =>
    obtain ⟨hnodup, hflight⟩ := h evs hevs
    refine ⟨hnodup, fun ev hev => ?_⟩
    obtain ⟨⟨fd', s', hs', hid, hready, hslot⟩, hreported⟩ := hflight ev hev
    -- a socket that is ready is not the one whose attempt ends now
    have hne : fd' ≠ fd := by
      rintro rfl
      rw [hs] at hs'
      cases hs'
      simp [TcpSocket.ready, hpending] at hready
    refine ⟨⟨fd', s', ?_, hid, hready, hslot⟩, List.mem_append_left _ hreported⟩
    dsimp only
    rw [TcpKernel.socketAt_update hs, Function.update_of_ne hne]
    exact hs'
  | @reset fd err s hs herr hconn =>
    obtain ⟨hnodup, hflight⟩ := h evs hevs
    refine ⟨hnodup, fun ev hev => ?_⟩
    obtain ⟨⟨fd', s', hs', hid, hready, hslot⟩, hreported⟩ := hflight ev hev
    by_cases hne : fd' = fd
    · -- a socket whose connection breaks stays ready under its number and its slot
      subst hne
      rw [hs] at hs'
      cases hs'
      refine ⟨⟨fd', s.breakOff err, ?_, hid, hready, hslot⟩, hreported⟩
      dsimp only
      rw [TcpKernel.socketAt_update hs, Function.update_self]
    · refine ⟨⟨fd', s', ?_, hid, hready, hslot⟩, hreported⟩
      dsimp only
      rw [TcpKernel.socketAt_update hs, Function.update_of_ne hne]
      exact hs'
  | @pollEvents reported _ _ hnodup hrep =>
    cases hevs
    refine ⟨hnodup, fun ev hev => ⟨TcpKernel.socket_of_reports (hrep ev hev), ?_⟩⟩
    exact List.mem_append_right _ (List.mem_map_of_mem hev)
  | stale hpc =>
    cases hevs
    obtain ⟨hnodup, hflight⟩ := h _ hpc
    rw [List.map_cons, List.nodup_cons] at hnodup
    refine ⟨hnodup.2, fun ev hev => ?_⟩
    obtain ⟨hsocket, hreported⟩ := hflight ev (List.mem_cons_of_mem _ hev)
    exact ⟨hsocket, hreported⟩
  | @success _ _ _ _ _ _ hpc hi _ _ _ _ threw =>
    have howned := hown.owned (by rw [hpc]; nofun)
    rw [hpc] at howned
    cases threw with
    | true => cases hevs
    | false =>
      cases hevs
      exact h.tail howned hpc hi rfl fun _ => List.mem_append_left _
  | failure hpc hi =>
    have howned := hown.owned (by rw [hpc]; nofun)
    rw [hpc] at howned
    cases hevs
    exact h.tail howned hpc hi rfl fun _ => List.mem_append_left _
  | _ => cases hevs

/-- Events stay in flight until they are handled, in every reachable state. -/
theorem fetched_of_reachable (hP : P.Ranged) (hs : P.Idle s₀)
    (hw : Reachable P.step (start s₀ clock) w) : Fetched w := by
  refine hw.invariant_of_runs (I := Fetched) nofun ?_
  intro u l v hreach h _ hstep
  exact h.step (ownInv_of_reachable hP hs hreach) (step_cases hstep)

/-! ### Records and results -/

/-- The handling of an event, after the events `pre`, concerns the socket that the event is about,
which `connect` was called on for the host and which was reported; a value `0` of `sock_err` means
that its attempt succeeded. -/
def Attributed (pre : List TcpEvent) : TcpEvent → Prop
  | .handled source id ip sockErr =>
    id = some source ∧ .connect ip source ∈ pre ∧ .reported source ∈ pre ∧
      (sockErr = 0 → ∃ time, .completed source 0 time ∈ pre)
  | _ => True

/-- Steps of the scanner other than the handling of an event store nothing, call nobody and log no
such handling. -/
theorem quiet_step (hstep : TcpStep P w l w') (hl : ∀ g dns throws, l ≠ .event g dns throws) :
    w'.st.scanResults = w.st.scanResults ∧ w'.st.called = w.st.called ∧
      ∃ u, w'.trace = w.trace ++ u ∧ ∀ e ∈ u, e.isHandled = false := by
  obtain ⟨u, htrace, hu⟩ := trace_step hstep
  -- only one label logs the handling of an event
  have hquiet : ∀ e ∈ u, e.isHandled = false := by
    intro e he
    have hlogs := hu e he
    cases e with
    | handled =>
      obtain ⟨g, dns, throws, heq⟩ := hlogs
      exact absurd heq (hl g dns throws)
    | _ => rfl
  cases hstep with
  | success | failure => exact absurd rfl (hl _ _ _)
  | reap =>
    have hends := P.ends_reap w.kernel.clock w
    exact ⟨hends.results, hends.called, u, htrace, hquiet⟩
  | destroy =>
    have hends := ends_destroy w
    exact ⟨hends.results, hends.called, u, htrace, hquiet⟩
  | _ => exact ⟨rfl, rfl, u, htrace, hquiet⟩

/-- The results, the calls of the callback and the trace of a run. -/
structure ReportInv (P : TcpScanner) (w : TcpWorld) : Prop where
  /-- Events are handled for the socket that they are about. -/
  attributed : Always Attributed w.trace
  /-- Each result has its event. -/
  evidence : ∀ r ∈ w.st.scanResults, ∃ source, .handled source (some source) r.ip 0 ∈ w.trace
  /-- The callback, if set, was called with the results, in order. -/
  called : w.pc ≠ .thrown → w.pc ≠ .destroyed →
    w.st.called = if P.resultCallback then w.st.scanResults else []

/-- Every step keeps the reports in order: only the handling of an event reports, and it reports the
host of its socket. -/
theorem ReportInv.step (hown : P.OwnInv w) (hhosts : P.HostInv w) (hlogged : Logged w)
    (hfetched : Fetched w) (h : P.ReportInv w) (hstep : TcpStep P w l w') : P.ReportInv w' := by
  by_cases hl : ∀ g dns throws, l ≠ .event g dns throws
  · obtain ⟨hresults, hcalled, u, htrace, hu⟩ := quiet_step hstep hl
    refine ⟨?_, fun r hr => ?_, ?_⟩
    · rw [htrace]
      refine h.attributed.append_of_forall fun e he pre => ?_
      have := hu e he
      cases e <;> first | exact trivial | cases this
    · rw [hresults] at hr
      obtain ⟨source, hmem⟩ := h.evidence r hr
      exact ⟨source, htrace ▸ List.mem_append_left _ hmem⟩
    · rw [hresults, hcalled]
      intro hthrown hdestroyed
      refine h.called (fun hpc => ?_) (fun hpc => ?_)
      · cases hstep <;> simp_all
      · cases hstep <;> simp_all
  · push Not at hl
    obtain ⟨g, dns, throws, rfl⟩ := hl
    cases hstep with
    | @success ev evs _ _ p so hpc hi hp hso herr st threw hout =>
      have howned := hown.owned (by rw [hpc]; nofun)
      rw [hpc] at howned
      obtain ⟨q, s, hq, -, hs, hid, hready, hpeer⟩ := hfetched.head howned hpc
      rw [hi] at hq
      cases hq
      rw [hso] at hs
      cases hs
      have hreported := ((hfetched _ hpc).2 ev List.mem_cons_self).reported
      have hconnect := (hlogged.connect _ so _ hso).mp hpeer
      -- a ready socket without an error has connected
      have hcompleted : ∃ time, .completed so.id 0 time ∈ w.trace := by
        cases hstatus : so.status with
        | idle | pending => simp [TcpSocket.ready, hstatus] at hready
        | done err time =>
          obtain rfl : err = 0 := by
            cases err with
            | zero => rfl
            | succ err => simp [TcpSocket.soError, hstatus] at herr
          exact ⟨time, (hlogged.completed _ so _ _ hso).mp hstatus⟩
      have hnew : (P.probeResult w.kernel.clock dns p).ip ∉
          (retire ev.data w.st).scanResults.map (·.ip) :=
        hhosts.seen.not_mem_results hi hp
      rw [report_eq P throws hnew] at hout
      refine ⟨?_, fun r hr => ?_, ?_⟩
      · refine always_append.mpr ⟨h.attributed, ?_⟩
        rw [← List.singleton_append, always_append, always_singleton, always_singleton]
        refine ⟨⟨congrArg some hid, ?_, ?_, fun _ => ?_⟩, trivial⟩
        · rw [List.append_nil, ← hid]
          exact hconnect
        · rw [List.append_nil]
          exact hreported
        · rw [List.append_nil, ← hid]
          exact hcompleted
      · have hold : r ∈ w.st.scanResults ∨ r = P.probeResult w.kernel.clock dns p := by
          dsimp only at hout
          split at hout
          · cases hout
            exact .inl hr
          · cases hout
            exact (List.mem_append.mp hr).imp id List.mem_singleton.mp
        rcases hold with hold | rfl
        · obtain ⟨source, hmem⟩ := h.evidence r hold
          exact ⟨source, List.mem_append_left _ hmem⟩
        · refine ⟨ev.source, List.mem_append_right _ ?_⟩
          rw [hid]
          exact List.mem_cons_self
      · intro hthrown hdestroyed
        have hcalled := h.called (by rw [hpc]; nofun) (by rw [hpc]; nofun)
        dsimp only at hout hthrown ⊢
        split at hout
        · cases hout
          exact absurd rfl hthrown
        · cases hout
          show (if P.resultCallback then w.st.called ++ [_] else w.st.called) = _
          rw [hcalled]
          split <;> rfl
    | @failure ev evs getsockopt _ _ p sockErr hpc hi hp herr hne =>
      have howned := hown.owned (by rw [hpc]; nofun)
      rw [hpc] at howned
      obtain ⟨q, s, hq, -, hs, hid, -, hpeer⟩ := hfetched.head howned hpc
      rw [hi] at hq
      cases hq
      have hreported := ((hfetched _ hpc).2 ev List.mem_cons_self).reported
      have hconnect := (hlogged.connect _ s _ hs).mp hpeer
      refine ⟨?_, fun r hr => ?_, ?_⟩
      · refine always_append.mpr ⟨h.attributed, ?_⟩
        rw [← List.singleton_append, always_append, always_singleton, always_singleton, hs]
        refine ⟨⟨congrArg some hid, ?_, ?_, fun hzero => absurd hzero hne⟩, trivial⟩
        · rw [List.append_nil, ← hid]
          exact hconnect
        · rw [List.append_nil]
          exact hreported
      · obtain ⟨source, hmem⟩ := h.evidence r hr
        exact ⟨source, List.mem_append_left _ hmem⟩
      · intro _ _
        exact h.called (by rw [hpc]; nofun) (by rw [hpc]; nofun)

/-- The reports are in order in every reachable state, by induction on the run. -/
theorem reportInv_of_reachable (hP : P.Ranged) (hs : P.Idle s₀)
    (hw : Reachable P.step (start s₀ clock) w) : P.ReportInv w := by
  refine hw.invariant_of_runs (I := P.ReportInv) ⟨always_nil, nofun, fun _ _ => ?_⟩ ?_
  · show ([] : List TcpHostResult) = if P.resultCallback then [] else []
    split <;> rfl
  · intro u l v hreach h _ hstep
    exact h.step (ownInv_of_reachable hP hs hreach) (hostInv_of_reachable hP hs hreach)
      (logged_of_reachable hP hs hreach) (fetched_of_reachable hP hs hreach) (step_cases hstep)

/-- What the results of a run say, and why: each one is due to an event of the very socket that was
connected to its host. -/
structure Agrees (P : TcpScanner) (w : TcpWorld) : Prop where
  /-- The callback, if set, was called with the results, in order. -/
  called : w.st.called = if P.resultCallback then w.st.scanResults else []
  /-- No host is in the results twice. -/
  nodup : (w.st.scanResults.map (·.ip)).Nodup
  /-- Each result has a socket that connected to its host: it was reported, and its event was
  handled at the active entry of the host, which held this very socket, with `SO_ERROR` zero. -/
  evidence : ∀ r ∈ w.st.scanResults, ∃ source pre post,
    w.trace = pre ++ .handled source (some source) r.ip 0 :: post ∧ .connect r.ip source ∈ pre ∧
      .reported source ∈ pre ∧ ∃ time, .completed source 0 time ∈ pre

/-- **Results agree with the callback and with the wire.** On a scanner for a parsed range, in
whatever order connections complete, fail and time out: the results of a run that returns agree, and
every event that waits for its handling is about the socket that the active entry at its slot holds
and that `connect` was called on for the host of the entry. -/
theorem results_agree {input : CString} {config : TcpScannerConfig}
    (hparse : parseCidr input = some (config.baseIp, config.totalHosts)) (routedIp : Option ℕ)
    (ifaddrs : Option (List IfAddrs)) {s₀ : TcpState}
    (hs : (construct config routedIp ifaddrs).Idle s₀) (clock : Timespec) {w : TcpWorld}
    (hw : Reachable (construct config routedIp ifaddrs).step (start s₀ clock) w) :
    (w.pc = .returned → (construct config routedIp ifaddrs).Agrees w) ∧
    (∀ evs, w.pc = .handle evs → ∀ ev ∈ evs, ∃ p s, w.st.probeTable[ev.data]? = some p ∧
      p.active = true ∧ w.kernel.socketAt p.sock = some s ∧ s.id = ev.source ∧
      .connect p.destIp ev.source ∈ w.trace) := by
  have hP := ranged_construct hparse routedIp ifaddrs
  have hown := ownInv_of_reachable hP hs hw
  constructor
  -- each result has its event in the trace, and the event has its socket
  · intro hret
    have hreports := reportInv_of_reachable hP hs hw
    refine ⟨hreports.called (by rw [hret]; nofun) (by rw [hret]; nofun), ?_, fun r hr => ?_⟩
    · exact (List.nodup_append.mp (hostInv_of_reachable hP hs hw).seen.nodup).1
    · obtain ⟨source, hmem⟩ := hreports.evidence r hr
      obtain ⟨pre, post, htrace⟩ := List.append_of_mem hmem
      obtain ⟨-, hconnect, hreported, hcompleted⟩ := hreports.attributed pre _ post htrace
      exact ⟨source, pre, post, htrace, hconnect, hreported, hcompleted rfl⟩
  -- a waiting event names the slot at which its socket is registered
  · intro evs hpc ev hev
    have howned := hown.owned (by rw [hpc]; nofun)
    obtain ⟨fd, s, hsock, hid, -, hslot⟩ :=
      ((fetched_of_reachable hP hs hw evs hpc).2 ev hev).socket
    obtain ⟨p, hi, hp, rfl⟩ := howned.active_of_socket hsock hslot
    refine ⟨p, s, hi, hp, hsock, hid, ?_⟩
    rw [← hid]
    exact ((logged_of_reachable hP hs hw).connect _ s _ hsock).mp (howned.peer _ p s hi hp hsock)

/-- `10.0.0.8/31` with one slot: the second host reuses the slot and the descriptor of the first,
which has refused, and connects. -/
theorem results_agree_pair : ∃ w : TcpWorld, w.pc = .returned ∧
    w.st.scanResults.map (·.ip) = [167772169] ∧
    (construct { baseIp := 167772168, totalHosts := 2, maxProbes := 1, resultCallback := true }
      none none).Agrees w := by
  obtain ⟨w, hw, hp⟩ := exists_reachable_of_exec
    (M := (construct
      { baseIp := 167772168, totalHosts := 2, maxProbes := 1, resultCallback := true }
      none none).step)
    (s := start (construct
      { baseIp := 167772168, totalHosts := 2, maxProbes := 1, resultCallback := true }
      none none).initialState {})
    [.run, .socket (some 5), .fcntl true, .connect .inProgress, .epollAdd true, .run,
      .complete 5 111, .epollWait (.events [⟨0, 0⟩]), .event none none false, .run, .run, .run,
      .socket (some 5), .fcntl true, .connect .inProgress, .epollAdd true, .run, .complete 5 0,
      .epollWait (.events [⟨0, 1⟩]), .event none none false, .run, .run, .run]
    (fun w => w.pc == .returned && w.st.scanResults.map (·.ip) == [167772169]) (by decide)
  simp only [Bool.and_eq_true, beq_iff_eq] at hp
  have hparse : parseCidr [49, 48, 46, 48, 46, 48, 46, 56, 47, 51, 49] = some (167772168, 2) := by
    decide
  exact ⟨w, hp.1, hp.2, (results_agree hparse none none (idle_initialState _) _ hw).1 hp.1⟩

end TcpScanner

end Netscan
