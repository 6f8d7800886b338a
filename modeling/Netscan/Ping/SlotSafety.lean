import Netscan.Ping.Frame

/-! # Every reachable state of a ping run keeps its books

The slot-table invariant and the agreement of the results with the cache hold in every state that
`run()` can reach, whatever the kernel, the clock, the network, the resolver and the callback do. -/

namespace Netscan

open MachineInt SlotTable LabelledSystem

namespace PingScanner

variable {P : PingScanner} {s s₀ : PingState} {k : PingKernel} {w w' : PingWorld} {l : PingLabel}

/-- Every step keeps the slot-table invariant. Four kinds of step touch the tables, and each has its
own lemma. -/
theorem SlotInv.step (hP : P.Ranged) (h : P.SlotInv w.st) (hstep : PingStep P w l w') :
    P.SlotInv w'.st := by
  cases hstep with
  | populate _ hout =>
    have := h.populateBatchEntries hP w.kernel.clock
    rwa [hout] at this
  | again => exact h.congr rfl
  | flushDone =>
    exact h.congr (by simp [PingState.tables])
  | @release n k i _ _ s hout =>
    subst hout
    have hr := h.releaseProbeSlot hP (w.st.sendProbeSlots.getD i (-1))
    exact hr.congr (by simp [PingState.tables])
  | rollbackDone => exact h.congr rfl
  | @message d _ _ dns throws _ _ _ hout =>
    have := h.receiveMessage hP w.kernel.clock dns throws d
    rwa [hout] at this
  | reap _ hout =>
    subst hout
    exact h.reapTimedOutProbes hP _
  | _ => exact h

/-- **The slot-table invariant holds in every reachable state**, as it holds when `run()` is entered
and every step keeps it. -/
theorem slotInv_of_reachable (hP : P.Ranged) (hs : P.Sized s₀)
    (hw : Reachable P.step (start s₀ k) w) : P.SlotInv w.st :=
  hw.invariant (I := fun w => P.SlotInv w.st) (slotInv_beginRun hs)
    fun _ _ _ h _ hstep => h.step hP (step_cases hstep)

/-- A run that returns without a send failure has passed every host and has no probe left. -/
theorem left_of_returned (hw : Reachable P.step (start s₀ k) w) (hret : w.pc = .returned false) :
    P.totalHosts ≤ w.st.nextHostIdx ∧ w.st.activeProbes = 0 := by
  refine hw.invariant (I := fun w => w.pc = .returned false →
    P.totalHosts ≤ w.st.nextHostIdx ∧ w.st.activeProbes = 0) nofun ?_ hret
  intro u l v h _ hstep hv
  cases step_cases hstep with
  | leave _ hcursor hactive => exact ⟨hcursor, hactive⟩
  | tick | arrive => exact h hv
  | @populate _ _ n => dsimp only at hv; split at hv <;> cases hv
  | @message _ _ _ _ _ _ _ threw => dsimp only at hv; split at hv <;> cases hv
  | @batchDone full => dsimp only at hv; split at hv <;> cases hv
  | _ => cases hv

/-! ### Results -/

/-- The results, the cache and the calls of the callback agree, unless the callback threw between
being called and the result being stored. -/
structure ReportInv (P : PingScanner) (w : PingWorld) : Prop where
  /-- The results are the cached addresses, in order. -/
  cached : w.pc ≠ .thrown → w.st.scanResults.map (·.ip) = w.st.foundIpsCache
  /-- The callback, if set, was called with the results, in order. -/
  called : w.pc ≠ .thrown → w.st.called = if P.resultCallback then w.st.scanResults else []

/-- Steps that report nothing keep the agreement of cache, results and calls. -/
theorem ReportInv.congr (h : P.ReportInv w) (hpc : w'.pc ≠ .thrown → w.pc ≠ .thrown)
    (hrep : w'.st.reports = w.st.reports) : P.ReportInv w' := by
  simp only [PingState.reports, Prod.mk.injEq] at hrep
  obtain ⟨hfound, hresults, hcalled⟩ := hrep
  refine ⟨fun hne => ?_, fun hne => ?_⟩
  · rw [hfound, hresults]
    exact h.cached (hpc hne)
  · rw [hcalled, hresults]
    exact h.called (hpc hne)

/-- What the handling of a datagram adds to the reports when it does not throw. -/
theorem SlotInv.reports_receiveMessage (hP : P.Ranged) (h : P.SlotInv s) {recvNow : Timespec}
    {dns : Option String} {throws : Bool} {d : Datagram} {s' : PingState}
    (hout : P.receiveMessage recvNow dns throws d s = (s', false)) :
    s'.reports = s.reports ∨
      P.Acceptable s d ∧ ∃ r : PingHostResult, r.ip = d.srcIp ∧ s'.reports =
        (s.foundIpsCache ++ [d.srcIp], s.scanResults ++ [r],
          if P.resultCallback then s.called ++ [r] else s.called) := by
  rcases h.receiveMessage_cases hP recvNow dns throws d with
    ⟨-, echo, unmatched, overflows, heq⟩ | ⟨hacc, echo, overflows, recvTs, ttl, heq⟩
  · rw [heq] at hout
    cases hout
    exact .inl rfl
  · rw [heq] at hout
    refine .inr ⟨hacc, P.replyResult recvTs ttl dns d.payload, ?_, ?_⟩
    · exact hacc.1.2.2.1
    -- without an exception the callback has returned and the result is kept
    · unfold PingScanner.report PingScanner.foundState at hout
      dsimp only at hout
      split at hout
      · cases hout
      · cases hout
        cases backPointers P.baseIp s.hostToProbe d.srcIp <;> rfl

/-- Every step keeps the agreement: only the handling of a datagram reports, and it adds the same
host to all three. -/
theorem ReportInv.step (hP : P.Ranged) (hslot : P.SlotInv w.st) (h : P.ReportInv w)
    (hstep : PingStep P w l w') : P.ReportInv w' := by
  by_cases hl : ∀ dns throws, l ≠ .message dns throws
  · refine h.congr ?_ (reports_step hstep hl)
    cases hstep <;> simp_all
  -- the handling of a datagram; a callback that throws ends the agreement
  · push Not at hl
    obtain ⟨dns, throws, rfl⟩ := hl
    cases hstep with
    | @message d batch full _ _ hpc s threw hout =>
      cases threw with
      | true => exact ⟨fun hne => absurd rfl hne, fun hne => absurd rfl hne⟩
      | false =>
        have hne : w.pc ≠ .thrown := by simp [hpc]
        have hcached := h.cached hne
        have hcalled := h.called hne
        rcases hslot.reports_receiveMessage hP hout with hrep | ⟨-, r, hip, hrep⟩
        · exact h.congr (fun _ => hne) hrep
        · simp only [PingState.reports, Prod.mk.injEq] at hrep
          obtain ⟨hfound, hresults, hcall⟩ := hrep
          refine ⟨fun _ => ?_, fun _ => ?_⟩
          · simp [hfound, hresults, hcached, hip]
          · rw [hcall, hresults, hcalled]
            split <;> rfl

/-- The results agree with the cache and with the callback in every reachable state. -/
theorem reportInv_of_reachable (hP : P.Ranged) (hs : P.Sized s₀)
    (hw : Reachable P.step (start s₀ k) w) : P.ReportInv w := by
  refine hw.invariant_of_runs (I := P.ReportInv) ⟨fun _ => rfl, fun _ => ?_⟩ ?_
  · show ([] : List PingHostResult) = if P.resultCallback then [] else []
    split <;> rfl
  · intro u l v hreach h _ hstep
    exact h.step hP (slotInv_of_reachable hP hs hreach) (step_cases hstep)

/-! ### The books of a scan -/

/-- What `probe_table_`, `host_to_probe_`, `active_probes`, `found_ips_cache_` and the results say
about each other, in the words of the code. -/
structure Books (P : PingScanner) (w : PingWorld) : Prop where
  /-- `active_probes` counts the active entries. -/
  activeCount : w.st.activeProbes = w.st.probeTable.countP (·.active)
  /-- `active_probes` is at most `max_probes_`. -/
  activeBound : w.st.activeProbes ≤ P.maxProbes
  /-- A mapped host's slot is an active entry for that host. -/
  mapped : ∀ (h : ℕ) (slot : ℤ), w.st.hostToProbe[h]? = some slot → slot ≥ 0 →
    ∃ p, w.st.probeTable[slot.toNat]? = some p ∧ p.active = true ∧ p.destIp = P.baseIp + h
  /-- An active entry's host is a host of the range that is mapped to it. -/
  active : ∀ (slot : ℕ) (p : ProbeInfo), w.st.probeTable[slot]? = some p → p.active = true →
    ∃ h < P.totalHosts, p.destIp = P.baseIp + h ∧ w.st.hostToProbe[h]? = some (slot : ℤ)
  /-- No host is found twice. -/
  foundNodup : w.st.foundIpsCache.Nodup
  /-- A found host is a host of the range that is mapped to no slot. -/
  foundHosts : ∀ ip ∈ w.st.foundIpsCache, ∃ h < P.totalHosts, ip = P.baseIp + h ∧
    ∃ slot, w.st.hostToProbe[h]? = some slot ∧ slot < 0
  /-- `hosts_found` counts the found hosts. -/
  foundCount : w.st.hostsFound = w.st.foundIpsCache.length
  /-- The results are the found hosts in order, unless the callback threw on the last one. -/
  resultIps : w.pc ≠ .thrown → w.st.scanResults.map (·.ip) = w.st.foundIpsCache

/-- The books agree wherever the two invariants hold, which say it in terms of partial maps. -/
theorem SlotInv.books (h : P.SlotInv w.st) (hrep : P.ReportInv w) : P.Books w where
  activeCount := by
    rw [h.count, length_keys_eq_countP]
    congr 1
    funext p
    cases hp : p.active <;> simp [ProbeInfo.held, hp]
  activeBound := h.active_le
  mapped _ _ := h.active_of_back
  active slot p hi hp := by
    obtain ⟨hlo, hhi, hback⟩ := h.back_of_active hi hp
    exact ⟨p.destIp - P.baseIp, by omega, by omega, hback⟩
  foundNodup := h.foundNodup
  foundHosts ip hip := by
    obtain ⟨hlo, hhi⟩ := h.foundRange ip hip
    have hfree := h.foundFree ip hip
    have hlen := h.sized.hostToProbe
    have hlt : ip - P.baseIp < w.st.hostToProbe.length := by omega
    refine ⟨ip - P.baseIp, by omega, by omega, _, List.getElem?_eq_getElem hlt, ?_⟩
    -- a host that is mapped to no slot has the entry `-1`
    rw [backPointers, if_neg (by omega), List.getElem?_eq_getElem hlt] at hfree
    simpa using hfree
  foundCount := h.foundCount
  resultIps := hrep.cached

/-- **Slot-table invariant.** In every state that `run()` reaches on a scanner for a parsed range,
whatever the kernel, the clock, the network, the resolver and the callback do, the books agree. -/
theorem books_of_reachable {input : CString} {config : PingScannerConfig}
    (hparse : parseCidr input = some (config.baseIp, config.totalHosts)) (routedIp : Option ℕ)
    (ifaddrs : Option (List IfAddrs)) (pid : ℕ) {s₀ : PingState}
    (hs : (construct config routedIp ifaddrs pid).Sized s₀) (k : PingKernel) {w : PingWorld}
    (hw : Reachable (construct config routedIp ifaddrs pid).step (start s₀ k) w) :
    (construct config routedIp ifaddrs pid).Books w := by
  have hP := ranged_construct hparse routedIp ifaddrs pid
  exact (slotInv_of_reachable hP hs hw).books (reportInv_of_reachable hP hs hw)

/-- `10.0.0.9/31`: two hosts, the first of which has answered while the second is outstanding. -/
theorem books_of_reachable_pair : ∃ w : PingWorld,
    w.st.foundIpsCache = [167772168] ∧ w.st.activeProbes = 1 ∧
      (construct { baseIp := 167772168, totalHosts := 2 } none none 7).Books w := by
  obtain ⟨w, hw, hp⟩ := exists_reachable_of_exec (M := (construct
      { baseIp := 167772168, totalHosts := 2 } none none 7).step)
    (s := start (construct { baseIp := 167772168, totalHosts := 2 } none none 7).initializeBuffers
      { clock := {}, rxQueue := [], rxEdge := false })
    [.run, .run, .sendmmsg (.sent 2), .run, .arrive (echoReply 167772168 {}), .epollWait .ready,
      .recvmmsg false, .message none false]
    (fun w => w.st.foundIpsCache == [167772168] && w.st.activeProbes == 1) (by decide)
  simp only [Bool.and_eq_true, beq_iff_eq] at hp
  have hparse : parseCidr [49, 48, 46, 48, 46, 48, 46, 57, 47, 51, 49] = some (167772168, 2) := by
    decide
  exact ⟨w, hp.1, hp.2, books_of_reachable hparse none none 7 (sized_initializeBuffers _) _ hw⟩

end PingScanner

end Netscan
