import Netscan.Ping.SendFailure
import Netscan.Ping.Soundness

/-! # When a ping run collects every reply in time

`receive_responses` stops at the first batch that is not full, the resolver and the callback can
take any time with that batch, and `reap_timed_out_probes` then compares with a fresh clock and
never looks at the queue. A reply that arrives in between is lost exactly when that reap retires
all that is outstanding and no host is left to send to, since `run()` then ends without another
look (`MissesReply`). A reap after which the loop goes on loses nothing: late replies are
accepted. -/

namespace Netscan

open MachineInt SlotTable LabelledSystem History

namespace PingScanner

variable {P : PingScanner} {s₀ : PingState} {k : PingKernel} {u v w w' : PingWorld} {l : PingLabel}
  {d : Datagram} {ip : ℕ}

/-- The datagram is a reply of `ip` that entered the queue no later than the timeout after the send
time recorded for the request to `ip`. -/
structure InTime (P : PingScanner) (t : List PingEvent) (d : Datagram) (ip : ℕ) : Prop where
  /-- It is a reply of `ip`. -/
  reply : d.IsReplyOf ip
  /-- It entered the queue in time. -/
  times : ∃ time sendTime began, .arrived d time ∈ t ∧ .accepted ip sendTime began ∈ t ∧
    time.elapsedNs sendTime ≤ P.timeoutNs

/-- Every host with a reply in time is in the results, whatever other replies it sent. -/
def Complete (P : PingScanner) (w : PingWorld) : Prop :=
  ∀ d ip, P.InTime w.trace d ip → ip ∈ w.st.scanResults.map (·.ip)

/-- The scanner is about to reap with no host left to send to, every outstanding probe is older than
the timeout, and the queue holds an unread reply in time of a host that is not found. -/
structure MissesReply (P : PingScanner) (w : PingWorld) : Prop where
  /-- The scanner is about to reap. -/
  reaping : w.pc = .reap
  /-- No host is left to send to. -/
  sentAll : P.totalHosts ≤ w.st.nextHostIdx
  /-- Every outstanding probe is too old. -/
  overdue : ∀ (i : ℕ) (p : ProbeInfo), w.st.probeTable[i]? = some p → p.active = true →
    w.kernel.clock.elapsedNs p.sendTime > P.timeoutNs
  /-- A reply in time is unread. -/
  unread : ∃ d ip, d ∈ w.kernel.rxQueue ∧ P.InTime w.trace d ip ∧ ip ∉ w.st.foundIpsCache

/-- A step of a run in which the clock does not go back and no reply in time is missed. -/
def MissesNothing (P : PingScanner) (w : PingWorld) (l : PingLabel) : Prop :=
  ClockForward w l ∧ ¬ (l = .run ∧ P.MissesReply w)

/-- A reply in time stays one as the trace grows, since it is told by events that are recorded. -/
theorem InTime.mono {t t' : List PingEvent} (h : P.InTime t d ip) (hsub : ∀ e ∈ t, e ∈ t') :
    P.InTime t' d ip := by
  obtain ⟨hreply, time, sendTime, began, harrived, haccepted, helapsed⟩ := h
  exact ⟨hreply, time, sendTime, began, hsub _ harrived, hsub _ haccepted, helapsed⟩

/-! ### Replies that were read -/

/-- The source of a reply that was handled is found, by that datagram or by one before it. -/
theorem found_of_handled (hP : P.Ranged) (hs : P.Sized s₀)
    (hw : Reachable P.step (start s₀ k) w) (hd : .handled d ∈ w.trace) (hreply : d.IsReplyOf ip)
    (hlo : P.baseIp ≤ ip) (hhi : ip < P.baseIp + P.totalHosts) : ip ∈ w.st.foundIpsCache := by
  refine hw.invariant_of_runs (I := fun w => .handled d ∈ w.trace → ip ∈ w.st.foundIpsCache)
    ?_ ?_ hd
  · intro h
    cases h
  · intro u l v hreach h _ hstep hv
    by_cases hl : ∀ dns throws, l ≠ .message dns throws
    · have hfound : v.st.foundIpsCache = u.st.foundIpsCache :=
        congrArg Prod.fst (reports_step (step_cases hstep) hl)
      rcases mem_trace_step (step_cases hstep) hv with hold | ⟨dns, throws, rfl⟩
      · exact hfound ▸ h hold
      · exact absurd rfl (hl dns throws)
    · push Not at hl
      obtain ⟨dns, throws, rfl⟩ := hl
      have hslot := slotInv_of_reachable hP hs hreach
      cases step_cases hstep with
      | @message d' _ _ _ _ _ s _ hout =>
        dsimp only at hv ⊢
        rcases hslot.messageEvents_cases hP hout with ⟨hno, hsame, -, hev⟩ | ⟨hacc, happ, hev⟩
        · rw [hsame]
          rw [hev] at hv
          rcases List.mem_append.mp hv with hold | hnew
          · exact h hold
          · -- a reply of a host of the range that is not acceptable is a duplicate
            obtain rfl : d = d' := by simpa using hnew
            obtain rfl : d.srcIp = ip := hreply.2.2.2
            by_contra hnot
            exact hno ⟨hreply, hlo, hhi, hnot⟩
        · rw [happ]
          rw [hev] at hv
          rcases List.mem_append.mp hv with hold | hnew
          · exact List.mem_append_left _ (h hold)
          · obtain rfl : d = d' := by simpa using hnew
            obtain rfl : d.srcIp = ip := hreply.2.2.2
            exact List.mem_append_right _ (List.mem_singleton.mpr rfl)

/-- At the reap, the host of a reply in time is found or the reply is unread. -/
theorem found_or_unread (hP : P.Ranged) (hs : P.Sized s₀) (hw : Reachable P.step (start s₀ k) w)
    (hpc : w.pc = .reap) (hin : P.InTime w.trace d ip) :
    ip ∈ w.st.foundIpsCache ∨ d ∈ w.kernel.rxQueue := by
  obtain ⟨hreply, time, sendTime, began, harrived, haccepted, -⟩ := hin
  obtain ⟨taken, hdel⟩ := delivered_of_reachable hP hs hw
  have hmem : d ∈ taken ++ w.kernel.rxQueue := by
    rw [← hdel.queue]
    exact List.mem_append_right _ (List.mem_filterMap.mpr ⟨_, harrived, rfl⟩)
  refine (List.mem_append.mp hmem).imp ?_ id
  intro htaken
  -- the message loop is empty, so what was taken from the queue is handled
  have hloop := hdel.loop (by simp [hpc])
  rw [hpc] at hloop
  simp only [PingPc.unhandled, List.append_nil] at hloop
  have hhandled : d.received ∈ handledDatagrams w.trace := by
    rw [hloop]
    exact List.mem_map_of_mem htaken
  obtain ⟨e, he, hd⟩ := List.mem_filterMap.mp hhandled
  cases e <;> simp only [PingEvent.handledDatagram?, Option.some.injEq, reduceCtorEq] at hd
  subst hd
  obtain ⟨hlo, hhi, -⟩ := (coverInv_of_reachable hP hs hw).range_of_accepted
    (mem_acceptedIps.mpr ⟨_, _, haccepted⟩)
  exact found_of_handled hP hs hw he (Datagram.received_isReplyOf.mpr hreply) hlo hhi

/-! ### The end of the loop -/

/-- The control points behind the last reap: nothing is received any more. -/
def AtEnd (P : PingScanner) (w : PingWorld) : Prop :=
  (w.pc = .loopHead ∨ w.pc = .returned false) ∧ P.totalHosts ≤ w.st.nextHostIdx ∧
    w.st.activeProbes = 0

/-- When nothing is missed, the hosts of all replies in time are found at the end of the loop. -/
theorem found_atEnd (hP : P.Ranged) (hs : P.Sized s₀)
    (hw : Runs P.step P.MissesNothing (start s₀ k) w) (hend : P.AtEnd w)
    (hin : P.InTime w.trace d ip) : ip ∈ w.st.foundIpsCache := by
  suffices h : P.AtEnd w → ∀ d ip, P.InTime w.trace d ip → ip ∈ w.st.foundIpsCache from
    h hend d ip hin
  refine hw.invariant_of_runs
    (I := fun w => P.AtEnd w → ∀ d ip, P.InTime w.trace d ip → ip ∈ w.st.foundIpsCache) ?_ ?_
  · rintro - d ip ⟨-, time, sendTime, began, harrived, -⟩
    cases harrived
  · rintro u l v hrun h ⟨hforward, hok⟩ hstep hend d ip hin
    have hreach := hrun.reachable
    have hslot := slotInv_of_reachable hP hs hreach
    cases step_cases hstep with
    | tick => exact h hend d ip hin
    | leave hpc => exact h ⟨.inl hpc, hend.2⟩ d ip hin
    | arrive d' =>
      obtain ⟨hreply, time, sendTime, began, harrived, haccepted, helapsed⟩ := hin
      replace haccepted : .accepted ip sendTime began ∈ u.trace := by simpa using haccepted
      rcases List.mem_append.mp harrived with hold | hnew
      · exact h hend d ip ⟨hreply, time, sendTime, began, hold, haccepted, helapsed⟩
      · -- a reply that arrives now finds its probe answered, or expired and itself too late
        have hpc : u.pc.isFailing = false := by
          rcases hend.1 with hpc | hpc <;> exact (congrArg PingPc.isFailing hpc)
        have hledger := ledgerInv_of_reachable hP hs hreach hpc
        rcases hledger.settled hslot hend.2.2 haccepted with hfound | hexp
        · exact hfound
        · have hclock : Runs P.step ClockForward (start s₀ k) u := hrun.mono fun _ _ h => h.1
          have hlate := hexp.older hclock
          obtain ⟨-, rfl⟩ : d = d' ∧ time = u.kernel.clock := by simpa using hnew
          omega
    | reap hpc hout =>
      subst hout
      obtain ⟨-, hcursor, hactive⟩ := hend
      have hframe := P.reapTimedOutProbes_frame u.kernel.clock u.st
      have hfound : (P.reapTimedOutProbes u.kernel.clock u.st).foundIpsCache =
          u.st.foundIpsCache := congrArg Prod.fst hframe.2
      have hsame : (P.reapTimedOutProbes u.kernel.clock u.st).nextHostIdx = u.st.nextHostIdx :=
        congrArg Prod.fst hframe.1
      have hbefore : P.InTime u.trace d ip := by
        obtain ⟨hreply, time, sendTime, began, harrived, haccepted, helapsed⟩ := hin
        refine ⟨hreply, time, sendTime, began, ?_, ?_, helapsed⟩
        · refine (mem_trace_step (step_cases hstep) harrived).elim id ?_
          rintro ⟨hl, -⟩
          cases hl
        · refine (mem_trace_step (step_cases hstep) haccepted).elim id ?_
          rintro ⟨⟨n, k, hflush⟩, -⟩
          rw [hpc] at hflush
          cases hflush
      dsimp only
      rw [hfound]
      rcases found_or_unread hP hs hreach hpc hbefore with hyes | hunread
      · exact hyes
      · by_contra hno
        refine hok ⟨rfl, hpc, ?_, ?_, d, ip, hunread, hbefore, hno⟩
        · exact hsame ▸ hcursor
        · intro i p hi hp
          exact hslot.overdue_of_reap hP _ hactive hi hp
    | enter _ _ => rcases hend.1 with hpc | hpc <;> cases hpc
    | @populate _ _ n =>
      rcases hend.1 with hpc | hpc <;> · dsimp only at hpc; split at hpc <;> cases hpc
    | @message _ _ _ _ _ _ _ threw =>
      rcases hend.1 with hpc | hpc <;> · dsimp only at hpc; split at hpc <;> cases hpc
    | @batchDone full =>
      rcases hend.1 with hpc | hpc <;> · dsimp only at hpc; split at hpc <;> cases hpc
    | _ => rcases hend.1 with hpc | hpc <;> cases hpc

/-- A run misses nothing, or a host with a reply in time is unfound at the end. By induction on the
run: once a reply is missed, `run()` is past its last reap. -/
theorem missed_of_runs (hP : P.Ranged) (hs : P.Sized s₀)
    (hw : Runs P.step ClockForward (start s₀ k) w) :
    Runs P.step P.MissesNothing (start s₀ k) w ∨
      (P.AtEnd w ∧ ∃ d ip, P.InTime w.trace d ip ∧ ip ∉ w.st.foundIpsCache) := by
  refine hw.invariant_of_runs (I := fun w => Runs P.step P.MissesNothing (start s₀ k) w ∨
    (P.AtEnd w ∧ ∃ d ip, P.InTime w.trace d ip ∧ ip ∉ w.st.foundIpsCache)) (.inl .refl) ?_
  rintro u l v hrun (hclean | ⟨hend, d, ip, hin, hno⟩) hforward hstep
  · by_cases hmiss : l = .run ∧ P.MissesReply u
    · -- the reap that misses the reply empties the table
      right
      obtain ⟨rfl, hpc, hcursor, hold, d, ip, -, hin, hno⟩ := hmiss
      have hslot := slotInv_of_reachable hP hs hrun.reachable
      have hsub := subset_trace_step (step_cases hstep)
      cases step_cases hstep with
      | reap _ hout =>
        subst hout
        have hframe := P.reapTimedOutProbes_frame u.kernel.clock u.st
        have hfound : (P.reapTimedOutProbes u.kernel.clock u.st).foundIpsCache =
            u.st.foundIpsCache := congrArg Prod.fst hframe.2
        have hsame : (P.reapTimedOutProbes u.kernel.clock u.st).nextHostIdx = u.st.nextHostIdx :=
          congrArg Prod.fst hframe.1
        refine ⟨⟨.inl rfl, hsame.symm ▸ hcursor, hslot.reap_all hP _ hold⟩, d, ip,
          hin.mono hsub, ?_⟩
        exact hfound.symm ▸ hno
      | _ => simp_all
    · exact .inl (hclean.tail ⟨hforward, hmiss⟩ hstep)
  · right
    have hsub := subset_trace_step (step_cases hstep)
    obtain ⟨hpc, hcursor, hactive⟩ := hend
    cases step_cases hstep with
    | tick | arrive => exact ⟨⟨hpc, hcursor, hactive⟩, d, ip, hin.mono hsub, hno⟩
    | leave => exact ⟨⟨.inr rfl, hcursor, hactive⟩, d, ip, hin.mono hsub, hno⟩
    | enter _ hcond => omega
    | _ => simp_all

/-- **When a ping run is complete.** In a run that returns without a send failure and in which the
clock does not go back, the hosts of all replies in time are returned if and only if no step of the
run misses a reply. -/
theorem complete_iff {input : CString} {config : PingScannerConfig}
    (hparse : parseCidr input = some (config.baseIp, config.totalHosts)) (routedIp : Option ℕ)
    (ifaddrs : Option (List IfAddrs)) (pid : ℕ) {s₀ : PingState}
    (hs : (construct config routedIp ifaddrs pid).Sized s₀) (k : PingKernel)
    {w : PingWorld}
    (hw : Runs (construct config routedIp ifaddrs pid).step ClockForward (start s₀ k) w)
    (hret : w.pc = .returned false) :
    (construct config routedIp ifaddrs pid).Complete w ↔
      Runs (construct config routedIp ifaddrs pid).step
        (construct config routedIp ifaddrs pid).MissesNothing (start s₀ k) w := by
  have hP := ranged_construct hparse routedIp ifaddrs pid
  have hcached := (reportInv_of_reachable hP hs hw.reachable).cached (by simp [hret])
  constructor
  · intro hcomplete
    -- a missed reply leaves its host unfound, which the results then lack
    rcases missed_of_runs hP hs hw with hclean | ⟨-, d, ip, hin, hno⟩
    · exact hclean
    · exact absurd (hcached ▸ hcomplete d ip hin) hno
  -- without one, the source of every reply in time is found behind the last reap
  · intro hclean d ip hin
    rw [hcached]
    exact found_atEnd hP hs hclean ⟨.inr hret, left_of_returned hw.reachable hret⟩ hin

/-- `10.0.0.8/31` with both hosts answering at once: nothing is missed, and both are in the
results. -/
theorem complete_iff_pair : ∃ w, w.pc = .returned false ∧
    (construct { baseIp := 167772168, totalHosts := 2 } none none 7).Complete w ∧
    Runs (construct { baseIp := 167772168, totalHosts := 2 } none none 7).step
      (construct { baseIp := 167772168, totalHosts := 2 } none none 7).MissesNothing
      (start (construct { baseIp := 167772168, totalHosts := 2 } none none 7).initializeBuffers
        { clock := {}, rxQueue := [], rxEdge := false }) w := by
  obtain ⟨w, hw, hp⟩ := exists_runs_of_execWhen
    (M := (construct { baseIp := 167772168, totalHosts := 2 } none none 7).step)
    (s := start (construct { baseIp := 167772168, totalHosts := 2 } none none 7).initializeBuffers
      { clock := {}, rxQueue := [], rxEdge := false })
    ClockForward
    [.run, .run, .sendmmsg (.sent 2), .run, .arrive (echoReply 167772168 {}),
      .arrive (echoReply 167772169 {}), .epollWait .ready, .recvmmsg false, .message none false,
      .message none false, .run, .recvmmsg false, .run, .run]
    (fun w => w.pc == .returned false && w.st.scanResults.map (·.ip) == acceptedIps w.trace)
    (by decide)
  simp only [Bool.and_eq_true, beq_iff_eq] at hp
  have hparse : parseCidr [49, 48, 46, 48, 46, 48, 46, 56, 47, 51, 49] = some (167772168, 2) := by
    decide
  have hcomplete : (construct { baseIp := 167772168, totalHosts := 2 } none none 7).Complete w := by
    rintro d ip ⟨-, time, sendTime, began, -, haccepted, -⟩
    rw [hp.2]
    exact mem_acceptedIps.mpr ⟨_, _, haccepted⟩
  exact ⟨w, hp.1, hcomplete, (complete_iff hparse none none 7 (sized_initializeBuffers _) _ hw
    hp.1).mp hcomplete⟩

/-- Replies echo requests sent before and come from the hosts these were sent to. -/
def RepliesFromTargets (w : PingWorld) (l : PingLabel) : Prop :=
  ∀ d, l = .arrive d → EchoesRequest w.trace d ∧ d.IsReplyOf d.srcIp

instance (w : PingWorld) : (l : PingLabel) → Decidable (RepliesFromTargets w l)
  | .arrive d => decidable_of_iff (EchoesRequest w.trace d ∧ d.IsReplyOf d.srcIp)
      ⟨fun h _ hd => by cases hd; exact h, fun h => h d rfl⟩
  | .tick _ | .run | .sendmmsg _ | .wait _ _ _ | .epollWait _ | .recvmmsg _ | .message _ _ =>
    isTrue fun _ h => nomatch h

/-- `10.0.0.8/31`, both hosts answering at once: the second reply arrives while the name of the
first host is resolved. The resolver takes a second, the reap gives the second host up, and `run()`
returns with its reply in the queue. -/
theorem not_complete :
    parseCidr [49, 48, 46, 48, 46, 48, 46, 56, 47, 51, 49] = some (167772168, 2) ∧
    ∃ w, Runs (construct { baseIp := 167772168, totalHosts := 2 } none none 7).step
        (fun u l => ClockForward u l ∧ RepliesFromTargets u l ∧
          ¬ (construct { baseIp := 167772168, totalHosts := 2 } none none 7).SendFails l)
        (start (construct { baseIp := 167772168, totalHosts := 2 } none none 7).initializeBuffers
          { clock := {}, rxQueue := [], rxEdge := false }) w ∧
      w.pc = .returned false ∧ echoReply 167772169 {} ∈ w.kernel.rxQueue ∧
      ¬ (construct { baseIp := 167772168, totalHosts := 2 } none none 7).Complete w := by
  refine ⟨by decide, ?_⟩
  obtain ⟨w, hw, hp⟩ := exists_runs_of_execWhen
    (M := (construct { baseIp := 167772168, totalHosts := 2 } none none 7).step)
    (s := start (construct { baseIp := 167772168, totalHosts := 2 } none none 7).initializeBuffers
      { clock := {}, rxQueue := [], rxEdge := false })
    (fun u l => ClockForward u l ∧ RepliesFromTargets u l ∧
      ¬ (construct { baseIp := 167772168, totalHosts := 2 } none none 7).SendFails l)
    [.run, .run, .sendmmsg (.sent 2), .run, .arrive (echoReply 167772168 {}), .epollWait .ready,
      .recvmmsg false, .arrive (echoReply 167772169 {}), .tick { tvSec := 1 }, .message none false,
      .run, .run, .run]
    (fun w => w.pc == .returned false && w.kernel.rxQueue.contains (echoReply 167772169 {}) &&
      w.trace.contains (.arrived (echoReply 167772169 {}) {}) &&
      w.trace.contains (.accepted 167772169 {} {}) &&
      w.st.scanResults.map (·.ip) == [167772168])
    (by decide)
  simp only [Bool.and_eq_true, beq_iff_eq, List.contains_iff_mem] at hp
  obtain ⟨⟨⟨⟨hret, hunread⟩, harrived⟩, haccepted⟩, hresults⟩ := hp
  refine ⟨w, hw, hret, hunread, ?_⟩
  intro hcomplete
  -- the second host's reply arrived when its request was sent
  have hmem := hcomplete (echoReply 167772169 {}) 167772169
    ⟨by decide, {}, {}, {}, harrived, haccepted, by decide⟩
  rw [hresults] at hmem
  revert hmem
  decide

end PingScanner

end Netscan
