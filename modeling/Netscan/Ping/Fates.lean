import Netscan.Lib.Refinement
import Netscan.Lib.WindowScan
import Netscan.Ping.ProbeBalance

/-! # What becomes of the hosts of a ping run

`PingScanner::run` is a scan of its range through a window of `max_probes_` hosts: a host is
outstanding while it holds a slot, and it gets a fate when the cursor passes over it or its slot is
given back. The fates are a history variable of the run (`fates`). One turn of
`populate_batch_entries` is many moves of the abstract scan, and so is a reap (`scans_step`). A run
that returns without a send failure has given every host of the range exactly one fate. -/

namespace Netscan

open MachineInt SlotTable LabelledSystem WindowScan

/-- What can become of a host in a call of `run()`. The first two are fates of hosts that no request
is made for. -/
inductive PingFate where
  /-- It is an address of the local subnet itself. -/
  | skipped
  /-- It was found before the cursor reached it. -/
  | foundBefore
  /-- Its request was not sent, and its slot was given back. -/
  | unsent
  /-- Its reply was accepted while it held a slot. -/
  | answered
  /-- Its probe was reaped. -/
  | timedOut
  deriving DecidableEq, Repr

/-- The kernel has accepted the request to the host, and then an answer came or none did. -/
def PingFate.sent : PingFate → Bool
  | .answered | .timedOut => true
  | _ => false

/-- The four kinds of fates, with those of the hosts sent to taken together. -/
theorem PingFate.cases_kind (f : PingFate) :
    f = .skipped ∨ f = .foundBefore ∨ f = .unsent ∨ f.sent = true := by
  cases f <;> simp [PingFate.sent]

namespace PingScanner

variable {P : PingScanner} {s₀ s s' : PingState} {k : PingKernel} {w w' : PingWorld}
  {l : PingLabel} {fs : List (ℕ × PingFate)} {ip : ℕ} {f : PingFate}

/-- The fate of a host that the cursor passes over, or none if a slot is claimed for it. -/
def passFate (P : PingScanner) (s : PingState) (ip : ℕ) : Option PingFate :=
  if P.skipsLocal ip then some .skipped
  else if isHostFound s ip then some .foundBefore
  else none

theorem passFate_cases (h : P.passFate s ip = some f) :
    f = .skipped ∧ P.skipsLocal ip = true ∨ f = .foundBefore ∧ P.skipsLocal ip = false := by
  unfold passFate at h
  split at h
  · exact .inl ⟨(Option.some.inj h).symm, ‹_›⟩
  · rename_i hlocal
    split at h
    · exact .inr ⟨(Option.some.inj h).symm, Bool.eq_false_iff.mpr hlocal⟩
    · cases h

/-- The hosts whose slots are given back between two states, whatever the reason is. -/
def endedIps (s s' : PingState) : List ℕ :=
  (List.range s.probeTable.length).filterMap fun i =>
    if (probeAt s i).active && !(probeAt s' i).active then some (probeAt s i).destIp else none

/-- The fates that a step with label `l` from `w` gives: to the hosts passed over, and to the hosts
whose slots are given back. -/
def fates (P : PingScanner) (w : PingWorld) (l : PingLabel) : List (ℕ × PingFate) :=
  match w.pc, l with
  | .sendBatch, .run =>
    let s := (P.populateBatchEntries w.kernel.clock w.st).1
    (List.range' (P.baseIp + w.st.nextHostIdx) (s.nextHostIdx - w.st.nextHostIdx)).filterMap
      fun ip => (P.passFate w.st ip).map fun f => (ip, f)
  | .rollback n _ i, .run =>
    if i < n then
      let s := P.releaseProbeSlot (w.st.sendProbeSlots.getD i (-1)) w.st
      (endedIps w.st s).map fun ip => (ip, .unsent)
    else []
  | .handle (d :: _) _, .message dns throws =>
    let s := (P.receiveMessage w.kernel.clock dns throws d w.st).1
    (endedIps w.st s).map fun ip => (ip, .answered)
  | .reap, .run =>
    let s := P.reapTimedOutProbes w.kernel.clock w.st
    (endedIps w.st s).map fun ip => (ip, .timedOut)
  | _, _ => []

/-- The scan that a run with its fates amounts to: ahead are the hosts behind the cursor's place,
out those that hold slots, settled those with a fate. -/
def scanOf (P : PingScanner) (v : PingWorld × List (ℕ × PingFate)) : Scan ℕ PingFate where
  ahead := List.range' (P.baseIp + (reachedHosts v.1.trace).length)
    (P.totalHosts - (reachedHosts v.1.trace).length)
  out := (keys ProbeInfo.held v.1.st.probeTable : List ℕ)
  settled := v.2

/-! ### Every step is matched by moves -/

/-- The reap records the hosts whose slots it gives back, one event for each. -/
theorem timedOutIps_expiredEvents (now : Timespec) :
    timedOutIps (expiredEvents now s s') = endedIps s s' := by
  rw [timedOutIps, expiredEvents, endedIps, List.filterMap_filterMap]
  apply List.filterMap_congr
  intro i _
  split <;> rfl

/-- Slots that are given back held the hosts that end; the others still hold theirs. -/
theorem keys_perm_ended {gone : ProbeInfo → Prop} (h : Releases gone s s')
    (hlen : s'.probeTable.length = s.probeTable.length) :
    (keys ProbeInfo.held s.probeTable).Perm
      (keys ProbeInfo.held s'.probeTable ++ endedIps s s') := by
  rw [← timedOutIps_expiredEvents {}]
  exact keys_perm_expired h hlen {}

/-- Only `populate_batch_entries` moves the cursor past hosts, so other steps leave the hosts ahead
alone. -/
theorem reachedHosts_step (h : PingStep P w l w') (hl : l = .run → w.pc ≠ .sendBatch) :
    reachedHosts w'.trace = reachedHosts w.trace := by
  cases h with
  | populate hpc => exact absurd hpc (hl rfl)
  -- these three record events, but none of them is about the cursor
  | sent =>
    refine filterMap_append_of_none fun e he => ?_
    obtain ⟨i, -, -, rfl⟩ := mem_acceptedEvents he
    rfl
  | message =>
    refine filterMap_append_of_none fun e he => ?_
    obtain rfl | ⟨_, _, rfl⟩ := mem_messageEvents he <;> rfl
  | reap =>
    refine filterMap_append_of_none fun e he => ?_
    obtain ⟨i, -, -, rfl⟩ := mem_expiredEvents he
    rfl
  | arrive | refused | pollTimeout | recvFailed | recvEmpty | recvShort =>
    exact filterMap_append_of_none (by simp [PingEvent.reachedHost?])
  | _ => rfl

/-- A step that gives no fate, reaches no host and gives no slot back is no move of the scan. -/
theorem scans_quiet (hfates : P.fates w l = [])
    (hreached : reachedHosts w'.trace = reachedHosts w.trace)
    (htable : w'.st.probeTable = w.st.probeTable) :
    Scans P.maxProbes (P.scanOf (w, fs)) (P.scanOf (w', fs ++ P.fates w l)) := by
  have hsame : P.scanOf (w', fs ++ P.fates w l) = P.scanOf (w, fs) := by
    simp only [scanOf, hfates, hreached, htable, List.append_nil]
  rw [hsame]

/-- A step that gives slots back settles their hosts, all with the same fate. -/
theorem scans_ended (hslot : P.SlotInv w.st) (hslot' : P.SlotInv w'.st)
    {gone : ProbeInfo → Prop} (hrel : Releases gone w.st w'.st)
    (hreached : reachedHosts w'.trace = reachedHosts w.trace) (f : PingFate) :
    Scans P.maxProbes (P.scanOf (w, fs))
      (P.scanOf (w', fs ++ (endedIps w.st w'.st).map fun ip => (ip, f))) := by
  have hlen : w'.st.probeTable.length = w.st.probeTable.length :=
    hslot'.sized.probeTable.trans hslot.sized.probeTable.symm
  refine scans_settle ((endedIps w.st w'.st).map fun ip => (ip, f)) ?_ ?_
    (Multiset.coe_add fs _).symm
  · simp only [scanOf, hreached]
  · rw [List.map_map]
    simp only [Function.comp_def, List.map_id']
    exact Multiset.coe_eq_coe.mpr (keys_perm_ended hrel hlen)

/-- The batch takes the hosts that the cursor reaches and does not pass over, so the two together
are all that it reaches. -/
theorem eligible_eq_filter (c c' : ℕ) :
    P.eligible s.foundIpsCache c c' =
      (List.range' (P.baseIp + c) (c' - c)).filter fun ip => (P.passFate s ip).isNone := by
  rw [eligible, ← List.map_add_range', List.filter_map]
  congr 1
  apply List.filter_congr
  intro h _
  by_cases hlocal : P.skipsLocal (P.baseIp + h) = true <;>
    by_cases hfound : P.baseIp + h ∈ s.foundIpsCache <;>
    simp [passFate, isHostFound, hlocal, hfound]

/-- `populate_batch_entries` passes over hosts and takes the others: in the scan, one block of moves
along the stretch that the cursor has covered. -/
theorem scans_populate (hP : P.Ranged) (hslot : P.SlotInv w.st) (hcover : P.CoverInv w)
    (hcover' : P.CoverInv w') (hpc : w.pc = .sendBatch) {n : ℕ}
    (hout : P.populateBatchEntries w.kernel.clock w.st = (w'.st, n))
    (hpc' : w'.pc.isAborted = false) :
    Scans P.maxProbes (P.scanOf (w, fs)) (P.scanOf (w', fs ++ P.fates w .run)) := by
  have hab : w.pc.isAborted = false := by rw [hpc]; rfl
  have hpop := populated_populateBatchEntries hP hslot (hcover.fresh hab) hout
  have hcursor := hcover.cursor hab
  have hcursor' := hcover'.cursor hpc'
  have htotal := hcover'.total
  have hle := hpop.cursor_le
  have hfates : P.fates w .run =
      (List.range' (P.baseIp + w.st.nextHostIdx) (w'.st.nextHostIdx - w.st.nextHostIdx)).filterMap
        fun ip => (P.passFate w.st ip).map fun f => (ip, f) := by
    simp only [fates, hpc, hout]
  -- the stretch of the range that the cursor covers is the block of the scan
  rw [hfates]
  refine scans_block
    (List.range' (P.baseIp + w.st.nextHostIdx) (w'.st.nextHostIdx - w.st.nextHostIdx))
    (P.passFate w.st) ?_ ?_ (Multiset.coe_add fs _).symm ?_
  · show List.range' (P.baseIp + (reachedHosts w.trace).length) _ =
      _ ++ List.range' (P.baseIp + (reachedHosts w'.trace).length) _
    rw [← hcursor, ← hcursor',
      show P.baseIp + w'.st.nextHostIdx =
        P.baseIp + w.st.nextHostIdx + (w'.st.nextHostIdx - w.st.nextHostIdx) by omega,
      List.range'_append_1]
    congr 1
    omega
  -- the hosts of the stretch that are not passed over are those that now hold slots
  · have hkeys := hpop.keys_perm hslot (hcover.fresh hab)
    rw [hpop.addrs, eligible_eq_filter] at hkeys
    exact Multiset.coe_eq_coe.mpr (hkeys.trans List.perm_append_comm)
  · have hactive := hpop.slotInv.active_le
    rwa [hpop.slotInv.count] at hactive

/-- The environment's own steps give no fate to any host. -/
theorem fates_env (henv : l.isEnv = true) : P.fates w l = [] := by
  unfold fates
  cases l with
  | tick | arrive => split <;> first | rfl | contradiction
  | _ => cases henv

/-- Other steps of the scanner than those four give no fate: populating, releasing, handling and
reaping. -/
theorem fates_quiet (hsend : w.pc ≠ .sendBatch) (hreap : w.pc ≠ .reap)
    (hroll : ∀ n k i, w.pc = .rollback n k i → n ≤ i)
    (hmessage : ∀ dns throws, l ≠ .message dns throws) : P.fates w l = [] := by
  unfold fates
  split
  · exact absurd ‹_› hsend
  · rename_i n k i hpc
    rw [if_neg (Nat.not_lt_of_le (hroll n k i hpc))]
  · exact absurd rfl (hmessage _ _)
  · exact absurd ‹_› hreap
  · rfl

/-- The fates of a released slot: its host was not sent to. -/
theorem fates_release {n k i : ℕ} (hpc : w.pc = .rollback n k i) (hlt : i < n)
    (hout : P.releaseProbeSlot (w.st.sendProbeSlots.getD i (-1)) w.st = s) :
    P.fates w .run = (endedIps w.st s).map fun ip => (ip, .unsent) := by
  simp only [fates, hpc, hlt, if_true, hout]

/-- The fates of a handled datagram: if a slot is given back, its host is answered. -/
theorem fates_message {d : Datagram} {batch : List Datagram} {full : Bool} {dns : Option String}
    {throws threw : Bool} (hpc : w.pc = .handle (d :: batch) full)
    (hout : P.receiveMessage w.kernel.clock dns throws d w.st = (s, threw)) :
    P.fates w (.message dns throws) = (endedIps w.st s).map fun ip => (ip, .answered) := by
  simp only [fates, hpc, hout]

/-- The fates of a reap: the hosts whose slots are given back are timed out. -/
theorem fates_reap (hpc : w.pc = .reap) (hout : P.reapTimedOutProbes w.kernel.clock w.st = s) :
    P.fates w .run = (endedIps w.st s).map fun ip => (ip, .timedOut) := by
  simp only [fates, hpc, hout]

/-- **Every step of a run is matched by moves of the scan.** Four kinds of steps make moves:
populating, the release of a slot, a message and the reap. All others leave the scan where it is. -/
theorem scans_step (hP : P.Ranged) (hslot : P.SlotInv w.st) (hcover : P.CoverInv w)
    (hstep : PingStep P w l w') :
    Scans P.maxProbes (P.scanOf (w, fs)) (P.scanOf (w', fs ++ P.fates w l)) := by
  have hslot' := hslot.step hP hstep
  have hcover' := hcover.step hP hslot hstep
  have hreached : (l = .run → w.pc ≠ .sendBatch) →
      reachedHosts w'.trace = reachedHosts w.trace := reachedHosts_step hstep
  cases hstep with
  -- the four kinds of steps that make moves
  | populate hpc hout =>
    exact scans_populate hP hslot hcover hcover' hpc hout (by dsimp only; split <;> rfl)
  | @release _ _ i hpc hlt t hout =>
    have hrel := hslot.releases_releaseProbeSlot hP (w.st.sendProbeSlots.getD i (-1))
    rw [hout] at hrel
    have hended : endedIps w.st { t with sendProbeSlots := t.sendProbeSlots.set i (-1) } =
        endedIps w.st t := rfl
    rw [fates_release hpc hlt hout, ← hended]
    exact scans_ended hslot hslot' (hrel.trans (.of_eq rfl)) (hreached (by simp [hpc])) _
  | @message d _ _ dns throws hpc _ _ hout =>
    have hrel := hslot.releases_receiveMessage hP w.kernel.clock dns throws d
    rw [hout] at hrel
    rw [fates_message hpc hout]
    exact scans_ended hslot hslot' hrel (hreached nofun) _
  | reap hpc hout =>
    have hrel := hslot.releases_reap hP w.kernel.clock (List.range w.st.probeTable.length)
    have hrel' : Releases _ w.st (P.reapTimedOutProbes w.kernel.clock w.st) := hrel
    rw [hout] at hrel'
    rw [fates_reap hpc hout]
    exact scans_ended hslot hslot' hrel' (hreached (by simp [hpc])) _
  -- all others give no fate, reach no host and give no slot back
  | tick | arrive => exact scans_quiet (fates_env rfl) (hreached nofun) rfl
  | rollbackDone hpc hle =>
    refine scans_quiet (fates_quiet (by simp [hpc]) (by simp [hpc]) ?_ nofun)
      (hreached (by simp [hpc])) rfl
    intro n' k' i' heq
    rw [hpc] at heq
    cases heq
    exact hle
  | enter hpc | leave hpc | sent hpc | again hpc | refused hpc | writable hpc | notWritable hpc
  | waitThrew hpc | flushDone hpc | pollReady hpc | pollTimeout hpc | pollFailed hpc
  | recvFailed hpc | recvEmpty hpc | recvZero hpc | recvShort hpc | recvFull hpc
  | batchDone hpc =>
    exact scans_quiet
      (fates_quiet (by simp [hpc]) (by simp [hpc]) (by simp [hpc]) (by simp))
      (hreached (by simp [hpc])) rfl

/-! ### What the fates say -/

/-- What the fates given so far say about the run: whom they are given to, and how they compare with
the history. -/
structure FateInv (P : PingScanner) (w : PingWorld) (fs : List (ℕ × PingFate)) : Prop where
  /-- Only addresses of the local subnet itself are skipped, and they are not looked up. -/
  passed : ∀ ip, ((ip, .skipped) ∈ fs → P.skipsLocal ip = true) ∧
    ((ip, .foundBefore) ∈ fs → P.skipsLocal ip = false)
  /-- Slots are given back unsent by a failing run only. -/
  unsent : w.pc.isFailing = false → ∀ ip, (ip, .unsent) ∉ fs
  /-- The hosts answered are those whose replies came while they held a slot. -/
  answered : (targetsWith (· == .answered) fs).Perm (inTimeIps w.trace)
  /-- The hosts timed out are those that were reaped. -/
  timedOut : (targetsWith (· == .timedOut) fs).Perm (timedOutIps w.trace)

/-- A step that gives the fates `us`, and records the events `u`: it is enough to look at these
two. -/
theorem FateInv.append (h : P.FateInv w fs) {us : List (ℕ × PingFate)}
    (hpassed : ∀ ip, ((ip, .skipped) ∈ us → P.skipsLocal ip = true) ∧
      ((ip, .foundBefore) ∈ us → P.skipsLocal ip = false))
    (hunsent : w'.pc.isFailing = false → w.pc.isFailing = false ∧ ∀ ip, (ip, .unsent) ∉ us)
    {u : List PingEvent} (htrace : w'.trace = w.trace ++ u)
    (hanswered : (targetsWith (· == .answered) us).Perm (inTimeIps u))
    (htimedOut : (targetsWith (· == .timedOut) us).Perm (timedOutIps u)) :
    P.FateInv w' (fs ++ us) where
  passed ip := by
    constructor
    · exact fun hmem => (List.mem_append.mp hmem).elim (h.passed ip).1 (hpassed ip).1
    · exact fun hmem => (List.mem_append.mp hmem).elim (h.passed ip).2 (hpassed ip).2
  -- a run that does not fail has not failed before either
  unsent hpc ip hmem := by
    obtain ⟨hpc, hus⟩ := hunsent hpc
    exact (List.mem_append.mp hmem).elim (h.unsent hpc ip) (hus ip)
  answered := by
    rw [targetsWith_append, htrace, inTimeIps, List.filterMap_append]
    exact h.answered.append hanswered
  timedOut := by
    rw [targetsWith_append, htrace, timedOutIps, List.filterMap_append]
    exact h.timedOut.append htimedOut

/-- A run that fails does not recover: it rolls back and returns. -/
theorem isFailing_step (h : PingStep P w l w') (hpc' : w'.pc.isFailing = false) :
    w.pc.isFailing = false := by
  cases h with
  | tick | arrive => exact hpc'
  | release | rollbackDone => cases hpc'
  | populate hpc | message hpc | reap hpc | enter hpc | leave hpc | sent hpc | again hpc
  | refused hpc | writable hpc | notWritable hpc | waitThrew hpc | flushDone hpc | pollReady hpc
  | pollTimeout hpc | pollFailed hpc | recvFailed hpc | recvEmpty hpc | recvZero hpc
  | recvShort hpc | recvFull hpc | batchDone hpc =>
    rw [hpc]
    rfl

/-- A step that gives no fate and settles no host keeps what the fates say. -/
theorem FateInv.quiet (h : P.FateInv w fs) (hstep : PingStep P w l w') (hfates : P.fates w l = [])
    {u : List PingEvent} (htrace : w'.trace = w.trace ++ u)
    (hu : ∀ e ∈ u, e.inTimeIp? = none ∧ e.timedOutIp? = none) :
    P.FateInv w' (fs ++ P.fates w l) := by
  rw [hfates]
  refine h.append (by simp) (fun hpc => ⟨isFailing_step hstep hpc, by simp⟩) htrace ?_ ?_
  · rw [inTimeIps, List.filterMap_eq_nil_iff.mpr fun e he => (hu e he).1]
    rfl
  · rw [timedOutIps, List.filterMap_eq_nil_iff.mpr fun e he => (hu e he).2]
    rfl

/-- A step that gives all hosts the same fate, and no fate to hosts passed over: what it records
must be these hosts. -/
theorem FateInv.ended (h : P.FateInv w fs) (hstep : PingStep P w l w') {ips : List ℕ}
    (hsent : f.sent = true) {u : List PingEvent} (htrace : w'.trace = w.trace ++ u)
    (hanswered : (if f = .answered then ips else []).Perm (inTimeIps u))
    (htimedOut : (if f = .timedOut then ips else []).Perm (timedOutIps u)) :
    P.FateInv w' (fs ++ ips.map fun ip => (ip, f)) := by
  have hfate : ∀ ip g, (ip, g) ∈ (ips.map fun ip => (ip, f)) → g.sent = true := by
    intro ip g hmem
    obtain ⟨_, -, heq⟩ := List.mem_map.mp hmem
    cases heq
    exact hsent
  -- all fates of the step are of hosts sent to, so none is that of a host passed over or unsent
  refine h.append (fun ip => ⟨fun hmem => ?_, fun hmem => ?_⟩) (fun hpc => ?_) htrace ?_ ?_
  · cases hfate ip _ hmem
  · cases hfate ip _ hmem
  · exact ⟨isFailing_step hstep hpc, fun ip hmem => by cases hfate ip _ hmem⟩
  · rw [targetsWith_map]
    simpa using hanswered
  · rw [targetsWith_map]
    simpa using htimedOut

/-- The fates that populating gives are those of hosts that are not sent to, told apart by the skip
test. -/
theorem mem_fates_populate (hpc : w.pc = .sendBatch) (hmem : (ip, f) ∈ P.fates w .run) :
    f = .skipped ∧ P.skipsLocal ip = true ∨ f = .foundBefore ∧ P.skipsLocal ip = false := by
  simp only [fates, hpc, List.mem_filterMap, Option.map_eq_some_iff] at hmem
  obtain ⟨_, -, _, hf, heq⟩ := hmem
  cases heq
  exact passFate_cases hf

/-- Populating keeps what the fates say: it settles hosts, but answers none and times none out. -/
theorem FateInv.populate (h : P.FateInv w fs) (hpc : w.pc = .sendBatch)
    (htrace : w'.trace = w.trace ++ P.reachedEvents w.st s) :
    P.FateInv w' (fs ++ P.fates w .run) := by
  have hnone : ∀ kind : PingFate → Bool, kind .skipped = false → kind .foundBefore = false →
      targetsWith kind (P.fates w .run) = [] := by
    intro kind hskipped hbefore
    refine List.eq_nil_iff_forall_not_mem.mpr fun ip hip => ?_
    obtain ⟨f, hf, hfate⟩ := mem_targetsWith.mp hip
    obtain ⟨rfl, -⟩ | ⟨rfl, -⟩ := mem_fates_populate hpc hfate
    · rw [hskipped] at hf
      cases hf
    · rw [hbefore] at hf
      cases hf
  -- the fates given are of hosts passed over, and the events are those of the cursor
  refine h.append (fun ip => ⟨fun hf => ?_, fun hf => ?_⟩) (fun _ => ⟨by rw [hpc]; rfl, ?_⟩) htrace
    ?_ ?_
  · exact (mem_fates_populate hpc hf).elim (·.2) (fun hother => by cases hother.1)
  · exact (mem_fates_populate hpc hf).elim (fun hother => by cases hother.1) (·.2)
  · intro ip hf
    obtain ⟨hother, -⟩ | ⟨hother, -⟩ := mem_fates_populate hpc hf <;> cases hother
  · rw [hnone _ rfl rfl, inTimeIps, List.filterMap_eq_nil_iff.mpr]
    intro e he
    obtain ⟨i, rfl⟩ := mem_reachedEvents he
    rfl
  · rw [hnone _ rfl rfl, timedOutIps, List.filterMap_eq_nil_iff.mpr]
    intro e he
    obtain ⟨i, rfl⟩ := mem_reachedEvents he
    rfl

/-- The hosts whose slots a datagram ends are those whose reply came in time. -/
theorem perm_ended_message {d : Datagram} {dns : Option String} {throws threw : Bool}
    {now : Timespec} (hP : P.Ranged) (hslot : P.SlotInv w.st) (hslot' : P.SlotInv s)
    (hout : P.receiveMessage now dns throws d w.st = (s, threw)) :
    (endedIps w.st s).Perm (inTimeIps (P.messageEvents d w.st s)) := by
  have hrel := hslot.releases_receiveMessage hP now dns throws d
  rw [hout] at hrel
  have hended := keys_perm_ended hrel
    (hslot'.sized.probeTable.trans hslot.sized.probeTable.symm)
  have hsettled := hslot.keys_perm_message hP hout
  -- both lists are what the table loses
  have hperm : (endedIps w.st s).Perm (settledIps (P.messageEvents d w.st s)) :=
    (List.perm_append_left_iff _).mp (hended.symm.trans hsettled)
  have hreplies : ∀ e ∈ P.messageEvents d w.st s, e.settledIp? = e.inTimeIp? := by
    intro e he
    obtain rfl | ⟨_, held, rfl⟩ := mem_messageEvents he
    · rfl
    · cases held <;> rfl
  rw [inTimeIps, ← List.filterMap_congr hreplies]
  exact hperm

/-- Every step keeps what the fates say, by `append`, `ended` and `quiet`: for each step it remains
to compare the fates that it gives with the events that it records. -/
theorem FateInv.step (hP : P.Ranged) (hslot : P.SlotInv w.st) (h : P.FateInv w fs)
    (hstep : PingStep P w l w') : P.FateInv w' (fs ++ P.fates w l) := by
  have htaken := hstep
  cases hstep with
  -- the steps that give fates; a released slot is one of a run that fails
  | populate hpc hout => exact h.populate hpc rfl
  | @release _ _ i hpc hlt t hout =>
    rw [fates_release hpc hlt hout]
    refine h.append (by simp) (by simp [PingPc.isFailing]) (List.append_nil _).symm ?_ ?_
    · rw [targetsWith_map]
      rfl
    · rw [targetsWith_map]
      rfl
  | message hpc hout =>
    rw [fates_message hpc hout]
    refine h.ended htaken rfl rfl ?_ ?_
    · rw [if_pos rfl]
      exact perm_ended_message hP hslot (hslot.step hP htaken) hout
    · rw [timedOutIps, List.filterMap_eq_nil_iff.mpr]
      · rfl
      · intro e he
        obtain rfl | ⟨_, held, rfl⟩ := mem_messageEvents he <;> rfl
  | reap hpc hout =>
    rw [fates_reap hpc hout]
    refine h.ended htaken rfl rfl ?_ ?_
    · rw [inTimeIps, List.filterMap_eq_nil_iff.mpr]
      · rfl
      · intro e he
        obtain ⟨i, -, -, rfl⟩ := mem_expiredEvents he
        rfl
    · rw [if_pos rfl, timedOutIps_expiredEvents]
  -- the steps that give none; some of them record events, but none that settles a host
  | sent hpc =>
    refine h.quiet htaken (fates_quiet (by simp [hpc]) (by simp [hpc]) (by simp [hpc]) (by simp))
      rfl fun e he => ?_
    obtain ⟨i, -, -, rfl⟩ := mem_acceptedEvents he
    exact ⟨rfl, rfl⟩
  | tick => exact h.quiet htaken (fates_env rfl) (List.append_nil _).symm (by simp)
  | arrive =>
    exact h.quiet htaken (fates_env rfl) rfl
      (by simp [PingEvent.inTimeIp?, PingEvent.timedOutIp?])
  | rollbackDone hpc hle =>
    refine h.quiet htaken (fates_quiet (by simp [hpc]) (by simp [hpc]) ?_ (by simp))
      (List.append_nil _).symm (by simp)
    intro n' k' i' heq
    rw [hpc] at heq
    cases heq
    exact hle
  | enter hpc | leave hpc | again hpc | writable hpc | notWritable hpc | waitThrew hpc
  | flushDone hpc | pollReady hpc | pollFailed hpc | recvZero hpc | recvFull hpc | batchDone hpc =>
    exact h.quiet htaken
      (fates_quiet (by simp [hpc]) (by simp [hpc]) (by simp [hpc]) (by simp))
      (List.append_nil _).symm (by simp)
  | refused hpc | pollTimeout hpc | recvFailed hpc | recvEmpty hpc | recvShort hpc =>
    exact h.quiet htaken
      (fates_quiet (by simp [hpc]) (by simp [hpc]) (by simp [hpc]) (by simp)) rfl
      (by simp [PingEvent.inTimeIp?, PingEvent.timedOutIp?])

/-! ### Runs -/

/-- Every run, with the fates it gives, is matched by a scan of its range. -/
theorem scans_of_reachable (hP : P.Ranged) (hs : P.Sized s₀)
    (hw : Reachable (withHistory P.step P.fates) (start s₀ k, []) (w, fs)) :
    Scans P.maxProbes (.begin (List.range' P.baseIp P.totalHosts)) (P.scanOf (w, fs)) := by
  have hbegin : P.scanOf (start s₀ k, []) = .begin (List.range' P.baseIp P.totalHosts) := by
    have hnil : keys ProbeInfo.held (beginRun s₀).probeTable = [] :=
      keys_eq_nil (by simp [beginRun])
    show (⟨_, (keys ProbeInfo.held (beginRun s₀).probeTable : List ℕ), _⟩ : Scan ℕ PingFate) = _
    rw [hnil]
    rfl
  rw [← hbegin]
  refine hw.reflTransGen P.scanOf ?_
  rintro ⟨u, us⟩ l ⟨v, vs⟩ hreach - hstep
  obtain ⟨hstep, rfl⟩ := withHistory_eq_some.mp hstep
  have hplain := Reachable.forget_history hreach
  exact scans_step hP (slotInv_of_reachable hP hs hplain) (coverInv_of_reachable hP hs hplain)
    (step_cases hstep)

/-- The fates of every run say what they should, in every state and not only at its end. -/
theorem fateInv_of_reachable (hP : P.Ranged) (hs : P.Sized s₀)
    (hw : Reachable (withHistory P.step P.fates) (start s₀ k, []) (w, fs)) :
    P.FateInv w fs := by
  refine hw.invariant_of_runs (I := fun v => P.FateInv v.1 v.2)
    ⟨fun _ => ⟨nofun, nofun⟩, fun _ _ => nofun, .refl _, .refl _⟩ ?_
  rintro ⟨u, us⟩ l ⟨v, vs⟩ hreach h - hstep
  obtain ⟨hstep, rfl⟩ := withHistory_eq_some.mp hstep
  exact h.step hP (slotInv_of_reachable hP hs (Reachable.forget_history hreach)) (step_cases hstep)

/-- What the fates of a run that returned without a send failure say about the range. -/
structure Decided (config : PingScannerConfig) (routedIp : Option ℕ)
    (ifaddrs : Option (List IfAddrs)) (w : PingWorld) (fs : List (ℕ × PingFate)) : Prop where
  /-- Every address of the range has one fate, and no other address has any. -/
  once : (fs.map Prod.fst).Perm (List.range' config.baseIp config.totalHosts)
  /-- No slot was given back unsent. -/
  unsent : ∀ ip, (ip, .unsent) ∉ fs
  /-- The hosts answered or timed out are those whose requests the kernel accepted. -/
  sent : (targetsWith PingFate.sent fs).Perm (acceptedIps w.trace)
  /-- The hosts answered are those whose replies came while they held a slot. -/
  answered : (targetsWith (· == .answered) fs).Perm (inTimeIps w.trace)
  /-- The hosts timed out are those that were reaped. -/
  timedOut : (targetsWith (· == .timedOut) fs).Perm (timedOutIps w.trace)
  /-- The hosts skipped are the addresses of the local subnet itself. -/
  skipped : ∀ ip, (ip, .skipped) ∈ fs ↔
    (∃ h < config.totalHosts, ip = config.baseIp + h) ∧ IsSubnetAddress routedIp ifaddrs ip
  /-- The hosts found before are the others whose replies came before the cursor did. -/
  foundBefore : ∀ ip, (ip, .foundBefore) ∈ fs ↔
    ∃ h < config.totalHosts, ip = config.baseIp + h ∧
      ¬ IsSubnetAddress routedIp ifaddrs ip ∧ FoundBefore config.baseIp w.trace h

/-- A run that returns without a send failure has settled its range: no host is ahead, and none is
out. -/
theorem map_fst_of_returned (hP : P.Ranged) (hs : P.Sized s₀)
    (hw : Reachable (withHistory P.step P.fates) (start s₀ k, []) (w, fs))
    (hret : w.pc = .returned false) :
    (fs.map Prod.fst).Perm (List.range' P.baseIp P.totalHosts) := by
  have hplain : Reachable P.step (start s₀ k) w := Reachable.forget_history hw
  obtain ⟨htotal, hactive⟩ := left_of_returned hplain hret
  have hcursor := (coverInv_of_reachable hP hs hplain).cursor (by rw [hret]; rfl)
  have hahead : (P.scanOf (w, fs)).ahead = [] := by
    show List.range' _ (P.totalHosts - (reachedHosts w.trace).length) = []
    rw [← hcursor, Nat.sub_eq_zero_of_le htotal, List.range'_zero]
  have hout : (P.scanOf (w, fs)).out = 0 := by
    have hcount := (slotInv_of_reachable hP hs hplain).count
    rw [hactive] at hcount
    exact (Multiset.coe_eq_zero _).mpr (List.length_eq_zero_iff.mp hcount.symm)
  exact Multiset.coe_eq_coe.mp ((scans_of_reachable hP hs hw).map_settled hahead hout)

/-- In a run that returns without a send failure, the hosts settled are those sent to. -/
theorem FateInv.sent (h : P.FateInv w fs) (hP : P.Ranged) (hs : P.Sized s₀)
    (hw : Reachable P.step (start s₀ k) w) (hret : w.pc = .returned false) :
    (targetsWith PingFate.sent fs).Perm (acceptedIps w.trace) := by
  have hnil : keys ProbeInfo.held w.st.probeTable = [] :=
    List.length_eq_zero_iff.mp
      ((slotInv_of_reachable hP hs hw).count.symm.trans (left_of_returned hw hret).2)
  have haccounted := accounted_of_reachable hP hs hw (by rw [hret]; rfl)
  rw [Accounted, pending_eq_nil (by rw [hret]; rfl), List.append_nil, hnil, List.nil_append]
    at haccounted
  -- the hosts sent to are those answered and those timed out, and every accepted request has ended
  -- as one of them
  have hkinds : ∀ f : PingFate, f.sent = (f == .timedOut || f == .answered) := by
    intro f
    cases f <;> rfl
  have hdisjoint : ∀ f : PingFate, (f == .timedOut) = true → (f == .answered) = false := by
    intro f hf
    cases f <;> first | rfl | cases hf
  have hsplit := targetsWith_perm_append hkinds hdisjoint fs
  exact (hsplit.trans (h.timedOut.append h.answered)).trans
    ((haccounted.trans (settledIps_perm w.trace)).symm)

section Returned

variable {h : ℕ} (hfate : P.FateInv w fs) (hret : w.pc = .returned false)
  (hunique : ∀ f g, (ip, f) ∈ fs → (ip, g) ∈ fs → f = g)
  (hsent : (targetsWith PingFate.sent fs).Perm (acceptedIps w.trace))
  (haccepted : ip ∈ acceptedIps w.trace ↔
    P.skipsLocal ip = false ∧ ¬ FoundBefore P.baseIp w.trace h)
  (hmem : (ip, f) ∈ fs)

include hfate hret hsent haccepted hmem

/-- The hosts skipped are those that the skip test finds: they were not sent to, and not found
before. -/
theorem skipped_iff : (ip, .skipped) ∈ fs ↔ P.skipsLocal ip = true := by
  refine ⟨(hfate.passed ip).1, fun hlocal => ?_⟩
  obtain rfl | rfl | rfl | hf := f.cases_kind
  · exact hmem
  · exact absurd (hlocal.symm.trans ((hfate.passed ip).2 hmem)) (by decide)
  · exact absurd hmem (hfate.unsent (by rw [hret]; rfl) ip)
  · have hto := haccepted.mp (hsent.subset (mem_targetsWith.mpr ⟨f, hf, hmem⟩))
    exact absurd (hlocal.symm.trans hto.1) (by decide)

include hunique

/-- The hosts found before are the others whose replies came before the cursor reached them. -/
theorem foundBefore_iff : (ip, .foundBefore) ∈ fs ↔
    P.skipsLocal ip = false ∧ FoundBefore P.baseIp w.trace h := by
  constructor
  · intro hfound
    have hlocal := (hfate.passed ip).2 hfound
    refine ⟨hlocal, by_contra fun hnot => ?_⟩
    -- otherwise a request is sent to the host, and it has a second fate
    obtain ⟨g, hg, hmem'⟩ :=
      mem_targetsWith.mp (hsent.symm.subset (haccepted.mpr ⟨hlocal, hnot⟩))
    rw [← hunique _ _ hfound hmem'] at hg
    cases hg
  · rintro ⟨hlocal, hbefore⟩
    obtain rfl | rfl | rfl | hf := f.cases_kind
    · exact absurd (((hfate.passed ip).1 hmem).symm.trans hlocal) (by decide)
    · exact hmem
    · exact absurd hmem (hfate.unsent (by rw [hret]; rfl) ip)
    · have hto := haccepted.mp (hsent.subset (mem_targetsWith.mpr ⟨f, hf, hmem⟩))
      exact absurd hbefore hto.2

end Returned

section Decided

variable {config : PingScannerConfig} {routedIp : Option ℕ} {ifaddrs : Option (List IfAddrs)}
  {pid : ℕ}

/-- **The hosts are decided.** A run on a scanner for a parsed range is, with the fates it gives, a
scan of the range through a window of `max_probes_` hosts: in every state at most that many hosts
hold slots. When it returns without a send failure, every address of the range has got exactly one
fate: answered or timed out if the kernel accepted its request, and skipped or found before if none
was made. -/
theorem hosts_decided {input : CString}
    (hparse : parseCidr input = some (config.baseIp, config.totalHosts))
    (hs : (construct config routedIp ifaddrs pid).Sized s₀)
    (hw : Reachable (withHistory (construct config routedIp ifaddrs pid).step
      (construct config routedIp ifaddrs pid).fates) (start s₀ k, []) (w, fs)) :
    Scans (construct config routedIp ifaddrs pid).maxProbes
      (.begin (List.range' config.baseIp config.totalHosts))
      ((construct config routedIp ifaddrs pid).scanOf (w, fs)) ∧
    (keys ProbeInfo.held w.st.probeTable).length ≤
      (construct config routedIp ifaddrs pid).maxProbes ∧
    (w.pc = .returned false → Decided config routedIp ifaddrs w fs) := by
  have hP := ranged_construct hparse routedIp ifaddrs pid
  have hscan := scans_of_reachable hP hs hw
  refine ⟨hscan, hscan.card_out_le, fun hret => ?_⟩
  have hplain : Reachable (construct config routedIp ifaddrs pid).step (start s₀ k) w :=
    Reachable.forget_history hw
  have hfate := fateInv_of_reachable hP hs hw
  have hsent := hfate.sent hP hs hplain hret
  have honce : (fs.map Prod.fst).Perm (List.range' config.baseIp config.totalHosts) :=
    map_fst_of_returned hP hs hw hret
  have hunique : ∀ ip f g, (ip, f) ∈ fs → (ip, g) ∈ fs → f = g := fun ip f g hf hg =>
    fate_unique honce (List.nodup_range' ..) hf hg
  have hrange : ∀ ip f, (ip, f) ∈ fs → ∃ h < config.totalHosts, ip = config.baseIp + h := by
    intro ip f hmem
    obtain ⟨hlo, hhi⟩ := List.mem_range'_1.mp ((exists_fate_iff honce).mp ⟨f, hmem⟩)
    exact ⟨ip - config.baseIp, by omega, by omega⟩
  have hgiven : ∀ h < config.totalHosts, ∃ f, (config.baseIp + h, f) ∈ fs := fun h hlt =>
    (exists_fate_iff honce).mpr (List.mem_range'_1.mpr ⟨by omega, by omega⟩)
  -- which hosts are sent to is known from the coverage of the run
  have haccepted : ∀ h < config.totalHosts, config.baseIp + h ∈ acceptedIps w.trace ↔
      (construct config routedIp ifaddrs pid).skipsLocal (config.baseIp + h) = false ∧
        ¬ FoundBefore config.baseIp w.trace h := by
    intro h hlt
    rw [mem_acceptedIps_of_returned (coverInv_of_reachable hP hs hplain)
      (answerInv_of_reachable hP hs hplain) hret (left_of_returned hplain hret).1]
    constructor
    · rintro ⟨h', -, heq, hto⟩
      rwa [show h' = h from (Nat.add_left_cancel heq).symm] at hto
    · exact fun hto => ⟨h, hlt, rfl, hto⟩
  -- what remains is to tell the two fates of hosts that are not sent to
  refine ⟨honce, hfate.unsent (by rw [hret]; rfl), hsent, hfate.answered, hfate.timedOut,
    fun ip => ?_, fun ip => ?_⟩
  · constructor
    · intro hskip
      obtain ⟨h, hlt, rfl⟩ := hrange _ _ hskip
      exact ⟨⟨h, hlt, rfl⟩, (skipsLocal_construct hP hlt).mp ((hfate.passed _).1 hskip)⟩
    · rintro ⟨⟨h, hlt, rfl⟩, hsub⟩
      obtain ⟨f, hmem⟩ := hgiven h hlt
      exact (skipped_iff hfate hret hsent (haccepted h hlt) hmem).mpr
        ((skipsLocal_construct hP hlt).mpr hsub)
  · have hlocal : ∀ h < config.totalHosts,
        ¬ IsSubnetAddress routedIp ifaddrs (config.baseIp + h) ↔
          (construct config routedIp ifaddrs pid).skipsLocal (config.baseIp + h) = false := by
      intro h hlt
      rw [← skipsLocal_construct hP hlt, Bool.not_eq_true]
    constructor
    · intro hfound
      obtain ⟨h, hlt, rfl⟩ := hrange _ _ hfound
      have hboth := (foundBefore_iff hfate hret (hunique _) hsent (haccepted h hlt) hfound).mp
        hfound
      exact ⟨h, hlt, rfl, (hlocal h hlt).mpr hboth.1, hboth.2⟩
    · rintro ⟨h, hlt, rfl, hnot, hbefore⟩
      obtain ⟨f, hmem⟩ := hgiven h hlt
      exact (foundBefore_iff hfate hret (hunique _) hsent (haccepted h hlt) hmem).mpr
        ⟨(hlocal h hlt).mp hnot, hbefore⟩

/-- `10.0.0.8/31` with one message per batch: the reply of the second host comes before the cursor
does, and the first one times out. -/
theorem hosts_decided_pair : ∃ (w : PingWorld) (fs : List (ℕ × PingFate)),
    w.pc = .returned false ∧ acceptedIps w.trace = [167772168] ∧
    Decided { baseIp := 167772168, totalHosts := 2, sendBatchSize := 1 } none none w fs := by
  obtain ⟨w, hw, hp⟩ := exists_reachable_of_exec (M := (construct
      { baseIp := 167772168, totalHosts := 2, sendBatchSize := 1 } none none 7).step)
    (s := start (construct { baseIp := 167772168, totalHosts := 2, sendBatchSize := 1 }
      none none 7).initializeBuffers
      { clock := {}, rxQueue := [], rxEdge := false })
    [.run, .run, .sendmmsg (.sent 1), .run,
      .arrive (echoReply 167772169 {}), .epollWait .ready, .recvmmsg false, .message none false,
      .run, .run, .run, .run, .epollWait .timeout, .tick { tvSec := 1 }, .run, .run]
    (fun w => w.pc == .returned false && acceptedIps w.trace == [167772168])
    (by decide)
  simp only [Bool.and_eq_true, beq_iff_eq] at hp
  have hparse : parseCidr [49, 48, 46, 48, 46, 48, 46, 56, 47, 51, 49] = some (167772168, 2) := by
    decide
  obtain ⟨fs, hfs⟩ := hw.exists_history
    (r := (construct { baseIp := 167772168, totalHosts := 2, sendBatchSize := 1 }
      none none 7).fates) []
  exact ⟨w, fs, hp.1, hp.2,
    (hosts_decided hparse (sized_initializeBuffers _) hfs).2.2 hp.1⟩

end Decided

end PingScanner

end Netscan
