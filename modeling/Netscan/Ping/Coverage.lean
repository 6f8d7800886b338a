import Netscan.Ping.SlotSafety
import Netscan.Ping.Trace

/-! # A ping run covers its range exactly

The requests that the kernel has accepted and those still waiting in the batch are together the
hosts to be probed that the cursor has passed (`CoverInv`). A run that returns without a send
failure has passed every host and has nothing waiting. -/

namespace Netscan

open MachineInt SlotTable LabelledSystem History

/-- The size of the batch in `send_msgvec_` and the number of its messages that are sent. -/
def PingPc.batch? : PingPc → Option (ℕ × ℕ)
  | .flush n k | .waitWritable n k | .rollback n k _ => some (n, k)
  | _ => none

/-- `run()` ended by a send failure or an exception, so nothing is promised about the hosts that are
left. -/
def PingPc.isAborted : PingPc → Bool
  | .returned true | .thrown => true
  | _ => false

namespace PingScanner

variable {P : PingScanner} {s₀ : PingState} {k : PingKernel} {w w' : PingWorld} {l : PingLabel}

/-- The addresses of the messages that still wait to be sent: those of the batch behind the flush's
place in it. -/
def pending (w : PingWorld) : List ℕ :=
  match w.pc.batch? with
  | some (n, k) => (w.st.sendAddrs.take n).drop k
  | none => []

/-- The coverage invariant: what the cursor has reached and what was sent to, at every point of a
run and not only at its end. -/
structure CoverInv (P : PingScanner) (w : PingWorld) : Prop where
  /-- The cursor passes the hosts one by one. -/
  reached : reachedHosts w.trace = List.range (reachedHosts w.trace).length
  /-- It passes no more hosts than there are. -/
  total : (reachedHosts w.trace).length ≤ P.totalHosts
  /-- It stands behind the hosts that it has passed. -/
  cursor : w.pc.isAborted = false → w.st.nextHostIdx = (reachedHosts w.trace).length
  /-- Hosts from the cursor on hold no slot. -/
  fresh : w.pc.isAborted = false → P.CursorFresh w.st
  /-- The batch fits `send_addrs_`. -/
  batch : ∀ n k, w.pc.batch? = some (n, k) → k ≤ n ∧ n ≤ w.st.sendAddrs.length
  /-- The hosts to be probed are those whose requests are accepted and those waiting. -/
  sent : w.pc.isAborted = false → acceptedIps w.trace ++ pending w = P.eligibleIps w.trace
  /-- Nothing but hosts to be probed is sent to. -/
  sentPrefix : acceptedIps w.trace <+: P.eligibleIps w.trace

/-- Steps that neither move the cursor nor send keep the invariant. Almost all steps are of this
kind. -/
theorem CoverInv.quiet (h : P.CoverInv w) (hpc : w'.pc.isAborted = false → w.pc.isAborted = false)
    (hcursor : w'.st.nextHostIdx = w.st.nextHostIdx) (haddrs : w'.st.sendAddrs = w.st.sendAddrs)
    (hback : ∀ ip, backPointers P.baseIp w'.st.hostToProbe ip ≠ none →
      backPointers P.baseIp w.st.hostToProbe ip ≠ none)
    (hbatch : w'.pc.isAborted = true ∧ w'.pc.batch? = none ∨ w'.pc.batch? = w.pc.batch?)
    {u : List PingEvent} (htrace : w'.trace = w.trace ++ u)
    (hu : ∀ e ∈ u, e.acceptedIp? = none ∧ e.reachedHost? = none) : P.CoverInv w' := by
  have haccepted : acceptedIps w'.trace = acceptedIps w.trace := by
    have : acceptedIps u = [] := List.filterMap_eq_nil_iff.mpr fun e he => (hu e he).1
    rw [htrace, acceptedIps, List.filterMap_append]
    exact (congrArg _ this).trans (List.append_nil _)
  have hreached : reachedHosts w'.trace = reachedHosts w.trace := by
    have : reachedHosts u = [] := List.filterMap_eq_nil_iff.mpr fun e he => (hu e he).2
    rw [htrace, reachedHosts, List.filterMap_append]
    exact (congrArg _ this).trans (List.append_nil _)
  have heligible : P.eligibleIps w'.trace = P.eligibleIps w.trace := by
    have : P.eligibleIps u = [] := List.filterMap_eq_nil_iff.mpr fun e he => by
      cases e <;> first | rfl | cases (hu _ he).2
    rw [htrace, eligibleIps, List.filterMap_append]
    exact (congrArg _ this).trans (List.append_nil _)
  -- nothing that the invariant reads has changed, except that the run may have ended badly
  refine ⟨?_, ?_, fun ha => ?_, fun ha ip hip => ?_, fun n k hnk => ?_, fun ha => ?_, ?_⟩
  · rw [hreached]
    exact h.reached
  · rw [hreached]
    exact h.total
  · rw [hreached, hcursor]
    exact h.cursor (hpc ha)
  · rw [hcursor]
    exact h.fresh (hpc ha) ip (hback ip hip)
  · rcases hbatch with ⟨-, hnone⟩ | hsame
    · rw [hnone] at hnk
      cases hnk
    · rw [haddrs]
      exact h.batch n k (hsame ▸ hnk)
  · rcases hbatch with ⟨hab, -⟩ | hsame
    · rw [hab] at ha
      cases ha
    · have hpend : pending w' = pending w := by rw [pending, pending, hsame, haddrs]
      rw [haccepted, hpend, heligible]
      exact h.sent (hpc ha)
  · rw [haccepted, heligible]
    exact h.sentPrefix

/-- `populate_batch_entries` keeps the invariant: the stretch that the cursor covers is reached, and
the hosts to be probed in it wait to be sent to. -/
theorem CoverInv.populate (hP : P.Ranged) (hslot : P.SlotInv w.st) (h : P.CoverInv w)
    (hpc : w.pc = .sendBatch) {s : PingState} {n : ℕ}
    (hout : P.populateBatchEntries w.kernel.clock w.st = (s, n)) :
    P.CoverInv { w with
      st := s
      pc := if n = 0 then .receive else .flush n 0
      trace := w.trace ++ P.reachedEvents w.st s } := by
  have hab : w.pc.isAborted = false := by rw [hpc]; rfl
  have hcursor := h.cursor hab
  have hpop := populated_populateBatchEntries hP hslot (h.fresh hab) hout
  have hle := hpop.cursor_le
  have htotal : s.nextHostIdx ≤ P.totalHosts := by
    have := hpop.cursor_total
    have := h.total
    omega
  have hreached : reachedHosts (w.trace ++ P.reachedEvents w.st s) =
      List.range s.nextHostIdx := by
    rw [reachedHosts, List.filterMap_append]
    change reachedHosts w.trace ++ reachedHosts (P.reachedEvents w.st s) = _
    have hconcat : List.range' 0 w.st.nextHostIdx ++ List.range' (0 + w.st.nextHostIdx)
        (s.nextHostIdx - w.st.nextHostIdx) = List.range' 0 _ := List.range'_append_1
    rw [Nat.zero_add, Nat.add_sub_cancel' hle] at hconcat
    rw [reachedHosts_reachedEvents, h.reached, ← hcursor, List.range_eq_range', hconcat,
      List.range_eq_range']
  have haccepted : acceptedIps (w.trace ++ P.reachedEvents w.st s) = acceptedIps w.trace := by
    have : acceptedIps (P.reachedEvents w.st s) = [] :=
      List.filterMap_eq_nil_iff.mpr fun e he => by
        obtain ⟨i, rfl⟩ := mem_reachedEvents he
        rfl
    rw [acceptedIps, List.filterMap_append]
    exact (congrArg _ this).trans (List.append_nil _)
  have heligible : P.eligibleIps (w.trace ++ P.reachedEvents w.st s) =
      acceptedIps w.trace ++ s.sendAddrs.take n := by
    have hpend : pending w = [] := by simp [pending, PingPc.batch?, hpc]
    have hsent := h.sent hab
    rw [hpend, List.append_nil] at hsent
    rw [eligibleIps, List.filterMap_append]
    change P.eligibleIps w.trace ++ P.eligibleIps (P.reachedEvents w.st s) = _
    rw [eligibleIps_reachedEvents hP htotal, hsent, hpop.addrs]
  have hlen : n ≤ s.sendAddrs.length := by
    rw [hpop.slotInv.sized.sendAddrs]
    have := hpop.size
    omega
  -- the three lists behind the batch are known, and the invariant is read off from them
  refine ⟨?_, ?_, fun _ => ?_, fun _ => hpop.fresh, fun n' k' hnk => ?_, fun _ => ?_, ?_⟩
  · rw [hreached, List.length_range]
  · rw [hreached, List.length_range]
    exact htotal
  · rw [hreached, List.length_range]
  · dsimp only at hnk ⊢
    split at hnk
    · cases hnk
    · cases hnk
      exact ⟨Nat.zero_le _, hlen⟩
  · rw [haccepted, heligible]
    congr 1
    simp only [pending]
    split
    · rename_i hb
      split at hb
      · cases hb
      · cases hb
        rfl
    · rename_i hb
      split at hb
      · rename_i hn
        simp [hn]
      · cases hb
  · rw [haccepted, heligible]
    exact List.prefix_append _ _

/-- An accepting `sendmmsg` moves the addresses of messages from the pending ones to the accepted
ones. -/
theorem accepted_append_pending {n k count : ℕ} (hpc : w.pc = .flush n k) (hle : k + count ≤ n)
    (hlen : n ≤ w.st.sendAddrs.length) :
    acceptedIps (w.trace ++ acceptedEvents w.st w.kernel.clock k count) ++ pending { w with
      pc := .flush n (k + count)
      trace := w.trace ++ acceptedEvents w.st w.kernel.clock k count } =
      acceptedIps w.trace ++ pending w := by
  have hpend : pending w = (w.st.sendAddrs.take n).drop k := by
    simp [pending, PingPc.batch?, hpc]
  have hsplit : (w.st.sendAddrs.take n).drop k =
      (w.st.sendAddrs.drop k).take count ++ (w.st.sendAddrs.take n).drop (k + count) := by
    rw [← List.take_append_drop count ((w.st.sendAddrs.take n).drop k), List.drop_drop,
      List.drop_take, List.take_take, Nat.min_eq_left (by omega)]
  rw [hpend, hsplit, ← List.append_assoc, acceptedIps, List.filterMap_append]
  change acceptedIps w.trace ++ acceptedIps (acceptedEvents w.st w.kernel.clock k count) ++ _ = _
  rw [acceptedIps_acceptedEvents (by omega)]
  rfl

/-- An accepting `sendmmsg` keeps the invariant: hosts that wait become hosts sent to, in their
order. -/
theorem CoverInv.sendmmsg (h : P.CoverInv w) {n k count : ℕ} (hpc : w.pc = .flush n k)
    (hle : k + count ≤ n) :
    P.CoverInv { w with
      pc := .flush n (k + count)
      trace := w.trace ++ acceptedEvents w.st w.kernel.clock k count } := by
  have hab : w.pc.isAborted = false := by rw [hpc]; rfl
  obtain ⟨-, hlen⟩ := h.batch n k (by rw [hpc]; rfl)
  have hnone : ∀ e ∈ acceptedEvents w.st w.kernel.clock k count, e.reachedHost? = none ∧
      P.eligibleIp? e = none := by
    intro e he
    obtain ⟨i, -, -, rfl⟩ := mem_acceptedEvents he
    exact ⟨rfl, rfl⟩
  have hreached : reachedHosts (w.trace ++ acceptedEvents w.st w.kernel.clock k count) =
      reachedHosts w.trace := by
    have : reachedHosts (acceptedEvents w.st w.kernel.clock k count) = [] :=
      List.filterMap_eq_nil_iff.mpr fun e he => (hnone e he).1
    rw [reachedHosts, List.filterMap_append]
    exact (congrArg _ this).trans (List.append_nil _)
  have heligible : P.eligibleIps (w.trace ++ acceptedEvents w.st w.kernel.clock k count) =
      P.eligibleIps w.trace := by
    have : P.eligibleIps (acceptedEvents w.st w.kernel.clock k count) = [] :=
      List.filterMap_eq_nil_iff.mpr fun e he => (hnone e he).2
    rw [eligibleIps, List.filterMap_append]
    exact (congrArg _ this).trans (List.append_nil _)
  have hsent : acceptedIps (w.trace ++ acceptedEvents w.st w.kernel.clock k count) ++
      (w.st.sendAddrs.take n).drop (k + count) = P.eligibleIps w.trace := by
    rw [← h.sent hab, ← accepted_append_pending hpc hle hlen]
    rfl
  -- accepted and waiting together are what they were, so only their border has moved
  refine ⟨?_, ?_, fun _ => ?_, fun _ => h.fresh hab, fun n' k' hnk => ?_, fun _ => ?_, ?_⟩
  · rw [hreached]
    exact h.reached
  · rw [hreached]
    exact h.total
  · rw [hreached]
    exact h.cursor hab
  · cases hnk
    exact ⟨hle, hlen⟩
  · rw [heligible]
    exact hsent
  · rw [heligible]
    exact ⟨_, hsent⟩

/-- Every step keeps the coverage invariant, and two of them do more than to leave it alone. -/
theorem CoverInv.step (hP : P.Ranged) (hslot : P.SlotInv w.st) (h : P.CoverInv w)
    (hstep : PingStep P w l w') : P.CoverInv w' := by
  have hslot' := hslot.step hP hstep
  cases hstep with
  | populate hpc hout => exact h.populate hP hslot hpc hout
  | sent hpc _ hle => exact h.sendmmsg hpc hle
  | @flushDone n k hpc hle =>
    -- nothing of the batch is left, so forgetting it changes nothing
    have hpend : pending w = [] := by
      simp only [pending, PingPc.batch?, hpc]
      exact List.drop_eq_nil_of_le (by rw [List.length_take]; omega)
    have hab : w.pc.isAborted = false := by rw [hpc]; rfl
    have hsent := h.sent hab
    rw [hpend] at hsent
    exact ⟨h.reached, h.total, fun _ => h.cursor hab, fun _ => h.fresh hab, nofun, fun _ => hsent,
      h.sentPrefix⟩
  | rollbackDone hpc => exact ⟨h.reached, h.total, nofun, nofun, nofun, nofun, h.sentPrefix⟩
  | @release n k i hpc hlt s hout =>
    subst hout
    obtain ⟨hsend, -⟩ := P.releaseProbeSlot_frame (w.st.sendProbeSlots.getD i (-1)) w.st
    simp only [PingState.sending, Prod.mk.injEq] at hsend
    have hrel := hslot.releases_releaseProbeSlot hP (w.st.sendProbeSlots.getD i (-1))
    exact h.quiet (fun _ => by rw [hpc]; rfl) hsend.1 hsend.2.1
      (fun ip => hrel.back hslot (hslot.releaseProbeSlot hP _)) (.inr (by rw [hpc]; rfl))
      (List.append_nil _).symm (by simp)
  | @message d batch full dns throws hpc s threw hout =>
    have hsend := hslot.sending_receiveMessage hP w.kernel.clock dns throws d
    have hrel := hslot.releases_receiveMessage hP w.kernel.clock dns throws d
    rw [hout] at hsend hrel
    simp only [PingState.sending, Prod.mk.injEq] at hsend
    refine h.quiet (fun _ => by rw [hpc]; rfl) hsend.1 hsend.2.1
      (fun ip => hrel.back hslot hslot') ?_ rfl fun e he => ?_
    · cases threw
      · exact .inr (by rw [hpc]; rfl)
      · exact .inl ⟨rfl, rfl⟩
    · obtain rfl | ⟨_, _, rfl⟩ := mem_messageEvents he <;> exact ⟨rfl, rfl⟩
  | reap hpc hout =>
    subst hout
    obtain ⟨hsend, -⟩ := P.reapTimedOutProbes_frame w.kernel.clock w.st
    simp only [PingState.sending, Prod.mk.injEq] at hsend
    refine h.quiet (fun _ => by rw [hpc]; rfl) hsend.1 hsend.2.1
      (fun ip => (hslot.releases_reap hP _ _).back hslot hslot') (.inr (by rw [hpc]; rfl)) rfl
      fun e he => ?_
    obtain ⟨i, -, -, rfl⟩ := mem_expiredEvents he
    exact ⟨rfl, rfl⟩
  | tick => exact h.quiet id rfl rfl (fun _ => id) (.inr rfl) (List.append_nil _).symm (by simp)
  | arrive =>
    exact h.quiet id rfl rfl (fun _ => id) (.inr rfl) rfl
      (by simp [PingEvent.acceptedIp?, PingEvent.reachedHost?])
  | waitThrew hpc =>
    exact h.quiet (fun _ => by rw [hpc]; rfl) rfl rfl (fun _ => id) (.inl ⟨rfl, rfl⟩)
      (List.append_nil _).symm (by simp)
  | @batchDone full hpc =>
    exact h.quiet (fun _ => by rw [hpc]; rfl) rfl rfl (fun _ => id)
      (.inr (by rw [hpc]; cases full <;> rfl)) (List.append_nil _).symm (by simp)
  | enter hpc | leave hpc | again hpc | writable hpc | notWritable hpc | pollReady hpc
  | pollFailed hpc | recvZero hpc | recvFull hpc =>
    exact h.quiet (fun _ => by rw [hpc]; rfl) rfl rfl (fun _ => id) (.inr (by rw [hpc]; rfl))
      (List.append_nil _).symm (by simp)
  | refused hpc | pollTimeout hpc | recvFailed hpc | recvEmpty hpc | recvShort hpc =>
    exact h.quiet (fun _ => by rw [hpc]; rfl) rfl rfl (fun _ => id) (.inr (by rw [hpc]; rfl)) rfl
      (by simp [PingEvent.acceptedIp?, PingEvent.reachedHost?])

/-- The coverage invariant holds in every reachable state, of failing runs too. -/
theorem coverInv_of_reachable (hP : P.Ranged) (hs : P.Sized s₀)
    (hw : Reachable P.step (start s₀ k) w) : P.CoverInv w := by
  refine hw.invariant_of_runs (I := P.CoverInv) ?_ ?_
  · refine ⟨rfl, Nat.zero_le _, fun _ => rfl, fun _ ip hip => ?_, nofun, fun _ => rfl,
      List.prefix_rfl⟩
    -- the tables are filled with their defaults, so no host holds a slot
    obtain ⟨i, hi⟩ := Option.ne_none_iff_exists'.mp hip
    obtain ⟨p, hp, hheld⟩ := ((slotInv_beginRun hs).linked ip i).mp hi
    have hmem : p ∈ (beginRun s₀).probeTable := List.mem_of_getElem? hp
    obtain ⟨-, rfl⟩ : s₀.probeTable ≠ [] ∧ p = {} := by simpa [beginRun] using hmem
    cases hheld
  · intro u l v hreach h _ hstep
    exact h.step hP (slotInv_of_reachable hP hs hreach) (step_cases hstep)

/-- Hosts that are sent to are hosts of the range and no addresses of the local subnet itself. -/
theorem CoverInv.range_of_accepted (h : P.CoverInv w) {ip : ℕ} (hip : ip ∈ acceptedIps w.trace) :
    P.baseIp ≤ ip ∧ ip < P.baseIp + P.totalHosts ∧ P.skipsLocal ip = false := by
  obtain ⟨i, hmem, hlocal, rfl⟩ := mem_eligibleIps.mp (h.sentPrefix.subset hip)
  have hreached : i ∈ reachedHosts w.trace := List.mem_filterMap.mpr ⟨_, hmem, rfl⟩
  rw [h.reached, List.mem_range] at hreached
  have htotal := h.total
  exact ⟨by omega, by omega, hlocal⟩

/-! ### Found when reached -/

/-- `found_ips_cache_` holds the hosts answered so far, and the trace says of each host that the
cursor passed whether it had been answered before. -/
structure AnswerInv (P : PingScanner) (w : PingWorld) : Prop where
  /-- The cache is the list of the answered hosts. -/
  found : w.st.foundIpsCache = answeredIps w.trace
  /-- A host is marked as found when it was answered before the cursor reached it. -/
  marked : Always (fun pre e => ∀ h f, e = .reached h f → h < P.totalHosts →
    (f = true ↔ P.baseIp + h ∈ answeredIps pre)) w.trace

/-- Steps that report nothing and pass no host keep the record of the answers. -/
theorem AnswerInv.quiet (h : P.AnswerInv w) (hrep : w'.st.reports = w.st.reports)
    {u : List PingEvent} (htrace : w'.trace = w.trace ++ u)
    (hu : ∀ e ∈ u, e.answeredIp? = none ∧ e.reachedHost? = none) : P.AnswerInv w' where
  found := by
    have hnone : answeredIps u = [] := List.filterMap_eq_nil_iff.mpr fun e he => (hu e he).1
    have hfound : w'.st.foundIpsCache = w.st.foundIpsCache := congrArg Prod.fst hrep
    rw [hfound, h.found, htrace, answeredIps, answeredIps, List.filterMap_append]
    exact ((congrArg _ hnone).trans (List.append_nil _)).symm
  marked := by
    rw [htrace]
    refine h.marked.append_of_forall ?_
    rintro e he pre i f rfl
    cases (hu _ he).2

/-- `populate_batch_entries` keeps the record: the hosts that it passes are marked with what the
cache knows of them. -/
theorem AnswerInv.populate (hP : P.Ranged) (h : P.AnswerInv w) {s : PingState} {pc : PingPc}
    (hrep : s.reports = w.st.reports) :
    P.AnswerInv { w with st := s, pc := pc, trace := w.trace ++ P.reachedEvents w.st s } where
  found := by
    have hnone : answeredIps (P.reachedEvents w.st s) = [] :=
      List.filterMap_eq_nil_iff.mpr fun e he => by obtain ⟨i, rfl⟩ := mem_reachedEvents he; rfl
    have hfound : s.foundIpsCache = w.st.foundIpsCache := congrArg Prod.fst hrep
    rw [hfound, h.found, answeredIps, answeredIps, List.filterMap_append]
    exact ((congrArg _ hnone).trans (List.append_nil _)).symm
  marked := by
    refine always_append.mpr ⟨h.marked, ?_⟩
    rintro pre e post hpost i f rfl hlt
    -- the events of the batch answer nobody, so what was answered before is what the cache holds
    have hpre : answeredIps (w.trace ++ pre) = w.st.foundIpsCache := by
      have hnone : answeredIps pre = [] := List.filterMap_eq_nil_iff.mpr fun e he => by
        have hmem : e ∈ P.reachedEvents w.st s := by rw [hpost]; exact List.mem_append_left _ he
        obtain ⟨i, rfl⟩ := mem_reachedEvents hmem
        rfl
      rw [h.found, answeredIps, List.filterMap_append]
      exact (congrArg _ hnone).trans (List.append_nil _)
    have hmem : PingEvent.reached i f ∈ P.reachedEvents w.st s := by rw [hpost]; simp
    obtain ⟨j, hj⟩ := mem_reachedEvents hmem
    cases hj
    rw [hpre, target_eq hP hlt, isHostFound, List.contains_iff_mem]

/-- Every step keeps the record; only a message can change it. -/
theorem AnswerInv.step (hP : P.Ranged) (hslot : P.SlotInv w.st) (h : P.AnswerInv w)
    (hstep : PingStep P w l w') : P.AnswerInv w' := by
  cases hstep with
  | populate _ hout =>
    refine h.populate hP ?_
    have := P.reports_populateBatchEntries w.kernel.clock w.st
    rwa [hout] at this
  | sent =>
    refine h.quiet rfl rfl fun e he => ?_
    obtain ⟨i, -, -, rfl⟩ := mem_acceptedEvents he
    exact ⟨rfl, rfl⟩
  | reap _ hout =>
    subst hout
    refine h.quiet (P.reapTimedOutProbes_frame _ w.st).2 rfl fun e he => ?_
    obtain ⟨i, -, -, rfl⟩ := mem_expiredEvents he
    exact ⟨rfl, rfl⟩
  | release _ _ hout =>
    subst hout
    exact h.quiet (P.releaseProbeSlot_frame _ w.st).2 (List.append_nil _).symm (by simp)
  -- a reply that is accepted is found and answered at once
  | message _ hout =>
    rcases hslot.messageEvents_cases hP hout with ⟨-, hfound, -, hev⟩ | ⟨-, hfound, hev⟩ <;>
      rw [hev]
    · refine ⟨?_, h.marked.append_of_forall (by simp)⟩
      simp [hfound, h.found, answeredIps, PingEvent.answeredIp?]
    · refine ⟨?_, h.marked.append_of_forall (by simp)⟩
      simp [hfound, h.found, answeredIps, PingEvent.answeredIp?, List.filterMap_cons]
  | tick | enter | leave | again | writable | notWritable | waitThrew | flushDone | rollbackDone
  | pollReady | pollFailed | recvZero | recvFull | batchDone =>
    exact h.quiet rfl (List.append_nil _).symm (by simp)
  | arrive | refused | pollTimeout | recvFailed | recvEmpty | recvShort =>
    exact h.quiet rfl rfl (by simp [PingEvent.answeredIp?, PingEvent.reachedHost?])

/-- The record of the answers is kept in every reachable state. -/
theorem answerInv_of_reachable (hP : P.Ranged) (hs : P.Sized s₀)
    (hw : Reachable P.step (start s₀ k) w) : P.AnswerInv w := by
  refine hw.invariant_of_runs (I := P.AnswerInv) ⟨rfl, always_nil⟩ ?_
  intro u l v hreach h _ hstep
  exact h.step hP (slotInv_of_reachable hP hs hreach) (step_cases hstep)

/-! ### Exact coverage -/

/-- The reply of host `h` was accepted before the cursor reached it. -/
def FoundBefore (base : ℕ) (t : List PingEvent) (h : ℕ) : Prop :=
  ∃ pre f post, t = pre ++ .reached h f :: post ∧ base + h ∈ answeredIps pre

/-- A host found before it was reached is answered, and stays so. -/
theorem FoundBefore.answered {base h : ℕ} {t : List PingEvent} (hf : FoundBefore base t h) :
    base + h ∈ answeredIps t := by
  obtain ⟨pre, f, post, rfl, hmem⟩ := hf
  rw [answeredIps, List.filterMap_append]
  exact List.mem_append_left _ hmem

/-- A scanner skips the network and broadcast address of the interface that `fetch` selects. -/
theorem skipsLocal_construct {config : PingScannerConfig} {routedIp : Option ℕ}
    {ifaddrs : Option (List IfAddrs)} {pid h : ℕ}
    (hP : (construct config routedIp ifaddrs pid).Ranged) (hlt : h < config.totalHosts) :
    (construct config routedIp ifaddrs pid).skipsLocal (config.baseIp + h) = true ↔
      IsSubnetAddress routedIp ifaddrs (config.baseIp + h) := by
  have hfits : config.baseIp + config.totalHosts ≤ 2 ^ 32 := hP.fits
  have hhosts : config.totalHosts ≤ 2 ^ 31 := hP.hosts
  have hcast : u32 config.totalHosts = config.totalHosts := u32_of_lt (by omega)
  rw [← fetch_skips routedIp ifaddrs hfits hlt]
  simp [skipsLocal, construct, hcast]

/-- In a run without a send failure, the hosts sent to are those that the cursor passed, that are
no address of the local subnet itself and that were not found when they were reached. -/
theorem mem_acceptedIps_of_returned (hcover : P.CoverInv w) (hans : P.AnswerInv w)
    (hret : w.pc = .returned false) (htotal : P.totalHosts ≤ w.st.nextHostIdx) {ip : ℕ} :
    ip ∈ acceptedIps w.trace ↔ ∃ h < P.totalHosts, ip = P.baseIp + h ∧
      P.skipsLocal (P.baseIp + h) = false ∧ ¬ FoundBefore P.baseIp w.trace h := by
  have hab : w.pc.isAborted = false := by rw [hret]; rfl
  have hpend : pending w = [] := by simp [pending, PingPc.batch?, hret]
  have hsent := hcover.sent hab
  rw [hpend, List.append_nil] at hsent
  have hall : reachedHosts w.trace = List.range P.totalHosts := by
    have := hcover.cursor hab
    have := hcover.total
    rw [hcover.reached]
    congr 1
    omega
  have hnodup : (reachedHosts w.trace).Nodup := by
    rw [hall]
    exact List.nodup_range
  rw [hsent, mem_eligibleIps]
  -- what the mark of a host says is whether it was answered before it was reached
  constructor
  · rintro ⟨h, hmem, hlocal, rfl⟩
    have hlt : h < P.totalHosts := by
      rw [← List.mem_range, ← hall]
      exact List.mem_filterMap.mpr ⟨_, hmem, rfl⟩
    refine ⟨h, hlt, rfl, hlocal, ?_⟩
    rintro ⟨pre, f, post, ht, hbefore⟩
    have hf := (hans.marked pre _ post ht h f rfl hlt).mpr hbefore
    have hmem' : PingEvent.reached h f ∈ w.trace := by rw [ht]; simp
    have := eq_of_nodup_filterMap hnodup hmem hmem' rfl rfl
    cases this
    cases hf
  · rintro ⟨h, hlt, rfl, hlocal, hnot⟩
    have hreached : h ∈ reachedHosts w.trace := by
      rw [hall]
      exact List.mem_range.mpr hlt
    obtain ⟨e, he, hh⟩ := List.mem_filterMap.mp hreached
    cases e <;> simp only [PingEvent.reachedHost?, Option.some.injEq, reduceCtorEq] at hh
    rename_i i f
    subst hh
    refine ⟨i, ?_, hlocal, rfl⟩
    cases f with
    | false => exact he
    | true =>
      obtain ⟨pre, post, ht⟩ := List.append_of_mem he
      have hbefore := (hans.marked pre _ post ht i true rfl hlt).mp rfl
      exact absurd ⟨pre, true, post, ht, hbefore⟩ hnot

/-- The hosts to be probed increase strictly, as the cursor reaches them in order. -/
theorem CoverInv.pairwise_eligibleIps (h : P.CoverInv w) :
    (P.eligibleIps w.trace).Pairwise (· < ·) := by
  have hreached : (reachedHosts w.trace).Pairwise (· < ·) := by
    rw [h.reached]
    exact List.pairwise_lt_range
  refine List.pairwise_filterMap.mpr ?_
  refine (List.pairwise_filterMap.mp hreached).imp fun {a b} hab x hx y hy => ?_
  cases a <;> cases b <;> simp only [eligibleIp?, reduceCtorEq] at hx hy
  split at hx <;> split at hy <;> simp only [Option.some.injEq, reduceCtorEq] at hx hy
  have := hab _ rfl _ rfl
  omega

/-- The addresses sent to increase strictly: they are a first part of the hosts to be probed. -/
theorem CoverInv.pairwise_acceptedIps (h : P.CoverInv w) :
    (acceptedIps w.trace).Pairwise (· < ·) :=
  h.pairwise_eligibleIps.sublist h.sentPrefix.sublist

/-- **Coverage is exact.** In a run that returns without a send failure the cursor reaches every
host of the parsed range once, and the addresses sent to, in strictly increasing order, are those
of the range except the network and broadcast address of the selected interface and the addresses
found before the cursor reached them. -/
theorem coverage_exact {input : CString} {config : PingScannerConfig}
    (hparse : parseCidr input = some (config.baseIp, config.totalHosts)) (routedIp : Option ℕ)
    (ifaddrs : Option (List IfAddrs)) (pid : ℕ) {s₀ : PingState}
    (hs : (construct config routedIp ifaddrs pid).Sized s₀) (k : PingKernel) {w : PingWorld}
    (hw : Reachable (construct config routedIp ifaddrs pid).step (start s₀ k) w)
    (hret : w.pc = .returned false) :
    reachedHosts w.trace = List.range config.totalHosts ∧
      (acceptedIps w.trace).Pairwise (· < ·) ∧
      ∀ ip, ip ∈ acceptedIps w.trace ↔ ∃ h < config.totalHosts, ip = config.baseIp + h ∧
        ¬ IsSubnetAddress routedIp ifaddrs ip ∧ ¬ FoundBefore config.baseIp w.trace h := by
  have hP := ranged_construct hparse routedIp ifaddrs pid
  have hcover := coverInv_of_reachable hP hs hw
  have hans := answerInv_of_reachable hP hs hw
  obtain ⟨htotal, -⟩ := left_of_returned hw hret
  refine ⟨?_, hcover.pairwise_acceptedIps, fun ip => ?_⟩
  · have hcursor := hcover.cursor (by rw [hret]; rfl)
    have hle := hcover.total
    simp only [construct] at htotal hle
    rw [hcover.reached]
    congr 1
    omega
  -- the skip test finds the addresses that `fetch` makes the scanner leave out
  · rw [mem_acceptedIps_of_returned hcover hans hret htotal]
    constructor
    · rintro ⟨h, hlt, rfl, hlocal, hnot⟩
      refine ⟨h, hlt, rfl, fun hsub => ?_, hnot⟩
      have hskip := (skipsLocal_construct hP hlt).mpr hsub
      exact absurd (hskip.symm.trans hlocal) (by decide)
    · rintro ⟨h, hlt, rfl, hsub, hnot⟩
      refine ⟨h, hlt, rfl, ?_, hnot⟩
      exact Bool.eq_false_iff.mpr fun hskip => hsub ((skipsLocal_construct hP hlt).mp hskip)

/-- `10.0.0.8/31` with one message per `sendmmsg` and a full socket buffer in between. -/
theorem coverage_exact_pair : ∃ w : PingWorld, w.pc = .returned false ∧
    acceptedIps w.trace = [167772168, 167772169] ∧
    reachedHosts w.trace = List.range 2 ∧ (acceptedIps w.trace).Pairwise (· < ·) ∧
    ∀ ip, ip ∈ acceptedIps w.trace ↔ ∃ h < 2, ip = 167772168 + h ∧
      ¬ IsSubnetAddress none none ip ∧ ¬ FoundBefore 167772168 w.trace h := by
  obtain ⟨w, hw, hp⟩ := exists_reachable_of_exec (M := (construct
      { baseIp := 167772168, totalHosts := 2 } none none 7).step)
    (s := start (construct { baseIp := 167772168, totalHosts := 2 } none none 7).initializeBuffers
      { clock := {}, rxQueue := [], rxEdge := false })
    [.run, .run, .sendmmsg (.sent 1), .sendmmsg (.error eagain),
      .wait true true [.interrupted, .event true false], .sendmmsg (.sent 1), .run,
      .arrive (echoReply 167772169 {}), .epollWait .ready, .recvmmsg false, .message none false,
      .run, .run, .run, .run, .epollWait .timeout, .tick { tvSec := 1 }, .run, .run]
    (fun w => w.pc == .returned false && acceptedIps w.trace == [167772168, 167772169])
    (by decide)
  simp only [Bool.and_eq_true, beq_iff_eq] at hp
  have hparse : parseCidr [49, 48, 46, 48, 46, 48, 46, 56, 47, 51, 49] = some (167772168, 2) := by
    decide
  exact ⟨w, hp.1, hp.2,
    coverage_exact hparse none none 7 (sized_initializeBuffers _) _ hw hp.1⟩

end PingScanner

end Netscan
