import Netscan.Ping.Ledger

/-! # The waiting time of a probe

The reap compares the clock with the time recorded for a probe, which is the time at which its batch
was populated. The request may leave later: `flush_send_queue` can be stopped by a full socket any
number of times before the `sendmmsg` call that accepts it (`SendsLate`). A run without such a call
gives every probe its full waiting time, and each such call can cost the probes of the requests that
it accepts some of theirs: a reap may fall between the deadlines counted from the two times. -/

namespace Netscan

open MachineInt SlotTable LabelledSystem History

/-- The event is the retirement of a probe. -/
def PingEvent.isExpired : PingEvent → Bool
  | .expired _ _ _ => true
  | _ => false

namespace PingScanner

variable {P : PingScanner} {s s' s₀ : PingState} {k : PingKernel} {w w' : PingWorld} {l : PingLabel}
  {ip : ℕ} {ts began : Timespec}

/-- Every probe gets its full waiting time: one that is retired was accepted more than the timeout
ago, and `probe_timeouts_` counts nothing else. -/
structure FullWait (P : PingScanner) (w : PingWorld) : Prop where
  /-- Between the call that accepts a request and the retirement of its probe lies more than the
  timeout. -/
  waited : ∀ ip ts began sendTime now, .accepted ip ts began ∈ w.trace →
    .expired ip sendTime now ∈ w.trace → now.elapsedNs began > P.timeoutNs
  /-- Only retirements are counted. -/
  counted : w.st.probeTimeouts = u32 (w.trace.countP PingEvent.isExpired)

/-- The time recorded for message `i` of the batch: the send time of the probe in its slot. -/
def recordedTime (s : PingState) (i : ℕ) : Timespec :=
  (probeAt s (s.sendProbeSlots.getD i (-1)).toNat).sendTime

/-- The messages of the batch, by their indices, that the kernel takes in a step with label `l` from
`w`: none, unless it is a `sendmmsg` call that accepts some. -/
def messagesTaken (w : PingWorld) (l : PingLabel) : List ℕ :=
  match w.pc, l with
  | .flush _ j, .sendmmsg (.sent count) => List.range' j count
  | _, _ => []

/-- The step is a `sendmmsg` call that accepts a message when the clock has gone past the time
recorded for it, as it does while the socket is full. -/
def SendsLate (w : PingWorld) (l : PingLabel) : Prop :=
  ∃ i ∈ messagesTaken w l, (recordedTime w.st i).ns < w.kernel.clock.ns

instance (w : PingWorld) (l : PingLabel) : Decidable (SendsLate w l) :=
  inferInstanceAs (Decidable (∃ i ∈ messagesTaken w l, _))

/-- The request to `ip` that was accepted by a call made at `began` keeps its full waiting time: its
probe is not retired before more than the timeout has passed since then. -/
def Waits (P : PingScanner) (w : PingWorld) (ip : ℕ) (began : Timespec) : Prop :=
  ∀ sendTime now, .expired ip sendTime now ∈ w.trace → now.elapsedNs began > P.timeoutNs

/-! ### Active probes are accepted or about to be sent -/

/-- Every active probe stands for an accepted request, with the time recorded for it, or for one
that waits to be sent. -/
def SentInv (w : PingWorld) : Prop :=
  ∀ (i : ℕ) (p : ProbeInfo), w.st.probeTable[i]? = some p → p.active = true →
    p.destIp ∈ pending w ∨ ∃ began, .accepted p.destIp p.sendTime began ∈ w.trace

/-- A step that claims no slot and sends nothing keeps `SentInv`: every active slot was active
before, and what waits still waits. -/
theorem SentInv.shrink (h : SentInv w) (hkept : ∀ (i : ℕ) (p : ProbeInfo),
      w'.st.probeTable[i]? = some p → p.active = true → w.st.probeTable[i]? = some p)
    (hpending : ∀ ip ∈ pending w, ip ∈ pending w') (hsub : ∀ e ∈ w.trace, e ∈ w'.trace) :
    SentInv w' := by
  intro i p hi hp
  refine (h i p (hkept i p hi hp) hp).imp (hpending p.destIp) ?_
  rintro ⟨began, hmem⟩
  exact ⟨began, hsub _ hmem⟩

/-- Outside a flush nothing waits to be sent, as `run()` never reaps within one. -/
theorem pending_eq_nil (hpc : w.pc.batch? = none) : pending w = [] := by
  rw [pending, hpc]

/-- Populating keeps `SentInv`: the slots that it claims are for hosts that wait to be sent to, and
nothing waited before. -/
theorem SentInv.populate (h : SentInv w) (hpc : w.pc = .sendBatch) {n : ℕ}
    (hpop : P.Populated w.kernel.clock w.st s n) {u : List PingEvent} :
    SentInv { w with
      st := s
      pc := if n = 0 then .receive else .flush n 0
      trace := w.trace ++ u } := by
  intro i p hi hp
  rcases hpop.new i p hi hp with hold | ⟨-, hmem⟩
  -- a slot held before: nothing waited at the head of the loop, so its request was accepted
  · right
    rcases h i p hold hp with hwait | ⟨began, hacc⟩
    · rw [pending_eq_nil (by rw [hpc]; rfl)] at hwait
      cases hwait
    · exact ⟨began, List.mem_append_left _ hacc⟩
  · left
    have hne : n ≠ 0 := by
      rintro rfl
      cases hmem
    simpa [pending, hne, PingPc.batch?] using hmem

/-- An accepting `sendmmsg` keeps `SentInv`: the requests of the messages it takes are accepted. -/
theorem SentInv.sendmmsg (hslot : P.SlotInv w.st) (h : SentInv w) {n k count : ℕ}
    (hpc : w.pc = .flush n k) (hstaged : ∀ i < n, ∃ p, Staged w.st i p) :
    SentInv { w with
      pc := .flush n (k + count)
      trace := w.trace ++ acceptedEvents w.st w.kernel.clock k count } := by
  intro i p hi hp
  rcases h i p hi hp with hwait | ⟨began, hacc⟩
  · have hwait' : p.destIp ∈ (w.st.sendAddrs.take n).drop k := by
      simpa [pending, hpc, PingPc.batch?] using hwait
    obtain ⟨j, hj⟩ := List.mem_iff_getElem?.mp hwait'
    rw [List.getElem?_drop] at hj
    have hjn : k + j < n := by
      have hlt := (List.getElem?_eq_some_iff.mp hj).1
      rw [List.length_take] at hlt
      omega
    by_cases hcount : j < count
    · -- message `k + j` is accepted, and its slot is the one that holds the host
      right
      obtain ⟨q, hq, haddr, slot, hslots, htable⟩ := hstaged (k + j) hjn
      rw [List.getElem?_take_of_lt hjn, haddr] at hj
      have hdest : q.destIp = p.destIp := Option.some.inj hj
      have hsame : slot = i := hslot.linked.slot_unique htable
        (ProbeInfo.held_eq_some.mpr ⟨hq, hdest⟩) hi (ProbeInfo.held_eq_some.mpr ⟨hp, rfl⟩)
      subst hsame
      obtain rfl : q = p := Option.some.inj (htable.symm.trans hi)
      refine ⟨w.kernel.clock, List.mem_append_right _ (List.mem_map.mpr ⟨k + j, ?_, ?_⟩)⟩
      · exact List.mem_range'_1.mpr ⟨by omega, by omega⟩
      · simp [haddr, hslots, probeAt_of_getElem? htable]
    · left
      have hlater : ((w.st.sendAddrs.take n).drop (k + count))[j - count]? = some p.destIp := by
        have hsum : k + count + (j - count) = k + j := by omega
        rw [List.getElem?_drop, hsum, hj]
      exact List.mem_of_getElem? hlater
  · exact .inr ⟨began, List.mem_append_left _ hacc⟩

/-- Every step that does not fail comes from a state without a failure and keeps `SentInv`. -/
theorem SentInv.step (hP : P.Ranged) (hslot : P.SlotInv w.st) (hcover : P.CoverInv w)
    (hledger : w.pc.isFailing = false → P.LedgerInv w) (h : w.pc.isFailing = false → SentInv w)
    (hstep : PingStep P w l w') (hpc' : w'.pc.isFailing = false) : SentInv w' := by
  have hsub := subset_trace_step hstep
  cases hstep with
  | tick | arrive => exact (h hpc').shrink (fun _ _ hi _ => hi) (fun _ => id) hsub
  -- the slots of the batch wait, and `sendmmsg` moves them from the waiting to the accepted
  | populate hpc hout =>
    have hfresh := hcover.fresh (by rw [hpc]; rfl)
    exact (h (by rw [hpc]; rfl)).populate hpc
      (populated_populateBatchEntries hP hslot hfresh hout)
  | sent hpc =>
    have hrunning : w.pc.isFailing = false := by rw [hpc]; rfl
    exact (h hrunning).sendmmsg hslot hpc ((hledger hrunning).staged _ (by rw [hpc]; rfl))
  | again hpc | writable hpc =>
    refine (h (by rw [hpc]; rfl)).shrink (fun _ _ hi _ => hi) ?_ hsub
    intro ip hip
    simpa [pending, hpc, PingPc.batch?] using hip
  | refused | notWritable | waitThrew | release | rollbackDone => cases hpc'
  -- a flush ends when nothing waits any more
  | flushDone hpc hle =>
    refine (h (by rw [hpc]; rfl)).shrink (fun _ _ hi _ => hi) ?_ hsub
    intro ip hip
    have hnil : (w.st.sendAddrs.take _).drop _ = [] :=
      List.drop_eq_nil_of_le (le_trans (List.length_take_le _ _) hle)
    simp only [pending, hpc, PingPc.batch?, hnil] at hip
    cases hip
  -- replies and reaps only give slots back
  | @message d _ _ dns throws hpc _ _ hout =>
    have hrel := hslot.releases_receiveMessage hP w.kernel.clock dns throws d
    rw [hout] at hrel
    refine (h (by rw [hpc]; rfl)).shrink hrel.kept ?_ hsub
    rw [pending_eq_nil (by rw [hpc]; rfl)]
    simp
  | reap hpc hout =>
    subst hout
    refine (h (by rw [hpc]; rfl)).shrink (hslot.releases_reap hP _ _).kept ?_ hsub
    rw [pending_eq_nil (by rw [hpc]; rfl)]
    simp
  | enter hpc | leave hpc | pollReady hpc | pollTimeout hpc | pollFailed hpc | recvFailed hpc
  | recvEmpty hpc | recvZero hpc | recvShort hpc | recvFull hpc | batchDone hpc =>
    refine (h (by rw [hpc]; rfl)).shrink (fun _ _ hi _ => hi) ?_ hsub
    rw [pending_eq_nil (by rw [hpc]; rfl)]
    simp

/-- **Active probes are accepted or about to be sent** in every reachable state without a send
failure. -/
theorem sentInv_of_reachable (hP : P.Ranged) (hs : P.Sized s₀)
    (hw : Reachable P.step (start s₀ k) w) (hpc : w.pc.isFailing = false) : SentInv w := by
  refine hw.invariant_of_runs (I := fun w => w.pc.isFailing = false → SentInv w) ?_ ?_ hpc
  · intro _ i p hi hp
    have hmem : p ∈ (beginRun s₀).probeTable := List.mem_of_getElem? hi
    obtain ⟨-, rfl⟩ : s₀.probeTable ≠ [] ∧ p = {} := by simpa [beginRun] using hmem
    cases hp
  · intro u l v hreach h _ hstep
    exact SentInv.step hP (slotInv_of_reachable hP hs hreach) (coverInv_of_reachable hP hs hreach)
      (ledgerInv_of_reachable hP hs hreach) h (step_cases hstep)

/-- A request is accepted once, so the time at which it left is a property of its host. -/
theorem accepted_unique (hcover : P.CoverInv w) {ts' began' : Timespec}
    (h : .accepted ip ts began ∈ w.trace) (h' : .accepted ip ts' began' ∈ w.trace) :
    ts = ts' ∧ began = began' := by
  have hnodup : (acceptedIps w.trace).Nodup :=
    hcover.pairwise_acceptedIps.imp fun hab => Nat.ne_of_lt hab
  have heq := eq_of_nodup_filterMap (f := PingEvent.acceptedIp?) hnodup h h' rfl rfl
  simpa using heq

/-! ### The timeout counter -/

/-- The reap of a slot leaves the other slots. -/
theorem probeAt_reapSlot {now : Timespec} {i j : ℕ} (hij : i ≠ j) :
    probeAt (P.reapSlot now s i) j = probeAt s j := by
  unfold reapSlot
  dsimp only
  split_ifs <;> simp [probeAt, List.getElem?_set_ne hij]

/-- The reap leaves the slots that it does not visit. The loop over the table visits each slot
once. -/
theorem probeAt_reapSlots (now : Timespec) {L : List ℕ} {j : ℕ} (hj : j ∉ L) :
    probeAt (L.foldl (P.reapSlot now) s) j = probeAt s j := by
  induction L generalizing s with
  | nil => rfl
  | cons i L ih =>
    rw [List.mem_cons, not_or] at hj
    rw [List.foldl_cons, ih hj.2, probeAt_reapSlot (Ne.symm hj.1)]

/-- The reap counts the slots that it gives back, one for each turn that changes `active`. -/
theorem SlotInv.timeouts_reapSlots (hP : P.Ranged) (h : P.SlotInv s) (now : Timespec)
    {L : List ℕ} (hnodup : L.Nodup) {c : ℕ} (hc : s.probeTimeouts = u32 c) :
    (L.foldl (P.reapSlot now) s).probeTimeouts = u32 (c + L.countP fun i =>
      (probeAt s i).active && !(probeAt (L.foldl (P.reapSlot now) s) i).active) := by
  induction L generalizing s c with
  | nil => simpa using hc
  | cons i L ih =>
    rw [List.nodup_cons] at hnodup
    rw [List.foldl_cons]
    -- the other slots are as before the turn for `i`, and slot `i` as after it
    have hothers : (L.countP fun j => (probeAt s j).active &&
        !(probeAt (L.foldl (P.reapSlot now) (P.reapSlot now s i)) j).active) =
        L.countP fun j => (probeAt (P.reapSlot now s i) j).active &&
          !(probeAt (L.foldl (P.reapSlot now) (P.reapSlot now s i)) j).active := by
      apply List.countP_congr
      intro j hj
      have hij : i ≠ j := by
        rintro rfl
        exact hnodup.1 hj
      rw [probeAt_reapSlot hij]
    have hself := probeAt_reapSlots (P := P) (s := P.reapSlot now s i) now hnodup.1
    rw [List.countP_cons, hothers, hself]
    rcases h.reapSlot_cases hP now i with heq | ⟨p, hi, hp, -, heq⟩
    · have hsame : ((probeAt s i).active && !(probeAt (P.reapSlot now s i) i).active) = false := by
        rw [heq, Bool.and_not_self]
      rw [hsame, heq]
      exact ih h hnodup.2 hc
    · have hfreed : ((probeAt s i).active && !(probeAt (P.reapSlot now s i) i).active) = true := by
        have hlt := (List.getElem?_eq_some_iff.mp hi).1
        rw [probeAt_of_getElem? hi, hp, heq]
        simp [PingScanner.freeSlot, probeAt, hlt]
      have hcount : (P.reapSlot now s i).probeTimeouts = u32 (c + 1) := by
        rw [heq]
        dsimp only
        rw [hc, u32, u32, u32, Nat.mod_add_mod]
      rw [hfreed, ih (h.reapSlot hP now i) hnodup.2 hcount]
      congr 1
      simp only [if_true]
      omega

/-- The events of a reap are its retirements, so their number is that of the slots given back. -/
theorem countP_expiredEvents {now : Timespec} :
    (expiredEvents now s s').countP PingEvent.isExpired =
      (List.range s.probeTable.length).countP fun i =>
        (probeAt s i).active && !(probeAt s' i).active := by
  rw [expiredEvents, List.countP_filterMap]
  apply List.countP_congr
  intro i _
  by_cases h : ((probeAt s i).active && !(probeAt s' i).active) = true
  · simp [h, PingEvent.isExpired]
  · simp [h]

/-- Only a reap changes `probe_timeouts_`. Populating, rolling back and receiving use the other
counters. -/
theorem probeTimeouts_step (hP : P.Ranged) (hslot : P.SlotInv w.st) (h : PingStep P w l w')
    (hpc : w.pc ≠ .reap) : w'.st.probeTimeouts = w.st.probeTimeouts := by
  cases h with
  | populate _ hout =>
    have hpop : (P.populateBatchEntries w.kernel.clock w.st).1.probeTimeouts =
        w.st.probeTimeouts := by
      -- no turn of the loop touches the counter
      refine populateLoop_induction (P := P)
        (motive := fun u _ => u.probeTimeouts = w.st.probeTimeouts) ?_ _ w.st 0 rfl
      intro u n u' n' hu hstep
      rw [← hu]
      unfold populateStep at hstep
      dsimp only at hstep
      split_ifs at hstep <;> · cases hstep; rfl
    rwa [hout] at hpop
  | release _ _ hout =>
    subst hout
    dsimp only
    unfold releaseProbeSlot
    dsimp only
    split_ifs <;> rfl
  | @message d _ _ dns throws _ _ _ hout =>
    have hmsg : (P.receiveMessage w.kernel.clock dns throws d w.st).1.probeTimeouts =
        w.st.probeTimeouts := by
      rcases hslot.receiveMessage_cases hP w.kernel.clock dns throws d with
        ⟨-, echo, unmatched, overflows, heq⟩ | ⟨-, echo, overflows, recvTs, ttl, heq⟩
      · rw [heq]
      · rw [heq, report_fst]
        unfold PingScanner.foundState
        dsimp only
        split <;> rfl
    rwa [hout] at hmsg
  | reap hreap => exact absurd hreap hpc
  | _ => rfl

/-- Only a reap records retirements: the events of the other steps are of another kind. -/
theorem countP_isExpired_step (h : PingStep P w l w') (hpc : w.pc ≠ .reap) :
    w'.trace.countP PingEvent.isExpired = w.trace.countP PingEvent.isExpired := by
  obtain ⟨u, htrace, hu⟩ := records_step h
  have hnone : u.countP PingEvent.isExpired = 0 := by
    rw [List.countP_eq_zero]
    intro e he hexp
    have hrec := hu e he
    cases e with
    | expired ip sendTime now => exact hpc hrec.1
    | _ => cases hexp
  rw [htrace, List.countP_append, hnone, Nat.add_zero]

/-- **`probe_timeouts_` counts the retirements** (modulo `2 ^ 32`) in every reachable state. -/
theorem counted_of_reachable (hP : P.Ranged) (hs : P.Sized s₀)
    (hw : Reachable P.step (start s₀ k) w) :
    w.st.probeTimeouts = u32 (w.trace.countP PingEvent.isExpired) := by
  refine hw.invariant_of_runs
    (I := fun w => w.st.probeTimeouts = u32 (w.trace.countP PingEvent.isExpired)) rfl ?_
  intro u l v hreach h _ hstep
  have hslot := slotInv_of_reachable hP hs hreach
  by_cases hpc : u.pc = .reap
  · cases step_cases hstep with
    | tick => exact h
    | arrive =>
      rw [List.countP_append]
      exact h
    | reap _ hout =>
      subst hout
      dsimp only
      rw [List.countP_append, countP_expiredEvents]
      -- both sides grow by the number of slots that the reap gives back
      exact hslot.timeouts_reapSlots hP _ List.nodup_range h
    | enter hne | leave hne | populate hne | sent hne | again hne | refused hne | writable hne
    | notWritable hne | waitThrew hne | flushDone hne | release hne | rollbackDone hne
    | pollReady hne | pollTimeout hne | pollFailed hne | recvFailed hne | recvEmpty hne
    | recvZero hne | recvShort hne | recvFull hne | message hne | batchDone hne =>
      rw [hne] at hpc
      cases hpc
  · rw [probeTimeouts_step hP hslot (step_cases hstep) hpc,
      countP_isExpired_step (step_cases hstep) hpc]
    exact h

/-! ### Requests that are accepted in time -/

/-- What a reap retires was accepted, with the time recorded for it, and is older than the
timeout. -/
theorem retired_of_reap (hP : P.Ranged) (hslot : P.SlotInv w.st) (hsent : SentInv w)
    (hpc : w.pc = .reap) {sendTime now : Timespec}
    (he : .expired ip sendTime now ∈
      expiredEvents w.kernel.clock w.st (P.reapTimedOutProbes w.kernel.clock w.st)) :
    now.elapsedNs sendTime > P.timeoutNs ∧ ∃ began, .accepted ip sendTime began ∈ w.trace := by
  obtain ⟨i, hactive, hfreed, heq⟩ := mem_expiredEvents he
  cases heq
  have hi : w.st.probeTable[i]? = some (probeAt w.st i) := by
    cases hget : w.st.probeTable[i]? with
    | none => simp [probeAt, hget] at hactive
    | some p => rw [probeAt_of_getElem? hget]
  constructor
  -- the reap gives a slot back only for its age
  · have hrel := hslot.releases_reap hP w.kernel.clock (List.range w.st.probeTable.length)
    refine (hrel.gone i _ hi hactive).resolve_left ?_
    intro hkept
    rw [reapTimedOutProbes, probeAt_of_getElem? hkept, hactive] at hfreed
    cases hfreed
  -- the slot was active and nothing waits at a reap, so its request was accepted
  · refine (hsent i _ hi hactive).resolve_left ?_
    rw [pending_eq_nil (by rw [hpc]; rfl)]
    simp

/-- What has been retired was accepted before, and was older than the timeout by the time recorded
for it. -/
theorem retired_of_reachable (hP : P.Ranged) (hs : P.Sized s₀)
    (hw : Reachable P.step (start s₀ k) w) {sendTime now : Timespec}
    (he : .expired ip sendTime now ∈ w.trace) :
    now.elapsedNs sendTime > P.timeoutNs ∧ ∃ began, .accepted ip sendTime began ∈ w.trace := by
  suffices h : ∀ ip sendTime now, .expired ip sendTime now ∈ w.trace →
      now.elapsedNs sendTime > P.timeoutNs ∧ ∃ began, .accepted ip sendTime began ∈ w.trace from
    h ip sendTime now he
  refine hw.invariant_of_runs (I := fun w => ∀ ip sendTime now, .expired ip sendTime now ∈ w.trace →
    now.elapsedNs sendTime > P.timeoutNs ∧ ∃ began, .accepted ip sendTime began ∈ w.trace) ?_ ?_
  · intro ip sendTime now h
    cases h
  · rintro u l v hrun h - hstep ip sendTime now hv
    have hsub := subset_trace_step (step_cases hstep)
    -- a retirement on record stays justified
    have hkept : .expired ip sendTime now ∈ u.trace → now.elapsedNs sendTime > P.timeoutNs ∧
        ∃ began, .accepted ip sendTime began ∈ v.trace := by
      intro hold
      obtain ⟨hlate, began, hacc⟩ := h ip sendTime now hold
      exact ⟨hlate, began, hsub _ hacc⟩
    rcases mem_trace_step (step_cases hstep) hv with hold | ⟨hpc, -⟩
    · exact hkept hold
    · have hslot := slotInv_of_reachable hP hs hrun
      have hsent := sentInv_of_reachable hP hs hrun (by rw [hpc]; rfl)
      cases step_cases hstep with
      | tick => exact hkept hv
      | arrive =>
        rcases List.mem_append.mp hv with hold | hnew
        · exact hkept hold
        · simp at hnew
      | reap _ hout =>
        subst hout
        rcases List.mem_append.mp hv with hold | hnew
        · exact hkept hold
        · obtain ⟨hlate, began, hacc⟩ := retired_of_reap hP hslot hsent hpc hnew
          exact ⟨hlate, began, List.mem_append_left _ hacc⟩
      | enter hne | leave hne | populate hne | sent hne | again hne | refused hne | writable hne
      | notWritable hne | waitThrew hne | flushDone hne | release hne | rollbackDone hne
      | pollReady hne | pollTimeout hne | pollFailed hne | recvFailed hne | recvEmpty hne
      | recvZero hne | recvShort hne | recvFull hne | message hne | batchDone hne =>
        rw [hne] at hpc
        cases hpc

/-- A request that is accepted no later than the time recorded for it keeps its full waiting time,
whatever happens then. -/
theorem waits_of_punctual (hP : P.Ranged) (hs : P.Sized s₀) (hw : Reachable P.step (start s₀ k) w)
    (hacc : .accepted ip ts began ∈ w.trace) (hle : began.ns ≤ ts.ns) : P.Waits w ip began := by
  intro sendTime now hexp
  obtain ⟨hlate, began', hacc'⟩ := retired_of_reachable hP hs hw hexp
  obtain ⟨rfl, -⟩ := accepted_unique (coverInv_of_reachable hP hs hw) hacc hacc'
  rw [Timespec.elapsedNs_eq] at hlate ⊢
  omega

/-- In a run without late calls every request was accepted no later than the time recorded. -/
theorem punctual_of_runs (hw : Runs P.step (fun u l => ¬ SendsLate u l) (start s₀ k) w)
    (hacc : .accepted ip ts began ∈ w.trace) : began.ns ≤ ts.ns := by
  suffices h : ∀ ip ts began, .accepted ip ts began ∈ w.trace → began.ns ≤ ts.ns from
    h ip ts began hacc
  refine hw.invariant (I := fun w => ∀ ip ts began, .accepted ip ts began ∈ w.trace →
    began.ns ≤ ts.ns) ?_ ?_
  · intro ip ts began h
    cases h
  · intro u l v h hok hstep ip ts began hv
    rcases mem_trace_step (step_cases hstep) hv with hold | ⟨⟨n, j, hpc⟩, rfl⟩
    · exact h ip ts began hold
    · cases step_cases hstep with
      | tick | again | flushDone => exact h ip ts _ hv
      | arrive | refused =>
        rcases List.mem_append.mp hv with hold | hnew
        · exact h ip ts _ hold
        · simp at hnew
      | @sent n j count hpc =>
        rcases List.mem_append.mp hv with hold | hnew
        · exact h ip ts _ hold
        · obtain ⟨i, hlo, hhi, heq⟩ := mem_acceptedEvents hnew
          cases heq
          -- a request that leaves after the time recorded for it makes this very call late
          by_contra hlate
          have htaken : messagesTaken u (.sendmmsg (.sent count)) = List.range' j count := by
            unfold messagesTaken
            rw [hpc]
          refine hok ⟨i, ?_, not_le.mp hlate⟩
          rw [htaken]
          exact List.mem_range'_1.mpr ⟨hlo, hhi⟩
      | enter hne | leave hne | populate hne | writable hne | notWritable hne | waitThrew hne
      | release hne | rollbackDone hne | pollReady hne | pollTimeout hne | pollFailed hne
      | recvFailed hne | recvEmpty hne | recvZero hne | recvShort hne | recvFull hne | message hne
      | batchDone hne | reap hne =>
        rw [hne] at hpc
        cases hpc

/-! ### Late calls -/

/-- After a flush nothing need happen before the reap: the batch is done, and `epoll_wait` fails. -/
theorem exists_runs_of_flushed {n j : ℕ} (hpc : w.pc = .flush n j) (hle : n ≤ j) :
    ∃ v, Runs P.step ClockForward w v ∧ v.pc = .reap ∧ v.st.probeTable = w.st.probeTable ∧
      v.kernel = w.kernel := by
  have hend : ¬ j < n := by omega
  obtain ⟨v, hstep, hpcv, htable, hkernel⟩ : ∃ v, P.step w .run = some v ∧ v.pc = .receive ∧
      v.st.probeTable = w.st.probeTable ∧ v.kernel = w.kernel := by
    obtain ⟨st, pc, kernel, trace⟩ := w
    cases hpc
    exact ⟨_, if_neg hend, rfl, rfl, rfl⟩
  obtain ⟨v', hstep', hpcv', hst, hkernel'⟩ : ∃ v', P.step v (.epollWait .failed) = some v' ∧
      v'.pc = .reap ∧ v'.st = v.st ∧ v'.kernel = v.kernel := by
    obtain ⟨st, pc, kernel, trace⟩ := v
    cases hpcv
    exact ⟨_, rfl, rfl, rfl, rfl⟩
  have hfirst : Runs P.step ClockForward w v := Runs.refl.tail (by rintro now ⟨⟩) hstep
  exact ⟨v', hfirst.tail (by rintro now ⟨⟩) hstep', hpcv', by rw [hst, htable],
    hkernel'.trans hkernel⟩

/-- From within a flush the reap can be reached without a change to the probes or to the clock: the
rest of the batch is sent at once. -/
theorem exists_runs_to_reap {n j : ℕ} (hpc : w.pc = .flush n j) :
    ∃ v, Runs P.step ClockForward w v ∧ v.pc = .reap ∧ v.st.probeTable = w.st.probeTable ∧
      v.kernel.clock = w.kernel.clock := by
  by_cases hlt : j < n
  · obtain ⟨v, hstep, hpcv, hst, hkernel⟩ : ∃ v, P.step w (.sendmmsg (.sent (n - j))) = some v ∧
        v.pc = .flush n (j + (n - j)) ∧ v.st = w.st ∧ v.kernel = w.kernel := by
      obtain ⟨st, pc, kernel, trace⟩ := w
      cases hpc
      exact ⟨_, (if_pos hlt).trans (if_pos ⟨by omega, le_rfl⟩), rfl, rfl, rfl⟩
    obtain ⟨v', hrun, hreap, htable, hkernel'⟩ := exists_runs_of_flushed (P := P) hpcv (by omega)
    have hfirst : Runs P.step ClockForward w v := Runs.refl.tail (by rintro now ⟨⟩) hstep
    exact ⟨v', hfirst.trans hrun, hreap, by rw [htable, hst], by rw [hkernel', hkernel]⟩
  · obtain ⟨v, hrun, hreap, htable, hkernel⟩ := exists_runs_of_flushed (P := P) hpc (by omega)
    exact ⟨v, hrun, hreap, htable, by rw [hkernel]⟩

/-- A reap retires an outstanding probe that is older than the timeout, by the time recorded for
it. -/
theorem exists_expired (hP : P.Ranged) (hslot : P.SlotInv w.st) (hpc : w.pc = .reap)
    (hout : Outstanding w.st ip ts) (hold : w.kernel.clock.elapsedNs ts > P.timeoutNs) :
    ∃ v, P.step w .run = some v ∧ .expired ip ts w.kernel.clock ∈ v.trace := by
  obtain ⟨i, p, hi, hp, rfl, rfl⟩ := hout
  obtain ⟨v, hstep, htrace⟩ : ∃ v, P.step w .run = some v ∧ v.trace = w.trace ++
      expiredEvents w.kernel.clock w.st (P.reapTimedOutProbes w.kernel.clock w.st) := by
    obtain ⟨st, pc, kernel, trace⟩ := w
    cases hpc
    exact ⟨_, rfl, rfl⟩
  refine ⟨v, hstep, ?_⟩
  rw [htrace]
  rcases expired_of_reap hP hslot w.kernel.clock hi hp with hkept | ⟨hexp, -⟩
  · -- the reap keeps no probe that is too old
    have hlt := (List.getElem?_eq_some_iff.mp hi).1
    exact absurd hold (hslot.reap_complete hP _ _ (List.mem_range.mpr hlt) hkept hp)
  · exact List.mem_append_right _ hexp

/-- A request whose probe is outstanding right after it was accepted late can be given up before the
timeout has passed: nothing happens but the clock, and the reap comes exactly at the timeout. -/
theorem exists_early (hP : P.Ranged) (hs : P.Sized s₀) (hw : Reachable P.step (start s₀ k) w)
    {n j : ℕ} (hpc : w.pc = .flush n j) (hout : Outstanding w.st ip ts)
    (hlate : ts.ns < w.kernel.clock.ns) :
    ∃ v, Runs P.step ClockForward w v ∧ ¬ P.Waits v ip w.kernel.clock := by
  obtain ⟨v, hrun, hreap, htable, hclock⟩ := exists_runs_to_reap (P := P) hpc
  -- a moment after which the recorded time is too old, while the acceptance is not
  obtain ⟨now, hnow⟩ : ∃ now : Timespec, now.ns = w.kernel.clock.ns + P.timeoutNs := by
    exact ⟨⟨_, _⟩, Int.ediv_mul_add_emod _ nanosecondsPerSecond⟩
  have htimeout : 0 ≤ P.timeoutNs := by
    unfold timeoutNs nanosecondsPerMillisecond
    omega
  have htick : Runs P.step ClockForward w { v with kernel := { v.kernel with clock := now } } := by
    refine hrun.tail (l := .tick now) ?_ rfl
    rintro _ ⟨⟩
    rw [hclock]
    omega
  have hslot := slotInv_of_reachable hP hs (hw.trans htick.reachable)
  have hout' : Outstanding v.st ip ts := by rwa [Outstanding, htable]
  obtain ⟨v', hstep, hexp⟩ := exists_expired hP hslot hreap hout' (by
    rw [Timespec.elapsedNs_eq]
    dsimp only
    omega)
  refine ⟨v', htick.tail (by rintro _ ⟨⟩) hstep, fun hwaits => ?_⟩
  have hlong := hwaits ts now hexp
  rw [Timespec.elapsedNs_eq] at hlong
  omega

/-- The entries of the batch that a flush has not sent yet have their probes outstanding, with the
times recorded for them. -/
theorem outstanding_of_flush (hledger : P.LedgerInv w) {n j i : ℕ} (hpc : w.pc = .flush n j)
    (hi : i < n) : Outstanding w.st (w.st.sendAddrs.getD i 0) (recordedTime w.st i) := by
  obtain ⟨p, hp, haddr, slot, hslot, htable⟩ := hledger.staged n (by rw [hpc]; rfl) i hi
  refine ⟨slot, p, htable, hp, ?_, ?_⟩
  · rw [List.getD_eq_getElem?_getD, haddr, Option.getD_some]
  · rw [recordedTime, List.getD_eq_getElem?_getD, hslot, Option.getD_some, Int.toNat_natCast,
      probeAt_of_getElem? htable]

/-- **When every probe gets its full waiting time.** In a run in which no `sendmmsg` call is late,
every probe that is retired was accepted more than the timeout ago, whatever the clock does and
however often a flush stalls. Nothing weaker will do: the probe of a request that a call accepts
keeps its full waiting time in every continuation if and only if the call was not late for it. -/
theorem full_wait_iff {input : CString} {config : PingScannerConfig}
    (hparse : parseCidr input = some (config.baseIp, config.totalHosts)) (routedIp : Option ℕ)
    (ifaddrs : Option (List IfAddrs)) (pid : ℕ) {s₀ : PingState}
    (hs : (construct config routedIp ifaddrs pid).Sized s₀) (k : PingKernel) :
    (∀ w, Runs (construct config routedIp ifaddrs pid).step (fun u l => ¬ SendsLate u l)
        (start s₀ k) w → (construct config routedIp ifaddrs pid).FullWait w) ∧
    ∀ u v n j count i, Reachable (construct config routedIp ifaddrs pid).step (start s₀ k) u →
      u.pc = .flush n j →
      (construct config routedIp ifaddrs pid).step u (.sendmmsg (.sent count)) = some v →
      j ≤ i → i < j + count →
      ((∀ w, Runs (construct config routedIp ifaddrs pid).step ClockForward v w →
          (construct config routedIp ifaddrs pid).Waits w (u.st.sendAddrs.getD i 0)
            u.kernel.clock) ↔
        ¬ (recordedTime u.st i).ns < u.kernel.clock.ns) := by
  have hP := ranged_construct hparse routedIp ifaddrs pid
  constructor
  · intro w hw
    refine ⟨?_, counted_of_reachable hP hs hw.reachable⟩
    intro ip ts began sendTime now hacc hexp
    exact waits_of_punctual hP hs hw.reachable hacc (punctual_of_runs hw hacc) sendTime now hexp
  · intro u v n j count i hu hpc hstep hlo hhi
    have hv := hu.tail trivial hstep
    cases step_cases hstep with
    | @sent n' j' _ hpc' hpos hle =>
      rw [hpc] at hpc'
      cases hpc'
      constructor
      -- a late request: the clock moves on to the reap, and no answer comes in between
      · intro hwaits hlate
        have hledger := ledgerInv_of_reachable hP hs hu (by rw [hpc]; rfl)
        obtain ⟨w, hw, hearly⟩ := exists_early hP hs hv rfl
          (outstanding_of_flush hledger hpc (lt_of_lt_of_le hhi hle)) hlate
        exact hearly (hwaits w hw)
      -- a punctual one: the reap waits for the timeout from the recorded time on, so from later
      -- than that
      · intro hpunctual w hw
        have hacc : .accepted (u.st.sendAddrs.getD i 0) (recordedTime u.st i) u.kernel.clock ∈
            w.trace := by
          refine hw.reachable.invariant (I := fun w => .accepted (u.st.sendAddrs.getD i 0)
            (recordedTime u.st i) u.kernel.clock ∈ w.trace) ?_ ?_
          · exact List.mem_append_right _
              (List.mem_map.mpr ⟨i, List.mem_range'_1.mpr ⟨hlo, hhi⟩, rfl⟩)
          · intro x l y hx _ hxy
            exact subset_trace_step (step_cases hxy) _ hx
        exact waits_of_punctual hP hs (hv.trans hw.reachable) hacc (not_lt.mp hpunctual)

/-- `10.0.0.8/31`: both requests leave at the time of their batch, and their probes are retired a
second later; whatever follows their acceptance, they keep their 800 ms. -/
theorem full_wait_iff_pair :
    (∃ w, w.st.probeTimeouts = 2 ∧
      (construct { baseIp := 167772168, totalHosts := 2 } none none 7).FullWait w) ∧
    ∃ v, v.pc = .flush 2 2 ∧ ∀ w, Runs
      (construct { baseIp := 167772168, totalHosts := 2 } none none 7).step ClockForward v w →
      (construct { baseIp := 167772168, totalHosts := 2 } none none 7).Waits w 167772169 {} := by
  have hparse : parseCidr [49, 48, 46, 48, 46, 48, 46, 56, 47, 51, 49] = some (167772168, 2) := by
    decide
  have hs := sized_initializeBuffers
    (construct { baseIp := 167772168, totalHosts := 2 } none none 7)
  constructor
  · obtain ⟨w, hw, hp⟩ := exists_runs_of_execWhen
      (M := (construct { baseIp := 167772168, totalHosts := 2 } none none 7).step)
      (s := start (construct { baseIp := 167772168, totalHosts := 2 } none none 7).initializeBuffers
        { clock := {}, rxQueue := [], rxEdge := false })
      (fun u l => ¬ SendsLate u l)
      [.run, .run, .sendmmsg (.sent 2), .run, .epollWait .timeout, .tick { tvSec := 1 }, .run]
      (fun w => w.st.probeTimeouts == 2) (by decide)
    exact ⟨w, by simpa using hp, (full_wait_iff hparse none none 7 hs _).1 w hw⟩
  · obtain ⟨u, hu, hp⟩ := exists_reachable_of_exec
      (M := (construct { baseIp := 167772168, totalHosts := 2 } none none 7).step)
      (s := start (construct { baseIp := 167772168, totalHosts := 2 } none none 7).initializeBuffers
        { clock := {}, rxQueue := [], rxEdge := false })
      [.run, .run]
      (fun u => u.pc == .flush 2 0 && u.kernel.clock == {} &&
        u.st.sendAddrs.getD 1 0 == 167772169 && recordedTime u.st 1 == {}) (by decide)
    simp only [Bool.and_eq_true, beq_iff_eq] at hp
    obtain ⟨⟨⟨hpc, hclock⟩, haddr⟩, hrecorded⟩ := hp
    obtain ⟨v, hstep, hpcv⟩ : ∃ v, (construct { baseIp := 167772168, totalHosts := 2 } none none
        7).step u (.sendmmsg (.sent 2)) = some v ∧ v.pc = .flush 2 2 := by
      obtain ⟨st, pc, kernel, trace⟩ := u
      cases hpc
      exact ⟨_, rfl, rfl⟩
    refine ⟨v, hpcv, ?_⟩
    have hwaits := (full_wait_iff hparse none none 7 hs _).2 u v 2 0 2 1 hu hpc hstep (by decide)
      (by decide)
    rw [hclock, haddr, hrecorded] at hwaits
    exact hwaits.mpr (lt_irrefl _)

/-- `10.0.0.8/31` with the default timeout of 800 ms: the socket is full for half a second before it
takes the two requests, and the reap 400 ms after that gives both hosts up. The clock does not go
back and no send fails. -/
theorem not_full_wait :
    parseCidr [49, 48, 46, 48, 46, 48, 46, 56, 47, 51, 49] = some (167772168, 2) ∧
    ∃ w, Runs (construct { baseIp := 167772168, totalHosts := 2 } none none 7).step ClockForward
        (start (construct { baseIp := 167772168, totalHosts := 2 } none none 7).initializeBuffers
          { clock := {}, rxQueue := [], rxEdge := false }) w ∧
      w.st.probeTimeouts = 2 ∧
      ¬ (construct { baseIp := 167772168, totalHosts := 2 } none none 7).FullWait w := by
  refine ⟨by decide, ?_⟩
  obtain ⟨w, hw, hp⟩ := exists_runs_of_execWhen
    (M := (construct { baseIp := 167772168, totalHosts := 2 } none none 7).step)
    (s := start (construct { baseIp := 167772168, totalHosts := 2 } none none 7).initializeBuffers
      { clock := {}, rxQueue := [], rxEdge := false })
    ClockForward
    [.run, .run, .sendmmsg (.error eagain), .tick { tvNsec := 500000000 },
      .wait true true [.event true false], .sendmmsg (.sent 2), .run, .epollWait .timeout,
      .tick { tvNsec := 900000000 }, .run]
    (fun w => w.st.probeTimeouts == 2 &&
      w.trace.contains (.accepted 167772168 {} { tvNsec := 500000000 }) &&
      w.trace.contains (.expired 167772168 {} { tvNsec := 900000000 }))
    (by decide)
  simp only [Bool.and_eq_true, beq_iff_eq, List.contains_iff_mem] at hp
  obtain ⟨⟨hcount, hacc⟩, hexp⟩ := hp
  refine ⟨w, hw, hcount, ?_⟩
  intro hfull
  exact absurd (hfull.waited _ _ _ _ _ hacc hexp) (by decide)

end PingScanner

end Netscan
