import Netscan.Ping.Coverage

/-! # Every accepted request is accounted for

As long as no send fails, a request that the kernel accepted is answered, outstanding in the probe
table with the time recorded for it, or expired: reaped at a clock value at which it was older than
the timeout. The time that the trace records for an accepted request is the one in its slot, which
the entries of the batch keep until they are sent (`Staged`). -/

namespace Netscan

open MachineInt SlotTable LabelledSystem History

/-- A send has failed, or an exception was thrown: the slots of the batch are given back unsent. -/
def PingPc.isFailing : PingPc → Bool
  | .rollback _ _ _ | .returned true | .thrown => true
  | _ => false

/-- The size of the batch while it is being sent, and nothing outside a flush. -/
def PingPc.sending? : PingPc → Option ℕ
  | .flush n _ | .waitWritable n _ => some n
  | _ => none

namespace PingScanner

variable {P : PingScanner} {s s' s₀ : PingState} {k : PingKernel} {w w' : PingWorld} {l : PingLabel}
  {ip : ℕ} {ts : Timespec}

/-- The probe of `ip` sent at `ts` is outstanding: a slot holds it. -/
def Outstanding (s : PingState) (ip : ℕ) (ts : Timespec) : Prop :=
  ∃ (i : ℕ) (p : ProbeInfo), s.probeTable[i]? = some p ∧ p.active = true ∧ p.destIp = ip ∧
    p.sendTime = ts

/-- The probe of `ip` sent at `ts` was reaped, older than the timeout. -/
def Expired (P : PingScanner) (t : List PingEvent) (ip : ℕ) (ts : Timespec) : Prop :=
  ∃ now, .expired ip ts now ∈ t ∧ now.elapsedNs ts > P.timeoutNs

/-- The ledger: what is in the batch holds a slot, and every accepted request was answered, is
outstanding or has expired. -/
structure LedgerInv (P : PingScanner) (w : PingWorld) : Prop where
  /-- The entries of a batch that is being sent have their probes. -/
  staged : ∀ n, w.pc.sending? = some n → ∀ i < n, ∃ p, Staged w.st i p
  /-- Accepted requests are answered, outstanding or expired. -/
  accounted : ∀ ip ts began, .accepted ip ts began ∈ w.trace →
    ip ∈ w.st.foundIpsCache ∨ Outstanding w.st ip ts ∨ P.Expired w.trace ip ts

/-- Steps that send nothing and touch neither tables nor cache keep the ledger. -/
theorem LedgerInv.quiet (h : P.LedgerInv w) (htable : w'.st.probeTable = w.st.probeTable)
    (hfound : w'.st.foundIpsCache = w.st.foundIpsCache)
    (hsending : w'.pc.sending? = none ∨
      w'.pc.sending? = w.pc.sending? ∧ w'.st.sending = w.st.sending)
    {u : List PingEvent} (htrace : w'.trace = w.trace ++ u) (hu : ∀ e ∈ u, e.acceptedIp? = none) :
    P.LedgerInv w' where
  staged := by
    intro n hn i hi
    rcases hsending with hnone | ⟨hsame, hsend⟩
    · rw [hnone] at hn
      cases hn
    · simp only [PingState.sending, Prod.mk.injEq] at hsend
      obtain ⟨p, hp⟩ := h.staged n (hsame ▸ hn) i hi
      rw [Staged, ← hsend.2.1, ← hsend.2.2, ← htable] at hp
      exact ⟨p, hp⟩
  accounted := by
    intro ip ts began hmem
    rw [htrace] at hmem ⊢
    rcases List.mem_append.mp hmem with hold | hnew
    · rw [hfound, Outstanding, htable]
      refine (h.accounted ip ts began hold).imp id (Or.imp id ?_)
      rintro ⟨now, hnow, helapsed⟩
      exact ⟨now, List.mem_append_left _ hnow, helapsed⟩
    · cases hu _ hnew

/-- Populating a batch keeps the ledger: the entries of the batch hold the slots that were claimed
for them. -/
theorem LedgerInv.populate (h : P.LedgerInv w) {n : ℕ}
    (hpop : P.Populated w.kernel.clock w.st s n) :
    P.LedgerInv { w with
      st := s
      pc := if n = 0 then .receive else .flush n 0
      trace := w.trace ++ P.reachedEvents w.st s } where
  staged := by
    intro m hm i hi
    dsimp only at hm
    split at hm
    · cases hm
    · cases hm
      obtain ⟨p, hp, -⟩ := hpop.staged i hi
      exact ⟨p, hp⟩
  accounted := by
    intro ip ts began hmem
    rcases List.mem_append.mp hmem with hold | hnew
    -- the old entries: no slot in use and no found address is touched
    · have hfound : s.foundIpsCache = w.st.foundIpsCache := congrArg Prod.fst hpop.reports
      rcases h.accounted ip ts began hold with hans | ⟨i, p, hi, hp, hip⟩ | ⟨now, hnow, helapsed⟩
      · exact .inl (hfound ▸ hans)
      · exact .inr (.inl ⟨i, p, hpop.kept i p hi hp, hp, hip⟩)
      · exact .inr (.inr ⟨now, List.mem_append_left _ hnow, helapsed⟩)
    · obtain ⟨i, hi⟩ := mem_reachedEvents hnew
      cases hi

/-- An accepting `sendmmsg` keeps the ledger: what it sends holds a slot, so it is outstanding. -/
theorem LedgerInv.sendmmsg (h : P.LedgerInv w) {n k count : ℕ} (hpc : w.pc = .flush n k)
    (hle : k + count ≤ n) :
    P.LedgerInv { w with
      pc := .flush n (k + count)
      trace := w.trace ++ acceptedEvents w.st w.kernel.clock k count } where
  staged := by
    intro m hm
    refine h.staged m ?_
    rwa [hpc]
  accounted := by
    intro ip ts began hmem
    rcases List.mem_append.mp hmem with hold | hnew
    · refine (h.accounted ip ts began hold).imp id (Or.imp id ?_)
      rintro ⟨now, hnow, helapsed⟩
      exact ⟨now, List.mem_append_left _ hnow, helapsed⟩
    -- a new entry: the slot that was claimed for message `i` of the batch
    · obtain ⟨i, hlo, hhi, heq⟩ := mem_acceptedEvents hnew
      obtain ⟨p, hp, haddr, slot, hslot, htable⟩ := h.staged n (by rw [hpc]; rfl) i (by omega)
      simp only [List.getD_eq_getElem?_getD, haddr, hslot, Option.getD_some, Int.toNat_natCast,
        probeAt_of_getElem? htable] at heq
      cases heq
      exact .inr (.inl ⟨slot, p, htable, hp, rfl, rfl⟩)

/-- Handling a datagram keeps the ledger: a slot is given back only to an answer. -/
theorem LedgerInv.message (hP : P.Ranged) (hslot : P.SlotInv w.st) (h : P.LedgerInv w)
    {d : Datagram} {batch : List Datagram} {full threw throws : Bool} {dns : Option String}
    (hout : P.receiveMessage w.kernel.clock dns throws d w.st = (s, threw)) :
    P.LedgerInv { w with
      st := s
      pc := if threw then .thrown else .handle batch full
      trace := w.trace ++ P.messageEvents d w.st s } where
  staged := by
    intro m hm
    dsimp only at hm
    split at hm <;> cases hm
  accounted := by
    intro ip ts began hmem
    have hrel := hslot.releases_receiveMessage hP w.kernel.clock dns throws d
    rw [hout] at hrel
    -- found hosts stay found, and the source of an acceptable datagram becomes one
    have hfound : (∀ a ∈ w.st.foundIpsCache, a ∈ s.foundIpsCache) ∧
        (P.Acceptable w.st d → d.srcIp ∈ s.foundIpsCache) := by
      rcases hslot.messageEvents_cases hP hout with ⟨hno, hsame, -⟩ | ⟨-, happ, -⟩
      · rw [hsame]
        exact ⟨fun _ => id, fun hacc => absurd hacc hno⟩
      · rw [happ]
        exact ⟨fun _ => List.mem_append_left _, fun _ => by simp⟩
    rcases List.mem_append.mp hmem with hold | hnew
    · rcases h.accounted ip ts began hold with hans | ⟨i, p, hi, hp, hip, hts⟩ |
        ⟨now, hnow, helapsed⟩
      · exact .inl (hfound.1 _ hans)
      · rcases hrel.gone i p hi hp with hkept | ⟨hdest, hacc⟩
        · exact .inr (.inl ⟨i, p, hkept, hp, hip, hts⟩)
        · rw [← hip, hdest]
          exact .inl (hfound.2 hacc)
      · exact .inr (.inr ⟨now, List.mem_append_left _ hnow, helapsed⟩)
    · obtain heq | ⟨_, _, heq⟩ := mem_messageEvents hnew <;> cases heq

/-- A probe that the reap retires is recorded as expired, with the time at which it was given up. -/
theorem expired_of_reap (hP : P.Ranged) (hslot : P.SlotInv s) (now : Timespec) {i : ℕ}
    {p : ProbeInfo} (hi : s.probeTable[i]? = some p) (hp : p.active = true) :
    (P.reapTimedOutProbes now s).probeTable[i]? = some p ∨
      .expired p.destIp p.sendTime now ∈ expiredEvents now s (P.reapTimedOutProbes now s) ∧
        now.elapsedNs p.sendTime > P.timeoutNs := by
  have hrel := hslot.releases_reap hP now (List.range s.probeTable.length)
  rcases hrel.gone i p hi hp with hkept | hold
  · exact .inl hkept
  · by_cases hactive : (probeAt (P.reapTimedOutProbes now s) i).active = true
    · -- the entry is still active, so it is the entry from before
      left
      cases hj : (P.reapTimedOutProbes now s).probeTable[i]? with
      | none => simp [probeAt, hj] at hactive
      | some q =>
        rw [probeAt_of_getElem? hj] at hactive
        exact hi.symm.trans (hrel.kept i q hj hactive) ▸ rfl
    · right
      refine ⟨List.mem_filterMap.mpr ⟨i, ?_, ?_⟩, hold⟩
      · exact List.mem_range.mpr (List.getElem?_eq_some_iff.mp hi).1
      · simp [probeAt_of_getElem? hi, hp, hactive]

/-- The reap keeps the ledger: what it retires moves from the outstanding to the expired. -/
theorem LedgerInv.reap (hP : P.Ranged) (hslot : P.SlotInv w.st) (h : P.LedgerInv w) :
    P.LedgerInv { w with
      st := P.reapTimedOutProbes w.kernel.clock w.st
      pc := .loopHead
      trace := w.trace ++
        expiredEvents w.kernel.clock w.st (P.reapTimedOutProbes w.kernel.clock w.st) } where
  staged := by
    intro m hm
    cases hm
  accounted := by
    intro ip ts began hmem
    have hfound : (P.reapTimedOutProbes w.kernel.clock w.st).foundIpsCache = w.st.foundIpsCache :=
      congrArg Prod.fst (P.reapTimedOutProbes_frame _ _).2
    rcases List.mem_append.mp hmem with hold | hnew
    · rcases h.accounted ip ts began hold with hans | ⟨i, p, hi, hp, rfl, rfl⟩ |
        ⟨now, hnow, helapsed⟩
      · exact .inl (hfound ▸ hans)
      -- an outstanding probe stays so, or the reap retires it for its age
      · rcases expired_of_reap hP hslot _ hi hp with hkept | ⟨hev, helapsed⟩
        · exact .inr (.inl ⟨i, p, hkept, hp, rfl, rfl⟩)
        · exact .inr (.inr ⟨_, List.mem_append_right _ hev, helapsed⟩)
      · exact .inr (.inr ⟨now, List.mem_append_left _ hnow, helapsed⟩)
    · obtain ⟨i, -, -, heq⟩ := mem_expiredEvents hnew
      cases heq

/-- Every step that does not fail comes from a state without a failure and keeps the ledger. -/
theorem LedgerInv.step (hP : P.Ranged) (hslot : P.SlotInv w.st) (hcover : P.CoverInv w)
    (h : w.pc.isFailing = false → P.LedgerInv w) (hstep : PingStep P w l w')
    (hpc' : w'.pc.isFailing = false) : P.LedgerInv w' := by
  cases hstep with
  | populate hpc hout =>
    have hfresh := hcover.fresh (by rw [hpc]; rfl)
    exact (h (by rw [hpc]; rfl)).populate (populated_populateBatchEntries hP hslot hfresh hout)
  | sent hpc _ hle => exact (h (by rw [hpc]; rfl)).sendmmsg hpc hle
  | message hpc hout => exact (h (by rw [hpc]; rfl)).message hP hslot hout
  | reap hpc hout =>
    subst hout
    exact (h (by rw [hpc]; rfl)).reap hP hslot
  -- the other steps send nothing and leave table and cache alone
  | tick => exact (h hpc').quiet rfl rfl (.inr ⟨rfl, rfl⟩) (List.append_nil _).symm (by simp)
  | arrive => exact (h hpc').quiet rfl rfl (.inr ⟨rfl, rfl⟩) rfl (by simp [PingEvent.acceptedIp?])
  -- a step into a failure has nothing to show
  | refused | notWritable | waitThrew | release | rollbackDone => cases hpc'
  | again hpc | writable hpc =>
    refine (h (by rw [hpc]; rfl)).quiet rfl rfl (.inr ⟨?_, rfl⟩) (List.append_nil _).symm (by simp)
    rw [hpc]
    rfl
  | @batchDone full hpc =>
    refine (h (by rw [hpc]; rfl)).quiet rfl rfl (.inl ?_) (List.append_nil _).symm (by simp)
    cases full <;> rfl
  | enter hpc | leave hpc | flushDone hpc | pollReady hpc | pollFailed hpc | recvZero hpc
  | recvFull hpc =>
    exact (h (by rw [hpc]; rfl)).quiet rfl rfl (.inl rfl) (List.append_nil _).symm (by simp)
  | pollTimeout hpc | recvFailed hpc | recvEmpty hpc | recvShort hpc =>
    exact (h (by rw [hpc]; rfl)).quiet rfl rfl (.inl rfl) rfl (by simp [PingEvent.acceptedIp?])

/-- **Accepted requests are accounted for** in every reachable state without a send failure. -/
theorem ledgerInv_of_reachable (hP : P.Ranged) (hs : P.Sized s₀)
    (hw : Reachable P.step (start s₀ k) w) (hpc : w.pc.isFailing = false) : P.LedgerInv w := by
  refine hw.invariant_of_runs (I := fun w => w.pc.isFailing = false → P.LedgerInv w) ?_ ?_ hpc
  · intro _
    refine ⟨?_, ?_⟩
    · intro n hn
      cases hn
    · intro ip ts began hmem
      cases hmem
  · intro u l v hreach h _ hstep
    exact LedgerInv.step hP (slotInv_of_reachable hP hs hreach) (coverInv_of_reachable hP hs hreach)
      h (step_cases hstep)

/-- When no probe is active any more, accepted requests are answered or expired. -/
theorem LedgerInv.settled (hslot : P.SlotInv w.st) (h : P.LedgerInv w)
    (hactive : w.st.activeProbes = 0) {began : Timespec} (hmem : .accepted ip ts began ∈ w.trace) :
    ip ∈ w.st.foundIpsCache ∨ P.Expired w.trace ip ts := by
  rcases h.accounted ip ts began hmem with hans | ⟨i, p, hi, hp, -⟩ | hexp
  · exact .inl hans
  · -- an outstanding probe would be counted
    rw [hslot.no_active hactive hi] at hp
    cases hp
  · exact .inr hexp

/-! ### A clock that does not go back -/

/-- The clock does not go back in this step. The code reads `CLOCK_REALTIME`, which may. -/
def ClockForward (w : PingWorld) (l : PingLabel) : Prop :=
  ∀ now, l = .tick now → w.kernel.clock.ns ≤ now.ns

instance (w : PingWorld) : (l : PingLabel) → Decidable (ClockForward w l)
  | .tick now => decidable_of_iff (w.kernel.clock.ns ≤ now.ns)
      ⟨fun h _ hl => by cases hl; exact h, fun h => h now rfl⟩
  | .arrive _ | .run | .sendmmsg _ | .wait _ _ _ | .epollWait _ | .recvmmsg _ | .message _ _ =>
    isTrue fun _ h => nomatch h

/-- Such a step does not lower the clock, as only a tick sets it. -/
theorem clock_step (hok : ClockForward w l) (hstep : PingStep P w l w') :
    w.kernel.clock.ns ≤ w'.kernel.clock.ns := by
  cases hstep with
  | tick now => exact hok now rfl
  | _ => exact le_rfl

/-- Probes expire at clock values that are not later than the current one. -/
theorem expired_le_clock (hw : Runs P.step ClockForward (start s₀ k) w) {now : Timespec}
    (hmem : .expired ip ts now ∈ w.trace) : now.ns ≤ w.kernel.clock.ns := by
  suffices h : ∀ ip ts now, .expired ip ts now ∈ w.trace → now.ns ≤ w.kernel.clock.ns from
    h ip ts now hmem
  refine hw.invariant (I := fun w => ∀ ip ts now, .expired ip ts now ∈ w.trace →
    now.ns ≤ w.kernel.clock.ns) ?_ ?_
  · intro ip ts now h
    cases h
  · intro u l v h hok hstep ip ts now hv
    have hclock := clock_step hok (step_cases hstep)
    rcases mem_trace_step (step_cases hstep) hv with hold | ⟨-, rfl⟩
    · exact le_trans (h ip ts now hold) hclock
    · exact hclock

/-- While the clock does not go back, an expired probe stays older than the timeout. -/
theorem Expired.older (hw : Runs P.step ClockForward (start s₀ k) w) (h : P.Expired w.trace ip ts) :
    w.kernel.clock.elapsedNs ts > P.timeoutNs := by
  obtain ⟨now, hmem, helapsed⟩ := h
  have hle := expired_le_clock hw hmem
  rw [Timespec.elapsedNs_eq] at helapsed ⊢
  omega

end PingScanner

end Netscan
