import Netscan.Ping.Ledger

/-! # When the loop of a ping run ends

Against a fair environment each turn of the loop of `run()` ends (`rank`), and once the clock has
left every recorded send time behind by more than the timeout a reap empties the table. The next
batch then moves the cursor, provided that both of its gates are open: `active < max_probes_` and
`count < send_batch_size_`. With one of these sizes zero and a host to send to the loop turns for
ever. The other way never to end is the wait for a writable socket: a timeout of `2 ^ 31` or more is
negative as an `int`, so that `epoll_wait` has no time limit, and a full socket holds the scanner
for good. -/

namespace Netscan

open MachineInt SlotTable LabelledSystem

/-- The number of scanner steps before the next reap is at most this rank, with `unread` datagrams
in the queue and batches of at most `batchSize` messages: each datagram costs its share of a
`recvmmsg` call and a turn of the message loop. -/
def PingPc.rank (batchSize unread : ℕ) : PingPc → ℕ
  | .loopHead => 3 * unread + 7 + batchSize
  | .sendBatch => 3 * unread + 6 + batchSize
  | .waitWritable n k => 3 * unread + 6 + (n - k)
  | .flush n k => 3 * unread + 5 + (n - k)
  | .rollback n _ i => n - i + 1
  | .receive => 3 * unread + 4
  | .drain => 3 * unread + 3
  | .handle batch true => 3 * unread + 4 + batch.length
  | .handle batch false => 1 + batch.length
  | .reap | .returned _ | .thrown => 0

namespace PingScanner

variable {P : PingScanner} {s s₀ : PingState} {k : PingKernel} {w w' : PingWorld} {l : PingLabel}

/-- The scanner is in an `epoll_wait` call without a time limit: nothing but an event or an error
ends it, and no environment owes it either. -/
def Blocks (P : PingScanner) (w : PingWorld) : Prop :=
  toInt32 P.timeoutMs < 0 ∧ ∃ n k, w.pc = .waitWritable n k

/-- A fair environment: the clock does not go back and grows without bound, finitely many datagrams
arrive, `sendmmsg` has no room finitely often, and the scanner is not starved where it could go
on by itself. -/
structure Fair (e : Execution P.step) : Prop where
  /-- The clock does not go back. -/
  forward : ∀ i, ClockForward (e.state i) (e.label i)
  /-- The clock grows without bound. -/
  grows : ∀ t : ℤ, ∃ i, t < (e.state i).kernel.clock.ns
  /-- Finitely many datagrams arrive. -/
  arrivals : ∃ n, ∀ i, n ≤ i → ∀ d, e.label i ≠ .arrive d
  /-- `sendmmsg` is retried finitely often. -/
  retries : ∃ n, ∀ i, n ≤ i → e.label i ≠ .sendmmsg (.error eagain)
  /-- The scanner takes steps as long as `run()` is not left and it is not blocked. -/
  runs : ∀ i, (e.state i).pc.isFinal = false → ¬ P.Blocks (e.state i) →
    ∃ j, i ≤ j ∧ (e.label j).isEnv = false

/-- The reap, which closes a turn of the loop. The scanner's progress is measured at these steps. -/
def Reaps (w : PingWorld) (l : PingLabel) : Prop := w.pc = .reap ∧ l = .run

/-- The scanner is never stuck: unless `run()` is left, it can take a step. -/
theorem exists_step (hpc : w.pc.isFinal = false) :
    ∃ l w', l.isEnv = false ∧ P.step w l = some w' := by
  obtain ⟨st, pc, kernel, trace⟩ := w
  cases pc with
  | loopHead =>
    by_cases hcond : st.nextHostIdx < P.totalHosts ∨ st.activeProbes > 0
    · exact ⟨.run, _, rfl, if_pos hcond⟩
    · exact ⟨.run, _, rfl, if_neg hcond⟩
  -- where the kernel has a choice, the answer that is always allowed
  | flush n k =>
    by_cases hlt : k < n
    · exact ⟨.sendmmsg (.error eagain), _, rfl, if_pos hlt⟩
    · exact ⟨.run, _, rfl, if_neg hlt⟩
  | rollback n k i =>
    by_cases hlt : i < n
    · exact ⟨.run, _, rfl, if_pos hlt⟩
    · exact ⟨.run, _, rfl, if_neg hlt⟩
  | waitWritable => exact ⟨.wait false true [], _, rfl, rfl⟩
  | receive => exact ⟨.epollWait .failed, _, rfl, rfl⟩
  | drain => exact ⟨.recvmmsg true, _, rfl, rfl⟩
  | handle batch full =>
    cases batch with
    | nil => exact ⟨.run, _, rfl, rfl⟩
    | cons d batch => exact ⟨.message none false, _, rfl, rfl⟩
  | sendBatch | reap => exact ⟨.run, _, rfl, rfl⟩
  | returned | thrown => cases hpc

/-! ### Every turn ends -/

/-- The rank of a state: a bound on the steps that the scanner has before it until the reap of this
turn. -/
def rank (P : PingScanner) (w : PingWorld) : ℕ :=
  w.pc.rank P.sendBatchSize w.kernel.rxQueue.length

/-- **Every scanner step but the reap lowers the rank**, and the clock does not touch it. Arrivals
and retries of `sendmmsg` are what can raise it. -/
theorem rank_step (hP : P.Ranged) (hslot : P.SlotInv w.st) (hcover : P.CoverInv w)
    (hstep : PingStep P w l w') (hreap : ¬ Reaps w l) (harrive : ∀ d, l ≠ .arrive d)
    (hagain : l ≠ .sendmmsg (.error eagain)) :
    P.rank w' + (if l.isEnv then 0 else 1) ≤ P.rank w := by
  cases hstep with
  | tick => exact le_rfl
  | arrive d => exact absurd rfl (harrive d)
  | again => exact absurd rfl hagain
  | reap hpc => exact absurd ⟨hpc, rfl⟩ hreap
  | @populate hpc s n hout =>
    -- the batch has at most `send_batch_size_` messages
    have hfresh := hcover.fresh (by rw [hpc]; rfl)
    have hsize := (populated_populateBatchEntries hP hslot hfresh hout).size
    by_cases hn : n = 0
    · simp only [rank, hpc, hn, if_true, PingPc.rank, PingLabel.isEnv, Bool.false_eq_true, if_false]
      omega
    · simp only [rank, hpc, hn, PingPc.rank, PingLabel.isEnv, Bool.false_eq_true, if_false]
      omega
  | @message d batch full dns throws hpc s threw hout =>
    cases threw <;> cases full <;>
      simp only [rank, hpc, PingPc.rank, PingLabel.isEnv, List.length_cons, Bool.false_eq_true,
        if_false, if_true] <;>
      omega
  | @batchDone full hpc =>
    cases full <;> simp [rank, hpc, PingPc.rank, PingLabel.isEnv]
  | recvFull hpc hsize hfull =>
    simp only [rank, hpc, PingPc.rank, PingLabel.isEnv, List.length_map, List.length_take,
      List.length_drop, Bool.false_eq_true, if_false]
    omega
  | recvShort hpc =>
    simp only [rank, hpc, PingPc.rank, PingLabel.isEnv, List.length_map, Bool.false_eq_true,
      if_false]
    omega
  | _ =>
    simp only [rank, PingPc.rank, PingLabel.isEnv, Bool.false_eq_true, if_false, *]
    omega

/-! ### The cursor and the table while the cursor rests -/

/-- A turn of the populate loop advances the cursor by one, whether or not the host is skipped. -/
theorem nextHostIdx_populateStep {ts : Timespec} {n n' : ℕ} {s' : PingState}
    (h : P.populateStep ts s n = some (s', n')) : s'.nextHostIdx = s.nextHostIdx + 1 := by
  unfold populateStep at h
  split at h
  · split at h
    · cases h
    · dsimp only at h
      split at h
      · cases h; rfl
      · split at h
        · cases h; rfl
        · cases h; rfl
  · cases h

/-- With its gates open, a batch advances the cursor: the first turn of its loop goes through. -/
theorem SlotInv.populate_advances (hP : P.Ranged) (h : P.SlotInv s) (ts : Timespec)
    (hcursor : s.nextHostIdx < P.totalHosts) (hactive : s.activeProbes < P.maxProbes)
    (hbatch : 0 < P.sendBatchSize) :
    s.nextHostIdx < (P.populateBatchEntries ts s).1.nextHostIdx := by
  obtain ⟨left, hleft⟩ : ∃ left, P.totalHosts - s.nextHostIdx = left + 1 :=
    ⟨P.totalHosts - s.nextHostIdx - 1, by omega⟩
  -- the invariant finds a free slot, so the first turn does not break
  obtain ⟨s', n', hturn⟩ : ∃ s' n', P.populateStep ts s 0 = some (s', n') := by
    rcases h.populateStep_cases hP ts 0 with
      ⟨hgate, -⟩ | ⟨-, -, -, ⟨-, hsome⟩ | ⟨-, i, p, -, -, hsome⟩⟩
    · exact absurd ⟨hcursor, hactive, hbatch⟩ hgate
    · exact ⟨_, _, hsome⟩
    · exact ⟨_, _, hsome⟩
  rw [PingScanner.populateBatchEntries, hleft, populateLoop, hturn]
  have hfirst : s.nextHostIdx < s'.nextHostIdx := by
    rw [nextHostIdx_populateStep hturn]
    exact Nat.lt_succ_self _
  apply populateLoop_induction (motive := fun u _ => s.nextHostIdx < u.nextHostIdx) _ left s' n'
    hfirst
  intro u m u' m' hu hstep
  rw [nextHostIdx_populateStep hstep]
  exact Nat.lt_succ_of_lt hu

/-- Unless `run()` is left, no step moves the cursor back: the rewind of a rollback ends the run. -/
theorem cursor_step (hP : P.Ranged) (hslot : P.SlotInv w.st) (hcover : P.CoverInv w)
    (hstep : PingStep P w l w') (hpc' : w'.pc.isFinal = false) :
    w.st.nextHostIdx ≤ w'.st.nextHostIdx := by
  cases hstep with
  | populate hpc hout =>
    have hfresh := hcover.fresh (by rw [hpc]; rfl)
    exact (populated_populateBatchEntries hP hslot hfresh hout).cursor_le
  | rollbackDone => cases hpc'
  | release _ _ hout =>
    subst hout
    exact (congrArg Prod.fst (P.releaseProbeSlot_frame _ w.st).1).ge
  | @message d _ _ dns throws _ _ _ hout =>
    have hsend := hslot.sending_receiveMessage hP w.kernel.clock dns throws d
    rw [hout] at hsend
    exact (congrArg Prod.fst hsend).ge
  | reap _ hout =>
    subst hout
    exact (congrArg Prod.fst (P.reapTimedOutProbes_frame _ w.st).1).ge
  | _ => exact le_rfl

/-- A step that does not move the cursor makes no probe active, as only the populate loop does. -/
theorem kept_step (hP : P.Ranged) (hslot : P.SlotInv w.st) (hcover : P.CoverInv w)
    (hstep : PingStep P w l w') (hcursor : w'.st.nextHostIdx = w.st.nextHostIdx) {i : ℕ}
    {p : ProbeInfo} (hi : w'.st.probeTable[i]? = some p) (hp : p.active = true) :
    w.st.probeTable[i]? = some p := by
  cases hstep with
  | populate hpc hout =>
    have hfresh := hcover.fresh (by rw [hpc]; rfl)
    have hpop := populated_populateBatchEntries hP hslot hfresh hout
    rcases hpop.new i p hi hp with hold | ⟨-, hmem⟩
    · exact hold
    · -- the cursor rests, so the batch is empty
      dsimp only at hcursor
      rw [hpop.addrs, hcursor, eligible_self] at hmem
      cases hmem
  | release _ _ hout =>
    subst hout
    exact (hslot.releases_releaseProbeSlot hP _).kept i p hi hp
  | @message d _ _ dns throws _ _ _ hout =>
    have hrel := hslot.releases_receiveMessage hP w.kernel.clock dns throws d
    rw [hout] at hrel
    exact hrel.kept i p hi hp
  | reap _ hout =>
    subst hout
    exact (hslot.releases_reap hP _ _).kept i p hi hp
  | _ => exact hi

/-! ### Fair runs end -/

variable {e : Execution P.step}

/-- The clock of a fair run is beyond any value from some moment on. -/
theorem Fair.clock_beyond (hfair : Fair e) (t : ℤ) :
    ∃ n, ∀ i, n ≤ i → t < (e.state i).kernel.clock.ns := by
  apply e.exists_forall_lt (f := fun w => w.kernel.clock.ns) _ (hfair.grows t)
  intro i
  exact clock_step (hfair.forward i) (step_cases (e.step i))

/-- A run that is never left and never blocked comes back to the reap again and again. -/
theorem Fair.exists_reap (hP : P.Ranged) (hs : P.Sized s₀) (hstart : e.state 0 = start s₀ k)
    (hfair : Fair e) (hnever : ∀ i, (e.state i).pc.isFinal = false)
    (hblocks : ∀ i, ¬ P.Blocks (e.state i)) (i : ℕ) :
    ∃ j, i ≤ j ∧ Reaps (e.state j) (e.label j) := by
  have hreach : ∀ i, Reachable P.step (start s₀ k) (e.state i) := by
    intro i
    rw [← hstart]
    exact e.reachable i
  obtain ⟨n₁, harrive⟩ := hfair.arrivals
  obtain ⟨n₂, hagain⟩ := hfair.retries
  -- from `n₁` and `n₂` on nothing raises the rank
  have hrank : ∀ i, max n₁ n₂ ≤ i → ¬ Reaps (e.state i) (e.label i) →
      P.rank (e.state (i + 1)) + (if (e.label i).isEnv then 0 else 1) ≤ P.rank (e.state i) := by
    intro i hi hreap
    refine rank_step hP (slotInv_of_reachable hP hs (hreach i))
      (coverInv_of_reachable hP hs (hreach i)) (step_cases (e.step i)) hreap ?_ ?_
    · exact harrive i (le_trans (le_max_left _ _) hi)
    · exact hagain i (le_trans (le_max_right _ _) hi)
  have hidle : ∀ i, max n₁ n₂ ≤ i → ¬ Reaps (e.state i) (e.label i) →
      P.rank (e.state (i + 1)) ≤ P.rank (e.state i) := by
    intro i hi hreap
    have := hrank i hi hreap
    omega
  have hfalls : ∀ i, max n₁ n₂ ≤ i → ¬ Reaps (e.state i) (e.label i) →
      (e.label i).isEnv = false → P.rank (e.state (i + 1)) < P.rank (e.state i) := by
    intro i hi hreap hbusy
    have := hrank i hi hreap
    simp only [hbusy, Bool.false_eq_true, if_false] at this
    omega
  obtain ⟨j, hij, hj⟩ := e.exists_marked P.rank (fun _ l => l.isEnv = false) Reaps hidle hfalls
    (fun i => hfair.runs i (hnever i) (hblocks i)) (le_max_right i _)
  exact ⟨j, le_trans (le_max_left _ _) hij, hj⟩

/-- A reap that finds all active probes too old leads to the loop head with none active. -/
theorem reap_step (hP : P.Ranged) (hslot : P.SlotInv w.st) (hstep : PingStep P w l w')
    (hreap : Reaps w l) (hold : ∀ (i : ℕ) (p : ProbeInfo), w.st.probeTable[i]? = some p →
      p.active = true → w.kernel.clock.elapsedNs p.sendTime > P.timeoutNs) :
    w'.pc = .loopHead ∧ w'.st.activeProbes = 0 := by
  obtain ⟨hpc, rfl⟩ := hreap
  cases hstep with
  | reap _ hout =>
    subst hout
    exact ⟨rfl, hslot.reap_all hP _ hold⟩
  | _ => simp_all

/-- The loop head with no probe active and a host left leads to `send_batch`. -/
theorem loopHead_step (hstep : PingStep P w l w') (hpc : w.pc = .loopHead)
    (hactive : w.st.activeProbes = 0) (hbusy : l.isEnv = false)
    (hpc' : w'.pc.isFinal = false) :
    w'.pc = .sendBatch ∧ w'.st.activeProbes = 0 ∧ w'.st.nextHostIdx < P.totalHosts := by
  cases hstep with
  | tick | arrive => cases hbusy
  | enter _ hcond => exact ⟨rfl, hactive, by dsimp only; omega⟩
  | leave => cases hpc'
  | _ => simp_all

/-- With both gates open, `send_batch` moves the cursor, so it does so finitely often. -/
theorem sendBatch_step (hP : P.Ranged) (hslot : P.SlotInv w.st) (hprobes : 0 < P.maxProbes)
    (hbatch : 0 < P.sendBatchSize) (hstep : PingStep P w l w') (hpc : w.pc = .sendBatch)
    (hactive : w.st.activeProbes = 0) (hcursor : w.st.nextHostIdx < P.totalHosts)
    (hbusy : l.isEnv = false) : w.st.nextHostIdx < w'.st.nextHostIdx := by
  cases hstep with
  | tick | arrive => cases hbusy
  | populate _ hout =>
    have := hslot.populate_advances hP w.kernel.clock hcursor (by omega) hbatch
    rwa [hout] at this
  | _ => simp_all

/-- Steps of the environment leave the scanner alone: they change the kernel and the trace. -/
theorem env_step (hstep : PingStep P w l w') (henv : l.isEnv = true) :
    w'.pc = w.pc ∧ w'.st = w.st := by
  cases hstep with
  | tick | arrive => exact ⟨rfl, rfl⟩
  | _ => cases henv

/-- The next step of the scanner itself finds it as the steps of the environment have left it. -/
theorem exists_run_step {I : PingPc → PingState → Prop} {n : ℕ}
    (hn : I (e.state n).pc (e.state n).st)
    (hbusy : ∀ i, ∃ j, i ≤ j ∧ (e.label j).isEnv = false) :
    ∃ j, n ≤ j ∧ I (e.state j).pc (e.state j).st ∧ (e.label j).isEnv = false := by
  refine e.exists_next (I := fun w => I w.pc w.st) (fun _ l => l.isEnv = false) hn ?_ hbusy
  intro i _ hi henv
  obtain ⟨hpc, hst⟩ := env_step (step_cases (e.step i)) (Bool.eq_true_of_not_eq_false henv)
  rwa [hpc, hst]

/-- **With both gates open, fair runs end.** If `max_probes_` and `send_batch_size_` are not zero,
`run()` is left in every fair environment in which it is never blocked. -/
theorem ends_of_fair (hP : P.Ranged) (hs : P.Sized s₀) (hprobes : 0 < P.maxProbes)
    (hbatch : 0 < P.sendBatchSize) (hstart : e.state 0 = start s₀ k) (hfair : Fair e)
    (hblocks : ∀ i, ¬ P.Blocks (e.state i)) : ∃ i, (e.state i).pc.isFinal = true := by
  by_contra hnever
  push Not at hnever
  simp only [ne_eq, Bool.not_eq_true] at hnever
  have hreach : ∀ i, Reachable P.step (start s₀ k) (e.state i) := by
    intro i
    rw [← hstart]
    exact e.reachable i
  have hslot : ∀ i, P.SlotInv (e.state i).st := fun i => slotInv_of_reachable hP hs (hreach i)
  have hcover : ∀ i, P.CoverInv (e.state i) := fun i => coverInv_of_reachable hP hs (hreach i)
  have hstep : ∀ i, PingStep P (e.state i) (e.label i) (e.state (i + 1)) :=
    fun i => step_cases (e.step i)
  have hbusy : ∀ i, ∃ j, i ≤ j ∧ (e.label j).isEnv = false :=
    fun i => hfair.runs i (hnever i) (hblocks i)
  -- the cursor comes to rest
  have htotal : ∀ i, (e.state i).st.nextHostIdx ≤ P.totalHosts := by
    intro i
    have hfinal := hnever i
    have hrun : (e.state i).pc.isAborted = false := by
      cases hpc : (e.state i).pc <;> simp_all [PingPc.isFinal, PingPc.isAborted]
    rw [(hcover i).cursor hrun]
    exact (hcover i).total
  obtain ⟨n, hrest⟩ := e.exists_stable (f := fun w => w.st.nextHostIdx)
    (fun i => cursor_step hP (hslot i) (hcover i) (hstep i) (hnever (i + 1))) htotal
  have hsame : ∀ i, n ≤ i → (e.state (i + 1)).st.nextHostIdx = (e.state i).st.nextHostIdx :=
    fun i hi => (hrest (i + 1) (Nat.le_succ_of_le hi)).trans (hrest i hi).symm
  -- from then on the table holds no probe sent after `b`
  obtain ⟨b, hb⟩ := exists_bound (fun p : ProbeInfo => p.sendTime.ns)
    (e.state n).st.probeTable
  have hsent : ∀ i, n ≤ i → ∀ (j : ℕ) (p : ProbeInfo), (e.state i).st.probeTable[j]? = some p →
      p.active = true → p.sendTime.ns ≤ b := by
    intro i hi
    induction i, hi using Nat.le_induction with
    | base => exact fun j p hj _ => hb j p hj
    | succ i hi ih =>
      intro j p hj hp
      exact ih j p (kept_step hP (hslot i) (hcover i) (hstep i) (hsame i hi) hj hp) hp
  -- so a reap late enough empties it
  obtain ⟨m, hm⟩ := hfair.clock_beyond (b + P.timeoutNs)
  obtain ⟨r, hr, hreap⟩ := hfair.exists_reap hP hs hstart hnever hblocks (max n m)
  have hempty := reap_step hP (hslot r) (hstep r) hreap (by
    intro i p hi hp
    have hlate := hm r (le_trans (le_max_right _ _) hr)
    have hold := hsent r (le_trans (le_max_left _ _) hr) i p hi hp
    rw [Timespec.elapsedNs_eq]
    omega)
  -- the next turn of the loop moves the cursor
  obtain ⟨h, hrh, ⟨hpc, hactive⟩, hnext⟩ := exists_run_step
    (I := fun pc st => pc = .loopHead ∧ st.activeProbes = 0) hempty hbusy
  have hentered := loopHead_step (hstep h) hpc hactive hnext (hnever (h + 1))
  obtain ⟨q, hhq, ⟨hpc, hactive, hcursor⟩, hnext⟩ := exists_run_step
    (I := fun pc st => pc = .sendBatch ∧ st.activeProbes = 0 ∧ st.nextHostIdx < P.totalHosts)
    hentered hbusy
  have hmoved := sendBatch_step hP (hslot q) hprobes hbatch (hstep q) hpc hactive hcursor hnext
  have hstill := hsame q (by omega)
  omega

/-- A wait with a time limit blocks nobody: the limit passes as the clock goes on. -/
theorem not_blocks_of_timeout (htimeout : 0 ≤ toInt32 P.timeoutMs) (w : PingWorld) :
    ¬ P.Blocks w := by
  rintro ⟨hneg, -⟩
  omega

/-- If all hosts are addresses of the local subnet itself, there is never a batch to send. -/
theorem batch?_of_skipped (hP : P.Ranged) (hs : P.Sized s₀)
    (hskip : ∀ h < P.totalHosts, P.skipsLocal (P.baseIp + h) = true)
    (hw : Reachable P.step (start s₀ k) w) : w.pc.batch? = none := by
  refine hw.invariant_of_runs (I := fun w => w.pc.batch? = none) rfl ?_
  rintro u l v hreach hu - hstep
  cases step_cases hstep with
  | tick | arrive => exact hu
  | @populate hpc s n hout =>
    have hslot := slotInv_of_reachable hP hs hreach
    have hcover := coverInv_of_reachable hP hs hreach
    have hpop := populated_populateBatchEntries hP hslot (hcover.fresh (by rw [hpc]; rfl)) hout
    have hcursor := hcover.cursor (by rw [hpc]; rfl)
    have htotal := hcover.total
    have hrange := hpop.cursor_total
    -- the hosts that the cursor passes are passed over
    have hnil : s.sendAddrs.take n = [] := by
      rw [hpop.addrs, eligible, List.map_eq_nil_iff, List.filter_eq_nil_iff]
      intro h hh
      have hlt : h < P.totalHosts := by
        have := List.mem_range'_1.mp hh
        omega
      simp [hskip h hlt]
    have hlen := congrArg List.length hnil
    rw [List.length_take, List.length_nil, hpop.slotInv.sized.sendAddrs] at hlen
    have hsize := hpop.size
    obtain rfl : n = 0 := by omega
    rfl
  | @message _ _ _ _ _ _ _ threw => cases threw <;> rfl
  | @batchDone full => cases full <;> rfl
  | sent hpc | again hpc | refused hpc | writable hpc | notWritable hpc | waitThrew hpc
  | flushDone hpc | release hpc | rollbackDone hpc =>
    rw [hpc] at hu
    cases hu
  | _ => rfl

/-- A scanner without a batch to send is not blocked, as it never waits for the buffer. -/
theorem not_blocks_of_skipped (hP : P.Ranged) (hs : P.Sized s₀)
    (hskip : ∀ h < P.totalHosts, P.skipsLocal (P.baseIp + h) = true)
    (hw : Reachable P.step (start s₀ k) w) : ¬ P.Blocks w := by
  rintro ⟨-, n, i, hpc⟩
  have hbatch := batch?_of_skipped hP hs hskip hw
  rw [hpc] at hbatch
  cases hbatch

/-- Without hosts `run()` returns at its first test, so it ends whatever its gates and its timeout
are. -/
theorem ends_of_empty (hP : P.Ranged) (hs : P.Sized s₀) (htotal : P.totalHosts = 0)
    (hstart : e.state 0 = start s₀ k) (hfair : Fair e) :
    ∃ i, (e.state i).pc.isFinal = true := by
  -- fairness brings the step from the head of the loop, where both conditions are false
  by_contra hnever
  push Not at hnever
  simp only [ne_eq, Bool.not_eq_true] at hnever
  have hzero : (e.state 0).pc = .loopHead ∧ (e.state 0).st = beginRun s₀ := by
    rw [hstart]
    exact ⟨rfl, rfl⟩
  have hblocks : ∀ i, ¬ P.Blocks (e.state i) := by
    intro i
    have hreach := e.reachable i
    rw [hstart] at hreach
    exact not_blocks_of_skipped hP hs (by omega) hreach
  obtain ⟨j, -, ⟨hpc, hst⟩, hnext⟩ := exists_run_step
    (I := fun pc st => pc = .loopHead ∧ st = beginRun s₀) hzero
    fun i => hfair.runs i (hnever i) (hblocks i)
  have hactive : (e.state j).st.activeProbes = 0 := by
    rw [hst]
    rfl
  have hleft := (loopHead_step (step_cases (e.step j)) hpc hactive hnext (hnever (j + 1))).2.2
  omega

/-! ### Runs that never end -/

/-- With a gate closed, no batch is populated, and the cursor stays where it is. -/
theorem populateBatchEntries_closed (ts : Timespec)
    (hgate : ¬ (s.activeProbes < P.maxProbes ∧ 0 < P.sendBatchSize)) :
    P.populateBatchEntries ts s = (s, 0) := by
  have hstep : P.populateStep ts s 0 = none := by
    rw [populateStep, if_neg]
    rintro ⟨-, hprobes, hbatch⟩
    exact hgate ⟨hprobes, hbatch⟩
  rw [populateBatchEntries]
  cases P.totalHosts - s.nextHostIdx with
  | zero => rfl
  | succ left => rw [populateLoop, hstep]

/-- Without an active probe there is nothing to reap, and the table stays as it is. -/
theorem reapTimedOutProbes_idle (now : Timespec) (h : ∀ p ∈ s.probeTable, p.active = false) :
    P.reapTimedOutProbes now s = s := by
  refine List.foldlRecOn (motive := fun u => u = s) _ _ rfl ?_
  rintro u rfl i hi
  have hlt : i < u.probeTable.length := List.mem_range.mp hi
  have hidle : (probeAt u i).active = false := by
    rw [probeAt_of_getElem? (List.getElem?_eq_getElem hlt)]
    exact h _ (List.getElem_mem hlt)
  simp [reapSlot, hidle]

/-- The labels of a run that finds nothing to do: once round the loop, then the clock moves on by a
second. -/
def idleLabel (i : ℕ) : PingLabel :=
  match i % 5 with
  | 2 => .epollWait .timeout
  | 4 => .tick { tvSec := i / 5 + 1 }
  | _ => .run

/-- Where such a run is before step `i`: five steps are one turn of the loop. -/
def idlePc (i : ℕ) : PingPc :=
  match i % 5 with
  | 1 => .sendBatch
  | 2 => .receive
  | 3 => .reap
  | _ => .loopHead

/-- The kernel of such a run: a clock that shows full seconds, and silence on the socket. -/
def idleKernel (i : ℕ) : PingKernel :=
  { clock := { tvSec := (i / 5 : ℕ) }, rxQueue := [], rxEdge := false }

/-- **With a gate closed, `run()` need not end**: if there is a host to send to and one of
`max_probes_` and `send_batch_size_` is zero, a fair environment keeps the loop turning. -/
theorem exists_endless (s₀ : PingState) (htotal : 0 < P.totalHosts)
    (hgate : P.maxProbes = 0 ∨ P.sendBatchSize = 0) :
    ∃ (k : PingKernel) (e : Execution P.step), e.state 0 = start s₀ k ∧ Fair e ∧
      ∀ i, (e.state i).pc.isFinal = false := by
  -- a turn of the loop populates nothing and reaps nothing, so it leaves the state as it was
  have hpop : ∀ ts, P.populateBatchEntries ts (beginRun s₀) = (beginRun s₀, 0) := by
    intro ts
    apply populateBatchEntries_closed
    show ¬ (0 < P.maxProbes ∧ 0 < P.sendBatchSize)
    omega
  have hreap : ∀ now, P.reapTimedOutProbes now (beginRun s₀) = beginRun s₀ := by
    intro now
    apply reapTimedOutProbes_idle
    intro p hp
    obtain ⟨q, -, rfl⟩ := List.mem_map.mp hp
    rfl
  obtain ⟨e, hzero, hlabel, hI⟩ := exists_execution_of_schedule (M := P.step)
    (s := start s₀ (idleKernel 0)) idleLabel
    (fun i w => w.st = beginRun s₀ ∧ w.pc = idlePc i ∧ w.kernel = idleKernel i) ⟨rfl, rfl, rfl⟩ (by
    rintro i ⟨st, pc, kernel, trace⟩ ⟨rfl, rfl, rfl⟩
    have hcases : i % 5 = 0 ∨ i % 5 = 1 ∨ i % 5 = 2 ∨ i % 5 = 3 ∨ i % 5 = 4 := by omega
    rcases hcases with h | h | h | h | h
    · have hnext : (i + 1) % 5 = 1 := by omega
      have hclock : (i + 1) / 5 = i / 5 := by omega
      simp only [idleLabel, idlePc, idleKernel, h, hnext, hclock]
      exact ⟨_, if_pos (.inl htotal), rfl, rfl, rfl⟩
    · have hnext : (i + 1) % 5 = 2 := by omega
      have hclock : (i + 1) / 5 = i / 5 := by omega
      simp only [idleLabel, idlePc, idleKernel, h, hnext, hclock]
      simp only [step, runStep, hpop]
      exact ⟨_, rfl, rfl, rfl, rfl⟩
    · have hnext : (i + 1) % 5 = 3 := by omega
      have hclock : (i + 1) / 5 = i / 5 := by omega
      simp only [idleLabel, idlePc, idleKernel, h, hnext, hclock]
      exact ⟨_, rfl, rfl, rfl, rfl⟩
    · have hnext : (i + 1) % 5 = 4 := by omega
      have hclock : (i + 1) / 5 = i / 5 := by omega
      simp only [idleLabel, idlePc, idleKernel, h, hnext, hclock]
      simp only [step, runStep, hreap]
      exact ⟨_, rfl, rfl, rfl, rfl⟩
    · have hnext : (i + 1) % 5 = 0 := by omega
      have hclock : (i + 1) / 5 = i / 5 + 1 := by omega
      simp only [idleLabel, idlePc, idleKernel, h, hnext, hclock]
      exact ⟨_, rfl, rfl, rfl, by simp⟩)
  refine ⟨_, e, hzero, ?_, ?_⟩
  -- the run is fair: its clock goes on, nothing arrives, and the scanner takes its steps
  · refine ⟨?_, ?_, ⟨0, ?_⟩, ⟨0, ?_⟩, ?_⟩
    · intro i now hnow
      rw [(hI i).2.2]
      rw [hlabel, idleLabel] at hnow
      split at hnow
      · cases hnow
      · cases hnow
        simp only [idleKernel, Timespec.ns, nanosecondsPerSecond]
        omega
      · cases hnow
    · intro t
      refine ⟨5 * (t.toNat + 1), ?_⟩
      rw [(hI _).2.2]
      simp only [idleKernel, Timespec.ns, nanosecondsPerSecond]
      omega
    · intro i _ d
      rw [hlabel]
      unfold idleLabel
      split <;> simp
    · intro i _
      rw [hlabel]
      unfold idleLabel
      split <;> simp
    · intro i _ _
      refine ⟨5 * i, by omega, ?_⟩
      rw [hlabel]
      simp [idleLabel, PingLabel.isEnv]
  · intro i
    rw [(hI i).2.1]
    unfold idlePc
    split <;> rfl

/-- The populate loop goes on until its gate closes: the hosts left are turns enough, as each turn
moves the cursor on by one. By induction on the turns left. -/
theorem populateStep_populateLoop (ts : Timespec) (left : ℕ) (s : PingState) (n : ℕ)
    (hleft : P.totalHosts - s.nextHostIdx ≤ left) :
    P.populateStep ts (P.populateLoop ts left s n).1 (P.populateLoop ts left s n).2 = none := by
  induction left generalizing s n with
  | zero =>
    have hend : ¬ s.nextHostIdx < P.totalHosts := by omega
    exact if_neg fun hgate => hend hgate.1
  | succ left ih =>
    rw [populateLoop]
    cases hturn : P.populateStep ts s n with
    | none => exact hturn
    | some out =>
      obtain ⟨s', n'⟩ := out
      have hnext := nextHostIdx_populateStep hturn
      exact ih s' n' (by omega)

/-- With both gates open and a host to be probed, the first batch of a run is not empty. -/
theorem populateBatchEntries_beginRun_pos (hP : P.Ranged) (hs : P.Sized s₀)
    (hprobes : 0 < P.maxProbes) (hbatch : 0 < P.sendBatchSize) {h : ℕ} (hlt : h < P.totalHosts)
    (hlocal : P.skipsLocal (P.baseIp + h) = false) (ts : Timespec) :
    0 < (P.populateBatchEntries ts (beginRun s₀)).2 := by
  have hslot := slotInv_beginRun (P := P) hs
  have hidle : ∀ (i : ℕ) (p : ProbeInfo), (beginRun s₀).probeTable[i]? = some p →
      p.active = false := by
    intro i p hi
    obtain ⟨q, -, rfl⟩ := List.mem_map.mp (List.mem_of_getElem? hi)
    rfl
  obtain ⟨⟨s, n⟩, hout⟩ : ∃ out, P.populateBatchEntries ts (beginRun s₀) = out := ⟨_, rfl⟩
  have hfresh := (coverInv_of_reachable (k := { clock := ts, rxQueue := [], rxEdge := false }) hP hs
    .refl).fresh rfl
  have hpop := populated_populateBatchEntries hP hslot hfresh hout
  rw [hout]
  by_contra hzero
  obtain rfl : n = 0 := by dsimp only at hzero; omega
  -- no host to be probed was passed, so the cursor stands at one or before it
  have hcursor : s.nextHostIdx ≤ h := by
    by_contra hpast
    have hmem : P.baseIp + h ∈ P.eligible [] 0 s.nextHostIdx := by
      refine List.mem_map_of_mem (List.mem_filter.mpr ⟨List.mem_range'_1.mpr ?_, ?_⟩)
      · omega
      · simp [hlocal]
    have haddrs := hpop.addrs
    rw [List.take_zero] at haddrs
    have hnil : P.eligible [] 0 s.nextHostIdx = [] := haddrs.symm
    rw [hnil] at hmem
    cases hmem
  -- no slot was claimed either
  have hactive : s.activeProbes = 0 := by
    rw [hpop.slotInv.count, keys_eq_nil, List.length_nil]
    intro p hp
    obtain ⟨i, hi⟩ := List.mem_iff_getElem?.mp hp
    by_cases hheld : p.active = true
    · rcases hpop.new i p hi hheld with hold | ⟨-, hmem⟩
      · rw [hidle i p hold] at hheld
        cases hheld
      · cases hmem
    · simp [ProbeInfo.held, hheld]
  -- so the gate is open, and the loop would have gone on
  have hstop : P.populateStep ts s 0 = none := by
    have hloop := populateStep_populateLoop (P := P) ts _ (beginRun s₀) 0 le_rfl
    rw [populateBatchEntries] at hout
    rwa [hout] at hloop
  rcases hpop.slotInv.populateStep_cases hP ts 0 with
    ⟨hgate, -⟩ | ⟨-, -, -, ⟨-, hsome⟩ | ⟨-, i, p, -, -, hsome⟩⟩
  · exact hgate ⟨by omega, by omega, hbatch⟩
  · rw [hstop] at hsome
    cases hsome
  · rw [hstop] at hsome
    cases hsome

/-- The labels of a run that finds the socket full: the first batch is populated, `sendmmsg` has no
room, and from then on there is nothing but the clock. -/
def stuckLabel : ℕ → PingLabel
  | 0 | 1 => .run
  | 2 => .sendmmsg (.error eagain)
  | i + 3 => .tick { tvSec := i + 1 }

/-- Where such a run is before step `i`, with a batch of `n` messages. -/
def stuckPc (n : ℕ) : ℕ → PingPc
  | 0 => .loopHead
  | 1 => .sendBatch
  | 2 => .flush n 0
  | _ + 3 => .waitWritable n 0

/-- The kernel of such a run, whose clock goes on while the scanner waits. -/
def stuckKernel (i : ℕ) : PingKernel :=
  { clock := { tvSec := (i - 3 : ℕ) }, rxQueue := [], rxEdge := false }

/-- **With a timeout that is negative as an `int`, `run()` need not end** either: if a message is
to be sent, a full socket holds the scanner in `epoll_wait`, and the first `EAGAIN` is the last. -/
theorem exists_stuck (hP : P.Ranged) (hs : P.Sized s₀) (hprobes : 0 < P.maxProbes)
    (hbatch : 0 < P.sendBatchSize) {h : ℕ} (hlt : h < P.totalHosts)
    (hlocal : P.skipsLocal (P.baseIp + h) = false) (htimeout : toInt32 P.timeoutMs < 0) :
    ∃ (k : PingKernel) (e : Execution P.step), e.state 0 = start s₀ k ∧ Fair e ∧
      ∀ i, (e.state i).pc.isFinal = false := by
  obtain ⟨⟨s, n⟩, hout⟩ : ∃ out, P.populateBatchEntries {} (beginRun s₀) = out := ⟨_, rfl⟩
  -- the first batch is not empty, so the flush has a message for the full socket
  have hpos := populateBatchEntries_beginRun_pos hP hs hprobes hbatch hlt hlocal {}
  rw [hout] at hpos
  have hne : n ≠ 0 := by dsimp only at hpos; omega
  obtain ⟨e, hzero, hlabel, hI⟩ := exists_execution_of_schedule (M := P.step)
    (s := start s₀ (stuckKernel 0)) stuckLabel
    (fun i w => w.pc = stuckPc n i ∧ w.kernel = stuckKernel i ∧
      (i ≤ 1 → w.st = beginRun s₀)) ⟨rfl, rfl, fun _ => rfl⟩ (by
    rintro i ⟨st, pc, kernel, trace⟩ ⟨rfl, rfl, hst⟩
    match i with
    | 0 =>
      obtain rfl := hst (by omega)
      exact ⟨_, if_pos (.inl (Nat.zero_lt_of_lt hlt)), rfl, rfl, fun _ => rfl⟩
    | 1 =>
      obtain rfl := hst le_rfl
      refine ⟨_, rfl, ?_, rfl, by omega⟩
      show (if (P.populateBatchEntries {} (beginRun s₀)).2 = 0 then PingPc.receive
        else .flush (P.populateBatchEntries {} (beginRun s₀)).2 0) = .flush n 0
      rw [hout, if_neg hne]
    | 2 => exact ⟨_, if_pos (Nat.pos_of_ne_zero hne), rfl, rfl, by omega⟩
    | i + 3 => exact ⟨_, rfl, rfl, rfl, by omega⟩)
  refine ⟨_, e, hzero, ?_, ?_⟩
  -- the run is fair: from step 3 on the scanner is blocked, and only the clock moves
  · refine ⟨?_, ?_, ⟨0, ?_⟩, ⟨3, ?_⟩, ?_⟩
    · intro i now hnow
      rw [(hI i).2.1]
      rw [hlabel] at hnow
      match i with
      | i + 3 =>
        cases hnow
        simp only [stuckKernel, Timespec.ns, nanosecondsPerSecond]
        omega
    · intro t
      refine ⟨t.toNat + 4, ?_⟩
      rw [(hI _).2.1]
      simp only [stuckKernel, Timespec.ns, nanosecondsPerSecond]
      omega
    · intro i _ d
      rw [hlabel]
      unfold stuckLabel
      split <;> simp
    · intro i hi
      rw [hlabel]
      unfold stuckLabel
      split <;> simp_all
    · intro i _ hfree
      match i with
      | 0 | 1 | 2 => exact ⟨2, by omega, by rw [hlabel]; rfl⟩
      | i + 3 => exact absurd ⟨htimeout, n, 0, (hI (i + 3)).1⟩ hfree
  · intro i
    rw [(hI i).1]
    unfold stuckPc
    split <;> rfl

end PingScanner

end Netscan
