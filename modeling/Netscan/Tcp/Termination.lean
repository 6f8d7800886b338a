import Netscan.Tcp.Completeness

/-! # When the loop of a TCP run ends

Each turn of the loop of `run()` ends (`rank`), and once the clock has left every recorded send time
behind by more than the timeout a reap empties the table. The next turn then takes a host, provided
that both gates of `initiate_connections` are open. With `max_probes_` or `batch_size_` zero and a
host to connect to the loop turns for ever. -/

namespace Netscan

open MachineInt SlotTable LabelledSystem

/-- The scanner steps left in `initiate_single_connection` at most. -/
def Stage.rank : Stage → ℕ
  | .opened => 3
  | .nonblocking => 2
  | .connecting => 1

/-- The number of scanner steps before the next reap is at most this rank: a host costs at most four
system calls, and an event one turn of the loop of `poll_connections`. -/
def TcpPc.rank (batchSize maxEvents : ℕ) : TcpPc → ℕ
  | .loopHead => maxEvents + 5 + 4 * batchSize
  | .initiate n => maxEvents + 4 + 4 * (batchSize - n)
  | .single stage n _ _ _ => maxEvents + 4 + 4 * (batchSize - (n + 1)) + stage.rank
  | .poll => maxEvents + 3
  | .handle evs => 1 + evs.length
  | .reap | .returned | .thrown | .destroyed => 0

namespace TcpScanner

variable {P : TcpScanner} {s s₀ : TcpState} {clock : Timespec} {w w' : TcpWorld} {l : TcpLabel}

/-- A fair environment: the clock does not go back and grows without bound, finitely many
connections complete, and the scanner is not starved. -/
structure Fair (e : Execution P.step) : Prop where
  /-- The clock does not go back. -/
  forward : ∀ i, ClockForward (e.state i) (e.label i)
  /-- The clock grows without bound. -/
  grows : ∀ t : ℤ, ∃ i, t < (e.state i).kernel.clock.ns
  /-- Finitely many connections complete. -/
  completions : ∃ n, ∀ i, n ≤ i → ∀ fd err, e.label i ≠ .complete fd err
  /-- The scanner takes steps as long as `run()` is not left. -/
  runs : ∀ i, (e.state i).pc.isFinal = false → ∃ j, i ≤ j ∧ (e.label j).isEnv = false

/-- The reap, which closes a turn of the loop. The scanner's progress is measured at these steps. -/
def Reaps (w : TcpWorld) (l : TcpLabel) : Prop := w.pc = .reap ∧ l = .run

/-- The scanner is never stuck: unless `run()` is left, it can take a step. -/
theorem exists_step (hown : P.OwnInv w) (hpc : w.pc.isFinal = false) :
    ∃ l w', l.isEnv = false ∧ P.step w l = some w' := by
  -- the socket that `initiate_single_connection` works on is open
  have hheld : ∀ stage n slot ip fd, w.pc = .single stage n slot ip fd →
      ∃ s, w.kernel.socketAt fd = some s := by
    intro stage n slot ip fd hsingle
    have howned := hown.owned (by rw [hsingle]; nofun)
    rw [hsingle] at howned
    obtain ⟨s, hs, -⟩ := (howned.held fd).mp rfl
    exact ⟨s, hs⟩
  obtain ⟨st, pc, kernel, trace⟩ := w
  cases pc with
  | loopHead =>
    by_cases hcond : st.nextHostIdx < P.totalHosts ∨ st.activeProbes > 0
    · exact ⟨.run, _, rfl, if_pos hcond⟩
    · exact ⟨.run, _, rfl, if_neg hcond⟩
  | initiate n =>
    by_cases hgo : P.Initiates st n
    · cases hlocal : P.skipsLocal (P.targetIp st) with
      | true => exact ⟨.run, _, rfl, by simp only [step, runStep, hgo, hlocal, if_true]; rfl⟩
      | false =>
        by_cases hslot : findSlot st = -1
        · exact ⟨.run, _, rfl, by simp [step, runStep, hgo, hlocal, hslot]; rfl⟩
        · exact ⟨.socket none, _, rfl, if_pos ⟨hgo, hlocal, hslot⟩⟩
    · exact ⟨.run, _, rfl, if_neg hgo⟩
  -- each of its calls can be answered
  | single stage n slot ip fd =>
    obtain ⟨s, hs⟩ := hheld _ _ _ _ _ rfl
    dsimp only at hs
    cases stage with
    | opened => exact ⟨.fcntl true, _, rfl, rfl⟩
    | nonblocking =>
      have hsome : (connectStep .inProgress
          ⟨st, .single .nonblocking n slot ip fd, kernel, trace⟩).isSome := by
        simp [connectStep, hs]
      obtain ⟨w', hw'⟩ := Option.isSome_iff_exists.mp hsome
      exact ⟨.connect .inProgress, w', rfl, hw'⟩
    | connecting =>
      have hsome : (epollAddStep true
          ⟨st, .single .connecting n slot ip fd, kernel, trace⟩).isSome := by
        simp [epollAddStep, hs]
      obtain ⟨w', hw'⟩ := Option.isSome_iff_exists.mp hsome
      exact ⟨.epollAdd true, w', rfl, hw'⟩
  -- a negative `max_events` is an exception, and otherwise `epoll_wait` may fail
  | poll =>
    by_cases hneg : P.maxEvents < 0
    · have hsome : (P.runStep ⟨st, .poll, kernel, trace⟩).isSome := by simp [runStep, hneg]
      obtain ⟨w', hw'⟩ := Option.isSome_iff_exists.mp hsome
      exact ⟨.run, w', rfl, hw'⟩
    · have hsome : (P.epollWaitStep .failed ⟨st, .poll, kernel, trace⟩).isSome := by
        simp [epollWaitStep, hneg]
      obtain ⟨w', hw'⟩ := Option.isSome_iff_exists.mp hsome
      exact ⟨.epollWait .failed, w', rfl, hw'⟩
  | handle evs =>
    cases evs with
    | nil => exact ⟨.run, _, rfl, rfl⟩
    | cons ev evs =>
      by_cases hstale : ev.data ≥ st.probeTable.length ∨ (probeAt st ev.data).active = false
      · exact ⟨.run, _, rfl, if_pos hstale⟩
      · simp only [not_or, not_le, Bool.not_eq_false] at hstale
        exact ⟨.event (some 1) none false, _, rfl, if_pos hstale⟩
  | reap => exact ⟨.run, _, rfl, rfl⟩
  | returned | thrown | destroyed => cases hpc

/-! ### Every turn ends -/

/-- The rank of a state: a bound on the steps that the scanner has before it until the reap of this
turn. -/
def rank (P : TcpScanner) (w : TcpWorld) : ℕ := w.pc.rank P.batchSize P.maxEvents.toNat

/-- **Every scanner step but the reap lowers the rank**, and the environment does not touch it. -/
theorem rank_step (hstep : TcpStep P w l w') (hreap : ¬ Reaps w l) (hpc : w.pc.isFinal = false) :
    P.rank w' + (if l.isEnv then 0 else 1) ≤ P.rank w := by
  cases hstep with
  | tick | complete | reset => exact le_rfl
  | reap hpc => exact absurd ⟨hpc, rfl⟩ hreap
  | destroy hret => rcases hret with hret | hret <;> simp [hret, TcpPc.isFinal] at hpc
  | skip hpc hgo | socketFail hpc hgo | socketOk hpc hgo =>
    -- one of the connections of this turn is used up
    have hlt := hgo.2.2
    simp only [rank, hpc, TcpPc.rank, Stage.rank, TcpLabel.isEnv, Bool.false_eq_true, if_false]
    omega
  | pollEvents hpc hlen =>
    simp only [rank, hpc, TcpPc.rank, TcpLabel.isEnv, Bool.false_eq_true, if_false]
    omega
  | @success ev evs dns throws p so hpc hi hp hso herr s threw hout =>
    cases threw <;>
      simp only [rank, hpc, TcpPc.rank, TcpLabel.isEnv, List.length_cons, Bool.false_eq_true,
        if_false, if_true] <;>
      omega
  | _ =>
    simp only [rank, TcpPc.rank, Stage.rank, TcpLabel.isEnv, List.length_cons, Bool.false_eq_true,
      if_false, *]
    omega

/-! ### The cursor and the table while the cursor rests -/

/-- No step moves the cursor back, a failure included: a host that was taken is not taken again. -/
theorem cursor_step (hstep : TcpStep P w l w') : w.st.nextHostIdx ≤ w'.st.nextHostIdx := by
  cases hstep with
  | skip | socketFail | socketOk => exact Nat.le_succ _
  | @success ev evs dns throws p so hpc hi hp hso herr s threw hout =>
    have hframe := P.report_frame throws (P.probeResult w.kernel.clock dns p) (retire ev.data w.st)
    rw [hout] at hframe
    exact hframe.2.2.ge
  | reap => exact (P.ends_reap w.kernel.clock w).cursor.ge
  | destroy => exact (ends_destroy w).cursor.ge
  | _ => exact le_rfl

/-- Outside `initiate_single_connection`, a step that does not move the cursor stays outside. -/
theorem outside_step (hstep : TcpStep P w l w') (hpc : w.pc.sock? = none)
    (hcursor : w'.st.nextHostIdx = w.st.nextHostIdx) : w'.pc.sock? = none := by
  cases hstep with
  | tick | complete | reset => exact hpc
  | socketOk => exact absurd hcursor (Nat.succ_ne_self _)
  | fcntlOk hsingle | connected hsingle | inProgress hsingle =>
    rw [hsingle] at hpc
    cases hpc
  | @success _ _ _ _ _ _ _ _ _ _ _ _ threw => cases threw <;> rfl
  | _ => rfl

/-- Outside `initiate_single_connection` no probe becomes active, so the probes only get fewer. -/
theorem kept_step (hstep : TcpStep P w l w') (hpc : w.pc.sock? = none) {i : ℕ} {p : TcpProbeInfo}
    (hi : w'.st.probeTable[i]? = some p) (hp : p.active = true) :
    w.st.probeTable[i]? = some p := by
  apply active_before hstep _ hi hp
  rintro rfl
  cases hstep with
  | register hsingle =>
    rw [hsingle] at hpc
    cases hpc

/-! ### Fair runs end -/

/-- The clock does not go back along a step, as only a tick sets it. -/
theorem clock_step (hok : ClockForward w l) (hstep : TcpStep P w l w') :
    w.kernel.clock.ns ≤ w'.kernel.clock.ns := by
  by_cases hl : ∀ now, l ≠ .tick now
  · exact (congrArg Timespec.ns (clock_step_eq hstep hl)).ge
  · push Not at hl
    obtain ⟨now, rfl⟩ := hl
    cases hstep with
    | tick => exact hok now rfl

variable {e : Execution P.step}

/-- The clock of a fair run is beyond any value from some moment on. -/
theorem Fair.clock_beyond (hfair : Fair e) (t : ℤ) :
    ∃ n, ∀ i, n ≤ i → t < (e.state i).kernel.clock.ns := by
  apply e.exists_forall_lt (f := fun w => w.kernel.clock.ns) _ (hfair.grows t)
  intro i
  exact clock_step (hfair.forward i) (step_cases (e.step i))

/-- A run that is never left comes back to the reap again and again. -/
theorem Fair.exists_reap (hfair : Fair e) (hnever : ∀ i, (e.state i).pc.isFinal = false) (i : ℕ) :
    ∃ j, i ≤ j ∧ Reaps (e.state j) (e.label j) := by
  have hrank : ∀ i, ¬ Reaps (e.state i) (e.label i) →
      P.rank (e.state (i + 1)) + (if (e.label i).isEnv then 0 else 1) ≤ P.rank (e.state i) :=
    fun i hreap => rank_step (step_cases (e.step i)) hreap (hnever i)
  have hidle : ∀ i, 0 ≤ i → ¬ Reaps (e.state i) (e.label i) →
      P.rank (e.state (i + 1)) ≤ P.rank (e.state i) := by
    intro i _ hreap
    have := hrank i hreap
    omega
  have hfalls : ∀ i, 0 ≤ i → ¬ Reaps (e.state i) (e.label i) → (e.label i).isEnv = false →
      P.rank (e.state (i + 1)) < P.rank (e.state i) := by
    intro i _ hreap hbusy
    have := hrank i hreap
    simp only [hbusy, Bool.false_eq_true, if_false] at this
    omega
  exact e.exists_marked P.rank (fun _ l => l.isEnv = false) Reaps hidle hfalls
    (fun i => hfair.runs i (hnever i)) (Nat.zero_le i)

/-- A reap that finds all active probes too old leads to the loop head with none active. -/
theorem reap_step (hP : P.Ranged) (hown : P.OwnInv w) (hstep : TcpStep P w l w')
    (hreap : Reaps w l) (hold : ∀ (i : ℕ) (p : TcpProbeInfo), w.st.probeTable[i]? = some p →
      p.active = true → w.kernel.clock.elapsedNs p.sendTime > P.timeoutNs) :
    w'.pc = .loopHead ∧ w'.st.activeProbes = 0 := by
  obtain ⟨hpc, rfl⟩ := hreap
  cases hstep with
  | reap =>
    refine ⟨rfl, ?_⟩
    have howned := hown.owned (by rw [hpc]; nofun)
    show (P.reapTimedOutProbes w.kernel.clock w).st.activeProbes = 0
    rw [(howned.reapTimedOutProbes hP w.kernel.clock).count, keys_eq_nil, List.length_nil]
    intro p hp
    -- an entry still active was active before, so it was overdue
    obtain ⟨i, hi⟩ := List.mem_iff_getElem?.mp hp
    rw [TcpProbeInfo.sock?_eq_none, Bool.eq_false_iff]
    intro hactive
    have hbefore := (P.ends_reap w.kernel.clock w).kept i p hi hactive
    exact not_overdue_of_reap hi ⟨hactive, hold i p hbefore hactive⟩
  | _ => simp_all

/-- The loop head with no probe active and a host left leads to `initiate_connections`. -/
theorem loopHead_step (hstep : TcpStep P w l w') (hpc : w.pc = .loopHead)
    (hactive : w.st.activeProbes = 0) (hbusy : l.isEnv = false)
    (hpc' : w'.pc.isFinal = false) :
    w'.pc = .initiate 0 ∧ w'.st.activeProbes = 0 ∧ w'.st.nextHostIdx < P.totalHosts := by
  cases hstep with
  | tick | complete | reset => cases hbusy
  | enter _ hcond => exact ⟨rfl, hactive, by dsimp only; omega⟩
  | leave => cases hpc'
  | _ => simp_all

/-- With both gates open, `initiate_connections` moves the cursor, so it does so finitely often. -/
theorem initiate_step (hP : P.Ranged) (hown : P.OwnInv w) (hprobes : 0 < P.maxProbes)
    (hbatch : 0 < P.batchSize) (hstep : TcpStep P w l w') (hpc : w.pc = .initiate 0)
    (hactive : w.st.activeProbes = 0) (hcursor : w.st.nextHostIdx < P.totalHosts)
    (hbusy : l.isEnv = false) : w.st.nextHostIdx < w'.st.nextHostIdx := by
  have hgo : P.Initiates w.st 0 := ⟨hcursor, by omega, hbatch⟩
  cases hstep with
  | tick | complete | reset => cases hbusy
  | skip | socketFail | socketOk => exact Nat.lt_succ_self _
  | noSlot _ _ hslot =>
    -- a slot is free as long as fewer than `max_probes_` probes are active
    have howned := hown.owned (by rw [hpc]; nofun)
    obtain ⟨i, p, hfind, -⟩ := howned.findSlot hP hgo.2.1
    omega
  | closedGate hpc' hstop =>
    rw [hpc] at hpc'
    cases hpc'
    exact absurd hgo hstop
  | _ => simp_all

/-- Steps of the environment leave the scanner alone: they change the clock and the sockets. -/
theorem env_step (hstep : TcpStep P w l w') (henv : l.isEnv = true) :
    w'.pc = w.pc ∧ w'.st = w.st := by
  cases hstep with
  | tick | complete | reset => exact ⟨rfl, rfl⟩
  | _ => cases henv

/-- The next step of the scanner itself finds it as the steps of the environment have left it. -/
theorem exists_run_step {I : TcpPc → TcpState → Prop} {n : ℕ} (hn : I (e.state n).pc (e.state n).st)
    (hbusy : ∀ i, ∃ j, i ≤ j ∧ (e.label j).isEnv = false) :
    ∃ j, n ≤ j ∧ I (e.state j).pc (e.state j).st ∧ (e.label j).isEnv = false := by
  refine e.exists_next (I := fun w => I w.pc w.st) (fun _ l => l.isEnv = false) hn ?_ hbusy
  intro i _ hi henv
  obtain ⟨hpc, hst⟩ := env_step (step_cases (e.step i)) (Bool.eq_true_of_not_eq_false henv)
  rwa [hpc, hst]

/-- **With both gates open, fair runs end.** If `max_probes_` and `batch_size_` are not zero,
`run()` is left in every fair environment. -/
theorem ends_of_fair (hP : P.Ranged) (hs : P.Idle s₀) (hprobes : 0 < P.maxProbes)
    (hbatch : 0 < P.batchSize) (hstart : e.state 0 = start s₀ clock) (hfair : Fair e) :
    ∃ i, (e.state i).pc.isFinal = true := by
  by_contra hnever
  push Not at hnever
  simp only [ne_eq, Bool.not_eq_true] at hnever
  have hreach : ∀ i, Reachable P.step (start s₀ clock) (e.state i) := by
    intro i
    rw [← hstart]
    exact e.reachable i
  have hown : ∀ i, P.OwnInv (e.state i) := fun i => ownInv_of_reachable hP hs (hreach i)
  have hstep : ∀ i, TcpStep P (e.state i) (e.label i) (e.state (i + 1)) :=
    fun i => step_cases (e.step i)
  have hbusy : ∀ i, ∃ j, i ≤ j ∧ (e.label j).isEnv = false := fun i => hfair.runs i (hnever i)
  -- the cursor comes to rest
  obtain ⟨n, hrest⟩ := e.exists_stable (f := fun w => w.st.nextHostIdx)
    (fun i => cursor_step (hstep i)) fun i => (hostInv_of_reachable hP hs (hreach i)).cursor
  have hsame : ∀ i, n ≤ i → (e.state (i + 1)).st.nextHostIdx = (e.state i).st.nextHostIdx :=
    fun i hi => (hrest (i + 1) (Nat.le_succ_of_le hi)).trans (hrest i hi).symm
  -- from the next reap on no connection is in preparation
  obtain ⟨q, hnq, hquiet⟩ := hfair.exists_reap hnever n
  have houtside : ∀ i, q ≤ i → (e.state i).pc.sock? = none := by
    intro i hi
    apply e.invariant_from (I := fun w => w.pc.sock? = none) _ _ hi
    · rw [hquiet.1]
      rfl
    · intro j hj hpc
      exact outside_step (hstep j) hpc (hsame j (le_trans hnq hj))
  -- so the table holds no probe sent after `b`
  obtain ⟨b, hb⟩ := exists_bound (fun p : TcpProbeInfo => p.sendTime.ns)
    (e.state q).st.probeTable
  have hsent : ∀ i, q ≤ i → ∀ (j : ℕ) (p : TcpProbeInfo),
      (e.state i).st.probeTable[j]? = some p → p.active = true → p.sendTime.ns ≤ b := by
    intro i hi
    induction i, hi using Nat.le_induction with
    | base => exact fun j p hj _ => hb j p hj
    | succ i hi ih =>
      intro j p hj hp
      exact ih j p (kept_step (hstep i) (houtside i hi) hj hp) hp
  -- and a reap late enough empties it
  obtain ⟨m, hm⟩ := hfair.clock_beyond (b + P.timeoutNs)
  obtain ⟨r, hr, hreap⟩ := hfair.exists_reap hnever (max q m)
  have hempty := reap_step hP (hown r) (hstep r) hreap (by
    intro i p hi hp
    have hlate := hm r (le_trans (le_max_right _ _) hr)
    have hold := hsent r (le_trans (le_max_left _ _) hr) i p hi hp
    rw [Timespec.elapsedNs_eq]
    omega)
  -- the next turn of the loop moves the cursor
  obtain ⟨h, hrh, ⟨hpc, hactive⟩, hnext⟩ := exists_run_step
    (I := fun pc st => pc = .loopHead ∧ st.activeProbes = 0) hempty hbusy
  have hentered := loopHead_step (hstep h) hpc hactive hnext (hnever (h + 1))
  obtain ⟨t, hht, ⟨hpc, hactive, hcursor⟩, hnext⟩ := exists_run_step
    (I := fun pc st => pc = .initiate 0 ∧ st.activeProbes = 0 ∧ st.nextHostIdx < P.totalHosts)
    hentered hbusy
  have hmoved := initiate_step hP (hown t) hprobes hbatch (hstep t) hpc hactive hcursor hnext
  have hstill := hsame t (by omega)
  omega

/-- Without hosts `run()` returns at its first test, so it ends whatever its gates are. -/
theorem ends_of_empty (htotal : P.totalHosts = 0) (hstart : e.state 0 = start s₀ clock)
    (hfair : Fair e) : ∃ i, (e.state i).pc.isFinal = true := by
  by_contra hnever
  push Not at hnever
  simp only [ne_eq, Bool.not_eq_true] at hnever
  have hzero : (e.state 0).pc = .loopHead ∧ (e.state 0).st = beginRun s₀ := by
    rw [hstart]
    exact ⟨rfl, rfl⟩
  obtain ⟨j, -, ⟨hpc, hst⟩, hnext⟩ := exists_run_step
    (I := fun pc st => pc = .loopHead ∧ st = beginRun s₀) hzero fun i => hfair.runs i (hnever i)
  have hactive : (e.state j).st.activeProbes = 0 := by
    rw [hst]
    rfl
  have hleft := (loopHead_step (step_cases (e.step j)) hpc hactive hnext (hnever (j + 1))).2.2
  omega

/-- With a negative `max_events` a scanner never gets beyond its first `poll_connections`. -/
theorem ends_of_negative (hneg : P.maxEvents < 0) (hstart : e.state 0 = start s₀ clock)
    (hfair : Fair e) : ∃ i, (e.state i).pc.isFinal = true := by
  by_contra hnever
  push Not at hnever
  simp only [ne_eq, Bool.not_eq_true] at hnever
  -- `epoll_wait` is never called, so neither events nor the reap are reached
  have hbefore : ∀ i, (e.state i).pc ≠ .reap ∧ ∀ evs, (e.state i).pc ≠ .handle evs := by
    intro i
    induction i with
    | zero =>
      rw [hstart]
      exact ⟨nofun, nofun⟩
    | succ i ih =>
      have hstep := e.step i
      have hcalled : ∀ r, (e.state i).pc = .poll → e.label i ≠ .epollWait r := by
        intro r hpc hl
        rw [hl] at hstep
        simp [step, epollWaitStep, hpc, hneg] at hstep
      generalize e.state (i + 1) = w' at hstep ⊢
      generalize e.label i = l at hstep hcalled
      cases step_cases hstep with
      | tick | complete | reset => exact ih
      | pollEvents hpc | pollTimeout hpc | pollFailed hpc => exact absurd rfl (hcalled _ hpc)
      | stale hpc | success hpc | failure hpc | eventsDone hpc => exact absurd hpc (ih.2 _)
      | _ => exact ⟨nofun, nofun⟩
  obtain ⟨j, -, hreap⟩ := hfair.exists_reap hnever 0
  exact (hbefore j).1 hreap.1

/-! ### Runs that never end -/

/-- Without an active probe there is nothing to reap, and the world stays as it is. -/
theorem reapTimedOutProbes_idle (P : TcpScanner) (now : Timespec) (w : TcpWorld)
    (h : ∀ p ∈ w.st.probeTable, p.active = false) : P.reapTimedOutProbes now w = w := by
  refine List.foldlRecOn (motive := fun v => v = w) _ _ rfl ?_
  rintro v rfl i -
  rcases P.reapSlot_cases now v i with ⟨heq, -⟩ | ⟨p, hi, hold, -⟩
  · exact heq
  · have hidle := h p (List.mem_of_getElem? hi)
    rw [hold.1] at hidle
    cases hidle

/-- The labels of a run that finds nothing to do: once round the loop, then the clock moves on by a
second. -/
def idleLabel (P : TcpScanner) (i : ℕ) : TcpLabel :=
  match i % 5 with
  | 2 => .epollWait (if 0 < P.maxEvents then .timeout else .failed)
  | 4 => .tick { tvSec := i / 5 + 1 }
  | _ => .run

/-- Where such a run is before step `i`: five steps are one turn of the loop. -/
def idlePc (i : ℕ) : TcpPc :=
  match i % 5 with
  | 1 => .initiate 0
  | 2 => .poll
  | 3 => .reap
  | _ => .loopHead

/-- The kernel of such a run: a clock that shows full seconds, and no socket. -/
def idleKernel (i : ℕ) : TcpKernel := { clock := { tvSec := (i / 5 : ℕ) } }

/-- **With a gate closed, `run()` need not end**: if there is a host to connect to and one of
`max_probes_` and `batch_size_` is zero, a fair environment keeps the loop turning, unless
`max_events` is negative. -/
theorem exists_endless (hs : P.Idle s₀) (htotal : 0 < P.totalHosts)
    (hgate : P.maxProbes = 0 ∨ P.batchSize = 0) (hevents : 0 ≤ P.maxEvents) :
    ∃ (clock : Timespec) (e : Execution P.step), e.state 0 = start s₀ clock ∧ Fair e ∧
      ∀ i, (e.state i).pc.isFinal = false := by
  -- the gate stays closed, so a turn of the loop leaves the state as it was
  have hclosed : ¬ P.Initiates (beginRun s₀) 0 := by
    rintro ⟨-, hprobes, hbatch⟩
    replace hprobes : 0 < P.maxProbes := hprobes
    omega
  obtain ⟨e, hzero, hlabel, hI⟩ := exists_execution_of_schedule (M := P.step)
    (s := start s₀ {}) P.idleLabel
    (fun i w => w.st = beginRun s₀ ∧ w.pc = idlePc i ∧ w.kernel = idleKernel i) ⟨rfl, rfl, rfl⟩ (by
    rintro i ⟨st, pc, kernel, trace⟩ ⟨rfl, rfl, rfl⟩
    have hcases : i % 5 = 0 ∨ i % 5 = 1 ∨ i % 5 = 2 ∨ i % 5 = 3 ∨ i % 5 = 4 := by omega
    rcases hcases with h | h | h | h | h
    · have hnext : (i + 1) % 5 = 1 := by omega
      have hclock : (i + 1) / 5 = i / 5 := by omega
      simp only [idleLabel, idlePc, idleKernel, h, hnext, hclock]
      exact ⟨_, if_pos (.inl htotal), rfl, rfl, rfl⟩
    · have hnext : (i + 1) % 5 = 2 := by omega
      have hclock : (i + 1) / 5 = i / 5 := by omega
      simp only [idleLabel, idlePc, idleKernel, h, hnext, hclock]
      exact ⟨_, if_neg hclosed, rfl, rfl, rfl⟩
    · have hnext : (i + 1) % 5 = 3 := by omega
      have hclock : (i + 1) / 5 = i / 5 := by omega
      simp only [idleLabel, idlePc, idleKernel, h, hnext, hclock]
      have hidle : ∀ now, TcpKernel.hasReady { clock := now } = false := fun _ => rfl
      refine ⟨⟨beginRun s₀, .reap, _, trace⟩, ?_, rfl, rfl, rfl⟩
      by_cases hpos : 0 < P.maxEvents
      · simp [step, epollWaitStep, hpos, hidle, not_lt.mpr hevents]
      · simp [step, epollWaitStep, hpos, not_lt.mpr hevents]
    · have hnext : (i + 1) % 5 = 4 := by omega
      have hclock : (i + 1) / 5 = i / 5 := by omega
      simp only [idleLabel, idlePc, idleKernel, h, hnext, hclock]
      have hidle := reapTimedOutProbes_idle P { tvSec := (i / 5 : ℕ) }
        ⟨beginRun s₀, .reap, { clock := { tvSec := (i / 5 : ℕ) } }, trace⟩ hs.inactive
      simp only [step, runStep, hidle]
      exact ⟨_, rfl, rfl, rfl, rfl⟩
    · have hnext : (i + 1) % 5 = 0 := by omega
      have hclock : (i + 1) / 5 = i / 5 + 1 := by omega
      simp only [idleLabel, idlePc, idleKernel, h, hnext, hclock]
      exact ⟨_, rfl, rfl, rfl, by simp⟩)
  refine ⟨_, e, hzero, ?_, ?_⟩
  -- the run is fair: its clock goes on, and the scanner takes its steps
  · refine ⟨?_, ?_, ⟨0, ?_⟩, ?_⟩
    · intro i now hnow
      rw [(hI i).2.2]
      rw [hlabel, idleLabel] at hnow
      split at hnow
      · cases hnow
      · cases hnow
        simp only [idleKernel, Timespec.ns, nanosecondsPerSecond]
        omega
      · cases hnow
    · intro t
      refine ⟨5 * (t.toNat + 1), ?_⟩
      rw [(hI _).2.2]
      simp only [idleKernel, Timespec.ns, nanosecondsPerSecond]
      omega
    · intro i _ fd err
      rw [hlabel]
      unfold idleLabel
      split <;> nofun
    · intro i _
      refine ⟨5 * i, by omega, ?_⟩
      rw [hlabel]
      simp [idleLabel, TcpLabel.isEnv]
  · intro i
    rw [(hI i).2.1]
    unfold idlePc
    split <;> rfl

end TcpScanner

end Netscan
