import Netscan.Ping.Replies
import Netscan.Ping.RoundTrip
import Netscan.Tcp.Frame

/-! # Overflow of the time arithmetic

Both scanners subtract clock values in signed 64-bit words. `machineElapsedNs` is this computation
with every intermediate result checked. On values of a real clock it never overflows, and the reap
loops see no others: send times are clock values (`SendTimesReal`). The send time of a round trip
comes out of the packet, and any bytes get that far; the computation overflows unless they name a
time that is near the receive time. -/

namespace Netscan

open MachineInt LabelledSystem

instance (t : Timespec) : Decidable t.Real :=
  decidable_of_iff ((0 ≤ t.tvSec ∧ t.tvSec < 2 ^ 33) ∧ 0 ≤ t.tvNsec ∧ t.tvNsec < 10 ^ 9)
    ⟨fun h => ⟨h.1, h.2⟩, fun h => ⟨h.sec, h.nsec⟩⟩

/-! ### The computation -/

/-- The difference of two clock values as the machine computes it: seconds, times `10 ^ 9`,
nanoseconds, sum. There is none if one of the four overflows. -/
def Timespec.machineElapsedNs (now since : Timespec) : Option ℤ := do
  let sec ← checkedSigned 64 (now.tvSec - since.tvSec)
  let secNs ← checkedSigned 64 (sec * nanosecondsPerSecond)
  let nsec ← checkedSigned 64 (now.tvNsec - since.tvNsec)
  checkedSigned 64 (secNs + nsec)

/-- A timeout in nanoseconds as the machine computes it; `none` is an overflow. -/
def machineTimeoutNs (timeoutMs : ℕ) : Option ℤ :=
  checkedSigned 64 (timeoutMs * nanosecondsPerMillisecond)

/-- The machine computes the difference, unless one of the four results is no 64-bit word. -/
theorem Timespec.machineElapsedNs_eq_some {now since : Timespec} :
    now.machineElapsedNs since = some (now.elapsedNs since) ↔
      (-2 ^ 63 ≤ now.tvSec - since.tvSec ∧ now.tvSec - since.tvSec < 2 ^ 63) ∧
      (-2 ^ 63 ≤ (now.tvSec - since.tvSec) * nanosecondsPerSecond ∧
        (now.tvSec - since.tvSec) * nanosecondsPerSecond < 2 ^ 63) ∧
      (-2 ^ 63 ≤ now.tvNsec - since.tvNsec ∧ now.tvNsec - since.tvNsec < 2 ^ 63) ∧
      -2 ^ 63 ≤ now.elapsedNs since ∧ now.elapsedNs since < 2 ^ 63 := by
  unfold machineElapsedNs
  simp only [Option.bind_eq_bind, Option.bind_eq_some_iff, checkedSigned_eq_some]
  constructor
  · rintro ⟨_, ⟨hsec, rfl⟩, _, ⟨hprod, rfl⟩, _, ⟨hnsec, rfl⟩, hsum, -⟩
    exact ⟨hsec, hprod, hnsec, hsum⟩
  · rintro ⟨hsec, hprod, hnsec, hsum⟩
    exact ⟨_, ⟨hsec, rfl⟩, _, ⟨hprod, rfl⟩, _, ⟨hnsec, rfl⟩, hsum, rfl⟩

/-- Differences of real clock values do not overflow, in any of their steps. -/
theorem Timespec.Real.machineElapsedNs {now since : Timespec} (hnow : now.Real)
    (hsince : since.Real) : now.machineElapsedNs since = some (now.elapsedNs since) := by
  obtain ⟨hprod, hsum⟩ := hnow.difference_fits hsince
  obtain ⟨⟨h₁, h₂⟩, h₃, h₄⟩ := hnow
  obtain ⟨⟨h₅, h₆⟩, h₇, h₈⟩ := hsince
  exact machineElapsedNs_eq_some.mpr ⟨by omega, hprod, by omega, hsum⟩

/-- Timeouts of 32 bits do not overflow, as the product is one of 64 bits. -/
theorem machineTimeoutNs_eq {timeoutMs : ℕ} (h : timeoutMs < 2 ^ 32) :
    machineTimeoutNs timeoutMs = some (timeoutMs * nanosecondsPerMillisecond) := by
  refine checkedSigned_eq_some.mpr ⟨?_, rfl⟩
  unfold nanosecondsPerMillisecond
  omega

/-! ### The round trip -/

/-- The send time in a payload is near a clock value: its seconds are at most 9223372036 (that is
`2 ^ 63 / 10 ^ 9`) away, its nanoseconds are not smaller by `2 ^ 63` or more, and as a number of
nanoseconds it lies less than `2 ^ 63` before or at most `2 ^ 63` behind the clock value. -/
def PingPayload.Near (recvTs : Timespec) (p : PingPayload) : Prop :=
  (recvTs.tvSec - 9223372036 ≤ p.sendSec ∧ p.sendSec ≤ recvTs.tvSec + 9223372036) ∧
    recvTs.tvNsec - 2 ^ 63 < p.sendNsec ∧
    recvTs.ns - 2 ^ 63 < p.sendSec * nanosecondsPerSecond + p.sendNsec ∧
    p.sendSec * nanosecondsPerSecond + p.sendNsec ≤ recvTs.ns + 2 ^ 63

instance (recvTs : Timespec) (p : PingPayload) : Decidable (p.Near recvTs) :=
  inferInstanceAs (Decidable ((_ ∧ _) ∧ _ ∧ _ ∧ _))

/-- The fields of a payload are 64-bit words, and any such words can arrive. -/
theorem Datagram.sendNsec_mem (d : Datagram) :
    -2 ^ 63 ≤ d.payload.sendNsec ∧ d.payload.sendNsec < 2 ^ 63 := by
  simp only [payload, PingPayload.decode]
  exact toInt64_mem _

/-- The difference to the send time of a payload does not overflow exactly when the send time is
near. -/
theorem Timespec.Real.machineElapsedNs_iff {recvTs : Timespec} (h : recvTs.Real) {p : PingPayload}
    (hnsec : -2 ^ 63 ≤ p.sendNsec ∧ p.sendNsec < 2 ^ 63) :
    recvTs.machineElapsedNs ⟨p.sendSec, p.sendNsec⟩ =
      some (recvTs.elapsedNs ⟨p.sendSec, p.sendNsec⟩) ↔ p.Near recvTs := by
  obtain ⟨⟨h₁, h₂⟩, h₃, h₄⟩ := h
  -- 9223372036 is the largest number of seconds whose nanoseconds fit; the difference of the
  -- nanoseconds has a bound on one side only, as those of a real time are not negative
  rw [machineElapsedNs_eq_some, elapsedNs_eq]
  unfold PingPayload.Near Timespec.ns nanosecondsPerSecond
  dsimp only
  omega

/-! ### Send times are clock values -/

/-- The active entries of a probe table have real send times. -/
def SendTimesReal {ε : Type*} (active : ε → Bool) (sendTime : ε → Timespec) (t : List ε) : Prop :=
  ∀ p ∈ t, active p = true → (sendTime p).Real

section SendTimesReal

variable {ε : Type*} {active : ε → Bool} {sendTime : ε → Timespec} {t t' : List ε}

/-- Claiming an entry at a real time keeps the send times real. -/
theorem SendTimesReal.set (h : SendTimesReal active sendTime t) (i : ℕ) {p : ε}
    (hp : active p = true → (sendTime p).Real) : SendTimesReal active sendTime (t.set i p) := by
  intro q hq hactive
  rcases List.mem_or_eq_of_mem_set hq with hold | rfl
  · exact h q hold hactive
  · exact hp hactive

/-- Freeing an entry keeps the send times real, as only active entries count. -/
theorem SendTimesReal.free (h : SendTimesReal active sendTime t) (i : ℕ) {p : ε}
    (hp : active p = false) : SendTimesReal active sendTime (t.set i p) := by
  apply h.set
  intro hactive
  rw [hp] at hactive
  cases hactive

/-- A table in which nothing is active has no send times. -/
theorem sendTimesReal_of_inactive (h : ∀ p ∈ t, active p = false) :
    SendTimesReal active sendTime t := by
  intro p hp hactive
  rw [h p hp] at hactive
  cases hactive

end SendTimesReal

namespace PingScanner

variable {P : PingScanner} {s s' s₀ : PingState} {k : PingKernel} {w w' : PingWorld}
  {l : PingLabel}

/-- `recv_ts` of `process_received_packet`: the kernel's timestamp, or the clock without one. -/
def recvTime (recvNow : Timespec) (d : Datagram) (s : PingState) : Timespec :=
  (extractControlData recvNow d.control s.rxQueueOverflows).2.1

/-- No signed arithmetic overflows in the reap loop of the ping scanner. -/
structure ReapFits (P : PingScanner) (w : PingWorld) : Prop where
  /-- `timeout_ns`. -/
  timeout : machineTimeoutNs P.timeoutMs = some P.timeoutNs
  /-- `elapsed_ns`, which is computed for the active entries. -/
  elapsed : ∀ p ∈ w.st.probeTable, p.active = true →
    w.kernel.clock.machineElapsedNs p.sendTime = some (w.kernel.clock.elapsedNs p.sendTime)

/-- The clock is set to real values only, in the steps in which it moves. -/
def ClockReal (_ : PingWorld) (l : PingLabel) : Prop := ∀ now, l = .tick now → now.Real

instance (w : PingWorld) : (l : PingLabel) → Decidable (ClockReal w l)
  | .tick now => decidable_of_iff now.Real
      ⟨fun h _ hl => by cases hl; exact h, fun h => h now rfl⟩
  | .arrive _ | .run | .sendmmsg _ | .wait _ _ _ | .epollWait _ | .recvmmsg _ | .message _ _ =>
    isTrue fun _ hl => PingLabel.noConfusion hl

/-- The send times of the outstanding probes are real. These are what the reap computes with. -/
def Stamped (s : PingState) : Prop :=
  SendTimesReal ProbeInfo.active ProbeInfo.sendTime s.probeTable

/-- Populating at a real time keeps the send times real, as it is the time of the new entries. -/
theorem Stamped.populate {ts : Timespec} (hts : ts.Real) (h : Stamped s) :
    Stamped (P.populateBatchEntries ts s).1 := by
  refine populateLoop_induction (motive := fun s _ => Stamped s) ?_ _ s 0 h
  intro u n u' n' hu hturn
  unfold populateStep at hturn
  -- only the turn that claims a slot writes the table, and it stamps the entry with `ts`
  split_ifs at hturn with hgate hslot
  dsimp only at hturn
  split_ifs at hturn
  · cases hturn
    exact hu
  · cases hturn
    exact hu
  · cases hturn
    exact SendTimesReal.set hu _ fun _ => hts

/-- Releasing a slot keeps the send times real: at most an entry is freed. -/
theorem Stamped.release (h : Stamped s) (slot : ℤ) : Stamped (P.releaseProbeSlot slot s) := by
  unfold releaseProbeSlot
  dsimp only
  split_ifs
  · exact h
  · exact h
  · exact SendTimesReal.free h _ rfl
  · exact SendTimesReal.free h _ rfl

/-- Handling a datagram keeps the send times real: at most an entry is freed. -/
theorem Stamped.message (h : Stamped s) (recvNow : Timespec) (dns : Option String) (throws : Bool)
    (d : Datagram) : Stamped (P.receiveMessage recvNow dns throws d s).1 := by
  have hhandles := P.handles_receiveMessage recvNow dns throws d s
  generalize P.receiveMessage recvNow dns throws d s = out at hhandles ⊢
  cases hhandles with
  -- no exit but the last one writes the table
  | headless | truncated | other | unmatched => exact h
  | discovered =>
    unfold acceptReply
    dsimp only
    split_ifs
    all_goals first | exact h | exact SendTimesReal.free h _ rfl

/-- The reap keeps the send times real: it frees entries only. -/
theorem Stamped.reap (h : Stamped s) (now : Timespec) : Stamped (P.reapTimedOutProbes now s) := by
  refine List.foldlRecOn (motive := Stamped) _ _ h ?_
  intro u hu i _
  unfold reapSlot
  dsimp only
  split_ifs
  · exact hu
  · exact SendTimesReal.free hu _ rfl
  · exact SendTimesReal.free hu _ rfl
  · exact hu

/-- While the clock is real, so are the send times. By induction on the run. -/
theorem stamped_of_runs (hk : k.clock.Real) (hw : Runs P.step ClockReal (start s₀ k) w) :
    w.kernel.clock.Real ∧ Stamped w.st := by
  refine hw.invariant (I := fun w => w.kernel.clock.Real ∧ Stamped w.st) ⟨hk, ?_⟩ ?_
  · -- `run()` starts with a table in which nothing is active
    apply sendTimesReal_of_inactive
    intro p hp
    obtain ⟨-, -, rfl⟩ := List.mem_map.mp hp
    rfl
  · rintro u l v ⟨hclock, hstamped⟩ hok hstep
    cases step_cases hstep with
    | tick now => exact ⟨hok now rfl, hstamped⟩
    | populate _ hout =>
      have hpopulate := hstamped.populate (P := P) hclock
      rw [hout] at hpopulate
      exact ⟨hclock, hpopulate⟩
    | release _ _ hout =>
      subst hout
      exact ⟨hclock, hstamped.release _⟩
    | @message d _ _ dns throws _ _ _ hout =>
      have hmessage := hstamped.message (P := P) u.kernel.clock dns throws d
      rw [hout] at hmessage
      exact ⟨hclock, hmessage⟩
    | reap _ hout =>
      subst hout
      exact ⟨hclock, hstamped.reap _⟩
    | _ => exact ⟨hclock, hstamped⟩

/-- **The reap loop of the ping scanner does not overflow** while the clock is real. -/
theorem reapFits_of_runs (hP : P.timeoutMs < 2 ^ 32) (hk : k.clock.Real)
    (hw : Runs P.step ClockReal (start s₀ k) w) : P.ReapFits w := by
  obtain ⟨hclock, hstamped⟩ := stamped_of_runs hk hw
  exact ⟨machineTimeoutNs_eq hP, fun p hp hactive =>
    hclock.machineElapsedNs (hstamped p hp hactive)⟩

end PingScanner

namespace TcpScanner

variable {P : TcpScanner} {s₀ : TcpState} {clock : Timespec} {w w' : TcpWorld}

/-- No signed arithmetic overflows in the reap loop of the TCP scanner. -/
structure ReapFits (P : TcpScanner) (w : TcpWorld) : Prop where
  /-- `timeout_ms_` in nanoseconds. -/
  timeout : machineTimeoutNs P.timeoutMs = some P.timeoutNs
  /-- `elapsed_ns`, which is computed for the active entries. -/
  elapsed : ∀ p ∈ w.st.probeTable, p.active = true →
    w.kernel.clock.machineElapsedNs p.sendTime = some (w.kernel.clock.elapsedNs p.sendTime)

/-- The clock is set to real values only, in the steps in which it moves. -/
def ClockReal (_ : TcpWorld) (l : TcpLabel) : Prop := ∀ now, l = .tick now → now.Real

instance (w : TcpWorld) : (l : TcpLabel) → Decidable (ClockReal w l)
  | .tick now => decidable_of_iff now.Real
      ⟨fun h _ hl => by cases hl; exact h, fun h => h now rfl⟩
  | .complete _ _ | .reset _ _ | .run | .socket _ | .fcntl _ | .connect _ | .epollAdd _
  | .epollWait _ | .event _ _ _ => isTrue fun _ hl => TcpLabel.noConfusion hl

/-- The send times of the active probes are real. These are what the reap computes with. -/
def Stamped (s : TcpState) : Prop :=
  SendTimesReal TcpProbeInfo.active TcpProbeInfo.sendTime s.probeTable

/-- Ending probes keeps the send times real, as the others are as before. -/
theorem Stamped.ends {gone : TcpProbeInfo → Prop} (h : Stamped w.st) (hends : Ends gone w w') :
    Stamped w'.st := by
  intro p hp hactive
  obtain ⟨i, hi⟩ := List.mem_iff_getElem?.mp hp
  exact h p (List.mem_of_getElem? (hends.kept i p hi hactive)) hactive

/-- A result is reported without a look at the table. -/
theorem probeTable_report (throws : Bool) (r : TcpHostResult) (s : TcpState) :
    (P.report throws r s).1.probeTable = s.probeTable := by
  unfold report
  dsimp only
  split_ifs <;> rfl

/-- **The reap loop of the TCP scanner does not overflow** while the clock is real, on an object
whose active probes, if it has any left, were sent at real times. -/
theorem reapFits_of_runs (hP : P.timeoutMs < 2 ^ 32) (hs : Stamped s₀) (hclock : clock.Real)
    (hw : Runs P.step ClockReal (start s₀ clock) w) : P.ReapFits w := by
  have hinv : w.kernel.clock.Real ∧ Stamped w.st := by
    refine hw.invariant (I := fun w => w.kernel.clock.Real ∧ Stamped w.st) ⟨hclock, hs⟩ ?_
    rintro u l v ⟨hclock, hstamped⟩ hok hstep
    -- no step but a tick sets the clock
    have hclock' : v.kernel.clock.Real := by
      by_cases hl : ∀ now, l ≠ .tick now
      · rw [clock_step_eq (step_cases hstep) hl]
        exact hclock
      · push Not at hl
        obtain ⟨now, rfl⟩ := hl
        cases step_cases hstep with
        | tick => exact hok now rfl
    refine ⟨hclock', ?_⟩
    -- an entry is written when its probe is registered; all other writes end probes
    cases step_cases hstep with
    | register => exact SendTimesReal.set hstamped _ fun _ => hclock
    | @success ev evs dns throws p so hpc hi hp hso herr s threw hout =>
      have hretire := hstamped.ends (ends_retire hi)
      have htable := P.probeTable_report throws (P.probeResult u.kernel.clock dns p)
        (retire ev.data u.st)
      rw [hout] at htable
      show SendTimesReal _ _ s.probeTable
      rw [htable]
      exact hretire
    | failure _ hi =>
      have hretire := hstamped.ends (ends_retire hi)
      exact hretire
    | reap =>
      have hreap := hstamped.ends (P.ends_reap u.kernel.clock u)
      exact hreap
    | destroy =>
      have hdestroy := hstamped.ends (ends_destroy u)
      exact hdestroy
    | _ => exact hstamped
  exact ⟨machineTimeoutNs_eq hP, fun p hp hactive => hinv.1.machineElapsedNs (hinv.2 p hp hactive)⟩

end TcpScanner

/-! ### The time arithmetic of both scanners -/

/-- **When the time arithmetic fits its words.** On any datagram that reaches the computation of the
round-trip time, in any state and at any real receive time, the difference is computed without
overflow if and only if the send time in the payload is near the receive time. In the reap loops of
both scanners nothing overflows, at any time of any run under a real clock. -/
theorem time_fits_iff {P : PingScanner} {T : TcpScanner} (hP : P.timeoutMs < 2 ^ 32)
    (hT : T.timeoutMs < 2 ^ 32) :
    (∀ (s : PingState) (d : Datagram) (recvNow : Timespec),
      (PingScanner.recvTime recvNow d s).Real → P.Discovers s d →
      ((PingScanner.recvTime recvNow d s).machineElapsedNs
          ⟨d.payload.sendSec, d.payload.sendNsec⟩ =
        some ((PingScanner.recvTime recvNow d s).elapsedNs
          ⟨d.payload.sendSec, d.payload.sendNsec⟩) ↔
        d.payload.Near (PingScanner.recvTime recvNow d s))) ∧
    (∀ (s₀ : PingState) (k : PingKernel) (w : PingWorld), k.clock.Real →
      Runs P.step PingScanner.ClockReal (PingScanner.start s₀ k) w → P.ReapFits w) ∧
    ∀ (s₀ : TcpState) (clock : Timespec) (w : TcpWorld), TcpScanner.Stamped s₀ → clock.Real →
      Runs T.step TcpScanner.ClockReal (TcpScanner.start s₀ clock) w → T.ReapFits w := by
  refine ⟨?_, ?_, ?_⟩
  · intro s d recvNow hreal _
    exact hreal.machineElapsedNs_iff d.sendNsec_mem
  · intro s₀ k w hk hw
    exact PingScanner.reapFits_of_runs hP hk hw
  · intro s₀ clock w hs hclock hw
    exact TcpScanner.reapFits_of_runs hT hs hclock hw

/-- An ordinary reply, and a round of each scanner with outstanding probes. -/
theorem time_fits_iff_pair :
    (echoReply 167772168 {}).payload.Near { tvNsec := 5 } ∧
    (∃ w, w.pc = .reap ∧ w.st.activeProbes = 2 ∧
      (PingScanner.construct { baseIp := 167772168, totalHosts := 2 } none none 7).ReapFits w) ∧
    ∃ w, w.pc = .reap ∧ w.st.activeProbes = 1 ∧
      (TcpScanner.construct { baseIp := 167772168, totalHosts := 1 } none none).ReapFits w := by
  have hfits := time_fits_iff
    (P := PingScanner.construct { baseIp := 167772168, totalHosts := 2 } none none 7)
    (T := TcpScanner.construct { baseIp := 167772168, totalHosts := 1 } none none)
    (by decide) (by decide)
  refine ⟨?_, ?_, ?_⟩
  · have hreply := hfits.1 (PingScanner.initializeBuffers
      (PingScanner.construct { baseIp := 167772168, totalHosts := 2 } none none 7))
      (echoReply 167772168 {}) { tvNsec := 5 } (by decide) (by decide)
    exact hreply.mp (by decide)
  · obtain ⟨w, hw, hp⟩ := exists_runs_of_execWhen
      (M := (PingScanner.construct { baseIp := 167772168, totalHosts := 2 } none none 7).step)
      (s := PingScanner.start (PingScanner.initializeBuffers
        (PingScanner.construct { baseIp := 167772168, totalHosts := 2 } none none 7))
        { clock := {}, rxQueue := [], rxEdge := false })
      PingScanner.ClockReal
      [.run, .run, .sendmmsg (.sent 2), .run, .epollWait .timeout, .tick { tvSec := 1 }]
      (fun w => w.pc == .reap && w.st.activeProbes == 2) (by decide)
    simp only [Bool.and_eq_true, beq_iff_eq] at hp
    exact ⟨w, hp.1, hp.2, hfits.2.1 _ _ _ (by decide) hw⟩
  · obtain ⟨w, hw, hp⟩ := exists_runs_of_execWhen
      (M := (TcpScanner.construct { baseIp := 167772168, totalHosts := 1 } none none).step)
      (s := TcpScanner.start (TcpScanner.initialState
        (TcpScanner.construct { baseIp := 167772168, totalHosts := 1 } none none)) {})
      TcpScanner.ClockReal
      [.run, .socket (some 3), .fcntl true, .connect .inProgress, .epollAdd true, .run,
        .epollWait .timeout, .tick { tvSec := 1 }]
      (fun w => w.pc == .reap && w.st.activeProbes == 1) (by decide)
    simp only [Bool.and_eq_true, beq_iff_eq] at hp
    have hidle := TcpScanner.idle_initialState
      (TcpScanner.construct { baseIp := 167772168, totalHosts := 1 } none none)
    exact ⟨w, hp.1, hp.2,
      hfits.2.2 _ _ _ (sendTimesReal_of_inactive hidle.inactive) (by decide) hw⟩

/-- `10.0.0.8/31`: the reply of an outstanding host whose payload names the smallest 64-bit number
as its send second gets to the computation, and the difference of the seconds overflows. -/
theorem not_time_fits :
    parseCidr [49, 48, 46, 48, 46, 48, 46, 56, 47, 51, 49] = some (167772168, 2) ∧
    ∃ (w : PingWorld) (d : Datagram),
      Runs (PingScanner.construct { baseIp := 167772168, totalHosts := 2 } none none 7).step
        PingScanner.ClockReal (PingScanner.start (PingScanner.initializeBuffers
          (PingScanner.construct { baseIp := 167772168, totalHosts := 2 } none none 7))
          { clock := {}, rxQueue := [], rxEdge := false }) w ∧
      w.pc = .handle [d] false ∧ (PingScanner.recvTime w.kernel.clock d w.st).Real ∧
      (PingScanner.construct { baseIp := 167772168, totalHosts := 2 } none none 7).Discovers w.st
        d ∧
      (PingScanner.recvTime w.kernel.clock d w.st).machineElapsedNs
        ⟨d.payload.sendSec, d.payload.sendNsec⟩ = none := by
  refine ⟨by decide, ?_⟩
  obtain ⟨w, hw, hp⟩ := exists_runs_of_execWhen
    (M := (PingScanner.construct { baseIp := 167772168, totalHosts := 2 } none none 7).step)
    (s := PingScanner.start (PingScanner.initializeBuffers
      (PingScanner.construct { baseIp := 167772168, totalHosts := 2 } none none 7))
      { clock := {}, rxQueue := [], rxEdge := false })
    PingScanner.ClockReal
    [.run, .run, .sendmmsg (.sent 2), .run, .arrive (echoReply 167772168 { tvSec := -2 ^ 63 }),
      .epollWait .ready, .recvmmsg false]
    (fun w => w.pc == .handle [echoReply 167772168 { tvSec := -2 ^ 63 }] false &&
      w.kernel.clock == {} && w.st.foundIpsCache == [] && w.st.rxQueueOverflows == 0) (by decide)
  simp only [Bool.and_eq_true, beq_iff_eq] at hp
  obtain ⟨⟨⟨hpc, hclock⟩, hfound⟩, hoverflows⟩ := hp
  refine ⟨w, echoReply 167772168 { tvSec := -2 ^ 63 }, hw, hpc, ?_, ?_, ?_⟩
  · rw [PingScanner.recvTime, hclock, hoverflows]
    decide
  · refine ⟨by decide, ?_⟩
    rw [hfound]
    exact List.not_mem_nil
  · rw [PingScanner.recvTime, hclock, hoverflows]
    decide

end Netscan
