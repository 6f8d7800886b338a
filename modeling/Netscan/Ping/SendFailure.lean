import Netscan.Ping.Ledger

/-! # What a failing send does to a ping run

`flush_send_queue` rolls the rest of its batch back and rewinds the cursor, as if the batch were to
be tried again, but the loop of `run()` ends at the first failure. So one refused destination takes
all later hosts and all outstanding replies with it; runs in which no send fails keep both. -/

namespace Netscan

open MachineInt SlotTable LabelledSystem History

namespace PingScanner

variable {P : PingScanner} {s₀ : PingState} {k : PingKernel} {u w w' : PingWorld} {l : PingLabel}

/-- A send fails: `sendmmsg` refuses the next message, or the wait for a writable socket ends
without one. -/
inductive SendFails (P : PingScanner) : PingLabel → Prop
  /-- `sendmmsg` refuses the next message. -/
  | refused {errno : ℕ} (h : errno ≠ eagain) : SendFails P (.sendmmsg (.error errno))
  /-- The socket does not become writable. -/
  | notWritable {modOut modIn : Bool} {waits : List WaitResult}
      (h : P.waitForSocketWritable modOut modIn waits = some .notWritable) :
      SendFails P (.wait modOut modIn waits)

instance : (l : PingLabel) → Decidable (P.SendFails l)
  | .sendmmsg (.error errno) => decidable_of_iff (errno ≠ eagain)
      ⟨.refused, fun h => by cases h; assumption⟩
  | .wait modOut modIn waits =>
    decidable_of_iff (P.waitForSocketWritable modOut modIn waits = some .notWritable)
      ⟨.notWritable, fun h => by cases h; assumption⟩
  | .sendmmsg (.sent _) | .tick _ | .arrive _ | .run | .epollWait _ | .recvmmsg _
  | .message _ _ => isFalse nofun

/-- `sendmmsg` refuses exactly the messages for the destinations in `F`, and the others only for
lack of room. -/
def RefusesOnly (F : ℕ → Prop) (w : PingWorld) (l : PingLabel) : Prop :=
  match w.pc, l with
  | .flush _ k, .sendmmsg (.sent count) => ∀ a ∈ (w.st.sendAddrs.drop k).take count, ¬ F a
  | .flush _ k, .sendmmsg (.error errno) => errno ≠ eagain → F (w.st.sendAddrs.getD k 0)
  | _, _ => True

instance (F : ℕ → Prop) [DecidablePred F] (w : PingWorld) (l : PingLabel) :
    Decidable (RefusesOnly F w l) := by
  unfold RefusesOnly
  split <;> infer_instance

/-- Refusals of the destinations in `F` stay without consequence for the other hosts. -/
structure SendsIsolated (P : PingScanner) (F : ℕ → Prop) (w : PingWorld) : Prop where
  /-- Every host outside `F` is sent its request, unless it is an address of the local subnet
  itself or was found before the cursor reached it. -/
  sent : ∀ h < P.totalHosts, P.skipsLocal (P.baseIp + h) = false →
    ¬ FoundBefore P.baseIp w.trace h → ¬ F (P.baseIp + h) → P.baseIp + h ∈ acceptedIps w.trace
  /-- No accepted request is outstanding: it is answered or older than the timeout. -/
  settled : ∀ ip ts began, .accepted ip ts began ∈ w.trace →
    ip ∈ answeredIps w.trace ∨ w.kernel.clock.elapsedNs ts > P.timeoutNs

/-- Without a failing send, control never enters the rollback, so a return is not by the failure
exit. -/
theorem not_failing_of_runs
    (hw : Runs P.step (fun _ l => ¬ P.SendFails l) (start s₀ k) w) (hne : w.pc ≠ .thrown) :
    w.pc.isFailing = false := by
  refine hw.invariant (I := fun w => w.pc ≠ .thrown → w.pc.isFailing = false) (fun _ => rfl) ?_ hne
  intro u l v h hok hstep hv
  cases step_cases hstep with
  | tick | arrive => exact h hv
  | refused _ _ herr => exact absurd (.refused herr) hok
  | notWritable _ hwait => exact absurd (.notWritable hwait) hok
  | waitThrew => exact absurd rfl hv
  | release hpc => simp [hpc, PingPc.isFailing] at h
  | rollbackDone hpc => simp [hpc, PingPc.isFailing] at h
  | @populate _ _ n => dsimp only; split <;> rfl
  | @message _ _ _ _ _ _ _ threw =>
    cases threw with
    | true => exact absurd rfl hv
    | false => rfl
  | @batchDone full => cases full <;> rfl
  | _ => rfl

/-- After a failing send nothing more is sent, and `run()` can only return by its failure exit. -/
theorem truncated_of_sendFails (hfail : P.SendFails l) (hstep : P.step u l = some w)
    (hw : Reachable P.step w w') :
    acceptedIps w'.trace = acceptedIps u.trace ∧ ∀ failed, w'.pc = .returned failed → failed := by
  -- from the failing step on, control is in the rollback or behind it
  suffices h : acceptedIps w'.trace = acceptedIps u.trace ∧
      ((∃ n k i, w'.pc = .rollback n k i) ∨ w'.pc = .returned true) by
    refine ⟨h.1, ?_⟩
    rintro failed hret
    rcases h.2 with ⟨n, k, i, hpc⟩ | hpc
    · rw [hret] at hpc
      cases hpc
    · rw [hret] at hpc
      cases hpc
      rfl
  refine hw.invariant (I := fun w => acceptedIps w.trace = acceptedIps u.trace ∧
    ((∃ n k i, w.pc = .rollback n k i) ∨ w.pc = .returned true)) ?_ ?_
  · cases hfail with
    | refused herr =>
      cases step_cases hstep with
      | again => exact absurd rfl herr
      | refused => exact ⟨by simp [acceptedIps, PingEvent.acceptedIp?], .inl ⟨_, _, _, rfl⟩⟩
    | notWritable hwait =>
      cases step_cases hstep with
      | writable _ hwait' => rw [hwait] at hwait'; cases hwait'
      | waitThrew _ hwait' => rw [hwait] at hwait'; cases hwait'
      | notWritable => exact ⟨rfl, .inl ⟨_, _, _, rfl⟩⟩
  · rintro v l' v' ⟨hacc, hpc⟩ - hv
    cases step_cases hv with
    | tick => exact ⟨hacc, hpc⟩
    | arrive d =>
      refine ⟨?_, hpc⟩
      rw [← hacc]
      simp [acceptedIps, PingEvent.acceptedIp?]
    | release => exact ⟨hacc, .inl ⟨_, _, _, rfl⟩⟩
    | rollbackDone => exact ⟨hacc, .inr rfl⟩
    | _ => simp_all

/-- **When send failures are isolated.** If no send fails in a run and the clock does not go back,
`run()` returns with every host to be probed sent to and nothing outstanding. A failing send, on
the other hand, ends the sending: the run returns by the failure exit with nothing more sent. -/
theorem sends_isolated {input : CString} {config : PingScannerConfig}
    (hparse : parseCidr input = some (config.baseIp, config.totalHosts)) (routedIp : Option ℕ)
    (ifaddrs : Option (List IfAddrs)) (pid : ℕ) {s₀ : PingState}
    (hs : (construct config routedIp ifaddrs pid).Sized s₀) (k : PingKernel) :
    (∀ w failed, Runs (construct config routedIp ifaddrs pid).step
        (fun u l => ClockForward u l ∧ ¬ (construct config routedIp ifaddrs pid).SendFails l)
        (start s₀ k) w → w.pc = .returned failed →
      ∀ F, (construct config routedIp ifaddrs pid).SendsIsolated F w) ∧
    (∀ u l v w, Reachable (construct config routedIp ifaddrs pid).step (start s₀ k) u →
      (construct config routedIp ifaddrs pid).SendFails l →
      (construct config routedIp ifaddrs pid).step u l = some v →
      Reachable (construct config routedIp ifaddrs pid).step v w →
      acceptedIps w.trace = acceptedIps u.trace ∧ ∀ failed, w.pc = .returned failed → failed) := by
  have hP := ranged_construct hparse routedIp ifaddrs pid
  refine ⟨?_, fun u l v w _ hfail hstep hw => truncated_of_sendFails hfail hstep hw⟩
  intro w failed hw hret F
  have hreach := hw.reachable
  have hclock : Runs _ ClockForward (start s₀ k) w := hw.mono fun _ _ h => h.1
  have hquiet := not_failing_of_runs (hw.mono fun _ _ h => h.2) (by simp [hret])
  -- the return is by the loop condition: no host is left and no probe is active
  obtain rfl : failed = false := by
    cases failed with
    | false => rfl
    | true =>
      rw [hret] at hquiet
      cases hquiet
  have hslot := slotInv_of_reachable hP hs hreach
  have hans := answerInv_of_reachable hP hs hreach
  obtain ⟨htotal, hactive⟩ := left_of_returned hreach hret
  refine ⟨?_, ?_⟩
  -- every host that the cursor passed was skipped, found or sent to
  · intro h hlt hlocal hnot _
    have hcover := coverInv_of_reachable hP hs hreach
    exact (mem_acceptedIps_of_returned hcover hans hret htotal).mpr ⟨h, hlt, rfl, hlocal, hnot⟩
  -- every accepted request is answered or was retired for its age
  · intro ip ts began hmem
    have hledger := ledgerInv_of_reachable hP hs hreach hquiet
    refine (hledger.settled hslot hactive hmem).imp ?_ ?_
    · intro hfound
      rwa [← hans.found]
    · intro hexp
      exact Expired.older hclock hexp

/-- `10.0.0.8/31` without a failing send: one host answers, the other is given its time. -/
theorem sends_isolated_pair : ∃ w, w.pc = .returned false ∧
    ∀ F, (construct { baseIp := 167772168, totalHosts := 2 } none none 7).SendsIsolated F w := by
  obtain ⟨w, hw, hp⟩ := exists_runs_of_execWhen
    (M := (construct { baseIp := 167772168, totalHosts := 2 } none none 7).step)
    (s := start (construct { baseIp := 167772168, totalHosts := 2 } none none 7).initializeBuffers
      { clock := {}, rxQueue := [], rxEdge := false })
    (fun u l => ClockForward u l ∧
      ¬ (construct { baseIp := 167772168, totalHosts := 2 } none none 7).SendFails l)
    [.run, .run, .sendmmsg (.sent 1), .sendmmsg (.error eagain),
      .wait true true [.event true false], .sendmmsg (.sent 1), .run,
      .arrive (echoReply 167772169 {}), .epollWait .ready, .recvmmsg false, .message none false,
      .run, .run, .run, .run, .epollWait .timeout, .tick { tvSec := 1 }, .run, .run]
    (fun w => w.pc == .returned false) (by decide)
  have hret : w.pc = .returned false := by simpa using hp
  have hparse : parseCidr [49, 48, 46, 48, 46, 48, 46, 56, 47, 51, 49] = some (167772168, 2) := by
    decide
  exact ⟨w, hret, (sends_isolated hparse none none 7 (sized_initializeBuffers _) _).1 w _ hw hret⟩

/-- `10.0.0.4/30`, the second host being refused: the third and fourth are never sent to, and the
first is given up while its request is outstanding. -/
theorem not_sends_isolated :
    parseCidr [49, 48, 46, 48, 46, 48, 46, 52, 47, 51, 48] = some (167772164, 4) ∧
    ∃ w, Runs (construct { baseIp := 167772164, totalHosts := 4 } none none 7).step
        (fun u l => ClockForward u l ∧ RefusesOnly (· = 167772165) u l)
        (start (construct { baseIp := 167772164, totalHosts := 4 } none none 7).initializeBuffers
          { clock := {}, rxQueue := [], rxEdge := false }) w ∧
      w.pc = .returned true ∧
      ¬ (construct { baseIp := 167772164, totalHosts := 4 } none none 7).SendsIsolated
        (· = 167772165) w := by
  refine ⟨by decide, ?_⟩
  obtain ⟨w, hw, hp⟩ := exists_runs_of_execWhen
    (M := (construct { baseIp := 167772164, totalHosts := 4 } none none 7).step)
    (s := start (construct { baseIp := 167772164, totalHosts := 4 } none none 7).initializeBuffers
      { clock := {}, rxQueue := [], rxEdge := false })
    (fun u l => ClockForward u l ∧ RefusesOnly (· = 167772165) u l)
    [.run, .run, .sendmmsg (.sent 1), .sendmmsg (.error 13), .run, .run, .run, .run]
    (fun w => w.pc == .returned true && acceptedIps w.trace == [167772164] &&
      answeredIps w.trace == [])
    (by decide)
  simp only [Bool.and_eq_true, beq_iff_eq] at hp
  obtain ⟨⟨hret, hacc⟩, hans⟩ := hp
  refine ⟨w, hw, hret, ?_⟩
  intro hisolated
  -- the third host is to be probed and not refused
  have hsent := hisolated.sent 2 (by decide) (by decide) ?_ (by decide)
  · rw [hacc] at hsent
    revert hsent
    decide
  · intro hfound
    have := hfound.answered
    rw [hans] at this
    cases this

end PingScanner

end Netscan
