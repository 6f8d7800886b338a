import Netscan.Ping.Run

/-! # The steps of a ping run, one by one

`PingStep` lists the transitions of `PingScanner.step` with their guards and effects, and
`PingScanner.step_cases` says that there are no others: the invariants of a run are proved by cases
on it and never unfold the transition function. -/

namespace Netscan

open MachineInt LabelledSystem

/-- The transitions of a ping run, each with the condition under which the code takes it. -/
inductive PingStep (P : PingScanner) (w : PingWorld) : PingLabel → PingWorld → Prop
  /-- The clock moves. -/
  | tick (now : Timespec) :
      PingStep P w (.tick now) { w with kernel := { w.kernel with clock := now } }
  /-- A datagram arrives. -/
  | arrive (d : Datagram) :
      PingStep P w (.arrive d) { w with
        kernel := { w.kernel with rxQueue := w.kernel.rxQueue ++ [d], rxEdge := true }
        trace := w.trace ++ [.arrived d w.kernel.clock] }
  /-- The `while` loop of `run()` is entered once more. -/
  | enter (hpc : w.pc = .loopHead)
      (hcond : w.st.nextHostIdx < P.totalHosts ∨ w.st.activeProbes > 0) :
      PingStep P w .run { w with pc := .sendBatch }
  /-- The `while` loop of `run()` ends. -/
  | leave (hpc : w.pc = .loopHead) (hcursor : P.totalHosts ≤ w.st.nextHostIdx)
      (hactive : w.st.activeProbes = 0) :
      PingStep P w .run { w with pc := .returned false }
  /-- `send_batch` populates a batch. -/
  | populate (hpc : w.pc = .sendBatch) {s : PingState} {n : ℕ}
      (hout : P.populateBatchEntries w.kernel.clock w.st = (s, n)) :
      PingStep P w .run { w with
        st := s
        pc := if n = 0 then .receive else .flush n 0
        trace := w.trace ++ P.reachedEvents w.st s }
  /-- `sendmmsg` accepts messages. -/
  | sent {n k count : ℕ} (hpc : w.pc = .flush n k) (hpos : 0 < count) (hle : k + count ≤ n) :
      PingStep P w (.sendmmsg (.sent count)) { w with
        pc := .flush n (k + count)
        trace := w.trace ++ PingScanner.acceptedEvents w.st w.kernel.clock k count }
  /-- `sendmmsg` has no room. -/
  | again {n k : ℕ} (hpc : w.pc = .flush n k) (hlt : k < n) :
      PingStep P w (.sendmmsg (.error eagain)) { w with
        st := { w.st with txDrops := u32 (w.st.txDrops + 1) }
        pc := .waitWritable n k }
  /-- `sendmmsg` refuses the next message. -/
  | refused {n k errno : ℕ} (hpc : w.pc = .flush n k) (hlt : k < n) (herr : errno ≠ eagain) :
      PingStep P w (.sendmmsg (.error errno)) { w with
        pc := .rollback n k k
        trace := w.trace ++ [.sendError errno (sendErrorText errno)] }
  /-- The socket became writable. -/
  | writable {n k : ℕ} {modOut modIn : Bool} {waits : List WaitResult}
      (hpc : w.pc = .waitWritable n k)
      (hwait : P.waitForSocketWritable modOut modIn waits = some .writable) :
      PingStep P w (.wait modOut modIn waits) { w with
        pc := .flush n k
        kernel := { w.kernel with rxEdge := !w.kernel.rxQueue.isEmpty } }
  /-- The socket did not become writable. -/
  | notWritable {n k : ℕ} {modOut modIn : Bool} {waits : List WaitResult}
      (hpc : w.pc = .waitWritable n k)
      (hwait : P.waitForSocketWritable modOut modIn waits = some .notWritable) :
      PingStep P w (.wait modOut modIn waits) { w with
        pc := .rollback n k k
        kernel := { w.kernel with rxEdge := !w.kernel.rxQueue.isEmpty } }
  /-- `wait_for_socket_writable` throws. -/
  | waitThrew {n k : ℕ} {modOut modIn : Bool} {waits : List WaitResult}
      (hpc : w.pc = .waitWritable n k)
      (hwait : P.waitForSocketWritable modOut modIn waits = some .threw) :
      PingStep P w (.wait modOut modIn waits) { w with pc := .thrown }
  /-- The whole batch is sent. -/
  | flushDone {n k : ℕ} (hpc : w.pc = .flush n k) (hle : n ≤ k) :
      PingStep P w .run { w with
        st := { w.st with
          sendProbeSlots := w.st.sendProbeSlots.mapIdx fun i slot => if i < n then -1 else slot }
        pc := .receive }
  /-- The rollback releases a slot. -/
  | release {n k i : ℕ} (hpc : w.pc = .rollback n k i) (hlt : i < n) {s : PingState}
      (hout : P.releaseProbeSlot (w.st.sendProbeSlots.getD i (-1)) w.st = s) :
      PingStep P w .run { w with
        st := { s with sendProbeSlots := s.sendProbeSlots.set i (-1) }
        pc := .rollback n k (i + 1) }
  /-- The rollback is done and `run()` returns. -/
  | rollbackDone {n k i : ℕ} (hpc : w.pc = .rollback n k i) (hle : n ≤ i) :
      PingStep P w .run { w with
        st := { w.st with nextHostIdx := subU64 w.st.nextHostIdx (n - k) }
        pc := .returned true }
  /-- `epoll_wait` reports input. -/
  | pollReady (hpc : w.pc = .receive) (hedge : w.kernel.rxEdge = true)
      (hqueue : w.kernel.rxQueue ≠ []) :
      PingStep P w (.epollWait .ready)
        { w with pc := .drain, kernel := { w.kernel with rxEdge := false } }
  /-- `epoll_wait` reports no input. -/
  | pollTimeout (hpc : w.pc = .receive)
      (hnone : w.kernel.rxEdge = true → w.kernel.rxQueue = []) :
      PingStep P w (.epollWait .timeout) { w with
        pc := .reap
        kernel := { w.kernel with rxEdge := false }
        trace := w.trace ++ [.looked] }
  /-- `epoll_wait` fails. -/
  | pollFailed (hpc : w.pc = .receive) : PingStep P w (.epollWait .failed) { w with pc := .reap }
  /-- `recvmmsg` fails. -/
  | recvFailed (hpc : w.pc = .drain) :
      PingStep P w (.recvmmsg true) { w with pc := .reap, trace := w.trace ++ [.recvError] }
  /-- `recvmmsg` finds nothing to read. -/
  | recvEmpty (hpc : w.pc = .drain) (hqueue : w.kernel.rxQueue = []) (hsize : 0 < P.recvBatchSize) :
      PingStep P w (.recvmmsg false) { w with pc := .reap, trace := w.trace ++ [.looked] }
  /-- `recvmmsg` is called for no message. -/
  | recvZero (hpc : w.pc = .drain) (hsize : P.recvBatchSize = 0) :
      PingStep P w (.recvmmsg false) { w with pc := .reap }
  /-- `recvmmsg` empties the queue and has room left. -/
  | recvShort (hpc : w.pc = .drain) (hqueue : w.kernel.rxQueue ≠ [])
      (hshort : w.kernel.rxQueue.length < P.recvBatchSize) :
      PingStep P w (.recvmmsg false) { w with
        pc := .handle (w.kernel.rxQueue.map Datagram.received) false
        kernel := { w.kernel with rxQueue := [] }
        trace := w.trace ++ [.looked] }
  /-- `recvmmsg` fills its batch. -/
  | recvFull (hpc : w.pc = .drain) (hsize : 0 < P.recvBatchSize)
      (hfull : P.recvBatchSize ≤ w.kernel.rxQueue.length) :
      PingStep P w (.recvmmsg false) { w with
        pc := .handle ((w.kernel.rxQueue.take P.recvBatchSize).map Datagram.received) true
        kernel := { w.kernel with rxQueue := w.kernel.rxQueue.drop P.recvBatchSize } }
  /-- A datagram is handled. -/
  | message {d : Datagram} {batch : List Datagram} {full : Bool} {dns : Option String}
      {throws : Bool} (hpc : w.pc = .handle (d :: batch) full) {s : PingState} {threw : Bool}
      (hout : P.receiveMessage w.kernel.clock dns throws d w.st = (s, threw)) :
      PingStep P w (.message dns throws) { w with
        st := s
        pc := if threw then .thrown else .handle batch full
        trace := w.trace ++ P.messageEvents d w.st s }
  /-- The batch is handled. -/
  | batchDone {full : Bool} (hpc : w.pc = .handle [] full) :
      PingStep P w .run { w with pc := if full then .drain else .reap }
  /-- `reap_timed_out_probes`. -/
  | reap (hpc : w.pc = .reap) {s : PingState}
      (hout : P.reapTimedOutProbes w.kernel.clock w.st = s) :
      PingStep P w .run { w with
        st := s
        pc := .loopHead
        trace := w.trace ++ PingScanner.expiredEvents w.kernel.clock w.st s }

namespace PingScanner

variable {P : PingScanner} {w w' : PingWorld} {l : PingLabel}

/-- The steps that the scanner takes by itself. -/
private theorem runStep_cases (h : P.runStep w = some w') : PingStep P w .run w' := by
  unfold runStep at h
  -- one case for each control point at which the scanner goes on without a call
  split at h
  · rename_i hpc
    split at h
    · rename_i hcond
      cases h
      exact .enter hpc hcond
    · rename_i hcond
      cases h
      exact .leave hpc (by omega) (by omega)
  · rename_i hpc
    cases h
    exact .populate hpc rfl
  · rename_i hpc
    split at h
    · cases h
    · rename_i hlt
      cases h
      exact .flushDone hpc (Nat.le_of_not_lt hlt)
  · rename_i hpc
    split at h
    · rename_i hlt
      cases h
      exact .release hpc hlt rfl
    · rename_i hlt
      cases h
      exact .rollbackDone hpc (Nat.le_of_not_lt hlt)
  · rename_i hpc
    cases h
    exact .batchDone hpc
  · rename_i hpc
    cases h
    exact .reap hpc rfl
  · cases h

/-- The outcomes of a `sendmmsg` call. -/
private theorem sendmmsgStep_cases {r : SendResult} (h : sendmmsgStep r w = some w') :
    PingStep P w (.sendmmsg r) w' := by
  unfold sendmmsgStep at h
  split at h
  · rename_i hpc
    split at h
    · rename_i hlt
      cases r with
      -- the kernel takes at least one message and at most those that are left
      | sent count =>
        dsimp only at h
        split at h
        · rename_i hcount
          cases h
          exact .sent hpc hcount.1 (by omega)
        · cases h
      | error errno =>
        dsimp only at h
        split at h
        · rename_i herr
          cases h
          subst herr
          exact .again hpc hlt
        · rename_i herr
          cases h
          exact .refused hpc hlt herr
    · cases h
  · cases h

/-- The outcomes of a wait for room in the send buffer. -/
private theorem waitStep_cases {modOut modIn : Bool} {waits : List WaitResult}
    (h : P.waitStep modOut modIn waits w = some w') :
    PingStep P w (.wait modOut modIn waits) w' := by
  unfold waitStep at h
  split at h
  · rename_i hpc
    split at h
    · cases h
    · rename_i hwait
      cases h
      exact .waitThrew hpc hwait
    · rename_i outcome hthrew hwait
      cases h
      cases outcome with
      | writable => exact .writable hpc hwait
      | notWritable => exact .notWritable hpc hwait
      | threw => exact absurd rfl hthrew
  · cases h

/-- The outcomes of the `epoll_wait` call for replies. -/
private theorem epollWaitStep_cases {r : PollResult} (h : epollWaitStep r w = some w') :
    PingStep P w (.epollWait r) w' := by
  unfold epollWaitStep at h
  split at h
  · rename_i hpc
    cases r with
    | ready =>
      dsimp only at h
      split at h
      · rename_i hread
        cases h
        simp only [Bool.and_eq_true, Bool.not_eq_true', List.isEmpty_eq_false_iff] at hread
        exact .pollReady hpc hread.1 hread.2
      · cases h
    -- a time-out is possible only if nothing unread has been signalled
    | timeout =>
      dsimp only at h
      split at h
      · cases h
      · rename_i hread
        cases h
        refine .pollTimeout hpc fun hedge => ?_
        simpa [hedge] using hread
    | failed =>
      cases h
      exact .pollFailed hpc
  · cases h

/-- The outcomes of a `recvmmsg` call, by the length of the queue and the size of the batch. -/
private theorem recvmmsgStep_cases {fails : Bool} (h : P.recvmmsgStep fails w = some w') :
    PingStep P w (.recvmmsg fails) w' := by
  unfold recvmmsgStep at h
  split at h
  · rename_i hpc
    cases fails with
    | true =>
      cases h
      exact .recvFailed hpc
    | false =>
      simp only [Bool.false_eq_true, if_false] at h
      -- a batch of size zero takes nothing and ends nothing
      rcases Nat.eq_zero_or_pos P.recvBatchSize with hzero | hpos
      · simp only [hzero, Nat.zero_min, Nat.lt_irrefl, if_false, if_true] at h
        cases h
        exact .recvZero hpc hzero
      · rcases Nat.lt_or_ge w.kernel.rxQueue.length P.recvBatchSize with hshort | hfull
        · rw [Nat.min_eq_right (Nat.le_of_lt hshort)] at h
          simp only [hshort, if_true] at h
          split at h
          · rename_i hnil
            cases h
            exact .recvEmpty hpc (List.length_eq_zero_iff.mp hnil) hpos
          · rename_i hne
            simp only [List.take_length, List.drop_length, decide_true, Bool.not_true] at h
            cases h
            exact .recvShort hpc (fun hq => hne (by simp [hq])) hshort
        · rw [Nat.min_eq_left hfull] at h
          have hne : P.recvBatchSize ≠ 0 := by omega
          simp only [Nat.lt_irrefl, if_false, hne, decide_false, Bool.not_false] at h
          cases h
          exact .recvFull hpc hpos hfull
  · cases h

/-- A turn of the message loop. -/
private theorem messageStep_cases {dns : Option String} {throws : Bool}
    (h : P.messageStep dns throws w = some w') : PingStep P w (.message dns throws) w' := by
  unfold messageStep at h
  split at h
  · rename_i hpc
    cases h
    exact .message hpc rfl
  · cases h

/-- **Every step of a ping run is one of the listed transitions.** Invariants are proved by cases on
them. -/
theorem step_cases (h : P.step w l = some w') : PingStep P w l w' := by
  cases l with
  | tick now => cases h; exact .tick now
  | arrive d => cases h; exact .arrive d
  | run => exact runStep_cases h
  | sendmmsg r => exact sendmmsgStep_cases h
  | wait modOut modIn waits => exact waitStep_cases h
  | epollWait r => exact epollWaitStep_cases h
  | recvmmsg fails => exact recvmmsgStep_cases h
  | message dns throws => exact messageStep_cases h

end PingScanner

end Netscan
