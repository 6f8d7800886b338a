import Netscan.Ping.Run
import Netscan.Ping.RxBuffers

/-! # Draining the socket

`receive_responses` after an `EPOLLIN` event: `recvmmsg` takes datagrams in batches until a batch
is not full, and the message loop works through the slots of each batch. The registration is
edge-triggered, so what is left in the queue is not announced again. The loop drains the queue and
does what handling the datagrams one by one does, exactly when it asks for at least one message at
a time: a batch size of zero makes `recvmmsg` return zero, which ends the loop. -/

namespace Netscan

open MachineInt LabelledSystem

/-- What the environment answers while one message is handled: the clock, the resolver and the
callback. -/
structure MessageAnswer where
  /-- The clock, read when the message has no timestamp. -/
  recvNow : Timespec := {}
  /-- The resolver's answer. -/
  dns : Option String := none
  /-- Whether the callback throws. -/
  throws : Bool := false

/-- How far messages have been handled: the state, whether the callback threw, and what was
handled. -/
structure MessageOutcome where
  /-- The scanner. -/
  st : PingState
  /-- The callback threw at the last message. -/
  threw : Bool := false
  /-- The messages handled, as their slots showed them. -/
  handled : List Datagram := []

namespace PingScanner

variable (P : PingScanner) (answers : ℕ → MessageAnswer)

/-! ### The loops of `receive_responses` -/

/-- One turn of the message loop on slot `msgIndex`; the answers are numbered by the messages
handled before. -/
def handleSlot {n : ℕ} (b : RxBuffers n) (msgIndex : ℕ) (o : MessageOutcome) : MessageOutcome :=
  let answer := answers o.handled.length
  let out := P.receiveMessageAt b msgIndex answer.recvNow answer.dns answer.throws o.st
  { st := out.1, threw := out.2, handled := o.handled ++ [b.datagramAt msgIndex] }

/-- The message loop on the slots from `msgIndex` on, `left` of them; an exception ends it. -/
def messageLoop {n : ℕ} (b : RxBuffers n) : (left msgIndex : ℕ) → MessageOutcome → MessageOutcome
  | 0, _, o => o
  | left + 1, msgIndex, o =>
    let o := P.handleSlot answers b msgIndex o
    if o.threw then o else messageLoop b left (msgIndex + 1) o

/-- The loop of `receive_responses` on the datagrams in the queue, none arriving meanwhile: the
outcome and the datagrams left in the queue. -/
def drainLoop (b : RxBuffers P.recvCount) (queue : List Datagram) (o : MessageOutcome) :
    MessageOutcome × List Datagram :=
  let recvd := min P.recvBatchSize queue.length
  -- `EAGAIN`, or a call for no message at all
  if _ : recvd = 0 then (o, queue)
  else
    let b := RxBuffers.storeFrom 0 (queue.take recvd) (b.clear P.recvBatchSize)
    let o := P.messageLoop answers b recvd 0 o
    if o.threw ∨ recvd < P.recvBatchSize then (o, queue.drop recvd)
    else drainLoop b (queue.drop recvd) o
  termination_by queue.length
  decreasing_by
    rw [List.length_drop]
    omega

/-- `receive_responses`, when `epoll_wait` answers `poll`: the outcome and what is left in the
queue. -/
def receiveResponses (blocking : Bool) (poll : PollResult) (b : RxBuffers P.recvCount)
    (queue : List Datagram) (s : PingState) : MessageOutcome × List Datagram :=
  if blocking ∧ poll ≠ .ready then ({ st := s }, queue)
  else P.drainLoop answers b queue { st := s }

/-! ### One datagram at a time -/

/-- Handle one datagram, with the bytes that it was sent with. -/
def handleOne (d : Datagram) (o : MessageOutcome) : MessageOutcome :=
  let answer := answers o.handled.length
  let out := P.receiveMessage answer.recvNow answer.dns answer.throws d o.st
  { st := out.1, threw := out.2, handled := o.handled ++ [d.received] }

/-- Handle datagrams one after the other, until the callback throws. -/
def handleAll : List Datagram → MessageOutcome → MessageOutcome
  | [], o => o
  | d :: ds, o =>
    let o := P.handleOne answers d o
    if o.threw then o else handleAll ds o

/-- The purpose of `receive_responses` after an `EPOLLIN` event: everything that waits is handled,
as if one by one. -/
structure DrainsOneByOne (b : RxBuffers P.recvCount) (queue : List Datagram) (s : PingState) :
    Prop where
  /-- It does what handling the queue one by one does. -/
  effect : (P.receiveResponses answers true .ready b queue s).1 =
    P.handleAll answers queue { st := s }
  /-- Unless the callback throws, every datagram is handled once, in order, as the kernel hands it
  over. -/
  handled : (P.receiveResponses answers true .ready b queue s).1.threw = false →
    (P.receiveResponses answers true .ready b queue s).1.handled = queue.map Datagram.received
  /-- Unless the callback throws, the queue is empty in the end. -/
  emptied : (P.receiveResponses answers true .ready b queue s).1.threw = false →
    (P.receiveResponses answers true .ready b queue s).2 = []

variable {P answers} {o : MessageOutcome}

/-! ### The message loop -/

/-- The message loop on slots that hold a batch handles the batch one by one. -/
theorem messageLoop_eq (answers : ℕ → MessageAnswer) (o : MessageOutcome) {n : ℕ}
    {b : RxBuffers n} {batch : List Datagram} {j : ℕ} (hfits : j + batch.length ≤ n)
    (hslots : ∀ i d, batch[i]? = some d → b.datagramAt (j + i) = d.received) :
    P.messageLoop answers b batch.length j o = P.handleAll answers batch o := by
  induction batch generalizing j o with
  | nil => rfl
  | cons d batch ih =>
    rw [List.length_cons] at hfits
    have hslot : b.datagramAt j = d.received := hslots 0 d rfl
    -- slot `j` holds the first datagram of the batch
    have hone : P.handleSlot answers b j o = P.handleOne answers d o := by
      unfold handleSlot handleOne
      dsimp only
      rw [P.receiveMessageAt_eq b (by omega), hslot, receiveMessage_received]
    rw [List.length_cons, messageLoop, handleAll, hone]
    by_cases hthrew : (P.handleOne answers d o).threw
    · rw [if_pos hthrew, if_pos hthrew]
    -- the rest of the batch is in the slots behind it
    · rw [if_neg hthrew, if_neg hthrew]
      apply ih _ (by omega)
      intro i d' hi
      rw [Nat.add_right_comm]
      exact hslots (i + 1) d' hi

/-! ### Handling one by one -/

/-- Handling stops at a throw and otherwise goes through every datagram, in order. -/
theorem handled_handleAll (queue : List Datagram) (o : MessageOutcome)
    (h : (P.handleAll answers queue o).threw = false) :
    (P.handleAll answers queue o).handled = o.handled ++ queue.map Datagram.received := by
  induction queue generalizing o with
  | nil => exact (List.append_nil _).symm
  | cons d queue ih =>
    rw [handleAll] at h ⊢
    by_cases hthrew : (P.handleOne answers d o).threw
    · rw [if_pos hthrew] at h
      rw [h] at hthrew
      cases hthrew
    · rw [if_neg hthrew] at h ⊢
      rw [ih _ h]
      simp [handleOne]

/-- Handling a queue is handling its head and, without a throw, the rest. -/
theorem handleAll_append (answers : ℕ → MessageAnswer) (ds es : List Datagram)
    (o : MessageOutcome) : P.handleAll answers (ds ++ es) o =
      if (P.handleAll answers ds o).threw ∧ ds ≠ [] then P.handleAll answers ds o
      else P.handleAll answers es (P.handleAll answers ds o) := by
  induction ds generalizing o with
  | nil => simp [handleAll]
  | cons d ds ih =>
    rw [List.cons_append, handleAll, handleAll]
    by_cases hthrew : (P.handleOne answers d o).threw
    · rw [if_pos hthrew, if_pos hthrew, if_pos ⟨hthrew, by simp⟩]
    · rw [if_neg hthrew, if_neg hthrew, ih]
      by_cases hds : ds = []
      · simp [hds, handleAll, hthrew]
      · simp [hds]

/-! ### The drain -/

/-- A call that can take no message ends the loop, with the queue as it was. -/
theorem drainLoop_of_eq_zero {b : RxBuffers P.recvCount} {queue : List Datagram}
    (h : min P.recvBatchSize queue.length = 0) : P.drainLoop answers b queue o = (o, queue) := by
  rw [drainLoop, dif_pos h]

/-- After an `EPOLLIN` event the queue is drained: the answer decides whether the loop is
entered. -/
theorem receiveResponses_ready (answers : ℕ → MessageAnswer) (b : RxBuffers P.recvCount)
    (queue : List Datagram) (s : PingState) : P.receiveResponses answers true .ready b queue s =
      P.drainLoop answers b queue { st := s } := by
  simp [receiveResponses]

/-- **One batch**: the slots filled by `recvmmsg` are handled one by one. -/
theorem messageLoop_batch (b : RxBuffers P.recvCount) (queue : List Datagram) :
    P.messageLoop answers
        (RxBuffers.storeFrom 0 (queue.take (min P.recvBatchSize queue.length))
          (b.clear P.recvBatchSize))
        (min P.recvBatchSize queue.length) 0 o =
      P.handleAll answers (queue.take (min P.recvBatchSize queue.length)) o := by
  have hlen : (queue.take (min P.recvBatchSize queue.length)).length =
      min P.recvBatchSize queue.length := by
    rw [List.length_take]
    omega
  have hfits : 0 + (queue.take (min P.recvBatchSize queue.length)).length ≤ P.recvCount := by
    rw [hlen, recvCount]
    omega
  have h := messageLoop_eq (P := P) answers o hfits
    fun i d hi => RxBuffers.datagramAt_storeFrom hfits (b.clear P.recvBatchSize) hi
  rwa [hlen] at h

/-- The loop handles the queue one by one, whatever the buffers hold; without a throw it empties
the queue. -/
theorem drainLoop_eq (answers : ℕ → MessageAnswer) (hsize : 0 < P.recvBatchSize)
    (b : RxBuffers P.recvCount) (queue : List Datagram) (o : MessageOutcome)
    (hthrew : o.threw = false) :
    (P.drainLoop answers b queue o).1 = P.handleAll answers queue o ∧
      ((P.handleAll answers queue o).threw = false → (P.drainLoop answers b queue o).2 = []) := by
  -- Induction on the queue: every turn but the last one takes a full batch out of it.
  induction hn : queue.length using Nat.strong_induction_on generalizing queue b o with
  | h m ih =>
    rw [drainLoop]
    dsimp only
    by_cases hrecvd : min P.recvBatchSize queue.length = 0
    · obtain rfl : queue = [] := List.length_eq_zero_iff.mp (by omega)
      rw [dif_pos hrecvd]
      exact ⟨rfl, fun _ => rfl⟩
    · rw [dif_neg hrecvd, messageLoop_batch]
      have hne : queue.take (min P.recvBatchSize queue.length) ≠ [] := by
        apply List.ne_nil_of_length_pos
        rw [List.length_take]
        omega
      have hsplit := handleAll_append (P := P) answers
        (queue.take (min P.recvBatchSize queue.length))
        (queue.drop (min P.recvBatchSize queue.length)) o
      rw [List.take_append_drop] at hsplit
      by_cases hthrow :
          (P.handleAll answers (queue.take (min P.recvBatchSize queue.length)) o).threw
      · -- an exception leaves the loop and the function
        rw [if_pos ⟨hthrow, hne⟩] at hsplit
        rw [if_pos (.inl hthrow), hsplit]
        refine ⟨rfl, ?_⟩
        intro h
        rw [hthrow] at h
        cases h
      · rw [if_neg fun h => hthrow h.1] at hsplit
        by_cases hfull : min P.recvBatchSize queue.length < P.recvBatchSize
        · -- the batch was not full, so it was all there was
          have hdrop : queue.drop (min P.recvBatchSize queue.length) = [] :=
            List.drop_eq_nil_of_le (by omega)
          rw [if_pos (.inr hfull), hsplit, hdrop]
          exact ⟨rfl, fun _ => rfl⟩
        · rw [if_neg (by rintro (h | h); exacts [hthrow h, hfull h]), hsplit]
          exact ih _ (by rw [List.length_drop]; omega) _ _ _ (by simpa using hthrow) rfl

/-- **The drain is complete and independent of the batch size**, exactly when a batch has room for
a message or there is nothing to read. -/
theorem drains_one_by_one_iff (b : RxBuffers P.recvCount) (queue : List Datagram) (s : PingState) :
    P.DrainsOneByOne answers b queue s ↔ 0 < P.recvBatchSize ∨ queue = [] := by
  have hready := receiveResponses_ready (P := P) answers b queue s
  constructor
  · intro h
    -- batches without room leave what is in the queue
    by_contra hnot
    obtain ⟨hsize, hqueue⟩ := not_or.mp hnot
    have hzero : min P.recvBatchSize queue.length = 0 := by omega
    have hleft := h.emptied
    rw [hready, drainLoop_of_eq_zero hzero] at hleft
    exact hqueue (hleft rfl)
  -- with room every round takes something, and without datagrams there is nothing to take
  · rintro (hsize | rfl)
    · obtain ⟨heffect, hempty⟩ := drainLoop_eq answers hsize b queue { st := s } rfl
      refine ⟨?_, ?_, ?_⟩
      · rw [hready, heffect]
      · rw [hready, heffect]
        intro hthrew
        rw [handled_handleAll queue _ hthrew, List.nil_append]
      · rw [hready, heffect]
        exact hempty
    · have hzero : min P.recvBatchSize ([] : List Datagram).length = 0 := Nat.min_zero _
      refine ⟨?_, ?_, ?_⟩ <;> rw [hready, drainLoop_of_eq_zero hzero]
      · rfl
      · exact fun _ => rfl
      · exact fun _ => rfl

/-- With `recv_batch_size` zero one slot is reserved but none is offered to `recvmmsg`: the reply of
the only host stays in the queue, unannounced. -/
theorem not_drains_one_by_one :
    ¬ (construct { baseIp := 1, totalHosts := 1, recvBatchSize := 0 } none none 0).DrainsOneByOne
      (fun _ => {}) (RxBuffers.zeroed _) [echoReply 1 {}]
      (construct { baseIp := 1, totalHosts := 1, recvBatchSize := 0 } none none 0).initializeBuffers
      := by
  intro h
  have hemptied := h.emptied
  rw [receiveResponses_ready, drainLoop_of_eq_zero (by decide)] at hemptied
  exact absurd (hemptied rfl) (by simp)

/-! ### The drain in a run -/

/-- The steps of a drain: nothing arrives, and `recvmmsg` does not fail. -/
def Quiet (_ : PingWorld) : PingLabel → Prop
  | .arrive _ => False
  | .recvmmsg fails => fails = false
  | _ => True

variable {w : PingWorld}

/-- The message loop of a run handles its batch one by one. -/
theorem runs_handleAll (answers : ℕ → MessageAnswer) {full : Bool} (ds : List Datagram)
    {o : MessageOutcome} (hst : o.st = w.st) (hthrew : o.threw = false)
    (hpc : w.pc = .handle (ds.map Datagram.received) full) :
    ∃ w', Runs P.step Quiet w w' ∧ w'.st = (P.handleAll answers ds o).st ∧
      w'.pc = (if (P.handleAll answers ds o).threw then .thrown else .handle [] full) ∧
      w'.kernel.rxQueue = w.kernel.rxQueue := by
  induction ds generalizing w o with
  | nil =>
    refine ⟨w, .refl, hst.symm, ?_, rfl⟩
    rw [handleAll, hthrew, hpc]
    rfl
  | cons d ds ih =>
    -- the clock moves to the answer's value, then the message is handled
    let answer := answers o.handled.length
    let u : PingWorld := { w with kernel := { w.kernel with clock := answer.recvNow } }
    have htick : P.step w (.tick answer.recvNow) = some u := rfl
    let v : PingWorld := { u with
      st := (P.handleOne answers d o).st
      pc := if (P.handleOne answers d o).threw then .thrown
        else .handle (ds.map Datagram.received) full
      trace := u.trace ++ P.messageEvents d.received u.st (P.handleOne answers d o).st }
    have hmessage : P.step u (.message answer.dns answer.throws) = some v := by
      have hout : P.receiveMessage answer.recvNow answer.dns answer.throws d.received w.st =
          ((P.handleOne answers d o).st, (P.handleOne answers d o).threw) := by
        rw [receiveMessage_received, ← hst]
        rfl
      have hu : u.pc = .handle (d.received :: ds.map Datagram.received) full := hpc
      show P.messageStep answer.dns answer.throws u = some v
      rw [messageStep, hu]
      show some { u with
        st := (P.receiveMessage answer.recvNow answer.dns answer.throws d.received w.st).1
        pc := if (P.receiveMessage answer.recvNow answer.dns answer.throws d.received w.st).2
          then PingPc.thrown else .handle (ds.map Datagram.received) full
        trace := _ } = some v
      rw [hout]
    have hrun : Runs P.step Quiet w v :=
      (Runs.refl.tail (by trivial) htick).tail (by trivial) hmessage
    rw [handleAll]
    by_cases hthrow : (P.handleOne answers d o).threw
    · rw [if_pos hthrow]
      refine ⟨v, hrun, rfl, ?_, rfl⟩
      simp [v, hthrow]
    · rw [if_neg hthrow]
      have hv : v.pc = .handle (ds.map Datagram.received) full := by simp [v, hthrow]
      obtain ⟨w', hw', hst', hpc', hqueue⟩ := ih (w := v) rfl (by simpa using hthrow) hv
      exact ⟨w', hrun.trans hw', hst', hpc', hqueue⟩

/-- **The loop on the buffers is the drain of a run**: some run without arrivals and without an
error of `recvmmsg` leads from the first `recvmmsg` to the state and the queue that `drainLoop`
computes. -/
theorem runs_drainLoop (b : RxBuffers P.recvCount) {o : MessageOutcome} (hst : o.st = w.st)
    (hthrew : o.threw = false) (hpc : w.pc = .drain) :
    ∃ w', Runs P.step Quiet w w' ∧
      w'.st = (P.drainLoop answers b w.kernel.rxQueue o).1.st ∧
      w'.kernel.rxQueue = (P.drainLoop answers b w.kernel.rxQueue o).2 ∧
      w'.pc = if (P.drainLoop answers b w.kernel.rxQueue o).1.threw then .thrown else .reap := by
  induction hn : w.kernel.rxQueue.length using Nat.strong_induction_on generalizing w b o with
  | h m ih =>
    let recvd := min P.recvBatchSize w.kernel.rxQueue.length
    rw [drainLoop]
    dsimp only
    by_cases hrecvd : min P.recvBatchSize w.kernel.rxQueue.length = 0
    · rw [dif_pos hrecvd]
      have hstep : P.step w (.recvmmsg false) = some { w with
          pc := .reap
          trace := if recvd < P.recvBatchSize then w.trace ++ [.looked] else w.trace } := by
        simp only [step, recvmmsgStep, hpc, recvd, hrecvd]
        simp
      exact ⟨_, Runs.refl.tail (by rfl) hstep, hst.symm, rfl, by simp [hthrew]⟩
    · rw [dif_neg hrecvd, messageLoop_batch]
      let u : PingWorld := { w with
        pc := .handle ((w.kernel.rxQueue.take recvd).map Datagram.received)
          (!decide (recvd < P.recvBatchSize))
        kernel := { w.kernel with rxQueue := w.kernel.rxQueue.drop recvd }
        trace := if recvd < P.recvBatchSize then w.trace ++ [.looked] else w.trace }
      have hrecv : P.step w (.recvmmsg false) = some u := by
        simp only [step, recvmmsgStep, hpc, u, recvd]
        simp [hrecvd]
      obtain ⟨v, hv, hvst, hvpc, hvqueue⟩ := runs_handleAll (P := P) answers (w := u)
        (w.kernel.rxQueue.take recvd) hst hthrew rfl
      have hrun : Runs P.step Quiet w v := (Runs.refl.tail (by rfl) hrecv).trans hv
      by_cases hthrow : (P.handleAll answers (w.kernel.rxQueue.take recvd) o).threw
      · rw [if_pos (.inl hthrow)]
        exact ⟨v, hrun, hvst, hvqueue, by rw [hvpc, if_pos hthrow, if_pos hthrow]⟩
      · rw [if_neg hthrow] at hvpc
        -- the end of the message loop
        have hend : P.step v .run = some { v with
            pc := if !decide (recvd < P.recvBatchSize) then .drain else .reap } := by
          simp only [step, runStep, hvpc]
        by_cases hfull : min P.recvBatchSize w.kernel.rxQueue.length < P.recvBatchSize
        · rw [if_pos (.inr hfull)]
          refine ⟨_, hrun.tail (by trivial) hend, hvst, hvqueue, ?_⟩
          simp [recvd, hfull, hthrow]
        · rw [if_neg (by rintro (h | h); exacts [hthrow h, hfull h])]
          have hshorter : (w.kernel.rxQueue.drop recvd).length < m := by
            rw [List.length_drop]
            omega
          obtain ⟨w', hw', hst', hqueue', hpc'⟩ := ih _ hshorter
            (RxBuffers.storeFrom 0 (w.kernel.rxQueue.take recvd) (b.clear P.recvBatchSize))
            (o := P.handleAll answers (w.kernel.rxQueue.take recvd) o)
            (w := { v with pc := if !decide (recvd < P.recvBatchSize) then .drain else .reap })
            hvst.symm (by simpa using hthrow) (by simp [recvd, hfull]) (by rw [hvqueue])
          have hqueue : v.kernel.rxQueue = w.kernel.rxQueue.drop recvd := hvqueue
          rw [hqueue] at hst' hqueue' hpc'
          exact ⟨w', (hrun.tail (by trivial) hend).trans hw', hst', hqueue', hpc'⟩

end PingScanner

end Netscan
