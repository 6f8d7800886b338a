import Netscan.Ping.SlotSafety
import Netscan.Ping.Trace

/-! # Datagrams are delivered in order, once each

What has been handled, what waits in the message loop and what is still in the receive queue are
together, in this order, what arrived. Only an exception loses the rest of a batch. -/

namespace Netscan

open MachineInt SlotTable LabelledSystem History

/-- The datagram that a datagram entering the queue adds, if the event is an arrival. -/
def PingEvent.arrivedDatagram? : PingEvent → Option Datagram
  | .arrived d _ => some d
  | _ => none

/-- The datagram that was handled, as the receive slot held it. -/
def PingEvent.handledDatagram? : PingEvent → Option Datagram
  | .handled d => some d
  | _ => none

/-- The messages of the message loop that are not handled yet, and none outside of it. -/
def PingPc.unhandled : PingPc → List Datagram
  | .handle batch _ => batch
  | _ => []

namespace PingScanner

/-- The datagrams that arrived, in the order in which they entered the queue. -/
def arrivedDatagrams (t : List PingEvent) : List Datagram := t.filterMap PingEvent.arrivedDatagram?

/-- The datagrams that were handled, in the order of the message loop. -/
def handledDatagrams (t : List PingEvent) : List Datagram := t.filterMap PingEvent.handledDatagram?

variable {P : PingScanner} {s₀ : PingState} {k : PingKernel} {w w' : PingWorld} {l : PingLabel}

/-- Delivery in a run that found `k.rxQueue` in the queue and took `taken` from it. -/
structure Delivered (k : PingKernel) (taken : List Datagram) (w : PingWorld) : Prop where
  /-- What arrived was taken from the queue or is still in it. -/
  queue : k.rxQueue ++ arrivedDatagrams w.trace = taken ++ w.kernel.rxQueue
  /-- What was taken is handled or in the message loop. -/
  loop : w.pc ≠ .thrown →
    handledDatagrams w.trace ++ w.pc.unhandled = taken.map Datagram.received
  /-- Nothing is handled that was not taken. -/
  handled : handledDatagrams w.trace <+: taken.map Datagram.received

variable {taken : List Datagram}

/-- The events of a step that neither receives nor handles add to neither list. -/
private theorem projections_quiet {t u : List PingEvent}
    (hu : ∀ e ∈ u, e.handledDatagram? = none ∧ e.arrivedDatagram? = none) :
    handledDatagrams (t ++ u) = handledDatagrams t ∧
      arrivedDatagrams (t ++ u) = arrivedDatagrams t := by
  have hhandled : handledDatagrams u = [] := List.filterMap_eq_nil_iff.mpr fun e he => (hu e he).1
  have harrived : arrivedDatagrams u = [] := List.filterMap_eq_nil_iff.mpr fun e he => (hu e he).2
  rw [handledDatagrams, arrivedDatagrams, List.filterMap_append, List.filterMap_append]
  exact ⟨(congrArg _ hhandled).trans (List.append_nil _),
    (congrArg _ harrived).trans (List.append_nil _)⟩

/-- Steps that neither receive nor handle keep the delivery, if the queue and the messages at hand
stay. -/
theorem Delivered.quiet (h : Delivered k taken w)
    (hpc : w'.pc = .thrown ∨ w.pc ≠ .thrown ∧ w'.pc.unhandled = w.pc.unhandled)
    (hqueue : w'.kernel.rxQueue = w.kernel.rxQueue) {u : List PingEvent}
    (htrace : w'.trace = w.trace ++ u)
    (hu : ∀ e ∈ u, e.handledDatagram? = none ∧ e.arrivedDatagram? = none) :
    Delivered k taken w' := by
  obtain ⟨hhandled, harrived⟩ := projections_quiet (t := w.trace) hu
  rw [← htrace] at hhandled harrived
  refine ⟨?_, ?_, ?_⟩
  · rw [harrived, hqueue]
    exact h.queue
  · intro hne
    obtain hthrown | ⟨hw, hsame⟩ := hpc
    · exact absurd hthrown hne
    · rw [hhandled, hsame]
      exact h.loop hw
  · rw [hhandled]
    exact h.handled

/-- An arrival is put into the queue, behind what is there. -/
theorem Delivered.arrive (h : Delivered k taken w) (d : Datagram) {edge : Bool}
    {clock : Timespec} :
    Delivered k taken { w with
      kernel := { w.kernel with rxQueue := w.kernel.rxQueue ++ [d], rxEdge := edge }
      trace := w.trace ++ [.arrived d clock] } := by
  have hhandled : handledDatagrams (w.trace ++ [.arrived d clock]) = handledDatagrams w.trace := by
    simp [handledDatagrams, PingEvent.handledDatagram?]
  have harrived : arrivedDatagrams (w.trace ++ [.arrived d clock]) =
      arrivedDatagrams w.trace ++ [d] := by
    simp [arrivedDatagrams, PingEvent.arrivedDatagram?]
  refine ⟨?_, ?_, ?_⟩
  · rw [harrived, ← List.append_assoc, h.queue, List.append_assoc]
  · rw [hhandled]
    exact h.loop
  · rw [hhandled]
    exact h.handled

/-- `recvmmsg` moves the head of the queue into the empty message loop. -/
theorem Delivered.receive (h : Delivered k taken w) (hpc : w.pc = .drain) (n : ℕ) (full : Bool)
    {u : List PingEvent} (hu : ∀ e ∈ u, e.handledDatagram? = none ∧ e.arrivedDatagram? = none) :
    Delivered k (taken ++ w.kernel.rxQueue.take n) { w with
      pc := .handle ((w.kernel.rxQueue.take n).map Datagram.received) full
      kernel := { w.kernel with rxQueue := w.kernel.rxQueue.drop n }
      trace := w.trace ++ u } := by
  obtain ⟨hhandled, harrived⟩ := projections_quiet (t := w.trace) hu
  have hloop := h.loop (by simp [hpc])
  rw [hpc] at hloop
  simp only [PingPc.unhandled, List.append_nil] at hloop
  refine ⟨?_, ?_, ?_⟩
  · rw [harrived, h.queue, List.append_assoc, List.take_append_drop]
  · intro _
    rw [hhandled, hloop, List.map_append]
    rfl
  · rw [hhandled, hloop, List.map_append]
    exact List.prefix_append _ _

/-- The message loop handles its first message. If the callback throws, the others are lost with the
batch. -/
theorem Delivered.message (h : Delivered k taken w) {d : Datagram} {batch : List Datagram}
    {full threw : Bool} (hpc : w.pc = .handle (d :: batch) full) {s : PingState}
    {u : List PingEvent} (hu : handledDatagrams u = [d] ∧ arrivedDatagrams u = []) :
    Delivered k taken { w with
      st := s
      pc := if threw then .thrown else .handle batch full
      trace := w.trace ++ u } := by
  have hhandled : handledDatagrams (w.trace ++ u) = handledDatagrams w.trace ++ [d] := by
    rw [handledDatagrams, List.filterMap_append]
    exact congrArg _ hu.1
  have harrived : arrivedDatagrams (w.trace ++ u) = arrivedDatagrams w.trace := by
    rw [arrivedDatagrams, List.filterMap_append]
    exact (congrArg _ hu.2).trans (List.append_nil _)
  -- before the step: handled, then at hand, is what was taken
  have hloop := h.loop (by simp [hpc])
  simp only [hpc, PingPc.unhandled] at hloop
  refine ⟨?_, ?_, ?_⟩
  · rw [harrived]
    exact h.queue
  · intro hne
    cases threw with
    | true => exact absurd rfl hne
    | false =>
      rw [hhandled, ← hloop]
      simp [PingPc.unhandled]
  · rw [hhandled, ← hloop]
    simp

/-- Every step keeps the delivery, some with more taken from the queue. -/
theorem Delivered.step (hP : P.Ranged) (hslot : P.SlotInv w.st) (h : Delivered k taken w)
    (hstep : PingStep P w l w') : ∃ taken', Delivered k taken' w' := by
  cases hstep with
  -- the two ways in which `recvmmsg` hands over datagrams move them out of the queue
  | recvShort hpc =>
    have hall := h.receive hpc w.kernel.rxQueue.length false (u := [.looked])
      (by simp [PingEvent.handledDatagram?, PingEvent.arrivedDatagram?])
    exact ⟨_, by simpa using hall⟩
  | recvFull hpc =>
    have hfirst := h.receive hpc P.recvBatchSize true (u := []) (by simp)
    exact ⟨_, by simpa using hfirst⟩
  | arrive d => exact ⟨taken, h.arrive d⟩
  | message hpc hout =>
    refine ⟨taken, h.message hpc ?_⟩
    rcases hslot.messageEvents_cases hP hout with ⟨-, -, -, hev⟩ | ⟨-, -, hev⟩ <;> rw [hev] <;>
      exact ⟨rfl, rfl⟩
  -- all other steps neither take a datagram from the queue nor handle one
  | populate hpc =>
    refine ⟨taken, h.quiet (.inr ⟨by simp [hpc], ?_⟩) rfl rfl ?_⟩
    · rw [hpc]
      dsimp only
      split <;> rfl
    · intro e he
      obtain ⟨i, rfl⟩ := mem_reachedEvents he
      exact ⟨rfl, rfl⟩
  | sent hpc =>
    refine ⟨taken, h.quiet (.inr ⟨by simp [hpc], by rw [hpc]; rfl⟩) rfl rfl ?_⟩
    intro e he
    obtain ⟨i, -, -, rfl⟩ := mem_acceptedEvents he
    exact ⟨rfl, rfl⟩
  | reap hpc =>
    refine ⟨taken, h.quiet (.inr ⟨by simp [hpc], by rw [hpc]; rfl⟩) rfl rfl ?_⟩
    intro e he
    obtain ⟨i, -, -, rfl⟩ := mem_expiredEvents he
    exact ⟨rfl, rfl⟩
  | tick =>
    by_cases hne : w.pc = .thrown
    · exact ⟨taken, h.quiet (.inl hne) rfl (List.append_nil _).symm (by simp)⟩
    · exact ⟨taken, h.quiet (.inr ⟨hne, rfl⟩) rfl (List.append_nil _).symm (by simp)⟩
  | waitThrew => exact ⟨taken, h.quiet (.inl rfl) rfl (List.append_nil _).symm (by simp)⟩
  | @batchDone full hpc =>
    refine ⟨taken, h.quiet (.inr ⟨by simp [hpc], ?_⟩) rfl (List.append_nil _).symm (by simp)⟩
    rw [hpc]
    cases full <;> rfl
  | enter hpc | leave hpc | again hpc | writable hpc | notWritable hpc | flushDone hpc
  | release hpc | rollbackDone hpc | pollReady hpc | pollFailed hpc | recvZero hpc =>
    refine ⟨taken, h.quiet (.inr ⟨by simp [hpc], ?_⟩) rfl (List.append_nil _).symm (by simp)⟩
    rw [hpc]
    rfl
  | refused hpc | pollTimeout hpc | recvFailed hpc | recvEmpty hpc =>
    refine ⟨taken, h.quiet (.inr ⟨by simp [hpc], ?_⟩) rfl rfl
      (by simp [PingEvent.handledDatagram?, PingEvent.arrivedDatagram?])⟩
    rw [hpc]
    rfl

/-- **Datagrams are delivered in order, once each**, in every reachable state. By induction on the
run. -/
theorem delivered_of_reachable (hP : P.Ranged) (hs : P.Sized s₀)
    (hw : Reachable P.step (start s₀ k) w) : ∃ taken, Delivered k taken w := by
  refine hw.invariant_of_runs (I := fun w => ∃ taken, Delivered k taken w)
    ⟨[], List.append_nil _, fun _ => rfl, List.nil_prefix⟩ ?_
  rintro u l v hreach ⟨taken, h⟩ - hstep
  exact h.step hP (slotInv_of_reachable hP hs hreach) (step_cases hstep)

end PingScanner

end Netscan
