import Netscan.Ping.Delivery

/-! # Edge-triggered readiness

The socket is registered for edge-triggered input: readiness is reported once for what has arrived,
and a scanner that stops reading too early sleeps on unread datagrams. As long as `recvmmsg` does
not fail, it never does: it goes back to `epoll_wait` with an empty queue or an unreported edge, and
what was in the queue when it asked is read before the next reap. -/

namespace Netscan

open LabelledSystem

/-- The scanner is not in the middle of a drain: it has not consumed an edge whose datagrams it
still is to read. -/
def PingPc.Resting : PingPc → Prop
  | .drain | .handle _ true | .thrown => False
  | _ => True

/-- The control points of `receive_responses` and of the reap that follows, where a reap or a batch
that was read short leaves nothing in the queue but `since`. -/
def PingPc.Reads (queue since : List Datagram) : PingPc → Prop
  | .receive | .drain | .handle _ true | .thrown => True
  | .handle _ false | .reap => queue <:+ since
  | _ => False

/-- A datagram that arrives is among those that arrived since, so the suffix grows with the
queue. -/
theorem PingPc.Reads.append {pc : PingPc} {queue since : List Datagram} (h : pc.Reads queue since)
    (d : Datagram) : pc.Reads (queue ++ [d]) (since ++ [d]) := by
  cases pc with
  | handle batch full =>
    cases full with
    | true => trivial
    | false => exact List.suffix_append_self_iff.mpr h
  | reap => exact List.suffix_append_self_iff.mpr h
  | receive | drain | thrown => trivial
  | loopHead | sendBatch | flush | waitWritable | rollback | returned => exact h.elim

namespace PingScanner

variable {P : PingScanner} {s₀ : PingState} {k : PingKernel} {u w w' : PingWorld} {l : PingLabel}

/-- Steps in which `recvmmsg` does not fail. A failing one leaves the queue behind the edge. -/
def Hears (_ : PingWorld) (l : PingLabel) : Prop := l ≠ .recvmmsg true

/-- Steps up to the next reap in which neither `recvmmsg` nor `epoll_wait` fails. -/
def ReadsOn (w : PingWorld) (l : PingLabel) : Prop :=
  l ≠ .recvmmsg true ∧ l ≠ .epollWait .failed ∧ (w.pc = .reap → l.isEnv = true)

/-- The registration is armed: unread datagrams will be reported, unless a drain is under way. -/
def Armed (w : PingWorld) : Prop :=
  w.pc.Resting → w.kernel.rxQueue ≠ [] → w.kernel.rxEdge = true

/-- When `epoll_wait` reports nothing, there is nothing to read, as an edge would have ended the
wait. -/
theorem Armed.queue_of_timeout (h : Armed w) (hpc : w.pc = .receive)
    (hnone : w.kernel.rxEdge = true → w.kernel.rxQueue = []) : w.kernel.rxQueue = [] := by
  by_contra hqueue
  have hrest : w.pc.Resting := by rw [hpc]; trivial
  exact hqueue (hnone (h hrest hqueue))

/-- A step that leaves the kernel's side as it is, from a resting control point. -/
theorem Armed.quiet (h : Armed w) (hrest : w'.pc.Resting → w.pc.Resting)
    (hkernel : w'.kernel.rxQueue = w.kernel.rxQueue ∧ w'.kernel.rxEdge = w.kernel.rxEdge) :
    Armed w' := by
  intro hpc hqueue
  rw [hkernel.1] at hqueue
  rw [hkernel.2]
  exact h (hrest hpc) hqueue

/-- The step lemma: a step that empties the queue, re-arms the registration or begins a drain. -/
theorem Armed.step (hsize : 0 < P.recvBatchSize) (h : Armed w) (hok : Hears w l)
    (hstep : PingStep P w l w') : Armed w' := by
  cases hstep with
  | arrive d => exact fun _ _ => rfl
  | writable | notWritable =>
    -- the last `epoll_ctl` call arms the registration again
    intro _ hqueue
    simpa using hqueue
  | pollReady => exact fun hrest => hrest.elim
  | recvFailed => exact absurd rfl hok
  | recvZero _ hzero => exact absurd hzero hsize.ne'
  | recvEmpty _ hqueue => exact fun _ hne => absurd hqueue hne
  | recvShort => exact fun _ hne => absurd rfl hne
  | recvFull => exact fun hrest => hrest.elim
  | pollTimeout hpc hnone =>
    exact fun _ hne => absurd (h.queue_of_timeout hpc hnone) hne
  | message hpc hout =>
    rename_i full _ _ _ threw
    refine h.quiet (fun hrest => ?_) ⟨rfl, rfl⟩
    rw [hpc]
    cases threw with
    | true => exact hrest.elim
    | false => cases full <;> exact hrest
  | batchDone hpc =>
    rename_i full
    refine h.quiet (fun hrest => ?_) ⟨rfl, rfl⟩
    rw [hpc]
    cases full <;> exact hrest
  | tick => exact h.quiet id ⟨rfl, rfl⟩
  | waitThrew => exact fun hrest => hrest.elim
  | enter hpc | leave hpc | populate hpc | sent hpc | again hpc | refused hpc | flushDone hpc
    | release hpc | rollbackDone hpc | pollFailed hpc | reap hpc =>
    exact h.quiet (fun _ => by rw [hpc]; trivial) ⟨rfl, rfl⟩

/-- The registration stays armed, if it was so at the start. -/
theorem armed_of_runs (hsize : 0 < P.recvBatchSize) (hk : k.rxQueue ≠ [] → k.rxEdge = true)
    (hw : Runs P.step Hears (start s₀ k) w) : Armed w :=
  hw.invariant (fun _ => hk) fun _ _ _ h hok hstep => h.step hsize hok (step_cases hstep)

/-! ### What was in the queue is read -/

/-- Only an arrival adds to the datagrams that arrived. -/
theorem arrivedDatagrams_step (h : PingStep P w l w') (hl : ∀ d, l ≠ .arrive d) :
    arrivedDatagrams w'.trace = arrivedDatagrams w.trace := by
  obtain ⟨t, htrace, ht⟩ := records_step h
  have hnone : ∀ e ∈ t, e.arrivedDatagram? = none := by
    intro e he
    have hrec := ht e he
    cases e with
    | arrived d time => exact absurd hrec.1 (hl d)
    | _ => rfl
  rw [htrace, arrivedDatagrams, List.filterMap_append, List.filterMap_eq_nil_iff.mpr hnone,
    List.append_nil]
  rfl

/-- On the way from `epoll_wait` to the next reap: what arrived since, and that a short read has
left nothing but that. -/
structure Reading (u w : PingWorld) (since : List Datagram) : Prop where
  /-- The arrivals since. -/
  arrived : arrivedDatagrams w.trace = arrivedDatagrams u.trace ++ since
  /-- The control point. -/
  reads : w.pc.Reads w.kernel.rxQueue since

/-- A step that is no arrival keeps what arrived since, so only the place of the scanner is to be
shown. -/
theorem Reading.next {since : List Datagram} (h : Reading u w since) (hstep : PingStep P w l w')
    (hl : ∀ d, l ≠ .arrive d) (hreads : w'.pc.Reads w'.kernel.rxQueue since) :
    ∃ since, Reading u w' since :=
  ⟨since, (arrivedDatagrams_step hstep hl).trans h.arrived, hreads⟩

/-- A step up to the next reap keeps what is known of the queue: a drain that ends leaves only what
arrived since. -/
theorem Reading.step {since : List Datagram} (hsize : 0 < P.recvBatchSize) (harmed : Armed w)
    (h : Reading u w since) (hok : ReadsOn w l) (hstep : PingStep P w l w') :
    ∃ since, Reading u w' since := by
  have hquiet := h.next hstep
  have hreads := h.reads
  cases hstep with
  | tick => exact hquiet (by simp) hreads
  | arrive d =>
    refine ⟨since ++ [d], ?_, ?_⟩
    · have harrived : arrivedDatagrams (w.trace ++ [.arrived d w.kernel.clock]) =
          arrivedDatagrams w.trace ++ [d] := by
        simp [arrivedDatagrams, PingEvent.arrivedDatagram?]
      exact harrived.trans (by rw [h.arrived, List.append_assoc])
    · exact hreads.append d
  | pollReady => exact hquiet (by simp) trivial
  -- nothing was reported, and an armed registration then has nothing to report
  | pollTimeout hpc hnone =>
    refine hquiet (by simp) ?_
    show w.kernel.rxQueue <:+ since
    rw [harmed.queue_of_timeout hpc hnone]
    exact List.nil_suffix
  | pollFailed => exact absurd rfl hok.2.1
  | recvFailed => exact absurd rfl hok.1
  | recvZero _ hzero => exact absurd hzero hsize.ne'
  -- the drain ends here, with an empty queue
  | recvEmpty _ hqueue =>
    refine hquiet (by simp) ?_
    show w.kernel.rxQueue <:+ since
    rw [hqueue]
    exact List.nil_suffix
  | recvShort => exact hquiet (by simp) List.nil_suffix
  | recvFull => exact hquiet (by simp) trivial
  -- the message loop leaves the queue alone
  | message hpc hout =>
    rename_i full _ _ _ threw
    rw [hpc] at hreads
    refine hquiet (by simp) ?_
    cases threw with
    | true => exact trivial
    | false => cases full <;> exact hreads
  | batchDone hpc =>
    rename_i full
    rw [hpc] at hreads
    refine hquiet (by simp) ?_
    cases full <;> exact hreads
  | reap hpc => cases hok.2.2 hpc
  | waitThrew => exact hquiet (by simp) trivial
  -- control points that are not between the wait and the reap
  | enter hpc | leave hpc | populate hpc | sent hpc | again hpc | refused hpc | flushDone hpc
    | release hpc | rollbackDone hpc | writable hpc | notWritable hpc =>
    rw [hpc] at hreads
    exact hreads.elim

/-- On the way from `epoll_wait` to the next reap, what the queue held is read. -/
theorem reading_of_runs (hsize : 0 < P.recvBatchSize) (harmed : Armed u) (hpc : u.pc = .receive)
    (hw : Runs P.step ReadsOn u w) : Armed w ∧ ∃ since, Reading u w since := by
  have hstart : Reading u u [] := ⟨(List.append_nil _).symm, by rw [hpc]; trivial⟩
  refine hw.invariant (I := fun v => Armed v ∧ ∃ since, Reading u v since)
    ⟨harmed, [], hstart⟩ ?_
  rintro v l v' ⟨hv, since, hreading⟩ hok hstep
  exact ⟨hv.step hsize hok.1 (step_cases hstep),
    hreading.step hsize hv hok (step_cases hstep)⟩

/-- The scanner does not sleep on unread datagrams, although each edge is reported once. -/
structure NoLostWakeup (P : PingScanner) (s₀ : PingState) (k : PingKernel) : Prop where
  /-- When `epoll_wait` times out, nothing is in the queue. -/
  timeouts : ∀ {w w'}, Runs P.step Hears (start s₀ k) w →
    P.step w (.epollWait .timeout) = some w' → w.kernel.rxQueue = []
  /-- At a reap, nothing is in the queue but what arrived since the scanner last asked
  `epoll_wait`. -/
  prompt : ∀ {u w}, Runs P.step Hears (start s₀ k) u → u.pc = .receive →
    Runs P.step ReadsOn u w → w.pc = .reap →
      ∃ since, arrivedDatagrams w.trace = arrivedDatagrams u.trace ++ since ∧
        w.kernel.rxQueue <:+ since
  /-- When `run()` returns, the registration is armed for the next call. -/
  rearmed : ∀ {w failed}, Runs P.step Hears (start s₀ k) w → w.pc = .returned failed →
    w.kernel.rxQueue ≠ [] → w.kernel.rxEdge = true

/-- **No datagram is left behind an edge that was already reported**, whatever arrives and when: in
every run in which `recvmmsg` does not fail, with a batch that has room for a message, on a socket
whose unread datagrams have not been reported yet. -/
theorem no_lost_wakeup (P : PingScanner) (s₀ : PingState) {k : PingKernel}
    (hsize : 0 < P.recvBatchSize) (hk : k.rxQueue ≠ [] → k.rxEdge = true) :
    NoLostWakeup P s₀ k where
  timeouts := by
    intro w w' hw hstep
    have harmed := armed_of_runs hsize hk hw
    cases step_cases hstep with
    | pollTimeout hpc hnone => exact harmed.queue_of_timeout hpc hnone
  prompt := by
    intro u w hu hpc hw hreap
    obtain ⟨-, since, harrived, hreads⟩ :=
      reading_of_runs hsize (armed_of_runs hsize hk hu) hpc hw
    rw [hreap] at hreads
    exact ⟨since, harrived, hreads⟩
  rearmed := by
    intro w failed hw hpc
    exact armed_of_runs hsize hk hw (by rw [hpc]; trivial)

/-- A scanner with room for one message, on a socket with an unread datagram. -/
theorem no_lost_wakeup_single :
    NoLostWakeup
      (construct { baseIp := 167772168, totalHosts := 2, recvBatchSize := 1 } none none 7)
      (construct { baseIp := 167772168, totalHosts := 2, recvBatchSize := 1 } none none
        7).initializeBuffers
      { clock := {}, rxQueue := [⟨167772169, [], []⟩], rxEdge := true } :=
  no_lost_wakeup _ _ (by decide) fun _ => rfl

end PingScanner

end Netscan
