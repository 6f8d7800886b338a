import Netscan.Ping.Populate
import Netscan.Lib.History

/-! # Reading the trace of a ping run

The projections of a trace that the results are stated with, and what each step's events contribute
to them. -/

namespace Netscan

open MachineInt SlotTable History

/-- The address of an accepted request, if the event is one. -/
def PingEvent.acceptedIp? : PingEvent → Option ℕ
  | .accepted ip _ _ => some ip
  | _ => none

/-- The host that the cursor passed, if the event says so. -/
def PingEvent.reachedHost? : PingEvent → Option ℕ
  | .reached h _ => some h
  | _ => none

/-- The host whose reply was accepted, if the event says so. -/
def PingEvent.answeredIp? : PingEvent → Option ℕ
  | .answered ip _ => some ip
  | _ => none

namespace PingScanner

/-- The addresses of the accepted requests, in the order in which the kernel took them. -/
def acceptedIps (t : List PingEvent) : List ℕ := t.filterMap PingEvent.acceptedIp?

/-- The hosts that the cursor passed, in order, whether they were skipped or not. -/
def reachedHosts (t : List PingEvent) : List ℕ := t.filterMap PingEvent.reachedHost?

/-- The hosts whose replies were accepted, in the order of acceptance. -/
def answeredIps (t : List PingEvent) : List ℕ := t.filterMap PingEvent.answeredIp?

/-- The address to be probed for a host that the cursor passed. -/
def eligibleIp? (P : PingScanner) : PingEvent → Option ℕ
  | .reached h found =>
    if P.skipsLocal (P.baseIp + h) || found then none else some (P.baseIp + h)
  | _ => none

/-- The addresses to be probed, in the order in which the cursor passed them. -/
def eligibleIps (P : PingScanner) (t : List PingEvent) : List ℕ := t.filterMap P.eligibleIp?

variable {P : PingScanner} {s s' : PingState} {t u : List PingEvent} {e : PingEvent} {ip : ℕ}
  {w w' : PingWorld} {l : PingLabel}

theorem mem_acceptedIps :
    ip ∈ acceptedIps t ↔ ∃ sendTime began, .accepted ip sendTime began ∈ t := by
  constructor
  · intro h
    obtain ⟨e, he, hip⟩ := List.mem_filterMap.mp h
    cases e <;> simp only [PingEvent.acceptedIp?, Option.some.injEq, reduceCtorEq] at hip
    subst hip
    exact ⟨_, _, he⟩
  · rintro ⟨_, _, h⟩
    exact List.mem_filterMap.mpr ⟨_, h, rfl⟩

theorem mem_answeredIps : ip ∈ answeredIps t ↔ ∃ held, .answered ip held ∈ t := by
  constructor
  · intro h
    obtain ⟨e, he, hip⟩ := List.mem_filterMap.mp h
    cases e <;> simp only [PingEvent.answeredIp?, Option.some.injEq, reduceCtorEq] at hip
    subst hip
    exact ⟨_, he⟩
  · rintro ⟨_, h⟩
    exact List.mem_filterMap.mpr ⟨_, h, rfl⟩

/-- A host is eligible if the cursor passed it, it was not found by then and it is no address of the
local subnet itself. -/
theorem mem_eligibleIps : ip ∈ P.eligibleIps t ↔
    ∃ h, .reached h false ∈ t ∧ P.skipsLocal (P.baseIp + h) = false ∧ ip = P.baseIp + h := by
  constructor
  · intro hip
    obtain ⟨e, he, hip⟩ := List.mem_filterMap.mp hip
    cases e with
    | reached h found =>
      simp only [eligibleIp?] at hip
      split at hip
      · cases hip
      · rename_i hno
        simp only [Bool.or_eq_true, not_or, Bool.not_eq_true] at hno
        cases hip
        exact ⟨h, hno.2 ▸ he, hno.1, rfl⟩
    | _ => cases hip
  · rintro ⟨h, hmem, hlocal, rfl⟩
    exact List.mem_filterMap.mpr ⟨_, hmem, by simp [eligibleIp?, hlocal]⟩

/-! ### Events of a populated batch -/

theorem mem_reachedEvents (h : e ∈ P.reachedEvents s s') :
    ∃ i, e = .reached i (isHostFound s (u32 (P.baseIp + u32 i))) := by
  obtain ⟨i, -, rfl⟩ := List.mem_map.mp h
  exact ⟨i, rfl⟩

/-- The events of a batch are those of the hosts between the old cursor and the new one. -/
theorem reachedHosts_reachedEvents : reachedHosts (P.reachedEvents s s') =
    List.range' s.nextHostIdx (s'.nextHostIdx - s.nextHostIdx) := by
  rw [reachedHosts, reachedEvents, List.filterMap_map]
  exact List.filterMap_some

/-- The hosts that a batch adds to the eligible ones are those that it may claim slots for. -/
theorem eligibleIps_reachedEvents (hP : P.Ranged) (hle : s'.nextHostIdx ≤ P.totalHosts) :
    P.eligibleIps (P.reachedEvents s s') =
      P.eligible s.foundIpsCache s.nextHostIdx s'.nextHostIdx := by
  rw [eligibleIps, reachedEvents, List.filterMap_map, eligible, ← List.filterMap_eq_filter,
    List.map_filterMap]
  refine List.filterMap_congr fun h hmem => ?_
  have hlt : h < P.totalHosts := by
    have := List.mem_range'_1.mp hmem
    omega
  simp only [Function.comp_apply, eligibleIp?, target_eq hP hlt, isHostFound, Option.guard]
  by_cases hl : P.skipsLocal (P.baseIp + h) = true <;>
    by_cases hf : P.baseIp + h ∈ s.foundIpsCache <;> simp [hl, hf]

/-! ### Events of a send -/

/-- An accepted request is that of a message of the batch, with the address and the send time that
stand there. -/
theorem mem_acceptedEvents {clock : Timespec} {k n : ℕ} (h : e ∈ acceptedEvents s clock k n) :
    ∃ i, k ≤ i ∧ i < k + n ∧ e = .accepted (s.sendAddrs.getD i 0)
      (probeAt s (s.sendProbeSlots.getD i (-1)).toNat).sendTime clock := by
  obtain ⟨i, hi, rfl⟩ := List.mem_map.mp h
  obtain ⟨hlo, hhi⟩ := List.mem_range'_1.mp hi
  exact ⟨i, hlo, hhi, rfl⟩

/-- The requests of one `sendmmsg` call go to the next addresses of the batch. -/
theorem acceptedIps_acceptedEvents {clock : Timespec} {k n : ℕ} (h : k + n ≤ s.sendAddrs.length) :
    acceptedIps (acceptedEvents s clock k n) = (s.sendAddrs.drop k).take n := by
  rw [acceptedIps, acceptedEvents, List.filterMap_map]
  refine List.ext_getElem? fun i => ?_
  have hsome : (PingEvent.acceptedIp? ∘ fun i => PingEvent.accepted (s.sendAddrs.getD i 0)
      (probeAt s (s.sendProbeSlots.getD i (-1)).toNat).sendTime clock) =
      some ∘ fun i => s.sendAddrs.getD i 0 := rfl
  rw [hsome, List.filterMap_eq_map, List.getElem?_map, List.getElem?_take, List.getElem?_drop]
  by_cases hi : i < n
  · have hlt : k + i < s.sendAddrs.length := by omega
    rw [if_pos hi, List.getElem?_range' hi, Option.map_some, Nat.one_mul,
      List.getD_eq_getElem?_getD, List.getElem?_eq_getElem hlt, Option.getD_some]
  · rw [if_neg hi, List.getElem?_eq_none (by simpa using Nat.le_of_not_lt hi), Option.map_none]

/-! ### Events of a handled datagram -/

/-- The handling of a datagram records that it was handled, and at most one answer. -/
theorem mem_messageEvents {d : Datagram} (h : e ∈ P.messageEvents d s s') :
    e = .handled d ∨ ∃ ip held, e = .answered ip held := by
  rcases List.mem_cons.mp h with rfl | h
  · exact .inl rfl
  · split at h
    · exact .inr ⟨_, _, List.mem_singleton.mp h⟩
    · cases h

/-- What the handling of a datagram records: an acceptable one is answered, any other is not. -/
theorem SlotInv.messageEvents_cases (hP : P.Ranged) (h : P.SlotInv s) {recvNow : Timespec}
    {dns : Option String} {throws threw : Bool} {d : Datagram}
    (hout : P.receiveMessage recvNow dns throws d s = (s', threw)) :
    (¬ P.Acceptable s d ∧ s'.foundIpsCache = s.foundIpsCache ∧ threw = false ∧
      P.messageEvents d s s' = [.handled d]) ∨
    (P.Acceptable s d ∧ s'.foundIpsCache = s.foundIpsCache ++ [d.srcIp] ∧
      P.messageEvents d s s' = [.handled d, .answered d.srcIp (P.holdsSlot s d.srcIp)]) := by
  rcases h.receiveMessage_cases hP recvNow dns throws d with
    ⟨hacc, echo, unmatched, overflows, heq⟩ | ⟨hacc, echo, overflows, recvTs, ttl, heq⟩
  · rw [hout] at heq
    cases heq
    exact .inl ⟨hacc, rfl, rfl, by simp [PingScanner.messageEvents]⟩
  · have hs' : s'.foundIpsCache = s.foundIpsCache ++ [d.srcIp] := by
      have hs : (P.receiveMessage recvNow dns throws d s).1 = s' := congrArg Prod.fst hout
      rw [← hs, heq, report_fst]
      rfl
    refine .inr ⟨hacc, hs', ?_⟩
    simp [PingScanner.messageEvents, hs', hacc.1.2.2.1]

/-! ### Events of a reap -/

/-- A retirement is that of a slot which was active before the reap and is not so after it. -/
theorem mem_expiredEvents {now : Timespec} (h : e ∈ expiredEvents now s s') :
    ∃ i, (probeAt s i).active = true ∧ (probeAt s' i).active = false ∧
      e = .expired (probeAt s i).destIp (probeAt s i).sendTime now := by
  obtain ⟨i, -, hi⟩ := List.mem_filterMap.mp h
  split at hi
  · rename_i hcond
    simp only [Bool.and_eq_true, Bool.not_eq_true'] at hcond
    exact ⟨i, hcond.1, hcond.2, (Option.some.inj hi).symm⟩
  · cases hi

/-! ### What a step records -/

/-- The events that a step from `w` with label `l` may add to the trace. -/
def Records (w : PingWorld) (l : PingLabel) : PingEvent → Prop
  | .reached _ _ => w.pc = .sendBatch
  | .accepted _ _ began => (∃ n k, w.pc = .flush n k) ∧ began = w.kernel.clock
  | .sendError _ _ => ∃ n k, w.pc = .flush n k
  | .arrived d time => l = .arrive d ∧ time = w.kernel.clock
  | .looked | .recvError => w.pc = .receive ∨ w.pc = .drain
  | .handled _ | .answered _ _ => ∃ dns throws, l = .message dns throws
  | .expired _ _ now => w.pc = .reap ∧ now = w.kernel.clock

/-- A step appends to the trace what it may record, and nothing else. -/
theorem records_step (h : PingStep P w l w') :
    ∃ u, w'.trace = w.trace ++ u ∧ ∀ e ∈ u, Records w l e := by
  cases h with
  | arrive d => exact ⟨_, rfl, by simp [Records]⟩
  | refused hpc => exact ⟨_, rfl, by simp [Records, hpc]⟩
  | pollTimeout hpc => exact ⟨_, rfl, by simp [Records, hpc]⟩
  | recvFailed hpc | recvEmpty hpc | recvShort hpc => exact ⟨_, rfl, by simp [Records, hpc]⟩
  -- each of these steps records events of its own kind, from its own control point
  | populate hpc =>
    refine ⟨_, rfl, ?_⟩
    intro e he
    obtain ⟨i, rfl⟩ := mem_reachedEvents he
    exact hpc
  | sent hpc =>
    refine ⟨_, rfl, ?_⟩
    intro e he
    obtain ⟨i, -, -, rfl⟩ := mem_acceptedEvents he
    exact ⟨⟨_, _, hpc⟩, rfl⟩
  | message =>
    refine ⟨_, rfl, ?_⟩
    intro e he
    obtain rfl | ⟨_, _, rfl⟩ := mem_messageEvents he <;> exact ⟨_, _, rfl⟩
  | reap hpc =>
    refine ⟨_, rfl, ?_⟩
    intro e he
    obtain ⟨i, -, -, rfl⟩ := mem_expiredEvents he
    exact ⟨hpc, rfl⟩
  | _ => exact ⟨[], (List.append_nil _).symm, by simp⟩

/-- An event of the trace was there before the step, or the step records it. -/
theorem mem_trace_step (h : PingStep P w l w') (he : e ∈ w'.trace) :
    e ∈ w.trace ∨ Records w l e := by
  obtain ⟨u, htrace, hu⟩ := records_step h
  rw [htrace] at he
  exact (List.mem_append.mp he).imp id (hu e)

/-- The trace only grows, so what was recorded once stays recorded. -/
theorem subset_trace_step (h : PingStep P w l w') : ∀ e ∈ w.trace, e ∈ w'.trace := by
  obtain ⟨u, htrace, -⟩ := records_step h
  rw [htrace]
  exact fun e he => List.mem_append_left u he

/-- A requirement on the events of a trace is kept if the events that a step records meet it. -/
theorem always_step {Q : List PingEvent → PingEvent → Prop} (h : PingStep P w l w')
    (hQ : Always Q w.trace) (hnew : ∀ pre e, Records w l e → Q pre e) : Always Q w'.trace := by
  obtain ⟨u, htrace, hu⟩ := records_step h
  rw [htrace]
  exact hQ.append_of_forall fun e he pre => hnew pre e (hu e he)

end PingScanner

end Netscan
