import Netscan.Ping.FullWait

/-! # The balance of the probes

A request that the kernel accepted ends in one of two ways: its slot is reaped, or it is given back
to a reply. Until then its slot is active. `Accounted` says this of all requests at once: the
addresses of the accepted requests and of those that still wait in the batch are, up to the order,
the hosts of the active slots and the hosts that are settled. Counting both sides gives the balance
of the counters. -/

namespace Netscan

open MachineInt SlotTable LabelledSystem History

/-- The host whose probe was reaped, if the event is a reap. -/
def PingEvent.timedOutIp? : PingEvent → Option ℕ
  | .expired ip _ _ => some ip
  | _ => none

/-- The host whose reply was accepted while its slot was still active; a late reply settles
nothing. -/
def PingEvent.inTimeIp? : PingEvent → Option ℕ
  | .answered ip true => some ip
  | _ => none

/-- The host whose slot was given back by one of the two, the reap or a reply in time. -/
def PingEvent.settledIp? : PingEvent → Option ℕ
  | .expired ip _ _ => some ip
  | .answered ip true => some ip
  | _ => none

namespace PingScanner

variable {P : PingScanner} {s s' s₀ : PingState} {k : PingKernel} {w w' : PingWorld}
  {l : PingLabel} {t : List PingEvent} {ip : ℕ}

/-- The hosts whose probes were reaped, in order, one for each count of `probe_timeouts_`. -/
def timedOutIps (t : List PingEvent) : List ℕ := t.filterMap PingEvent.timedOutIp?

/-- The hosts whose replies were accepted while their slots were active, in order. -/
def inTimeIps (t : List PingEvent) : List ℕ := t.filterMap PingEvent.inTimeIp?

/-- The hosts whose slots were given back, in order, for whichever of the two reasons. -/
def settledIps (t : List PingEvent) : List ℕ := t.filterMap PingEvent.settledIp?

/-- Settled hosts have timed out or were answered in time, and never both at once. -/
theorem settledIps_perm (t : List PingEvent) :
    (settledIps t).Perm (timedOutIps t ++ inTimeIps t) := by
  apply filterMap_perm_append
  intro e _
  cases e with
  | expired ip ts now => exact .inl ⟨rfl, rfl⟩
  | answered ip held =>
    cases held with
    | true => exact .inr ⟨rfl, rfl⟩
    | false => exact .inl ⟨rfl, rfl⟩
  | _ => exact .inl ⟨rfl, rfl⟩

/-- The retirements that are counted are those of the timed out hosts, one each. -/
theorem length_timedOutIps (t : List PingEvent) :
    (timedOutIps t).length = t.countP PingEvent.isExpired := by
  rw [timedOutIps, List.length_filterMap_eq_countP]
  apply List.countP_congr
  intro e _
  cases e <;> simp [PingEvent.timedOutIp?, PingEvent.isExpired]

/-! ### What a step settles -/

/-- Populating adds the hosts of the batch to those that hold slots. By the uniqueness of the hosts
on both sides it is enough to compare members. -/
theorem Populated.keys_perm {ts : Timespec} {n : ℕ} (hslot : P.SlotInv s)
    (hfresh : P.CursorFresh s) (h : P.Populated ts s s' n) :
    (keys ProbeInfo.held s'.probeTable).Perm
      (s'.sendAddrs.take n ++ keys ProbeInfo.held s.probeTable) := by
  have heligible : (s'.sendAddrs.take n).Nodup := by
    rw [h.addrs, eligible]
    refine List.Nodup.map (fun a b hab => Nat.add_left_cancel hab) ?_
    exact (List.nodup_range' ..).filter _
  -- hosts of the batch lie behind the cursor, and hosts that hold slots before it
  have hdisjoint : ∀ ip ∈ s'.sendAddrs.take n, ip ∉ keys ProbeInfo.held s.probeTable := by
    intro ip hip hkey
    rw [h.addrs, eligible] at hip
    obtain ⟨j, hj, rfl⟩ := List.mem_map.mp hip
    have hlo := (List.mem_range'_1.mp (List.mem_of_mem_filter hj)).1
    obtain ⟨i, p, hi, hheld⟩ := mem_keys.mp hkey
    have hback := (hslot.linked _ i).mpr ⟨p, hi, hheld⟩
    have hlt := hfresh (P.baseIp + j) (by rw [hback]; simp)
    omega
  have hnodup : (s'.sendAddrs.take n ++ keys ProbeInfo.held s.probeTable).Nodup :=
    List.nodup_append.mpr ⟨heligible, hslot.linked.keys_nodup, fun a ha b hb hab =>
      hdisjoint a ha (hab ▸ hb)⟩
  rw [List.perm_ext_iff_of_nodup h.slotInv.linked.keys_nodup hnodup]
  intro ip
  rw [List.mem_append, mem_keys, mem_keys]
  constructor
  · rintro ⟨i, p, hi, hheld⟩
    obtain ⟨hp, rfl⟩ := ProbeInfo.held_eq_some.mp hheld
    rcases h.new i p hi hp with hold | ⟨-, hmem⟩
    · exact .inr ⟨i, p, hold, hheld⟩
    · exact .inl hmem
  · rintro (hmem | ⟨i, p, hi, hheld⟩)
    · obtain ⟨j, hj⟩ := List.mem_iff_getElem?.mp hmem
      have hjn : j < n := by
        have hlt := (List.getElem?_eq_some_iff.mp hj).1
        rw [List.length_take] at hlt
        omega
      obtain ⟨p, ⟨hp, haddr, slot, -, htable⟩, -⟩ := h.staged j hjn
      rw [List.getElem?_take_of_lt hjn, haddr] at hj
      exact ⟨slot, p, htable, ProbeInfo.held_eq_some.mpr ⟨hp, Option.some.inj hj⟩⟩
    · exact ⟨i, p, h.kept i p hi (ProbeInfo.held_eq_some.mp hheld).1, hheld⟩

/-- Slots that a function gives back between two states hold the hosts that are recorded as
expired. -/
theorem keys_perm_expired {gone : ProbeInfo → Prop} (h : Releases gone s s')
    (hlen : s'.probeTable.length = s.probeTable.length) (now : Timespec) :
    (keys ProbeInfo.held s.probeTable).Perm
      (keys ProbeInfo.held s'.probeTable ++ timedOutIps (expiredEvents now s s')) := by
  rw [keys_eq_filterMap_range ProbeInfo.held s.probeTable {},
    keys_eq_filterMap_range ProbeInfo.held s'.probeTable {}, hlen, timedOutIps, expiredEvents,
    List.filterMap_filterMap]
  apply filterMap_perm_append
  intro i hi
  have hlt := List.mem_range.mp hi
  show (((probeAt s' i).held = (probeAt s i).held) ∧ _) ∨ (probeAt s' i).held = none ∧ _
  cases hafter : (probeAt s' i).active with
  | true =>
    -- the entry is still active, so it is the entry from before
    have hi' : s'.probeTable[i]? = some (probeAt s' i) := by
      rw [probeAt, List.getD_eq_getElem?_getD, List.getElem?_eq_getElem (by omega)]
      rfl
    have hsame : probeAt s i = probeAt s' i := probeAt_of_getElem? (h.kept i _ hi' hafter)
    left
    rw [hsame]
    simp [hafter]
  | false =>
    right
    refine ⟨ProbeInfo.held_eq_none.mpr hafter, ?_⟩
    show Option.bind (if (probeAt s i).active && !false then
      some (PingEvent.expired (probeAt s i).destIp (probeAt s i).sendTime now) else none)
      PingEvent.timedOutIp? = (probeAt s i).held
    cases hbefore : (probeAt s i).active with
    | true => exact (ProbeInfo.held_eq_some.mpr ⟨hbefore, rfl⟩).symm
    | false => exact (ProbeInfo.held_eq_none.mpr hbefore).symm

/-- A reap records nothing but retirements, so all that it settles has timed out. -/
theorem settledIps_expiredEvents (now : Timespec) :
    settledIps (expiredEvents now s s') = timedOutIps (expiredEvents now s s') := by
  apply List.filterMap_congr
  intro e he
  obtain ⟨i, -, -, rfl⟩ := mem_expiredEvents he
  rfl

/-- The reap keeps the size of the table, as it only rewrites entries. -/
theorem length_probeTable_reap (P : PingScanner) (now : Timespec) (s : PingState) :
    (P.reapTimedOutProbes now s).probeTable.length = s.probeTable.length := by
  refine List.foldlRecOn
    (motive := fun u : PingState => u.probeTable.length = s.probeTable.length) _ _ rfl ?_
  intro u hu i _
  rw [← hu]
  unfold reapSlot
  dsimp only
  split_ifs <;> simp

/-- Under the invariant, a host holds a slot exactly when it has a back-pointer, which is what the
source looks at. -/
theorem SlotInv.holdsSlot_eq (hP : P.Ranged) (h : P.SlotInv s) (hlo : P.baseIp ≤ ip)
    (hhi : ip < P.baseIp + P.totalHosts) :
    P.holdsSlot s ip = (backPointers P.baseIp s.hostToProbe ip).isSome := by
  have hip : P.baseIp + (ip - P.baseIp) = ip := by omega
  have hidx := hostIndexForIp_of_mem hP hlo hhi
  have hnonneg := slotOfHost_nonneg_iff (P := P) (s := s) (ip - P.baseIp)
  rw [hip] at hnonneg
  rw [holdsSlot, hidx, Int.toNat_natCast]
  cases hback : backPointers P.baseIp s.hostToProbe ip with
  | none =>
    rw [hback] at hnonneg
    simp [hnonneg]
  | some i =>
    obtain ⟨p, hi, hheld⟩ := (h.linked ip i).mp hback
    obtain ⟨-, -, hv⟩ := range_of_backPointers hback
    have hslot : slotOfHost s (ip - P.baseIp) = (i : ℤ) := by
      rw [slotOfHost, List.getD_eq_getElem?_getD, hv]
      rfl
    rw [hslot, Int.toNat_natCast, probeAt_of_getElem? hi, (ProbeInfo.held_eq_some.mp hheld).1]
    simp

/-- Handling a datagram settles the host whose slot it gives back. A datagram that is refused, or
late, gives none back. -/
theorem SlotInv.keys_perm_message (hP : P.Ranged) (h : P.SlotInv s) {recvNow : Timespec}
    {dns : Option String} {throws threw : Bool} {d : Datagram}
    (hout : P.receiveMessage recvNow dns throws d s = (s', threw)) :
    (keys ProbeInfo.held s.probeTable).Perm
      (keys ProbeInfo.held s'.probeTable ++ settledIps (P.messageEvents d s s')) := by
  have hs' : (P.receiveMessage recvNow dns throws d s).1 = s' := congrArg Prod.fst hout
  rcases h.receiveMessage_cases hP recvNow dns throws d with
    ⟨-, echo, unmatched, overflows, heq⟩ | ⟨hacc, echo, overflows, recvTs, ttl, heq⟩
  -- a datagram that is not accepted changes counters only
  · rw [heq] at hs'
    subst hs'
    rw [PingScanner.messageEvents, if_neg (Nat.lt_irrefl _)]
    exact .of_eq (List.append_nil _).symm
  · rw [heq, report_fst] at hs'
    have hevents : settledIps (P.messageEvents d s s') =
        if P.holdsSlot s d.srcIp then [d.srcIp] else [] := by
      rcases h.messageEvents_cases hP hout with ⟨hnot, -, -, -⟩ | ⟨-, -, hev⟩
      · exact absurd hacc hnot
      · rw [hev]
        cases hheld : P.holdsSlot s d.srcIp <;> rfl
    rw [hevents, h.holdsSlot_eq hP hacc.2.1 hacc.2.2.1, ← hs']
    dsimp only
    unfold PingScanner.foundState
    -- an accepted one gives a slot back if its host still holds one
    cases hback : backPointers P.baseIp s.hostToProbe d.srcIp with
    | none => simp
    | some i =>
      obtain ⟨p, hi, hheld⟩ := (h.linked _ i).mp hback
      have hfreed : ({ p with active := false } : ProbeInfo).held = none := rfl
      have hrelease := keys_release hi hheld hfreed
      simp only [Option.isSome_some, if_true]
      have hfree : (P.freeSlot i { s with
          echoReplies := echo
          rxQueueOverflows := overflows }).probeTable =
          s.probeTable.set i { p with active := false } := by
        have hi' : { s with echoReplies := echo, rxQueueOverflows := overflows }.probeTable[i]? =
          some p := hi
        simp only [PingScanner.freeSlot, probeAt_of_getElem? hi']
      rw [hfree]
      exact hrelease.trans (List.perm_append_singleton _ _).symm

/-! ### The invariant -/

/-- Every request, accepted or waiting, has an active slot or is settled. This is the balance in the
middle of a run. -/
def Accounted (w : PingWorld) : Prop :=
  (acceptedIps w.trace ++ pending w).Perm
    (keys ProbeInfo.held w.st.probeTable ++ settledIps w.trace)

/-- Events without a reading add nothing to a list of readings, whatever the reading is. -/
theorem filterMap_append_of_none {f : PingEvent → Option ℕ} {u : List PingEvent}
    (hu : ∀ e ∈ u, f e = none) : (t ++ u).filterMap f = t.filterMap f := by
  rw [List.filterMap_append, List.filterMap_eq_nil_iff.mpr hu, List.append_nil]

/-- Steps that leave the table alone, and neither send nor settle, keep the account. -/
theorem Accounted.quiet (h : Accounted w) (htable : w'.st.probeTable = w.st.probeTable)
    (hpending : pending w' = pending w) {u : List PingEvent} (htrace : w'.trace = w.trace ++ u)
    (hu : ∀ e ∈ u, e.acceptedIp? = none ∧ e.settledIp? = none) : Accounted w' := by
  have haccepted : acceptedIps w'.trace = acceptedIps w.trace := by
    rw [htrace]
    exact filterMap_append_of_none fun e he => (hu e he).1
  have hsettled : settledIps w'.trace = settledIps w.trace := by
    rw [htrace]
    exact filterMap_append_of_none fun e he => (hu e he).2
  rw [Accounted, haccepted, hpending, htable, hsettled]
  exact h

/-- Steps outside of a flush that give slots back and settle their hosts keep the account. -/
theorem Accounted.settle (h : Accounted w) (hpending : pending w' = pending w)
    {u : List PingEvent} (htrace : w'.trace = w.trace ++ u)
    (hu : ∀ e ∈ u, e.acceptedIp? = none)
    (hkeys : (keys ProbeInfo.held w.st.probeTable).Perm
      (keys ProbeInfo.held w'.st.probeTable ++ settledIps u)) : Accounted w' := by
  have haccepted : acceptedIps w'.trace = acceptedIps w.trace := by
    rw [htrace]
    exact filterMap_append_of_none hu
  have hsettled : settledIps w'.trace = settledIps w.trace ++ settledIps u := by
    rw [htrace, settledIps, List.filterMap_append]
    rfl
  rw [Accounted, haccepted, hpending, hsettled]
  refine h.trans ((hkeys.append_right _).trans ?_)
  rw [List.append_assoc]
  exact List.perm_append_comm.append_left _

/-- Populating keeps the account: the hosts of the batch wait to be sent to. -/
theorem Accounted.populate (hslot : P.SlotInv w.st) (hfresh : P.CursorFresh w.st)
    (h : Accounted w) (hpc : w.pc = .sendBatch) {n : ℕ}
    (hpop : P.Populated w.kernel.clock w.st s n) :
    Accounted { w with
      st := s
      pc := if n = 0 then .receive else .flush n 0
      trace := w.trace ++ P.reachedEvents w.st s } := by
  have hnone : ∀ e ∈ P.reachedEvents w.st s, e.acceptedIp? = none ∧ e.settledIp? = none := by
    intro e he
    obtain ⟨i, rfl⟩ := mem_reachedEvents he
    exact ⟨rfl, rfl⟩
  have hpending : pending { w with
      st := s
      pc := if n = 0 then .receive else .flush n 0
      trace := w.trace ++ P.reachedEvents w.st s } = s.sendAddrs.take n := by
    rw [pending]
    by_cases hn : n = 0
    · simp [hn, PingPc.batch?]
    · simp [hn, PingPc.batch?]
  have hbefore := h
  rw [Accounted, pending_eq_nil (by rw [hpc]; rfl), List.append_nil] at hbefore
  rw [Accounted, hpending, acceptedIps, filterMap_append_of_none fun e he => (hnone e he).1,
    settledIps, filterMap_append_of_none fun e he => (hnone e he).2]
  -- before the batch nothing waits; the hosts of the batch are new on both sides
  refine (hbefore.append_right _).trans (List.perm_append_comm.trans ?_)
  rw [← List.append_assoc]
  exact (hpop.keys_perm hslot hfresh).symm.append_right _

/-- Every step that does not fail comes from a state without a failure and keeps the account. -/
theorem Accounted.step (hP : P.Ranged) (hslot : P.SlotInv w.st) (hcover : P.CoverInv w)
    (h : w.pc.isFailing = false → Accounted w) (hstep : PingStep P w l w')
    (hpc' : w'.pc.isFailing = false) : Accounted w' := by
  cases hstep with
  -- a batch adds requests, `sendmmsg` moves them, a reply or a reap settles them
  | populate hpc hout =>
    have hfresh := hcover.fresh (by rw [hpc]; rfl)
    exact (h (by rw [hpc]; rfl)).populate hslot hfresh hpc
      (populated_populateBatchEntries hP hslot hfresh hout)
  | @sent n k count hpc hpos hle =>
    have hbefore := h (by rw [hpc]; rfl)
    have hsettled : settledIps (acceptedEvents w.st w.kernel.clock k count) = [] := by
      apply List.filterMap_eq_nil_iff.mpr
      intro e he
      obtain ⟨i, -, -, rfl⟩ := mem_acceptedEvents he
      rfl
    rw [Accounted, accepted_append_pending hpc hle (hcover.batch n k (by rw [hpc]; rfl)).2]
    dsimp only
    rw [settledIps, List.filterMap_append]
    show List.Perm _ (_ ++ (settledIps w.trace ++ settledIps _))
    rw [hsettled, List.append_nil]
    exact hbefore
  | @message d _ _ dns throws hpc _ _ hout =>
    refine (h (by rw [hpc]; rfl)).settle ?_ rfl ?_ (hslot.keys_perm_message hP hout)
    · rw [pending_eq_nil (w := w) (by rw [hpc]; rfl)]
      apply pending_eq_nil
      dsimp only
      split <;> rfl
    · intro e he
      obtain rfl | ⟨_, _, rfl⟩ := mem_messageEvents he <;> rfl
  | reap hpc hout =>
    subst hout
    refine (h (by rw [hpc]; rfl)).settle ?_ rfl ?_ ?_
    · rw [pending_eq_nil (w := w) (by rw [hpc]; rfl)]
      exact pending_eq_nil rfl
    · intro e he
      obtain ⟨i, -, -, rfl⟩ := mem_expiredEvents he
      rfl
    · rw [settledIps_expiredEvents]
      exact keys_perm_expired (hslot.releases_reap hP _ _) (length_probeTable_reap P _ _) _
  | @flushDone n k hpc hle =>
    refine (h (by rw [hpc]; rfl)).quiet rfl ?_ (List.append_nil _).symm (by simp)
    have hnil : pending w = [] := by
      rw [pending, hpc]
      exact List.drop_eq_nil_of_le (le_trans (List.length_take_le _ _) hle)
    rw [hnil]
    exact pending_eq_nil rfl
  -- the other steps leave table, batch and account alone
  | tick => exact (h hpc').quiet rfl rfl (List.append_nil _).symm (by simp)
  | arrive =>
    exact (h hpc').quiet rfl rfl rfl (by simp [PingEvent.acceptedIp?, PingEvent.settledIp?])
  | refused | notWritable | waitThrew | release | rollbackDone => cases hpc'
  | again hpc | writable hpc =>
    refine (h (by rw [hpc]; rfl)).quiet rfl ?_ (List.append_nil _).symm (by simp)
    rw [pending, pending, hpc]
    rfl
  | @batchDone full hpc =>
    refine (h (by rw [hpc]; rfl)).quiet rfl ?_ (List.append_nil _).symm (by simp)
    rw [pending_eq_nil (w := w) (by rw [hpc]; rfl)]
    apply pending_eq_nil
    cases full <;> rfl
  | enter hpc | leave hpc | pollReady hpc | pollFailed hpc | recvZero hpc | recvFull hpc =>
    refine (h (by rw [hpc]; rfl)).quiet rfl ?_ (List.append_nil _).symm (by simp)
    rw [pending_eq_nil (w := w) (by rw [hpc]; rfl)]
    exact pending_eq_nil rfl
  | pollTimeout hpc | recvFailed hpc | recvEmpty hpc | recvShort hpc =>
    refine (h (by rw [hpc]; rfl)).quiet rfl ?_ rfl
      (by simp [PingEvent.acceptedIp?, PingEvent.settledIp?])
    rw [pending_eq_nil (w := w) (by rw [hpc]; rfl)]
    exact pending_eq_nil rfl

/-- **Requests are accounted for** in every reachable state without a send failure. -/
theorem accounted_of_reachable (hP : P.Ranged) (hs : P.Sized s₀)
    (hw : Reachable P.step (start s₀ k) w) (hpc : w.pc.isFailing = false) : Accounted w := by
  refine hw.invariant_of_runs (I := fun w => w.pc.isFailing = false → Accounted w) ?_ ?_ hpc
  · intro _
    have hnil : keys ProbeInfo.held (beginRun s₀).probeTable = [] :=
      keys_eq_nil (by simp [beginRun])
    show List.Perm ([] : List ℕ) (keys ProbeInfo.held (beginRun s₀).probeTable ++ [])
    rw [hnil]
    exact .refl _
  · intro u l v hreach h _ hstep
    exact Accounted.step hP (slotInv_of_reachable hP hs hreach)
      (coverInv_of_reachable hP hs hreach) h (step_cases hstep)

/-! ### Timeouts are of requests that were sent -/

/-- Only a reap records timeouts, so every other step leaves their list alone. -/
theorem timedOutIps_step (h : PingStep P w l w') (hreap : w.pc = .reap → l ≠ .run) :
    timedOutIps w'.trace = timedOutIps w.trace := by
  obtain ⟨u, htrace, hu⟩ := records_step h
  have hnone : ∀ e ∈ u, e.timedOutIp? = none := by
    intro e he
    have hrec := hu e he
    cases e with
    | expired ip ts now =>
      exfalso
      -- at this point the scanner can only reap, and the environment records no timeouts
      cases h with
      | tick => simp at htrace; simp [htrace] at he
      | arrive => simp at htrace; simp [← htrace] at he
      | reap hpc => exact hreap hpc rfl
      | _ => simp_all [Records]
    | _ => rfl
  rw [htrace]
  exact filterMap_append_of_none hnone

/-! ### A rollback -/

/-- During a rollback the account is kept with the messages that are not released yet, and so it is
settled when the run returns. -/
structure Unwound (w : PingWorld) : Prop where
  /-- The rollback starts behind the messages that are sent. -/
  behind : ∀ n k i, w.pc = .rollback n k i → k ≤ i
  /-- The messages that are not released yet have their probes. -/
  staged : ∀ n k i, w.pc = .rollback n k i → ∀ j, i ≤ j → j < n → ∃ p, Staged w.st j p
  /-- Every request, accepted or not released yet, has an active slot or is settled. -/
  waiting : ∀ n k i, w.pc = .rollback n k i →
    (acceptedIps w.trace ++ (w.st.sendAddrs.take n).drop i).Perm
      (keys ProbeInfo.held w.st.probeTable ++ settledIps w.trace)
  /-- Every accepted request has an active slot or is settled. -/
  done : w.pc = .returned true → (acceptedIps w.trace).Perm
    (keys ProbeInfo.held w.st.probeTable ++ settledIps w.trace)

/-- Outside of a rollback there is nothing to show, and behind one only at the return. -/
theorem Unwound.idle (hroll : ∀ n k i, w.pc ≠ .rollback n k i) (hret : w.pc ≠ .returned true) :
    Unwound w :=
  ⟨fun n k i h => absurd h (hroll n k i), fun n k i h => absurd h (hroll n k i),
    fun n k i h => absurd h (hroll n k i), fun h => absurd h hret⟩

/-- The rollback starts with the account of the flush: the messages that wait are those it will
release. -/
theorem Accounted.rollback (h : Accounted w) (hledger : P.LedgerInv w) {n k : ℕ}
    (hbatch : w.pc.batch? = some (n, k)) (hsending : w.pc.sending? = some n) (kernel : PingKernel)
    {u : List PingEvent} (hu : ∀ e ∈ u, e.acceptedIp? = none ∧ e.settledIp? = none) :
    Unwound { w with pc := .rollback n k k, kernel := kernel, trace := w.trace ++ u } where
  behind := by
    intro n' k' i hpc
    cases hpc
    exact le_rfl
  staged := by
    intro n' k' i hpc j _ hj
    cases hpc
    exact hledger.staged n hsending j hj
  -- what waits is the part of the batch that the rollback has before it
  waiting := by
    intro n' k' i hpc
    cases hpc
    have hpending : pending w = (w.st.sendAddrs.take n).drop k := by
      rw [pending, hbatch]
    have hquiet : Accounted { w with trace := w.trace ++ u } := h.quiet rfl rfl rfl hu
    rw [Accounted] at hquiet
    rw [← hpending]
    exact hquiet
  done := by
    intro hpc
    cases hpc

/-- Releasing the slot of a message takes the message out of the account. -/
theorem Unwound.release (hP : P.Ranged) (hslot : P.SlotInv w.st) (hcover : P.CoverInv w)
    (h : Unwound w) {n k i : ℕ} (hpc : w.pc = .rollback n k i) (hlt : i < n) :
    Unwound { w with
      st := { P.releaseProbeSlot (w.st.sendProbeSlots.getD i (-1)) w.st with
        sendProbeSlots :=
          (P.releaseProbeSlot (w.st.sendProbeSlots.getD i (-1)) w.st).sendProbeSlots.set i (-1) }
      pc := .rollback n k (i + 1) } := by
  obtain ⟨p, hp, haddr, slot, hslotAt, htable⟩ := h.staged n k i hpc i le_rfl hlt
  have hheld : p.held = some p.destIp := ProbeInfo.held_eq_some.mpr ⟨hp, rfl⟩
  have hfreed : ({ p with active := false } : ProbeInfo).held = none := rfl
  have hnext : w.st.sendProbeSlots.getD i (-1) = (slot : ℤ) := by
    rw [List.getD_eq_getElem?_getD, hslotAt]
    rfl
  have htake : (w.st.sendAddrs.take n)[i]? = some p.destIp := by
    rw [List.getElem?_take_of_lt hlt, haddr]
  -- the messages that wait are pairwise distinct, so the others keep their slots
  have hne : ∀ j, i < j → j < n → w.st.sendAddrs[j]? ≠ some p.destIp := by
    intro j hij hj hsame
    have hpending : pending w = (w.st.sendAddrs.take n).drop k := by
      rw [pending, hpc]
      rfl
    have hnodup : ((w.st.sendAddrs.take n).drop k).Nodup := by
      have hsent := hcover.sent (by rw [hpc]; rfl)
      have hpairwise := hcover.pairwise_eligibleIps
      rw [← hsent, hpending] at hpairwise
      exact (List.pairwise_append.mp hpairwise).2.1.imp fun hlt => Nat.ne_of_lt hlt
    have hk := h.behind n k i hpc
    rw [List.Nodup, List.pairwise_iff_getElem] at hnodup
    have hi : ((w.st.sendAddrs.take n).drop k)[i - k]? = some p.destIp := by
      rw [List.getElem?_drop, Nat.add_sub_cancel' hk, htake]
    have hj' : ((w.st.sendAddrs.take n).drop k)[j - k]? = some p.destIp := by
      rw [List.getElem?_drop, Nat.add_sub_cancel' (by omega), List.getElem?_take_of_lt hj, hsame]
    obtain ⟨hi₁, hi₂⟩ := List.getElem?_eq_some_iff.mp hi
    obtain ⟨hj₁, hj₂⟩ := List.getElem?_eq_some_iff.mp hj'
    exact hnodup (i - k) (j - k) hi₁ hj₁ (by omega) (hi₂.trans hj₂.symm)
  rw [hnext, hslot.releaseProbeSlot_eq hP htable hp]
  refine ⟨?_, ?_, ?_, ?_⟩
  · intro n' k' i' heq
    cases heq
    exact Nat.le_succ_of_le (h.behind n k i hpc)
  · intro n' k' i' heq j hj hjn
    cases heq
    obtain ⟨q, hq, hqaddr, b, hb, hqtable⟩ := h.staged n k i hpc j (by omega) hjn
    refine ⟨q, hq, hqaddr, b, ?_, ?_⟩
    · show (w.st.sendProbeSlots.set i (-1))[j]? = _
      rw [List.getElem?_set_ne (by omega), hb]
    · have hbne : slot ≠ b := by
        rintro rfl
        rw [htable] at hqtable
        cases hqtable
        exact hne j hj hjn hqaddr
      show (w.st.probeTable.set slot _)[b]? = _
      rw [List.getElem?_set_ne hbne, hqtable]
  · intro n' k' i' heq
    cases heq
    have hbefore := h.waiting n k i hpc
    have hdrop : (w.st.sendAddrs.take n).drop i =
        p.destIp :: (w.st.sendAddrs.take n).drop (i + 1) := by
      obtain ⟨hlen, hget⟩ := List.getElem?_eq_some_iff.mp htake
      rw [List.drop_eq_getElem_cons hlen, hget]
    have hrelease := keys_release htable hheld hfreed
    rw [hdrop] at hbefore
    have hall := List.perm_middle.symm.trans (hbefore.trans (hrelease.append_right _))
    rw [List.cons_append] at hall
    simp only [PingScanner.freeSlot, probeAt_of_getElem? htable]
    exact hall.cons_inv
  · intro heq
    cases heq

/-- Every step keeps the account of a rollback. It is opened by the two ways in which a flush fails,
and closed at the return. -/
theorem Unwound.step (hP : P.Ranged) (hs : P.Sized s₀) (hw : Reachable P.step (start s₀ k) w)
    (h : Unwound w) (hstep : PingStep P w l w') : Unwound w' := by
  have hslot := slotInv_of_reachable hP hs hw
  have hcover := coverInv_of_reachable hP hs hw
  cases hstep with
  -- the two ways into a rollback
  | refused hpc =>
    have hnot : w.pc.isFailing = false := by rw [hpc]; rfl
    refine (accounted_of_reachable hP hs hw hnot).rollback (ledgerInv_of_reachable hP hs hw hnot)
      (by rw [hpc]; rfl) (by rw [hpc]; rfl) _ ?_
    simp [PingEvent.acceptedIp?, PingEvent.settledIp?]
  | @notWritable n k _ _ _ hpc =>
    have hnot : w.pc.isFailing = false := by rw [hpc]; rfl
    have hroll := (accounted_of_reachable hP hs hw hnot).rollback
      (ledgerInv_of_reachable hP hs hw hnot) (n := n) (k := k) (by rw [hpc]; rfl)
      (by rw [hpc]; rfl) { w.kernel with rxEdge := !w.kernel.rxQueue.isEmpty } (u := []) (by simp)
    rw [List.append_nil] at hroll
    exact hroll
  -- the rollback itself, and its end, where nothing waits any more
  | release hpc hlt hout =>
    subst hout
    exact h.release hP hslot hcover hpc hlt
  | @rollbackDone n k i hpc hle =>
    refine ⟨?_, ?_, ?_, ?_⟩
    · intro n' k' i' heq
      cases heq
    · intro n' k' i' heq
      cases heq
    · intro n' k' i' heq
      cases heq
    · intro _
      have hwait := h.waiting n k i hpc
      rw [List.drop_eq_nil_of_le (le_trans (List.length_take_le _ _) hle), List.append_nil] at hwait
      exact hwait
  | tick => exact ⟨h.behind, h.staged, h.waiting, h.done⟩
  | @arrive d =>
    have haccepted : acceptedIps (w.trace ++ [.arrived d w.kernel.clock]) = acceptedIps w.trace :=
      filterMap_append_of_none (by simp [PingEvent.acceptedIp?])
    have hsettled : settledIps (w.trace ++ [.arrived d w.kernel.clock]) = settledIps w.trace :=
      filterMap_append_of_none (by simp [PingEvent.settledIp?])
    refine ⟨h.behind, h.staged, ?_, ?_⟩
    · intro n k i hpc
      rw [haccepted, hsettled]
      exact h.waiting n k i hpc
    · intro hpc
      rw [haccepted, hsettled]
      exact h.done hpc
  | populate => apply Unwound.idle <;> (intros; dsimp only; split <;> simp)
  | message => apply Unwound.idle <;> (intros; dsimp only; split <;> simp)
  | @batchDone full => apply Unwound.idle <;> (intros; cases full <;> simp)
  | _ => apply Unwound.idle <;> (intros; simp)

/-- The account of a rollback is kept in every reachable state, so it also holds at the return that
follows a failure. -/
theorem unwound_of_reachable (hP : P.Ranged) (hs : P.Sized s₀)
    (hw : Reachable P.step (start s₀ k) w) : Unwound w := by
  refine hw.invariant_of_runs (I := Unwound) ?_ ?_
  · apply Unwound.idle
    · intro n k i h
      cases h
    · intro h
      cases h
  · intro u l v hreach h _ hstep
    exact h.step hP hs hreach (step_cases hstep)

/-- A step keeps the accepted requests, and may add to them. -/
theorem acceptedIps_sublist_step (h : PingStep P w l w') :
    (acceptedIps w.trace).Sublist (acceptedIps w'.trace) := by
  obtain ⟨u, htrace, -⟩ := records_step h
  rw [htrace]
  exact (List.sublist_append_left w.trace u).filterMap PingEvent.acceptedIp?

/-- **Timeouts are of accepted requests**, each of which times out at most once. -/
theorem timedOutIps_subperm (hP : P.Ranged) (hs : P.Sized s₀)
    (hw : Reachable P.step (start s₀ k) w) :
    (timedOutIps w.trace).Subperm (acceptedIps w.trace) := by
  refine hw.invariant_of_runs
    (I := fun w => (timedOutIps w.trace).Subperm (acceptedIps w.trace)) ?_ ?_
  · exact List.Subperm.refl _
  · intro u l v hreach h hok hstep
    by_cases hreap : u.pc = .reap → l ≠ .run
    · rw [timedOutIps_step (step_cases hstep) hreap]
      exact h.trans (acceptedIps_sublist_step (step_cases hstep)).subperm
    · -- a reap leaves the account in order, and no message waits then
      push Not at hreap
      obtain ⟨hpc, rfl⟩ := hreap
      have hhead : v.pc = .loopHead := by
        cases step_cases hstep with
        | reap => rfl
        | _ => simp_all
      have haccounted := accounted_of_reachable hP hs (hreach.tail hok hstep) (by rw [hhead]; rfl)
      rw [Accounted, pending_eq_nil (by rw [hhead]; rfl), List.append_nil] at haccounted
      have hsettled := (settledIps_perm v.trace).append_left (keys ProbeInfo.held v.st.probeTable)
      have hsub : (timedOutIps v.trace).Sublist
          (keys ProbeInfo.held v.st.probeTable ++ (timedOutIps v.trace ++ inTimeIps v.trace)) :=
        (List.sublist_append_left _ _).trans (List.sublist_append_right _ _)
      exact hsub.subperm.trans (haccounted.trans hsettled).symm.subperm

/-- There are at most as many requests as hosts, as no host is sent to twice. -/
theorem CoverInv.length_acceptedIps_le (h : P.CoverInv w) :
    (acceptedIps w.trace).length ≤ P.totalHosts := by
  have hnodup : (acceptedIps w.trace).Nodup :=
    h.pairwise_acceptedIps.imp fun hlt => Nat.ne_of_lt hlt
  have hsub : acceptedIps w.trace ⊆ List.range' P.baseIp P.totalHosts := by
    intro ip hip
    obtain ⟨hlo, hhi, -⟩ := h.range_of_accepted hip
    exact List.mem_range'_1.mpr ⟨hlo, hhi⟩
  have hle := (hnodup.subperm hsub).length_le
  rwa [List.length_range'] at hle

/-- `probe_timeouts_` is the number of timed out hosts; it does not wrap. -/
theorem probeTimeouts_eq (hP : P.Ranged) (hs : P.Sized s₀)
    (hw : Reachable P.step (start s₀ k) w) :
    w.st.probeTimeouts = (timedOutIps w.trace).length := by
  have hle := (timedOutIps_subperm hP hs hw).length_le
  have hhosts := (coverInv_of_reachable hP hs hw).length_acceptedIps_le
  have htotal := hP.hosts
  rw [counted_of_reachable hP hs hw, ← length_timedOutIps]
  exact u32_of_lt (by omega)

/-! ### Hosts that answered in time -/

/-- The reply of this result's host was accepted while the host's slot was active. -/
def answeredInTime (t : List PingEvent) (r : PingHostResult) : Bool :=
  t.contains (.answered r.ip true)

theorem mem_inTimeIps : ip ∈ inTimeIps t ↔ .answered ip true ∈ t := by
  constructor
  · intro h
    obtain ⟨e, he, hip⟩ := List.mem_filterMap.mp h
    cases e with
    | answered ip' held =>
      cases held with
      | true =>
        cases hip
        exact he
      | false => cases hip
    | _ => cases hip
  · intro h
    exact List.mem_filterMap.mpr ⟨_, h, rfl⟩

/-- Hosts that answered in time are among those that answered; the others answered late. -/
theorem inTimeIps_sublist (t : List PingEvent) : (inTimeIps t).Sublist (answeredIps t) := by
  induction t with
  | nil => exact List.Sublist.refl _
  | cons e t ih =>
    rw [inTimeIps, answeredIps, List.filterMap_cons, List.filterMap_cons]
    cases e with
    | answered ip held =>
      cases held with
      | true => exact ih.cons_cons ip
      | false => exact ih.cons ip
    | _ => exact ih

/-- The results whose hosts answered in time are as many as the replies accepted in time. -/
theorem countP_answeredInTime (hslot : P.SlotInv w.st) (hans : P.AnswerInv w)
    (hrep : P.ReportInv w) (hpc : w.pc ≠ .thrown) :
    w.st.scanResults.countP (answeredInTime w.trace) = (inTimeIps w.trace).length := by
  have hnodup : (answeredIps w.trace).Nodup := hans.found ▸ hslot.foundNodup
  have hips : w.st.scanResults.map (·.ip) = answeredIps w.trace := by
    rw [hrep.cached hpc, hans.found]
  have hfilter : (inTimeIps w.trace).Perm
      ((answeredIps w.trace).filter fun ip => w.trace.contains (.answered ip true)) := by
    rw [List.perm_ext_iff_of_nodup (hnodup.sublist (inTimeIps_sublist _)) (hnodup.filter _)]
    intro ip
    rw [List.mem_filter, List.contains_iff_mem, mem_inTimeIps]
    exact (and_iff_right_of_imp fun h => mem_answeredIps.mpr ⟨true, h⟩).symm
  rw [hfilter.length_eq, ← hips, ← List.countP_eq_length_filter, List.countP_map]
  rfl

/-! ### The balance -/

/-- What the trace, `active_probes`, `probe_timeouts_` and the results say about the requests that
the kernel accepted. -/
structure ProbesBalance (w : PingWorld) : Prop where
  /-- Between two rounds, and after the last one, the accepted requests are the active probes, the
  timeouts and the hosts that answered in time. -/
  balance : w.pc = .loopHead ∨ (∃ sendFailed, w.pc = .returned sendFailed) →
    (acceptedIps w.trace).length =
      w.st.activeProbes + w.st.probeTimeouts + w.st.scanResults.countP (answeredInTime w.trace)
  /-- After a run without a send failure no probe is active, and every request, of which there is
  one for each host, has timed out once or was answered in time once. -/
  once : w.pc = .returned false → w.st.activeProbes = 0 ∧ (acceptedIps w.trace).Nodup ∧
    (acceptedIps w.trace).Perm (timedOutIps w.trace ++ inTimeIps w.trace)
  /-- `probe_timeouts_` is at all times the number of the hosts whose probes were reaped. -/
  timeouts : w.st.probeTimeouts = (timedOutIps w.trace).length
  /-- These hosts are hosts whose requests the kernel accepted, each of them counted once. -/
  sent : (timedOutIps w.trace).Subperm (acceptedIps w.trace)

/-- **Probe accounting balances.** Whatever the kernel, the clock, the network, the resolver and the
callback do in a run over a parsed range, the requests balance in every state that it reaches. -/
theorem probes_balance {input : CString} {config : PingScannerConfig}
    (hparse : parseCidr input = some (config.baseIp, config.totalHosts)) (routedIp : Option ℕ)
    (ifaddrs : Option (List IfAddrs)) (pid : ℕ) {s₀ : PingState}
    (hs : (construct config routedIp ifaddrs pid).Sized s₀) (k : PingKernel) {w : PingWorld}
    (hw : Reachable (construct config routedIp ifaddrs pid).step (start s₀ k) w) :
    ProbesBalance w := by
  have hP := ranged_construct hparse routedIp ifaddrs pid
  have hslot := slotInv_of_reachable hP hs hw
  have hcover := coverInv_of_reachable hP hs hw
  have htimeouts := probeTimeouts_eq hP hs hw
  have hsettled := settledIps_perm w.trace
  -- where no message waits, the account is about the accepted requests alone
  have hquiet : w.pc = .loopHead ∨ (∃ sendFailed, w.pc = .returned sendFailed) →
      (acceptedIps w.trace).Perm
        (keys ProbeInfo.held w.st.probeTable ++ settledIps w.trace) := by
    intro hpc
    by_cases hfailed : w.pc = .returned true
    · exact (unwound_of_reachable hP hs hw).done hfailed
    · have hnot : w.pc.isFailing = false ∧ w.pc.batch? = none := by
        obtain hpc | ⟨sendFailed, hpc⟩ := hpc
        · rw [hpc]
          exact ⟨rfl, rfl⟩
        · cases sendFailed with
          | true => exact absurd hpc hfailed
          | false =>
            rw [hpc]
            exact ⟨rfl, rfl⟩
      have haccounted := accounted_of_reachable hP hs hw hnot.1
      rwa [Accounted, pending_eq_nil hnot.2, List.append_nil] at haccounted
  refine ⟨?_, ?_, htimeouts, timedOutIps_subperm hP hs hw⟩
  · intro hpc
    have hne : w.pc ≠ .thrown := by
      obtain hpc | ⟨sendFailed, hpc⟩ := hpc <;> rw [hpc] <;> simp
    have hlength := (hquiet hpc).length_eq
    have hparts := hsettled.length_eq
    rw [List.length_append] at hlength hparts
    rw [hlength, hparts, ← hslot.count, ← htimeouts, countP_answeredInTime hslot
      (answerInv_of_reachable hP hs hw) (reportInv_of_reachable hP hs hw) hne, Nat.add_assoc]
  · intro hpc
    have hactive := (left_of_returned hw hpc).2
    have hnil : keys ProbeInfo.held w.st.probeTable = [] :=
      List.length_eq_zero_iff.mp (hslot.count.symm.trans hactive)
    have hperm := hquiet (.inr ⟨false, hpc⟩)
    rw [hnil, List.nil_append] at hperm
    exact ⟨hactive, hcover.pairwise_acceptedIps.imp fun hlt => Nat.ne_of_lt hlt,
      hperm.trans hsettled⟩

/-- `10.0.0.8/31`: one host answers in time, and again when its slot is already given back; the
other one times out. -/
theorem probes_balance_pair : ∃ w : PingWorld, w.pc = .returned false ∧
    acceptedIps w.trace = [167772168, 167772169] ∧ timedOutIps w.trace = [167772168] ∧
    inTimeIps w.trace = [167772169] ∧ ProbesBalance w := by
  obtain ⟨w, hw, hp⟩ := exists_reachable_of_exec (M := (construct
      { baseIp := 167772168, totalHosts := 2 } none none 7).step)
    (s := start (construct { baseIp := 167772168, totalHosts := 2 } none none 7).initializeBuffers
      { clock := {}, rxQueue := [], rxEdge := false })
    [.run, .run, .sendmmsg (.sent 2), .run, .arrive (echoReply 167772169 {}),
      .arrive (echoReply 167772169 {}), .epollWait .ready, .recvmmsg false, .message none false,
      .message none false, .run, .recvmmsg false, .run, .run, .run, .epollWait .timeout,
      .tick { tvSec := 1 }, .run, .run]
    (fun w => w.pc == .returned false && acceptedIps w.trace == [167772168, 167772169] &&
      timedOutIps w.trace == [167772168] && inTimeIps w.trace == [167772169])
    (by decide)
  simp only [Bool.and_eq_true, beq_iff_eq] at hp
  obtain ⟨⟨⟨hret, hacc⟩, hexp⟩, hans⟩ := hp
  have hparse : parseCidr [49, 48, 46, 48, 46, 48, 46, 56, 47, 51, 49] = some (167772168, 2) := by
    decide
  exact ⟨w, hret, hacc, hexp, hans,
    probes_balance hparse none none 7 (sized_initializeBuffers _) _ hw⟩

end PingScanner

end Netscan
