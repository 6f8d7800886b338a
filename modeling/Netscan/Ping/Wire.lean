import Netscan.Lib.Refinement
import Netscan.Ping.Ledger
import Netscan.Ping.RoundTrip

/-! # What a ping run puts on the wire

`sendmmsg` takes the packets out of the shared buffer `send_packets_`, where they were assembled
before. The messages that the kernel takes are a history variable of the run (`wired`), and they
are the requests that the trace records: message `i` of the run goes to the `i`-th accepted address
and asks for an echo with the `i`-th sequence number, whatever became of earlier batches. -/

namespace Netscan

open MachineInt LabelledSystem

/-- The address and the send time of an accepted request, if the event is one. -/
def PingEvent.request? : PingEvent → Option (ℕ × Timespec)
  | .accepted ip sendTime _ => some (ip, sendTime)
  | _ => none

namespace PingScanner

variable {P : PingScanner} {s s' s₀ : PingState} {k : PingKernel} {w w' : PingWorld}
  {l : PingLabel} {t u : List PingEvent} {ms : List (ℕ × List UInt8)}

/-- The accepted requests, in order, with the send time recorded for each. -/
def requests (t : List PingEvent) : List (ℕ × Timespec) := t.filterMap PingEvent.request?

/-- The messages, address and bytes, that the kernel takes in a step with label `l` from `w`: entry
`i` of `send_msgvec_` names entry `i` of `send_addrs_` and packet `i`. -/
def wired (P : PingScanner) (w : PingWorld) (l : PingLabel) : List (ℕ × List UInt8) :=
  match w.pc, l with
  | .flush _ sentTotal, .sendmmsg (.sent count) =>
    (List.range' sentTotal count).map fun i => (w.st.sendAddrs.getD i 0, P.packetBytes i w.st)
  | _, _ => []

/-- The sequence number of the `j`-th request of a run: zero is left out. -/
def seqAt (j : ℕ) : ℕ := 1 + j % 65535

/-- The message, address and bytes, of the `j`-th request of a run. -/
def requestMessage (P : PingScanner) (j : ℕ) (r : ℕ × Timespec) : ℕ × List UInt8 :=
  (r.1, P.requestBytes r.1 (seqAt j) r.2)

/-! ### Sequence numbers -/

/-- `allocate_sequence` counts the requests: with the number of one request it yields that of the
next. -/
theorem allocateSequence_seqAt (j : ℕ) :
    allocateSequence (seqAt j) = (seqAt j, seqAt (j + 1)) := by
  have hpos : seqAt j ≠ 0 := by unfold seqAt; omega
  unfold allocateSequence
  rw [if_neg hpos]
  have hnext : u16 (seqAt j + 1) = (j % 65535 + 2) % 2 ^ 16 := by
    rw [u16, seqAt]
    congr 1
    omega
  dsimp only
  rw [hnext]
  congr 1
  by_cases hzero : (j % 65535 + 2) % 2 ^ 16 = 0
  · rw [if_pos hzero, seqAt]
    omega
  · rw [if_neg hzero, seqAt]
    omega

theorem seqAt_lt (j : ℕ) : seqAt j < 2 ^ 16 := by
  unfold seqAt
  omega

/-! ### Assembly -/

/-- The send buffers have room for the packets of a batch, computed without a wrap. -/
structure BuffersFit (P : PingScanner) (s : PingState) : Prop where
  /-- `packet_buffer_size_` is the length of a packet. -/
  size : P.packetBufferSize = P.packetLength
  /-- The packets of a batch lie in `send_packets_`. -/
  room : P.packetLength * P.sendCount ≤ s.sendPackets.length
  /-- `send_packets_` is indexed by 64-bit words. -/
  small : P.packetLength * P.sendCount < 2 ^ 64

/-- Room for the packets depends on the size of the buffer only. -/
theorem BuffersFit.congr (h : P.BuffersFit s)
    (hlen : s'.sendPackets.length = s.sendPackets.length) : P.BuffersFit s' :=
  ⟨h.size, hlen ▸ h.room, h.small⟩

/-- Each packet has its own part of the buffer, and it fits there. -/
theorem BuffersFit.packet (h : P.BuffersFit s) {i : ℕ} (hi : i < P.sendCount) :
    P.packetOffset i = i * P.packetLength ∧ P.PacketFits i s := by
  have hend : (i + 1) * P.packetLength ≤ P.packetLength * P.sendCount := by
    rw [Nat.mul_comm P.packetLength]
    exact Nat.mul_le_mul_right _ hi
  rw [Nat.add_mul, Nat.one_mul] at hend
  have hsmall := h.small
  have hroom := h.room
  have hoffset : P.packetOffset i = i * P.packetLength := by
    rw [packetOffset, h.size, Nat.mod_eq_of_lt (by omega)]
  refine ⟨hoffset, h.size, ?_⟩
  rw [hoffset, h.size]
  omega

/-- A constructed scanner has room for its packets, if their sizes do not wrap. -/
theorem buffersFit_initializeBuffers (hsize : P.packetBufferSize = P.packetLength % 2 ^ 64)
    (hfits : P.packetLength * P.sendCount < 2 ^ 64) : P.BuffersFit P.initializeBuffers := by
  have hcount : 1 ≤ P.sendCount := Nat.le_max_left _ _
  have hlen : P.packetLength ≤ P.packetLength * P.sendCount := Nat.le_mul_of_pos_right _ hcount
  rw [Nat.mod_eq_of_lt (by omega)] at hsize
  refine ⟨hsize, le_of_eq ?_, hfits⟩
  show _ = (List.replicate (P.packetBufferSize * P.sendCount % 2 ^ 64) 0).length
  rw [List.length_replicate, hsize, Nat.mod_eq_of_lt hfits]

/-- Entry `i` of the batch is the `j`-th request of the run. -/
def Assembled (P : PingScanner) (s : PingState) (i j : ℕ) : Prop :=
  ∃ p, Staged s i p ∧ P.packetBytes i s = P.requestBytes p.destIp (seqAt j) p.sendTime

/-- The entry that a turn of the populate loop adds is the next request. -/
theorem assembled_claimSlot {ts : Timespec} {ip h i n j : ℕ} (hfit : P.BuffersFit s)
    (hi : i < s.probeTable.length) (hn : n < P.sendCount) (haddrs : n < s.sendAddrs.length)
    (hslots : n < s.sendProbeSlots.length) (hseq : s.nextSeq = seqAt j) :
    P.Assembled (P.claimSlot ts ip h i n s) n j := by
  refine ⟨{ active := true, destIp := ip, seq := seqAt j, sendTime := ts },
    ⟨rfl, ?_, i, ?_, ?_⟩, ?_⟩
  · exact List.getElem?_set_self haddrs
  · exact List.getElem?_set_self hslots
  · simp only [claimSlot, prepareSinglePacket, Int.toNat_natCast, hseq, allocateSequence_seqAt]
    exact List.getElem?_set_self hi
  · have hroom : P.PacketFits n { s with
        nextSeq := (allocateSequence s.nextSeq).2
        probeTable := s.probeTable.set (i : ℤ).toNat
          { active := true, destIp := ip, seq := (allocateSequence s.nextSeq).1, sendTime := ts }
        hostToProbe := s.hostToProbe.set (h : ℤ).toNat i } :=
      ⟨hfit.size, (hfit.packet hn).2.room⟩
    rw [hseq, allocateSequence_seqAt] at hroom
    rw [← packetBytes_prepareSinglePacket hroom, claimSlot, hseq, allocateSequence_seqAt]
    rfl

/-- The entries that it keeps: a packet is written behind those of the batch so far, and the slot
was free. -/
theorem Assembled.claimSlot {ts : Timespec} {ip h i n m j : ℕ} {p : ProbeInfo}
    (ha : P.Assembled s m j) (hfit : P.BuffersFit s) (hm : m < n) (hn : n < P.sendCount)
    (hi : s.probeTable[i]? = some p) (hp : p.active = false) :
    P.Assembled (P.claimSlot ts ip h i n s) m j := by
  obtain ⟨q, ⟨hq, haddr, slot, hslot, htable⟩, hbytes⟩ := ha
  refine ⟨q, ⟨hq, ?_, slot, ?_, ?_⟩, ?_⟩
  · exact (List.getElem?_set_ne (by omega)).trans haddr
  · exact (List.getElem?_set_ne (by omega)).trans hslot
  · -- the slot that is claimed was free
    refine (List.getElem?_set_ne ?_).trans htable
    rintro heq
    rw [Int.toNat_natCast] at heq
    subst heq
    rw [htable] at hi
    cases hi
    rw [hq] at hp
    cases hp
  · rw [← hbytes]
    obtain ⟨hoffset, -⟩ := hfit.packet hn
    obtain ⟨hoffset', -⟩ := hfit.packet (Nat.lt_trans hm hn)
    refine field_writeAt_of_disjoint (.inl ?_)
    have hnext : (m + 1) * P.packetLength ≤ n * P.packetLength := Nat.mul_le_mul_right _ hm
    rw [Nat.add_mul, Nat.one_mul] at hnext
    rw [hoffset, hoffset', hfit.size]
    exact hnext

/-- **A populated batch is assembled**: its entries are the next requests of the run. -/
theorem assembled_populateBatchEntries (hP : P.Ranged) (hslot : P.SlotInv s)
    (hfit : P.BuffersFit s) {b : ℕ} (hseq : s.nextSeq = seqAt b) {ts : Timespec} {n : ℕ}
    (hout : P.populateBatchEntries ts s = (s', n)) :
    s'.nextSeq = seqAt (b + n) ∧ ∀ i < n, P.Assembled s' i (b + i) := by
  -- one turn: a host that is skipped changes nothing, and one that is not adds the next request
  have hturn : ∀ u m u' m', (P.SlotInv u ∧ P.BuffersFit u ∧ u.nextSeq = seqAt (b + m) ∧
      ∀ i < m, P.Assembled u i (b + i)) → P.populateStep ts u m = some (u', m') →
      P.SlotInv u' ∧ P.BuffersFit u' ∧ u'.nextSeq = seqAt (b + m') ∧
      ∀ i < m', P.Assembled u' i (b + i) := by
    rintro u m u' m' ⟨hu, hfit, hseq, hall⟩ hstep
    rcases hu.populateStep_cases hP ts m with
      ⟨-, hnone⟩ | ⟨hlt, -, hroom, ⟨-, hsome⟩ | ⟨hskip, i, p, hi, hp, hsome⟩⟩
    · rw [hnone] at hstep
      cases hstep
    · rw [hsome] at hstep
      cases hstep
      exact ⟨hu.congr rfl, hfit.congr rfl, hseq, hall⟩
    · rw [hsome] at hstep
      cases hstep
      have hcount : m < P.sendCount := lt_of_lt_of_le hroom (Nat.le_max_right _ _)
      have haddrs : m < u.sendAddrs.length := by rw [hu.sized.sendAddrs]; exact hcount
      have hslots : m < u.sendProbeSlots.length := by rw [hu.sized.sendProbeSlots]; exact hcount
      have hlen := (List.getElem?_eq_some_iff.mp hi).1
      refine ⟨hu.claimSlot hlt hskip hi hp ts m, hfit.congr ?_, ?_, fun j hj => ?_⟩
      · simp [PingScanner.claimSlot, prepareSinglePacket]
      · simp only [PingScanner.claimSlot, prepareSinglePacket, hseq, allocateSequence_seqAt]
        rfl
      · obtain hj | rfl := Nat.lt_succ_iff_lt_or_eq.mp hj
        · exact (hall j hj).claimSlot hfit hj hcount hi hp
        · exact assembled_claimSlot hfit hlen hcount haddrs hslots hseq
  have hloop := populateLoop_induction hturn (P.totalHosts - s.nextHostIdx) s 0
    ⟨hslot, hfit, hseq, fun i hi => absurd hi (Nat.not_lt_zero i)⟩
  rw [populateBatchEntries] at hout
  rw [hout] at hloop
  exact hloop.2.2

/-! ### The requests of a trace -/

theorem requests_append (t u : List PingEvent) : requests (t ++ u) = requests t ++ requests u :=
  List.filterMap_append

/-- The requests go to the accepted addresses, in the same order. -/
theorem map_fst_requests (t : List PingEvent) : (requests t).map Prod.fst = acceptedIps t := by
  rw [requests, acceptedIps, List.map_filterMap]
  apply List.filterMap_congr
  intro e _
  cases e <;> rfl

theorem length_requests (t : List PingEvent) : (requests t).length = (acceptedIps t).length := by
  rw [← map_fst_requests, List.length_map]

/-- The requests of one `sendmmsg` call, as its entries of the batch have them. -/
theorem requests_acceptedEvents (s : PingState) (clock : Timespec) (sentTotal count : ℕ) :
    requests (acceptedEvents s clock sentTotal count) =
      (List.range' sentTotal count).map fun i =>
        (s.sendAddrs.getD i 0, (probeAt s (s.sendProbeSlots.getD i (-1)).toNat).sendTime) := by
  have hsome : (PingEvent.request? ∘ fun i => PingEvent.accepted (s.sendAddrs.getD i 0)
      (probeAt s (s.sendProbeSlots.getD i (-1)).toNat).sendTime clock) =
      some ∘ fun i =>
        (s.sendAddrs.getD i 0, (probeAt s (s.sendProbeSlots.getD i (-1)).toNat).sendTime) := rfl
  rw [requests, acceptedEvents, List.filterMap_map, hsome, List.filterMap_eq_map]

/-! ### The invariant -/

/-- What holds of the messages taken so far and of the batch that is being sent. -/
structure WireInv (P : PingScanner) (w : PingWorld) (ms : List (ℕ × List UInt8)) : Prop where
  /-- The send buffers keep their room. -/
  fits : P.BuffersFit w.st
  /-- `next_seq` counts the requests that were made. -/
  nextSeq : w.pc.isAborted = false → w.st.nextSeq = seqAt (P.eligibleIps w.trace).length
  /-- The entries that wait are the next requests. -/
  batch : ∀ n k, w.pc.sending? = some n → w.pc.batch? = some (n, k) → ∀ i, k ≤ i → i < n →
    P.Assembled w.st i ((requests w.trace).length + (i - k))
  /-- The messages taken are the accepted requests. -/
  sent : ms = (requests w.trace).mapIdx P.requestMessage

/-- A step that neither populates a batch nor sends keeps what holds of the wire. -/
theorem WireInv.quiet (h : P.WireInv w ms) (hwired : P.wired w l = [])
    (hfits : w'.st.sendPackets.length = w.st.sendPackets.length)
    (hpc : w'.pc.isAborted = false → w.pc.isAborted = false)
    (hseq : w'.st.nextSeq = w.st.nextSeq)
    (hbatch : w'.pc.sending? = none ∨
      w'.pc.batch? = w.pc.batch? ∧ w'.pc.sending? = w.pc.sending? ∧
        ∀ i j, P.Assembled w.st i j → P.Assembled w'.st i j)
    {u : List PingEvent} (htrace : w'.trace = w.trace ++ u)
    (hu : ∀ e ∈ u, e.request? = none ∧ P.eligibleIp? e = none) :
    P.WireInv w' (ms ++ P.wired w l) := by
  have hrequests : requests w'.trace = requests w.trace := by
    have hnone : requests u = [] := List.filterMap_eq_nil_iff.mpr fun e he => (hu e he).1
    rw [htrace, requests_append, hnone, List.append_nil]
  have heligible : P.eligibleIps w'.trace = P.eligibleIps w.trace := by
    have hnone : P.eligibleIps u = [] := List.filterMap_eq_nil_iff.mpr fun e he => (hu e he).2
    rw [htrace, eligibleIps, List.filterMap_append]
    exact (congrArg _ hnone).trans (List.append_nil _)
  refine ⟨h.fits.congr hfits, fun ha => ?_, fun n k hn hnk i hki hin => ?_, ?_⟩
  · rw [hseq, heligible]
    exact h.nextSeq (hpc ha)
  · rcases hbatch with hnone | ⟨hbatch, hsending, hkeep⟩
    · rw [hnone] at hn
      cases hn
    · rw [hrequests]
      exact hkeep _ _ (h.batch n k (hsending ▸ hn) (hbatch ▸ hnk) i hki hin)
  · rw [hwired, List.append_nil, hrequests]
    exact h.sent

/-- Populating a batch makes the next requests. None of them is on the wire yet. -/
theorem WireInv.populate (hP : P.Ranged) (hslot : P.SlotInv w.st) (hcover : P.CoverInv w)
    (h : P.WireInv w ms) (hpc : w.pc = .sendBatch) {n : ℕ}
    (hout : P.populateBatchEntries w.kernel.clock w.st = (s, n)) :
    P.WireInv { w with
      st := s
      pc := if n = 0 then .receive else .flush n 0
      trace := w.trace ++ P.reachedEvents w.st s } (ms ++ P.wired w .run) := by
  have hab : w.pc.isAborted = false := by rw [hpc]; rfl
  have hpop := populated_populateBatchEntries hP hslot (hcover.fresh hab) hout
  have hcover' := hcover.populate hP hslot hpc hout
  have hnone : requests (P.reachedEvents w.st s) = [] :=
    List.filterMap_eq_nil_iff.mpr fun e he => by
      obtain ⟨i, rfl⟩ := mem_reachedEvents he
      rfl
  have hrequests : requests (w.trace ++ P.reachedEvents w.st s) = requests w.trace := by
    rw [requests_append, hnone, List.append_nil]
  -- before the batch nothing waits, so the requests made are the requests accepted
  have hmade : (P.eligibleIps w.trace).length = (requests w.trace).length := by
    have hsent := hcover.sent hab
    have hpending : pending w = [] := by rw [pending, hpc]; rfl
    rw [hpending, List.append_nil] at hsent
    rw [← hsent, length_requests]
  have hmade' : (P.eligibleIps (w.trace ++ P.reachedEvents w.st s)).length =
      (requests w.trace).length + n := by
    have hsent := hcover'.sent (by dsimp only; split <;> rfl)
    have hpending : pending { w with
        st := s
        pc := if n = 0 then .receive else .flush n 0
        trace := w.trace ++ P.reachedEvents w.st s } = s.sendAddrs.take n := by
      rw [pending]
      by_cases hn : n = 0 <;> simp [hn, PingPc.batch?]
    have hlen : n ≤ s.sendAddrs.length := by
      rw [hpop.slotInv.sized.sendAddrs]
      exact le_trans hpop.size (Nat.le_max_right _ _)
    rw [← hsent, List.length_append, hpending, List.length_take, Nat.min_eq_left hlen,
      ← length_requests, hrequests]
  have hseq := h.nextSeq hab
  rw [hmade] at hseq
  obtain ⟨hnext, hall⟩ := assembled_populateBatchEntries hP hslot h.fits hseq hout
  have hsize := congrFun (P.vectorSize_populateBatchEntries w.kernel.clock w.st) .packets
  rw [hout] at hsize
  -- the batch is assembled from the requests made so far on
  refine ⟨h.fits.congr hsize, fun _ => ?_, fun n' k' hn hnk i hki hin => ?_, ?_⟩
  · exact hnext.trans (by rw [hmade'])
  · dsimp only at hn hnk
    split at hn
    · cases hn
    · cases hn
      rw [if_neg ‹_›] at hnk
      cases hnk
      rw [hrequests, Nat.sub_zero]
      exact hall i hin
  · rw [hrequests, ← h.sent]
    simp only [wired, hpc]
    exact List.append_nil _

/-- An accepting `sendmmsg` takes the next requests, and the messages that it takes are theirs. -/
theorem WireInv.sendmmsg (h : P.WireInv w ms) {n k count : ℕ} (hpc : w.pc = .flush n k)
    (hle : k + count ≤ n) :
    P.WireInv { w with
      pc := .flush n (k + count)
      trace := w.trace ++ acceptedEvents w.st w.kernel.clock k count }
      (ms ++ P.wired w (.sendmmsg (.sent count))) := by
  have hbatch := h.batch n k (by rw [hpc]; rfl) (by rw [hpc]; rfl)
  have hcount : (requests (acceptedEvents w.st w.kernel.clock k count)).length = count := by
    rw [requests_acceptedEvents, List.length_map, List.length_range']
  have heligible : P.eligibleIps (w.trace ++ acceptedEvents w.st w.kernel.clock k count) =
      P.eligibleIps w.trace := by
    have hnone : P.eligibleIps (acceptedEvents w.st w.kernel.clock k count) = [] :=
      List.filterMap_eq_nil_iff.mpr fun e he => by
        obtain ⟨i, -, -, rfl⟩ := mem_acceptedEvents he
        rfl
    rw [eligibleIps, List.filterMap_append]
    exact (congrArg _ hnone).trans (List.append_nil _)
  -- the entries left in the batch keep their numbers, as those before them are now requests
  refine ⟨h.fits, fun _ => ?_, fun n' k' hn hnk i hki hin => ?_, ?_⟩
  · rw [heligible]
    exact h.nextSeq (by rw [hpc]; rfl)
  · cases hn
    cases hnk
    rw [requests_append, List.length_append, hcount]
    have hentry := hbatch i (by omega) hin
    rwa [show (requests w.trace).length + (i - k) =
      (requests w.trace).length + count + (i - (k + count)) by omega] at hentry
  · rw [requests_append, List.mapIdx_append, ← h.sent, requests_acceptedEvents]
    congr 1
    simp only [wired, hpc]
    refine List.ext_getElem (by simp) fun j hj _ => ?_
    have hj : j < count := by simpa using hj
    obtain ⟨p, ⟨-, haddr, slot, hslot, htable⟩, hbytes⟩ := hbatch (k + j) (by omega) (by omega)
    simp only [List.getElem_map, List.getElem_mapIdx, List.getElem_range', Nat.one_mul,
      List.getD_eq_getElem?_getD, haddr, hslot, Option.getD_some, Int.toNat_natCast,
      probeAt_of_getElem? htable, requestMessage, hbytes]
    rw [show k + j - k = j by omega, Nat.add_comm j]

/-- Only `populate_batch_entries` allocates sequence numbers, also when a batch is rolled back. -/
theorem nextSeq_step (hP : P.Ranged) (hslot : P.SlotInv w.st) (h : PingStep P w l w')
    (hl : l = .run → w.pc ≠ .sendBatch) : w'.st.nextSeq = w.st.nextSeq := by
  cases h with
  | populate hpc => exact absurd hpc (hl rfl)
  | release _ _ hout =>
    subst hout
    show (P.releaseProbeSlot _ w.st).nextSeq = _
    unfold releaseProbeSlot
    split
    · rfl
    · dsimp only
      split <;> rfl
  | @message d _ _ dns throws _ _ _ hout =>
    have hs := congrArg Prod.fst hout
    rcases hslot.receiveMessage_cases hP w.kernel.clock dns throws d with
      ⟨-, echo, unmatched, overflows, heq⟩ | ⟨-, echo, overflows, recvTs, ttl, heq⟩
    · rw [heq] at hs
      subst hs
      rfl
    · rw [heq, report_fst] at hs
      subst hs
      show (P.foundState _ _).nextSeq = _
      unfold foundState
      dsimp only
      split <;> rfl
  | reap _ hout =>
    subst hout
    refine List.foldlRecOn
      (motive := fun s' : PingState => s'.nextSeq = w.st.nextSeq) _ _ rfl fun s' hs i _ => ?_
    rw [← hs]
    unfold reapSlot
    dsimp only
    split
    · rfl
    · split <;> rfl
  | _ => rfl

/-- Every step keeps what holds of the wire: one populates, one sends, and the others are quiet. -/
theorem WireInv.step (hP : P.Ranged) (hslot : P.SlotInv w.st) (hcover : P.CoverInv w)
    (h : P.WireInv w ms) (hstep : PingStep P w l w') :
    P.WireInv w' (ms ++ P.wired w l) := by
  have hsize := congrFun (vectorSize_step hstep) .packets
  have hseq : (l = .run → w.pc ≠ .sendBatch) → w'.st.nextSeq = w.st.nextSeq :=
    nextSeq_step hP hslot hstep
  cases hstep with
  | populate hpc hout => exact h.populate hP hslot hcover hpc hout
  | sent hpc _ hle => exact h.sendmmsg hpc hle
  -- these steps hand no message to the kernel
  | message hpc =>
    refine h.quiet (by simp only [wired, hpc]) hsize (fun _ => by rw [hpc]; rfl) (hseq nofun)
      (.inl ?_) rfl fun e he => ?_
    · dsimp only
      split <;> rfl
    · obtain rfl | ⟨_, _, rfl⟩ := mem_messageEvents he <;> exact ⟨rfl, rfl⟩
  | reap hpc =>
    refine h.quiet (by simp only [wired, hpc]) hsize (fun _ => by rw [hpc]; rfl)
      (hseq (by simp [hpc])) (.inl rfl) rfl fun e he => ?_
    obtain ⟨i, -, -, rfl⟩ := mem_expiredEvents he
    exact ⟨rfl, rfl⟩
  | tick =>
    exact h.quiet (by unfold wired; split <;> first | rfl | contradiction) rfl id rfl
      (.inr ⟨rfl, rfl, fun _ _ => id⟩) (List.append_nil _).symm (by simp)
  | arrive =>
    exact h.quiet (by unfold wired; split <;> first | rfl | contradiction) rfl id rfl
      (.inr ⟨rfl, rfl, fun _ _ => id⟩) rfl (by simp [PingEvent.request?, eligibleIp?])
  | again hpc | writable hpc =>
    exact h.quiet (by simp [wired, hpc]) rfl (fun _ => by rw [hpc]; rfl) rfl
      (.inr ⟨by rw [hpc]; rfl, by rw [hpc]; rfl, fun _ _ => id⟩) (List.append_nil _).symm (by simp)
  | release hpc =>
    exact h.quiet (by simp only [wired, hpc]) hsize (fun _ => by rw [hpc]; rfl)
      (hseq (by simp [hpc])) (.inl rfl) (List.append_nil _).symm (by simp)
  | rollbackDone hpc | notWritable hpc | waitThrew hpc | enter hpc | leave hpc | flushDone hpc
  | pollReady hpc | pollFailed hpc | recvZero hpc | recvFull hpc =>
    exact h.quiet (by simp only [wired, hpc]) rfl (fun _ => by rw [hpc]; rfl) rfl
      (.inl rfl) (List.append_nil _).symm (by simp)
  | @batchDone full hpc =>
    exact h.quiet (by simp only [wired, hpc]) rfl (fun _ => by rw [hpc]; rfl) rfl
      (.inl (by cases full <;> rfl)) (List.append_nil _).symm (by simp)
  | refused hpc | pollTimeout hpc | recvFailed hpc | recvEmpty hpc | recvShort hpc =>
    exact h.quiet (by simp only [wired, hpc]) rfl (fun _ => by rw [hpc]; rfl) rfl
      (.inl rfl) rfl (by simp [PingEvent.request?, eligibleIp?])

/-- What holds of the wire holds in every reachable state of the run with its messages. -/
theorem wireInv_of_reachable (hP : P.Ranged) (hs : P.Sized s₀) (hfit : P.BuffersFit s₀)
    (hw : Reachable (withHistory P.step P.wired) (start s₀ k, []) (w, ms)) : P.WireInv w ms := by
  refine hw.invariant_of_runs (I := fun v => P.WireInv v.1 v.2) ⟨hfit.congr rfl, fun _ => rfl,
    nofun, rfl⟩ ?_
  rintro ⟨u, us⟩ l ⟨v, vs⟩ hreach h - hstep
  obtain ⟨hstep, rfl⟩ := withHistory_eq_some.mp hstep
  have hplain := Reachable.forget_history hreach
  exact h.step hP (slotInv_of_reachable hP hs hplain) (coverInv_of_reachable hP hs hplain)
    (step_cases hstep)

/-! ### The messages of a run -/

/-- A message is echo request `i` of a process to a host of a range. -/
structure IsRequest (config : PingScannerConfig) (pid i : ℕ) (m : ℕ × List UInt8) : Prop where
  /-- It goes to a host of the range. -/
  range : config.baseIp ≤ m.1 ∧ m.1 < config.baseIp + config.totalHosts
  /-- It has the length asked for. -/
  length : m.2.length = icmpHdrSize + pingPayloadSize + config.payloadLen
  /-- Its header is that of an echo request of the process, with the next sequence number. -/
  header : IcmpHdr.decode (field m.2 0 icmpHdrSize) =
    { type := icmpEcho, id := u16 pid, sequence := seqAt i }
  /-- Its payload names its target. -/
  target : (PingPayload.decode (field m.2 icmpHdrSize pingPayloadSize)).targetIp = m.1

/-- The header of a request is read back as it was written. -/
theorem decode_header_requestBytes (P : PingScanner) (ip j : ℕ) (sendTs : Timespec) :
    IcmpHdr.decode (field (P.requestBytes ip (seqAt j) sendTs) 0 icmpHdrSize) =
      { type := icmpEcho, id := u16 P.pid, sequence := seqAt j } := by
  have hfield : field (P.requestBytes ip (seqAt j) sendTs) 0 icmpHdrSize =
      ({ type := icmpEcho, id := u16 P.pid, sequence := seqAt j } : IcmpHdr).encode := by
    simp [requestBytes, field, List.append_assoc]
  rw [hfield]
  refine IcmpHdr.decode_encode ?_ ?_ ?_ (Nat.mod_lt _ (by decide)) (seqAt_lt j)
  · show icmpEcho < 2 ^ 8
    decide
  · exact Nat.zero_lt_succ _
  · exact Nat.zero_lt_succ _

/-- The target in the payload of a request is read back, whatever the padding bytes hold. -/
theorem targetIp_requestBytes {ip : ℕ} (hip : ip < 2 ^ 32) (seq : ℕ) (sendTs : Timespec) :
    (PingPayload.decode (field (P.requestBytes ip seq sendTs) icmpHdrSize
      pingPayloadSize)).targetIp = ip := by
  have hfield : field (({ targetIp := ip, sendSec := sendTs.tvSec, sendNsec := sendTs.tvNsec } :
      PingPayload).encode (P.padding ip)) 0 4 = leBytes 4 ip := by
    simp [field, PingPayload.encode]
  rw [field_requestBytes, PingPayload.decode, hfield]
  exact (leNat_leBytes 4 ip).trans (Nat.mod_eq_of_lt (by omega))

/-- **The wire is exact.** While the packets of a batch fit the send buffer, the messages that the
kernel has taken in any state of a run are the requests that the trace records, one for one and in
order: message `i` goes to the `i`-th accepted address, names it and carries the send time recorded
for it and the `i`-th sequence number. Rolled back entries and packets of earlier batches in the
same buffer leave no mark. -/
theorem wire_exact {input : CString} {config : PingScannerConfig} {routedIp : Option ℕ}
    {ifaddrs : Option (List IfAddrs)} {pid : ℕ}
    (hparse : parseCidr input = some (config.baseIp, config.totalHosts))
    (hfits : (icmpHdrSize + pingPayloadSize + config.payloadLen) *
      max 1 (safeBatchSize config.sendBatchSize config.totalHosts) < 2 ^ 64)
    (hw : Reachable (withHistory (construct config routedIp ifaddrs pid).step
        (construct config routedIp ifaddrs pid).wired)
      (start (construct config routedIp ifaddrs pid).initializeBuffers k, []) (w, ms)) :
    ms = (requests w.trace).mapIdx (construct config routedIp ifaddrs pid).requestMessage ∧
      ∀ i m, ms[i]? = some m → IsRequest config pid i m := by
  have hP := ranged_construct hparse routedIp ifaddrs pid
  have hplain : Reachable (construct config routedIp ifaddrs pid).step
      (start (construct config routedIp ifaddrs pid).initializeBuffers k) w :=
    Reachable.forget_history hw
  have hs := sized_initializeBuffers (construct config routedIp ifaddrs pid)
  have hcover := coverInv_of_reachable hP hs hplain
  have hsent := (wireInv_of_reachable hP hs (buffersFit_initializeBuffers rfl hfits) hw).sent
  refine ⟨hsent, fun i m hm => ?_⟩
  -- each message is that of a recorded request, whose address the coverage invariant bounds
  rw [hsent, List.getElem?_mapIdx, Option.map_eq_some_iff] at hm
  obtain ⟨⟨ip, sendTs⟩, hr, rfl⟩ := hm
  have haccepted : ip ∈ acceptedIps w.trace := by
    rw [← map_fst_requests]
    exact List.mem_map.mpr ⟨_, List.mem_of_getElem? hr, rfl⟩
  obtain ⟨hlo, hhi, -⟩ := hcover.range_of_accepted haccepted
  have hip : ip < 2 ^ 32 := lt_of_lt_of_le hhi hP.fits
  exact ⟨⟨hlo, hhi⟩, length_requestBytes .., decode_header_requestBytes ..,
    targetIp_requestBytes hip _ _⟩

/-- `10.0.0.8/31`: the buffer is full after the first request; the second one follows later. -/
theorem wire_exact_pair : ∃ (w : PingWorld) (ms : List (ℕ × List UInt8)),
    w.pc = .receive ∧ acceptedIps w.trace = [167772168, 167772169] ∧
    ms = (requests w.trace).mapIdx (construct { baseIp := 167772168, totalHosts := 2 }
      none none 7).requestMessage ∧
    ∀ i m, ms[i]? = some m → IsRequest { baseIp := 167772168, totalHosts := 2 } 7 i m := by
  obtain ⟨w, hw, hp⟩ := exists_reachable_of_exec (M := (construct
      { baseIp := 167772168, totalHosts := 2 } none none 7).step)
    (s := start (construct { baseIp := 167772168, totalHosts := 2 } none none 7).initializeBuffers
      { clock := {}, rxQueue := [], rxEdge := false })
    [.run, .run, .sendmmsg (.sent 1), .sendmmsg (.error eagain),
      .wait true true [.interrupted, .event true false], .sendmmsg (.sent 1), .run]
    (fun w => w.pc == .receive && acceptedIps w.trace == [167772168, 167772169]) (by decide)
  simp only [Bool.and_eq_true, beq_iff_eq] at hp
  have hparse : parseCidr [49, 48, 46, 48, 46, 48, 46, 56, 47, 51, 49] = some (167772168, 2) := by
    decide
  obtain ⟨ms, hms⟩ := hw.exists_history
    (r := (construct { baseIp := 167772168, totalHosts := 2 } none none 7).wired) []
  exact ⟨w, ms, hp.1, hp.2, wire_exact hparse (by decide) hms⟩

end PingScanner

end Netscan
