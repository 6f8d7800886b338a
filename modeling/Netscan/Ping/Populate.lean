import Netscan.Ping.Frame

/-! # The specification of `populate_batch_entries`

The loop has three stop conditions and four ways of passing over a host. `Populated` says what it
does as a whole: the cursor moves from one host to another, the batch consists of the hosts in
between that are neither addresses of the local subnet itself nor found, in order, and each of them
is given a free slot. Hosts at or after the cursor hold no slot (`CursorFresh`), so the test on
`host_to_probe_` never passes over one. -/

namespace Netscan

open MachineInt SlotTable

namespace PingScanner

variable {P : PingScanner} {s s' : PingState}

/-- The addresses among hosts `c` to `c'` that are to be probed when `found` is found. -/
def eligible (P : PingScanner) (found : List ℕ) (c c' : ℕ) : List ℕ :=
  ((List.range' c (c' - c)).filter fun h =>
    !P.skipsLocal (P.baseIp + h) && !found.contains (P.baseIp + h)).map (P.baseIp + ·)

/-- No host lies between a cursor and itself. -/
@[simp] theorem eligible_self (P : PingScanner) (found : List ℕ) (c : ℕ) :
    P.eligible found c c = [] := by
  simp [eligible]

/-- One more host is either passed over or to be probed, by the two tests of the loop. -/
theorem eligible_succ (P : PingScanner) (found : List ℕ) {c c' : ℕ} (h : c ≤ c') :
    P.eligible found c (c' + 1) = P.eligible found c c' ++
      if P.skipsLocal (P.baseIp + c') = true ∨ P.baseIp + c' ∈ found then []
      else [P.baseIp + c'] := by
  have hlen : c' + 1 - c = c' - c + 1 := by omega
  have hlast : c + (c' - c) = c' := by omega
  rw [eligible, eligible, hlen, List.range'_1_concat, hlast, List.filter_append, List.map_append]
  congr 1
  cases hl : P.skipsLocal (P.baseIp + c') <;> by_cases hm : P.baseIp + c' ∈ found <;> simp [hl, hm]

/-- Hosts from the cursor on hold no slot, so the third test of the loop passes over none of
them. -/
def CursorFresh (P : PingScanner) (s : PingState) : Prop :=
  ∀ ip, backPointers P.baseIp s.hostToProbe ip ≠ none → ip < P.baseIp + s.nextHostIdx

/-- Entry `i` of the batch belongs to an active probe for the address of its message. -/
def Staged (s : PingState) (i : ℕ) (p : ProbeInfo) : Prop :=
  p.active = true ∧ s.sendAddrs[i]? = some p.destIp ∧
    ∃ slot : ℕ, s.sendProbeSlots[i]? = some (slot : ℤ) ∧ s.probeTable[slot]? = some p

/-- What `populate_batch_entries`, started in `s` at time `ts`, has done when the state is `s'` and
the batch has `n` entries. -/
structure Populated (P : PingScanner) (ts : Timespec) (s s' : PingState) (n : ℕ) : Prop where
  /-- The slot tables are in order. -/
  slotInv : P.SlotInv s'
  /-- Hosts from the cursor on hold no slot. -/
  fresh : P.CursorFresh s'
  /-- The cursor does not move back. -/
  cursor_le : s.nextHostIdx ≤ s'.nextHostIdx
  /-- The cursor stays in the range. -/
  cursor_total : s'.nextHostIdx ≤ max s.nextHostIdx P.totalHosts
  /-- The batch has room for its entries. -/
  size : n ≤ P.sendBatchSize
  /-- The batch consists of the hosts to be probed. -/
  addrs : s'.sendAddrs.take n = P.eligible s.foundIpsCache s.nextHostIdx s'.nextHostIdx
  /-- Every entry has a probe, stamped with the time of the batch. -/
  staged : ∀ i < n, ∃ p, Staged s' i p ∧ p.sendTime = ts
  /-- The probes outstanding before are still outstanding. -/
  kept : ∀ (i : ℕ) (p : ProbeInfo), s.probeTable[i]? = some p → p.active = true →
    s'.probeTable[i]? = some p
  /-- The other outstanding probes belong to the batch. -/
  new : ∀ (i : ℕ) (p : ProbeInfo), s'.probeTable[i]? = some p → p.active = true →
    s.probeTable[i]? = some p ∨ p.sendTime = ts ∧ p.destIp ∈ s'.sendAddrs.take n
  /-- Nothing is reported. -/
  reports : s'.reports = s.reports

/-- A freshly entered loop has done nothing: its batch is empty and its state is the one it began
in. -/
theorem Populated.refl (h : P.SlotInv s) (hfresh : P.CursorFresh s) (ts : Timespec) :
    P.Populated ts s s 0 where
  slotInv := h
  fresh := hfresh
  cursor_le := le_rfl
  cursor_total := Nat.le_max_left _ _
  size := Nat.zero_le _
  addrs := by simp
  staged := by simp
  kept _ _ hi _ := hi
  new _ _ hi _ := .inl hi
  reports := rfl

/-- Passing over the host at the cursor moves the cursor only. -/
theorem Populated.skip {ts : Timespec} {n : ℕ} (h : P.Populated ts s s' n)
    (hlt : s'.nextHostIdx < P.totalHosts) (hskip : P.Skips s' s'.nextHostIdx) :
    P.Populated ts s { s' with nextHostIdx := s'.nextHostIdx + 1 } n where
  slotInv := h.slotInv.congr rfl
  fresh ip hip := Nat.lt_succ_of_lt (h.fresh ip hip)
  cursor_le := Nat.le_succ_of_le h.cursor_le
  cursor_total := by
    have := Nat.le_max_right s.nextHostIdx P.totalHosts
    dsimp only
    omega
  size := h.size
  addrs := by
    have hfound : s'.foundIpsCache = s.foundIpsCache := congrArg Prod.fst h.reports
    -- the host is skipped for one of the first two tests; the third would contradict freshness
    have hpass : P.skipsLocal (P.baseIp + s'.nextHostIdx) = true ∨
        P.baseIp + s'.nextHostIdx ∈ s.foundIpsCache := by
      rcases hskip with hlocal | hseen | hmap
      · exact .inl hlocal
      · exact .inr (hfound ▸ hseen)
      · exact absurd (h.fresh _ hmap) (Nat.lt_irrefl _)
    rw [eligible_succ _ _ h.cursor_le, if_pos hpass, List.append_nil]
    exact h.addrs
  staged := h.staged
  kept := h.kept
  new := h.new
  reports := h.reports

/-- Claiming a free slot for the host at the cursor adds one entry to the batch. -/
theorem Populated.claim {ts : Timespec} {n i : ℕ} {p : ProbeInfo} (h : P.Populated ts s s' n)
    (hlt : s'.nextHostIdx < P.totalHosts) (hroom : n < P.sendBatchSize)
    (hskip : ¬ P.Skips s' s'.nextHostIdx) (hi : s'.probeTable[i]? = some p)
    (hp : p.active = false) :
    P.Populated ts s
      (P.claimSlot ts (P.baseIp + s'.nextHostIdx) s'.nextHostIdx i n s') (n + 1) := by
  have hslots : i < s'.probeTable.length := (List.getElem?_eq_some_iff.mp hi).1
  have haddrs := h.slotInv.sized.sendAddrs
  have hbatch := h.slotInv.sized.sendProbeSlots
  have htake : (s'.sendAddrs.set n (P.baseIp + s'.nextHostIdx)).take (n + 1) =
      s'.sendAddrs.take n ++ [P.baseIp + s'.nextHostIdx] := by
    rw [List.take_add_one, List.take_set_of_le (Nat.le_refl n),
      List.getElem?_set_self (by omega)]
    rfl
  have hfound : s'.foundIpsCache = s.foundIpsCache := congrArg Prod.fst h.reports
  have hpass : ¬ (P.skipsLocal (P.baseIp + s'.nextHostIdx) = true ∨
      P.baseIp + s'.nextHostIdx ∈ s.foundIpsCache) := by
    rw [← hfound]
    exact fun hor => hskip (hor.imp id .inl)
  -- the claimed slot was free, so no outstanding probe is overwritten
  have hother : ∀ (j : ℕ) (q : ProbeInfo), s'.probeTable[j]? = some q → q.active = true →
      i ≠ j := by
    rintro j q hj hq rfl
    rw [hi] at hj
    cases hj
    rw [hp] at hq
    cases hq
  refine ⟨h.slotInv.claimSlot hlt hskip hi hp ts n, ?_, ?_, ?_, hroom, ?_, ?_, ?_, ?_, h.reports⟩
  · intro ip hip
    have hlen := h.slotInv.sized.hostToProbe
    have hset := @backPointers_set P.baseIp (P.baseIp + s'.nextHostIdx) s'.hostToProbe (by omega)
      (by omega) (i : ℤ)
    simp only [Nat.add_sub_cancel_left] at hset
    simp only [PingScanner.claimSlot, prepareSinglePacket, Int.toNat_natCast, hset] at hip ⊢
    by_cases hc : ip = P.baseIp + s'.nextHostIdx
    · omega
    · rw [Function.update_of_ne hc] at hip
      have := h.fresh ip hip
      omega
  · exact Nat.le_succ_of_le h.cursor_le
  · have := Nat.le_max_right s.nextHostIdx P.totalHosts
    simp only [PingScanner.claimSlot, prepareSinglePacket]
    omega
  · simp only [PingScanner.claimSlot, prepareSinglePacket]
    rw [htake, eligible_succ _ _ h.cursor_le, if_neg hpass, h.addrs]
  · intro j hj
    simp only [PingScanner.claimSlot, prepareSinglePacket, Int.toNat_natCast, Staged]
    by_cases hjn : j = n
    · subst hjn
      refine ⟨_, ⟨rfl, ?_, i, ?_, List.getElem?_set_self hslots⟩, rfl⟩
      · exact List.getElem?_set_self (by omega)
      · exact List.getElem?_set_self (by omega)
    · obtain ⟨q, ⟨hq, haddr, slot, hslot, htable⟩, hts⟩ := h.staged j (by omega)
      refine ⟨q, ⟨hq, ?_, slot, ?_, ?_⟩, hts⟩
      · rwa [List.getElem?_set_ne (Ne.symm hjn)]
      · rwa [List.getElem?_set_ne (Ne.symm hjn)]
      · rwa [List.getElem?_set_ne (hother _ _ htable hq)]
  · intro j q hj hq
    simp only [PingScanner.claimSlot, prepareSinglePacket, Int.toNat_natCast]
    have hkept := h.kept j q hj hq
    rwa [List.getElem?_set_ne (hother _ _ hkept hq)]
  · intro j q hj hq
    simp only [PingScanner.claimSlot, prepareSinglePacket, Int.toNat_natCast] at hj ⊢
    rw [htake]
    by_cases hij : i = j
    · subst hij
      rw [List.getElem?_set_self hslots] at hj
      cases hj
      exact .inr ⟨rfl, by simp⟩
    · rw [List.getElem?_set_ne hij] at hj
      exact (h.new j q hj hq).imp id fun hnew => ⟨hnew.1, List.mem_append_left _ hnew.2⟩

/-- Any number of turns of the populate loop does what `Populated` says, by induction on the
turns. -/
theorem populated_populateLoop (hP : P.Ranged) (h : P.SlotInv s) (hfresh : P.CursorFresh s)
    (ts : Timespec) (left : ℕ) :
    P.Populated ts s (P.populateLoop ts left s 0).1 (P.populateLoop ts left s 0).2 := by
  -- one turn passes over the host at the cursor or claims a slot for it
  have hturn : ∀ u m u' m', P.Populated ts s u m → P.populateStep ts u m = some (u', m') →
      P.Populated ts s u' m' := by
    intro u m u' m' hu hstep
    rcases hu.slotInv.populateStep_cases hP ts m with
      ⟨-, hnone⟩ | ⟨hlt, -, hroom, ⟨hskip, hsome⟩ | ⟨hskip, i, p, hi, hp, hsome⟩⟩
    · rw [hnone] at hstep
      cases hstep
    · rw [hsome] at hstep
      cases hstep
      exact hu.skip hlt hskip
    · rw [hsome] at hstep
      cases hstep
      exact hu.claim hlt hroom hskip hi hp
  exact populateLoop_induction (motive := P.Populated ts s) hturn left s 0 (.refl h hfresh ts)

/-- **`populate_batch_entries` does what `Populated` says.** It says what the function does to
tables, cursor and batch at once. -/
theorem populated_populateBatchEntries (hP : P.Ranged) (h : P.SlotInv s)
    (hfresh : P.CursorFresh s) {ts : Timespec} {n : ℕ}
    (hout : P.populateBatchEntries ts s = (s', n)) : P.Populated ts s s' n := by
  have hloop := populated_populateLoop hP h hfresh ts (P.totalHosts - s.nextHostIdx)
  rw [populateBatchEntries] at hout
  rwa [hout] at hloop

end PingScanner

end Netscan
