import Netscan.Ping.Coverage

/-! # The rollback of a failed flush

When `flush_send_queue` fails after `k` of `n` messages, it releases the slots of the others and
moves the cursor back by their number. The slot tables are then those of a batch of the first `k`
messages only. The cursor is where it should be exactly if no host was passed over from the first
unsent message on: the cursor also moved over those hosts, but the rewind does not count them. -/

namespace Netscan

open MachineInt SlotTable LabelledSystem History

namespace PingScanner

variable {P : PingScanner} {s s' : PingState} {w w' : PingWorld} {l : PingLabel} {ts : Timespec}

/-! ### Entries of `host_to_probe_` -/

/-- The entries of `host_to_probe_` that are no slots are `-1`, so equal back-pointers mean equal
entries. -/
def MapClean (s : PingState) : Prop := ∀ v ∈ s.hostToProbe, -1 ≤ v

/-- Writing `-1` or a slot keeps `host_to_probe_` clean, and nothing else is ever written. -/
theorem MapClean.set (h : MapClean s) {i : ℕ} {v : ℤ} (hv : -1 ≤ v) :
    ∀ a ∈ s.hostToProbe.set i v, -1 ≤ a := by
  intro a ha
  rcases List.mem_or_eq_of_mem_set ha with hold | rfl
  · exact h a hold
  · exact hv

/-- `release_probe_slot` keeps `host_to_probe_` clean, whatever the slot it is called with. -/
theorem MapClean.releaseProbeSlot (h : MapClean s) (slot : ℤ) :
    MapClean (P.releaseProbeSlot slot s) := by
  unfold PingScanner.releaseProbeSlot
  dsimp only
  split_ifs
  · exact h
  · exact h
  · exact h.set le_rfl
  · exact h

/-- The reap keeps `host_to_probe_` clean, slot after slot. -/
theorem MapClean.reapTimedOutProbes (h : MapClean s) (now : Timespec) :
    MapClean (P.reapTimedOutProbes now s) := by
  refine List.foldlRecOn _ _ h ?_
  intro u hu i _
  unfold reapSlot
  dsimp only
  split_ifs
  · exact hu
  · exact hu.set le_rfl
  · exact hu
  · exact hu

/-- The populate loop keeps `host_to_probe_` clean, as the slots that it writes are found in the
table. -/
theorem MapClean.populateLoop (hP : P.Ranged) (hslot : P.SlotInv s) (h : MapClean s)
    (ts : Timespec) (left n : ℕ) : MapClean (P.populateLoop ts left s n).1 := by
  refine (populateLoop_induction (P := P) (motive := fun u _ => P.SlotInv u ∧ MapClean u) ?_ left
    s n ⟨hslot, h⟩).2
  intro u n u' n' ⟨hu, hclean⟩ hstep
  refine ⟨hu.populateStep hP hstep, ?_⟩
  rcases hu.populateStep_cases hP ts n with
    ⟨-, hnone⟩ | ⟨-, -, -, ⟨-, hsome⟩ | ⟨-, i, p, -, -, hsome⟩⟩
  · rw [hnone] at hstep
    cases hstep
  · rw [hsome] at hstep
    cases hstep
    exact hclean
  · rw [hsome] at hstep
    cases hstep
    exact hclean.set (by omega)

/-- Handling a datagram keeps `host_to_probe_` clean, accepted or not. -/
theorem MapClean.receiveMessage (hP : P.Ranged) (hslot : P.SlotInv s) (h : MapClean s)
    (recvNow : Timespec) (dns : Option String) (throws : Bool) (d : Datagram) :
    MapClean (P.receiveMessage recvNow dns throws d s).1 := by
  rcases hslot.receiveMessage_cases hP recvNow dns throws d with
    ⟨-, echo, unmatched, overflows, heq⟩ | ⟨-, echo, overflows, recvTs, ttl, heq⟩
  · rw [heq]
    exact h
  · rw [heq, report_fst]
    unfold MapClean PingScanner.foundState
    dsimp only
    split
    · exact h.set le_rfl
    · exact h

/-- Every step keeps `host_to_probe_` clean. Only four of them write to it. -/
theorem MapClean.step (hP : P.Ranged) (hslot : P.SlotInv w.st) (h : MapClean w.st)
    (hstep : PingStep P w l w') : MapClean w'.st := by
  cases hstep with
  | populate _ hout =>
    have hpop := h.populateLoop hP hslot w.kernel.clock (P.totalHosts - w.st.nextHostIdx) 0
    rw [populateBatchEntries] at hout
    rwa [hout] at hpop
  | release _ _ hout =>
    subst hout
    exact h.releaseProbeSlot _
  | @message d _ _ dns throws _ _ _ hout =>
    have hmsg := h.receiveMessage hP hslot w.kernel.clock dns throws d
    rwa [hout] at hmsg
  | reap _ hout =>
    subst hout
    exact h.reapTimedOutProbes _
  | _ => exact h

/-- In every reachable state the entries of `host_to_probe_` are slots or `-1`. -/
theorem mapClean_of_reachable (hP : P.Ranged) {s₀ : PingState} (hs : P.Sized s₀) {k : PingKernel}
    (hw : Reachable P.step (start s₀ k) w) : MapClean w.st := by
  refine hw.invariant_of_runs (I := fun w => MapClean w.st) ?_ ?_
  · intro v hv
    obtain ⟨-, rfl⟩ : s₀.hostToProbe ≠ [] ∧ v = -1 := by simpa [start, beginRun] using hv
    exact le_rfl
  · intro u l v hreach h _ hstep
    exact h.step hP (slotInv_of_reachable hP hs hreach) (step_cases hstep)

/-- **The active slots determine the rest of the books**: two states with the same active slots have
the same map and the same counter. So it is enough to compare slots. -/
theorem SlotInv.determined (h : P.SlotInv s) (h' : P.SlotInv s') (hclean : MapClean s)
    (hclean' : MapClean s') (hactive : ∀ (i : ℕ) (p : ProbeInfo), p.active = true →
      (s.probeTable[i]? = some p ↔ s'.probeTable[i]? = some p)) :
    s.hostToProbe = s'.hostToProbe ∧ s.activeProbes = s'.activeProbes := by
  have hheld : ∀ (ip i : ℕ), (∃ p, s.probeTable[i]? = some p ∧ p.held = some ip) ↔
      ∃ p, s'.probeTable[i]? = some p ∧ p.held = some ip := by
    intro ip i
    refine exists_congr fun p => ?_
    -- entries of the map can be told from back-pointers, because those that are no slots are all
    -- `-1`
    constructor
    · rintro ⟨hi, hp⟩
      exact ⟨(hactive i p (ProbeInfo.held_eq_some.mp hp).1).mp hi, hp⟩
    · rintro ⟨hi, hp⟩
      exact ⟨(hactive i p (ProbeInfo.held_eq_some.mp hp).1).mpr hi, hp⟩
  have hback : ∀ ip, backPointers P.baseIp s.hostToProbe ip =
      backPointers P.baseIp s'.hostToProbe ip := by
    intro ip
    apply Option.ext
    intro i
    rw [h.linked ip i, h'.linked ip i]
    exact hheld ip i
  constructor
  · apply List.ext_getElem?
    intro hostIdx
    by_cases hlt : hostIdx < s.hostToProbe.length
    · have hlt' : hostIdx < s'.hostToProbe.length := by
        rwa [h'.sized.hostToProbe, ← h.sized.hostToProbe]
      have hv := hclean _ (List.getElem_mem hlt)
      have hv' := hclean' _ (List.getElem_mem hlt')
      have hsame := hback (P.baseIp + hostIdx)
      rw [backPointers, backPointers, if_neg (by omega), if_neg (by omega),
        Nat.add_sub_cancel_left, List.getElem?_eq_getElem hlt,
        List.getElem?_eq_getElem hlt'] at hsame
      rw [List.getElem?_eq_getElem hlt, List.getElem?_eq_getElem hlt', Option.some.injEq]
      simp only [Option.bind_some] at hsame
      split_ifs at hsame with ha hb
      · rw [Option.some.injEq] at hsame
        omega
      · omega
    · have hlt' : ¬ hostIdx < s'.hostToProbe.length := by
        rwa [h'.sized.hostToProbe, ← h.sized.hostToProbe]
      rw [List.getElem?_eq_none (Nat.le_of_not_lt hlt),
        List.getElem?_eq_none (Nat.le_of_not_lt hlt')]
  -- both counters count the same hosts
  · rw [h.count, h'.count]
    apply List.Perm.length_eq
    rw [List.perm_ext_iff_of_nodup h.linked.keys_nodup h'.linked.keys_nodup]
    intro ip
    rw [mem_keys, mem_keys]
    exact exists_congr fun i => hheld ip i

/-! ### A batch is a prefix of a longer one -/

/-- The scanner with another bound on the size of a batch, to speak of the first `k` entries
alone. -/
def limited (P : PingScanner) (k : ℕ) : PingScanner := { P with sendBatchSize := k }

theorem populateStep_some {n n' : ℕ} (h : P.populateStep ts s n = some (s', n')) :
    n < P.sendBatchSize ∧ n' ≤ n + 1 := by
  unfold populateStep at h
  split_ifs at h with hgate
  all_goals
    dsimp only at h
    split_ifs at h
    all_goals
      cases h
      exact ⟨hgate.2.2, by omega⟩

/-- While both bounds leave room, they make no difference to a turn. -/
theorem populateStep_limited (ts : Timespec) (s : PingState) {n k : ℕ} (hk : n < k)
    (hn : n < P.sendBatchSize) : (P.limited k).populateStep ts s n = P.populateStep ts s n := by
  unfold populateStep
  have hgate : (s.nextHostIdx < (P.limited k).totalHosts ∧
      s.activeProbes < (P.limited k).maxProbes ∧ n < (P.limited k).sendBatchSize) ↔
      (s.nextHostIdx < P.totalHosts ∧ s.activeProbes < P.maxProbes ∧ n < P.sendBatchSize) :=
    and_congr_right fun _ => and_congr_right fun _ => iff_of_true hk hn
  simp only [hgate]
  rfl

/-- **The first `k` entries of a batch**: with the smaller bound the loop makes the first of its
turns, stops with `k` entries, and resuming it with the larger one gives the whole batch. -/
theorem populateLoop_prefix (ts : Timespec) (s : PingState) (left : ℕ) {n k : ℕ} (hn : n ≤ k)
    (hk : k ≤ (P.populateLoop ts left s n).2) :
    ∃ sk turns left', (P.limited k).populateLoop ts left s n = (sk, k) ∧
      P.populateLoop ts turns s n = (sk, k) ∧
      P.populateLoop ts left' sk k = P.populateLoop ts left s n := by
  induction left generalizing s n with
  | zero =>
    obtain rfl : n = k := le_antisymm hn hk
    exact ⟨s, 0, 0, rfl, rfl, rfl⟩
  | succ left ih =>
    rcases Nat.eq_or_lt_of_le hn with rfl | hlt
    · -- the smaller bound is reached
      have hstop : (P.limited n).populateStep ts s n = none := by
        rw [populateStep, if_neg]
        rintro ⟨-, -, hroom⟩
        exact Nat.lt_irrefl _ hroom
      refine ⟨s, 0, left + 1, ?_, rfl, rfl⟩
      rw [populateLoop, hstop]
    · cases hturn : P.populateStep ts s n with
      | none =>
        rw [populateLoop, hturn] at hk
        exact absurd hk (Nat.not_le.mpr hlt)
      | some out =>
        obtain ⟨s', n'⟩ := out
        obtain ⟨hroom, hn'⟩ := populateStep_some hturn
        have hturn' := (populateStep_limited ts s hlt hroom).trans hturn
        have hloop : ∀ m, P.populateLoop ts (m + 1) s n = P.populateLoop ts m s' n' := by
          intro m
          rw [populateLoop, hturn]
        rw [hloop] at hk ⊢
        obtain ⟨sk, turns, left', hlimited, hturns, hrest⟩ := ih s' (by omega) hk
        refine ⟨sk, turns + 1, left', ?_, ?_, hrest⟩
        · rw [populateLoop, hturn']
          exact hlimited
        · rw [hloop]
          exact hturns

/-- Turns of the populate loop move the cursor forward and keep the active slots: a slot that is
claimed was free. -/
theorem SlotInv.kept_populateLoop (hP : P.Ranged) (h : P.SlotInv s) (ts : Timespec)
    (left n : ℕ) :
    s.nextHostIdx ≤ (P.populateLoop ts left s n).1.nextHostIdx ∧
      ∀ (i : ℕ) (p : ProbeInfo), s.probeTable[i]? = some p → p.active = true →
        (P.populateLoop ts left s n).1.probeTable[i]? = some p := by
  refine (populateLoop_induction (P := P) (motive := fun u _ => P.SlotInv u ∧
    s.nextHostIdx ≤ u.nextHostIdx ∧ ∀ (i : ℕ) (p : ProbeInfo), s.probeTable[i]? = some p →
      p.active = true → u.probeTable[i]? = some p) ?_ left s n
    ⟨h, le_rfl, fun _ _ hi _ => hi⟩).2
  intro u m u' m' ⟨hu, hcursor, hkept⟩ hstep
  refine ⟨hu.populateStep hP hstep, ?_⟩
  rcases hu.populateStep_cases hP ts m with
    ⟨-, hnone⟩ | ⟨-, -, -, ⟨-, hsome⟩ | ⟨-, j, q, hj, hq, hsome⟩⟩
  · rw [hnone] at hstep
    cases hstep
  · rw [hsome] at hstep
    cases hstep
    exact ⟨Nat.le_succ_of_le hcursor, hkept⟩
  · rw [hsome] at hstep
    cases hstep
    refine ⟨Nat.le_succ_of_le hcursor, ?_⟩
    intro i p hi hp
    -- the slot claimed was free, so it is none of those that were active
    have hij : j ≠ i := by
      rintro rfl
      rw [hkept j p hi hp] at hj
      cases hj
      rw [hp] at hq
      cases hq
    simp only [PingScanner.claimSlot, prepareSinglePacket, Int.toNat_natCast]
    rw [List.getElem?_set_ne hij]
    exact hkept i p hi hp

/-! ### The hosts of a batch -/

theorem mem_eligible {found : List ℕ} {c e ip : ℕ} : ip ∈ P.eligible found c e ↔
    ∃ h, c ≤ h ∧ h < e ∧ P.skipsLocal (P.baseIp + h) = false ∧ P.baseIp + h ∉ found ∧
      ip = P.baseIp + h := by
  simp only [eligible, List.mem_map, List.mem_filter, List.mem_range'_1, Bool.and_eq_true,
    Bool.not_eq_true', List.contains_eq_mem, decide_eq_false_iff_not]
  constructor
  · rintro ⟨h, ⟨⟨hlo, hhi⟩, hlocal, hnew⟩, rfl⟩
    exact ⟨h, hlo, by omega, hlocal, hnew, rfl⟩
  · rintro ⟨h, hlo, hhi, hlocal, hnew, rfl⟩
    exact ⟨h, ⟨⟨hlo, by omega⟩, hlocal, hnew⟩, rfl⟩

/-- The hosts to be probed of two adjacent stretches, one behind the other. -/
theorem eligible_append (P : PingScanner) (found : List ℕ) {c d e : ℕ} (hcd : c ≤ d)
    (hde : d ≤ e) : P.eligible found c e = P.eligible found c d ++ P.eligible found d e := by
  have hsplit : List.range' c (e - c) = List.range' c (d - c) ++ List.range' d (e - d) := by
    have hlen : e - c = (d - c) + (e - d) := by omega
    have hmid : d = c + (d - c) := by omega
    rw [hlen, ← List.range'_append_1, ← hmid]
  rw [eligible, hsplit, List.filter_append, List.map_append]
  rfl

/-- The hosts of a batch are in ascending order, so none of them comes twice. -/
theorem pairwise_eligible (P : PingScanner) (found : List ℕ) (c e : ℕ) :
    (P.eligible found c e).Pairwise (· < ·) := by
  rw [eligible, List.pairwise_map]
  refine (List.Pairwise.filter _ List.pairwise_lt_range').imp ?_
  intro a b hab
  omega

theorem length_eligible_le (P : PingScanner) (found : List ℕ) (c e : ℕ) :
    (P.eligible found c e).length ≤ e - c := by
  rw [eligible, List.length_map]
  exact (List.length_filter_le _ _).trans_eq List.length_range'

/-- All hosts of a stretch are to be probed exactly if there are as many as hosts. -/
theorem length_eligible_eq_iff (P : PingScanner) (found : List ℕ) (c e : ℕ) :
    (P.eligible found c e).length = e - c ↔
      ∀ h, c ≤ h → h < e → P.skipsLocal (P.baseIp + h) = false ∧ P.baseIp + h ∉ found := by
  have hall := List.length_filter_eq_length_iff (l := List.range' c (e - c))
    (p := fun h => !P.skipsLocal (P.baseIp + h) && !found.contains (P.baseIp + h))
  rw [List.length_range'] at hall
  rw [eligible, List.length_map, hall]
  simp only [List.mem_range'_1, Bool.and_eq_true, Bool.not_eq_true', List.contains_eq_mem,
    decide_eq_false_iff_not]
  constructor
  · intro h i hlo hhi
    exact h i ⟨hlo, by omega⟩
  · rintro h i ⟨hlo, hhi⟩
    exact h i hlo (by omega)

/-- **The rewind.** Moving the cursor back from `e` by the number of hosts to be probed since `d`
passes none of them exactly if all hosts from the first of them on are to be probed. -/
theorem rewind_iff {found : List ℕ} {d e first : ℕ} {rest : List ℕ}
    (h : P.eligible found d e = first :: rest) :
    (∀ i, P.baseIp + i ∈ P.eligible found d e → e - (P.eligible found d e).length ≤ i) ↔
      ∀ i, first ≤ P.baseIp + i → i < e →
        P.skipsLocal (P.baseIp + i) = false ∧ P.baseIp + i ∉ found := by
  have hmem : first ∈ P.eligible found d e := by
    rw [h]
    exact List.mem_cons_self
  obtain ⟨f, hdf, hfe, hlocal, hnew, rfl⟩ := mem_eligible.mp hmem
  have hsorted := P.pairwise_eligible found d e
  -- nothing before the first one is to be probed
  have hnone : P.eligible found d f = [] := by
    rw [List.eq_nil_iff_forall_not_mem]
    intro ip hip
    obtain ⟨i, hdi, hif, hl, hn, rfl⟩ := mem_eligible.mp hip
    have hin : P.baseIp + i ∈ P.eligible found d e :=
      mem_eligible.mpr ⟨i, hdi, by omega, hl, hn, rfl⟩
    rw [h] at hin hsorted
    rcases List.mem_cons.mp hin with heq | hrest
    · omega
    · have := List.rel_of_pairwise_cons hsorted hrest
      omega
  have hfrom : P.eligible found d e = P.eligible found f e := by
    rw [eligible_append P found hdf hfe.le, hnone, List.nil_append]
  have hle := P.length_eligible_le found f e
  rw [hfrom] at hmem ⊢
  constructor
  · intro hall i hi hie
    have hfirst := hall f hmem
    have hlen : (P.eligible found f e).length = e - f := by omega
    exact (P.length_eligible_eq_iff found f e).mp hlen i (by omega) hie
  · intro hall i hi
    obtain ⟨j, hfj, -, -, -, hij⟩ := mem_eligible.mp hi
    have hlen := (P.length_eligible_eq_iff found f e).mpr fun i hlo hhi => hall i (by omega) hhi
    omega

/-! ### The slots of a shorter batch -/

variable {s₁ sk : PingState} {n k : ℕ}

/-- The messages of a batch after the first `k`, and the first `k`, by the stretches of the range
that they come from. -/
theorem Populated.split (hk : P.Populated ts s sk k) (hn : P.Populated ts s s₁ n)
    (hcursor : sk.nextHostIdx ≤ s₁.nextHostIdx) :
    (s₁.sendAddrs.take n).take k = P.eligible s.foundIpsCache s.nextHostIdx sk.nextHostIdx ∧
      (s₁.sendAddrs.take n).drop k =
        P.eligible s.foundIpsCache sk.nextHostIdx s₁.nextHostIdx := by
  have hlen : (P.eligible s.foundIpsCache s.nextHostIdx sk.nextHostIdx).length = k := by
    have hsize := hk.size
    have haddrs := hk.slotInv.sized.sendAddrs
    rw [← hk.addrs, List.length_take]
    omega
  rw [hn.addrs, eligible_append P _ hk.cursor_le hcursor]
  exact ⟨List.take_left' hlen, List.drop_left' hlen⟩

/-- **The slots of the first `k` entries** of a batch are those of the whole batch, without those of
the other messages. -/
theorem Populated.active_iff (hk : P.Populated ts s sk k) (hn : P.Populated ts s s₁ n)
    (hcursor : sk.nextHostIdx ≤ s₁.nextHostIdx)
    (hkept : ∀ (i : ℕ) (p : ProbeInfo), sk.probeTable[i]? = some p → p.active = true →
      s₁.probeTable[i]? = some p) {i : ℕ} {p : ProbeInfo} (hp : p.active = true) :
    sk.probeTable[i]? = some p ↔
      s₁.probeTable[i]? = some p ∧ p.destIp ∉ (s₁.sendAddrs.take n).drop k := by
  obtain ⟨hsent, hunsent⟩ := hk.split hn hcursor
  have hheld : p.held = some p.destIp := ProbeInfo.held_eq_some.mpr ⟨hp, rfl⟩
  constructor
  · intro hi
    refine ⟨hkept i p hi hp, ?_⟩
    -- the hosts with a slot in `sk` lie before its cursor
    have hbefore := hk.fresh p.destIp (by simp [(hk.slotInv.linked _ _).mpr ⟨p, hi, hheld⟩])
    rw [hunsent, mem_eligible]
    rintro ⟨h, hlo, -, -, -, heq⟩
    omega
  · rintro ⟨hi, hnot⟩
    rcases hn.new i p hi hp with hold | ⟨-, hmem⟩
    · exact hk.kept i p hold hp
    · -- a host of the batch that is not among the others is among the first `k`
      have hfirst : p.destIp ∈ sk.sendAddrs.take k := by
        rw [← List.take_append_drop k (s₁.sendAddrs.take n), List.mem_append] at hmem
        rw [hk.addrs, ← hsent]
        exact hmem.resolve_right hnot
      obtain ⟨j, hj⟩ := List.mem_iff_getElem?.mp hfirst
      have hjk : j < k := by
        have hlt := (List.getElem?_eq_some_iff.mp hj).1
        rw [List.length_take] at hlt
        omega
      rw [List.getElem?_take_of_lt hjk] at hj
      obtain ⟨q, ⟨hq, haddr, a, -, ha⟩, -⟩ := hk.staged j hjk
      have hdest : q.destIp = p.destIp := Option.some.inj (haddr.symm.trans hj)
      have hslot : a = i := hn.slotInv.linked.slot_unique (hkept a q ha hq)
        (ProbeInfo.held_eq_some.mpr ⟨hq, hdest⟩) hi hheld
      subst hslot
      rw [hkept a q ha hq] at hi
      rw [ha, hi]

/-! ### Releasing the others -/

/-- The state `s` is `s₁`, from which the slots of the hosts in `gone` have been released; the
entries of `send_probe_slots_` from `i` on are still there. -/
structure Undone (P : PingScanner) (s₁ : PingState) (gone : List ℕ) (i : ℕ) (s : PingState) :
    Prop where
  /-- The slot tables are in order. -/
  slotInv : P.SlotInv s
  /-- `host_to_probe_` is clean. -/
  clean : MapClean s
  /-- The cursor has not moved. -/
  cursor : s.nextHostIdx = s₁.nextHostIdx
  /-- The slots that are still to be released. -/
  slots : ∀ j, i ≤ j → s.sendProbeSlots[j]? = s₁.sendProbeSlots[j]?
  /-- The active slots. -/
  active : ∀ (x : ℕ) (p : ProbeInfo), p.active = true →
    (s.probeTable[x]? = some p ↔ s₁.probeTable[x]? = some p ∧ p.destIp ∉ gone)

/-- Before the rollback nothing is released, and the state is that behind the batch. -/
theorem Undone.refl (h : P.SlotInv s₁) (hclean : MapClean s₁) : P.Undone s₁ [] 0 s₁ :=
  ⟨h, hclean, rfl, fun _ _ => rfl, fun _ _ _ => by simp⟩

/-- The rollback starts at any entry: the entries before it stay as they are. -/
theorem Undone.from (h : P.Undone s₁ [] 0 s) (k : ℕ) :
    P.Undone s₁ ((s₁.sendAddrs.take k).drop k) k s := by
  have hnil : (s₁.sendAddrs.take k).drop k = [] :=
    List.drop_eq_nil_of_le (by rw [List.length_take]; omega)
  rw [hnil]
  exact ⟨h.slotInv, h.clean, h.cursor, fun j _ => h.slots j (Nat.zero_le j), h.active⟩

/-- The rollback releases the slot of the next message, which is still the one that the batch gave
it. -/
theorem Undone.release (hP : P.Ranged) (hs₁ : P.SlotInv s₁) {i : ℕ} {q : ProbeInfo}
    (hstaged : Staged s₁ i q) (hin : i < n) (hki : k ≤ i) (hnodup : (s₁.sendAddrs.take n).Nodup)
    (h : P.Undone s₁ ((s₁.sendAddrs.take i).drop k) i s) :
    P.Undone s₁ ((s₁.sendAddrs.take (i + 1)).drop k) (i + 1)
      { P.releaseProbeSlot (s.sendProbeSlots.getD i (-1)) s with
        sendProbeSlots :=
          (P.releaseProbeSlot (s.sendProbeSlots.getD i (-1)) s).sendProbeSlots.set i (-1) } := by
  obtain ⟨hq, haddr, a, hslot, ha⟩ := hstaged
  have hlen : i < s₁.sendAddrs.length := (List.getElem?_eq_some_iff.mp haddr).1
  have hheld : q.held = some q.destIp := ProbeInfo.held_eq_some.mpr ⟨hq, rfl⟩
  have htake : (s₁.sendAddrs.take (i + 1)).drop k =
      (s₁.sendAddrs.take i).drop k ++ [q.destIp] := by
    rw [List.take_add_one, haddr, List.drop_append_of_le_length (by rw [List.length_take]; omega)]
    rfl
  -- the host of the next message is not released yet
  have hstill : q.destIp ∉ (s₁.sendAddrs.take i).drop k := by
    have hsub : (s₁.sendAddrs.take (i + 1)).Nodup :=
      hnodup.sublist (List.take_sublist_take_left (by omega))
    rw [List.take_add_one, haddr, Option.toList_some, List.nodup_append] at hsub
    intro hmem
    exact hsub.2.2 _ (List.mem_of_mem_drop hmem) _ (List.mem_singleton_self _) rfl
  have hget : s.probeTable[a]? = some q := (h.active a q hq).mpr ⟨ha, hstill⟩
  have hnext : s.sendProbeSlots.getD i (-1) = (a : ℤ) := by
    rw [List.getD_eq_getElem?_getD, h.slots i le_rfl, hslot]
    rfl
  rw [hnext, h.slotInv.releaseProbeSlot_eq hP hget hq]
  refine ⟨(h.slotInv.freeSlot hget hq).congr (by simp [PingState.tables]),
    fun v hv => h.clean.set le_rfl v hv, h.cursor, ?_, ?_⟩
  · intro j hj
    simp only [PingScanner.freeSlot]
    rw [List.getElem?_set_ne (by omega)]
    exact h.slots j (by omega)
  · intro x p hp
    simp only [PingScanner.freeSlot, probeAt_of_getElem? hget, htake, List.mem_append,
      List.mem_singleton, not_or]
    by_cases hax : a = x
    · subst hax
      rw [List.getElem?_set_self (List.getElem?_eq_some_iff.mp hget).1, ha]
      refine iff_of_false ?_ ?_
      · intro heq
        cases heq
        cases hp
      · rintro ⟨heq, -, hne⟩
        cases heq
        exact hne rfl
    · rw [List.getElem?_set_ne hax, h.active x p hp]
      refine and_congr_right fun hx => (and_iff_left ?_).symm
      intro hdest
      exact hax (hs₁.linked.slot_unique ha hheld hx (ProbeInfo.held_eq_some.mpr ⟨hp, hdest⟩))

/-! ### A flush that fails -/

/-- The steps of `flush_send_queue`, and of the environment meanwhile. Between them nothing else of
`run()` is executed. -/
def InFlush (w : PingWorld) (l : PingLabel) : Prop := l.isEnv = true ∨ w.pc.batch?.isSome = true

instance (w : PingWorld) (l : PingLabel) : Decidable (InFlush w l) :=
  inferInstanceAs (Decidable (_ ∨ _))

/-- Until it fails, a flush of the batch in `s₁` changes nothing that the rollback reads. -/
def Flushing (P : PingScanner) (s₁ : PingState) (n : ℕ) (w : PingWorld) : Prop :=
  match w.pc with
  | .flush n' k => n' = n ∧ k ≤ n ∧ P.Undone s₁ [] 0 w.st
  | .waitWritable n' k => n' = n ∧ k < n ∧ P.Undone s₁ [] 0 w.st
  | .rollback n' k i => n' = n ∧ k ≤ i ∧ (i = k → k < n ∧ P.Undone s₁ [] 0 w.st)
  | _ => True

/-- Every step of the flush keeps `Flushing`: messages are handed over in order, and the tables
stay. -/
theorem Flushing.step (h : P.Flushing s₁ n w) (hok : InFlush w l) (hstep : PingStep P w l w') :
    P.Flushing s₁ n w' := by
  unfold Flushing at h ⊢
  cases hstep with
  | tick => exact h
  | arrive => exact h
  | sent hpc hpos hle =>
    rw [hpc] at h
    obtain ⟨rfl, -, hundone⟩ := h
    exact ⟨rfl, hle, hundone⟩
  | again hpc hlt =>
    rw [hpc] at h
    obtain ⟨rfl, -, hundone⟩ := h
    exact ⟨rfl, hlt, hundone.slotInv.congr rfl, hundone.clean, hundone.cursor, hundone.slots,
      hundone.active⟩
  -- from here on the flush has failed, with the messages from the cursor of the flush on unsent
  | refused hpc hlt =>
    rw [hpc] at h
    obtain ⟨rfl, -, hundone⟩ := h
    exact ⟨rfl, le_rfl, fun _ => ⟨hlt, hundone⟩⟩
  | writable hpc =>
    rw [hpc] at h
    obtain ⟨rfl, hlt, hundone⟩ := h
    exact ⟨rfl, hlt.le, hundone⟩
  | notWritable hpc =>
    rw [hpc] at h
    obtain ⟨rfl, hlt, hundone⟩ := h
    exact ⟨rfl, le_rfl, fun _ => ⟨hlt, hundone⟩⟩
  | release hpc =>
    rw [hpc] at h
    obtain ⟨rfl, hki, -⟩ := h
    exact ⟨rfl, by omega, fun heq => by omega⟩
  -- these steps are none of the flush
  | enter hpc | populate hpc | message hpc | batchDone hpc =>
    rw [InFlush, hpc] at hok
    simp [PingLabel.isEnv, PingPc.batch?] at hok
  | _ => trivial

/-- The rollback after `k` messages, on the way and when it is done: what is released so far, and
then where the cursor is. -/
def RollingBack (P : PingScanner) (s₁ : PingState) (n k : ℕ) (w : PingWorld) : Prop :=
  match w.pc with
  | .rollback n' k' i => n' = n ∧ k' = k ∧ k ≤ i ∧ i ≤ n ∧
      P.Undone s₁ ((s₁.sendAddrs.take i).drop k) i w.st
  | .returned _ => ∃ s, P.Undone s₁ ((s₁.sendAddrs.take n).drop k) n s ∧
      w.st = { s with nextHostIdx := subU64 s.nextHostIdx (n - k) }
  | _ => False

/-- Every step of the rollback keeps `RollingBack`: it releases one more slot, or moves the cursor
back and returns. -/
theorem RollingBack.step (hP : P.Ranged) (hs₁ : P.SlotInv s₁)
    (hstaged : ∀ i < n, ∃ q, Staged s₁ i q) (hnodup : (s₁.sendAddrs.take n).Nodup)
    (h : P.RollingBack s₁ n k w) (hok : InFlush w l) (hstep : PingStep P w l w') :
    P.RollingBack s₁ n k w' := by
  unfold RollingBack at h ⊢
  cases hstep with
  | tick => exact h
  | arrive => exact h
  | @release n' k' i hpc hlt s hout =>
    rw [hpc] at h
    obtain ⟨rfl, rfl, hki, -, hundone⟩ := h
    obtain ⟨q, hq⟩ := hstaged i hlt
    subst hout
    exact ⟨rfl, rfl, by omega, hlt, hundone.release hP hs₁ hq hlt hki hnodup⟩
  -- the loop has come to the end of the batch, and the cursor goes back
  | @rollbackDone n' k' i hpc hle =>
    rw [hpc] at h
    obtain ⟨rfl, rfl, -, hin, hundone⟩ := h
    obtain rfl : i = n' := by omega
    exact ⟨_, hundone, rfl⟩
  | enter hpc | leave hpc | populate hpc | sent hpc | again hpc | refused hpc | writable hpc
  | notWritable hpc | waitThrew hpc | flushDone hpc | pollReady hpc | pollTimeout hpc
  | pollFailed hpc | recvFailed hpc | recvEmpty hpc | recvZero hpc | recvShort hpc | recvFull hpc
  | message hpc | batchDone hpc | reap hpc =>
    rw [hpc] at h
    exact h.elim

/-- Where a flush that fails after `k` messages ends: every other slot of the batch is released, and
the cursor is moved back by their number. -/
theorem rolledBack_of_runs (hP : P.Ranged) (hs₁ : P.SlotInv s₁)
    (hstaged : ∀ i < n, ∃ q, Staged s₁ i q) (hnodup : (s₁.sendAddrs.take n).Nodup)
    {v x : PingWorld} (hv : P.Flushing s₁ n v) (hx : Runs P.step InFlush v x)
    (hxpc : x.pc = .rollback n k k) (hw : Runs P.step InFlush x w) (hwpc : w.pc = .returned true) :
    k < n ∧ ∃ s, P.Undone s₁ ((s₁.sendAddrs.take n).drop k) n s ∧
      w.st = { s with nextHostIdx := subU64 s.nextHostIdx (n - k) } := by
  have hfails : P.Flushing s₁ n x :=
    hx.invariant hv fun _ _ _ h hok hstep => h.step hok (step_cases hstep)
  rw [Flushing, hxpc] at hfails
  obtain ⟨hlt, hundone⟩ := hfails.2.2 rfl
  have hstart : P.RollingBack s₁ n k x := by
    rw [RollingBack, hxpc]
    exact ⟨rfl, rfl, le_rfl, hlt.le, hundone.from k⟩
  have hdone : P.RollingBack s₁ n k w :=
    hw.invariant hstart fun _ _ _ h hok hstep => h.step hP hs₁ hstaged hnodup hok (step_cases hstep)
  rw [RollingBack, hwpc] at hdone
  exact ⟨hlt, hdone⟩

/-! ### The rollback is exact -/

/-- A flush of a run on the object `s₀` that fails after `k` of `n` messages: the states before and
after `populate_batch_entries`, at the failure, and when `run()` has returned. -/
structure FailedFlush (P : PingScanner) (s₀ : PingState) (kernel : PingKernel) (n k : ℕ)
    (u v x w : PingWorld) : Prop where
  /-- The run reaches `send_batch`. -/
  reached : Reachable P.step (start s₀ kernel) u
  /-- It is about to populate. -/
  before : u.pc = .sendBatch
  /-- It populates. -/
  populates : P.step u .run = some v
  /-- The batch has `n` messages. -/
  batch : v.pc = .flush n 0
  /-- It is flushed, with any outcomes of `sendmmsg` and `wait_for_socket_writable`. -/
  flush : Runs P.step InFlush v x
  /-- The flush fails after `k` messages. -/
  fails : x.pc = .rollback n k k
  /-- It is rolled back. -/
  rollback : Runs P.step InFlush x w
  /-- `run()` returns. -/
  returned : w.pc = .returned true

/-- What a failed flush leaves of a batch that `populate_batch_entries` builds from `s` at time
`ts`, of which the messages to `sent` are accepted and those to `unsent` are not. -/
structure RollsBack (P : PingScanner) (ts : Timespec) (s : PingState) (sent unsent : List ℕ)
    (s' : PingState) : Prop where
  /-- A batch of that many messages consists of the accepted ones. -/
  batch : ((P.limited sent.length).populateBatchEntries ts s).1.sendAddrs.take sent.length = sent
  /-- The active slots are those of populating the accepted messages only. -/
  slots : ∀ (i : ℕ) (p : ProbeInfo), p.active = true → (s'.probeTable[i]? = some p ↔
    ((P.limited sent.length).populateBatchEntries ts s).1.probeTable[i]? = some p)
  /-- So is `host_to_probe_`. -/
  mapped : s'.hostToProbe = ((P.limited sent.length).populateBatchEntries ts s).1.hostToProbe
  /-- So is `active_probes`. -/
  active : s'.activeProbes = ((P.limited sent.length).populateBatchEntries ts s).1.activeProbes
  /-- The cursor is behind every accepted host. -/
  passed : ∀ h, P.baseIp + h ∈ sent → h < s'.nextHostIdx
  /-- The cursor is not behind any other host of the batch. -/
  offered : ∀ h, P.baseIp + h ∈ unsent → s'.nextHostIdx ≤ h

/-- The slot tables after the rollback are those of the first `k` entries; what remains is where the
cursor stands. -/
theorem Undone.rollsBack_iff (hk : P.Populated ts s sk k) (hn : P.Populated ts s s₁ n)
    (hlimited : (P.limited k).populateBatchEntries ts s = (sk, k)) (hclean : MapClean sk)
    (hcursor : sk.nextHostIdx ≤ s₁.nextHostIdx)
    (hkept : ∀ (i : ℕ) (p : ProbeInfo), sk.probeTable[i]? = some p → p.active = true →
      s₁.probeTable[i]? = some p)
    (h : P.Undone s₁ ((s₁.sendAddrs.take n).drop k) n s') {c : ℕ}
    (hpassed : ∀ i, P.baseIp + i ∈ (s₁.sendAddrs.take n).take k → i < c) :
    P.RollsBack ts s ((s₁.sendAddrs.take n).take k) ((s₁.sendAddrs.take n).drop k)
        { s' with nextHostIdx := c } ↔
      ∀ i, P.baseIp + i ∈ (s₁.sendAddrs.take n).drop k → c ≤ i := by
  have hsent := (hk.split hn hcursor).1
  have hlen : ((s₁.sendAddrs.take n).take k).length = k := by
    have hsize := hk.size
    have haddrs := hk.slotInv.sized.sendAddrs
    rw [hsent, ← hk.addrs, List.length_take]
    omega
  have hactive : ∀ (i : ℕ) (p : ProbeInfo), p.active = true →
      (s'.probeTable[i]? = some p ↔ sk.probeTable[i]? = some p) := fun i p hp =>
    (h.active i p hp).trans (hk.active_iff hn hcursor hkept hp).symm
  -- the active slots are those of a batch limited to `k`, so the other books are too
  obtain ⟨hmapped, hcount⟩ := h.slotInv.determined hk.slotInv h.clean hclean hactive
  refine ⟨fun hback => hback.offered, fun hoffered => ?_⟩
  refine ⟨?_, ?_, ?_, ?_, hpassed, hoffered⟩ <;> rw [hlen, hlimited]
  · rw [hk.addrs, ← hsent]
  · exact hactive
  · exact hmapped
  · exact hcount

/-- **A failed flush rolls back exactly the unsent part** of its batch, provided that no host was
passed over between the first unsent message and the cursor. -/
theorem rolls_back_iff {input : CString} {config : PingScannerConfig}
    (hparse : parseCidr input = some (config.baseIp, config.totalHosts)) (routedIp : Option ℕ)
    (ifaddrs : Option (List IfAddrs)) (pid : ℕ) {s₀ : PingState}
    (hs : (construct config routedIp ifaddrs pid).Sized s₀) {kernel : PingKernel} {n k : ℕ}
    {u v x w : PingWorld}
    (h : (construct config routedIp ifaddrs pid).FailedFlush s₀ kernel n k u v x w) :
    (construct config routedIp ifaddrs pid).RollsBack u.kernel.clock u.st
        ((v.st.sendAddrs.take n).take k) ((v.st.sendAddrs.take n).drop k) w.st ↔
      ∀ i, v.st.sendAddrs.getD k 0 ≤ config.baseIp + i → i < v.st.nextHostIdx →
        ¬ (construct config routedIp ifaddrs pid).Skips u.st i := by
  have hP := ranged_construct hparse routedIp ifaddrs pid
  have hbase : config.baseIp = (construct config routedIp ifaddrs pid).baseIp := rfl
  rw [hbase]
  generalize construct config routedIp ifaddrs pid = P at *
  obtain ⟨hu, hupc, hv, hvpc, hx, hxpc, hw, hwpc⟩ := h
  -- the batch
  obtain ⟨s₁, hloop, hvst⟩ : ∃ s₁, P.populateLoop u.kernel.clock
      (P.totalHosts - u.st.nextHostIdx) u.st 0 = (s₁, n) ∧ v.st = s₁ := by
    cases hout : P.populateBatchEntries u.kernel.clock u.st with
    | mk s₁ n' =>
      have hstep : P.step u .run = some { u with
          st := s₁
          pc := if n' = 0 then .receive else .flush n' 0
          trace := u.trace ++ P.reachedEvents u.st s₁ } := by
        simp only [step, runStep, hupc, hout]
      obtain rfl := Option.some.inj (hstep.symm.trans hv)
      dsimp only at hvpc
      split_ifs at hvpc
      obtain rfl : n' = n := by simpa using hvpc
      exact ⟨s₁, hout, rfl⟩
  have hout : P.populateBatchEntries u.kernel.clock u.st = (s₁, n) := hloop
  rw [hvst]
  have hslot := slotInv_of_reachable hP hs hu
  have hcover := coverInv_of_reachable hP hs hu
  have hrunning : u.pc.isAborted = false := by rw [hupc]; rfl
  have hfresh := hcover.fresh hrunning
  have hclean := mapClean_of_reachable hP hs hu
  have hn := populated_populateBatchEntries hP hslot hfresh hout
  have hnodup : (s₁.sendAddrs.take n).Nodup := by
    rw [hn.addrs]
    exact (P.pairwise_eligible _ _ _).imp fun hab => Nat.ne_of_lt hab
  have hflushing : P.Flushing s₁ n v := by
    have hclean₁ : MapClean s₁ := by
      have hpop := hclean.populateLoop hP hslot u.kernel.clock
        (P.totalHosts - u.st.nextHostIdx) 0
      rwa [hloop] at hpop
    rw [Flushing, hvpc, hvst]
    exact ⟨rfl, Nat.zero_le n, .refl hn.slotInv hclean₁⟩
  obtain ⟨hlt, s', hundone, hwst⟩ := rolledBack_of_runs hP hn.slotInv
    (fun i hi => (hn.staged i hi).imp fun q hq => hq.1) hnodup hflushing hx hxpc hw hwpc
  -- the first `k` entries
  obtain ⟨sk, turns, left, hlimited, hturns, hrest⟩ := populateLoop_prefix (P := P)
    u.kernel.clock u.st (P.totalHosts - u.st.nextHostIdx)
    (Nat.zero_le k) (by rw [hloop]; exact hlt.le)
  rw [hloop] at hrest
  have hk : P.Populated u.kernel.clock u.st sk k := by
    have hpop := populated_populateLoop hP hslot hfresh u.kernel.clock turns
    rwa [hturns] at hpop
  obtain ⟨hcursor, hkept⟩ := hk.slotInv.kept_populateLoop hP u.kernel.clock left k
  rw [hrest] at hcursor hkept
  dsimp only at hcursor hkept
  have hcleank : MapClean sk := by
    have hpop := hclean.populateLoop hP hslot u.kernel.clock turns 0
    rwa [hturns] at hpop
  -- the cursor after the rewind
  obtain ⟨hsent, hunsent⟩ := hk.split hn hcursor
  have hlen : ((s₁.sendAddrs.take n).drop k).length = n - k := by
    have hsize := hn.size
    have haddrs := hn.slotInv.sized.sendAddrs
    rw [List.length_drop, List.length_take]
    omega
  have hrewind : subU64 s'.nextHostIdx (n - k) =
      s₁.nextHostIdx - ((s₁.sendAddrs.take n).drop k).length := by
    have hfew := P.length_eligible_le u.st.foundIpsCache sk.nextHostIdx s₁.nextHostIdx
    have htotal := hn.cursor_total
    have hstart := hcover.cursor hrunning
    have hreached := hcover.total
    have hhosts := hP.hosts
    rw [hlen, hundone.cursor]
    rw [← hunsent, hlen] at hfew
    exact subU64_of_le (by omega) (by omega)
  have hpassed : ∀ i, P.baseIp + i ∈ (s₁.sendAddrs.take n).take k →
      i < s₁.nextHostIdx - ((s₁.sendAddrs.take n).drop k).length := by
    intro i hi
    have hfew := P.length_eligible_le u.st.foundIpsCache sk.nextHostIdx s₁.nextHostIdx
    rw [hsent] at hi
    obtain ⟨j, -, hj, -, -, hij⟩ := mem_eligible.mp hi
    rw [hunsent]
    omega
  rw [hwst, hrewind, hundone.rollsBack_iff hk hn hlimited hcleank hcursor hkept hpassed, hunsent]
  -- the first unsent message
  cases hfirst : P.eligible u.st.foundIpsCache sk.nextHostIdx s₁.nextHostIdx with
  | nil =>
    rw [hunsent, hfirst, List.length_nil] at hlen
    omega
  | cons first rest =>
    have hget : s₁.sendAddrs.getD k 0 = first := by
      have hzero : ((s₁.sendAddrs.take n).drop k)[0]? = some first := by
        rw [hunsent, hfirst]
        rfl
      rw [List.getElem?_drop, Nat.add_zero, List.getElem?_take_of_lt hlt] at hzero
      rw [List.getD_eq_getElem?_getD, hzero]
      rfl
    rw [hget, ← hfirst, rewind_iff hfirst]
    refine forall_congr' fun i => ?_
    refine forall_congr' fun hi => ?_
    refine forall_congr' fun _ => ?_
    -- hosts from there on hold no slot
    have hmem : first ∈ P.eligible u.st.foundIpsCache sk.nextHostIdx s₁.nextHostIdx := by
      rw [hfirst]
      exact List.mem_cons_self
    obtain ⟨j, hj, -, -, -, hij⟩ := mem_eligible.mp hmem
    have hmove := hk.cursor_le
    have hunmapped : backPointers P.baseIp u.st.hostToProbe (P.baseIp + i) = none := by
      by_contra hmapped
      have := hfresh _ hmapped
      omega
    simp [Skips, hunmapped]

/-- Executing a flush that fails, with a test on the states before and after it. -/
theorem exists_failedFlush (P : PingScanner) (s₀ : PingState) (kernel : PingKernel)
    (n k : ℕ) (flush : List PingLabel) (test : PingWorld → PingWorld → Bool)
    (h : (exec P.step (start s₀ kernel) [.run]).any (fun u =>
      u.pc == .sendBatch && (P.step u .run).any fun v =>
        v.pc == .flush n 0 &&
        (execWhen P.step (fun w l => decide (InFlush w l)) v flush).any fun x =>
          x.pc == .rollback n k k &&
          (execWhen P.step (fun w l => decide (InFlush w l)) x
            (List.replicate (n - k + 1) PingLabel.run)).any fun w =>
              w.pc == .returned true && test v w) = true) :
    ∃ u v x w, P.FailedFlush s₀ kernel n k u v x w ∧ test v w = true := by
  -- before the batch, behind it, at the failure, and behind the rollback
  obtain ⟨u, hu, hrest⟩ := exists_reachable_of_exec [PingLabel.run] _ h
  simp only [Bool.and_eq_true, beq_iff_eq] at hrest
  obtain ⟨hbefore, hstep⟩ := hrest
  obtain ⟨v, hv, hrest⟩ := (Option.any_eq_true _ _).mp hstep
  simp only [Bool.and_eq_true, beq_iff_eq] at hrest
  obtain ⟨hbatch, hflush⟩ := hrest
  obtain ⟨x, hx, hrest⟩ := exists_runs_of_execWhen InFlush flush _ hflush
  simp only [Bool.and_eq_true, beq_iff_eq] at hrest
  obtain ⟨hfails, hrollback⟩ := hrest
  obtain ⟨w, hw, hrest⟩ := exists_runs_of_execWhen InFlush _ _ hrollback
  simp only [Bool.and_eq_true, beq_iff_eq] at hrest
  exact ⟨u, v, x, w, ⟨hu, hbefore, hv, hbatch, hx, hfails, hw, hrest.1⟩, hrest.2⟩

/-- `10.0.0.9/31`: the first host is sent to, the kernel has no buffer for the second one. -/
theorem rolls_back_iff_pair : ∃ u v w : PingWorld, v.st.sendAddrs = [167772168, 167772169] ∧
    w.pc = .returned true ∧
    ((construct { baseIp := 167772168, totalHosts := 2 } none none 7).RollsBack u.kernel.clock u.st
        ((v.st.sendAddrs.take 2).take 1) ((v.st.sendAddrs.take 2).drop 1) w.st ↔
      ∀ i, v.st.sendAddrs.getD 1 0 ≤ 167772168 + i → i < v.st.nextHostIdx →
        ¬ (construct { baseIp := 167772168, totalHosts := 2 } none none 7).Skips u.st i) := by
  obtain ⟨u, v, x, w, hflush, htest⟩ := exists_failedFlush
    (construct { baseIp := 167772168, totalHosts := 2 } none none 7)
    (construct { baseIp := 167772168, totalHosts := 2 } none none 7).initializeBuffers
    { clock := {}, rxQueue := [], rxEdge := false } 2 1
    [.sendmmsg (.sent 1), .tick { tvSec := 1 }, .sendmmsg (.error 105)]
    (fun v _ => v.st.sendAddrs == [167772168, 167772169]) (by decide)
  have hparse : parseCidr [49, 48, 46, 48, 46, 48, 46, 57, 47, 51, 49] = some (167772168, 2) := by
    decide
  exact ⟨u, v, w, by simpa using htest, hflush.returned,
    rolls_back_iff hparse none none 7 (sized_initializeBuffers _) hflush⟩

/-- The subnet `10.0.0.8/30` scanned from `10.0.0.9`: the batch is `.9` and `.10`, and the cursor
also passes the broadcast address. `sendmmsg` accepts nothing, the cursor goes back by two, and `.9`
is behind it. -/
theorem not_rolls_back :
    parseCidr [49, 48, 46, 48, 46, 48, 46, 56, 47, 51, 48] = some (167772168, 4) ∧
    ∃ u v x w, (construct { baseIp := 167772168, totalHosts := 4 } (some 167772169)
        (some [⟨"eth0", some (2, 167772169), some 4294967292, 3⟩]) 7).FailedFlush
      (construct { baseIp := 167772168, totalHosts := 4 } (some 167772169)
        (some [⟨"eth0", some (2, 167772169), some 4294967292, 3⟩]) 7).initializeBuffers
      { clock := {}, rxQueue := [], rxEdge := false } 2 0 u v x w ∧
      ¬ (construct { baseIp := 167772168, totalHosts := 4 } (some 167772169)
        (some [⟨"eth0", some (2, 167772169), some 4294967292, 3⟩]) 7).RollsBack u.kernel.clock u.st
          ((v.st.sendAddrs.take 2).take 0) ((v.st.sendAddrs.take 2).drop 0) w.st := by
  refine ⟨by decide, ?_⟩
  obtain ⟨u, v, x, w, hflush, htest⟩ := exists_failedFlush
    (construct { baseIp := 167772168, totalHosts := 4 } (some 167772169)
      (some [⟨"eth0", some (2, 167772169), some 4294967292, 3⟩]) 7)
    (construct { baseIp := 167772168, totalHosts := 4 } (some 167772169)
      (some [⟨"eth0", some (2, 167772169), some 4294967292, 3⟩]) 7).initializeBuffers
    { clock := {}, rxQueue := [], rxEdge := false } 2 0
    [.sendmmsg (.error 105)]
    (fun v w => v.st.sendAddrs.take 2 == [167772169, 167772170] && w.st.nextHostIdx == 2)
    (by decide)
  simp only [Bool.and_eq_true, beq_iff_eq] at htest
  refine ⟨u, v, x, w, hflush, fun hback => ?_⟩
  have hbehind := hback.offered 1
  rw [htest.1, htest.2] at hbehind
  exact absurd (hbehind (List.mem_cons_self)) (by decide)

end PingScanner

end Netscan
