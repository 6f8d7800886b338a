import Netscan.Ping.Scanner
import Netscan.Lib.SlotTable
import Netscan.Utils.Cidr

/-! # The slot-table invariant of the ping scanner

`probe_table_`, `host_to_probe_`, `active_probes` and `found_ips_cache_` describe one thing, which
hosts are outstanding and which are found. `SlotInv` says that they agree: the probe table is a slot
table linked to the back-pointers of `host_to_probe_`. The three hand-written copies of the release
code are one operation `freeSlot` on states with the invariant, and `claimSlot` is its inverse. -/

namespace Netscan

open MachineInt SlotTable

/-- The ranges that a scanner built from a parsed CIDR range has. With them, no address and no slot
number wraps in the fields that hold them. -/
structure PingScanner.Ranged (P : PingScanner) : Prop where
  /-- The range ends inside the address space. -/
  fits : P.baseIp + P.totalHosts ≤ 2 ^ 32
  /-- There are at most `2 ^ 31` hosts. -/
  hosts : P.totalHosts ≤ 2 ^ 31
  /-- There are at most as many slots as hosts. -/
  probes : P.maxProbes ≤ P.totalHosts
  /-- The send batch is at most the host count. -/
  sendBatch : P.sendBatchSize ≤ P.totalHosts

/-- The constructor clamps its sizes to the parsed range, so a constructed scanner is `Ranged`. -/
theorem PingScanner.ranged_construct {input : CString} {config : PingScannerConfig}
    (hparse : parseCidr input = some (config.baseIp, config.totalHosts)) (routedIp : Option ℕ)
    (ifaddrs : Option (List IfAddrs)) (pid : ℕ) :
    (PingScanner.construct config routedIp ifaddrs pid).Ranged := by
  obtain ⟨hfits, hhosts⟩ := parseCidr_range hparse
  exact ⟨hfits, hhosts, Nat.min_le_right _ _, safeBatchSize_le _ _⟩

/-- The host that a probe-table entry holds: its own, while it is active. -/
def ProbeInfo.held (p : ProbeInfo) : Option ℕ := if p.active then some p.destIp else none

@[simp] theorem ProbeInfo.held_default : ({} : ProbeInfo).held = none := rfl

theorem ProbeInfo.held_eq_some {p : ProbeInfo} {ip : ℕ} :
    p.held = some ip ↔ p.active = true ∧ p.destIp = ip := by
  unfold held
  split <;> simp_all

theorem ProbeInfo.held_eq_none {p : ProbeInfo} : p.held = none ↔ p.active = false := by
  unfold held
  split <;> simp_all

/-- `host_to_probe_` read as back-pointers from addresses to slots, as the slot-table library has
them. -/
def backPointers (base : ℕ) (m : List ℤ) (ip : ℕ) : Option ℕ :=
  if ip < base then none else m[ip - base]?.bind fun v => if v ≥ 0 then some v.toNat else none

/-- Writing an entry of `host_to_probe_` moves the back-pointer of one address. -/
theorem backPointers_set {base ip : ℕ} {m : List ℤ} (hip : base ≤ ip) (hlt : ip - base < m.length)
    (v : ℤ) : backPointers base (m.set (ip - base) v) =
      Function.update (backPointers base m) ip (if v ≥ 0 then some v.toNat else none) := by
  funext ip'
  unfold backPointers
  by_cases h : ip' = ip
  · subst h
    simp [Nat.not_lt.mpr hip, hlt]
  · rw [Function.update_of_ne h]
    by_cases hb : ip' < base
    · simp [hb]
    · rw [if_neg hb, if_neg hb, List.getElem?_set_ne (by omega)]

/-- An address with a back-pointer is in the range, and its entry of `host_to_probe_` is the
slot. -/
theorem range_of_backPointers {base ip i : ℕ} {m : List ℤ} (h : backPointers base m ip = some i) :
    base ≤ ip ∧ ip - base < m.length ∧ m[ip - base]? = some (i : ℤ) := by
  unfold backPointers at h
  split at h
  · cases h
  · obtain ⟨v, hv, hi⟩ := Option.bind_eq_some_iff.mp h
    split at hi
    · obtain rfl : v.toNat = i := by simpa using hi
      exact ⟨by omega, (List.getElem?_eq_some_iff.mp hv).1, by rw [hv]; congr 1; omega⟩
    · cases hi

/-- What the invariant reads: the tables, the cache, the two counters and the batch sizes. -/
def PingState.tables (s : PingState) :
    List ProbeInfo × List ℤ × ℕ × List ℕ × ℕ × ℕ × ℕ :=
  (s.probeTable, s.hostToProbe, s.activeProbes, s.foundIpsCache, s.hostsFound,
    s.sendAddrs.length, s.sendProbeSlots.length)

namespace PingScanner

variable {P : PingScanner} {s : PingState} {i ip : ℕ} {p : ProbeInfo}

/-- **The slot-table invariant.** Table and back-pointers agree, the counters count, and no found
host holds a slot. It holds between any two steps of `run()`. -/
structure SlotInv (P : PingScanner) (s : PingState) : Prop where
  /-- The vectors have the sizes of construction. -/
  sized : P.Sized s
  /-- `active_probes` counts the slots in use. -/
  count : s.activeProbes = (keys ProbeInfo.held s.probeTable).length
  /-- `probe_table_` and `host_to_probe_` are inverse to each other. -/
  linked : Linked ProbeInfo.held s.probeTable (backPointers P.baseIp s.hostToProbe)
  /-- No host is found twice. -/
  foundNodup : s.foundIpsCache.Nodup
  /-- Only hosts of the range are found. -/
  foundRange : ∀ ip ∈ s.foundIpsCache, P.baseIp ≤ ip ∧ ip < P.baseIp + P.totalHosts
  /-- A found host is not outstanding. -/
  foundFree : ∀ ip ∈ s.foundIpsCache, backPointers P.baseIp s.hostToProbe ip = none
  /-- `hosts_found` counts the hosts found. -/
  foundCount : s.hostsFound = s.foundIpsCache.length

/-- States with the same tables have the invariant together, whatever else differs. -/
theorem SlotInv.congr {s' : PingState} (h : P.SlotInv s) (htables : s'.tables = s.tables) :
    P.SlotInv s' := by
  simp only [PingState.tables, Prod.mk.injEq] at htables
  obtain ⟨htable, hmap, hactive, hfound, hcount, haddrs, hslots⟩ := htables
  refine ⟨⟨?_, ?_, ?_, ?_⟩, ?_, ?_, ?_, ?_, ?_, ?_⟩
  · rw [htable]; exact h.sized.probeTable
  · rw [hmap]; exact h.sized.hostToProbe
  · rw [haddrs]; exact h.sized.sendAddrs
  · rw [hslots]; exact h.sized.sendProbeSlots
  · rw [hactive, htable]; exact h.count
  · rw [htable, hmap]; exact h.linked
  · rw [hfound]; exact h.foundNodup
  · rw [hfound]; exact h.foundRange
  · rw [hfound, hmap]; exact h.foundFree
  · rw [hcount, hfound]; exact h.foundCount

/-! ### Lookups under the invariant -/

theorem hostIndexForIp_of_mem (hP : P.Ranged) (hlo : P.baseIp ≤ ip)
    (hhi : ip < P.baseIp + P.totalHosts) : P.hostIndexForIp ip = ((ip - P.baseIp : ℕ) : ℤ) := by
  have hhosts := hP.hosts
  have hidx : ip - P.baseIp < P.totalHosts := by omega
  rw [hostIndexForIp, if_neg (by omega)]
  simp only [ge_iff_le, Nat.not_le.mpr hidx, if_false]
  exact toInt32_of_lt (by omega)

/-- `host_index_for_ip` is nonnegative exactly on the range, so the tests for `-1` in the source are
range tests. -/
theorem hostIndexForIp_nonneg_iff (hP : P.Ranged) :
    0 ≤ P.hostIndexForIp ip ↔ P.baseIp ≤ ip ∧ ip < P.baseIp + P.totalHosts := by
  by_cases h : P.baseIp ≤ ip ∧ ip < P.baseIp + P.totalHosts
  · simp [h, hostIndexForIp_of_mem hP h.1 h.2]
  · simp only [h, iff_false, hostIndexForIp]
    split
    · omega
    · rw [if_pos (by omega)]; omega

/-- The active slots are at most `max_probes_`, as each is an entry of the table. -/
theorem SlotInv.active_le (h : P.SlotInv s) : s.activeProbes ≤ P.maxProbes := by
  rw [h.count, ← h.sized.probeTable]
  exact length_keys_le

/-- An active entry's host is in the range, and `host_to_probe_` points back at its slot. -/
theorem SlotInv.back_of_active (h : P.SlotInv s) (hi : s.probeTable[i]? = some p)
    (hp : p.active = true) :
    P.baseIp ≤ p.destIp ∧ p.destIp < P.baseIp + P.totalHosts ∧
      s.hostToProbe[p.destIp - P.baseIp]? = some (i : ℤ) := by
  have hback := (h.linked p.destIp i).mpr ⟨p, hi, ProbeInfo.held_eq_some.mpr ⟨hp, rfl⟩⟩
  obtain ⟨hlo, hlt, hv⟩ := range_of_backPointers hback
  have hlen := h.sized.hostToProbe
  exact ⟨hlo, by omega, hv⟩

/-- An entry of `host_to_probe_` that is not `-1` is the slot of its host. -/
theorem SlotInv.active_of_back (h : P.SlotInv s) {hostIdx : ℕ} {v : ℤ}
    (hv : s.hostToProbe[hostIdx]? = some v) (hnonneg : 0 ≤ v) :
    ∃ p, s.probeTable[v.toNat]? = some p ∧ p.active = true ∧ p.destIp = P.baseIp + hostIdx := by
  have hback : backPointers P.baseIp s.hostToProbe (P.baseIp + hostIdx) = some v.toNat := by
    simp [backPointers, hv, hnonneg]
  obtain ⟨p, hp, hheld⟩ := (h.linked _ _).mp hback
  obtain ⟨hact, hdest⟩ := ProbeInfo.held_eq_some.mp hheld
  exact ⟨p, hp, hact, hdest⟩

/-- While fewer than `max_probes_` probes are active, the search for a slot finds a free one. -/
theorem SlotInv.findAvailableProbeSlot (hP : P.Ranged) (h : P.SlotInv s)
    (hlt : s.activeProbes < P.maxProbes) :
    ∃ (i : ℕ) (p : ProbeInfo), PingScanner.findAvailableProbeSlot s = (i : ℤ) ∧
      s.probeTable[i]? = some p ∧ p.active = false := by
  rw [h.count, ← h.sized.probeTable] at hlt
  obtain ⟨i, p, hfind, hi, hfree⟩ := exists_findIdx?_free hlt
  refine ⟨i, p, ?_, hi, ProbeInfo.held_eq_none.mp hfree⟩
  -- an inactive entry is one that holds no host, so the search is that of the slot table
  have hsame : (fun e : ProbeInfo => !e.active) = fun e => e.held.isNone := by
    funext e
    cases ha : e.active <;> simp [ProbeInfo.held, ha]
  have hbound : i < s.probeTable.length := (List.getElem?_eq_some_iff.mp hi).1
  have hprobes := hP.probes
  have hhosts := hP.hosts
  have hlen := h.sized.probeTable
  rw [PingScanner.findAvailableProbeSlot, hsame, hfind]
  exact toInt32_of_lt (by omega)

/-! ### Releasing a slot -/

/-- The operation behind the three release paths: slot `slot` no longer holds its host. -/
def freeSlot (P : PingScanner) (slot : ℕ) (s : PingState) : PingState :=
  { s with
    hostToProbe := s.hostToProbe.set ((probeAt s slot).destIp - P.baseIp) (-1)
    probeTable := s.probeTable.set slot { probeAt s slot with active := false }
    activeProbes := s.activeProbes - 1 }

theorem probeAt_of_getElem? (hi : s.probeTable[i]? = some p) : probeAt s i = p := by
  simp [probeAt, hi]

/-- Releasing a used slot keeps the invariant: table, back-pointer and counter lose the same
probe. -/
theorem SlotInv.freeSlot (h : P.SlotInv s) (hi : s.probeTable[i]? = some p)
    (hp : p.active = true) : P.SlotInv (P.freeSlot i s) := by
  obtain ⟨hlo, hhi, -⟩ := h.back_of_active hi hp
  have hheld : p.held = some p.destIp := ProbeInfo.held_eq_some.mpr ⟨hp, rfl⟩
  have hfreed : ({ p with active := false } : ProbeInfo).held = none := rfl
  have hlen := h.sized.hostToProbe
  have hset := backPointers_set (m := s.hostToProbe) hlo (by omega) (-1)
  simp only [PingScanner.freeSlot, probeAt_of_getElem? hi]
  -- the counter loses one, as the table does; the back-pointers are the library's `release`
  refine ⟨⟨by simp [h.sized.probeTable], by simp [h.sized.hostToProbe], h.sized.sendAddrs,
    h.sized.sendProbeSlots⟩, ?_, ?_, h.foundNodup, h.foundRange, ?_, h.foundCount⟩
  · have := (keys_release hi hheld hfreed).length_eq
    simp only [List.length_cons] at this
    rw [h.count]
    dsimp only
    omega
  · rw [hset]
    exact h.linked.release hi hheld hfreed
  · intro ip hip
    rw [hset]
    by_cases hc : ip = p.destIp
    · simp [hc]
    · rw [Function.update_of_ne hc]
      exact h.foundFree ip hip

/-- A used slot is released with a positive counter, so the guarded decrement decrements. -/
theorem SlotInv.decrementActive (h : P.SlotInv s) (hi : s.probeTable[i]? = some p)
    (hp : p.active = true) : decrementActive s.activeProbes = s.activeProbes - 1 := by
  have hmem : p.destIp ∈ keys ProbeInfo.held s.probeTable :=
    mem_keys.mpr ⟨i, p, hi, ProbeInfo.held_eq_some.mpr ⟨hp, rfl⟩⟩
  have hpos := List.length_pos_of_mem hmem
  rw [PingScanner.decrementActive, if_pos (by rw [h.count]; exact hpos)]

/-- `release_probe_slot` on a used slot is `freeSlot`: both guards of the source are met. -/
theorem SlotInv.releaseProbeSlot_eq (hP : P.Ranged) (h : P.SlotInv s)
    (hi : s.probeTable[i]? = some p) (hp : p.active = true) :
    P.releaseProbeSlot i s = P.freeSlot i s := by
  obtain ⟨hlo, hhi, hback⟩ := h.back_of_active hi hp
  have hlt : i < s.probeTable.length := (List.getElem?_eq_some_iff.mp hi).1
  have hidx := hostIndexForIp_of_mem hP hlo hhi
  simp only [releaseProbeSlot, PingScanner.freeSlot, probeAt_of_getElem? hi, Int.toNat_natCast,
    hidx, hp, h.decrementActive hi hp]
  rw [if_neg (by omega)]
  simp [slotOfHost, hback]

/-- `release_probe_slot` keeps the invariant, whatever the slot: on an unused one, or on none, it
does nothing. -/
theorem SlotInv.releaseProbeSlot (hP : P.Ranged) (h : P.SlotInv s) (slot : ℤ) :
    P.SlotInv (P.releaseProbeSlot slot s) := by
  -- a slot number out of range and an inactive slot are ignored by the guards of the source
  by_cases hout : slot < 0 ∨ slot.toNat ≥ s.probeTable.length
  · rwa [PingScanner.releaseProbeSlot, if_pos hout]
  · obtain ⟨i, rfl⟩ : ∃ i : ℕ, slot = i := ⟨slot.toNat, by omega⟩
    simp only [Int.toNat_natCast, not_or, ge_iff_le, Nat.not_le] at hout
    have hi : s.probeTable[i]? = some s.probeTable[i] := List.getElem?_eq_getElem hout.2
    cases hp : s.probeTable[i].active with
    | true =>
      rw [h.releaseProbeSlot_eq hP hi hp]
      exact h.freeSlot hi hp
    | false =>
      have : P.releaseProbeSlot (i : ℤ) s = s := by
        rw [PingScanner.releaseProbeSlot, if_neg (by simp; omega)]
        simp [probeAt_of_getElem? hi, hp]
      rwa [this]

/-- The reap of a timed-out slot is `freeSlot`, and counts one timeout. -/
theorem SlotInv.reapSlot_eq (hP : P.Ranged) (h : P.SlotInv s) (hi : s.probeTable[i]? = some p)
    (hp : p.active = true) {now : Timespec} (hold : now.elapsedNs p.sendTime > P.timeoutNs) :
    P.reapSlot now s i =
      { P.freeSlot i s with probeTimeouts := u32 (s.probeTimeouts + 1) } := by
  obtain ⟨hlo, hhi, hback⟩ := h.back_of_active hi hp
  have hidx := hostIndexForIp_of_mem hP hlo hhi
  have hlt : i < s.probeTable.length := (List.getElem?_eq_some_iff.mp hi).1
  have hlen := h.sized.probeTable
  have hprobes := hP.probes
  have hhosts := hP.hosts
  have hcast : toInt32 i = i := toInt32_of_lt (by omega)
  simp only [reapSlot, PingScanner.freeSlot, probeAt_of_getElem? hi, hidx, hp,
    h.decrementActive hi hp, hcast, Int.toNat_natCast]
  simp [slotOfHost, hback, hold]

/-- What the reap does to one slot: nothing, or release it because its probe is too old. -/
theorem SlotInv.reapSlot_cases (hP : P.Ranged) (h : P.SlotInv s) (now : Timespec) (i : ℕ) :
    P.reapSlot now s i = s ∨
      ∃ p, s.probeTable[i]? = some p ∧ p.active = true ∧
        now.elapsedNs p.sendTime > P.timeoutNs ∧ P.reapSlot now s i =
          { P.freeSlot i s with probeTimeouts := u32 (s.probeTimeouts + 1) } := by
  cases hi : s.probeTable[i]? with
  | none => left; simp [reapSlot, probeAt, hi]
  | some p =>
    cases hp : p.active with
    | false => left; simp [reapSlot, probeAt_of_getElem? hi, hp]
    | true =>
      by_cases hold : now.elapsedNs p.sendTime > P.timeoutNs
      · right; exact ⟨p, rfl, hp, hold, h.reapSlot_eq hP hi hp hold⟩
      · left; simp [reapSlot, probeAt_of_getElem? hi, hp, hold]

/-- The reap of one slot keeps the invariant, whether or not the slot is old enough to be reaped. -/
theorem SlotInv.reapSlot (hP : P.Ranged) (h : P.SlotInv s) (now : Timespec) (i : ℕ) :
    P.SlotInv (P.reapSlot now s i) := by
  rcases h.reapSlot_cases hP now i with heq | ⟨p, hi, hp, -, heq⟩
  · rwa [heq]
  · rw [heq]
    have hfree := h.freeSlot hi hp
    exact hfree.congr rfl

/-- `reap_timed_out_probes` keeps the invariant, slot after slot. -/
theorem SlotInv.reapTimedOutProbes (hP : P.Ranged) (h : P.SlotInv s) (now : Timespec) :
    P.SlotInv (P.reapTimedOutProbes now s) :=
  List.foldlRecOn _ _ h fun _ hs i _ => hs.reapSlot hP now i

/-! ### Claiming a slot -/

/-- The host at the cursor is passed over: it is an address of the local subnet itself, it is found
already, or it is outstanding. -/
def Skips (P : PingScanner) (s : PingState) (hostIdx : ℕ) : Prop :=
  P.skipsLocal (P.baseIp + hostIdx) = true ∨ P.baseIp + hostIdx ∈ s.foundIpsCache ∨
    backPointers P.baseIp s.hostToProbe (P.baseIp + hostIdx) ≠ none

/-- Target addresses do not wrap: the sum that the source computes in 32 bits is the address. -/
theorem target_eq (hP : P.Ranged) {h : ℕ} (hlt : h < P.totalHosts) :
    u32 (P.baseIp + u32 h) = P.baseIp + h := by
  have := hP.fits
  have := hP.hosts
  rw [u32_of_lt (n := h) (by omega), u32_of_lt (by omega)]

/-- The test on `host_to_probe_` in the populate loop asks for a back-pointer. -/
theorem slotOfHost_nonneg_iff (hostIdx : ℕ) :
    slotOfHost s hostIdx ≥ 0 ↔ backPointers P.baseIp s.hostToProbe (P.baseIp + hostIdx) ≠ none := by
  unfold slotOfHost backPointers
  rw [if_neg (by omega), Nat.add_sub_cancel_left, List.getD_eq_getElem?_getD]
  cases s.hostToProbe[hostIdx]? with
  | none => simp
  | some v => by_cases hv : 0 ≤ v <;> simp [hv]

/-- What one turn of the populate loop does: it ends when a gate is closed, passes over a host, or
claims a free slot for the host at the cursor. -/
theorem SlotInv.populateStep_cases (hP : P.Ranged) (h : P.SlotInv s) (ts : Timespec) (n : ℕ) :
    (¬ (s.nextHostIdx < P.totalHosts ∧ s.activeProbes < P.maxProbes ∧ n < P.sendBatchSize) ∧
      P.populateStep ts s n = none) ∨
    (s.nextHostIdx < P.totalHosts ∧ s.activeProbes < P.maxProbes ∧ n < P.sendBatchSize ∧
      ((P.Skips s s.nextHostIdx ∧
          P.populateStep ts s n = some ({ s with nextHostIdx := s.nextHostIdx + 1 }, n)) ∨
        (¬ P.Skips s s.nextHostIdx ∧
          ∃ (i : ℕ) (p : ProbeInfo), s.probeTable[i]? = some p ∧ p.active = false ∧
            P.populateStep ts s n =
              some (P.claimSlot ts (P.baseIp + s.nextHostIdx) s.nextHostIdx i n s, n + 1)))) := by
  by_cases hgate : s.nextHostIdx < P.totalHosts ∧ s.activeProbes < P.maxProbes ∧ n < P.sendBatchSize
  · refine .inr ⟨hgate.1, hgate.2.1, hgate.2.2, ?_⟩
    obtain ⟨i, p, hslot, hi, hp⟩ := h.findAvailableProbeSlot hP hgate.2.1
    have hidx : P.hostIndexForIp (P.baseIp + s.nextHostIdx) = (s.nextHostIdx : ℤ) := by
      rw [hostIndexForIp_of_mem hP (by omega) (by omega), Nat.add_sub_cancel_left]
    -- a slot is free, so the two tests on the slot number do not end the loop
    have hneg : ¬ (i : ℤ) < 0 := by omega
    simp only [populateStep, hgate, and_self, if_true, hslot, hneg, if_false, target_eq hP hgate.1,
      hidx, Int.toNat_natCast]
    by_cases hlocal : P.skipsLocal (P.baseIp + s.nextHostIdx) = true
    · left
      exact ⟨.inl hlocal, by simp [hlocal]⟩
    · rw [if_neg hlocal]
      by_cases hseen : P.baseIp + s.nextHostIdx ∈ s.foundIpsCache ∨
          backPointers P.baseIp s.hostToProbe (P.baseIp + s.nextHostIdx) ≠ none
      · left
        refine ⟨.inr hseen, if_pos ?_⟩
        right
        rcases hseen with hfound | hmap
        · left; simpa [isHostFound] using hfound
        · right; exact (slotOfHost_nonneg_iff _).mpr hmap
      · right
        refine ⟨fun hskip => hskip.elim hlocal hseen, i, p, hi, hp, if_neg ?_⟩
        rintro (hbad | hfound | hmap)
        · omega
        · exact hseen (.inl (by simpa [isHostFound] using hfound))
        · exact hseen (.inr ((slotOfHost_nonneg_iff _).mp hmap))
  · exact .inl ⟨hgate, by rw [populateStep, if_neg hgate]⟩

/-- Claiming a free slot for a host that is neither found nor outstanding keeps the invariant. -/
theorem SlotInv.claimSlot (h : P.SlotInv s) (hlt : s.nextHostIdx < P.totalHosts)
    (hskip : ¬ P.Skips s s.nextHostIdx) (hi : s.probeTable[i]? = some p) (hp : p.active = false)
    (ts : Timespec) (n : ℕ) :
    P.SlotInv (P.claimSlot ts (P.baseIp + s.nextHostIdx) s.nextHostIdx i n s) := by
  simp only [Skips, not_or, not_not] at hskip
  obtain ⟨-, hnew, hunmapped⟩ := hskip
  have hlen := h.sized.hostToProbe
  have hset := @backPointers_set P.baseIp (P.baseIp + s.nextHostIdx) s.hostToProbe (by omega)
    (by omega) (i : ℤ)
  simp only [Nat.add_sub_cancel_left, ge_iff_le, Int.natCast_nonneg, if_true,
    Int.toNat_natCast] at hset
  have hfree : p.held = none := ProbeInfo.held_eq_none.mpr hp
  have hheld : ∀ seq, ProbeInfo.held
      { active := true, destIp := P.baseIp + s.nextHostIdx, seq := seq, sendTime := ts } =
      some (P.baseIp + s.nextHostIdx) := fun _ => rfl
  simp only [PingScanner.claimSlot, prepareSinglePacket, Int.toNat_natCast]
  refine ⟨⟨by simp [h.sized.probeTable], by simp [h.sized.hostToProbe],
    by simp [h.sized.sendAddrs], by simp [h.sized.sendProbeSlots]⟩, ?_, ?_, h.foundNodup,
    h.foundRange, ?_, h.foundCount⟩
  · rw [(keys_claim hi hfree (hheld _)).length_eq, List.length_cons, h.count]
  · rw [hset]
    exact h.linked.claim hi hfree hunmapped (hheld _)
  · intro ip hip
    -- the host that claims the slot is not a found one
    rw [hset, Function.update_of_ne (by rintro rfl; exact hnew hip)]
    exact h.foundFree ip hip

/-- One turn of the populate loop keeps the invariant, whether it skips a host or claims a slot for
one. -/
theorem SlotInv.populateStep (hP : P.Ranged) (h : P.SlotInv s) {ts : Timespec} {n n' : ℕ}
    {s' : PingState} (hstep : P.populateStep ts s n = some (s', n')) : P.SlotInv s' := by
  rcases h.populateStep_cases hP ts n with
    ⟨-, hnone⟩ | ⟨hlt, -, -, ⟨-, hsome⟩ | ⟨hskip, i, p, hi, hp, hsome⟩⟩
  · rw [hnone] at hstep
    cases hstep
  · obtain ⟨rfl, -⟩ := Prod.mk.inj (Option.some.inj (hsome.symm.trans hstep))
    exact h.congr rfl
  · obtain ⟨rfl, -⟩ := Prod.mk.inj (Option.some.inj (hsome.symm.trans hstep))
    exact h.claimSlot hlt hskip hi hp ts n

/-- The populate loop keeps whatever its turns keep. All facts about the loop are proved with this
rule. -/
theorem populateLoop_induction {motive : PingState → ℕ → Prop} {ts : Timespec}
    (hstep : ∀ s n s' n', motive s n → P.populateStep ts s n = some (s', n') → motive s' n') :
    ∀ (left : ℕ) (s : PingState) (n : ℕ), motive s n →
      motive (P.populateLoop ts left s n).1 (P.populateLoop ts left s n).2
  | 0, _, _, h => h
  | left + 1, s, n, h => by
    rw [populateLoop]
    split
    · exact h
    · rename_i s' n' hturn
      exact populateLoop_induction hstep left s' n' (hstep s n s' n' h hturn)

/-- `populate_batch_entries` keeps the invariant, however many hosts it takes. -/
theorem SlotInv.populateBatchEntries (hP : P.Ranged) (h : P.SlotInv s) (ts : Timespec) :
    P.SlotInv (P.populateBatchEntries ts s).1 :=
  populateLoop_induction (motive := fun s _ => P.SlotInv s)
    (fun _ _ _ _ hs hstep => hs.populateStep hP hstep) _ s 0 h

/-! ### Accepting a reply -/

/-- The state after a reply of `ip` is accepted, up to the report of the result. -/
def foundState (P : PingScanner) (ip : ℕ) (s : PingState) : PingState :=
  let s' :=
    match backPointers P.baseIp s.hostToProbe ip with
    | some slot => P.freeSlot slot s
    | none => s
  { s' with
    foundIpsCache := s.foundIpsCache ++ [ip]
    hostsFound := s.hostsFound + 1 }

/-- The record of an accepted reply, as `process_received_packet` fills it in. -/
def replyResult (P : PingScanner) (recvTs : Timespec) (ttl : ℤ) (dns : Option String)
    (payload : PingPayload) : PingHostResult where
  ip := payload.targetIp
  ipStr := formatIp payload.targetIp
  hostname := if P.resolveDns then resolveHostname dns else "N/A"
  rttNs := max 0 (recvTs.elapsedNs ⟨payload.sendSec, payload.sendNsec⟩)
  ttl := ttl

/-- The report of a result: the callback is called, if it is set, and unless it throws the result is
appended. -/
def report (P : PingScanner) (throws : Bool) (r : PingHostResult) (s : PingState) :
    PingState × Bool :=
  let s := { s with called := if P.resultCallback then s.called ++ [r] else s.called }
  if P.resultCallback && throws then (s, true)
  else ({ s with scanResults := s.scanResults ++ [r] }, false)

/-- What the report changes: the calls, and unless the callback throws the results. -/
theorem report_fst (P : PingScanner) (throws : Bool) (r : PingHostResult) (s : PingState) :
    (P.report throws r s).1 = { s with
      called := if P.resultCallback then s.called ++ [r] else s.called
      scanResults :=
        if P.resultCallback && throws then s.scanResults else s.scanResults ++ [r] } := by
  unfold report
  dsimp only
  split <;> rfl

/-- Caching a host that is neither found nor outstanding keeps the invariant. -/
theorem SlotInv.cache (h : P.SlotInv s) (hlo : P.baseIp ≤ ip)
    (hhi : ip < P.baseIp + P.totalHosts) (hnew : ip ∉ s.foundIpsCache)
    (hfree : backPointers P.baseIp s.hostToProbe ip = none) :
    P.SlotInv { s with
      foundIpsCache := s.foundIpsCache ++ [ip]
      hostsFound := s.hostsFound + 1 } where
  sized := ⟨h.sized.1, h.sized.2, h.sized.3, h.sized.4⟩
  count := h.count
  linked := h.linked
  foundNodup := by
    refine List.nodup_append.mpr ⟨h.foundNodup, List.nodup_singleton ip, ?_⟩
    rintro a ha b hb rfl
    exact hnew (by rwa [List.mem_singleton.mp hb] at ha)
  foundRange := by
    intro a ha
    rcases List.mem_append.mp ha with ha | ha
    · exact h.foundRange a ha
    · rw [List.mem_singleton.mp ha]; exact ⟨hlo, hhi⟩
  -- no found host holds a slot: the new one by `hfree`, the others as before
  foundFree := by
    intro a ha
    rcases List.mem_append.mp ha with ha | ha
    · exact h.foundFree a ha
    · rw [List.mem_singleton.mp ha]; exact hfree
  foundCount := by simp [h.foundCount]

/-- Freeing a slot removes the back-pointer of its host, and of no other one. -/
theorem SlotInv.back_freeSlot (h : P.SlotInv s) (hi : s.probeTable[i]? = some p)
    (hp : p.active = true) :
    backPointers P.baseIp (P.freeSlot i s).hostToProbe =
      Function.update (backPointers P.baseIp s.hostToProbe) p.destIp none := by
  obtain ⟨hlo, hhi, -⟩ := h.back_of_active hi hp
  have hlen := h.sized.hostToProbe
  simp only [PingScanner.freeSlot, probeAt_of_getElem? hi]
  exact backPointers_set hlo (by omega) (-1)

/-- Accepting the first reply of a host of the range keeps the invariant. -/
theorem SlotInv.foundState (h : P.SlotInv s) (hlo : P.baseIp ≤ ip)
    (hhi : ip < P.baseIp + P.totalHosts) (hnew : ip ∉ s.foundIpsCache) :
    P.SlotInv (P.foundState ip s) := by
  rw [PingScanner.foundState]
  cases hback : backPointers P.baseIp s.hostToProbe ip with
  | none => exact h.cache hlo hhi hnew hback
  | some i =>
    obtain ⟨p, hi, hheld⟩ := (h.linked ip i).mp hback
    obtain ⟨hp, rfl⟩ := ProbeInfo.held_eq_some.mp hheld
    -- the slot of the host is freed, so the host can be cached
    refine (h.freeSlot hi hp).cache hlo hhi hnew ?_
    rw [h.back_freeSlot hi hp, Function.update_self]

/-- The end of `process_received_packet` is `foundState`, then the report: what the source does to
table, map and counter is one of two cases of `foundState`. -/
theorem SlotInv.acceptReply_eq (h : P.SlotInv s) (recvTs : Timespec) (ttl : ℤ) (dns : Option String)
    (throws : Bool) (payload : PingPayload) (hlo : P.baseIp ≤ payload.targetIp) :
    P.acceptReply recvTs ttl dns throws payload (payload.targetIp - P.baseIp) s =
      P.report throws (P.replyResult recvTs ttl dns payload) (P.foundState payload.targetIp s) := by
  have hip : P.baseIp + (payload.targetIp - P.baseIp) = payload.targetIp := by omega
  cases hback : backPointers P.baseIp s.hostToProbe payload.targetIp with
  | none =>
    -- a late reply: the host has no slot any more, and nothing is freed
    have hneg : ¬ slotOfHost s (payload.targetIp - P.baseIp) ≥ 0 := by
      rw [slotOfHost_nonneg_iff (P := P), hip]
      simp [hback]
    simp only [slotOfHost, ge_iff_le, List.getD_eq_getElem?_getD] at hneg
    cases hcb : P.resultCallback <;>
      simp [acceptReply, report, PingScanner.foundState, hback, slotOfHost, hneg, hcb, replyResult]
  | some i =>
    obtain ⟨p, hi, hheld⟩ := (h.linked _ i).mp hback
    obtain ⟨hp, hdest⟩ := ProbeInfo.held_eq_some.mp hheld
    obtain ⟨hlt, hget⟩ := List.getElem?_eq_some_iff.mp hi
    obtain ⟨-, -, hv⟩ := range_of_backPointers hback
    have hpos := h.decrementActive hi hp
    cases hcb : P.resultCallback <;>
      simp [acceptReply, report, PingScanner.foundState, PingScanner.freeSlot, hback, slotOfHost,
        hv, hlt, probeAt, hget, hp, hdest, hpos, hcb, replyResult]

/-- A datagram that the scanner accepts in state `s`: a reply of a host of the range that is not
found yet. -/
def Acceptable (P : PingScanner) (s : PingState) (d : Datagram) : Prop :=
  d.IsReplyOf d.srcIp ∧ P.baseIp ≤ d.srcIp ∧ d.srcIp < P.baseIp + P.totalHosts ∧
    d.srcIp ∉ s.foundIpsCache

/-- What the message loop does with a datagram: an acceptable one is accepted and reported, any
other one changes nothing but counters. -/
theorem SlotInv.receiveMessage_cases (hP : P.Ranged) (h : P.SlotInv s) (recvNow : Timespec)
    (dns : Option String) (throws : Bool) (d : Datagram) :
    (¬ P.Acceptable s d ∧ ∃ echo unmatched overflows,
      P.receiveMessage recvNow dns throws d s = ({ s with
        echoReplies := echo
        unmatchedReplies := unmatched
        rxQueueOverflows := overflows }, false)) ∨
    (P.Acceptable s d ∧ ∃ echo overflows recvTs ttl,
      P.receiveMessage recvNow dns throws d s =
        P.report throws (P.replyResult recvTs ttl dns d.payload) (P.foundState d.srcIp { s with
          echoReplies := echo
          rxQueueOverflows := overflows })) := by
  rw [receiveMessage]
  by_cases hshort : d.bytes.length < icmpHdrSize
  · left
    refine ⟨fun hacc => ?_, s.echoReplies, s.unmatchedReplies, s.rxQueueOverflows, if_pos hshort⟩
    have := hacc.1.1
    simp only [icmpHdrSize, pingPayloadSize] at this hshort
    omega
  rw [if_neg hshort]
  -- what the control messages say is part of the result, not of the tests
  obtain ⟨ttl, recvTs, overflows⟩ := extractControlData recvNow d.control s.rxQueueOverflows
  dsimp only
  rw [processReceivedPacket]
  by_cases hlen : d.bytes.length < icmpHdrSize + pingPayloadSize
  · left
    exact ⟨fun hacc => absurd hacc.1.1 (by omega), _, _, _, if_pos hlen⟩
  rw [if_neg hlen]
  by_cases htype : d.icmp.type = icmpEchoReply
  swap
  · left
    exact ⟨fun hacc => htype hacc.1.2.1, _, _, _, if_pos htype⟩
  rw [if_neg (not_not.mpr htype)]
  dsimp only
  by_cases hsrc : d.srcIp = d.payload.targetIp
  swap
  · left
    exact ⟨fun hacc => hsrc hacc.1.2.2.1.symm, _, _, _, if_pos hsrc⟩
  rw [if_neg (not_not.mpr hsrc)]
  have hnonneg : 0 ≤ P.hostIndexForIp d.payload.targetIp ↔ _ := hostIndexForIp_nonneg_iff hP
  by_cases hidx : P.hostIndexForIp d.payload.targetIp < 0
  · left
    refine ⟨fun hacc => ?_, _, _, _, if_pos hidx⟩
    have := hnonneg.mpr (hsrc ▸ ⟨hacc.2.1, hacc.2.2.1⟩)
    omega
  rw [if_neg hidx]
  obtain ⟨hlo, hhi⟩ := hnonneg.mp (by omega)
  by_cases hfound : d.payload.targetIp ∈ s.foundIpsCache
  · left
    refine ⟨fun hacc => hacc.2.2.2 (hsrc ▸ hfound), _, _, _, if_pos ?_⟩
    simpa [isHostFound] using hfound
  rw [if_neg (by simpa [isHostFound] using hfound)]
  right
  refine ⟨⟨⟨by omega, htype, hsrc.symm, rfl⟩, ?_, ?_, ?_⟩, u32 (s.echoReplies + 1), overflows,
    recvTs, ttl, ?_⟩
  · rwa [hsrc]
  · rwa [hsrc]
  · rwa [hsrc]
  · rw [hostIndexForIp_of_mem hP hlo hhi, Int.toNat_natCast, hsrc]
    refine SlotInv.acceptReply_eq ?_ recvTs ttl dns throws d.payload hlo
    exact h.congr rfl

/-- The report keeps the invariant, also when the callback throws. -/
theorem SlotInv.report (h : P.SlotInv s) (throws : Bool) (r : PingHostResult) :
    P.SlotInv (P.report throws r s).1 := by
  rw [report_fst]
  exact h.congr rfl

/-- Handling any datagram keeps the invariant, whatever its bytes, the resolver and the callback
are. -/
theorem SlotInv.receiveMessage (hP : P.Ranged) (h : P.SlotInv s) (recvNow : Timespec)
    (dns : Option String) (throws : Bool) (d : Datagram) :
    P.SlotInv (P.receiveMessage recvNow dns throws d s).1 := by
  rcases h.receiveMessage_cases hP recvNow dns throws d with
    ⟨-, echo, unmatched, overflows, heq⟩ | ⟨⟨-, hlo, hhi, hnew⟩, echo, overflows, recvTs, ttl, heq⟩
  · rw [heq]
    exact h.congr rfl
  · have hs : P.SlotInv { s with echoReplies := echo, rxQueueOverflows := overflows } :=
      h.congr rfl
    rw [heq]
    exact (hs.foundState hlo hhi hnew).report _ _

/-! ### The first loop head -/

/-- `run()` starts from the invariant on any scanner object: it fills the tables with their defaults
first. -/
theorem slotInv_beginRun (hs : P.Sized s) : P.SlotInv (beginRun s) where
  sized := ⟨by simp [beginRun, hs.probeTable], by simp [beginRun, hs.hostToProbe], hs.sendAddrs,
    hs.sendProbeSlots⟩
  count := by
    have hnil : keys ProbeInfo.held (beginRun s).probeTable = [] := keys_eq_nil (by simp [beginRun])
    rw [hnil]
    rfl
  linked := by
    -- `run()` resets both tables, so no entry holds a host and no back-pointer is set
    refine Linked.empty (by simp [beginRun]) fun ip => ?_
    unfold backPointers
    split
    · rfl
    · cases h : (beginRun s).hostToProbe[ip - P.baseIp]? with
      | none => rfl
      | some v =>
        obtain ⟨-, rfl⟩ : s.hostToProbe ≠ [] ∧ v = -1 := by
          simpa [beginRun] using List.mem_of_getElem? h
        rfl
  foundNodup := List.nodup_nil
  foundRange := by simp [beginRun]
  foundFree := by simp [beginRun]
  foundCount := rfl

end PingScanner

end Netscan
