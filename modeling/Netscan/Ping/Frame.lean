import Netscan.Ping.SlotInvariant
import Netscan.Ping.Steps

/-! # What the ping scanner's functions leave alone

Sending works on the cursor and the batch, receiving on the cache and the results: `sending` and
`reports` name the two halves of the state, and each function is shown to leave one of them alone.
`Releases` does the same for the slots: the functions that give slots back change no other entry,
and it says why each slot was given back. -/

namespace Netscan

open MachineInt SlotTable

/-- The cursor and the batch that is being sent, which the receiving side leaves alone. -/
def PingState.sending (s : PingState) : ℕ × List ℕ × List ℤ :=
  (s.nextHostIdx, s.sendAddrs, s.sendProbeSlots)

/-- The cache, the results and the calls of the callback, which only the handling of a datagram
changes. -/
def PingState.reports (s : PingState) : List ℕ × List PingHostResult × List PingHostResult :=
  (s.foundIpsCache, s.scanResults, s.called)

namespace PingScanner

variable {P : PingScanner} {s : PingState} {w w' : PingWorld} {l : PingLabel}

/-! ### Sending -/

/-- One turn of the populate loop reports nothing: it reads the cache and leaves it. -/
theorem reports_populateStep {ts : Timespec} {n n' : ℕ} {s' : PingState}
    (h : P.populateStep ts s n = some (s', n')) : s'.reports = s.reports := by
  unfold populateStep at h
  split at h
  · split at h
    · cases h
    · dsimp only at h
      split at h
      · cases h; rfl
      · split at h
        · cases h; rfl
        · cases h; rfl
  · cases h

/-- `populate_batch_entries` reports nothing, by its loop. -/
theorem reports_populateBatchEntries (P : PingScanner) (ts : Timespec) (s : PingState) :
    (P.populateBatchEntries ts s).1.reports = s.reports :=
  populateLoop_induction (motive := fun s' _ => s'.reports = s.reports)
    (fun _ _ _ _ hs hstep => (reports_populateStep hstep).trans hs) _ s 0 rfl

/-- `release_probe_slot` touches the slot tables only, so neither the batch nor the reports. -/
theorem releaseProbeSlot_frame (P : PingScanner) (slot : ℤ) (s : PingState) :
    (P.releaseProbeSlot slot s).sending = s.sending ∧
      (P.releaseProbeSlot slot s).reports = s.reports := by
  unfold releaseProbeSlot
  split
  · exact ⟨rfl, rfl⟩
  · dsimp only
    split <;> exact ⟨rfl, rfl⟩

/-- The reap of a slot touches the slot tables and its counter only. -/
theorem reapSlot_frame (P : PingScanner) (now : Timespec) (s : PingState) (i : ℕ) :
    (P.reapSlot now s i).sending = s.sending ∧ (P.reapSlot now s i).reports = s.reports := by
  unfold reapSlot
  dsimp only
  split
  · exact ⟨rfl, rfl⟩
  · split <;> exact ⟨rfl, rfl⟩

/-- `reap_timed_out_probes` touches the slot tables and its counter only, by its loop. -/
theorem reapTimedOutProbes_frame (P : PingScanner) (now : Timespec) (s : PingState) :
    (P.reapTimedOutProbes now s).sending = s.sending ∧
      (P.reapTimedOutProbes now s).reports = s.reports := by
  refine List.foldlRecOn
    (motive := fun s' : PingState => s'.sending = s.sending ∧ s'.reports = s.reports)
    _ _ ⟨rfl, rfl⟩ fun s' hs i _ => ?_
  obtain ⟨hsend, hrep⟩ := P.reapSlot_frame now s' i
  exact ⟨hsend.trans hs.1, hrep.trans hs.2⟩

/-! ### Receiving -/

/-- Accepting a reply sends nothing, as it leaves the batch and the cursor. -/
theorem sending_foundState (P : PingScanner) (ip : ℕ) (s : PingState) :
    (P.foundState ip s).sending = s.sending := by
  unfold foundState
  dsimp only
  split <;> rfl

/-- Reporting a result sends nothing, whether or not the callback throws. -/
theorem sending_report (P : PingScanner) (throws : Bool) (r : PingHostResult) (s : PingState) :
    (P.report throws r s).1.sending = s.sending := by
  rw [report_fst]
  rfl

/-- Handling a datagram sends nothing, on every exit. -/
theorem SlotInv.sending_receiveMessage (hP : P.Ranged) (h : P.SlotInv s) (recvNow : Timespec)
    (dns : Option String) (throws : Bool) (d : Datagram) :
    (P.receiveMessage recvNow dns throws d s).1.sending = s.sending := by
  rcases h.receiveMessage_cases hP recvNow dns throws d with
    ⟨-, echo, unmatched, overflows, heq⟩ | ⟨-, echo, overflows, recvTs, ttl, heq⟩
  · rw [heq]
    rfl
  · rw [heq, sending_report, sending_foundState]
    rfl

/-! ### Slots that are given back -/

/-- From `s` to `s'` slots are only given back, and the probe of each slot given back is `gone`. -/
structure Releases (gone : ProbeInfo → Prop) (s s' : PingState) : Prop where
  /-- The probes outstanding afterwards were outstanding before. -/
  kept : ∀ (i : ℕ) (p : ProbeInfo), s'.probeTable[i]? = some p → p.active = true →
    s.probeTable[i]? = some p
  /-- A probe outstanding before is still outstanding or gone. -/
  gone : ∀ (i : ℕ) (p : ProbeInfo), s.probeTable[i]? = some p → p.active = true →
    s'.probeTable[i]? = some p ∨ gone p

variable {gone gone' : ProbeInfo → Prop} {s₁ s₂ s₃ : PingState}

/-- Functions that leave the probe table alone release nothing, whatever the reason. -/
theorem Releases.of_eq (h : s₂.probeTable = s₁.probeTable) : Releases gone s₁ s₂ :=
  ⟨fun _ _ hi _ => h ▸ hi, fun _ _ hi _ => .inl (h.symm ▸ hi)⟩

/-- Releases compose: a slot given back by either was given back for the reason. -/
theorem Releases.trans (h₁ : Releases gone s₁ s₂) (h₂ : Releases gone s₂ s₃) :
    Releases gone s₁ s₃ where
  kept i p hi hp := h₁.kept i p (h₂.kept i p hi hp) hp
  gone i p hi hp := (h₁.gone i p hi hp).elim (fun hi' => h₂.gone i p hi' hp) .inr

/-- Slots that are given back for a reason are so for a weaker one. -/
theorem Releases.mono (h : Releases gone s₁ s₂) (hw : ∀ p, gone p → gone' p) :
    Releases gone' s₁ s₂ :=
  ⟨h.kept, fun i p hi hp => (h.gone i p hi hp).imp id (hw p)⟩

/-- Giving slots back unmaps hosts and maps none, as the maps follow the table. -/
theorem Releases.back (h : Releases gone s₁ s₂) (hs₁ : P.SlotInv s₁) (hs₂ : P.SlotInv s₂) {ip : ℕ}
    (hip : backPointers P.baseIp s₂.hostToProbe ip ≠ none) :
    backPointers P.baseIp s₁.hostToProbe ip ≠ none := by
  obtain ⟨i, hi⟩ := Option.ne_none_iff_exists'.mp hip
  obtain ⟨p, hp, hheld⟩ := (hs₂.linked ip i).mp hi
  have hkept := h.kept i p hp (ProbeInfo.held_eq_some.mp hheld).1
  rw [(hs₁.linked ip i).mpr ⟨p, hkept, hheld⟩]
  nofun

/-- `freeSlot` gives back one slot and leaves the others. -/
theorem releases_freeSlot {i : ℕ} {p : ProbeInfo} (hi : s.probeTable[i]? = some p) :
    Releases (· = p) s (P.freeSlot i s) where
  kept j q hj hq := by
    simp only [freeSlot] at hj
    by_cases hij : i = j
    · subst hij
      rw [List.getElem?_set_self (List.getElem?_eq_some_iff.mp hi).1] at hj
      cases hj
      cases hq
    · rwa [List.getElem?_set_ne hij] at hj
  gone j q hj hq := by
    simp only [freeSlot]
    by_cases hij : i = j
    · subst hij
      exact .inr (Option.some.inj (hj.symm.trans hi))
    · left
      rwa [List.getElem?_set_ne hij]

/-- `release_probe_slot` gives back at most its slot: none if the index is out of range or the slot
is free. -/
theorem SlotInv.releases_releaseProbeSlot (hP : P.Ranged) (h : P.SlotInv s) (slot : ℤ) :
    Releases (fun p => ∃ i : ℕ, slot = i ∧ s.probeTable[i]? = some p) s
      (P.releaseProbeSlot slot s) := by
  by_cases hout : slot < 0 ∨ slot.toNat ≥ s.probeTable.length
  · rw [PingScanner.releaseProbeSlot, if_pos hout]
    exact .of_eq rfl
  · obtain ⟨i, rfl⟩ : ∃ i : ℕ, slot = i := ⟨slot.toNat, by omega⟩
    have hlt : i < s.probeTable.length := by omega
    have hi : s.probeTable[i]? = some s.probeTable[i] := List.getElem?_eq_getElem hlt
    cases hp : s.probeTable[i].active with
    | true =>
      rw [h.releaseProbeSlot_eq hP hi hp]
      exact (releases_freeSlot hi).mono fun p hpe => ⟨i, rfl, by rw [hpe, hi]⟩
    | false =>
      -- a slot that is not active is left as it is
      have : P.releaseProbeSlot (i : ℤ) s = s := by
        rw [PingScanner.releaseProbeSlot, if_neg (by simp; omega)]
        simp [probeAt_of_getElem? hi, hp]
      rw [this]
      exact .of_eq rfl

/-- The reap gives back slots of probes that are too old, by induction on the slots that it
visits. -/
theorem SlotInv.releases_reap (hP : P.Ranged) (h : P.SlotInv s) (now : Timespec) (L : List ℕ) :
    Releases (fun p => now.elapsedNs p.sendTime > P.timeoutNs) s (L.foldl (P.reapSlot now) s) := by
  induction L generalizing s with
  | nil => exact .of_eq rfl
  | cons i L ih =>
    refine Releases.trans ?_ (ih (h.reapSlot hP now i))
    rcases h.reapSlot_cases hP now i with heq | ⟨p, hi, hp, hold, heq⟩
    · rw [heq]
      exact .of_eq rfl
    · rw [heq]
      have hfree : Releases (fun p => now.elapsedNs p.sendTime > P.timeoutNs) s (P.freeSlot i s) :=
        (releases_freeSlot hi).mono (by rintro q rfl; exact hold)
      exact ⟨hfree.kept, hfree.gone⟩

/-- The reap gives back the slots of all probes that are too old. -/
theorem SlotInv.reap_complete (hP : P.Ranged) (h : P.SlotInv s) (now : Timespec) (L : List ℕ)
    {i : ℕ} (hmem : i ∈ L) {p : ProbeInfo}
    (hi : (L.foldl (P.reapSlot now) s).probeTable[i]? = some p) (hp : p.active = true) :
    ¬ now.elapsedNs p.sendTime > P.timeoutNs := by
  induction L generalizing s with
  | nil => cases hmem
  | cons j L ih =>
    have hnext := h.reapSlot hP now j
    rcases List.mem_cons.mp hmem with rfl | hmem
    · -- the rest of the loop gives slots back only, so the entry is what the turn for `i` left
      have hleft := (hnext.releases_reap hP now L).kept i p hi hp
      intro hold
      have hbefore : s.probeTable[i]? = some p := by
        rcases h.reapSlot_cases hP now i with heq | ⟨q, hq, hqa, hqold, heq⟩
        · rwa [heq] at hleft
        · rw [heq] at hleft
          exact (releases_freeSlot (P := P) hq).kept i p hleft hp
      have hfreed := h.reapSlot_eq hP hbefore hp hold
      rw [hfreed] at hleft
      simp only [PingScanner.freeSlot, probeAt_of_getElem? hbefore] at hleft
      rw [List.getElem?_set_self (List.getElem?_eq_some_iff.mp hbefore).1] at hleft
      rw [← Option.some.inj hleft] at hp
      cases hp
    · exact ih hnext hmem hi

/-- Without active probes the table has no active entry, as the counter counts them. -/
theorem SlotInv.no_active (h : P.SlotInv s) (hactive : s.activeProbes = 0) {i : ℕ}
    {p : ProbeInfo} (hi : s.probeTable[i]? = some p) : p.active = false := by
  by_contra hp
  have hheld : p.held = some p.destIp :=
    ProbeInfo.held_eq_some.mpr ⟨Bool.eq_true_of_not_eq_false hp, rfl⟩
  have hpos := List.length_pos_of_mem (mem_keys.mpr ⟨i, p, hi, hheld⟩)
  have hcount := h.count
  omega

/-- A reap that leaves no probe active found all of them too old. -/
theorem SlotInv.overdue_of_reap (hP : P.Ranged) (h : P.SlotInv s) (now : Timespec)
    (hactive : (P.reapTimedOutProbes now s).activeProbes = 0) {i : ℕ} {p : ProbeInfo}
    (hi : s.probeTable[i]? = some p) (hp : p.active = true) :
    now.elapsedNs p.sendTime > P.timeoutNs := by
  rcases (h.releases_reap hP now _).gone i p hi hp with hkept | hold
  · have := (h.reapTimedOutProbes hP now).no_active hactive hkept
    rw [hp] at this
    cases this
  · exact hold

/-- A reap that finds all active probes too old leaves none active. -/
theorem SlotInv.reap_all (hP : P.Ranged) (h : P.SlotInv s) (now : Timespec)
    (hold : ∀ (i : ℕ) (p : ProbeInfo), s.probeTable[i]? = some p → p.active = true →
      now.elapsedNs p.sendTime > P.timeoutNs) :
    (P.reapTimedOutProbes now s).activeProbes = 0 := by
  rw [(h.reapTimedOutProbes hP now).count, List.length_eq_zero_iff]
  refine keys_eq_nil ?_
  intro p hmem
  obtain ⟨i, hi⟩ := List.mem_iff_getElem?.mp hmem
  refine ProbeInfo.held_eq_none.mpr (Bool.eq_false_iff.mpr ?_)
  intro hp
  have hrel := h.releases_reap hP now (List.range s.probeTable.length)
  have hbefore := hrel.kept i p hi hp
  have hlt := (List.getElem?_eq_some_iff.mp hbefore).1
  exact h.reap_complete hP now _ (List.mem_range.mpr hlt) hi hp (hold i p hbefore hp)

/-- Handling a datagram gives back at most the slot of its source, and only to find it. -/
theorem SlotInv.releases_receiveMessage (hP : P.Ranged) (h : P.SlotInv s) (recvNow : Timespec)
    (dns : Option String) (throws : Bool) (d : Datagram) :
    Releases (fun p => p.destIp = d.srcIp ∧ P.Acceptable s d) s
      (P.receiveMessage recvNow dns throws d s).1 := by
  rcases h.receiveMessage_cases hP recvNow dns throws d with
    ⟨-, echo, unmatched, overflows, heq⟩ | ⟨hacc, echo, overflows, recvTs, ttl, heq⟩
  · rw [heq]
    exact .of_eq rfl
  · rw [heq]
    refine Releases.trans ?_ (.of_eq (by rw [report_fst]))
    unfold PingScanner.foundState
    cases hback : backPointers P.baseIp s.hostToProbe d.srcIp with
    | none =>
      exact .of_eq rfl
    | some i =>
      obtain ⟨p, hi, hheld⟩ := (h.linked _ i).mp hback
      have hdest := (ProbeInfo.held_eq_some.mp hheld).2
      -- the slot given back is the one linked to the source
      have hfree : Releases (fun p => p.destIp = d.srcIp ∧ P.Acceptable s d) s (P.freeSlot i s) :=
        (releases_freeSlot hi).mono (by rintro q rfl; exact ⟨hdest, hacc⟩)
      simp only
      exact ⟨hfree.kept, hfree.gone⟩

/-! ### Runs -/

/-- Only the handling of a datagram reports anything. The frames of the other steps say so. -/
theorem reports_step (h : PingStep P w l w') (hl : ∀ dns throws, l ≠ .message dns throws) :
    w'.st.reports = w.st.reports := by
  cases h with
  | populate _ hout =>
    have := P.reports_populateBatchEntries w.kernel.clock w.st
    rwa [hout] at this
  | release _ _ hout =>
    subst hout
    exact (P.releaseProbeSlot_frame _ w.st).2
  | reap _ hout =>
    subst hout
    exact (P.reapTimedOutProbes_frame _ w.st).2
  | message _ _ => exact absurd rfl (hl _ _)
  | _ => rfl

end PingScanner

end Netscan
