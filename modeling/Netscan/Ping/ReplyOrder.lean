import Netscan.Ping.Replies
import Netscan.Ping.ReceiveDrain

/-! # The order of the replies

Which hosts are found does not depend on the order in which datagrams are handled. Two datagrams do
not commute on the nose: of two replies of one host the first one is accepted, with its round-trip
time, and the second one is unmatched. They do commute on what is left when the order of the cache
and the contents of the results are forgotten (`PingState.unordered`). On such states `absorb` is
the body of the message loop, a step that commutes with itself, so its fold over a list does not
depend on the order of the list. -/

namespace Netscan

open MachineInt

/-- A scanner's state without the order of its cache and without the results: the found addresses
as a multiset, and everything else. -/
def PingState.unordered (s : PingState) : Multiset ℕ × PingState :=
  (s.foundIpsCache, { s with foundIpsCache := [], scanResults := [], called := [] })

namespace PingScanner

variable {P : PingScanner} {s s' : PingState} {d d' : Datagram} {ip ip' : ℕ}

/-! ### The parts of the loop body -/

/-- What is counted of a datagram whatever is found: that it is an echo reply, and the drops that
its control messages report. -/
def tally (d : Datagram) (s : PingState) : PingState :=
  { s with
    rxQueueOverflows :=
      if d.bytes.length < icmpHdrSize then s.rxQueueOverflows
      else max s.rxQueueOverflows (maxDrops d.control)
    echoReplies := if d.IsEchoReply then u32 (s.echoReplies + 1) else s.echoReplies }

/-- What is counted of a datagram that discovers no host. -/
def miss (d : Datagram) (s : PingState) : PingState :=
  { s with
    unmatchedReplies :=
      if d.IsTruncated ∨ d.IsEchoReply then u32 (s.unmatchedReplies + 1)
      else s.unmatchedReplies }

/-- The slot that `host_to_probe_` names for an address, or a negative number. -/
def slotOfIp (P : PingScanner) (s : PingState) (ip : ℕ) : ℤ :=
  slotOfHost s (P.hostIndexForIp ip).toNat

/-- The entry of `host_to_probe_` for an address is a slot of the table. -/
def HasSlot (P : PingScanner) (s : PingState) (ip : ℕ) : Prop :=
  P.slotOfIp s ip ≥ 0 ∧ (P.slotOfIp s ip).toNat < s.probeTable.length

/-- The slot of an address is in use for it, so that a reply gives it back. -/
def Frees (P : PingScanner) (s : PingState) (ip : ℕ) : Prop :=
  P.HasSlot s ip ∧ (probeAt s (P.slotOfIp s ip).toNat).active = true ∧
    (probeAt s (P.slotOfIp s ip).toNat).destIp = ip

instance (P : PingScanner) (s : PingState) (ip : ℕ) : Decidable (P.HasSlot s ip) :=
  inferInstanceAs (Decidable (_ ∧ _))

instance (P : PingScanner) (s : PingState) (ip : ℕ) : Decidable (P.Frees s ip) :=
  inferInstanceAs (Decidable (_ ∧ _ ∧ _))

/-- What the acceptance of a reply does to the slots: the host is counted, and the slot that it
still holds is given back. -/
def settle (P : PingScanner) (ip : ℕ) (s : PingState) : PingState :=
  { s with
    hostsFound := s.hostsFound + 1
    probeTable :=
      if P.Frees s ip then
        s.probeTable.set (P.slotOfIp s ip).toNat
          { probeAt s (P.slotOfIp s ip).toNat with active := false }
      else s.probeTable
    hostToProbe :=
      if P.HasSlot s ip then s.hostToProbe.set (P.hostIndexForIp ip).toNat (-1)
      else s.hostToProbe
    activeProbes := if P.Frees s ip then decrementActive s.activeProbes else s.activeProbes }

/-- The body of the message loop on states without an order of the results. -/
def absorb (P : PingScanner) (v : Multiset ℕ × PingState) (d : Datagram) :
    Multiset ℕ × PingState :=
  if P.Recognizes d ∧ d.srcIp ∉ v.1 then (v.1 + {d.srcIp}, P.settle d.srcIp (tally d v.2))
  else (v.1, miss d (tally d v.2))

/-- The end of `process_received_packet`: settle the slot, cache the address, report the result. -/
theorem acceptReply_eq_settle (P : PingScanner) (recvTs : Timespec) (ttl : ℤ)
    (dns : Option String) (throws : Bool) (payload : PingPayload) (s : PingState) :
    P.acceptReply recvTs ttl dns throws payload (P.hostIndexForIp payload.targetIp).toNat s =
      P.report throws (P.replyResult recvTs ttl dns payload)
        { P.settle payload.targetIp s with
          foundIpsCache := s.foundIpsCache ++ [payload.targetIp] } := by
  -- the three ways of the code: the host's own slot, one that is no longer its own, or none
  by_cases hslot : s.hostToProbe.getD (P.hostIndexForIp payload.targetIp).toNat (-1) ≥ 0 ∧
      (s.hostToProbe.getD (P.hostIndexForIp payload.targetIp).toNat (-1)).toNat <
        s.probeTable.length
  · by_cases hprobe :
        (s.probeTable.getD
          (s.hostToProbe.getD (P.hostIndexForIp payload.targetIp).toNat (-1)).toNat {}).active =
            true ∧
        (s.probeTable.getD
          (s.hostToProbe.getD (P.hostIndexForIp payload.targetIp).toNat (-1)).toNat {}).destIp =
            payload.targetIp
    · simp only [acceptReply, report, settle, Frees, HasSlot, slotOfIp, slotOfHost, probeAt,
        replyResult, hslot, hprobe, and_self, if_true]
      split <;> split <;> rfl
    · simp only [acceptReply, report, settle, Frees, HasSlot, slotOfIp, slotOfHost, probeAt,
        replyResult, hslot, hprobe, and_self, and_false, if_true, if_false]
      split <;> split <;> rfl
  · simp only [acceptReply, report, settle, Frees, HasSlot, slotOfIp, slotOfHost,
      replyResult, hslot, false_and, if_false]
    split <;> split <;> rfl

/-- **The body of the message loop is `absorb`**, whatever the clock, the resolver and the callback
answer. -/
theorem unordered_receiveMessage (P : PingScanner) (recvNow : Timespec) (dns : Option String)
    (throws : Bool) (d : Datagram) (s : PingState) :
    (P.receiveMessage recvNow dns throws d s).1.unordered = P.absorb s.unordered d := by
  have hexit := P.handles_receiveMessage recvNow dns throws d s
  generalize P.receiveMessage recvNow dns throws d s = out at hexit
  -- without an echo reply nothing is recognized
  have hnone : ¬ d.IsEchoReply → ¬ (P.Recognizes d ∧ d.srcIp ∉ s.unordered.1) :=
    fun hecho h => hecho h.1.1
  cases hexit with
  | headless hshort =>
    have hecho : ¬ d.IsEchoReply := by
      rintro ⟨hlen, -⟩
      omega
    have htrunc : ¬ d.IsTruncated := by
      rintro ⟨hlen, -⟩
      omega
    rw [absorb, if_neg (hnone hecho)]
    simp only [miss, tally, if_pos hshort, if_neg hecho, if_neg (not_or.mpr ⟨htrunc, hecho⟩)]
  | truncated htrunc =>
    have hecho : ¬ d.IsEchoReply := fun hecho => hecho.not_isTruncated htrunc
    rw [absorb, if_neg (hnone hecho)]
    simp only [miss, tally, if_neg (Nat.not_lt.mpr htrunc.1), if_neg hecho,
      if_pos (Or.inl htrunc : d.IsTruncated ∨ d.IsEchoReply)]
    rfl
  | other hlen htype =>
    have hecho : ¬ d.IsEchoReply := fun hecho => htype hecho.2
    have htrunc : ¬ d.IsTruncated := by
      rintro ⟨-, hlt⟩
      omega
    have hheader : ¬ d.bytes.length < icmpHdrSize := by omega
    rw [absorb, if_neg (hnone hecho)]
    simp only [miss, tally, if_neg hheader, if_neg hecho, if_neg (not_or.mpr ⟨htrunc, hecho⟩)]
    rfl
  | unmatched hecho hnot =>
    have hheader : ¬ d.bytes.length < icmpHdrSize := by
      have := hecho.1
      omega
    have hold : ¬ (P.Recognizes d ∧ d.srcIp ∉ s.unordered.1) := hnot
    rw [absorb, if_neg hold]
    simp only [miss, tally, if_neg hheader, if_pos hecho,
      if_pos (Or.inr hecho : d.IsTruncated ∨ d.IsEchoReply)]
    rfl
  | discovered hdisc =>
    have hecho := hdisc.1.1
    have hheader : ¬ d.bytes.length < icmpHdrSize := by
      have := hecho.1
      omega
    have hnew : P.Recognizes d ∧ d.srcIp ∉ s.unordered.1 := hdisc
    rw [absorb, if_pos hnew, hdisc.1.2.1, acceptReply_eq_settle, PingState.unordered, report_fst]
    simp only [tally, if_neg hheader, if_pos hecho]
    rfl

/-! ### The parts commute -/

/-- Counting does not depend on the order: the counters are added to modulo their width. -/
theorem tally_tally (d d' : Datagram) (s : PingState) :
    tally d (tally d' s) = tally d' (tally d s) := by
  unfold tally
  dsimp only
  rw [PingState.mk.injEq]
  refine ⟨rfl, ?_, ?_, rfl, rfl, rfl, rfl, rfl, rfl, rfl, rfl, rfl, rfl, rfl, rfl, rfl, rfl⟩
  · split <;> split <;> first | rfl | exact max_right_comm _ _ _
  · split <;> split <;> rfl

/-- Counting the unmatched does not depend on the order. -/
theorem miss_miss (d d' : Datagram) (s : PingState) : miss d (miss d' s) = miss d' (miss d s) := by
  unfold miss
  dsimp only
  rw [PingState.mk.injEq]
  refine ⟨rfl, rfl, rfl, ?_, rfl, rfl, rfl, rfl, rfl, rfl, rfl, rfl, rfl, rfl, rfl, rfl, rfl⟩
  split <;> split <;> rfl

/-- A datagram is counted the same before and after one that discovers no host. -/
theorem tally_miss (d d' : Datagram) (s : PingState) : tally d (miss d' s) = miss d' (tally d s) :=
  rfl

/-- Counting does not look at the tables. -/
theorem tally_settle (d : Datagram) (ip : ℕ) (s : PingState) :
    tally d (P.settle ip s) = P.settle ip (tally d s) := rfl

/-- Counting the unmatched does not look at the tables. -/
theorem miss_settle (d : Datagram) (ip : ℕ) (s : PingState) :
    miss d (P.settle ip s) = P.settle ip (miss d s) := rfl

/-- Settling one host leaves the slot that `host_to_probe_` names for another one. -/
theorem slotOfIp_settle (hne : (P.hostIndexForIp ip).toNat ≠ (P.hostIndexForIp ip').toNat) :
    P.slotOfIp (P.settle ip' s) ip = P.slotOfIp s ip := by
  unfold slotOfIp slotOfHost settle
  dsimp only
  split
  · rw [List.getD_eq_getElem?_getD, List.getElem?_set_ne (Ne.symm hne),
      ← List.getD_eq_getElem?_getD]
  · rfl

/-- Settling keeps the size of the table, as it changes an entry in place. -/
theorem length_probeTable_settle : (P.settle ip s).probeTable.length = s.probeTable.length := by
  unfold settle
  dsimp only
  split
  · exact List.length_set
  · rfl

/-- Settling a host leaves the entries of the others. -/
theorem probeAt_settle (i : ℕ) (h : (probeAt s i).destIp ≠ ip) :
    probeAt (P.settle ip s) i = probeAt s i := by
  unfold probeAt settle
  dsimp only
  split
  · rename_i hfrees
    have hij : (P.slotOfIp s ip).toNat ≠ i := by
      rintro rfl
      exact h hfrees.2.2
    rw [List.getD_eq_getElem?_getD, List.getElem?_set_ne hij, ← List.getD_eq_getElem?_getD]
  · rfl

/-- Settling keeps the address of every entry. -/
theorem destIp_probeAt_settle (i : ℕ) :
    (probeAt (P.settle ip s) i).destIp = (probeAt s i).destIp := by
  unfold settle
  by_cases hfrees : P.Frees s ip
  · simp only [if_pos hfrees]
    by_cases hij : (P.slotOfIp s ip).toNat = i
    · subst hij
      simp [probeAt, hfrees.1.2]
    · rw [probeAt, List.getD_eq_getElem?_getD, List.getElem?_set_ne hij,
        ← List.getD_eq_getElem?_getD]
      rfl
  · simp only [if_neg hfrees]
    rfl

section Settle

variable (hne : (P.hostIndexForIp ip).toNat ≠ (P.hostIndexForIp ip').toNat)

include hne

/-- Settling one host leaves whether another one has a slot. -/
theorem hasSlot_settle : P.HasSlot (P.settle ip' s) ip ↔ P.HasSlot s ip := by
  unfold HasSlot
  rw [slotOfIp_settle hne, length_probeTable_settle]

/-- Settling one host leaves whether another one holds its slot. -/
theorem frees_settle : P.Frees (P.settle ip' s) ip ↔ P.Frees s ip := by
  have hip : ip ≠ ip' := fun h => hne (by rw [h])
  unfold Frees
  rw [hasSlot_settle hne, slotOfIp_settle hne, destIp_probeAt_settle]
  by_cases hdest : (probeAt s (P.slotOfIp s ip).toNat).destIp = ip
  · rw [probeAt_settle _ (by rw [hdest]; exact hip)]
  · simp [hdest]

/-- Settling two hosts gives the same table in both orders: they do not hold the same slot. -/
theorem probeTable_settle_settle :
    (P.settle ip (P.settle ip' s)).probeTable = (P.settle ip' (P.settle ip s)).probeTable := by
  have hip : ip ≠ ip' := fun h => hne (by rw [h])
  -- the table after the first host, and after the second one
  have hone : ∀ a s, (P.settle a s).probeTable = if P.Frees s a then
      s.probeTable.set (P.slotOfIp s a).toNat
        { probeAt s (P.slotOfIp s a).toNat with active := false }
      else s.probeTable := fun _ _ => rfl
  rw [hone ip (P.settle ip' s), hone ip' (P.settle ip s), if_congr (frees_settle hne) rfl rfl,
    if_congr (frees_settle (Ne.symm hne)) rfl rfl, slotOfIp_settle hne,
    slotOfIp_settle (Ne.symm hne)]
  by_cases h : P.Frees s ip
  · have hkept : probeAt (P.settle ip' s) (P.slotOfIp s ip).toNat =
        probeAt s (P.slotOfIp s ip).toNat := probeAt_settle _ (by rw [h.2.2]; exact hip)
    rw [if_pos h, hkept]
    by_cases h' : P.Frees s ip'
    · have hkept' : probeAt (P.settle ip s) (P.slotOfIp s ip').toNat =
          probeAt s (P.slotOfIp s ip').toNat :=
        probeAt_settle _ (by rw [h'.2.2]; exact Ne.symm hip)
      have hslots : (P.slotOfIp s ip').toNat ≠ (P.slotOfIp s ip).toNat := by
        intro heq
        have hdest := h'.2.2
        rw [heq, h.2.2] at hdest
        exact hip hdest
      rw [if_pos h', hkept', hone ip' s, hone ip s, if_pos h, if_pos h', List.set_comm _ _ hslots]
    · rw [if_neg h', hone ip' s, hone ip s, if_pos h, if_neg h']
  · rw [if_neg h]
    by_cases h' : P.Frees s ip'
    · have hkept' : probeAt (P.settle ip s) (P.slotOfIp s ip').toNat =
          probeAt s (P.slotOfIp s ip').toNat :=
        probeAt_settle _ (by rw [h'.2.2]; exact Ne.symm hip)
      rw [if_pos h', hkept', hone ip' s, hone ip s, if_neg h, if_pos h']
    · rw [if_neg h', hone ip' s, hone ip s, if_neg h, if_neg h']

/-- Settling two hosts gives the same `host_to_probe_` in both orders, as they have different
indices. -/
theorem hostToProbe_settle_settle :
    (P.settle ip (P.settle ip' s)).hostToProbe = (P.settle ip' (P.settle ip s)).hostToProbe := by
  have hone : ∀ a s, (P.settle a s).hostToProbe = if P.HasSlot s a then
      s.hostToProbe.set (P.hostIndexForIp a).toNat (-1) else s.hostToProbe := fun _ _ => rfl
  rw [hone ip (P.settle ip' s), hone ip' (P.settle ip s), if_congr (hasSlot_settle hne) rfl rfl,
    if_congr (hasSlot_settle (Ne.symm hne)) rfl rfl, hone ip s, hone ip' s]
  split <;> split <;> first | rfl | exact List.set_comm _ _ (Ne.symm hne)

/-- **Settling two hosts does not depend on the order.** Each touches its own slot and its own entry
only. -/
theorem settle_settle : P.settle ip (P.settle ip' s) = P.settle ip' (P.settle ip s) := by
  have hactive : (P.settle ip (P.settle ip' s)).activeProbes =
      (P.settle ip' (P.settle ip s)).activeProbes := by
    have hone : ∀ a s, (P.settle a s).activeProbes =
        if P.Frees s a then decrementActive s.activeProbes else s.activeProbes := fun _ _ => rfl
    rw [hone ip (P.settle ip' s), hone ip' (P.settle ip s), if_congr (frees_settle hne) rfl rfl,
      if_congr (frees_settle (Ne.symm hne)) rfl rfl, hone ip s, hone ip' s]
    split <;> split <;> rfl
  have htable := probeTable_settle_settle (s := s) hne
  have hmap := hostToProbe_settle_settle (s := s) hne
  unfold settle at hactive htable hmap ⊢
  rw [PingState.mk.injEq]
  exact ⟨rfl, rfl, rfl, rfl, rfl, htable, hmap, rfl, rfl, rfl, rfl, rfl, hactive, rfl, rfl, rfl,
    rfl⟩

end Settle

/-! ### The loop body commutes with itself -/

/-- The source of a recognized datagram is a 32-bit address: the payload has no room for more. -/
theorem Recognizes.srcIp_lt (h : P.Recognizes d) : d.srcIp < 2 ^ 32 := by
  have hlt := leNat_lt (field (field d.bytes icmpHdrSize pingPayloadSize) 0 4)
  have hlen : (field (field d.bytes icmpHdrSize pingPayloadSize) 0 4).length ≤ 4 :=
    List.length_take_le _ _
  have hpow : 256 ^ (field (field d.bytes icmpHdrSize pingPayloadSize) 0 4).length ≤ 256 ^ 4 :=
    Nat.pow_le_pow_right (by decide) hlen
  rw [h.2.1]
  exact Nat.lt_of_lt_of_le hlt hpow

/-- The index of a recognized source, without the sign. -/
theorem Recognizes.toNat_hostIndex (h : P.Recognizes d) :
    P.baseIp ≤ d.srcIp ∧ (P.hostIndexForIp d.srcIp).toNat = d.srcIp - P.baseIp := by
  have hlt := h.srcIp_lt
  have hnonneg := h.2.2
  unfold hostIndexForIp at hnonneg ⊢
  dsimp only at hnonneg ⊢
  split at hnonneg
  · omega
  · rename_i hlo
    rw [if_neg hlo]
    split at hnonneg
    · omega
    · rename_i hhi
      rw [if_neg hhi]
      -- a negative cast would have been taken for "not in the range"
      unfold toInt32 at hnonneg ⊢
      rw [Int.bmod_def] at hnonneg ⊢
      omega

/-- Recognized datagrams of different sources have different indices, so they settle different
hosts. -/
theorem hostIndex_ne (h : P.Recognizes d) (h' : P.Recognizes d') (hne : d.srcIp ≠ d'.srcIp) :
    (P.hostIndexForIp d.srcIp).toNat ≠ (P.hostIndexForIp d'.srcIp).toNat := by
  obtain ⟨hlo, hidx⟩ := h.toNat_hostIndex
  obtain ⟨hlo', hidx'⟩ := h'.toNat_hostIndex
  omega

/-- Of echo replies that discover no host, each is counted alike. -/
theorem miss_of_isEchoReply (h : d.IsEchoReply) (h' : d'.IsEchoReply) : miss d s = miss d' s := by
  rw [miss, miss, if_pos (.inr h), if_pos (.inr h')]

/-- A datagram that discovers its host still does after one that comes from elsewhere or is not
recognized, and one that does not never will. -/
theorem absorb_absorb (P : PingScanner) (v : Multiset ℕ × PingState) (d d' : Datagram) :
    P.absorb (P.absorb v d) d' = P.absorb (P.absorb v d') d := by
  -- what the second datagram does after the first one has been accepted or missed
  have haccept : ∀ a b : Datagram, ¬ (P.Recognizes b ∧ b.srcIp ∉ v.1) →
      ¬ (P.Recognizes b ∧ b.srcIp ∉ v.1 + {a.srcIp}) := by
    rintro a b h ⟨hrec, hnew⟩
    exact h ⟨hrec, fun hmem => hnew (Multiset.mem_add.mpr (.inl hmem))⟩
  by_cases h : P.Recognizes d ∧ d.srcIp ∉ v.1
  · by_cases h' : P.Recognizes d' ∧ d'.srcIp ∉ v.1
    · by_cases hsame : d.srcIp = d'.srcIp
      · -- two replies of one host: the first one is accepted, the second one is missed
        have hagain : ¬ (P.Recognizes d' ∧ d'.srcIp ∉ v.1 + {d.srcIp}) := by
          rintro ⟨-, hnew⟩
          exact hnew (by simp [hsame])
        have hagain' : ¬ (P.Recognizes d ∧ d.srcIp ∉ v.1 + {d'.srcIp}) := by
          rintro ⟨-, hnew⟩
          exact hnew (by simp [hsame])
        simp only [absorb, if_pos h, if_pos h', if_neg hagain, if_neg hagain']
        rw [miss_of_isEchoReply h'.1.1 h.1.1, tally_settle, tally_settle, tally_tally, hsame]
      · have hlater : P.Recognizes d' ∧ d'.srcIp ∉ v.1 + {d.srcIp} := by
          refine ⟨h'.1, fun hmem => ?_⟩
          rcases Multiset.mem_add.mp hmem with hold | heq
          · exact h'.2 hold
          · exact hsame (Multiset.mem_singleton.mp heq).symm
        have hlater' : P.Recognizes d ∧ d.srcIp ∉ v.1 + {d'.srcIp} := by
          refine ⟨h.1, fun hmem => ?_⟩
          rcases Multiset.mem_add.mp hmem with hold | heq
          · exact h.2 hold
          · exact hsame (Multiset.mem_singleton.mp heq)
        simp only [absorb, if_pos h, if_pos h', if_pos hlater, if_pos hlater']
        rw [add_right_comm, tally_settle, tally_settle, tally_tally,
          settle_settle (hostIndex_ne h.1 h'.1 hsame)]
    · simp only [absorb, if_pos h, if_neg h', if_neg (haccept d d' h')]
      rw [tally_settle, miss_settle, tally_miss, tally_tally]
  · by_cases h' : P.Recognizes d' ∧ d'.srcIp ∉ v.1
    · simp only [absorb, if_neg h, if_pos h', if_neg (haccept d' d h)]
      rw [tally_settle, miss_settle, tally_miss, tally_tally]
    · simp only [absorb, if_neg h, if_neg h']
      rw [tally_miss, tally_miss, tally_tally, miss_miss]

/-! ### Lists of datagrams -/

/-- A list of datagrams sent through the body of the message loop, one after the other; the answers
of the environment are numbered from `n` on. -/
def receiveAll (P : PingScanner) (answers : ℕ → MessageAnswer) :
    (n : ℕ) → List Datagram → PingState → PingState
  | _, [], s => s
  | n, d :: ds, s =>
    receiveAll P answers (n + 1) ds
      (P.receiveMessage (answers n).recvNow (answers n).dns (answers n).throws d s).1

/-- Sending a list through the loop body is a fold of `absorb`. -/
theorem unordered_receiveAll (P : PingScanner) (answers : ℕ → MessageAnswer) (n : ℕ)
    (ds : List Datagram) (s : PingState) :
    (P.receiveAll answers n ds s).unordered = ds.foldl P.absorb s.unordered := by
  induction ds generalizing n s with
  | nil => rfl
  | cons d ds ih => rw [receiveAll, ih, unordered_receiveMessage, List.foldl_cons]

/-- A message loop that no exception leaves sends its list through the loop body. -/
theorem handleAll_eq_receiveAll {answers : ℕ → MessageAnswer} (ds : List Datagram)
    (o : MessageOutcome) (h : (P.handleAll answers ds o).threw = false) :
    (P.handleAll answers ds o).st = P.receiveAll answers o.handled.length ds o.st := by
  induction ds generalizing o with
  | nil => rfl
  | cons d ds ih =>
    rw [handleAll] at h ⊢
    by_cases hthrew : (P.handleOne answers d o).threw
    · rw [if_pos hthrew] at h
      rw [h] at hthrew
      cases hthrew
    · rw [if_neg hthrew] at h ⊢
      rw [ih _ h, receiveAll]
      simp [handleOne]

/-- The result of a reply: of a recognized datagram, with its round-trip time and time to live. -/
def IsResultOf (P : PingScanner) (ds : List Datagram) (r : PingHostResult) : Prop :=
  ∃ d ∈ ds, P.Recognizes d ∧ r.ip = d.srcIp ∧ ∃ (recvNow : Timespec) (overflows : ℕ)
    (dns : Option String), r = P.replyResult (extractControlData recvNow d.control overflows).2.1
      (extractControlData recvNow d.control overflows).1 dns d.payload

/-- The results after a list of datagrams: those before it, and one for each address that it added
to the cache. -/
def Extends (P : PingScanner) (ds : List Datagram) (s s' : PingState) : Prop :=
  ∃ rs, s'.scanResults = s.scanResults ++ rs ∧
    s'.foundIpsCache = s.foundIpsCache ++ rs.map (·.ip) ∧ ∀ r ∈ rs, P.IsResultOf ds r

/-- The body of the message loop adds at most the result of its datagram, if the callback does not
throw. -/
theorem extends_receiveMessage {recvNow : Timespec} {dns : Option String} {throws : Bool}
    (h : (P.receiveMessage recvNow dns throws d s).2 = false) :
    P.Extends [d] s (P.receiveMessage recvNow dns throws d s).1 := by
  have hexit := P.handles_receiveMessage recvNow dns throws d s
  generalize P.receiveMessage recvNow dns throws d s = out at h hexit
  cases hexit with
  -- the callback did not throw, so the result is kept
  | discovered hdisc =>
    rw [hdisc.1.2.1, acceptReply_eq_settle] at h ⊢
    refine ⟨[P.replyResult (extractControlData recvNow d.control s.rxQueueOverflows).2.1
      (extractControlData recvNow d.control s.rxQueueOverflows).1 dns d.payload], ?_, ?_, ?_⟩
    · rw [report_fst]
      unfold report at h
      dsimp only at h ⊢
      split at h
      · cases h
      · rename_i hthrows
        rw [if_neg hthrows]
        rfl
    · rw [report_fst]
      rfl
    · intro r hr
      rw [List.mem_singleton.mp hr]
      exact ⟨d, List.mem_singleton_self d, hdisc.1, hdisc.1.2.1.symm, recvNow, _, dns, rfl⟩
  | _ => exact ⟨[], (List.append_nil _).symm, (List.append_nil _).symm, by simp⟩

/-- A message loop that no exception leaves adds results of its datagrams only. -/
theorem extends_handleAll {answers : ℕ → MessageAnswer} (ds : List Datagram) (o : MessageOutcome)
    (h : (P.handleAll answers ds o).threw = false) :
    P.Extends ds o.st (P.handleAll answers ds o).st := by
  induction ds generalizing o with
  | nil => exact ⟨[], (List.append_nil _).symm, (List.append_nil _).symm, by simp⟩
  | cons d ds ih =>
    rw [handleAll] at h ⊢
    by_cases hthrew : (P.handleOne answers d o).threw
    · rw [if_pos hthrew] at h
      rw [h] at hthrew
      cases hthrew
    · rw [if_neg hthrew] at h ⊢
      obtain ⟨rs, hresults, hfound, hrs⟩ := ih _ h
      have hone : P.Extends [d] o.st (P.handleOne answers d o).st :=
        extends_receiveMessage (Bool.eq_false_of_not_eq_true hthrew)
      -- the results of this message come before those of the others
      obtain ⟨rs₁, hresults₁, hfound₁, hrs₁⟩ := hone
      refine ⟨rs₁ ++ rs, ?_, ?_, ?_⟩
      · rw [hresults]
        exact (congrArg (· ++ rs) hresults₁).trans (List.append_assoc _ _ _)
      · rw [hfound, List.map_append]
        exact (congrArg (· ++ rs.map (·.ip)) hfound₁).trans (List.append_assoc _ _ _)
      · intro r hr
        rcases List.mem_append.mp hr with hr | hr
        · obtain ⟨d', hd', hrest⟩ := hrs₁ r hr
          rw [List.mem_singleton.mp hd'] at hrest
          exact ⟨d, List.mem_cons_self, hrest⟩
        · obtain ⟨d', hd', hrest⟩ := hrs r hr
          exact ⟨d', List.mem_cons_of_mem d hd', hrest⟩

/-! ### Independence of the order -/

/-- Two states that agree on who is found and differ in the order of the cache and in the results
only. -/
structure FindsSame (s s' : PingState) : Prop where
  /-- The found addresses. -/
  found : s.foundIpsCache.Perm s'.foundIpsCache
  /-- The slots, the active ones among them. -/
  probeTable : s.probeTable = s'.probeTable
  /-- `host_to_probe_`. -/
  hostToProbe : s.hostToProbe = s'.hostToProbe
  /-- `active_probes`. -/
  activeProbes : s.activeProbes = s'.activeProbes
  /-- `echo_replies_`. -/
  echoReplies : s.echoReplies = s'.echoReplies
  /-- `unmatched_replies_`. -/
  unmatchedReplies : s.unmatchedReplies = s'.unmatchedReplies
  /-- `rx_queue_overflows_`. -/
  rxQueueOverflows : s.rxQueueOverflows = s'.rxQueueOverflows
  /-- Everything else but the cache, the results and the calls of the callback. -/
  others : s.unordered.2 = s'.unordered.2

/-- States that are the same without an order agree on who is found. -/
theorem FindsSame.of_unordered (h : s.unordered = s'.unordered) : FindsSame s s' := by
  have hothers := congrArg Prod.snd h
  have hfields := hothers
  simp only [PingState.unordered, PingState.mk.injEq] at hfields
  obtain ⟨-, hdrops, hecho, hunmatched, -, htable, hmap, -, -, -, -, -, hactive, -⟩ := hfields
  exact ⟨Multiset.coe_eq_coe.mp (congrArg Prod.fst h), htable, hmap, hactive, hecho, hunmatched,
    hdrops, hothers⟩

/-- The results of two message loops on the same datagrams: for the same addresses, each from one of
the datagrams. -/
structure ResultsSame (P : PingScanner) (ds : List Datagram) (s s₁ s₂ : PingState) : Prop where
  /-- Their addresses are the same, but for the order. -/
  ips : (s₁.scanResults.map (·.ip)).Perm (s₂.scanResults.map (·.ip))
  /-- Those of the first loop come from datagrams of the list. -/
  first : P.Extends ds s s₁
  /-- So do those of the second loop. -/
  second : P.Extends ds s s₂

/-- **The order of the replies does not change who is found**: in any state of any scanner, and so
in every one that a run reaches, sending a list of datagrams and a permutation of it through the
body of the message loop finds the same. The resolver, the clock and the callback may answer
differently for each datagram. If neither message loop is left by an exception, the results are for
the same addresses too, and each is the result of one of the datagrams of its host. -/
theorem order_irrelevant (P : PingScanner) (s : PingState) {ds ds' : List Datagram}
    (hperm : ds.Perm ds') (answers answers' : ℕ → MessageAnswer) :
    FindsSame (P.receiveAll answers 0 ds s) (P.receiveAll answers' 0 ds' s) ∧
      ((P.handleAll answers ds { st := s }).threw = false →
        (P.handleAll answers' ds' { st := s }).threw = false →
        FindsSame (P.handleAll answers ds { st := s }).st
            (P.handleAll answers' ds' { st := s }).st ∧
          P.ResultsSame ds s (P.handleAll answers ds { st := s }).st
            (P.handleAll answers' ds' { st := s }).st) := by
  have hsame : FindsSame (P.receiveAll answers 0 ds s) (P.receiveAll answers' 0 ds' s) := by
    apply FindsSame.of_unordered
    rw [unordered_receiveAll, unordered_receiveAll]
    exact hperm.foldl_eq' (fun d _ d' _ v => P.absorb_absorb v d d') _
  refine ⟨hsame, fun hthrew hthrew' => ?_⟩
  have hfirst := extends_handleAll ds { st := s } hthrew
  have hsecond := extends_handleAll ds' { st := s } hthrew'
  have hloop : (P.handleAll answers ds { st := s }).st = P.receiveAll answers 0 ds s :=
    handleAll_eq_receiveAll ds { st := s } hthrew
  have hloop' : (P.handleAll answers' ds' { st := s }).st = P.receiveAll answers' 0 ds' s :=
    handleAll_eq_receiveAll ds' { st := s } hthrew'
  rw [← hloop, ← hloop'] at hsame
  refine ⟨hsame, ?_, hfirst, ?_⟩
  · -- the cache grows by the addresses of the new results
    obtain ⟨rs, hresults, hfound, -⟩ := hfirst
    obtain ⟨rs', hresults', hfound', -⟩ := hsecond
    have hcaches := hsame.found
    rw [hfound, hfound', List.perm_append_left_iff] at hcaches
    rw [hresults, hresults', List.map_append, List.map_append]
    exact hcaches.append_left _
  · obtain ⟨rs', hresults', hfound', hrs'⟩ := hsecond
    refine ⟨rs', hresults', hfound', ?_⟩
    intro r hr
    obtain ⟨d, hd, hrest⟩ := hrs' r hr
    exact ⟨d, hperm.mem_iff.mpr hd, hrest⟩

/-- Two hosts answer, the second one twice, and a datagram without a payload comes in between. -/
theorem order_irrelevant_pair :
    FindsSame
        ((construct { baseIp := 1, totalHosts := 2 } none none 0).receiveAll (fun _ => {}) 0
          [echoReply 1 {}, echoReply 2 {}, { srcIp := 1, bytes := List.replicate 8 0 },
            echoReply 2 ⟨1, 0⟩]
          (construct { baseIp := 1, totalHosts := 2 } none none 0).initializeBuffers)
        ((construct { baseIp := 1, totalHosts := 2 } none none 0).receiveAll (fun _ => {}) 0
          [echoReply 2 ⟨1, 0⟩, { srcIp := 1, bytes := List.replicate 8 0 }, echoReply 2 {},
            echoReply 1 {}]
          (construct { baseIp := 1, totalHosts := 2 } none none 0).initializeBuffers) ∧
      (((construct { baseIp := 1, totalHosts := 2 } none none 0).handleAll (fun _ => {})
        [echoReply 1 {}, echoReply 2 {}, { srcIp := 1, bytes := List.replicate 8 0 },
          echoReply 2 ⟨1, 0⟩]
        { st := (construct { baseIp := 1, totalHosts := 2 } none none 0).initializeBuffers
          }).st.scanResults.map (·.ip)).Perm
      (((construct { baseIp := 1, totalHosts := 2 } none none 0).handleAll (fun _ => {})
        [echoReply 2 ⟨1, 0⟩, { srcIp := 1, bytes := List.replicate 8 0 }, echoReply 2 {},
          echoReply 1 {}]
        { st := (construct { baseIp := 1, totalHosts := 2 } none none 0).initializeBuffers
          }).st.scanResults.map (·.ip)) := by
  have hperm : [echoReply 1 {}, echoReply 2 {}, { srcIp := 1, bytes := List.replicate 8 0 },
      echoReply 2 ⟨1, 0⟩].Perm [echoReply 2 ⟨1, 0⟩, { srcIp := 1, bytes := List.replicate 8 0 },
      echoReply 2 {}, echoReply 1 {}] := by decide
  have h := order_irrelevant (construct { baseIp := 1, totalHosts := 2 } none none 0)
    (construct { baseIp := 1, totalHosts := 2 } none none 0).initializeBuffers hperm
    (fun _ => {}) (fun _ => {})
  exact ⟨h.1, (h.2 (by decide) (by decide)).2.ips⟩

end PingScanner

end Netscan
