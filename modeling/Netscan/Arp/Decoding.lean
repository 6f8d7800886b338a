import Netscan.Arp.Dump

/-! # What `get_arp_table` makes of a neighbour dump

The loop over attributes keeps an address and a text, with `0` and the text of the zero address for
"none", and stops at a hardware address that is too short. What it ends with decides about the
record exactly as the record's fields do. From there the run of a whole call follows: a lemma for
each turn of a loop, an induction over the attributes, one over the messages of a datagram and one
over the datagrams. -/

namespace Netscan

open MachineInt LabelledSystem

/-! ### What the loop over attributes ends with -/

/-- The values of `ip_address` and `mac` after `parse_netlink_attributes`, on attributes instead of
bytes: the last `NDA_DST` counts, and an `NDA_LLADDR` that is too short ends the loop. -/
def scanAttributes : List NetlinkAttribute → ℕ → String → ℕ × String
  | [], ip, mac => (ip, mac)
  | a :: as, ip, mac =>
    if a.type = ndaDst then scanAttributes as (leNat a.value.reverse) mac
    else if a.type = ndaLladdr then
      if a.value.length < macByteCount then (ip, mac)
      else scanAttributes as ip (macText (a.value.take macByteCount))
    else scanAttributes as ip mac

/-- Without an attribute of a type, there is no value of it, and the variable keeps what it had. -/
theorem attributeValue_eq_none {as : List NetlinkAttribute} {type : ℕ}
    (h : as.countP (·.type = type) = 0) : attributeValue type as = none := by
  rw [attributeValue, Option.map_eq_none_iff, List.find?_eq_none]
  intro a ha
  exact List.countP_eq_zero.mp h a ha

/-- A value comes from an attribute of its type, so what the attributes promise holds of it. -/
theorem exists_of_attributeValue {as : List NetlinkAttribute} {type : ℕ} {v : List UInt8}
    (h : attributeValue type as = some v) : ∃ a ∈ as, a.type = type ∧ a.value = v := by
  obtain ⟨a, hfind, rfl⟩ := Option.map_eq_some_iff.mp h
  exact ⟨a, List.mem_of_find?_eq_some hfind, by simpa using List.find?_some hfind, rfl⟩

/-- An attribute that is the only one of its type has the value of that type. -/
theorem attributeValue_eq_some {as : List NetlinkAttribute} {type : ℕ}
    (hunique : as.countP (·.type = type) ≤ 1) {a : NetlinkAttribute} (ha : a ∈ as)
    (htype : a.type = type) : attributeValue type as = some a.value := by
  induction as with
  | nil => cases ha
  | cons b as ih =>
    rw [List.countP_cons] at hunique
    rcases List.mem_cons.mp ha with rfl | ha
    · simp [attributeValue, htype]
    · have hpos : 0 < as.countP (·.type = type) := List.countP_pos_iff.mpr ⟨a, ha, by simpa⟩
      have hb : b.type ≠ type := by
        intro hb
        simp only [hb, decide_true, if_true] at hunique
        omega
      rw [← ih (by omega) ha]
      simp [attributeValue, hb]

/-- The text that the loop ends with: that of the hardware address, if there is one that is long
enough. -/
theorem scanAttributes_snd {as : List NetlinkAttribute}
    (hunique : as.countP (·.type = ndaLladdr) ≤ 1) (ip : ℕ) (mac : String) :
    (scanAttributes as ip mac).2 =
      match attributeValue ndaLladdr as with
      | some v => if v.length < macByteCount then mac else macText (v.take macByteCount)
      | none => mac := by
  induction as generalizing ip mac with
  | nil => rfl
  -- if this is the hardware address, there is no other one behind it
  | cons a as ih =>
    rw [List.countP_cons] at hunique
    by_cases hlladdr : a.type = ndaLladdr
    · have hdst : a.type ≠ ndaDst := by rw [hlladdr]; decide
      have hnone : attributeValue ndaLladdr as = none :=
        attributeValue_eq_none (by simp only [hlladdr, decide_true, if_true] at hunique; omega)
      have hfind : attributeValue ndaLladdr (a :: as) = some a.value := by
        simp [attributeValue, hlladdr]
      rw [scanAttributes, if_neg hdst, if_pos hlladdr, hfind]
      dsimp only
      split
      · rfl
      · rw [ih (by omega), hnone]
    · have hfind : attributeValue ndaLladdr (a :: as) = attributeValue ndaLladdr as := by
        simp [attributeValue, hlladdr]
      have hrest := ih (by omega)
      rw [scanAttributes, hfind, if_neg hlladdr]
      split
      · exact hrest _ mac
      · exact hrest ip mac

/-- The address that the loop ends with, unless a short hardware address has stopped it. By
induction on the attributes: the one address may come at any place. -/
theorem scanAttributes_fst {as : List NetlinkAttribute}
    (hdst : as.countP (·.type = ndaDst) ≤ 1)
    (hlong : ∀ a ∈ as, a.type = ndaLladdr → macByteCount ≤ a.value.length)
    (ip : ℕ) (mac : String) :
    (scanAttributes as ip mac).1 =
      match attributeValue ndaDst as with
      | some v => leNat v.reverse
      | none => ip := by
  induction as generalizing ip mac with
  | nil => rfl
  -- if this is the address, there is no other one behind it
  | cons a as ih =>
    rw [List.countP_cons] at hdst
    have hrest := ih (by omega) fun b hb => hlong b (List.mem_cons_of_mem a hb)
    by_cases htype : a.type = ndaDst
    · have hnone : attributeValue ndaDst as = none :=
        attributeValue_eq_none (by simp only [htype, decide_true, if_true] at hdst; omega)
      have hfind : attributeValue ndaDst (a :: as) = some a.value := by
        simp [attributeValue, htype]
      rw [scanAttributes, if_pos htype, hrest, hnone, hfind]
    · have hfind : attributeValue ndaDst (a :: as) = attributeValue ndaDst as := by
        simp [attributeValue, htype]
      rw [scanAttributes, if_neg htype, hfind]
      split
      · rename_i hlladdr
        rw [if_neg (Nat.not_lt.mpr (hlong a List.mem_cons_self hlladdr))]
        exact hrest _ _
      · exact hrest _ _

/-! ### The zero address as "none" -/

/-- Only the digit of zero is `0`, among the sixteen digits. -/
theorem hexDigit_eq_zero {n : ℕ} (hn : n < 16) (h : hexDigit n = '0') : n = 0 := by
  revert n
  decide

/-- Only the zero byte has two digits `0`, so a text of zeros is that of zero bytes. -/
theorem eq_zero_of_hexDigits {b : UInt8} (hhi : hexDigit (b.toNat / 16) = '0')
    (hlo : hexDigit (b.toNat % 16) = '0') : b = 0 := by
  have hb : b.toNat < 256 := b.toNat_lt
  have hhi' := hexDigit_eq_zero (by omega) hhi
  have hlo' := hexDigit_eq_zero (by omega) hlo
  apply UInt8.toNat_inj.mp
  rw [UInt8.toNat_zero]
  omega

/-- The text that stands for "none" is the text of the zero address, and of no other. -/
theorem macText_eq_noMac_iff {mac : List UInt8} (h : mac.length = macByteCount) :
    macText mac = noMac ↔ mac = List.replicate macByteCount 0 := by
  constructor
  · intro heq
    have hsix : mac.length = 6 := h
    match mac, hsix with
    | [a, b, c, d, e, f], _ =>
      -- the two texts agree digit by digit, and colon by colon
      have hchars : [':'].intercalate ([a, b, c, d, e, f].map hexByte) =
          ['0', '0', ':', '0', '0', ':', '0', '0', ':', '0', '0', ':', '0', '0', ':', '0',
            '0'] := by
        rw [← String.toList_ofList (l := [':'].intercalate _), ← macText, heq]
        decide
      simp only [List.intercalate, List.map_cons, List.map_nil, hexByte,
        List.intersperse_cons_cons, List.intersperse_singleton, List.flatten_cons,
        List.flatten_nil, List.cons_append, List.nil_append, List.append_nil,
        List.cons.injEq] at hchars
      obtain ⟨ha, ha', -, hb, hb', -, hc, hc', -, hd, hd', -, he, he', -, hf, hf', -⟩ := hchars
      rw [eq_zero_of_hexDigits ha ha', eq_zero_of_hexDigits hb hb', eq_zero_of_hexDigits hc hc',
        eq_zero_of_hexDigits hd hd', eq_zero_of_hexDigits he he', eq_zero_of_hexDigits hf hf']
      rfl
  · rintro rfl
    decide

/-! ### The decision about a record -/

/-- `parse_netlink_message` after `parse_netlink_attributes`: the entry that is added, from the
values of its two variables, the state and the index. -/
def parsedEntry (ifIndexToName : ℤ → Option String) (ip : ℕ) (mac : String) (state : ℕ)
    (index : ℤ) : Option ArpEntry :=
  if ip ≠ 0 ∧ ¬ (state &&& nudIncomplete ≠ 0 ∨ mac = noMac) ∧
      ¬ ((224 ≤ ip / 2 ^ 24 % 256 ∧ ip / 2 ^ 24 % 256 ≤ 239) ∨ ip = 0xFFFFFFFF) then
    some
      { ip := ip
        macAddress := mac
        interfaceIndex := index
        ifaceName := (ifIndexToName index).getD "unknown" }
  else none

/-- The test on the first byte of an address is the test for the multicast range. -/
theorem listed_iff {ip : ℕ} (h : ip < 2 ^ 32) :
    Listed ip ↔ ip ≠ 0 ∧
      ¬ ((224 ≤ ip / 2 ^ 24 % 256 ∧ ip / 2 ^ 24 % 256 ≤ 239) ∨ ip = 0xFFFFFFFF) := by
  unfold Listed
  omega

/-- Without a text there is no entry, whatever the address and the state are. -/
theorem parsedEntry_noMac (ifIndexToName : ℤ → Option String) (ip state : ℕ) (index : ℤ) :
    parsedEntry ifIndexToName ip noMac state index = none := by
  simp [parsedEntry]

/-- **What the loop ends with decides as the fields of the record do.** A hardware address that is
too short stops the loop with no text, whatever comes behind it, and one that is missing leaves
none: neither record is listed. -/
theorem parsedEntry_eq_entry (ifIndexToName : ℤ → Option String) (r : NeighbourRecord) :
    parsedEntry ifIndexToName (scanAttributes r.attributes 0 noMac).1
      (scanAttributes r.attributes 0 noMac).2 r.state r.ifindex = r.entry ifIndexToName := by
  rw [scanAttributes_snd r.lladdr_unique]
  -- without a hardware address, or with one that is too short, neither side has an entry
  cases hl : attributeValue ndaLladdr r.attributes with
  | none =>
    dsimp only
    rw [parsedEntry_noMac, NeighbourRecord.entry, hl]
    cases attributeValue ndaDst r.attributes <;> rfl
  | some v =>
    dsimp only
    by_cases hshort : v.length < macByteCount
    · rw [if_pos hshort, parsedEntry_noMac, NeighbourRecord.entry, hl]
      cases attributeValue ndaDst r.attributes with
      | none => rfl
      | some d =>
        dsimp only
        rw [if_neg]
        rintro ⟨-, -, hlong, -⟩
        omega
    · have hlong : ∀ a ∈ r.attributes, a.type = ndaLladdr → macByteCount ≤ a.value.length := by
        intro a ha htype
        have hval := attributeValue_eq_some r.lladdr_unique ha htype
        rw [hl, Option.some.injEq] at hval
        rw [← hval]
        omega
      -- with one that is long enough, the loop comes to its end, and both sides make the same tests
      rw [if_neg hshort, scanAttributes_fst r.dst_unique hlong]
      cases hd : attributeValue ndaDst r.attributes with
      | none => simp [parsedEntry, NeighbourRecord.entry, hd]
      | some d =>
        obtain ⟨a, ha, htype, rfl⟩ := exists_of_attributeValue hd
        have hip : leNat a.value.reverse < 2 ^ 32 := by
          have hlt := leNat_lt a.value.reverse
          rw [List.length_reverse, r.length_dst a ha htype] at hlt
          omega
        have hlen : (v.take macByteCount).length = macByteCount := by
          rw [List.length_take]
          omega
        have hmac := macText_eq_noMac_iff hlen
        have hlisted := listed_iff hip
        dsimp only
        rw [parsedEntry, NeighbourRecord.entry, hl, hd]
        dsimp only
        refine if_congr ?_ rfl rfl
        have hle : macByteCount ≤ v.length := by omega
        rw [hlisted, hmac]
        tauto

/-! ### Neighbours whose attributes repeat -/

/-- The entry that `parse_netlink_message` makes of a neighbour, with attributes of any number and
order. -/
def NeighbourMessage.entry (ifIndexToName : ℤ → Option String) (r : NeighbourMessage) :
    Option ArpEntry :=
  parsedEntry ifIndexToName (scanAttributes r.attributes 0 noMac).1
    (scanAttributes r.attributes 0 noMac).2 r.state r.ifindex

/-- The entry that `parse_netlink_message` makes of a message, if it makes one. -/
def WireMessage.entry (ifIndexToName : ℤ → Option String) : WireMessage → Option ArpEntry
  | .neighbour r => r.entry ifIndexToName
  | .other _ _ => none

/-- The parser makes of a message of a dump the entry that the message stands for. -/
theorem NetlinkMessage.entry_wire (ifIndexToName : ℤ → Option String) (m : NetlinkMessage) :
    m.wire.entry ifIndexToName = m.entry ifIndexToName := by
  cases m with
  | neighbour r => exact parsedEntry_eq_entry ifIndexToName r
  | other m h => rfl

/-! ### The bytes in memory -/

section Memory

variable {buf : ByteMemory} {hdr rta : ℕ}

/-- An attribute in memory: its length, its type and its value are read back as they were
written. -/
theorem NetlinkAttribute.read_eq {a : NetlinkAttribute} (h : buf.Holds rta a.encode) :
    rtaLenAt buf rta = rtattrSize + a.value.length ∧ rtaType buf rta = a.type ∧
      buf.Holds (rtaData rta) a.value := by
  simp only [encode, ByteMemory.holds_append, length_leBytes, List.length_append] at h
  obtain ⟨⟨⟨hlen, htype⟩, hvalue⟩, -⟩ := h
  exact ⟨hlen.uint_eq a.length_lt, htype.uint_eq a.type_lt, hvalue⟩

/-- A message in memory: its length, its type and its payload are read back. -/
theorem RawMessage.read_eq {m : RawMessage} (h : buf.Holds hdr m.encode)
    (hfits : m.encode.length ≤ rxBufSize) :
    nlmsgLen buf hdr = nlmsgHdrlen + m.payload.length ∧ nlmsgType buf hdr = m.type ∧
      buf.Holds (hdr + nlmsgHdrlen) m.payload := by
  rw [m.length_encode] at hfits
  simp only [encode, ByteMemory.holds_append, length_leBytes, List.length_append,
    m.length_header] at h
  obtain ⟨⟨⟨⟨hlen, htype⟩, -⟩, hpayload⟩, -⟩ := h
  unfold rxBufSize at hfits
  exact ⟨hlen.uint_eq (by omega), htype.uint_eq m.type_lt, hpayload⟩

/-- `NLMSG_OK` holds of a message in memory for which there is room. -/
theorem RawMessage.nlmsgOk {m : RawMessage} {remaining : ℕ} (h : buf.Holds hdr m.encode)
    (hroom : m.encode.length ≤ remaining) (hfits : remaining ≤ rxBufSize) :
    NlmsgOk buf hdr remaining := by
  have hencode := m.length_encode
  unfold NlmsgOk
  rw [(RawMessage.read_eq h (hroom.trans hfits)).1]
  omega

/-- The payload of a neighbour in memory: its fields and its attributes are read back. -/
theorem NeighbourMessage.read_eq {r : NeighbourMessage}
    (h : buf.Holds (hdr + nlmsgHdrlen) r.payload) :
    ndmFamily buf hdr = afInet ∧ ndmIfindex buf hdr = r.ifindex ∧ ndmState buf hdr = r.state ∧
      buf.Holds (hdr + nlmsgHdrlen + ndmsgSize) (encodeAttributes r.attributes) := by
  simp only [payload, ByteMemory.holds_append, length_leBytes, List.length_append, r.length_pads,
    r.length_flags] at h
  obtain ⟨⟨⟨⟨⟨hfamily, -⟩, hindex⟩, hstate⟩, -⟩, hattributes⟩ := h
  refine ⟨hfamily.uint_eq (by decide), ?_, hstate.uint_eq r.state_lt, hattributes⟩
  rw [ndmIfindex, hindex.uint_eq (ofInt32_lt _),
    toInt32_ofInt32 r.ifindex_bounds.1 r.ifindex_bounds.2]

/-- The family of a message that is no IPv4 neighbour: the parser sees that it is another one. -/
theorem ndmFamily_ne {b : UInt8} {bs : List UInt8} (h : buf.Holds (hdr + nlmsgHdrlen) (b :: bs))
    (hb : b.toNat ≠ afInet) : ndmFamily buf hdr ≠ afInet := by
  rw [← List.singleton_append, ByteMemory.holds_append] at h
  obtain ⟨hfamily, -⟩ := h
  have hbyte : buf.bytes (hdr + nlmsgHdrlen) 1 = [b] := hfamily
  rwa [ndmFamily, ByteMemory.uint, hbyte, leNat, leNat, Nat.mul_zero, Nat.add_zero]

end Memory

namespace ArpCall

/-! ### The run over the attributes of a record -/

/-- The answers of a system in which no call fails; `recvmsg` may be interrupted. -/
def Answered (_ : ArpCall) : ArpLabel → Prop
  | .socket ok | .send ok => ok = true
  | .recvmsg r => r ≠ .failed
  | _ => True

/-- What the walk over a message leaves alone: the buffer, the queue and the entries found so
far. -/
structure Keeps (c c' : ArpCall) : Prop where
  /-- The receive buffer. -/
  buf : c'.buf = c.buf
  /-- The datagrams that wait. -/
  queue : c'.queue = c.queue
  /-- The entries. -/
  entries : c'.entries = c.entries

/-- A property that holds wherever a step of the walk leads to a state in which it holds. The walk
has no choice between its steps, so what follows for such a property is said about the one way that
the walk takes. -/
def WalksBack (ifIndexToName : ℤ → Option String) (G : ArpCall → Prop) : Prop :=
  ∀ c u : ArpCall, c.runStep ifIndexToName = some u → G u → G c

variable {ifIndexToName : ℤ → Option String} {G D : ArpCall → Prop} {c : ArpCall}

/-- The loop over attributes ends with what `scanAttributes` says. By induction on the
attributes. -/
theorem walk_attributes (hG : WalksBack ifIndexToName G) {hdr remaining : ℕ}
    {as : List NetlinkAttribute}
    (hdst : ∀ a ∈ as, a.type = ndaDst → a.value.length = 4) :
    ∀ (c : ArpCall) (rta ip : ℕ) (mac : String),
      c.pc = .attribute hdr remaining rta (encodeAttributes as).length ip mac →
      c.buf.Holds rta (encodeAttributes as) → (encodeAttributes as).length ≤ rxBufSize →
      (∀ c', c'.pc = .neighbour hdr remaining (scanAttributes as ip mac).1
          (scanAttributes as ip mac).2 → Keeps c c' →
        G c') →
      G c := by
  induction as with
  | nil =>
    intro c rta ip mac hpc _ _ hnext
    refine hG _ _ (by rw [runStep, hpc]) ?_
    rw [parseNetlinkAttribute_stop]
    · exact hnext _ rfl ⟨rfl, rfl, rfl⟩
    · rintro ⟨h, -⟩
      exact absurd h (by decide)
  | cons a as ih =>
    intro c rta ip mac hpc hholds hfits hnext
    have hsplit : encodeAttributes (a :: as) = a.encode ++ encodeAttributes as := rfl
    rw [hsplit, ByteMemory.holds_append] at hholds
    rw [hsplit, List.length_append] at hpc hfits
    obtain ⟨hlen, htype, hvalue⟩ := NetlinkAttribute.read_eq hholds.1
    have hencode := a.length_encode
    have hok : RtaOk c.buf rta (a.encode.length + (encodeAttributes as).length) := by
      unfold RtaOk
      rw [hlen]
      unfold rtattrSize at hencode ⊢
      omega
    have halign : align4 (rtaLenAt c.buf rta) = a.encode.length := by
      rw [hlen, a.align4_length]
    have hpayload : rtaPayload c.buf rta = a.value.length := by
      rw [rtaPayload, hlen, Nat.add_sub_cancel_left]
    -- Whatever the attribute sets, the loop goes on with the rest.
    have hrest : ∀ (rs : List ArpRead) (ip' : ℕ) (mac' : String),
        scanAttributes (a :: as) ip mac = scanAttributes as ip' mac' →
        G ((c.read rs).nextAttribute hdr remaining rta
          (a.encode.length + (encodeAttributes as).length) ip' mac') := by
      intro rs ip' mac' hscan
      refine ih (fun b hb => hdst b (List.mem_cons_of_mem a hb)) _ (rta + a.encode.length) ip' mac'
        ?_ hholds.2 (by omega) ?_
      · simp only [nextAttribute, goto_pc, read_buf, halign]
        rw [subU32_of_le (by omega) (by unfold rxBufSize at hfits; omega), Nat.add_sub_cancel_left]
      · intro c' hpc' hkeeps
        rw [← hscan] at hpc'
        exact hnext c' hpc' ⟨hkeeps.buf, hkeeps.queue, hkeeps.entries⟩
    refine hG _ _ (by rw [runStep, hpc]) ?_
    by_cases ht : a.type = ndaDst
    · have hlen4 := hdst a List.mem_cons_self ht
      have hip : c.buf.uintBE (rtaData rta) 4 = leNat a.value.reverse := by
        rw [← hvalue.uintBE_eq, hlen4]
      rw [parseNetlinkAttribute_dst hok (htype.trans ht), hip]
      exact hrest _ _ _ (by rw [scanAttributes, if_pos ht])
    by_cases ht' : a.type = ndaLladdr
    · by_cases hshort : a.value.length < macByteCount
      · rw [parseNetlinkAttribute_short hok (htype.trans ht') (by omega)]
        refine hnext _ ?_ ⟨rfl, rfl, rfl⟩
        rw [scanAttributes, if_neg ht, if_pos ht', if_pos hshort]
        rfl
      · rw [parseNetlinkAttribute_lladdr hok (htype.trans ht') (by omega),
          hvalue.bytes_eq_take (by omega)]
        exact hrest _ _ _ (by rw [scanAttributes, if_neg ht, if_pos ht', if_neg hshort])
    · rw [parseNetlinkAttribute_other hok (htype ▸ ht) (htype ▸ ht')]
      exact hrest _ _ _ (by rw [scanAttributes, if_neg ht, if_neg ht'])

/-! ### The run over the messages of a datagram -/

/-- What the walk over messages leaves alone, and the entries it adds. -/
structure Adds (es : List ArpEntry) (c c' : ArpCall) : Prop where
  /-- The receive buffer. -/
  buf : c'.buf = c.buf
  /-- The datagrams that wait. -/
  queue : c'.queue = c.queue
  /-- The entries. -/
  entries : c'.entries = c.entries ++ es

/-- Entries added in two goes are added in their order. -/
theorem Adds.trans {es es' : List ArpEntry} {c c' c'' : ArpCall} (h : Adds es c c')
    (h' : Adds es' c' c'') : Adds (es ++ es') c c'' := by
  refine ⟨h'.buf.trans h.buf, h'.queue.trans h.queue, ?_⟩
  rw [h'.entries, h.entries, List.append_assoc]

/-- The end of `parse_netlink_message` adds what `parsedEntry` says, which is at most one entry, and
goes on to the next message. -/
theorem finishNeighbour_spec (ifIndexToName : ℤ → Option String) (c : ArpCall)
    (hdr remaining ip : ℕ) (mac : String) :
    (c.finishNeighbour ifIndexToName hdr remaining ip mac).pc = .next hdr remaining ∧
      Adds (parsedEntry ifIndexToName ip mac (ndmState c.buf hdr)
        (ndmIfindex c.buf hdr)).toList c
        (c.finishNeighbour ifIndexToName hdr remaining ip mac) := by
  unfold finishNeighbour
  dsimp only
  split
  -- with an address, it is the state or the text, then the range of the address, that can refuse it
  · rename_i h0
    split
    · rename_i hstate
      rw [parsedEntry, if_neg fun h => h.2.1 hstate]
      exact ⟨rfl, rfl, rfl, (List.append_nil _).symm⟩
    · rename_i hstate
      split
      · rename_i hrange
        rw [parsedEntry, if_neg fun h => h.2.2 hrange]
        exact ⟨rfl, rfl, rfl, (List.append_nil _).symm⟩
      · rename_i hrange
        rw [parsedEntry, if_pos ⟨h0, hstate, hrange⟩]
        exact ⟨rfl, rfl, rfl, rfl⟩
  · rename_i h0
    rw [parsedEntry, if_neg fun h => h0 h.1]
    exact ⟨rfl, rfl, rfl, (List.append_nil _).symm⟩

/-- The walk gets past a message that does not end it, and adds its entry. -/
theorem walk_message (hG : WalksBack ifIndexToName G) {hdr remaining : ℕ} (m : WireMessage)
    (hdone : m.raw.type ≠ nlmsgDone) (herror : m.raw.type ≠ nlmsgError)
    (hpc : c.pc = .message hdr remaining) (hholds : c.buf.Holds hdr m.raw.encode)
    (hroom : m.raw.encode.length ≤ remaining) (hfits : remaining ≤ rxBufSize)
    (hnext : ∀ c', c'.pc = .message (hdr + m.raw.encode.length)
        (remaining - m.raw.encode.length) → Adds (m.entry ifIndexToName).toList c c' →
      G c') :
    G c := by
  obtain ⟨hlen, htype, hpayload⟩ := RawMessage.read_eq hholds (hroom.trans hfits)
  have hencode := m.raw.length_encode
  have hok := RawMessage.nlmsgOk hholds hroom hfits
  -- From the end of the message, `NLMSG_NEXT` leads to the next one.
  have hafter : ∀ c', c'.pc = .next hdr remaining → Adds (m.entry ifIndexToName).toList c c' →
      G c' := by
    intro c' hpc' hadds
    have hrun : c'.runStep ifIndexToName = some (c'.nextMessage hdr remaining) := by
      rw [runStep, hpc']
    refine hG _ _ hrun (hnext _ ?_ ⟨hadds.buf, hadds.queue, hadds.entries⟩)
    rw [nextMessage, goto_pc, hadds.buf, hlen, m.raw.align4_length (hroom.trans hfits),
      subU32_of_le hroom (by unfold rxBufSize at hfits; omega)]
  refine hG _ _ (by rw [runStep, hpc]) ?_
  rw [← htype] at hdone herror
  cases m with
  | other m hother =>
    have hkept : ∀ rs : List ArpRead, Adds [] c ((c.read rs).goto (.next hdr remaining)) :=
      fun _ => ⟨rfl, rfl, (List.append_nil _).symm⟩
    by_cases hneigh : m.type = rtmNewneigh
    · obtain ⟨b, hb, hfamily⟩ := hother hneigh
      obtain ⟨bs, hbs⟩ := List.head?_eq_some_iff.mp hb
      simp only [WireMessage.raw, hbs] at hpayload
      rw [messageTurn_family hok (htype.trans hneigh) (ndmFamily_ne hpayload hfamily)]
      exact hafter _ rfl (hkept _)
    · rw [messageTurn_other hok hdone herror (htype ▸ hneigh)]
      exact hafter _ rfl (hkept _)
  | neighbour r =>
    obtain ⟨hfamily, hindex, hstate, hattributes⟩ := NeighbourMessage.read_eq hpayload
    have hpl : (WireMessage.neighbour r).raw.payload.length =
        ndmsgSize + (encodeAttributes r.attributes).length := r.length_payload
    have hattrLen : attributesLen c.buf hdr = (encodeAttributes r.attributes).length := by
      rw [attributesLen, hlen, hpl, ← Nat.add_assoc]
      unfold rxBufSize at hfits
      rw [subU32_of_le (by omega) (by omega), Nat.add_sub_cancel_left]
    rw [messageTurn_neighbour hok htype hfamily, hattrLen]
    refine walk_attributes hG r.length_dst _ _ 0 noMac rfl hattributes (by omega) ?_
    intro c' hpc' hkeeps
    refine hG _ _ (by rw [runStep, hpc']) ?_
    have hbuf : c'.buf = c.buf := hkeeps.buf
    obtain ⟨hpc'', hadds⟩ := finishNeighbour_spec ifIndexToName c' hdr remaining
      (scanAttributes r.attributes 0 noMac).1 (scanAttributes r.attributes 0 noMac).2
    rw [hbuf, hstate, hindex] at hadds
    exact hafter _ hpc'' ⟨hadds.buf.trans hkeeps.buf, hadds.queue.trans hkeeps.queue,
      by rw [hadds.entries, hkeeps.entries]; rfl⟩

/-- The walk gets past a sequence of messages that do not end it, and adds their entries in
order. -/
theorem walk_messages (hG : WalksBack ifIndexToName G) {tail : List UInt8}
    {ms : List WireMessage}
    (hplain : ∀ m ∈ ms, m.raw.type ≠ nlmsgDone ∧ m.raw.type ≠ nlmsgError) :
    ∀ (c : ArpCall) (hdr : ℕ),
      c.pc = .message hdr (encodeDatagram (ms.map WireMessage.raw) ++ tail).length →
      c.buf.Holds hdr (encodeDatagram (ms.map WireMessage.raw) ++ tail) →
      (encodeDatagram (ms.map WireMessage.raw) ++ tail).length ≤ rxBufSize →
      (∀ c' hdr', c'.pc = .message hdr' tail.length → c'.buf.Holds hdr' tail →
        Adds (ms.filterMap (WireMessage.entry ifIndexToName)) c c' →
        G c') →
      G c := by
  induction ms with
  | nil =>
    intro c hdr hpc hholds _ hnext
    exact hnext c hdr hpc hholds ⟨rfl, rfl, (List.append_nil _).symm⟩
  | cons m ms ih =>
    intro c hdr hpc hholds hfits hnext
    -- the first message, then the others with the same `tail` behind them
    have hsplit : encodeDatagram ((m :: ms).map WireMessage.raw) ++ tail =
        m.raw.encode ++ (encodeDatagram (ms.map WireMessage.raw) ++ tail) :=
      List.append_assoc _ _ _
    rw [hsplit, List.length_append] at hpc hfits
    rw [hsplit, ByteMemory.holds_append] at hholds
    obtain ⟨hdone, herror⟩ := hplain m List.mem_cons_self
    refine walk_message hG m hdone herror hpc hholds.1 (Nat.le_add_right _ _) hfits ?_
    intro c' hpc' hadds
    rw [Nat.add_sub_cancel_left] at hpc'
    refine ih (fun m' hm' => hplain m' (List.mem_cons_of_mem m hm')) c' _ hpc'
      (hadds.buf ▸ hholds.2) (by omega) ?_
    intro c'' hdr'' hpc'' hholds'' hadds''
    refine hnext c'' hdr'' hpc'' hholds'' ?_
    have hentries := hadds.trans hadds''
    cases hentry : m.entry ifIndexToName with
    | none =>
      rw [hentry] at hentries
      rwa [List.filterMap_cons_none hentry]
    | some e =>
      rw [hentry] at hentries
      rwa [List.filterMap_cons_some hentry]

/-- The walk gets past messages of a dump, and adds the entries that they stand for. -/
theorem walk_dump (hG : WalksBack ifIndexToName G) {tail : List UInt8} {ms : List NetlinkMessage}
    (hplain : ∀ m ∈ ms, m.raw.type ≠ nlmsgDone ∧ m.raw.type ≠ nlmsgError) {hdr : ℕ}
    (hpc : c.pc = .message hdr (encodeDatagram (ms.map NetlinkMessage.raw) ++ tail).length)
    (hholds : c.buf.Holds hdr (encodeDatagram (ms.map NetlinkMessage.raw) ++ tail))
    (hfits : (encodeDatagram (ms.map NetlinkMessage.raw) ++ tail).length ≤ rxBufSize)
    (hnext : ∀ c' hdr', c'.pc = .message hdr' tail.length → c'.buf.Holds hdr' tail →
      Adds (ms.filterMap (NetlinkMessage.entry ifIndexToName)) c c' → G c') :
    G c := by
  have hraw : ms.map NetlinkMessage.raw = (ms.map NetlinkMessage.wire).map WireMessage.raw := by
    rw [List.map_map]
    apply List.map_congr_left
    intro m _
    exact m.raw_wire.symm
  have hentries : ms.filterMap (NetlinkMessage.entry ifIndexToName) =
      (ms.map NetlinkMessage.wire).filterMap (WireMessage.entry ifIndexToName) := by
    rw [List.filterMap_map]
    apply List.filterMap_congr
    intro m _
    exact (m.entry_wire ifIndexToName).symm
  have hplain' : ∀ m ∈ ms.map NetlinkMessage.wire,
      m.raw.type ≠ nlmsgDone ∧ m.raw.type ≠ nlmsgError := by
    intro m hm
    obtain ⟨m, hmem, rfl⟩ := List.mem_map.mp hm
    rw [m.raw_wire]
    exact hplain m hmem
  -- a dump is a sequence of well-formed messages, with the same bytes and the same entries
  rw [hraw] at hpc hholds hfits
  rw [hentries] at hnext
  exact walk_messages hG hplain' c hdr hpc hholds hfits hnext

/-! ### The run over the datagrams of a dump -/

/-- The call has returned the entries `es`, and nothing else. -/
def Returns (es : List ArpEntry) (c : ArpCall) : Prop := c.pc = .returned ∧ c.entries = es

/-- Nothing happens to a call that has returned, so what it returns is final. -/
theorem step_returned (hpc : c.pc = .returned) (l : ArpLabel) :
    step ifIndexToName c l = none := by
  cases l <;> simp [step, runStep, hpc]

/-- Where a step of the walk leads on, the call gets on. -/
theorem walksBack_leads : WalksBack ifIndexToName (Leads (step ifIndexToName) Answered D) := by
  intro c u hrun hu
  apply Leads.of_next
  · intro l v _ hstep
    obtain ⟨-, rfl⟩ := (step_eq_some_iff hrun).mp hstep
    exact .inr hu
  · exact ⟨.run, u, trivial, (step_eq_some_iff hrun).mpr ⟨rfl, rfl⟩, hu⟩

/-- A call that has returned has returned what it has, without a further step. -/
theorem leads_returned {es : List ArpEntry} (h : Returns es c) :
    Leads (step ifIndexToName) Answered (Returns es) c := by
  refine Leads.of_final (fun l v _ hstep => ?_) h
  rw [step_returned h.1] at hstep
  cases hstep

/-- When the walk is stopped, the call returns what it has found so far. -/
theorem walk_stopped (hG : WalksBack ifIndexToName G) (hpc : c.pc = .stopped)
    (hnext : ∀ c', c'.pc = .returned → c'.queue = c.queue → c'.entries = c.entries → G c') :
    G c := by
  have hrun : c.runStep ifIndexToName = some (c.goto .returned) := by rw [runStep, hpc]
  exact hG _ _ hrun (hnext _ rfl rfl rfl)

/-- The last message of a dump ends the call, which returns the entries found before it. -/
theorem walk_done (hG : WalksBack ifIndexToName G) {closing : RawMessage}
    (htype : closing.type = nlmsgDone) {hdr remaining : ℕ} (hpc : c.pc = .message hdr remaining)
    (hholds : c.buf.Holds hdr closing.encode) (hroom : closing.encode.length ≤ remaining)
    (hfits : remaining ≤ rxBufSize)
    (hnext : ∀ c', c'.pc = .returned → c'.queue = c.queue → c'.entries = c.entries → G c') :
    G c := by
  obtain ⟨-, htype', -⟩ := RawMessage.read_eq hholds (hroom.trans hfits)
  have hok := RawMessage.nlmsgOk hholds hroom hfits
  have hrun : c.runStep ifIndexToName = some (c.messageTurn hdr remaining) := by rw [runStep, hpc]
  apply hG _ _ hrun
  rw [messageTurn_done hok (htype'.trans htype)]
  exact walk_stopped hG rfl hnext

/-- The call waits for the next datagram, however often it is interrupted, and walks over it. -/
theorem leads_receive {d : List UInt8} {queue : List (List UInt8)} (hpc : c.pc = .receive)
    (hqueue : c.queue = d :: queue) (hfits : d.length ≤ rxBufSize)
    (hnext : ∀ c', c'.pc = .message 0 d.length → c'.buf.Holds 0 d → c'.queue = queue →
      c'.entries = c.entries → Leads (step ifIndexToName) Answered D c') :
    Leads (step ifIndexToName) Answered D c := by
  have htake : d.take rxBufSize = d := List.take_of_length_le hfits
  have hrecv : c.recvmsgStep .datagram =
      some { c with pc := .message 0 d.length, queue := queue, buf := c.buf.store d } := by
    simp [recvmsgStep, hqueue, htake, Nat.not_lt.mpr hfits, goto]
  have hlead : Leads (step ifIndexToName) Answered D
      { c with pc := .message 0 d.length, queue := queue, buf := c.buf.store d } :=
    hnext _ rfl (ByteMemory.holds_store _ _) rfl rfl
  -- an interrupted `recvmsg` leaves the call where it is, so it is enough to look at the datagram
  apply Leads.of_next
  · intro l v hok hstep
    cases l with
    | recvmsg r =>
      simp only [step, hpc] at hstep
      cases r with
      | interrupted => exact .inl (Option.some.inj hstep).symm
      | failed => exact absurd rfl hok
      | datagram =>
        rw [hrecv, Option.some.injEq] at hstep
        exact .inr (hstep ▸ hlead)
    | socket ok => simp [step, hpc] at hstep
    | send ok => simp [step, hpc] at hstep
    | fprintf ok => simp [step, hpc] at hstep
    | run => simp [step, runStep, hpc] at hstep
  · have hok : RecvmsgResult.datagram ≠ .failed := by decide
    refine ⟨.recvmsg .datagram, _, hok, ?_, hlead⟩
    simp only [step, hpc, hrecv]

/-- At the end of a datagram, the call waits for the next one. -/
theorem walk_end (hG : WalksBack ifIndexToName G) {hdr : ℕ} (hpc : c.pc = .message hdr 0)
    (hnext : ∀ c', c'.pc = .receive → c'.queue = c.queue → c'.entries = c.entries → G c') :
    G c := by
  have hrun : c.runStep ifIndexToName = some (c.messageTurn hdr 0) := by rw [runStep, hpc]
  have hstop : ¬ NlmsgOk c.buf hdr 0 := fun h => absurd h.1 (by decide)
  apply hG _ _ hrun
  rw [messageTurn_stop hstop]
  exact hnext _ rfl rfl rfl

/-- The call returns the entries of the dump whose datagrams it is waiting for, after those it has.
By induction on the datagrams: the first one holds the beginning of the dump, or all of it. -/
theorem leads_datagrams {closing : RawMessage} (hclosing : closing.type = nlmsgDone)
    {datagrams : List (List RawMessage)}
    (hfits : ∀ d ∈ datagrams, (encodeDatagram d).length ≤ rxBufSize) :
    ∀ (dump : List NetlinkMessage) (c : ArpCall),
      datagrams.flatten = dump.map NetlinkMessage.raw ++ [closing] →
      (∀ m ∈ dump, m.raw.type ≠ nlmsgDone ∧ m.raw.type ≠ nlmsgError) →
      c.pc = .receive → c.queue = datagrams.map encodeDatagram →
      Leads (step ifIndexToName) Answered
        (Returns (c.entries ++ dump.filterMap (NetlinkMessage.entry ifIndexToName))) c := by
  induction datagrams with
  | nil =>
    intro dump c hsplit
    exact absurd hsplit.symm (List.append_ne_nil_of_right_ne_nil _ (List.cons_ne_nil _ _))
  | cons d ds ih =>
    intro dump c hsplit hplain hpc hqueue
    have hd := hfits d List.mem_cons_self
    have hrestFits : ∀ d ∈ ds, (encodeDatagram d).length ≤ rxBufSize :=
      fun d' hd' => hfits d' (List.mem_cons_of_mem d hd')
    refine leads_receive hpc hqueue hd ?_
    intro c' hpc' hholds hqueue' hentries
    -- The datagram ends within the dump: the messages before its end, and the rest.
    have hwithin : ∀ ms rest, dump = ms ++ rest → ms.map NetlinkMessage.raw = d →
        ds.flatten = rest.map NetlinkMessage.raw ++ [closing] →
        Leads (step ifIndexToName) Answered
          (Returns (c.entries ++ dump.filterMap (NetlinkMessage.entry ifIndexToName))) c' := by
      rintro ms rest rfl rfl hrest
      have hplain₁ : ∀ m ∈ ms, m.raw.type ≠ nlmsgDone ∧ m.raw.type ≠ nlmsgError :=
        fun m hm => hplain m (List.mem_append_left _ hm)
      have hplain₂ : ∀ m ∈ rest, m.raw.type ≠ nlmsgDone ∧ m.raw.type ≠ nlmsgError :=
        fun m hm => hplain m (List.mem_append_right _ hm)
      rw [← List.append_nil (encodeDatagram _)] at hpc' hholds hd
      refine walk_dump walksBack_leads hplain₁ hpc' hholds hd ?_
      intro c'' hdr hpc'' _ hadds
      refine walk_end walksBack_leads hpc'' ?_
      intro u hpcu hqueueu hentriesu
      have hlead := ih hrestFits rest u hrest hplain₂ hpcu
        (hqueueu.trans (hadds.queue.trans hqueue'))
      rwa [hentriesu, hadds.entries, hentries, List.append_assoc, ← List.filterMap_append] at hlead
    rcases List.append_eq_append_iff.mp hsplit with ⟨tail, hdump, hrest⟩ | ⟨tail, hdtail, hlast⟩
    · obtain ⟨ms, rest, rfl, hms, rfl⟩ := List.map_eq_append_iff.mp hdump
      exact hwithin ms rest rfl hms hrest
    cases tail with
    | nil =>
      rw [List.append_nil] at hdtail
      exact hwithin dump [] (List.append_nil dump).symm hdtail.symm hlast.symm
    | cons last tail =>
      -- The datagram holds the whole dump and the message that ends it.
      rw [List.cons_append, List.cons.injEq] at hlast
      obtain ⟨rfl, hnil⟩ := hlast
      obtain ⟨rfl, -⟩ := List.append_eq_nil_iff.mp hnil.symm
      have hencode : encodeDatagram d =
          encodeDatagram (dump.map NetlinkMessage.raw) ++ closing.encode := by
        rw [hdtail, encodeDatagram, List.flatMap_append, List.flatMap_singleton]
        rfl
      rw [hencode] at hpc' hholds hd
      refine walk_dump walksBack_leads hplain hpc' hholds hd ?_
      intro c'' hdr hpc'' hholds'' hadds
      have hclosingFits : closing.encode.length ≤ rxBufSize := by
        rw [List.length_append] at hd
        omega
      have hlead : Leads (step ifIndexToName) Answered (Returns c''.entries) c'' :=
        walk_done walksBack_leads hclosing hpc'' hholds'' le_rfl hclosingFits
          fun u hpcu _ hentriesu => leads_returned ⟨hpcu, hentriesu⟩
      rwa [hadds.entries, hentries] at hlead

/-- A call whose system calls do not fail comes to wait for its first datagram. -/
theorem leads_start (buf : ByteMemory) (queue : List (List UInt8))
    (hnext : ∀ c', c'.pc = .receive → c'.queue = queue → c'.entries = [] →
      Leads (step ifIndexToName) Answered D c') :
    Leads (step ifIndexToName) Answered D (start buf queue) := by
  have hrequest : Leads (step ifIndexToName) Answered D ((start buf queue).goto .requesting) := by
    have hsent := hnext { start buf queue with pc := .receive, sent := [dumpRequest] } rfl rfl rfl
    -- `socket` comes first, then `send`, and neither of them fails
    apply Leads.of_next
    · intro l v hok hstep
      cases l with
      | send ok =>
        obtain rfl : ok = true := hok
        exact .inr (Option.some.inj hstep ▸ hsent)
      | _ => simp [step, runStep] at hstep
    · exact ⟨.send true, _, rfl, rfl, hsent⟩
  apply Leads.of_next
  · intro l v hok hstep
    cases l with
    | socket ok =>
      obtain rfl : ok = true := hok
      exact .inr (Option.some.inj hstep ▸ hrequest)
    | _ => simp [step, runStep, start] at hstep
  · exact ⟨.socket true, _, rfl, rfl, hrequest⟩

end ArpCall

/-! ### Decoding a dump -/

/-- The entries of a dump do not depend on the order of the attributes of its records. -/
theorem filterMap_entry_of_reordered (ifIndexToName : ℤ → Option String)
    {dump dump' : List NetlinkMessage} (h : List.Forall₂ NetlinkMessage.Reordered dump dump') :
    dump'.filterMap (NetlinkMessage.entry ifIndexToName) =
      dump.filterMap (NetlinkMessage.entry ifIndexToName) := by
  induction h with
  | nil => rfl
  | cons hm _ ih =>
    rw [List.filterMap_cons, List.filterMap_cons, hm.entry_eq ifIndexToName, ih]

/-- **The ARP table is decoded faithfully.** Take any dump of records and other messages, none of
them an error message or the end of a dump, in any datagrams that fit the receive buffer, with the
end of a dump as the last message. Whatever has happened so far in a call of `get_arp_table` no
system call of which fails, the call can go on to return, and what it returns is the entries of the
records, in their order. They do not depend on the order of the attributes of a record. -/
theorem decodes_dump (ifIndexToName : ℤ → Option String) (buf : ByteMemory)
    (dump : List NetlinkMessage) (closing : RawMessage) (datagrams : List (List RawMessage))
    (hclosing : closing.type = nlmsgDone)
    (hsplit : datagrams.flatten = dump.map NetlinkMessage.raw ++ [closing])
    (hplain : ∀ m ∈ dump, m.raw.type ≠ nlmsgDone ∧ m.raw.type ≠ nlmsgError)
    (hfits : ∀ d ∈ datagrams, (encodeDatagram d).length ≤ rxBufSize) :
    Leads (ArpCall.step ifIndexToName) ArpCall.Answered
        (ArpCall.Returns (dump.filterMap (NetlinkMessage.entry ifIndexToName)))
        (ArpCall.start buf (datagrams.map encodeDatagram)) ∧
      ∀ dump', List.Forall₂ NetlinkMessage.Reordered dump dump' →
        dump'.filterMap (NetlinkMessage.entry ifIndexToName) =
          dump.filterMap (NetlinkMessage.entry ifIndexToName) := by
  constructor
  · apply ArpCall.leads_start
    intro c hpc hqueue hentries
    have hlead : Leads (ArpCall.step ifIndexToName) ArpCall.Answered
        (ArpCall.Returns (c.entries ++ dump.filterMap (NetlinkMessage.entry ifIndexToName))) c :=
      ArpCall.leads_datagrams hclosing hfits dump c hsplit hplain hpc hqueue
    -- nothing has been found before the first datagram
    rwa [hentries, List.nil_append] at hlead
  · exact fun _ => filterMap_entry_of_reordered ifIndexToName

/-! ### Dumps with an error message -/

instance (c : ArpCall) : (l : ArpLabel) → Decidable (c.Answered l)
  | .socket ok | .send ok => inferInstanceAs (Decidable (ok = true))
  | .recvmsg r => inferInstanceAs (Decidable (r ≠ .failed))
  | .fprintf _ | .run => inferInstanceAs (Decidable True)

/-- The neighbour `10.0.0.1` at `02:00:00:00:00:01` on interface 2; the hardware address comes
first. -/
def gatewayRecord : NeighbourRecord where
  header := List.replicate 10 0
  pads := [0, 0, 0]
  ifindex := 2
  state := 2
  flags := [0, 1]
  attributes :=
    [⟨ndaLladdr, [2, 0, 0, 0, 0, 1], [0, 0], by decide, by decide, by decide⟩,
      ⟨ndaDst, [10, 0, 0, 1], [], by decide, by decide, by decide⟩]
  length_header := rfl
  length_pads := rfl
  ifindex_bounds := by decide
  state_lt := by decide
  length_flags := rfl
  dst_unique := by decide
  length_dst := by decide
  lladdr_unique := by decide

/-- A message with a payload of eight bytes, which needs no padding. -/
def plainMessage (type : ℕ) (payload : List UInt8) (htype : type < 2 ^ 16)
    (hpayload : payload.length = 8) : RawMessage where
  type := type
  header := List.replicate 10 0
  payload := payload
  padding := []
  type_lt := htype
  length_header := rfl
  aligned := by rw [hpayload]; rfl

/-- The message that ends a dump, `NLMSG_DONE` with an empty payload of eight bytes. -/
def doneMessage : RawMessage :=
  plainMessage nlmsgDone (List.replicate 8 0) (by decide) rfl

/-- An error message with the code zero: an acknowledgement, at which the walk stops all the
same. -/
def ackMessage : NetlinkMessage :=
  .other (plainMessage nlmsgError (List.replicate 8 0) (by decide) rfl)
    fun h => absurd h (by decide)

/-- A neighbour whose family is not that of IPv4: the first byte of its payload tells. -/
theorem exists_family_ne :
    ∃ b ∈ ([10, 0, 0, 0, 0, 0, 0, 0] : List UInt8).head?, b.toNat ≠ afInet := by
  refine ⟨10, rfl, ?_⟩
  decide

/-- A neighbour of another family, which the walk passes over. -/
def otherFamilyMessage : NetlinkMessage :=
  .other (plainMessage rtmNewneigh [10, 0, 0, 0, 0, 0, 0, 0] rtmNewneigh_lt rfl)
    fun _ => exists_family_ne

/-- A dump of two datagrams with one record and a neighbour of another family. -/
theorem decodes_dump_pair :
    Leads (ArpCall.step fun _ => none) ArpCall.Answered
      (ArpCall.Returns [⟨0x0A000001, "02:00:00:00:00:01", 2, "unknown"⟩])
      (ArpCall.start (fun _ => 0)
        ([[otherFamilyMessage.raw], [gatewayRecord.raw, doneMessage]].map encodeDatagram)) :=
  (decodes_dump (fun _ => none) (fun _ => 0) [otherFamilyMessage, .neighbour gatewayRecord]
    doneMessage [[otherFamilyMessage.raw], [gatewayRecord.raw, doneMessage]] rfl rfl (by decide)
    (by decide)).1

/-- **An error message ends the table.** The dump of an acknowledgement and a record has an entry,
and the call returns without it. -/
theorem not_decodes_dump :
    ¬ ∀ (ifIndexToName : ℤ → Option String) (buf : ByteMemory) (dump : List NetlinkMessage)
        (closing : RawMessage) (datagrams : List (List RawMessage)),
      closing.type = nlmsgDone →
      datagrams.flatten = dump.map NetlinkMessage.raw ++ [closing] →
      Leads (ArpCall.step ifIndexToName) ArpCall.Answered
        (ArpCall.Returns (dump.filterMap (NetlinkMessage.entry ifIndexToName)))
        (ArpCall.start buf (datagrams.map encodeDatagram)) := by
  intro h
  have hlead := h (fun _ => none) (fun _ => 0) [ackMessage, .neighbour gatewayRecord]
    doneMessage [[ackMessage.raw, gatewayRecord.raw, doneMessage]] rfl rfl
  obtain ⟨t, hrun, ht⟩ := exists_runs_of_execWhen (M := ArpCall.step fun _ => none)
    ArpCall.Answered
    (s := ArpCall.start (fun _ => 0)
      ([[ackMessage.raw, gatewayRecord.raw, doneMessage]].map encodeDatagram))
    [.socket true, .send true, .recvmsg .datagram, .run, .run]
    (fun t => decide (t.pc = .returned ∧ t.entries = [])) (by decide)
  obtain ⟨hpc, hentries⟩ := of_decide_eq_true ht
  obtain ⟨u, hrun', -, hreturns⟩ := hlead t hrun
  -- The call has returned, so this is what it returns.
  have hstay : u = t := by
    rcases hrun'.head_cases with rfl | ⟨l, v, -, hstep, -⟩
    · rfl
    · rw [ArpCall.step_returned hpc] at hstep
      cases hstep
  rw [hstay, hentries] at hreturns
  exact absurd hreturns (by decide)

end Netscan
