import Netscan.Arp.Table

/-! # How far the walk over a datagram reads

The two nested walks of `get_arp_table` follow lengths that the datagram states about itself. A walk
is safe when everything it reads lies in the datagram, in the message and in the attribute that
carry it, when its two counters never grow, and when it ends. `MessagesFit` says of the bytes alone
when that is so. -/

namespace Netscan

open MachineInt LabelledSystem

/-! ### Safety of a walk -/

/-- The bytes read lie in the datagram of `len` bytes; those of an attribute also in its message,
and those of its value in the attribute itself. -/
def ArpRead.Inside (buf : ByteMemory) (len : ℕ) : ArpRead → Prop
  | .message first width => first + width ≤ len
  | .attribute hdr first width =>
    first + width ≤ len ∧ hdr ≤ first ∧ first + width ≤ hdr + nlmsgLen buf hdr
  | .value hdr rta first width =>
    first + width ≤ len ∧ hdr ≤ first ∧ first + width ≤ hdr + nlmsgLen buf hdr ∧
      rta ≤ first ∧ first + width ≤ rta + rtaLenAt buf rta

/-- The counters `remaining` and `rta_len` are at most what they were at first. -/
def ArpPc.CountersKept (buf : ByteMemory) (len : ℕ) : ArpPc → Prop
  | .message _ remaining | .neighbour _ remaining _ _ | .next _ remaining => remaining ≤ len
  | .attribute hdr remaining _ rtaLen _ _ => remaining ≤ len ∧ rtaLen ≤ attributesLen buf hdr
  | _ => True

namespace ArpCall

/-- The walk over a datagram of `len` bytes has kept to it so far. -/
structure Bounded (len : ℕ) (c : ArpCall) : Prop where
  /-- What has been read lies inside. -/
  reads : ∀ r ∈ c.reads, r.Inside c.buf len
  /-- The counters have not wrapped. -/
  counters : c.pc.CountersKept c.buf len

/-- The steps of a walk: those before the next `recvmsg`, which would overwrite the buffer. -/
def Walking (c : ArpCall) (_ : ArpLabel) : Prop := c.pc ≠ .receive

/-- The walk has ended: with its datagram, or with the call, which then reads nothing any more. -/
def Walked (c : ArpCall) : Prop := c.pc = .receive ∨ c.pc = .returned

/-- The walk from `c` on keeps to its datagram of `len` bytes, and ends. The walk has no choices,
so `Leads` says that it is finite. -/
structure WalkSafe (ifIndexToName : ℤ → Option String) (len : ℕ) (c : ArpCall) : Prop where
  /-- It keeps to the datagram. -/
  bounded : Henceforth (step ifIndexToName) Walking (Bounded len) c
  /-- It ends. -/
  ends : Leads (step ifIndexToName) Walking Walked c

/-- The beginning of the walk over the first `len` bytes of the buffer. -/
def beginWalk (len : ℕ) (c : ArpCall) : ArpCall := { c with pc := .message 0 len, reads := [] }

end ArpCall

/-! ### The condition on the bytes -/

/-- The attribute is an `NDA_LLADDR` with fewer than six bytes: the parser leaves its loop, so what
lies behind it does not matter. -/
def ShortLladdr (buf : ByteMemory) (rta : ℕ) : Prop :=
  rtaType buf rta = ndaLladdr ∧ rtaPayload buf rta < macByteCount

/-- The attributes in the `rtaLen` bytes from `rta` on: as far as the parser goes, each `NDA_DST`
has at least four bytes and each attribute is padded to four bytes within what is left. -/
inductive AttributesFit (buf : ByteMemory) : ℕ → ℕ → Prop
  /-- No attribute is left. -/
  | stop {rta rtaLen : ℕ} : ¬ RtaOk buf rta rtaLen → AttributesFit buf rta rtaLen
  /-- The parser gives up. -/
  | short {rta rtaLen : ℕ} : RtaOk buf rta rtaLen → ShortLladdr buf rta →
      AttributesFit buf rta rtaLen
  /-- An attribute that fits, before others that do. -/
  | next {rta rtaLen : ℕ} : RtaOk buf rta rtaLen → ¬ ShortLladdr buf rta →
      (rtaType buf rta = ndaDst → 4 ≤ rtaPayload buf rta) →
      align4 (rtaLenAt buf rta) ≤ rtaLen →
      AttributesFit buf (rta + align4 (rtaLenAt buf rta)) (rtaLen - align4 (rtaLenAt buf rta)) →
      AttributesFit buf rta rtaLen

/-- What a message that is not the last one has to hold: a neighbour's family lies in the datagram,
and an IPv4 neighbour is as long as its header, with attributes that fit. -/
def NeighbourFits (buf : ByteMemory) (hdr remaining : ℕ) : Prop :=
  nlmsgType buf hdr = rtmNewneigh →
    nlmsgHdrlen < remaining ∧
      (ndmFamily buf hdr = afInet →
        nlmsgHdrlen + ndmsgSize ≤ nlmsgLen buf hdr ∧
          AttributesFit buf (hdr + nlmsgHdrlen + ndmsgSize)
            (nlmsgLen buf hdr - (nlmsgHdrlen + ndmsgSize)))

/-- The messages in the `remaining` bytes from `hdr` on, up to the one that ends the walk: each is
padded to four bytes within what is left, an error message has its error code, and neighbours
fit. -/
inductive MessagesFit (buf : ByteMemory) : ℕ → ℕ → Prop
  /-- No message is left. -/
  | stop {hdr remaining : ℕ} : ¬ NlmsgOk buf hdr remaining → MessagesFit buf hdr remaining
  /-- The last message of a dump. -/
  | done {hdr remaining : ℕ} : NlmsgOk buf hdr remaining → nlmsgType buf hdr = nlmsgDone →
      MessagesFit buf hdr remaining
  /-- An error message. -/
  | error {hdr remaining : ℕ} : NlmsgOk buf hdr remaining → nlmsgType buf hdr = nlmsgError →
      nlmsgHdrlen + 4 ≤ remaining → MessagesFit buf hdr remaining
  /-- Any other message, before others that fit. -/
  | next {hdr remaining : ℕ} : NlmsgOk buf hdr remaining → nlmsgType buf hdr ≠ nlmsgDone →
      nlmsgType buf hdr ≠ nlmsgError → NeighbourFits buf hdr remaining →
      align4 (nlmsgLen buf hdr) ≤ remaining →
      MessagesFit buf (hdr + align4 (nlmsgLen buf hdr))
        (remaining - align4 (nlmsgLen buf hdr)) →
      MessagesFit buf hdr remaining

/-- Rounding up to a multiple of four, away from the end of the range. -/
theorem align4_eq {n : ℕ} (h : n ≤ rxBufSize) : align4 n = (n + 3) / 4 * 4 := by
  unfold rxBufSize at h
  rw [align4, u32_of_lt (by omega)]

/-- An aligned length that fits leaves its counter what is behind it, as the code means it. -/
theorem subU32_align4 {n r : ℕ} (h : align4 n ≤ r) (hr : r ≤ rxBufSize) :
    subU32 r (align4 n) = r - align4 n := by
  unfold rxBufSize at hr
  exact subU32_of_le h (by omega)

/-- An aligned length that does not fit makes its counter wrap around, to more than any datagram
has. -/
theorem lt_subU32_align4 {n r : ℕ} (hn : n ≤ r) (hr : r ≤ rxBufSize) (h : r < align4 n) :
    rxBufSize < subU32 r (align4 n) := by
  have halign := align4_eq (hn.trans hr)
  unfold rxBufSize at hr ⊢
  rw [subU32_of_lt h (by omega)]
  omega

/-- Without a borrow, the attributes are what is behind the two headers, as the code means it. -/
theorem attributesLen_eq {buf : ByteMemory} {hdr : ℕ}
    (h : nlmsgHdrlen + ndmsgSize ≤ nlmsgLen buf hdr) :
    attributesLen buf hdr = nlmsgLen buf hdr - (nlmsgHdrlen + ndmsgSize) :=
  subU32_of_le h (buf.uint_lt hdr 4)

namespace ArpCall

variable {ifIndexToName : ℤ → Option String} {len : ℕ} {c : ArpCall}

/-! ### A walk over messages that fit -/

/-- What has been read lies in the datagram, in its message, and in its attribute. -/
abbrev ReadsInside (len : ℕ) (c : ArpCall) : Prop := ∀ r ∈ c.reads, r.Inside c.buf len

/-- More reads that lie inside, so that the record can grow turn by turn. -/
theorem ReadsInside.read (h : ReadsInside len c) {rs : List ArpRead}
    (hrs : ∀ r ∈ rs, r.Inside c.buf len) : ReadsInside len (c.read rs) := by
  intro r hr
  rcases List.mem_append.mp hr with hr | hr
  · exact h r hr
  · exact hrs r hr

/-- A walk is safe if it is after its next step, which is the only one it can take. -/
theorem WalkSafe.of_runStep {u : ArpCall} (hrun : c.runStep ifIndexToName = some u)
    (hc : Bounded len c) (hu : WalkSafe ifIndexToName len u) : WalkSafe ifIndexToName len c := by
  constructor
  · apply Henceforth.of_next hc
    intro l v _ hstep
    obtain ⟨-, rfl⟩ := (step_eq_some_iff hrun).mp hstep
    exact .inr hu.bounded
  · apply Leads.of_next
    · intro l v _ hstep
      obtain ⟨-, rfl⟩ := (step_eq_some_iff hrun).mp hstep
      exact .inr hu.ends
    · refine ⟨.run, u, ?_, (step_eq_some_iff hrun).mpr ⟨rfl, rfl⟩, hu.ends⟩
      intro hpc
      simp [runStep, hpc] at hrun

/-- A walk that has ended is safe if it was, as nothing more is read. -/
theorem WalkSafe.of_walked (hend : Walked c) (hc : Bounded len c) :
    WalkSafe ifIndexToName len c := by
  have hstay : ∀ l v, Walking c l → step ifIndexToName c l ≠ some v := by
    intro l v hwalking
    rcases hend with hpc | hpc
    · exact absurd hpc hwalking
    · cases l <;> simp [step, runStep, hpc]
  constructor
  · apply Henceforth.of_next hc
    intro l v hwalking hstep
    exact absurd hstep (hstay l v hwalking)
  · apply Leads.of_final _ hend
    intro l v hwalking hstep
    exact absurd hstep (hstay l v hwalking)

/-- When `parse_netlink_message` has stopped the walk, the call returns in one step and reads
nothing. -/
theorem WalkSafe.of_stopped (hpc : c.pc = .stopped) (hreads : ReadsInside len c) :
    WalkSafe ifIndexToName len c := by
  refine WalkSafe.of_runStep (u := c.goto .returned) (by rw [runStep, hpc]) ⟨hreads, ?_⟩ ?_
  · rw [hpc]
    trivial
  · exact WalkSafe.of_walked (.inr rfl) ⟨hreads, trivial⟩

/-- The report about an error stops the walk, whether or not `fprintf` fails. -/
theorem WalkSafe.of_netlinkError {e : ℤ} (hpc : c.pc = .netlinkError e)
    (hreads : ReadsInside len c) : WalkSafe ifIndexToName len c := by
  have hc : Bounded len c := ⟨hreads, by rw [hpc]; trivial⟩
  have hnext : ∀ l v, step ifIndexToName c l = some v → WalkSafe ifIndexToName len v := by
    intro l v hstep
    cases l <;> simp only [step, runStep, hpc, reduceCtorEq, Option.some.injEq] at hstep
    subst hstep
    apply WalkSafe.of_stopped rfl
    unfold report
    split <;> exact hreads
  -- the one step is the `fprintf`, and it reads nothing
  constructor
  · exact Henceforth.of_next hc fun l v _ hstep => .inr (hnext l v hstep).bounded
  · refine Leads.of_next (fun l v _ hstep => .inr (hnext l v hstep).ends) ?_
    have hstep : step ifIndexToName c (.fprintf true) =
        some ((c.report (netlinkErrorText e) true).close.goto .stopped) := by
      simp [step, hpc]
    refine ⟨.fprintf true, _, ?_, hstep, (hnext _ _ hstep).ends⟩
    simp [Walking, hpc]

section Fits

variable {buf : ByteMemory} {hdr remaining rta rtaLen : ℕ}

/-- The header of an attribute for which there is room lies inside. -/
theorem inside_attributeHeader (hrta : hdr ≤ rta) (hend : rta + rtaLen ≤ hdr + nlmsgLen buf hdr)
    (hmsg : hdr + nlmsgLen buf hdr ≤ len) (hroom : rtattrSize ≤ rtaLen) :
    ∀ r ∈ [ArpRead.attribute hdr rta 2, .attribute hdr (rta + 2) 2], r.Inside buf len := by
  simp only [rtattrSize] at hroom
  simp only [List.forall_mem_cons, ArpRead.Inside]
  refine ⟨by omega, by omega, by simp⟩

/-- The first `n` bytes of the value of an attribute that has as many lie inside. -/
theorem inside_attributeValue {n : ℕ} (hrta : hdr ≤ rta)
    (hend : rta + rtaLen ≤ hdr + nlmsgLen buf hdr) (hmsg : hdr + nlmsgLen buf hdr ≤ len)
    (hok : RtaOk buf rta rtaLen) (hn : n ≤ rtaPayload buf rta) :
    ∀ r ∈ [ArpRead.attribute hdr rta 2, .attribute hdr (rta + 2) 2, .value hdr rta (rtaData rta) n],
      r.Inside buf len := by
  obtain ⟨hroom, hlo, hhi⟩ := hok
  simp only [rtattrSize, rtaPayload] at hroom hlo hn
  simp only [List.forall_mem_cons, ArpRead.Inside, rtaData, rtattrSize]
  refine ⟨by omega, by omega, by omega, by simp⟩

/-- A state in the loop over attributes whose counters are kept. -/
theorem bounded_of_attribute {ip : ℕ} {mac : String}
    (hpc : c.pc = .attribute hdr remaining rta rtaLen ip mac) (hremaining : remaining ≤ len)
    (hcount : rtaLen ≤ attributesLen c.buf hdr) (hreads : ReadsInside len c) : Bounded len c := by
  refine ⟨hreads, ?_⟩
  rw [hpc]
  exact ⟨hremaining, hcount⟩

/-- The attributes of a message are walked safely if what comes after them is. -/
theorem walkSafe_attributes (hfit : AttributesFit buf rta rtaLen) (hlen : len ≤ rxBufSize)
    (hmsg : hdr + nlmsgLen buf hdr ≤ len) (hremaining : remaining ≤ len)
    (hnext : ∀ c ip mac, c.buf = buf → c.pc = .neighbour hdr remaining ip mac →
      ReadsInside len c → WalkSafe ifIndexToName len c) :
    ∀ c ip mac, hdr ≤ rta → rta + rtaLen ≤ hdr + nlmsgLen buf hdr →
      rtaLen ≤ attributesLen buf hdr → c.buf = buf →
      c.pc = .attribute hdr remaining rta rtaLen ip mac → ReadsInside len c →
      WalkSafe ifIndexToName len c := by
  induction hfit with
  | @stop rta rtaLen hstop =>
    intro c ip mac hrta hend hcount hbuf hpc hreads
    subst hbuf
    have hc := bounded_of_attribute hpc hremaining hcount hreads
    refine WalkSafe.of_runStep (by rw [runStep, hpc]) hc ?_
    rw [parseNetlinkAttribute_stop hstop]
    refine hnext _ ip mac rfl rfl (hreads.read ?_)
    intro r hr
    split at hr
    · rename_i hroom
      obtain rfl := List.mem_singleton.mp hr
      exact inside_attributeHeader hrta hend hmsg hroom _ (by simp)
    · cases hr
  | @short rta rtaLen hok hshort =>
    intro c ip mac hrta hend hcount hbuf hpc hreads
    subst hbuf
    have hc := bounded_of_attribute hpc hremaining hcount hreads
    refine WalkSafe.of_runStep (by rw [runStep, hpc]) hc ?_
    rw [parseNetlinkAttribute_short hok hshort.1 hshort.2]
    exact hnext _ ip mac rfl rfl (hreads.read (inside_attributeHeader hrta hend hmsg hok.1))
  | @next rta rtaLen hok hlong hdst halign _ ih =>
    intro c ip mac hrta hend hcount hbuf hpc hreads
    subst hbuf
    have hc := bounded_of_attribute hpc hremaining hcount hreads
    have hrtaLen : rtaLen ≤ rxBufSize := by omega
    -- Whatever the attribute is, the rest of the attributes comes next.
    have hrest : ∀ (rs : List ArpRead) (ip' : ℕ) (mac' : String),
        (∀ r ∈ rs, r.Inside c.buf len) → WalkSafe ifIndexToName len
          ((c.read rs).nextAttribute hdr remaining rta rtaLen ip' mac') := by
      intro rs ip' mac' hrs
      refine ih _ ip' mac' (by omega) (by omega) (by omega) rfl ?_ (hreads.read hrs)
      simp only [nextAttribute, goto_pc, read_buf, subU32_align4 halign hrtaLen]
    refine WalkSafe.of_runStep (by rw [runStep, hpc]) hc ?_
    by_cases ht : rtaType c.buf rta = ndaDst
    · rw [parseNetlinkAttribute_dst hok ht]
      exact hrest _ _ _ (inside_attributeValue hrta hend hmsg hok (hdst ht))
    by_cases ht' : rtaType c.buf rta = ndaLladdr
    · have hlong' : macByteCount ≤ rtaPayload c.buf rta := by
        by_contra hlt
        exact hlong ⟨ht', by omega⟩
      rw [parseNetlinkAttribute_lladdr hok ht' hlong']
      exact hrest _ _ _ (inside_attributeValue hrta hend hmsg hok hlong')
    · rw [parseNetlinkAttribute_other hok ht ht']
      exact hrest _ _ _ (inside_attributeHeader hrta hend hmsg hok.1)

/-- The end of a neighbour message that has its `ndmsg` is walked safely if what comes after it
is. -/
theorem walkSafe_neighbour (hmsg : hdr + nlmsgHdrlen + ndmsgSize ≤ len)
    (hremaining : remaining ≤ len)
    (hnext : ∀ c, c.buf = buf → c.pc = .next hdr remaining → ReadsInside len c →
      WalkSafe ifIndexToName len c) {ip : ℕ} {mac : String} (hbuf : c.buf = buf)
    (hpc : c.pc = .neighbour hdr remaining ip mac) (hreads : ReadsInside len c) :
    WalkSafe ifIndexToName len c := by
  simp only [nlmsgHdrlen, ndmsgSize] at hmsg
  have hc : Bounded len c := ⟨hreads, by rw [hpc]; exact hremaining⟩
  refine WalkSafe.of_runStep (by rw [runStep, hpc]) hc ?_
  have hstate : ReadsInside len (c.read [.message (hdr + nlmsgHdrlen + 8) 2]) := by
    apply hreads.read
    simp only [List.forall_mem_cons, ArpRead.Inside, nlmsgHdrlen]
    refine ⟨by omega, by simp⟩
  have hindex : ReadsInside len ((c.read [.message (hdr + nlmsgHdrlen + 8) 2]).read
      [.message (hdr + nlmsgHdrlen + 4) 4]) := by
    apply hstate.read
    simp only [List.forall_mem_cons, ArpRead.Inside, nlmsgHdrlen]
    refine ⟨by omega, by simp⟩
  -- the state and the index lie in the `ndmsg`; the branches differ in what they read of it
  unfold finishNeighbour
  split
  · dsimp only
    split
    · exact hnext _ hbuf rfl hstate
    · split
      · exact hnext _ hbuf rfl hstate
      · exact hnext _ hbuf rfl hindex
  · exact hnext _ hbuf rfl hreads

/-- A message at which the walk stops, or that it looks at: what is read up to its type. -/
theorem bounded_of_message (hpc : c.pc = .message hdr remaining) (hroom : hdr + remaining ≤ len)
    (hreads : ReadsInside len c) : Bounded len c := by
  refine ⟨hreads, ?_⟩
  rw [hpc]
  exact Nat.le_of_add_left_le hroom

/-- **Messages that fit are walked safely.** By induction on the fit, which follows the walk message
by message; the attributes of a message are walked by `walkSafe_attributes`. -/
theorem walkSafe_of_messagesFit (hfit : MessagesFit buf hdr remaining) (hlen : len ≤ rxBufSize) :
    ∀ c, hdr + remaining ≤ len → c.buf = buf → c.pc = .message hdr remaining →
      ReadsInside len c → WalkSafe ifIndexToName len c := by
  induction hfit with
  | @stop hdr remaining hstop =>
    intro c hroom hbuf hpc hreads
    subst hbuf
    have hc := bounded_of_message hpc hroom hreads
    refine WalkSafe.of_runStep (by rw [runStep, hpc]) hc ?_
    rw [messageTurn_stop hstop]
    refine WalkSafe.of_walked (.inl rfl) ⟨hreads.read ?_, trivial⟩
    intro r hr
    split at hr
    · rename_i h16
      simp only [nlmsgHdrlen] at h16
      obtain rfl := List.mem_singleton.mp hr
      simp only [ArpRead.Inside]
      omega
    · cases hr
  | @done hdr remaining hok htype =>
    intro c hroom hbuf hpc hreads
    subst hbuf
    have hc := bounded_of_message hpc hroom hreads
    refine WalkSafe.of_runStep (by rw [runStep, hpc]) hc ?_
    rw [messageTurn_done hok htype]
    refine WalkSafe.of_stopped rfl (hreads.read ?_)
    have h16 := hok.1
    simp only [nlmsgHdrlen] at h16
    simp only [List.forall_mem_cons, ArpRead.Inside]
    refine ⟨by omega, by omega, by simp⟩
  | @error hdr remaining hok htype herror =>
    intro c hroom hbuf hpc hreads
    subst hbuf
    have hc := bounded_of_message hpc hroom hreads
    refine WalkSafe.of_runStep (by rw [runStep, hpc]) hc ?_
    rw [messageTurn_error hok htype]
    have hread : ReadsInside len (c.read [.message hdr 4, .message (hdr + 4) 2,
        .message (hdr + nlmsgHdrlen) 4]) := by
      apply hreads.read
      simp only [nlmsgHdrlen] at herror
      simp only [List.forall_mem_cons, ArpRead.Inside, nlmsgHdrlen]
      refine ⟨by omega, by omega, by omega, by simp⟩
    split
    · exact WalkSafe.of_stopped rfl hread
    · exact WalkSafe.of_netlinkError rfl hread
  | @next hdr remaining hok hdone herror hneigh halign _ ih =>
    intro c hroom hbuf hpc hreads
    subst hbuf
    have hc := bounded_of_message hpc hroom hreads
    have h16 := hok.1
    simp only [nlmsgHdrlen] at h16
    -- Whatever the message is, the rest of the messages comes next.
    have hnext : ∀ c', c'.buf = c.buf → c'.pc = .next hdr remaining → ReadsInside len c' →
        WalkSafe ifIndexToName len c' := by
      intro c' hbuf' hpc' hreads'
      refine WalkSafe.of_runStep (by rw [runStep, hpc'])
        ⟨hreads', by rw [hpc']; exact Nat.le_of_add_left_le hroom⟩ ?_
      rw [nextMessage, hbuf', subU32_align4 halign (by omega)]
      refine ih _ (by omega) hbuf' rfl (hreads'.read ?_)
      simp only [List.forall_mem_cons, ArpRead.Inside]
      refine ⟨by omega, by simp⟩
    refine WalkSafe.of_runStep (by rw [runStep, hpc]) hc ?_
    by_cases htype : nlmsgType c.buf hdr = rtmNewneigh
    · obtain ⟨h17, hinet⟩ := hneigh htype
      have hread : ReadsInside len (c.read [.message hdr 4, .message (hdr + 4) 2,
          .message (hdr + nlmsgHdrlen) 1]) := by
        apply hreads.read
        simp only [nlmsgHdrlen] at h17
        simp only [List.forall_mem_cons, ArpRead.Inside, nlmsgHdrlen]
        refine ⟨by omega, by omega, by omega, by simp⟩
      by_cases hfamily : ndmFamily c.buf hdr = afInet
      · obtain ⟨hL, hattr⟩ := hinet hfamily
        rw [messageTurn_neighbour hok htype hfamily]
        have hmsg : hdr + nlmsgLen c.buf hdr ≤ len := by
          have := hok.2.2
          omega
        have hremaining : remaining ≤ len := by omega
        refine walkSafe_attributes hattr hlen hmsg hremaining ?_ _ 0 noMac
          (by omega) (by omega) (attributesLen_eq hL).ge rfl ?_ hread
        · intro c' ip mac hbuf' hpc' hreads'
          exact walkSafe_neighbour (by omega) hremaining hnext hbuf' hpc' hreads'
        · simp only [goto_pc, attributesLen_eq hL]
      · rw [messageTurn_family hok htype hfamily]
        exact hnext _ rfl rfl hread
    · rw [messageTurn_other hok hdone herror htype]
      refine hnext _ rfl rfl (hreads.read ?_)
      simp only [List.forall_mem_cons, ArpRead.Inside]
      refine ⟨by omega, by omega, by simp⟩

/-! ### A safe walk is one over messages that fit -/

/-- The step of a walk that keeps to its datagram leads to a walk that does. -/
theorem henceforth_of_runStep {u : ArpCall}
    (h : Henceforth (step ifIndexToName) Walking (Bounded len) c)
    (hrun : c.runStep ifIndexToName = some u) :
    Henceforth (step ifIndexToName) Walking (Bounded len) u := by
  refine h.next (l := .run) ?_ ((step_eq_some_iff hrun).mpr ⟨rfl, rfl⟩)
  intro hpc
  simp [runStep, hpc] at hrun

/-- With room for the header of an attribute, its length is read. -/
theorem mem_reads_parseNetlinkAttribute (hroom : rtattrSize ≤ rtaLen) (ip : ℕ) (mac : String) :
    ArpRead.attribute hdr rta 2 ∈
      (c.parseNetlinkAttribute hdr remaining rta rtaLen ip mac).reads := by
  unfold parseNetlinkAttribute nextAttribute
  dsimp only
  rw [if_pos hroom]
  split_ifs <;> simp

@[simp] theorem buf_parseNetlinkAttribute (hdr remaining rta rtaLen ip : ℕ) (mac : String)
    (c : ArpCall) : (c.parseNetlinkAttribute hdr remaining rta rtaLen ip mac).buf = c.buf := by
  unfold parseNetlinkAttribute nextAttribute
  dsimp only
  split_ifs <;> rfl

/-- The attributes of a message whose walk keeps to it fit, and the walk gets past them. By
induction on what is left: an attribute that passes `RTA_OK` takes some of it. -/
theorem attributesFit_of_henceforth (hL : nlmsgHdrlen + ndmsgSize ≤ nlmsgLen buf hdr)
    (hLmax : nlmsgLen buf hdr ≤ rxBufSize) :
    ∀ c rta ip mac, Henceforth (step ifIndexToName) Walking (Bounded len) c → c.buf = buf →
      c.pc = .attribute hdr remaining rta rtaLen ip mac → rtaLen ≤ attributesLen buf hdr →
      AttributesFit buf rta rtaLen ∧ ∃ c' ip mac,
        Henceforth (step ifIndexToName) Walking (Bounded len) c' ∧ c'.buf = buf ∧
        c'.pc = .neighbour hdr remaining ip mac := by
  induction rtaLen using Nat.strong_induction_on with
  | _ rtaLen ih =>
    intro c rta ip mac hsafe hbuf hpc hcount
    subst hbuf
    have hmax : rtaLen ≤ rxBufSize := by
      rw [attributesLen_eq hL] at hcount
      omega
    have hnext := henceforth_of_runStep hsafe (by rw [runStep, hpc])
    by_cases hok : RtaOk c.buf rta rtaLen
    swap
    · rw [parseNetlinkAttribute_stop hok] at hnext
      exact ⟨.stop hok, _, _, _, hnext, rfl, rfl⟩
    have hpos : 0 < align4 (rtaLenAt c.buf rta) := by
      have hR := hok.2.1
      simp only [rtattrSize] at hR
      rw [align4_eq (hok.2.2.trans hmax)]
      omega
    -- Behind an attribute that is not the last one looked at, the induction hypothesis applies.
    have hrest : ∀ (rs : List ArpRead) (ip' : ℕ) (mac' : String),
        (rtaType c.buf rta = ndaDst → 4 ≤ rtaPayload c.buf rta) → ¬ ShortLladdr c.buf rta →
        Henceforth (step ifIndexToName) Walking (Bounded len)
          ((c.read rs).nextAttribute hdr remaining rta rtaLen ip' mac') →
        AttributesFit c.buf rta rtaLen ∧ ∃ c' ip mac,
          Henceforth (step ifIndexToName) Walking (Bounded len) c' ∧ c'.buf = c.buf ∧
          c'.pc = .neighbour hdr remaining ip mac := by
      intro rs ip' mac' hdst hlong hsafe'
      have hcount' : subU32 rtaLen (align4 (rtaLenAt c.buf rta)) ≤ attributesLen c.buf hdr :=
        hsafe'.here.counters.2
      have halign : align4 (rtaLenAt c.buf rta) ≤ rtaLen := by
        by_contra hlt
        have hwrap := lt_subU32_align4 hok.2.2 hmax (by omega)
        rw [attributesLen_eq hL] at hcount'
        omega
      have hpc' : ((c.read rs).nextAttribute hdr remaining rta rtaLen ip' mac').pc =
          .attribute hdr remaining (rta + align4 (rtaLenAt c.buf rta))
            (rtaLen - align4 (rtaLenAt c.buf rta)) ip' mac' := by
        simp only [nextAttribute, goto_pc, read_buf, subU32_align4 halign hmax]
      have hless : rtaLen - align4 (rtaLenAt c.buf rta) < rtaLen := by omega
      obtain ⟨hfit, hreach⟩ := ih _ hless _ _ ip' mac' hsafe' rfl hpc' (by omega)
      exact ⟨.next hok hlong hdst halign hfit, hreach⟩
    by_cases ht : rtaType c.buf rta = ndaDst
    · rw [parseNetlinkAttribute_dst hok ht] at hnext
      refine hrest _ _ _ ?_ ?_ hnext
      · intro _
        have hval : rtaData rta + 4 ≤ rta + rtaLenAt c.buf rta :=
          (hnext.here.reads (.value hdr rta (rtaData rta) 4) (by simp [nextAttribute])).2.2.2.2
        simp only [rtaData, rtattrSize, rtaPayload] at hval ⊢
        omega
      · rintro ⟨ht', -⟩
        rw [ht] at ht'
        exact absurd ht' (by decide)
    by_cases ht' : rtaType c.buf rta = ndaLladdr
    · by_cases hshort : rtaPayload c.buf rta < macByteCount
      · rw [parseNetlinkAttribute_short hok ht' hshort] at hnext
        exact ⟨.short hok ⟨ht', hshort⟩, _, _, _, hnext, rfl, rfl⟩
      · rw [parseNetlinkAttribute_lladdr hok ht' (by omega)] at hnext
        exact hrest _ _ _ (fun h => absurd h ht) (fun h => hshort h.2) hnext
    · rw [parseNetlinkAttribute_other hok ht ht'] at hnext
      exact hrest _ _ _ (fun h => absurd h ht) (fun h => ht' h.1) hnext

/-- A walk that keeps to its datagram only looks for attributes in messages that have an `ndmsg`:
in a shorter one the subtraction wraps, and the first look is behind the message. -/
theorem le_nlmsgLen_of_henceforth {ip : ℕ} {mac : String}
    (h : Henceforth (step ifIndexToName) Walking (Bounded len) c) (hbuf : c.buf = buf)
    (hpc : c.pc = .attribute hdr remaining (hdr + nlmsgHdrlen + ndmsgSize) (attributesLen buf hdr)
      ip mac) (hL : nlmsgHdrlen ≤ nlmsgLen buf hdr) :
    nlmsgHdrlen + ndmsgSize ≤ nlmsgLen buf hdr := by
  subst hbuf
  by_contra hlt
  have hnext := henceforth_of_runStep h (by rw [runStep, hpc])
  -- the difference has wrapped, so there seems to be room for an attribute, and its length is read
  have hroom : rtattrSize ≤ attributesLen c.buf hdr := by
    simp only [nlmsgHdrlen, ndmsgSize] at hlt
    rw [attributesLen, subU32_of_lt (by simp only [nlmsgHdrlen, ndmsgSize]; omega)
      (by norm_num [nlmsgHdrlen, ndmsgSize])]
    simp only [nlmsgHdrlen, ndmsgSize, rtattrSize]
    omega
  have hread := hnext.here.reads _ (mem_reads_parseNetlinkAttribute hroom ip mac)
  rw [buf_parseNetlinkAttribute] at hread
  obtain ⟨-, -, hread⟩ := hread
  omega

/-- After the attributes, the walk gets past the message, whether or not it adds an entry. -/
theorem exists_next_of_neighbour {ip : ℕ} {mac : String}
    (h : Henceforth (step ifIndexToName) Walking (Bounded len) c)
    (hpc : c.pc = .neighbour hdr remaining ip mac) :
    ∃ c', Henceforth (step ifIndexToName) Walking (Bounded len) c' ∧ c'.buf = c.buf ∧
      c'.pc = .next hdr remaining := by
  refine ⟨_, henceforth_of_runStep h (by rw [runStep, hpc]), ?_, ?_⟩ <;>
    (unfold finishNeighbour; dsimp only; split_ifs <;> rfl)

/-- The error code of an error message is read, so it has to be there. -/
theorem mem_reads_messageTurn_error (hok : NlmsgOk c.buf hdr remaining)
    (herror : nlmsgType c.buf hdr = nlmsgError) :
    ArpRead.message (hdr + nlmsgHdrlen) 4 ∈ (c.messageTurn hdr remaining).reads := by
  rw [messageTurn_error hok herror]
  split <;> simp

/-- The messages of a walk that keeps to its datagram fit. By induction on what remains. -/
theorem messagesFit_of_henceforth (hlen : len ≤ rxBufSize) :
    ∀ c hdr, Henceforth (step ifIndexToName) Walking (Bounded len) c → c.buf = buf →
      c.pc = .message hdr remaining → hdr + remaining = len →
      MessagesFit buf hdr remaining := by
  induction remaining using Nat.strong_induction_on with
  | _ remaining ih =>
    intro c hdr hsafe hbuf hpc hroom
    subst hbuf
    have hnext := henceforth_of_runStep hsafe (by rw [runStep, hpc])
    by_cases hok : NlmsgOk c.buf hdr remaining
    swap
    · exact .stop hok
    have hmax : remaining ≤ rxBufSize := by omega
    have hLmax := hok.2.2.trans hmax
    have hpos : 0 < align4 (nlmsgLen c.buf hdr) := by
      have hL := hok.2.1
      simp only [nlmsgHdrlen] at hL
      rw [align4_eq hLmax]
      omega
    by_cases hdone : nlmsgType c.buf hdr = nlmsgDone
    · exact .done hok hdone
    by_cases herror : nlmsgType c.buf hdr = nlmsgError
    · have hread := hnext.here.reads _ (mem_reads_messageTurn_error hok herror)
      simp only [ArpRead.Inside] at hread
      exact .error hok herror (by omega)
    -- Behind a message that does not end the walk, the induction hypothesis applies.
    have hrest : ∀ c', Henceforth (step ifIndexToName) Walking (Bounded len) c' →
        c'.buf = c.buf → c'.pc = .next hdr remaining → NeighbourFits c.buf hdr remaining →
        MessagesFit c.buf hdr remaining := by
      intro c' hsafe' hbuf' hpc' hneigh
      have hnext' := henceforth_of_runStep hsafe' (by rw [runStep, hpc'])
      rw [nextMessage, hbuf'] at hnext'
      have hcount : subU32 remaining (align4 (nlmsgLen c.buf hdr)) ≤ len := hnext'.here.counters
      have halign : align4 (nlmsgLen c.buf hdr) ≤ remaining := by
        by_contra hlt
        have hwrap := lt_subU32_align4 hok.2.2 hmax (by omega)
        omega
      rw [subU32_align4 halign hmax] at hnext'
      have hless : remaining - align4 (nlmsgLen c.buf hdr) < remaining := by omega
      exact .next hok hdone herror hneigh halign
        (ih _ hless _ _ hnext' hbuf' rfl (by omega))
    by_cases htype : nlmsgType c.buf hdr = rtmNewneigh
    swap
    · rw [messageTurn_other hok hdone herror htype] at hnext
      exact hrest _ hnext rfl rfl (fun h => absurd h htype)
    by_cases hfamily : ndmFamily c.buf hdr = afInet
    · rw [messageTurn_neighbour hok htype hfamily] at hnext
      have hread : hdr + nlmsgHdrlen + 1 ≤ len :=
        hnext.here.reads (.message (hdr + nlmsgHdrlen) 1) (by simp)
      have hL : nlmsgHdrlen + ndmsgSize ≤ nlmsgLen c.buf hdr :=
        le_nlmsgLen_of_henceforth hnext rfl rfl hok.2.1
      obtain ⟨hfit, c', ip, mac, hsafe', hbuf', hpc'⟩ :=
        attributesFit_of_henceforth hL hLmax _ _ _ _ hnext rfl rfl le_rfl
      rw [attributesLen_eq hL] at hfit
      obtain ⟨c'', hsafe'', hbuf'', hpc''⟩ := exists_next_of_neighbour hsafe' hpc'
      exact hrest c'' hsafe'' (hbuf''.trans hbuf') hpc'' fun _ => ⟨by omega, fun _ => ⟨hL, hfit⟩⟩
    · rw [messageTurn_family hok htype hfamily] at hnext
      have hread : hdr + nlmsgHdrlen + 1 ≤ len :=
        hnext.here.reads (.message (hdr + nlmsgHdrlen) 1) (by simp)
      exact hrest _ hnext rfl rfl (fun _ => ⟨by omega, fun h => absurd h hfamily⟩)

end Fits

end ArpCall

/-! ### The condition is exact -/

/-- **When the walk over a datagram stays inside and ends.** For every receive buffer and every
received length: the walk of `get_arp_table` over it reads only bytes of the datagram, of the
attributes' message and of the attribute itself, keeps its counters from wrapping and ends, if and
only if the messages and attributes fit. -/
theorem walk_safe_iff (ifIndexToName : ℤ → Option String) (c : ArpCall) (len : ℕ)
    (hlen : len ≤ rxBufSize) :
    (c.beginWalk len).WalkSafe ifIndexToName len ↔ MessagesFit c.buf 0 len := by
  constructor
  · intro h
    exact ArpCall.messagesFit_of_henceforth hlen _ 0 h.bounded rfl rfl (Nat.zero_add len)
  · intro h
    refine ArpCall.walkSafe_of_messagesFit h hlen _ (Nat.zero_add len).le rfl rfl ?_
    intro r hr
    cases hr

/-! ### Datagrams that are not walked safely -/

instance (buf : ByteMemory) (len : ℕ) : (r : ArpRead) → Decidable (r.Inside buf len)
  | .message _ _ => inferInstanceAs (Decidable (_ ≤ _))
  | .attribute _ _ _ => inferInstanceAs (Decidable (_ ∧ _ ∧ _))
  | .value _ _ _ _ => inferInstanceAs (Decidable (_ ∧ _ ∧ _ ∧ _ ∧ _))

instance (c : ArpCall) (l : ArpLabel) : Decidable (c.Walking l) :=
  inferInstanceAs (Decidable (c.pc ≠ .receive))

/-- A call that has received the bytes `bs`, with zeros behind them in its buffer. -/
def ArpCall.holding (bs : List UInt8) : ArpCall :=
  { pc := .receive, buf := ByteMemory.store (fun _ => 0) bs, queue := [] }

/-- An IPv4 neighbour message whose only attribute is an `NDA_DST` with the value `dst`. -/
def dstMessage (dst : List UInt8) : List UInt8 :=
  leBytes 4 (32 + dst.length) ++ leBytes 2 rtmNewneigh ++ List.replicate 10 0 ++
    leBytes 1 afInet ++ List.replicate 11 0 ++
    leBytes 2 (4 + dst.length) ++ leBytes 2 ndaDst ++ dst

/-- A message of another type that is 17 bytes long, at the end of its datagram. -/
def unalignedMessage : List UInt8 := leBytes 4 17 ++ leBytes 2 1 ++ List.replicate 11 0

/-- The walk is safe over an `NDA_DST` of four bytes, and not over a message of 17 bytes: the
counter of the message loop wraps. -/
theorem walk_safe_iff_pair :
    ((ArpCall.holding (dstMessage [10, 0, 0, 1])).beginWalk 36).WalkSafe (fun _ => none) 36 ∧
      ¬ ((ArpCall.holding unalignedMessage).beginWalk 17).WalkSafe (fun _ => none) 17 := by
  constructor
  · refine (walk_safe_iff (fun _ => none) _ 36 (by decide)).mpr ?_
    refine .next (by decide) (by decide) (by decide)
      (fun _ => ⟨by decide, fun _ => ⟨by decide, ?_⟩⟩) (by decide) (.stop (by decide))
    exact .next (by decide) (fun h => absurd h.1 (by decide)) (fun _ => by decide) (by decide)
      (.stop (by decide))
  · intro h
    have hfit := (walk_safe_iff (fun _ => none) _ 17 (by decide)).mp h
    cases hfit with
    | stop hstop => exact absurd hstop (by decide)
    | done _ htype => exact absurd htype (by decide)
    | error _ htype _ => exact absurd htype (by decide)
    | next _ _ _ _ halign _ => exact absurd halign (by decide)

/-- **A walk that leaves its datagram.** The message of 32 bytes ends with an `NDA_DST` that has no
value: the four bytes that the parser copies lie behind the attribute, the message and the
datagram. -/
theorem not_walk_safe :
    ¬ ∀ (ifIndexToName : ℤ → Option String) (c : ArpCall) (len : ℕ), len ≤ rxBufSize →
      (c.beginWalk len).WalkSafe ifIndexToName len := by
  intro h
  have hsafe := (h (fun _ => none) (ArpCall.holding (dstMessage [])) 32 (by decide)).bounded
  obtain ⟨t, hrun, ht⟩ := exists_runs_of_execWhen (M := ArpCall.step fun _ => none)
    ArpCall.Walking (s := (ArpCall.holding (dstMessage [])).beginWalk 32) [.run, .run]
    (fun t => t.reads.any fun r => !decide (r.Inside t.buf 32)) (by decide)
  obtain ⟨r, hr, hout⟩ := List.any_eq_true.mp ht
  have hin := (hsafe t hrun).reads r hr
  simp [hin] at hout

end Netscan
