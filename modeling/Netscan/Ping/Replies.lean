import Netscan.Ping.Delivery

/-! # What the message loop makes of a datagram, and the balance of the replies

The body of the message loop has six exits, and two counters are raised on some of them. `Handles`
lists them for any scanner and any state, with what each one counts. The counters and the results
follow as numbers of datagrams of a run: an echo reply raises `echo_replies_` and either finds its
host or raises `unmatched_replies_`, but a datagram with a header and no whole payload raises
`unmatched_replies_` before anyone has looked at its type. -/

namespace Netscan

open MachineInt LabelledSystem

/-! ### Kinds of datagrams -/

/-- A datagram with an ICMP header that says "echo reply". -/
def Datagram.IsEcho (d : Datagram) : Prop :=
  icmpHdrSize ≤ d.bytes.length ∧ d.icmp.type = icmpEchoReply

/-- A datagram with an ICMP header, but without a whole `PingPayload`. -/
def Datagram.IsTruncated (d : Datagram) : Prop :=
  icmpHdrSize ≤ d.bytes.length ∧ d.bytes.length < icmpHdrSize + pingPayloadSize

/-- An echo reply with a whole `PingPayload`, the only datagrams that `process_received_packet` goes
into. -/
def Datagram.IsEchoReply (d : Datagram) : Prop :=
  icmpHdrSize + pingPayloadSize ≤ d.bytes.length ∧ d.icmp.type = icmpEchoReply

instance (d : Datagram) : Decidable d.IsEcho := inferInstanceAs (Decidable (_ ∧ _))

instance (d : Datagram) : Decidable d.IsTruncated := inferInstanceAs (Decidable (_ ∧ _))

instance (d : Datagram) : Decidable d.IsEchoReply := inferInstanceAs (Decidable (_ ∧ _))

/-- No truncated datagram is an echo reply with a whole payload. -/
theorem Datagram.IsEchoReply.not_isTruncated {d : Datagram} (h : d.IsEchoReply) :
    ¬ d.IsTruncated :=
  fun htrunc => absurd h.1 (Nat.not_le.mpr htrunc.2)

/-- An echo reply that is not truncated has a whole payload, so the two counts differ by the
truncated ones. -/
theorem Datagram.isEcho_iff_of_not_isTruncated {d : Datagram} (h : ¬ d.IsTruncated) :
    d.IsEcho ↔ d.IsEchoReply := by
  unfold IsTruncated at h
  unfold IsEcho IsEchoReply
  constructor
  · rintro ⟨hlen, htype⟩
    exact ⟨by omega, htype⟩
  · rintro ⟨hlen, htype⟩
    exact ⟨by omega, htype⟩

/-! ### Ancillary data -/

/-- The number of drops that a control message reports. -/
def ControlMessage.drops : ControlMessage → ℕ
  | .rxqOvfl drops => drops
  | _ => 0

/-- The largest number of drops that control messages report. -/
def maxDrops (control : List ControlMessage) : ℕ :=
  control.foldr (fun c m => max c.drops m) 0

theorem maxDrops_cons (c : ControlMessage) (control : List ControlMessage) :
    maxDrops (c :: control) = max c.drops (maxDrops control) := rfl

namespace PingScanner

/-- A loop whose turns raise the third variable to the numbers reported. By induction on the control
messages, from any values of the variables. -/
theorem drops_foldl {α β : Type} {turn : α × β × ℕ → ControlMessage → α × β × ℕ}
    (hturn : ∀ acc c, (turn acc c).2.2 = max acc.2.2 c.drops) (control : List ControlMessage) :
    ∀ acc, (control.foldl turn acc).2.2 = max acc.2.2 (maxDrops control) := by
  induction control with
  | nil =>
    intro acc
    exact (Nat.max_zero _).symm
  | cons c control ih =>
    intro acc
    rw [List.foldl_cons, ih, hturn, maxDrops_cons, max_assoc]

/-- `extract_control_data` raises the overflow counter to the largest number reported, in whatever
order the messages stand. -/
theorem overflows_extractControlData (recvNow : Timespec) (control : List ControlMessage)
    (rxQueueOverflows : ℕ) :
    (extractControlData recvNow control rxQueueOverflows).2.2 =
      max rxQueueOverflows (maxDrops control) := by
  unfold extractControlData
  apply drops_foldl
  intro acc c
  cases c with
  | rxqOvfl drops => exact max_comm drops acc.2.2
  | _ => exact (Nat.max_zero acc.2.2).symm

/-! ### The exits of the loop body -/

variable {P : PingScanner} {s s' s₀ : PingState} {k : PingKernel} {w w' : PingWorld}
  {l : PingLabel} {d : Datagram}

/-- A datagram that can be the first reply of a host: an echo reply that names its source, which is
an address of the range. -/
def Recognizes (P : PingScanner) (d : Datagram) : Prop :=
  d.IsEchoReply ∧ d.srcIp = d.payload.targetIp ∧ 0 ≤ P.hostIndexForIp d.srcIp

/-- A datagram from which the round-trip time of a host is computed: the first one that is
recognized from its source. -/
def Discovers (P : PingScanner) (s : PingState) (d : Datagram) : Prop :=
  P.Recognizes d ∧ d.srcIp ∉ s.foundIpsCache

instance (P : PingScanner) (d : Datagram) : Decidable (P.Recognizes d) :=
  inferInstanceAs (Decidable (_ ∧ _ ∧ _))

instance (P : PingScanner) (s : PingState) (d : Datagram) : Decidable (P.Discovers s d) :=
  inferInstanceAs (Decidable (_ ∧ _))

/-- The state in which a datagram with a header is processed: its control messages have been
read. -/
def controlled (d : Datagram) (s : PingState) : PingState :=
  { s with rxQueueOverflows := max s.rxQueueOverflows (maxDrops d.control) }

/-- The exits of the body of the message loop, each with its condition and the state it leaves. -/
inductive Handles (P : PingScanner) (recvNow : Timespec) (dns : Option String) (throws : Bool)
    (d : Datagram) (s : PingState) : PingState × Bool → Prop
  /-- Without a header nothing happens. -/
  | headless (h : d.bytes.length < icmpHdrSize) : Handles P recvNow dns throws d s (s, false)
  /-- Without a whole payload the datagram is counted as unmatched, whatever its type. -/
  | truncated (h : d.IsTruncated) : Handles P recvNow dns throws d s
      ({ controlled d s with unmatchedReplies := u32 (s.unmatchedReplies + 1) }, false)
  /-- A message of another type is not counted. -/
  | other (hlen : icmpHdrSize + pingPayloadSize ≤ d.bytes.length)
      (htype : d.icmp.type ≠ icmpEchoReply) :
      Handles P recvNow dns throws d s (controlled d s, false)
  /-- An echo reply that discovers no host is counted twice. -/
  | unmatched (h : d.IsEchoReply) (hnot : ¬ P.Discovers s d) : Handles P recvNow dns throws d s
      ({ controlled d s with
        echoReplies := u32 (s.echoReplies + 1)
        unmatchedReplies := u32 (s.unmatchedReplies + 1) }, false)
  /-- An echo reply that discovers a host is accepted. -/
  | discovered (h : P.Discovers s d) : Handles P recvNow dns throws d s
      (P.acceptReply (extractControlData recvNow d.control s.rxQueueOverflows).2.1
        (extractControlData recvNow d.control s.rxQueueOverflows).1 dns throws d.payload
        (P.hostIndexForIp d.srcIp).toNat
        { controlled d s with echoReplies := u32 (s.echoReplies + 1) })

/-- **The body of the message loop takes one of these exits**, in any state of any scanner. -/
theorem handles_receiveMessage (P : PingScanner) (recvNow : Timespec) (dns : Option String)
    (throws : Bool) (d : Datagram) (s : PingState) :
    P.Handles recvNow dns throws d s (P.receiveMessage recvNow dns throws d s) := by
  rw [receiveMessage]
  -- the checks in the order of the code; each failing one is an exit of its own
  by_cases hshort : d.bytes.length < icmpHdrSize
  · rw [if_pos hshort]
    exact .headless hshort
  rw [if_neg hshort]
  have hcontrol : { s with rxQueueOverflows :=
      (extractControlData recvNow d.control s.rxQueueOverflows).2.2 } = controlled d s := by
    rw [overflows_extractControlData, controlled]
  dsimp only
  rw [hcontrol, processReceivedPacket]
  by_cases hlen : d.bytes.length < icmpHdrSize + pingPayloadSize
  · rw [if_pos hlen]
    exact .truncated ⟨by omega, hlen⟩
  rw [if_neg hlen]
  by_cases htype : d.icmp.type = icmpEchoReply
  swap
  · rw [if_pos htype]
    exact .other (by omega) htype
  rw [if_neg (not_not.mpr htype)]
  have hecho : d.IsEchoReply := ⟨by omega, htype⟩
  dsimp only
  by_cases hsrc : d.srcIp = d.payload.targetIp
  swap
  · rw [if_pos hsrc]
    exact .unmatched hecho fun h => hsrc h.1.2.1
  rw [if_neg (not_not.mpr hsrc), ← hsrc]
  by_cases hidx : P.hostIndexForIp d.srcIp < 0
  · rw [if_pos hidx]
    exact .unmatched hecho fun h => absurd h.1.2.2 (by omega)
  rw [if_neg hidx]
  by_cases hfound : d.srcIp ∈ s.foundIpsCache
  · rw [if_pos (by simpa [isHostFound, controlled] using hfound)]
    exact .unmatched hecho fun h => h.2 hfound
  · rw [if_neg (by simpa [isHostFound, controlled] using hfound)]
    exact .discovered ⟨⟨hecho, hsrc, by omega⟩, hfound⟩

/-! ### What is counted -/

/-- What the end of `process_received_packet` does to the counters, the cache and the results. -/
theorem acceptReply_counts (P : PingScanner) (recvTs : Timespec) (ttl : ℤ) (dns : Option String)
    (throws : Bool) (payload : PingPayload) (hostIdx : ℕ) (s : PingState) :
    (P.acceptReply recvTs ttl dns throws payload hostIdx s).1.echoReplies = s.echoReplies ∧
      (P.acceptReply recvTs ttl dns throws payload hostIdx s).1.unmatchedReplies =
        s.unmatchedReplies ∧
      (P.acceptReply recvTs ttl dns throws payload hostIdx s).1.foundIpsCache =
        s.foundIpsCache ++ [payload.targetIp] ∧
      ((P.acceptReply recvTs ttl dns throws payload hostIdx s).2 = false →
        (P.acceptReply recvTs ttl dns throws payload hostIdx s).1.scanResults.length =
          s.scanResults.length + 1) := by
  unfold acceptReply
  dsimp only
  split_ifs <;> simp

/-- The counters, after the datagrams `ds` have been handled. -/
structure Counted (ds : List Datagram) (s : PingState) : Prop where
  /-- `echo_replies_` counts the echo replies that have a whole payload. -/
  echo : s.echoReplies = u32 (ds.countP (·.IsEchoReply))
  /-- Each found host has one of them. -/
  found_le : s.foundIpsCache.length ≤ ds.countP (·.IsEchoReply)
  /-- `unmatched_replies_` counts the others of them, and the truncated datagrams. -/
  unmatched : s.unmatchedReplies = u32 (ds.countP (·.IsTruncated) +
    (ds.countP (·.IsEchoReply) - s.foundIpsCache.length))

/-- States with the same counters and as many found hosts have counted the same. -/
theorem Counted.congr {ds : List Datagram} (h : Counted ds s)
    (hecho : s'.echoReplies = s.echoReplies)
    (hunmatched : s'.unmatchedReplies = s.unmatchedReplies)
    (hfound : s'.foundIpsCache = s.foundIpsCache) : Counted ds s' := by
  refine ⟨?_, ?_, ?_⟩
  · rw [hecho]
    exact h.echo
  · rw [hfound]
    exact h.found_le
  · rw [hunmatched, hfound]
    exact h.unmatched

/-- A counter that is raised by one, modulo its width. -/
theorem u32_u32_add_one (n : ℕ) : u32 (u32 n + 1) = u32 (n + 1) := by
  rw [u32, u32, u32, Nat.mod_add_mod]

/-- **One datagram more is counted**, on every exit of the loop body, whether or not the callback
throws. -/
theorem Counted.receiveMessage {ds : List Datagram} (h : Counted ds s) (P : PingScanner)
    (recvNow : Timespec) (dns : Option String) (throws : Bool) (d : Datagram) :
    Counted (ds ++ [d]) (P.receiveMessage recvNow dns throws d s).1 := by
  have hle := h.found_le
  -- the two numbers of datagrams that the counters stand for
  have hcounts : (ds ++ [d]).countP (·.IsEchoReply) =
        ds.countP (·.IsEchoReply) + (if d.IsEchoReply then 1 else 0) ∧
      (ds ++ [d]).countP (·.IsTruncated) =
        ds.countP (·.IsTruncated) + (if d.IsTruncated then 1 else 0) := by
    constructor <;> simp [List.countP_append, List.countP_singleton]
  have hexit := P.handles_receiveMessage recvNow dns throws d s
  generalize P.receiveMessage recvNow dns throws d s = out at hexit
  cases hexit with
  | headless hshort =>
    have hecho : ¬ d.IsEchoReply := by
      rintro ⟨hlen, -⟩
      omega
    have htrunc : ¬ d.IsTruncated := by
      rintro ⟨hlen, -⟩
      omega
    rw [if_neg hecho, if_neg htrunc] at hcounts
    refine ⟨?_, ?_, ?_⟩ <;> rw [hcounts.1]
    · exact h.echo
    · exact hle
    · rw [hcounts.2]
      exact h.unmatched
  | truncated htrunc =>
    have hecho : ¬ d.IsEchoReply := fun hecho => hecho.not_isTruncated htrunc
    rw [if_neg hecho, if_pos htrunc] at hcounts
    refine ⟨?_, ?_, ?_⟩ <;> rw [hcounts.1]
    · exact h.echo
    · exact hle
    · rw [hcounts.2]
      dsimp only
      rw [h.unmatched, u32_u32_add_one, Nat.add_right_comm]
      rfl
  | other hlen htype =>
    have hecho : ¬ d.IsEchoReply := fun hecho => htype hecho.2
    have htrunc : ¬ d.IsTruncated := by
      rintro ⟨-, hlt⟩
      omega
    rw [if_neg hecho, if_neg htrunc] at hcounts
    refine ⟨?_, ?_, ?_⟩ <;> rw [hcounts.1]
    · exact h.echo
    · exact hle
    · rw [hcounts.2]
      exact h.unmatched
  -- both counters go up with the number of echo replies
  | unmatched hecho hnot =>
    rw [if_pos hecho, if_neg hecho.not_isTruncated] at hcounts
    refine ⟨?_, ?_, ?_⟩ <;> rw [hcounts.1] <;> dsimp only [controlled]
    · rw [h.echo, u32_u32_add_one]
    · omega
    · rw [hcounts.2, h.unmatched, u32_u32_add_one]
      congr 1
      omega
  | discovered hdisc =>
    -- one echo reply and one found host more leave the number of unmatched ones as it is
    have hecho := hdisc.1.1
    rw [if_pos hecho, if_neg hecho.not_isTruncated] at hcounts
    obtain ⟨hechos, hunmatched, hfound, -⟩ := P.acceptReply_counts
      (extractControlData recvNow d.control s.rxQueueOverflows).2.1
      (extractControlData recvNow d.control s.rxQueueOverflows).1 dns throws d.payload
      (P.hostIndexForIp d.srcIp).toNat
      { controlled d s with echoReplies := u32 (s.echoReplies + 1) }
    have hlen : (s.foundIpsCache ++ [d.payload.targetIp]).length = s.foundIpsCache.length + 1 :=
      List.length_append
    refine ⟨?_, ?_, ?_⟩ <;> rw [hcounts.1]
    · rw [hechos]
      dsimp only
      rw [h.echo, u32_u32_add_one]
    · rw [hfound]
      dsimp only [controlled]
      omega
    · rw [hcounts.2, hunmatched, hfound]
      dsimp only [controlled]
      rw [h.unmatched, hlen]
      congr 1
      omega

/-- Unless the callback throws, every found host has a result: the cache and the results grow
together. -/
theorem Handles.results {recvNow : Timespec} {dns : Option String} {throws : Bool}
    {out : PingState × Bool} (h : P.Handles recvNow dns throws d s out) (hout : out.2 = false)
    (hs : s.scanResults.length = s.foundIpsCache.length) :
    out.1.scanResults.length = out.1.foundIpsCache.length := by
  cases h with
  | discovered hdisc =>
    obtain ⟨-, -, hfound, hresults⟩ := P.acceptReply_counts
      (extractControlData recvNow d.control s.rxQueueOverflows).2.1
      (extractControlData recvNow d.control s.rxQueueOverflows).1 dns throws d.payload
      (P.hostIndexForIp d.srcIp).toNat
      { controlled d s with echoReplies := u32 (s.echoReplies + 1) }
    rw [hresults hout, hfound, List.length_append]
    exact congrArg (· + 1) hs
  | _ => exact hs

/-! ### Runs -/

/-- The counters of the replies. -/
def replyCounters (s : PingState) : ℕ × ℕ := (s.echoReplies, s.unmatchedReplies)

/-- Only the handling of a datagram counts a reply. The other steps use other counters or none. -/
theorem replyCounters_step (h : PingStep P w l w') (hl : ∀ dns throws, l ≠ .message dns throws) :
    replyCounters w'.st = replyCounters w.st := by
  cases h with
  | populate _ hout =>
    have hpop : replyCounters (P.populateBatchEntries w.kernel.clock w.st).1 =
        replyCounters w.st := by
      -- a turn of the populate loop changes the tables, the batch and the cursor
      refine populateLoop_induction (P := P)
        (motive := fun u _ => replyCounters u = replyCounters w.st) ?_ _ w.st 0 rfl
      intro u n u' n' hu hstep
      rw [← hu]
      unfold populateStep at hstep
      dsimp only at hstep
      split_ifs at hstep <;> · cases hstep; rfl
    rwa [hout] at hpop
  | release _ _ hout =>
    subst hout
    dsimp only
    unfold releaseProbeSlot
    dsimp only
    split_ifs <;> rfl
  | reap _ hout =>
    subst hout
    refine List.foldlRecOn
      (motive := fun u : PingState => replyCounters u = replyCounters w.st) _ _ rfl ?_
    intro u hu i _
    rw [← hu]
    unfold reapSlot
    dsimp only
    split_ifs <;> rfl
  | message => exact absurd rfl (hl _ _)
  | _ => rfl

/-- Only the handling of a datagram records one as handled; the other steps record events of other
kinds. -/
theorem handledDatagrams_step (h : PingStep P w l w')
    (hl : ∀ dns throws, l ≠ .message dns throws) :
    handledDatagrams w'.trace = handledDatagrams w.trace := by
  obtain ⟨u, htrace, hu⟩ := records_step h
  have hnone : ∀ e ∈ u, e.handledDatagram? = none := by
    intro e he
    have hrec := hu e he
    cases e with
    | handled d' =>
      obtain ⟨dns, throws, rfl⟩ := hrec
      exact absurd rfl (hl dns throws)
    | _ => rfl
  rw [htrace, handledDatagrams, List.filterMap_append, List.filterMap_eq_nil_iff.mpr hnone,
    List.append_nil]
  rfl

/-- What the handling of a datagram records as handled. -/
theorem handledDatagrams_messageEvents (P : PingScanner) (d : Datagram) (s s' : PingState) :
    handledDatagrams (P.messageEvents d s s') = [d] := by
  unfold messageEvents
  split <;> rfl

/-- The counters and the results of a run, by the datagrams that it has handled. -/
structure ReplyInv (w : PingWorld) : Prop where
  /-- The counters. -/
  counted : Counted (handledDatagrams w.trace) w.st
  /-- Every found host has a result, unless the callback threw on it. -/
  results : w.pc ≠ .thrown → w.st.scanResults.length = w.st.foundIpsCache.length

/-- Every step keeps the counters and the results: one handles a datagram, and the others count
none. -/
theorem ReplyInv.step (h : ReplyInv w) (hstep : PingStep P w l w') : ReplyInv w' := by
  by_cases hl : ∀ dns throws, l ≠ .message dns throws
  · have hcounters := replyCounters_step hstep hl
    have hreports := reports_step hstep hl
    simp only [replyCounters, Prod.mk.injEq] at hcounters
    simp only [PingState.reports, Prod.mk.injEq] at hreports
    refine ⟨?_, ?_⟩
    · rw [handledDatagrams_step hstep hl]
      exact h.counted.congr hcounters.1 hcounters.2 hreports.1
    · intro hne
      rw [hreports.1, hreports.2.1]
      apply h.results
      intro hthrown
      -- after an exception, only the environment takes steps
      cases hstep <;> simp_all
  · push Not at hl
    obtain ⟨dns, throws, rfl⟩ := hl
    cases hstep with
    | @message d batch full _ _ hpc s threw hout =>
      refine ⟨?_, ?_⟩
      · have hcounted := h.counted.receiveMessage P w.kernel.clock dns throws d
        rw [hout] at hcounted
        rw [handledDatagrams, List.filterMap_append]
        have hevents := P.handledDatagrams_messageEvents d w.st s
        rw [handledDatagrams] at hevents
        rwa [hevents]
      · intro hne
        have hresults := h.results (by rw [hpc]; simp)
        cases threw with
        | true => exact absurd rfl hne
        | false =>
          have hexit := P.handles_receiveMessage w.kernel.clock dns throws d w.st
          rw [hout] at hexit
          exact hexit.results rfl hresults

/-- The counters and the results of every reachable state. -/
theorem replyInv_of_reachable (hw : Reachable P.step (start s₀ k) w) : ReplyInv w := by
  refine hw.invariant (I := ReplyInv) ⟨⟨rfl, le_rfl, rfl⟩, fun _ => rfl⟩ ?_
  intro u l v h _ hstep
  exact h.step (step_cases hstep)

/-! ### The balance -/

/-- The replies of a finished run balance: the datagrams that say "echo reply", the results and the
unmatched ones. -/
structure RepliesBalance (w : PingWorld) : Prop where
  /-- `echo_replies` is the number of hosts plus `unmatched_replies`. -/
  total : w.st.echoReplies = w.st.scanResults.length + w.st.unmatchedReplies
  /-- Every echo reply that was received is the one that discovered its host or is counted as
  unmatched, and nothing else is counted as unmatched. -/
  received : (handledDatagrams w.trace).countP (·.IsEcho) =
    w.st.scanResults.length + w.st.unmatchedReplies

/-- **The replies of a run balance**, exactly when no datagram was received that has an ICMP header
but no whole payload. -/
theorem replies_balance_iff (P : PingScanner) (s₀ : PingState) (k : PingKernel) {w : PingWorld}
    (hw : Reachable P.step (start s₀ k) w) {sendFailed : Bool}
    (hret : w.pc = .returned sendFailed)
    (hfew : (handledDatagrams w.trace).length < 2 ^ 32) :
    RepliesBalance w ↔ ∀ d ∈ handledDatagrams w.trace, ¬ d.IsTruncated := by
  obtain ⟨hcounted, hresults⟩ := replyInv_of_reachable hw
  have hhosts := hresults (by rw [hret]; simp)
  have hle := hcounted.found_le
  -- no counter has wrapped: what is counted are disjoint parts of the datagrams
  have hparts := List.length_eq_countP_add_countP (fun d : Datagram => decide d.IsEchoReply)
    (l := handledDatagrams w.trace)
  have hdisjoint : (handledDatagrams w.trace).countP (·.IsTruncated) ≤
      (handledDatagrams w.trace).countP fun d => ¬ decide d.IsEchoReply = true := by
    apply List.countP_mono_left
    intro d _ htrunc
    have hnot : ¬ d.IsEchoReply := fun hecho => hecho.not_isTruncated (of_decide_eq_true htrunc)
    simpa using hnot
  have hecho := hcounted.echo
  have hunmatched := hcounted.unmatched
  rw [u32_of_lt (by omega)] at hecho hunmatched
  constructor
  · intro h
    have htotal := h.total
    have hzero : (handledDatagrams w.trace).countP (·.IsTruncated) = 0 := by omega
    intro d hd htrunc
    exact List.countP_eq_zero.mp hzero d hd (decide_eq_true htrunc)
  · intro h
    have hzero : (handledDatagrams w.trace).countP (·.IsTruncated) = 0 :=
      List.countP_eq_zero.mpr fun d hd htrunc => h d hd (of_decide_eq_true htrunc)
    have hsame : (handledDatagrams w.trace).countP (·.IsEcho) =
        (handledDatagrams w.trace).countP (·.IsEchoReply) := by
      apply List.countP_congr
      intro d hd
      simpa using Datagram.isEcho_iff_of_not_isTruncated (h d hd)
    exact ⟨by omega, by omega⟩

/-- The only host of a range answers, and the scan returns. -/
theorem replies_balance_iff_pair : ∃ w : PingWorld,
    (handledDatagrams w.trace).length = 1 ∧ RepliesBalance w := by
  obtain ⟨w, hw, hp⟩ := exists_reachable_of_exec
    (M := (construct { baseIp := 1, totalHosts := 1 } none none 0).step)
    (s := start (construct { baseIp := 1, totalHosts := 1 } none none 0).initializeBuffers
      { clock := {}, rxQueue := [], rxEdge := false })
    [.run, .run, .sendmmsg (.sent 1), .run, .arrive (echoReply 1 {}), .epollWait .ready,
      .recvmmsg false, .message none false, .run, .recvmmsg false, .run, .run]
    (fun w => decide (w.pc = .returned false ∧ handledDatagrams w.trace = [echoReply 1 {}]))
    (by decide)
  obtain ⟨hpc, hhandled⟩ := of_decide_eq_true hp
  have hone : (handledDatagrams w.trace).length = 1 := congrArg List.length hhandled
  refine ⟨w, hone, (replies_balance_iff _ _ _ hw hpc ?_).mpr ?_⟩
  · rw [hone]
    decide
  · rw [hhandled]
    decide

/-- A datagram of eight bytes is handled: no echo reply is counted and no host is found, but one
reply is unmatched. -/
theorem not_replies_balance :
    ¬ ∀ (P : PingScanner) (s₀ : PingState) (k : PingKernel) (w : PingWorld),
      Reachable P.step (start s₀ k) w → w.pc = .returned false →
      (handledDatagrams w.trace).length < 2 ^ 32 → RepliesBalance w := by
  intro h
  obtain ⟨w, hw, hp⟩ := exists_reachable_of_exec
    (M := (construct { baseIp := 1, totalHosts := 1 } none none 0).step)
    (s := start (construct { baseIp := 1, totalHosts := 1 } none none 0).initializeBuffers
      { clock := {}, rxQueue := [], rxEdge := false })
    [.run, .run, .sendmmsg (.sent 1), .run, .arrive { srcIp := 1, bytes := List.replicate 8 0 },
      .epollWait .ready, .recvmmsg false, .message none false, .run, .recvmmsg false,
      .tick ⟨10, 0⟩, .run, .run]
    (fun w => decide (w.pc = .returned false ∧ (handledDatagrams w.trace).length = 1 ∧
      w.st.echoReplies = 0 ∧ w.st.unmatchedReplies = 1)) (by decide)
  obtain ⟨hpc, hone, hecho, hunmatched⟩ := of_decide_eq_true hp
  have htotal := (h _ _ _ w hw hpc (by rw [hone]; decide)).total
  omega

end PingScanner

end Netscan
