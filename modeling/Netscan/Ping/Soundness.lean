import Netscan.Ping.Coverage
import Netscan.Ping.Delivery

/-! # The results of a ping run are sound

Replies are matched by an address inside an untrusted payload. What makes a result sound is the
chain of checks behind `Acceptable`: the source address, the embedded address and the range agree,
and the cache turns duplicates away. What a datagram changes is limited to its own source
(`OnlyTouches`). -/

namespace Netscan

open MachineInt SlotTable LabelledSystem History

namespace PingScanner

variable {P : PingScanner} {s s' s₀ : PingState} {k : PingKernel} {w w' : PingWorld} {l : PingLabel}

/-! ### What a datagram may change -/

/-- From `s` to `s'` nothing changes for any host other than `a`: slots that do not hold `a`, map
entries, cache, calls and results. -/
structure OnlyTouches (P : PingScanner) (a : ℕ) (s s' : PingState) : Prop where
  /-- Slots that do not hold `a` are unchanged. -/
  slots : ∀ (i : ℕ) (p : ProbeInfo), s.probeTable[i]? = some p → p.held ≠ some a →
    s'.probeTable[i]? = some p
  /-- Slots are neither added nor claimed. -/
  claims : ∀ (i : ℕ) (p : ProbeInfo), s'.probeTable[i]? = some p → p.active = true →
    s.probeTable[i]? = some p
  /-- Map entries of the other hosts are unchanged. -/
  map : ∀ h, P.baseIp + h ≠ a → s'.hostToProbe[h]? = s.hostToProbe[h]?
  /-- The other hosts are cached as before. -/
  cache : ∀ ip ≠ a, (ip ∈ s'.foundIpsCache ↔ ip ∈ s.foundIpsCache)
  /-- The other hosts are reported as before. -/
  results : ∀ ip ≠ a, s'.scanResults.filter (·.ip = ip) = s.scanResults.filter (·.ip = ip)
  /-- The callback is called as before for the other hosts. -/
  calls : ∀ ip ≠ a, s'.called.filter (·.ip = ip) = s.called.filter (·.ip = ip)

/-- Appending a record of `a` adds nothing for the other hosts, and leaves the order of theirs. -/
private theorem filter_append_of_ne {r : PingHostResult} {a ip : ℕ} (rs : List PingHostResult)
    (hr : r.ip = a) (hne : ip ≠ a) :
    (rs ++ [r]).filter (·.ip = ip) = rs.filter (·.ip = ip) := by
  rw [List.filter_append, List.filter_cons_of_neg (by simpa [hr] using hne.symm), List.filter_nil,
    List.append_nil]

/-- Handling a datagram changes nothing for hosts other than its source: it gives back the slot of
that host, unmaps it and reports it. -/
theorem SlotInv.onlyTouches_receiveMessage (hP : P.Ranged) (h : P.SlotInv s) (recvNow : Timespec)
    (dns : Option String) (throws : Bool) (d : Datagram) :
    P.OnlyTouches d.srcIp s (P.receiveMessage recvNow dns throws d s).1 := by
  have hclaims := (h.releases_receiveMessage hP recvNow dns throws d).kept
  rcases h.receiveMessage_cases hP recvNow dns throws d with
    ⟨-, echo, unmatched, overflows, heq⟩ | ⟨hacc, echo, overflows, recvTs, ttl, heq⟩
  -- a datagram that is not accepted changes counters only
  · rw [heq] at hclaims ⊢
    exact ⟨fun _ _ hi _ => hi, hclaims, fun _ _ => rfl, fun _ _ => .rfl, fun _ _ => rfl,
      fun _ _ => rfl⟩
  -- an accepted one: the slot given back is the one that `host_to_probe_` links to the source
  · have hip : (P.replyResult recvTs ttl dns d.payload).ip = d.srcIp := hacc.1.2.2.1
    rw [heq, report_fst] at hclaims ⊢
    refine ⟨fun i p hi hp => ?_, hclaims, fun j hj => ?_, fun ip hne => ?_, fun ip hne => ?_,
      fun ip hne => ?_⟩
    · simp only [PingScanner.foundState]
      cases hback : backPointers P.baseIp s.hostToProbe d.srcIp with
      | none => exact hi
      | some i' =>
        obtain ⟨q, hq, hheld⟩ := (h.linked _ i').mp hback
        simp only [PingScanner.freeSlot]
        by_cases hii : i' = i
        · subst hii
          exact absurd hheld (Option.some.inj (hi.symm.trans hq) ▸ hp)
        · rwa [List.getElem?_set_ne hii]
    · simp only [PingScanner.foundState]
      cases hback : backPointers P.baseIp s.hostToProbe d.srcIp with
      | none => rfl
      | some i' =>
        obtain ⟨q, hq, hheld⟩ := (h.linked _ i').mp hback
        have hdest := (ProbeInfo.held_eq_some.mp hheld).2
        have hlo := hacc.2.1
        simp only [PingScanner.freeSlot, probeAt, List.getD_eq_getElem?_getD, hq, Option.getD_some,
          hdest]
        exact List.getElem?_set_ne (by omega)
    · show ip ∈ s.foundIpsCache ++ [d.srcIp] ↔ _
      simp [hne]
    · have hresults : (P.foundState d.srcIp { s with
          echoReplies := echo
          rxQueueOverflows := overflows }).scanResults = s.scanResults := by
        simp only [PingScanner.foundState]
        cases backPointers P.baseIp s.hostToProbe d.srcIp <;> rfl
      dsimp only
      rw [hresults]
      split
      · rfl
      · exact filter_append_of_ne _ hip hne
    · have hcalled : (P.foundState d.srcIp { s with
          echoReplies := echo
          rxQueueOverflows := overflows }).called = s.called := by
        simp only [PingScanner.foundState]
        cases backPointers P.baseIp s.hostToProbe d.srcIp <;> rfl
      dsimp only
      rw [hcalled]
      split
      · exact filter_append_of_ne _ hip hne
      · rfl

/-! ### Replies behind the results -/

/-- Every host marked as answered has answered: a reply of it was handled just before. -/
theorem answered_of_reachable (hP : P.Ranged) (hs : P.Sized s₀)
    (hw : Reachable P.step (start s₀ k) w) :
    Always (fun pre e => ∀ ip held, e = .answered ip held →
      ∃ d, .handled d ∈ pre ∧ d.IsReplyOf ip) w.trace := by
  refine hw.invariant_of_runs (I := fun w => Always (fun pre e => ∀ ip held,
    e = .answered ip held → ∃ d, .handled d ∈ pre ∧ d.IsReplyOf ip) w.trace) always_nil ?_
  intro u l v hreach h _ hstep
  by_cases hl : ∀ dns throws, l ≠ .message dns throws
  · -- only the message loop records answers
    refine always_step (step_cases hstep) h ?_
    rintro pre e he ip held rfl
    obtain ⟨dns, throws, rfl⟩ := he
    exact absurd rfl (hl dns throws)
  · push Not at hl
    obtain ⟨dns, throws, rfl⟩ := hl
    cases step_cases hstep with
    | @message d _ _ _ _ _ _ _ hout =>
      have hslot := slotInv_of_reachable hP hs hreach
      rcases hslot.messageEvents_cases hP hout with ⟨-, -, -, hev⟩ | ⟨hacc, -, hev⟩ <;> rw [hev]
      · exact h.append_of_forall (by simp)
      · rw [List.append_cons]
        refine always_append.mpr ⟨h.append_of_forall (by simp), always_singleton.mpr ?_⟩
        rintro ip held heq
        cases heq
        exact ⟨d, by simp, hacc.1⟩

/-! ### Honest replies -/

/-- The datagram carries the payload of a request that was accepted before, so it answers one of
this run. -/
def EchoesRequest (t : List PingEvent) (d : Datagram) : Prop :=
  ∃ ip sendTime began, .accepted ip sendTime began ∈ t ∧
    d.payload = { targetIp := ip, sendSec := sendTime.tvSec, sendNsec := sendTime.tvNsec }

/-- Every echo reply that enters the receive queue carries the payload of an accepted request. -/
def HonestReplies (w : PingWorld) (l : PingLabel) : Prop :=
  ∀ d, l = .arrive d → icmpHdrSize + pingPayloadSize ≤ d.bytes.length →
    d.icmp.type = icmpEchoReply → EchoesRequest w.trace d

/-- Whether an event is the acceptance of the request that the datagram echoes. -/
def echoes (d : Datagram) : PingEvent → Bool
  | .accepted ip sendTime _ =>
    d.payload == { targetIp := ip, sendSec := sendTime.tvSec, sendNsec := sendTime.tvNsec }
  | _ => false

/-- The search in the trace finds such a request exactly if there is one. -/
theorem any_echoes {t : List PingEvent} {d : Datagram} :
    t.any (echoes d) = true ↔ EchoesRequest t d := by
  rw [List.any_eq_true]
  constructor
  · rintro ⟨e, he, hd⟩
    cases e <;> simp only [echoes, Bool.false_eq_true, beq_iff_eq] at hd
    exact ⟨_, _, _, he, hd⟩
  · rintro ⟨ip, sendTime, began, he, hd⟩
    exact ⟨_, he, by simp [echoes, hd]⟩

instance (t : List PingEvent) (d : Datagram) : Decidable (EchoesRequest t d) :=
  decidable_of_iff _ any_echoes

instance (w : PingWorld) : (l : PingLabel) → Decidable (HonestReplies w l)
  | .arrive d => decidable_of_iff (icmpHdrSize + pingPayloadSize ≤ d.bytes.length →
      d.icmp.type = icmpEchoReply → EchoesRequest w.trace d)
      ⟨fun h _ hd => by cases hd; exact h, fun h => h d rfl⟩
  | .tick _ | .run | .sendmmsg _ | .wait _ _ _ | .epollWait _ | .recvmmsg _ | .message _ _ =>
    isTrue fun _ h => nomatch h

/-- In a run with honest replies, every reply in the trace comes after the request it echoes. -/
theorem echoes_of_runs (hw : Runs P.step HonestReplies (start s₀ k) w) :
    Always (fun pre e => ∀ d time, e = .arrived d time →
      icmpHdrSize + pingPayloadSize ≤ d.bytes.length → d.icmp.type = icmpEchoReply →
      EchoesRequest pre d) w.trace := by
  refine hw.invariant (I := fun w => Always (fun pre e => ∀ d time, e = .arrived d time →
      icmpHdrSize + pingPayloadSize ≤ d.bytes.length → d.icmp.type = icmpEchoReply →
      EchoesRequest pre d) w.trace) always_nil ?_
  intro u l v h hok hstep
  by_cases hl : ∀ d, l ≠ .arrive d
  · -- only an arrival records an arrival
    refine always_step (step_cases hstep) h ?_
    rintro pre e he d time rfl
    exact absurd he.1 (hl d)
  · push Not at hl
    obtain ⟨d, rfl⟩ := hl
    cases step_cases hstep
    refine always_append.mpr ⟨h, always_singleton.mpr ?_⟩
    rintro d' time heq hlen htype
    cases heq
    rw [List.append_nil]
    exact hok d rfl hlen htype

/-! ### Soundness -/

/-- What the returned hosts owe to the datagrams received and to the callback. -/
structure Sound (P : PingScanner) (w : PingWorld) : Prop where
  /-- No address is returned twice. -/
  unique : (w.st.scanResults.map (·.ip)).Nodup
  /-- The addresses returned are in the range. -/
  inRange : ∀ r ∈ w.st.scanResults, P.baseIp ≤ r.ip ∧ r.ip < P.baseIp + P.totalHosts
  /-- Each of them is the source of a received reply that embeds it. -/
  replied : ∀ r ∈ w.st.scanResults, ∃ d, .handled d ∈ w.trace ∧ d.IsReplyOf r.ip
  /-- A callback that is set was called with the returned records, in order. -/
  called : w.st.called = if P.resultCallback then w.st.scanResults else []

/-- The returned hosts are sound: each clause is a part of an invariant, read at the return. -/
theorem sound_of_returned (hP : P.Ranged) (hs : P.Sized s₀) (hw : Reachable P.step (start s₀ k) w)
    {failed : Bool} (hret : w.pc = .returned failed) : P.Sound w := by
  have hslot := slotInv_of_reachable hP hs hw
  have hrep := reportInv_of_reachable hP hs hw
  have hne : w.pc ≠ .thrown := by simp [hret]
  have hcached := hrep.cached hne
  have hmem : ∀ r ∈ w.st.scanResults, r.ip ∈ w.st.foundIpsCache := fun r hr =>
    hcached ▸ List.mem_map_of_mem hr
  refine ⟨hcached ▸ hslot.foundNodup, fun r hr => hslot.foundRange _ (hmem r hr), fun r hr => ?_,
    hrep.called hne⟩
  have hans := hmem r hr
  rw [(answerInv_of_reachable hP hs hw).found, mem_answeredIps] at hans
  obtain ⟨held, hans⟩ := hans
  obtain ⟨pre, hpre, hq⟩ := (answered_of_reachable hP hs hw).exists_pre hans
  obtain ⟨d, hd, hreply⟩ := hq _ _ rfl
  exact ⟨d, hpre _ hd, hreply⟩

/-- With honest replies, a reply behind a result arrived after the request to its host had been
accepted, and that host is no address of the local subnet itself. -/
theorem requested_of_reply (hP : P.Ranged) (hs : P.Sized s₀) (hk : k.rxQueue = [])
    (hw : Runs P.step HonestReplies (start s₀ k) w) {d : Datagram} {ip : ℕ}
    (hd : .handled d ∈ w.trace) (hreply : d.IsReplyOf ip) :
    (∃ pre d' time post, w.trace = pre ++ .arrived d' time :: post ∧ d'.IsReplyOf ip ∧
      ip ∈ acceptedIps pre) ∧ P.skipsLocal ip = false := by
  have hreach := hw.reachable
  -- the datagram handled is one that arrived
  obtain ⟨taken, hdel⟩ := delivered_of_reachable hP hs hreach
  have htaken := hdel.handled.subset (List.mem_filterMap.mpr ⟨_, hd, rfl⟩)
  obtain ⟨d', hd', rfl⟩ := List.mem_map.mp htaken
  have hqueue := hdel.queue
  rw [hk, List.nil_append] at hqueue
  replace hd' : d' ∈ arrivedDatagrams w.trace := by
    rw [hqueue]
    exact List.mem_append_left _ hd'
  rw [Datagram.received_isReplyOf] at hreply
  obtain ⟨e, he, hev⟩ := List.mem_filterMap.mp hd'
  cases e <;> simp only [PingEvent.arrivedDatagram?, Option.some.injEq, reduceCtorEq] at hev
  rename_i time
  subst hev
  -- so it echoes a request that was accepted before
  obtain ⟨pre, post, ht⟩ := List.append_of_mem he
  obtain ⟨ip', sendTime, began, hacc, hpayload⟩ :=
    echoes_of_runs hw pre _ post ht _ _ rfl hreply.1 hreply.2.1
  obtain rfl : ip = ip' := by
    have htarget := hreply.2.2.1
    rw [hpayload] at htarget
    exact htarget.symm
  have hpre : ip ∈ acceptedIps pre := mem_acceptedIps.mpr ⟨_, _, hacc⟩
  refine ⟨⟨pre, _, _, post, ht, hreply, hpre⟩, ?_⟩
  have hall : ip ∈ acceptedIps w.trace := by
    rw [ht, acceptedIps, List.filterMap_append]
    exact List.mem_append_left _ hpre
  exact ((coverInv_of_reachable hP hs hreach).range_of_accepted hall).2.2

/-- **Results are sound and unique.** On a scanner for a parsed range, whatever datagrams arrive:
the returned hosts are sound, no datagram changes anything for hosts other than its source, and if
every reply that reaches a fresh socket carries the payload of an accepted request, each returned
host had its request accepted before a reply of it arrived and is not the network or broadcast
address of the selected interface. -/
theorem results_sound {input : CString} {config : PingScannerConfig}
    (hparse : parseCidr input = some (config.baseIp, config.totalHosts)) (routedIp : Option ℕ)
    (ifaddrs : Option (List IfAddrs)) (pid : ℕ) {s₀ : PingState}
    (hs : (construct config routedIp ifaddrs pid).Sized s₀) (k : PingKernel) {w : PingWorld}
    (hw : Reachable (construct config routedIp ifaddrs pid).step (start s₀ k) w) :
    (∀ failed, w.pc = .returned failed → (construct config routedIp ifaddrs pid).Sound w) ∧
    (∀ d batch full dns throws w', w.pc = .handle (d :: batch) full →
      (construct config routedIp ifaddrs pid).step w (.message dns throws) = some w' →
      (construct config routedIp ifaddrs pid).OnlyTouches d.srcIp w.st w'.st) ∧
    (∀ failed, w.pc = .returned failed → k.rxQueue = [] →
      Runs (construct config routedIp ifaddrs pid).step HonestReplies (start s₀ k) w →
      ∀ r ∈ w.st.scanResults,
        (∃ pre d time post, w.trace = pre ++ .arrived d time :: post ∧ d.IsReplyOf r.ip ∧
          r.ip ∈ acceptedIps pre) ∧
        ¬ IsSubnetAddress routedIp ifaddrs r.ip) := by
  have hP := ranged_construct hparse routedIp ifaddrs pid
  refine ⟨fun failed hret => sound_of_returned hP hs hw hret, ?_, ?_⟩
  -- the step is the body of the message loop, whatever the callback does
  · intro d batch full dns throws w' hpc hstep
    have hslot := slotInv_of_reachable hP hs hw
    cases step_cases hstep with
    | message hpc' hout =>
      obtain ⟨⟨rfl, rfl⟩, rfl⟩ : (d = _ ∧ batch = _) ∧ full = _ := by
        simpa [hpc] using hpc'
      have htouch := hslot.onlyTouches_receiveMessage hP w.kernel.clock dns throws d
      rwa [hout] at htouch
  -- an honest reply echoes a request, and only hosts that are not skipped are sent one
  · intro failed hret hk hruns r hr
    have hsound := sound_of_returned hP hs hw hret
    obtain ⟨d, hd, hreply⟩ := hsound.replied r hr
    obtain ⟨hreq, hlocal⟩ := requested_of_reply hP hs hk hruns hd hreply
    refine ⟨hreq, fun hsub => ?_⟩
    obtain ⟨hlo, hhi⟩ := hsound.inRange r hr
    simp only [construct] at hlo hhi
    obtain ⟨h, hlt, hip⟩ : ∃ h < config.totalHosts, r.ip = config.baseIp + h :=
      ⟨r.ip - config.baseIp, by omega, by omega⟩
    rw [hip] at hsub hlocal
    have hskip := (skipsLocal_construct hP hlt).mpr hsub
    exact absurd (hskip.symm.trans hlocal) (by decide)

/-- `10.0.0.8/31` with an honest network: one host answers twice, the other does not. -/
theorem results_sound_pair : ∃ w : PingWorld, w.pc = .returned false ∧
    w.st.scanResults.map (·.ip) = [167772169] ∧
    (construct { baseIp := 167772168, totalHosts := 2, resultCallback := true }
      none none 7).Sound w ∧
    ∀ r ∈ w.st.scanResults, ∃ pre d time post,
      w.trace = pre ++ .arrived d time :: post ∧ d.IsReplyOf r.ip ∧ r.ip ∈ acceptedIps pre := by
  obtain ⟨w, hw, hp⟩ := exists_runs_of_execWhen (M := (construct
      { baseIp := 167772168, totalHosts := 2, resultCallback := true } none none 7).step)
    (s := start (construct { baseIp := 167772168, totalHosts := 2, resultCallback := true }
      none none 7).initializeBuffers { clock := {}, rxQueue := [], rxEdge := false })
    HonestReplies
    [.run, .run, .sendmmsg (.sent 2), .run, .arrive (echoReply 167772169 {}),
      .arrive (echoReply 167772169 {}), .epollWait .ready, .recvmmsg false,
      .message none false, .message none false, .run, .recvmmsg false, .run, .run, .run,
      .epollWait .timeout, .tick { tvSec := 1 }, .run, .run]
    (fun w => w.pc == .returned false && w.st.scanResults.map (·.ip) == [167772169])
    (by decide)
  simp only [Bool.and_eq_true, beq_iff_eq] at hp
  have hparse : parseCidr [49, 48, 46, 48, 46, 48, 46, 56, 47, 51, 49] = some (167772168, 2) := by
    decide
  obtain ⟨hsound, -, hhonest⟩ :=
    results_sound hparse none none 7 (sized_initializeBuffers _) _ hw.reachable
  exact ⟨w, hp.1, hp.2, hsound _ hp.1, fun r hr => (hhonest _ hp.1 rfl hw r hr).1⟩

end PingScanner

end Netscan
