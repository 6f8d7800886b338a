import Netscan.Lib.ClosedLoop
import Netscan.Ping.Completeness
import Netscan.Ping.Replies
import Netscan.Ping.Wakeup
import Netscan.Ping.Wire

/-! # A ping scan of a network of hosts

The scanner in a loop with the hosts that it pings. The requests are the bytes that `sendmmsg` takes
out of the send buffers, the hosts that are alive answer as echo responders do, and the network
loses, repeats, delays and reorders both. Whatever it does, a run without a send failure finds live
hosts only, misses none whose messages have all been carried, and counts as unmatched no more
replies than the network has made copies. -/

namespace Netscan

open MachineInt LabelledSystem

/-- What the answer of an echo responder leaves open: the checksum, the identifier, and the
ancillary data with which the reply is received. -/
structure EchoAnswer where
  /-- The checksum. -/
  checksum : UInt8 × UInt8
  /-- The identifier. -/
  id : UInt8 × UInt8
  /-- The ancillary data. -/
  control : List ControlMessage := []
  deriving DecidableEq, Repr

/-- The hosts of a network: those that are alive repeat what an echo request has brought. -/
def echoHosts (alive : ℕ → Bool) : Responder (ℕ × List UInt8) EchoAnswer Datagram ℕ where
  respond m a := if alive m.1 then some ⟨m.1, asEchoReply a.checksum a.id m.2, a.control⟩ else none
  dest m := m.1
  source d := d.srcIp
  source_respond := by
    intro m a d h
    split at h
    · cases h
      rfl
    · cases h

/-- The reply of a host: it is alive, and it repeats the message it got. -/
theorem respond_eq_some {alive : ℕ → Bool} {m : ℕ × List UInt8} {a : EchoAnswer} {d : Datagram}
    (h : (echoHosts alive).respond m a = some d) :
    alive m.1 = true ∧ d = ⟨m.1, asEchoReply a.checksum a.id m.2, a.control⟩ := by
  simp only [echoHosts] at h
  split at h
  · rename_i halive
    exact ⟨halive, (Option.some.inj h).symm⟩
  · cases h

namespace PingScanner

/-- The scanner as a component: it emits what the kernel takes from `sendmmsg`, and what enters its
receive queue is read from the network. -/
def component (P : PingScanner) : Component PingWorld PingLabel (ℕ × List UInt8) Datagram where
  step := P.step
  emits := P.wired
  read d := .arrive d
  reads
    | .arrive d => some d
    | _ => none
  reads_read _ := rfl

/-- The scanner and the network: a loop of the two with everything that is on the way. -/
abbrev Network := Loop PingWorld (ℕ × List UInt8) Datagram ℕ

/-- The hosts with a message that was lost, that is under way, or that is not read. -/
def Network.outstanding (v : Network) : List ℕ :=
  v.requests.map Prod.fst ++ v.replies.map Datagram.srcIp ++
    v.self.kernel.rxQueue.map Datagram.srcIp ++ v.lost

variable {P : PingScanner} {s₀ : PingState} {k : PingKernel} {w : PingWorld} {v : Network}
  {alive : ℕ → Bool} {ds : List Datagram} {ip : ℕ}

/-! ### What is carried -/

/-- What a request brings to a live host comes back as a reply of that host. -/
theorem isReplyOf_of_respond {j : ℕ} {r : ℕ × Timespec} {a : EchoAnswer} {d : Datagram}
    (hip : r.1 < 2 ^ 32) (h : (echoHosts alive).respond (P.requestMessage j r) a = some d) :
    d.IsReplyOf r.1 ∧ alive r.1 = true := by
  obtain ⟨halive, rfl⟩ := respond_eq_some h
  have hlen : (P.requestBytes r.1 (seqAt j) r.2).length = P.packetLength := length_requestBytes ..
  refine ⟨⟨?_, type_asEchoReply ?_, ?_, rfl⟩, halive⟩
  · simp only [requestMessage, length_asEchoReply, hlen, packetLength]
    omega
  · simp only [requestMessage, hlen, packetLength, icmpHdrSize]
    omega
  · simp only [Datagram.payload, requestMessage, field_asEchoReply]
    exact targetIp_requestBytes hip _ _

/-- What the trace records as arrived is what was read, in the same order. -/
theorem arrivedDatagrams_of_history
    (hw : Reachable (withHistory P.step fun _ l => (P.component.reads l).toList)
      (start s₀ k, []) (w, ds)) : arrivedDatagrams w.trace = ds := by
  refine hw.invariant (I := fun v => arrivedDatagrams v.1.trace = v.2) rfl ?_
  rintro ⟨u, us⟩ l ⟨w, ws⟩ h - hstep
  obtain ⟨hstep, rfl⟩ := withHistory_eq_some.mp hstep
  by_cases hl : ∀ d, l ≠ .arrive d
  · have hnone : P.component.reads l = none := by
      cases l with
      | arrive d => exact absurd rfl (hl d)
      | _ => rfl
    dsimp only
    rw [arrivedDatagrams_step (step_cases hstep) hl, hnone, Option.toList_none, List.append_nil]
    exact h
  · push Not at hl
    obtain ⟨d, rfl⟩ := hl
    cases step_cases hstep with
    | arrive =>
      dsimp only at h ⊢
      rw [← h]
      simp [arrivedDatagrams, PingEvent.arrivedDatagram?, component]

/-- Each request was sent to the address recorded for it, in the same order. -/
theorem WireInv.map_fst_sent {ms : List (ℕ × List UInt8)} (h : P.WireInv w ms) :
    ms.map Prod.fst = acceptedIps w.trace := by
  rw [h.sent, ← map_fst_requests]
  refine List.ext_getElem? fun i => ?_
  rw [List.getElem?_map, List.getElem?_mapIdx, List.getElem?_map, Option.map_map]
  rfl

/-- What holds of the scanner and of the messages in every state of the loop. -/
structure Carried (P : PingScanner) (alive : ℕ → Bool) (s₀ : PingState) (k : PingKernel)
    (v : Network) : Prop where
  /-- The scanner does what it can do alone. -/
  reachable : Reachable P.step (start s₀ k) v.self
  /-- The requests are those accepted. -/
  sent : v.sent.map Prod.fst = acceptedIps v.self.trace
  /-- The datagrams that arrived are the replies read. -/
  arrived : arrivedDatagrams v.self.trace = v.delivered
  /-- Every one of them answers one of the requests. -/
  answers : ∀ d ∈ v.delivered, ∃ j r, (requests v.self.trace)[j]? = some r ∧
    ∃ a, (echoHosts alive).respond (P.requestMessage j r) a = some d
  /-- Messages are accounted for. -/
  balanced : Balanced (echoHosts alive) v

/-- That is so in every reachable state, as the scanner's part of the loop is a run of its own. -/
theorem carried_of_reachable (hP : P.Ranged) (hs : P.Sized s₀) (hfit : P.BuffersFit s₀)
    (hv : Reachable (loop P.component (echoHosts alive)) (.begin (start s₀ k)) v) :
    P.Carried alive s₀ k v := by
  obtain ⟨hsent, hdelivered⟩ := hv.self_history
  obtain ⟨htraced, hbalanced⟩ := hv.traced_and_balanced
  have hreach : Reachable P.step (start s₀ k) v.self := hsent.forget_history
  have hwire := wireInv_of_reachable hP hs hfit hsent
  refine ⟨hreach, hwire.map_fst_sent, arrivedDatagrams_of_history hdelivered, fun d hd => ?_,
    hbalanced⟩
  obtain ⟨m, hm, a, hrespond⟩ := htraced.delivered d hd
  rw [hwire.sent, List.mem_mapIdx] at hm
  obtain ⟨j, hj, rfl⟩ := hm
  exact ⟨j, _, List.getElem?_eq_getElem hj, a, hrespond⟩

/-- A request of the trace goes to an address, so its four bytes hold it. -/
theorem Carried.request_lt (h : P.Carried alive s₀ k v) (hP : P.Ranged) (hs : P.Sized s₀) {j : ℕ}
    {r : ℕ × Timespec} (hr : (requests v.self.trace)[j]? = some r) :
    r.1 ∈ acceptedIps v.self.trace ∧ r.1 < 2 ^ 32 := by
  have haccepted : r.1 ∈ acceptedIps v.self.trace := by
    rw [← map_fst_requests]
    exact List.mem_map_of_mem (List.mem_of_getElem? hr)
  obtain ⟨-, hhi, -⟩ := (coverInv_of_reachable hP hs h.reachable).range_of_accepted haccepted
  exact ⟨haccepted, lt_of_lt_of_le hhi hP.fits⟩

/-- Every reply that was read is one of a live host that was sent to. -/
theorem Carried.reply (h : P.Carried alive s₀ k v) (hP : P.Ranged) (hs : P.Sized s₀) {d : Datagram}
    (hd : d ∈ v.delivered) : d.IsReplyOf d.srcIp ∧ alive d.srcIp = true ∧
      d.srcIp ∈ acceptedIps v.self.trace := by
  obtain ⟨j, r, hr, a, hrespond⟩ := h.answers d hd
  obtain ⟨haccepted, hlt⟩ := h.request_lt hP hs hr
  obtain ⟨hreply, halive⟩ := isReplyOf_of_respond hlt hrespond
  have hsrc : d.srcIp = r.1 := hreply.2.2.2
  rw [hsrc]
  exact ⟨hreply, halive, haccepted⟩

/-! ### What is made of it -/

/-- When `run()` returns, the first replies that were read are handled and the others wait in the
queue. -/
theorem Carried.read_of_returned (h : P.Carried alive s₀ k v) (hP : P.Ranged) (hs : P.Sized s₀)
    (hk : k.rxQueue = []) {failed : Bool} (hret : v.self.pc = .returned failed) :
    ∃ taken, taken ++ v.self.kernel.rxQueue = v.delivered ∧
      handledDatagrams v.self.trace = taken.map Datagram.received := by
  obtain ⟨taken, hdelivered⟩ := delivered_of_reachable hP hs h.reachable
  have hqueue := hdelivered.queue
  have hloop := hdelivered.loop (by simp [hret])
  rw [hk, List.nil_append, h.arrived] at hqueue
  rw [hret] at hloop
  simp only [PingPc.unhandled, List.append_nil] at hloop
  exact ⟨taken, hqueue.symm, hloop⟩

section Returned

variable {taken : List Datagram} (h : P.Carried alive s₀ k v) (hP : P.Ranged) (hs : P.Sized s₀)
  (hread : taken ++ v.self.kernel.rxQueue = v.delivered)
  (hhandled : handledDatagrams v.self.trace = taken.map Datagram.received)

include h hP hs hread in
/-- A reply that was taken from the queue is one of a live host to a request that was accepted. -/
theorem Carried.reply_of_taken {d : Datagram} (hd : d ∈ taken) : d.IsReplyOf d.srcIp ∧
    alive d.srcIp = true ∧ d.srcIp ∈ acceptedIps v.self.trace := by
  refine h.reply hP hs ?_
  rw [← hread]
  exact List.mem_append_left _ hd

include h hP hs hread hhandled in
/-- The sources of the replies that were handled are the hosts found. -/
theorem Carried.mem_found_iff :
    ip ∈ v.self.st.foundIpsCache ↔ ip ∈ taken.map Datagram.srcIp := by
  have hcover := coverInv_of_reachable hP hs h.reachable
  constructor
  -- a found host answered, and its answer is the handling of a reply
  · intro hfound
    rw [(answerInv_of_reachable hP hs h.reachable).found, mem_answeredIps] at hfound
    obtain ⟨held, hanswered⟩ := hfound
    obtain ⟨pre, hpre, hreply⟩ := (answered_of_reachable hP hs h.reachable).exists_pre hanswered
    obtain ⟨d, hd, hip⟩ := hreply _ _ rfl
    have hmem : d ∈ handledDatagrams v.self.trace := List.mem_filterMap.mpr ⟨_, hpre _ hd, rfl⟩
    rw [hhandled] at hmem
    obtain ⟨d', hd', rfl⟩ := List.mem_map.mp hmem
    exact List.mem_map.mpr ⟨d', hd', hip.2.2.2⟩
  -- a reply that was taken was handled, and its source is found by then
  · intro htaken
    obtain ⟨d, hd, rfl⟩ := List.mem_map.mp htaken
    obtain ⟨hreply, -, haccepted⟩ := h.reply_of_taken hP hs hread hd
    obtain ⟨hlo, hhi, -⟩ := hcover.range_of_accepted haccepted
    have hmem : d.received ∈ handledDatagrams v.self.trace := by
      rw [hhandled]
      exact List.mem_map_of_mem hd
    obtain ⟨e, he, hev⟩ := List.mem_filterMap.mp hmem
    cases e <;> simp only [PingEvent.handledDatagram?, Option.some.injEq, reduceCtorEq] at hev
    subst hev
    exact found_of_handled hP hs h.reachable he (Datagram.received_isReplyOf.mpr hreply) hlo hhi

include h hP hs hread hhandled in
/-- A host that was sent to and is not found is one of those outstanding. -/
theorem Carried.mem_outstanding (haccepted : ip ∈ acceptedIps v.self.trace)
    (hnot : ip ∉ v.self.st.foundIpsCache) :
    ip ∈ v.outstanding := by
  rw [h.mem_found_iff hP hs hread hhandled] at hnot
  have hsent : ip ∈ v.sent.map Prod.fst ++ v.repeated := by
    rw [h.sent]
    exact List.mem_append_left _ haccepted
  have hkept := h.balanced.subset hsent
  rw [← hread, List.map_append] at hkept
  simp only [Network.outstanding, List.mem_append, echoHosts] at hkept ⊢
  tauto

include h hP hs hread hhandled in
/-- The counters, when every host found has a result: what was counted as unmatched are replies in
excess, of which there are no more than copies. -/
theorem Carried.counts (hne : v.self.pc ≠ .thrown) : ∃ excess ≤ v.repeated.length,
    v.self.st.unmatchedReplies = u32 excess ∧
      v.self.st.echoReplies = u32 (v.self.st.scanResults.length + excess) := by
  obtain ⟨hcounted, hresults⟩ := replyInv_of_reachable h.reachable
  have hslot := slotInv_of_reachable hP hs h.reachable
  have hlength := hresults hne
  -- all that was handled are echo replies with a whole payload
  have hecho : ∀ d ∈ handledDatagrams v.self.trace, d.IsEchoReply := by
    intro d hd
    rw [hhandled] at hd
    obtain ⟨d', hd', rfl⟩ := List.mem_map.mp hd
    have hreply := Datagram.received_isReplyOf.mpr (h.reply_of_taken hP hs hread hd').1
    exact ⟨hreply.1, hreply.2.1⟩
  have hall : (handledDatagrams v.self.trace).countP (·.IsEchoReply) = taken.length := by
    rw [List.countP_eq_length.mpr fun d hd => decide_eq_true (hecho d hd), hhandled,
      List.length_map]
  have hwhole : (handledDatagrams v.self.trace).countP (·.IsTruncated) = 0 :=
    List.countP_eq_zero.mpr fun d hd htrunc =>
      (hecho d hd).not_isTruncated (of_decide_eq_true htrunc)
  -- each host was sent to once, so the replies beyond its first one are copies
  have hsent : (v.sent.map Prod.fst).Nodup := by
    rw [h.sent]
    exact (coverInv_of_reachable hP hs h.reachable).pairwise_acceptedIps.imp fun hlt => hlt.ne
  have hpart : (taken.map Datagram.srcIp).Subperm (v.delivered.map Datagram.srcIp) := by
    rw [← hread, List.map_append]
    exact (List.sublist_append_left _ _).subperm
  have hexcess := h.balanced.length_le hsent hpart
  have hfirst : (taken.map Datagram.srcIp).dedup.length = v.self.st.foundIpsCache.length := by
    refine List.Perm.length_eq ((List.perm_ext_iff_of_nodup (List.nodup_dedup _)
      hslot.foundNodup).mpr fun ip => ?_)
    rw [List.mem_dedup, h.mem_found_iff hP hs hread hhandled]
  rw [List.length_map, hfirst] at hexcess
  have hle := hcounted.found_le
  have hunmatched := hcounted.unmatched
  have hechoes := hcounted.echo
  rw [hall] at hle hunmatched hechoes
  rw [hwhole, Nat.zero_add] at hunmatched
  refine ⟨taken.length - v.self.st.foundIpsCache.length, by omega, hunmatched, ?_⟩
  rw [hechoes, hlength]
  congr 1
  omega

end Returned

/-- A host that a scan is to probe: in the range, and no address of the local subnet itself. -/
def IsTarget (config : PingScannerConfig) (routedIp : Option ℕ) (ifaddrs : Option (List IfAddrs))
    (ip : ℕ) : Prop :=
  ∃ h < config.totalHosts, ip = config.baseIp + h ∧ ¬ IsSubnetAddress routedIp ifaddrs ip

/-- What a scan has made of a network in which the hosts of `alive` answer. -/
structure FindsAlive (config : PingScannerConfig) (routedIp : Option ℕ)
    (ifaddrs : Option (List IfAddrs)) (alive : ℕ → Bool) (v : Network) : Prop where
  /-- No host is returned twice. -/
  unique : (v.self.st.scanResults.map (·.ip)).Nodup
  /-- Every host returned is a target, and alive. -/
  sound : ∀ ip ∈ v.self.st.scanResults.map (·.ip), IsTarget config routedIp ifaddrs ip ∧
    alive ip = true
  /-- Without a send failure, every target is returned or has a message outstanding. -/
  complete : v.self.pc = .returned false → ∀ ip, IsTarget config routedIp ifaddrs ip →
    ip ∈ v.self.st.scanResults.map (·.ip) ∨ ip ∈ v.outstanding
  /-- So if the messages of the live hosts have all been carried and read, the hosts returned are
  the targets that are alive. -/
  exact : v.self.pc = .returned false → (∀ ip, alive ip = true → ip ∉ v.outstanding) →
    ∀ ip, ip ∈ v.self.st.scanResults.map (·.ip) ↔
      IsTarget config routedIp ifaddrs ip ∧ alive ip = true
  /-- The counters: what is unmatched are copies. -/
  counts : ∃ excess ≤ v.repeated.length, v.self.st.unmatchedReplies = u32 excess ∧
    v.self.st.echoReplies = u32 (v.self.st.scanResults.length + excess)

/-- **A ping scan finds the hosts that are alive**, on a fresh socket and while the packets of a
batch fit the send buffer, whatever the network does to the messages and however they interleave
with the scan. -/
theorem finds_alive {input : CString} {config : PingScannerConfig}
    (hparse : parseCidr input = some (config.baseIp, config.totalHosts)) (routedIp : Option ℕ)
    (ifaddrs : Option (List IfAddrs)) (pid : ℕ)
    (hfits : (icmpHdrSize + pingPayloadSize + config.payloadLen) *
      max 1 (safeBatchSize config.sendBatchSize config.totalHosts) < 2 ^ 64)
    (alive : ℕ → Bool) (hk : k.rxQueue = [])
    (hv : Reachable (loop (construct config routedIp ifaddrs pid).component (echoHosts alive))
      (.begin (start (construct config routedIp ifaddrs pid).initializeBuffers k)) v)
    {failed : Bool} (hret : v.self.pc = .returned failed) :
    FindsAlive config routedIp ifaddrs alive v := by
  have hP := ranged_construct hparse routedIp ifaddrs pid
  have hs := sized_initializeBuffers (construct config routedIp ifaddrs pid)
  have h := carried_of_reachable hP hs (buffersFit_initializeBuffers rfl hfits) hv
  have hslot := slotInv_of_reachable hP hs h.reachable
  have hcover := coverInv_of_reachable hP hs h.reachable
  have hans := answerInv_of_reachable hP hs h.reachable
  have hne : v.self.pc ≠ .thrown := by simp [hret]
  have hcached := (reportInv_of_reachable hP hs h.reachable).cached hne
  obtain ⟨taken, hread, hhandled⟩ := h.read_of_returned hP hs hk hret
  -- a host of the range is a target unless the scanner leaves it out
  have htarget : ∀ i < config.totalHosts, IsTarget config routedIp ifaddrs (config.baseIp + i) ↔
      (construct config routedIp ifaddrs pid).skipsLocal (config.baseIp + i) = false := by
    intro i hi
    rw [Bool.eq_false_iff, ne_eq, skipsLocal_construct hP hi]
    exact ⟨fun ⟨_, _, _, hsub⟩ => hsub, fun hsub => ⟨i, hi, rfl, hsub⟩⟩
  have hsound : ∀ ip ∈ v.self.st.scanResults.map (·.ip), IsTarget config routedIp ifaddrs ip ∧
      alive ip = true := by
    intro ip hip
    rw [hcached, h.mem_found_iff hP hs hread hhandled] at hip
    obtain ⟨d, hd, rfl⟩ := List.mem_map.mp hip
    obtain ⟨-, halive, haccepted⟩ := h.reply_of_taken hP hs hread hd
    obtain ⟨hlo, hhi, hlocal⟩ := hcover.range_of_accepted haccepted
    have hlo' : config.baseIp ≤ d.srcIp := hlo
    have hhi' : d.srcIp < config.baseIp + config.totalHosts := hhi
    have hhost := htarget (d.srcIp - config.baseIp) (by omega)
    rw [Nat.add_sub_cancel' hlo'] at hhost
    exact ⟨hhost.mpr hlocal, halive⟩
  have hcomplete : v.self.pc = .returned false → ∀ ip, IsTarget config routedIp ifaddrs ip →
      ip ∈ v.self.st.scanResults.map (·.ip) ∨ ip ∈ v.outstanding := by
    rintro hfalse ip ⟨i, hi, rfl, hsub⟩
    rw [hcached]
    by_cases hfound : config.baseIp + i ∈ v.self.st.foundIpsCache
    · exact .inl hfound
    · refine .inr (h.mem_outstanding hP hs hread hhandled ?_ hfound)
      refine (mem_acceptedIps_of_returned hcover hans hfalse
        (left_of_returned h.reachable hfalse).1).mpr ⟨i, hi, rfl, ?_, fun hbefore => ?_⟩
      · exact (htarget i hi).mp ⟨i, hi, rfl, hsub⟩
      · exact hfound (hans.found ▸ hbefore.answered)
  refine ⟨hcached ▸ hslot.foundNodup, hsound, hcomplete, fun hfalse hnone ip => ?_,
    h.counts hP hs hread hhandled hne⟩
  constructor
  · exact hsound ip
  · rintro ⟨hip, halive⟩
    exact (hcomplete hfalse ip hip).resolve_right (hnone ip halive)

/-- `10.0.0.8/31`, where the second host is alive: the request to the first one is lost, the other
one is repeated, and both copies are answered. -/
theorem finds_alive_pair : ∃ v : Network, v.self.pc = .returned false ∧
    v.self.st.scanResults.map (·.ip) = [167772169] ∧ v.self.st.unmatchedReplies = 1 ∧
    v.outstanding = [167772168] ∧
    FindsAlive { baseIp := 167772168, totalHosts := 2 } none none (· == 167772169) v := by
  obtain ⟨v, hv, hp⟩ := exists_reachable_of_exec
    (M := loop (construct { baseIp := 167772168, totalHosts := 2 } none none 7).component
      (echoHosts (· == 167772169)))
    (s := .begin (start (construct { baseIp := 167772168, totalHosts := 2 } none none
      7).initializeBuffers { clock := {}, rxQueue := [], rxEdge := false }))
    [.own .run, .own .run, .own (.sendmmsg (.sent 2)), .own .run, .loseRequest 0, .repeatRequest 0,
      .answer 1 ⟨(1, 2), (3, 4), []⟩, .answer 0 ⟨(1, 2), (3, 4), []⟩, .deliver 1, .deliver 0,
      .own (.epollWait .ready), .own (.recvmmsg false), .own (.message none false),
      .own (.message none false), .own .run, .own (.recvmmsg false), .own .run, .own .run,
      .own .run, .own (.epollWait .timeout), .own (.tick { tvSec := 1 }), .own .run, .own .run]
    (fun v : Network => v.self.pc == .returned false &&
      v.self.st.scanResults.map (·.ip) == [167772169] && v.self.st.unmatchedReplies == 1 &&
      v.outstanding == [167772168]) (by decide)
  simp only [Bool.and_eq_true, beq_iff_eq] at hp
  have hparse : parseCidr [49, 48, 46, 48, 46, 48, 46, 56, 47, 51, 49] = some (167772168, 2) := by
    decide
  exact ⟨v, hp.1.1.1, hp.1.1.2, hp.1.2, hp.2,
    finds_alive hparse none none 7 (by decide) _ rfl hv hp.1.1.1⟩

end PingScanner

end Netscan
