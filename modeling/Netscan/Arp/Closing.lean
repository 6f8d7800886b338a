import Netscan.Arp.Decoding

/-! # The netlink socket is closed once

`parse_netlink_message` closes the socket at the stops that it finds, `get_arp_table` at the others.
One inversion lemma says what a step does to the socket, and from it the socket is held from its
opening to its one `close`. The entries are followed datagram by datagram, to the message or the
oversized datagram that stops the call. -/

namespace Netscan

open MachineInt LabelledSystem

/-! ### The socket -/

/-- The points between `socket` and `close`, where the call holds its socket. -/
def ArpPc.SocketOpen : ArpPc → Prop
  | .opening | .stopped | .returned => False
  | _ => True

namespace ArpCall

variable {ifIndexToName : ℤ → Option String} {c u : ArpCall} {l : ArpLabel}

/-- What a step does to the socket: nothing, closing it, or returning when it is closed already. -/
inductive SocketStep (c u : ArpCall) : Prop
  /-- The socket stays open. -/
  | kept : c.pc.SocketOpen → u.pc.SocketOpen → u.closes = c.closes → SocketStep c u
  /-- One of the two functions closes the socket, and returns. -/
  | closed : c.pc.SocketOpen → u.pc = .stopped ∨ u.pc = .returned → u.closes = c.closes + 1 →
      SocketStep c u
  /-- `get_arp_table` returns because `parse_netlink_message` has returned `false`. -/
  | returned : c.pc = .stopped → u.pc = .returned → u.closes = c.closes → SocketStep c u

/-- A message keeps the socket open or, when it stops the walk, closes it. The cases are those of
`messageTurn`. -/
theorem socketStep_messageTurn {hdr remaining : ℕ} (hpc : c.pc = .message hdr remaining) :
    SocketStep c (c.messageTurn hdr remaining) := by
  have hopen : c.pc.SocketOpen := hpc ▸ trivial
  by_cases hok : NlmsgOk c.buf hdr remaining
  swap
  · rw [messageTurn_stop hok]
    exact .kept hopen trivial rfl
  by_cases hdone : nlmsgType c.buf hdr = nlmsgDone
  · rw [messageTurn_done hok hdone]
    exact .closed hopen (.inl rfl) rfl
  by_cases herror : nlmsgType c.buf hdr = nlmsgError
  · rw [messageTurn_error hok herror]
    -- a zero error code closes at once, any other one is reported first
    split
    · exact .closed hopen (.inl rfl) rfl
    · exact .kept hopen trivial rfl
  by_cases hneigh : nlmsgType c.buf hdr = rtmNewneigh
  swap
  · rw [messageTurn_other hok hdone herror hneigh]
    exact .kept hopen trivial rfl
  by_cases hfamily : ndmFamily c.buf hdr = afInet
  · rw [messageTurn_neighbour hok hneigh hfamily]
    exact .kept hopen trivial rfl
  · rw [messageTurn_family hok hneigh hfamily]
    exact .kept hopen trivial rfl

/-- An attribute keeps the socket open, whichever of its five cases it is. -/
theorem socketStep_parseNetlinkAttribute {hdr remaining rta rtaLen ip : ℕ} {mac : String}
    (hpc : c.pc = .attribute hdr remaining rta rtaLen ip mac) :
    SocketStep c (c.parseNetlinkAttribute hdr remaining rta rtaLen ip mac) := by
  have hopen : c.pc.SocketOpen := hpc ▸ trivial
  by_cases hok : RtaOk c.buf rta rtaLen
  swap
  · rw [parseNetlinkAttribute_stop hok]
    exact .kept hopen trivial rfl
  by_cases hdst : rtaType c.buf rta = ndaDst
  · rw [parseNetlinkAttribute_dst hok hdst]
    exact .kept hopen trivial rfl
  by_cases hlladdr : rtaType c.buf rta = ndaLladdr
  swap
  · rw [parseNetlinkAttribute_other hok hdst hlladdr]
    exact .kept hopen trivial rfl
  rcases Nat.lt_or_ge (rtaPayload c.buf rta) macByteCount with hshort | hlong
  · rw [parseNetlinkAttribute_short hok hlladdr hshort]
    exact .kept hopen trivial rfl
  · rw [parseNetlinkAttribute_lladdr hok hlladdr hlong]
    exact .kept hopen trivial rfl

/-- The end of a neighbour keeps the socket open, with or without an entry. -/
theorem socketStep_finishNeighbour {hdr remaining ip : ℕ} {mac : String}
    (hpc : c.pc = .neighbour hdr remaining ip mac) :
    SocketStep c (c.finishNeighbour ifIndexToName hdr remaining ip mac) := by
  have hopen : c.pc.SocketOpen := hpc ▸ trivial
  have hafter := (finishNeighbour_spec ifIndexToName c hdr remaining ip mac).1
  refine .kept hopen (hafter ▸ trivial) ?_
  unfold finishNeighbour
  dsimp only
  split_ifs <;> rfl

/-- A step of a walk does to the socket what its message does, and the ends of the call close it or
find it closed. -/
theorem socketStep_runStep (hrun : c.runStep ifIndexToName = some u) : SocketStep c u := by
  unfold runStep at hrun
  -- a message, an attribute, the end of a neighbour, the next message, then the two ends of the
  -- call
  split at hrun
  · rename_i hpc
    obtain rfl := Option.some.inj hrun
    exact socketStep_messageTurn hpc
  · rename_i hpc
    obtain rfl := Option.some.inj hrun
    exact socketStep_parseNetlinkAttribute hpc
  · rename_i hpc
    obtain rfl := Option.some.inj hrun
    exact socketStep_finishNeighbour hpc
  · rename_i hpc
    obtain rfl := Option.some.inj hrun
    exact .kept (hpc ▸ trivial) trivial rfl
  · rename_i hpc
    obtain rfl := Option.some.inj hrun
    exact .returned hpc rfl rfl
  · rename_i hpc
    obtain rfl := Option.some.inj hrun
    exact .closed (hpc ▸ trivial) (.inr rfl) rfl
  · cases hrun

/-- Every step after `socket` leaves the socket alone, closes it or returns behind the close. -/
theorem socketStep_of_step (hstep : step ifIndexToName c l = some u) (hopened : c.pc ≠ .opening) :
    SocketStep c u := by
  unfold step at hstep
  split at hstep
  · rename_i hpc
    exact absurd hpc hopened
  · rename_i ok hpc
    cases ok with
    | true =>
      obtain rfl := Option.some.inj hstep
      exact .kept (hpc ▸ trivial) trivial rfl
    | false =>
      obtain rfl := Option.some.inj hstep
      exact .closed (hpc ▸ trivial) (.inr rfl) rfl
  · rename_i r hpc
    have hopen : c.pc.SocketOpen := hpc ▸ trivial
    unfold recvmsgStep at hstep
    split at hstep
    · obtain rfl := Option.some.inj hstep
      exact .kept hopen hopen rfl
    · obtain rfl := Option.some.inj hstep
      exact .kept hopen trivial rfl
    · split at hstep
      · cases hstep
      · dsimp only at hstep
        split at hstep
        · obtain rfl := Option.some.inj hstep
          exact .kept hopen trivial rfl
        · obtain rfl := Option.some.inj hstep
          exact .kept hopen trivial rfl
  · rename_i ok hpc
    cases ok with
    | true =>
      obtain rfl := Option.some.inj hstep
      exact .kept (hpc ▸ trivial) trivial rfl
    | false =>
      obtain rfl := Option.some.inj hstep
      exact .closed (hpc ▸ trivial) (.inr rfl) rfl
  · -- the socket is closed whether or not the error can be printed
    rename_i ok e hpc
    obtain rfl := Option.some.inj hstep
    refine .closed (hpc ▸ trivial) (.inl rfl) ?_
    cases ok <;> rfl
  · exact socketStep_runStep hstep
  · cases hstep

/-- The socket is held: it is opened, and closed once it is no longer open. -/
structure SocketHeld (c : ArpCall) : Prop where
  /-- `socket` has succeeded. -/
  opened : c.pc ≠ .opening
  /-- An open socket has not been closed. -/
  before : c.pc.SocketOpen → c.closes = 0
  /-- Behind the close, the socket has been closed once. -/
  after : c.pc = .stopped ∨ c.pc = .returned → c.closes = 1

/-- Every step keeps the account of the socket: a close is made only while it is open. -/
theorem SocketHeld.step (h : c.SocketHeld) (hstep : step ifIndexToName c l = some u) :
    u.SocketHeld := by
  rcases socketStep_of_step hstep h.opened with ⟨hc, hu, hcloses⟩ | ⟨hc, hu, hcloses⟩ |
    ⟨hc, hu, hcloses⟩
  · refine ⟨fun hpc => ?_, fun _ => hcloses.trans (h.before hc), ?_⟩
    · rw [hpc] at hu
      exact hu
    · -- the socket is still open
      rintro (hpc | hpc) <;> rw [hpc] at hu <;> exact hu.elim
  · have hone : u.closes = 1 := by rw [hcloses, h.before hc]
    refine ⟨fun hpc => ?_, fun hopen => ?_, fun _ => hone⟩
    · rcases hu with hu | hu <;> rw [hu] at hpc <;> cases hpc
    · rcases hu with hu | hu <;> rw [hu] at hopen <;> exact hopen.elim
  · refine ⟨fun hpc => ?_, fun hopen => ?_, fun _ => hcloses.trans (h.after (.inl hc))⟩
    · rw [hu] at hpc
      cases hpc
    · rw [hu] at hopen
      exact hopen.elim

end ArpCall

/-! ### The datagrams and what stops the call -/

/-- The message stops the call: it is the end of a dump or an error message. -/
def WireMessage.Ends (m : WireMessage) : Prop :=
  m.raw.type = nlmsgDone ∨ m.raw.type = nlmsgError

instance (m : WireMessage) : Decidable m.Ends := inferInstanceAs (Decidable (_ ∨ _))

/-- A datagram of well-formed messages that fits the receive buffer, or one that is too large for
it and will be truncated. -/
inductive NetlinkDatagram where
  /-- Messages one behind the other. -/
  | messages (ms : List WireMessage)
      (fits : (encodeDatagram (ms.map WireMessage.raw)).length ≤ rxBufSize)
  /-- More bytes than the buffer holds. -/
  | oversized (bytes : List UInt8) (large : rxBufSize < bytes.length)

namespace NetlinkDatagram

/-- The bytes of a datagram, as `recvmsg` hands them over. -/
def bytes : NetlinkDatagram → List UInt8
  | .messages ms _ => encodeDatagram (ms.map WireMessage.raw)
  | .oversized bs _ => bs

/-- The messages before the first one that stops the call; none of a datagram that is truncated. -/
def processed : NetlinkDatagram → List WireMessage
  | .messages ms _ => ms.takeWhile fun m => !decide m.Ends
  | .oversized _ _ => []

/-- The call stops at the datagram: one of its messages ends the call, or it is too large. -/
def Stops : NetlinkDatagram → Prop
  | .messages ms _ => ∃ m ∈ ms, m.Ends
  | .oversized _ _ => True

end NetlinkDatagram

/-- Messages are processed to the end, or up to the first one that stops the call. -/
theorem takeWhile_ends_cases (ms : List WireMessage) :
    ((∀ m ∈ ms, ¬ m.Ends) ∧ ms.takeWhile (fun m => !decide m.Ends) = ms) ∨
      ∃ before m after, ms = before ++ m :: after ∧ (∀ m ∈ before, ¬ m.Ends) ∧ m.Ends ∧
        ms.takeWhile (fun m => !decide m.Ends) = before := by
  induction ms with
  | nil => exact .inl ⟨fun m hm => absurd hm List.not_mem_nil, rfl⟩
  | cons m ms ih =>
    by_cases hm : m.Ends
    · refine .inr ⟨[], m, ms, rfl, fun m hm => absurd hm List.not_mem_nil, hm, ?_⟩
      rw [List.takeWhile_cons_of_neg (by simpa using hm)]
    rw [List.takeWhile_cons_of_pos (by simpa using hm)]
    rcases ih with ⟨hplain, htake⟩ | ⟨before, last, after, rfl, hplain, hends, htake⟩
    · exact .inl ⟨List.forall_mem_cons.mpr ⟨hm, hplain⟩, by rw [htake]⟩
    · exact .inr ⟨m :: before, last, after, rfl, List.forall_mem_cons.mpr ⟨hm, hplain⟩, hends,
        by rw [htake]⟩

/-- What a call has made of the datagrams `ds`: `recvmsg` has handed over those of `received`, and
only the last of them may have stopped the call. -/
structure ArpCall.Consumed (ifIndexToName : ℤ → Option String) (ds received : List NetlinkDatagram)
    (c : ArpCall) : Prop where
  /-- The others still wait. -/
  waiting : ∃ rest, ds = received ++ rest ∧ c.queue = rest.map NetlinkDatagram.bytes
  /-- No datagram before the last one has stopped the call. -/
  passed : ∀ d ∈ received.dropLast, ¬ d.Stops
  /-- The entries are those of the messages that have been processed. -/
  entries : c.entries = (received.flatMap NetlinkDatagram.processed).filterMap
    (WireMessage.entry ifIndexToName)

/-! ### The way to the return -/

/-- The points of a call that has no more to receive, on its way to the return. -/
def ArpPc.Ending : ArpPc → Prop
  | .truncated | .netlinkError _ | .stopped | .leaving | .returned => True
  | _ => False

namespace ArpCall

variable {ifIndexToName : ℤ → Option String} {c u : ArpCall} {l : ArpLabel}
  {ds received rest : List NetlinkDatagram} {G : ArpCall → Prop}

/-- From `c` on, the call returns what it has made of some of the datagrams. -/
abbrev Settles (ifIndexToName : ℤ → Option String) (ds : List NetlinkDatagram) :
    ArpCall → Prop :=
  Henceforth (step ifIndexToName) (fun _ _ => True) fun c =>
    c.pc = .returned → ∃ received, c.Consumed ifIndexToName ds received

/-- A step of the walk keeps a call that receives no more as it is: the same entries, and the
datagrams left where they are. -/
theorem ending_runStep (hpc : c.pc.Ending) (hrun : c.runStep ifIndexToName = some u) :
    u.pc.Ending ∧ u.queue = c.queue ∧ u.entries = c.entries := by
  unfold runStep at hrun
  split at hrun
  · rename_i h
    exact absurd hpc (h ▸ id)
  · rename_i h
    exact absurd hpc (h ▸ id)
  · rename_i h
    exact absurd hpc (h ▸ id)
  · rename_i h
    exact absurd hpc (h ▸ id)
  · obtain rfl := Option.some.inj hrun
    exact ⟨trivial, rfl, rfl⟩
  · obtain rfl := Option.some.inj hrun
    exact ⟨trivial, rfl, rfl⟩
  · cases hrun

/-- A call that receives no more goes on to return as it is, through the remaining `fprintf` and
`close` calls. -/
theorem ending_step (hpc : c.pc.Ending) (hstep : step ifIndexToName c l = some u) :
    u.pc.Ending ∧ u.queue = c.queue ∧ u.entries = c.entries := by
  unfold step at hstep
  split at hstep
  · rename_i h
    exact absurd hpc (h ▸ id)
  · rename_i h
    exact absurd hpc (h ▸ id)
  · rename_i h
    exact absurd hpc (h ▸ id)
  -- the two `fprintf` calls lead on whether they fail or not
  · rename_i ok _
    obtain rfl := Option.some.inj hstep
    cases ok <;> exact ⟨trivial, rfl, rfl⟩
  · rename_i ok e _
    obtain rfl := Option.some.inj hstep
    cases ok <;> exact ⟨trivial, rfl, rfl⟩
  · exact ending_runStep hpc hstep
  · cases hstep

/-- A call that receives no more returns what it has made of the datagrams. -/
theorem settles_of_ending (hpc : c.pc.Ending) (h : c.Consumed ifIndexToName ds received) :
    Settles ifIndexToName ds c := by
  intro u hrun _
  have hkept : u.pc.Ending ∧ u.queue = c.queue ∧ u.entries = c.entries := by
    refine hrun.invariant (I := fun u => u.pc.Ending ∧ u.queue = c.queue ∧ u.entries = c.entries)
      ⟨hpc, rfl, rfl⟩ ?_
    rintro v l w ⟨hv, hqueue, hentries⟩ _ hstep
    obtain ⟨hw, hqueue', hentries'⟩ := ending_step hv hstep
    exact ⟨hw, hqueue'.trans hqueue, hentries'.trans hentries⟩
  obtain ⟨-, hqueue, hentries⟩ := hkept
  exact ⟨received, hqueue ▸ h.waiting, h.passed, hentries.trans h.entries⟩

/-- Where a step of the walk leads on, the call goes on so. -/
theorem walksBack_settles : WalksBack ifIndexToName (Settles ifIndexToName ds) := by
  intro c u hrun hu
  apply Henceforth.of_next
  · intro hpc
    rw [runStep, hpc] at hrun
    cases hrun
  · intro l v _ hstep
    obtain ⟨-, rfl⟩ := (step_eq_some_iff hrun).mp hstep
    exact .inr hu

/-- A message that stops the call leaves it with what it has found before this message. -/
theorem walk_ends (hG : WalksBack ifIndexToName G) {m : RawMessage}
    (hends : m.type = nlmsgDone ∨ m.type = nlmsgError) {hdr remaining : ℕ}
    (hpc : c.pc = .message hdr remaining) (hholds : c.buf.Holds hdr m.encode)
    (hroom : m.encode.length ≤ remaining) (hfits : remaining ≤ rxBufSize)
    (hnext : ∀ u, u.pc.Ending → u.queue = c.queue → u.entries = c.entries → G u) : G c := by
  obtain ⟨-, htype, -⟩ := RawMessage.read_eq hholds (hroom.trans hfits)
  have hok := RawMessage.nlmsgOk hholds hroom hfits
  have hrun : c.runStep ifIndexToName = some (c.messageTurn hdr remaining) := by rw [runStep, hpc]
  apply hG _ _ hrun
  rcases hends with hdone | herror
  · rw [messageTurn_done hok (htype.trans hdone)]
    exact hnext _ trivial rfl rfl
  · rw [messageTurn_error hok (htype.trans herror)]
    split
    · exact hnext _ trivial rfl rfl
    · exact hnext _ trivial rfl rfl

/-- The walk over a datagram adds the entries of the messages that are processed. Then the call
waits for the next datagram or, if one of the messages stops it, receives no more. -/
theorem walk_datagram (hG : WalksBack ifIndexToName G) {ms : List WireMessage}
    (hfits : (encodeDatagram (ms.map WireMessage.raw)).length ≤ rxBufSize)
    (hpc : c.pc = .message 0 (encodeDatagram (ms.map WireMessage.raw)).length)
    (hholds : c.buf.Holds 0 (encodeDatagram (ms.map WireMessage.raw)))
    (hnext : ∀ u : ArpCall,
      (u.pc = .receive ∧ ¬ (NetlinkDatagram.messages ms hfits).Stops ∨ u.pc.Ending) →
      u.queue = c.queue →
      u.entries = c.entries ++ (NetlinkDatagram.messages ms hfits).processed.filterMap
        (WireMessage.entry ifIndexToName) → G u) : G c := by
  rcases takeWhile_ends_cases ms with ⟨hplain, htake⟩ |
    ⟨before, m, after, rfl, hplain, hends, htake⟩
  · -- no message stops the call, and the walk ends behind the last one
    rw [← List.append_nil (encodeDatagram _)] at hpc hholds
    refine walk_messages hG (fun m hm => not_or.mp (hplain m hm)) c 0 hpc hholds ?_ ?_
    · rwa [List.append_nil]
    intro c' hdr hpc' _ hadds
    refine walk_end hG hpc' ?_
    intro u hpcu hqueue hentries
    refine hnext u (.inl ⟨hpcu, ?_⟩) (hqueue.trans hadds.queue) ?_
    · rintro ⟨m, hm, hends⟩
      exact hplain m hm hends
    · rw [NetlinkDatagram.processed, htake, hentries, hadds.entries]
  · -- the messages before `m` are walked over as above, and `m` stops the call
    have hsplit : encodeDatagram ((before ++ m :: after).map WireMessage.raw) =
        encodeDatagram (before.map WireMessage.raw) ++
          (m.raw.encode ++ encodeDatagram (after.map WireMessage.raw)) := by
      rw [List.map_append, List.map_cons, encodeDatagram, List.flatMap_append, List.flatMap_cons]
      rfl
    rw [hsplit] at hpc hholds
    have hfits' := hfits
    rw [hsplit] at hfits'
    refine walk_messages hG (fun m hm => not_or.mp (hplain m hm)) c 0 hpc hholds hfits' ?_
    intro c' hdr hpc' hholds' hadds
    rw [ByteMemory.holds_append] at hholds'
    rw [List.length_append] at hfits'
    refine walk_ends hG hends hpc' hholds'.1 ?_ (by omega) ?_
    · rw [List.length_append]
      exact Nat.le_add_right _ _
    intro u hpcu hqueue hentries
    refine hnext u (.inr hpcu) (hqueue.trans hadds.queue) ?_
    rw [NetlinkDatagram.processed, htake, hentries, hadds.entries]

/-- One more datagram is received, none before it having stopped the call, and its entries are
added. -/
theorem Consumed.concat {d : NetlinkDatagram} (h : c.Consumed ifIndexToName ds received)
    (hpassed : ∀ d ∈ received, ¬ d.Stops) (hsplit : ds = received ++ d :: rest)
    (hqueue : u.queue = rest.map NetlinkDatagram.bytes)
    (hentries : u.entries = c.entries ++ d.processed.filterMap
      (WireMessage.entry ifIndexToName)) :
    u.Consumed ifIndexToName ds (received ++ [d]) := by
  refine ⟨⟨rest, ?_, hqueue⟩, ?_, ?_⟩
  · rw [hsplit, List.append_assoc, List.singleton_append]
  · rwa [List.dropLast_concat]
  · rw [hentries, h.entries, List.flatMap_append, List.filterMap_append, List.flatMap_singleton]

/-- The call `v` holds the datagram `d` that `recvmsg` has handed over to `c`. -/
structure Received (d : List UInt8) (c v : ArpCall) : Prop where
  /-- The datagram was the next one. -/
  queue : c.queue = d :: v.queue
  /-- The entries are as before. -/
  entries : v.entries = c.entries
  /-- A datagram that fits the buffer is walked over, another one is reported. -/
  held : rxBufSize < d.length ∧ v.pc = .truncated ∨
    d.length ≤ rxBufSize ∧ v.pc = .message 0 d.length ∧ v.buf.Holds 0 d

/-- A `recvmsg` call is interrupted, fails or hands over a datagram, whole or cut off. -/
theorem receive_cases (hpc : c.pc = .receive) (hstep : step ifIndexToName c l = some u) :
    u = c ∨ u = c.goto .leaving ∨ ∃ d, Received d c u := by
  cases l with
  | recvmsg r =>
    simp only [step, hpc, recvmsgStep] at hstep
    -- interrupted, failed, or the next datagram of the queue
    split at hstep
    · exact .inl (Option.some.inj hstep).symm
    · exact .inr (.inl (Option.some.inj hstep).symm)
    · split at hstep
      · cases hstep
      rename_i d queue hqueue
      refine .inr (.inr ⟨d, ?_⟩)
      split at hstep
      · rename_i hlarge
        obtain rfl := Option.some.inj hstep
        exact ⟨hqueue, rfl, .inl ⟨hlarge, rfl⟩⟩
      · rename_i hlarge
        have hfits : d.length ≤ rxBufSize := Nat.not_lt.mp hlarge
        obtain rfl := Option.some.inj hstep
        refine ⟨hqueue, rfl, .inr ⟨hfits, rfl, ?_⟩⟩
        rw [List.take_of_length_le hfits]
        exact ByteMemory.holds_store _ _
  | _ => simp [step, runStep, hpc] at hstep

/-- A call that waits for a datagram returns what it has made of others, if it does from the next
one on. -/
theorem settles_of_receive (hpc : c.pc = .receive) (h : c.Consumed ifIndexToName ds received)
    (hnext : ∀ d v, Received d c v → Settles ifIndexToName ds v) :
    Settles ifIndexToName ds c := by
  apply Henceforth.of_next
  · intro hreturned
    rw [hpc] at hreturned
    cases hreturned
  · intro l v _ hstep
    rcases receive_cases hpc hstep with rfl | rfl | ⟨d, hreceived⟩
    · exact .inl rfl
    · exact .inr (settles_of_ending trivial ⟨h.waiting, h.passed, h.entries⟩)
    · exact .inr (hnext d v hreceived)

/-- **A call that waits for datagrams returns what it has made of some of them.** By induction on
those that wait: each is walked over, unless `recvmsg` fails before. -/
theorem settles_receive :
    ∀ (rest received : List NetlinkDatagram) (c : ArpCall), ds = received ++ rest →
      c.pc = .receive → c.queue = rest.map NetlinkDatagram.bytes →
      (∀ d ∈ received, ¬ d.Stops) → c.Consumed ifIndexToName ds received →
      Settles ifIndexToName ds c := by
  intro rest
  induction rest with
  | nil =>
    intro received c _ hpc hqueue _ hconsumed
    refine settles_of_receive hpc hconsumed fun d v hreceived => ?_
    rw [hreceived.queue] at hqueue
    cases hqueue
  | cons d rest ih =>
    intro received c hsplit hpc hqueue hpassed hconsumed
    refine settles_of_receive hpc hconsumed fun d' v hreceived => ?_
    rw [hreceived.queue, List.map_cons, List.cons.injEq] at hqueue
    obtain ⟨rfl, hqueue⟩ := hqueue
    cases d with
    | oversized bs large =>
      -- The report about the truncated datagram ends the call, with the entries it has.
      have hpcv : v.pc = .truncated := by
        rcases hreceived.held with ⟨-, h⟩ | ⟨hfits, -⟩
        · exact h
        · exact absurd large (Nat.not_lt.mpr hfits)
      refine settles_of_ending (by rw [hpcv]; trivial)
        (hconsumed.concat hpassed hsplit hqueue ?_)
      rw [hreceived.entries]
      exact (List.append_nil _).symm
    | messages ms fits =>
      obtain ⟨hpcv, hholds⟩ : v.pc = .message 0 (encodeDatagram (ms.map WireMessage.raw)).length ∧
          v.buf.Holds 0 (encodeDatagram (ms.map WireMessage.raw)) := by
        rcases hreceived.held with ⟨hlarge, -⟩ | ⟨-, h⟩
        · exact absurd fits (Nat.not_le.mpr hlarge)
        · exact h
      refine walk_datagram walksBack_settles fits hpcv hholds ?_
      intro u hpcu hqueueu hentriesu
      rw [hreceived.entries] at hentriesu
      have hconsumedu := hconsumed.concat hpassed hsplit (hqueueu.trans hqueue) hentriesu
      -- the walk is through the datagram, or one of its messages has stopped the call
      rcases hpcu with ⟨hpcu, hgoes⟩ | hpcu
      · refine ih _ u ?_ hpcu (hqueueu.trans hqueue) ?_ hconsumedu
        · rw [hsplit, List.append_assoc, List.singleton_append]
        · intro d hd
          rcases List.mem_append.mp hd with hd | hd
          · exact hpassed d hd
          · rw [List.mem_singleton.mp hd]
            exact hgoes
      · exact settles_of_ending hpcu hconsumedu

/-- A call that has opened its socket returns what it has made of some of the datagrams, none if the
request cannot be sent. -/
theorem settles_requesting (hpc : c.pc = .requesting)
    (hqueue : c.queue = ds.map NetlinkDatagram.bytes) (hentries : c.entries = []) :
    Settles ifIndexToName ds c := by
  have hnone : ∀ d ∈ ([] : List NetlinkDatagram), ¬ d.Stops :=
    fun d hd => absurd hd List.not_mem_nil
  have hconsumed : ∀ u : ArpCall, u.queue = c.queue → u.entries = c.entries →
      u.Consumed ifIndexToName ds [] :=
    fun u hqueueu hentriesu => ⟨⟨ds, rfl, hqueueu.trans hqueue⟩, hnone, hentriesu.trans hentries⟩
  -- if `send` fails, the call ends with nothing; otherwise it waits for the first datagram
  apply Henceforth.of_next
  · intro hreturned
    rw [hpc] at hreturned
    cases hreturned
  intro l v _ hstep
  cases l with
  | send ok =>
    simp only [step, hpc] at hstep
    cases ok with
    | true =>
      obtain rfl := Option.some.inj hstep
      exact .inr (settles_receive ds [] _ rfl rfl hqueue hnone (hconsumed _ rfl rfl))
    | false =>
      obtain rfl := Option.some.inj hstep
      exact .inr (settles_of_ending trivial (hconsumed _ rfl rfl))
  | _ => simp [step, runStep, hpc] at hstep

/-- `recvmsg` is called at one point only, where the socket is open. -/
theorem pc_of_recvmsg {r : RecvmsgResult} (hstep : step ifIndexToName c (.recvmsg r) = some u) :
    c.pc = .receive := by
  cases hpc : c.pc with
  | receive => rfl
  | _ => simp [step, hpc] at hstep

end ArpCall

/-! ### Closing once -/

/-- What holds of a call of `get_arp_table` that has opened its socket. -/
structure ClosedOnce (ifIndexToName : ℤ → Option String) (queue : List (List UInt8))
    (c : ArpCall) : Prop where
  /-- When it returns, the two functions together have closed the socket once. -/
  once : c.pc = .returned → c.closes = 1
  /-- Where it calls `recvmsg`, the socket has not been closed. -/
  receives : ∀ r u, ArpCall.step ifIndexToName c (.recvmsg r) = some u → c.closes = 0
  /-- When it returns, it returns the entries of the messages that were processed before the
  stop. -/
  entries : ∀ ds : List NetlinkDatagram, queue = ds.map NetlinkDatagram.bytes →
    c.pc = .returned → ∃ received, c.Consumed ifIndexToName ds received

/-- **The netlink socket is closed exactly once.** Take any memory, any datagrams on the socket and
any answers of `send`, `recvmsg` and `fprintf`. A call that has opened its socket has closed it once
when it returns, and calls `recvmsg` only before that. If the datagrams are sequences of well-formed
messages or too large for the buffer, what it returns is the entries of the messages that it has
processed, in their order. -/
theorem closed_once (ifIndexToName : ℤ → Option String) (buf : ByteMemory)
    (queue : List (List UInt8)) {opened c : ArpCall}
    (hopen : ArpCall.step ifIndexToName (ArpCall.start buf queue) (.socket true) = some opened)
    (hc : Reachable (ArpCall.step ifIndexToName) opened c) :
    ClosedOnce ifIndexToName queue c := by
  obtain rfl := Option.some.inj hopen
  have hheld : c.SocketHeld := by
    refine hc.invariant (I := ArpCall.SocketHeld) ⟨?_, fun _ => rfl, ?_⟩ ?_
    · intro h
      cases h
    · rintro (h | h) <;> cases h
    · intro u l v hu _ hstep
      exact hu.step hstep
  -- the socket is closed once when the call is past the close, and open where `recvmsg` is called
  refine ⟨fun hpc => hheld.after (.inr hpc), ?_, ?_⟩
  · intro r u hstep
    apply hheld.before
    rw [ArpCall.pc_of_recvmsg hstep]
    trivial
  · rintro ds rfl
    exact ArpCall.settles_requesting rfl rfl rfl c hc

/-- The datagram of a record, an acknowledgement and another record: the walk stops at the second
message. -/
def acknowledgedDatagram : NetlinkDatagram :=
  .messages [(NetlinkMessage.neighbour gatewayRecord).wire, ackMessage.wire,
    (NetlinkMessage.neighbour gatewayRecord).wire] (by decide)

set_option maxRecDepth 4000 in
/-- A call whose `recvmsg` is interrupted once and then hands over a record and an acknowledgement:
it returns with the entry of the record, and has closed its socket. -/
theorem closed_once_pair :
    ∃ c, c.pc = .returned ∧ c.entries = [⟨0x0A000001, "02:00:00:00:00:01", 2, "unknown"⟩] ∧
      ClosedOnce (fun _ => none) [acknowledgedDatagram.bytes] c := by
  obtain ⟨c, hc, ht⟩ := exists_reachable_of_exec (M := ArpCall.step fun _ => none)
    (s := (ArpCall.start (fun _ => 0) [acknowledgedDatagram.bytes]).goto .requesting)
    [.send true, .recvmsg .interrupted, .recvmsg .datagram, .run, .run, .run, .run, .run, .run,
      .run, .run]
    (fun c => decide (c.pc = .returned ∧
      c.entries = [⟨0x0A000001, "02:00:00:00:00:01", 2, "unknown"⟩])) (by decide)
  obtain ⟨hpc, hentries⟩ := of_decide_eq_true ht
  exact ⟨c, hpc, hentries,
    closed_once (fun _ => none) (fun _ => 0) [acknowledgedDatagram.bytes] rfl hc⟩

end Netscan
