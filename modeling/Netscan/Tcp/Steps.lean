import Netscan.Tcp.Run

/-! # The steps of a TCP run, one by one

`TcpStep` lists the transitions of `TcpScanner.step` with their guards and effects, and
`TcpScanner.step_cases` says that there are no others: the invariants of a run are proved by cases
on it and never unfold the transition function. -/

namespace Netscan

open MachineInt LabelledSystem TcpScanner

/-- The transitions of a TCP run, each with the condition under which the code takes it. -/
inductive TcpStep (P : TcpScanner) (w : TcpWorld) : TcpLabel → TcpWorld → Prop
  /-- The clock moves. -/
  | tick (now : Timespec) :
      TcpStep P w (.tick now) { w with kernel := { w.kernel with clock := now } }
  /-- A connection attempt ends. -/
  | complete {fd : ℤ} {err : ℕ} {s : TcpSocket} (hs : w.kernel.socketAt fd = some s)
      (hpending : s.status = .pending) :
      TcpStep P w (.complete fd err) { w with
        kernel := w.kernel.update fd (.finish err w.kernel.clock)
        trace := w.trace ++ [.completed s.id err w.kernel.clock] }
  /-- A connection that had succeeded breaks. -/
  | reset {fd : ℤ} {err : ℕ} {s : TcpSocket} (hs : w.kernel.socketAt fd = some s) (herr : 0 < err)
      (hconn : s.connected = true) :
      TcpStep P w (.reset fd err) { w with kernel := w.kernel.update fd (.breakOff err) }
  /-- The `while` loop of `run()` is entered once more. -/
  | enter (hpc : w.pc = .loopHead)
      (hcond : w.st.nextHostIdx < P.totalHosts ∨ w.st.activeProbes > 0) :
      TcpStep P w .run { w with pc := .initiate 0 }
  /-- The `while` loop of `run()` ends. -/
  | leave (hpc : w.pc = .loopHead) (hcursor : P.totalHosts ≤ w.st.nextHostIdx)
      (hactive : w.st.activeProbes = 0) : TcpStep P w .run { w with pc := .returned }
  /-- An address of the local subnet itself is passed over. -/
  | skip {n : ℕ} (hpc : w.pc = .initiate n) (hgo : P.Initiates w.st n)
      (hlocal : P.skipsLocal (P.targetIp w.st) = true) :
      TcpStep P w .run { w with
        st := { w.st with nextHostIdx := w.st.nextHostIdx + 1 }
        pc := .initiate (n + 1)
        trace := w.trace ++ [.skipped (P.targetIp w.st)] }
  /-- No slot is free. -/
  | noSlot {n : ℕ} (hpc : w.pc = .initiate n) (hgo : P.Initiates w.st n)
      (hslot : findSlot w.st = -1) : TcpStep P w .run { w with pc := .poll }
  /-- A gate of `initiate_connections` is closed. -/
  | closedGate {n : ℕ} (hpc : w.pc = .initiate n) (hstop : ¬ P.Initiates w.st n) :
      TcpStep P w .run { w with pc := .poll }
  /-- `socket` fails. -/
  | socketFail {n : ℕ} (hpc : w.pc = .initiate n) (hgo : P.Initiates w.st n)
      (hlocal : P.skipsLocal (P.targetIp w.st) = false) :
      TcpStep P w (.socket none) { w with
        st := { w.st with nextHostIdx := w.st.nextHostIdx + 1 }
        pc := .initiate (n + 1)
        trace := w.trace ++ [.socketFailed (P.targetIp w.st)] }
  /-- `socket` returns a descriptor. -/
  | socketOk {n : ℕ} {fd : ℤ} (hpc : w.pc = .initiate n) (hgo : P.Initiates w.st n)
      (hlocal : P.skipsLocal (P.targetIp w.st) = false) (hslot : findSlot w.st ≠ -1) (hfd : 0 ≤ fd)
      (hfree : w.kernel.socketAt fd = none) :
      TcpStep P w (.socket (some fd)) { w with
        st := { w.st with nextHostIdx := w.st.nextHostIdx + 1 }
        pc := .single .opened n (findSlot w.st) (P.targetIp w.st) fd
        kernel := w.kernel.openSocket fd }
  /-- The socket is made non-blocking. -/
  | fcntlOk {n ip : ℕ} {slot fd : ℤ} (hpc : w.pc = .single .opened n slot ip fd) :
      TcpStep P w (.fcntl true) { w with pc := .single .nonblocking n slot ip fd }
  /-- `fcntl` fails. -/
  | fcntlFail {n ip : ℕ} {slot fd : ℤ} (hpc : w.pc = .single .opened n slot ip fd) :
      TcpStep P w (.fcntl false) { closeSock fd w with
        pc := .initiate (n + 1)
        trace := (closeSock fd w).trace ++ [.fcntlFailed ip] }
  /-- `connect` succeeds at once. -/
  | connected {n ip : ℕ} {slot fd : ℤ} {s : TcpSocket}
      (hpc : w.pc = .single .nonblocking n slot ip fd) (hs : w.kernel.socketAt fd = some s) :
      TcpStep P w (.connect .connected) { w with
        pc := .single .connecting n slot ip fd
        kernel := w.kernel.update fd (.connect ip (.done 0 w.kernel.clock))
        trace := w.trace ++ [.connect ip s.id, .completed s.id 0 w.kernel.clock] }
  /-- `connect` has begun. -/
  | inProgress {n ip : ℕ} {slot fd : ℤ} {s : TcpSocket}
      (hpc : w.pc = .single .nonblocking n slot ip fd) (hs : w.kernel.socketAt fd = some s) :
      TcpStep P w (.connect .inProgress) { w with
        pc := .single .connecting n slot ip fd
        kernel := w.kernel.update fd (.connect ip .pending)
        trace := w.trace ++ [.connect ip s.id] }
  /-- `connect` fails. -/
  | connectFail {n ip : ℕ} {slot fd : ℤ} {s : TcpSocket}
      (hpc : w.pc = .single .nonblocking n slot ip fd) (hs : w.kernel.socketAt fd = some s) :
      TcpStep P w (.connect .failed)
        { closeSock fd { w with trace := w.trace ++ [.connect ip s.id] } with
          pc := .initiate (n + 1) }
  /-- The socket is registered and its slot claimed. -/
  | register {n ip : ℕ} {slot fd : ℤ} {s : TcpSocket}
      (hpc : w.pc = .single .connecting n slot ip fd) (hs : w.kernel.socketAt fd = some s) :
      TcpStep P w (.epollAdd true) { w with
        st := claimSlot slot.toNat fd ip w.kernel.clock w.st
        pc := .initiate (n + 1)
        kernel := w.kernel.update fd (.register (some (u32 slot.toNat)))
        trace := w.trace ++ [.registered ip s.id w.kernel.clock] }
  /-- `epoll_ctl` fails. -/
  | registerFail {n ip : ℕ} {slot fd : ℤ} {s : TcpSocket}
      (hpc : w.pc = .single .connecting n slot ip fd) (hs : w.kernel.socketAt fd = some s) :
      TcpStep P w (.epollAdd false) { closeSock fd w with pc := .initiate (n + 1) }
  /-- `max_events` is negative. -/
  | pollThrew (hpc : w.pc = .poll) (hneg : P.maxEvents < 0) :
      TcpStep P w .run { w with pc := .thrown }
  /-- `epoll_wait` reports events. -/
  | pollEvents {evs : List EpollEvent} (hpc : w.pc = .poll) (hlen : evs.length ≤ P.maxEvents)
      (hnodup : (evs.map (·.source)).Nodup) (hrep : ∀ ev ∈ evs, w.kernel.reports ev = true) :
      TcpStep P w (.epollWait (.events evs)) { w with
        pc := .handle evs
        trace := w.trace ++ evs.map fun ev => .reported ev.source }
  /-- `epoll_wait` reports nothing. -/
  | pollTimeout (hpc : w.pc = .poll) (hnone : w.kernel.hasReady = false) :
      TcpStep P w (.epollWait .timeout) { w with pc := .reap }
  /-- `epoll_wait` fails. -/
  | pollFailed (hpc : w.pc = .poll) : TcpStep P w (.epollWait .failed) { w with pc := .reap }
  /-- An event carries no active slot. -/
  | stale {ev : EpollEvent} {evs : List EpollEvent} (hpc : w.pc = .handle (ev :: evs))
      (hstale : w.st.probeTable.length ≤ ev.data ∨ (probeAt w.st ev.data).active = false) :
      TcpStep P w .run { w with pc := .handle evs }
  /-- The socket of an active slot has connected. -/
  | success {ev : EpollEvent} {evs : List EpollEvent} {dns : Option String} {throws : Bool}
      {p : TcpProbeInfo} {so : TcpSocket} (hpc : w.pc = .handle (ev :: evs))
      (hi : w.st.probeTable[ev.data]? = some p) (hp : p.active = true)
      (hso : w.kernel.socketAt p.sock = some so) (herr : so.soError = 0)
      {s : TcpState} {threw : Bool}
      (hout : P.report throws (P.probeResult w.kernel.clock dns p) (retire ev.data w.st) =
        (s, threw)) :
      TcpStep P w (.event none dns throws)
        { st := s
          pc := if threw then .thrown else .handle evs
          kernel := w.kernel.close p.sock
          trace := w.trace ++ [.handled ev.source (some so.id) p.destIp 0, .closed (some so.id)] }
  /-- The socket of an active slot has an error, or it cannot be read. -/
  | failure {ev : EpollEvent} {evs : List EpollEvent} {getsockopt : Option ℕ}
      {dns : Option String} {throws : Bool} {p : TcpProbeInfo} {sockErr : ℕ}
      (hpc : w.pc = .handle (ev :: evs)) (hi : w.st.probeTable[ev.data]? = some p)
      (hp : p.active = true)
      (herr : readSockErr getsockopt (w.kernel.socketAt p.sock) = some sockErr)
      (hne : sockErr ≠ 0) :
      TcpStep P w (.event getsockopt dns throws)
        { st := retire ev.data w.st
          pc := .handle evs
          kernel := w.kernel.close p.sock
          trace := w.trace ++
            [.handled ev.source ((w.kernel.socketAt p.sock).map (·.id)) p.destIp sockErr,
              .closed ((w.kernel.socketAt p.sock).map (·.id))] }
  /-- The events are handled. -/
  | eventsDone (hpc : w.pc = .handle []) : TcpStep P w .run { w with pc := .reap }
  /-- `reap_timed_out_probes`. -/
  | reap (hpc : w.pc = .reap) :
      TcpStep P w .run { P.reapTimedOutProbes w.kernel.clock w with pc := .loopHead }
  /-- The destructor. -/
  | destroy (hpc : w.pc = .returned ∨ w.pc = .thrown) :
      TcpStep P w .run { destroy w with pc := .destroyed }

namespace TcpScanner

variable {P : TcpScanner} {w w' : TcpWorld} {l : TcpLabel}

/-- The steps that the scanner takes by itself. -/
private theorem runStep_cases (h : P.runStep w = some w') : TcpStep P w .run w' := by
  unfold runStep at h
  -- one case for each control point at which the scanner goes on without a call
  split at h
  · rename_i hpc
    split at h
    · rename_i hcond
      cases h
      exact .enter hpc hcond
    · rename_i hcond
      cases h
      exact .leave hpc (by omega) (by omega)
  · rename_i hpc
    split at h
    · rename_i hgo
      split at h
      · rename_i hlocal
        cases h
        exact .skip hpc hgo hlocal
      · split at h
        · rename_i hslot
          cases h
          exact .noSlot hpc hgo hslot
        · cases h
    · rename_i hstop
      cases h
      exact .closedGate hpc hstop
  · rename_i hpc
    split at h
    · rename_i hneg
      cases h
      exact .pollThrew hpc hneg
    · cases h
  · rename_i hpc
    cases h
    exact .eventsDone hpc
  · rename_i hpc
    split at h
    · rename_i hstale
      cases h
      exact .stale hpc hstale
    · cases h
  · rename_i hpc
    cases h
    exact .reap hpc
  · rename_i hpc
    cases h
    exact .destroy (.inl hpc)
  · rename_i hpc
    cases h
    exact .destroy (.inr hpc)
  · cases h

/-- The outcomes of `socket` for the next host. -/
private theorem socketStep_cases {r : Option ℤ} (h : P.socketStep r w = some w') :
    TcpStep P w (.socket r) w' := by
  unfold socketStep at h
  split at h
  · rename_i hpc
    dsimp only at h
    split at h
    · rename_i hcond
      -- the gate is open, the host is not skipped and there is a free slot
      obtain ⟨hgo, hlocal, hslot⟩ := hcond
      cases r with
      | none =>
        cases h
        exact .socketFail hpc hgo hlocal
      | some fd =>
        dsimp only at h
        split at h
        · rename_i hfd
          cases h
          exact .socketOk hpc hgo hlocal hslot hfd.1 hfd.2
        · cases h
    · cases h
  · cases h

/-- The outcomes of making the socket non-blocking. -/
private theorem fcntlStep_cases {ok : Bool} (h : fcntlStep ok w = some w') :
    TcpStep P w (.fcntl ok) w' := by
  unfold fcntlStep at h
  split at h
  · rename_i hpc
    cases ok with
    | true =>
      cases h
      exact .fcntlOk hpc
    | false =>
      cases h
      exact .fcntlFail hpc
  · cases h

/-- The outcomes of `connect`. -/
private theorem connectStep_cases {r : ConnectResult} (h : connectStep r w = some w') :
    TcpStep P w (.connect r) w' := by
  unfold connectStep at h
  split at h
  · rename_i hpc
    split at h
    · cases h
    · rename_i s hs
      cases r with
      | connected =>
        simp only [List.append_assoc, List.cons_append, List.nil_append] at h
        cases h
        exact .connected hpc hs
      | inProgress =>
        cases h
        exact .inProgress hpc hs
      | failed =>
        cases h
        exact .connectFail hpc hs
  · cases h

/-- The outcomes of registering the socket. -/
private theorem epollAddStep_cases {ok : Bool} (h : epollAddStep ok w = some w') :
    TcpStep P w (.epollAdd ok) w' := by
  unfold epollAddStep at h
  split at h
  · rename_i hpc
    split at h
    · cases h
    · rename_i s hs
      cases ok with
      | true =>
        cases h
        exact .register hpc hs
      | false =>
        cases h
        exact .registerFail hpc hs
  · cases h

/-- The outcomes of `epoll_wait` in `poll_connections`. -/
private theorem epollWaitStep_cases {r : EpollResult} (h : P.epollWaitStep r w = some w') :
    TcpStep P w (.epollWait r) w' := by
  unfold epollWaitStep at h
  split at h
  · rename_i hpc
    split at h
    · cases h
    · cases r with
      | events evs =>
        dsimp only at h
        split at h
        · rename_i hcond
          -- the events are distinct, not too many, and each is of a registered ready socket
          obtain ⟨-, hlen, hnodup, hrep⟩ := hcond
          cases h
          exact .pollEvents hpc hlen hnodup (List.all_eq_true.mp hrep)
        · cases h
      | timeout =>
        dsimp only at h
        split at h
        · rename_i hcond
          cases h
          exact .pollTimeout hpc hcond.2
        · cases h
      | failed =>
        cases h
        exact .pollFailed hpc
  · cases h

/-- The outcomes of the handling of an event. -/
private theorem eventStep_cases {getsockopt : Option ℕ} {dns : Option String} {throws : Bool}
    (h : P.eventStep getsockopt dns throws w = some w') :
    TcpStep P w (.event getsockopt dns throws) w' := by
  unfold eventStep at h
  split at h
  · rename_i ev evs hpc
    dsimp only at h
    split at h
    · rename_i hcond
      obtain ⟨hlt, hactive⟩ := hcond
      have hi : w.st.probeTable[ev.data]? = some (probeAt w.st ev.data) := by
        simp [probeAt, List.getD_eq_getElem?_getD, List.getElem?_eq_getElem hlt]
      generalize probeAt w.st ev.data = p at h hi hactive
      split at h
      · cases h
      · rename_i sockErr herr
        simp only [retireProbe_eq, closeSock, List.append_assoc, List.cons_append,
          List.nil_append] at h
        simp only [probeAt, List.getD_eq_getElem?_getD, hi, Option.getD_some] at h
        split at h
        · rename_i hzero
          subst hzero
          cases getsockopt with
          | none =>
            obtain ⟨so, hso, hzero⟩ := Option.map_eq_some_iff.mp herr
            rw [hso] at h
            cases h
            exact .success hpc hi hactive hso hzero rfl
          | some errno =>
            -- a failing `getsockopt` never reads as success
            unfold readSockErr at herr
            dsimp only at herr
            split at herr
            · cases herr
            · rename_i hne
              exact absurd (Option.some.inj herr) hne
        · rename_i hne
          cases h
          exact .failure hpc hi hactive herr hne
    · cases h
  · cases h

/-- **Every step of a TCP run is one of the listed transitions.** Invariants are proved by cases on
them. -/
theorem step_cases (h : P.step w l = some w') : TcpStep P w l w' := by
  cases l with
  | tick now =>
    cases h
    exact .tick now
  | complete fd err =>
    unfold step at h
    dsimp only at h
    split at h
    · cases h
    · rename_i s hs
      split at h
      · rename_i hpending
        cases h
        exact .complete hs hpending
      · cases h
  | reset fd err =>
    unfold step at h
    dsimp only at h
    split at h
    · cases h
    · rename_i s hs
      split at h
      · rename_i hbreaks
        cases h
        exact .reset hs hbreaks.1 hbreaks.2
      · cases h
  | run => exact runStep_cases h
  | socket r => exact socketStep_cases h
  | fcntl ok => exact fcntlStep_cases h
  | connect r => exact connectStep_cases h
  | epollAdd ok => exact epollAddStep_cases h
  | epollWait r => exact epollWaitStep_cases h
  | event getsockopt dns throws => exact eventStep_cases h

end TcpScanner

end Netscan
