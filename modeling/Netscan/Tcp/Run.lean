import Netscan.Lib.Descriptors
import Netscan.Lib.LabelledSystem
import Netscan.Tcp.Scanner

/-! # `TcpScanner::run` against the kernel

`run()` and the functions it calls, as a labelled transition system. A `TcpWorld` is the scanner's
state, the point its control has reached, the kernel's side (the clock and the descriptor table with
the epoll registrations) and the trace of what happened so far. The clock can move and connections
can complete, and break again, between any two steps of the scanner. The trace, the serial numbers
of the sockets and the sources of the epoll events are history variables: the scanner sees
descriptors and slot numbers only. The buffer sizes set with `setsockopt` have no effect on any of
this and are left out. -/

namespace Netscan

open MachineInt

/-! ### The kernel -/

/-- How far the connection of a socket is. The end of an attempt keeps its time, as completeness is
about connections made in time. -/
inductive ConnStatus where
  /-- `connect` has not been called. -/
  | idle
  /-- `connect` returned `EINPROGRESS`. -/
  | pending
  /-- The connection attempt ended at `time`; `err` is `0` if it succeeded. -/
  | done (err : ℕ) (time : Timespec)
  deriving DecidableEq, Repr

/-- An open socket as the kernel has it: what it connects to, how the attempt stands, what broke the
connection since, and under which number it is registered. -/
structure TcpSocket where
  /-- The number of the `socket` call that returned it. -/
  id : ℕ
  /-- The address it connects to. -/
  peer : Option ℕ := none
  /-- How far it is. -/
  status : ConnStatus := .idle
  /-- The error that has broken the connection since it succeeded, such as `ECONNRESET` after a
  reset by the peer; `0` if none has. -/
  broken : ℕ := 0
  /-- `data.u32` of its epoll registration. -/
  slot : Option ℕ := none
  deriving DecidableEq, Repr

/-- The registration asks for `EPOLLOUT`, `EPOLLERR` and `EPOLLHUP`: a socket is ready when its
connection attempt ended, and stays so. -/
def TcpSocket.ready (s : TcpSocket) : Bool :=
  match s.status with
  | .done _ _ => true
  | _ => false

/-- The connection attempt has succeeded, whatever became of the connection afterwards. -/
def TcpSocket.connected (s : TcpSocket) : Bool :=
  match s.status with
  | .done 0 _ => true
  | _ => false

/-- `SO_ERROR`: why the connection attempt failed, or what has happened to the connection since the
attempt succeeded. -/
def TcpSocket.soError (s : TcpSocket) : ℕ :=
  match s.status with
  | .done 0 _ => s.broken
  | .done err _ => err
  | _ => 0

/-- `connect` has been called: the attempt has a peer, and is under way or over. -/
def TcpSocket.connect (ip : ℕ) (status : ConnStatus) (s : TcpSocket) : TcpSocket :=
  { s with peer := some ip, status := status }

/-- The connection attempt ends, with an error or with `0`, and the time is noted. -/
def TcpSocket.finish (err : ℕ) (time : Timespec) (s : TcpSocket) : TcpSocket :=
  { s with status := .done err time }

/-- The connection breaks, which leaves the history of the attempt as it is. -/
def TcpSocket.breakOff (err : ℕ) (s : TcpSocket) : TcpSocket := { s with broken := err }

/-- `epoll_ctl` sets the registration, or takes it away with `none`. -/
def TcpSocket.register (slot : Option ℕ) (s : TcpSocket) : TcpSocket := { s with slot := slot }

/-- The kernel's side of the scanner's sockets: which descriptors are open, for which sockets, how
many were ever opened, and the clock. -/
structure TcpKernel where
  /-- `CLOCK_REALTIME`. -/
  clock : Timespec
  /-- The open sockets, by descriptor. -/
  sockets : Descriptors.Table TcpSocket := ∅
  /-- The number of sockets opened so far. -/
  opened : ℕ := 0

/-- An event that `epoll_wait` reported. The scanner sees `data` only. -/
structure EpollEvent where
  /-- `data.u32`. -/
  data : ℕ
  /-- The socket that was ready. -/
  source : ℕ
  deriving DecidableEq, Repr

namespace TcpKernel

variable (k : TcpKernel)

/-- The open socket at a descriptor, if the descriptor is open at all. -/
def socketAt (fd : ℤ) : Option TcpSocket := k.sockets.lookup fd

/-- `data.u32` of the epoll registration of a descriptor: the slot number under which its events are
reported. -/
def registration (fd : ℤ) : Option ℕ := (k.socketAt fd).bind (·.slot)

/-- `socket` returns `fd`, and the new socket gets the next serial number. -/
def openSocket (fd : ℤ) : TcpKernel :=
  { k with sockets := k.sockets.insert fd { id := k.opened }, opened := k.opened + 1 }

/-- A call that changes the socket at a descriptor; a descriptor that is not open is left alone. -/
def update (fd : ℤ) (f : TcpSocket → TcpSocket) : TcpKernel :=
  match k.socketAt fd with
  | some s => { k with sockets := k.sockets.insert fd (f s) }
  | none => k

/-- `epoll_ctl` with `EPOLL_CTL_DEL`: no events of this descriptor are reported any more. -/
def unregister (fd : ℤ) : TcpKernel := k.update fd (TcpSocket.register none)

/-- `close`: the descriptor is free for the next `socket` call. -/
def close (fd : ℤ) : TcpKernel := { k with sockets := k.sockets.erase fd }

/-- After `socket`, the new descriptor is a fresh socket and the others are what they were. -/
@[simp] theorem socketAt_openSocket (fd : ℤ) :
    (k.openSocket fd).socketAt = Function.update k.socketAt fd (some { id := k.opened }) := by
  funext fd'
  by_cases hfd : fd' = fd
  · subst hfd
    rw [Function.update_self]
    exact AList.lookup_insert _
  · rw [Function.update_of_ne hfd]
    exact AList.lookup_insert_ne hfd

/-- After `close`, the descriptor is not open and the others are what they were. -/
@[simp] theorem socketAt_close (fd : ℤ) :
    (k.close fd).socketAt = Function.update k.socketAt fd none := by
  funext fd'
  by_cases hfd : fd' = fd
  · subst hfd
    rw [Function.update_self]
    exact AList.lookup_erase _ _
  · rw [Function.update_of_ne hfd]
    exact AList.lookup_erase_ne hfd

variable {k}

/-- A call that changes an open socket puts the changed one in its place. -/
theorem update_eq {fd : ℤ} {s : TcpSocket} (hs : k.socketAt fd = some s)
    (f : TcpSocket → TcpSocket) :
    k.update fd f = { k with sockets := k.sockets.insert fd (f s) } := by
  rw [update, hs]

/-- After such a call, the descriptor is the changed socket and the others are what they were. -/
theorem socketAt_update {fd : ℤ} {s : TcpSocket} (hs : k.socketAt fd = some s)
    (f : TcpSocket → TcpSocket) :
    (k.update fd f).socketAt = Function.update k.socketAt fd (some (f s)) := by
  rw [update_eq hs]
  funext fd'
  by_cases hfd : fd' = fd
  · subst hfd
    rw [Function.update_self]
    exact AList.lookup_insert _
  · rw [Function.update_of_ne hfd]
    exact AList.lookup_insert_ne hfd

variable (k)

/-- The registrations follow the sockets: where one socket changes, one registration may. -/
theorem registration_of_update {k' : TcpKernel} {fd : ℤ} {o : Option TcpSocket}
    (h : k'.socketAt = Function.update k.socketAt fd o) :
    k'.registration = Function.update k.registration fd (o.bind (·.slot)) := by
  funext fd'
  unfold registration
  rw [h]
  by_cases hfd : fd' = fd
  · subst hfd
    rw [Function.update_self, Function.update_self]
  · rw [Function.update_of_ne hfd, Function.update_of_ne hfd]

/-- Closing an unregistered descriptor is closing it, since `close` takes the registration along. -/
theorem close_unregister (fd : ℤ) : (k.unregister fd).close fd = k.close fd := by
  unfold unregister
  cases hs : k.socketAt fd with
  | none => rw [update, hs]
  | some s =>
    rw [update_eq hs, close, close]
    congr 1
    apply AList.ext
    exact List.kerase_cons_eq rfl

/-- Unregistering a descriptor does not change which socket it is, only whether it is reported. -/
theorem id_unregister (fd : ℤ) :
    ((k.unregister fd).socketAt fd).map (·.id) = (k.socketAt fd).map (·.id) := by
  unfold unregister
  cases hs : k.socketAt fd with
  | none => rw [update, hs, hs]
  | some s =>
    rw [socketAt_update hs, Function.update_self]
    rfl

/-- The event is one that `epoll_wait` can report: its socket is registered and ready. -/
def reports (ev : EpollEvent) : Bool :=
  k.sockets.entries.any fun e => e.2.id == ev.source && e.2.ready && e.2.slot == some ev.data

/-- `epoll_wait` has something to report, so that it does not time out. -/
def hasReady : Bool := k.sockets.entries.any fun e => e.2.ready && e.2.slot.isSome

end TcpKernel

/-! ### The kernel's answers -/

/-- The answer of `connect` on a non-blocking socket, as far as the source tells answers apart. -/
inductive ConnectResult where
  /-- It returned `0`. -/
  | connected
  /-- It failed with `EINPROGRESS`. -/
  | inProgress
  /-- It failed otherwise. -/
  | failed
  deriving DecidableEq, Repr

/-- The answer of `epoll_wait`. Which of the ready sockets it reports, and in which order, is the
kernel's choice. -/
inductive EpollResult where
  /-- Events were reported. -/
  | events (evs : List EpollEvent)
  /-- No event before the timeout. -/
  | timeout
  /-- The call failed. -/
  | failed
  deriving DecidableEq, Repr

/-! ### Traces and control points -/

/-- What a trace records. The source keeps no such history: statements about a run speak of it. -/
inductive TcpEvent where
  /-- The cursor passed an address of the local subnet itself. -/
  | skipped (ip : ℕ)
  /-- `socket` failed for the host. -/
  | socketFailed (ip : ℕ)
  /-- `fcntl` failed for the host. -/
  | fcntlFailed (ip : ℕ)
  /-- `connect` was called for the host on socket `id`. -/
  | connect (ip id : ℕ)
  /-- Socket `id` was registered and its probe recorded. -/
  | registered (ip id : ℕ) (sendTime : Timespec)
  /-- The connection attempt of socket `id` ended. -/
  | completed (id err : ℕ) (time : Timespec)
  /-- `epoll_wait` reported socket `id`. -/
  | reported (id : ℕ)
  /-- The event of socket `source` was handled at the active slot of `ip`: `id` is the socket at
  the entry's descriptor and `sockErr` the value of `sock_err`. -/
  | handled (source : ℕ) (id : Option ℕ) (ip sockErr : ℕ)
  /-- `close` was called and closed socket `id`, if any. -/
  | closed (id : Option ℕ)
  deriving DecidableEq, Repr

/-- The points of `initiate_single_connection` between its system calls, with the locals that are
alive there. -/
inductive Stage where
  /-- Before `fcntl`. -/
  | opened
  /-- Before `connect`. -/
  | nonblocking
  /-- Before `epoll_ctl`. -/
  | connecting
  deriving DecidableEq, Repr

/-- The points of `run()` and its callees between which the environment can act, each with the
locals that are alive there. -/
inductive TcpPc where
  /-- Before the test of the `while` loop. -/
  | loopHead
  /-- In `initiate_connections`, before the test of its loop. -/
  | initiate (initiated : ℕ)
  /-- In `initiate_single_connection`, which holds socket `sock` for `targetIp`. -/
  | single (stage : Stage) (initiated : ℕ) (slot : ℤ) (targetIp : ℕ) (sock : ℤ)
  /-- Before the `epoll_wait` of `poll_connections`. -/
  | poll
  /-- In the loop of `poll_connections`, with the events left. -/
  | handle (events : List EpollEvent)
  /-- Before `reap_timed_out_probes`. -/
  | reap
  /-- `run()` has returned. -/
  | returned
  /-- `run()` was left by an exception. -/
  | thrown
  /-- The destructor has run. -/
  | destroyed
  deriving DecidableEq, Repr

/-- The scanner in its environment: its table and locals, where it is in `run()`, the kernel's side
of its sockets, and what has happened so far. -/
structure TcpWorld where
  /-- The scanner. -/
  st : TcpState
  /-- Its control point. -/
  pc : TcpPc
  /-- The kernel. -/
  kernel : TcpKernel
  /-- The history. -/
  trace : List TcpEvent

/-- Steps of the environment, and steps of the scanner with what the environment answers. -/
inductive TcpLabel where
  /-- The clock moves to `now`. -/
  | tick (now : Timespec)
  /-- The connection attempt at descriptor `fd` ends; `err` is `0` if it succeeded. -/
  | complete (fd : ℤ) (err : ℕ)
  /-- The connection at descriptor `fd`, which had succeeded, breaks with the error `err`. -/
  | reset (fd : ℤ) (err : ℕ)
  /-- A step of the scanner in which the environment has nothing to decide. -/
  | run
  /-- A `socket` call; `none` when it fails. -/
  | socket (r : Option ℤ)
  /-- The `fcntl` calls. -/
  | fcntl (ok : Bool)
  /-- A `connect` call. -/
  | connect (r : ConnectResult)
  /-- An `epoll_ctl` call that adds a socket. -/
  | epollAdd (ok : Bool)
  /-- An `epoll_wait` call. -/
  | epollWait (r : EpollResult)
  /-- One turn of the loop of `poll_connections` at an active slot: `errno` unless `getsockopt`
  succeeds, the resolver's answer and the callback's behaviour. -/
  | event (getsockopt : Option ℕ) (dns : Option String) (throws : Bool)
  deriving DecidableEq, Repr

/-- The environment's own steps, which can come between any two steps of the scanner. -/
def TcpLabel.isEnv : TcpLabel → Bool
  | .tick _ | .complete _ _ | .reset _ _ => true
  | _ => false

/-- The control points after the end of `run()`: returned, left by an exception, or destroyed after
either. -/
def TcpPc.isFinal : TcpPc → Bool
  | .returned | .thrown | .destroyed => true
  | _ => false

namespace TcpScanner

/-- `close(fd)`, with a record of the socket that it closed, if the descriptor was open. -/
def closeSock (fd : ℤ) (w : TcpWorld) : TcpWorld :=
  { w with
    kernel := w.kernel.close fd
    trace := w.trace ++ [.closed ((w.kernel.socketAt fd).map (·.id))] }

/-- The end of the probe at a slot, as `poll_connections` and `reap_timed_out_probes` write it:
unregister its socket, close it, free the slot. -/
def retireProbe (slot : ℕ) (w : TcpWorld) : TcpWorld :=
  let sock := (probeAt w.st slot).sock
  let w := closeSock sock { w with kernel := w.kernel.unregister sock }
  { w with st := retire slot w.st }

/-- Unregistering a socket that is closed next leaves no trace, so the end of a probe is one
close. -/
theorem retireProbe_eq (slot : ℕ) (w : TcpWorld) :
    retireProbe slot w = { closeSock (probeAt w.st slot).sock w with st := retire slot w.st } := by
  simp only [retireProbe, closeSock, TcpKernel.close_unregister, TcpKernel.id_unregister]

variable (P : TcpScanner)

/-- `sock_err` of `poll_connections`, from the answer of `getsockopt` and the socket at the
descriptor: the call can only succeed on an open descriptor, and `errno` is positive when it
fails. -/
def readSockErr (getsockopt : Option ℕ) (socket : Option TcpSocket) : Option ℕ :=
  match getsockopt with
  | none => socket.map (·.soError)
  | some errno => if errno = 0 then none else some errno

/-- The loop body of `reap_timed_out_probes`: an overdue probe is retired, any other one is left
alone. -/
def reapSlot (now : Timespec) (w : TcpWorld) (slot : ℕ) : TcpWorld :=
  if P.Overdue now (probeAt w.st slot) then retireProbe slot w else w

/-- `reap_timed_out_probes`, at the clock value `now`, which the source reads once before the loop
over all slots. -/
def reapTimedOutProbes (now : Timespec) (w : TcpWorld) : TcpWorld :=
  (List.range w.st.probeTable.length).foldl (P.reapSlot now) w

/-- The loop body of the destructor: the socket of an active entry is closed. -/
def destroySlot (w : TcpWorld) (probe : TcpProbeInfo) : TcpWorld :=
  if probe.active ∧ probe.sock ≥ 0 then closeSock probe.sock w else w

/-- `~TcpScanner`: what is still active after an exception is closed here. -/
def destroy (w : TcpWorld) : TcpWorld := w.st.probeTable.foldl destroySlot w

/-! ### The transition function -/

/-- Steps without an answer of the environment: the tests of the loops, the skipped hosts, stale
events and the reap. -/
def runStep (w : TcpWorld) : Option TcpWorld :=
  match w.pc with
  | .loopHead =>
    -- the test of the `while` loop of `run()`
    if w.st.nextHostIdx < P.totalHosts ∨ w.st.activeProbes > 0 then
      some { w with pc := .initiate 0 }
    else some { w with pc := .returned }
  | .initiate initiated =>
    if P.Initiates w.st initiated then
      if P.skipsLocal (P.targetIp w.st) then
        some { w with
          st := { w.st with nextHostIdx := w.st.nextHostIdx + 1 }
          pc := .initiate (initiated + 1)
          trace := w.trace ++ [.skipped (P.targetIp w.st)] }
      -- no free slot: `initiate_single_connection` returns false and the loop is left
      else if findSlot w.st = -1 then some { w with pc := .poll }
      else none
    else some { w with pc := .poll }
  -- a negative `max_events` is no size of a vector
  | .poll => if P.maxEvents < 0 then some { w with pc := .thrown } else none
  | .handle [] => some { w with pc := .reap }
  | .handle (ev :: events) =>
    if ev.data ≥ w.st.probeTable.length ∨ (probeAt w.st ev.data).active = false then
      some { w with pc := .handle events }
    else none
  | .reap => some { P.reapTimedOutProbes w.kernel.clock w with pc := .loopHead }
  | .returned | .thrown => some { destroy w with pc := .destroyed }
  | _ => none

/-- The `socket` call of `initiate_single_connection`. The host is taken before the call, so the
cursor has advanced on every path that returns true, and `initiated` counts all of these. -/
def socketStep (r : Option ℤ) (w : TcpWorld) : Option TcpWorld :=
  match w.pc with
  | .initiate initiated =>
    let targetIp := P.targetIp w.st
    let slot := findSlot w.st
    if P.Initiates w.st initiated ∧ P.skipsLocal targetIp = false ∧ slot ≠ -1 then
      let st := { w.st with nextHostIdx := w.st.nextHostIdx + 1 }
      match r with
      | none =>
        some { w with
          st := st
          pc := .initiate (initiated + 1)
          trace := w.trace ++ [.socketFailed targetIp] }
      | some fd =>
        -- the kernel returns a number that is not in use
        if 0 ≤ fd ∧ w.kernel.socketAt fd = none then
          some { w with
            st := st
            pc := .single .opened initiated slot targetIp fd
            kernel := w.kernel.openSocket fd }
        else none
    else none
  | _ => none

/-- The `fcntl` calls, the second of which makes the socket non-blocking. If one fails, the socket
is closed and the host is given up. -/
def fcntlStep (ok : Bool) (w : TcpWorld) : Option TcpWorld :=
  match w.pc with
  | .single .opened initiated slot targetIp sock =>
    if ok then some { w with pc := .single .nonblocking initiated slot targetIp sock }
    else
      let w := closeSock sock w
      some { w with
        pc := .initiate (initiated + 1)
        trace := w.trace ++ [.fcntlFailed targetIp] }
  | _ => none

/-- The `connect` call. An attempt that succeeds at once goes on like one in progress; any other
failure closes the socket and gives the host up. -/
def connectStep (r : ConnectResult) (w : TcpWorld) : Option TcpWorld :=
  match w.pc with
  | .single .nonblocking initiated slot targetIp sock =>
    match w.kernel.socketAt sock with
    | none => none
    | some s =>
      let trace := w.trace ++ [.connect targetIp s.id]
      match r with
      | .connected =>
        some { w with
          pc := .single .connecting initiated slot targetIp sock
          kernel := w.kernel.update sock (.connect targetIp (.done 0 w.kernel.clock))
          trace := trace ++ [.completed s.id 0 w.kernel.clock] }
      | .inProgress =>
        some { w with
          pc := .single .connecting initiated slot targetIp sock
          kernel := w.kernel.update sock (.connect targetIp .pending)
          trace := trace }
      | .failed =>
        some { closeSock sock { w with trace := trace } with pc := .initiate (initiated + 1) }
  | _ => none

/-- The `epoll_ctl` call that registers the socket under its slot number, and the end of
`initiate_single_connection`. -/
def epollAddStep (ok : Bool) (w : TcpWorld) : Option TcpWorld :=
  match w.pc with
  | .single .connecting initiated slot targetIp sock =>
    match w.kernel.socketAt sock with
    | none => none
    | some s =>
      if ok then
        some { w with
          st := claimSlot slot.toNat sock targetIp w.kernel.clock w.st
          pc := .initiate (initiated + 1)
          kernel := w.kernel.update sock (.register (some (u32 slot.toNat)))
          trace := w.trace ++ [.registered targetIp s.id w.kernel.clock] }
      else some { closeSock sock w with pc := .initiate (initiated + 1) }
  | _ => none

/-- The `epoll_wait` call of `poll_connections`: it reports at most `max_events` registered ready
sockets, each once, and fails if `max_events` is not positive. -/
def epollWaitStep (r : EpollResult) (w : TcpWorld) : Option TcpWorld :=
  match w.pc with
  | .poll =>
    if P.maxEvents < 0 then none
    else
      match r with
      | .events evs =>
        if evs ≠ [] ∧ evs.length ≤ P.maxEvents ∧ (evs.map (·.source)).Nodup ∧
            evs.all w.kernel.reports then
          some { w with
            pc := .handle evs
            trace := w.trace ++ evs.map fun ev => .reported ev.source }
        else none
      | .timeout =>
        if 0 < P.maxEvents ∧ w.kernel.hasReady = false then some { w with pc := .reap } else none
      | .failed => some { w with pc := .reap }
  | _ => none

/-- One turn of the loop of `poll_connections` at an active slot: read `SO_ERROR`, report the host
if it is `0`, retire the probe. -/
def eventStep (getsockopt : Option ℕ) (dns : Option String) (throws : Bool) (w : TcpWorld) :
    Option TcpWorld :=
  match w.pc with
  | .handle (ev :: events) =>
    let slot := ev.data
    let probe := probeAt w.st slot
    if slot < w.st.probeTable.length ∧ probe.active = true then
      let socket := w.kernel.socketAt probe.sock
      match readSockErr getsockopt socket with
      | none => none
      | some sockErr =>
        let w := { w with
          trace := w.trace ++ [.handled ev.source (socket.map (·.id)) probe.destIp sockErr] }
        let w := retireProbe slot w
        if sockErr = 0 then
          let out := P.report throws (P.probeResult w.kernel.clock dns probe) w.st
          some { w with st := out.1, pc := if out.2 then .thrown else .handle events }
        else some { w with pc := .handle events }
    else none
  | _ => none

/-- The transition function of `run()` in its environment. A label that does not fit the control
point has no step. -/
def step : LabelledSystem.System TcpWorld TcpLabel := fun w l =>
  match l with
  | .tick now => some { w with kernel := { w.kernel with clock := now } }
  | .complete fd err =>
    match w.kernel.socketAt fd with
    | none => none
    | some s =>
      if s.status = .pending then
        some { w with
          kernel := w.kernel.update fd (.finish err w.kernel.clock)
          trace := w.trace ++ [.completed s.id err w.kernel.clock] }
      else none
  | .reset fd err =>
    match w.kernel.socketAt fd with
    | none => none
    | some s =>
      if 0 < err ∧ s.connected = true then
        some { w with kernel := w.kernel.update fd (.breakOff err) }
      else none
  | .run => P.runStep w
  | .socket r => P.socketStep r w
  | .fcntl ok => fcntlStep ok w
  | .connect r => connectStep r w
  | .epollAdd ok => epollAddStep ok w
  | .epollWait r => P.epollWaitStep r w
  | .event getsockopt dns throws => P.eventStep getsockopt dns throws w

/-- The first loop head of a call of `run()` on the object `s`, with no socket open. -/
def start (s : TcpState) (clock : Timespec) : TcpWorld :=
  { st := beginRun s, pc := .loopHead, kernel := { clock := clock }, trace := [] }

/-- The clock does not go back: a `tick` moves it to a value that is not before the last one. -/
def ClockForward (w : TcpWorld) (l : TcpLabel) : Prop :=
  ∀ now, l = .tick now → w.kernel.clock.ns ≤ now.ns

instance (w : TcpWorld) : (l : TcpLabel) → Decidable (ClockForward w l)
  | .tick now => decidable_of_iff (w.kernel.clock.ns ≤ now.ns)
      ⟨fun h _ hl => by cases hl; exact h, fun h => h now rfl⟩
  | .complete _ _ | .reset _ _ | .run | .socket _ | .fcntl _ | .connect _ | .epollAdd _
  | .epollWait _ | .event _ _ _ => isTrue fun _ h => nomatch h

end TcpScanner

end Netscan
