import Netscan.Lib.LabelledSystem
import Netscan.Ping.Scanner

/-! # `PingScanner::run` against the kernel

`run()` and the functions it calls, as a labelled transition system. A `PingWorld` is the scanner's
state, the point its control has reached, the kernel's side of the socket (clock, receive queue,
edge-triggered readiness) and the trace of what happened so far. The clock can move and datagrams
can arrive between any two steps of the scanner, so a label list is one interleaving of the two.
The trace is a history variable: nothing in the scanner reads it. -/

namespace Netscan

open MachineInt

/-! ### The kernel's answers -/

/-- The answer of one `sendmmsg` call: how many messages the kernel takes, or the error of the first
one. -/
inductive SendResult where
  /-- The first `count` messages were accepted. -/
  | sent (count : ℕ)
  /-- No message was accepted; `errno` is `0` when the call returned `0`. -/
  | error (errno : ℕ)
  deriving DecidableEq, Repr

/-- `EAGAIN`, which on Linux is also `EWOULDBLOCK`: the socket has no room. It is the one error that
`flush_send_queue` waits out. -/
def eagain : ℕ := 11

/-- The text that `flush_send_queue` prints for an error of `sendmmsg`. Only two errors have a text
of their own. -/
def sendErrorText (errno : ℕ) : String :=
  if errno = 13 then "Permission denied"
  else if errno = 9 then "Bad file descriptor"
  else if errno = 14 then "Bad address"
  else if errno = 22 then "Invalid argument"
  else if errno = 12 then "Out of memory"
  else if errno = 88 then "Socket operation on non-socket"
  else if errno = 90 then "Message too long"
  else if errno = 105 then "No buffer space available"
  else "System error"

/-- The answer of one `epoll_wait` call of `wait_for_socket_writable`, whose loop goes on after a
signal and after an event that is not the one it waits for. -/
inductive WaitResult where
  /-- The call failed with `EINTR`. -/
  | interrupted
  /-- The call failed otherwise. -/
  | failed
  /-- No event before the timeout. -/
  | timedOut
  /-- An event, with `EPOLLOUT` or with one of `EPOLLERR` and `EPOLLHUP`. -/
  | event (out err : Bool)
  deriving DecidableEq, Repr

/-- How `wait_for_socket_writable` ends: with a socket that has room, without one, or by an
exception. -/
inductive WaitOutcome where
  /-- It returns true. -/
  | writable
  /-- It returns false. -/
  | notWritable
  /-- It throws. -/
  | threw
  deriving DecidableEq, Repr

/-- The loop of `wait_for_socket_writable` on the answers of `epoll_wait`, which is called with
`timeoutMs`; `none` when the answers run out before the loop ends, or are not possible. -/
def waitLoop (timeoutMs : ℤ) : List WaitResult → Option WaitOutcome
  | [] => none
  | .interrupted :: rest => waitLoop timeoutMs rest
  | .failed :: _ => some .threw
  -- with a negative timeout `epoll_wait` blocks until there is an event
  | .timedOut :: _ => if timeoutMs < 0 then none else some .notWritable
  | .event out err :: rest =>
    if out then some .writable else if err then some .notWritable else waitLoop timeoutMs rest

/-- `wait_for_socket_writable`: `modOut` and `modIn` say whether the two `epoll_ctl` calls that
register for writability and back succeed. The `int` that `epoll_wait` is given is negative when
`timeout_ms_` is `2 ^ 31` or more. -/
def PingScanner.waitForSocketWritable (P : PingScanner) (modOut modIn : Bool)
    (waits : List WaitResult) : Option WaitOutcome :=
  if !modOut then some .threw
  else
    match waitLoop (toInt32 P.timeoutMs) waits with
    | none => none
    | some .threw => some .threw
    | some outcome => if modIn then some outcome else some .threw

/-- The answer of the `epoll_wait` call of `receive_responses`, which returns without reading unless
it is `EPOLLIN`. -/
inductive PollResult where
  /-- An event with `EPOLLIN`. -/
  | ready
  /-- No event, or one without `EPOLLIN`. -/
  | timeout
  /-- The call failed. -/
  | failed
  deriving DecidableEq, Repr

/-- The kernel's side of the ping socket. `rxEdge` says that the socket became readable since the
edge-triggered registration last reported it. -/
structure PingKernel where
  /-- `CLOCK_REALTIME`. -/
  clock : Timespec
  /-- Unread datagrams, oldest first. -/
  rxQueue : List Datagram
  /-- Unreported readiness. -/
  rxEdge : Bool
  deriving Repr

/-! ### Traces -/

/-- What a trace records. The source keeps no such history: statements about a run speak of it. -/
inductive PingEvent where
  /-- The cursor passed a host, which was in `found_ips_cache_` or not. -/
  | reached (hostIdx : ℕ) (found : Bool)
  /-- The kernel accepted the request to `ip`; `sendTime` is the time recorded for its probe and
  `began` the time of the `sendmmsg` call. -/
  | accepted (ip : ℕ) (sendTime began : Timespec)
  /-- `sendmmsg` failed and the error was printed. -/
  | sendError (errno : ℕ) (text : String)
  /-- A datagram entered the receive queue. -/
  | arrived (d : Datagram) (time : Timespec)
  /-- The scanner saw the receive queue empty: `epoll_wait` reported nothing, or `recvmmsg` returned
  less than a full batch. -/
  | looked
  /-- `recvmmsg` failed. -/
  | recvError
  /-- A received datagram was handled. -/
  | handled (d : Datagram)
  /-- The reply just handled was accepted; `held` says whether its host still held a slot. -/
  | answered (ip : ℕ) (held : Bool)
  /-- The probe of `ip` was reaped at the clock value `now`. -/
  | expired (ip : ℕ) (sendTime now : Timespec)
  deriving DecidableEq, Repr

/-- The points of `run()` and its callees between which the environment can act, each with the
locals that are alive there. -/
inductive PingPc where
  /-- Before the test of the `while` loop. -/
  | loopHead
  /-- Before `send_batch`. -/
  | sendBatch
  /-- In `flush_send_queue`, before the test of its loop. -/
  | flush (batchCount sentTotal : ℕ)
  /-- In `wait_for_socket_writable`. -/
  | waitWritable (batchCount sentTotal : ℕ)
  /-- In the rollback of `flush_send_queue`, before the test of its loop. -/
  | rollback (batchCount sentTotal i : ℕ)
  /-- Before the `epoll_wait` of `receive_responses`. -/
  | receive
  /-- Before `recvmmsg`. -/
  | drain
  /-- In the message loop, with the messages left; `full` says that `recvmmsg` filled its batch. -/
  | handle (batch : List Datagram) (full : Bool)
  /-- Before `reap_timed_out_probes`. -/
  | reap
  /-- `run()` has returned. -/
  | returned (sendFailed : Bool)
  /-- `run()` was left by an exception. -/
  | thrown
  deriving DecidableEq, Repr

/-- The scanner in its environment: its members and locals, where it is in `run()`, the kernel's
side of its socket, and what has happened so far. -/
structure PingWorld where
  /-- The scanner. -/
  st : PingState
  /-- Its control point. -/
  pc : PingPc
  /-- The kernel. -/
  kernel : PingKernel
  /-- The history. -/
  trace : List PingEvent
  deriving Repr

/-- Steps of the environment, and steps of the scanner with what the environment answers. -/
inductive PingLabel where
  /-- The clock moves to `now`. -/
  | tick (now : Timespec)
  /-- A datagram enters the receive queue. -/
  | arrive (d : Datagram)
  /-- A step of the scanner in which the environment has nothing to decide. -/
  | run
  /-- A `sendmmsg` call. -/
  | sendmmsg (r : SendResult)
  /-- A call of `wait_for_socket_writable`. -/
  | wait (modOut modIn : Bool) (waits : List WaitResult)
  /-- The `epoll_wait` call of `receive_responses`. -/
  | epollWait (r : PollResult)
  /-- A `recvmmsg` call, which may fail. -/
  | recvmmsg (fails : Bool)
  /-- One turn of the message loop, with the resolver's answer and the callback's behaviour. -/
  | message (dns : Option String) (throws : Bool)
  deriving DecidableEq, Repr

/-- The environment's own steps, which can come between any two steps of the scanner. -/
def PingLabel.isEnv : PingLabel → Bool
  | .tick _ | .arrive _ => true
  | _ => false

/-- The control points after the end of `run()`: it has returned, or it was left by an exception. -/
def PingPc.isFinal : PingPc → Bool
  | .returned _ | .thrown => true
  | _ => false

namespace PingScanner

variable (P : PingScanner)

/-! ### What a step adds to the trace -/

/-- The hosts that the cursor passed between two states, with what `found_ips_cache_` knew of each
of them at that time. -/
def reachedEvents (s s' : PingState) : List PingEvent :=
  (List.range' s.nextHostIdx (s'.nextHostIdx - s.nextHostIdx)).map fun h =>
    .reached h (isHostFound s (u32 (P.baseIp + u32 h)))

/-- The requests that one `sendmmsg` call accepted, each with the time recorded in its slot and the
time of the call. -/
def acceptedEvents (s : PingState) (clock : Timespec) (sentTotal count : ℕ) : List PingEvent :=
  (List.range' sentTotal count).map fun i =>
    .accepted (s.sendAddrs.getD i 0) (probeAt s (s.sendProbeSlots.getD i (-1)).toNat).sendTime clock

/-- Whether the host of a reply still holds an active slot, as it does unless it was reaped
before. -/
def holdsSlot (s : PingState) (ip : ℕ) : Bool :=
  let slot := slotOfHost s (P.hostIndexForIp ip).toNat
  slot ≥ 0 && (probeAt s slot.toNat).active

/-- The handling of one datagram, and whether it was accepted as the answer of its host. -/
def messageEvents (d : Datagram) (s s' : PingState) : List PingEvent :=
  .handled d ::
    if s.foundIpsCache.length < s'.foundIpsCache.length then
      [.answered d.payload.targetIp (P.holdsSlot s d.payload.targetIp)]
    else []

/-- The probes that were reaped between two states: the slots that are active in the first one and
free in the second. -/
def expiredEvents (now : Timespec) (s s' : PingState) : List PingEvent :=
  (List.range s.probeTable.length).filterMap fun i =>
    if (probeAt s i).active && !(probeAt s' i).active then
      some (.expired (probeAt s i).destIp (probeAt s i).sendTime now)
    else none

/-! ### The transition function -/

/-- Steps without an answer of the environment: the tests of the loops, the batch that is populated,
the rollback slot by slot, and the reap. -/
def runStep (w : PingWorld) : Option PingWorld :=
  match w.pc with
  | .loopHead =>
    -- the test of the `while` loop of `run()`
    if w.st.nextHostIdx < P.totalHosts ∨ w.st.activeProbes > 0 then
      some { w with pc := .sendBatch }
    else some { w with pc := .returned false }
  | .sendBatch =>
    -- `send_batch`: read the clock, populate, and flush unless the batch is empty
    let out := P.populateBatchEntries w.kernel.clock w.st
    some { w with
      st := out.1
      pc := if out.2 = 0 then .receive else .flush out.2 0
      trace := w.trace ++ P.reachedEvents w.st out.1 }
  | .flush batchCount sentTotal =>
    -- the loop of `flush_send_queue` is done: forget the slots of the batch, return true
    if sentTotal < batchCount then none
    else some { w with
      st := { w.st with
        sendProbeSlots :=
          w.st.sendProbeSlots.mapIdx fun i slot => if i < batchCount then -1 else slot }
      pc := .receive }
  | .rollback batchCount sentTotal i =>
    if i < batchCount then
      let s := P.releaseProbeSlot (w.st.sendProbeSlots.getD i (-1)) w.st
      some { w with
        st := { s with sendProbeSlots := s.sendProbeSlots.set i (-1) }
        pc := .rollback batchCount sentTotal (i + 1) }
    else
      -- rewind the cursor, return false: `run()` leaves its loop
      some { w with
        st := { w.st with nextHostIdx := subU64 w.st.nextHostIdx (batchCount - sentTotal) }
        pc := .returned true }
  | .handle [] full => some { w with pc := if full then .drain else .reap }
  | .reap =>
    let s := P.reapTimedOutProbes w.kernel.clock w.st
    some { w with
      st := s
      pc := .loopHead
      trace := w.trace ++ expiredEvents w.kernel.clock w.st s }
  | _ => none

/-- One `sendmmsg` call of `flush_send_queue` and what the function does with its answer: go on,
wait for room, or roll the rest of the batch back. -/
def sendmmsgStep (r : SendResult) (w : PingWorld) : Option PingWorld :=
  match w.pc with
  | .flush batchCount sentTotal =>
    if sentTotal < batchCount then
      match r with
      | .sent count =>
        if 0 < count ∧ count ≤ batchCount - sentTotal then
          some { w with
            pc := .flush batchCount (sentTotal + count)
            trace := w.trace ++ acceptedEvents w.st w.kernel.clock sentTotal count }
        else none
      | .error errno =>
        if errno = eagain then
          some { w with
            st := { w.st with txDrops := u32 (w.st.txDrops + 1) }
            pc := .waitWritable batchCount sentTotal }
        else
          some { w with
            pc := .rollback batchCount sentTotal sentTotal
            trace := w.trace ++ [.sendError errno (sendErrorText errno)] }
    else none
  | _ => none

/-- A call of `wait_for_socket_writable` and what `flush_send_queue` does with its outcome. The last
`epoll_ctl` call re-arms the registration for input. -/
def waitStep (modOut modIn : Bool) (waits : List WaitResult) (w : PingWorld) : Option PingWorld :=
  match w.pc with
  | .waitWritable batchCount sentTotal =>
    match P.waitForSocketWritable modOut modIn waits with
    | none => none
    | some .threw => some { w with pc := .thrown }
    | some outcome =>
      some { w with
        pc :=
          if outcome = .writable then .flush batchCount sentTotal
          else .rollback batchCount sentTotal sentTotal
        kernel := { w.kernel with rxEdge := !w.kernel.rxQueue.isEmpty } }
  | _ => none

/-- The `epoll_wait` call of `receive_responses`: an edge is reported if the queue is not empty. -/
def epollWaitStep (r : PollResult) (w : PingWorld) : Option PingWorld :=
  match w.pc with
  | .receive =>
    let readable := w.kernel.rxEdge && !w.kernel.rxQueue.isEmpty
    match r with
    | .ready =>
      if readable then
        some { w with pc := .drain, kernel := { w.kernel with rxEdge := false } }
      else none
    | .timeout =>
      if readable then none
      else some { w with
        pc := .reap
        kernel := { w.kernel with rxEdge := false }
        trace := w.trace ++ [.looked] }
    | .failed => some { w with pc := .reap }
  | _ => none

/-- A `recvmmsg` call of `receive_responses`: it takes as many datagrams as fit its batch. -/
def recvmmsgStep (fails : Bool) (w : PingWorld) : Option PingWorld :=
  match w.pc with
  | .drain =>
    if fails then some { w with pc := .reap, trace := w.trace ++ [.recvError] }
    else
      let recvd := min P.recvBatchSize w.kernel.rxQueue.length
      let trace := if recvd < P.recvBatchSize then w.trace ++ [.looked] else w.trace
      -- `EAGAIN`, or a call for no message at all, ends the loop
      if recvd = 0 then some { w with pc := .reap, trace := trace }
      else some { w with
        pc := .handle ((w.kernel.rxQueue.take recvd).map Datagram.received)
          (!decide (recvd < P.recvBatchSize))
        kernel := { w.kernel with rxQueue := w.kernel.rxQueue.drop recvd }
        trace := trace }
  | _ => none

/-- One turn of the message loop of `receive_responses`, on the oldest message of the batch. An
exception of the callback leaves `run()`. -/
def messageStep (dns : Option String) (throws : Bool) (w : PingWorld) : Option PingWorld :=
  match w.pc with
  | .handle (d :: batch) full =>
    let out := P.receiveMessage w.kernel.clock dns throws d w.st
    some { w with
      st := out.1
      pc := if out.2 then .thrown else .handle batch full
      trace := w.trace ++ P.messageEvents d w.st out.1 }
  | _ => none

/-- The transition function of `run()` in its environment. A label that does not fit the control
point has no step. -/
def step : LabelledSystem.System PingWorld PingLabel := fun w l =>
  match l with
  | .tick now => some { w with kernel := { w.kernel with clock := now } }
  | .arrive d =>
    some { w with
      kernel := { w.kernel with rxQueue := w.kernel.rxQueue ++ [d], rxEdge := true }
      trace := w.trace ++ [.arrived d w.kernel.clock] }
  | .run => P.runStep w
  | .sendmmsg r => sendmmsgStep r w
  | .wait modOut modIn waits => P.waitStep modOut modIn waits w
  | .epollWait r => epollWaitStep r w
  | .recvmmsg fails => P.recvmmsgStep fails w
  | .message dns throws => P.messageStep dns throws w

/-- The first loop head of a call of `run()` on the object `s` with the kernel in state `k`. -/
def start (s : PingState) (k : PingKernel) : PingWorld :=
  { st := beginRun s, pc := .loopHead, kernel := k, trace := [] }

end PingScanner

end Netscan
