import Netscan.Lib.ByteMemory
import Netscan.Lib.LabelledSystem
import Netscan.Utils.Interface

/-! # The ARP table: `get_arp_table` on its netlink socket

`get_arp_table`, `parse_netlink_message` and `parse_netlink_attributes` as one transition system.
An `ArpCall` is one call of `get_arp_table`: the point its control has reached, the receive buffer,
the datagrams that wait in the socket and the entries collected so far. The walk over a datagram
takes one step for each test of a loop, because the lengths it follows come out of the datagram and
nothing says in advance that it ends. `ArpCall.reads` is a history variable: what the walk has
read. -/

namespace Netscan

open MachineInt

/-- `ArpEntry`, one line of the table that `get_arp_table` fills. -/
structure ArpEntry where
  /-- The address. -/
  ip : ℕ
  /-- The hardware address. -/
  macAddress : String
  /-- The interface's index. -/
  interfaceIndex : ℤ
  /-- The interface's name. -/
  ifaceName : String
  deriving DecidableEq, Repr

/-! ### Constants and macros of the kernel's headers -/

/-- `NLMSG_ERROR`. -/
def nlmsgError : ℕ := 2

/-- `NLMSG_DONE`. -/
def nlmsgDone : ℕ := 3

/-- `RTM_NEWNEIGH`. -/
def rtmNewneigh : ℕ := 28

/-- `RTM_GETNEIGH`. -/
def rtmGetneigh : ℕ := 30

/-- `NDA_DST`. -/
def ndaDst : ℕ := 1

/-- `NDA_LLADDR`. -/
def ndaLladdr : ℕ := 2

/-- `NUD_INCOMPLETE`. -/
def nudIncomplete : ℕ := 1

/-- `sizeof(struct nlmsghdr)`. -/
def nlmsgHdrlen : ℕ := 16

/-- `sizeof(struct ndmsg)`. -/
def ndmsgSize : ℕ := 12

/-- `sizeof(struct rtattr)`. -/
def rtattrSize : ℕ := 4

/-- `rx_buf_size` of `get_arp_table`; a datagram that is longer is cut off there. -/
def rxBufSize : ℕ := 65536

/-- `NLMSG_ALIGN` and `RTA_ALIGN`, in 32-bit words: round up to a multiple of four, with a wrap at
the end of the range. -/
def align4 (n : ℕ) : ℕ := u32 (n + 3) / 4 * 4

/-- `hdr->nlmsg_len` of the message at `hdr`: what the message says its length is. -/
def nlmsgLen (buf : ByteMemory) (hdr : ℕ) : ℕ := buf.uint hdr 4

/-- `hdr->nlmsg_type`. -/
def nlmsgType (buf : ByteMemory) (hdr : ℕ) : ℕ := buf.uint (hdr + 4) 2

/-- `NLMSG_OK`: a header is there, and the length that it states is at least its own and at most
what remains. -/
def NlmsgOk (buf : ByteMemory) (hdr remaining : ℕ) : Prop :=
  nlmsgHdrlen ≤ remaining ∧ nlmsgHdrlen ≤ nlmsgLen buf hdr ∧ nlmsgLen buf hdr ≤ remaining

instance (buf : ByteMemory) (hdr remaining : ℕ) : Decidable (NlmsgOk buf hdr remaining) :=
  inferInstanceAs (Decidable (_ ∧ _ ∧ _))

/-- `ndm->ndm_family` of the message at `hdr`, the first byte behind its header. -/
def ndmFamily (buf : ByteMemory) (hdr : ℕ) : ℕ := buf.uint (hdr + nlmsgHdrlen) 1

/-- `ndm->ndm_ifindex`. -/
def ndmIfindex (buf : ByteMemory) (hdr : ℕ) : ℤ := toInt32 (buf.uint (hdr + nlmsgHdrlen + 4) 4)

/-- `ndm->ndm_state`. -/
def ndmState (buf : ByteMemory) (hdr : ℕ) : ℕ := buf.uint (hdr + nlmsgHdrlen + 8) 2

/-- `err->error` of the message at `hdr`, a negated `errno` or zero. -/
def nlmsgerrError (buf : ByteMemory) (hdr : ℕ) : ℤ := toInt32 (buf.uint (hdr + nlmsgHdrlen) 4)

/-- `rta->rta_len` of the attribute at `rta`: what the attribute says its length is. -/
def rtaLenAt (buf : ByteMemory) (rta : ℕ) : ℕ := buf.uint rta 2

/-- `rta->rta_type`. -/
def rtaType (buf : ByteMemory) (rta : ℕ) : ℕ := buf.uint (rta + 2) 2

/-- `RTA_OK`: the test of `NLMSG_OK` for an attribute and what remains of its message. -/
def RtaOk (buf : ByteMemory) (rta rtaLen : ℕ) : Prop :=
  rtattrSize ≤ rtaLen ∧ rtattrSize ≤ rtaLenAt buf rta ∧ rtaLenAt buf rta ≤ rtaLen

instance (buf : ByteMemory) (rta rtaLen : ℕ) : Decidable (RtaOk buf rta rtaLen) :=
  inferInstanceAs (Decidable (_ ∧ _ ∧ _))

/-- `RTA_DATA`: the value of an attribute lies behind its header. -/
def rtaData (rta : ℕ) : ℕ := rta + rtattrSize

/-- `RTA_PAYLOAD`, of an attribute whose length is at least that of its header. -/
def rtaPayload (buf : ByteMemory) (rta : ℕ) : ℕ := rtaLenAt buf rta - rtattrSize

/-- The first value of `rta_len` in `parse_netlink_message`: nothing there says that the message is
long enough for the subtraction. -/
def attributesLen (buf : ByteMemory) (hdr : ℕ) : ℕ :=
  subU32 (nlmsgLen buf hdr) (nlmsgHdrlen + ndmsgSize)

/-! ### Texts -/

/-- `mac_byte_count`. -/
def macByteCount : ℕ := 6

/-- `mac_str_len`. -/
def macStrLen : ℕ := 18

/-- A lower-case hexadecimal digit, as `%x` prints it. -/
def hexDigit (n : ℕ) : Char := if n < 10 then Char.ofNat (48 + n) else Char.ofNat (87 + n)

/-- `%02x`: two digits for a byte, the high one first. -/
def hexByte (b : UInt8) : List Char := [hexDigit (b.toNat / 16), hexDigit (b.toNat % 16)]

/-- The text of a hardware address: its bytes in hexadecimal, separated by colons. -/
def macText (mac : List UInt8) : String := String.ofList ([':'].intercalate (mac.map hexByte))

/-- The initial value of `mac` in `parse_netlink_message`, which also stands for a neighbour without
a hardware address. -/
def noMac : String := "00:00:00:00:00:00"

/-- `err_str`: the text for an error of the kernel. Two of them have one of their own. -/
def netlinkErrStr (netlinkErrno : ℤ) : String :=
  if netlinkErrno = 13 then "Permission denied"
  else if netlinkErrno = 9 then "Bad file descriptor"
  else if netlinkErrno = 14 then "Bad address"
  else if netlinkErrno = 22 then "Invalid argument"
  else if netlinkErrno = 12 then "Out of memory"
  else if netlinkErrno = 1 then "Operation not permitted"
  else "System error"

/-- What is written to `stderr` about an error message, with the error's text and number. -/
def netlinkErrorText (netlinkErrno : ℤ) : String :=
  let errStr := netlinkErrStr netlinkErrno
  s!"Netlink error: errno={netlinkErrno} ({errStr})\n"

/-- What is written to `stderr` about a datagram that does not fit the buffer. -/
def truncatedText : String := "Netlink response was truncated\n"

/-- The request for the whole neighbour table: an `nlmsghdr` with `NLM_F_REQUEST | NLM_F_DUMP` and
an `ndmsg`. -/
def dumpRequest : List UInt8 :=
  leBytes 4 (nlmsgHdrlen + ndmsgSize) ++ leBytes 2 rtmGetneigh ++ leBytes 2 769 ++
    List.replicate 8 0 ++ leBytes 1 afInet ++ List.replicate 11 0

/-! ### A call and its control points -/

/-- A read of the walk: `width` bytes from `first` on, and as part of which message, attribute or
value the code reads them. -/
inductive ArpRead where
  /-- Of a message: its header, its `ndmsg` or its `nlmsgerr`. -/
  | message (first width : ℕ)
  /-- Of the header of an attribute of the message at `hdr`. -/
  | attribute (hdr first width : ℕ)
  /-- Of the value of the attribute at `rta`. -/
  | value (hdr rta first width : ℕ)
  deriving DecidableEq, Repr

/-- The points of `get_arp_table` and its callees, each with the pointers and lengths that the walk
carries there. -/
inductive ArpPc where
  /-- Before `socket`. -/
  | opening
  /-- Before `send`. -/
  | requesting
  /-- Before `recvmsg`. -/
  | receive
  /-- Before the report about a truncated datagram. -/
  | truncated
  /-- Before `NLMSG_OK`. -/
  | message (hdr remaining : ℕ)
  /-- In `parse_netlink_message`, before the report about an error. -/
  | netlinkError (netlinkErrno : ℤ)
  /-- In `parse_netlink_attributes`, before `RTA_OK`. -/
  | attribute (hdr remaining rta rtaLen ip : ℕ) (mac : String)
  /-- In `parse_netlink_message`, after `parse_netlink_attributes`. -/
  | neighbour (hdr remaining ip : ℕ) (mac : String)
  /-- Before `NLMSG_NEXT`. -/
  | next (hdr remaining : ℕ)
  /-- `parse_netlink_message` has returned `false`. -/
  | stopped
  /-- Behind the loop over datagrams, before the last `close`. -/
  | leaving
  /-- `get_arp_table` has returned. -/
  | returned
  deriving DecidableEq, Repr

/-- A call of `get_arp_table`: where it is, its buffer and what is queued for it, and what it has
done so far. -/
structure ArpCall where
  /-- Its control point. -/
  pc : ArpPc
  /-- `buf`, and what lies behind it in memory. -/
  buf : ByteMemory
  /-- The datagrams that the socket has for it. -/
  queue : List (List UInt8)
  /-- `entries`. -/
  entries : List ArpEntry := []
  /-- What was sent. -/
  sent : List (List UInt8) := []
  /-- How often the socket was closed. -/
  closes : ℕ := 0
  /-- What was written to `stderr`. -/
  stderr : List String := []
  /-- What the walks over the datagrams have read. -/
  reads : List ArpRead := []

/-- The answer of `recvmsg`, the next datagram in the queue or a failure. -/
inductive RecvmsgResult where
  /-- `EINTR`. -/
  | interrupted
  /-- Another error. -/
  | failed
  /-- The next datagram. -/
  | datagram
  deriving DecidableEq, Repr

/-- The steps of a call, with the answers of the system to those that ask it something. -/
inductive ArpLabel where
  /-- The `socket` call. -/
  | socket (ok : Bool)
  /-- The `send` call. -/
  | send (ok : Bool)
  /-- A `recvmsg` call. -/
  | recvmsg (r : RecvmsgResult)
  /-- An `fprintf` call. -/
  | fprintf (ok : Bool)
  /-- A step of the walk over a datagram. -/
  | run
  deriving DecidableEq, Repr

namespace ArpCall

/-- Control moves to `pc`, and everything else stays. -/
def goto (pc : ArpPc) (c : ArpCall) : ArpCall := { c with pc := pc }

/-- The walk reads; the reads are recorded to be compared with the bytes received. -/
def read (rs : List ArpRead) (c : ArpCall) : ArpCall := { c with reads := c.reads ++ rs }

/-- `close` of the netlink socket; the calls are counted, as a second one would hit whatever has the
number then. -/
def close (c : ArpCall) : ArpCall := { c with closes := c.closes + 1 }

/-- The `fprintf` calls to `stderr`; a failed one writes nothing. -/
def report (text : String) (ok : Bool) (c : ArpCall) : ArpCall :=
  if ok then { c with stderr := c.stderr ++ [text] } else c

/-! ### The functions -/

/-- `parse_netlink_message` up to the call of `parse_netlink_attributes`. The end of the dump and an
error message close the socket and stop the walk right here. -/
def parseNetlinkMessage (hdr remaining : ℕ) (c : ArpCall) : ArpCall :=
  let c := c.read [.message (hdr + 4) 2]
  if nlmsgType c.buf hdr = nlmsgDone then c.close.goto .stopped
  else if nlmsgType c.buf hdr = nlmsgError then
    let c := c.read [.message (hdr + nlmsgHdrlen) 4]
    if nlmsgerrError c.buf hdr ≠ 0 then c.goto (.netlinkError (-nlmsgerrError c.buf hdr))
    else c.close.goto .stopped
  else if nlmsgType c.buf hdr ≠ rtmNewneigh then c.goto (.next hdr remaining)
  else
    let c := c.read [.message (hdr + nlmsgHdrlen) 1]
    if ndmFamily c.buf hdr ≠ afInet then c.goto (.next hdr remaining)
    else
      c.goto (.attribute hdr remaining (hdr + nlmsgHdrlen + ndmsgSize) (attributesLen c.buf hdr) 0
        noMac)

/-- One turn of the loop over messages, up to `parse_netlink_attributes`. When `NLMSG_OK` fails, the
next datagram is received. -/
def messageTurn (hdr remaining : ℕ) (c : ArpCall) : ArpCall :=
  -- `NLMSG_OK` looks at `nlmsg_len` only if a header is there
  let c := if nlmsgHdrlen ≤ remaining then c.read [.message hdr 4] else c
  if NlmsgOk c.buf hdr remaining then c.parseNetlinkMessage hdr remaining
  else c.goto .receive

/-- `RTA_NEXT`. The length that remains is lowered by the padded length of the attribute, as a
32-bit word that can wrap. -/
def nextAttribute (hdr remaining rta rtaLen ip : ℕ) (mac : String) (c : ArpCall) : ArpCall :=
  let len := align4 (rtaLenAt c.buf rta)
  c.goto (.attribute hdr remaining (rta + len) (subU32 rtaLen len) ip mac)

/-- One turn of the loop of `parse_netlink_attributes`. Four bytes of an `NDA_DST` are copied
without a look at its length; an `NDA_LLADDR` is measured first. -/
def parseNetlinkAttribute (hdr remaining rta rtaLen ip : ℕ) (mac : String) (c : ArpCall) :
    ArpCall :=
  let c := if rtattrSize ≤ rtaLen then c.read [.attribute hdr rta 2] else c
  if RtaOk c.buf rta rtaLen then
    let c := c.read [.attribute hdr (rta + 2) 2]
    if rtaType c.buf rta = ndaDst then
      let c := c.read [.value hdr rta (rtaData rta) 4]
      c.nextAttribute hdr remaining rta rtaLen (c.buf.uintBE (rtaData rta) 4) mac
    else if rtaType c.buf rta = ndaLladdr then
      if rtaPayload c.buf rta < macByteCount then c.goto (.neighbour hdr remaining ip mac)
      else
        let c := c.read [.value hdr rta (rtaData rta) macByteCount]
        let text := macText (c.buf.bytes (rtaData rta) macByteCount)
        if macStrLen ≤ text.length then c.goto (.neighbour hdr remaining ip mac)
        else c.nextAttribute hdr remaining rta rtaLen ip text
    else c.nextAttribute hdr remaining rta rtaLen ip mac
  else c.goto (.neighbour hdr remaining ip mac)

/-- `parse_netlink_message` from its return from `parse_netlink_attributes` on: the tests that keep
a neighbour out of the table, and the entry for the others. `ifIndexToName` is `if_indextoname`. -/
def finishNeighbour (ifIndexToName : ℤ → Option String) (hdr remaining ip : ℕ) (mac : String)
    (c : ArpCall) : ArpCall :=
  if ip ≠ 0 then
    let c := c.read [.message (hdr + nlmsgHdrlen + 8) 2]
    if ndmState c.buf hdr &&& nudIncomplete ≠ 0 ∨ mac = noMac then c.goto (.next hdr remaining)
    else if (224 ≤ ip / 2 ^ 24 % 256 ∧ ip / 2 ^ 24 % 256 ≤ 239) ∨ ip = 0xFFFFFFFF then
      c.goto (.next hdr remaining)
    else
      let c := c.read [.message (hdr + nlmsgHdrlen + 4) 4]
      let index := ndmIfindex c.buf hdr
      let entry : ArpEntry :=
        { ip := ip
          macAddress := mac
          interfaceIndex := index
          ifaceName := (ifIndexToName index).getD "unknown" }
      { c with entries := c.entries ++ [entry], pc := .next hdr remaining }
  else c.goto (.next hdr remaining)

/-- `NLMSG_NEXT`. The length that remains is lowered by the padded length of the message, as a
32-bit word that can wrap. -/
def nextMessage (hdr remaining : ℕ) (c : ArpCall) : ArpCall :=
  let len := align4 (nlmsgLen c.buf hdr)
  (c.read [.message hdr 4]).goto (.message (hdr + len) (subU32 remaining len))

/-- What follows a `recvmsg` call. A datagram that does not fit the buffer is cut off and marked
with `MSG_TRUNC`. -/
def recvmsgStep (r : RecvmsgResult) (c : ArpCall) : Option ArpCall :=
  match r with
  | .interrupted => some c
  | .failed => some (c.goto .leaving)
  | .datagram =>
    match c.queue with
    | [] => none
    | d :: queue =>
      let c := { c with queue := queue, buf := c.buf.store (d.take rxBufSize) }
      if rxBufSize < d.length then some (c.goto .truncated)
      else some (c.goto (.message 0 d.length))

/-- Steps without an answer of the system: the turns of the two loops, and the ends of the call. -/
def runStep (ifIndexToName : ℤ → Option String) (c : ArpCall) : Option ArpCall :=
  match c.pc with
  | .message hdr remaining => some (c.messageTurn hdr remaining)
  | .attribute hdr remaining rta rtaLen ip mac =>
    some (c.parseNetlinkAttribute hdr remaining rta rtaLen ip mac)
  | .neighbour hdr remaining ip mac => some (c.finishNeighbour ifIndexToName hdr remaining ip mac)
  | .next hdr remaining => some (c.nextMessage hdr remaining)
  | .stopped => some (c.goto .returned)
  | .leaving => some (c.close.goto .returned)
  | _ => none

/-- The transition function of `get_arp_table`. A label that does not fit the control point has no
step. -/
def step (ifIndexToName : ℤ → Option String) : LabelledSystem.System ArpCall ArpLabel := fun c l =>
  match l, c.pc with
  | .socket ok, .opening => some (c.goto (if ok then .requesting else .returned))
  | .send ok, .requesting =>
    if ok then some { c with pc := .receive, sent := c.sent ++ [dumpRequest] }
    else some (c.close.goto .returned)
  | .recvmsg r, .receive => c.recvmsgStep r
  | .fprintf ok, .truncated =>
    let c := c.report truncatedText ok
    some (if ok then c.goto .leaving else c.close.goto .returned)
  -- both outcomes of this `fprintf` end in `close` and `return false`
  | .fprintf ok, .netlinkError e => some ((c.report (netlinkErrorText e) ok).close.goto .stopped)
  | .run, _ => c.runStep ifIndexToName
  | _, _ => none

/-- The beginning of a call: `buf` is whatever memory it gets, `queue` what its socket will
receive. -/
def start (buf : ByteMemory) (queue : List (List UInt8)) : ArpCall :=
  { pc := .opening, buf := buf, queue := queue }

/-! ### Simplification -/

section Simp

variable (c : ArpCall) (pc : ArpPc) (rs rs' : List ArpRead)

@[simp] theorem goto_pc : (c.goto pc).pc = pc := rfl

@[simp] theorem goto_buf : (c.goto pc).buf = c.buf := rfl

@[simp] theorem goto_queue : (c.goto pc).queue = c.queue := rfl

@[simp] theorem goto_entries : (c.goto pc).entries = c.entries := rfl

@[simp] theorem goto_reads : (c.goto pc).reads = c.reads := rfl

@[simp] theorem read_pc : (c.read rs).pc = c.pc := rfl

@[simp] theorem read_buf : (c.read rs).buf = c.buf := rfl

@[simp] theorem read_queue : (c.read rs).queue = c.queue := rfl

@[simp] theorem read_entries : (c.read rs).entries = c.entries := rfl

@[simp] theorem read_reads : (c.read rs).reads = c.reads ++ rs := rfl

@[simp] theorem close_buf : c.close.buf = c.buf := rfl

@[simp] theorem close_queue : c.close.queue = c.queue := rfl

@[simp] theorem close_entries : c.close.entries = c.entries := rfl

@[simp] theorem close_reads : c.close.reads = c.reads := rfl

end Simp

/-- Successive reads are one record, so that a turn of the walk has a single list of them. -/
@[simp] theorem read_read (c : ArpCall) (rs rs' : List ArpRead) :
    (c.read rs).read rs' = c.read (rs ++ rs') := by
  simp [read]

/-! ### The branches of a turn -/

section Branches

variable {c : ArpCall} {hdr remaining rta rtaLen ip : ℕ} {mac : String}

/-- `NLMSG_OK` fails: the rest of the datagram is left, and the next one is waited for. -/
theorem messageTurn_stop (h : ¬ NlmsgOk c.buf hdr remaining) :
    c.messageTurn hdr remaining =
      (c.read (if nlmsgHdrlen ≤ remaining then [.message hdr 4] else [])).goto .receive := by
  unfold messageTurn
  split <;> simp [read, h]

/-- The last message of a dump stops the walk, with the socket closed. -/
theorem messageTurn_done (hok : NlmsgOk c.buf hdr remaining)
    (htype : nlmsgType c.buf hdr = nlmsgDone) :
    c.messageTurn hdr remaining =
      (c.read [.message hdr 4, .message (hdr + 4) 2]).close.goto .stopped := by
  simp [messageTurn, hok, hok.1, parseNetlinkMessage, htype]

/-- An error message stops the walk: at once if its error is zero, and otherwise once it is
reported. -/
theorem messageTurn_error (hok : NlmsgOk c.buf hdr remaining)
    (htype : nlmsgType c.buf hdr = nlmsgError) :
    c.messageTurn hdr remaining =
      if nlmsgerrError c.buf hdr = 0 then
        (c.read [.message hdr 4, .message (hdr + 4) 2,
          .message (hdr + nlmsgHdrlen) 4]).close.goto .stopped
      else
        (c.read [.message hdr 4, .message (hdr + 4) 2, .message (hdr + nlmsgHdrlen) 4]).goto
          (.netlinkError (-nlmsgerrError c.buf hdr)) := by
  have hne : nlmsgError ≠ nlmsgDone := by decide
  simp [messageTurn, hok, hok.1, parseNetlinkMessage, htype, hne]

/-- A message of a type that the parser does not know is passed over. -/
theorem messageTurn_other (hok : NlmsgOk c.buf hdr remaining)
    (hdone : nlmsgType c.buf hdr ≠ nlmsgDone) (herror : nlmsgType c.buf hdr ≠ nlmsgError)
    (hother : nlmsgType c.buf hdr ≠ rtmNewneigh) :
    c.messageTurn hdr remaining =
      (c.read [.message hdr 4, .message (hdr + 4) 2]).goto (.next hdr remaining) := by
  simp [messageTurn, hok, hok.1, parseNetlinkMessage, hdone, herror, hother]

/-- A neighbour of another family than `AF_INET` is passed over. -/
theorem messageTurn_family (hok : NlmsgOk c.buf hdr remaining)
    (htype : nlmsgType c.buf hdr = rtmNewneigh) (hfamily : ndmFamily c.buf hdr ≠ afInet) :
    c.messageTurn hdr remaining =
      (c.read [.message hdr 4, .message (hdr + 4) 2, .message (hdr + nlmsgHdrlen) 1]).goto
        (.next hdr remaining) := by
  have hne : rtmNewneigh ≠ nlmsgDone ∧ rtmNewneigh ≠ nlmsgError := by decide
  simp [messageTurn, hok, hok.1, parseNetlinkMessage, htype, hne.1, hne.2, hfamily]

/-- The attributes of an IPv4 neighbour are parsed, from the first one behind its `ndmsg` on. -/
theorem messageTurn_neighbour (hok : NlmsgOk c.buf hdr remaining)
    (htype : nlmsgType c.buf hdr = rtmNewneigh) (hfamily : ndmFamily c.buf hdr = afInet) :
    c.messageTurn hdr remaining =
      (c.read [.message hdr 4, .message (hdr + 4) 2, .message (hdr + nlmsgHdrlen) 1]).goto
        (.attribute hdr remaining (hdr + nlmsgHdrlen + ndmsgSize) (attributesLen c.buf hdr) 0
          noMac) := by
  have hne : rtmNewneigh ≠ nlmsgDone ∧ rtmNewneigh ≠ nlmsgError := by decide
  simp [messageTurn, hok, hok.1, parseNetlinkMessage, htype, hne.1, hne.2, hfamily]

/-- `RTA_OK` fails: the attributes are done, and what they gave decides about the neighbour. -/
theorem parseNetlinkAttribute_stop (h : ¬ RtaOk c.buf rta rtaLen) :
    c.parseNetlinkAttribute hdr remaining rta rtaLen ip mac =
      (c.read (if rtattrSize ≤ rtaLen then [.attribute hdr rta 2] else [])).goto
        (.neighbour hdr remaining ip mac) := by
  unfold parseNetlinkAttribute
  split <;> simp [read, h]

/-- The attribute `NDA_DST` sets the address, whatever its length: the four bytes are read even if
the attribute is shorter. -/
theorem parseNetlinkAttribute_dst (h : RtaOk c.buf rta rtaLen)
    (htype : rtaType c.buf rta = ndaDst) :
    c.parseNetlinkAttribute hdr remaining rta rtaLen ip mac =
      (c.read [.attribute hdr rta 2, .attribute hdr (rta + 2) 2,
        .value hdr rta (rtaData rta) 4]).nextAttribute hdr remaining rta rtaLen
          (c.buf.uintBE (rtaData rta) 4) mac := by
  simp [parseNetlinkAttribute, h, h.1, htype]

/-- An attribute `NDA_LLADDR` that is too short ends the attributes; those behind it are not looked
at. -/
theorem parseNetlinkAttribute_short (h : RtaOk c.buf rta rtaLen)
    (htype : rtaType c.buf rta = ndaLladdr) (hshort : rtaPayload c.buf rta < macByteCount) :
    c.parseNetlinkAttribute hdr remaining rta rtaLen ip mac =
      (c.read [.attribute hdr rta 2, .attribute hdr (rta + 2) 2]).goto
        (.neighbour hdr remaining ip mac) := by
  have hne : ndaLladdr ≠ ndaDst := by decide
  simp [parseNetlinkAttribute, h, h.1, htype, hshort, hne]

/-- The text of a hardware address fits `mac_buf`, so the test of `snprintf`'s result never
fails. -/
theorem length_macText (buf : ByteMemory) (off : ℕ) :
    (macText (buf.bytes off macByteCount)).length < macStrLen := by
  have hlen : (macText (buf.bytes off macByteCount)).length = 17 := by
    rw [macText, String.length_ofList]
    rfl
  rw [hlen]
  decide

/-- An attribute `NDA_LLADDR` of at least six bytes sets the hardware address. -/
theorem parseNetlinkAttribute_lladdr (h : RtaOk c.buf rta rtaLen)
    (htype : rtaType c.buf rta = ndaLladdr) (hlong : macByteCount ≤ rtaPayload c.buf rta) :
    c.parseNetlinkAttribute hdr remaining rta rtaLen ip mac =
      (c.read [.attribute hdr rta 2, .attribute hdr (rta + 2) 2,
        .value hdr rta (rtaData rta) macByteCount]).nextAttribute hdr remaining rta rtaLen ip
          (macText (c.buf.bytes (rtaData rta) macByteCount)) := by
  have hne : ndaLladdr ≠ ndaDst := by decide
  have htext := length_macText c.buf (rtaData rta)
  simp only [parseNetlinkAttribute, h.1, if_true, read_buf, h, htype, if_neg hne, read_read,
    if_neg (Nat.not_lt.mpr hlong), if_neg (Nat.not_le.mpr htext), List.cons_append,
    List.nil_append]

/-- Any other attribute is passed over, with a look at its header only. -/
theorem parseNetlinkAttribute_other (h : RtaOk c.buf rta rtaLen)
    (hdst : rtaType c.buf rta ≠ ndaDst) (hlladdr : rtaType c.buf rta ≠ ndaLladdr) :
    c.parseNetlinkAttribute hdr remaining rta rtaLen ip mac =
      (c.read [.attribute hdr rta 2, .attribute hdr (rta + 2) 2]).nextAttribute hdr remaining rta
        rtaLen ip mac := by
  simp [parseNetlinkAttribute, h, h.1, hdst, hlladdr]

end Branches

/-- Where the walk takes a step of its own, nothing else can happen, and there is only this step. -/
theorem step_eq_some_iff {ifIndexToName : ℤ → Option String} {c u v : ArpCall} {l : ArpLabel}
    (h : c.runStep ifIndexToName = some u) :
    step ifIndexToName c l = some v ↔ l = .run ∧ u = v := by
  cases hpc : c.pc <;> simp only [runStep, hpc, reduceCtorEq] at h <;>
    cases l <;> simp [step, runStep, hpc, h]

end ArpCall

end Netscan
