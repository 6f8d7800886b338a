import Netscan.Utils.Interface

/-! # Packets of the ping scanner

The byte layouts of `IcmpHdr` and `PingPayload` as `memcpy` moves them on a little-endian host
(`id` and `sequence` in network order, four bytes of padding after `target_ip`), and the datagrams
that `recvmmsg` hands over, with their ancillary data. The source never writes the padding bytes, so
what they hold is an argument of the encoding; the decoding does not look at them. -/

namespace Netscan

open MachineInt

/-- `ICMP_ECHOREPLY`. -/
def icmpEchoReply : ℕ := 0

/-- `ICMP_ECHO`. -/
def icmpEcho : ℕ := 8

/-- `PingScanner::IcmpHdr`; `id` and `sequence` in host order. -/
structure IcmpHdr where
  /-- Message type. -/
  type : ℕ := 0
  /-- Message code. -/
  code : ℕ := 0
  /-- Header checksum. -/
  checksum : ℕ := 0
  /-- Identifier. -/
  id : ℕ := 0
  /-- Sequence number. -/
  sequence : ℕ := 0
  deriving DecidableEq, Repr

/-- `sizeof(IcmpHdr)`. -/
def icmpHdrSize : ℕ := 8

/-- The bytes of an ICMP header, with `id` and `sequence` in network order. -/
def IcmpHdr.encode (h : IcmpHdr) : List UInt8 :=
  leBytes 1 h.type ++ leBytes 1 h.code ++ leBytes 2 h.checksum ++ beBytes 2 h.id ++
    beBytes 2 h.sequence

/-- The ICMP header in the first bytes of a buffer, back in host order. -/
def IcmpHdr.decode (b : List UInt8) : IcmpHdr where
  type := leNat (field b 0 1)
  code := leNat (field b 1 1)
  checksum := leNat (field b 2 2)
  id := leNat (field b 4 2).reverse
  sequence := leNat (field b 6 2).reverse

/-- `PingScanner::PingPayload`. -/
structure PingPayload where
  /-- The probed address. -/
  targetIp : ℕ := 0
  /-- Seconds of the send time. -/
  sendSec : ℤ := 0
  /-- Nanoseconds of the send time. -/
  sendNsec : ℤ := 0
  deriving DecidableEq, Repr

/-- `sizeof(PingPayload)`. -/
def pingPayloadSize : ℕ := 24

/-- The bytes of a payload whose four padding bytes, which the compiler puts between `target_ip` and
`send_sec` and which nothing initializes, hold `padding`. -/
def PingPayload.encode (p : PingPayload) (padding : ℕ) : List UInt8 :=
  leBytes 4 p.targetIp ++ leBytes 4 padding ++ leBytes 8 (ofInt64 p.sendSec) ++
    leBytes 8 (ofInt64 p.sendNsec)

/-- The payload in the first bytes of a buffer. The padding is not looked at. -/
def PingPayload.decode (b : List UInt8) : PingPayload where
  targetIp := leNat (field b 0 4)
  sendSec := toInt64 (leNat (field b 8 8))
  sendNsec := toInt64 (leNat (field b 16 8))

/-- An encoded header has the size of the header. -/
@[simp] theorem IcmpHdr.length_encode (h : IcmpHdr) : h.encode.length = icmpHdrSize := by
  simp [encode, beBytes, icmpHdrSize]

/-- An encoded payload has the size of the payload, padding included. -/
@[simp] theorem PingPayload.length_encode (p : PingPayload) (padding : ℕ) :
    (p.encode padding).length = pingPayloadSize := by
  simp [encode, pingPayloadSize]

/-- **A header survives the wire**, with its identifier and its sequence number in network order. -/
theorem IcmpHdr.decode_encode {h : IcmpHdr} (htype : h.type < 2 ^ 8) (hcode : h.code < 2 ^ 8)
    (hchecksum : h.checksum < 2 ^ 16) (hid : h.id < 2 ^ 16) (hsequence : h.sequence < 2 ^ 16) :
    decode h.encode = h := by
  have hfields : field h.encode 0 1 = leBytes 1 h.type ∧ field h.encode 1 1 = leBytes 1 h.code ∧
      field h.encode 2 2 = leBytes 2 h.checksum ∧ field h.encode 4 2 = beBytes 2 h.id ∧
      field h.encode 6 2 = beBytes 2 h.sequence := by
    refine ⟨?_, ?_, ?_, ?_, ?_⟩ <;>
      simp [field, encode, beBytes, List.drop_append, List.drop_of_length_le,
        List.take_of_length_le]
  obtain ⟨h₁, h₂, h₃, h₄, h₅⟩ := hfields
  rw [decode, h₁, h₂, h₃, h₄, h₅]
  simp only [beBytes, List.reverse_reverse, leNat_leBytes]
  rw [Nat.mod_eq_of_lt (by omega), Nat.mod_eq_of_lt (by omega), Nat.mod_eq_of_lt (by omega),
    Nat.mod_eq_of_lt (by omega), Nat.mod_eq_of_lt (by omega)]

/-- **A payload survives the wire**: what one host copies in, the other copies out, as long as the
fields fit their words, and whatever the padding between them holds. -/
theorem PingPayload.decode_encode {p : PingPayload} {padding : ℕ} (hip : p.targetIp < 2 ^ 32)
    (hsec : -2 ^ 63 ≤ p.sendSec ∧ p.sendSec < 2 ^ 63)
    (hnsec : -2 ^ 63 ≤ p.sendNsec ∧ p.sendNsec < 2 ^ 63) : decode (p.encode padding) = p := by
  have hfields : field (p.encode padding) 0 4 = leBytes 4 p.targetIp ∧
      field (p.encode padding) 8 8 = leBytes 8 (ofInt64 p.sendSec) ∧
      field (p.encode padding) 16 8 = leBytes 8 (ofInt64 p.sendNsec) := by
    refine ⟨?_, ?_, ?_⟩ <;>
      simp [field, encode, List.drop_append, List.drop_of_length_le,
        List.take_of_length_le]
  obtain ⟨h₁, h₂, h₃⟩ := hfields
  have hlt : ∀ i, ofInt64 i < 256 ^ 8 := by intro i; unfold ofInt64; omega
  rw [decode, h₁, h₂, h₃]
  simp only [leNat_leBytes, Nat.mod_eq_of_lt (hlt _), toInt64_ofInt64 hsec.1 hsec.2,
    toInt64_ofInt64 hnsec.1 hnsec.2]
  rw [Nat.mod_eq_of_lt (by omega)]

/-- The control messages that `extract_control_data` looks for, and the others as one. -/
inductive ControlMessage where
  /-- `IPPROTO_IP`, `IP_TTL`. -/
  | ipTtl (ttl : ℤ)
  /-- `SOL_SOCKET`, `SO_TIMESTAMPNS`. -/
  | timestampns (ts : Timespec)
  /-- `SOL_SOCKET`, `SO_RXQ_OVFL`. -/
  | rxqOvfl (drops : ℕ)
  /-- Any other control message. -/
  | other
  deriving DecidableEq, Repr

/-- A datagram in the socket's receive queue: its source address (host order), its bytes and its
ancillary data. -/
structure Datagram where
  /-- Source address. -/
  srcIp : ℕ
  /-- Contents, from the ICMP header on. -/
  bytes : List UInt8
  /-- Ancillary data. -/
  control : List ControlMessage := []
  deriving DecidableEq, Repr

/-- What `recvmmsg` stores of a datagram in a receive slot of `MAX_RX_PACKET_SIZE` bytes. -/
def Datagram.received (d : Datagram) : Datagram := { d with bytes := d.bytes.take maxRxPacketSize }

@[simp] theorem Datagram.received_srcIp (d : Datagram) : d.received.srcIp = d.srcIp := rfl

/-- The ICMP header that `process_received_packet` copies out of a received datagram. -/
def Datagram.icmp (d : Datagram) : IcmpHdr := IcmpHdr.decode (field d.bytes 0 icmpHdrSize)

/-- The payload that `process_received_packet` copies out of a received datagram. -/
def Datagram.payload (d : Datagram) : PingPayload :=
  PingPayload.decode (field d.bytes icmpHdrSize pingPayloadSize)

/-- The datagram is an echo reply of at least header-plus-payload length whose embedded target
address is its source: the checks that come before the state is looked at. -/
def Datagram.IsReplyOf (d : Datagram) (ip : ℕ) : Prop :=
  icmpHdrSize + pingPayloadSize ≤ d.bytes.length ∧ d.icmp.type = icmpEchoReply ∧
    d.payload.targetIp = ip ∧ d.srcIp = ip

instance (d : Datagram) (ip : ℕ) : Decidable (d.IsReplyOf ip) :=
  inferInstanceAs (Decidable (_ ∧ _ ∧ _ ∧ _))

/-- Truncation to a receive slot keeps the ICMP header, which stands in the first bytes. -/
@[simp] theorem Datagram.received_icmp (d : Datagram) : d.received.icmp = d.icmp := by
  simp [icmp, received, field, List.take_take, maxRxPacketSize, icmpHdrSize]

/-- Truncation to a receive slot keeps the payload, which stands behind the header. -/
@[simp] theorem Datagram.received_payload (d : Datagram) : d.received.payload = d.payload := by
  simp [payload, received, field, List.drop_take, List.take_take, maxRxPacketSize, icmpHdrSize,
    pingPayloadSize]

/-- Truncation to a receive slot does not change comparisons with lengths up to the slot's. -/
theorem Datagram.length_received_lt {d : Datagram} {m : ℕ} (hm : m ≤ maxRxPacketSize) :
    d.received.bytes.length < m ↔ d.bytes.length < m := by
  simp only [received, List.length_take]
  omega

/-- The receive slot is larger than what is looked at, so truncation does not matter. -/
theorem Datagram.received_isReplyOf {d : Datagram} {ip : ℕ} :
    d.received.IsReplyOf ip ↔ d.IsReplyOf ip := by
  have hlen : icmpHdrSize + pingPayloadSize ≤ d.received.bytes.length ↔
      icmpHdrSize + pingPayloadSize ≤ d.bytes.length := by
    rw [← Nat.not_lt, ← Nat.not_lt, length_received_lt (by decide)]
  unfold IsReplyOf
  rw [received_icmp, received_payload, hlen, received_srcIp]

/-- The echo reply of a host to the request that was sent to it at `sendTime`, with zeros in the
padding of its payload. -/
def echoReply (ip : ℕ) (sendTime : Timespec) : Datagram where
  srcIp := ip
  bytes := ({ type := icmpEchoReply } : IcmpHdr).encode ++
    ({ targetIp := ip, sendSec := sendTime.tvSec, sendNsec := sendTime.tvNsec } :
      PingPayload).encode 0

end Netscan
