import Netscan.Arp.Table

/-! # Neighbour dumps

What the kernel sends in answer to a dump request, independently of how `get_arp_table` reads it:
attributes, messages and their bytes, each padded to a multiple of four. A record is described by
its fields, and `NeighbourRecord.entry` says from the fields alone which entry of the ARP table it
stands for, if any. -/

namespace Netscan

open MachineInt

/-! ### Attributes -/

/-- An attribute of a message, with the bytes that pad it. -/
structure NetlinkAttribute where
  /-- `rta_type`. -/
  type : ℕ
  /-- Its value. -/
  value : List UInt8
  /-- What follows the value up to a multiple of four bytes. -/
  padding : List UInt8
  /-- The type fits its field. -/
  type_lt : type < 2 ^ 16
  /-- The length fits its field. -/
  length_lt : rtattrSize + value.length < 2 ^ 16
  /-- The padding is as long as it has to be. -/
  aligned : padding.length = (4 - value.length % 4) % 4

/-- The bytes of an attribute: its header, its value and its padding. -/
def NetlinkAttribute.encode (a : NetlinkAttribute) : List UInt8 :=
  leBytes 2 (rtattrSize + a.value.length) ++ leBytes 2 a.type ++ a.value ++ a.padding

/-- The bytes of a sequence of attributes, one behind the other. -/
def encodeAttributes (as : List NetlinkAttribute) : List UInt8 :=
  as.flatMap NetlinkAttribute.encode

/-- The length of an attribute, padded: what lies between it and the next one. -/
theorem NetlinkAttribute.length_encode (a : NetlinkAttribute) :
    a.encode.length = rtattrSize + a.value.length + a.padding.length := by
  simp only [encode, rtattrSize, List.append_assoc, List.length_append, length_leBytes]
  omega

/-- `RTA_ALIGN` of the length that an attribute states is its length with the padding. -/
theorem NetlinkAttribute.align4_length (a : NetlinkAttribute) :
    align4 (rtattrSize + a.value.length) = a.encode.length := by
  have hlt := a.length_lt
  have haligned := a.aligned
  rw [a.length_encode, align4, u32_of_lt (by omega), haligned]
  unfold rtattrSize
  omega

/-- Attributes fill a multiple of four bytes, as each of them is padded. -/
theorem length_encodeAttributes_mod (as : List NetlinkAttribute) :
    (encodeAttributes as).length % 4 = 0 := by
  induction as with
  | nil => rfl
  | cons a as ih =>
    have haligned := a.aligned
    rw [encodeAttributes, List.flatMap_cons, List.length_append, a.length_encode]
    rw [encodeAttributes] at ih
    unfold rtattrSize
    omega

/-- An `ndmsg` and attributes need no padding, since both are multiples of four bytes. -/
theorem padding_neighbour (as : List NetlinkAttribute) :
    (4 - (ndmsgSize + (encodeAttributes as).length) % 4) % 4 = 0 := by
  have hmod := length_encodeAttributes_mod as
  unfold ndmsgSize
  omega

/-! ### Messages -/

/-- A message: a header, a payload and the bytes that pad it. -/
structure RawMessage where
  /-- `nlmsg_type`. -/
  type : ℕ
  /-- The rest of the header: `nlmsg_flags`, `nlmsg_seq` and `nlmsg_pid`. -/
  header : List UInt8
  /-- What follows the header. -/
  payload : List UInt8
  /-- What follows the payload up to a multiple of four bytes. -/
  padding : List UInt8
  /-- The type fits its field. -/
  type_lt : type < 2 ^ 16
  /-- The size of the rest of the header. -/
  length_header : header.length = 10
  /-- The padding is as long as it has to be. -/
  aligned : padding.length = (4 - payload.length % 4) % 4

/-- The bytes of a message: its header with the unpadded length, its payload and its padding. -/
def RawMessage.encode (m : RawMessage) : List UInt8 :=
  leBytes 4 (nlmsgHdrlen + m.payload.length) ++ leBytes 2 m.type ++ m.header ++ m.payload ++
    m.padding

/-- The bytes of a datagram: messages one behind the other. -/
def encodeDatagram (ms : List RawMessage) : List UInt8 := ms.flatMap RawMessage.encode

/-- The length of a message, padded: what lies between it and the next one. -/
theorem RawMessage.length_encode (m : RawMessage) :
    m.encode.length = nlmsgHdrlen + m.payload.length + m.padding.length := by
  simp only [encode, nlmsgHdrlen, List.append_assoc, List.length_append, length_leBytes,
    m.length_header]
  omega

/-- `NLMSG_ALIGN` of the length that a message states is its length with the padding, if the
message fits the receive buffer. -/
theorem RawMessage.align4_length (m : RawMessage) (h : m.encode.length ≤ rxBufSize) :
    align4 (nlmsgHdrlen + m.payload.length) = m.encode.length := by
  have haligned := m.aligned
  rw [m.length_encode] at h ⊢
  unfold nlmsgHdrlen rxBufSize at h
  unfold nlmsgHdrlen
  rw [align4, u32_of_lt (by omega), haligned]
  omega

/-- The type of neighbour messages fits its field. -/
theorem rtmNewneigh_lt : rtmNewneigh < 2 ^ 16 := by decide

/-! ### Neighbour records -/

/-- A neighbour of the family `AF_INET` with any number of attributes of each type. -/
structure NeighbourMessage where
  /-- The rest of the message header. -/
  header : List UInt8
  /-- `ndm_pad1` and `ndm_pad2`. -/
  pads : List UInt8
  /-- `ndm_ifindex`. -/
  ifindex : ℤ
  /-- `ndm_state`. -/
  state : ℕ
  /-- `ndm_flags` and `ndm_type`. -/
  flags : List UInt8
  /-- The attributes. -/
  attributes : List NetlinkAttribute
  /-- The size of the rest of the message header. -/
  length_header : header.length = 10
  /-- The size of the padding fields. -/
  length_pads : pads.length = 3
  /-- The index is a 32-bit word. -/
  ifindex_bounds : -2 ^ 31 ≤ ifindex ∧ ifindex < 2 ^ 31
  /-- The state fits its field. -/
  state_lt : state < 2 ^ 16
  /-- The size of the last fields. -/
  length_flags : flags.length = 2
  /-- An address has four bytes. -/
  length_dst : ∀ a ∈ attributes, a.type = ndaDst → a.value.length = 4

/-- The payload of a neighbour's message: an `ndmsg` with its index and state, and the
attributes. -/
def NeighbourMessage.payload (r : NeighbourMessage) : List UInt8 :=
  leBytes 1 afInet ++ r.pads ++ leBytes 4 (ofInt32 r.ifindex) ++ leBytes 2 r.state ++ r.flags ++
    encodeAttributes r.attributes

/-- The length of a neighbour's payload: that of its `ndmsg` and of its padded attributes. -/
theorem NeighbourMessage.length_payload (r : NeighbourMessage) :
    r.payload.length = ndmsgSize + (encodeAttributes r.attributes).length := by
  simp only [payload, List.append_assoc, List.length_append, length_leBytes, r.length_pads,
    r.length_flags, ndmsgSize]
  omega

/-- The message of a neighbour; attributes are padded, so the message needs no padding. -/
def NeighbourMessage.raw (r : NeighbourMessage) : RawMessage where
  type := rtmNewneigh
  header := r.header
  payload := r.payload
  padding := []
  type_lt := rtmNewneigh_lt
  length_header := r.length_header
  aligned := by rw [r.length_payload, padding_neighbour, List.length_nil]

/-- A neighbour as the kernel dumps it: its attributes come in any order, at most one of them an
`NDA_DST` of four bytes and at most one an `NDA_LLADDR` of any length. -/
structure NeighbourRecord extends NeighbourMessage where
  /-- There is at most one address. -/
  dst_unique : attributes.countP (·.type = ndaDst) ≤ 1
  /-- There is at most one hardware address. -/
  lladdr_unique : attributes.countP (·.type = ndaLladdr) ≤ 1

/-- The value of the first attribute of a type, which is the only one in a record. -/
def attributeValue (type : ℕ) (as : List NetlinkAttribute) : Option (List UInt8) :=
  (as.find? (·.type = type)).map (·.value)

/-- Addresses that the table lists: not the unspecified, the broadcast or a multicast address. -/
def Listed (ip : ℕ) : Prop :=
  ip ≠ 0 ∧ ip ≠ 0xFFFFFFFF ∧ ¬ (0xE0000000 ≤ ip ∧ ip < 0xF0000000)

instance (ip : ℕ) : Decidable (Listed ip) := inferInstanceAs (Decidable (_ ∧ _ ∧ _))

/-- The entry that a record stands for: of a complete neighbour whose address is listed and whose
hardware address has at least six bytes, of which the first six are not all zero. -/
def NeighbourRecord.entry (ifIndexToName : ℤ → Option String) (r : NeighbourRecord) :
    Option ArpEntry :=
  match attributeValue ndaDst r.attributes, attributeValue ndaLladdr r.attributes with
  | some dst, some lladdr =>
    if Listed (leNat dst.reverse) ∧ r.state &&& nudIncomplete = 0 ∧
        macByteCount ≤ lladdr.length ∧ lladdr.take macByteCount ≠ List.replicate macByteCount 0 then
      some
        { ip := leNat dst.reverse
          macAddress := macText (lladdr.take macByteCount)
          interfaceIndex := r.ifindex
          ifaceName := (ifIndexToName r.ifindex).getD "unknown" }
    else none
  | _, _ => none

/-- A message that may stand in a dump: a record, or any message that is none, being of another
type or of another family. -/
inductive NetlinkMessage where
  /-- A record. -/
  | neighbour (r : NeighbourRecord)
  /-- Any other message; a neighbour has at least the field for its family. -/
  | other (m : RawMessage)
      (h : m.type = rtmNewneigh → ∃ b ∈ m.payload.head?, b.toNat ≠ afInet)

namespace NetlinkMessage

/-- The message as it is sent, whichever kind it is. -/
def raw : NetlinkMessage → RawMessage
  | .neighbour r => r.raw
  | .other m _ => m

/-- The entry that a message stands for: a neighbour's, if its record has one, and none for any
other message. -/
def entry (ifIndexToName : ℤ → Option String) : NetlinkMessage → Option ArpEntry
  | .neighbour r => r.entry ifIndexToName
  | .other _ _ => none

/-- The same message, but for the order of a record's attributes. The index and the state of the
record are kept. -/
inductive Reordered : NetlinkMessage → NetlinkMessage → Prop
  /-- A record. -/
  | neighbour {r r' : NeighbourRecord} : r.ifindex = r'.ifindex → r.state = r'.state →
      r.attributes.Perm r'.attributes → Reordered (.neighbour r) (.neighbour r')
  /-- Any other message. -/
  | other (m : NetlinkMessage) : Reordered m m

end NetlinkMessage

/-! ### Neighbours whose attributes repeat -/

/-- Any well-formed message: an IPv4 neighbour, or a message that is none. -/
inductive WireMessage where
  /-- An IPv4 neighbour. -/
  | neighbour (r : NeighbourMessage)
  /-- Any other message; a neighbour has at least the field for its family. -/
  | other (m : RawMessage)
      (h : m.type = rtmNewneigh → ∃ b ∈ m.payload.head?, b.toNat ≠ afInet)

/-- The message as it is sent, whichever kind it is. -/
def WireMessage.raw : WireMessage → RawMessage
  | .neighbour r => r.raw
  | .other m _ => m

/-- A message of a dump is a well-formed message: the uniqueness of its attributes is forgotten. -/
def NetlinkMessage.wire : NetlinkMessage → WireMessage
  | .neighbour r => .neighbour r.toNeighbourMessage
  | .other m h => .other m h

/-- Both stand for the same bytes, so what holds of well-formed messages holds of a dump. -/
theorem NetlinkMessage.raw_wire (m : NetlinkMessage) : m.wire.raw = m.raw := by
  cases m <;> rfl

/-! ### The order of the attributes -/

/-- Of attributes at most one of which has a type, that one is found in any order. -/
theorem attributeValue_eq_of_perm {as as' : List NetlinkAttribute} {type : ℕ}
    (h : as.Perm as') (hunique : as.countP (·.type = type) ≤ 1) :
    attributeValue type as = attributeValue type as' := by
  have hfilter : as.filter (fun a => decide (a.type = type)) =
      as'.filter (fun a => decide (a.type = type)) := by
    have hperm := h.filter (fun a => decide (a.type = type))
    rw [List.countP_eq_length_filter] at hunique
    generalize as.filter (fun a => decide (a.type = type)) = l at hperm hunique ⊢
    rcases l with _ | ⟨a, _ | ⟨b, bs⟩⟩
    · exact (List.nil_perm.mp hperm).symm
    · exact (List.singleton_perm.mp hperm)
    · simp at hunique
  rw [attributeValue, attributeValue, ← List.head?_filter, ← List.head?_filter, hfilter]

/-- The entry of a message does not depend on the order of its attributes. -/
theorem NetlinkMessage.Reordered.entry_eq {m m' : NetlinkMessage} (h : m.Reordered m')
    (ifIndexToName : ℤ → Option String) : m.entry ifIndexToName = m'.entry ifIndexToName := by
  cases h with
  | other => rfl
  | @neighbour r r' hindex hstate hperm =>
    simp only [NetlinkMessage.entry, NeighbourRecord.entry, hindex, hstate,
      attributeValue_eq_of_perm hperm r.dst_unique,
      attributeValue_eq_of_perm hperm r.lladdr_unique]

end Netscan
