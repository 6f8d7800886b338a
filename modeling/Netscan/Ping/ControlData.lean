import Netscan.Lib.ByteMemory
import Netscan.Ping.RoundTrip

/-! # The control data of a received message, byte by byte

`extract_control_data` walks the control buffer with `CMSG_FIRSTHDR` and `CMSG_NXTHDR`, from lengths
that it finds there. What the kernel puts into the buffer it reads back, message by message; with
any other bytes it stays within the buffer, and it always comes to an end. -/

namespace Netscan

open MachineInt ByteMemory

/-! ### Constants and macros of `<sys/socket.h>` -/

/-- `sizeof(cmsghdr)`. -/
def cmsghdrSize : ℕ := 16

/-- `IPPROTO_IP`. -/
def ipprotoIp : ℕ := 0

/-- `SOL_SOCKET`. -/
def solSocket : ℕ := 1

/-- `IP_TTL`, the type of the message that carries the time to live. -/
def ipTtlType : ℕ := 2

/-- `SO_TIMESTAMPNS`. -/
def soTimestampns : ℕ := 35

/-- `SO_RXQ_OVFL`. -/
def soRxqOvfl : ℕ := 40

/-- `CMSG_ALIGN`: lengths are rounded up to a multiple of `sizeof(size_t)`. -/
def cmsgAlign (n : ℕ) : ℕ := (n + 7) / 8 * 8

/-- `CMSG_SPACE`: the room of a message with `n` bytes of data. -/
def cmsgSpace (n : ℕ) : ℕ := cmsgAlign n + cmsgAlign cmsghdrSize

/-- `CONTROL_BUFFER_SIZE`: room for an `int`, a `timespec` and a `uint32_t`. -/
def controlBufferSize : ℕ := cmsgSpace 4 + cmsgSpace 16 + cmsgSpace 4

/-- `CMSG_FIRSTHDR`, of `controllen` bytes from `control` on. -/
def cmsgFirsthdr (control controllen : ℕ) : Option ℕ :=
  if cmsghdrSize ≤ controllen then some control else none

/-- `cmsg->cmsg_len`. -/
def cmsgLen (m : ByteMemory) (cmsg : ℕ) : ℕ := m.uint cmsg 8

/-- `CMSG_NXTHDR`: the header behind the one at `cmsg`, if there is room for one. -/
def cmsgNxthdr (m : ByteMemory) (control controllen cmsg : ℕ) : Option ℕ :=
  if cmsgLen m cmsg < cmsghdrSize then none
  else if cmsg + cmsgAlign (cmsgLen m cmsg) + cmsghdrSize ≤ control + controllen then
    some (cmsg + cmsgAlign (cmsgLen m cmsg))
  else none

/-- Headers lie behind each other, and within the buffer: `CMSG_NXTHDR` checks the room that is
left. -/
theorem cmsgNxthdr_eq_some {m : ByteMemory} {control controllen cmsg next : ℕ}
    (h : cmsgNxthdr m control controllen cmsg = some next) :
    cmsg + cmsghdrSize ≤ next ∧ next + cmsghdrSize ≤ control + controllen := by
  unfold cmsgNxthdr at h
  split_ifs at h with hshort hroom
  obtain rfl := Option.some.inj h
  have halign : cmsgLen m cmsg ≤ cmsgAlign (cmsgLen m cmsg) := by
    unfold cmsgAlign
    omega
  exact ⟨by omega, hroom⟩

/-! ### The loop -/

/-- The reference parameters of `extract_control_data`, and the member that it changes. -/
structure ControlState where
  /-- `ttl`. -/
  ttl : ℤ
  /-- `recv_ts`. -/
  recvTs : Timespec
  /-- `has_recv_ts`. -/
  hasRecvTs : Bool
  /-- `rx_queue_overflows_`. -/
  rxQueueOverflows : ℕ
  deriving DecidableEq, Repr

/-- `cmsg->cmsg_level`. -/
def cmsgLevel (m : ByteMemory) (cmsg : ℕ) : ℕ := m.uint (cmsg + 8) 4

/-- `cmsg->cmsg_type`. -/
def cmsgType (m : ByteMemory) (cmsg : ℕ) : ℕ := m.uint (cmsg + 12) 4

/-- `CMSG_DATA`. -/
def cmsgData (cmsg : ℕ) : ℕ := cmsg + cmsghdrSize

/-- The loop body of `extract_control_data`, on the control message at `cmsg`. -/
def controlTurn (m : ByteMemory) (cmsg : ℕ) (st : ControlState) : ControlState :=
  let st :=
    if cmsgLevel m cmsg = ipprotoIp ∧ cmsgType m cmsg = ipTtlType then
      { st with ttl := toInt32 (m.uint (cmsgData cmsg) 4) }
    else st
  let st :=
    if cmsgLevel m cmsg = solSocket ∧ cmsgType m cmsg = soTimestampns then
      { st with
        recvTs := ⟨toInt64 (m.uint (cmsgData cmsg) 8), toInt64 (m.uint (cmsgData cmsg + 8) 8)⟩
        hasRecvTs := true }
    else st
  if cmsgLevel m cmsg = solSocket ∧ cmsgType m cmsg = soRxqOvfl then
    { st with rxQueueOverflows := max (m.uint (cmsgData cmsg) 4) st.rxQueueOverflows }
  else st

/-- The loop of `extract_control_data` from the header `cmsg` on, for at most `left` turns. -/
def controlLoop (m : ByteMemory) (control controllen : ℕ) :
    ℕ → Option ℕ → ControlState → ControlState
  | left + 1, some cmsg, st =>
    controlLoop m control controllen left (cmsgNxthdr m control controllen cmsg)
      (controlTurn m cmsg st)
  | _, _, st => st

/-- `extract_control_data` as `receive_responses` calls it, on a buffer of `controllen` bytes: the
time to live, the receive time and the overflow counter. There is no room for more headers than the
turns allowed. -/
def extractControlBytes (m : ByteMemory) (control controllen : ℕ) (recvNow : Timespec)
    (rxQueueOverflows : ℕ) : ℤ × Timespec × ℕ :=
  let st := controlLoop m control controllen (controllen / cmsghdrSize)
    (cmsgFirsthdr control controllen) ⟨-1, ⟨0, 0⟩, false, rxQueueOverflows⟩
  (st.ttl, if st.hasRecvTs then st.recvTs else recvNow, st.rxQueueOverflows)

/-- The headers that the loop visits in at most `left` turns. -/
def headersFrom (m : ByteMemory) (control controllen : ℕ) : ℕ → Option ℕ → List ℕ
  | left + 1, some cmsg =>
    cmsg :: headersFrom m control controllen left (cmsgNxthdr m control controllen cmsg)
  | _, _ => []

section Headers

variable {m : ByteMemory} {control controllen : ℕ}

/-- The loop takes its turns at these headers and at no others. -/
theorem controlLoop_eq_foldl (left : ℕ) : ∀ (cmsg : Option ℕ) (st : ControlState),
    controlLoop m control controllen left cmsg st =
      (headersFrom m control controllen left cmsg).foldl
        (fun st cmsg => controlTurn m cmsg st) st := by
  induction left with
  | zero => exact fun _ _ => rfl
  | succ left ih =>
    intro cmsg st
    cases cmsg with
    | none => rfl
    | some cmsg => exact ih _ _

/-- A header that the loop visits lies in the buffer, by induction on the turns. -/
theorem header_within (left : ℕ) : ∀ {cmsg : Option ℕ},
    (∀ c ∈ cmsg, control ≤ c ∧ c + cmsghdrSize ≤ control + controllen) →
    ∀ c ∈ headersFrom m control controllen left cmsg,
      control ≤ c ∧ c + cmsghdrSize ≤ control + controllen := by
  induction left with
  | zero => exact fun _ c hc => by cases hc
  | succ left ih =>
    intro cmsg hcmsg c hc
    cases cmsg with
    | none => cases hc
    | some first =>
      rcases List.mem_cons.mp hc with rfl | hc
      · exact hcmsg c rfl
      · refine ih (fun next hnext => ?_) c hc
        obtain ⟨hlo, hhi⟩ := cmsgNxthdr_eq_some hnext
        obtain ⟨hfirst, -⟩ := hcmsg first rfl
        exact ⟨by omega, hhi⟩

/-- The headers come one behind the other, so none is visited twice. -/
theorem headers_apart (left : ℕ) : ∀ (cmsg : Option ℕ),
    (headersFrom m control controllen left cmsg).IsChain fun c next => c + cmsghdrSize ≤ next := by
  induction left with
  | zero => exact fun _ => List.IsChain.nil
  | succ left ih =>
    intro cmsg
    cases cmsg with
    | none => exact List.IsChain.nil
    | some first =>
      refine List.isChain_cons.mpr ⟨fun next hnext => ?_, ih _⟩
      -- the head of the rest is what `CMSG_NXTHDR` has found
      cases left with
      | zero => cases hnext
      | succ left =>
        cases hnxt : cmsgNxthdr m control controllen first with
        | none =>
          rw [hnxt] at hnext
          cases hnext
        | some c =>
          rw [hnxt] at hnext
          obtain rfl := Option.some.inj hnext
          exact (cmsgNxthdr_eq_some hnxt).1

/-- Turns that there is no room for change nothing: the loop has come to its end. -/
theorem headersFrom_eq_of_le (left : ℕ) : ∀ {left' : ℕ} {cmsg : Option ℕ}, left ≤ left' →
    (∀ c ∈ cmsg, c + cmsghdrSize ≤ control + controllen ∧
      control + controllen < c + cmsghdrSize * (left + 1)) →
    headersFrom m control controllen left' cmsg = headersFrom m control controllen left cmsg := by
  induction left with
  | zero =>
    intro left' cmsg _ hroom
    cases cmsg with
    | none => cases left' <;> rfl
    | some c =>
      obtain ⟨hin, hout⟩ := hroom c rfl
      omega
  | succ left ih =>
    intro left' cmsg hle hroom
    obtain ⟨left', rfl⟩ : ∃ n, left' = n + 1 := ⟨left' - 1, by omega⟩
    cases cmsg with
    | none => rfl
    | some c =>
      obtain ⟨-, hout⟩ := hroom c rfl
      rw [headersFrom, headersFrom, ih (Nat.le_of_succ_le_succ hle) fun next hnext => ?_]
      -- the next header lies behind this one, so there is room for one turn less
      obtain ⟨hlo, hhi⟩ := cmsgNxthdr_eq_some hnext
      refine ⟨hhi, ?_⟩
      unfold cmsghdrSize at *
      omega

end Headers

/-! ### What the kernel puts there -/

/-- The bytes that `extract_control_data` copies out of a control message, by its level and type. -/
def copiedSize (level type : ℕ) : ℕ :=
  if level = ipprotoIp ∧ type = ipTtlType then 4
  else if level = solSocket ∧ type = soTimestampns then 16
  else if level = solSocket ∧ type = soRxqOvfl then 4
  else 0

/-- A control message with the bytes that pad it. -/
structure AncillaryMessage where
  /-- `cmsg_level`. -/
  level : ℕ
  /-- `cmsg_type`. -/
  type : ℕ
  /-- Its data. -/
  data : List UInt8
  /-- What follows the data up to a multiple of eight bytes. -/
  padding : List UInt8
  /-- The level fits its field. -/
  level_lt : level < 2 ^ 32
  /-- The type fits its field. -/
  type_lt : type < 2 ^ 32
  /-- The length fits its field. -/
  length_lt : cmsghdrSize + data.length < 2 ^ 64
  /-- The data of a known message holds the object that it is documented to hold. -/
  copied_le : copiedSize level type ≤ data.length
  /-- The padding is as long as it has to be. -/
  aligned : padding.length = (8 - data.length % 8) % 8

namespace AncillaryMessage

/-- The bytes of a control message: the header, the data and what pads them. -/
def encode (a : AncillaryMessage) : List UInt8 :=
  leBytes 8 (cmsghdrSize + a.data.length) ++ leBytes 4 a.level ++ leBytes 4 a.type ++ a.data ++
    a.padding

/-- What a control message says: what `extract_control_data` reads off its level, type and data. -/
def message (a : AncillaryMessage) : ControlMessage :=
  if a.level = ipprotoIp ∧ a.type = ipTtlType then .ipTtl (toInt32 (leNat (a.data.take 4)))
  else if a.level = solSocket ∧ a.type = soTimestampns then
    .timestampns ⟨toInt64 (leNat (field a.data 0 8)), toInt64 (leNat (field a.data 8 8))⟩
  else if a.level = solSocket ∧ a.type = soRxqOvfl then .rxqOvfl (leNat (a.data.take 4))
  else .other

/-- `CMSG_ALIGN` of the length that a message states is its length with the padding. -/
theorem length_encode (a : AncillaryMessage) :
    a.encode.length = cmsgAlign (cmsghdrSize + a.data.length) := by
  have haligned := a.aligned
  simp only [encode, List.length_append, length_leBytes]
  unfold cmsgAlign cmsghdrSize
  omega

theorem cmsghdrSize_le (a : AncillaryMessage) : cmsghdrSize ≤ a.encode.length := by
  rw [a.length_encode]
  unfold cmsgAlign cmsghdrSize
  omega

end AncillaryMessage

/-- The bytes of control messages, one behind the other. -/
def encodeAncillary (ms : List AncillaryMessage) : List UInt8 :=
  ms.flatMap AncillaryMessage.encode

section Held

variable {m : ByteMemory} {cmsg : ℕ} {a : AncillaryMessage}

/-- The fields of a message that is held at an address are read as they were written. -/
theorem held_fields (h : m.Holds cmsg a.encode) :
    cmsgLen m cmsg = cmsghdrSize + a.data.length ∧ cmsgLevel m cmsg = a.level ∧
      cmsgType m cmsg = a.type ∧ m.Holds (cmsgData cmsg) a.data := by
  unfold AncillaryMessage.encode at h
  simp only [holds_append, List.length_append, length_leBytes] at h
  obtain ⟨⟨⟨⟨hlen, hlevel⟩, htype⟩, hdata⟩, -⟩ := h
  exact ⟨hlen.uint_eq a.length_lt, hlevel.uint_eq a.level_lt, htype.uint_eq a.type_lt, hdata⟩

/-- The first bytes of the data as a number, in the order of the machine. -/
theorem uint_held {off w : ℕ} {bs : List UInt8} (h : m.Holds off bs) (hw : w ≤ bs.length) :
    m.uint off w = leNat (bs.take w) := by
  rw [ByteMemory.uint, h.bytes_eq_take hw]

/-- What a message does to the variables of `extract_control_data`. -/
def ControlState.apply (st : ControlState) : ControlMessage → ControlState
  | .ipTtl ttl => { st with ttl := ttl }
  | .timestampns ts => { st with recvTs := ts, hasRecvTs := true }
  | .rxqOvfl drops => { st with rxQueueOverflows := max drops st.rxQueueOverflows }
  | .other => st

/-- A turn of the loop takes what the message says, and ignores a message of another kind. -/
theorem controlTurn_held (h : m.Holds cmsg a.encode) (st : ControlState) :
    controlTurn m cmsg st = st.apply a.message := by
  obtain ⟨-, hlevel, htype, hdata⟩ := held_fields h
  have hcopied := a.copied_le
  unfold controlTurn AncillaryMessage.message
  unfold copiedSize at hcopied
  rw [hlevel, htype]
  dsimp only
  by_cases httl : a.level = ipprotoIp ∧ a.type = ipTtlType
  · have hlevels : ¬ a.level = solSocket := by rw [httl.1]; decide
    rw [if_pos httl] at hcopied
    simp only [if_pos httl, hlevels, false_and, if_false]
    rw [uint_held hdata hcopied]
    rfl
  rw [if_neg httl] at hcopied
  simp only [if_neg httl]
  by_cases hts : a.level = solSocket ∧ a.type = soTimestampns
  · have htypes : ¬ a.type = soRxqOvfl := by rw [hts.2]; decide
    rw [if_pos hts] at hcopied
    simp only [if_pos hts, htypes, and_false, if_false]
    -- the second word stands behind the first one
    have hwords := hdata
    rw [← List.take_append_drop 8 a.data, holds_append, List.length_take,
      Nat.min_eq_left (by omega)] at hwords
    have hnsec := uint_held (w := 8) hwords.2 (by rw [List.length_drop]; omega)
    rw [uint_held hdata (by omega), hnsec]
    rfl
  rw [if_neg hts] at hcopied
  simp only [if_neg hts]
  by_cases hovfl : a.level = solSocket ∧ a.type = soRxqOvfl
  · rw [if_pos hovfl] at hcopied
    rw [if_pos hovfl, if_pos hovfl, uint_held hdata hcopied]
    rfl
  · rw [if_neg hovfl, if_neg hovfl]
    rfl

/-- The loop takes what the messages say, one after the other, and ends behind the last one. By
induction on the messages. -/
theorem controlLoop_held {control controllen : ℕ} (ms : List AncillaryMessage) :
    ∀ {left cmsg : ℕ} {a : AncillaryMessage} (st : ControlState),
      m.Holds cmsg (encodeAncillary (a :: ms)) →
      cmsg + (encodeAncillary (a :: ms)).length = control + controllen → ms.length < left →
      controlLoop m control controllen left (some cmsg) st =
        ((a :: ms).map AncillaryMessage.message).foldl ControlState.apply st := by
  induction ms with
  | nil =>
    intro left cmsg a st hheld hend hleft
    obtain ⟨left, rfl⟩ : ∃ n, left = n + 1 := ⟨left - 1, by omega⟩
    rw [encodeAncillary, List.flatMap_cons, List.flatMap_nil, List.append_nil] at hheld hend
    -- behind the last message there is no room for a header
    have hnone : cmsgNxthdr m control controllen cmsg = none := by
      obtain ⟨hlen, -⟩ := held_fields hheld
      rw [cmsgNxthdr, hlen, ← a.length_encode, if_neg (by omega), if_neg]
      unfold cmsghdrSize
      omega
    rw [controlLoop, hnone, controlTurn_held hheld]
    cases left <;> rfl
  | cons b ms ih =>
    intro left cmsg a st hheld hend hleft
    obtain ⟨left, rfl⟩ : ∃ n, left = n + 1 := ⟨left - 1, by omega⟩
    rw [encodeAncillary, List.flatMap_cons, ← encodeAncillary] at hheld hend
    rw [List.length_append] at hend
    obtain ⟨hfirst, hrest⟩ := holds_append.mp hheld
    -- the next message follows where this one ends
    have hsome : cmsgNxthdr m control controllen cmsg = some (cmsg + a.encode.length) := by
      obtain ⟨hlen, -⟩ := held_fields hfirst
      have hroom : cmsghdrSize ≤ (encodeAncillary (b :: ms)).length := by
        have hb := b.cmsghdrSize_le
        rw [encodeAncillary, List.flatMap_cons, List.length_append]
        omega
      rw [cmsgNxthdr, hlen, ← a.length_encode, if_neg (by omega), if_pos (by omega)]
    rw [controlLoop, hsome, controlTurn_held hfirst,
      ih _ hrest (by omega) (Nat.lt_of_succ_lt_succ hleft)]
    rfl

end Held

/-- There is room for as many headers as there are messages, which bounds the turns of the loop. -/
theorem length_le_encodeAncillary (ms : List AncillaryMessage) :
    cmsghdrSize * ms.length ≤ (encodeAncillary ms).length := by
  induction ms with
  | nil => exact Nat.zero_le _
  | cons a ms ih =>
    have ha := a.cmsghdrSize_le
    rw [encodeAncillary, List.flatMap_cons, List.length_append, ← encodeAncillary, List.length_cons,
      Nat.mul_succ]
    omega

namespace AncillaryMessage

/-! ### The messages that the socket's options ask for -/

/-- The `IP_TTL` message. -/
def ipTtl (ttl : ℤ) : AncillaryMessage where
  level := ipprotoIp
  type := ipTtlType
  data := leBytes 4 (ofInt32 ttl)
  padding := List.replicate 4 0
  level_lt := by decide
  type_lt := by decide
  length_lt := by rw [length_leBytes]; decide
  copied_le := by rw [length_leBytes]; decide
  aligned := by rw [length_leBytes]; decide

/-- The `SO_TIMESTAMPNS` message. -/
def timestampns (ts : Timespec) : AncillaryMessage where
  level := solSocket
  type := soTimestampns
  data := leBytes 8 (ofInt64 ts.tvSec) ++ leBytes 8 (ofInt64 ts.tvNsec)
  padding := []
  level_lt := by decide
  type_lt := by decide
  length_lt := by simp [cmsghdrSize]
  copied_le := by simp [copiedSize, solSocket, ipprotoIp, soTimestampns]
  aligned := by simp

/-- The `SO_RXQ_OVFL` message. -/
def rxqOvfl (drops : ℕ) : AncillaryMessage where
  level := solSocket
  type := soRxqOvfl
  data := leBytes 4 drops
  padding := List.replicate 4 0
  level_lt := by decide
  type_lt := by decide
  length_lt := by rw [length_leBytes]; decide
  copied_le := by rw [length_leBytes]; decide
  aligned := by rw [length_leBytes]; decide

/-- An `int` survives the control buffer, as it fits its four bytes. -/
theorem message_ipTtl {ttl : ℤ} (hlo : -2 ^ 31 ≤ ttl) (hhi : ttl < 2 ^ 31) :
    (ipTtl ttl).message = .ipTtl ttl := by
  have htake : (leBytes 4 (ofInt32 ttl)).take 4 = leBytes 4 (ofInt32 ttl) :=
    List.take_of_length_le (by rw [length_leBytes])
  have hread : toInt32 (leNat ((leBytes 4 (ofInt32 ttl)).take 4)) = ttl := by
    rw [htake, leNat_leBytes, Nat.mod_eq_of_lt (ofInt32_lt ttl), toInt32_ofInt32 hlo hhi]
  exact (if_pos ⟨rfl, rfl⟩).trans (congrArg ControlMessage.ipTtl hread)

/-- A `timespec` survives the control buffer, as both fields fit their eight bytes. -/
theorem message_timestampns {ts : Timespec} (hsec : -2 ^ 63 ≤ ts.tvSec ∧ ts.tvSec < 2 ^ 63)
    (hnsec : -2 ^ 63 ≤ ts.tvNsec ∧ ts.tvNsec < 2 ^ 63) :
    (timestampns ts).message = .timestampns ts := by
  have hfields : field (timestampns ts).data 0 8 = leBytes 8 (ofInt64 ts.tvSec) ∧
      field (timestampns ts).data 8 8 = leBytes 8 (ofInt64 ts.tvNsec) := by
    constructor <;> simp [field, timestampns, List.take_of_length_le]
  obtain ⟨hfirst, hsecond⟩ := hfields
  have hlt : ∀ i, ofInt64 i < 256 ^ 8 := by intro i; unfold ofInt64; omega
  have hread : (timestampns ts).message = .timestampns
      ⟨toInt64 (leNat (field (timestampns ts).data 0 8)),
        toInt64 (leNat (field (timestampns ts).data 8 8))⟩ := rfl
  rw [hread, hfirst, hsecond, leNat_leBytes, leNat_leBytes, Nat.mod_eq_of_lt (hlt _),
    Nat.mod_eq_of_lt (hlt _), toInt64_ofInt64 hsec.1 hsec.2, toInt64_ofInt64 hnsec.1 hnsec.2]

/-- A `uint32_t` survives the control buffer, as it fits its four bytes. -/
theorem message_rxqOvfl {drops : ℕ} (h : drops < 2 ^ 32) :
    (rxqOvfl drops).message = .rxqOvfl drops := by
  have htake : (leBytes 4 drops).take 4 = leBytes 4 drops :=
    List.take_of_length_le (by rw [length_leBytes])
  have hread : leNat ((leBytes 4 drops).take 4) = drops := by
    rw [htake, leNat_leBytes]
    exact Nat.mod_eq_of_lt h
  exact congrArg ControlMessage.rxqOvfl hread

end AncillaryMessage

/-- The length of a sequence is the sum of the parts. -/
theorem length_encodeAncillary (ms : List AncillaryMessage) :
    (encodeAncillary ms).length = (ms.map fun a => a.encode.length).sum := List.length_flatMap

namespace PingScanner

/-- `extractControlData` as the loop over messages that it is, with the variables in one record. -/
theorem extractControlData_eq (recvNow : Timespec) (control : List ControlMessage)
    (rxQueueOverflows : ℕ) :
    extractControlData recvNow control rxQueueOverflows =
      let st := control.foldl ControlState.apply ⟨-1, ⟨0, 0⟩, false, rxQueueOverflows⟩
      (st.ttl, if st.hasRecvTs then st.recvTs else recvNow, st.rxQueueOverflows) := by
  let out : ControlState → ℤ × Option Timespec × ℕ := fun st =>
    (st.ttl, if st.hasRecvTs then some st.recvTs else none, st.rxQueueOverflows)
  have hfold : ∀ {turn : ℤ × Option Timespec × ℕ → ControlMessage → ℤ × Option Timespec × ℕ},
      (∀ st c, turn (out st) c = out (st.apply c)) →
      ∀ st, control.foldl turn (out st) = out (control.foldl ControlState.apply st) :=
    fun hturn st => List.foldl_hom out hturn
  unfold extractControlData
  dsimp only
  have hinit : ((-1 : ℤ), (none : Option Timespec), rxQueueOverflows) =
      out ⟨-1, ⟨0, 0⟩, false, rxQueueOverflows⟩ := rfl
  rw [hinit, hfold fun st c => by cases c <;> rfl]
  dsimp only [out]
  split <;> rfl

/-- The bytes of control messages are read as the messages, in the order in which they stand. -/
theorem extractControlBytes_eq {m : ByteMemory} {control : ℕ} {ms : List AncillaryMessage}
    (h : m.Holds control (encodeAncillary ms)) (recvNow : Timespec) (rxQueueOverflows : ℕ) :
    extractControlBytes m control (encodeAncillary ms).length recvNow rxQueueOverflows =
      extractControlData recvNow (ms.map AncillaryMessage.message) rxQueueOverflows := by
  rw [extractControlData_eq, extractControlBytes]
  cases ms with
  | nil => rfl
  | cons a ms =>
    have hlen := length_le_encodeAncillary (a :: ms)
    rw [List.length_cons] at hlen
    have hfirst : cmsgFirsthdr control (encodeAncillary (a :: ms)).length = some control :=
      if_pos (by unfold cmsghdrSize at *; omega)
    rw [hfirst, controlLoop_held ms _ h rfl]
    unfold cmsghdrSize at *
    omega

/-- What the three messages say does not depend on their order: they set different variables. -/
private theorem apply_comm {ttl : ℤ} {ts : Timespec} {drops : ℕ} :
    ∀ c ∈ [.ipTtl ttl, .timestampns ts, .rxqOvfl drops],
      ∀ c' ∈ [.ipTtl ttl, .timestampns ts, .rxqOvfl drops], ∀ st : ControlState,
        (st.apply c).apply c' = (st.apply c').apply c := by
  intro c hc c' hc' st
  simp only [List.mem_cons, List.not_mem_nil, or_false] at hc hc'
  rcases hc with rfl | rfl | rfl <;> rcases hc' with rfl | rfl | rfl <;> rfl

/-- What `extract_control_data` makes of the bytes in a control buffer. -/
structure ControlDataRead : Prop where
  /-- Of messages that the kernel has put there, in any number and any order, it takes what they
  say, whatever else is in memory. -/
  exact : ∀ {m : ByteMemory} {control : ℕ} {ms : List AncillaryMessage},
    m.Holds control (encodeAncillary ms) → ∀ recvNow rxQueueOverflows,
      extractControlBytes m control (encodeAncillary ms).length recvNow rxQueueOverflows =
        extractControlData recvNow (ms.map AncillaryMessage.message) rxQueueOverflows
  /-- The messages that the socket's options ask for have room in the buffer, some or all. -/
  room : ∀ {ms : List AncillaryMessage} {ttl : ℤ} {ts : Timespec} {drops : ℕ},
    ms.Subperm [.ipTtl ttl, .timestampns ts, .rxqOvfl drops] →
      (encodeAncillary ms).length ≤ controlBufferSize
  /-- All three, in any order, fill the buffer, and give the three values. -/
  full : ∀ {m : ByteMemory} {control : ℕ} {ms : List AncillaryMessage} {ttl : ℤ} {ts : Timespec}
    {drops : ℕ}, ms.Perm [.ipTtl ttl, .timestampns ts, .rxqOvfl drops] →
      -2 ^ 31 ≤ ttl → ttl < 2 ^ 31 → ts.Real → drops < 2 ^ 32 →
      m.Holds control (encodeAncillary ms) → ∀ recvNow rxQueueOverflows,
        extractControlBytes m control controlBufferSize recvNow rxQueueOverflows =
          (ttl, ts, max drops rxQueueOverflows)
  /-- Whatever is in the buffer, the headers that are read lie in it. -/
  within : ∀ (m : ByteMemory) (control controllen left : ℕ), ∀ cmsg ∈
    headersFrom m control controllen left (cmsgFirsthdr control controllen),
      control ≤ cmsg ∧ cmsg + cmsghdrSize ≤ control + controllen
  /-- No two of them overlap. -/
  apart : ∀ (m : ByteMemory) (control controllen left : ℕ),
    (headersFrom m control controllen left (cmsgFirsthdr control controllen)).IsChain
      fun cmsg next => cmsg + cmsghdrSize ≤ next
  /-- And the loop comes to an end: more turns than there is room for change nothing. -/
  ends : ∀ (m : ByteMemory) (control controllen : ℕ) {left : ℕ}, controllen / cmsghdrSize ≤ left →
    ∀ st, controlLoop m control controllen left (cmsgFirsthdr control controllen) st =
      controlLoop m control controllen (controllen / cmsghdrSize)
        (cmsgFirsthdr control controllen) st

/-- **The control data of a message is read as the kernel wrote it, and nothing else is.** -/
theorem controlDataRead : ControlDataRead where
  exact := extractControlBytes_eq
  room := by
    intro ms ttl ts drops hsub
    obtain ⟨all, hperm, hsub⟩ := hsub
    have hle : (all.map fun a => a.encode.length).sum ≤ controlBufferSize :=
      (hsub.map fun a => a.encode.length).sum_le_sum fun _ _ => Nat.zero_le _
    rwa [length_encodeAncillary, ← (hperm.map fun a => a.encode.length).sum_eq]
  full := by
    intro m control ms ttl ts drops hperm hlo hhi hts hdrops hheld recvNow rxQueueOverflows
    -- three messages fill the buffer, whatever their order
    have hsize : (encodeAncillary ms).length = controlBufferSize := by
      rw [length_encodeAncillary, (hperm.map fun a => a.encode.length).sum_eq]
      rfl
    -- each says what was put in, as the values fit their types
    have hmessages : (ms.map AncillaryMessage.message).Perm
        [.ipTtl ttl, .timestampns ts, .rxqOvfl drops] := by
      have hmap := hperm.map AncillaryMessage.message
      obtain ⟨hsec, hnsec⟩ := hts
      rw [List.map_cons, List.map_cons, List.map_cons, List.map_nil,
        AncillaryMessage.message_ipTtl hlo hhi,
        AncillaryMessage.message_timestampns (by omega) (by omega),
        AncillaryMessage.message_rxqOvfl hdrops] at hmap
      exact hmap
    rw [← hsize, extractControlBytes_eq hheld, extractControlData_eq,
      hmessages.foldl_eq' fun c hc c' hc' => apply_comm c (hmessages.mem_iff.mp hc) c'
        (hmessages.mem_iff.mp hc')]
    rfl
  within := by
    intro m control controllen left
    refine header_within left fun c hc => ?_
    unfold cmsgFirsthdr at hc
    split_ifs at hc with hroom
    · obtain rfl := Option.some.inj hc
      exact ⟨le_rfl, by omega⟩
    · cases hc
  apart := fun _ _ _ left => headers_apart left _
  ends := by
    intro m control controllen left hle st
    rw [controlLoop_eq_foldl, controlLoop_eq_foldl, headersFrom_eq_of_le _ hle fun c hc => ?_]
    unfold cmsgFirsthdr at hc
    split_ifs at hc with hroom
    · obtain rfl := Option.some.inj hc
      unfold cmsghdrSize at *
      omega
    · cases hc

/-- The three messages in another order than the one they are named in: the receive time first, then
the overflow counter, then the time to live. -/
theorem controlDataRead_reordered :
    let m := ByteMemory.store (fun _ => 0)
      (encodeAncillary [.timestampns ⟨5, 7⟩, .rxqOvfl 9, .ipTtl 64])
    extractControlBytes m 0 controlBufferSize ⟨0, 0⟩ 3 = (64, ⟨5, 7⟩, 9) := by
  intro m
  have hheld : m.Holds 0 (encodeAncillary [.timestampns ⟨5, 7⟩, .rxqOvfl 9, .ipTtl 64]) :=
    holds_store _ _
  let ttl : AncillaryMessage := .ipTtl 64
  let timeAndDrops : List AncillaryMessage := [.timestampns ⟨5, 7⟩, .rxqOvfl 9]
  have hperm : (timeAndDrops ++ [ttl]).Perm (ttl :: timeAndDrops) :=
    List.perm_append_singleton _ _
  have hts : Timespec.Real ⟨5, 7⟩ := by constructor <;> decide
  exact controlDataRead.full hperm (by decide) (by decide) hts (by decide) hheld ⟨0, 0⟩ 3

end PingScanner

end Netscan
