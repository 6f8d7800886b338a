import Netscan.Lib.MachineInt
import Mathlib

/-! # Constants, clock values and the local interface

The rest of `utils.hpp` and `utils.cpp`: the time constants, `safe_batch_size`, `format_ip`,
`resolve_hostname` and `NetworkInterface::fetch`. IPv4 addresses are host-order numbers below
`2 ^ 32`. -/

namespace Netscan

open MachineInt

/-- `NANOSECONDS_PER_SECOND_LL`. -/
def nanosecondsPerSecond : ℤ := 1000000000

/-- `NANOSECONDS_PER_MILLISECOND_LL`. -/
def nanosecondsPerMillisecond : ℤ := 1000000

/-- `MAX_RX_PACKET_SIZE`. -/
def maxRxPacketSize : ℕ := 2048

/-- `struct timespec`. -/
structure Timespec where
  /-- Seconds. -/
  tvSec : ℤ := 0
  /-- Nanoseconds. -/
  tvNsec : ℤ := 0
  deriving DecidableEq, Repr

/-- A clock value in nanoseconds, as an unbounded number. -/
def Timespec.ns (t : Timespec) : ℤ := t.tvSec * nanosecondsPerSecond + t.tvNsec

/-- The difference of two clock values in nanoseconds, as both scanners write it. -/
def Timespec.elapsedNs (now since : Timespec) : ℤ :=
  (now.tvSec - since.tvSec) * nanosecondsPerSecond + (now.tvNsec - since.tvNsec)

/-- The difference that the code computes is that of the two clock values in nanoseconds. -/
theorem Timespec.elapsedNs_eq (now since : Timespec) : now.elapsedNs since = now.ns - since.ns := by
  unfold elapsedNs ns nanosecondsPerSecond
  omega

/-- `safe_batch_size`. -/
def safeBatchSize (val maxHosts : ℕ) : ℕ := min (min val maxHosts) (2 ^ 32 - 1)

/-- A batch has no more messages than there are hosts. -/
theorem safeBatchSize_le (val maxHosts : ℕ) : safeBatchSize val maxHosts ≤ maxHosts := by
  unfold safeBatchSize
  omega

/-- A batch has room for a message unless it is given none or there is no host. -/
theorem safeBatchSize_pos {val maxHosts : ℕ} :
    0 < safeBatchSize val maxHosts ↔ 0 < val ∧ 0 < maxHosts := by
  unfold safeBatchSize
  omega

/-- `format_ip`: dotted-quad text, the highest byte first. -/
def formatIp (ip : ℕ) : String :=
  toString (ip / 2 ^ 24 % 256) ++ "." ++ toString (ip / 2 ^ 16 % 256) ++ "." ++
    toString (ip / 2 ^ 8 % 256) ++ "." ++ toString (ip % 256)

/-- `resolve_hostname`, given the answer of `getnameinfo` (`none` when it fails). -/
def resolveHostname (answer : Option String) : String := answer.getD "N/A"

/-! ### `NetworkInterface::fetch` -/

/-- The fields of an `ifaddrs` entry that `fetch` reads; addresses in host order. -/
structure IfAddrs where
  /-- `ifa_name`. -/
  ifaName : String
  /-- The family and address of `ifa_addr`, unless it is null. -/
  ifaAddr : Option (ℕ × ℕ)
  /-- The address in `ifa_netmask`, unless it is null. -/
  ifaNetmask : Option ℕ
  /-- `ifa_flags`. -/
  ifaFlags : ℕ

/-- `NetworkInterface`. -/
structure NetworkInterface where
  /-- Interface name. -/
  name : String := ""
  /-- Text of `ipAddress`. -/
  ip : String := ""
  /-- Text of `networkIp`. -/
  network : String := ""
  /-- Text of `broadcastIp`. -/
  broadcast : String := ""
  /-- The local address. -/
  ipAddress : ℕ := 0
  /-- The subnet's network address. -/
  networkIp : ℕ := 0
  /-- The subnet's broadcast address. -/
  broadcastIp : ℕ := 0
  /-- Whether the target range overlaps the subnet. -/
  isLocal : Bool := false

/-- `AF_INET`. -/
def afInet : ℕ := 2

/-- `IFF_UP`. -/
def iffUp : ℕ := 0x1

/-- `IFF_BROADCAST`. -/
def iffBroadcast : ℕ := 0x2

/-- `IFF_LOOPBACK`. -/
def iffLoopback : ℕ := 0x8

/-- `ifa_addr & mask`, the first address of the subnet. -/
def networkOf (ip mask : ℕ) : ℕ := ip &&& mask

/-- `ifa_addr | ~mask`, the last address of the subnet. -/
def broadcastOf (ip mask : ℕ) : ℕ := ip ||| (2 ^ 32 - 1 - mask)

/-- The checks of `fetch` on one entry: an IPv4 address with a netmask, up, not loopback, broadcast
capable and equal to the address the kernel selected. The result is the address and the mask. -/
def IfAddrs.selected? (ifa : IfAddrs) (localIp : ℕ) : Option (ℕ × ℕ) :=
  match ifa.ifaAddr, ifa.ifaNetmask with
  | some (family, currentIp), some mask =>
    if family ≠ afInet then none
    else if ifa.ifaFlags &&& iffUp = 0 ∨ ifa.ifaFlags &&& iffLoopback ≠ 0 ∨
        ifa.ifaFlags &&& iffBroadcast = 0 then none
    else if currentIp ≠ localIp then none
    else some (currentIp, mask)
  | _, _ => none

/-- The loop of `fetch` over the interface list. -/
def NetworkInterface.fetchLoop (localIp targetBaseIp targetEndIp : ℕ) :
    List IfAddrs → NetworkInterface
  | [] => {}
  | ifa :: rest =>
    match ifa.selected? localIp with
    | none => fetchLoop localIp targetBaseIp targetEndIp rest
    | some (currentIp, mask) =>
      let networkIp := networkOf currentIp mask
      let broadcastIp := broadcastOf currentIp mask
      { name := ifa.ifaName
        ip := formatIp currentIp
        network := formatIp networkIp
        broadcast := formatIp broadcastIp
        ipAddress := currentIp
        networkIp := networkIp
        broadcastIp := broadcastIp
        isLocal := targetBaseIp ≤ broadcastIp && targetEndIp ≥ networkIp }

/-- `NetworkInterface::fetch`: `routedIp` is the source address the kernel selected (`none` when
`socket`, `connect` or `getsockname` failed), `ifaddrs` the interface list (`none` when
`getifaddrs` failed). -/
def NetworkInterface.fetch (routedIp : Option ℕ) (ifaddrs : Option (List IfAddrs))
    (targetBaseIp totalHosts : ℕ) : NetworkInterface :=
  match routedIp, ifaddrs with
  | some localIp, some ifas =>
    let targetEndIp :=
      if totalHosts = 0 then targetBaseIp else u32 (targetBaseIp + u32 (totalHosts - 1))
    fetchLoop localIp targetBaseIp targetEndIp ifas
  | _, _ => {}

/-- The address and mask of the interface that `fetch` selects, if it selects one. -/
def selectedInterface (routedIp : Option ℕ) (ifaddrs : Option (List IfAddrs)) : Option (ℕ × ℕ) :=
  match routedIp, ifaddrs with
  | some localIp, some ifas => ifas.findSome? fun ifa => ifa.selected? localIp
  | _, _ => none

/-- The network address of a subnet is at most its broadcast address. -/
theorem networkOf_le_broadcastOf (ip mask : ℕ) : networkOf ip mask ≤ broadcastOf ip mask :=
  le_trans Nat.and_le_left Nat.left_le_or

/-- What the loop of `fetch` decides about a target: it is skipped exactly when the interface found
is the target's own and the target is its network or broadcast address. -/
theorem fetchLoop_skips (localIp base last ip : ℕ) (ifas : List IfAddrs) (hbase : base ≤ ip)
    (hlast : ip ≤ last) :
    ((NetworkInterface.fetchLoop localIp base last ifas).isLocal = true ∧
      (ip = (NetworkInterface.fetchLoop localIp base last ifas).networkIp ∨
        ip = (NetworkInterface.fetchLoop localIp base last ifas).broadcastIp)) ↔
    ∃ a m, ifas.findSome? (fun ifa => ifa.selected? localIp) = some (a, m) ∧
      (ip = networkOf a m ∨ ip = broadcastOf a m) := by
  induction ifas with
  | nil => simp [NetworkInterface.fetchLoop]
  | cons ifa rest ih =>
    rw [NetworkInterface.fetchLoop, List.findSome?_cons]
    cases hsel : ifa.selected? localIp with
    | none => exact ih
    | some p =>
      obtain ⟨a, m⟩ := p
      have hle := networkOf_le_broadcastOf a m
      simp only [Bool.and_eq_true, decide_eq_true_eq, Option.some.injEq, Prod.mk.injEq]
      constructor
      · rintro ⟨-, h⟩; exact ⟨a, m, ⟨rfl, rfl⟩, h⟩
      · rintro ⟨_, _, ⟨rfl, rfl⟩, h⟩
        -- a target equal to either address lies in the subnet, so the ranges overlap
        exact ⟨by omega, h⟩

/-- The network address or the broadcast address of the interface that `fetch` selects. -/
def IsSubnetAddress (routedIp : Option ℕ) (ifaddrs : Option (List IfAddrs)) (ip : ℕ) : Prop :=
  ∃ a m, selectedInterface routedIp ifaddrs = some (a, m) ∧
    (ip = networkOf a m ∨ ip = broadcastOf a m)

/-- **The overlap test and the skip test agree.** For a target of the range, being skipped as the
local network or broadcast address means being one of these addresses of the interface that
`fetch` selected: the `is_local` gate never lets one through. -/
theorem fetch_skips (routedIp : Option ℕ) (ifaddrs : Option (List IfAddrs)) {base total h : ℕ}
    (hfits : base + total ≤ 2 ^ 32) (hh : h < total) :
    ((NetworkInterface.fetch routedIp ifaddrs base total).isLocal = true ∧
      (base + h = (NetworkInterface.fetch routedIp ifaddrs base total).networkIp ∨
        base + h = (NetworkInterface.fetch routedIp ifaddrs base total).broadcastIp)) ↔
    IsSubnetAddress routedIp ifaddrs (base + h) := by
  unfold NetworkInterface.fetch IsSubnetAddress selectedInterface
  cases routedIp with
  | none => simp
  | some localIp =>
    cases ifaddrs with
    | none => simp
    | some ifas =>
      refine fetchLoop_skips localIp base _ (base + h) ifas (by omega) ?_
      have : total ≠ 0 := by omega
      simp only [this, if_false, u32]
      omega

end Netscan
