import Netscan.Dispatch
import Netscan.Ping.Coverage
import Netscan.Tcp.Coverage

/-! # Scanning the subnet of the local interface

`NetworkInterface::fetch` computes the bounds of a subnet from a netmask, `parse_cidr` computes them
from a prefix length, and both scanners leave out the addresses at the bounds that `fetch` found.
For the subnet of the interface itself the two agree, so what `-L`, `-B` and `-N` print can be
handed back to the program with the prefix length behind it: the scan covers what lies strictly
between the bounds. -/

namespace Netscan

open MachineInt LabelledSystem

/-! ### Bounds of a subnet -/

/-- Setting the low bits of a number goes to the end of its block. Bit by bit. -/
theorem or_two_pow_sub_one (a k : ℕ) : a ||| (2 ^ k - 1) = a / 2 ^ k * 2 ^ k + (2 ^ k - 1) := by
  have hlow : 2 ^ k - 1 < 2 ^ k := Nat.sub_lt (Nat.two_pow_pos k) Nat.one_pos
  have hor : a ||| (2 ^ k - 1) = (a / 2 ^ k) <<< k ||| (2 ^ k - 1) := by
    refine Nat.eq_of_testBit_eq fun i => ?_
    rw [Nat.testBit_or, Nat.testBit_or, Nat.testBit_shiftLeft, Nat.testBit_two_pow_sub_one,
      ← Nat.shiftRight_eq_div_pow, Nat.testBit_shiftRight]
    by_cases hi : i < k
    · simp [hi]
    · have hsum : k + (i - k) = i := by omega
      simp [hi, hsum, Nat.not_lt.mp hi]
  rw [hor, ← Nat.shiftLeft_add_eq_or_of_lt hlow, Nat.shiftLeft_eq]

/-- The complement of a mask has the low bits. -/
theorem compl_prefixMask {p : ℕ} (hp : p ≤ 32) : 2 ^ 32 - 1 - prefixMask p = 2 ^ (32 - p) - 1 := by
  interval_cases p <;> rfl

/-- The first address of the block of the addresses that share their first `p` bits with `a`. -/
def blockStart (a p : ℕ) : ℕ := a / 2 ^ (32 - p) * 2 ^ (32 - p)

/-- The network address is the first address of the block, as masking clears the low bits. -/
theorem networkOf_prefixMask {a p : ℕ} (ha : a < 2 ^ 32) (hp : p ≤ 32) :
    networkOf a (prefixMask p) = blockStart a p := by
  rw [networkOf, and_prefixMask ha hp, blockStart, Nat.shiftLeft_eq, Nat.shiftRight_eq_div_pow]

/-- The broadcast address is its last one, as it has the low bits set. -/
theorem broadcastOf_prefixMask (a : ℕ) {p : ℕ} (hp : p ≤ 32) :
    broadcastOf a (prefixMask p) = blockStart a p + (2 ^ (32 - p) - 1) := by
  rw [broadcastOf, compl_prefixMask hp, or_two_pow_sub_one, blockStart]

/-- `parse_cidr` yields the block, from its first address on. -/
theorem parseCidr_block {a p : ℕ} (ha : a < 2 ^ 32) (hpos : 0 < p) (hp : p ≤ 32) :
    parseCidr (cidrText a p) = some (blockStart a p, 2 ^ (32 - p)) := by
  rw [parseCidr_cidrText ha hp, cidrBlock, blockSize_eq hpos hp, ← networkOf_prefixMask ha hp]
  rfl

/-- Every address of a block stands for it: the low bits do not matter. -/
theorem blockStart_of_mem {a x p : ℕ} (hlo : blockStart a p ≤ x)
    (hhi : x < blockStart a p + 2 ^ (32 - p)) : blockStart x p = blockStart a p := by
  unfold blockStart at *
  congr 1
  exact Nat.div_eq_of_lt_le hlo (by rwa [Nat.add_mul, Nat.one_mul])

/-! ### What is printed -/

/-- What `fetch` finds out about the interface that it selects, for whatever target. -/
theorem fetch_of_selected {routedIp : Option ℕ} {ifaddrs : Option (List IfAddrs)} {a m : ℕ}
    (hsel : selectedInterface routedIp ifaddrs = some (a, m)) (targetBaseIp totalHosts : ℕ) :
    (NetworkInterface.fetch routedIp ifaddrs targetBaseIp totalHosts).ip = formatIp a ∧
      (NetworkInterface.fetch routedIp ifaddrs targetBaseIp totalHosts).network =
        formatIp (networkOf a m) ∧
      (NetworkInterface.fetch routedIp ifaddrs targetBaseIp totalHosts).broadcast =
        formatIp (broadcastOf a m) := by
  obtain _ | localIp := routedIp
  · cases hsel
  obtain _ | ifas := ifaddrs
  · cases hsel
  rw [NetworkInterface.fetch]
  change ifas.findSome? (fun ifa => ifa.selected? localIp) = some (a, m) at hsel
  -- the loop stops at the first interface that is selected
  induction ifas with
  | nil => cases hsel
  | cons ifa rest ih =>
    rw [NetworkInterface.fetchLoop]
    rw [List.findSome?_cons] at hsel
    cases hfirst : ifa.selected? localIp with
    | none =>
      rw [hfirst] at hsel
      exact ih hsel
    | some found =>
      rw [hfirst] at hsel
      cases hsel
      exact ⟨rfl, rfl, rfl⟩

/-- `format_ip` writes something, so the text can be told from the empty one of a missing
interface. -/
theorem formatIp_ne_empty (ip : ℕ) : formatIp ip ≠ "" := by
  intro hempty
  have hlen := congrArg String.length hempty
  simp [formatIp] at hlen

/-- The bytes of a text, as an argument holds them. -/
def bytesOf (text : String) : CString := text.toList.map fun c => UInt8.ofNat c.toNat

/-- The options that print an address of the local interface: `-L`, `-B` and `-N`. -/
inductive PrintFlag where
  /-- `-L`. -/
  | localIp
  /-- `-B`. -/
  | broadcast
  /-- `-N`. -/
  | network
  deriving DecidableEq, Repr

namespace PrintFlag

/-- The short name of the option, as argp gives it as the key. -/
def name : PrintFlag → Char
  | localIp => 'L'
  | broadcast => 'B'
  | network => 'N'

/-- The address that the option prints, of the interface with address `a` and mask `m`. -/
def address (a m : ℕ) : PrintFlag → ℕ
  | localIp => a
  | broadcast => broadcastOf a m
  | network => networkOf a m

/-- What the program prints with the option alone: the address of the interface that `fetch`
selects. -/
theorem main_alone (flag : PrintFlag) {routedIp : Option ℕ} {ifaddrs : Option (List IfAddrs)}
    {a m : ℕ} (hsel : selectedInterface routedIp ifaddrs = some (a, m)) :
    main routedIp ifaddrs [(.short flag.name, [])] = .printed [formatIp (flag.address a m)] := by
  obtain ⟨hip, hnetwork, hbroadcast⟩ := fetch_of_selected hsel 0 0
  cases flag <;>
    simp [main, readOptions, parseOpt, name, dispatch, printInterface, hip, hnetwork, hbroadcast,
      formatIp_ne_empty, address]

end PrintFlag

/-! ### The scan of the subnet -/

/-- What a scan that returns has covered are the addresses strictly between `lo` and `hi`: a TCP
scan has tried each of them once; a ping scan has sent to each of them once, but for those that were
found before the cursor reached them. -/
def Scan.Covers (routedIp : Option ℕ) (ifaddrs : Option (List IfAddrs)) (pid lo hi : ℕ) :
    Scan → Prop
  | .ping config =>
    ∀ (k : PingKernel) (w : PingWorld),
      Reachable (PingScanner.construct config routedIp ifaddrs pid).step
        (PingScanner.start
          (PingScanner.construct config routedIp ifaddrs pid).initializeBuffers k) w →
      w.pc = .returned false →
      (PingScanner.acceptedIps w.trace).Pairwise (· < ·) ∧
        ∀ ip, ip ∈ PingScanner.acceptedIps w.trace ↔
          lo < ip ∧ ip < hi ∧ ¬ PingScanner.FoundBefore lo w.trace (ip - lo)
  | .tcp config =>
    ∀ (clock : Timespec) (w : TcpWorld),
      Reachable (TcpScanner.construct config routedIp ifaddrs).step
        (TcpScanner.start (TcpScanner.construct config routedIp ifaddrs).initialState clock) w →
      w.pc = .returned →
      (TcpScanner.connectedIps w.trace ++ TcpScanner.lostIps w.trace).Perm
        (List.range' (lo + 1) (hi - lo - 1))

section Scanned

variable {routedIp : Option ℕ} {ifaddrs : Option (List IfAddrs)} {a p : ℕ}

/-- The addresses that both scanners leave out are the bounds of the subnet. -/
theorem isSubnetAddress_iff (hsel : selectedInterface routedIp ifaddrs = some (a, prefixMask p))
    {ip : ℕ} : IsSubnetAddress routedIp ifaddrs ip ↔
      ip = networkOf a (prefixMask p) ∨ ip = broadcastOf a (prefixMask p) := by
  constructor
  · rintro ⟨a', m', hsel', hip⟩
    rw [hsel] at hsel'
    cases hsel'
    exact hip
  · exact fun hip => ⟨a, prefixMask p, hsel, hip⟩

/-- The hosts of the block that are neither of its bounds lie strictly between them. -/
theorem exists_host_iff (hsel : selectedInterface routedIp ifaddrs = some (a, prefixMask p))
    (ha : a < 2 ^ 32) (hp : p ≤ 32) {ip : ℕ} :
    (∃ h < 2 ^ (32 - p), ip = blockStart a p + h ∧ ¬ IsSubnetAddress routedIp ifaddrs ip) ↔
      networkOf a (prefixMask p) < ip ∧ ip < broadcastOf a (prefixMask p) := by
  have hsize : 0 < 2 ^ (32 - p) := Nat.two_pow_pos _
  rw [isSubnetAddress_iff hsel, networkOf_prefixMask ha hp, broadcastOf_prefixMask a hp]
  constructor
  · rintro ⟨h, hlt, rfl, hbound⟩
    omega
  · rintro ⟨hlo, hhi⟩
    exact ⟨ip - blockStart a p, by omega, by omega, by omega⟩

/-- A ping scan of the subnet covers it: the coverage of the scanner, for this range. -/
theorem ping_covers (hsel : selectedInterface routedIp ifaddrs = some (a, prefixMask p))
    (ha : a < 2 ^ 32) (hp : p ≤ 32) {input : CString} {config : PingScannerConfig}
    (hparse : parseCidr input = some (config.baseIp, config.totalHosts))
    (hbase : config.baseIp = blockStart a p) (htotal : config.totalHosts = 2 ^ (32 - p))
    (pid : ℕ) :
    (Scan.ping config).Covers routedIp ifaddrs pid (networkOf a (prefixMask p))
      (broadcastOf a (prefixMask p)) := by
  intro k w hw hret
  have hP := PingScanner.ranged_construct hparse routedIp ifaddrs pid
  have hs := PingScanner.sized_initializeBuffers
    (PingScanner.construct config routedIp ifaddrs pid)
  have hcover := PingScanner.coverInv_of_reachable hP hs hw
  have hans := PingScanner.answerInv_of_reachable hP hs hw
  obtain ⟨hleft, -⟩ := PingScanner.left_of_returned hw hret
  refine ⟨hcover.pairwise_acceptedIps, fun ip => ?_⟩
  rw [PingScanner.mem_acceptedIps_of_returned hcover hans hret hleft, ← and_assoc,
    ← exists_host_iff hsel ha hp, networkOf_prefixMask ha hp, ← hbase, ← htotal]
  constructor
  -- a host that is sent to is not skipped, so it is none of the two subnet addresses
  · rintro ⟨h, hlt, rfl, hlocal, hnot⟩
    refine ⟨⟨h, hlt, rfl, fun hsub => ?_⟩, ?_⟩
    · have hskip := (PingScanner.skipsLocal_construct hP hlt).mpr hsub
      exact absurd (hskip.symm.trans hlocal) (by decide)
    · rwa [show (PingScanner.construct config routedIp ifaddrs pid).baseIp + h - config.baseIp = h
        from Nat.add_sub_cancel_left _ _]
  -- and a host between them is not skipped
  · rintro ⟨⟨h, hlt, rfl, hsub⟩, hnot⟩
    rw [Nat.add_sub_cancel_left] at hnot
    refine ⟨h, hlt, rfl, ?_, hnot⟩
    exact Bool.eq_false_iff.mpr fun hskip =>
      hsub ((PingScanner.skipsLocal_construct hP hlt).mp hskip)

/-- A TCP scan of the subnet covers it: the coverage of the scanner, for this range. -/
theorem tcp_covers (hsel : selectedInterface routedIp ifaddrs = some (a, prefixMask p))
    (ha : a < 2 ^ 32) (hp : p ≤ 32) {input : CString} {config : TcpScannerConfig}
    (hparse : parseCidr input = some (config.baseIp, config.totalHosts))
    (hbase : config.baseIp = blockStart a p) (htotal : config.totalHosts = 2 ^ (32 - p))
    (pid : ℕ) :
    (Scan.tcp config).Covers routedIp ifaddrs pid (networkOf a (prefixMask p))
      (broadcastOf a (prefixMask p)) := by
  intro clock w hw hret
  have hP := TcpScanner.ranged_construct hparse routedIp ifaddrs
  have hs := TcpScanner.idle_initialState (TcpScanner.construct config routedIp ifaddrs)
  refine (TcpScanner.perm_hostsToProbe_of_returned hP hs hw hret).trans ?_
  -- both lists are free of repetitions, so they are compared by their members
  refine (List.perm_ext_iff_of_nodup TcpScanner.nodup_hostsToProbe List.nodup_range').mpr ?_
  intro ip
  have hmem : ip ∈ (TcpScanner.construct config routedIp ifaddrs).hostsToProbe config.totalHosts ↔
      networkOf a (prefixMask p) < ip ∧ ip < broadcastOf a (prefixMask p) := by
    rw [TcpScanner.mem_hostsToProbe_construct hP, ← exists_host_iff hsel ha hp, hbase, htotal]
  have htotalHosts :
      (TcpScanner.construct config routedIp ifaddrs).totalHosts = config.totalHosts :=
    rfl
  rw [htotalHosts, hmem, List.mem_range'_1]
  omega

/-- A scan of the subnet covers it, in either mode. -/
theorem covers_of_parseCidr (hsel : selectedInterface routedIp ifaddrs = some (a, prefixMask p))
    (ha : a < 2 ^ 32) (hp : p ≤ 32) {config : Config} {scan : Scan}
    (hparse : parseCidr config.cidrArg = some (blockStart a p, 2 ^ (32 - p)))
    (hscan : executeNetworkScan config = some scan) (pid : ℕ) :
    scan.Covers routedIp ifaddrs pid (networkOf a (prefixMask p))
      (broadcastOf a (prefixMask p)) := by
  rcases executeNetworkScan_cases hscan with
    ⟨ping, rfl, hping, -, -⟩ | ⟨tcp, rfl, htcp, -, -⟩
  · obtain ⟨hbase, htotal⟩ := Prod.mk.inj (Option.some.inj (hping.symm.trans hparse))
    exact ping_covers hsel ha hp hping hbase htotal pid
  · obtain ⟨hbase, htotal⟩ := Prod.mk.inj (Option.some.inj (htcp.symm.trans hparse))
    exact tcp_covers hsel ha hp htcp hbase htotal pid

/-- The address that an option prints is one of the block, so its text stands for the block. -/
theorem address_mem_block (ha : a < 2 ^ 32) (hp : p ≤ 32) (flag : PrintFlag) :
    blockStart a p ≤ flag.address a (prefixMask p) ∧
      flag.address a (prefixMask p) < blockStart a p + 2 ^ (32 - p) := by
  have hsize : 0 < 2 ^ (32 - p) := Nat.two_pow_pos _
  cases flag with
  | localIp =>
    exact ⟨Nat.div_mul_le_self a _, Nat.lt_div_mul_add hsize⟩
  | broadcast =>
    have hbroadcast := broadcastOf_prefixMask a hp
    simp only [PrintFlag.address]
    omega
  | network =>
    have hnetwork := networkOf_prefixMask ha hp
    simp only [PrintFlag.address]
    omega

/-- What an option prints, with the prefix length behind it, is parsed as the block. -/
theorem parseCidr_printed (ha : a < 2 ^ 32) (hpos : 0 < p) (hp : p ≤ 32) (flag : PrintFlag) :
    parseCidr (bytesOf (formatIp (flag.address a (prefixMask p))) ++ 47 :: decimal p) =
      some (blockStart a p, 2 ^ (32 - p)) := by
  obtain ⟨hlo, hhi⟩ := address_mem_block ha hp flag
  have hfits := parseCidr_range (parseCidr_block ha hpos hp)
  rw [bytesOf, ← dottedQuad_eq_formatIp, ← cidrText, parseCidr_block (by omega) hpos hp,
    blockStart_of_mem hlo hhi]

/-- **The program can scan the subnet that it reports.** With one of `-L`, `-B` and `-N` the program
prints an address, if the local interface has a netmask of `p` leading ones; with this text, a slash
and `p` as its argument, whatever the other options, a run of the program is a scan that covers the
addresses strictly between the network and the broadcast address of the interface. -/
theorem scans_own_subnet (hsel : selectedInterface routedIp ifaddrs = some (a, prefixMask p))
    (ha : a < 2 ^ 32) (hpos : 0 < p) (hp : p ≤ 32) (flag : PrintFlag) :
    ∃ text, main routedIp ifaddrs [(.short flag.name, [])] = .printed [text] ∧
      ∀ keys config, readOptions keys {} = some config →
        config.cidrArg = bytesOf text ++ 47 :: decimal p →
        config.mode = "ping" ∨ config.mode = "tcp" →
        (config.printLocalIp || config.printBroadcastIp || config.printNetworkIp) = false →
        ∃ scan, main routedIp ifaddrs keys = .scan scan ∧
          ∀ pid, scan.Covers routedIp ifaddrs pid (networkOf a (prefixMask p))
            (broadcastOf a (prefixMask p)) := by
  refine ⟨_, flag.main_alone hsel, fun keys config hread hcidr hmode hflags => ?_⟩
  have hparse := parseCidr_printed ha hpos hp flag
  rw [← hcidr] at hparse
  have hne : config.cidrArg ≠ [] := by
    rw [hcidr]
    simp
  -- the argument is parsed and the mode is known, so there is a scan
  obtain ⟨scan, hscan⟩ : ∃ scan, executeNetworkScan config.toConfig = some scan := by
    rw [executeNetworkScan, hparse]
    rcases hmode with hmode | hmode <;> simp [hmode]
  refine ⟨scan, ?_, covers_of_parseCidr hsel ha hp hparse hscan⟩
  have harp : config.mode ≠ "arp" := by
    rcases hmode with hmode | hmode <;> simp [hmode]
  rw [main, hread]
  simp only [dispatch, hflags, Bool.false_eq_true, if_false, harp, hne, hscan]

end Scanned

/-- With the address `192.168.10.77` and the netmask `255.255.255.0`: what `-N` prints, handed back
with `/24` and `-m tcp`, is scanned from `192.168.10.1` to `192.168.10.254`. -/
theorem scans_own_subnet_home :
    ∃ text, main (some 3232238157)
        (some [⟨"lo", some (2, 2130706433), some 4278190080, 0x9⟩,
          ⟨"wlan0", some (2, 3232238157), some 4294967040, 0x3⟩]) [(.short 'N', [])] =
        .printed [text] ∧
      ∃ scan, main (some 3232238157)
          (some [⟨"lo", some (2, 2130706433), some 4278190080, 0x9⟩,
            ⟨"wlan0", some (2, 3232238157), some 4294967040, 0x3⟩])
          [(.short 'm', [116, 99, 112]), (.arg 0, bytesOf text ++ 47 :: decimal 24)] =
          .scan scan ∧
        ∀ pid, scan.Covers (some 3232238157)
          (some [⟨"lo", some (2, 2130706433), some 4278190080, 0x9⟩,
            ⟨"wlan0", some (2, 3232238157), some 4294967040, 0x3⟩]) pid 3232238080 3232238335 := by
  obtain ⟨text, hprint, hscan⟩ := @scans_own_subnet (some 3232238157)
    (some [⟨"lo", some (2, 2130706433), some 4278190080, 0x9⟩,
      ⟨"wlan0", some (2, 3232238157), some 4294967040, 0x3⟩]) 3232238157 24 (by decide) (by decide)
    (by decide) (by decide) .network
  exact ⟨text, hprint, hscan _ _ rfl rfl (.inr (show textOf [116, 99, 112] = "tcp" by decide)) rfl⟩

end Netscan
