import Netscan.Lib.LastWins
import Netscan.Options

/-! # From the command line to what is done

argp calls `parse_opt` for one argument after the other, and `main` decides from the `Config` that
this leaves. What counts of the arguments is the last value of every option, and whether there is a
second positional argument. -/

namespace Netscan

open MachineInt LastWins

/-! ### The arguments -/

/-- argp on a list of keys with their arguments: `none` when `parse_opt` has printed the usage and
left the program. argp goes on after a key that `parse_opt` does not know. -/
def readOptions : List (OptionKey × CString) → MainConfig → Option MainConfig
  | [], config => some config
  | (key, arg) :: rest, config =>
    match parseOpt key arg config with
    | (.usage, _) => none
    | (_, config) => readOptions rest config

/-- The `Config` that is read off from the last argument of every key. -/
def configOf (last : OptionKey → Option CString) : MainConfig where
  cidrArg := (last (.arg 0)).getD []
  mode := ((last (.short 'm')).map textOf).getD "ping"
  port := ((last (.short 'p')).map fun arg => u16 (strtoul arg)).getD 443
  payloadLen := ((last (.short 'l')).map strtoul).getD 0
  maxProbes := ((last (.short 'c')).map strtoul).getD 4096
  timeoutMs := ((last (.short 't')).map fun arg => u32 (strtoul arg)).getD 0
  sendBatch := ((last (.short 's')).map strtoul).getD 4
  recvBatch := ((last (.short 'r')).map strtoul).getD 128
  resolveDns := ((last (.short 'd')).map fun arg => decide (strtoul arg ≠ 0)).getD true
  printLocalIp := (last (.short 'L')).isSome
  printBroadcastIp := (last (.short 'B')).isSome
  printNetworkIp := (last (.short 'N')).isSome

/-- The key of a positional argument behind the first one. -/
def OptionKey.isSecond : OptionKey → Bool
  | .arg argNum => decide (1 ≤ argNum)
  | _ => false

/-- `parse_opt` prints the usage for these only, by its cases. -/
theorem parseOpt_usage_iff (key : OptionKey) (arg : CString) (config : MainConfig) :
    (parseOpt key arg config).1 = .usage ↔ key.isSecond = true := by
  unfold parseOpt OptionKey.isSecond
  split
  case h_12 argNum =>
    by_cases hfirst : argNum ≥ 1 <;> simp [hfirst]
  all_goals simp

/-- `parse_opt` replaces the value of its key and leaves those of the others. -/
theorem parseOpt_configOf (last : OptionKey → Option CString) (key : OptionKey) (arg : CString)
    (hkey : key.isSecond = false) :
    (parseOpt key arg (configOf last)).2 = configOf (Function.update last key (some arg)) := by
  unfold parseOpt
  split
  case h_12 argNum =>
    obtain rfl : argNum = 0 := by simpa [OptionKey.isSecond] using hkey
    simp [configOf, Function.update]
  case h_14 hm hp hl hc ht hs hr hd hL hB hN harg hfinish =>
    -- a key that `parse_opt` does not know is read for no field
    have hother : ∀ k, (key = k → False) → Function.update last key (some arg) k = last k :=
      fun k hk => Function.update_of_ne (Ne.symm hk) _ _
    simp only [configOf, hother _ hm, hother _ hp, hother _ hl, hother _ hc, hother _ ht,
      hother _ hs, hother _ hr, hother _ hd, hother _ hL, hother _ hB, hother _ hN,
      hother _ (harg 0)]
  all_goals simp [configOf, Function.update]

/-- What argp does with one key more: it leaves the program, or it goes on with what was stored. -/
theorem readOptions_cons (key : OptionKey) (arg : CString) (rest : List (OptionKey × CString))
    (config : MainConfig) :
    readOptions ((key, arg) :: rest) config =
      if key.isSecond = true then none else readOptions rest (parseOpt key arg config).2 := by
  have hiff := parseOpt_usage_iff key arg config
  rw [readOptions]
  split
  · rename_i heq
    rw [if_pos (hiff.mp (by rw [heq]))]
  · rename_i outcome config' hne heq
    rw [heq] at hiff
    rw [if_neg fun hsecond => hne (hiff.mpr hsecond), heq]

/-- argp leaves the program if there is a second positional argument, and folds `parse_opt` over the
keys otherwise. -/
theorem readOptions_eq_foldl (keys : List (OptionKey × CString)) :
    ∀ config, readOptions keys config =
      if keys.any (fun e => e.1.isSecond) then none
      else some (keys.foldl (fun config e => (parseOpt e.1 e.2 config).2) config) := by
  induction keys with
  | nil => exact fun _ => rfl
  | cons e rest ih =>
    intro config
    rw [readOptions_cons, List.any_cons, List.foldl_cons, ih]
    cases e.1.isSecond <;> rfl

/-- **What counts of the arguments.** Without a second positional argument, the `Config` is the one
that is read off from the last value of every key. -/
theorem readOptions_eq (keys : List (OptionKey × CString)) :
    readOptions keys {} =
      if keys.any (fun e => e.1.isSecond) then none else some (configOf (lastValue keys)) := by
  rw [readOptions_eq_foldl]
  split_ifs with hsecond
  · rfl
  · have hstep : ∀ e ∈ keys, ∀ last, (parseOpt e.1 e.2 (configOf last)).2 =
        configOf (Function.update last e.1 (some e.2)) := by
      intro e he last
      refine parseOpt_configOf last e.1 e.2 (Bool.eq_false_iff.mpr fun hkey => hsecond ?_)
      exact List.any_eq_true.mpr ⟨e, he, hkey⟩
    have hread : keys.foldl (fun config e => (parseOpt e.1 e.2 config).2) (configOf fun _ => none) =
        configOf fun k => (lastValue keys k).or none := foldl_read hstep _
    simp only [Option.or_none] at hread
    exact congrArg some hread

/-! ### `main` -/

/-- What `main` does, as seen from outside. -/
inductive MainOutcome where
  /-- The usage is printed. -/
  | usage
  /-- `1` is returned after this text on `stderr`. -/
  | failed (message : String)
  /-- `0` is returned after these lines on `stdout`. -/
  | printed (lines : List String)
  /-- `handle_arp_mode`. -/
  | arp (resolveDns : Bool)
  /-- A scanner is built and run. -/
  | scan (scan : Scan)

/-- What `execute_network_scan` writes when it returns `1`, for an address or a mode that it does
not know. -/
def executeNetworkScanError (config : Config) : String :=
  match parseCidr config.cidrArg with
  | none => "Invalid CIDR specification: " ++ textOf config.cidrArg ++ "\n"
  | some _ => "Unknown scan mode: " ++ config.mode ++ ". Use 'ping', 'tcp', or 'arp'.\n"

/-- The branch of `main` for the three flags that print an address of the interface. -/
def printInterface (routedIp : Option ℕ) (ifaddrs : Option (List IfAddrs)) (config : MainConfig) :
    MainOutcome :=
  match if config.cidrArg = [] then some (0, 0) else parseCidr config.cidrArg with
  | none => .failed ("Invalid CIDR specification: " ++ textOf config.cidrArg ++ "\n")
  | some (baseIp, totalHosts) =>
    let interface := NetworkInterface.fetch routedIp ifaddrs baseIp totalHosts
    if interface.ip = "" ∨ interface.network = "" ∨ interface.broadcast = "" then
      .failed "Error: Could not determine local network interface.\n"
    else
      .printed ((if config.printLocalIp then [interface.ip] else []) ++
        (if config.printBroadcastIp then [interface.broadcast] else []) ++
        if config.printNetworkIp then [interface.network] else [])

/-- `main` behind the call of `argp_parse`: the branches in their order. -/
def dispatch (routedIp : Option ℕ) (ifaddrs : Option (List IfAddrs)) (config : MainConfig) :
    MainOutcome :=
  if config.printLocalIp || config.printBroadcastIp || config.printNetworkIp then
    printInterface routedIp ifaddrs config
  else if config.mode = "arp" then .arp config.resolveDns
  else if config.cidrArg = [] then
    .failed "Error: No target CIDR or IP specified. Run with --help for usage.\n"
  else
    match executeNetworkScan config.toConfig with
    | some scan => .scan scan
    | none => .failed (executeNetworkScanError config.toConfig)

/-- `main`, from the keys that argp finds on the command line. -/
def main (routedIp : Option ℕ) (ifaddrs : Option (List IfAddrs))
    (keys : List (OptionKey × CString)) : MainOutcome :=
  match readOptions keys {} with
  | none => .usage
  | some config => dispatch routedIp ifaddrs config

/-- Whether there is a second positional argument can be told from the last values. -/
theorem any_isSecond_congr {keys keys' : List (OptionKey × CString)}
    (h : ∀ k, lastValue keys k = lastValue keys' k) :
    keys.any (fun e => e.1.isSecond) = keys'.any fun e => e.1.isSecond := by
  have hiff : ∀ l : List (OptionKey × CString), l.any (fun e => e.1.isSecond) = true ↔
      ∃ k : OptionKey, k.isSecond = true ∧ (lastValue l k).isSome = true := by
    intro l
    simp only [List.any_eq_true, isSome_lastValue]
    constructor
    · rintro ⟨e, he, hsecond⟩
      exact ⟨e.1, hsecond, e, he, rfl⟩
    · rintro ⟨k, hsecond, e, he, rfl⟩
      exact ⟨e, he, hsecond⟩
  rw [Bool.eq_iff_iff, hiff, hiff]
  simp only [h]

/-- **The arguments, without their order.** The program prints the usage if there is a second
positional argument and otherwise acts on the last value of every option, with the defaults for the
others. So command lines with the same last values do the same, and one that sets nothing twice does
the same in any order. -/
theorem main_last_wins (routedIp : Option ℕ) (ifaddrs : Option (List IfAddrs))
    (keys : List (OptionKey × CString)) :
    main routedIp ifaddrs keys =
        (if keys.any fun e => e.1.isSecond then .usage
        else dispatch routedIp ifaddrs (configOf (lastValue keys))) ∧
      (∀ keys', (∀ k, lastValue keys k = lastValue keys' k) →
        main routedIp ifaddrs keys' = main routedIp ifaddrs keys) ∧
      ∀ keys', keys.Perm keys' → (keys.map Prod.fst).Nodup →
        main routedIp ifaddrs keys' = main routedIp ifaddrs keys := by
  -- what the options leave behind is read off from their last values
  have hmain : ∀ keys, main routedIp ifaddrs keys =
      if keys.any fun e => e.1.isSecond then .usage
      else dispatch routedIp ifaddrs (configOf (lastValue keys)) := by
    intro keys
    rw [main, readOptions_eq]
    split_ifs <;> rfl
  have hsame : ∀ keys', (∀ k, lastValue keys k = lastValue keys' k) →
      main routedIp ifaddrs keys' = main routedIp ifaddrs keys := by
    intro keys' h
    rw [hmain, hmain, any_isSecond_congr h, funext h]
  exact ⟨hmain keys, hsame, fun keys' hperm hkeys => hsame keys' (lastValue_of_perm hperm hkeys)⟩

/-- `-m tcp -p 443 10.0.0.9/30` in two orders, and with a `-p 22` in front that `-p 443`
overrides. -/
theorem main_last_wins_reordered :
    let mode : OptionKey × CString := (.short 'm', [116, 99, 112])
    let port : OptionKey × CString := (.short 'p', [52, 52, 51])
    let cidr : OptionKey × CString := (.arg 0, [49, 48, 46, 48, 46, 48, 46, 57, 47, 51, 48])
    main none none [cidr, port, mode] = main none none [mode, port, cidr] ∧
      main none none [(.short 'p', [50, 50]), mode, port, cidr] =
        main none none [mode, port, cidr] := by
  intro mode port cidr
  obtain ⟨-, hlast, hperm⟩ := main_last_wins none none [mode, port, cidr]
  refine ⟨hperm _ (List.reverse_perm _).symm (by decide), hlast _ fun k => ?_⟩
  rw [lastValue_cons (OptionKey.short 'p', [50, 50])]
  by_cases hk : OptionKey.short 'p' = k
  · subst hk
    decide
  · rw [if_neg hk, Option.or_none]

end Netscan
