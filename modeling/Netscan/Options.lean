import Netscan.Main
import Netscan.Utils.CidrText

/-! # The command line options

`parse_opt` of `main.cpp`, which argp calls for every option, and the `strtoul` that it reads
numbers with. The six numeric options differ in the width of their fields only (`NumericOption`).
None of them rejects anything: what `strtoul` makes of an argument is cut down to the field. -/

namespace Netscan

open MachineInt

/-! ### `strtoul` -/

/-- `strtoul(nptr, nullptr, 10)`: blanks, a sign and digits. A number that is too large becomes the
largest `unsigned long`, any other is negated after `-`; without a digit the value is `0`. -/
def strtoul (nptr : CString) : ℕ :=
  let body := nptr.dropWhile isSpace
  let (neg, rest) := match body with
    | 45 :: s => (true, s)
    | 43 :: s => (false, s)
    | s => (false, s)
  let n := (readDigits rest 0).1
  if 2 ^ 64 ≤ n then 2 ^ 64 - 1 else if neg then subU64 0 n else n

/-- `strtoul` yields 64-bit words, as it saturates. -/
theorem strtoul_lt (nptr : CString) : strtoul nptr < 2 ^ 64 := by
  unfold strtoul
  dsimp only
  split_ifs
  · decide
  · exact Nat.mod_lt _ (by decide)
  · omega

/-- `strtoul` reads a numeral of a 64-bit word as what it denotes. -/
theorem strtoul_of_numeral {ds : CString} (hds : IsNumeral ds) (hlt : decimalValue ds < 2 ^ 64) :
    strtoul ds = decimalValue ds := by
  obtain ⟨ch, t, rfl⟩ := List.exists_cons_of_ne_nil hds.ne_nil
  have hch := hds.digits ch List.mem_cons_self
  -- the numeral begins with a digit, which is neither a blank nor a sign
  have hbody : (ch :: t).dropWhile isSpace = ch :: t :=
    List.dropWhile_cons_of_neg (by simp [isSpace_eq_false (.inl hch)])
  have hminus : ch ≠ 45 := by
    rintro rfl
    cases hch
  have hplus : ch ≠ 43 := by
    rintro rfl
    cases hch
  have hread : readDigits (ch :: t) 0 = (decimalValue (ch :: t), []) :=
    readDigits_eq_nil.mpr ⟨hds.digits, rfl⟩
  rw [strtoul, hbody]
  split
  rename_i neg rest heq
  split at heq
  · rename_i hs
    cases hs
    exact absurd rfl hminus
  · rename_i hs
    cases hs
    exact absurd rfl hplus
  · obtain ⟨rfl, rfl⟩ := Prod.mk.inj heq
    rw [hread]
    exact if_neg (Nat.not_le.mpr hlt)

/-! ### `parse_opt` -/

/-- `Config`, with the flags that `main` reads itself. -/
structure MainConfig extends Config where
  /-- `print_local_ip`. -/
  printLocalIp : Bool := false
  /-- `print_broadcast_ip`. -/
  printBroadcastIp : Bool := false
  /-- `print_network_ip`. -/
  printNetworkIp : Bool := false

/-- The keys that argp hands to `parse_opt`. -/
inductive OptionKey where
  /-- An option, by its short name. -/
  | short (name : Char)
  /-- `ARGP_KEY_ARG`, with the number of arguments before this one (`state->arg_num`). -/
  | arg (argNum : ℕ)
  /-- `ARGP_KEY_END`. -/
  | finish
  /-- Any other key. -/
  | other
  deriving DecidableEq, Repr

/-- How `parse_opt` ends, by its return value or by leaving the program. -/
inductive OptionOutcome where
  /-- It returns `0`. -/
  | accepted
  /-- It returns `ARGP_ERR_UNKNOWN`. -/
  | unknown
  /-- It prints the usage and leaves the program. -/
  | usage
  deriving DecidableEq, Repr

/-- The text of a C string, byte by byte. -/
def textOf (s : CString) : String := String.ofList (s.map fun ch => Char.ofNat ch.toNat)

/-- `parse_opt`, on one key with its argument. -/
def parseOpt (key : OptionKey) (arg : CString) (config : MainConfig) :
    OptionOutcome × MainConfig :=
  match key with
  | .short 'm' => (.accepted, { config with mode := textOf arg })
  | .short 'p' => (.accepted, { config with port := u16 (strtoul arg) })
  | .short 'l' => (.accepted, { config with payloadLen := strtoul arg })
  | .short 'c' => (.accepted, { config with maxProbes := strtoul arg })
  | .short 't' => (.accepted, { config with timeoutMs := u32 (strtoul arg) })
  | .short 's' => (.accepted, { config with sendBatch := strtoul arg })
  | .short 'r' => (.accepted, { config with recvBatch := strtoul arg })
  | .short 'd' => (.accepted, { config with resolveDns := strtoul arg ≠ 0 })
  | .short 'L' => (.accepted, { config with printLocalIp := true })
  | .short 'B' => (.accepted, { config with printBroadcastIp := true })
  | .short 'N' => (.accepted, { config with printNetworkIp := true })
  | .arg argNum =>
    if argNum ≥ 1 then (.usage, config) else (.accepted, { config with cidrArg := arg })
  | .finish => (.accepted, config)
  | _ => (.unknown, config)

/-! ### The numeric options -/

/-- The options that store a number, each in a field of its own. -/
inductive NumericOption where
  /-- `-p`. -/
  | port
  /-- `-l`. -/
  | payloadLen
  /-- `-c`. -/
  | maxProbes
  /-- `-t`. -/
  | timeoutMs
  /-- `-s`. -/
  | sendBatch
  /-- `-r`. -/
  | recvBatch
  deriving DecidableEq, Repr

namespace NumericOption

/-- The short name of the option, as argp gives it as the key. -/
def name : NumericOption → Char
  | port => 'p'
  | payloadLen => 'l'
  | maxProbes => 'c'
  | timeoutMs => 't'
  | sendBatch => 's'
  | recvBatch => 'r'

/-- The width of the option's field, to which `strtoul`'s result is cut. -/
def bits : NumericOption → ℕ
  | port => 16
  | timeoutMs => 32
  | _ => 64

/-- The configuration with the option's field set to `n`. -/
def store (n : ℕ) (config : MainConfig) : NumericOption → MainConfig
  | port => { config with port := n }
  | payloadLen => { config with payloadLen := n }
  | maxProbes => { config with maxProbes := n }
  | timeoutMs => { config with timeoutMs := n }
  | sendBatch => { config with sendBatch := n }
  | recvBatch => { config with recvBatch := n }

/-- The argument is a numeral of a number that fits the field. -/
def Denotes (o : NumericOption) (arg : CString) : Prop :=
  IsNumeral arg ∧ decimalValue arg < 2 ^ o.bits

/-- The option means what it says on this argument: a numeral that fits is stored, and nothing else
is. -/
structure ReadsNumber (o : NumericOption) (arg : CString) : Prop where
  /-- What is accepted is a numeral, and the number it denotes is stored. -/
  exact : ∀ config, (parseOpt (.short o.name) arg config).1 = .accepted →
    IsNumeral arg ∧ (parseOpt (.short o.name) arg config).2 = o.store (decimalValue arg) config
  /-- What is no numeral, or too large for the field, is rejected. -/
  rejected : ∀ config, ¬ o.Denotes arg → (parseOpt (.short o.name) arg config).1 ≠ .accepted ∧
    (parseOpt (.short o.name) arg config).2 = config

/-- `parse_opt` accepts every argument of a numeric option and stores the low bits of what `strtoul`
makes of it. -/
theorem parseOpt_eq (o : NumericOption) (arg : CString) (config : MainConfig) :
    parseOpt (.short o.name) arg config =
      (.accepted, o.store (strtoul arg % 2 ^ o.bits) config) := by
  have hword : strtoul arg % 2 ^ 64 = strtoul arg := Nat.mod_eq_of_lt (strtoul_lt arg)
  cases o with
  | port | timeoutMs => rfl
  -- an `unsigned long` fills a `size_t`, so nothing is cut off
  | payloadLen | maxProbes | sendBatch | recvBatch =>
    rw [bits, hword]
    · rfl
    all_goals simp

/-- Fields are at most 64 bits wide, so `strtoul` saturates beyond all of them. -/
theorem two_pow_bits_le (o : NumericOption) : 2 ^ o.bits ≤ 2 ^ 64 := by
  cases o <;> decide

/-- **When a numeric option means what it says**: on the numerals of the numbers that fit its
field, and on no other string. -/
theorem reads_number_iff (o : NumericOption) (arg : CString) :
    o.ReadsNumber arg ↔ o.Denotes arg := by
  constructor
  · -- whatever is no such numeral is accepted all the same
    intro h
    by_contra hnot
    obtain ⟨hreject, -⟩ := h.rejected {} hnot
    rw [parseOpt_eq] at hreject
    exact hreject rfl
  · rintro ⟨hnum, hlt⟩
    have hvalue : strtoul arg % 2 ^ o.bits = decimalValue arg := by
      rw [strtoul_of_numeral hnum (lt_of_lt_of_le hlt o.two_pow_bits_le), Nat.mod_eq_of_lt hlt]
    refine ⟨?_, ?_⟩
    · intro config _
      rw [parseOpt_eq, hvalue]
      exact ⟨hnum, rfl⟩
    · intro config hnot
      exact absurd ⟨hnum, hlt⟩ hnot

/-- `-p 65979` stores port 443, `-t -1` a timeout of `2 ^ 32 - 1` milliseconds, and `-s` followed by
text a batch size of `0`. -/
theorem not_reads_number :
    (parseOpt (.short 'p') [54, 53, 57, 55, 57] {}).2.port = 443 ∧
      (parseOpt (.short 't') [45, 49] {}).2.timeoutMs = 2 ^ 32 - 1 ∧
      (parseOpt (.short 's') [120] {}).2.sendBatch = 0 ∧
      ¬ port.ReadsNumber [54, 53, 57, 55, 57] ∧ ¬ timeoutMs.ReadsNumber [45, 49] ∧
      ¬ sendBatch.ReadsNumber [120] := by
  refine ⟨by decide, by decide, by decide, ?_, ?_, ?_⟩
  -- the number does not fit its 16 bits
  · intro h
    obtain ⟨-, hstored⟩ := h.exact {} rfl
    have hport := congrArg (fun config : MainConfig => config.port) hstored
    revert hport
    decide
  · intro h
    obtain ⟨hnum, -⟩ := h.exact {} rfl
    exact absurd (hnum.digits 45 List.mem_cons_self) (by decide)
  · intro h
    obtain ⟨hnum, -⟩ := h.exact {} rfl
    exact absurd (hnum.digits 120 List.mem_cons_self) (by decide)

end NumericOption

end Netscan
