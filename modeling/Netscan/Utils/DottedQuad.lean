import Netscan.Utils.Cidr
import Netscan.Utils.Interface

/-! # Dotted quads

The language of `inet_pton(AF_INET)` as a grammar of decimal fields, and the text that `format_ip`
writes for an address: `inet_pton` accepts exactly the grammar, and it reads back what `format_ip`
writes. -/

namespace Netscan

/-! ### Numerals -/

/-- The value of a string of decimal digits, the first one being the highest. -/
def decimalValue (t : CString) : ℕ := t.foldl (fun n ch => n * 10 + (digit? ch).getD 0) 0

/-- A non-empty string of decimal digits, leading zeros included. -/
structure IsNumeral (t : CString) : Prop where
  /-- There is a digit. -/
  ne_nil : t ≠ []
  /-- There is nothing else. -/
  digits : ∀ ch ∈ t, (digit? ch).isSome

/-- The numeral of a number, without leading zeros. -/
def decimal (n : ℕ) : CString := (Nat.toDigits 10 n).map fun c => UInt8.ofNat c.toNat

/-- A digit is less than ten. -/
theorem digit?_lt {ch : UInt8} {d : ℕ} (h : digit? ch = some d) : d < 10 := by
  unfold digit? at h
  split at h
  · obtain rfl := Option.some.inj h
    omega
  · cases h

/-- The zero digit is the byte 48. -/
theorem digit?_eq_zero {ch : UInt8} : digit? ch = some 0 ↔ ch = 48 := by
  unfold digit?
  rw [← UInt8.toNat_inj]
  split <;> simp <;> omega

@[simp] theorem decimalValue_nil : decimalValue [] = 0 := rfl

/-- One more digit multiplies the value by ten and adds the digit. -/
theorem decimalValue_concat (t : CString) {ch : UInt8} {d : ℕ} (h : digit? ch = some d) :
    decimalValue (t ++ [ch]) = decimalValue t * 10 + d := by
  simp [decimalValue, h]

/-- More digits do not make a number smaller. -/
theorem decimalValue_append_le (t u : CString) : decimalValue t ≤ decimalValue (t ++ u) := by
  induction u using List.reverseRecOn with
  | nil => simp
  | append_singleton u ch ih =>
    rw [← List.append_assoc]
    have hlast : decimalValue (t ++ u ++ [ch]) =
        decimalValue (t ++ u) * 10 + (digit? ch).getD 0 := by
      simp [decimalValue]
    omega

/-- The characters of a decimal representation are the digit bytes, by the ten cases. -/
theorem digit?_digitChar {d : ℕ} (h : d < 10) :
    digit? (UInt8.ofNat (Nat.digitChar d).toNat) = some d := by
  interval_cases d <;> rfl

/-- A number of one digit is written as that digit. -/
theorem decimal_of_lt_ten {n : ℕ} (h : n < 10) :
    decimal n = [UInt8.ofNat (Nat.digitChar n).toNat] := by
  rw [decimal, Nat.toDigits_of_lt_base h, List.map_singleton]

/-- A number of more digits is written as its tenth and its last digit. -/
theorem decimal_of_ten_le {n : ℕ} (h : 10 ≤ n) :
    decimal n = decimal (n / 10) ++ [UInt8.ofNat (Nat.digitChar (n % 10)).toNat] := by
  rw [decimal, Nat.toDigits_of_base_le (by decide) h, List.map_append, List.map_singleton, decimal]

/-- The numeral of a number is a numeral, and has its value. -/
theorem isNumeral_decimal (n : ℕ) : IsNumeral (decimal n) ∧ decimalValue (decimal n) = n := by
  induction n using Nat.strongRecOn with
  | _ n ih =>
    by_cases h : n < 10
    · rw [decimal_of_lt_ten h]
      refine ⟨⟨by simp, ?_⟩, ?_⟩
      · simp [digit?_digitChar h]
      · have := decimalValue_concat [] (digit?_digitChar h)
        simpa using this
    -- the last digit is added to the numeral of the tenth
    · obtain ⟨hnum, hval⟩ := ih (n / 10) (by omega)
      have hd := digit?_digitChar (d := n % 10) (by omega)
      rw [decimal_of_ten_le (by omega)]
      refine ⟨⟨by simp, ?_⟩, ?_⟩
      · intro ch hch
        rcases List.mem_append.mp hch with hmem | hmem
        · exact hnum.digits ch hmem
        · rw [List.mem_singleton.mp hmem, hd]
          rfl
      · rw [decimalValue_concat _ hd, hval]
        omega

/-- Only the numeral of zero begins with a zero, as numerals have no leading zeros. -/
theorem eq_zero_of_decimal {n : ℕ} {t : CString} (h : decimal n = 48 :: t) : n = 0 := by
  induction n using Nat.strongRecOn generalizing t with
  | _ n ih =>
    by_cases hlt : n < 10
    · rw [decimal_of_lt_ten hlt] at h
      have hd := digit?_digitChar hlt
      rw [(List.cons.inj h).1, digit?_eq_zero.mpr rfl] at hd
      exact (Option.some.inj hd).symm
    · rw [decimal_of_ten_le (by omega)] at h
      cases hhead : decimal (n / 10) with
      | nil => exact absurd hhead (isNumeral_decimal _).1.ne_nil
      | cons ch u =>
        rw [hhead, List.cons_append] at h
        rw [(List.cons.inj h).1] at hhead
        have := ih (n / 10) (by omega) hhead
        omega

/-! ### The grammar -/

/-- A field of a dotted quad: the decimal numeral of a number up to 255. `inet_pton` refuses
leading zeros. -/
structure IsField (t : CString) (n : ℕ) : Prop where
  /-- The field is a numeral. -/
  numeral : IsNumeral t
  /-- Its value. -/
  value : decimalValue t = n
  /-- The value fits a byte. -/
  le : n ≤ 255
  /-- Only zero begins with a zero. -/
  canonical : t.head? = some 48 → t = [48]

/-- `DottedFields k s acc a`: the string consists of `k` fields, each after a dot, which extend the
address `acc` to `a`. -/
inductive DottedFields : ℕ → CString → ℕ → ℕ → Prop
  /-- No field. -/
  | nil (acc : ℕ) : DottedFields 0 [] acc acc
  /-- A dot, a field and the other fields. -/
  | cons {k n acc a : ℕ} {t s : CString} :
    IsField t n → DottedFields k s (acc * 256 + n) a → DottedFields (k + 1) (46 :: (t ++ s)) acc a

/-- The string is four fields, separated by dots, and `a` the address they denote. -/
def IsDottedQuad (s : CString) (a : ℕ) : Prop :=
  ∃ t rest n, s = t ++ rest ∧ IsField t n ∧ DottedFields 3 rest n a

/-- A string of dotted fields is empty or begins with a dot. -/
theorem DottedFields.head {k acc a : ℕ} {s : CString} (h : DottedFields k s acc a) :
    (k = 0 ∧ s = [] ∧ acc = a) ∨ ∃ s', s = 46 :: s' := by
  cases h with
  | nil => exact .inl ⟨rfl, rfl, rfl⟩
  | cons => exact .inr ⟨_, rfl⟩

/-- The numeral of a byte is a field: it has at most three digits and no leading zero. -/
theorem isField_decimal {n : ℕ} (h : n ≤ 255) : IsField (decimal n) n where
  numeral := (isNumeral_decimal n).1
  value := (isNumeral_decimal n).2
  le := h
  canonical hhead := by
    obtain ⟨t, ht⟩ := List.head?_eq_some_iff.mp hhead
    rw [eq_zero_of_decimal ht]
    rfl

/-! ### Fields, digit by digit -/

/-- One digit is a field, also a zero. -/
theorem isField_singleton {ch : UInt8} {d : ℕ} (h : digit? ch = some d) : IsField [ch] d := by
  have hlt := digit?_lt h
  have hvalue := decimalValue_concat [] h
  refine ⟨⟨by simp, by simp [h]⟩, by simpa using hvalue, by omega, ?_⟩
  intro hhead
  rw [List.head?_cons, Option.some.injEq] at hhead
  rw [hhead]

/-- What a field begins with is a field, so fields can be read digit by digit. -/
theorem IsField.prefix {u ds : CString} {n : ℕ} (h : IsField (u ++ ds) n) (hne : u ≠ []) :
    IsField u (decimalValue u) where
  numeral := ⟨hne, fun ch hch => h.numeral.digits ch (List.mem_append_left _ hch)⟩
  value := rfl
  le := by
    have := decimalValue_append_le u ds
    have := h.value
    have := h.le
    omega
  canonical hhead := by
    obtain ⟨ch, u', rfl⟩ := List.exists_cons_of_ne_nil hne
    have hall := h.canonical (by simpa using hhead)
    rw [List.cons_append, List.cons.injEq, List.append_eq_nil_iff] at hall
    rw [hall.1, hall.2.1]

/-- The only field of value zero is `0`: more digits would begin with a zero. -/
theorem IsField.eq_of_zero {u : CString} (h : IsField u 0) : u = [48] := by
  obtain ⟨ch, u', rfl⟩ := List.exists_cons_of_ne_nil h.numeral.ne_nil
  obtain ⟨d, hd⟩ := Option.isSome_iff_exists.mp (h.numeral.digits ch List.mem_cons_self)
  have hle := decimalValue_append_le [ch] u'
  have hfirst := (isField_singleton hd).value
  have hvalue := h.value
  rw [List.singleton_append] at hle
  obtain rfl : d = 0 := by omega
  exact h.canonical (by rw [digit?_eq_zero.mp hd]; rfl)

/-- A field goes on with one more digit unless it is zero or the number gets too large. -/
theorem isField_concat {u : CString} {ch : UInt8} {d : ℕ} (hu : IsField u (decimalValue u))
    (hd : digit? ch = some d) :
    IsField (u ++ [ch]) (decimalValue u * 10 + d) ↔
      decimalValue u ≠ 0 ∧ decimalValue u * 10 + d ≤ 255 := by
  constructor
  · intro h
    refine ⟨fun hzero => ?_, h.le⟩
    -- nothing follows a leading zero
    rw [hzero] at hu
    have hall := h.canonical (by rw [hu.eq_of_zero]; rfl)
    rw [hu.eq_of_zero] at hall
    cases hall
  · rintro ⟨hne, hle⟩
    refine ⟨⟨by simp, ?_⟩, decimalValue_concat u hd, hle, ?_⟩
    · intro ch' hch'
      rcases List.mem_append.mp hch' with hmem | hmem
      · exact hu.numeral.digits ch' hmem
      · rw [List.mem_singleton.mp hmem, hd]
        rfl
    · intro hhead
      obtain ⟨ch', u', rfl⟩ := List.exists_cons_of_ne_nil hu.numeral.ne_nil
      have hall := hu.canonical (by simpa using hhead)
      rw [hall] at hne
      exact absurd rfl hne

/-! ### `inet_pton` accepts exactly the grammar -/

/-- The string continues the field `u` and has `k` further fields after it; the address is then
`a`. -/
def Continues (u : CString) (k acc : ℕ) (src : CString) (a : ℕ) : Prop :=
  ∃ ds rest n, src = ds ++ rest ∧ IsField (u ++ ds) n ∧ DottedFields k rest (acc * 256 + n) a

/-- At the end of the string the field and the address are complete. -/
theorem continues_nil {u : CString} {k acc a : ℕ} (hu : IsField u (decimalValue u)) :
    Continues u k acc [] a ↔ k = 0 ∧ acc * 256 + decimalValue u = a := by
  constructor
  · rintro ⟨ds, rest, n, hsrc, hfield, hrest⟩
    obtain ⟨rfl, rfl⟩ := List.append_eq_nil_iff.mp hsrc.symm
    rw [List.append_nil] at hfield
    rcases hrest.head with ⟨hk, -, ha⟩ | ⟨s, hs⟩
    · exact ⟨hk, by rw [← ha, ← hfield.value]⟩
    · cases hs
  · rintro ⟨rfl, rfl⟩
    exact ⟨[], [], _, rfl, by rwa [List.append_nil], .nil _⟩

/-- A digit belongs to the field, as no field is followed by one. -/
theorem continues_digit {u src : CString} {k acc a : ℕ} {ch : UInt8} {d : ℕ}
    (hd : digit? ch = some d) :
    Continues u k acc (ch :: src) a ↔ Continues (u ++ [ch]) k acc src a := by
  constructor
  · rintro ⟨ds, rest, n, hsrc, hfield, hrest⟩
    cases ds with
    | nil =>
      -- what follows a field is empty or begins with a dot
      rcases hrest.head with ⟨-, rfl, -⟩ | ⟨s, rfl⟩
      · cases hsrc
      · obtain ⟨rfl, -⟩ := List.cons.inj hsrc
        cases hd
    | cons ch' ds =>
      obtain ⟨rfl, rfl⟩ := List.cons.inj (hsrc.trans (List.cons_append ..))
      exact ⟨ds, rest, n, rfl, by simpa using hfield, hrest⟩
  · rintro ⟨ds, rest, n, rfl, hfield, hrest⟩
    exact ⟨ch :: ds, rest, n, rfl, by simpa using hfield, hrest⟩

/-- Anything else ends the field, and has to be the dot before the next one. -/
theorem continues_other {u src : CString} {k acc a : ℕ} {ch : UInt8}
    (hu : IsField u (decimalValue u)) (hd : digit? ch = none) :
    Continues u k acc (ch :: src) a ↔
      ch = 46 ∧ ∃ j, k = j + 1 ∧ Continues [] j (acc * 256 + decimalValue u) src a := by
  constructor
  · rintro ⟨ds, rest, n, hsrc, hfield, hrest⟩
    cases ds with
    | nil =>
      rw [List.append_nil] at hfield
      rw [List.nil_append] at hsrc
      subst hsrc
      cases hrest with
      | @cons j m _ _ t s hfield' hrest' =>
        -- the field ends here, and a dot begins what follows
        exact ⟨rfl, j, rfl, t, s, m, rfl, hfield', by rwa [hfield.value]⟩
    | cons ch' ds =>
      obtain ⟨rfl, -⟩ := List.cons.inj (hsrc.trans (List.cons_append ..))
      -- the field would go on with a byte that is no digit
      have := hfield.numeral.digits ch (by simp)
      rw [hd] at this
      cases this
  · rintro ⟨rfl, j, rfl, t, s, m, rfl, hfield, hrest⟩
    exact ⟨[], _, _, rfl, by rwa [List.append_nil], .cons hfield hrest⟩

/-- A field does not begin with anything but a digit, so not with the end of the string. -/
theorem not_continues_nil {k acc a : ℕ} : ¬ Continues [] k acc [] a := by
  rintro ⟨ds, rest, n, hsrc, hfield, -⟩
  exact hfield.numeral.ne_nil (List.append_eq_nil_iff.mp hsrc.symm).1

/-- Nor does it begin with another byte. -/
theorem not_continues_other {src : CString} {k acc a : ℕ} {ch : UInt8} (hd : digit? ch = none) :
    ¬ Continues [] k acc (ch :: src) a := by
  rintro ⟨ds, rest, n, hsrc, hfield, -⟩
  cases ds with
  | nil => exact hfield.numeral.ne_nil rfl
  | cons ch' ds =>
    obtain ⟨rfl, -⟩ := List.cons.inj (hsrc.trans (List.cons_append ..))
    have := hfield.numeral.digits ch (by simp)
    rw [hd] at this
    cases this

/-- The loop of `inet_pton`, after the digits `u` of a field and before the first digit of one. -/
theorem inetPtonLoop_eq_some_iff (src : CString) :
    (∀ (u : CString) (acc octets a : ℕ), IsField u (decimalValue u) → octets ≤ 4 →
      (inetPtonLoop src acc (decimalValue u) octets true = some a ↔
        Continues u (4 - octets) acc src a)) ∧
    ∀ acc octets a : ℕ, octets < 4 →
      (inetPtonLoop src acc 0 octets false = some a ↔ Continues [] (3 - octets) acc src a) := by
  induction src with
  | nil =>
    refine ⟨fun u acc octets a hu hoct => ?_, fun acc octets a hoct => ?_⟩
    · rw [continues_nil hu, inetPtonLoop]
      split
      · simp only [reduceCtorEq, false_iff, not_and]
        omega
      · simp only [Option.some.injEq, iff_and_self]
        omega
    · rw [inetPtonLoop, if_pos hoct]
      exact iff_of_false (by simp) not_continues_nil
  | cons ch src ih =>
    obtain ⟨ihIn, ihBefore⟩ := ih
    refine ⟨fun u acc octets a hu hoct => ?_, fun acc octets a hoct => ?_⟩
    · cases hd : digit? ch with
      | some d =>
        have hconcat := isField_concat hu hd
        rw [continues_digit hd]
        simp only [inetPtonLoop, hd, Bool.true_and, beq_iff_eq, if_true]
        by_cases hok : decimalValue u ≠ 0 ∧ decimalValue u * 10 + d ≤ 255
        · rw [if_neg hok.1, if_neg (by omega), ← decimalValue_concat u hd]
          refine ihIn _ acc octets a ?_ hoct
          rw [decimalValue_concat u hd]
          exact hconcat.mpr hok
        · -- the digit cannot belong to the field
          have hnone : ¬ Continues (u ++ [ch]) (4 - octets) acc src a := by
            rintro ⟨ds, rest, n, -, hfield, -⟩
            have hprefix := hfield.prefix (by simp)
            rw [decimalValue_concat u hd] at hprefix
            exact hok (hconcat.mp hprefix)
          refine iff_of_false ?_ hnone
          split
          · simp
          · rw [if_pos (by omega)]
            simp
      | none =>
        rw [continues_other hu hd]
        simp only [inetPtonLoop, hd, and_true]
        by_cases hdot : ch = 46
        · rw [if_pos hdot]
          split
          · refine iff_of_false (by simp) ?_
            rintro ⟨-, j, hj, -⟩
            omega
          · rw [ihBefore _ _ _ (by omega)]
            constructor
            · intro h
              exact ⟨hdot, 3 - octets, by omega, h⟩
            · rintro ⟨-, j, hj, h⟩
              obtain rfl : j = 3 - octets := by omega
              exact h
        · rw [if_neg hdot]
          exact iff_of_false (by simp) fun h => hdot h.1
    · cases hd : digit? ch with
      | some d =>
        have hlt := digit?_lt hd
        have hfield := isField_singleton hd
        rw [continues_digit hd, List.nil_append]
        simp only [inetPtonLoop, hd, Bool.false_and, Bool.false_eq_true, if_false, zero_mul,
          zero_add]
        rw [if_neg (by omega), if_neg (by omega)]
        have hin := ihIn [ch] acc (octets + 1) a (by rwa [hfield.value]) (by omega)
        rw [hfield.value] at hin
        rw [hin]
        have hk : 4 - (octets + 1) = 3 - octets := by omega
        rw [hk]
      | none =>
        simp only [inetPtonLoop, hd, Bool.false_eq_true, and_false, if_false]
        exact iff_of_false (by simp) (not_continues_other hd)

/-- **`inet_pton` accepts exactly the dotted quads**, each as the address it denotes. -/
theorem inetPton_eq_some_iff {s : CString} {a : ℕ} : inetPton s = some a ↔ IsDottedQuad s a := by
  rw [inetPton, (inetPtonLoop_eq_some_iff s).2 0 0 a (by decide)]
  simp only [Continues, IsDottedQuad, List.nil_append, zero_mul, zero_add, Nat.sub_zero]

/-! ### The text of an address -/

/-- The dotted quad of an address, as bytes. -/
def dottedQuad (a : ℕ) : CString :=
  decimal (a / 2 ^ 24 % 256) ++ 46 :: (decimal (a / 2 ^ 16 % 256) ++ 46 ::
    (decimal (a / 2 ^ 8 % 256) ++ 46 :: decimal (a % 256)))

/-- It is what `format_ip` writes, byte by byte. -/
theorem dottedQuad_eq_formatIp (a : ℕ) :
    dottedQuad a = (formatIp a).toList.map fun c => UInt8.ofNat c.toNat := by
  simp [dottedQuad, formatIp, decimal]

/-- Four bytes make an address: their numerals are fields. -/
theorem isDottedQuad_of_bytes {b₃ b₂ b₁ b₀ : ℕ} (h₃ : b₃ ≤ 255) (h₂ : b₂ ≤ 255) (h₁ : b₁ ≤ 255)
    (h₀ : b₀ ≤ 255) :
    IsDottedQuad (decimal b₃ ++ 46 :: (decimal b₂ ++ 46 :: (decimal b₁ ++ 46 :: decimal b₀)))
      (((b₃ * 256 + b₂) * 256 + b₁) * 256 + b₀) := by
  have hlast := DottedFields.cons (isField_decimal h₀)
    (.nil (((b₃ * 256 + b₂) * 256 + b₁) * 256 + b₀))
  rw [List.append_nil] at hlast
  exact ⟨_, _, _, rfl, isField_decimal h₃,
    .cons (isField_decimal h₂) (.cons (isField_decimal h₁) hlast)⟩

/-- The dotted quad of an address is a dotted quad, and denotes it. -/
theorem isDottedQuad_dottedQuad {a : ℕ} (h : a < 2 ^ 32) : IsDottedQuad (dottedQuad a) a := by
  have hbyte : ∀ n, n % 256 ≤ 255 := fun n => by omega
  have hquad := isDottedQuad_of_bytes (hbyte (a / 2 ^ 24)) (hbyte (a / 2 ^ 16))
    (hbyte (a / 2 ^ 8)) (hbyte a)
  have hsum : ((a / 2 ^ 24 % 256 * 256 + a / 2 ^ 16 % 256) * 256 + a / 2 ^ 8 % 256) * 256 +
      a % 256 = a := by omega
  rwa [hsum] at hquad

/-- `inet_pton` reads back what `format_ip` writes, whatever the address. -/
theorem inetPton_dottedQuad {a : ℕ} (h : a < 2 ^ 32) : inetPton (dottedQuad a) = some a :=
  inetPton_eq_some_iff.mpr (isDottedQuad_dottedQuad h)

end Netscan
