import Netscan.Utils.DottedQuad

/-! # The language and the meaning of `parse_cidr`

Which strings `parse_cidr` accepts, and which block of addresses an accepted string denotes. Its
prefix lengths are what `strtol` makes of them, and `strtol` skips blanks and reads a sign before
the digits; its host count is a 32-bit word, which the block `/0` does not fit. -/

namespace Netscan

open MachineInt

/-! ### `strtol` on whole strings -/

/-- The end of `strtol`, after blanks and the sign: convert the digits of `rest`. -/
def strtolDigits (neg : Bool) (rest nptr : CString) : ℤ × CString :=
  if (rest.head?.bind digit?).isNone then (0, nptr)
  else
    let (n, tail) := readDigits rest 0
    (if neg then max (-(2 ^ 63 : ℤ)) (-n) else min (2 ^ 63 - 1 : ℤ) n, tail)

/-- A sign as `strtol` reads it: none, `+` or `-`, and at most one of them. -/
def IsSign (sign : CString) : Prop := sign = [] ∨ sign = [43] ∨ sign = [45]

/-- Without a sign the digits begin after the blanks, where the sign would stand. -/
theorem strtol_unsigned {t : CString} (hminus : ∀ s, t.dropWhile isSpace ≠ 45 :: s)
    (hplus : ∀ s, t.dropWhile isSpace ≠ 43 :: s) :
    strtol t = strtolDigits false (t.dropWhile isSpace) t := by
  rw [strtol]
  split
  rename_i neg rest heq
  split at heq
  · rename_i s hs
    exact absurd hs (hminus s)
  · rename_i s hs
    exact absurd hs (hplus s)
  · obtain ⟨rfl, rfl⟩ := Prod.mk.inj heq
    rfl

/-- What `strtol` skips and reads before the digits: blanks, then a sign. -/
theorem strtol_cases (t : CString) :
    ∃ blanks sign rest, t = blanks ++ (sign ++ rest) ∧ (∀ ch ∈ blanks, isSpace ch) ∧
      IsSign sign ∧ strtol t = strtolDigits (decide (sign = [45])) rest t := by
  have hsplit := List.takeWhile_append_dropWhile (p := isSpace) (l := t)
  have hblanks : ∀ ch ∈ t.takeWhile isSpace, isSpace ch := fun ch h => List.mem_takeWhile_imp h
  by_cases hminus : ∃ s, t.dropWhile isSpace = 45 :: s
  · obtain ⟨s, hs⟩ := hminus
    rw [hs] at hsplit
    refine ⟨_, [45], s, hsplit.symm, hblanks, .inr (.inr rfl), ?_⟩
    simp [strtol, strtolDigits, hs]
  by_cases hplus : ∃ s, t.dropWhile isSpace = 43 :: s
  · obtain ⟨s, hs⟩ := hplus
    rw [hs] at hsplit
    refine ⟨_, [43], s, hsplit.symm, hblanks, .inr (.inl rfl), ?_⟩
    simp [strtol, strtolDigits, hs]
  · refine ⟨_, [], t.dropWhile isSpace, hsplit.symm, hblanks, .inl rfl, ?_⟩
    exact strtol_unsigned (fun s hs => hminus ⟨s, hs⟩) (fun s hs => hplus ⟨s, hs⟩)

/-- The digits that `readDigits` reads, when it reads everything: the string then consists of
digits. -/
theorem readDigits_eq_nil {t : CString} {acc n : ℕ} :
    readDigits t acc = (n, []) ↔ (∀ ch ∈ t, (digit? ch).isSome) ∧
      t.foldl (fun n ch => n * 10 + (digit? ch).getD 0) acc = n := by
  induction t generalizing acc with
  | nil => simp [readDigits]
  | cons ch t ih =>
    cases hd : digit? ch with
    | none => simp [readDigits, hd]
    | some d => simp [readDigits, hd, ih]

/-- When `strtol` consumes a whole string as a prefix length: it is a numeral of that value, and a
sign does not change the value. -/
theorem strtolDigits_eq_iff {neg : Bool} {rest nptr : CString} {p : ℕ} (hne : nptr ≠ [])
    (hp : p ≤ 32) :
    strtolDigits neg rest nptr = ((p : ℤ), []) ↔
      IsNumeral rest ∧ decimalValue rest = p ∧ (neg = true → p = 0) := by
  rw [strtolDigits]
  split
  · rename_i hhead
    -- no digit: `strtol` consumes nothing, and a numeral has a digit
    refine iff_of_false (by simp [hne]) ?_
    rintro ⟨hnum, -⟩
    obtain ⟨ch, t, rfl⟩ := List.exists_cons_of_ne_nil hnum.ne_nil
    have := hnum.digits ch List.mem_cons_self
    rw [List.head?_cons, Option.bind_some, Option.isNone_iff_eq_none] at hhead
    rw [hhead] at this
    cases this
  · rename_i hhead
    have hnil : rest ≠ [] := by
      rintro rfl
      exact hhead rfl
    cases hread : readDigits rest 0 with
    | mk n tail =>
      simp only [Prod.mk.injEq]
      constructor
      -- everything was consumed, so the string is a numeral and the value is its own up to the sign
      · rintro ⟨hval, rfl⟩
        obtain ⟨hdigits, hfold⟩ := readDigits_eq_nil.mp hread
        cases neg with
        | false =>
          simp only [Bool.false_eq_true, if_false] at hval
          refine ⟨⟨hnil, hdigits⟩, ?_, by simp⟩
          rw [decimalValue, hfold]
          omega
        | true =>
          simp only [if_true] at hval
          refine ⟨⟨hnil, hdigits⟩, ?_, ?_⟩
          · rw [decimalValue, hfold]
            omega
          · omega
      -- a numeral is consumed; with a minus the value is zero
      · rintro ⟨hnum, hval, hneg⟩
        have hall := readDigits_eq_nil.mpr ⟨hnum.digits, hval⟩
        rw [hread] at hall
        obtain ⟨rfl, rfl⟩ := Prod.mk.inj hall
        refine ⟨?_, rfl⟩
        cases neg with
        | false =>
          simp only [Bool.false_eq_true, if_false]
          omega
        | true =>
          rw [hneg rfl]
          rfl

/-- A byte that can stand in a numeral or before it as its sign is not a blank. -/
theorem isSpace_eq_false {ch : UInt8} (h : (digit? ch).isSome ∨ ch = 43 ∨ ch = 45) :
    isSpace ch = false := by
  rcases h with h | rfl | rfl
  · unfold digit? at h
    split at h
    · simp only [isSpace, Bool.or_eq_false_iff, decide_eq_false_iff_not, Bool.and_eq_false_iff,
        ← UInt8.toNat_inj]
      simp only [UInt8.reduceToNat, not_le]
      omega
    · cases h
  · rfl
  · rfl

/-- `strtol` on blanks, a sign and a numeral goes on to the digits of the numeral. -/
theorem strtol_of_numeral {blanks sign ds : CString} (hblanks : ∀ ch ∈ blanks, isSpace ch)
    (hsign : IsSign sign) (hds : IsNumeral ds) :
    strtol (blanks ++ (sign ++ ds)) =
      strtolDigits (decide (sign = [45])) ds (blanks ++ (sign ++ ds)) := by
  obtain ⟨ch, ds, rfl⟩ := List.exists_cons_of_ne_nil hds.ne_nil
  have hch := hds.digits ch List.mem_cons_self
  -- the blanks end at the first byte that is none: the sign or the first digit
  have hdrop : ∀ ch' u, isSpace ch' = false →
      (blanks ++ ch' :: u).dropWhile isSpace = ch' :: u := by
    intro ch' u h
    rw [List.dropWhile_append_of_pos hblanks, List.dropWhile_cons_of_neg (by simp [h])]
  have hspace := isSpace_eq_false (.inl hch)
  have hminus : ch ≠ 45 := by
    rintro rfl
    cases hch
  have hplus : ch ≠ 43 := by
    rintro rfl
    cases hch
  rcases hsign with rfl | rfl | rfl
  · have hbody := hdrop ch ds hspace
    rw [List.nil_append, strtol_unsigned, hbody]
    · rfl
    · intro s hs
      exact hminus (List.cons.inj (hbody.symm.trans hs)).1
    · intro s hs
      exact hplus (List.cons.inj (hbody.symm.trans hs)).1
  · simp [strtol, strtolDigits, hdrop 43 (ch :: ds) rfl]
  · simp [strtol, strtolDigits, hdrop 45 (ch :: ds) rfl]

/-- `strtol` consumes the string as the prefix length `p`: a numeral, possibly after blanks and a
sign, where `-` only goes with zero. -/
def ReadsAs (blanks sign : CString) (t : CString) (p : ℕ) : Prop :=
  ∃ ds, t = blanks ++ (sign ++ ds) ∧ (∀ ch ∈ blanks, isSpace ch) ∧ IsSign sign ∧ IsNumeral ds ∧
    decimalValue ds = p ∧ (sign = [45] → p = 0)

/-- **What `strtol` consumes as a prefix length**, with the blanks and the sign that the grammar
does not have. -/
theorem strtol_eq_iff {t : CString} {p : ℕ} (hne : t ≠ []) (hp : p ≤ 32) :
    strtol t = ((p : ℤ), []) ↔ ∃ blanks sign, ReadsAs blanks sign t p := by
  constructor
  · intro h
    obtain ⟨blanks, sign, rest, ht, hblanks, hsign, heq⟩ := strtol_cases t
    rw [heq, strtolDigits_eq_iff hne hp, decide_eq_true_eq] at h
    exact ⟨blanks, sign, rest, ht, hblanks, hsign, h⟩
  · rintro ⟨blanks, sign, ds, rfl, hblanks, hsign, hds⟩
    rw [strtol_of_numeral hblanks hsign hds.1, strtolDigits_eq_iff hne hp, decide_eq_true_eq]
    exact hds

/-! ### What `parse_cidr` accepts -/

/-- No dotted quad contains a slash, so the first slash of an input ends the address. -/
theorem DottedFields.slash_not_mem {k acc a : ℕ} {s : CString} (h : DottedFields k s acc a) :
    47 ∉ s := by
  induction h with
  | nil => simp
  | cons hfield _ ih =>
    intro hmem
    rcases List.mem_cons.mp hmem with heq | hmem
    · cases heq
    · rcases List.mem_append.mp hmem with hmem | hmem
      · have := hfield.numeral.digits _ hmem
        cases this
      · exact ih hmem

theorem IsDottedQuad.slash_not_mem {s : CString} {a : ℕ} (h : IsDottedQuad s a) : 47 ∉ s := by
  obtain ⟨t, rest, n, rfl, hfield, hrest⟩ := h
  intro hmem
  rcases List.mem_append.mp hmem with hmem | hmem
  · have := hfield.numeral.digits _ hmem
    cases this
  · exact hrest.slash_not_mem hmem

/-- The answer of `parse_cidr` for the address `a` with prefix length `p`. -/
def cidrBlock (a p : ℕ) : ℕ × ℕ :=
  (a &&& prefixMask p, if p = bitsInIpv4 then 1 else u32 ((2 ^ 32 - 1 - prefixMask p) + 1))

/-- `parse_cidr` on a string without a slash reads a single address. -/
theorem parseCidr_bare {q : CString} (hq : 47 ∉ q) :
    parseCidr q = (inetPton q).map fun a => (a, 1) := by
  rw [parseCidr, if_pos hq]

/-- `parse_cidr` on a string with a slash reads the address before it and the prefix length behind
it. -/
theorem parseCidr_slash {q t : CString} (hq : 47 ∉ q) (out : ℕ × ℕ) :
    parseCidr (q ++ 47 :: t) = some out ↔ ∃ a p blanks sign, inetPton q = some a ∧ p ≤ 32 ∧
      ReadsAs blanks sign t p ∧ cidrBlock a p = out := by
  have hslash : ¬ 47 ∉ q ++ 47 :: t := by simp
  have hne : ∀ ch ∈ q, (decide (ch ≠ 47)) = true := by
    intro ch hch
    rw [decide_eq_true_eq]
    rintro rfl
    exact hq hch
  have htake : (q ++ 47 :: t).takeWhile (· ≠ 47) = q := by
    rw [List.takeWhile_append_of_pos hne, List.takeWhile_cons_of_neg (by simp), List.append_nil]
  have hdrop : ((q ++ 47 :: t).dropWhile (· ≠ 47)).drop 1 = t := by
    rw [List.dropWhile_append_of_pos hne, List.dropWhile_cons_of_neg (by simp)]
    rfl
  rw [parseCidr, if_neg hslash, htake, hdrop]
  cases hpton : inetPton q with
  | none => simp
  | some base =>
    dsimp only
    by_cases hnil : t = []
    · subst hnil
      refine iff_of_false (by simp) ?_
      rintro ⟨a, p, blanks, sign, -, -, ⟨ds, heq, -, -, hds, -⟩, -⟩
      exact hds.ne_nil (List.append_eq_nil_iff.mp (List.append_eq_nil_iff.mp heq.symm).2).2
    · -- the string is read as a prefix length exactly if the checks on `strtol` pass
      have hread : ∀ p, p ≤ 32 → ((∃ blanks sign, ReadsAs blanks sign t p) ↔
          strtol t = ((p : ℤ), [])) := fun p hp => (strtol_eq_iff hnil hp).symm
      rw [if_neg (by simpa using hnil)]
      cases hstrtol : strtol t with
      | mk v tail =>
        dsimp only
        by_cases hok : tail = [] ∧ 0 ≤ v ∧ v ≤ 32
        · obtain ⟨rfl, hlo, hhi⟩ := hok
          rw [if_neg (by simp [Ne.symm hnil]), if_neg (by simp [bitsInIpv4]; omega)]
          constructor
          · intro h
            obtain ⟨blanks, sign, h'⟩ := (hread v.toNat (by omega)).mpr (by
              rw [hstrtol, Int.toNat_of_nonneg hlo])
            exact ⟨base, v.toNat, blanks, sign, rfl, by omega, h', Option.some.inj h⟩
          · rintro ⟨a, p, blanks, sign, ha, hp, h', hout⟩
            obtain rfl := Option.some.inj ha
            have hval := (hread p hp).mp ⟨blanks, sign, h'⟩
            rw [hstrtol] at hval
            obtain rfl := (Prod.mk.inj hval).1
            rw [← hout]
            rfl
        · refine iff_of_false ?_ ?_
          · split
            · simp
            · rw [if_pos]
              · simp
              · rename_i hend
                have htail : tail = [] := by
                  by_contra htail
                  exact hend (.inr htail)
                have hrange : ¬ (0 ≤ v ∧ v ≤ 32) := fun h => hok ⟨htail, h⟩
                simp only [bitsInIpv4]
                omega
          · rintro ⟨a, p, blanks, sign, -, hp, h', -⟩
            have hval := (hread p hp).mp ⟨blanks, sign, h'⟩
            rw [hstrtol] at hval
            obtain ⟨rfl, rfl⟩ := Prod.mk.inj hval
            exact hok ⟨rfl, by omega, by omega⟩

/-! ### The grammar of address ranges -/

/-- A prefix length as the user is to write it: decimal digits of value at most 32. -/
def IsPrefixLength (t : CString) (p : ℕ) : Prop := IsNumeral t ∧ decimalValue t = p ∧ p ≤ 32

/-- An address, or an address and a prefix length after a slash. -/
def InGrammar (s : CString) : Prop :=
  (∃ a, IsDottedQuad s a) ∨
    ∃ q t a p, s = q ++ 47 :: t ∧ IsDottedQuad q a ∧ IsPrefixLength t p

/-- An address and, after the slash, a prefix length with blanks or a sign before its digits. -/
def HasLoosePrefix (s : CString) : Prop :=
  ∃ q t a p blanks sign, s = q ++ 47 :: t ∧ IsDottedQuad q a ∧ p ≤ 32 ∧
    blanks ++ sign ≠ [] ∧ ReadsAs blanks sign t p

/-- A call of `parse_cidr` with its output parameters, of which a failing call leaves the values as
they were; the input is `none` for a null pointer. -/
def parseCidrCall (input : Option CString) (outBaseIp outCount : ℕ) : Bool × ℕ × ℕ :=
  match input.bind parseCidr with
  | some out => (true, out)
  | none => (false, outBaseIp, outCount)

/-- `parse_cidr` treats the string as the grammar says: it accepts it exactly if it is in the
grammar, and otherwise leaves its outputs alone. -/
structure ParsedByGrammar (s : CString) : Prop where
  /-- The return value. -/
  accepted : ∀ base count, (parseCidrCall (some s) base count).1 = true ↔ InGrammar s
  /-- The outputs. -/
  outputs : ∀ base count, ¬ InGrammar s → (parseCidrCall (some s) base count).2 = (base, count)

/-- Without blanks and sign, what `strtol` reads is a prefix length of the grammar. -/
theorem readsAs_nil {t : CString} {p : ℕ} (hp : p ≤ 32) :
    ReadsAs [] [] t p ↔ IsPrefixLength t p := by
  constructor
  · rintro ⟨ds, rfl, -, -, hds, hval, -⟩
    exact ⟨hds, hval, hp⟩
  · rintro ⟨hds, hval, -⟩
    exact ⟨t, rfl, by simp, .inl rfl, hds, hval, by simp⟩

/-- A prefix length is read without blanks and sign only, as it begins with a digit. -/
theorem IsNumeral.of_readsAs {blanks sign t : CString} {p : ℕ} (ht : IsNumeral t)
    (h : ReadsAs blanks sign t p) : blanks ++ sign = [] := by
  obtain ⟨ds, rfl, hblanks, hsign, -⟩ := h
  have hnone : blanks = [] := by
    rw [List.eq_nil_iff_forall_not_mem]
    intro ch hch
    have hdigit := ht.digits ch (by simp [hch])
    have hspace := hblanks ch hch
    rw [isSpace_eq_false (.inl hdigit)] at hspace
    cases hspace
  rw [hnone, List.nil_append] at ht
  rw [hnone, List.nil_append]
  rcases hsign with rfl | rfl | rfl
  · rfl
  · have := ht.digits 43 (by simp)
    cases this
  · have := ht.digits 45 (by simp)
    cases this

/-- What `parse_cidr` accepts: the grammar, and addresses with a loose prefix length. -/
theorem isSome_parseCidr_iff (s : CString) :
    (parseCidr s).isSome ↔ InGrammar s ∨ HasLoosePrefix s := by
  by_cases hslash : 47 ∈ s
  · obtain ⟨q, t, rfl, hq⟩ := List.eq_append_cons_of_mem hslash
    rw [Option.isSome_iff_exists]
    constructor
    · rintro ⟨out, hout⟩
      obtain ⟨a, p, blanks, sign, hpton, hp, hreads, -⟩ := (parseCidr_slash hq out).mp hout
      have hquad := inetPton_eq_some_iff.mp hpton
      by_cases hloose : blanks ++ sign = []
      · obtain ⟨rfl, rfl⟩ := List.append_eq_nil_iff.mp hloose
        exact .inl (.inr ⟨q, t, a, p, rfl, hquad, (readsAs_nil hp).mp hreads⟩)
      · exact .inr ⟨q, t, a, p, blanks, sign, rfl, hquad, hp, hloose, hreads⟩
    · -- both forms are an address and something that `strtol` reads
      have haccept : ∀ q' t' a p blanks sign, q ++ 47 :: t = q' ++ 47 :: t' → IsDottedQuad q' a →
          p ≤ 32 → ReadsAs blanks sign t' p → ∃ out, parseCidr (q ++ 47 :: t) = some out := by
        intro q' t' a p blanks sign heq hquad hp hreads
        rw [heq]
        exact ⟨_, (parseCidr_slash hquad.slash_not_mem _).mpr
          ⟨a, p, blanks, sign, inetPton_eq_some_iff.mpr hquad, hp, hreads, rfl⟩⟩
      rintro ((⟨a, hquad⟩ | ⟨q', t', a, p, heq, hquad, hlen⟩) |
        ⟨q', t', a, p, blanks, sign, heq, hquad, hp, -, hreads⟩)
      · exact absurd (by simp) hquad.slash_not_mem
      · exact haccept q' t' a p [] [] heq hquad hlen.2.2 ((readsAs_nil hlen.2.2).mpr hlen)
      · exact haccept q' t' a p blanks sign heq hquad hp hreads
  · rw [parseCidr_bare hslash, Option.isSome_map, Option.isSome_iff_exists]
    constructor
    · rintro ⟨a, ha⟩
      exact .inl (.inl ⟨a, inetPton_eq_some_iff.mp ha⟩)
    · rintro ((⟨a, hquad⟩ | ⟨q, t, a, p, rfl, -, -⟩) | ⟨q, t, a, p, blanks, sign, rfl, -⟩)
      · exact ⟨a, inetPton_eq_some_iff.mpr hquad⟩
      · exact absurd (by simp) hslash
      · exact absurd (by simp) hslash

/-- A string with a loose prefix length is not in the grammar. -/
theorem HasLoosePrefix.not_inGrammar {s : CString} (h : HasLoosePrefix s) : ¬ InGrammar s := by
  obtain ⟨q, t, a, p, blanks, sign, rfl, hquad, -, hloose, hreads⟩ := h
  rintro (⟨a', hquad'⟩ | ⟨q', t', a', p', heq, hquad', hlen⟩)
  · exact hquad'.slash_not_mem (by simp)
  · -- the first slash is where both readings split the string
    have htail : t = t' := by
      have hdrop : ∀ q t a, IsDottedQuad q a → (q ++ 47 :: t).dropWhile (· ≠ 47) = 47 :: t := by
        intro q t a hq
        have hne : ∀ ch ∈ q, (decide (ch ≠ 47)) = true := by
          intro ch hch
          rw [decide_eq_true_eq]
          rintro rfl
          exact hq.slash_not_mem hch
        rw [List.dropWhile_append_of_pos hne, List.dropWhile_cons_of_neg (by simp)]
      have h₁ := hdrop q t a hquad
      rw [heq, hdrop q' t' a' hquad'] at h₁
      exact (List.cons.inj h₁).2.symm
    subst htail
    exact hloose (hlen.1.of_readsAs hreads)

/-- **When `parse_cidr` accepts exactly its grammar**: on every string but those in which blanks or
a sign come before the digits of an accepted prefix length. -/
theorem parsed_by_grammar_iff (s : CString) : ParsedByGrammar s ↔ ¬ HasLoosePrefix s := by
  have hcall : ∀ base count, (parseCidrCall (some s) base count).1 = true ↔
      InGrammar s ∨ HasLoosePrefix s := by
    intro base count
    rw [← isSome_parseCidr_iff, parseCidrCall, Option.bind_some]
    cases parseCidr s <;> simp
  constructor
  · intro h hloose
    exact hloose.not_inGrammar ((h.accepted 0 0).mp ((hcall 0 0).mpr (.inr hloose)))
  · intro hstrict
    refine ⟨fun base count => ?_, fun base count hnot => ?_⟩
    · rw [hcall, or_iff_left hstrict]
    · have hnone : parseCidr s = none := by
        rw [← Option.not_isSome_iff_eq_none, isSome_parseCidr_iff, or_iff_left hstrict]
        exact hnot
      rw [parseCidrCall, Option.bind_some, hnone]

/-- `10.0.0.0/ 24` is outside the grammar, and `parse_cidr` accepts it. -/
theorem not_parsed_by_grammar :
    parseCidr [49, 48, 46, 48, 46, 48, 46, 48, 47, 32, 50, 52] = some (167772160, 256) ∧
      ¬ ParsedByGrammar [49, 48, 46, 48, 46, 48, 46, 48, 47, 32, 50, 52] := by
  have hparse : parseCidr [49, 48, 46, 48, 46, 48, 46, 48, 47, 32, 50, 52] =
      some (167772160, 256) := by decide
  refine ⟨hparse, fun h => ?_⟩
  have hin := (h.accepted 0 0).mp (by rw [parseCidrCall, Option.bind_some, hparse])
  have hquad : IsDottedQuad [49, 48, 46, 48, 46, 48, 46, 48] 167772160 :=
    isDottedQuad_dottedQuad (a := 167772160) (by decide)
  refine HasLoosePrefix.not_inGrammar ?_ hin
  refine ⟨_, [32, 50, 52], _, 24, [32], [], rfl, hquad, by decide, by simp, [50, 52], rfl, ?_⟩
  exact ⟨by simp [isSpace], .inl rfl, (isNumeral_decimal 24).1, rfl, by simp⟩

/-! ### The block that an address range denotes -/

/-- The text `A/p`, with the address as `format_ip` writes it. -/
def cidrText (a p : ℕ) : CString := dottedQuad a ++ 47 :: decimal p

/-- The text `A/p` denotes the block of the addresses that share their first `p` bits with `A`:
`parse_cidr` yields the first of them and their number. -/
structure DenotesBlock (a p : ℕ) : Prop where
  /-- The outputs: the address without its low bits and the size of the block. -/
  outputs : parseCidr (cidrText a p) = some (a >>> (32 - p) <<< (32 - p), 2 ^ (32 - p))
  /-- The block ends inside the address space. -/
  fits : ∀ base count, parseCidr (cidrText a p) = some (base, count) →
    ∀ i < count, base + i < 2 ^ 32
  /-- The block consists of the addresses with the same first bits. -/
  block : ∀ base count, parseCidr (cidrText a p) = some (base, count) →
    ∀ ip < 2 ^ 32, (∃ i < count, ip = base + i) ↔ ip >>> (32 - p) = a >>> (32 - p)
  /-- A bare address is a block of its own. -/
  bare : parseCidr (dottedQuad a) = parseCidr (cidrText a 32)

/-- `parse_cidr` on the text `A/p` reads the block of `A` with `p` bits. -/
theorem parseCidr_cidrText {a p : ℕ} (ha : a < 2 ^ 32) (hp : p ≤ 32) :
    parseCidr (cidrText a p) = some (cidrBlock a p) := by
  have hquad := isDottedQuad_dottedQuad ha
  obtain ⟨hnum, hval⟩ := isNumeral_decimal p
  exact (parseCidr_slash hquad.slash_not_mem _).mpr
    ⟨a, p, [], [], inetPton_dottedQuad ha, hp, (readsAs_nil hp).mpr ⟨hnum, hval, hp⟩, rfl⟩

/-- Masking clears the low bits of an address. Bit by bit. -/
theorem and_prefixMask {a p : ℕ} (ha : a < 2 ^ 32) (hp : p ≤ 32) :
    a &&& prefixMask p = a >>> (32 - p) <<< (32 - p) := by
  rcases Nat.eq_zero_or_pos p with rfl | hpos
  · have : a >>> 32 = 0 := Nat.shiftRight_eq_zero a 32 ha
    simp [prefixMask, this]
  · apply Nat.eq_of_testBit_eq
    intro i
    rw [prefixMask, if_neg (by omega), Nat.testBit_and, u32, Nat.testBit_mod_two_pow,
      Nat.testBit_shiftLeft, Nat.testBit_shiftLeft, Nat.testBit_shiftRight,
      Nat.testBit_two_pow_sub_one, bitsInIpv4]
    -- the mask has the bits from `32 - p` on
    by_cases hi : 32 - p ≤ i
    · have hsum : 32 - p + (i - (32 - p)) = i := by omega
      by_cases hlt : i < 32
      · have : i - (32 - p) < 32 := by omega
        simp [hi, hlt, hsum, this]
      · have hbit : a.testBit i = false :=
          Nat.testBit_lt_two_pow (lt_of_lt_of_le ha (Nat.pow_le_pow_right (by decide) (by omega)))
        simp [hsum, hbit]
    · simp [hi]

/-- The complement of the mask, plus one, is the size of the block, except that the size of `/0`
wraps to zero. -/
theorem blockSize_eq {p : ℕ} (hpos : 0 < p) (hp : p ≤ 32) :
    (if p = bitsInIpv4 then 1 else u32 ((2 ^ 32 - 1 - prefixMask p) + 1)) = 2 ^ (32 - p) := by
  interval_cases p <;> rfl

/-- **The block that `parse_cidr` yields is the right one**, for every address and every prefix
length but `0`, whose host count does not fit its 32-bit word. -/
theorem denotes_block_iff {a p : ℕ} (ha : a < 2 ^ 32) (hp : p ≤ 32) :
    DenotesBlock a p ↔ p ≠ 0 := by
  have hparse := parseCidr_cidrText ha hp
  constructor
  · rintro h rfl
    have hout := h.outputs
    rw [hparse] at hout
    have hcount := (Prod.mk.inj (Option.some.inj hout)).2
    simp [prefixMask, bitsInIpv4, u32] at hcount
  · intro hne
    have hout : parseCidr (cidrText a p) = some (a >>> (32 - p) <<< (32 - p), 2 ^ (32 - p)) := by
      rw [hparse, cidrBlock, and_prefixMask ha hp, blockSize_eq (by omega) hp]
    -- the first address is the common prefix, followed by zeros
    have hbase : a >>> (32 - p) <<< (32 - p) = a / 2 ^ (32 - p) * 2 ^ (32 - p) := by
      rw [Nat.shiftLeft_eq, Nat.shiftRight_eq_div_pow]
    have hpow : 0 < 2 ^ (32 - p) := Nat.two_pow_pos _
    have hlast : (a / 2 ^ (32 - p) + 1) * 2 ^ (32 - p) ≤ 2 ^ 32 := by
      have hsplit : 2 ^ p * 2 ^ (32 - p) = 2 ^ 32 := by
        rw [← Nat.pow_add]
        congr 1
        omega
      have hlt : a / 2 ^ (32 - p) < 2 ^ p := by
        apply Nat.div_lt_of_lt_mul
        rw [Nat.mul_comm, hsplit]
        exact ha
      calc (a / 2 ^ (32 - p) + 1) * 2 ^ (32 - p) ≤ 2 ^ p * 2 ^ (32 - p) :=
            Nat.mul_le_mul_right _ hlt
        _ = 2 ^ 32 := hsplit
    rw [Nat.add_mul, Nat.one_mul] at hlast
    refine ⟨hout, ?_, ?_, ?_⟩
    · intro base count hbc i hi
      rw [hout] at hbc
      obtain ⟨rfl, rfl⟩ := Prod.mk.inj (Option.some.inj hbc)
      rw [hbase]
      omega
    · intro base count hbc ip hip
      rw [hout] at hbc
      obtain ⟨rfl, rfl⟩ := Prod.mk.inj (Option.some.inj hbc)
      rw [hbase, Nat.shiftRight_eq_div_pow, Nat.shiftRight_eq_div_pow]
      constructor
      · rintro ⟨i, hi, rfl⟩
        rw [Nat.mul_comm, Nat.mul_add_div hpow, Nat.div_eq_of_lt hi, Nat.add_zero]
      · intro heq
        refine ⟨ip % 2 ^ (32 - p), Nat.mod_lt _ hpow, ?_⟩
        rw [← heq, Nat.mul_comm, Nat.div_add_mod]
    · have hquad := isDottedQuad_dottedQuad ha
      rw [parseCidr_bare hquad.slash_not_mem, inetPton_dottedQuad ha,
        parseCidr_cidrText ha le_rfl, cidrBlock, and_prefixMask ha le_rfl]
      simp [bitsInIpv4]

/-- `192.168.1.77/24` denotes the 256 addresses of its block. -/
theorem denotes_block_iff_pair : DenotesBlock 3232235853 24 :=
  (denotes_block_iff (by decide) (by decide)).mpr (by decide)

/-- `10.0.0.0/0` denotes no host at all: the count wraps to zero. -/
theorem not_denotes_block :
    parseCidr (cidrText 167772160 0) = some (0, 0) ∧ ¬ DenotesBlock 167772160 0 := by
  have hparse : parseCidr (cidrText 167772160 0) = some (0, 0) := by decide
  refine ⟨hparse, fun h => ?_⟩
  have hout := h.outputs
  rw [hparse] at hout
  simp at hout

end Netscan
