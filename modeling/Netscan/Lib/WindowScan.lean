import Mathlib

/-! # Scans through a window

What a scan is for: every target of a list gets exactly one fate, and at most `window` targets are
outstanding at a time. A scan takes its targets in order; a target is passed over with a fate at
once, or it is taken into the window and settled later. Targets are conserved (`Move.targets_eq`),
so a scan that is done has settled every target once. -/

namespace WindowScan

open Relation Multiset

/-- A scan of targets `τ` with fates `φ`: those ahead, those outstanding in the window, and those
settled. -/
structure Scan (τ φ : Type*) where
  /-- The targets not taken yet, in order. -/
  ahead : List τ
  /-- The outstanding targets. -/
  out : Multiset τ
  /-- The fates given so far. -/
  settled : Multiset (τ × φ)

variable {τ φ : Type*} {window : ℕ} {s s' : Scan τ φ} {ts : List τ} {t : τ} {f : φ}

/-- The moves of a scan. A target is passed over at once, or it goes through the window. -/
inductive Move (window : ℕ) (s s' : Scan τ φ) : Prop
  /-- The next target is passed over. -/
  | pass (t : τ) (f : φ) (hahead : s.ahead = t :: s'.ahead) (hout : s'.out = s.out)
      (hsettled : s'.settled = s.settled + {(t, f)})
  /-- The next target is taken into the window. -/
  | take (t : τ) (hroom : card s.out < window) (hahead : s.ahead = t :: s'.ahead)
      (hout : s'.out = s.out + {t}) (hsettled : s'.settled = s.settled)
  /-- An outstanding target is settled. -/
  | settle (t : τ) (f : φ) (hahead : s'.ahead = s.ahead) (hout : s.out = s'.out + {t})
      (hsettled : s'.settled = s.settled + {(t, f)})

/-- Sequences of moves, which is how a run of a scanner looks from outside. -/
abbrev Scans (window : ℕ) : Scan τ φ → Scan τ φ → Prop := ReflTransGen (Move window)

/-- The scan of a list of targets, before its first move. -/
def Scan.begin (ts : List τ) : Scan τ φ := ⟨ts, 0, 0⟩

/-- All the targets of a scan, whatever has become of them. -/
def Scan.targets (s : Scan τ φ) : Multiset τ := s.ahead + s.out + s.settled.map Prod.fst

/-! ### Lists of fates -/

/-- The targets with a fate of a kind, in order. -/
def targetsWith (kind : φ → Bool) (fs : List (τ × φ)) : List τ :=
  (fs.filter fun e => kind e.2).map Prod.fst

theorem targetsWith_append (kind : φ → Bool) (fs us : List (τ × φ)) :
    targetsWith kind (fs ++ us) = targetsWith kind fs ++ targetsWith kind us := by
  rw [targetsWith, List.filter_append, List.map_append]
  rfl

/-- A target has a fate of the kind if it has one that is of the kind. -/
theorem mem_targetsWith {kind : φ → Bool} {fs : List (τ × φ)} :
    t ∈ targetsWith kind fs ↔ ∃ f, kind f = true ∧ (t, f) ∈ fs := by
  simp only [targetsWith, List.mem_map, List.mem_filter]
  constructor
  · rintro ⟨⟨t, f⟩, ⟨hmem, hf⟩, rfl⟩
    exact ⟨f, hf, hmem⟩
  · rintro ⟨f, hf, hmem⟩
    exact ⟨(t, f), ⟨hmem, hf⟩, rfl⟩

/-- A kind that is made of two kinds without common fates has the targets of both. -/
theorem targetsWith_perm_append {kind kind₁ kind₂ : φ → Bool}
    (hkind : ∀ f, kind f = (kind₁ f || kind₂ f)) (hdisjoint : ∀ f, kind₁ f = true → kind₂ f = false)
    (fs : List (τ × φ)) :
    (targetsWith kind fs).Perm (targetsWith kind₁ fs ++ targetsWith kind₂ fs) := by
  -- the fates of the kind fall apart into those of the first kind and the rest
  have hfirst : (fs.filter fun e => kind e.2).filter (fun e => kind₁ e.2) =
      fs.filter fun e => kind₁ e.2 := by
    rw [List.filter_filter]
    apply List.filter_congr
    intro e _
    rw [hkind]
    cases kind₁ e.2 <;> simp
  have hsecond : (fs.filter fun e => kind e.2).filter (fun e => !kind₁ e.2) =
      fs.filter fun e => kind₂ e.2 := by
    rw [List.filter_filter]
    apply List.filter_congr
    intro e _
    rw [hkind]
    cases h : kind₁ e.2 with
    | true => simp [hdisjoint _ h]
    | false => simp
  have hsplit := List.filter_append_perm (fun e => kind₁ e.2) (fs.filter fun e => kind e.2)
  rw [hfirst, hsecond] at hsplit
  rw [targetsWith, targetsWith, targetsWith, ← List.map_append]
  exact hsplit.symm.map _

/-- Targets that all get the same fate are all of the kind or none is. -/
theorem targetsWith_map (kind : φ → Bool) (ts : List τ) (f : φ) :
    targetsWith kind (ts.map fun t => (t, f)) = if kind f then ts else [] := by
  cases hf : kind f <;> simp [targetsWith, List.filter_map, Function.comp_def, hf]

section Settled

variable {ts : List τ} {fs : List (τ × φ)}

/-- The targets of a scan that is done are those with a fate. -/
theorem exists_fate_iff (h : (fs.map Prod.fst).Perm ts) : (∃ f, (t, f) ∈ fs) ↔ t ∈ ts := by
  rw [← h.mem_iff, List.mem_map]
  constructor
  · rintro ⟨f, hmem⟩
    exact ⟨(t, f), hmem, rfl⟩
  · rintro ⟨⟨t, f⟩, hmem, rfl⟩
    exact ⟨f, hmem⟩

/-- They have one fate each, if the scan was given none of them twice. -/
theorem fate_unique (h : (fs.map Prod.fst).Perm ts) (hts : ts.Nodup) {f g : φ} (hf : (t, f) ∈ fs)
    (hg : (t, g) ∈ fs) : f = g :=
  congrArg Prod.snd (List.inj_on_of_nodup_map (h.nodup_iff.mpr hts) hf hg rfl)

end Settled

/-! ### What moves keep -/

/-- A move loses no target and adds none: it takes one from one place to another. -/
theorem Move.targets_eq (h : Move window s s') : s'.targets = s.targets := by
  cases h with
  | pass t f hahead hout hsettled =>
    simp only [Scan.targets, hahead, hout, hsettled, ← Multiset.cons_coe,
      ← Multiset.singleton_add, Multiset.map_add, Multiset.map_singleton]
    abel
  | take t hroom hahead hout hsettled =>
    simp only [Scan.targets, hahead, hout, hsettled, ← Multiset.cons_coe,
      ← Multiset.singleton_add]
    abel
  | settle t f hahead hout hsettled =>
    simp only [Scan.targets, hahead, hout, hsettled, Multiset.map_add, Multiset.map_singleton]
    abel

/-- A move keeps the outstanding targets inside the window, as it takes one only if there is
room. -/
theorem Move.card_out_le (h : Move window s s') (hs : card s.out ≤ window) :
    card s'.out ≤ window := by
  cases h with
  | pass t f hahead hout => exact hout ▸ hs
  | take t hroom hahead hout =>
    rw [hout, card_add, card_singleton]
    exact hroom
  | settle t f hahead hout =>
    rw [hout, card_add] at hs
    exact (Nat.le_add_right _ _).trans hs

/-- **Targets are conserved** by every sequence of moves. -/
theorem Scans.targets_eq (h : Scans window s s') : s'.targets = s.targets := by
  induction h with
  | refl => rfl
  | tail _ hmove ih => exact hmove.targets_eq.trans ih

/-- **The window bounds the outstanding targets** of every scan from its beginning. -/
theorem Scans.card_out_le (h : Scans window (.begin ts) s) : card s.out ≤ window := by
  induction h with
  | refl => exact Nat.zero_le _
  | tail _ hmove ih => exact hmove.card_out_le ih

/-- The targets of a scan that has not begun are those ahead. -/
theorem targets_begin (ts : List τ) :
    (Scan.begin ts : Scan τ φ).targets = (ts : Multiset τ) := by
  simp [Scan.targets, Scan.begin]

/-- A scan that has nothing ahead and nothing outstanding has settled its targets, each once. -/
theorem Scans.map_settled (h : Scans window (.begin ts) s) (hahead : s.ahead = [])
    (hout : s.out = 0) : s.settled.map Prod.fst = ts := by
  have htargets := h.targets_eq
  rw [targets_begin, Scan.targets, hahead, hout] at htargets
  simpa using htargets

/-! ### Several moves at once -/

/-- Passing over and taking a block of targets: `fate` says which are passed over, and the window
has room for the others. -/
theorem scans_block (block : List τ) (fate : τ → Option φ) (hahead : s.ahead = block ++ s'.ahead)
    (hout : s'.out = s.out + (block.filter fun t => (fate t).isNone : List τ))
    (hsettled : s'.settled = s.settled +
      (block.filterMap fun t => (fate t).map fun f => (t, f) : List (τ × φ)))
    (hroom : card s'.out ≤ window) : Scans window s s' := by
  induction block generalizing s with
  | nil =>
    obtain ⟨ahead, out, settled⟩ := s
    obtain ⟨ahead', out', settled'⟩ := s'
    simp only [List.nil_append, List.filter_nil, List.filterMap_nil, Multiset.coe_nil,
      add_zero] at hahead hout hsettled
    subst hahead hout hsettled
    exact .refl
  | cons t block ih =>
    cases hf : fate t with
    | some f =>
      rw [List.filter_cons_of_neg (by simp [hf])] at hout
      rw [List.filterMap_cons_some (by rw [hf]; rfl), ← Multiset.cons_coe,
        ← Multiset.singleton_add, ← add_assoc] at hsettled
      have hpass : Move window s ⟨block ++ s'.ahead, s.out, s.settled + {(t, f)}⟩ :=
        .pass t f hahead rfl rfl
      have hrest : Scans window ⟨block ++ s'.ahead, s.out, s.settled + {(t, f)}⟩ s' :=
        ih rfl hout hsettled
      exact .head hpass hrest
    | none =>
      rw [List.filter_cons_of_pos (by simp [hf]), ← Multiset.cons_coe, ← Multiset.singleton_add,
        ← add_assoc] at hout
      rw [List.filterMap_cons_none (by rw [hf]; rfl)] at hsettled
      have hlt : card s.out < window := by
        -- the target and the outstanding ones are among those outstanding in the end
        rw [hout, card_add, card_add, card_singleton] at hroom
        omega
      have htake : Move window s ⟨block ++ s'.ahead, s.out + {t}, s.settled⟩ :=
        .take t hlt hahead rfl rfl
      have hrest : Scans window ⟨block ++ s'.ahead, s.out + {t}, s.settled⟩ s' :=
        ih rfl hout hsettled
      exact .head htake hrest

/-- Settling several outstanding targets is settling one after the other. -/
theorem scans_settle (fates : List (τ × φ)) (hahead : s'.ahead = s.ahead)
    (hout : s.out = s'.out + (fates.map Prod.fst : List τ))
    (hsettled : s'.settled = s.settled + (fates : Multiset (τ × φ))) : Scans window s s' := by
  induction fates generalizing s with
  | nil =>
    obtain ⟨ahead, out, settled⟩ := s
    obtain ⟨ahead', out', settled'⟩ := s'
    simp only [List.map_nil, Multiset.coe_nil, add_zero] at hahead hout hsettled
    subst hahead hout hsettled
    exact .refl
  | cons e fates ih =>
    rw [List.map_cons, ← Multiset.cons_coe, ← Multiset.singleton_add, ← add_assoc,
      add_right_comm] at hout
    rw [← Multiset.cons_coe, ← Multiset.singleton_add, ← add_assoc] at hsettled
    have hmove : Move window s
        ⟨s.ahead, s'.out + (fates.map Prod.fst : List τ), s.settled + {e}⟩ :=
      .settle e.1 e.2 rfl hout rfl
    have hrest : Scans window
        ⟨s.ahead, s'.out + (fates.map Prod.fst : List τ), s.settled + {e}⟩ s' :=
      ih hahead rfl hsettled
    exact .head hmove hrest

end WindowScan
