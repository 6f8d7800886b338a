import Mathlib

/-! # Slot tables

A slot table is a list of entries some of which hold a key. `keys` reads off the keys held, slot by
slot; writing one slot changes it by at most one key each way (`keys_set_perm`), from which the
number of used slots, the distinctness of their keys and the existence of a free slot follow.
`Linked` ties a table to back-pointers `κ → Option ℕ`: the pointers and the used slots are inverse
to each other, and claiming or releasing a slot on both sides keeps them so. -/

namespace SlotTable

variable {ε κ : Type*}

/-- The keys held by the entries of a table, in slot order. -/
def keys (key : ε → Option κ) (t : List ε) : List κ := t.filterMap key

variable {key : ε → Option κ} {t : List ε} {i : ℕ} {a e : ε} {k : κ}

@[simp] theorem keys_nil : keys key [] = [] := rfl

/-- A key of the table is the key of the entry at some slot. -/
theorem mem_keys : k ∈ keys key t ↔ ∃ (i : ℕ) (e : ε), t[i]? = some e ∧ key e = some k := by
  rw [keys, List.mem_filterMap]
  constructor
  · rintro ⟨e, hmem, he⟩
    obtain ⟨i, hi⟩ := List.mem_iff_getElem?.mp hmem
    exact ⟨i, e, hi, he⟩
  · rintro ⟨i, e, hi, he⟩
    exact ⟨e, List.mem_of_getElem? hi, he⟩

/-- A table whose entries hold no key has no keys. -/
theorem keys_eq_nil (h : ∀ e ∈ t, key e = none) : keys key t = [] :=
  List.filterMap_eq_nil_iff.mpr h

/-- The used slots are at most the slots, as each holds at most one key. -/
theorem length_keys_le : (keys key t).length ≤ t.length := List.length_filterMap_le key t

/-- The number of keys held is the number of entries that hold one. -/
theorem length_keys_eq_countP : (keys key t).length = t.countP fun e => (key e).isSome := by
  induction t with
  | nil => rfl
  | cons a t ih => cases h : key a <;> simp_all [keys]

/-- The keys of a table, slot number by slot number. -/
theorem keys_eq_filterMap_range (key : ε → Option κ) (t : List ε) (a : ε) :
    keys key t = (List.range t.length).filterMap fun i => key (t.getD i a) := by
  have hmap : t = (List.range t.length).map fun i => t.getD i a := by
    apply List.ext_getElem (by simp)
    intro i h₁ _
    simp [h₁]
  rw [← Function.comp_def, ← List.filterMap_map, ← hmap, keys]

/-- A selection that splits, element by element, into two others has the elements of both. -/
theorem filterMap_perm_append {α β : Type*} {f g h : α → Option β} {l : List α}
    (hsplit : ∀ a ∈ l, (g a = f a ∧ h a = none) ∨ (g a = none ∧ h a = f a)) :
    (l.filterMap f).Perm (l.filterMap g ++ l.filterMap h) := by
  induction l with
  | nil => exact .refl _
  | cons a l ih =>
    have hrest := ih fun b hb => hsplit b (List.mem_cons_of_mem a hb)
    rw [List.filterMap_cons, List.filterMap_cons, List.filterMap_cons]
    rcases hsplit a List.mem_cons_self with ⟨hg, hh⟩ | ⟨hg, hh⟩ <;> rw [hg, hh] <;> cases f a with
    | none => exact hrest
    | some b =>
      first
      | exact hrest.cons b
      | exact (hrest.cons b).trans List.perm_middle.symm

/-- The values of a table are bounded, as there are finitely many. -/
theorem exists_bound (f : ε → ℤ) (t : List ε) :
    ∃ b : ℤ, ∀ (i : ℕ) (e : ε), t[i]? = some e → f e ≤ b := by
  suffices h : ∃ b : ℤ, ∀ e ∈ t, f e ≤ b by
    obtain ⟨b, hb⟩ := h
    exact ⟨b, fun i e hi => hb e (List.mem_of_getElem? hi)⟩
  induction t with
  | nil => exact ⟨0, nofun⟩
  | cons a t ih =>
    obtain ⟨b, hb⟩ := ih
    refine ⟨max b (f a), ?_⟩
    intro e he
    rcases List.mem_cons.mp he with rfl | he
    · exact le_max_right _ _
    · exact le_trans (hb e he) (le_max_left _ _)

/-- Writing slot `i` exchanges the key of the old entry for the key of the new one. -/
theorem keys_set_perm (hi : t[i]? = some a) (e : ε) :
    ((key a).toList ++ keys key (t.set i e)).Perm ((key e).toList ++ keys key t) := by
  obtain ⟨hlt, rfl⟩ := List.getElem?_eq_some_iff.mp hi
  obtain ⟨l₁, l₂, ht, -, hset⟩ : ∃ l₁ l₂, t = l₁ ++ t[i] :: l₂ ∧ l₁.length = i ∧
      t.set i e = l₁ ++ e :: l₂ := List.exists_of_set hlt
  generalize t[i] = a at ht hset
  subst ht
  rw [hset]
  simp only [keys, List.filterMap_append, List.filterMap_cons]
  -- the keys of the other entries stand around the one place where the tables differ
  cases key a with
  | none =>
    cases key e with
    | none => exact .refl _
    | some c => exact List.perm_middle
  | some b =>
    cases key e with
    | none => simpa using List.perm_middle.symm
    | some c =>
      exact (List.perm_middle.cons b).trans
        ((List.Perm.swap c b _).trans (List.perm_middle.symm.cons c))

/-- Slots that hold the same key are the same slot, if the keys are distinct. -/
theorem eq_of_nodup_keys (h : (keys key t).Nodup) {j : ℕ} (hi : t[i]? = some a)
    (ha : key a = some k) (hj : t[j]? = some e) (he : key e = some k) : i = j := by
  rw [keys, List.Nodup, List.pairwise_filterMap, List.pairwise_iff_getElem] at h
  obtain ⟨hilt, rfl⟩ := List.getElem?_eq_some_iff.mp hi
  obtain ⟨hjlt, rfl⟩ := List.getElem?_eq_some_iff.mp hj
  rcases Nat.lt_trichotomy i j with hlt | heq | hgt
  · exact absurd rfl (h i j hilt hjlt hlt k ha k he)
  · exact heq
  · exact absurd rfl (h j i hjlt hilt hgt k he k ha)

/-- Claiming a free slot adds one key and leaves the others. -/
theorem keys_claim (hi : t[i]? = some a) (ha : key a = none) (he : key e = some k) :
    (keys key (t.set i e)).Perm (k :: keys key t) := by
  have h : ((key a).toList ++ keys key (t.set i e)).Perm _ := keys_set_perm hi e
  simpa [ha, he] using h

/-- Releasing a used slot removes one key and leaves the others. -/
theorem keys_release (hi : t[i]? = some a) (ha : key a = some k) (he : key e = none) :
    (keys key t).Perm (k :: keys key (t.set i e)) := by
  have h : ((key a).toList ++ keys key (t.set i e)).Perm _ := keys_set_perm hi e
  simpa [ha, he] using h.symm

/-- A table with fewer keys than slots has a free slot, and the search for the first one finds a
free slot. -/
theorem exists_findIdx?_free (h : (keys key t).length < t.length) :
    ∃ i a, t.findIdx? (fun e => (key e).isNone) = some i ∧ t[i]? = some a ∧ key a = none := by
  have hex : ∃ e ∈ t, (key e).isNone = true := by
    by_contra hnone
    push Not at hnone
    have hall : t.countP (fun e => (key e).isSome) = t.length :=
      List.countP_eq_length.mpr fun e he => by
        simpa [Option.isSome_iff_ne_none] using hnone e he
    rw [length_keys_eq_countP] at h
    omega
  have hsome : (t.findIdx? fun e => (key e).isNone).isSome = true := by
    simpa [List.findIdx?_isSome] using hex
  obtain ⟨i, hi⟩ := Option.isSome_iff_exists.mp hsome
  obtain ⟨hlt, hfree, -⟩ := List.findIdx?_eq_some_iff_getElem.mp hi
  exact ⟨i, t[i], hi, List.getElem?_eq_getElem hlt, by simpa using hfree⟩

/-! ### Tables with back-pointers -/

/-- The back-pointers `back` invert the table: `back k` is slot `i` exactly when slot `i` holds
`k`. -/
def Linked (key : ε → Option κ) (t : List ε) (back : κ → Option ℕ) : Prop :=
  ∀ k i, back k = some i ↔ ∃ e, t[i]? = some e ∧ key e = some k

variable {back : κ → Option ℕ}

/-- A table without keys is linked to back-pointers that all are absent. -/
theorem Linked.empty (h : ∀ e ∈ t, key e = none) (hb : ∀ k, back k = none) :
    Linked key t back := by
  intro k i
  rw [hb]
  refine ⟨nofun, ?_⟩
  rintro ⟨e, he, hk⟩
  rw [h e (List.mem_of_getElem? he)] at hk
  cases hk

/-- Slots of a linked table that hold the same key are the same slot. -/
theorem Linked.slot_unique (h : Linked key t back) {j : ℕ} {b : ε} (hi : t[i]? = some a)
    (ha : key a = some k) (hj : t[j]? = some b) (hb : key b = some k) : i = j := by
  have h₁ := (h k i).mpr ⟨a, hi, ha⟩
  have h₂ := (h k j).mpr ⟨b, hj, hb⟩
  exact Option.some.inj (h₁.symm.trans h₂)

/-- Claiming a free slot for an unmapped key, in the table and in the back-pointers. -/
theorem Linked.claim [DecidableEq κ] (h : Linked key t back) (hi : t[i]? = some a)
    (ha : key a = none) (hk : back k = none) (he : key e = some k) :
    Linked key (t.set i e) (Function.update back k (some i)) := by
  have hlt : i < t.length := (List.getElem?_eq_some_iff.mp hi).1
  intro k' j
  -- only the back-pointer of `k` and the entry of slot `i` are new
  by_cases hkk : k' = k
  · subst hkk
    rw [Function.update_self]
    constructor
    · rintro ⟨⟩; exact ⟨e, by simp [hlt], he⟩
    · rintro ⟨b, hb, hkb⟩
      by_cases hij : i = j
      · rw [hij]
      · rw [List.getElem?_set_ne hij] at hb
        have := (h k' j).mpr ⟨b, hb, hkb⟩
        rw [hk] at this; cases this
  · rw [Function.update_of_ne hkk, h k' j]
    by_cases hij : i = j
    · subst hij
      rw [hi, List.getElem?_set_self hlt]
      simp [ha, he, Ne.symm hkk]
    · rw [List.getElem?_set_ne hij]

/-- Releasing the slot of a key, in the table and in the back-pointers. -/
theorem Linked.release [DecidableEq κ] (h : Linked key t back) (hi : t[i]? = some a)
    (ha : key a = some k) (he : key e = none) :
    Linked key (t.set i e) (Function.update back k none) := by
  have hlt : i < t.length := (List.getElem?_eq_some_iff.mp hi).1
  intro k' j
  -- slot `i` holds nothing any more, and no other slot held `k`
  by_cases hij : i = j
  · subst hij
    by_cases hkk : k' = k
    · subst hkk; simp [hlt, he]
    · rw [Function.update_of_ne hkk, h k' i, hi, List.getElem?_set_self hlt]
      simp [ha, he, Ne.symm hkk]
  · rw [List.getElem?_set_ne hij]
    by_cases hkk : k' = k
    · subst hkk
      rw [Function.update_self]
      refine ⟨nofun, ?_⟩
      rintro ⟨b, hb, hkb⟩
      exact absurd (h.slot_unique hi ha hb hkb) hij
    · rw [Function.update_of_ne hkk, h k' j]

/-- The keys of a linked table are pairwise distinct, as each is linked back to one slot. -/
theorem Linked.keys_nodup (h : Linked key t back) : (keys key t).Nodup := by
  refine List.pairwise_filterMap.mpr (List.pairwise_iff_getElem.mpr ?_)
  rintro i j hi hj hij k hk k' hk' rfl
  have := h.slot_unique (List.getElem?_eq_getElem hi) hk (List.getElem?_eq_getElem hj) hk'
  omega

/-- A key of a linked table is held by one entry, and any other key by none. -/
theorem Linked.countP_key [DecidableEq κ] (h : Linked key t back) (k : κ) :
    (t.countP fun e => key e = some k) = if (back k).isSome then 1 else 0 := by
  have hcount : (keys key t).count k = t.countP fun e => key e = some k := by
    rw [keys, List.count_filterMap]
    congr 1
    funext e
    exact beq_eq_decide _ _
  have hmem : k ∈ keys key t ↔ (back k).isSome := by
    rw [mem_keys, Option.isSome_iff_exists]
    exact exists_congr fun i => (h k i).symm
  rw [← hcount, h.keys_nodup.count]
  simp only [hmem]

end SlotTable
