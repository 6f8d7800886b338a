import Mathlib.Data.List.Induction
import Mathlib.Data.List.Nodup
import Mathlib.Logic.Function.Basic

/-! # The last value of a key

A list of settings, each a key and a value, of which the last one for a key counts. A state that is
read off from the settings so far, key by key, depends on the last value of every key only. -/

namespace LastWins

variable {κ α σ : Type*} [DecidableEq κ]

/-- The value that the list gives to a key last, if it gives one. -/
def lastValue (es : List (κ × α)) (k : κ) : Option α :=
  ((es.filter fun e => e.1 = k).getLast?).map Prod.snd

/-- A setting counts unless one for the same key follows it. -/
theorem lastValue_cons (e : κ × α) (es : List (κ × α)) (k : κ) :
    lastValue (e :: es) k = (lastValue es k).or (if e.1 = k then some e.2 else none) := by
  unfold lastValue
  rw [List.filter_cons]
  by_cases hkey : e.1 = k
  · rw [if_pos (by simpa using hkey), List.getLast?_cons, if_pos hkey]
    cases (es.filter fun e => e.1 = k).getLast? <;> rfl
  · rw [if_neg (by simpa using hkey), if_neg hkey, Option.or_none]

/-- A key has a last value if it is set at all. -/
theorem isSome_lastValue {es : List (κ × α)} {k : κ} :
    (lastValue es k).isSome ↔ ∃ e ∈ es, e.1 = k := by
  rw [lastValue, Option.isSome_map, List.getLast?_isSome, ne_eq, List.filter_eq_nil_iff]
  simp

/-- A key that is set at most once has the same value in any order. -/
theorem lastValue_of_perm {es es' : List (κ × α)} (h : es.Perm es')
    (hkeys : (es.map Prod.fst).Nodup) (k : κ) : lastValue es k = lastValue es' k := by
  have hfilter : (es.filter fun e => e.1 = k).Perm (es'.filter fun e => e.1 = k) := h.filter _
  -- at most one setting is left, so that there is only one order
  have hone : (es.filter fun e => e.1 = k).length ≤ 1 := by
    have hcount := List.nodup_iff_count_le_one.mp hkeys k
    rw [List.count, List.countP_map] at hcount
    rw [← List.countP_eq_length_filter]
    exact hcount
  have heq : es.filter (fun e => e.1 = k) = es'.filter fun e => e.1 = k := by
    rcases hlist : es.filter fun e => e.1 = k with _ | ⟨e, _ | ⟨e', rest⟩⟩
    · rw [hlist] at hfilter
      rw [hlist, ← hfilter.nil_eq]
    · rw [hlist] at hfilter
      rw [hlist, List.perm_singleton.mp hfilter.symm]
    · rw [hlist] at hone
      simp at hone
  rw [lastValue, heq, lastValue]

/-- What is read off from the state after a list is what the last entry that tells something tells,
or what was read off before. -/
theorem foldl_getLast? {β : Type*} {f : σ → β → σ} (read : σ → Option α) (tells : β → Option α)
    (hstep : ∀ s b, read (f s b) = (tells b).or (read s)) (s : σ) (bs : List β) :
    read (bs.foldl f s) = (bs.filterMap tells).getLast?.or (read s) := by
  induction bs using List.reverseRecOn with
  | nil => rfl
  | append_singleton bs b ih =>
    rw [List.foldl_append, List.foldl_cons, List.foldl_nil, hstep, ih, List.filterMap_append,
      ← Option.or_assoc]
    congr 1
    cases hb : tells b with
    | none => simp [hb]
    | some a => simp [hb]

/-- **A state that is read off from settings**: if every setting replaces the value of its key, then
the state after all of them is read off from their last values, and from what was set before. -/
theorem foldl_read {f : σ → κ × α → σ} {read : (κ → Option α) → σ} {es : List (κ × α)}
    (hstep : ∀ e ∈ es, ∀ last, f (read last) e = read (Function.update last e.1 (some e.2))) :
    ∀ last : κ → Option α,
      es.foldl f (read last) = read fun k => (lastValue es k).or (last k) := by
  induction es with
  | nil => exact fun _ => rfl
  | cons e es ih =>
    intro last
    rw [List.foldl_cons, hstep e List.mem_cons_self,
      ih fun e' he' => hstep e' (List.mem_cons_of_mem _ he')]
    congr 1
    funext k
    rw [lastValue_cons, Option.or_assoc]
    congr 1
    -- the first setting counts for its key unless the others set it again
    by_cases hkey : e.1 = k
    · subst hkey
      rw [Function.update_self, if_pos rfl]
      rfl
    · rw [Function.update_of_ne (Ne.symm hkey), if_neg hkey]
      rfl

end LastWins
