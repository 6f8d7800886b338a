import Netscan.Lib.LabelledSystem

/-! # History variables and refinement

A history variable is written by every step and read by none, so it may be added to a system to
say what its runs have done (`withHistory`): it restricts no run and adds none. A system refines a
relation of abstract moves when every step, seen through an abstraction function, is a sequence of
moves; the same then holds of its runs. -/

namespace LabelledSystem

variable {σ ι β α : Type*} {M : System σ ι} {ok : σ → ι → Prop} {r : σ → ι → List β}

/-- The system with a history variable, to which every step adds what `record` says of it. -/
def withHistory (M : System σ ι) (record : σ → ι → List β) : System (σ × List β) ι := fun s l =>
  (M s.1 l).map fun t => (t, s.2 ++ record s.1 l)

/-- The steps of a system with a history variable: those of the system, with the history
extended. -/
theorem withHistory_eq_some {s t : σ × List β} {l : ι} :
    withHistory M r s l = some t ↔ M s.1 l = some t.1 ∧ t.2 = s.2 ++ r s.1 l := by
  rw [withHistory, Option.map_eq_some_iff]
  constructor
  · rintro ⟨u, hu, rfl⟩
    exact ⟨hu, rfl⟩
  · rintro ⟨hstep, hhist⟩
    exact ⟨t.1, hstep, Prod.ext rfl hhist.symm⟩

/-- A history variable adds no run: without it, the run is one of the system. -/
theorem Runs.forget_history {s t : σ × List β}
    (h : Runs (withHistory M r) (fun s l => ok s.1 l) s t) : Runs M ok s.1 t.1 := by
  induction h with
  | refl => exact .refl
  | tail _ hok hstep ih => exact ih.tail hok (withHistory_eq_some.mp hstep).1

/-- A history variable adds no reachable state, by the same argument. -/
theorem Reachable.forget_history {s t : σ × List β} (h : Reachable (withHistory M r) s t) :
    Reachable M s.1 t.1 := Runs.forget_history h

/-- A history variable restricts no run: it can be added to any. -/
theorem Runs.exists_history {s t : σ} (h : Runs M ok s t) (hist : List β) :
    ∃ hist', Runs (withHistory M r) (fun s l => ok s.1 l) (s, hist) (t, hist') := by
  induction h with
  | refl => exact ⟨hist, .refl⟩
  | @tail u v l _ hok hstep ih =>
    obtain ⟨hist', hrun⟩ := ih
    exact ⟨hist' ++ r u l, hrun.tail hok (withHistory_eq_some.mpr ⟨hstep, rfl⟩)⟩

/-- **Refinement rule.** If every step of a run is matched by moves, so is the run. -/
theorem Runs.reflTransGen {s t : σ} {move : α → α → Prop} (h : Runs M ok s t) (abs : σ → α)
    (hstep : ∀ u l v, Runs M ok s u → ok u l → M u l = some v →
      Relation.ReflTransGen move (abs u) (abs v)) : Relation.ReflTransGen move (abs s) (abs t) :=
  h.invariant_of_runs (I := fun u => Relation.ReflTransGen move (abs s) (abs u)) .refl
    fun u l v hrun hmoves hok hu => hmoves.trans (hstep u l v hrun hok hu)

end LabelledSystem
