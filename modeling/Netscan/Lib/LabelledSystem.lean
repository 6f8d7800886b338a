import Mathlib

/-! # Executable labelled transition systems

A system is a partial step function `σ → ι → Option σ`: the label carries everything the
environment decides, and `none` says that the label is not possible in the state. Runs are
restricted by a condition `ok` on the steps taken, so that one induction rule serves both
"every reachable state" and "every run whose steps all meet the condition". -/

namespace LabelledSystem

variable {σ ι : Type*}

/-- A labelled transition system, executable: `M s l` is the state after the `l`-step from `s`,
or `none` when `s` has no such step. -/
abbrev System (σ ι : Type*) := σ → ι → Option σ

/-- `Runs M ok s t`: some run of `M` leads from `s` to `t`, and every step of it, taken from state
`u` with label `l`, meets `ok u l`. -/
inductive Runs (M : System σ ι) (ok : σ → ι → Prop) (s : σ) : σ → Prop
  /-- The empty run. -/
  | refl : Runs M ok s s
  /-- A run extended by one admissible step. -/
  | tail {t u : σ} {l : ι} : Runs M ok s t → ok t l → M t l = some u → Runs M ok s u

/-- Reachability: runs without a condition on their steps. -/
abbrev Reachable (M : System σ ι) : σ → σ → Prop := Runs M fun _ _ => True

section Runs

variable {M : System σ ι} {ok ok' : σ → ι → Prop} {s t u : σ}

/-- Every state of a run satisfies a predicate that holds at the start and that admissible steps
preserve. -/
theorem Runs.invariant {I : σ → Prop} (h : Runs M ok s t) (hstart : I s)
    (hstep : ∀ u l v, I u → ok u l → M u l = some v → I v) : I t := by
  induction h with
  | refl => exact hstart
  | tail _ hok hstp ih => exact hstep _ _ _ ih hok hstp

/-- A run under a condition is a run under any weaker one. -/
theorem Runs.mono (h : Runs M ok s t) (hw : ∀ u l, ok u l → ok' u l) : Runs M ok' s t := by
  induction h with
  | refl => exact .refl
  | tail _ hok hstp ih => exact ih.tail (hw _ _ hok) hstp

/-- Every run reaches a reachable state, as conditions only leave steps out. -/
theorem Runs.reachable (h : Runs M ok s t) : Reachable M s t :=
  h.mono fun _ _ _ => trivial

/-- Runs compose: one may go on where the other ends. -/
theorem Runs.trans (h₁ : Runs M ok s t) (h₂ : Runs M ok t u) : Runs M ok s u := by
  induction h₂ with
  | refl => exact h₁
  | tail _ hok hstp ih => exact ih.tail hok hstp

/-- The induction rule for a predicate whose preservation needs facts about the run so far. -/
theorem Runs.invariant_of_runs {I : σ → Prop} (h : Runs M ok s t) (hstart : I s)
    (hstep : ∀ u l v, Runs M ok s u → I u → ok u l → M u l = some v → I v) : I t := by
  induction h with
  | refl => exact hstart
  | tail hrun hok hstp ih => exact hstep _ _ _ hrun ih hok hstp

end Runs

/-! ### Safety and progress from a state -/

/-- Every state of every admissible run from `s` satisfies `I`, the first one included. -/
def Henceforth (M : System σ ι) (ok : σ → ι → Prop) (I : σ → Prop) (s : σ) : Prop :=
  ∀ t, Runs M ok s t → I t

/-- Whatever admissible run has been taken from `s`, an admissible run goes on from there to a state
that satisfies `D`. -/
def Leads (M : System σ ι) (ok : σ → ι → Prop) (D : σ → Prop) (s : σ) : Prop :=
  ∀ t, Runs M ok s t → ∃ u, Runs M ok t u ∧ D u

section Henceforth

variable {M : System σ ι} {ok : σ → ι → Prop} {I D : σ → Prop} {s t : σ} {l : ι}

/-- The first state of a run is one of its states. -/
theorem Henceforth.here (h : Henceforth M ok I s) : I s := h s .refl

/-- What holds henceforth holds henceforth after a step, as the step can be put before a run. -/
theorem Henceforth.next (h : Henceforth M ok I s) (hok : ok s l) (hstep : M s l = some t) :
    Henceforth M ok I t := by
  intro u hu
  have hfirst : Runs M ok s t := Runs.refl.tail hok hstep
  exact h u (hfirst.trans hu)

/-- A run is empty or begins with a step, though runs are built at their ends. -/
theorem Runs.head_cases (h : Runs M ok s t) :
    t = s ∨ ∃ l u, ok s l ∧ M s l = some u ∧ Runs M ok u t := by
  induction h with
  | refl => exact .inl rfl
  | @tail t v l hrun hok hstep ih =>
    refine .inr ?_
    rcases ih with rfl | ⟨l', u, hok', hstep', hrest⟩
    · exact ⟨l, v, hok, hstep, .refl⟩
    · exact ⟨l', u, hok', hstep', hrest.tail hok hstep⟩

/-- If every step from `s` stays in `s` or leads to what steps keep, then a run from `s` has stayed
in `s` or has come to it. -/
theorem Runs.eq_or_of_next {J : σ → Prop} (h : Runs M ok s t)
    (hnext : ∀ l v, ok s l → M s l = some v → v = s ∨ J v)
    (hkeep : ∀ u l v, J u → ok u l → M u l = some v → J v) : t = s ∨ J t := by
  refine h.invariant (I := fun u => u = s ∨ J u) (.inl rfl) ?_
  intro u l v hu hok hstep
  rcases hu with rfl | hu
  · exact hnext l v hok hstep
  · exact .inr (hkeep u l v hu hok hstep)

/-- **Safety rule.** What holds now, and henceforth after every step that does not stay here, holds
henceforth. -/
theorem Henceforth.of_next (h : I s)
    (hnext : ∀ l v, ok s l → M s l = some v → v = s ∨ Henceforth M ok I v) :
    Henceforth M ok I s := by
  intro t ht
  rcases ht.eq_or_of_next hnext fun u l v hu hok hstep => hu.next hok hstep with rfl | ht
  · exact h
  · exact ht.here

/-- A state that meets the target and cannot be left leads there. -/
theorem Leads.of_final (hfinal : ∀ l v, ok s l → M s l = some v → v = s) (h : D s) :
    Leads M ok D s := by
  intro t ht
  have hstay : t = s := ht.invariant (I := fun u => u = s) rfl fun u l v hu hok hstep => by
    subst hu
    exact hfinal l v hok hstep
  subst hstay
  exact ⟨t, .refl, h⟩

/-- **Progress rule.** If every step from `s` stays in `s` or leads to the target, and some step
leads to it, then `s` does. -/
theorem Leads.of_next
    (hnext : ∀ l v, ok s l → M s l = some v → v = s ∨ Leads M ok D v)
    (hsome : ∃ l v, ok s l ∧ M s l = some v ∧ Leads M ok D v) : Leads M ok D s := by
  intro t ht
  have hkept : t = s ∨ Leads M ok D t := by
    refine ht.eq_or_of_next hnext ?_
    intro u l v hu hok hstep w hw
    have hfirst : Runs M ok u v := Runs.refl.tail hok hstep
    exact hu w (hfirst.trans hw)
  rcases hkept with rfl | hlead
  · obtain ⟨l, v, hok, hstep, hv⟩ := hsome
    obtain ⟨u, hrun, hu⟩ := hv v .refl
    have hfirst : Runs M ok t v := Runs.refl.tail hok hstep
    exact ⟨u, hfirst.trans hrun, hu⟩
  · exact hlead t .refl

end Henceforth

/-! ### Executing a list of labels -/

/-- Run the labels of a list in order; `none` as soon as a label is not possible or the check
`ok` refuses the step. -/
def execWhen (M : System σ ι) (ok : σ → ι → Bool) : σ → List ι → Option σ
  | s, [] => some s
  | s, l :: ls => if ok s l then (M s l).bind fun t => execWhen M ok t ls else none

/-- Run the labels of a list in order, if each of them applies. -/
def exec (M : System σ ι) : σ → List ι → Option σ := execWhen M fun _ _ => true

/-- An executed list of labels is a run whose steps pass the check. -/
theorem runs_of_execWhen {M : System σ ι} {ok : σ → ι → Bool} :
    ∀ {ls : List ι} {s t : σ}, execWhen M ok s ls = some t → Runs M (fun u l => ok u l = true) s t
  | [], s, t, h => by
    obtain rfl : s = t := by simpa [execWhen] using h
    exact .refl
  | l :: ls, s, t, h => by
    rw [execWhen] at h
    split at h
    · rename_i hok
      obtain ⟨u, hu, hrest⟩ := Option.bind_eq_some_iff.mp h
      have hfirst : Runs M (fun u l => ok u l = true) s u := Runs.refl.tail hok hu
      exact Runs.trans hfirst (runs_of_execWhen hrest)
    · cases h

/-- A list of labels whose execution passes a test exhibits a run to a state that passes it. -/
theorem exists_runs_of_execWhen {M : System σ ι} (ok : σ → ι → Prop) [∀ u l, Decidable (ok u l)]
    {s : σ} (ls : List ι) (p : σ → Bool)
    (h : (execWhen M (fun u l => decide (ok u l)) s ls).any p = true) :
    ∃ t, Runs M ok s t ∧ p t = true := by
  cases ht : execWhen M (fun u l => decide (ok u l)) s ls with
  | none => simp [ht] at h
  | some t =>
    exact ⟨t, (runs_of_execWhen ht).mono fun _ _ => of_decide_eq_true, by simpa [ht] using h⟩

/-- `exists_runs_of_execWhen` without a check on the steps. -/
theorem exists_reachable_of_exec {M : System σ ι} {s : σ} (ls : List ι) (p : σ → Bool)
    (h : (exec M s ls).any p = true) : ∃ t, Reachable M s t ∧ p t = true := by
  obtain ⟨t, ht, hp⟩ := exists_runs_of_execWhen (fun _ _ => True) ls p (by simpa [exec] using h)
  exact ⟨t, ht, hp⟩

/-- The first label of a list is run first. -/
theorem exec_cons (M : System σ ι) (s : σ) (l : ι) (ls : List ι) :
    exec M s (l :: ls) = (M s l).bind fun t => exec M t ls := by
  simp [exec, execWhen]

/-- **Simulation rule.** If the steps of two systems do not tell states apart that look alike, one
seen under `f` and the other under `g`, then no list of labels does: it is possible in both states
or in neither, and leads to states that look alike. With one system and one view this says what
its runs do not depend on. -/
theorem map_exec_eq {σ' τ : Type*} {M : System σ ι} {N : System σ' ι} {f : σ → τ} {g : σ' → τ}
    (hstep : ∀ s t l, f s = g t → (M s l).map f = (N t l).map g) (ls : List ι) :
    ∀ s t, f s = g t → (exec M s ls).map f = (exec N t ls).map g := by
  induction ls with
  | nil =>
    intro s t h
    exact congrArg some h
  -- the first label applies in both states or in neither, and the rest is the induction
  | cons l ls ih =>
    intro s t h
    have hmap := hstep s t l h
    rw [exec_cons, exec_cons]
    cases hs : M s l with
    | none =>
      rw [hs] at hmap
      rw [Option.map_eq_none_iff.mp hmap.symm]
      rfl
    | some s' =>
      rw [hs] at hmap
      obtain ⟨t', ht, hlook⟩ := Option.map_eq_some_iff.mp hmap.symm
      rw [ht]
      exact ih s' t' hlook.symm

/-! ### Infinite executions -/

/-- An infinite execution: a state and a label for every moment, each step taken by the system. -/
structure Execution (M : System σ ι) where
  /-- The state before step `i`. -/
  state : ℕ → σ
  /-- The label of step `i`. -/
  label : ℕ → ι
  /-- Step `i` leads to the next state. -/
  step : ∀ i, M (state i) (label i) = some (state (i + 1))

namespace Execution

variable {M : System σ ι} (e : Execution M)

/-- Every state of an execution is reachable from its first one. -/
theorem reachable (i : ℕ) : Reachable M (e.state 0) (e.state i) := by
  induction i with
  | zero => exact .refl
  | succ i ih => exact ih.tail trivial (e.step i)

/-- A quantity that no step lowers is monotone along an execution. -/
theorem monotone_of_step {f : σ → ℕ} (h : ∀ i, f (e.state i) ≤ f (e.state (i + 1))) {i j : ℕ}
    (hij : i ≤ j) : f (e.state i) ≤ f (e.state j) := by
  induction hij with
  | refl => exact le_rfl
  | step _ ih => exact le_trans ih (h _)

/-- A bounded quantity that no step lowers is constant from some moment on. -/
theorem exists_stable {f : σ → ℕ} (h : ∀ i, f (e.state i) ≤ f (e.state (i + 1))) {b : ℕ}
    (hb : ∀ i, f (e.state i) ≤ b) : ∃ n, ∀ i, n ≤ i → f (e.state i) = f (e.state n) := by
  -- Induction on the room below the bound: either the value moves once more, or it never does.
  have key : ∀ room n, b - f (e.state n) ≤ room →
      ∃ m, n ≤ m ∧ ∀ i, m ≤ i → f (e.state i) = f (e.state m) := by
    intro room
    induction room with
    | zero =>
      intro n hn
      refine ⟨n, le_rfl, fun i hi => ?_⟩
      have := e.monotone_of_step h hi
      have := hb i
      omega
    | succ room ih =>
      intro n hn
      by_cases hc : ∀ i, n ≤ i → f (e.state i) = f (e.state n)
      · exact ⟨n, le_rfl, hc⟩
      · push Not at hc
        obtain ⟨i, hi, hne⟩ := hc
        have hmono := e.monotone_of_step h hi
        have hbi := hb i
        obtain ⟨m, him, hm⟩ := ih i (by omega)
        exact ⟨m, le_trans hi him, hm⟩
  obtain ⟨m, -, hm⟩ := key b 0 (by omega)
  exact ⟨m, hm⟩

/-- What holds at moment `n` and is kept from then on holds from then on. -/
theorem invariant_from {I : σ → Prop} {n : ℕ} (hn : I (e.state n))
    (hstep : ∀ i, n ≤ i → I (e.state i) → I (e.state (i + 1))) {i : ℕ} (hi : n ≤ i) :
    I (e.state i) := by
  induction i, hi using Nat.le_induction with
  | base => exact hn
  | succ i hi ih => exact hstep i hi ih

/-- A quantity that no step lowers stays above what it has once passed. -/
theorem exists_forall_lt {f : σ → ℤ} (h : ∀ i, f (e.state i) ≤ f (e.state (i + 1))) {t : ℤ}
    (ht : ∃ i, t < f (e.state i)) : ∃ n, ∀ i, n ≤ i → t < f (e.state i) := by
  obtain ⟨n, hn⟩ := ht
  refine ⟨n, fun i hi => ?_⟩
  apply e.invariant_from (I := fun s => t < f s) hn _ hi
  intro j _ hj
  exact Int.lt_of_lt_of_le hj (h j)

/-- **Waiting rule.** If busy steps recur for ever and idle steps keep `I`, the next busy step is
taken from a state that satisfies `I`. -/
theorem exists_next {I : σ → Prop} (busy : σ → ι → Prop) {n : ℕ} (hn : I (e.state n))
    (hidle : ∀ i, n ≤ i → I (e.state i) → ¬ busy (e.state i) (e.label i) → I (e.state (i + 1)))
    (hinf : ∀ i, ∃ j, i ≤ j ∧ busy (e.state j) (e.label j)) :
    ∃ j, n ≤ j ∧ I (e.state j) ∧ busy (e.state j) (e.label j) := by
  by_contra hnone
  push Not at hnone
  -- Without such a step `I` would be kept for ever.
  have hkeep : ∀ i, n ≤ i → I (e.state i) := by
    intro i hi
    apply e.invariant_from hn _ hi
    intro j hj hI
    exact hidle j hj hI (hnone j hj hI)
  obtain ⟨j, hnj, hj⟩ := hinf n
  exact hnone j hnj (hkeep j hnj) hj

/-- **Ranking rule.** From moment `n` on let `rank` never rise except on `marked` steps and fall on
every `busy` step that is not marked. If busy steps recur for ever, so do marked ones. -/
theorem exists_marked (rank : σ → ℕ) (busy marked : σ → ι → Prop) {n : ℕ}
    (hidle : ∀ i, n ≤ i → ¬ marked (e.state i) (e.label i) →
      rank (e.state (i + 1)) ≤ rank (e.state i))
    (hbusy : ∀ i, n ≤ i → ¬ marked (e.state i) (e.label i) → busy (e.state i) (e.label i) →
      rank (e.state (i + 1)) < rank (e.state i))
    (hinf : ∀ i, ∃ j, i ≤ j ∧ busy (e.state j) (e.label j)) {i : ℕ} (hi : n ≤ i) :
    ∃ j, i ≤ j ∧ marked (e.state j) (e.label j) := by
  by_contra hnone
  push Not at hnone
  have hmono : ∀ {j k}, i ≤ j → j ≤ k → rank (e.state k) ≤ rank (e.state j) := by
    intro j k hij hjk
    induction hjk with
    | refl => exact le_rfl
    | @step k hjk ih =>
      have hik := le_trans hij hjk
      exact le_trans (hidle k (le_trans hi hik) (hnone k hik)) ih
  -- Without a marked step the rank would fall for ever.
  have hfall : ∀ r j, i ≤ j → rank (e.state j) ≤ r → False := by
    intro r
    induction r with
    | zero =>
      intro j hij hr
      obtain ⟨k, hjk, hk⟩ := hinf j
      have hik := le_trans hij hjk
      have := hbusy k (le_trans hi hik) (hnone k hik) hk
      have := hmono hij hjk
      omega
    | succ r ih =>
      intro j hij hr
      obtain ⟨k, hjk, hk⟩ := hinf j
      have hik := le_trans hij hjk
      have := hbusy k (le_trans hi hik) (hnone k hik) hk
      have := hmono hij hjk
      exact ih (k + 1) (by omega) (by omega)
  exact hfall _ i le_rfl le_rfl

end Execution

/-- A schedule of labels that always applies, starting from `s`, is an execution: `I i` describes
the state before step `i`. -/
theorem exists_execution_of_schedule {M : System σ ι} {s : σ} (label : ℕ → ι)
    (I : ℕ → σ → Prop) (hstart : I 0 s)
    (hstep : ∀ i u, I i u → ∃ t, M u (label i) = some t ∧ I (i + 1) t) :
    ∃ e : Execution M, e.state 0 = s ∧ e.label = label ∧ ∀ i, I i (e.state i) := by
  let next (i : ℕ) (u : σ) : σ := (M u (label i)).getD u
  let state : ℕ → σ := fun i => Nat.rec s next i
  -- `getD` never falls back, as each label applies where its step begins
  have hI : ∀ i, I i (state i) := by
    intro i
    induction i with
    | zero => exact hstart
    | succ i ih =>
      obtain ⟨t, ht, hIt⟩ := hstep i _ ih
      have : state (i + 1) = t := by show next i (state i) = t; simp [next, ht]
      rwa [this]
  refine ⟨⟨state, label, fun i => ?_⟩, rfl, rfl, hI⟩
  obtain ⟨t, ht, -⟩ := hstep i _ (hI i)
  have : state (i + 1) = t := by show next i (state i) = t; simp [next, ht]
  rw [this, ht]

end LabelledSystem
