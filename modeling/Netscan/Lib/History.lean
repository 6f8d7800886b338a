import Mathlib

/-! # Histories

A history is the list of the events of a run, oldest first. `Always Q` says that every event meets
`Q` together with the events before it, which is how "before", "once" and "never after" are stated;
since a run only appends to its history, `always_append` is the step of an induction over it. -/

namespace History

variable {ε : Type*}

/-- Every event `e` of the history satisfies `Q pre e`, `pre` being the events before it. -/
def Always (Q : List ε → ε → Prop) (t : List ε) : Prop :=
  ∀ pre e post, t = pre ++ e :: post → Q pre e

variable {Q Q' : List ε → ε → Prop} {t u : List ε} {e : ε}

@[simp] theorem always_nil : Always Q [] := by
  intro pre e post h
  simp at h

/-- A history that grows by several events: the later ones are judged with the earlier ones before
them. -/
theorem always_append :
    Always Q (t ++ u) ↔ Always Q t ∧ Always (fun pre e => Q (t ++ pre) e) u := by
  constructor
  · refine fun h => ⟨fun pre e post ht => h pre e (post ++ u) ?_, fun pre e post hu => ?_⟩
    · rw [ht, List.append_assoc, List.cons_append]
    · exact h (t ++ pre) e post (by rw [hu, List.append_assoc])
  · rintro ⟨ht, hu⟩ pre e post h
    rcases List.append_eq_append_iff.mp h with ⟨mid, rfl, hmid⟩ | ⟨mid, rfl, hmid⟩
    · exact hu mid e post hmid
    · cases mid with
      | nil =>
        rw [List.nil_append] at hmid
        simpa using hu [] e post hmid.symm
      | cons a mid =>
        obtain ⟨rfl, -⟩ := List.cons.inj hmid
        exact ht pre e mid rfl

/-- A history of one event has nothing before it. -/
@[simp] theorem always_singleton : Always Q [e] ↔ Q [] e := by
  constructor
  · exact fun h => h [] e [] rfl
  · intro h pre a post heq
    obtain ⟨rfl, h'⟩ | ⟨pre', rfl, h'⟩ := List.append_eq_cons_iff.mp heq.symm
    · cases h'
      exact h
    · simp at h'

/-- A requirement may be weakened. -/
theorem Always.mono (h : Always Q t) (hw : ∀ pre e, Q pre e → Q' pre e) : Always Q' t :=
  fun pre e post ht => hw _ _ (h pre e post ht)

/-- Events that satisfy the requirement whatever is before them can always be appended. -/
theorem Always.append_of_forall (h : Always Q t) (hu : ∀ e ∈ u, ∀ pre, Q pre e) :
    Always Q (t ++ u) :=
  always_append.mpr ⟨h, fun _ e _ hpost => hu e (by simp [hpost]) _⟩

/-- What holds always holds of every event of the history. -/
theorem Always.exists_pre (h : Always Q t) (he : e ∈ t) : ∃ pre, (∀ a ∈ pre, a ∈ t) ∧ Q pre e := by
  obtain ⟨pre, post, rfl⟩ := List.append_of_mem he
  exact ⟨pre, fun a ha => List.mem_append_left _ ha, h pre e post rfl⟩

/-- Events whose reading under `f` occurs once in the history are the same event. -/
theorem eq_of_nodup_filterMap {β : Type*} {f : ε → Option β} {b : β} {a : ε}
    (h : (t.filterMap f).Nodup) (he : e ∈ t) (ha : a ∈ t) (hfe : f e = some b)
    (hfa : f a = some b) : e = a := by
  rw [List.Nodup, List.pairwise_filterMap] at h
  by_contra hne
  obtain ⟨t₁, t₂, rfl⟩ := List.append_of_mem he
  rw [List.pairwise_append, List.pairwise_cons] at h
  rcases List.mem_append.mp ha with ha | ha
  · exact h.2.2 a ha e List.mem_cons_self b hfa b hfe rfl
  · rcases List.mem_cons.mp ha with rfl | ha
    · exact hne rfl
    · exact h.2.1.1 a ha b hfe b hfa rfl

end History
