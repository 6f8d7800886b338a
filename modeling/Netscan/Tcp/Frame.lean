import Netscan.Tcp.Ownership

/-! # What the ends of probes leave alone

`poll_connections` and `reap_timed_out_probes` end probes, the destructor closes what is left.
`Ends` says what such functions do to the rest of the world: entries become inactive and sockets are
closed, nothing else changes, and the trace grows by `close` calls only. It also says why each probe
has ended. -/

namespace Netscan

open MachineInt SlotTable LabelledSystem

namespace TcpScanner

variable {P : TcpScanner} {w w₁ w₂ w₃ : TcpWorld} {i : ℕ} {p : TcpProbeInfo} {now : Timespec}
  {gone gone' : TcpProbeInfo → Prop}

/-- From `w` to `w'` probes only end, and each probe that has ended is `gone`. -/
structure Ends (gone : TcpProbeInfo → Prop) (w w' : TcpWorld) : Prop where
  /-- The probes active afterwards were active before. -/
  kept : ∀ (i : ℕ) (p : TcpProbeInfo), w'.st.probeTable[i]? = some p → p.active = true →
    w.st.probeTable[i]? = some p
  /-- A probe active before is still active or gone. -/
  gone : ∀ (i : ℕ) (p : TcpProbeInfo), w.st.probeTable[i]? = some p → p.active = true →
    w'.st.probeTable[i]? = some p ∨ gone p
  /-- The sockets open afterwards were open before. -/
  sockets : ∀ fd s, w'.kernel.socketAt fd = some s → w.kernel.socketAt fd = some s
  /-- No socket is opened. -/
  opened : w'.kernel.opened = w.kernel.opened
  /-- The cursor rests. -/
  cursor : w'.st.nextHostIdx = w.st.nextHostIdx
  /-- No result is stored. -/
  results : w'.st.scanResults = w.st.scanResults
  /-- The callback is not called. -/
  called : w'.st.called = w.st.called
  /-- The trace grows by `close` calls. -/
  trace : ∃ ids : List (Option ℕ), w'.trace = w.trace ++ ids.map .closed

/-- Nothing ends in a step that changes nothing. -/
theorem Ends.refl (gone : TcpProbeInfo → Prop) (w : TcpWorld) : Ends gone w w :=
  ⟨fun _ _ hi _ => hi, fun _ _ hi _ => .inl hi, fun _ _ hs => hs, rfl, rfl, rfl, rfl,
    [], (List.append_nil _).symm⟩

/-- Ends compose: what either ends was gone for the reason. -/
theorem Ends.trans (h₁ : Ends gone w₁ w₂) (h₂ : Ends gone w₂ w₃) : Ends gone w₁ w₃ where
  kept i p hi hp := h₁.kept i p (h₂.kept i p hi hp) hp
  gone i p hi hp := (h₁.gone i p hi hp).elim (fun hi' => h₂.gone i p hi' hp) .inr
  sockets fd s hs := h₁.sockets fd s (h₂.sockets fd s hs)
  opened := h₂.opened.trans h₁.opened
  cursor := h₂.cursor.trans h₁.cursor
  results := h₂.results.trans h₁.results
  called := h₂.called.trans h₁.called
  trace := by
    obtain ⟨ids₁, ht₁⟩ := h₁.trace
    obtain ⟨ids₂, ht₂⟩ := h₂.trace
    exact ⟨ids₁ ++ ids₂, by rw [ht₂, ht₁, List.map_append, List.append_assoc]⟩

/-- Probes that end for a reason end for a weaker one. -/
theorem Ends.mono (h : Ends gone w₁ w₂) (hw : ∀ p, gone p → gone' p) : Ends gone' w₁ w₂ :=
  { h with gone := fun i p hi hp => (h.gone i p hi hp).imp id (hw p) }

/-- Closing a descriptor opens none and leaves the others. -/
theorem socketAt_of_close {k : TcpKernel} {fd fd' : ℤ} {s : TcpSocket}
    (hs : (k.close fd).socketAt fd' = some s) : k.socketAt fd' = some s ∧ fd' ≠ fd := by
  rw [TcpKernel.socketAt_close] at hs
  by_cases hne : fd' = fd
  · subst hne
    rw [Function.update_self] at hs
    cases hs
  · rw [Function.update_of_ne hne] at hs
    exact ⟨hs, hne⟩

/-- What ending the probe of a slot does to the table: this entry becomes inactive. -/
theorem retire_getElem? {st : TcpState} (hi : st.probeTable[i]? = some p) (j : ℕ) :
    (retire i st).probeTable[j]? =
      if i = j then some { p with active := false } else st.probeTable[j]? := by
  rw [retire, probeAt_of_getElem? hi]
  split
  · rename_i hij
    subst hij
    exact List.getElem?_set_self (List.getElem?_eq_some_iff.mp hi).1
  · rename_i hij
    exact List.getElem?_set_ne hij

/-- Ending the probe of a slot ends this probe only, and closes its socket. -/
theorem ends_retire (hi : w.st.probeTable[i]? = some p) :
    Ends (· = p) w { closeSock p.sock w with st := retire i w.st } where
  kept j q hj hq := by
    replace hj : (retire i w.st).probeTable[j]? = some q := hj
    rw [retire_getElem? hi] at hj
    split at hj
    · cases hj
      cases hq
    · exact hj
  gone j q hj hq := by
    show (retire i w.st).probeTable[j]? = some q ∨ q = p
    rw [retire_getElem? hi]
    split
    · rename_i hij
      subst hij
      exact .inr (Option.some.inj (hj.symm.trans hi))
    · exact .inl hj
  sockets fd s hs := (socketAt_of_close hs).1
  opened := rfl
  cursor := rfl
  results := rfl
  called := rfl
  trace := ⟨[_], rfl⟩

/-- The loop of the reap ends overdue probes, by induction on the slots. -/
theorem ends_reapSlots (P : TcpScanner) (now : Timespec) (L : List ℕ) (w : TcpWorld) :
    Ends (P.Overdue now) w (L.foldl (P.reapSlot now) w) := by
  refine reap_induction (motive := Ends (P.Overdue now) w) (.refl _ w) ?_ L
  intro v i p hv hi hold
  exact hv.trans ((ends_retire hi).mono fun q hq => hq ▸ hold)

/-- `reap_timed_out_probes` ends overdue probes and no others. -/
theorem ends_reap (P : TcpScanner) (now : Timespec) (w : TcpWorld) :
    Ends (P.Overdue now) w (P.reapTimedOutProbes now w) :=
  P.ends_reapSlots now _ w

/-- `reap_timed_out_probes` ends all overdue probes, as its loop visits every slot. -/
theorem not_overdue_of_reap (hi : (P.reapTimedOutProbes now w).st.probeTable[i]? = some p) :
    ¬ P.Overdue now p := by
  intro hold
  have hbefore := (P.ends_reap now w).kept i p hi hold.1
  have hlt := (List.getElem?_eq_some_iff.mp hbefore).1
  suffices h : ∀ (L : List ℕ) (w : TcpWorld), i ∈ L →
      (L.foldl (P.reapSlot now) w).st.probeTable[i]? ≠ some p from
    h _ w (List.mem_range.mpr hlt) hi
  intro L
  induction L with
  | nil => exact fun _ hmem => absurd hmem List.not_mem_nil
  | cons j L ih =>
    intro w hmem hleft
    rcases List.mem_cons.mp hmem with rfl | hmem
    · -- the rest of the loop only ends probes, so the entry is what the turn for `i` left
      have hturn := (P.ends_reapSlots now L _).kept i p hleft hold.1
      rcases P.reapSlot_cases now w i with ⟨heq, hnot⟩ | ⟨q, hq, -, heq⟩
      · rw [heq] at hturn
        exact hnot p hturn hold
      · rw [heq] at hturn
        replace hturn : (retire i w.st).probeTable[i]? = some p := hturn
        rw [retire_getElem? hq, if_pos rfl] at hturn
        cases hturn
        cases hold.1
    · exact ih _ hmem hleft

/-- The destructor closes sockets and changes neither table nor results. -/
theorem ends_destroy (w : TcpWorld) : Ends (fun _ => False) w (destroy w) := by
  refine List.foldlRecOn (motive := Ends (fun _ => False) w) _ _ (.refl _ w) fun v hv p _ => ?_
  unfold destroySlot
  split
  · refine hv.trans ⟨fun _ _ hi _ => hi, fun _ _ hi _ => .inl hi, ?_, rfl, rfl, rfl, rfl, [_], rfl⟩
    exact fun fd s hs => (socketAt_of_close hs).1
  · exact hv

/-- Reaping takes no time on the model's clock, so all probes are judged by the same moment. -/
theorem clock_reap (now : Timespec) (w : TcpWorld) :
    (P.reapTimedOutProbes now w).kernel.clock = w.kernel.clock :=
  reap_induction (motive := fun v => v.kernel.clock = w.kernel.clock) rfl
    (fun _ _ _ hv _ _ => hv) _

/-- Nor does the destructor take time. -/
theorem clock_destroy (w : TcpWorld) : (destroy w).kernel.clock = w.kernel.clock := by
  refine List.foldlRecOn (motive := fun v : TcpWorld => v.kernel.clock = w.kernel.clock) _ _ rfl ?_
  intro v hv p _
  unfold destroySlot
  split <;> exact hv

/-- Only a tick moves the clock, as time passes in steps of its own. -/
theorem clock_step_eq {l : TcpLabel} {w' : TcpWorld} (hstep : TcpStep P w l w')
    (hl : ∀ now, l ≠ .tick now) : w'.kernel.clock = w.kernel.clock := by
  have hupdate : ∀ fd f, (w.kernel.update fd f).clock = w.kernel.clock := by
    intro fd f
    unfold TcpKernel.update
    split <;> rfl
  cases hstep with
  | tick now => exact absurd rfl (hl now)
  | complete | reset | connected | inProgress | register => exact hupdate _ _
  | reap => exact clock_reap _ _
  | destroy => exact clock_destroy w
  | _ => rfl

/-! ### What a step logs -/

/-- The events that a step from `w` with label `l` can log. -/
def Logs (w : TcpWorld) (l : TcpLabel) : TcpEvent → Prop
  | .skipped _ => l = .run
  | .socketFailed _ => l = .socket none
  | .fcntlFailed _ => l = .fcntl false
  | .connect _ _ => ∃ r, l = .connect r
  | .registered _ _ _ => l = .epollAdd true
  | .completed id _ _ => ∃ fd s, w.kernel.socketAt fd = some s ∧ s.id = id
  | .reported _ => ∃ evs, l = .epollWait (.events evs)
  | .handled _ _ _ _ => ∃ getsockopt dns throws, l = .event getsockopt dns throws
  | .closed _ => True

/-- Every step extends the trace by events that it can log, and removes none. -/
theorem trace_step {l : TcpLabel} {w' : TcpWorld} (hstep : TcpStep P w l w') :
    ∃ u, w'.trace = w.trace ++ u ∧ ∀ e ∈ u, Logs w l e := by
  -- `close` calls may be logged by any step
  have hclosed : ∀ ids : List (Option ℕ), ∀ e ∈ ids.map TcpEvent.closed, Logs w l e := by
    intro ids e he
    obtain ⟨id, -, rfl⟩ := List.mem_map.mp he
    trivial
  cases hstep with
  | tick | reset | enter | leave | noSlot | closedGate | socketOk | fcntlOk | pollThrew
  | pollTimeout | pollFailed | stale | eventsDone => exact ⟨[], (List.append_nil _).symm, nofun⟩
  | complete hs => exact ⟨_, rfl, by simpa [Logs] using ⟨_, _, hs, rfl⟩⟩
  | connected _ hs => exact ⟨_, rfl, by simpa [Logs] using ⟨_, _, hs, rfl⟩⟩
  | skip | socketFail | inProgress | register | registerFail | success | failure =>
    exact ⟨_, rfl, by simp [Logs]⟩
  | fcntlFail | connectFail => exact ⟨_, List.append_assoc _ _ _, by simp [Logs]⟩
  | pollEvents =>
    refine ⟨_, rfl, fun e he => ?_⟩
    obtain ⟨ev, -, rfl⟩ := List.mem_map.mp he
    exact ⟨_, rfl⟩
  | reap =>
    obtain ⟨ids, ht⟩ := (P.ends_reap w.kernel.clock w).trace
    exact ⟨_, ht, hclosed ids⟩
  | destroy =>
    obtain ⟨ids, ht⟩ := (ends_destroy w).trace
    exact ⟨_, ht, hclosed ids⟩

end TcpScanner

end Netscan
