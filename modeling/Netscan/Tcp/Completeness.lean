import Netscan.Tcp.Reports

/-! # When a TCP run finds all hosts that connected in time

`reap_timed_out_probes` looks at the clock only, not at the sockets. A probe whose socket has
connected within the timeout is lost if the reap comes before its event has been fetched: names are
resolved and callbacks made between one `epoll_wait` call and the next reap. `Settled` follows every
registered probe to its end; `GivenUp` says that a host whose probe has ended without a result is
never probed again. -/

namespace Netscan

open MachineInt SlotTable LabelledSystem Descriptors

/-- `run()` goes on or has returned, so the results are those that it hands back. -/
def TcpPc.isAlive : TcpPc → Bool
  | .thrown | .destroyed => false
  | _ => true

namespace TcpScanner

variable {P : TcpScanner} {s₀ : TcpState} {clock : Timespec} {w w' : TcpWorld} {l : TcpLabel}
  {i id ip : ℕ} {ts : Timespec} {p : TcpProbeInfo}

/-! ### Connections in time, and how they are missed -/

/-- Socket `id` was registered for `ip`, and its connection succeeded no later than the timeout
after the recorded send time. -/
def InTime (P : TcpScanner) (t : List TcpEvent) (ip id : ℕ) : Prop :=
  ∃ ts time, .registered ip id ts ∈ t ∧ .completed id 0 time ∈ t ∧ time.elapsedNs ts ≤ P.timeoutNs

/-- Every host that connected in time is in the results, whatever else the network did. -/
def Complete (P : TcpScanner) (w : TcpWorld) : Prop :=
  ∀ ip id, P.InTime w.trace ip id → ip ∈ w.st.scanResults.map (·.ip)

/-- The socket of a probe has connected within the timeout, by the clock at the end of the
attempt. -/
def ConnectedInTime (P : TcpScanner) (w : TcpWorld) (p : TcpProbeInfo) : Prop :=
  ∃ s time, w.kernel.socketAt p.sock = some s ∧ s.status = .done 0 time ∧
    time.elapsedNs p.sendTime ≤ P.timeoutNs

/-- A step meets a probe whose socket has connected within the timeout and does not find its host:
the reap is made when the probe is overdue, or `sock_err` is not `0` when the event of the socket is
handled, as `getsockopt` fails on it or the connection has broken since it succeeded. -/
def MissesProbe (P : TcpScanner) (w : TcpWorld) (l : TcpLabel) : Prop :=
  ∃ (i : ℕ) (p : TcpProbeInfo), w.st.probeTable[i]? = some p ∧ p.active = true ∧
    P.ConnectedInTime w p ∧
    (l = .run ∧ w.pc = .reap ∧ P.Overdue w.kernel.clock p ∨
      ∃ ev evs getsockopt dns throws sockErr, l = .event getsockopt dns throws ∧
        w.pc = .handle (ev :: evs) ∧ ev.data = i ∧
        readSockErr getsockopt (w.kernel.socketAt p.sock) = some sockErr ∧ sockErr ≠ 0)

/-! ### The life of a probe -/

/-- Only the ends of `run()` are not alive, and no step leads back from them. -/
theorem alive_step (hstep : TcpStep P w l w') (halive : w'.pc.isAlive = true) :
    w.pc.isAlive = true := by
  cases hstep with
  | tick | complete | reset => exact halive
  | destroy => cases halive
  | _ => simp_all [TcpPc.isAlive]

/-- A descriptor that stays open stays the same socket: a new one is opened where none was open. -/
theorem id_step (hstep : TcpStep P w l w') {fd : ℤ} {s s' : TcpSocket}
    (hs : w.kernel.socketAt fd = some s) (hs' : w'.kernel.socketAt fd = some s') :
    s'.id = s.id := by
  have hsame : w.kernel.socketAt fd = some s' → s'.id = s.id := by
    intro h
    rw [hs] at h
    cases h
    rfl
  -- calls on a socket keep its number
  have hupdate : ∀ (fd' : ℤ) (so : TcpSocket) (f : TcpSocket → TcpSocket),
      w.kernel.socketAt fd' = some so → (f so).id = so.id →
      (w.kernel.update fd' f).socketAt fd = some s' → s'.id = s.id := by
    intro fd' so f hso hid h
    rw [TcpKernel.socketAt_update hso] at h
    by_cases hne : fd = fd'
    · subst hne
      rw [Function.update_self] at h
      rw [hs] at hso
      cases hso
      cases h
      exact hid
    · rw [Function.update_of_ne hne] at h
      exact hsame h
  cases hstep with
  | complete hso => exact hupdate _ _ (.finish _ _) hso rfl hs'
  | @reset fd' err so hso => exact hupdate fd' so (.breakOff err) hso rfl hs'
  | connected _ hso | inProgress _ hso => exact hupdate _ _ (.connect _ _) hso rfl hs'
  | @register n ip slot fd' so hpc hso =>
    exact hupdate _ _ (.register (some (u32 slot.toNat))) hso rfl hs'
  | @socketOk n fd' hpc hgo hlocal hslot hfd hfree =>
    dsimp only at hs'
    rw [TcpKernel.socketAt_openSocket] at hs'
    have hne : fd ≠ fd' := by
      rintro rfl
      rw [hfree] at hs
      cases hs
    rw [Function.update_of_ne hne] at hs'
    exact hsame hs'
  | fcntlFail | connectFail | registerFail | success | failure =>
    exact hsame (socketAt_of_close hs').1
  | reap => exact hsame ((P.ends_reap w.kernel.clock w).sockets fd s' hs')
  | destroy => exact hsame ((ends_destroy w).sockets fd s' hs')
  | _ => exact hsame hs'

/-- Every active probe was registered with the send time of its entry. -/
def Recorded (w : TcpWorld) : Prop :=
  ∀ (i : ℕ) (p : TcpProbeInfo), w.st.probeTable[i]? = some p → p.active = true →
    ∃ s, w.kernel.socketAt p.sock = some s ∧ .registered p.destIp s.id p.sendTime ∈ w.trace

/-- The probe is in the table, with the host, the socket and the send time that were registered. -/
def Probing (w : TcpWorld) (ip id : ℕ) (ts : Timespec) : Prop :=
  ∃ (i : ℕ) (p : TcpProbeInfo) (s : TcpSocket), w.st.probeTable[i]? = some p ∧ p.active = true ∧
    w.kernel.socketAt p.sock = some s ∧ p.destIp = ip ∧ s.id = id ∧ p.sendTime = ts

/-- The socket is closed, and its connection did not succeed within the timeout. -/
structure Late (P : TcpScanner) (w : TcpWorld) (id : ℕ) (ts : Timespec) : Prop where
  /-- The socket is closed. -/
  closed : some id ∈ closes w.trace
  /-- A success came too late. -/
  late : ∀ time, .completed id 0 time ∈ w.trace → P.timeoutNs < time.elapsedNs ts

/-- Every registered probe is in the table, or its host is in the results, or it is late. -/
def Settled (P : TcpScanner) (w : TcpWorld) : Prop :=
  ∀ ip id ts, .registered ip id ts ∈ w.trace →
    Probing w ip id ts ∨ ip ∈ w.st.scanResults.map (·.ip) ∨ P.Late w id ts

/-- Late probes stay late: the attempt of a closed socket cannot end any more. -/
theorem Late.step (hown : P.OwnInv w) (h : P.Late w id ts) (hstep : TcpStep P w l w') :
    P.Late w' id ts := by
  obtain ⟨u, htrace, hu⟩ := trace_step hstep
  constructor
  · rw [htrace, closes, List.filterMap_append]
    exact List.mem_append_left _ h.closed
  · intro time hmem
    rw [htrace] at hmem
    rcases List.mem_append.mp hmem with hold | hnew
    · exact h.late time hold
    · obtain ⟨fd, s, hs, rfl⟩ := hu _ hnew
      exact absurd h.closed (hown.accounts.not_closed hs)

/-- A report adds its result to the results or leaves them, if the callback throws. -/
theorem report_results (P : TcpScanner) (throws : Bool) (r : TcpHostResult) (s : TcpState) :
    (P.report throws r s).1.scanResults = s.scanResults ∨
      (P.report throws r s).1.scanResults = s.scanResults ++ [r] := by
  simp only [report]
  split_ifs <;> simp

/-- Unless the callback throws, the host of a report is in the results afterwards. -/
theorem found_of_report {throws : Bool} {r : TcpHostResult} {s : TcpState}
    (h : (P.report throws r s).2 = false) :
    r.ip ∈ (P.report throws r s).1.scanResults.map (·.ip) := by
  unfold report at h ⊢
  dsimp only at h ⊢
  generalize (if P.resultCallback then { s with called := s.called ++ [r] } else s) = t at h ⊢
  split at h
  · cases h
  · rename_i hthrow
    rw [if_neg hthrow]
    split
    · rename_i hany
      obtain ⟨r', hr', heq⟩ := List.any_eq_true.mp hany
      exact List.mem_map.mpr ⟨r', hr', beq_iff_eq.mp heq⟩
    · exact List.mem_map.mpr ⟨r, List.mem_append_right _ List.mem_cons_self, rfl⟩

/-- Results stay: `run()` only adds to them. -/
theorem results_step (hstep : TcpStep P w l w') {r : TcpHostResult} (hr : r ∈ w.st.scanResults) :
    r ∈ w'.st.scanResults := by
  cases hstep with
  | @success ev evs dns throws p so hpc hi hp hso herr s threw hout =>
    have hresults := P.report_results throws (P.probeResult w.kernel.clock dns p)
      (retire ev.data w.st)
    rw [hout] at hresults
    rcases hresults with hsame | hmore
    · exact hsame ▸ hr
    · exact hmore ▸ List.mem_append_left _ hr
  | reap =>
    show r ∈ (P.reapTimedOutProbes w.kernel.clock w).st.scanResults
    rw [(P.ends_reap w.kernel.clock w).results]
    exact hr
  | destroy =>
    show r ∈ (destroy w).st.scanResults
    rw [destroy_st]
    exact hr
  | _ => exact hr

/-- An entry that is active after a step was active before, unless the step claims its slot. -/
theorem active_before (hstep : TcpStep P w l w') (hl : l ≠ .epollAdd true)
    (hi : w'.st.probeTable[i]? = some p) (hp : p.active = true) :
    w.st.probeTable[i]? = some p := by
  cases hstep with
  | register => exact absurd rfl hl
  | @success ev evs dns throws q so hpc hi' hp' hso herr s threw hout =>
    have hframe := P.report_frame throws (P.probeResult w.kernel.clock dns q) (retire ev.data w.st)
    rw [hout] at hframe
    have htable : s.probeTable = (retire ev.data w.st).probeTable := hframe.1
    exact (ends_retire hi').kept i p (htable ▸ hi) hp
  | failure _ hi' => exact (ends_retire hi').kept i p hi hp
  | reap => exact (P.ends_reap w.kernel.clock w).kept i p hi hp
  | destroy => exact (ends_destroy w).kept i p hi hp
  | _ => exact hi

/-- Every step keeps the active probes recorded: entries are made by the step that records them. -/
theorem Recorded.step (hown : P.OwnInv w) (hown' : P.OwnInv w') (h : Recorded w)
    (hstep : TcpStep P w l w') (halive : w'.pc.isAlive = true) : Recorded w' := by
  intro i p hi hp
  obtain ⟨u, htrace, -⟩ := trace_step hstep
  -- an entry that was active before keeps its socket and its record
  have hold : w.st.probeTable[i]? = some p →
      ∃ s, w'.kernel.socketAt p.sock = some s ∧
        .registered p.destIp s.id p.sendTime ∈ w'.trace := by
    intro hbefore
    obtain ⟨s, hs, hrecord⟩ := h i p hbefore hp
    obtain ⟨s', hs', -⟩ := (hown'.owned (by rintro hd; simp [hd, TcpPc.isAlive] at halive))
      |>.socket_of_active hi hp
    refine ⟨s', hs', ?_⟩
    rw [htrace, id_step hstep hs hs']
    exact List.mem_append_left _ hrecord
  by_cases hl : l = .epollAdd true
  · subst hl
    cases hstep with
    | @register n ip slot fd s hpc hs =>
      obtain ⟨⟨j, q, rfl, hj, hq⟩, -⟩ := hown.single _ _ _ _ _ hpc
      have hbound := (List.getElem?_eq_some_iff.mp hj).1
      replace hi : (w.st.probeTable.set j _)[i]? = some p := hi
      by_cases hij : j = i
      · subst hij
        rw [List.getElem?_set_self hbound] at hi
        cases hi
        refine ⟨s.register (some (u32 (j : ℤ).toNat)), ?_,
          List.mem_append_right _ List.mem_cons_self⟩
        dsimp only
        rw [TcpKernel.socketAt_update hs, Function.update_self]
      · rw [List.getElem?_set_ne hij] at hi
        exact hold hi
  · exact hold (active_before hstep hl hi hp)

/-- The reap closes the socket of every overdue probe, and no turn of its loop opens one. -/
theorem closed_of_reap (hP : P.Ranged) {now : Timespec} (hown : P.Owned none w)
    (hi : w.st.probeTable[i]? = some p) (hold : P.Overdue now p) {s : TcpSocket}
    (hs : w.kernel.socketAt p.sock = some s) :
    some s.id ∈ closes (P.reapTimedOutProbes now w).trace := by
  have hlife : P.Owned none (P.reapTimedOutProbes now w) ∧
      ((P.reapTimedOutProbes now w).st.probeTable[i]? = some p ∧
        (P.reapTimedOutProbes now w).kernel.socketAt p.sock = some s ∨
      some s.id ∈ closes (P.reapTimedOutProbes now w).trace) := by
    refine reap_induction (motive := fun v => P.Owned none v ∧
      (v.st.probeTable[i]? = some p ∧ v.kernel.socketAt p.sock = some s ∨
        some s.id ∈ closes v.trace)) ⟨hown, .inl ⟨hi, hs⟩⟩ ?_ _
    rintro v j q ⟨hv, hlife⟩ hj hq
    refine ⟨hv.retire hP hj hq.1, ?_⟩
    obtain ⟨so, hso, hslot, -⟩ := hv.socket_of_active hj hq.1
    have hclosed : closes (closeSock q.sock v).trace = closes v.trace ++ [some so.id] :=
      closes_closeSock hso
    rcases hlife with ⟨hvi, hvs⟩ | hdone
    · by_cases hij : j = i
      · -- the turn for this probe
        subst hij
        rw [hvi] at hj
        cases hj
        rw [hvs] at hso
        cases hso
        right
        show some s.id ∈ closes (closeSock p.sock v).trace
        rw [hclosed]
        exact List.mem_append_right _ List.mem_cons_self
      · left
        obtain ⟨s', hs', hslot', -⟩ := hv.socket_of_active hvi hold.1
        have hne : p.sock ≠ q.sock := by
          intro hsock
          rw [hsock, hso] at hs'
          cases hs'
          rw [hslot] at hslot'
          exact hij (Option.some.inj hslot')
        constructor
        · show (retire j v.st).probeTable[i]? = some p
          rw [retire_getElem? hj, if_neg hij]
          exact hvi
        · show (v.kernel.close q.sock).socketAt p.sock = some s
          rw [TcpKernel.socketAt_close, Function.update_of_ne hne]
          exact hvs
    · right
      show some s.id ∈ closes (closeSock q.sock v).trace
      rw [hclosed]
      exact List.mem_append_left _ hdone
  rcases hlife.2 with ⟨hleft, -⟩ | hclosed
  · exact absurd hold (not_overdue_of_reap hleft)
  · exact hclosed

/-- A step that misses no probe keeps a probe in the table, finds its host or finds it late. -/
theorem Probing.step (hP : P.Ranged) (hown : P.OwnInv w) (hown' : P.OwnInv w') (hlogged : Logged w)
    (hclean : ¬ P.MissesProbe w l) (h : Probing w ip id ts) (hstep : TcpStep P w l w')
    (halive : w'.pc.isAlive = true) :
    Probing w' ip id ts ∨ ip ∈ w'.st.scanResults.map (·.ip) ∨ P.Late w' id ts := by
  obtain ⟨i, p, s, hi, hp, hs, rfl, rfl, rfl⟩ := h
  -- an entry that stays keeps its socket
  have hstay : w'.st.probeTable[i]? = some p → Probing w' p.destIp s.id p.sendTime := by
    intro hi'
    obtain ⟨s', hs', -⟩ := (hown'.owned (by rintro hd; simp [hd, TcpPc.isAlive] at halive))
      |>.socket_of_active hi' hp
    exact ⟨i, p, s', hi', hp, hs', rfl, id_step hstep hs hs', rfl⟩
  -- a success that is not in time is late
  have hlate : ¬ P.ConnectedInTime w p → ∀ time, .completed s.id 0 time ∈ w.trace →
      P.timeoutNs < time.elapsedNs p.sendTime := by
    intro hnot time hmem
    by_contra hle
    exact hnot ⟨s, time, hs, (hlogged.completed _ s _ _ hs).mpr hmem, not_lt.mp hle⟩
  cases hstep with
  | @register n ip slot fd so hpc hso =>
    obtain ⟨⟨j, q, rfl, hj, hq⟩, -⟩ := hown.single _ _ _ _ _ hpc
    have hij : (j : ℤ).toNat ≠ i := by
      rintro rfl
      rw [Int.toNat_natCast, hj] at hi
      cases hi
      rw [hp] at hq
      cases hq
    exact .inl (hstay ((List.getElem?_set_ne hij).trans hi))
  | @success ev evs dns throws q so hpc hi' hp' hso herr st threw hout =>
    have hframe := P.report_frame throws (P.probeResult w.kernel.clock dns q) (retire ev.data w.st)
    rw [hout] at hframe
    by_cases hij : ev.data = i
    · -- the event of this probe: its host is found
      subst hij
      rw [hi] at hi'
      cases hi'
      cases threw with
      | true => cases halive
      | false =>
        right; left
        have hfound : (P.probeResult w.kernel.clock dns p).ip ∈
            (P.report throws (P.probeResult w.kernel.clock dns p)
              (retire ev.data w.st)).1.scanResults.map (·.ip) :=
          found_of_report (by rw [hout])
        rw [hout] at hfound
        exact hfound
    · refine .inl (hstay ?_)
      show st.probeTable[i]? = some p
      rw [hframe.1, retire_getElem? hi', if_neg hij]
      exact hi
  | @failure ev evs getsockopt dns throws q sockErr hpc hi' hp' herr hne =>
    by_cases hij : ev.data = i
    · -- the event of this probe, with an error: the socket has not connected in time
      subst hij
      rw [hi] at hi'
      cases hi'
      right; right
      have hnot : ¬ P.ConnectedInTime w p := fun hin => hclean ⟨_, p, hi, hp, hin,
        .inr ⟨ev, evs, getsockopt, dns, throws, sockErr, rfl, hpc, rfl, herr, hne⟩⟩
      constructor
      · rw [closes, List.filterMap_append, hs]
        exact List.mem_append_right _ List.mem_cons_self
      · intro time hmem
        refine hlate hnot time ?_
        simpa using hmem
    · refine .inl (hstay ?_)
      show (retire ev.data w.st).probeTable[i]? = some p
      rw [retire_getElem? hi', if_neg hij]
      exact hi
  | reap hpc =>
    have hends := P.ends_reap w.kernel.clock w
    have howned := hown.owned (by simp [hpc])
    rw [hpc] at howned
    rcases hends.gone i p hi hp with hkept | hold
    · exact .inl (hstay hkept)
    · right; right
      have hnot : ¬ P.ConnectedInTime w p := fun hin =>
        hclean ⟨i, p, hi, hp, hin, .inl ⟨rfl, hpc, hold⟩⟩
      refine ⟨closed_of_reap hP howned hi hold hs, fun time hmem => hlate hnot time ?_⟩
      obtain ⟨ids, ht⟩ := hends.trace
      replace hmem : .completed s.id 0 time ∈ (P.reapTimedOutProbes w.kernel.clock w).trace := hmem
      rw [ht] at hmem
      simpa using hmem
  | destroy => cases halive
  | _ => exact .inl (hstay hi)

/-- Steps that miss no probe keep the probes settled: what leaves the table is found, failed or
late. -/
theorem Settled.step (hP : P.Ranged) (hown : P.OwnInv w) (hown' : P.OwnInv w') (hlogged : Logged w)
    (hclean : ¬ P.MissesProbe w l) (h : P.Settled w) (hstep : TcpStep P w l w')
    (halive : w'.pc.isAlive = true) : P.Settled w' := by
  intro ip id ts hmem
  obtain ⟨u, htrace, hu⟩ := trace_step hstep
  rw [htrace] at hmem
  rcases List.mem_append.mp hmem with hbefore | hnew
  · rcases h ip id ts hbefore with hprobing | hfound | hlate
    · exact hprobing.step hP hown hown' hlogged hclean hstep halive
    · obtain ⟨r, hr, rfl⟩ := List.mem_map.mp hfound
      exact .inr (.inl (List.mem_map_of_mem (results_step hstep hr)))
    · exact .inr (.inr (hlate.step hown hstep))
  · -- a socket that is registered now has its probe in the table
    have hl : l = .epollAdd true := hu _ hnew
    subst hl
    cases hstep with
    | @register n ip' slot fd s hpc hs =>
      obtain ⟨⟨j, q, rfl, hj, hq⟩, -⟩ := hown.single _ _ _ _ _ hpc
      have hbound := (List.getElem?_eq_some_iff.mp hj).1
      have hlast := List.append_cancel_left htrace
      rw [← hlast] at hnew
      obtain ⟨rfl, rfl, rfl⟩ : ip = ip' ∧ id = s.id ∧ ts = w.kernel.clock := by simpa using hnew
      refine .inl ⟨j, _, s.register (some (u32 (j : ℤ).toNat)), List.getElem?_set_self hbound, rfl,
        ?_, rfl, rfl, rfl⟩
      dsimp only
      rw [TcpKernel.socketAt_update hs, Function.update_self]

/-! ### Hosts given up -/

/-- The host is behind the cursor, and neither in the results nor probed. -/
structure GivenUp (P : TcpScanner) (w : TcpWorld) (ip : ℕ) : Prop where
  /-- The cursor has passed it. -/
  passed : ip < P.baseIp + hostsTried w
  /-- It is not in the results, and no active probe is for it. -/
  unseen : ip ∉ seenIps w.st

/-- The cursor does not go back, so a host that was tried is not tried again. -/
theorem hostsTried_step (hstep : TcpStep P w l w') : hostsTried w ≤ hostsTried w' := by
  have hbound : hostsTried w ≤ w.st.nextHostIdx := by
    unfold hostsTried
    split <;> omega
  -- outside `initiate_single_connection` the hosts passed are those tried
  have hnext : w'.pc.sock? = none → w.st.nextHostIdx ≤ w'.st.nextHostIdx →
      hostsTried w ≤ hostsTried w' := by
    intro hpc hle
    have hafter : hostsTried w' = w'.st.nextHostIdx := by rw [hostsTried, hpc]
    omega
  cases hstep with
  | tick | complete | reset => exact le_rfl
  | socketOk => exact hbound
  | fcntlOk hpc | connected hpc | inProgress hpc => simp [hostsTried, hpc, TcpPc.sock?]
  | skip | socketFail => exact hnext rfl (Nat.le_succ _)
  | @success ev evs dns throws p so hpc hi hp hso herr s threw hout =>
    have hframe := P.report_frame throws (P.probeResult w.kernel.clock dns p) (retire ev.data w.st)
    rw [hout] at hframe
    refine hnext ?_ hframe.2.2.ge
    cases threw <;> rfl
  | reap => exact hnext rfl (P.ends_reap w.kernel.clock w).cursor.ge
  | destroy => exact hnext rfl (ends_destroy w).cursor.ge
  | _ => exact hnext rfl le_rfl

/-- Ending a probe takes its host from the hosts seen, unless it is in the results. -/
theorem perm_seenIps_retire {s : TcpState} (hi : s.probeTable[i]? = some p)
    (hp : p.active = true) : (seenIps s).Perm (p.destIp :: seenIps (retire i s)) :=
  ((perm_retire hi hp).append_left _).trans List.perm_middle

/-- A step sees no host but the one that `initiate_single_connection` works on. The others were seen
before. -/
theorem seenIps_step (hown : P.OwnInv w) (hhosts : P.HostInv w) (hstep : TcpStep P w l w')
    (hip : ip ∈ seenIps w'.st) : ip ∈ seenIps w.st ∨ ip = P.baseIp + hostsTried w := by
  cases hstep with
  | @register n ip' slot fd s hpc hs =>
    -- the registration brings the host that the cursor has just taken
    obtain ⟨-, rfl, -⟩ := hhosts.single _ _ _ _ _ hpc
    obtain ⟨⟨j, q, rfl, hj, hq⟩, -⟩ := hown.single _ _ _ _ _ hpc
    have hclaim : (keys TcpProbeInfo.dest? (claimSlot j fd (P.baseIp + hostsTried w)
        w.kernel.clock w.st).probeTable).Perm
          ((P.baseIp + hostsTried w) :: keys TcpProbeInfo.dest? w.st.probeTable) :=
      keys_claim hj (TcpProbeInfo.dest?_eq_none.mpr hq) rfl
    rcases List.mem_append.mp hip with hfound | hkey
    · exact .inl (List.mem_append_left _ hfound)
    · rcases List.mem_cons.mp (hclaim.subset hkey) with rfl | hkey
      · exact .inr rfl
      · exact .inl (List.mem_append_right _ hkey)
  | @success ev evs dns throws p so hpc hi hp hso herr s threw hout =>
    left
    -- a success moves its host from the active probes to the results
    have hframe := P.report_frame throws (P.probeResult w.kernel.clock dns p) (retire ev.data w.st)
    have hresults := P.report_results throws (P.probeResult w.kernel.clock dns p)
      (retire ev.data w.st)
    rw [hout] at hframe hresults
    apply (perm_seenIps_retire hi hp).symm.subset
    rw [seenIps, hframe.1] at hip
    rcases List.mem_append.mp hip with hfound | hkey
    · rcases hresults with hsame | hmore
      · rw [hsame] at hfound
        exact List.mem_cons_of_mem _ (List.mem_append_left _ hfound)
      · rw [hmore, List.map_append] at hfound
        rcases List.mem_append.mp hfound with hfound | hnew
        · exact List.mem_cons_of_mem _ (List.mem_append_left _ hfound)
        · obtain rfl := List.mem_singleton.mp hnew
          exact List.mem_cons_self
    · exact List.mem_cons_of_mem _ (List.mem_append_right _ hkey)
  | failure _ hi hp =>
    exact .inl ((perm_seenIps_retire hi hp).symm.subset (List.mem_cons_of_mem _ hip))
  | reap =>
    left
    -- the reap only ends probes
    revert hip
    refine reap_induction (motive := fun v => ip ∈ seenIps v.st → ip ∈ seenIps w.st) id ?_ _
    intro v i p hv hi hold hip
    exact hv ((perm_seenIps_retire hi hold.1).symm.subset (List.mem_cons_of_mem _ hip))
  | destroy =>
    left
    have hst := destroy_st w
    exact hst ▸ hip
  | _ => exact .inl hip

/-- A host given up stays so: the cursor is behind it, and nothing else brings a host in. -/
theorem GivenUp.step (hown : P.OwnInv w) (hhosts : P.HostInv w) (h : P.GivenUp w ip)
    (hstep : TcpStep P w l w') : P.GivenUp w' ip := by
  have hpassed := h.passed
  have hle := hostsTried_step hstep
  refine ⟨by omega, fun hip => ?_⟩
  rcases seenIps_step hown hhosts hstep hip with hseen | rfl
  · exact h.unseen hseen
  · omega

/-- A step that misses a probe gives its host up: the probe ends, and nothing is reported for it. -/
theorem givenUp_of_misses (hhosts : P.HostInv w) (hrecorded : Recorded w)
    (hlogged : Logged w) (hmiss : P.MissesProbe w l) (hstep : TcpStep P w l w') :
    ∃ ip id, P.InTime w.trace ip id ∧ P.GivenUp w' ip := by
  obtain ⟨i, p, hi, hp, ⟨s, time, hs, hstatus, hin⟩, hends⟩ := hmiss
  obtain ⟨s', hs', hrecord⟩ := hrecorded i p hi hp
  rw [hs] at hs'
  cases hs'
  have hcompleted := (hlogged.completed _ s _ _ hs).mp hstatus
  refine ⟨p.destIp, s.id, ⟨_, time, hrecord, hcompleted, hin⟩, ?_, ?_⟩
  · have hkey : p.destIp ∈ keys TcpProbeInfo.dest? w.st.probeTable :=
      mem_keys.mpr ⟨i, p, hi, TcpProbeInfo.dest?_eq_some.mpr ⟨hp, rfl⟩⟩
    have hpassed := (hhosts.seen.range _ (List.mem_append_right _ hkey)).2
    have hle := hostsTried_step hstep
    omega
  · have hnodup := (perm_seenIps_retire hi hp).nodup_iff.mp hhosts.seen.nodup
    rcases hends with ⟨rfl, hpc, hold⟩ |
      ⟨ev, evs, getsockopt, dns, throws, sockErr, rfl, hpc, rfl, herr, hne⟩
    · cases hstep with
      | reap =>
        -- no entry is left for the host: the table held one, and it was overdue
        have hframe := P.ends_reap w.kernel.clock w
        intro hip
        replace hip : p.destIp ∈ seenIps (P.reapTimedOutProbes w.kernel.clock w).st := hip
        rw [seenIps, hframe.results] at hip
        rcases List.mem_append.mp hip with hfound | hkey
        · exact hhosts.seen.not_mem_results hi hp hfound
        · obtain ⟨j, q, hj, hq⟩ := mem_keys.mp hkey
          obtain ⟨hactive, hdest⟩ := TcpProbeInfo.dest?_eq_some.mp hq
          have hbefore := hframe.kept j q hj hactive
          have hsame : j = i := eq_of_nodup_keys (List.nodup_append.mp hhosts.seen.nodup).2.1
            hbefore hq hi (TcpProbeInfo.dest?_eq_some.mpr ⟨hp, rfl⟩)
          subst hsame
          rw [hi] at hbefore
          cases hbefore
          exact not_overdue_of_reap hj hold
      | _ => simp_all
    · cases hstep with
      | @success ev' evs' _ _ q so hpc' hi' hp' hso hzero =>
        -- the value read is the error of the socket, which a success finds to be `0`
        rw [hpc] at hpc'
        cases hpc'
        rw [hi] at hi'
        cases hi'
        rw [readSockErr, hso, Option.map_some, hzero, Option.some_inj] at herr
        exact absurd herr.symm hne
      | @failure ev' evs' _ _ _ q sockErr hpc' hi' hp' herr hne =>
        rw [hpc] at hpc'
        cases hpc'
        exact (List.nodup_cons.mp hnodup).1

/-! ### Runs -/

/-- The active probes of every reachable state are recorded, by induction on the run. -/
theorem recorded_of_reachable (hP : P.Ranged) (hs : P.Idle s₀)
    (hw : Reachable P.step (start s₀ clock) w) (halive : w.pc.isAlive = true) : Recorded w := by
  refine hw.invariant_of_runs (I := fun w => w.pc.isAlive = true → Recorded w) ?_ ?_ halive
  · intro _ i p hi hp
    rw [hs.inactive p (List.mem_of_getElem? hi)] at hp
    cases hp
  · intro u l v hreach h _ hstep hv
    have hown := ownInv_of_reachable hP hs hreach
    have hown' := ownInv_of_reachable hP hs (hreach.tail trivial hstep)
    exact (h (alive_step (step_cases hstep) hv)).step hown hown' (step_cases hstep) hv

/-- The probes of every run that misses none are settled, by induction on the run. -/
theorem settled_of_runs (hP : P.Ranged) (hs : P.Idle s₀)
    (hw : Runs P.step (fun u l => ¬ P.MissesProbe u l) (start s₀ clock) w)
    (halive : w.pc.isAlive = true) : P.Settled w := by
  refine hw.invariant_of_runs (I := fun w => w.pc.isAlive = true → P.Settled w) nofun ?_ halive
  intro u l v hrun h hclean hstep hv
  have hreach := hrun.reachable
  have hown := ownInv_of_reachable hP hs hreach
  have hown' := ownInv_of_reachable hP hs (hreach.tail trivial hstep)
  exact (h (alive_step (step_cases hstep) hv)).step hP hown hown'
    (logged_of_reachable hP hs hreach) hclean (step_cases hstep) hv

/-- A run misses no probe, or it has given up a host that connected in time. -/
theorem missed_of_reachable (hP : P.Ranged) (hs : P.Idle s₀)
    (hw : Reachable P.step (start s₀ clock) w) (halive : w.pc.isAlive = true) :
    Runs P.step (fun u l => ¬ P.MissesProbe u l) (start s₀ clock) w ∨
      ∃ ip id, P.InTime w.trace ip id ∧ P.GivenUp w ip := by
  refine hw.invariant_of_runs (I := fun w => w.pc.isAlive = true →
    Runs P.step (fun u l => ¬ P.MissesProbe u l) (start s₀ clock) w ∨
      ∃ ip id, P.InTime w.trace ip id ∧ P.GivenUp w ip) (fun _ => .inl .refl) ?_ halive
  intro u l v hreach h _ hstep hv
  have hcases := step_cases hstep
  have hown := ownInv_of_reachable hP hs hreach
  have hhosts := hostInv_of_reachable hP hs hreach
  have halive := alive_step hcases hv
  obtain ⟨more, htrace, -⟩ := trace_step hcases
  -- what was in time stays in the trace
  have hmono : ∀ ip id, P.InTime u.trace ip id → P.InTime v.trace ip id := by
    rintro ip id ⟨ts, time, hregistered, hcompleted, hle⟩
    rw [htrace]
    exact ⟨ts, time, List.mem_append_left _ hregistered, List.mem_append_left _ hcompleted, hle⟩
  rcases h halive with hclean | ⟨ip, id, hin, hgiven⟩
  · by_cases hmiss : P.MissesProbe u l
    · obtain ⟨ip, id, hin, hgiven⟩ := givenUp_of_misses hhosts
        (recorded_of_reachable hP hs hreach halive) (logged_of_reachable hP hs hreach) hmiss hcases
      exact .inr ⟨ip, id, hmono ip id hin, hgiven⟩
    · exact .inl (hclean.tail hmiss hstep)
  · exact .inr ⟨ip, id, hmono ip id hin, hgiven.step hown hhosts hcases⟩

/-- **When a TCP run is complete.** In a run that returns, the hosts of all connections in time are
in the results if and only if no step of the run misses a probe. -/
theorem complete_iff_none_missed {input : CString} {config : TcpScannerConfig}
    (hparse : parseCidr input = some (config.baseIp, config.totalHosts)) (routedIp : Option ℕ)
    (ifaddrs : Option (List IfAddrs)) {s₀ : TcpState}
    (hs : (construct config routedIp ifaddrs).Idle s₀) (clock : Timespec) {w : TcpWorld}
    (hw : Reachable (construct config routedIp ifaddrs).step (start s₀ clock) w)
    (hret : w.pc = .returned) :
    (construct config routedIp ifaddrs).Complete w ↔
      Runs (construct config routedIp ifaddrs).step
        (fun u l => ¬ (construct config routedIp ifaddrs).MissesProbe u l) (start s₀ clock) w := by
  have hP := ranged_construct hparse routedIp ifaddrs
  have halive : w.pc.isAlive = true := by rw [hret]; rfl
  constructor
  · intro hcomplete
    rcases missed_of_reachable hP hs hw halive with hclean | ⟨ip, id, hin, hgiven⟩
    · exact hclean
    · exact absurd (List.mem_append_left _ (hcomplete ip id hin)) hgiven.unseen
  · rintro hclean ip id ⟨ts, time, hregistered, hcompleted, hle⟩
    rcases settled_of_runs hP hs hclean halive ip id ts hregistered with hprobing | hfound | hlate
    · -- a run that returns has no probe left
      obtain ⟨i, p, s, hi, hp, -⟩ := hprobing
      have hidle := (idle_of_returned hP hs hw hret).inactive p (List.mem_of_getElem? hi)
      rw [hp] at hidle
      cases hidle
    · exact hfound
    · exact absurd hle (not_le.mpr (hlate.late time hcompleted))

/-- `10.0.0.8/31`: both hosts connect, the second while the name of the first is resolved, and the
reap comes before the timeout. -/
theorem complete_iff_none_missed_pair : ∃ w, w.pc = .returned ∧
    (construct { baseIp := 167772168, totalHosts := 2 } none none).Complete w ∧
    Runs (construct { baseIp := 167772168, totalHosts := 2 } none none).step
      (fun u l => ¬ (construct { baseIp := 167772168, totalHosts := 2 } none none).MissesProbe u l)
      (start (construct { baseIp := 167772168, totalHosts := 2 } none none).initialState {}) w := by
  obtain ⟨w, hw, hp⟩ := exists_reachable_of_exec
    (M := (construct { baseIp := 167772168, totalHosts := 2 } none none).step)
    (s := start (construct { baseIp := 167772168, totalHosts := 2 } none none).initialState {})
    [.run, .socket (some 5), .fcntl true, .connect .inProgress, .epollAdd true, .socket (some 6),
      .fcntl true, .connect .inProgress, .epollAdd true, .run, .complete 5 0,
      .epollWait (.events [⟨0, 0⟩]), .event none none false, .complete 6 0, .run, .run, .run, .run,
      .epollWait (.events [⟨1, 1⟩]), .event none none false, .run, .run, .run]
    (fun w => w.pc == .returned &&
      w.st.scanResults.map (·.ip) == [167772168, 167772169] &&
      w.trace.all fun e => match e with
        | .registered ip _ _ => ip == 167772168 || ip == 167772169
        | _ => true) (by decide)
  simp only [Bool.and_eq_true, beq_iff_eq] at hp
  obtain ⟨⟨hret, hresults⟩, hregistered⟩ := hp
  have hparse : parseCidr [49, 48, 46, 48, 46, 48, 46, 56, 47, 51, 49] = some (167772168, 2) := by
    decide
  have hcomplete : (construct { baseIp := 167772168, totalHosts := 2 } none none).Complete w := by
    rintro ip id ⟨ts, time, hmem, -⟩
    have hip := List.all_eq_true.mp hregistered _ hmem
    rw [hresults]
    simpa using hip
  exact ⟨w, hret, hcomplete, (complete_iff_none_missed hparse none none (idle_initialState _) _ hw
    hret).mp hcomplete⟩

/-- `10.0.0.8/31` with the default sizes and timeout, both hosts connecting at once: the second does
so after the `epoll_wait` call that reports the first. Resolving the name of the first takes a
second, and the reap closes the socket of the second although it connected in time. -/
theorem not_tcp_complete :
    parseCidr [49, 48, 46, 48, 46, 48, 46, 56, 47, 51, 49] = some (167772168, 2) ∧
    ∃ w, Runs (construct { baseIp := 167772168, totalHosts := 2 } none none).step ClockForward
        (start (construct { baseIp := 167772168, totalHosts := 2 } none none).initialState {}) w ∧
      w.pc = .returned ∧
      (construct { baseIp := 167772168, totalHosts := 2 } none none).InTime w.trace 167772169 1 ∧
      ¬ (construct { baseIp := 167772168, totalHosts := 2 } none none).Complete w := by
  refine ⟨by decide, ?_⟩
  obtain ⟨w, hw, hp⟩ := exists_runs_of_execWhen
    (M := (construct { baseIp := 167772168, totalHosts := 2 } none none).step)
    (s := start (construct { baseIp := 167772168, totalHosts := 2 } none none).initialState {})
    ClockForward
    [.run, .socket (some 5), .fcntl true, .connect .inProgress, .epollAdd true, .socket (some 6),
      .fcntl true, .connect .inProgress, .epollAdd true, .run, .complete 5 0,
      .epollWait (.events [⟨0, 0⟩]), .complete 6 0, .event none none false, .tick { tvSec := 1 },
      .run, .run, .run]
    (fun w => w.pc == .returned && w.trace.contains (.registered 167772169 1 {}) &&
      w.trace.contains (.completed 1 0 {}) && w.st.scanResults.map (·.ip) == [167772168])
    (by decide)
  simp only [Bool.and_eq_true, beq_iff_eq, List.contains_iff_mem] at hp
  obtain ⟨⟨⟨hret, hregistered⟩, hcompleted⟩, hresults⟩ := hp
  have hin : (construct { baseIp := 167772168, totalHosts := 2 } none none).InTime
      w.trace 167772169 1 := ⟨{}, {}, hregistered, hcompleted, by decide⟩
  refine ⟨w, hw, hret, hin, fun hcomplete => ?_⟩
  have hmem := hcomplete _ _ hin
  rw [hresults] at hmem
  revert hmem
  decide

end TcpScanner

end Netscan
