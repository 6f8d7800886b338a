import Netscan.Lib.History
import Netscan.Tcp.SlotSafety

/-! # What the trace of a TCP run says about its sockets

The trace records every `connect` call and the end of every connection attempt under the serial
number of the socket. `Logged` says that it is right about the sockets that are open: what a socket
connects to and how its attempt ended is what the trace says under its number. -/

namespace Netscan

open MachineInt SlotTable LabelledSystem Descriptors

/-- The socket that a `connect` call or the end of a connection attempt is about. -/
def TcpEvent.about? : TcpEvent → Option ℕ
  | .connect _ id | .completed id _ _ => some id
  | _ => none

namespace TcpScanner

variable {P : TcpScanner} {s₀ : TcpState} {clock : Timespec} {w w' : TcpWorld} {l : TcpLabel}
  {fd : ℤ} {s : TcpSocket} {u : List TcpEvent}

/-- The trace is right about the open sockets: what was called on them and how their attempts
ended. -/
structure Logged (w : TcpWorld) : Prop where
  /-- The peer of a socket is the address of its `connect` call. -/
  connect : ∀ fd s ip, w.kernel.socketAt fd = some s →
    (s.peer = some ip ↔ .connect ip s.id ∈ w.trace)
  /-- Its attempt has ended as the trace says. -/
  completed : ∀ fd s err time, w.kernel.socketAt fd = some s →
    (s.status = .done err time ↔ .completed s.id err time ∈ w.trace)
  /-- The trace is about sockets that were opened. -/
  issued : ∀ e ∈ w.trace, ∀ id, e.about? = some id → id < w.kernel.opened

/-- Steps that open and change no socket, and log nothing about any. -/
theorem Logged.quiet (h : Logged w)
    (hsockets : ∀ fd s, w'.kernel.socketAt fd = some s → w.kernel.socketAt fd = some s)
    (hopened : w'.kernel.opened = w.kernel.opened) (htrace : w'.trace = w.trace ++ u)
    (hu : ∀ e ∈ u, e.about? = none) : Logged w' := by
  have hmem : ∀ e id, e.about? = some id → (e ∈ w'.trace ↔ e ∈ w.trace) := by
    intro e id he
    rw [htrace, List.mem_append]
    refine or_iff_left fun hnew => ?_
    rw [hu e hnew] at he
    cases he
  refine ⟨fun fd s ip hs => ?_, fun fd s err time hs => ?_, fun e he id hid => ?_⟩
  · rw [hmem _ _ rfl]
    exact h.connect fd s ip (hsockets fd s hs)
  · rw [hmem _ _ rfl]
    exact h.completed fd s err time (hsockets fd s hs)
  · rw [hopened]
    exact h.issued e ((hmem e id hid).mp he) id hid

/-- A step that changes one open socket and logs the change keeps the trace right, as it is about
that socket only. -/
theorem Logged.update (h : Logged w)
    (haccounts : Accounts (·.id) w.kernel.sockets w.kernel.opened (closes w.trace))
    (hs : w.kernel.socketAt fd = some s) {f : TcpSocket → TcpSocket} (hid : (f s).id = s.id)
    (hpeer : ∀ ip, (f s).peer = some ip ↔ s.peer = some ip ∨ .connect ip s.id ∈ u)
    (hstatus : ∀ err time, (f s).status = .done err time ↔
      s.status = .done err time ∨ .completed s.id err time ∈ u)
    (hu : ∀ e ∈ u, ∀ id, e.about? = some id → id = s.id)
    (hsockets : w'.kernel.socketAt = Function.update w.kernel.socketAt fd (some (f s)))
    (hopened : w'.kernel.opened = w.kernel.opened) (htrace : w'.trace = w.trace ++ u) :
    Logged w' := by
  -- nothing is logged about the other sockets, which have other numbers
  have hother : ∀ fd' s' e, fd' ≠ fd → w.kernel.socketAt fd' = some s' →
      e.about? = some s'.id → e ∉ u := by
    intro fd' s' e hne hs' he hmem
    exact hne (haccounts.fd_unique hs' hs (hu e hmem _ he))
  refine ⟨fun fd' s' ip hs' => ?_, fun fd' s' err time hs' => ?_, fun e he id hid' => ?_⟩
  · rw [hsockets] at hs'
    rw [htrace, List.mem_append]
    by_cases hne : fd' = fd
    · subst hne
      rw [Function.update_self] at hs'
      cases hs'
      rw [hpeer, hid, h.connect _ s ip hs]
    · rw [Function.update_of_ne hne] at hs'
      rw [h.connect fd' s' ip hs']
      exact (or_iff_left (hother fd' s' _ hne hs' rfl)).symm
  · rw [hsockets] at hs'
    rw [htrace, List.mem_append]
    by_cases hne : fd' = fd
    · subst hne
      rw [Function.update_self] at hs'
      cases hs'
      rw [hstatus, hid, h.completed _ s err time hs]
    · rw [Function.update_of_ne hne] at hs'
      rw [h.completed fd' s' err time hs']
      exact (or_iff_left (hother fd' s' _ hne hs' rfl)).symm
  · rw [hopened]
    rw [htrace] at he
    rcases List.mem_append.mp he with hold | hnew
    · exact h.issued e hold id hid'
    · rw [hu e hnew id hid']
      exact haccounts.serial_lt hs

/-- Opening a socket: nothing is logged under its number yet, as numbers are given out in order. -/
theorem Logged.openSocket (h : Logged w)
    (hsockets : w'.kernel.socketAt =
      Function.update w.kernel.socketAt fd (some { id := w.kernel.opened }))
    (hopened : w'.kernel.opened = w.kernel.opened + 1) (htrace : w'.trace = w.trace) :
    Logged w' := by
  -- the numbers in the trace are those of earlier sockets
  have hfresh : ∀ e, e.about? = some w.kernel.opened → e ∉ w.trace := by
    intro e he hmem
    have := h.issued e hmem _ he
    omega
  refine ⟨fun fd' s' ip hs' => ?_, fun fd' s' err time hs' => ?_, fun e he id hid => ?_⟩
  · rw [hsockets] at hs'
    rw [htrace]
    by_cases hne : fd' = fd
    · subst hne
      rw [Function.update_self] at hs'
      cases hs'
      exact ⟨nofun, fun hmem => absurd hmem (hfresh _ rfl)⟩
    · rw [Function.update_of_ne hne] at hs'
      exact h.connect fd' s' ip hs'
  · rw [hsockets] at hs'
    rw [htrace]
    by_cases hne : fd' = fd
    · subst hne
      rw [Function.update_self] at hs'
      cases hs'
      exact ⟨nofun, fun hmem => absurd hmem (hfresh _ rfl)⟩
    · rw [Function.update_of_ne hne] at hs'
      exact h.completed fd' s' err time hs'
  · rw [hopened]
    exact Nat.lt_succ_of_lt (h.issued e (htrace ▸ he) id hid)

/-- Ends of probes are quiet: they close sockets and log nothing else. -/
theorem Logged.ends (h : Logged w) {gone : TcpProbeInfo → Prop} (hends : Ends gone w w') :
    Logged w' := by
  obtain ⟨ids, ht⟩ := hends.trace
  refine h.quiet hends.sockets hends.opened ht fun e he => ?_
  obtain ⟨id, -, rfl⟩ := List.mem_map.mp he
  rfl

/-- Every step keeps the trace right, by what it changes of a socket and what it logs. -/
theorem Logged.step (hown : P.OwnInv w) (h : Logged w) (hstep : TcpStep P w l w') : Logged w' := by
  have haccounts := hown.accounts
  -- `connect` is called on the socket held
  have hcalled : ∀ n slot ip fd s, w.pc = .single .nonblocking n slot ip fd →
      w.kernel.socketAt fd = some s → Logged { w with
        kernel := w.kernel.update fd (.connect ip .pending)
        trace := w.trace ++ [.connect ip s.id] } := by
    intro n slot ip fd s hpc hs
    obtain ⟨hpeer, hidle⟩ := (hown.single _ _ _ _ _ hpc).2 s hs
    refine h.update haccounts hs (f := .connect ip .pending) rfl ?_ ?_ ?_
      (TcpKernel.socketAt_update hs _) (by rw [TcpKernel.update_eq hs]) rfl
    · simp [TcpSocket.connect, hpeer, eq_comm]
    · simp [TcpSocket.connect, hidle]
    · simp [TcpEvent.about?]
  cases hstep with
  | tick | enter | leave | noSlot | closedGate | fcntlOk | pollThrew | pollTimeout | pollFailed
  | stale | eventsDone =>
    exact h.quiet (fun _ _ => id) rfl (List.append_nil _).symm nofun
  | skip | socketFail =>
    exact h.quiet (fun _ _ => id) rfl rfl (by simp [TcpEvent.about?])
  | pollEvents =>
    refine h.quiet (fun _ _ => id) rfl rfl fun e he => ?_
    obtain ⟨ev, -, rfl⟩ := List.mem_map.mp he
    rfl
  | @complete fd err s hs hpending =>
    refine h.update haccounts hs (f := .finish err w.kernel.clock) rfl ?_ ?_ ?_
      (TcpKernel.socketAt_update hs _) (by rw [TcpKernel.update_eq hs]) rfl
    · simp [TcpSocket.finish]
    · simp [TcpSocket.finish, hpending, eq_comm]
    · simp [TcpEvent.about?]
  | @reset fd err s hs herr hconn =>
    -- the attempt and its outcome stay what they were
    refine h.update (u := []) haccounts hs (f := .breakOff err) rfl ?_ ?_ nofun
      (TcpKernel.socketAt_update hs _) (by rw [TcpKernel.update_eq hs]) (List.append_nil _).symm
    · simp [TcpSocket.breakOff]
    · simp [TcpSocket.breakOff]
  | socketOk =>
    exact h.openSocket (TcpKernel.socketAt_openSocket _ _) rfl rfl
  | fcntlFail =>
    refine h.quiet (fun fd s hs => (socketAt_of_close hs).1) rfl (List.append_assoc _ _ _) ?_
    simp [TcpEvent.about?]
  | @connected n ip slot fd s hpc hs =>
    obtain ⟨hpeer, hidle⟩ := (hown.single _ _ _ _ _ hpc).2 s hs
    refine h.update haccounts hs (f := .connect ip (.done 0 w.kernel.clock)) rfl ?_ ?_ ?_
      (TcpKernel.socketAt_update hs _) (by rw [TcpKernel.update_eq hs]) rfl
    · simp [TcpSocket.connect, hpeer, eq_comm]
    · simp [TcpSocket.connect, hidle, eq_comm]
    · simp [TcpEvent.about?]
  | inProgress hpc hs =>
    exact (hcalled _ _ _ _ _ hpc hs).quiet (fun _ _ => id) rfl (List.append_nil _).symm nofun
  | @connectFail n ip slot fd s hpc hs =>
    refine (hcalled _ _ _ _ _ hpc hs).quiet ?_ ?_ rfl (by simp [TcpEvent.about?])
    · intro fd' s' hs'
      obtain ⟨hold, hne⟩ := socketAt_of_close hs'
      show (w.kernel.update fd _).socketAt fd' = some s'
      rw [TcpKernel.socketAt_update hs, Function.update_of_ne hne]
      exact hold
    · show w.kernel.opened = (w.kernel.update fd _).opened
      rw [TcpKernel.update_eq hs]
  | @register n ip slot fd s hpc hs =>
    refine h.update haccounts hs (f := .register (some (u32 slot.toNat))) rfl ?_ ?_ ?_
      (TcpKernel.socketAt_update hs _) (by rw [TcpKernel.update_eq hs]) rfl
    · simp [TcpSocket.register]
    · simp [TcpSocket.register]
    · simp [TcpEvent.about?]
  | registerFail hpc =>
    exact h.quiet (fun fd s hs => (socketAt_of_close hs).1) rfl rfl (by simp [TcpEvent.about?])
  | success | failure =>
    exact h.quiet (fun fd s hs => (socketAt_of_close hs).1) rfl rfl (by simp [TcpEvent.about?])
  | reap =>
    exact (h.ends (P.ends_reap _ w)).quiet (fun _ _ => id) rfl (List.append_nil _).symm nofun
  | destroy =>
    exact (h.ends (ends_destroy w)).quiet (fun _ _ => id) rfl (List.append_nil _).symm nofun

/-- **The trace is right in every reachable state**, so later proofs can read a socket's history off
it. -/
theorem logged_of_reachable (hP : P.Ranged) (hs : P.Idle s₀)
    (hw : Reachable P.step (start s₀ clock) w) : Logged w := by
  refine hw.invariant_of_runs (I := Logged) ⟨nofun, nofun, nofun⟩ ?_
  intro u l v hreach h _ hstep
  exact h.step (ownInv_of_reachable hP hs hreach) (step_cases hstep)

end TcpScanner

end Netscan
