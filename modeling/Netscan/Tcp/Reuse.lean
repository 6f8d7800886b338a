import Netscan.Tcp.SlotSafety

/-! # Calling `run()` again on the same scanner

`run()` initializes its locals and takes `probe_table_` as it is. Of an inactive entry it reads
nothing but that it is inactive, so a second call on a table without active entries goes as one on
a fresh scanner. An exception of the callback leaves the entries of the other probes active, and
with them the second call miscounts from its first loop head on. -/

namespace Netscan

open MachineInt SlotTable LabelledSystem Descriptors

/-! ### What a run does not see -/

/-- The entry without what is left in it once it is inactive. -/
def TcpProbeInfo.forget (p : TcpProbeInfo) : TcpProbeInfo := if p.active then p else {}

/-- Whether an entry is active is never forgotten. -/
@[simp] theorem TcpProbeInfo.active_forget (p : TcpProbeInfo) : p.forget.active = p.active := by
  unfold forget
  split
  · rfl
  · rename_i hp
    exact (Bool.not_eq_true _ ▸ hp).symm

/-- An active entry is kept as it is. -/
theorem TcpProbeInfo.forget_of_active {p : TcpProbeInfo} (hp : p.active = true) : p.forget = p :=
  if_pos hp

/-- Of an inactive entry nothing is left, as nothing of it is read again. -/
theorem TcpProbeInfo.forget_of_inactive {p : TcpProbeInfo} (hp : p.active = false) :
    p.forget = {} := by
  rw [forget, hp]
  rfl

/-- There is nothing more to forget after the first time. -/
@[simp] theorem TcpProbeInfo.forget_forget (p : TcpProbeInfo) : p.forget.forget = p.forget := by
  cases hp : p.active with
  | true => rw [forget_of_active hp, forget_of_active hp]
  | false =>
    rw [forget_of_inactive hp]
    rfl

namespace TcpScanner

/-- The state without what is left in inactive entries: their sockets, hosts and send times. -/
def forgetSlots (s : TcpState) : TcpState :=
  { s with probeTable := s.probeTable.map TcpProbeInfo.forget }

/-- The world without what is left in inactive entries. Nothing else is forgotten. -/
def forget (w : TcpWorld) : TcpWorld := { w with st := forgetSlots w.st }

/-! ### What the member functions see -/

@[simp] theorem forgetSlots_forgetSlots (s : TcpState) :
    forgetSlots (forgetSlots s) = forgetSlots s := by
  simp [forgetSlots, Function.comp_def]

@[simp] theorem forget_forget (w : TcpWorld) : forget (forget w) = forget w := by
  simp [forget]

@[simp] theorem length_forgetSlots (s : TcpState) :
    (forgetSlots s).probeTable.length = s.probeTable.length := List.length_map _

@[simp] theorem probeAt_forgetSlots (s : TcpState) (slot : ℕ) :
    probeAt (forgetSlots s) slot = (probeAt s slot).forget :=
  List.getD_map s.probeTable {} TcpProbeInfo.forget

@[simp] theorem forget_pc (w : TcpWorld) : (forget w).pc = w.pc := rfl

@[simp] theorem forget_kernel (w : TcpWorld) : (forget w).kernel = w.kernel := rfl

@[simp] theorem forget_trace (w : TcpWorld) : (forget w).trace = w.trace := rfl

@[simp] theorem forget_st (w : TcpWorld) : (forget w).st = forgetSlots w.st := rfl

@[simp] theorem nextHostIdx_forgetSlots (s : TcpState) :
    (forgetSlots s).nextHostIdx = s.nextHostIdx := rfl

@[simp] theorem activeProbes_forgetSlots (s : TcpState) :
    (forgetSlots s).activeProbes = s.activeProbes := rfl

@[simp] theorem targetIp_forgetSlots (P : TcpScanner) (s : TcpState) :
    P.targetIp (forgetSlots s) = P.targetIp s := rfl

@[simp] theorem initiates_forgetSlots (P : TcpScanner) (s : TcpState) (n : ℕ) :
    P.Initiates (forgetSlots s) n ↔ P.Initiates s n := Iff.rfl

/-- The search for a slot looks for inactive entries only, and not at what they hold. -/
@[simp] theorem findSlot_forgetSlots (s : TcpState) : findSlot (forgetSlots s) = findSlot s := by
  have hfind : (s.probeTable.map TcpProbeInfo.forget).findIdx? (fun p => !p.active) =
      s.probeTable.findIdx? fun p => !p.active := by
    rw [List.findIdx?_map]
    congr 1
    funext p
    exact congrArg not p.active_forget
  rw [findSlot, forgetSlots, hfind]
  rfl

/-- Claiming a slot does not depend on what was left in it. -/
theorem forgetSlots_claimSlot (slot : ℕ) (sock : ℤ) (ip : ℕ) (now : Timespec) (s : TcpState) :
    forgetSlots (claimSlot slot sock ip now (forgetSlots s)) =
      forgetSlots (claimSlot slot sock ip now s) := by
  simp [forgetSlots, claimSlot, List.map_set, Function.comp_def]

/-- Ending a probe leaves an inactive entry, of which only that is kept. -/
theorem forgetSlots_retire (slot : ℕ) (s : TcpState) :
    forgetSlots (retire slot (forgetSlots s)) = forgetSlots (retire slot s) := by
  simp [forgetSlots, retire, List.map_set, Function.comp_def, TcpProbeInfo.forget_of_inactive]

/-- A report does not look at the table, only at the results. -/
theorem report_forgetSlots (P : TcpScanner) (throws : Bool) (r : TcpHostResult) (s : TcpState) :
    P.report throws r (forgetSlots s) =
      (forgetSlots (P.report throws r s).1, (P.report throws r s).2) := by
  unfold report
  dsimp only [forgetSlots]
  split_ifs <;> rfl

/-- Only active entries are overdue, and those are kept. -/
theorem overdue_forget (P : TcpScanner) (now : Timespec) (p : TcpProbeInfo) :
    P.Overdue now p.forget ↔ P.Overdue now p := by
  cases hp : p.active with
  | true => rw [TcpProbeInfo.forget_of_active hp]
  | false =>
    constructor
    · rintro ⟨hactive, -⟩
      rw [TcpProbeInfo.active_forget, hp] at hactive
      cases hactive
    · rintro ⟨hactive, -⟩
      rw [hp] at hactive
      cases hactive

variable {P : TcpScanner}

/-- The end of an active probe reads the socket of its entry, which is kept. -/
theorem forget_retireProbe (slot : ℕ) (w : TcpWorld) (hp : (probeAt w.st slot).active = true) :
    forget (retireProbe slot (forget w)) = forget (retireProbe slot w) := by
  -- the socket that is closed is read out of the entry, which is active
  have hsock : (probeAt (forget w).st slot).sock = (probeAt w.st slot).sock := by
    rw [forget, probeAt_forgetSlots, TcpProbeInfo.forget_of_active hp]
  rw [retireProbe_eq, retireProbe_eq, hsock]
  simp only [forget, closeSock, forgetSlots_retire]

/-- A turn of the reap ends a probe or passes over the entry, by what is kept of it. -/
theorem forget_reapSlot (now : Timespec) (w : TcpWorld) (slot : ℕ) :
    forget (P.reapSlot now (forget w) slot) = forget (P.reapSlot now w slot) := by
  have hold : P.Overdue now (probeAt (forget w).st slot) ↔ P.Overdue now (probeAt w.st slot) := by
    rw [forget, probeAt_forgetSlots]
    exact P.overdue_forget now _
  rw [reapSlot, reapSlot]
  by_cases h : P.Overdue now (probeAt w.st slot)
  · rw [if_pos h, if_pos (hold.mpr h), forget_retireProbe slot w h.1]
  · rw [if_neg h, if_neg fun h' => h (hold.mp h'), forget_forget]

/-- `reap_timed_out_probes` does not see what is left in inactive entries, by its turns. -/
theorem forget_reapTimedOutProbes (now : Timespec) (w : TcpWorld) :
    forget (P.reapTimedOutProbes now (forget w)) = forget (P.reapTimedOutProbes now w) := by
  have hloop : ∀ w : TcpWorld, ∀ L : List ℕ, forget (L.foldl (P.reapSlot now) w) =
      L.foldl (fun w slot => forget (P.reapSlot now w slot)) (forget w) :=
    fun w L => (List.foldl_hom forget fun v slot => forget_reapSlot now v slot).symm
  have hlen : (forget w).st.probeTable.length = w.st.probeTable.length := length_forgetSlots _
  rw [reapTimedOutProbes, reapTimedOutProbes, hlen, hloop, hloop, forget_forget]

/-- The destructor closes the sockets of active entries only. -/
theorem destroy_forget (w : TcpWorld) : destroy (forget w) = forget (destroy w) := by
  have hslot : ∀ (v : TcpWorld) (p : TcpProbeInfo),
      destroySlot (forget v) p.forget = forget (destroySlot v p) := by
    intro v p
    cases hp : p.active with
    | true =>
      rw [TcpProbeInfo.forget_of_active hp]
      unfold destroySlot
      split <;> rfl
    | false => simp [destroySlot, hp]
  rw [destroy, destroy, forget, forgetSlots, List.foldl_map]
  exact List.foldl_hom forget hslot

/-! ### What a step sees -/

/-- Two branches on conditions that agree are forgotten alike if their cases are. -/
private theorem map_forget_ite {c d : Prop} [Decidable c] [Decidable d]
    {x y x' y' : Option TcpWorld} (hcond : c ↔ d) (hthen : x.map forget = x'.map forget)
    (helse : y.map forget = y'.map forget) :
    (if c then x else y).map forget = (if d then x' else y').map forget := by
  rw [apply_ite (Option.map forget), apply_ite (Option.map forget)]
  exact if_congr hcond hthen helse

private theorem forget_runStep (w : TcpWorld) :
    (P.runStep (forget w)).map forget = (P.runStep w).map forget := by
  cases h : w.pc with
  | loopHead =>
    simp only [runStep, forget_pc, h]
    exact map_forget_ite Iff.rfl (by simp [forget]) (by simp [forget])
  | initiate n =>
    -- of the table, this part of the loop reads only which slots are free
    simp only [runStep, forget_pc, h, forget_st, findSlot_forgetSlots]
    refine map_forget_ite Iff.rfl (map_forget_ite Iff.rfl ?_ ?_) (by simp [forget])
    · simp [forget, forgetSlots, targetIp, Function.comp_def]
    · exact map_forget_ite Iff.rfl (by simp [forget]) rfl
  | poll =>
    simp only [runStep, forget_pc, h]
    exact map_forget_ite Iff.rfl (by simp [forget]) rfl
  | handle events =>
    cases events with
    | nil => simp [runStep, h, forget]
    | cons ev events =>
      -- an event of a slot that is not active is skipped
      simp only [runStep, forget_pc, h, forget_st, length_forgetSlots, probeAt_forgetSlots,
        TcpProbeInfo.active_forget]
      exact map_forget_ite Iff.rfl (by simp [forget]) rfl
  | reap =>
    have hreap := congrArg (fun v : TcpWorld => some { v with pc := .loopHead })
      (forget_reapTimedOutProbes (P := P) w.kernel.clock w)
    simp only [runStep, forget_pc, h]
    exact hreap
  | returned | thrown =>
    simp only [runStep, forget_pc, h, destroy_forget]
    simp [forget]
  | single | destroyed => simp [runStep, h]

private theorem forget_socketStep (r : Option ℤ) (w : TcpWorld) :
    (P.socketStep r (forget w)).map forget = (P.socketStep r w).map forget := by
  unfold socketStep
  simp only [forget_pc, forget_st, forget_kernel, targetIp_forgetSlots, findSlot_forgetSlots]
  split
  · refine map_forget_ite Iff.rfl ?_ rfl
    cases r with
    | none => simp [forget, forgetSlots, Function.comp_def]
    | some fd =>
      refine map_forget_ite Iff.rfl ?_ rfl
      simp [forget, forgetSlots, Function.comp_def]
  · rfl

private theorem forget_fcntlStep (ok : Bool) (w : TcpWorld) :
    (fcntlStep ok (forget w)).map forget = (fcntlStep ok w).map forget := by
  unfold fcntlStep
  simp only [forget_pc]
  split
  · exact map_forget_ite Iff.rfl (by simp [forget]) (by simp [forget, closeSock])
  · rfl

private theorem forget_connectStep (r : ConnectResult) (w : TcpWorld) :
    (connectStep r (forget w)).map forget = (connectStep r w).map forget := by
  unfold connectStep
  simp only [forget_pc, forget_kernel]
  split
  · split
    · rfl
    · cases r <;> simp [forget, closeSock]
  · rfl

private theorem forget_epollAddStep (ok : Bool) (w : TcpWorld) :
    (epollAddStep ok (forget w)).map forget = (epollAddStep ok w).map forget := by
  unfold epollAddStep
  simp only [forget_pc, forget_kernel]
  split
  · split
    · rfl
    · refine map_forget_ite Iff.rfl ?_ (by simp [forget, closeSock])
      simp [forget, forgetSlots_claimSlot]
  · rfl

private theorem forget_epollWaitStep (r : EpollResult) (w : TcpWorld) :
    (P.epollWaitStep r (forget w)).map forget = (P.epollWaitStep r w).map forget := by
  unfold epollWaitStep
  simp only [forget_pc, forget_kernel]
  split
  · refine map_forget_ite Iff.rfl rfl ?_
    cases r with
    | events evs => exact map_forget_ite Iff.rfl (by simp [forget]) rfl
    | timeout => exact map_forget_ite Iff.rfl (by simp [forget]) rfl
    | failed => simp [forget]
  · rfl

/-- The end of the loop body of `poll_connections`, whether the callback throws or not. -/
private theorem map_forget_report {v v' : TcpWorld} (h : forget v = forget v') (throws : Bool)
    (r : Timespec → TcpHostResult) (next : TcpPc) :
    (some { v with
        st := (P.report throws (r v.kernel.clock) v.st).1
        pc := if (P.report throws (r v.kernel.clock) v.st).2 then .thrown else next }).map forget =
      (some { v' with
        st := (P.report throws (r v'.kernel.clock) v'.st).1
        pc := if (P.report throws (r v'.kernel.clock) v'.st).2 then .thrown else next }).map
          forget := by
  obtain ⟨st, pc, kernel, trace⟩ := v
  obtain ⟨st', pc', kernel', trace'⟩ := v'
  simp only [forget, TcpWorld.mk.injEq] at h
  obtain ⟨hst, -, rfl, rfl⟩ := h
  have hreport := congrArg (P.report throws (r kernel.clock)) hst
  rw [report_forgetSlots, report_forgetSlots, Prod.mk.injEq] at hreport
  simp only [Option.map_some, forget, hreport.1, hreport.2]

private theorem forget_eventStep (getsockopt : Option ℕ) (dns : Option String) (throws : Bool)
    (w : TcpWorld) : (P.eventStep getsockopt dns throws (forget w)).map forget =
      (P.eventStep getsockopt dns throws w).map forget := by
  unfold eventStep
  simp only [forget_pc]
  split
  · rename_i ev events hpc
    simp only [forget_st, length_forgetSlots, probeAt_forgetSlots, TcpProbeInfo.active_forget]
    -- a report is made of the entry of an active slot only, and of such an entry nothing is
    -- forgotten
    by_cases hactive : ev.data < w.st.probeTable.length ∧ (probeAt w.st ev.data).active = true
    · refine map_forget_ite Iff.rfl ?_ rfl
      simp only [TcpProbeInfo.forget_of_active hactive.2, forget_kernel]
      split
      · rfl
      · rename_i sockErr _
        have hretire := forget_retireProbe ev.data { w with
          trace := w.trace ++ [.handled ev.source
            ((w.kernel.socketAt (probeAt w.st ev.data).sock).map (·.id))
            (probeAt w.st ev.data).destIp sockErr] } hactive.2
        refine map_forget_ite Iff.rfl ?_ ?_
        · exact map_forget_report hretire throws
            (fun now => P.probeResult now dns (probeAt w.st ev.data)) (.handle events)
        · exact congrArg (fun v : TcpWorld => some { v with pc := .handle events }) hretire
    · rw [if_neg hactive, if_neg hactive]
  · rfl

/-- **A step does not see what is left in inactive entries.** Every read of an entry comes behind
the test of `active`. -/
theorem map_forget_step {v w : TcpWorld} (h : forget v = forget w) (l : TcpLabel) :
    (P.step v l).map forget = (P.step w l).map forget := by
  -- it is enough to compare with the world in which everything is forgotten
  have hstep : ∀ w, (P.step (forget w) l).map forget = (P.step w l).map forget := by
    intro w
    cases l with
    | tick now => simp [step, forget]
    | complete fd err =>
      simp only [step, forget_kernel]
      split
      · rfl
      · exact map_forget_ite Iff.rfl (by simp [forget]) rfl
    | reset fd err =>
      simp only [step, forget_kernel]
      split
      · rfl
      · exact map_forget_ite Iff.rfl (by simp [forget]) rfl
    | run => exact forget_runStep w
    | socket r => exact forget_socketStep r w
    | fcntl ok => exact forget_fcntlStep ok w
    | connect r => exact forget_connectStep r w
    | epollAdd ok => exact forget_epollAddStep ok w
    | epollWait r => exact forget_epollWaitStep r w
    | event getsockopt dns throws => exact forget_eventStep getsockopt dns throws w
  rw [← hstep v, h, hstep w]

/-! ### The second call -/

/-- The first loop head of another call of `run()` on the object of `w`, whose run has ended. -/
def restart (w : TcpWorld) : TcpWorld := { w with st := beginRun w.st, pc := .loopHead }

/-- The first loop head of `run()` on a fresh scanner, with no socket open, at the same time. -/
def fresh (P : TcpScanner) (w : TcpWorld) : TcpWorld :=
  { w with
    st := beginRun P.initialState
    pc := .loopHead
    kernel := { w.kernel with sockets := ∅ } }

/-- Another call of `run()` on the object of `w` behaves as one on a fresh scanner. -/
structure Reusable (P : TcpScanner) (w : TcpWorld) : Prop where
  /-- The same answers of the environment are possible and lead to worlds that differ in what is
  left in inactive entries only: the traces with the connect attempts, the results, the counters and
  the control points are the same. -/
  alike : ∀ ls, (exec P.step (restart w) ls).map forget = (exec P.step (P.fresh w) ls).map forget
  /-- `active_probes` counts the active entries throughout. -/
  counted : ∀ u, Reachable P.step (restart w) u → u.pc ≠ .destroyed →
    u.st.activeProbes = u.st.probeTable.countP (·.active)

variable {s₀ : TcpState} {clock : Timespec} {w : TcpWorld}

/-- Without active entries, no socket is open: the table holds them all. -/
theorem sockets_eq_empty (h : P.Owned none w) (hidle : P.Idle w.st) : w.kernel.sockets = ∅ := by
  apply eq_empty_of_lookup
  intro fd
  by_contra hopen
  obtain ⟨s, hs⟩ := Option.ne_none_iff_exists'.mp hopen
  cases hslot : s.slot with
  | none =>
    -- a socket without a slot would be in the hands of `initiate_single_connection`
    have hheld := (h.held fd).mpr ⟨s, hs, hslot⟩
    cases hheld
  | some i =>
    obtain ⟨p, hi, hp, -⟩ := h.active_of_socket hs hslot
    rw [hidle.inactive p (List.mem_of_getElem? hi)] at hp
    cases hp

/-- A table without active entries looks like any other of its size. -/
theorem forgetSlots_beginRun {s t : TcpState} (hs : P.Idle s) (ht : P.Idle t) :
    forgetSlots (beginRun s) = forgetSlots (beginRun t) := by
  have hblank : ∀ u : TcpState, P.Idle u →
      u.probeTable.map TcpProbeInfo.forget = List.replicate P.maxProbes {} := by
    intro u hu
    rw [List.eq_replicate_iff, List.length_map]
    refine ⟨hu.probeTable, fun p hp => ?_⟩
    obtain ⟨q, hq, rfl⟩ := List.mem_map.mp hp
    exact TcpProbeInfo.forget_of_inactive (hu.inactive q hq)
  simp only [forgetSlots, beginRun, hblank s hs, hblank t ht]

/-- Without active entries, the sockets are held as the second call expects. -/
theorem ownInv_restart (h : P.Owned none w) (hidle : P.Idle w.st) : P.OwnInv (restart w) := by
  refine .of_owned ⟨h.size, ?_, h.linked, h.peer, h.held, h.nonneg, h.accounts⟩ rfl ?_
  · show 0 = (keys TcpProbeInfo.sock? w.st.probeTable).length
    rw [keys_idle hidle fun _ => TcpProbeInfo.sock?_eq_none.mpr]
    rfl
  · intro hpc
    cases hpc

/-- **When a scanner can be reused.** Take any call of `run()` on a scanner for a parsed range that
has returned or was left by an exception. Another call on the same object behaves as one on a fresh
scanner if and only if no entry of the table is active. So it does whenever the first call has
returned. -/
theorem reusable_iff {input : CString} {config : TcpScannerConfig}
    (hparse : parseCidr input = some (config.baseIp, config.totalHosts)) (routedIp : Option ℕ)
    (ifaddrs : Option (List IfAddrs)) {s₀ : TcpState}
    (hs : (construct config routedIp ifaddrs).Idle s₀) (clock : Timespec) {w : TcpWorld}
    (hw : Reachable (construct config routedIp ifaddrs).step (start s₀ clock) w)
    (hend : w.pc = .returned ∨ w.pc = .thrown) :
    ((construct config routedIp ifaddrs).Reusable w ↔ ∀ p ∈ w.st.probeTable, p.active = false) ∧
      (w.pc = .returned → ∀ p ∈ w.st.probeTable, p.active = false) := by
  have hP := ranged_construct hparse routedIp ifaddrs
  have howned : (construct config routedIp ifaddrs).Owned none w := by
    have hown := (ownInv_of_reachable hP hs hw).owned
    rcases hend with hpc | hpc <;> rw [hpc] at hown <;> exact hown (by decide)
  refine ⟨⟨fun h => ?_, fun hinactive => ⟨fun ls => ?_, fun u hu hne => ?_⟩⟩,
    fun hret => (idle_of_returned hP hs hw hret).inactive⟩
  · -- the second call starts its counter at zero
    have hcount : 0 = w.st.probeTable.countP (·.active) := by
      refine h.counted (restart w) .refl ?_
      intro hpc
      cases hpc
    intro p hp
    exact Bool.not_eq_true _ ▸ List.countP_eq_zero.mp hcount.symm p hp
  · -- no socket is open either, so both calls start alike up to what inactive entries hold
    have hidle : (construct config routedIp ifaddrs).Idle w.st := ⟨howned.size, hinactive⟩
    apply map_exec_eq fun v w l h => map_forget_step h l
    have hkernel : ({ w.kernel with sockets := ∅ } : TcpKernel) = w.kernel := by
      rw [← sockets_eq_empty howned hidle]
    rw [restart, fresh, forget, forget, hkernel, forgetSlots_beginRun hidle (idle_initialState _)]
  · have hidle : (construct config routedIp ifaddrs).Idle w.st := ⟨howned.size, hinactive⟩
    have hown : (construct config routedIp ifaddrs).OwnInv u :=
      hu.invariant (I := (construct config routedIp ifaddrs).OwnInv) (ownInv_restart howned hidle)
        fun _ _ _ h _ hstep => h.step hP (step_cases hstep)
    exact (hown.owned hne).activeCount

/-- `10.0.0.8/31` with a callback, so that an exception can leave the loop. -/
def callbackScanner : TcpScanner :=
  construct { baseIp := 167772168, totalHosts := 2, resultCallback := true } none none

/-- The parsed range of that scanner, as the constructor gets it. -/
theorem parseCidr_callbackScanner :
    parseCidr [49, 48, 46, 48, 46, 48, 46, 56, 47, 51, 49] = some (167772168, 2) := by
  decide

/-- Both hosts of the range connect and are reported by the same `epoll_wait`. -/
def bothConnect : List TcpLabel :=
  [.run, .socket (some 5), .fcntl true, .connect .inProgress, .epollAdd true, .socket (some 6),
    .fcntl true, .connect .inProgress, .epollAdd true, .run, .complete 5 0, .complete 6 0,
    .epollWait (.events [⟨0, 0⟩, ⟨1, 1⟩])]

/-- The scanner can be reused after a call that returned, and not after one that the callback left
at the first of two results. -/
theorem reusable_iff_pair :
    (∃ w, w.pc = .returned ∧ callbackScanner.Reusable w) ∧
      ∃ w, w.pc = .thrown ∧ ¬ callbackScanner.Reusable w := by
  constructor
  · obtain ⟨w, hw, hp⟩ := exists_reachable_of_exec (M := callbackScanner.step)
      (s := start callbackScanner.initialState {})
      (bothConnect ++ [.event none none false, .event none none false, .run, .run, .run])
      (fun w => decide (w.pc = .returned)) (by decide)
    have hpc := of_decide_eq_true hp
    have hiff := reusable_iff parseCidr_callbackScanner none none (idle_initialState _) {} hw
      (.inl hpc)
    exact ⟨w, hpc, hiff.1.mpr (hiff.2 hpc)⟩
  · obtain ⟨w, hw, hp⟩ := exists_reachable_of_exec (M := callbackScanner.step)
      (s := start callbackScanner.initialState {}) (bothConnect ++ [.event none none true])
      (fun w => decide (w.pc = .thrown ∧ ∃ p ∈ w.st.probeTable, p.active = true)) (by decide)
    obtain ⟨hpc, p, hmem, hactive⟩ := of_decide_eq_true hp
    refine ⟨w, hpc, fun h => ?_⟩
    have hiff := reusable_iff parseCidr_callbackScanner none none (idle_initialState _) {} hw
      (.inr hpc)
    rw [hiff.1.mp h p hmem] at hactive
    cases hactive

/-- **A scanner that cannot be reused.** The callback throws at the first of two results and leaves
the other probe active, with its socket registered. In the second call no socket can be opened, so
no probe is counted when the event of that socket is handled: `active_probes` wraps around. -/
theorem not_reusable :
    ¬ ∀ (input : CString) (config : TcpScannerConfig),
      parseCidr input = some (config.baseIp, config.totalHosts) →
      ∀ (routedIp : Option ℕ) (ifaddrs : Option (List IfAddrs)) (clock : Timespec) (w : TcpWorld),
        Reachable (construct config routedIp ifaddrs).step
          (start (construct config routedIp ifaddrs).initialState clock) w →
        w.pc = .returned ∨ w.pc = .thrown → (construct config routedIp ifaddrs).Reusable w := by
  intro h
  obtain ⟨w, hw, hp⟩ := exists_reachable_of_exec (M := callbackScanner.step)
    (s := start callbackScanner.initialState {}) (bothConnect ++ [.event none none true])
    (fun w => decide (w.pc = .thrown) &&
      (exec callbackScanner.step (restart w) [.run, .socket none, .socket none, .run,
        .epollWait (.events [⟨1, 1⟩]), .event none none false]).any fun u : TcpWorld =>
          decide (u.st.activeProbes = 2 ^ 64 - 1 ∧ u.pc = .handle [] ∧
            ∀ p ∈ u.st.probeTable, p.active = false)) (by decide)
  obtain ⟨hpc, hsecond⟩ := Bool.and_eq_true_iff.mp hp
  obtain ⟨u, hu, hprops⟩ := exists_reachable_of_exec _ _ hsecond
  -- the counter of the second call has wrapped, and no entry is active
  obtain ⟨hwrapped, hpcu, hinactive⟩ := of_decide_eq_true hprops
  have hreusable := h _ { baseIp := 167772168, totalHosts := 2, resultCallback := true }
    parseCidr_callbackScanner none none {} w hw (.inr (of_decide_eq_true hpc))
  have hcount := hreusable.counted u hu (by rw [hpcu]; decide)
  have hnone : u.st.probeTable.countP (·.active) = 0 := by
    rw [List.countP_eq_zero]
    intro p hmem
    rw [hinactive p hmem]
    decide
  rw [hwrapped, hnone] at hcount
  exact absurd hcount (by decide)

end TcpScanner

end Netscan
