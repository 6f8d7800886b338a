import Netscan.Lib.Refinement
import Netscan.Lib.WindowScan
import Netscan.Tcp.Coverage
import Netscan.Tcp.Trace

/-! # What becomes of the hosts of a TCP run

`TcpScanner::run` is a scan of its range through a window of `max_probes_` hosts: a host is
outstanding from its `socket` call until its probe ends, and it gets a fate when it is passed over,
given up or done with. The fates are a history variable of the run (`fates`). Every step is matched
by moves of the abstract scan (`scans_step`), so a run that returns has given every host of the
range exactly one fate. -/

namespace Netscan

open MachineInt SlotTable LabelledSystem WindowScan

/-- What can become of a host: one constructor for each place of the code where the scanner is done
with it. -/
inductive TcpFate where
  /-- It is an address of the local subnet itself. -/
  | skipped
  /-- There was no socket for it. -/
  | noSocket
  /-- Its socket could not be made non-blocking. -/
  | noFlags
  /-- `connect` failed at once. -/
  | refused
  /-- Its socket could not be registered. -/
  | unregistered
  /-- Its socket connected. -/
  | found
  /-- Its socket was reported with an error. -/
  | failed (sockErr : ℕ)
  /-- Its probe was reaped. -/
  | timedOut
  deriving DecidableEq, Repr

/-- `connect` was called for the host, whatever came of it. -/
def TcpFate.connected : TcpFate → Bool
  | .skipped | .noSocket | .noFlags => false
  | _ => true

/-- The host was given up before `connect`, by a local failure. -/
def TcpFate.lost : TcpFate → Bool
  | .noSocket | .noFlags => true
  | _ => false

/-- A fate is one of three kinds: passed over, lost or connected. -/
theorem TcpFate.cases_kind (f : TcpFate) : f = .skipped ∨ f.lost = true ∨ f.connected = true := by
  cases f <;> simp [TcpFate.lost, TcpFate.connected]

/-- The host that `initiate_single_connection` works on. Its probe is not in the table yet. -/
def TcpPc.heldIp? : TcpPc → Option ℕ
  | .single _ _ _ ip _ => some ip
  | _ => none

namespace TcpScanner

variable {P : TcpScanner} {s₀ : TcpState} {clock : Timespec} {w w' : TcpWorld} {l : TcpLabel}
  {fs : List (ℕ × TcpFate)} {ip : ℕ} {f : TcpFate}

/-- The fates that a step with label `l` from `w` gives. -/
def fates (P : TcpScanner) (w : TcpWorld) (l : TcpLabel) : List (ℕ × TcpFate) :=
  match w.pc, l with
  | .initiate n, .run =>
    if P.Initiates w.st n ∧ P.skipsLocal (P.targetIp w.st) then [(P.targetIp w.st, .skipped)]
    else []
  | .initiate _, .socket none => [(P.targetIp w.st, .noSocket)]
  | .single .opened _ _ ip _, .fcntl false => [(ip, .noFlags)]
  | .single .nonblocking _ _ ip _, .connect .failed => [(ip, .refused)]
  | .single .connecting _ _ ip _, .epollAdd false => [(ip, .unregistered)]
  | .handle (ev :: _), .event getsockopt _ _ =>
    let probe := probeAt w.st ev.data
    match readSockErr getsockopt (w.kernel.socketAt probe.sock) with
    | some sockErr => [(probe.destIp, if sockErr = 0 then .found else .failed sockErr)]
    | none => []
  | .reap, .run =>
    (w.st.probeTable.filter (P.Overdue w.kernel.clock)).map fun p => (p.destIp, .timedOut)
  | _, _ => []

/-- The scan that a run with its fates amounts to: the hosts ahead of the cursor, those outstanding,
and those done. -/
def scanOf (P : TcpScanner) (v : TcpWorld × List (ℕ × TcpFate)) : Scan ℕ TcpFate where
  ahead := List.range' (P.baseIp + v.1.st.nextHostIdx) (P.totalHosts - v.1.st.nextHostIdx)
  out := (keys TcpProbeInfo.dest? v.1.st.probeTable ++ v.1.pc.heldIp?.toList : List ℕ)
  settled := v.2

/-! ### Every step is matched by moves -/

/-- The next host of the range is the first of those ahead. -/
theorem ahead_cons (hlt : w.st.nextHostIdx < P.totalHosts) :
    (P.scanOf (w, fs)).ahead = (P.baseIp + w.st.nextHostIdx) ::
      List.range' (P.baseIp + (w.st.nextHostIdx + 1)) (P.totalHosts - (w.st.nextHostIdx + 1)) := by
  show List.range' _ _ = _
  rw [show P.totalHosts - w.st.nextHostIdx = P.totalHosts - (w.st.nextHostIdx + 1) + 1 by omega,
    List.range'_succ, Nat.add_assoc]

/-- A step that takes no host, ends no probe and gives no fate. -/
theorem scans_quiet (hfates : P.fates w l = []) (hcursor : w'.st.nextHostIdx = w.st.nextHostIdx)
    (htable : w'.st.probeTable = w.st.probeTable) (hheld : w'.pc.heldIp? = w.pc.heldIp?) :
    Scans P.maxProbes (P.scanOf (w, fs)) (P.scanOf (w', fs ++ P.fates w l)) := by
  have hsame : P.scanOf (w', fs ++ P.fates w l) = P.scanOf (w, fs) := by
    simp only [scanOf, hfates, hcursor, htable, hheld, List.append_nil]
  rw [hsame]

/-- The next host is passed over: it gets its fate without ever being outstanding. -/
theorem scans_passed (hP : P.Ranged) (hlt : w.st.nextHostIdx < P.totalHosts)
    (hfates : P.fates w l = [(P.targetIp w.st, f)])
    (hcursor : w'.st.nextHostIdx = w.st.nextHostIdx + 1)
    (htable : w'.st.probeTable = w.st.probeTable) (hheld : w'.pc.heldIp? = w.pc.heldIp?) :
    Scans P.maxProbes (P.scanOf (w, fs)) (P.scanOf (w', fs ++ P.fates w l)) := by
  rw [hfates, targetIp_eq hP hlt]
  refine .single (.pass (P.baseIp + w.st.nextHostIdx) f ?_ ?_ (Multiset.coe_add fs _).symm)
  · rw [ahead_cons hlt, scanOf, hcursor]
  · simp only [scanOf, htable, hheld]

/-- The next host is taken. The gate of the code leaves room for it in the window. -/
theorem scans_taken {held : Option ℤ} (hP : P.Ranged) (howned : P.Owned held w)
    (hlt : w.st.nextHostIdx < P.totalHosts) (hroom : w.st.activeProbes < P.maxProbes)
    (hfates : P.fates w l = []) (hcursor : w'.st.nextHostIdx = w.st.nextHostIdx + 1)
    (htable : w'.st.probeTable = w.st.probeTable) (hnone : w.pc.heldIp? = none)
    (hheld : w'.pc.heldIp? = some (P.targetIp w.st)) :
    Scans P.maxProbes (P.scanOf (w, fs)) (P.scanOf (w', fs ++ P.fates w l)) := by
  rw [hfates, List.append_nil]
  refine .single (.take (P.baseIp + w.st.nextHostIdx) ?_ ?_ ?_ rfl)
  · -- the hosts outstanding are those of the active probes
    have hcount : (keys TcpProbeInfo.dest? w.st.probeTable).length = w.st.activeProbes := by
      rw [howned.count, length_keys_eq_countP, length_keys_eq_countP]
      congr 1
      funext p
      simp only [TcpProbeInfo.dest?, TcpProbeInfo.sock?]
      split <;> rfl
    rw [scanOf, Multiset.coe_card, List.length_append, hcount, hnone]
    exact hroom
  · rw [ahead_cons hlt, scanOf, hcursor]
  · simp only [scanOf, htable, hnone, hheld, targetIp_eq hP hlt, Option.toList_none,
      Option.toList_some, List.append_nil]
    rw [← Multiset.coe_add, Multiset.coe_singleton]

/-- Outstanding hosts are settled: they leave the window with the fate of the step. -/
theorem scans_settled (hcursor : w'.st.nextHostIdx = w.st.nextHostIdx)
    (hout : (keys TcpProbeInfo.dest? w.st.probeTable ++ w.pc.heldIp?.toList).Perm
      (keys TcpProbeInfo.dest? w'.st.probeTable ++ w'.pc.heldIp?.toList ++
        (P.fates w l).map Prod.fst)) :
    Scans P.maxProbes (P.scanOf (w, fs)) (P.scanOf (w', fs ++ P.fates w l)) := by
  refine scans_settle _ ?_ (Multiset.coe_eq_coe.mpr hout) (Multiset.coe_add fs _).symm
  simp only [scanOf, hcursor]

/-- The host that `initiate_single_connection` works on is given up, so it never enters the
table. -/
theorem scans_givenUp (hheld : w.pc.heldIp? = some ip) (hfates : P.fates w l = [(ip, f)])
    (hcursor : w'.st.nextHostIdx = w.st.nextHostIdx)
    (htable : w'.st.probeTable = w.st.probeTable) (hnone : w'.pc.heldIp? = none) :
    Scans P.maxProbes (P.scanOf (w, fs)) (P.scanOf (w', fs ++ P.fates w l)) := by
  refine scans_settled hcursor ?_
  rw [htable, hheld, hnone, hfates]
  exact .of_eq (by simp)

/-- The event of an active slot ends its probe, and the host of the slot leaves the window. -/
theorem scans_retired {i : ℕ} {p : TcpProbeInfo} (hi : w.st.probeTable[i]? = some p)
    (hp : p.active = true) (hfates : P.fates w l = [(p.destIp, f)])
    (hcursor : w'.st.nextHostIdx = w.st.nextHostIdx)
    (htable : w'.st.probeTable = (retire i w.st).probeTable) (hheld : w.pc.heldIp? = none)
    (hheld' : w'.pc.heldIp? = none) :
    Scans P.maxProbes (P.scanOf (w, fs)) (P.scanOf (w', fs ++ P.fates w l)) := by
  refine scans_settled hcursor ?_
  rw [htable, hheld, hheld', hfates, Option.toList_none, List.append_nil, List.append_nil]
  exact (perm_retire hi hp).trans (List.perm_append_singleton _ _).symm

/-- The probes that the reap ends are the overdue ones, by induction on the slots that it visits. -/
theorem perm_reap (hlen : (P.reapTimedOutProbes w.kernel.clock w).st.probeTable.length =
      w.st.probeTable.length) :
    (keys TcpProbeInfo.dest? w.st.probeTable).Perm
      (keys TcpProbeInfo.dest? (P.reapTimedOutProbes w.kernel.clock w).st.probeTable ++
        (w.st.probeTable.filter (P.Overdue w.kernel.clock)).map (·.destIp)) := by
  have hends := P.ends_reap w.kernel.clock w
  have hover : (w.st.probeTable.filter (P.Overdue w.kernel.clock)).map (·.destIp) =
      keys (fun p => if P.Overdue w.kernel.clock p then some p.destIp else none)
        w.st.probeTable := by
    rw [keys, ← List.filterMap_eq_map, List.filterMap_filter]
    apply List.filterMap_congr
    intro p _
    by_cases hold : P.Overdue w.kernel.clock p <;> simp [hold]
  rw [hover, keys_eq_filterMap_range TcpProbeInfo.dest? w.st.probeTable {},
    keys_eq_filterMap_range TcpProbeInfo.dest?
      (P.reapTimedOutProbes w.kernel.clock w).st.probeTable {}, hlen,
    keys_eq_filterMap_range _ w.st.probeTable {}]
  apply filterMap_perm_append
  intro i hi
  have hlt := List.mem_range.mp hi
  have hbefore : w.st.probeTable[i]? = some (w.st.probeTable.getD i {}) := by
    simp [hlt]
  have hafter : (P.reapTimedOutProbes w.kernel.clock w).st.probeTable[i]? =
      some ((P.reapTimedOutProbes w.kernel.clock w).st.probeTable.getD i {}) := by
    simp [hlen, hlt]
  generalize w.st.probeTable.getD i {} = p at hbefore
  generalize (P.reapTimedOutProbes w.kernel.clock w).st.probeTable.getD i {} = q at hafter
  have hnone : q.active = true → p = q ∧ ¬ P.Overdue w.kernel.clock p := by
    intro hq
    have hpq : p = q := Option.some.inj (hbefore.symm.trans (hends.kept i q hafter hq))
    exact ⟨hpq, hpq ▸ not_overdue_of_reap hafter⟩
  by_cases hold : P.Overdue w.kernel.clock p
  · -- an overdue probe is gone
    right
    have hq : q.active = false := Bool.eq_false_iff.mpr fun hq => (hnone hq).2 hold
    rw [if_pos hold]
    exact ⟨TcpProbeInfo.dest?_eq_none.mpr hq,
      (TcpProbeInfo.dest?_eq_some.mpr ⟨hold.1, rfl⟩).symm⟩
  · left
    refine ⟨?_, if_neg hold⟩
    cases hp : p.active with
    | true =>
      rcases hends.gone i p hbefore hp with hkept | hgone
      · rw [Option.some.inj (hafter.symm.trans hkept)]
      · exact absurd hgone hold
    | false =>
      have hq : q.active = false := by
        refine Bool.eq_false_iff.mpr fun hq => ?_
        rw [(hnone hq).1, hq] at hp
        cases hp
      rw [TcpProbeInfo.dest?_eq_none.mpr hp, TcpProbeInfo.dest?_eq_none.mpr hq]

/-- The environment's own steps give no fate: they change neither table nor cursor. -/
theorem fates_env (henv : l.isEnv = true) : P.fates w l = [] := by
  unfold fates
  cases l with
  | tick | complete | reset => split <;> first | rfl | contradiction
  | _ => cases henv

/-- An event with a socket error that is read gives the host of its slot a fate. -/
theorem fates_event {ev : EpollEvent} {evs : List EpollEvent} {p : TcpProbeInfo} {sockErr : ℕ}
    {getsockopt : Option ℕ} {dns : Option String} {throws : Bool} (hpc : w.pc = .handle (ev :: evs))
    (hi : w.st.probeTable[ev.data]? = some p)
    (herr : readSockErr getsockopt (w.kernel.socketAt p.sock) = some sockErr) :
    P.fates w (.event getsockopt dns throws) =
      [(p.destIp, if sockErr = 0 then .found else .failed sockErr)] := by
  simp only [fates, hpc, probeAt_of_getElem? hi, herr]

/-- The reap gives the hosts of the overdue probes their fate. -/
theorem fates_reap (hpc : w.pc = .reap) : P.fates w .run =
    ((w.st.probeTable.filter (P.Overdue w.kernel.clock)).map (·.destIp)).map
      fun ip => (ip, .timedOut) := by
  simp only [fates, hpc, List.map_map]
  rfl

/-- **Every step of a run is matched by moves of the scan.** -/
theorem scans_step (hP : P.Ranged) (hown : P.OwnInv w) (hstep : TcpStep P w l w') :
    Scans P.maxProbes (P.scanOf (w, fs)) (P.scanOf (w', fs ++ P.fates w l)) := by
  cases hstep with
  | tick | complete | reset => exact scans_quiet (fates_env rfl) rfl rfl rfl
  | enter hpc | leave hpc | pollThrew hpc | pollTimeout hpc | pollFailed hpc | stale hpc
  | eventsDone hpc | pollEvents hpc | fcntlOk hpc | connected hpc | inProgress hpc =>
    exact scans_quiet (by simp only [fates, hpc]) rfl rfl (by rw [hpc]; rfl)
  | closedGate hpc hstop =>
    exact scans_quiet (by simp [fates, hpc, hstop]) rfl rfl (by rw [hpc]; rfl)
  | noSlot hpc hgo hslot =>
    -- with fewer active probes than slots there is a free one
    obtain ⟨i, p, hfind, -⟩ := (hown.owned (by simp [hpc])).findSlot hP hgo.2.1
    rw [hfind] at hslot
    omega
  | skip hpc hgo hlocal =>
    have hfate : P.fates w .run = [(P.targetIp w.st, .skipped)] := by
      simp only [fates, hpc, hgo, hlocal, and_self, if_true]
    exact scans_passed hP hgo.1 hfate rfl rfl (by rw [hpc]; rfl)
  | socketFail hpc hgo hlocal =>
    have hfate : P.fates w (.socket none) = [(P.targetIp w.st, .noSocket)] := by
      simp only [fates, hpc]
    exact scans_passed hP hgo.1 hfate rfl rfl (by rw [hpc]; rfl)
  | socketOk hpc hgo hlocal hslot hfd hfree =>
    exact scans_taken hP (hown.owned (by simp [hpc])) hgo.1 hgo.2.1 (by simp only [fates, hpc]) rfl
      rfl (by rw [hpc]; rfl) rfl
  | fcntlFail hpc | connectFail hpc | registerFail hpc =>
    exact scans_givenUp (by rw [hpc]; rfl) (by simp only [fates, hpc]; rfl) rfl rfl rfl
  | @register n ip slot fd s hpc =>
    have hnone : P.fates w (.epollAdd true) = [] := by simp only [fates, hpc]
    obtain ⟨⟨i, p, rfl, hi, hp⟩, -⟩ := hown.single _ _ _ _ _ hpc
    refine scans_settled rfl ?_
    -- the host moves from the local variable to the table
    rw [hpc, hnone, List.map_nil, List.append_nil]
    show (keys TcpProbeInfo.dest? w.st.probeTable ++ [ip]).Perm (keys _ _ ++ [])
    rw [List.append_nil]
    refine (List.perm_append_singleton _ _).trans ?_
    exact (keys_claim hi (TcpProbeInfo.dest?_eq_none.mpr hp) rfl).symm
  | @success ev evs dns throws p so hpc hi hp hso herr st threw hout =>
    have hframe := P.report_frame throws (P.probeResult w.kernel.clock dns p) (retire ev.data w.st)
    rw [hout] at hframe
    have hread : readSockErr none (w.kernel.socketAt p.sock) = some 0 := by
      rw [hso, readSockErr, Option.map_some, herr]
    exact scans_retired hi hp (fates_event hpc hi hread) hframe.2.2 hframe.1 (by rw [hpc]; rfl)
      (by cases threw <;> rfl)
  | failure hpc hi hp herr hne =>
    exact scans_retired hi hp (fates_event hpc hi herr) rfl rfl (by rw [hpc]; rfl) rfl
  | reap hpc =>
    have howned := hown.owned (by simp [hpc])
    have hfst : (P.fates w .run).map Prod.fst =
        (w.st.probeTable.filter (P.Overdue w.kernel.clock)).map (·.destIp) := by
      rw [fates_reap hpc, List.map_map]
      exact List.map_id _
    refine scans_settled (P.ends_reap _ w).cursor ?_
    rw [hpc, hfst]
    show (keys _ w.st.probeTable ++ []).Perm (keys _ _ ++ [] ++ _)
    rw [List.append_nil, List.append_nil]
    exact perm_reap (((howned.reapTimedOutProbes hP _).size).trans howned.size.symm)
  | destroy hpc =>
    refine scans_quiet ?_ ?_ ?_ ?_
    · rcases hpc with hpc | hpc <;> simp only [fates, hpc]
    · show (destroy w).st.nextHostIdx = _
      rw [destroy_st]
    · show (destroy w).st.probeTable = _
      rw [destroy_st]
    · rcases hpc with hpc | hpc <;> rw [hpc] <;> rfl

/-! ### What the fates say -/

/-- What the fates given so far say about the run: which hosts are in the results, which were lost,
skipped and connected to. -/
structure FateInv (P : TcpScanner) (w : TcpWorld) (fs : List (ℕ × TcpFate)) : Prop where
  /-- The hosts found are those of the results, unless the callback threw. -/
  found : w.pc ≠ .thrown → w.pc ≠ .destroyed →
    targetsWith (· == .found) fs = w.st.scanResults.map (·.ip)
  /-- The hosts given up are those without a `connect` call. -/
  lost : targetsWith TcpFate.lost fs = lostIps w.trace
  /-- Only addresses of the local subnet itself are passed over. -/
  skipped : ∀ ip, (ip, .skipped) ∈ fs → P.skipsLocal ip = true
  /-- Hosts with any other fate have been connected to. -/
  connected : ∀ ip f, (ip, f) ∈ fs → f.connected = true → ip ∈ connectedIps w.trace

/-- A host that was connected to stays one, as the trace only grows. -/
theorem connectedIps_subset (hstep : TcpStep P w l w') (h : ip ∈ connectedIps w.trace) :
    ip ∈ connectedIps w'.trace := by
  obtain ⟨u, htrace, -⟩ := trace_step hstep
  rw [htrace, connectedIps, List.filterMap_append]
  exact List.mem_append_left _ h

/-- A step that gives the hosts `ips` the fate `f` keeps what the fates say, if the step does what
`f` tells. -/
theorem FateInv.settle (h : P.FateInv w fs) (hstep : TcpStep P w l w') {ips : List ℕ}
    (hfates : P.fates w l = ips.map fun ip => (ip, f))
    (hfound : w'.pc ≠ .thrown → w'.pc ≠ .destroyed → w.pc ≠ .thrown ∧ w.pc ≠ .destroyed ∧
      w'.st.scanResults.map (·.ip) =
        w.st.scanResults.map (·.ip) ++ if f == .found then ips else [])
    (hlost : lostIps w'.trace = lostIps w.trace ++ if f.lost then ips else [])
    (hskipped : f = .skipped → ∀ ip ∈ ips, P.skipsLocal ip = true)
    (hconnected : f.connected = true → ∀ ip ∈ ips, ip ∈ connectedIps w'.trace) :
    P.FateInv w' (fs ++ P.fates w l) := by
  -- every new fate is `f`, and its host is among `ips`
  have hmem : ∀ {ip f'}, (ip, f') ∈ P.fates w l → ip ∈ ips ∧ f' = f := by
    intro ip f' hmem
    rw [hfates] at hmem
    obtain ⟨ip, hip, heq⟩ := List.mem_map.mp hmem
    cases heq
    exact ⟨hip, rfl⟩
  refine ⟨fun ht hd => ?_, ?_, fun ip hip => ?_, fun ip f' hip hf => ?_⟩
  · obtain ⟨ht, hd, hresults⟩ := hfound ht hd
    rw [targetsWith_append, h.found ht hd, hresults, hfates, targetsWith_map]
  · rw [targetsWith_append, h.lost, hlost, hfates, targetsWith_map]
  · rcases List.mem_append.mp hip with hold | hnew
    · exact h.skipped ip hold
    · obtain ⟨hip, hf⟩ := hmem hnew
      exact hskipped hf.symm ip hip
  · rcases List.mem_append.mp hip with hold | hnew
    · exact connectedIps_subset hstep (h.connected ip f' hold hf)
    · obtain ⟨hip, rfl⟩ := hmem hnew
      exact hconnected hf ip hip

/-- Without a local failure no host is given up before `connect`. -/
theorem lostIps_kept (hstep : TcpStep P w l w') (hl : l.isLocalFailure = false) :
    lostIps w'.trace = lostIps w.trace := by
  rcases lostIps_step hstep with ⟨hsame, -⟩ | ⟨-, hfails⟩
  · exact hsame
  · rw [hl] at hfails
    cases hfails

/-- A step that gives no fate and adds no result keeps what the fates say. -/
theorem FateInv.quiet (h : P.FateInv w fs) (hstep : TcpStep P w l w') (hnone : P.fates w l = [])
    (hresults : w'.st.scanResults = w.st.scanResults) (hl : l.isLocalFailure = false)
    (hpc : w'.pc ≠ .thrown → w'.pc ≠ .destroyed → w.pc ≠ .thrown ∧ w.pc ≠ .destroyed) :
    P.FateInv w' (fs ++ P.fates w l) := by
  have hfate : P.fates w l = ([] : List ℕ).map fun ip => (ip, .skipped) := hnone
  refine h.settle hstep hfate (fun ht hd => ?_) ?_ (by simp) (by simp)
  · obtain ⟨ht, hd⟩ := hpc ht hd
    exact ⟨ht, hd, by rw [hresults]; exact (List.append_nil _).symm⟩
  · rw [lostIps_kept hstep hl]
    exact (List.append_nil _).symm

/-- `connect` was called for the host of an active probe, before its socket was registered. -/
theorem connected_of_active (hlogged : Logged w) {held : Option ℤ} (howned : P.Owned held w)
    {i : ℕ} {p : TcpProbeInfo} (hi : w.st.probeTable[i]? = some p) (hp : p.active = true) :
    p.destIp ∈ connectedIps w.trace := by
  obtain ⟨s, hs, -, hpeer⟩ := howned.socket_of_active hi hp
  exact List.mem_filterMap.mpr ⟨_, (hlogged.connect _ _ _ hs).mp hpeer, rfl⟩

/-- Every step keeps what the fates say. A step that gives a fate does what the fate tells, and the
others neither add a result nor lose a host. -/
theorem FateInv.step (hP : P.Ranged) (hown : P.OwnInv w) (hhosts : P.HostInv w)
    (hlogged : Logged w) (h : P.FateInv w fs) (hstep : TcpStep P w l w') :
    P.FateInv w' (fs ++ P.fates w l) := by
  have htaken := hstep
  cases hstep with
  | tick | complete | reset => exact h.quiet htaken (fates_env rfl) rfl rfl fun ht hd => ⟨ht, hd⟩
  | enter hpc | leave hpc | pollThrew hpc | pollTimeout hpc | pollFailed hpc | stale hpc
  | eventsDone hpc | pollEvents hpc | fcntlOk hpc | connected hpc | inProgress hpc
  | register hpc | socketOk hpc =>
    exact h.quiet htaken (by simp only [fates, hpc]) rfl rfl fun _ _ => by simp [hpc]
  | closedGate hpc hstop =>
    exact h.quiet htaken (by simp [fates, hpc, hstop]) rfl rfl fun _ _ => by simp [hpc]
  | noSlot hpc hgo hslot =>
    obtain ⟨i, p, hfind, -⟩ := (hown.owned (by simp [hpc])).findSlot hP hgo.2.1
    rw [hfind] at hslot
    omega
  | skip hpc hgo hlocal =>
    have hfate : P.fates w .run = [P.targetIp w.st].map fun ip => (ip, .skipped) := by
      simp only [fates, hpc, hgo, hlocal, and_self, if_true, List.map_singleton]
    refine h.settle htaken hfate (fun _ _ => by simp [hpc]) ?_ ?_ (by simp [TcpFate.connected])
    · rw [lostIps_kept htaken rfl]
      exact (List.append_nil _).symm
    · intro _ ip hip
      cases List.mem_singleton.mp hip
      exact hlocal
  | socketFail hpc hgo hlocal =>
    have hfate : P.fates w (.socket none) = [P.targetIp w.st].map fun ip => (ip, .noSocket) := by
      simp only [fates, hpc, List.map_singleton]
    refine h.settle htaken hfate (fun _ _ => by simp [hpc]) ?_ (by simp)
      (by simp [TcpFate.connected])
    simp [lostIps, TcpEvent.lostIp?, TcpFate.lost]
  | @fcntlFail n ip slot fd hpc =>
    have hfate : P.fates w (.fcntl false) = [ip].map fun ip => (ip, .noFlags) := by
      simp only [fates, hpc, List.map_singleton]
    refine h.settle htaken hfate (fun _ _ => by simp [hpc, closeSock]) ?_ (by simp)
      (by simp [TcpFate.connected])
    simp [lostIps, TcpEvent.lostIp?, TcpFate.lost, closeSock, List.filterMap_cons]
  | @connectFail n ip slot fd s hpc hs =>
    have hfate : P.fates w (.connect .failed) = [ip].map fun ip => (ip, .refused) := by
      simp only [fates, hpc, List.map_singleton]
    refine h.settle htaken hfate (fun _ _ => by simp [hpc, closeSock]) ?_ (by simp) ?_
    · rw [lostIps_kept htaken rfl]
      exact (List.append_nil _).symm
    · intro _ ip' hip
      cases List.mem_singleton.mp hip
      simp [connectedIps, closeSock, TcpEvent.connectedIp?]
  | @registerFail n ip slot fd s hpc hs =>
    have hfate : P.fates w (.epollAdd false) = [ip].map fun ip => (ip, .unregistered) := by
      simp only [fates, hpc, List.map_singleton]
    have hpeer : s.peer = some ip := (hown.single _ _ _ _ _ hpc).2 s hs
    refine h.settle htaken hfate (fun _ _ => by simp [hpc, closeSock]) ?_ (by simp) ?_
    · rw [lostIps_kept htaken rfl]
      exact (List.append_nil _).symm
    · intro _ ip' hip
      cases List.mem_singleton.mp hip
      have hcall := (hlogged.connect _ _ _ hs).mp hpeer
      exact connectedIps_subset htaken (List.mem_filterMap.mpr ⟨_, hcall, rfl⟩)
  | @success ev evs dns throws p so hpc hi hp hso herr st threw hout =>
    have hread : readSockErr none (w.kernel.socketAt p.sock) = some 0 := by
      rw [hso, readSockErr, Option.map_some, herr]
    have hcall := connected_of_active hlogged (hown.owned (by simp [hpc])) hi hp
    have hseen := hhosts.seen
    rw [hostsTried, hpc] at hseen
    have hnew : (P.probeResult w.kernel.clock dns p).ip ∉
        (retire ev.data w.st).scanResults.map (·.ip) := hseen.not_mem_results hi hp
    have hfate : P.fates w (.event none dns throws) = [p.destIp].map fun ip => (ip, .found) := by
      rw [fates_event hpc hi hread, if_pos rfl]
      rfl
    refine h.settle htaken hfate (fun ht _ => ?_) ?_ (by simp) ?_
    · have hthrew : threw = false := by
        cases threw with
        | true => exact absurd rfl ht
        | false => rfl
      subst hthrew
      rw [report_eq P throws hnew] at hout
      dsimp only at hout
      split at hout
      · cases hout
      · cases hout
        refine ⟨by simp [hpc], by simp [hpc], ?_⟩
        show (_ ++ [P.probeResult w.kernel.clock dns p]).map (·.ip) = _
        rw [List.map_append]
        rfl
    · rw [lostIps_kept htaken rfl]
      exact (List.append_nil _).symm
    · intro _ ip hip
      cases List.mem_singleton.mp hip
      exact connectedIps_subset htaken hcall
  | @failure ev evs getsockopt dns throws p sockErr hpc hi hp herr hne =>
    have hfate : P.fates w (.event getsockopt dns throws) =
        [p.destIp].map fun ip => (ip, .failed sockErr) := by
      rw [fates_event hpc hi herr, if_neg hne]
      rfl
    have hcall := connected_of_active hlogged (hown.owned (by simp [hpc])) hi hp
    refine h.settle htaken hfate (fun _ _ => by simp [hpc, retire]) ?_ (by simp) ?_
    · rw [lostIps_kept htaken rfl]
      exact (List.append_nil _).symm
    · intro _ ip hip
      cases List.mem_singleton.mp hip
      exact connectedIps_subset htaken hcall
  | reap hpc =>
    refine h.settle htaken (fates_reap hpc) (fun _ _ => ⟨by simp [hpc], by simp [hpc], ?_⟩) ?_
      (by simp) fun _ ip hip => ?_
    · exact (congrArg _ (P.ends_reap w.kernel.clock w).results).trans (List.append_nil _).symm
    · rw [lostIps_kept htaken rfl]
      exact (List.append_nil _).symm
    · -- an overdue probe is active
      obtain ⟨p, hp, rfl⟩ := List.mem_map.mp hip
      obtain ⟨hp, hold⟩ := List.mem_filter.mp hp
      obtain ⟨i, hi⟩ := List.mem_iff_getElem?.mp hp
      exact connectedIps_subset htaken (connected_of_active hlogged (hown.owned (by simp [hpc])) hi
        (of_decide_eq_true hold).1)
  | destroy hpc =>
    refine h.quiet htaken ?_ ?_ rfl fun _ hd => absurd rfl hd
    · rcases hpc with hpc | hpc <;> simp only [fates, hpc]
    · show (destroy w).st.scanResults = _
      rw [destroy_st]

/-! ### Runs -/

/-- Every run, with the fates it gives, is matched by a scan of its range. -/
theorem scans_of_reachable (hP : P.Ranged) (hs : P.Idle s₀)
    (hw : Reachable (withHistory P.step P.fates) (start s₀ clock, []) (w, fs)) :
    Scans P.maxProbes (.begin (List.range' P.baseIp P.totalHosts)) (P.scanOf (w, fs)) := by
  have hbegin : P.scanOf (start s₀ clock, []) = .begin (List.range' P.baseIp P.totalHosts) := by
    have hnil : keys TcpProbeInfo.dest? s₀.probeTable = [] :=
      keys_idle hs fun _ => TcpProbeInfo.dest?_eq_none.mpr
    show (⟨_, (keys TcpProbeInfo.dest? s₀.probeTable ++ [] : List ℕ), _⟩ : Scan ℕ TcpFate) = _
    rw [hnil]
    rfl
  rw [← hbegin]
  refine hw.reflTransGen P.scanOf ?_
  rintro ⟨u, us⟩ l ⟨v, vs⟩ hreach - hstep
  obtain ⟨hstep, rfl⟩ := withHistory_eq_some.mp hstep
  have hown := ownInv_of_reachable hP hs (Reachable.forget_history hreach)
  exact scans_step hP hown (step_cases hstep)

/-- The fates of every run say what they should, by induction on the run. -/
theorem fateInv_of_reachable (hP : P.Ranged) (hs : P.Idle s₀)
    (hw : Reachable (withHistory P.step P.fates) (start s₀ clock, []) (w, fs)) :
    P.FateInv w fs := by
  refine hw.invariant_of_runs (I := fun v => P.FateInv v.1 v.2)
    ⟨fun _ _ => rfl, rfl, nofun, nofun⟩ ?_
  rintro ⟨u, us⟩ l ⟨v, vs⟩ hreach h - hstep
  obtain ⟨hstep, rfl⟩ := withHistory_eq_some.mp hstep
  have hplain := Reachable.forget_history hreach
  exact h.step hP (ownInv_of_reachable hP hs hplain) (hostInv_of_reachable hP hs hplain)
    (logged_of_reachable hP hs hplain) (step_cases hstep)

/-- What the fates of a run that returned say about the range. -/
structure Decided (config : TcpScannerConfig) (routedIp : Option ℕ)
    (ifaddrs : Option (List IfAddrs)) (w : TcpWorld) (fs : List (ℕ × TcpFate)) : Prop where
  /-- Every address of the range has one fate, and no other address has any. -/
  once : (fs.map Prod.fst).Perm (List.range' config.baseIp config.totalHosts)
  /-- The hosts found are those of the results, in the same order. -/
  found : targetsWith (· == .found) fs = w.st.scanResults.map (·.ip)
  /-- The hosts passed over are the addresses of the local subnet itself. -/
  skipped : ∀ ip, (ip, .skipped) ∈ fs ↔
    (∃ h < config.totalHosts, ip = config.baseIp + h) ∧ IsSubnetAddress routedIp ifaddrs ip
  /-- `connect` was called for the hosts that were neither passed over nor given up before it. -/
  connected : ∀ ip, ip ∈ connectedIps w.trace ↔ ip ∈ targetsWith TcpFate.connected fs

section Decided

variable {config : TcpScannerConfig} {routedIp : Option ℕ} {ifaddrs : Option (List IfAddrs)}

/-- A run that returns has settled its range: nothing is ahead and nothing outstanding. -/
theorem map_fst_of_returned (hP : P.Ranged) (hs : P.Idle s₀)
    (hw : Reachable (withHistory P.step P.fates) (start s₀ clock, []) (w, fs))
    (hret : w.pc = .returned) :
    (fs.map Prod.fst).Perm (List.range' P.baseIp P.totalHosts) := by
  have hplain : Reachable P.step (start s₀ clock) w := Reachable.forget_history hw
  have hahead : (P.scanOf (w, fs)).ahead = [] := by
    show List.range' _ (P.totalHosts - w.st.nextHostIdx) = []
    rw [Nat.sub_eq_zero_of_le (left_of_returned hplain hret).1, List.range'_zero]
  have hout : (P.scanOf (w, fs)).out = 0 := by
    have hidle := idle_of_returned hP hs hplain hret
    show ((keys _ w.st.probeTable ++ w.pc.heldIp?.toList : List ℕ) : Multiset ℕ) = 0
    rw [keys_idle hidle fun _ => TcpProbeInfo.dest?_eq_none.mpr, hret]
    rfl
  exact Multiset.coe_eq_coe.mp ((scans_of_reachable hP hs hw).map_settled hahead hout)

/-- A host that was not passed over was to be probed. -/
theorem FateInv.mem_hostsToProbe (h : P.FateInv w fs) {c : ℕ}
    (hprobe : (connectedIps w.trace ++ lostIps w.trace).Perm (P.hostsToProbe c))
    (hmem : (ip, f) ∈ fs) (hne : f ≠ .skipped) : ip ∈ P.hostsToProbe c := by
  refine hprobe.subset ?_
  rcases f.cases_kind with hskip | hlost | hconn
  · exact absurd hskip hne
  · rw [← h.lost]
    exact List.mem_append_right _ (mem_targetsWith.mpr ⟨f, hlost, hmem⟩)
  · exact List.mem_append_left _ (h.connected ip f hmem hconn)

/-- The hosts passed over are those that the skip test finds. -/
theorem FateInv.skipped_iff (h : P.FateInv w fs)
    (hprobe : (connectedIps w.trace ++ lostIps w.trace).Perm (P.hostsToProbe P.totalHosts))
    (hfate : (ip, f) ∈ fs) : (ip, .skipped) ∈ fs ↔ P.skipsLocal ip = true := by
  refine ⟨h.skipped ip, fun hlocal => ?_⟩
  by_contra hnot
  have hne : f ≠ .skipped := fun hf => hnot (hf ▸ hfate)
  obtain ⟨i, hi, heq, hno⟩ := TcpScanner.mem_hostsToProbe.mp (h.mem_hostsToProbe hprobe hfate hne)
  exact absurd (hlocal.symm.trans hno) (by decide)

/-- The hosts connected to are those with a fate that says so. -/
theorem FateInv.connected_iff (h : P.FateInv w fs)
    (hprobe : (connectedIps w.trace ++ lostIps w.trace).Perm (P.hostsToProbe P.totalHosts))
    (hall : ∀ ip ∈ P.hostsToProbe P.totalHosts, ∃ f, (ip, f) ∈ fs) :
    ip ∈ connectedIps w.trace ↔ ip ∈ targetsWith TcpFate.connected fs := by
  rw [mem_targetsWith]
  constructor
  · intro hcall
    have hto := hprobe.subset (List.mem_append_left _ hcall)
    obtain ⟨f, hmem⟩ := hall ip hto
    refine ⟨f, ?_, hmem⟩
    rcases f.cases_kind with hskip | hlost | hconn
    · -- a host passed over is not to be probed
      subst hskip
      obtain ⟨-, -, -, hno⟩ := TcpScanner.mem_hostsToProbe.mp hto
      exact absurd ((h.skipped ip hmem).symm.trans hno) (by decide)
    · -- a host given up is none of those connected to
      have hgiven := mem_targetsWith.mpr ⟨f, hlost, hmem⟩
      rw [h.lost] at hgiven
      have hnodup := hprobe.nodup_iff.mpr nodup_hostsToProbe
      exact absurd rfl ((List.nodup_append.mp hnodup).2.2 _ hcall _ hgiven)
    · exact hconn
  · rintro ⟨f, hf, hmem⟩
    exact h.connected ip f hmem hf

/-- **One fate each.** A run on a scanner for a parsed range is, with the fates it gives, a scan of
the range through a window of `max_probes_` hosts: in every state at most that many hosts are
outstanding, the one in `initiate_single_connection` included. When it returns, every address of
the range has got exactly one fate. -/
theorem one_fate_each {input : CString}
    (hparse : parseCidr input = some (config.baseIp, config.totalHosts))
    (hs : (construct config routedIp ifaddrs).Idle s₀)
    (hw : Reachable (withHistory (construct config routedIp ifaddrs).step
      (construct config routedIp ifaddrs).fates) (start s₀ clock, []) (w, fs)) :
    Scans (construct config routedIp ifaddrs).maxProbes
      (.begin (List.range' config.baseIp config.totalHosts))
      ((construct config routedIp ifaddrs).scanOf (w, fs)) ∧
    (keys TcpProbeInfo.dest? w.st.probeTable ++ w.pc.heldIp?.toList).length ≤
      (construct config routedIp ifaddrs).maxProbes ∧
    (w.pc = .returned → Decided config routedIp ifaddrs w fs) := by
  have hP := ranged_construct hparse routedIp ifaddrs
  have hscan := scans_of_reachable hP hs hw
  refine ⟨hscan, hscan.card_out_le, fun hret => ?_⟩
  have hplain : Reachable (construct config routedIp ifaddrs).step (start s₀ clock) w :=
    Reachable.forget_history hw
  have hfate := fateInv_of_reachable hP hs hw
  -- the window is empty and nothing is ahead, so the fates are those of the whole range
  have honce : (fs.map Prod.fst).Perm (List.range' config.baseIp config.totalHosts) :=
    map_fst_of_returned hP hs hw hret
  have hprobe := perm_hostsToProbe_of_returned hP hs hplain hret
  have hgiven : ∀ h < config.totalHosts, ∃ f, (config.baseIp + h, f) ∈ fs := fun h hlt =>
    (exists_fate_iff honce).mpr (List.mem_range'_1.mpr ⟨by omega, by omega⟩)
  refine ⟨honce, hfate.found (by rw [hret]; nofun) (by rw [hret]; nofun), fun ip => ?_,
    fun ip => hfate.connected_iff hprobe ?_⟩
  · constructor
    · intro hskip
      obtain ⟨hlo, hhi⟩ := List.mem_range'_1.mp ((exists_fate_iff honce).mp ⟨_, hskip⟩)
      obtain ⟨h, rfl⟩ := Nat.exists_eq_add_of_le hlo
      have hlt : h < config.totalHosts := by omega
      exact ⟨⟨h, hlt, rfl⟩, (skips_construct hP hlt).mp (hfate.skipped _ hskip)⟩
    · rintro ⟨⟨h, hlt, rfl⟩, hsub⟩
      obtain ⟨f, hmem⟩ := hgiven h hlt
      exact (hfate.skipped_iff hprobe hmem).mpr ((skips_construct hP hlt).mpr hsub)
  · intro ip hto
    obtain ⟨h, hlt, rfl, -⟩ := mem_hostsToProbe.mp hto
    exact hgiven h hlt

/-- `10.0.0.8/31` with one slot: there is no socket for the first host, the second one connects. -/
theorem one_fate_each_pair : ∃ (w : TcpWorld) (fs : List (ℕ × TcpFate)), w.pc = .returned ∧
    w.st.scanResults.map (·.ip) = [167772169] ∧
    Decided { baseIp := 167772168, totalHosts := 2, maxProbes := 1 } none none w fs := by
  obtain ⟨w, hw, hp⟩ := exists_reachable_of_exec
    (M := (construct { baseIp := 167772168, totalHosts := 2, maxProbes := 1 } none none).step)
    (s := start (construct { baseIp := 167772168, totalHosts := 2, maxProbes := 1 }
      none none).initialState {})
    [.run, .socket none, .socket (some 5), .fcntl true, .connect .inProgress, .epollAdd true,
      .run, .complete 5 0, .epollWait (.events [⟨0, 0⟩]), .event none none false, .run, .run, .run]
    (fun w => w.pc == .returned && w.st.scanResults.map (·.ip) == [167772169]) (by decide)
  simp only [Bool.and_eq_true, beq_iff_eq] at hp
  have hparse : parseCidr [49, 48, 46, 48, 46, 48, 46, 56, 47, 51, 49] = some (167772168, 2) := by
    decide
  obtain ⟨fs, hfs⟩ := hw.exists_history
    (r := (construct { baseIp := 167772168, totalHosts := 2, maxProbes := 1 }
      none none).fates) []
  exact ⟨w, fs, hp.1, hp.2, (one_fate_each hparse (idle_initialState _) hfs).2.2 hp.1⟩

end Decided

end TcpScanner

end Netscan
