import Netscan.Tcp.SlotSafety

/-! # Which hosts a TCP run connects to

`initiate_single_connection` takes a host off the range before it asks for a socket, and reports
success on every later exit. So the hosts that the cursor has passed are those that `connect` was
called for, those given up by a failing `socket` or `fcntl` call, and the one in between
(`CoverInv`): coverage is exact in the runs without such a failure, and in no others. -/

namespace Netscan

open MachineInt SlotTable LabelledSystem

/-- The host that a `connect` call is for, if the event is one. -/
def TcpEvent.connectedIp? : TcpEvent → Option ℕ
  | .connect ip _ => some ip
  | _ => none

/-- The host that a failing call before its `connect` gives up, if the event is one. -/
def TcpEvent.lostIp? : TcpEvent → Option ℕ
  | .socketFailed ip | .fcntlFailed ip => some ip
  | _ => none

/-- The host that `initiate_single_connection` has taken and not called `connect` for. -/
def TcpPc.pendingIp? : TcpPc → Option ℕ
  | .single .opened _ _ ip _ | .single .nonblocking _ _ ip _ => some ip
  | _ => none

/-- A system call for a host fails before its `connect`: there is no socket for it, or the socket
cannot be made non-blocking. -/
def TcpLabel.isLocalFailure : TcpLabel → Bool
  | .socket none | .fcntl false => true
  | _ => false

namespace TcpScanner

/-- The hosts that `connect` was called for, in the order of the calls. -/
def connectedIps (t : List TcpEvent) : List ℕ := t.filterMap TcpEvent.connectedIp?

/-- The hosts given up before their `connect`, in the order of the failures. -/
def lostIps (t : List TcpEvent) : List ℕ := t.filterMap TcpEvent.lostIp?

variable {P : TcpScanner} {s₀ : TcpState} {clock : Timespec} {w w' : TcpWorld} {l : TcpLabel}
  {u : List TcpEvent} {c : ℕ}

/-! ### The hosts to be probed -/

/-- The hosts among the first `c` of the range that are no address of the local subnet itself. -/
def hostsToProbe (P : TcpScanner) (c : ℕ) : List ℕ :=
  ((List.range c).map (P.baseIp + ·)).filter fun ip => !P.skipsLocal ip

/-- One more host, unless it is an address of the local subnet itself. -/
theorem hostsToProbe_succ (P : TcpScanner) (c : ℕ) :
    P.hostsToProbe (c + 1) =
      P.hostsToProbe c ++ if P.skipsLocal (P.baseIp + c) then [] else [P.baseIp + c] := by
  rw [hostsToProbe, List.range_succ, List.map_append, List.filter_append, List.map_singleton,
    List.filter_singleton, hostsToProbe]
  cases P.skipsLocal (P.baseIp + c) <;> rfl

/-- Hosts are distinct, as the addresses of a range are. -/
theorem nodup_hostsToProbe : (P.hostsToProbe c).Nodup :=
  (List.nodup_range.map fun _ _ h => Nat.add_left_cancel h).filter _

/-- A host is to be probed if it lies before the cursor and is no address of the local subnet
itself. -/
theorem mem_hostsToProbe {ip : ℕ} :
    ip ∈ P.hostsToProbe c ↔ ∃ h < c, ip = P.baseIp + h ∧ P.skipsLocal ip = false := by
  simp only [hostsToProbe, List.mem_filter, List.mem_map, List.mem_range, Bool.not_eq_true']
  constructor
  · rintro ⟨⟨h, hlt, rfl⟩, hlocal⟩
    exact ⟨h, hlt, rfl, hlocal⟩
  · rintro ⟨h, hlt, rfl, hlocal⟩
    exact ⟨⟨h, hlt, rfl⟩, hlocal⟩

/-- A scanner skips the network and broadcast address of the interface that `fetch` selects. -/
theorem skips_construct {config : TcpScannerConfig} {routedIp : Option ℕ}
    {ifaddrs : Option (List IfAddrs)} (hP : (construct config routedIp ifaddrs).Ranged) {h : ℕ}
    (hlt : h < config.totalHosts) :
    (construct config routedIp ifaddrs).skipsLocal (config.baseIp + h) = true ↔
      IsSubnetAddress routedIp ifaddrs (config.baseIp + h) := by
  have hfits : config.baseIp + config.totalHosts ≤ 2 ^ 32 := hP.fits
  have hhosts : config.totalHosts ≤ 2 ^ 31 := hP.hosts
  have hcast : u32 config.totalHosts = config.totalHosts := u32_of_lt (by omega)
  rw [← fetch_skips routedIp ifaddrs hfits hlt]
  simp [skipsLocal, construct, hcast]

/-! ### The invariant -/

/-- The hosts that the cursor has passed, by what became of them. -/
def takenIps (w : TcpWorld) : List ℕ :=
  connectedIps w.trace ++ lostIps w.trace ++ w.pc.pendingIp?.toList

/-- No host to be probed is passed over, and none is taken twice. -/
def CoverInv (P : TcpScanner) (w : TcpWorld) : Prop :=
  (takenIps w).Perm (P.hostsToProbe w.st.nextHostIdx)

/-- What a step logs decides what becomes of hosts: they are connected to, given up or still
pending. -/
theorem takenIps_append (htrace : w'.trace = w.trace ++ u) :
    (takenIps w').Perm ((connectedIps w.trace ++ lostIps w.trace) ++
      (connectedIps u ++ lostIps u ++ w'.pc.pendingIp?.toList)) := by
  have hconnected : connectedIps w'.trace = connectedIps w.trace ++ connectedIps u := by
    rw [htrace, connectedIps, List.filterMap_append]
    rfl
  have hlost : lostIps w'.trace = lostIps w.trace ++ lostIps u := by
    rw [htrace, lostIps, List.filterMap_append]
    rfl
  rw [takenIps, hconnected, hlost]
  simp only [List.append_assoc]
  -- the new `connect` calls move over the old losses
  apply List.Perm.append_left
  exact List.perm_append_comm_assoc _ _ _

/-- Steps that take no host and give none up keep the coverage. -/
theorem CoverInv.quiet (h : P.CoverInv w) (htrace : w'.trace = w.trace ++ u)
    (hu : ∀ e ∈ u, e.connectedIp? = none ∧ e.lostIp? = none)
    (hpc : w'.pc.pendingIp? = w.pc.pendingIp?) (hcursor : w'.st.nextHostIdx = w.st.nextHostIdx) :
    P.CoverInv w' := by
  have hconnected : connectedIps u = [] := List.filterMap_eq_nil_iff.mpr fun e he => (hu e he).1
  have hlost : lostIps u = [] := List.filterMap_eq_nil_iff.mpr fun e he => (hu e he).2
  have htaken := takenIps_append htrace
  rw [hconnected, hlost, hpc] at htaken
  rw [CoverInv, hcursor]
  exact htaken.trans h

/-- The host that `initiate_single_connection` has taken is connected to or given up. -/
theorem CoverInv.settle (h : P.CoverInv w) {ip : ℕ} (hpending : w.pc.pendingIp? = some ip)
    (htrace : w'.trace = w.trace ++ u) (hu : connectedIps u ++ lostIps u = [ip])
    (hpc : w'.pc.pendingIp? = none) (hcursor : w'.st.nextHostIdx = w.st.nextHostIdx) :
    P.CoverInv w' := by
  have htaken := takenIps_append htrace
  rw [hu, hpc] at htaken
  have hbefore : (takenIps w).Perm (P.hostsToProbe w.st.nextHostIdx) := h
  rw [takenIps, hpending] at hbefore
  rw [CoverInv, hcursor]
  exact htaken.trans hbefore

/-- The cursor takes a host: it is skipped, given up at once, or pending from now on. -/
theorem CoverInv.take (hP : P.Ranged) (h : P.CoverInv w) (hlt : w.st.nextHostIdx < P.totalHosts)
    (hpending : w.pc.pendingIp? = none) (htrace : w'.trace = w.trace ++ u)
    (hu : connectedIps u ++ lostIps u ++ w'.pc.pendingIp?.toList =
      if P.skipsLocal (P.targetIp w.st) then [] else [P.targetIp w.st])
    (hcursor : w'.st.nextHostIdx = w.st.nextHostIdx + 1) : P.CoverInv w' := by
  have htaken := takenIps_append htrace
  have hbefore : (takenIps w).Perm (P.hostsToProbe w.st.nextHostIdx) := h
  rw [takenIps, hpending] at hbefore
  rw [targetIp_eq hP hlt] at hu
  rw [hu] at htaken
  rw [CoverInv, hcursor, hostsToProbe_succ]
  refine htaken.trans (List.Perm.append_right _ ?_)
  simpa using hbefore

/-- Every step keeps the coverage: the cursor takes hosts one by one, and each taken host goes one
way. -/
theorem CoverInv.step (hP : P.Ranged) (h : P.CoverInv w) (hstep : TcpStep P w l w') :
    P.CoverInv w' := by
  cases hstep with
  | tick | reset | enter hpc | leave hpc | noSlot hpc | closedGate hpc | pollThrew hpc
  | pollTimeout hpc
  | pollFailed hpc | stale hpc | eventsDone hpc =>
    exact h.quiet (List.append_nil _).symm nofun (by simp_all [TcpPc.pendingIp?]) rfl
  | complete =>
    exact h.quiet rfl (by simp [TcpEvent.connectedIp?, TcpEvent.lostIp?]) rfl rfl
  | fcntlOk hpc =>
    -- the host stays taken
    refine h.quiet (List.append_nil _).symm nofun ?_ rfl
    rw [hpc]
    rfl
  | skip hpc hgo hlocal =>
    refine h.take hP hgo.1 ?_ rfl ?_ rfl
    · rw [hpc]
      rfl
    · rw [if_pos hlocal]
      rfl
  | socketFail hpc hgo hlocal =>
    refine h.take hP hgo.1 ?_ rfl ?_ rfl
    · rw [hpc]
      rfl
    · rw [hlocal]
      rfl
  | socketOk hpc hgo hlocal =>
    refine h.take hP hgo.1 ?_ (List.append_nil _).symm ?_ rfl
    · rw [hpc]
      rfl
    · rw [hlocal]
      rfl
  | fcntlFail hpc => exact h.settle (by rw [hpc]; rfl) (List.append_assoc _ _ _) rfl rfl rfl
  | connected hpc | inProgress hpc => exact h.settle (by rw [hpc]; rfl) rfl rfl rfl rfl
  | connectFail hpc => exact h.settle (by rw [hpc]; rfl) (List.append_assoc _ _ _) rfl rfl rfl
  | register hpc | registerFail hpc =>
    refine h.quiet rfl ?_ ?_ rfl
    · simp [TcpEvent.connectedIp?, TcpEvent.lostIp?]
    · rw [hpc]
      rfl
  | pollEvents hpc =>
    refine h.quiet rfl (fun e he => ?_) ?_ rfl
    · obtain ⟨ev, -, rfl⟩ := List.mem_map.mp he
      exact ⟨rfl, rfl⟩
    · rw [hpc]
      rfl
  | @success ev evs dns throws p so hpc hi hp hso herr s threw hout =>
    have hframe := P.report_frame throws (P.probeResult w.kernel.clock dns p) (retire ev.data w.st)
    rw [hout] at hframe
    refine h.quiet rfl ?_ ?_ hframe.2.2
    · simp [TcpEvent.connectedIp?, TcpEvent.lostIp?]
    · rw [hpc]
      cases threw <;> rfl
  | failure hpc =>
    refine h.quiet rfl ?_ ?_ rfl
    · simp [TcpEvent.connectedIp?, TcpEvent.lostIp?]
    · rw [hpc]
      rfl
  | reap hpc =>
    have hends := P.ends_reap w.kernel.clock w
    obtain ⟨ids, ht⟩ := hends.trace
    refine h.quiet ht (fun e he => ?_) ?_ hends.cursor
    · obtain ⟨id, -, rfl⟩ := List.mem_map.mp he
      exact ⟨rfl, rfl⟩
    · rw [hpc]
      rfl
  | destroy hpc =>
    have hends := ends_destroy w
    obtain ⟨ids, ht⟩ := hends.trace
    refine h.quiet ht (fun e he => ?_) ?_ hends.cursor
    · obtain ⟨id, -, rfl⟩ := List.mem_map.mp he
      exact ⟨rfl, rfl⟩
    · rcases hpc with hpc | hpc <;> rw [hpc] <;> rfl

/-- **In every reachable state the cursor has passed the hosts connected to, those given up and the
one in between, each once.** -/
theorem coverInv_of_reachable (hP : P.Ranged) (hw : Reachable P.step (start s₀ clock) w) :
    P.CoverInv w :=
  hw.invariant (I := P.CoverInv) (List.Perm.refl _)
    fun _ _ _ h _ hstep => h.step hP (step_cases hstep)

/-! ### Runs without a local failure -/

/-- The hosts given up by a step are those of a local failure, and every local failure gives one
up. -/
theorem lostIps_step (hstep : TcpStep P w l w') :
    lostIps w'.trace = lostIps w.trace ∧ l.isLocalFailure = false ∨
      lostIps w'.trace ≠ [] ∧ l.isLocalFailure = true := by
  cases hl : l.isLocalFailure with
  | false =>
    left
    obtain ⟨u, htrace, hu⟩ := trace_step hstep
    -- the two events that give a host up are logged by local failures only
    have hnil : u.filterMap TcpEvent.lostIp? = [] := by
      rw [List.filterMap_eq_nil_iff]
      intro e he
      have hlogs := hu e he
      cases e with
      | socketFailed | fcntlFailed =>
        cases hlogs
        cases hl
      | _ => rfl
    refine ⟨?_, rfl⟩
    rw [htrace, lostIps, List.filterMap_append, hnil, List.append_nil]
    rfl
  | true =>
    right
    cases hstep with
    | socketFail | fcntlFail => simp [lostIps, TcpEvent.lostIp?]
    | _ => cases hl

/-- A run gives a host up exactly if one of its steps is a local failure. By induction on the run,
both ways. -/
theorem lostIps_eq_nil_iff (hw : Reachable P.step (start s₀ clock) w) :
    lostIps w.trace = [] ↔
      Runs P.step (fun _ l => l.isLocalFailure = false) (start s₀ clock) w := by
  constructor
  · intro hnil
    induction hw with
    | refl => exact .refl
    | tail _ _ hstep ih =>
      rcases lostIps_step (step_cases hstep) with ⟨hsame, hlabel⟩ | ⟨hne, -⟩
      · exact (ih (hsame ▸ hnil)).tail hlabel hstep
      · exact absurd hnil hne
  · intro hrun
    refine hrun.invariant (I := fun w => lostIps w.trace = []) rfl ?_
    intro u l v hnil hok hstep
    rcases lostIps_step (step_cases hstep) with ⟨hsame, -⟩ | ⟨-, hlabel⟩
    · exact hsame.trans hnil
    · rw [hok] at hlabel
      cases hlabel

/-! ### Exact coverage -/

/-- `connect` was called once for every address of the range that is not the network or broadcast
address of the selected interface, and for no other address. -/
structure ConnectsExactly (config : TcpScannerConfig) (routedIp : Option ℕ)
    (ifaddrs : Option (List IfAddrs)) (t : List TcpEvent) : Prop where
  /-- It was called at most once for an address. -/
  once : (connectedIps t).Nodup
  /-- The addresses that it was called for. -/
  hosts : ∀ ip, ip ∈ connectedIps t ↔ ∃ h < config.totalHosts, ip = config.baseIp + h ∧
    ¬ IsSubnetAddress routedIp ifaddrs ip

/-- A run that returns has settled every host to be probed. -/
theorem perm_hostsToProbe_of_returned (hP : P.Ranged) (hs : P.Idle s₀)
    (hw : Reachable P.step (start s₀ clock) w) (hret : w.pc = .returned) :
    (connectedIps w.trace ++ lostIps w.trace).Perm (P.hostsToProbe P.totalHosts) := by
  have hcover := coverInv_of_reachable hP hw
  have hlast : w.st.nextHostIdx = P.totalHosts :=
    le_antisymm (hostInv_of_reachable hP hs hw).cursor (left_of_returned hw hret).1
  rw [CoverInv, takenIps, hret, hlast] at hcover
  rwa [show TcpPc.returned.pendingIp?.toList = ([] : List ℕ) from rfl, List.append_nil] at hcover

/-- The hosts to be probed of a scanner for a parsed range. -/
theorem mem_hostsToProbe_construct {config : TcpScannerConfig} {routedIp : Option ℕ}
    {ifaddrs : Option (List IfAddrs)} (hP : (construct config routedIp ifaddrs).Ranged) {ip : ℕ} :
    ip ∈ (construct config routedIp ifaddrs).hostsToProbe config.totalHosts ↔
      ∃ h < config.totalHosts, ip = config.baseIp + h ∧ ¬ IsSubnetAddress routedIp ifaddrs ip := by
  rw [mem_hostsToProbe]
  constructor
  · rintro ⟨h, hlt, rfl, hlocal⟩
    refine ⟨h, hlt, rfl, fun hsub => ?_⟩
    have hskip := (skips_construct hP hlt).mpr hsub
    exact absurd (hskip.symm.trans hlocal) (by decide)
  · rintro ⟨h, hlt, rfl, hsub⟩
    refine ⟨h, hlt, rfl, ?_⟩
    exact Bool.eq_false_iff.mpr fun hskip => hsub ((skips_construct hP hlt).mp hskip)

/-- **When TCP coverage is exact.** In a run that returns, on a scanner for a parsed range, coverage
is exact if and only if no `socket` and no `fcntl` call of the run fails. -/
theorem connects_exactly_iff {input : CString} {config : TcpScannerConfig}
    (hparse : parseCidr input = some (config.baseIp, config.totalHosts)) (routedIp : Option ℕ)
    (ifaddrs : Option (List IfAddrs)) {s₀ : TcpState}
    (hs : (construct config routedIp ifaddrs).Idle s₀) (clock : Timespec) {w : TcpWorld}
    (hw : Reachable (construct config routedIp ifaddrs).step (start s₀ clock) w)
    (hret : w.pc = .returned) :
    ConnectsExactly config routedIp ifaddrs w.trace ↔
      Runs (construct config routedIp ifaddrs).step (fun _ l => l.isLocalFailure = false)
        (start s₀ clock) w := by
  have hP := ranged_construct hparse routedIp ifaddrs
  have hperm : (connectedIps w.trace ++ lostIps w.trace).Perm
      ((construct config routedIp ifaddrs).hostsToProbe config.totalHosts) :=
    perm_hostsToProbe_of_returned hP hs hw hret
  rw [← lostIps_eq_nil_iff hw]
  constructor
  · intro hexact
    by_contra hne
    obtain ⟨ip, hlost⟩ := List.exists_mem_of_ne_nil _ hne
    -- a host given up is to be probed, so exact coverage has it connected to as well
    have hprobe := hperm.subset (List.mem_append_right _ hlost)
    have hconnected := (hexact.hosts ip).mpr ((mem_hostsToProbe_construct hP).mp hprobe)
    have hnodup := hperm.nodup_iff.mpr nodup_hostsToProbe
    exact (List.nodup_append.mp hnodup).2.2 ip hconnected ip hlost rfl
  · intro hnil
    rw [hnil, List.append_nil] at hperm
    refine ⟨hperm.nodup_iff.mpr nodup_hostsToProbe, fun ip => ?_⟩
    rw [hperm.mem_iff]
    exact mem_hostsToProbe_construct hP

/-- `10.0.0.8/31` with one slot: a refused connection and a failing registration give no host up. -/
theorem connects_exactly_iff_pair : ∃ w : TcpWorld, w.pc = .returned ∧
    ConnectsExactly { baseIp := 167772168, totalHosts := 2, maxProbes := 1 } none none w.trace := by
  obtain ⟨w, hw, hp⟩ := exists_runs_of_execWhen
    (M := (construct { baseIp := 167772168, totalHosts := 2, maxProbes := 1 } none none).step)
    (s := start (construct { baseIp := 167772168, totalHosts := 2, maxProbes := 1 }
      none none).initialState {})
    (fun _ l => l.isLocalFailure = false)
    [.run, .socket (some 5), .fcntl true, .connect .failed, .socket (some 5), .fcntl true,
      .connect .inProgress, .epollAdd false, .run, .epollWait .timeout, .run, .run]
    (fun w => w.pc == .returned) (by decide)
  have hret : w.pc = .returned := by simpa using hp
  have hparse : parseCidr [49, 48, 46, 48, 46, 48, 46, 56, 47, 51, 49] = some (167772168, 2) := by
    decide
  exact ⟨w, hret, (connects_exactly_iff hparse none none (idle_initialState _) _ hw.reachable
    hret).mpr hw⟩

/-- `10.0.0.8/31` with the default sizes: `socket` fails for the second host while the first holds a
descriptor. The first host connects and the run returns; the second was never connected to. -/
theorem not_connects_exactly :
    parseCidr [49, 48, 46, 48, 46, 48, 46, 56, 47, 51, 49] = some (167772168, 2) ∧
    ∃ w : TcpWorld, Reachable (construct { baseIp := 167772168, totalHosts := 2 } none none).step
        (start (construct { baseIp := 167772168, totalHosts := 2 } none none).initialState {}) w ∧
      w.pc = .returned ∧ connectedIps w.trace = [167772168] ∧
      ¬ ConnectsExactly { baseIp := 167772168, totalHosts := 2 } none none w.trace := by
  refine ⟨by decide, ?_⟩
  obtain ⟨w, hw, hp⟩ := exists_reachable_of_exec
    (M := (construct { baseIp := 167772168, totalHosts := 2 } none none).step)
    (s := start (construct { baseIp := 167772168, totalHosts := 2 } none none).initialState {})
    [.run, .socket (some 5), .fcntl true, .connect .inProgress, .epollAdd true, .socket none, .run,
      .complete 5 0, .epollWait (.events [⟨0, 0⟩]), .event none none false, .run, .run, .run]
    (fun w => w.pc == .returned && connectedIps w.trace == [167772168]) (by decide)
  simp only [Bool.and_eq_true, beq_iff_eq] at hp
  refine ⟨w, hw, hp.1, hp.2, fun hexact => ?_⟩
  -- without an interface no address of the range is left out
  have hmem := (hexact.hosts 167772169).mpr ⟨1, by decide, rfl, ?_⟩
  · rw [hp.2] at hmem
    revert hmem
    decide
  · rintro ⟨a, m, hselected, -⟩
    cases hselected

end TcpScanner

end Netscan
