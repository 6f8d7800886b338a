import Netscan.Tcp.Frame

/-! # Every reachable state of a TCP run keeps its books

The hosts of the results and of the active probes are pairwise distinct and lie before the cursor
(`Seen`), so no host is probed twice. With the ownership of sockets this gives the books of a scan,
in every state that `run()` can reach. -/

namespace Netscan

open MachineInt SlotTable LabelledSystem Descriptors

/-- The host that a probe-table entry holds, while the entry is active. -/
def TcpProbeInfo.dest? (p : TcpProbeInfo) : Option ℕ := if p.active then some p.destIp else none

theorem TcpProbeInfo.dest?_eq_some {p : TcpProbeInfo} {ip : ℕ} :
    p.dest? = some ip ↔ p.active = true ∧ p.destIp = ip := by
  unfold dest?
  split <;> simp_all

theorem TcpProbeInfo.dest?_eq_none {p : TcpProbeInfo} : p.dest? = none ↔ p.active = false := by
  unfold dest?
  split <;> simp_all

namespace TcpScanner

variable {P : TcpScanner} {s s₀ : TcpState} {clock : Timespec} {w w' : TcpWorld} {l : TcpLabel}
  {c i : ℕ} {p : TcpProbeInfo}

/-! ### Hosts are probed once -/

/-- The hosts of the results and of the active probes: those that the scanner has in its books. -/
def seenIps (s : TcpState) : List ℕ :=
  s.scanResults.map (·.ip) ++ keys TcpProbeInfo.dest? s.probeTable

/-- The hosts seen are distinct and among the first `c` of the range. -/
structure Seen (P : TcpScanner) (c : ℕ) (s : TcpState) : Prop where
  /-- No host is seen twice. -/
  nodup : (seenIps s).Nodup
  /-- The hosts seen are before the cursor. -/
  range : ∀ ip ∈ seenIps s, P.baseIp ≤ ip ∧ ip < P.baseIp + c

/-- The hosts seen decide, so the invariant is kept by whatever leaves them. -/
theorem Seen.congr {s' : TcpState} (h : P.Seen c s) (hseen : seenIps s' = seenIps s) :
    P.Seen c s' :=
  ⟨hseen ▸ h.nodup, hseen ▸ h.range⟩

/-- The cursor may be further on: the hosts seen are then still behind it. -/
theorem Seen.mono {c' : ℕ} (h : P.Seen c s) (hle : c ≤ c') : P.Seen c' s := by
  refine ⟨h.nodup, fun ip hip => ?_⟩
  obtain ⟨hlo, hhi⟩ := h.range ip hip
  omega

/-- The host of an active probe is not in the results, as no host is seen twice. -/
theorem Seen.not_mem_results (h : P.Seen c s) (hi : s.probeTable[i]? = some p)
    (hp : p.active = true) : p.destIp ∉ s.scanResults.map (·.ip) := by
  have hkey : p.destIp ∈ keys TcpProbeInfo.dest? s.probeTable :=
    mem_keys.mpr ⟨i, p, hi, TcpProbeInfo.dest?_eq_some.mpr ⟨hp, rfl⟩⟩
  intro hmem
  exact (List.nodup_append.mp h.nodup).2.2 _ hmem _ hkey rfl

/-- Ending a probe takes its host from the active ones, and leaves the others. -/
theorem perm_retire (hi : s.probeTable[i]? = some p) (hp : p.active = true) :
    (keys TcpProbeInfo.dest? s.probeTable).Perm
      (p.destIp :: keys TcpProbeInfo.dest? (retire i s).probeTable) := by
  rw [retire, probeAt_of_getElem? hi]
  exact keys_release hi (TcpProbeInfo.dest?_eq_some.mpr ⟨hp, rfl⟩) rfl

/-- Ending a probe forgets its host, which keeps the others distinct. -/
theorem Seen.retire (h : P.Seen c s) (hi : s.probeTable[i]? = some p) (hp : p.active = true) :
    P.Seen c (TcpScanner.retire i s) := by
  have hperm : (seenIps s).Perm (p.destIp :: seenIps (TcpScanner.retire i s)) :=
    ((perm_retire hi hp).append_left _).trans List.perm_middle
  refine ⟨((hperm.nodup_iff.mp h.nodup).of_cons), fun ip hip => h.range ip ?_⟩
  exact hperm.symm.subset (List.mem_cons_of_mem _ hip)

/-- Ending a probe and storing a result for its host keeps the hosts seen. -/
theorem Seen.found (h : P.Seen c s) (hi : s.probeTable[i]? = some p) (hp : p.active = true)
    {s' : TcpState} (htable : s'.probeTable = (TcpScanner.retire i s).probeTable)
    (hresults : s'.scanResults.map (·.ip) = s.scanResults.map (·.ip) ++ [p.destIp]) :
    P.Seen c s' := by
  have hperm : (seenIps s).Perm (seenIps s') := by
    rw [seenIps, seenIps, htable, hresults, List.append_assoc]
    exact (perm_retire hi hp).append_left _
  exact ⟨hperm.nodup_iff.mp h.nodup, fun ip hip => h.range ip (hperm.symm.subset hip)⟩

/-- Claiming a free slot for the next host: the cursor has not seen it before. -/
theorem Seen.claim (h : P.Seen c s) (hi : s.probeTable[i]? = some p) (hp : p.active = false)
    (fd : ℤ) (now : Timespec) : P.Seen (c + 1) (claimSlot i fd (P.baseIp + c) now s) := by
  have hclaim : (keys TcpProbeInfo.dest? (claimSlot i fd (P.baseIp + c) now s).probeTable).Perm
      ((P.baseIp + c) :: keys TcpProbeInfo.dest? s.probeTable) :=
    keys_claim hi (TcpProbeInfo.dest?_eq_none.mpr hp) rfl
  have hperm : (seenIps (claimSlot i fd (P.baseIp + c) now s)).Perm
      ((P.baseIp + c) :: seenIps s) := (hclaim.append_left _).trans List.perm_middle
  constructor
  · rw [hperm.nodup_iff, List.nodup_cons]
    refine ⟨fun hmem => ?_, h.nodup⟩
    have := h.range _ hmem
    omega
  · intro ip hip
    rcases List.mem_cons.mp (hperm.subset hip) with rfl | hold
    · omega
    · have := h.range ip hold
      omega

/-- **What a report does to a host that is not in the results yet.** It calls back, and stores the
result unless the callback throws: the test for a duplicate never finds one. -/
theorem report_eq (P : TcpScanner) (throws : Bool) {r : TcpHostResult}
    (hnew : r.ip ∉ s.scanResults.map (·.ip)) :
    P.report throws r s =
      let called := if P.resultCallback then s.called ++ [r] else s.called
      if P.resultCallback && throws then ({ s with called := called }, true)
      else
        ({ s with
          called := called
          scanResults := s.scanResults ++ [r]
          hostsFound := s.hostsFound + 1 }, false) := by
  have hany : (s.scanResults.any fun r' => r'.ip == r.ip) = false := by
    rw [List.any_eq_false]
    intro r' hr'
    rw [beq_iff_eq]
    exact fun heq => hnew (List.mem_map.mpr ⟨r', hr', heq⟩)
  cases hc : P.resultCallback <;> simp [report, hc, hany]

/-- The hosts that the cursor has passed and that `initiate_single_connection` is done with. -/
def hostsTried (w : TcpWorld) : ℕ :=
  match w.pc.sock? with
  | some _ => w.st.nextHostIdx - 1
  | none => w.st.nextHostIdx

/-- The hosts of a run at a control point: those seen are distinct and behind the cursor. -/
structure HostInv (P : TcpScanner) (w : TcpWorld) : Prop where
  /-- The hosts seen are distinct and tried. -/
  seen : P.Seen (hostsTried w) w.st
  /-- The cursor stays in the range. -/
  cursor : w.st.nextHostIdx ≤ P.totalHosts
  /-- `initiate_single_connection` works on the host before the cursor. -/
  single : ∀ stage n slot ip fd, w.pc = .single stage n slot ip fd →
    w.st.nextHostIdx = hostsTried w + 1 ∧ ip = P.baseIp + hostsTried w ∧ P.skipsLocal ip = false

/-- Target addresses do not wrap, as the range lies within the address space. -/
theorem targetIp_eq (hP : P.Ranged) (hlt : s.nextHostIdx < P.totalHosts) :
    P.targetIp s = P.baseIp + s.nextHostIdx := by
  have := hP.fits
  have := hP.hosts
  rw [targetIp, u32_of_lt (n := s.nextHostIdx) (by omega), u32_of_lt (by omega)]

/-- Steps between control points outside `initiate_single_connection` have one clause to keep. -/
theorem HostInv.of_seen (h : P.Seen w.st.nextHostIdx w.st)
    (hcursor : w.st.nextHostIdx ≤ P.totalHosts) (hpc : w.pc.sock? = none) : P.HostInv w := by
  refine ⟨?_, hcursor, ?_⟩
  · rw [hostsTried, hpc]
    exact h
  · intro stage n slot ip fd hsingle
    rw [hsingle] at hpc
    cases hpc

/-- Every step keeps the hosts distinct: the cursor brings each host in once, and a success moves
its host from the active probes to the results. -/
theorem HostInv.step (hP : P.Ranged) (hown : P.OwnInv w) (h : P.HostInv w)
    (hstep : TcpStep P w l w') : P.HostInv w' := by
  have hnone : w.pc.sock? = none → P.Seen w.st.nextHostIdx w.st := by
    intro hpc
    have hseen := h.seen
    rwa [hostsTried, hpc] at hseen
  have hheld : ∀ stage n slot ip fd, w.pc = .single stage n slot ip fd →
      P.Seen w.st.nextHostIdx w.st := by
    intro stage n slot ip fd hpc
    have := h.single _ _ _ _ _ hpc
    exact h.seen.mono (by omega)
  cases hstep with
  -- what happens to a connection touches no host
  | tick | complete | reset => exact ⟨h.seen, h.cursor, h.single⟩
  | enter hpc | leave hpc | noSlot hpc | closedGate hpc | pollThrew hpc | pollTimeout hpc
  | pollFailed hpc | stale hpc | eventsDone hpc | pollEvents hpc =>
    exact .of_seen (hnone (by rw [hpc]; rfl)) h.cursor rfl
  | skip hpc hgo | socketFail hpc hgo =>
    have hseen := hnone (by rw [hpc]; rfl)
    exact .of_seen ((hseen.mono (Nat.le_succ _)).congr rfl) hgo.1 rfl
  -- the host at the cursor, which now is one that was tried
  | socketOk hpc hgo hlocal =>
    refine ⟨(hnone (by rw [hpc]; rfl)).congr rfl, hgo.1, ?_⟩
    intro stage n slot ip fd heq
    cases heq
    exact ⟨rfl, targetIp_eq hP hgo.1, hlocal⟩
  | fcntlOk hpc | connected hpc | inProgress hpc =>
    have htried : hostsTried w = w.st.nextHostIdx - 1 := by rw [hostsTried, hpc]; rfl
    have hseen := h.seen
    have hsingle := h.single _ _ _ _ _ hpc
    rw [htried] at hseen hsingle
    refine ⟨hseen, h.cursor, ?_⟩
    intro stage n slot ip fd heq
    cases heq
    exact hsingle
  | fcntlFail hpc | connectFail hpc | registerFail hpc =>
    exact .of_seen ((hheld _ _ _ _ _ hpc).congr rfl) h.cursor rfl
  -- it becomes the host of an active probe
  | register hpc =>
    obtain ⟨hcursor, rfl, -⟩ := h.single _ _ _ _ _ hpc
    obtain ⟨⟨i, p, rfl, hi, hp⟩, -⟩ := hown.single _ _ _ _ _ hpc
    refine .of_seen ?_ h.cursor rfl
    show P.Seen w.st.nextHostIdx _
    rw [hcursor]
    exact h.seen.claim hi hp _ _
  -- its host is new to the results, as its probe was active until now
  | @success ev evs dns throws p so hpc hi hp hso herr st threw hout =>
    have hseen := hnone (by rw [hpc]; rfl)
    have hframe := P.report_frame throws (P.probeResult w.kernel.clock dns p) (retire ev.data w.st)
    have hnew : (P.probeResult w.kernel.clock dns p).ip ∉
        (retire ev.data w.st).scanResults.map (·.ip) := hseen.not_mem_results hi hp
    rw [hout] at hframe
    obtain ⟨htable, -, hcursor⟩ := hframe
    rw [report_eq P throws hnew] at hout
    refine .of_seen ?_ ?_ ?_
    · show P.Seen st.nextHostIdx st
      rw [hcursor]
      dsimp only at hout
      split at hout
      · cases hout
        exact (hseen.retire hi hp).congr rfl
      · cases hout
        exact hseen.found hi hp rfl (by rw [List.map_append]; rfl)
    · exact hcursor.le.trans h.cursor
    · cases threw <;> rfl
  | failure hpc hi hp =>
    exact .of_seen ((hnone (by rw [hpc]; rfl)).retire hi hp) h.cursor rfl
  | reap hpc =>
    have hseen : P.Seen w.st.nextHostIdx (P.reapTimedOutProbes w.kernel.clock w).st :=
      reap_induction (motive := fun v => P.Seen w.st.nextHostIdx v.st)
        (hnone (by rw [hpc]; rfl)) (fun v i p hv hi hold => hv.retire hi hold.1) _
    have hcursor := (P.ends_reap w.kernel.clock w).cursor
    refine .of_seen ?_ (hcursor.le.trans h.cursor) rfl
    show P.Seen (P.reapTimedOutProbes w.kernel.clock w).st.nextHostIdx _
    rw [hcursor]
    exact hseen
  | destroy hpc =>
    have hst := destroy_st w
    have hsock : w.pc.sock? = none := by rcases hpc with hpc | hpc <;> rw [hpc] <;> rfl
    refine .of_seen ?_ ?_ rfl
    · show P.Seen (destroy w).st.nextHostIdx (destroy w).st
      rw [hst]
      exact hnone hsock
    · show (destroy w).st.nextHostIdx ≤ P.totalHosts
      rw [hst]
      exact h.cursor

/-! ### Runs -/

/-- An idle table holds nothing, whatever one asks of its entries. -/
theorem keys_idle {κ : Type*} {key : TcpProbeInfo → Option κ} (hs : P.Idle s)
    (hkey : ∀ p : TcpProbeInfo, p.active = false → key p = none) :
    keys key s.probeTable = [] :=
  keys_eq_nil fun p hp => hkey p (hs.inactive p hp)

/-- **The ownership of sockets holds in every reachable state**, by induction on the run. -/
theorem ownInv_of_reachable (hP : P.Ranged) (hs : P.Idle s₀)
    (hw : Reachable P.step (start s₀ clock) w) : P.OwnInv w := by
  refine hw.invariant (I := P.OwnInv) ?_ fun _ _ _ h _ hstep => h.step hP (step_cases hstep)
  refine .of_owned ⟨hs.probeTable, ?_, ?_, nofun, ?_, nofun, accounts_empty⟩ rfl nofun
  · show 0 = (keys TcpProbeInfo.sock? s₀.probeTable).length
    rw [keys_idle hs fun _ => TcpProbeInfo.sock?_eq_none.mpr]
    rfl
  · exact .empty (fun p hp => TcpProbeInfo.sock?_eq_none.mpr (hs.inactive p hp)) fun _ => rfl
  · exact fun fd => ⟨nofun, nofun⟩

/-- **Hosts are distinct in every reachable state**, by induction on the run. -/
theorem hostInv_of_reachable (hP : P.Ranged) (hs : P.Idle s₀)
    (hw : Reachable P.step (start s₀ clock) w) : P.HostInv w := by
  refine hw.invariant_of_runs (I := P.HostInv) ?_ ?_
  · have hseen : seenIps (start s₀ clock).st = [] :=
      keys_idle (s := s₀) hs fun _ => TcpProbeInfo.dest?_eq_none.mpr
    refine .of_seen ⟨?_, ?_⟩ (Nat.zero_le _) rfl
    · exact hseen.symm ▸ List.nodup_nil
    · intro ip hip
      rw [hseen] at hip
      cases hip
  · intro u l v hreach h _ hstep
    exact h.step hP (ownInv_of_reachable hP hs hreach) (step_cases hstep)

/-- A run that returns has passed every host and has no probe left. -/
theorem left_of_returned (hw : Reachable P.step (start s₀ clock) w) (hret : w.pc = .returned) :
    P.totalHosts ≤ w.st.nextHostIdx ∧ w.st.activeProbes = 0 := by
  refine hw.invariant (I := fun w => w.pc = .returned →
    P.totalHosts ≤ w.st.nextHostIdx ∧ w.st.activeProbes = 0) nofun ?_ hret
  intro u l v h _ hstep hv
  cases step_cases hstep with
  | leave _ hcursor hactive => exact ⟨hcursor, hactive⟩
  | tick | complete | reset => exact h hv
  | @success _ _ _ _ _ _ _ _ _ _ _ _ threw => cases threw <;> cases hv
  | _ => cases hv

/-- The object of a run that returned is idle again: no probe was counted, so none is active. -/
theorem idle_of_returned (hP : P.Ranged) (hs : P.Idle s₀)
    (hw : Reachable P.step (start s₀ clock) w) (hret : w.pc = .returned) : P.Idle w.st := by
  have howned := (ownInv_of_reachable hP hs hw).owned (by rw [hret]; nofun)
  refine ⟨howned.size, fun p hp => ?_⟩
  have hnil := howned.count
  rw [(left_of_returned hw hret).2] at hnil
  have hkeys := List.eq_nil_of_length_eq_zero hnil.symm
  exact TcpProbeInfo.sock?_eq_none.mp (List.filterMap_eq_nil_iff.mp hkeys p hp)

/-! ### The books of a scan -/

/-- What `probe_table_`, `active_probes`, the open descriptors and the `close` calls say about each
other. -/
structure Books (P : TcpScanner) (w : TcpWorld) : Prop where
  /-- `active_probes` counts the active entries. -/
  activeCount : w.st.activeProbes = w.st.probeTable.countP (·.active)
  /-- `active_probes` is at most `max_probes_`. -/
  activeBound : w.st.activeProbes ≤ P.maxProbes
  /-- An active entry's descriptor is open, registered with its slot number as data, and connects to
  its host. -/
  registered : ∀ (i : ℕ) (p : TcpProbeInfo), w.st.probeTable[i]? = some p → p.active = true →
    ∃ s, w.kernel.socketAt p.sock = some s ∧ s.slot = some i ∧ s.peer = some p.destIp
  /-- Active entries with the same descriptor or the same host are the same entry. -/
  distinct : ∀ (i j : ℕ) (p q : TcpProbeInfo), w.st.probeTable[i]? = some p → p.active = true →
    w.st.probeTable[j]? = some q → q.active = true → p.sock = q.sock ∨ p.destIp = q.destIp → i = j
  /-- A descriptor is open exactly while an active entry or `initiate_single_connection` holds
  it. -/
  openIff : ∀ fd, w.kernel.socketAt fd ≠ none ↔
    (∃ (i : ℕ) (p : TcpProbeInfo), w.st.probeTable[i]? = some p ∧ p.active = true ∧ p.sock = fd) ∨
      w.pc.sock? = some fd
  /-- No active entry holds the descriptor that `initiate_single_connection` holds. -/
  exclusive : ∀ (i : ℕ) (p : TcpProbeInfo), w.st.probeTable[i]? = some p → p.active = true →
    w.pc.sock? ≠ some p.sock
  /-- Every `close` call closed a socket of this run. -/
  noStray : ∀ id ∈ closes w.trace, ∃ n < w.kernel.opened, id = some n
  /-- No socket was closed twice. -/
  closedOnce : (closes w.trace).Nodup

/-- The counter of the sockets held is the number of active entries. -/
theorem Owned.activeCount {held : Option ℤ} (h : P.Owned held w) :
    w.st.activeProbes = w.st.probeTable.countP (·.active) := by
  rw [h.count, length_keys_eq_countP]
  congr 1
  funext p
  cases hp : p.active <;> simp [TcpProbeInfo.sock?, hp]

/-- The books agree wherever the two invariants hold, which say it in terms of partial maps. -/
theorem Owned.books (h : P.Owned w.pc.sock? w) (hhosts : P.HostInv w) : P.Books w where
  activeCount := h.activeCount
  activeBound := h.active_le
  registered _ _ := h.socket_of_active
  distinct i j p q hi hp hj hq := by
    rintro (hsock | hdest)
    -- one socket is registered at one slot, and one host has one active probe
    · exact h.linked.slot_unique hi (TcpProbeInfo.sock?_eq_some.mpr ⟨hp, rfl⟩) hj
        (TcpProbeInfo.sock?_eq_some.mpr ⟨hq, hsock.symm⟩)
    · have hnodup := (List.nodup_append.mp hhosts.seen.nodup).2.1
      exact eq_of_nodup_keys hnodup hi (TcpProbeInfo.dest?_eq_some.mpr ⟨hp, rfl⟩) hj
        (TcpProbeInfo.dest?_eq_some.mpr ⟨hq, hdest.symm⟩)
  openIff fd := by
    rw [h.held fd]
    constructor
    · intro hopen
      obtain ⟨s, hs⟩ := Option.ne_none_iff_exists'.mp hopen
      -- an open socket is registered at an entry, or it is the one held outside the table
      cases hslot : s.slot with
      | none => exact .inr ⟨s, hs, hslot⟩
      | some i =>
        obtain ⟨p, hi, hp, hsock⟩ := h.active_of_socket hs hslot
        exact .inl ⟨i, p, hi, hp, hsock⟩
    · rintro (⟨i, p, hi, hp, rfl⟩ | ⟨s, hs, -⟩)
      · obtain ⟨s, hs, -⟩ := h.socket_of_active hi hp
        rw [hs]
        simp
      · rw [hs]
        simp
  exclusive i p hi hp hheld := by
    obtain ⟨s, hs, hslot, -⟩ := h.socket_of_active hi hp
    obtain ⟨s', hs', hnone⟩ := (h.held _).mp hheld
    rw [hs] at hs'
    cases hs'
    rw [hslot] at hnone
    cases hnone
  noStray id hid := by
    have hmem := h.accounts.subset (List.mem_append_left _ hid)
    obtain ⟨n, hn, rfl⟩ := List.mem_map.mp hmem
    exact ⟨n, List.mem_range.mp hn, rfl⟩
  closedOnce := h.accounts.closed_nodup

/-- **Slot and descriptor ownership.** In every state that `run()` reaches on a scanner for a parsed
range, whatever the system calls answer, in whatever order connections complete: the books agree,
the search for a slot succeeds whenever a connection is to be started, and when `run()` has returned
or the scanner is destroyed, every descriptor that was opened has been closed exactly once. -/
theorem descriptors_owned {input : CString} {config : TcpScannerConfig}
    (hparse : parseCidr input = some (config.baseIp, config.totalHosts)) (routedIp : Option ℕ)
    (ifaddrs : Option (List IfAddrs)) {s₀ : TcpState}
    (hs : (construct config routedIp ifaddrs).Idle s₀) (clock : Timespec) {w : TcpWorld}
    (hw : Reachable (construct config routedIp ifaddrs).step (start s₀ clock) w) :
    (w.pc ≠ .destroyed → (construct config routedIp ifaddrs).Books w) ∧
    (∀ n, w.pc = .initiate n → (construct config routedIp ifaddrs).Initiates w.st n →
      findSlot w.st ≠ -1) ∧
    (w.pc = .returned ∨ w.pc = .destroyed →
      (closes w.trace).Perm ((List.range w.kernel.opened).map some)) := by
  have hP := ranged_construct hparse routedIp ifaddrs
  have hown := ownInv_of_reachable hP hs hw
  refine ⟨fun hne => (hown.owned hne).books (hostInv_of_reachable hP hs hw), ?_, ?_⟩
  · intro n hpc hgo
    obtain ⟨i, p, hfind, -⟩ := (hown.owned (by rw [hpc]; nofun)).findSlot hP hgo.2.1
    rw [hfind]
    omega
  · rintro (hret | hdestroyed)
    · have howned := hown.owned (by rw [hret]; nofun)
      refine howned.accounts.closed_perm fun fd => ?_
      -- no entry is active, and nothing is held outside the table
      by_contra hopen
      rcases (howned.books (hostInv_of_reachable hP hs hw)).openIff fd |>.mp hopen with
        ⟨i, p, hi, hp, -⟩ | hheld
      · have hidle := (idle_of_returned hP hs hw hret).inactive p (List.mem_of_getElem? hi)
        rw [hp] at hidle
        cases hidle
      · rw [hret] at hheld
        cases hheld
    · obtain ⟨hclosed, haccounts⟩ := hown.destroyed hdestroyed
      exact haccounts.closed_perm hclosed

/-- `10.0.0.8/31`: the socket of the first host is closed early, its number is used again for the
second host, whose connection is refused. -/
theorem descriptors_owned_pair : ∃ w : TcpWorld, w.pc = .returned ∧ w.kernel.opened = 2 ∧
    (construct { baseIp := 167772168, totalHosts := 2 } none none).Books w ∧
    (closes w.trace).Perm [some 0, some 1] := by
  obtain ⟨w, hw, hp⟩ := exists_reachable_of_exec
    (M := (construct { baseIp := 167772168, totalHosts := 2 } none none).step)
    (s := start (construct { baseIp := 167772168, totalHosts := 2 } none none).initialState {})
    [.run, .socket (some 5), .fcntl false, .socket (some 5), .fcntl true, .connect .inProgress,
      .epollAdd true, .run, .complete 5 111, .epollWait (.events [⟨0, 1⟩]), .event none none false,
      .run, .run, .run]
    (fun w => w.pc == .returned && w.kernel.opened == 2) (by decide)
  simp only [Bool.and_eq_true, beq_iff_eq] at hp
  have hparse : parseCidr [49, 48, 46, 48, 46, 48, 46, 56, 47, 51, 49] = some (167772168, 2) := by
    decide
  obtain ⟨hbooks, -, hclosed⟩ := descriptors_owned hparse none none (idle_initialState _) _ hw
  have hperm := hclosed (.inl hp.1)
  rw [hp.2] at hperm
  exact ⟨w, hp.1, hp.2, hbooks (by rw [hp.1]; nofun), hperm⟩

end TcpScanner

end Netscan
