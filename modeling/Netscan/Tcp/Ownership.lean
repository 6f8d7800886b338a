import Netscan.Lib.SlotTable
import Netscan.Tcp.Steps
import Netscan.Utils.Cidr

/-! # Who owns the sockets of a TCP run

A socket is held by a local variable of `initiate_single_connection` until it is registered, and by
one active entry of `probe_table_` from then on: the table is a slot table linked to the epoll
registrations (`Owned`). Inactive entries keep stale descriptor numbers, which the kernel may hand
out again; they are harmless because only the sockets of active entries are ever closed. Every
`close` call of a run therefore closes a socket of this run, each once. -/

namespace Netscan

open MachineInt SlotTable LabelledSystem Descriptors

/-- The socket that a probe-table entry holds, while the entry is active. -/
def TcpProbeInfo.sock? (p : TcpProbeInfo) : Option ℤ := if p.active then some p.sock else none

theorem TcpProbeInfo.sock?_eq_some {p : TcpProbeInfo} {fd : ℤ} :
    p.sock? = some fd ↔ p.active = true ∧ p.sock = fd := by
  unfold sock?
  split <;> simp_all

theorem TcpProbeInfo.sock?_eq_none {p : TcpProbeInfo} : p.sock? = none ↔ p.active = false := by
  unfold sock?
  split <;> simp_all

/-- The socket that `initiate_single_connection` holds, which no entry of the table does yet. -/
def TcpPc.sock? : TcpPc → Option ℤ
  | .single _ _ _ _ sock => some sock
  | _ => none

/-- What is known of the socket that `initiate_single_connection` holds for `ip`. -/
def Stage.Holds (stage : Stage) (ip : ℕ) (s : TcpSocket) : Prop :=
  match stage with
  | .opened | .nonblocking => s.peer = none ∧ s.status = .idle
  | .connecting => s.peer = some ip

/-- What a `close` call closed: a socket, or nothing that was open. -/
def TcpEvent.closed? : TcpEvent → Option (Option ℕ)
  | .closed id => some id
  | _ => none

namespace TcpScanner

/-- What the `close` calls closed, in the order of the calls. -/
def closes (t : List TcpEvent) : List (Option ℕ) := t.filterMap TcpEvent.closed?

/-- The ranges that a scanner built from a parsed CIDR range has. -/
structure Ranged (P : TcpScanner) : Prop where
  /-- The range ends inside the address space. -/
  fits : P.baseIp + P.totalHosts ≤ 2 ^ 32
  /-- There are at most `2 ^ 31` hosts. -/
  hosts : P.totalHosts ≤ 2 ^ 31
  /-- There are at most as many slots as hosts. -/
  probes : P.maxProbes ≤ P.totalHosts

/-- The constructor clamps its sizes to the parsed range. -/
theorem ranged_construct {input : CString} {config : TcpScannerConfig}
    (hparse : parseCidr input = some (config.baseIp, config.totalHosts)) (routedIp : Option ℕ)
    (ifaddrs : Option (List IfAddrs)) : (construct config routedIp ifaddrs).Ranged := by
  obtain ⟨hfits, hhosts⟩ := parseCidr_range hparse
  exact ⟨hfits, hhosts, Nat.min_le_right _ _⟩

variable {P : TcpScanner} {s₀ : TcpState} {clock : Timespec} {w w' : TcpWorld} {l : TcpLabel}
  {held : Option ℤ} {fd : ℤ} {s : TcpSocket} {i : ℕ} {p : TcpProbeInfo}

/-- The part of a world that the ownership of sockets is about. -/
def tables (w : TcpWorld) :
    List TcpProbeInfo × ℕ × Descriptors.Table TcpSocket × ℕ × List (Option ℕ) :=
  (w.st.probeTable, w.st.activeProbes, w.kernel.sockets, w.kernel.opened, closes w.trace)

/-- Every open socket is held by one active entry of the table, which is its epoll registration, or
is the unregistered socket `held`. -/
structure Owned (P : TcpScanner) (held : Option ℤ) (w : TcpWorld) : Prop where
  /-- The table keeps its size. -/
  size : w.st.probeTable.length = P.maxProbes
  /-- `active_probes` counts the sockets that the table holds. -/
  count : w.st.activeProbes = (keys TcpProbeInfo.sock? w.st.probeTable).length
  /-- A socket is registered under a slot number exactly if that slot holds it. -/
  linked : Linked TcpProbeInfo.sock? w.st.probeTable w.kernel.registration
  /-- The socket of an active entry connects to the host of the entry. -/
  peer : ∀ (i : ℕ) (p : TcpProbeInfo) (s : TcpSocket), w.st.probeTable[i]? = some p →
    p.active = true → w.kernel.socketAt p.sock = some s → s.peer = some p.destIp
  /-- The socket without a registration is the one held outside the table. -/
  held : ∀ fd, held = some fd ↔ ∃ s, w.kernel.socketAt fd = some s ∧ s.slot = none
  /-- Descriptors are not negative. -/
  nonneg : ∀ fd s, w.kernel.socketAt fd = some s → 0 ≤ fd
  /-- Every `close` call closed a socket of this run, and none twice. -/
  accounts : Accounts (·.id) w.kernel.sockets w.kernel.opened (closes w.trace)

/-- The invariant is about the tables only, so it is kept by whatever leaves them. -/
theorem Owned.congr (h : P.Owned held w) (htables : tables w' = tables w) : P.Owned held w' := by
  obtain ⟨st, pc, ⟨clock, sockets, opened⟩, trace⟩ := w
  obtain ⟨st', pc', ⟨clock', sockets', opened'⟩, trace'⟩ := w'
  simp only [tables, Prod.mk.injEq] at htables
  obtain ⟨htable, hactive, rfl, rfl, htrace⟩ := htables
  refine ⟨?_, ?_, ?_, ?_, h.held, h.nonneg, ?_⟩
  · exact (congrArg _ htable).trans h.size
  · rw [hactive, htable]
    exact h.count
  · rw [htable]
    exact h.linked
  · rw [htable]
    exact h.peer
  · dsimp only
    rw [htrace]
    exact h.accounts

/-- An active entry's socket is open and registered under the slot number of the entry. -/
theorem Owned.socket_of_active (h : P.Owned held w) (hi : w.st.probeTable[i]? = some p)
    (hp : p.active = true) :
    ∃ s, w.kernel.socketAt p.sock = some s ∧ s.slot = some i ∧ s.peer = some p.destIp := by
  have hreg : w.kernel.registration p.sock = some i :=
    (h.linked _ _).mpr ⟨p, hi, TcpProbeInfo.sock?_eq_some.mpr ⟨hp, rfl⟩⟩
  obtain ⟨s, hs, hslot⟩ := Option.bind_eq_some_iff.mp hreg
  exact ⟨s, hs, hslot, h.peer i p s hi hp hs⟩

/-- An open socket that is not held outside the table is held by an active entry. -/
theorem Owned.active_of_socket (h : P.Owned held w) (hs : w.kernel.socketAt fd = some s)
    (hslot : s.slot = some i) :
    ∃ p, w.st.probeTable[i]? = some p ∧ p.active = true ∧ p.sock = fd := by
  have hreg : w.kernel.registration fd = some i := by
    rw [TcpKernel.registration, hs, Option.bind_some, hslot]
  obtain ⟨p, hi, hp⟩ := (h.linked _ _).mp hreg
  obtain ⟨hactive, hsock⟩ := TcpProbeInfo.sock?_eq_some.mp hp
  exact ⟨p, hi, hactive, hsock⟩

/-- `active_probes` is at most `max_probes_`, as it counts slots of the table. -/
theorem Owned.active_le (h : P.Owned held w) : w.st.activeProbes ≤ P.maxProbes := by
  rw [h.count, ← h.size]
  exact length_keys_le

/-- While fewer than `max_probes_` probes are active, the search for a slot finds a free one. -/
theorem Owned.findSlot (hP : P.Ranged) (h : P.Owned held w)
    (hlt : w.st.activeProbes < P.maxProbes) :
    ∃ (i : ℕ) (p : TcpProbeInfo), TcpScanner.findSlot w.st = (i : ℤ) ∧
      w.st.probeTable[i]? = some p ∧ p.active = false := by
  rw [h.count, ← h.size] at hlt
  obtain ⟨i, p, hfind, hi, hfree⟩ := exists_findIdx?_free hlt
  refine ⟨i, p, ?_, hi, TcpProbeInfo.sock?_eq_none.mp hfree⟩
  have hsame : (fun e : TcpProbeInfo => !e.active) = fun e => e.sock?.isNone := by
    funext e
    cases ha : e.active <;> simp [TcpProbeInfo.sock?, ha]
  have hbound : i < w.st.probeTable.length := (List.getElem?_eq_some_iff.mp hi).1
  have hprobes := hP.probes
  have hhosts := hP.hosts
  have hlen := h.size
  rw [TcpScanner.findSlot, hsame, hfind]
  exact toInt32_of_lt (by omega)

/-! ### What the operations do to it -/

/-- Changing the socket at a descriptor keeps descriptors non-negative. -/
private theorem nonneg_update {k k' : TcpKernel} {o : Option TcpSocket}
    (hat : k'.socketAt = Function.update k.socketAt fd o) (hfd : 0 ≤ fd)
    (h : ∀ fd s, k.socketAt fd = some s → 0 ≤ fd) :
    ∀ fd s, k'.socketAt fd = some s → 0 ≤ fd := by
  intro fd' s' hs'
  rw [hat] at hs'
  by_cases hne : fd' = fd
  · exact hne ▸ hfd
  · rw [Function.update_of_ne hne] at hs'
    exact h fd' s' hs'

/-- Closing or registering the socket held outside the table leaves none. -/
private theorem held_update {k k' : TcpKernel} {o : Option TcpSocket}
    (hat : k'.socketAt = Function.update k.socketAt fd o) (ho : ∀ s, o = some s → s.slot ≠ none)
    (h : ∀ fd', some fd = some fd' ↔ ∃ s, k.socketAt fd' = some s ∧ s.slot = none) (fd' : ℤ) :
    (none : Option ℤ) = some fd' ↔ ∃ s, k'.socketAt fd' = some s ∧ s.slot = none := by
  rw [hat]
  by_cases hne : fd' = fd
  · subst hne
    rw [Function.update_self]
    refine ⟨nofun, ?_⟩
    rintro ⟨s, hs, hslot⟩
    exact absurd hslot (ho s hs)
  · rw [Function.update_of_ne hne, ← h fd']
    simp [Ne.symm hne]

/-- A new socket is held by `initiate_single_connection`, and by no entry of the table. -/
theorem Owned.openSocket (h : P.Owned none w) (hfd : 0 ≤ fd)
    (hfree : w.kernel.socketAt fd = none) :
    P.Owned (some fd) { w with kernel := w.kernel.openSocket fd } := by
  have hat := w.kernel.socketAt_openSocket fd
  refine ⟨h.size, h.count, ?_, ?_, ?_, ?_, h.accounts.insert_fresh hfree rfl⟩
  · -- the registration of `fd` was absent and stays so
    have hreg : w.kernel.registration fd = none := by rw [TcpKernel.registration, hfree]; rfl
    show Linked _ _ (w.kernel.openSocket fd).registration
    rw [TcpKernel.registration_of_update _ hat]
    show Linked _ _ (Function.update w.kernel.registration fd none)
    rw [← hreg, Function.update_eq_self]
    exact h.linked
  · intro i p s hi hp hs
    obtain ⟨s', hs', -, hpeer⟩ := h.socket_of_active hi hp
    have hne : p.sock ≠ fd := by
      rintro rfl
      rw [hfree] at hs'
      cases hs'
    dsimp only at hs
    rw [hat, Function.update_of_ne hne, hs'] at hs
    exact Option.some.inj hs ▸ hpeer
  · intro fd'
    dsimp only
    rw [hat]
    by_cases hne : fd' = fd
    · subst hne
      simp
    · rw [Function.update_of_ne hne, ← h.held fd']
      simp [Ne.symm hne]
  · exact nonneg_update hat hfd h.nonneg

/-- A call that changes neither the registration of a socket nor, unless it is held outside the
table, its peer. -/
theorem Owned.update (h : P.Owned held w) {f : TcpSocket → TcpSocket}
    (hs : w.kernel.socketAt fd = some s) (hid : (f s).id = s.id) (hslot : (f s).slot = s.slot)
    (hpeer : (f s).peer = s.peer ∨ held = some fd) :
    P.Owned held { w with kernel := w.kernel.update fd f } := by
  have hat := TcpKernel.socketAt_update hs f
  refine ⟨h.size, h.count, ?_, ?_, ?_, ?_, ?_⟩
  · have hreg : w.kernel.registration fd = (f s).slot := by
      rw [TcpKernel.registration, hs, hslot]
      rfl
    show Linked _ _ (w.kernel.update fd f).registration
    rw [TcpKernel.registration_of_update _ hat]
    show Linked _ _ (Function.update w.kernel.registration fd (f s).slot)
    rw [← hreg, Function.update_eq_self]
    exact h.linked
  · intro i p s' hi hp hs'
    obtain ⟨so, hso, hreg, hdest⟩ := h.socket_of_active hi hp
    dsimp only at hs'
    rw [hat] at hs'
    by_cases hne : p.sock = fd
    · subst hne
      rw [Function.update_self] at hs'
      rw [hs] at hso
      cases hso
      cases hs'
      rcases hpeer with hsame | hheld
      · exact hsame.trans hdest
      · -- a socket in the table is registered, so it is not held outside it
        obtain ⟨so, hso, hnone⟩ := (h.held _).mp hheld
        rw [hs] at hso
        cases hso
        rw [hnone] at hreg
        cases hreg
    · rw [Function.update_of_ne hne, hso] at hs'
      exact Option.some.inj hs' ▸ hdest
  · intro fd'
    dsimp only
    rw [hat, h.held fd']
    by_cases hne : fd' = fd
    · subst hne
      rw [Function.update_self, hs]
      simp [hslot]
    · rw [Function.update_of_ne hne]
  · exact nonneg_update hat (h.nonneg fd s hs) h.nonneg
  · show Accounts _ (w.kernel.update fd f).sockets (w.kernel.update fd f).opened _
    rw [TcpKernel.update_eq hs]
    exact h.accounts.insert_same hs hid

/-- What `close` on an open socket adds to the log: the number of that socket. -/
theorem closes_closeSock (hs : w.kernel.socketAt fd = some s) :
    closes (closeSock fd w).trace = closes w.trace ++ [some s.id] := by
  simp [closeSock, closes, hs, TcpEvent.closed?]

/-- The early exits of `initiate_single_connection` close the socket it holds, and nothing is held
then. -/
theorem Owned.closeHeld (h : P.Owned (some fd) w) : P.Owned none (closeSock fd w) := by
  obtain ⟨s, hs, hslot⟩ := (h.held fd).mp rfl
  have hat := w.kernel.socketAt_close fd
  refine ⟨h.size, h.count, ?_, ?_, ?_, ?_, ?_⟩
  -- the socket was not registered, so what the table and the epoll instance link stays
  · have hreg : w.kernel.registration fd = none := by
      rw [TcpKernel.registration, hs, Option.bind_some, hslot]
    show Linked _ _ (w.kernel.close fd).registration
    rw [TcpKernel.registration_of_update _ hat]
    show Linked _ _ (Function.update w.kernel.registration fd none)
    rw [← hreg, Function.update_eq_self]
    exact h.linked
  -- the entries hold other descriptors
  · intro i p s' hi hp hs'
    replace hs' : (w.kernel.close fd).socketAt p.sock = some s' := hs'
    rw [hat] at hs'
    by_cases hne : p.sock = fd
    · rw [hne, Function.update_self] at hs'
      cases hs'
    · rw [Function.update_of_ne hne] at hs'
      exact h.peer i p s' hi hp hs'
  · exact held_update hat nofun h.held
  · exact nonneg_update hat (h.nonneg fd s hs) h.nonneg
  · rw [closes_closeSock hs]
    exact h.accounts.erase hs

/-- Registering the socket that `initiate_single_connection` holds passes it to a free slot. -/
theorem Owned.claim (h : P.Owned (some fd) w) {ip : ℕ} (now : Timespec)
    (hpeer : ∀ s, w.kernel.socketAt fd = some s → s.peer = some ip)
    (hi : w.st.probeTable[i]? = some p) (hp : p.active = false) (hlt : i < 2 ^ 32) :
    P.Owned none { w with
      st := claimSlot i fd ip now w.st
      kernel := w.kernel.update fd (.register (some (u32 i))) } := by
  obtain ⟨s, hs, hslot⟩ := (h.held fd).mp rfl
  have hat := TcpKernel.socketAt_update hs (.register (some (u32 i)))
  have hbound := (List.getElem?_eq_some_iff.mp hi).1
  have hfree := TcpProbeInfo.sock?_eq_none.mpr hp
  refine ⟨?_, ?_, ?_, ?_, ?_, ?_, ?_⟩
  · exact (List.length_set ..).trans h.size
  · show w.st.activeProbes + 1 = _
    rw [h.count]
    exact (keys_claim hi hfree rfl).length_eq.symm
  · show Linked _ _ (w.kernel.update fd _).registration
    rw [TcpKernel.registration_of_update _ hat, u32_of_lt hlt]
    have hreg : w.kernel.registration fd = none := by
      rw [TcpKernel.registration, hs, Option.bind_some, hslot]
    exact h.linked.claim hi hfree hreg rfl
  · intro j q s' hj hq hs'
    replace hs' : (w.kernel.update fd _).socketAt q.sock = some s' := hs'
    rw [hat] at hs'
    replace hj : (w.st.probeTable.set i _)[j]? = some q := hj
    by_cases hij : i = j
    · subst hij
      rw [List.getElem?_set_self hbound] at hj
      cases hj
      rw [Function.update_self] at hs'
      cases hs'
      exact hpeer s hs
    · rw [List.getElem?_set_ne hij] at hj
      -- the other slots hold registered sockets
      obtain ⟨so, hso, hreg, hdest⟩ := h.socket_of_active hj hq
      have hne : q.sock ≠ fd := by
        rintro rfl
        rw [hs] at hso
        cases hso
        rw [hslot] at hreg
        cases hreg
      rw [Function.update_of_ne hne, hso] at hs'
      exact Option.some.inj hs' ▸ hdest
  · refine held_update hat ?_ h.held
    rintro _ ⟨⟩
    nofun
  · exact nonneg_update hat (h.nonneg fd s hs) h.nonneg
  · show Accounts _ (w.kernel.update fd _).sockets (w.kernel.update fd _).opened _
    rw [TcpKernel.update_eq hs]
    exact h.accounts.insert_same hs rfl

/-- Both ends of a probe close its socket and free its slot. -/
theorem Owned.retire (hP : P.Ranged) (h : P.Owned held w) (hi : w.st.probeTable[i]? = some p)
    (hp : p.active = true) :
    P.Owned held { closeSock p.sock w with st := TcpScanner.retire i w.st } := by
  obtain ⟨s, hs, hslot, -⟩ := h.socket_of_active hi hp
  have hat := w.kernel.socketAt_close p.sock
  have hbound := (List.getElem?_eq_some_iff.mp hi).1
  have hused := TcpProbeInfo.sock?_eq_some.mpr ⟨hp, rfl⟩
  have hprobe : probeAt w.st i = p := by simp [probeAt, hi]
  refine ⟨?_, ?_, ?_, ?_, ?_, ?_, ?_⟩
  · exact (List.length_set ..).trans h.size
  · -- at least one probe is active, so the counter does not wrap
    have hperm : (keys TcpProbeInfo.sock? w.st.probeTable).Perm (p.sock ::
        keys TcpProbeInfo.sock? (w.st.probeTable.set i { p with active := false })) :=
      keys_release hi hused rfl
    have hlen := hperm.length_eq
    rw [List.length_cons, ← h.count] at hlen
    have hle := h.active_le
    have hprobes := hP.probes
    have hhosts := hP.hosts
    show subU64 w.st.activeProbes 1 = _
    rw [subU64_of_le (by omega) (by omega), TcpScanner.retire, hprobe, hlen]
    rfl
  · show Linked _ _ (w.kernel.close p.sock).registration
    rw [TcpKernel.registration_of_update _ hat, TcpScanner.retire, hprobe]
    exact h.linked.release hi hused rfl
  · intro j q s' hj hq hs'
    replace hs' : (w.kernel.close p.sock).socketAt q.sock = some s' := hs'
    rw [hat] at hs'
    replace hj : (w.st.probeTable.set i { probeAt w.st i with active := false })[j]? = some q := hj
    by_cases hij : i = j
    · subst hij
      rw [List.getElem?_set_self hbound] at hj
      cases hj
      cases hq
    · rw [List.getElem?_set_ne hij] at hj
      by_cases hsock : q.sock = p.sock
      · rw [hsock, Function.update_self] at hs'
        cases hs'
      · rw [Function.update_of_ne hsock] at hs'
        exact h.peer j q s' hj hq hs'
  · intro fd'
    show held = some fd' ↔ ∃ s, (w.kernel.close p.sock).socketAt fd' = some s ∧ s.slot = none
    rw [hat, h.held fd']
    by_cases hne : fd' = p.sock
    · subst hne
      rw [Function.update_self, hs]
      simp [hslot]
    · rw [Function.update_of_ne hne]
  · exact nonneg_update hat (h.nonneg _ s hs) h.nonneg
  · show Accounts _ _ _ (closes (closeSock p.sock w).trace)
    rw [closes_closeSock hs]
    exact h.accounts.erase hs

/-! ### Reaping -/

/-- The entry at a slot. -/
theorem probeAt_of_getElem? {st : TcpState} (hi : st.probeTable[i]? = some p) :
    probeAt st i = p := by
  simp [probeAt, hi]

/-- A turn of the reap ends the probe at its slot, if it is overdue. -/
theorem reapSlot_cases (P : TcpScanner) (now : Timespec) (w : TcpWorld) (i : ℕ) :
    (P.reapSlot now w i = w ∧ ∀ p, w.st.probeTable[i]? = some p → ¬ P.Overdue now p) ∨
      ∃ p, w.st.probeTable[i]? = some p ∧ P.Overdue now p ∧
        P.reapSlot now w i = { closeSock p.sock w with st := TcpScanner.retire i w.st } := by
  by_cases hold : P.Overdue now (probeAt w.st i)
  · right
    -- an overdue entry is active, so it is not the default of `probeAt`
    cases hi : w.st.probeTable[i]? with
    | none =>
      rw [probeAt, List.getD_eq_getElem?_getD, hi] at hold
      cases hold.1
    | some p =>
      have hprobe := probeAt_of_getElem? hi
      refine ⟨p, rfl, hprobe ▸ hold, ?_⟩
      rw [reapSlot, if_pos hold, retireProbe_eq, hprobe]
  · left
    refine ⟨by rw [reapSlot, if_neg hold], ?_⟩
    intro p hi
    rwa [probeAt_of_getElem? hi] at hold

/-- The loop of `reap_timed_out_probes` keeps whatever ending an overdue probe keeps. -/
theorem reap_induction {motive : TcpWorld → Prop} {now : Timespec} (h : motive w)
    (hstep : ∀ (w : TcpWorld) (i : ℕ) (p : TcpProbeInfo), motive w →
      w.st.probeTable[i]? = some p → P.Overdue now p →
      motive { closeSock p.sock w with st := TcpScanner.retire i w.st }) (L : List ℕ) :
    motive (L.foldl (P.reapSlot now) w) := by
  apply List.foldlRecOn _ _ h
  intro u hu i _
  rcases P.reapSlot_cases now u i with ⟨heq, -⟩ | ⟨p, hi, hold, heq⟩
  · rwa [heq]
  · rw [heq]
    exact hstep u i p hu hi hold

/-- `reap_timed_out_probes` keeps the ownership of sockets, one overdue probe after the other. -/
theorem Owned.reapTimedOutProbes (hP : P.Ranged) (h : P.Owned held w) (now : Timespec) :
    P.Owned held (P.reapTimedOutProbes now w) :=
  reap_induction h (fun _ _ _ hw hi hold => hw.retire hP hi hold.1) _

/-! ### The destructor -/

/-- The destructor touches sockets only, so what the results say stays. -/
theorem destroy_st (w : TcpWorld) : (destroy w).st = w.st := by
  refine List.foldlRecOn (motive := fun v : TcpWorld => v.st = w.st) _ _ rfl fun v hv p _ => ?_
  unfold destroySlot
  split <;> exact hv

/-- The loop of the destructor, when the sockets still open are those of the entries left: it closes
them all. -/
theorem closed_of_destroySlots {L : List TcpProbeInfo} {w : TcpWorld}
    (hnodup : (keys TcpProbeInfo.sock? L).Nodup)
    (hopen : ∀ fd, (∃ s, w.kernel.socketAt fd = some s) ↔ fd ∈ keys TcpProbeInfo.sock? L)
    (hnonneg : ∀ fd s, w.kernel.socketAt fd = some s → 0 ≤ fd)
    (haccounts : Accounts (·.id) w.kernel.sockets w.kernel.opened (closes w.trace)) :
    (∀ fd, (L.foldl destroySlot w).kernel.socketAt fd = none) ∧
      Accounts (·.id) (L.foldl destroySlot w).kernel.sockets
        (L.foldl destroySlot w).kernel.opened (closes (L.foldl destroySlot w).trace) := by
  induction L generalizing w with
  | nil =>
    refine ⟨fun fd => ?_, haccounts⟩
    cases hs : w.kernel.socketAt fd with
    | none => exact hs
    | some s => exact absurd ((hopen fd).mp ⟨s, hs⟩) List.not_mem_nil
  | cons p L ih =>
    cases hp : p.sock? with
    | none =>
      -- an entry that is not active is passed over
      have hidle : destroySlot w p = w := by
        rw [destroySlot, if_neg]
        rintro ⟨hactive, -⟩
        rw [TcpProbeInfo.sock?_eq_none.mp hp] at hactive
        cases hactive
      have hkeys : keys TcpProbeInfo.sock? (p :: L) = keys TcpProbeInfo.sock? L := by
        simp [keys, hp]
      rw [List.foldl_cons, hidle]
      rw [hkeys] at hnodup hopen
      exact ih hnodup hopen hnonneg haccounts
    | some fd =>
      obtain ⟨hactive, rfl⟩ := TcpProbeInfo.sock?_eq_some.mp hp
      have hkeys : keys TcpProbeInfo.sock? (p :: L) = p.sock :: keys TcpProbeInfo.sock? L := by
        simp [keys, hp]
      rw [hkeys] at hnodup hopen
      obtain ⟨s, hs⟩ := (hopen p.sock).mpr List.mem_cons_self
      -- an active one holds an open socket, which is closed; the others stay open
      have hclose : destroySlot w p = closeSock p.sock w :=
        if_pos ⟨hactive, hnonneg _ s hs⟩
      have hat : (closeSock p.sock w).kernel.socketAt = _ := w.kernel.socketAt_close p.sock
      rw [List.foldl_cons, hclose]
      apply ih (List.nodup_cons.mp hnodup).2
      · intro fd
        rw [hat]
        by_cases hne : fd = p.sock
        · subst hne
          rw [Function.update_self]
          exact ⟨by simp, fun hmem => absurd hmem (List.nodup_cons.mp hnodup).1⟩
        · rw [Function.update_of_ne hne, hopen fd, List.mem_cons]
          simp [hne]
      · exact nonneg_update hat (hnonneg _ s hs) hnonneg
      · rw [closes_closeSock hs]
        exact haccounts.erase hs

/-- The destructor closes every socket that is still open, and the accounts of sockets are even
then. -/
theorem Owned.destroy (h : P.Owned none w) :
    (∀ fd, (destroy w).kernel.socketAt fd = none) ∧
      Accounts (·.id) (destroy w).kernel.sockets (destroy w).kernel.opened
        (closes (destroy w).trace) := by
  refine closed_of_destroySlots h.linked.keys_nodup ?_ h.nonneg h.accounts
  intro fd
  rw [mem_keys]
  constructor
  · rintro ⟨s, hs⟩
    cases hslot : s.slot with
    | none =>
      -- nothing is held outside the table
      have := (h.held fd).mpr ⟨s, hs, hslot⟩
      cases this
    | some i =>
      obtain ⟨p, hi, hp, hsock⟩ := h.active_of_socket hs hslot
      exact ⟨i, p, hi, TcpProbeInfo.sock?_eq_some.mpr ⟨hp, hsock⟩⟩
  · rintro ⟨i, p, hi, hp⟩
    obtain ⟨hactive, rfl⟩ := TcpProbeInfo.sock?_eq_some.mp hp
    obtain ⟨s, hs, -⟩ := h.socket_of_active hi hactive
    exact ⟨s, hs⟩

/-! ### Runs -/

/-- Reporting a result leaves the table, its counter and the cursor alone. -/
theorem report_frame (P : TcpScanner) (throws : Bool) (r : TcpHostResult) (st : TcpState) :
    (P.report throws r st).1.probeTable = st.probeTable ∧
      (P.report throws r st).1.activeProbes = st.activeProbes ∧
      (P.report throws r st).1.nextHostIdx = st.nextHostIdx := by
  simp only [report]
  split_ifs <;> exact ⟨rfl, rfl, rfl⟩

/-- The ownership of sockets at a control point: who holds which socket, and in which state of its
life. -/
structure OwnInv (P : TcpScanner) (w : TcpWorld) : Prop where
  /-- Until the destructor has run, sockets are held as `Owned` says. -/
  owned : w.pc ≠ .destroyed → P.Owned w.pc.sock? w
  /-- `initiate_single_connection` has found a free slot for its socket, which `connect` has been
  called on before it is registered. -/
  single : ∀ stage n slot ip fd, w.pc = .single stage n slot ip fd →
    (∃ (i : ℕ) (p : TcpProbeInfo), slot = i ∧ w.st.probeTable[i]? = some p ∧ p.active = false) ∧
    ∀ s, w.kernel.socketAt fd = some s → stage.Holds ip s
  /-- After the destructor nothing is open. -/
  destroyed : w.pc = .destroyed → (∀ fd, w.kernel.socketAt fd = none) ∧
    Accounts (·.id) w.kernel.sockets w.kernel.opened (closes w.trace)

/-- Outside `initiate_single_connection` the table holds all sockets, so one clause says
everything. -/
theorem OwnInv.of_owned (h : P.Owned none w) (hpc : w.pc.sock? = none)
    (hne : w.pc ≠ .destroyed) : P.OwnInv w := by
  refine ⟨fun _ => hpc.symm ▸ h, ?_, fun hd => absurd hd hne⟩
  intro stage n slot ip fd hsingle
  rw [hsingle] at hpc
  cases hpc

/-- The accounts of sockets are in order at every control point: each socket was opened once and
closed at most once. -/
theorem OwnInv.accounts (h : P.OwnInv w) :
    Accounts (·.id) w.kernel.sockets w.kernel.opened (closes w.trace) := by
  by_cases hpc : w.pc = .destroyed
  · exact (h.destroyed hpc).2
  · exact (h.owned hpc).accounts

/-- What happens to a connection from outside keeps the ownership of its socket: it changes neither
the number, the peer nor the registration. Only sockets that `connect` has been called on have a
connection, so the one that `initiate_single_connection` holds before that call is not touched. -/
theorem OwnInv.change (h : P.OwnInv w) {fd : ℤ} {s : TcpSocket} {f : TcpSocket → TcpSocket}
    (hs : w.kernel.socketAt fd = some s) (hbegun : s.status ≠ .idle) (hid : (f s).id = s.id)
    (hslot : (f s).slot = s.slot) (hpeer : (f s).peer = s.peer) {u : List TcpEvent}
    (hu : closes (w.trace ++ u) = closes w.trace) :
    P.OwnInv { w with kernel := w.kernel.update fd f, trace := w.trace ++ u } := by
  have hat := TcpKernel.socketAt_update hs f
  refine ⟨fun hne => ?_, ?_, ?_⟩
  · refine ((h.owned hne).update hs hid hslot (.inl hpeer)).congr ?_
    simp [tables, hu]
  · intro stage n slot ip fd' hpc
    obtain ⟨hfree, hholds⟩ := h.single stage n slot ip fd' hpc
    refine ⟨hfree, fun s' hs' => ?_⟩
    dsimp only at hs'
    rw [hat] at hs'
    by_cases hne : fd' = fd
    · subst hne
      rw [Function.update_self] at hs'
      cases hs'
      have hold := hholds s hs
      -- before `connect` a socket is idle, so it is another one
      cases stage with
      | opened | nonblocking => exact absurd hold.2 hbegun
      | connecting => exact hpeer.trans hold
    · rw [Function.update_of_ne hne] at hs'
      exact hholds s' hs'
  · intro hd
    rw [(h.destroyed hd).1 fd] at hs
    cases hs

/-- Every step keeps the ownership of sockets. A socket is held by `initiate_single_connection` from
`socket` on, by its entry of the table from `EPOLL_CTL_ADD` on, and by nobody once it is closed. -/
theorem OwnInv.step (hP : P.Ranged) (h : P.OwnInv w) (hstep : TcpStep P w l w') :
    P.OwnInv w' := by
  -- at the control points outside `initiate_single_connection` and before the destructor
  have hnone : ∀ pc, w.pc = pc → pc.sock? = none → pc ≠ .destroyed → P.Owned none w := by
    rintro pc rfl hsock hne
    exact hsock ▸ h.owned hne
  have hheld : ∀ stage n slot ip fd, w.pc = .single stage n slot ip fd → P.Owned (some fd) w := by
    intro stage n slot ip fd hpc
    have howned := h.owned (by simp [hpc])
    rwa [hpc] at howned
  -- `connect` is called on the socket held
  have hconnect : ∀ n slot ip fd s status, w.pc = .single .nonblocking n slot ip fd →
      w.kernel.socketAt fd = some s → ∀ u, closes (w.trace ++ u) = closes w.trace →
      P.OwnInv { w with
        pc := .single .connecting n slot ip fd
        kernel := w.kernel.update fd (.connect ip status)
        trace := w.trace ++ u } := by
    intro n slot ip fd s status hpc hs u hu
    refine ⟨fun _ => ?_, ?_, by simp⟩
    · refine ((hheld _ _ _ _ _ hpc).update (f := .connect ip status) hs rfl rfl (.inr rfl)).congr ?_
      simp [tables, hu]
    · intro stage n' slot' ip' fd' heq
      cases heq
      refine ⟨(h.single _ _ _ _ _ hpc).1, fun s' hs' => ?_⟩
      dsimp only at hs'
      rw [TcpKernel.socketAt_update hs, Function.update_self] at hs'
      cases hs'
      rfl
  cases hstep with
  | tick => exact ⟨fun hne => (h.owned hne).congr rfl, h.single, h.destroyed⟩
  -- what happens to a connection changes the socket, and not who holds it
  | @complete fd err s hs hpending =>
    exact h.change (f := .finish err w.kernel.clock) hs (by simp [hpending]) rfl rfl rfl
      (by simp [closes, TcpEvent.closed?])
  | @reset fd err s hs herr hconn =>
    have hbegun : s.status ≠ .idle := by
      intro hidle
      simp [TcpSocket.connected, hidle] at hconn
    have hchange := h.change (f := .breakOff err) (u := []) hs hbegun rfl rfl rfl (by simp)
    rwa [List.append_nil] at hchange
  -- these steps touch no socket and no entry
  | enter hpc | leave hpc | noSlot hpc | closedGate hpc | pollThrew hpc | pollTimeout hpc
  | pollFailed hpc | stale hpc | eventsDone hpc =>
    exact .of_owned ((hnone _ hpc rfl (by simp)).congr rfl) rfl (by simp)
  | skip hpc | socketFail hpc =>
    refine .of_owned ((hnone _ hpc rfl (by simp)).congr ?_) rfl (by simp)
    simp [tables, closes, TcpEvent.closed?]
  -- a new socket, for which the search has found a free slot
  | @socketOk n fd hpc hgo hlocal hslot hfd hfree =>
    have howned := hnone _ hpc rfl (by simp)
    obtain ⟨i, p, hfind, hi, hp⟩ := howned.findSlot hP hgo.2.1
    refine ⟨fun _ => (howned.openSocket hfd hfree).congr rfl, ?_, by simp⟩
    intro stage n slot ip fd heq
    cases heq
    refine ⟨⟨i, p, hfind, hi, hp⟩, fun s hs => ?_⟩
    dsimp only at hs
    rw [TcpKernel.socketAt_openSocket, Function.update_self] at hs
    cases hs
    exact ⟨rfl, rfl⟩
  | fcntlOk hpc =>
    refine ⟨fun _ => (hheld _ _ _ _ _ hpc).congr rfl, ?_, by simp⟩
    intro stage n slot ip fd heq
    cases heq
    exact h.single .opened _ _ _ _ hpc
  -- an early exit closes the socket held
  | fcntlFail hpc =>
    refine .of_owned ((hheld _ _ _ _ _ hpc).closeHeld.congr ?_) rfl (by simp)
    simp [tables, closes, TcpEvent.closed?]
  | @connected n ip slot fd s hpc hs =>
    exact hconnect _ _ _ _ _ _ hpc hs _ (by simp [closes, TcpEvent.closed?])
  | @inProgress n ip slot fd s hpc hs =>
    exact hconnect _ _ _ _ _ _ hpc hs _ (by simp [closes, TcpEvent.closed?])
  | @connectFail n ip slot fd s hpc hs =>
    have hlogged : P.Owned (some fd) { w with trace := w.trace ++ [.connect ip s.id] } :=
      (hheld _ _ _ _ _ hpc).congr (by simp [tables, closes, TcpEvent.closed?])
    exact .of_owned (hlogged.closeHeld.congr rfl) rfl (by simp)
  -- the slot takes the socket over
  | register hpc hs =>
    obtain ⟨⟨i, p, rfl, hi, hp⟩, hholds⟩ := h.single _ _ _ _ _ hpc
    have hbound := (List.getElem?_eq_some_iff.mp hi).1
    have howned := hheld _ _ _ _ _ hpc
    have hsize := howned.size
    have hprobes := hP.probes
    have hhosts := hP.hosts
    refine .of_owned ((howned.claim w.kernel.clock hholds hi hp (by omega)).congr ?_) rfl (by simp)
    simp [tables, closes, TcpEvent.closed?]
  | registerFail hpc => exact .of_owned ((hheld _ _ _ _ _ hpc).closeHeld.congr rfl) rfl (by simp)
  | pollEvents hpc =>
    refine .of_owned ((hnone _ hpc rfl (by simp)).congr ?_) rfl (by simp)
    have hnone : ∀ evs : List EpollEvent,
        (evs.map fun ev => TcpEvent.reported ev.source).filterMap TcpEvent.closed? = [] := by
      intro evs
      induction evs with
      | nil => rfl
      | cons ev evs ih => exact ih
    simp [tables, closes, hnone]
  -- the end of a probe closes the socket of its slot
  | @success ev evs dns throws p so hpc hi hp hso herr st threw hout =>
    refine .of_owned (((hnone _ hpc rfl (by simp)).retire hP hi hp).congr ?_) ?_ ?_
    · have hst := P.report_frame throws (P.probeResult w.kernel.clock dns p)
        (TcpScanner.retire ev.data w.st)
      rw [hout] at hst
      dsimp only at hst
      simp [tables, closes, closeSock, hso, hst, List.filterMap_cons, TcpEvent.closed?]
    · cases threw <;> rfl
    · cases threw <;> simp
  | failure hpc hi hp herr hne =>
    refine .of_owned (((hnone _ hpc rfl (by simp)).retire hP hi hp).congr ?_) rfl (by simp)
    simp [tables, closes, closeSock, List.filterMap_cons, TcpEvent.closed?]
  | reap hpc =>
    exact .of_owned (((hnone _ hpc rfl (by simp)).reapTimedOutProbes hP _).congr rfl) rfl (by simp)
  | destroy hpc =>
    have howned : P.Owned none w := by
      rcases hpc with hpc | hpc <;> exact hnone _ hpc rfl (by simp)
    refine ⟨fun hne => absurd rfl hne, by simp, fun _ => howned.destroy⟩

end TcpScanner

end Netscan
