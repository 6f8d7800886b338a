import Netscan.Ping.ControlData
import Netscan.Sizes
import Netscan.Utils.SysCalls

/-! # The descriptors of a ping scanner

The constructor opens a socket and an epoll instance and configures them in ten calls, each of which
can fail; the destructor closes both. As the constructor's own failures are not followed by the
destructor, it closes on each of them what it has opened so far. -/

namespace Netscan

open MachineInt Descriptors Calls SysKernel

/-! ### Constants -/

/-- `IPPROTO_ICMP`. -/
def ipprotoIcmp : ℕ := 1

/-- `O_NONBLOCK`. -/
def oNonblock : ℕ := 0x800

/-- `SO_SNDBUF`. -/
def soSndbuf : ℕ := 7

/-- `SO_RCVBUF`. -/
def soRcvbuf : ℕ := 8

/-- `IP_RECVTTL`. -/
def ipRecvttl : ℕ := 12

/-- `EPOLL_CLOEXEC`. -/
def epollCloexec : ℕ := 0x80000

/-- `EPOLLIN`. -/
def epollIn : ℕ := 0x1

/-- `EPOLLET`. -/
def epollEt : ℕ := 0x80000000

/-- `EINVAL`. -/
def einval : ℕ := 22

/-- `ENOPROTOOPT`. -/
def enoprotoopt : ℕ := 92

/-! ### The constructor and the destructor -/

/-- `close` on each of the descriptors, in order. No answer is looked at, as in the code. -/
def closeAll : List ℤ → SysProgram Unit
  | [] => pure ()
  | fd :: fds => do
    let _ ← Program.invoke (.close fd)
    closeAll fds

/-- A call whose failure is an exception, unless its error is one of `tolerated`: what is open is
closed first. -/
def checked (opened : List ℤ) (what : String) (c : SysCall) (tolerated : List ℕ) :
    SysProgram ℤ := do
  let r ← Program.invoke c
  if r.ret < 0 ∧ r.errno ∉ tolerated then do
    closeAll opened
    .throw ⟨r.errno, what⟩
  else pure r.ret

namespace PingScanner

/-- `initialize_socket`: `sock_` and `epoll_fd_`, or the exception of the first call that fails. -/
def initializeSocket (P : PingScanner) : SysProgram (ℤ × ℤ) := do
  let sock ← checked [] "socket(SOCK_DGRAM, IPPROTO_ICMP)" (.socket afInet sockDgram ipprotoIcmp) []
  let flags ← checked [sock] "fcntl(F_GETFL)" (.getfl sock) []
  let _ ← checked [sock] "fcntl(F_SETFL)" (.setfl sock (flags.toNat ||| oNonblock)) []
  let size := P.socketBufferSize
  let _ ← checked [sock] "setsockopt(SO_SNDBUF)" (.setsockopt sock solSocket soSndbuf size) []
  let _ ← checked [sock] "setsockopt(SO_RCVBUF)" (.setsockopt sock solSocket soRcvbuf size) []
  -- the next two options may be missing
  let _ ← checked [sock] "setsockopt(SO_TIMESTAMPNS)" (.setsockopt sock solSocket soTimestampns 1)
    [enoprotoopt, einval]
  let _ ← checked [sock] "setsockopt(SO_RXQ_OVFL)" (.setsockopt sock solSocket soRxqOvfl 1)
    [enoprotoopt, einval]
  let _ ← checked [sock] "setsockopt(IP_RECVTTL)" (.setsockopt sock ipprotoIp ipRecvttl 1) []
  let epollFd ← checked [sock] "epoll_create1" (.epollCreate1 epollCloexec) []
  let _ ← checked [epollFd, sock] "epoll_ctl(EPOLL_CTL_ADD)"
    (.epollCtlAdd epollFd sock (epollIn ||| epollEt)) []
  pure (sock, epollFd)

/-- A scanner with its two descriptors, as the constructor leaves it. -/
structure Object where
  /-- The members that are set once. -/
  scanner : PingScanner
  /-- `sock_`. -/
  sock : ℤ
  /-- `epoll_fd_`. -/
  epollFd : ℤ

/-- The constructor, call by call: the interface is looked up first, and then the socket is set
up. -/
def constructor (config : PingScannerConfig) (pid : ℕ) : SysProgram Object := do
  let networkInterface ← fetchCalls config.baseIp (u32 config.totalHosts)
  let scanner := { construct config none none pid with networkInterface := networkInterface }
  let fds ← scanner.initializeSocket
  pure ⟨scanner, fds.1, fds.2⟩

/-- The destructor: it closes what it holds, the socket first. -/
def destructor (o : Object) : SysProgram Unit := do
  if 0 ≤ o.sock then closeAll [o.sock] else pure ()
  if 0 ≤ o.epollFd then closeAll [o.epollFd] else pure ()

/-! ### Failures -/

/-- The text with which `initialize_socket` reports the failure of a call, by the call and the
option. -/
def calledAs : SysCall → String
  | .socket _ _ _ => "socket(SOCK_DGRAM, IPPROTO_ICMP)"
  | .getfl _ => "fcntl(F_GETFL)"
  | .setfl _ _ => "fcntl(F_SETFL)"
  | .setsockopt _ level optname _ =>
    if level = ipprotoIp then "setsockopt(IP_RECVTTL)"
    else if optname = soSndbuf then "setsockopt(SO_SNDBUF)"
    else if optname = soRcvbuf then "setsockopt(SO_RCVBUF)"
    else if optname = soTimestampns then "setsockopt(SO_TIMESTAMPNS)"
    else "setsockopt(SO_RXQ_OVFL)"
  | .epollCreate1 _ => "epoll_create1"
  | .epollCtlAdd _ _ _ => "epoll_ctl(EPOLL_CTL_ADD)"
  | _ => ""

/-- The kernel does not know one of the two options that may be missing. -/
def Tolerated (c : SysCall) (errno : ℕ) : Prop :=
  (∃ fd optname value, c = .setsockopt fd solSocket optname value ∧
    (optname = soTimestampns ∨ optname = soRxqOvfl)) ∧ (errno = enoprotoopt ∨ errno = einval)

/-- What an exception of the constructor leaves behind: nothing that was not there in `base`. The
last call but for those that close is the one that failed, and the exception says which it is and
with which error; it is not one that may be missing. -/
structure Failed (base : SysKernel) (e : SystemError) (k : SysKernel) : Prop where
  /-- Nothing is left open. -/
  owned : base.Owned owningNone owningNone k
  /-- The failure. -/
  blamed : ∃ before c r after, k.calls = base.calls ++ before ++ (c, r) :: after ∧ r.ret = -1 ∧
    ¬ Tolerated c r.errno ∧ e = ⟨r.errno, calledAs c⟩ ∧ ∀ x ∈ after, Closes x.1

section Rules

variable {base k : SysKernel} {own : ℤ → Option OpenFile} {lists : ℤ → Option (List IfAddrs)}
  {α : Type} {Q : Except SystemError α → SysKernel → Prop} {c : SysCall} {opened : List ℤ}
  {what : String} {tolerated : List ℕ}

/-- Closing all that is owned leaves nothing of it, by induction on the descriptors. -/
theorem post_closeAll (fds : List ℤ) : ∀ {own : ℤ → Option OpenFile} {k : SysKernel},
    base.Owned own lists k → fds.Nodup → (∀ fd, own fd ≠ none ↔ fd ∈ fds) →
    (closeAll fds).Post answer (fun r k' => r = .ok () ∧ base.Owned owningNone lists k' ∧
      ∃ after, k'.calls = k.calls ++ after ∧ ∀ x ∈ after, Closes x.1) k := by
  induction fds with
  | nil =>
    intro own k h _ hown
    have hnone : own = owningNone := by
      funext fd
      by_contra hfd
      exact List.not_mem_nil ((hown fd).mp hfd)
    rw [hnone] at h
    exact ⟨rfl, h, [], (List.append_nil _).symm, fun _ hx => by cases hx⟩
  | cons fd fds ih =>
    intro own k h hnodup hown
    obtain ⟨hfresh, hnodup⟩ := List.nodup_cons.mp hnodup
    refine Program.Post.invoke fun r k₁ hanswer => ?_
    obtain ⟨file, hfile⟩ := Option.ne_none_iff_exists'.mp ((hown fd).mpr List.mem_cons_self)
    -- what is owned after the first `close` are the others
    have hrest : ∀ x, Function.update own fd none x ≠ none ↔ x ∈ fds := by
      intro x
      by_cases hx : x = fd
      · subst hx
        rw [Function.update_self]
        exact iff_of_false (fun hne => hne rfl) hfresh
      · rw [Function.update_of_ne hx, hown x, List.mem_cons, or_iff_right hx]
    refine (ih (h.close hfile hanswer) hnodup hrest).mono ?_
    rintro r' k' ⟨rfl, hk', after, hafter, hcloses⟩
    refine ⟨rfl, hk', (.close fd, r) :: after, ?_, ?_⟩
    · obtain rfl := Option.some.inj hanswer
      rw [hafter, SysKernel.logged, List.append_assoc]
      rfl
    · intro x hx
      rcases List.mem_cons.mp hx with rfl | hx
      · exact trivial
      · exact hcloses x hx

/-- The rule for calls that are checked: the failure is an exception that leaves nothing behind, or
it is tolerated. -/
theorem post_checked {f : ℤ → SysProgram α} (h : base.Owned own owningNone k) (hc : ¬ Closes c)
    (hopened : opened.Nodup) (hown : ∀ fd, own fd ≠ none ↔ fd ∈ opened)
    (hwhat : calledAs c = what) (htolerated : ∀ errno, Tolerated c errno → errno ∈ tolerated)
    (herror : ∀ e k', Failed base e k' → Q (.error e) k')
    (hmissing : ∀ r, r.errno ∈ tolerated → (f r.ret).Post answer Q (k.logged c r))
    (hok : ∀ r k', 0 ≤ r.ret → (k.logged c r).succeed r c = some k' →
      (f r.ret).Post answer Q k') :
    (checked opened what c tolerated >>= f).Post answer Q k := by
  refine Program.Post.bind (Program.Post.invoke fun r k₁ hanswer => ?_)
  rcases answer_cases hc hanswer with ⟨hret, rfl⟩ | ⟨hret, hdone⟩
  -- the call failed: its error is one of those that are passed over, or the exception closes all
  · by_cases hmay : r.errno ∈ tolerated
    · rw [if_neg fun hfail => hfail.2 hmay]
      exact hmissing r hmay
    · rw [if_pos ⟨by omega, hmay⟩]
      refine Program.Post.bind ((post_closeAll opened (h.logged c r) hopened hown).mono ?_)
      rintro _ k' ⟨rfl, hk', after, hafter, hcloses⟩
      refine herror _ k' ⟨hk', ?_⟩
      obtain ⟨before, hbefore⟩ := h.calls
      refine ⟨before, c, r, after, ?_, hret, fun htol => hmay (htolerated _ htol), ?_, hcloses⟩
      · rw [hafter, SysKernel.logged, ← hbefore, List.append_assoc, List.singleton_append]
      · rw [hwhat]
  · rw [if_neg fun hfail => absurd hfail.1 (by omega)]
    exact hok r k₁ hret hdone

/-- A single descriptor is all that is owned, so a failure has to close no other. -/
theorem owning_ne_none {α : Type} {fd : ℤ} {a : α} (x : ℤ) : owning fd a x ≠ none ↔ x ∈ [fd] := by
  rw [List.mem_singleton]
  unfold owning
  split_ifs with hx
  · exact iff_of_true (by simp) hx
  · exact iff_of_false (fun hne => hne rfl) hx

/-- Only two options may be missing. A failure of any other call is an exception. -/
theorem not_tolerated (hc : ∀ fd optname value, c = .setsockopt fd solSocket optname value →
    optname ≠ soTimestampns ∧ optname ≠ soRxqOvfl) (errno : ℕ) (h : Tolerated c errno) :
    errno ∈ ([] : List ℕ) := by
  obtain ⟨⟨fd, optname, value, heq, hname⟩, -⟩ := h
  obtain ⟨hts, hovfl⟩ := hc fd optname value heq
  rcases hname with hname | hname
  · exact absurd hname hts
  · exact absurd hname hovfl

/-- These are the errors that a missing option has: it is unknown or not supported. -/
theorem tolerated_errnos (errno : ℕ) (h : Tolerated c errno) : errno ∈ [enoprotoopt, einval] := by
  rcases h.2 with rfl | rfl
  · exact List.mem_cons_self
  · exact List.mem_cons_of_mem _ List.mem_cons_self

/-- The rule for options: the option is set, or it may be missing. -/
theorem post_setsockopt {rest : SysProgram α} {sock value : ℤ} {level optname : ℕ}
    {domain type protocol flags : ℕ} {options : List (ℕ × ℕ × ℤ)}
    (h : base.Owned (owning sock (.socket domain type protocol flags options)) owningNone k)
    (hwhat : calledAs (.setsockopt sock level optname value) = what)
    (htolerated : ∀ errno, Tolerated (.setsockopt sock level optname value) errno →
      errno ∈ tolerated)
    (herror : ∀ e k', Failed base e k' → Q (.error e) k')
    (hnext : ∀ optional k', optional.Sublist [(level, optname, value)] →
      (tolerated = [] → optional = [(level, optname, value)]) →
      base.Owned (owning sock (.socket domain type protocol flags (options ++ optional)))
        owningNone k' → rest.Post answer Q k') :
    (checked [sock] what (.setsockopt sock level optname value) tolerated >>= fun _ => rest).Post
      answer Q k := by
  refine post_checked h id (List.nodup_singleton sock) owning_ne_none hwhat htolerated herror ?_ ?_
  -- the option is missing and the socket stays as it was
  · intro r hr
    refine hnext [] _ (List.nil_sublist _) (fun hall => absurd hall (List.ne_nil_of_mem hr)) ?_
    rw [List.append_nil]
    exact h.logged _ _
  · intro r k' _ hdone
    have hset := (h.logged _ _).changeFile owning_self hdone
    rw [update_owning, update_owningNone] at hset
    exact hnext _ k' (List.Sublist.refl _) (fun _ => rfl) hset

end Rules

/-! ### The constructor -/

/-- The two descriptors of a constructed scanner: a non-blocking ICMP socket with its options, of
which only two may be missing, and an epoll instance that watches this socket and nothing else for
input, edge-triggered. -/
structure Ready (P : PingScanner) (base : SysKernel) (sock epollFd : ℤ) (k : SysKernel) : Prop where
  /-- Both are valid. -/
  nonneg : 0 ≤ sock ∧ 0 ≤ epollFd
  /-- They are two. -/
  ne : sock ≠ epollFd
  /-- They are open, as they should be, and nothing else is that was not before. -/
  owned : ∃ file serial optional,
    file = OpenFile.socket afInet sockDgram ipprotoIcmp (oRdwr ||| oNonblock)
      ([(solSocket, soSndbuf, P.socketBufferSize), (solSocket, soRcvbuf, P.socketBufferSize)] ++
        optional ++ [(ipprotoIp, ipRecvttl, 1)]) ∧
    optional.Sublist [(solSocket, soTimestampns, 1), (solSocket, soRxqOvfl, 1)] ∧
    AList.lookup sock k.files.table = some (serial, file) ∧
    base.Owned (Function.update (owning sock file) epollFd
      (some (.epoll [(serial, epollIn ||| epollEt)]))) owningNone k

/-- `F_GETFL` finds the flags of a socket, which `F_SETFL` then adds to. -/
theorem getfl_done {base k k' : SysKernel} {own : ℤ → Option OpenFile}
    {lists : ℤ → Option (List IfAddrs)} {fd : ℤ} {r : SysAnswer} {domain type protocol flags : ℕ}
    {options : List (ℕ × ℕ × ℤ)} (h : base.Owned own lists k)
    (hfd : own fd = some (.socket domain type protocol flags options))
    (hdone : k.succeed r (.getfl fd) = some k') : r.ret = flags ∧ k' = k := by
  obtain ⟨hstate, -⟩ := h.files.own_open hfd
  unfold succeed at hdone
  dsimp only at hdone
  rw [hstate] at hdone
  dsimp only [Option.bind_some, OpenFile.flags?] at hdone
  split_ifs at hdone with hret
  exact ⟨hret, (Option.some.inj hdone).symm⟩

/-- `EPOLL_CTL_ADD` puts the socket under watch, by its number in the table of open files. -/
theorem epollCtlAdd_done {base k k' : SysKernel} {own : ℤ → Option OpenFile}
    {lists : ℤ → Option (List IfAddrs)} {sock epollFd : ℤ} {r : SysAnswer} {serial events : ℕ}
    {file : OpenFile} (h : base.Owned own lists k) (hne : sock ≠ epollFd)
    (hepoll : own epollFd = some (.epoll []))
    (hsock : AList.lookup sock k.files.table = some (serial, file))
    (hdone : k.succeed r (.epollCtlAdd epollFd sock events) = some k') :
    AList.lookup sock k'.files.table = some (serial, file) ∧
      base.Owned (Function.update own epollFd (some (.epoll [(serial, events)]))) lists k' := by
  unfold succeed at hdone
  dsimp only at hdone
  rw [hsock] at hdone
  refine ⟨?_, h.changeFile hepoll hdone⟩
  obtain ⟨_, _, rfl⟩ := Option.map_eq_some_iff.mp hdone
  dsimp only
  rw [Ledger.lookup_change_of_ne _ _ hne, hsock]

/-- The end of `initialize_socket`: an epoll instance that watches the socket, or both are closed
again. -/
theorem post_watch {base k : SysKernel} {Q : Except SystemError (ℤ × ℤ) → SysKernel → Prop}
    {sock : ℤ} {file : OpenFile} (h : base.Owned (owning sock file) owningNone k)
    (herror : ∀ e k', Failed base e k' → Q (.error e) k')
    (hnext : ∀ (epollFd : ℤ) serial k', 0 ≤ epollFd → sock ≠ epollFd →
      AList.lookup sock k'.files.table = some (serial, file) →
      base.Owned (Function.update (owning sock file) epollFd
        (some (.epoll [(serial, epollIn ||| epollEt)]))) owningNone k' →
      Q (.ok (sock, epollFd)) k') :
    (checked [sock] "epoll_create1" (.epollCreate1 epollCloexec) [] >>= fun epollFd =>
      checked [epollFd, sock] "epoll_ctl(EPOLL_CTL_ADD)"
        (.epollCtlAdd epollFd sock (epollIn ||| epollEt)) [] >>= fun _ =>
      pure (sock, epollFd)).Post answer Q k := by
  refine post_checked h id (List.nodup_singleton sock) owning_ne_none rfl
    (not_tolerated fun _ _ _ hc => by cases hc) herror (fun _ hr => by cases hr) ?_
  intro r k₁ hepoll hdone
  obtain ⟨hnew, h₁⟩ := (h.logged _ _).openFile hdone
  generalize r.ret = epollFd at hepoll hnew h₁
  -- a new descriptor is none that is open
  have hne : sock ≠ epollFd := by
    rintro rfl
    rw [owning_self] at hnew
    cases hnew
  have hboth : [epollFd, sock].Nodup := by simp [hne.symm]
  refine post_checked h₁ id hboth ?_ rfl (not_tolerated fun _ _ _ hc => by cases hc) herror
    (fun _ hr => by cases hr) ?_
  · intro fd
    by_cases hfd : fd = epollFd
    · subst hfd
      rw [Function.update_self]
      exact iff_of_true (by simp) List.mem_cons_self
    · rw [Function.update_of_ne hfd, owning_ne_none, List.mem_cons (b := epollFd), or_iff_right hfd]
  intro r k₂ _ hdone
  obtain ⟨serial, hserial⟩ := (h₁.logged _ _).files.lookup_own
    ((Function.update_of_ne hne _ _).trans owning_self)
  obtain ⟨hlookup, h₂⟩ := epollCtlAdd_done (h₁.logged _ _) hne (Function.update_self ..) hserial
    hdone
  rw [Function.update_idem] at h₂
  exact hnext epollFd serial k₂ hepoll hne hlookup h₂

/-- `initialize_socket` makes both descriptors, or it leaves nothing behind. Each call is one
application of the rule for checked calls. -/
theorem post_initializeSocket (P : PingScanner) {base k : SysKernel}
    (h : base.Owned owningNone owningNone k) :
    P.initializeSocket.Post answer (fun r k' =>
      match r with
      | .ok fds => P.Ready base fds.1 fds.2 k'
      | .error e => Failed base e k') k := by
  have herror : ∀ (e : SystemError) (k' : SysKernel), Failed base e k' → Failed base e k' :=
    fun _ _ hfailed => hfailed
  refine post_checked h id List.nodup_nil (fun fd => by simp) rfl
    (not_tolerated fun _ _ _ hc => by cases hc) herror (fun _ hr => by cases hr) ?_
  -- `socket`, then the two `fcntl` calls
  intro r k₁ hsock hdone
  obtain ⟨-, h₁⟩ := (h.logged _ _).openFile hdone
  rw [update_owningNone] at h₁
  generalize r.ret = sock at hsock h₁
  refine post_checked h₁ id (List.nodup_singleton sock) owning_ne_none rfl
    (not_tolerated fun _ _ _ hc => by cases hc) herror (fun _ hr => by cases hr) ?_
  intro r k₂ _ hdone
  obtain ⟨hflags, rfl⟩ := getfl_done (h₁.logged _ _) owning_self hdone
  rw [hflags]
  refine post_checked ((h₁.logged _ _)) id (List.nodup_singleton sock) owning_ne_none rfl
    (not_tolerated fun _ _ _ hc => by cases hc) herror (fun _ hr => by cases hr) ?_
  intro r k₃ _ hdone
  have h₃ := ((h₁.logged _ _).logged _ _).changeFile owning_self hdone
  rw [update_owning, update_owningNone] at h₃
  -- the five options, of which the two for time stamps and drops may be missing
  refine post_setsockopt h₃ rfl (not_tolerated fun _ _ _ hc => by cases hc; decide) herror ?_
  intro options₄ k₄ _ hset h₄
  obtain rfl := hset rfl
  refine post_setsockopt h₄ rfl (not_tolerated fun _ _ _ hc => by cases hc; decide) herror ?_
  intro options₅ k₅ _ hset h₅
  obtain rfl := hset rfl
  refine post_setsockopt h₅ rfl tolerated_errnos herror ?_
  intro options₆ k₆ hts _ h₆
  refine post_setsockopt h₆ rfl tolerated_errnos herror ?_
  intro options₇ k₇ hovfl _ h₇
  refine post_setsockopt h₇ rfl (not_tolerated fun _ _ _ hc => by cases hc) herror ?_
  intro options₈ k₈ _ hset h₈
  obtain rfl := hset rfl
  -- the epoll instance
  refine post_watch h₈ herror fun epollFd serial k₉ hepoll hne hlookup h₉ => ?_
  have hoptions : [] ++ [(solSocket, soSndbuf, P.socketBufferSize)] ++
      [(solSocket, soRcvbuf, P.socketBufferSize)] ++ options₆ ++ options₇ ++
        [(ipprotoIp, ipRecvttl, 1)] =
      [(solSocket, soSndbuf, P.socketBufferSize), (solSocket, soRcvbuf, P.socketBufferSize)] ++
        (options₆ ++ options₇) ++ [(ipprotoIp, ipRecvttl, 1)] := by
    simp only [List.nil_append, List.append_assoc, List.cons_append]
  rw [hoptions] at hlookup h₉
  exact ⟨⟨hsock, hepoll⟩, hne, _, serial, options₆ ++ options₇, rfl, hts.append hovfl, hlookup, h₉⟩

/-- The constructor makes a scanner with its descriptors, or it leaves nothing behind. -/
theorem post_constructor (config : PingScannerConfig) (pid : ℕ) {base : SysKernel}
    (hbase : base.Balanced) :
    (constructor config pid).Post answer (fun r k =>
      match r with
      | .ok o => (∃ routedIp ifaddrs, o.scanner = construct config routedIp ifaddrs pid) ∧
          o.scanner.Ready base o.sock o.epollFd k
      | .error e => Failed base e k) base := by
  refine Program.Post.bind ((post_fetchCalls hbase.owned _ _).mono ?_)
  rintro _ k₁ ⟨routedIp, ifaddrs, rfl, h₁⟩
  refine Program.Post.bind ((post_initializeSocket _ h₁).mono ?_)
  intro r k₂ hr
  cases r with
  | ok fds => exact ⟨⟨routedIp, ifaddrs, rfl⟩, hr⟩
  | error e => exact hr

/-- The destructor closes both, so nothing of the scanner is left. -/
theorem post_destructor {base k : SysKernel} {o : Object}
    (h : o.scanner.Ready base o.sock o.epollFd k) :
    (destructor o).Post answer (fun r k' => r = .ok () ∧ base.Owned owningNone owningNone k')
      k := by
  obtain ⟨⟨hsock, hepoll⟩, hne, file, serial, optional, -, -, -, howned⟩ := h
  unfold destructor
  rw [if_pos hsock, if_pos hepoll]
  refine Program.Post.bind (Program.Post.invoke fun r k₁ hclose => ?_)
  have h₁ := howned.close (by rw [Function.update_of_ne hne, owning_self]) hclose
  rw [Function.update_comm hne.symm, update_owning, Function.update_eq_self_iff.mpr rfl,
    update_owningNone] at h₁
  refine (post_closeAll [o.epollFd] h₁ (List.nodup_singleton _) owning_ne_none).mono ?_
  rintro r' k' ⟨hr', hk', -⟩
  exact ⟨hr', hk'⟩

/-! ### The scanner in its scope -/

/-- A call that opens and closes nothing keeps the scanner's descriptors, whatever it is
answered. -/
theorem ready_of_io {P : PingScanner} {base k k' : SysKernel} {sock epollFd fd : ℤ} {r : SysAnswer}
    (h : P.Ready base sock epollFd k) (hanswer : k.answer (.io fd) r = some k') :
    P.Ready base sock epollFd k' := by
  have hlogged : k' = k.logged (.io fd) r := by
    rcases answer_cases id hanswer with ⟨-, rfl⟩ | ⟨-, hdone⟩
    · rfl
    · obtain ⟨_, _, rfl⟩ := Option.map_eq_some_iff.mp hdone
      rfl
  subst hlogged
  obtain ⟨hnonneg, hne, file, serial, optional, hfile, hsub, hlookup, howned⟩ := h
  exact ⟨hnonneg, hne, file, serial, optional, hfile, hsub, hlookup, howned.logged _ _⟩

/-- What is known of the life of a scanner that is made when the kernel is in state `base`. -/
structure Lifetime (config : PingScannerConfig) (pid : ℕ) (base : SysKernel) : Prop where
  /-- The constructor makes the scanner and its two descriptors, or it throws and leaves nothing
  behind. -/
  made : ∀ {r k}, Program.Ends answer (constructor config pid) base r k →
    match r with
    | .ok o => (∃ routedIp ifaddrs, o.scanner = construct config routedIp ifaddrs pid) ∧
        o.scanner.Ready base o.sock o.epollFd k
    | .error e => Failed base e k
  /-- When the scanner's scope is left, by an exception or without, everything that was opened since
  it was entered has been closed, exactly once, and nothing else has. -/
  inScope : ∀ {α : Type} {use : Object → SysProgram α},
    (∀ o, (use o).Uses fun c => c = .io o.sock ∨ c = .io o.epollFd) →
    ∀ {r k}, Program.Ends answer (Program.scope (constructor config pid) use destructor) base r k →
      Settled base k

/-- **No descriptor of a ping scanner is lost or closed twice**, whichever of its calls fail. -/
theorem lifetime (config : PingScannerConfig) (pid : ℕ) {base : SysKernel} (hbase : base.Balanced) :
    Lifetime config pid base where
  made := (post_constructor config pid hbase).of_ends
  inScope := by
    intro α use huse r k hrun
    refine Program.Post.of_ends (Q := fun _ k => Settled base k) ?_ hrun
    refine Program.Post.scope (J := fun o k => o.scanner.Ready base o.sock o.epollFd k)
      ((post_constructor config pid hbase).mono fun r k₁ hr => ?_) (fun o k₁ hready => ?_)
      (fun o k₁ _ hready => (post_destructor hready).mono fun d k₂ hd => ?_)
    · cases r with
      | ok o => exact hr.2
      | error e => exact hr.owned.settled hbase
    · refine Program.Post.of_uses (huse o) (fun c a k k' hc hk hanswer => ?_) hready
      rcases hc with rfl | rfl <;> exact ready_of_io hk hanswer
    · obtain ⟨rfl, howned⟩ := hd
      exact howned.settled hbase

/-- Answers to the calls of the constructor: there is no route to the Internet, and `IP_RECVTTL` is
refused. -/
def refusedTtl (_ : SysKernel) : SysCall → SysAnswer
  | .socket _ _ _ => { ret := 3 }
  | .connect _ _ _ => { ret := -1, errno := 101 }
  | .getfl _ => { ret := oRdwr }
  | .setsockopt _ level optname _ =>
    if level = ipprotoIp then { ret := -1, errno := einval }
    else if optname = soTimestampns then { ret := -1, errno := enoprotoopt }
    else { ret := 0 }
  | _ => { ret := 0 }

/-- A kernel without timestamps is tolerated, one without the time to live is not: the constructor
throws and leaves nothing behind. -/
theorem lifetime_refusedTtl : ∃ k,
    Program.Ends answer (constructor { baseIp := 0x0A000000, totalHosts := 4 } 7) {}
      (.error ⟨einval, "setsockopt(IP_RECVTTL)"⟩) k ∧
    Failed {} ⟨einval, "setsockopt(IP_RECVTTL)"⟩ k := by
  have hrun : (Program.exec answer refusedTtl
      (constructor { baseIp := 0x0A000000, totalHosts := 4 } 7) {}).map Prod.fst =
        some (.error ⟨einval, "setsockopt(IP_RECVTTL)"⟩) := rfl
  obtain ⟨⟨r, k⟩, hexec, rfl⟩ := Option.map_eq_some_iff.mp hrun
  have hends := Program.ends_of_exec hexec
  have hbase : Balanced {} := ⟨accounts_empty, accounts_empty⟩
  exact ⟨k, hends, (lifetime _ _ hbase).made hends⟩

end PingScanner

end Netscan
