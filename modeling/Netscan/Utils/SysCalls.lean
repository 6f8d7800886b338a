import Netscan.Lib.Calls
import Netscan.Lib.Descriptors
import Netscan.Utils.Interface

/-! # System calls that open and close

The calls by which the scanners open, configure and close descriptors, with every answer that a
kernel can give to them, and `NetworkInterface::fetch` as a program of such calls. What the calls
have opened is kept in a ledger. -/

namespace Netscan

open MachineInt Descriptors Calls

/-! ### Calls and answers -/

/-- What an open descriptor stands for, as far as the program sets it up. -/
inductive OpenFile where
  /-- A socket: what `socket` was called with, its file status flags and the options that were set,
  in order. -/
  | socket (domain type protocol flags : ℕ) (options : List (ℕ × ℕ × ℤ))
  /-- An epoll instance: the serial numbers of the descriptors it watches, and for what. -/
  | epoll (interest : List (ℕ × ℕ))
  deriving DecidableEq, Repr

/-- The calls, with the arguments that matter for descriptors and lists. -/
inductive SysCall where
  /-- `socket`. -/
  | socket (domain type protocol : ℕ)
  /-- `fcntl` with `F_GETFL`. -/
  | getfl (fd : ℤ)
  /-- `fcntl` with `F_SETFL`. -/
  | setfl (fd : ℤ) (flags : ℕ)
  /-- `setsockopt` with an `int`. -/
  | setsockopt (fd : ℤ) (level optname : ℕ) (value : ℤ)
  /-- `connect`, to an address and a port. -/
  | connect (fd : ℤ) (address port : ℕ)
  /-- `getsockname`. -/
  | getsockname (fd : ℤ)
  /-- `epoll_create1`. -/
  | epollCreate1 (flags : ℕ)
  /-- `epoll_ctl` with `EPOLL_CTL_ADD`. -/
  | epollCtlAdd (epfd fd : ℤ) (events : ℕ)
  /-- `close`. -/
  | close (fd : ℤ)
  /-- `getifaddrs`. -/
  | getifaddrs
  /-- `freeifaddrs`. -/
  | freeifaddrs (list : ℤ)
  /-- Any call on a descriptor that opens and closes none: sending, receiving, waiting. -/
  | io (fd : ℤ)
  deriving DecidableEq, Repr

/-- The answer to a call: its return value, `errno`, and what it leaves in its out parameters. -/
structure SysAnswer where
  /-- The return value. -/
  ret : ℤ
  /-- `errno`, after a failure. -/
  errno : ℕ := 0
  /-- The address that `getsockname` finds. -/
  address : ℕ := 0
  /-- Where the list that `getifaddrs` makes begins. -/
  list : ℤ := 0
  /-- The list. -/
  ifaddrs : List IfAddrs := []

/-- The kernel's side: the descriptors and the interface lists of the process, and the calls so
far. -/
structure SysKernel where
  /-- The descriptors. -/
  files : Ledger OpenFile := {}
  /-- The interface lists that `getifaddrs` has allocated. -/
  lists : Ledger (List IfAddrs) := {}
  /-- The calls, with their answers. -/
  calls : List (SysCall × SysAnswer) := []

/-- `O_RDWR`. -/
def oRdwr : ℕ := 0x2

/-- `F_SETFL`: a socket gets these flags. -/
def OpenFile.withFlags (flags : ℕ) : OpenFile → OpenFile
  | .socket domain type protocol _ options => .socket domain type protocol flags options
  | .epoll interest => .epoll interest

/-- `setsockopt`: a socket has this option set, after those before. -/
def OpenFile.withOption (level optname : ℕ) (value : ℤ) : OpenFile → OpenFile
  | .socket domain type protocol flags options =>
    .socket domain type protocol flags (options ++ [(level, optname, value)])
  | .epoll interest => .epoll interest

/-- `EPOLL_CTL_ADD`: an epoll instance watches one descriptor more. -/
def OpenFile.watching (serial events : ℕ) : OpenFile → OpenFile
  | .socket domain type protocol flags options => .socket domain type protocol flags options
  | .epoll interest => .epoll (interest ++ [(serial, events)])

/-- The file status flags of a socket, which `F_GETFL` returns. -/
def OpenFile.flags? : OpenFile → Option ℕ
  | .socket _ _ _ flags _ => some flags
  | .epoll _ => none

namespace SysKernel

/-- A call that succeeds on an open descriptor. There is no such answer for one that is not open. -/
def changeFile (fd : ℤ) (f : OpenFile → OpenFile) (k : SysKernel) : Option SysKernel :=
  (k.files.state? fd).map fun _ => { k with files := k.files.change fd f }

/-- A call that opens a descriptor. The number is not in use. -/
def openFile (fd : ℤ) (file : OpenFile) (k : SysKernel) : Option SysKernel :=
  match AList.lookup fd k.files.table with
  | none => some { k with files := k.files.issue fd file }
  | some _ => none

/-- The kernel after a call that was answered by a return value other than a failure, if it can be
answered so. -/
def succeed (k : SysKernel) (r : SysAnswer) : SysCall → Option SysKernel
  | .socket domain type protocol => k.openFile r.ret (.socket domain type protocol oRdwr [])
  | .getfl fd =>
    match (k.files.state? fd).bind OpenFile.flags? with
    | some flags => if r.ret = flags then some k else none
    | none => none
  | .setfl fd flags => k.changeFile fd (.withFlags flags)
  | .setsockopt fd level optname value => k.changeFile fd (.withOption level optname value)
  | .connect _ _ _ => some k
  | .getsockname _ => some k
  | .epollCreate1 _ => k.openFile r.ret (.epoll [])
  | .epollCtlAdd epfd fd events =>
    match AList.lookup fd k.files.table with
    | some (serial, _) => k.changeFile epfd (.watching serial events)
    | none => none
  | .getifaddrs =>
    match AList.lookup r.list k.lists.table with
    | none => some { k with lists := k.lists.issue r.list r.ifaddrs }
    | some _ => none
  | .close _ | .freeifaddrs _ => some k
  | .io fd => (k.files.state? fd).map fun _ => k

/-- The call is in the log, with its answer. -/
def logged (c : SysCall) (r : SysAnswer) (k : SysKernel) : SysKernel :=
  { k with calls := k.calls ++ [(c, r)] }

/-- The kernel after a call that was answered by `r`, if it can be answered so. A call that fails
returns `-1` and changes nothing, but `close` closes and `freeifaddrs` frees in any case. -/
def answer (k : SysKernel) (c : SysCall) (r : SysAnswer) : Option SysKernel :=
  match c with
  | .close fd => some { k.logged c r with files := k.files.release fd }
  | .freeifaddrs list => some { k.logged c r with lists := k.lists.release list }
  | _ =>
    if r.ret = -1 then some (k.logged c r)
    else if 0 ≤ r.ret then (k.logged c r).succeed r c
    else none

end SysKernel

/-- `std::system_error`: its code and its text, which name the call that failed. -/
structure SystemError where
  /-- The value of `errno`. -/
  code : ℕ
  /-- The text. -/
  what : String
  deriving DecidableEq, Repr

/-- A program of system calls, which may end with such an exception. -/
abbrev SysProgram (α : Type) := Program SysCall (fun _ => SysAnswer) SystemError α

/-! ### `NetworkInterface::fetch` -/

/-- `SOCK_DGRAM`. -/
def sockDgram : ℕ := 2

/-- `IPPROTO_UDP`. -/
def ipprotoUdp : ℕ := 17

/-- `default_dns_port`. -/
def defaultDnsPort : ℕ := 53

/-- `default_dns_ip`, as a number: `1.1.1.1`. -/
def defaultDnsIp : ℕ := 0x01010101

/-- The route lookup of `fetch`: the source address that the kernel selects, if it selects one.
`getsockname` is called only if `connect` succeeds, and the socket is closed in any case. -/
def routedAddress (sock : ℤ) : SysProgram (Option ℕ) := do
  let connected ← Program.invoke (.connect sock defaultDnsIp defaultDnsPort)
  let routed ←
    if connected.ret = 0 then do
      let named ← Program.invoke (.getsockname sock)
      pure (if named.ret = 0 then some named.address else none)
    else pure none
  let _ ← Program.invoke (.close sock)
  pure routed

/-- The rest of `fetch`. The list is freed at both of its ends. -/
def matchedInterface (localIp targetBaseIp totalHosts : ℕ) : SysProgram NetworkInterface := do
  let listed ← Program.invoke .getifaddrs
  if listed.ret = -1 then pure {}
  else do
    let interface := NetworkInterface.fetch (some localIp) (some listed.ifaddrs) targetBaseIp
      totalHosts
    let _ ← Program.invoke (.freeifaddrs listed.list)
    pure interface

/-- `NetworkInterface::fetch`, call by call: the route lookup, and then the list of interfaces. -/
def fetchCalls (targetBaseIp totalHosts : ℕ) : SysProgram NetworkInterface := do
  let sock ← Program.invoke (.socket afInet sockDgram ipprotoUdp)
  if sock.ret < 0 then pure {}
  else do
    match ← routedAddress sock.ret with
    | none => pure {}
    | some localIp => matchedInterface localIp targetBaseIp totalHosts

/-! ### What the calls of a program leave open -/

/-- Since `base` the descriptors in `own` were opened and are open, with nothing else changed but
what was opened and closed again; so are the lists in `lists`. -/
structure SysKernel.Owned (base : SysKernel) (own : ℤ → Option OpenFile)
    (lists : ℤ → Option (List IfAddrs)) (k : SysKernel) : Prop where
  /-- The descriptors. -/
  files : base.files.Owns own k.files
  /-- The interface lists. -/
  lists : base.lists.Owns lists k.lists
  /-- The log goes on. -/
  calls : base.calls <+: k.calls

/-- Nothing is owned. -/
abbrev owningNone {α : Type} : ℤ → Option α := fun _ => none

/-- A single descriptor is owned, with what it stands for. -/
def owning {α : Type} (fd : ℤ) (a : α) : ℤ → Option α := fun x => if x = fd then some a else none

section Owning

variable {α : Type} {fd fd' : ℤ} {a b : α}

@[simp] theorem owning_self : owning fd a fd = some a := if_pos rfl

/-- The first descriptor that is opened is then the only one. -/
theorem update_owningNone : Function.update owningNone fd (some a) = owning fd a := by
  funext x
  by_cases hx : x = fd
  · subst hx
    rw [Function.update_self, owning_self]
  · rw [Function.update_of_ne hx]
    exact (if_neg hx).symm

/-- With a single descriptor owned, a change of it forgets what it was. -/
theorem update_owning (o : Option α) :
    Function.update (owning fd a) fd o = Function.update owningNone fd o := by
  funext x
  by_cases hx : x = fd
  · subst hx
    rw [Function.update_self, Function.update_self]
  · rw [Function.update_of_ne hx, Function.update_of_ne hx]
    exact if_neg hx

end Owning

namespace SysKernel

variable {base k k' : SysKernel} {own : ℤ → Option OpenFile} {lists : ℤ → Option (List IfAddrs)}
  {c : SysCall} {r : SysAnswer} {fd : ℤ} {file : OpenFile}

/-- The calls that close or free. The program does not look at their answers. -/
def Closes : SysCall → Prop
  | .close _ | .freeifaddrs _ => True
  | _ => False

/-- An entry in the log changes nothing that is owned. -/
theorem Owned.logged (h : base.Owned own lists k) (c : SysCall) (r : SysAnswer) :
    base.Owned own lists (k.logged c r) :=
  ⟨h.files, h.lists, h.calls.trans (List.prefix_append _ _)⟩

/-- A call fails, or it succeeds with its effect, unless it is one of those that close. -/
theorem answer_cases (hc : ¬ Closes c) (h : k.answer c r = some k') :
    (r.ret = -1 ∧ k' = k.logged c r) ∨ (0 ≤ r.ret ∧ (k.logged c r).succeed r c = some k') := by
  have hdef : k.answer c r = if r.ret = -1 then some (k.logged c r)
      else if 0 ≤ r.ret then (k.logged c r).succeed r c else none := by
    cases c <;> first | rfl | exact absurd trivial hc
  rw [hdef] at h
  split_ifs at h with hfail hok
  · exact .inl ⟨hfail, (Option.some.inj h).symm⟩
  · exact .inr ⟨hok, h⟩

/-- Opening a descriptor: the new one was not owned and is so from now on. -/
theorem Owned.openFile (h : base.Owned own lists k) (hopen : k.openFile fd file = some k') :
    own fd = none ∧ base.Owned (Function.update own fd (some file)) lists k' := by
  unfold SysKernel.openFile at hopen
  split at hopen
  · next hfd =>
    obtain rfl := Option.some.inj hopen
    exact ⟨h.files.own_of_closed hfd, h.files.issue hfd file, h.lists, h.calls⟩
  · cases hopen

/-- Changing an open descriptor changes what is known of it. -/
theorem Owned.changeFile (h : base.Owned own lists k) (hfd : own fd = some file)
    {f : OpenFile → OpenFile} (hchange : k.changeFile fd f = some k') :
    base.Owned (Function.update own fd (some (f file))) lists k' := by
  obtain ⟨_, _, rfl⟩ := Option.map_eq_some_iff.mp hchange
  exact ⟨h.files.change hfd f, h.lists, h.calls⟩

/-- Closing a descriptor that is owned, whatever the answer. -/
theorem Owned.close (h : base.Owned own lists k) (hfd : own fd = some file)
    (hanswer : k.answer (.close fd) r = some k') :
    base.Owned (Function.update own fd none) lists k' := by
  obtain rfl := Option.some.inj hanswer
  exact ⟨h.files.release hfd, h.lists, (h.logged _ _).calls⟩

/-- The state of the ledgers after a program that has closed what it has opened. -/
structure Settled (base k : SysKernel) : Prop where
  /-- The descriptors that are open. -/
  files : ∀ fd, AList.lookup fd k.files.table = AList.lookup fd base.files.table
  /-- Each that was opened was closed once, and nothing else was. -/
  files_closed : ∃ since, k.files.closed = base.files.closed ++ since ∧
    since.Perm ((List.range' base.files.issued (k.files.issued - base.files.issued)).map some)
  /-- The interface lists that are allocated. -/
  lists : ∀ list, AList.lookup list k.lists.table = AList.lookup list base.lists.table
  /-- Each that was allocated was freed once, and nothing else was. -/
  lists_freed : ∃ since, k.lists.closed = base.lists.closed ++ since ∧
    since.Perm ((List.range' base.lists.issued (k.lists.issued - base.lists.issued)).map some)

/-- Nothing was closed twice, and what was opened is closed or open. -/
structure Balanced (k : SysKernel) : Prop where
  /-- The descriptors. -/
  files : k.files.Balanced
  /-- The interface lists. -/
  lists : k.lists.Balanced

/-- At the beginning nothing is owned. -/
theorem Balanced.owned (h : base.Balanced) : base.Owned owningNone owningNone base :=
  ⟨h.files.owns, h.lists.owns, List.prefix_rfl⟩

/-- Where nothing is owned any more, everything is as it was. -/
theorem Owned.settled (h : base.Owned owningNone owningNone k) (hbase : base.Balanced) :
    Settled base k := by
  obtain ⟨hfiles, hclosed⟩ := h.files.settled hbase.files
  obtain ⟨hlists, hfreed⟩ := h.lists.settled hbase.lists
  exact ⟨hfiles, hclosed, hlists, hfreed⟩

/-! ### `fetch` closes what it opens -/

/-- A descriptor that is opened and closed again leaves no trace in what is owned. -/
theorem update_update_none (h : own fd = none) :
    Function.update (Function.update own fd (some file)) fd none = own := by
  rw [Function.update_idem, ← h, Function.update_eq_self]

/-- A call that has no effect on the ledgers keeps what is owned. -/
theorem Owned.of_unchanged (h : base.Owned own lists k) (hanswer : k.answer c r = some k')
    (hc : ¬ Closes c) (hsucceed : (k.logged c r).succeed r c = some k' → k' = k.logged c r) :
    base.Owned own lists k' := by
  rcases answer_cases hc hanswer with ⟨-, rfl⟩ | ⟨-, hdone⟩
  · exact h.logged _ _
  · rw [hsucceed hdone]
    exact h.logged _ _

/-- The route lookup closes its socket, whichever of its calls fails. -/
theorem post_routedAddress (h : base.Owned (Function.update own fd (some file)) lists k)
    (hfd : own fd = none) :
    (routedAddress fd).Post answer (fun r k' => ∃ routed, r = .ok routed ∧
      base.Owned own lists k') k := by
  -- every way out ends with the `close` call
  have hclose : ∀ {k₁ : SysKernel} (routed : Option ℕ),
      base.Owned (Function.update own fd (some file)) lists k₁ →
      (do
        let _ ← Program.invoke (.close fd)
        pure routed : SysProgram (Option ℕ)).Post answer (fun r k' => ∃ routed, r = .ok routed ∧
          base.Owned own lists k') k₁ := by
    intro k₁ routed h₁
    refine Program.Post.invoke fun _ k₂ hanswer => ⟨routed, rfl, ?_⟩
    have hclosed := h₁.close (Function.update_self ..) hanswer
    rwa [update_update_none hfd] at hclosed
  refine Program.Post.invoke fun connected k₁ hconnect => ?_
  have h₁ := h.of_unchanged hconnect id fun hk => (Option.some.inj hk).symm
  by_cases hconnected : connected.ret = 0
  · rw [if_pos hconnected]
    refine Program.Post.invoke fun named k₂ hname => ?_
    exact hclose _ (h₁.of_unchanged hname id fun hk => (Option.some.inj hk).symm)
  · rw [if_neg hconnected]
    exact hclose none h₁

/-- The list of interfaces is freed, and what is made of it is what `fetch` computes. -/
theorem post_matchedInterface (h : base.Owned own owningNone k) (localIp targetBaseIp total : ℕ) :
    (matchedInterface localIp targetBaseIp total).Post answer (fun r k' => ∃ ifaddrs,
      r = .ok (NetworkInterface.fetch (some localIp) ifaddrs targetBaseIp total) ∧
        base.Owned own owningNone k') k := by
  refine Program.Post.invoke fun listed k₁ hlist => ?_
  -- without a list there is nothing to free
  rcases answer_cases id hlist with ⟨hfail, rfl⟩ | ⟨hret, hdone⟩
  · rw [if_pos hfail]
    exact ⟨none, rfl, h.logged _ _⟩
  · rw [if_neg (by omega)]
    refine Program.Post.invoke fun _ k₂ hfree => ⟨some listed.ifaddrs, rfl, ?_⟩
    obtain rfl := Option.some.inj hfree
    unfold succeed at hdone
    dsimp only at hdone
    split at hdone
    · next hnew =>
      obtain rfl := Option.some.inj hdone
      have hissued := h.lists.issue hnew listed.ifaddrs
      have hfreed := hissued.release (Function.update_self ..)
      rw [Function.update_idem, Function.update_eq_self_iff.mpr rfl] at hfreed
      exact ⟨h.files, hfreed, ((h.logged _ _).logged _ _).calls⟩
    · cases hdone

/-- **`NetworkInterface::fetch` leaves nothing open**, whatever fails in it, throws nothing, and
returns what it is to return for the answers it got. -/
theorem post_fetchCalls (h : base.Owned own owningNone k) (targetBaseIp total : ℕ) :
    (fetchCalls targetBaseIp total).Post answer (fun r k' => ∃ routedIp ifaddrs,
      r = .ok (NetworkInterface.fetch routedIp ifaddrs targetBaseIp total) ∧
        base.Owned own owningNone k') k := by
  refine Program.Post.invoke fun sock k₁ hsock => ?_
  rcases answer_cases id hsock with ⟨hfail, rfl⟩ | ⟨hret, hdone⟩
  · rw [if_pos (by omega)]
    exact ⟨none, none, rfl, h.logged _ _⟩
  · rw [if_neg (by omega)]
    obtain ⟨hnew, h₁⟩ := (h.logged _ _).openFile hdone
    refine Program.Post.bind ((post_routedAddress h₁ hnew).mono ?_)
    rintro _ k₂ ⟨routed, rfl, h₂⟩
    cases routed with
    | none => exact ⟨none, none, rfl, h₂⟩
    | some localIp =>
      refine (post_matchedInterface h₂ localIp targetBaseIp total).mono ?_
      rintro _ k₃ ⟨ifaddrs, rfl, h₃⟩
      exact ⟨some localIp, ifaddrs, rfl, h₃⟩

end SysKernel

end Netscan
