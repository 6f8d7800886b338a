import Mathlib

/-! # Descriptor tables

The open descriptors of a process, keyed by their numbers. A number is used again once its
descriptor is closed, so every descriptor also carries a serial number, which is never used again.
`Accounts` relates the table to the log of all `close` calls: each entry of the log is the serial
number of what the call closed, or `none` for a call on a number that was not open. Together the
log and the table hold each serial number issued exactly once. -/

namespace Descriptors

open AList

/-- A table of open descriptors, with what is known of each. -/
abbrev Table (α : Type*) := AList fun _ : ℤ => α

variable {α : Type*} {serial : α → ℕ} {t : Table α} {fd fd' : ℤ} {a b : α} {issued : ℕ}
  {closed : List (Option ℕ)}

/-- The serial numbers of the open descriptors. A descriptor may be given out again, and its number
may not. -/
def serials (serial : α → ℕ) (t : Table α) : List ℕ := t.entries.map fun e => serial e.2

/-- Each serial number below `issued` is either open or closed, and closed once only; every `close`
call closed something. -/
def Accounts (serial : α → ℕ) (t : Table α) (issued : ℕ) (closed : List (Option ℕ)) : Prop :=
  (closed ++ (serials serial t).map some).Perm ((List.range issued).map some)

/-- The entry of an open descriptor and the others make up the table. -/
theorem perm_erase_of_lookup (h : lookup fd t = some a) :
    t.entries.Perm (⟨fd, a⟩ :: (t.erase fd).entries) := by
  have hself : t.entries.Perm (t.insert fd a).entries := by
    apply List.lookup_ext t.nodupKeys (t.insert fd a).nodupKeys
    intro x y
    show y ∈ lookup x t ↔ y ∈ lookup x (t.insert fd a)
    by_cases hx : x = fd
    · subst hx
      rw [h, lookup_insert]
    · rw [lookup_insert_ne hx]
  exact hself

/-- The same for their serial numbers: one is taken out. -/
theorem perm_serials_erase (h : lookup fd t = some a) :
    (serials serial t).Perm (serial a :: serials serial (t.erase fd)) :=
  List.Perm.map (fun e : (_ : ℤ) × α => serial e.2) (perm_erase_of_lookup h)

/-- Nothing is accounted for in an empty table before any call. -/
theorem accounts_empty : Accounts serial ∅ 0 [] := List.Perm.refl _

/-- Opening a descriptor under the next serial number keeps the accounts. -/
theorem Accounts.insert_fresh (h : Accounts serial t issued closed) (hfd : lookup fd t = none)
    (ha : serial a = issued) : Accounts serial (t.insert fd a) (issued + 1) closed := by
  have hentries := entries_insert_of_notMem (b := a) (lookup_eq_none.mp hfd)
  have hserials : serials serial (t.insert fd a) = issued :: serials serial t := by
    rw [serials, hentries, List.map_cons, ha]
    rfl
  rw [Accounts, hserials, List.map_cons, List.range_succ, List.map_append]
  exact List.perm_middle.trans ((h.cons _).trans (List.perm_append_singleton _ _).symm)

/-- Changing what is known of an open descriptor, but not its serial number. -/
theorem Accounts.insert_same (h : Accounts serial t issued closed) (hfd : lookup fd t = some a)
    (hb : serial b = serial a) : Accounts serial (t.insert fd b) issued closed := by
  have hperm : (serials serial (t.insert fd b)).Perm (serials serial t) := by
    rw [serials, entries_insert, List.map_cons, hb]
    exact (perm_serials_erase hfd).symm
  exact ((hperm.map some).append_left closed).trans h

/-- Closing an open descriptor moves its number from the table to the log. -/
theorem Accounts.erase (h : Accounts serial t issued closed) (hfd : lookup fd t = some a) :
    Accounts serial (t.erase fd) issued (closed ++ [some (serial a)]) := by
  rw [Accounts, List.append_assoc]
  exact (((perm_serials_erase hfd).map some).symm.append_left closed).trans h

/-- The log and the table hold no serial number twice, as each was issued once. -/
theorem Accounts.nodup (h : Accounts serial t issued closed) :
    (closed ++ (serials serial t).map some).Nodup := by
  refine h.nodup_iff.mpr ?_
  exact List.nodup_range.map fun _ _ => Option.some.inj

/-- No descriptor is closed twice, in the sense of its serial number. -/
theorem Accounts.closed_nodup (h : Accounts serial t issued closed) : closed.Nodup :=
  h.nodup.of_append_left

/-- The serial number of an open descriptor is among those of the table. -/
theorem mem_serials (h : lookup fd t = some a) : serial a ∈ serials serial t :=
  List.mem_map.mpr ⟨⟨fd, a⟩, mem_lookup_iff.mp h, rfl⟩

/-- An open descriptor is not closed: its number is in the table and not in the log. -/
theorem Accounts.not_closed (h : Accounts serial t issued closed) (hfd : lookup fd t = some a) :
    some (serial a) ∉ closed := by
  intro hmem
  exact (List.nodup_append.mp h.nodup).2.2 _ hmem _ (List.mem_map_of_mem (mem_serials hfd)) rfl

/-- An open descriptor has been issued, so later ones get other numbers. -/
theorem Accounts.serial_lt (h : Accounts serial t issued closed) (hfd : lookup fd t = some a) :
    serial a < issued := by
  have hmem := h.subset (List.mem_append_right _ (List.mem_map_of_mem (mem_serials hfd)))
  simpa using hmem

/-- Serial numbers identify open descriptors, as none is in the table twice. -/
theorem Accounts.fd_unique (h : Accounts serial t issued closed) (hfd : lookup fd t = some a)
    (hfd' : lookup fd' t = some b) (hserial : serial a = serial b) : fd = fd' := by
  by_contra hne
  have hnodup : (serials serial t).Nodup := (List.nodup_append.mp h.nodup).2.1.of_map some
  have hkept : lookup fd' (t.erase fd) = some b := by
    rw [lookup_erase_ne (Ne.symm hne), hfd']
  have hother : serial b ∈ serials serial (t.erase fd) := mem_serials hkept
  rw [(perm_serials_erase hfd).nodup_iff, List.nodup_cons, hserial] at hnodup
  exact hnodup.1 hother

/-- A table in which nothing is open is the empty one. -/
theorem eq_empty_of_lookup (ht : ∀ fd, lookup fd t = none) : t = ∅ := by
  apply AList.ext
  rw [empty_entries, List.eq_nil_iff_forall_not_mem]
  rintro ⟨fd, a⟩ hmem
  have hopen := ht fd
  rw [mem_lookup_iff.mpr hmem] at hopen
  cases hopen

/-- When nothing is open any more, every descriptor issued has been closed exactly once. -/
theorem Accounts.closed_perm (h : Accounts serial t issued closed) (ht : ∀ fd, lookup fd t = none) :
    closed.Perm ((List.range issued).map some) := by
  rw [eq_empty_of_lookup ht, Accounts, serials, empty_entries, List.map_nil, List.map_nil,
    List.append_nil] at h
  exact h

/-! ### What a part of the process owns -/

/-- Tables in which the same is open have the same serial numbers, in some order. -/
theorem perm_serials_of_lookup {t' : Table α} (h : ∀ fd, lookup fd t = lookup fd t') :
    (serials serial t).Perm (serials serial t') := by
  refine List.Perm.map (fun e : (_ : ℤ) × α => serial e.2) ?_
  refine List.lookup_ext t.nodupKeys t'.nodupKeys fun x y => ?_
  show y ∈ lookup x t ↔ y ∈ lookup x t'
  rw [h]

/-- A table with its log. The descriptors carry a serial number and what is known of them. -/
structure Ledger (α : Type*) where
  /-- What is open. -/
  table : Table (ℕ × α) := ∅
  /-- The number of descriptors opened. -/
  issued : ℕ := 0
  /-- What each `close` call has closed. -/
  closed : List (Option ℕ) := []

namespace Ledger

/-- Every descriptor opened is open or has been closed, once, and nothing else was. -/
def Balanced (l : Ledger α) : Prop := Accounts Prod.fst l.table l.issued l.closed

/-- What is known of an open descriptor, without its serial number. -/
def state? (l : Ledger α) (fd : ℤ) : Option α := (lookup fd l.table).map Prod.snd

/-- A descriptor is opened, under the next serial number. -/
def issue (fd : ℤ) (a : α) (l : Ledger α) : Ledger α :=
  { l with table := l.table.insert fd (l.issued, a), issued := l.issued + 1 }

/-- What is known of an open descriptor is changed. The descriptor stays open under its number. -/
def change (fd : ℤ) (f : α → α) (l : Ledger α) : Ledger α :=
  match lookup fd l.table with
  | some (n, a) => { l with table := l.table.insert fd (n, f a) }
  | none => l

/-- A descriptor is closed; the log says which, or that it was not open. -/
def release (fd : ℤ) (l : Ledger α) : Ledger α :=
  { l with table := l.table.erase fd, closed := l.closed ++ [(lookup fd l.table).map Prod.fst] }

/-- A change of one descriptor is none of the others, whether they are open or not. -/
theorem lookup_change_of_ne (l : Ledger α) (f : α → α) (h : fd' ≠ fd) :
    lookup fd' (l.change fd f).table = lookup fd' l.table := by
  unfold change
  split
  · exact lookup_insert_ne h
  · rfl

/-- Since the state `base` of the ledger the descriptors in `own` were opened and are open, what
else was opened since is closed again, and what was open in `base` is as it was. -/
structure Owns (base : Ledger α) (own : ℤ → Option α) (l : Ledger α) : Prop where
  /-- Nothing was closed twice. -/
  balanced : l.Balanced
  /-- The log goes on. -/
  log : base.closed <+: l.closed
  /-- Serial numbers go on. -/
  issued_le : base.issued ≤ l.issued
  /-- The descriptors opened since. -/
  own_open : ∀ {fd a}, own fd = some a → l.state? fd = some a ∧ lookup fd base.table = none
  /-- All others. -/
  frame : ∀ {fd}, own fd = none → lookup fd l.table = lookup fd base.table

variable {base l : Ledger α} {own : ℤ → Option α}

/-- At first nothing was opened, so nothing is owned. -/
theorem Balanced.owns (h : base.Balanced) : base.Owns (fun _ => none) base where
  balanced := h
  log := List.prefix_rfl
  issued_le := le_rfl
  own_open := fun h => by cases h
  frame := fun _ => rfl

/-- What is owned is open, under some serial number. -/
theorem Owns.lookup_own (h : base.Owns own l) (hfd : own fd = some a) :
    ∃ n, lookup fd l.table = some (n, a) := by
  obtain ⟨⟨n, a'⟩, hlookup, rfl⟩ := Option.map_eq_some_iff.mp (h.own_open hfd).1
  exact ⟨n, hlookup⟩

/-- A descriptor that is not open is no one's, as what is owned is open. -/
theorem Owns.own_of_closed (h : base.Owns own l) (hfd : lookup fd l.table = none) :
    own fd = none := by
  cases hown : own fd with
  | none => rfl
  | some a =>
    obtain ⟨n, hopen⟩ := h.lookup_own hown
    rw [hfd] at hopen
    cases hopen

/-- The rule for opening: the new descriptor is owned from now on. -/
theorem Owns.issue (h : base.Owns own l) (hfd : lookup fd l.table = none) (a : α) :
    base.Owns (Function.update own fd (some a)) (l.issue fd a) where
  balanced := h.balanced.insert_fresh hfd rfl
  log := h.log
  issued_le := Nat.le_succ_of_le h.issued_le
  -- the new descriptor is open with `a`, and was closed at the beginning; the others stay
  own_open := by
    intro fd' a' hown
    by_cases hx : fd' = fd
    · subst hx
      rw [Function.update_self] at hown
      obtain rfl := Option.some.inj hown
      refine ⟨?_, ?_⟩
      · rw [state?, Ledger.issue, lookup_insert]
        rfl
      · rw [← h.frame (h.own_of_closed hfd), hfd]
    · rw [Function.update_of_ne hx] at hown
      obtain ⟨hopen, hbase⟩ := h.own_open hown
      refine ⟨?_, hbase⟩
      rw [state?, Ledger.issue, lookup_insert_ne hx]
      exact hopen
  frame := by
    intro fd' hown
    by_cases hx : fd' = fd
    · subst hx
      rw [Function.update_self] at hown
      cases hown
    · rw [Function.update_of_ne hx] at hown
      rw [Ledger.issue, lookup_insert_ne hx]
      exact h.frame hown

/-- The rule for changes: what is known of an owned descriptor is changed, and of no other. -/
theorem Owns.change (h : base.Owns own l) (hfd : own fd = some a) (f : α → α) :
    base.Owns (Function.update own fd (some (f a))) (l.change fd f) := by
  obtain ⟨n, hlookup⟩ := h.lookup_own hfd
  have hchange : l.change fd f = { l with table := l.table.insert fd (n, f a) } := by
    rw [Ledger.change, hlookup]
  rw [hchange]
  refine ⟨h.balanced.insert_same hlookup rfl, h.log, h.issued_le, ?_, ?_⟩
  -- only this descriptor is changed, and it was closed at the beginning
  · intro fd' a' hown
    by_cases hx : fd' = fd
    · subst hx
      rw [Function.update_self] at hown
      obtain rfl := Option.some.inj hown
      refine ⟨?_, (h.own_open hfd).2⟩
      rw [state?, lookup_insert]
      rfl
    · rw [Function.update_of_ne hx] at hown
      obtain ⟨hopen, hbase⟩ := h.own_open hown
      refine ⟨?_, hbase⟩
      rw [state?, lookup_insert_ne hx]
      exact hopen
  · intro fd' hown
    by_cases hx : fd' = fd
    · subst hx
      rw [Function.update_self] at hown
      cases hown
    · rw [Function.update_of_ne hx] at hown
      rw [lookup_insert_ne hx]
      exact h.frame hown

/-- The rule for closing: what is owned may be closed, and is then as it was before it was
opened. -/
theorem Owns.release (h : base.Owns own l) (hfd : own fd = some a) :
    base.Owns (Function.update own fd none) (l.release fd) := by
  obtain ⟨n, hlookup⟩ := h.lookup_own hfd
  have hrelease : l.release fd =
      { l with table := l.table.erase fd, closed := l.closed ++ [some n] } := by
    rw [Ledger.release, hlookup]
    rfl
  rw [hrelease]
  refine ⟨h.balanced.erase hlookup, h.log.trans (List.prefix_append _ _), h.issued_le, ?_, ?_⟩
  · intro fd' a' hown
    by_cases hx : fd' = fd
    · subst hx
      rw [Function.update_self] at hown
      cases hown
    · rw [Function.update_of_ne hx] at hown
      obtain ⟨hopen, hbase⟩ := h.own_open hown
      refine ⟨?_, hbase⟩
      rw [state?, lookup_erase_ne hx]
      exact hopen
  -- a closed descriptor looks as at the beginning, where it was closed too
  · intro fd' hown
    by_cases hx : fd' = fd
    · subst hx
      rw [lookup_erase, (h.own_open hfd).2]
    · rw [Function.update_of_ne hx] at hown
      rw [lookup_erase_ne hx]
      exact h.frame hown

/-- When nothing is owned any more, each descriptor opened since has been closed exactly once, no
other has, and what was open before is open as it was. -/
theorem Owns.settled (h : base.Owns (fun _ => none) l) (hbase : base.Balanced) :
    (∀ fd, lookup fd l.table = lookup fd base.table) ∧
      ∃ since, l.closed = base.closed ++ since ∧
        since.Perm ((List.range' base.issued (l.issued - base.issued)).map some) := by
  refine ⟨fun fd => h.frame rfl, ?_⟩
  obtain ⟨since, hsince⟩ := h.log
  refine ⟨since, hsince.symm, ?_⟩
  have hall := h.balanced
  have hserials : (serials Prod.fst l.table).Perm (serials Prod.fst base.table) :=
    perm_serials_of_lookup fun fd => h.frame rfl
  rw [Balanced, Accounts] at hall hbase
  have hrange : List.range l.issued =
      List.range base.issued ++ List.range' base.issued (l.issued - base.issued) := by
    have happend := @List.range'_append_1 0 base.issued (l.issued - base.issued)
    rw [Nat.zero_add, Nat.add_sub_cancel' h.issued_le] at happend
    rw [List.range_eq_range', List.range_eq_range', happend]
  rw [← hsince, hrange, List.map_append, List.append_assoc] at hall
  -- what belongs to `base` is on both sides
  have hmove : (base.closed ++ (since ++ (serials Prod.fst l.table).map some)).Perm
      ((base.closed ++ (serials Prod.fst base.table).map some) ++ since) := by
    rw [List.append_assoc]
    exact (List.perm_append_comm.trans ((hserials.map some).append_right since)).append_left _
  exact (List.perm_append_left_iff _).mp ((hmove.symm.trans hall).trans (hbase.symm.append_right _))

end Ledger

end Descriptors
