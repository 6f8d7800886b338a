import Netscan.Lib.Refinement

/-! # A component in a loop with a network

A component emits requests and reads replies; between the two is a network, which loses, repeats,
delays and reorders what it carries, and whose destinations answer as a responder says. No message
comes from nowhere: what the component reads answers what it has emitted
(`Traced`), and per destination every message is accounted for (`Balanced`). The loop adds no
behaviour to the component: what it does in the loop it can do alone (`Reachable.self_history`). -/

namespace LabelledSystem

variable {σ ι Q R α κ : Type*}

/-- A system whose steps emit requests `Q`, and with a step that reads a reply for every reply
`R`. -/
structure Component (σ ι Q R : Type*) where
  /-- The system. -/
  step : System σ ι
  /-- The requests that a step emits, in order. -/
  emits : σ → ι → List Q
  /-- The step that reads a reply. -/
  read : R → ι
  /-- The reply that a step reads. -/
  reads : ι → Option R
  /-- The step that reads a reply reads it. -/
  reads_read : ∀ r, reads (read r) = some r

/-- How destinations `κ` answer requests: each reply comes from the destination of its request. -/
structure Responder (Q α R κ : Type*) where
  /-- The reply to a request, if the destination decides `a` and answers at all. -/
  respond : Q → α → Option R
  /-- Where a request goes. -/
  dest : Q → κ
  /-- Where a reply comes from. -/
  source : R → κ
  /-- A reply comes from where its request went. -/
  source_respond : ∀ {q a r}, respond q a = some r → source r = dest q

/-- A component and its network, with the history of what was carried. -/
structure Loop (σ Q R κ : Type*) where
  /-- The component. -/
  self : σ
  /-- The requests under way. -/
  requests : List Q := []
  /-- The replies under way. -/
  replies : List R := []
  /-- The requests emitted so far, in order. -/
  sent : List Q := []
  /-- The replies read so far, in order. -/
  delivered : List R := []
  /-- The destinations of the messages lost so far. -/
  lost : List κ := []
  /-- The destinations of the copies made so far. -/
  repeated : List κ := []

/-- The steps of a loop. Messages under way are named by their position. -/
inductive LoopLabel (ι α : Type*) where
  /-- A step of the component that reads no reply. -/
  | own (l : ι)
  /-- The component reads a reply. -/
  | deliver (i : ℕ)
  /-- A destination takes a request and answers it. -/
  | answer (i : ℕ) (a : α)
  /-- The network loses a request. -/
  | loseRequest (i : ℕ)
  /-- The network loses a reply. -/
  | loseReply (i : ℕ)
  /-- The network repeats a request. -/
  | repeatRequest (i : ℕ)
  /-- The network repeats a reply. -/
  | repeatReply (i : ℕ)

/-- The component takes a step, and what it emits is on its way. -/
def Loop.advance (C : Component σ ι Q R) (l : ι) (s : Loop σ Q R κ) : Option (Loop σ Q R κ) :=
  (C.step s.self l).map fun t =>
    { s with
      self := t
      requests := s.requests ++ C.emits s.self l
      sent := s.sent ++ C.emits s.self l }

/-- The loop of a component through a network to a responder. The network loses, repeats, delays and
reorders messages. -/
def loop (C : Component σ ι Q R) (D : Responder Q α R κ) :
    System (Loop σ Q R κ) (LoopLabel ι α) := fun s l =>
  match l with
  | .own l => if (C.reads l).isSome then none else s.advance C l
  | .deliver i => s.replies[i]?.bind fun r =>
      { s with
        replies := s.replies.eraseIdx i
        delivered := s.delivered ++ [r] }.advance C (C.read r)
  | .answer i a => s.requests[i]?.bind fun q => (D.respond q a).map fun r =>
      { s with requests := s.requests.eraseIdx i, replies := s.replies ++ [r] }
  | .loseRequest i => s.requests[i]?.map fun q =>
      { s with requests := s.requests.eraseIdx i, lost := s.lost ++ [D.dest q] }
  | .loseReply i => s.replies[i]?.map fun r =>
      { s with replies := s.replies.eraseIdx i, lost := s.lost ++ [D.source r] }
  | .repeatRequest i => s.requests[i]?.map fun q =>
      { s with requests := s.requests ++ [q], repeated := s.repeated ++ [D.dest q] }
  | .repeatReply i => s.replies[i]?.map fun r =>
      { s with replies := s.replies ++ [r], repeated := s.repeated ++ [D.source r] }

section Loop

variable {C : Component σ ι Q R} {D : Responder Q α R κ} {s t u : Loop σ Q R κ}

/-- A step of the component in the loop is one of the component alone. -/
theorem Loop.advance_eq_some {l : ι} : s.advance C l = some t ↔ ∃ c, C.step s.self l = some c ∧
    t = { s with
      self := c
      requests := s.requests ++ C.emits s.self l
      sent := s.sent ++ C.emits s.self l } := by
  rw [advance, Option.map_eq_some_iff]
  simp only [eq_comm]

/-- What a step of a loop can do: the component moves by itself, or reads a reply that was under
way; or the network carries, loses or repeats a message that was under way. -/
inductive LoopStep (C : Component σ ι Q R) (D : Responder Q α R κ) (s : Loop σ Q R κ) :
    Loop σ Q R κ → Prop
  | own {l c} (hreads : C.reads l = none) (hstep : C.step s.self l = some c) : LoopStep C D s
      { s with
        self := c
        requests := s.requests ++ C.emits s.self l
        sent := s.sent ++ C.emits s.self l }
  | deliver {r rest c} (hr : s.replies.Perm (r :: rest))
      (hstep : C.step s.self (C.read r) = some c) : LoopStep C D s
      { s with
        self := c
        requests := s.requests ++ C.emits s.self (C.read r)
        sent := s.sent ++ C.emits s.self (C.read r)
        replies := rest
        delivered := s.delivered ++ [r] }
  | answer {q rest a r} (hq : s.requests.Perm (q :: rest)) (hr : D.respond q a = some r) :
      LoopStep C D s { s with requests := rest, replies := s.replies ++ [r] }
  | loseRequest {q rest} (hq : s.requests.Perm (q :: rest)) :
      LoopStep C D s { s with requests := rest, lost := s.lost ++ [D.dest q] }
  | loseReply {r rest} (hr : s.replies.Perm (r :: rest)) :
      LoopStep C D s { s with replies := rest, lost := s.lost ++ [D.source r] }
  | repeatRequest {q} (hq : q ∈ s.requests) :
      LoopStep C D s { s with requests := s.requests ++ [q], repeated := s.repeated ++ [D.dest q] }
  | repeatReply {r} (hr : r ∈ s.replies) :
      LoopStep C D s { s with replies := s.replies ++ [r], repeated := s.repeated ++ [D.source r] }

/-- A message at a position, before the others: the order on the way does not matter. -/
theorem perm_cons_eraseIdx {β : Type*} {bs : List β} {b : β} {i : ℕ} (h : bs[i]? = some b) :
    bs.Perm (b :: bs.eraseIdx i) := by
  obtain ⟨hlt, hb⟩ := List.getElem?_eq_some_iff.mp h
  have hperm := List.getElem_cons_eraseIdx_perm hlt
  rw [hb] at hperm
  exact hperm.symm

/-- The steps of a loop, without the positions of the messages. -/
theorem loop_cases {l : LoopLabel ι α} (h : loop C D s l = some t) : LoopStep C D s t := by
  cases l with
  -- the component's own steps read nothing; replies are read by deliveries
  | own l =>
    rw [loop] at h
    split at h
    · cases h
    · rename_i hreads
      obtain ⟨c, hstep, rfl⟩ := Loop.advance_eq_some.mp h
      exact .own (Option.not_isSome_iff_eq_none.mp hreads) hstep
  | deliver i =>
    obtain ⟨r, hr, h⟩ := Option.bind_eq_some_iff.mp h
    obtain ⟨c, hstep, rfl⟩ := Loop.advance_eq_some.mp h
    exact .deliver (perm_cons_eraseIdx hr) hstep
  | answer i a =>
    obtain ⟨q, hq, h⟩ := Option.bind_eq_some_iff.mp h
    obtain ⟨r, hr, rfl⟩ := Option.map_eq_some_iff.mp h
    exact .answer (perm_cons_eraseIdx hq) hr
  | loseRequest i =>
    obtain ⟨q, hq, rfl⟩ := Option.map_eq_some_iff.mp h
    exact .loseRequest (perm_cons_eraseIdx hq)
  | loseReply i =>
    obtain ⟨r, hr, rfl⟩ := Option.map_eq_some_iff.mp h
    exact .loseReply (perm_cons_eraseIdx hr)
  | repeatRequest i =>
    obtain ⟨q, hq, rfl⟩ := Option.map_eq_some_iff.mp h
    exact .repeatRequest (List.mem_of_getElem? hq)
  | repeatReply i =>
    obtain ⟨r, hr, rfl⟩ := Option.map_eq_some_iff.mp h
    exact .repeatReply (List.mem_of_getElem? hr)

/-! ### Where messages come from -/

/-- Every message under way goes back to a request that was emitted, and so does every reply that
was read. -/
structure Traced (D : Responder Q α R κ) (s : Loop σ Q R κ) : Prop where
  /-- Requests under way were emitted. -/
  requests : ∀ q ∈ s.requests, q ∈ s.sent
  /-- Replies under way answer a request that was emitted. -/
  replies : ∀ r ∈ s.replies, ∃ q ∈ s.sent, ∃ a, D.respond q a = some r
  /-- So do the replies that were read. -/
  delivered : ∀ r ∈ s.delivered, ∃ q ∈ s.sent, ∃ a, D.respond q a = some r

/-- Requests that are emitted change nothing for the messages before: they only add to what was
sent. -/
theorem Traced.emit (h : Traced D s) (qs : List Q) :
    Traced D { s with requests := s.requests ++ qs, sent := s.sent ++ qs } := by
  have hgrow : ∀ {r}, (∃ q ∈ s.sent, ∃ a, D.respond q a = some r) →
      ∃ q ∈ s.sent ++ qs, ∃ a, D.respond q a = some r := by
    rintro r ⟨q, hq, hr⟩
    exact ⟨q, List.mem_append_left _ hq, hr⟩
  refine ⟨fun q hq => ?_, fun r hr => hgrow (h.replies r hr), fun r hr => hgrow (h.delivered r hr)⟩
  rcases List.mem_append.mp hq with hold | hnew
  · exact List.mem_append_left _ (h.requests q hold)
  · exact List.mem_append_right _ hnew

/-- Every step keeps messages traced: a message on the way is one that was there, a copy of it, or
an answer to it. -/
theorem Traced.step (h : Traced D s) (hstep : LoopStep C D s t) : Traced D t := by
  cases hstep with
  | own hreads hstep => exact ⟨(h.emit _).requests, (h.emit _).replies, (h.emit _).delivered⟩
  -- what is delivered was on the way, and the component may emit in return
  | @deliver r rest c hr hstep =>
    have hemit := h.emit (C.emits s.self (C.read r))
    refine ⟨hemit.requests, fun r' hr' => ?_, fun r' hr' => ?_⟩
    · exact hemit.replies r' (hr.symm.subset (List.mem_cons_of_mem _ hr'))
    · rcases List.mem_append.mp hr' with hold | hnew
      · exact hemit.delivered r' hold
      · obtain rfl := List.mem_singleton.mp hnew
        exact hemit.replies r' (hr.symm.subset List.mem_cons_self)
  -- the answer is one to a request that was on the way
  | @answer q rest a r hq hr =>
    refine ⟨fun q' hq' => ?_, fun r' hr' => ?_, h.delivered⟩
    · exact h.requests q' (hq.symm.subset (List.mem_cons_of_mem _ hq'))
    · rcases List.mem_append.mp hr' with hold | hnew
      · exact h.replies r' hold
      · obtain rfl := List.mem_singleton.mp hnew
        exact ⟨q, h.requests q (hq.symm.subset List.mem_cons_self), a, hr⟩
  | loseRequest hq =>
    exact ⟨fun q' hq' => h.requests q' (hq.symm.subset (List.mem_cons_of_mem _ hq')), h.replies,
      h.delivered⟩
  | loseReply hr =>
    exact ⟨h.requests, fun r' hr' => h.replies r' (hr.symm.subset (List.mem_cons_of_mem _ hr')),
      h.delivered⟩
  | @repeatRequest q hq =>
    refine ⟨fun q' hq' => ?_, h.replies, h.delivered⟩
    rcases List.mem_append.mp hq' with hold | hnew
    · exact h.requests q' hold
    · obtain rfl := List.mem_singleton.mp hnew
      exact h.requests q' hq
  | @repeatReply r hr =>
    refine ⟨h.requests, fun r' hr' => ?_, h.delivered⟩
    rcases List.mem_append.mp hr' with hold | hnew
    · exact h.replies r' hold
    · obtain rfl := List.mem_singleton.mp hnew
      exact h.replies r' hr

/-! ### Conservation -/

/-- Per destination: every request that was emitted and every copy that was made is under way, was
read as a reply, or is lost. -/
def Balanced (D : Responder Q α R κ) (s : Loop σ Q R κ) : Prop :=
  (s.sent.map D.dest ++ s.repeated).Perm
    (s.requests.map D.dest ++ s.replies.map D.source ++ s.delivered.map D.source ++ s.lost)

/-- A message is counted apart from the others under way, by its destination. -/
theorem count_map_of_perm_cons {β : Type*} [DecidableEq κ] {bs rest : List β} {b : β} (f : β → κ)
    (h : bs.Perm (b :: rest)) (k : κ) :
    (bs.map f).count k = [f b].count k + (rest.map f).count k := by
  rw [(h.map f).count_eq k, List.map_cons, ← List.singleton_append, List.count_append]

/-- Every step keeps the balance. Per destination, it is arithmetic. -/
theorem Balanced.step (h : Balanced D s) (hstep : LoopStep C D s t) : Balanced D t := by
  classical
  refine List.perm_iff_count.mpr fun k => ?_
  have hk := List.perm_iff_count.mp h k
  simp only [List.count_append] at hk
  cases hstep with
  | own hreads hstep =>
    simp only [List.map_append, List.count_append]
    omega
  | deliver hr hstep =>
    have hreply := count_map_of_perm_cons D.source hr k
    simp only [List.map_append, List.map_singleton, List.count_append]
    omega
  | answer hq hr =>
    have hrequest := count_map_of_perm_cons D.dest hq k
    rw [← D.source_respond hr] at hrequest
    simp only [List.map_append, List.map_singleton, List.count_append]
    omega
  | loseRequest hq =>
    have hrequest := count_map_of_perm_cons D.dest hq k
    simp only [List.count_append]
    omega
  | loseReply hr =>
    have hreply := count_map_of_perm_cons D.source hr k
    simp only [List.count_append]
    omega
  | repeatRequest hq =>
    simp only [List.map_append, List.map_singleton, List.count_append]
    omega
  | repeatReply hr =>
    simp only [List.map_append, List.map_singleton, List.count_append]
    omega

/-! ### Runs -/

/-- The loop before its first step, with nothing on the way. -/
def Loop.begin (c : σ) : Loop σ Q R κ := { self := c }

/-- Messages are traced and balanced in every reachable state, by induction on the run. -/
theorem Reachable.traced_and_balanced {c : σ} (h : Reachable (loop C D) (.begin c) s) :
    Traced D s ∧ Balanced D s := by
  refine h.invariant (I := fun s => Traced D s ∧ Balanced D s) ⟨⟨nofun, nofun, nofun⟩, .refl _⟩ ?_
  rintro u l v ⟨htraced, hbalanced⟩ - hstep
  exact ⟨htraced.step (loop_cases hstep), hbalanced.step (loop_cases hstep)⟩

/-- What a component does in the loop it can do alone; the history of the loop is then what its
steps emit and read. -/
theorem Reachable.self_history {c : σ} (h : Reachable (loop C D) (.begin c) s) :
    Reachable (withHistory C.step C.emits) (c, []) (s.self, s.sent) ∧
      Reachable (withHistory C.step fun _ l => (C.reads l).toList) (c, [])
        (s.self, s.delivered) := by
  refine h.invariant (I := fun s =>
    Reachable (withHistory C.step C.emits) (c, []) (s.self, s.sent) ∧
      Reachable (withHistory C.step fun _ l => (C.reads l).toList) (c, []) (s.self, s.delivered))
    ⟨.refl, .refl⟩ ?_
  rintro u l v ⟨hsent, hdelivered⟩ - hstep
  cases loop_cases hstep with
  | own hreads hself =>
    refine ⟨hsent.tail trivial (withHistory_eq_some.mpr ⟨hself, rfl⟩),
      hdelivered.tail trivial (withHistory_eq_some.mpr ⟨hself, ?_⟩)⟩
    rw [hreads]
    exact (List.append_nil _).symm
  -- a delivery is the step of the component that reads it
  | @deliver r _ _ hr hself =>
    refine ⟨hsent.tail trivial (withHistory_eq_some.mpr ⟨hself, rfl⟩),
      hdelivered.tail trivial (withHistory_eq_some.mpr ⟨hself, ?_⟩)⟩
    rw [C.reads_read r]
    rfl
  | answer | loseRequest | loseReply | repeatRequest | repeatReply => exact ⟨hsent, hdelivered⟩

/-- A step of the loop leaves the component as it is, or is a step that it takes by itself or to
read a reply. -/
theorem loop_self {l : LoopLabel ι α} (h : loop C D s l = some t) : t.self = s.self ∨
    ∃ l', (l = .own l' ∨ ∃ r, l' = C.read r) ∧ C.step s.self l' = some t.self := by
  cases l with
  | own l =>
    rw [loop] at h
    split at h
    · cases h
    · obtain ⟨c, hself, rfl⟩ := Loop.advance_eq_some.mp h
      exact .inr ⟨l, .inl rfl, hself⟩
  | deliver i =>
    obtain ⟨r, hr, h⟩ := Option.bind_eq_some_iff.mp h
    obtain ⟨c, hself, rfl⟩ := Loop.advance_eq_some.mp h
    exact .inr ⟨C.read r, .inr ⟨r, rfl⟩, hself⟩
  | answer i a =>
    obtain ⟨q, hq, h⟩ := Option.bind_eq_some_iff.mp h
    obtain ⟨r, hr, rfl⟩ := Option.map_eq_some_iff.mp h
    exact .inl rfl
  | loseRequest | loseReply | repeatRequest | repeatReply =>
    obtain ⟨m, hm, rfl⟩ := Option.map_eq_some_iff.mp h
    exact .inl rfl

/-- A condition on the steps that the component takes by itself, which steps that read a reply meet
anyway, carries over from the loop. -/
theorem Runs.self_runs {ok : Loop σ Q R κ → LoopLabel ι α → Prop} {ok' : σ → ι → Prop}
    (h : Runs (loop C D) ok s t) (hown : ∀ u l, ok u (.own l) → ok' u.self l)
    (hread : ∀ c r, ok' c (C.read r)) : Runs C.step ok' s.self t.self := by
  refine h.invariant (I := fun t => Runs C.step ok' s.self t.self) .refl ?_
  intro u l v hu hok hstep
  rcases loop_self hstep with hsame | ⟨l', rfl | ⟨r, rfl⟩, hself⟩
  · rw [hsame]
    exact hu
  · exact hu.tail (hown u l' hok) hself
  · exact hu.tail (hread _ _) hself

/-- **Replies in excess are copies.** If no destination was sent to twice, then at most as many
replies were read beyond the first one of each destination as copies were made. Any part `read` of
what was read will do. -/
theorem Balanced.length_le [DecidableEq κ] (h : Balanced D s) (hsent : (s.sent.map D.dest).Nodup)
    {read : List κ} (hread : read.Subperm (s.delivered.map D.source)) :
    read.length ≤ read.dedup.length + s.repeated.length := by
  have hsub : read.Subperm (read.dedup ++ s.repeated) := by
    refine List.subperm_ext_iff.mpr fun k hk => ?_
    have hbalance := List.perm_iff_count.mp h k
    have hdelivered := hread.count_le k
    have honce := List.nodup_iff_count_le_one.mp hsent k
    have hfirst : 0 < read.dedup.count k := List.count_pos_iff.mpr (List.mem_dedup.mpr hk)
    simp only [List.count_append] at hbalance ⊢
    omega
  rw [← List.length_append]
  exact hsub.length_le

end Loop

end LabelledSystem
