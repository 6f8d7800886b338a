import Mathlib.Data.Option.Basic

/-! # Programs that make calls

A program that calls its environment, goes on with the answers, and ends with a value or an
exception. The environment is a state with the answers that it can give there; it may answer in
more than one way. `Post` is the weakest precondition: every run from the state ends as stated. -/

namespace Calls

/-- A program with calls `c : C`, answered in `A c`, exceptions in `ε` and values in `α`. -/
inductive Program (C : Type) (A : C → Type) (ε α : Type) where
  /-- The program ends. -/
  | pure (a : α)
  /-- The program ends by an exception. -/
  | throw (e : ε)
  /-- The program makes a call and goes on with its answer. -/
  | call (c : C) (next : A c → Program C A ε α)

namespace Program

variable {C K : Type} {A : C → Type} {ε ε' α β : Type}

/-- One program after the other. An exception of the first one leaves both. -/
def bind : Program C A ε α → (α → Program C A ε β) → Program C A ε β
  | .pure a, f => f a
  | .throw e, _ => .throw e
  | .call c next, f => .call c fun a => (next a).bind f

instance : Monad (Program C A ε) where
  pure := .pure
  bind := .bind

/-- A single call. -/
def invoke (c : C) : Program C A ε (A c) := .call c .pure

/-- A program whose exception is caught: it ends normally, with the exception as its result. -/
def attempt : Program C A ε α → Program C A ε' (Except ε α)
  | .pure a => .pure (.ok a)
  | .throw e => .pure (.error e)
  | .call c next => .call c fun a => (next a).attempt

/-- A caught exception is thrown again. -/
def ofExcept : Except ε α → Program C A ε α
  | .ok a => .pure a
  | .error e => .throw e

/-- The life of an object in its scope: what `make` has made is used, and destroyed when the scope
is left, by an exception or without. When `make` throws, there is no object. -/
def scope (make : Program C A ε α) (use : α → Program C A ε β) (destroy : α → Program C A ε Unit) :
    Program C A ε β := do
  let object ← make
  let result ← (use object).attempt
  destroy object
  ofExcept result

/-- The program makes calls of a kind only, whatever they are answered. -/
def Uses (allowed : C → Prop) : Program C A ε α → Prop
  | .pure _ | .throw _ => True
  | .call c next => allowed c ∧ ∀ a, (next a).Uses allowed

/-! ### Runs -/

/-- The runs of a program from a state `k` of the environment, of which `answer k c a` is the state
after the answer `a` to the call `c`, if it answers so. -/
inductive Ends (answer : K → (c : C) → A c → Option K) :
    Program C A ε α → K → Except ε α → K → Prop
  | pure (a : α) (k : K) : Ends answer (.pure a) k (.ok a) k
  | throw (e : ε) (k : K) : Ends answer (.throw e) k (.error e) k
  | call {c : C} {next : A c → Program C A ε α} {k k' k'' : K} {a : A c} {r : Except ε α}
      (hanswer : answer k c a = some k') (hrest : Ends answer (next a) k' r k'') :
      Ends answer (.call c next) k r k''

/-- The run in which the environment answers as `choose` says, if it does. -/
def exec (answer : K → (c : C) → A c → Option K) (choose : K → (c : C) → A c) :
    Program C A ε α → K → Option (Except ε α × K)
  | .pure a, k => some (.ok a, k)
  | .throw e, k => some (.error e, k)
  | .call c next, k =>
    match answer k c (choose k c) with
    | some k' => exec answer choose (next (choose k c)) k'
    | none => none

/-- Every run from `k` ends as `Q` says, by an exception or without one. Calls that the environment
refuses end no run. -/
def Post (answer : K → (c : C) → A c → Option K) (Q : Except ε α → K → Prop) :
    Program C A ε α → K → Prop
  | .pure a, k => Q (.ok a) k
  | .throw e, k => Q (.error e) k
  | .call c next, k => ∀ a k', answer k c a = some k' → Post answer Q (next a) k'

section Rules

variable {answer : K → (c : C) → A c → Option K} {Q Q' : Except ε α → K → Prop}
  {p : Program C A ε α} {k k' : K} {r : Except ε α}

/-- What the program logic proves holds of every run. By induction on the run. -/
theorem Post.of_ends (h : p.Post answer Q k) (hrun : Ends answer p k r k') : Q r k' := by
  induction hrun with
  | pure => exact h
  | throw => exact h
  | call hanswer _ ih => exact ih (h _ _ hanswer)

/-- An executed run is a run, with the answers that were chosen. -/
theorem ends_of_exec {choose : K → (c : C) → A c}
    (h : exec answer choose p k = some (r, k')) : Ends answer p k r k' := by
  induction p generalizing k with
  | pure a =>
    obtain ⟨rfl, rfl⟩ := Prod.mk.inj (Option.some.inj h)
    exact .pure a _
  | throw e =>
    obtain ⟨rfl, rfl⟩ := Prod.mk.inj (Option.some.inj h)
    exact .throw e _
  | call c next ih =>
    unfold exec at h
    split at h
    · next k₁ hanswer => exact .call hanswer (ih _ h)
    · cases h

/-- The rule of consequence: a postcondition may be weakened. -/
theorem Post.mono (h : p.Post answer Q k) (hQ : ∀ r k', Q r k' → Q' r k') :
    p.Post answer Q' k := by
  induction p generalizing k with
  | pure => exact hQ _ _ h
  | throw => exact hQ _ _ h
  | call c next ih => exact fun a k' hanswer => ih a (h a k' hanswer)

/-- The rule of calls: the program goes on with every answer that the environment allows. -/
theorem Post.invoke {Q : Except ε β → K → Prop} {c : C} {f : A c → Program C A ε β}
    (h : ∀ a k', answer k c a = some k' → (f a).Post answer Q k') :
    (invoke c >>= f).Post answer Q k := h

/-- The rule of sequences: the second program goes on where the first one ends. -/
theorem Post.bind {Q : Except ε β → K → Prop} {f : α → Program C A ε β}
    (h : p.Post answer (fun r k' =>
      match r with
      | .ok a => (f a).Post answer Q k'
      | .error e => Q (.error e) k') k) : (p >>= f).Post answer Q k := by
  induction p generalizing k with
  | pure => exact h
  | throw => exact h
  | call c next ih => exact fun a k' hanswer => ih a (h a k' hanswer)

/-- The rule of caught exceptions: what holds at either end of the program holds after it. -/
theorem Post.attempt {Q : Except ε' (Except ε α) → K → Prop}
    (h : p.Post answer (fun r k' => Q (.ok r) k') k) : p.attempt.Post answer Q k := by
  induction p generalizing k with
  | pure => exact h
  | throw => exact h
  | call c next ih => exact fun a k' hanswer => ih a (h a k' hanswer)

/-- The rule of exceptions that are thrown again: they end the program as they are. -/
theorem Post.ofExcept (h : Q r k) : (ofExcept r : Program C A ε α).Post answer Q k := by
  cases r <;> exact h

/-- The rule of frames: what each of the calls keeps, the program keeps. -/
theorem Post.of_uses {allowed : C → Prop} {J : K → Prop} (hp : p.Uses allowed)
    (hcall : ∀ c a k k', allowed c → J k → answer k c a = some k' → J k') (hk : J k) :
    p.Post answer (fun _ k' => J k') k := by
  induction p generalizing k with
  | pure => exact hk
  | throw => exact hk
  | call c next ih =>
    intro a k' hanswer
    exact ih a (hp.2 a) (hcall c a k k' hp.1 hk hanswer)

/-- **The rule of scopes**: an object that was made is destroyed, however its use ends. `J` is what
the use keeps and the destruction may rely on. -/
theorem Post.scope {Q : Except ε β → K → Prop} {use : α → Program C A ε β}
    {destroy : α → Program C A ε Unit} {J : α → K → Prop}
    (hmake : p.Post answer (fun r k' =>
      match r with
      | .ok object => J object k'
      | .error e => Q (.error e) k') k)
    (huse : ∀ object k, J object k → (use object).Post answer (fun _ k' => J object k') k)
    (hdestroy : ∀ object k r, J object k → (destroy object).Post answer (fun d k' =>
      match d with
      | .ok _ => Q r k'
      | .error e => Q (.error e) k') k) :
    (scope p use destroy).Post answer Q k := by
  refine Post.bind (hmake.mono fun r k₁ h₁ => ?_)
  cases r with
  -- what was not made is not destroyed
  | error e => exact h₁
  | ok object =>
    -- the exception of the use waits until the object is destroyed
    refine Post.bind (Post.attempt ((huse object k₁ h₁).mono fun result k₂ h₂ => ?_))
    refine Post.bind ((hdestroy object k₂ result h₂).mono fun d k₃ h₃ => ?_)
    cases d with
    | error e => exact h₃
    | ok => exact Post.ofExcept h₃

end Rules

end Program

end Calls
