/-!
# Programs that call

A `Program` returns, raises or calls, and goes on with what the call is answered or raises.
It can be run against a handler that answers at once, or step by step, with others at work
between its calls.

`Safe step rely post` is for the second: `step` says how a call may be answered, `rely` what
may happen in between. It is closed under all ways to compose programs.
-/

/-- A program whose call `c` is answered by `ρ c`, or raises. -/
inductive Program (κ : Type) (ρ : κ → Type) (ε α : Type)
  | ret (result : Except ε α)
  | call (c : κ) (next : Except ε (ρ c) → Program κ ρ ε α)

namespace Program

variable {κ : Type} {ρ : κ → Type} {ε α β σ : Type}

/-- Go on with how a program ends. -/
def andThen (p : Program κ ρ ε α) (f : Except ε α → Program κ ρ ε β) : Program κ ρ ε β :=
  match p with
  | .ret result => f result
  | .call c next => .call c fun answer => (next answer).andThen f

instance : Monad (Program κ ρ ε) where
  pure a := .ret (.ok a)
  bind p f := p.andThen fun
    | .ok a => f a
    | .error e => .ret (.error e)

instance : MonadExceptOf ε (Program κ ρ ε) where
  throw e := .ret (.error e)
  tryCatch p handler := p.andThen fun
    | .ok a => .ret (.ok a)
    | .error e => handler e

/-- One call. -/
def perform (c : κ) : Program κ ρ ε (ρ c) := .call c .ret

/-- Return what is there, or raise. -/
def ofExcept (result : Except ε α) : Program κ ρ ε α := .ret result

/-- `pure` returns. -/
@[simp]
theorem pure_eq (a : α) : (pure a : Program κ ρ ε α) = .ret (.ok a) := rfl

/-- `throw` returns an error. -/
@[simp]
theorem throw_eq (e : ε) : (throw e : Program κ ρ ε α) = .ret (.error e) := rfl

/-- A program that has returned goes on with the rest. -/
@[simp]
theorem ret_bind (result : Except ε α) (f : α → Program κ ρ ε β) :
    (.ret result >>= f : Program κ ρ ε β) =
      match result with
      | .ok a => f a
      | .error e => .ret (.error e) := rfl

/-- A call goes on with the rest behind its answer. -/
@[simp]
theorem call_bind (c : κ) (next : Except ε (ρ c) → Program κ ρ ε α) (f : α → Program κ ρ ε β) :
    (.call c next >>= f : Program κ ρ ε β) = .call c fun answer => next answer >>= f := rfl

/-- `perform` goes on with the answer. -/
@[simp]
theorem perform_bind (c : κ) (f : ρ c → Program κ ρ ε β) :
    (perform c >>= f : Program κ ρ ε β) = .call c fun answer => .ret answer >>= f := rfl

/-- An error that is returned is handled. -/
@[simp]
theorem tryCatch_ret (result : Except ε α) (handler : ε → Program κ ρ ε α) :
    (tryCatch (.ret result) handler : Program κ ρ ε α) =
      match result with
      | .ok a => .ret (.ok a)
      | .error e => handler e := rfl

/-- A handler around a call is a handler around what follows its answer. -/
@[simp]
theorem tryCatch_call (c : κ) (next : Except ε (ρ c) → Program κ ρ ε α)
    (handler : ε → Program κ ρ ε α) :
    (tryCatch (.call c next) handler : Program κ ρ ε α) =
      .call c fun answer => tryCatch (next answer) handler := rfl

/-! ## Running alone -/

/-- Run a program against a handler. -/
def run (handler : (c : κ) → σ → Except ε (ρ c) × σ) : Program κ ρ ε α → σ → Except ε α × σ
  | .ret result, s => (result, s)
  | .call c next, s => (next (handler c s).1).run handler (handler c s).2

section Run

variable {handler : (c : κ) → σ → Except ε (ρ c) × σ}

/-- What has returned runs to its result. -/
@[simp]
theorem run_ret (result : Except ε α) (s : σ) :
    (.ret result : Program κ ρ ε α).run handler s = (result, s) := rfl

/-- A call runs its statement and goes on. -/
theorem run_call (c : κ) (next : Except ε (ρ c) → Program κ ρ ε α) (s : σ) :
    (.call c next : Program κ ρ ε α).run handler s =
      (next (handler c s).1).run handler (handler c s).2 := rfl

/-- `andThen` runs one program and then the other. -/
theorem run_andThen (p : Program κ ρ ε α) (f : Except ε α → Program κ ρ ε β) (s : σ) :
    (p.andThen f).run handler s =
      (f (p.run handler s).1).run handler (p.run handler s).2 := by
  induction p generalizing s with
  | ret result => rfl
  | call c next ih => exact ih (handler c s).1 (handler c s).2

/-- An invariant that every call keeps is kept by `run`. -/
theorem run_invariant {inv : σ → Prop} (hcall : ∀ c s, inv s → inv (handler c s).2)
    (p : Program κ ρ ε α) {s : σ} (hs : inv s) : inv (p.run handler s).2 := by
  induction p generalizing s with
  | ret result => exact hs
  | call c next ih => exact ih (handler c s).1 (hcall c s hs)

/-- Every call of a run meets a condition, in the state it is made in. -/
def Meets (handler : (c : κ) → σ → Except ε (ρ c) × σ) (ok : κ → σ → Prop) :
    Program κ ρ ε α → σ → Prop
  | .ret _, _ => True
  | .call c next, s => ok c s ∧ (next (handler c s).1).Meets handler ok (handler c s).2

/-- Whether a run meets a condition that can be checked can be checked by running it. -/
instance decidableMeets (ok : κ → σ → Prop) [∀ c s, Decidable (ok c s)] :
    (p : Program κ ρ ε α) → (s : σ) → Decidable (p.Meets handler ok s)
  | .ret _, _ => .isTrue trivial
  | .call c next, s =>
    have := decidableMeets ok (next (handler c s).1) (handler c s).2
    inferInstanceAs (Decidable (ok c s ∧ _))

/-- An invariant that every call with `ok` keeps is kept by a run whose calls all have `ok`. -/
theorem Meets.invariant {ok : κ → σ → Prop} {inv : σ → Prop}
    (hcall : ∀ c s, inv s → ok c s → inv (handler c s).2) {p : Program κ ρ ε α} {s : σ}
    (h : p.Meets handler ok s) (hs : inv s) : inv (p.run handler s).2 := by
  induction p generalizing s with
  | ret result => exact hs
  | call c next ih => exact ih (handler c s).1 h.2 (hcall c s hs h.1)

/-- A run meets a condition that holds of every call. -/
theorem Meets.of_forall {ok : κ → σ → Prop} (h : ∀ c s, ok c s) (p : Program κ ρ ε α) (s : σ) :
    p.Meets handler ok s := by
  induction p generalizing s with
  | ret result => trivial
  | call c next ih => exact ⟨h c s, ih (handler c s).1 (handler c s).2⟩

/-- Where a state that a call leaves is `bad` just when the call does not meet the condition, and
    no call leads out of it, a run ends in one just when it does not meet the condition. -/
theorem Meets.iff_of_absorbing {ok : κ → σ → Prop} {bad : σ → Prop}
    (hcall : ∀ c s, ¬bad s → (bad (handler c s).2 ↔ ¬ok c s))
    (hbad : ∀ c s, bad s → bad (handler c s).2) (p : Program κ ρ ε α) {s : σ} (hs : ¬bad s) :
    p.Meets handler ok s ↔ ¬bad (p.run handler s).2 := by
  induction p generalizing s with
  | ret result => exact ⟨fun _ => hs, fun _ => trivial⟩
  | call c next ih =>
    rw [run_call]
    by_cases hnext : bad (handler c s).2
    · have hends := run_invariant hbad (next (handler c s).1) hnext
      exact ⟨fun h => absurd h.1 ((hcall c s hs).mp hnext), fun h => absurd hends h⟩
    · have hok : ok c s := Classical.not_not.mp (mt (hcall c s hs).mpr hnext)
      exact ⟨fun h => (ih _ hnext).mp h.2, fun h => ⟨hok, (ih _ hnext).mpr h⟩⟩

/-- Where two handlers answer alike and go to states that `S` relates, two runs do. -/
theorem run_lockstep {τ : Type} {handler' : (c : κ) → τ → Except ε (ρ c) × τ} {S : σ → τ → Prop}
    (hcall : ∀ c s t, S s t →
      (handler c s).1 = (handler' c t).1 ∧ S (handler c s).2 (handler' c t).2)
    (p : Program κ ρ ε α) {s : σ} {t : τ} (h : S s t) :
    (p.run handler s).1 = (p.run handler' t).1 ∧ S (p.run handler s).2 (p.run handler' t).2 := by
  induction p generalizing s t with
  | ret result => exact ⟨rfl, h⟩
  | call c next ih =>
    obtain ⟨hanswer, hstate⟩ := hcall c s t h
    simp only [run_call, hanswer]
    exact ih _ hstate

end Run

/-! ## Which calls a program makes -/

/-- Every call that a program can come to make is one of `K`. -/
def Only (K : κ → Prop) : Program κ ρ ε α → Prop
  | .ret _ => True
  | .call c next => K c ∧ ∀ answer, (next answer).Only K

section Only

variable {K : κ → Prop}

/-- Two programs that only make calls in `K` only make those one after the other. -/
theorem Only.andThen {p : Program κ ρ ε α} {f : Except ε α → Program κ ρ ε β} (hp : p.Only K)
    (hf : ∀ result, (f result).Only K) : (p.andThen f).Only K := by
  induction p with
  | ret result => exact hf result
  | call c next ih => exact ⟨hp.1, fun answer => ih answer (hp.2 answer)⟩

/-- The first part of a program makes only calls in `K` if the whole does. -/
theorem Only.of_andThen {p : Program κ ρ ε α} {f : Except ε α → Program κ ρ ε β}
    (h : (p.andThen f).Only K) : p.Only K := by
  induction p with
  | ret result => trivial
  | call c next ih => exact ⟨h.1, fun answer => ih answer (h.2 answer)⟩

/-- `perform` makes its own call. -/
theorem Only.perform {c : κ} (h : K c) : (perform c : Program κ ρ ε (ρ c)).Only K :=
  ⟨h, fun _ => trivial⟩

/-- A sequence makes the calls of its steps. -/
theorem Only.bind {p : Program κ ρ ε α} {f : α → Program κ ρ ε β} (hp : p.Only K)
    (hf : ∀ a, (f a).Only K) : (p >>= f).Only K := by
  refine hp.andThen fun result => ?_
  cases result with
  | ok a => exact hf a
  | error e => trivial

/-- A program and its handler that only make calls in `K` only make those together. -/
theorem Only.tryCatch {p : Program κ ρ ε α} {handler : ε → Program κ ρ ε α} (hp : p.Only K)
    (hhandler : ∀ e, (handler e).Only K) :
    (MonadExcept.tryCatch p handler : Program κ ρ ε α).Only K := by
  refine hp.andThen fun result => ?_
  cases result with
  | ok a => trivial
  | error e => exact hhandler e

/-- What every call of `K` keeps, a run keeps that makes no other. -/
theorem Only.run_invariant {handler : (c : κ) → σ → Except ε (ρ c) × σ} {inv : σ → Prop}
    (hcall : ∀ c s, K c → inv s → inv (handler c s).2) {p : Program κ ρ ε α} (hp : p.Only K)
    {s : σ} (hs : inv s) : inv (p.run handler s).2 := by
  induction p generalizing s with
  | ret result => exact hs
  | call c next ih => exact ih (handler c s).1 (hp.2 _) (hcall c s hp.1 hs)

end Only

/-! ## Running among others -/

/-- However the calls are answered and whatever happens in between, `post` holds from the end
    on. -/
def Safe (step : (c : κ) → σ → Except ε (ρ c) → σ → Prop) (rely : σ → σ → Prop)
    (post : Except ε α → σ → Prop) : Program κ ρ ε α → σ → Prop
  | .ret result, s => ∀ s', rely s s' → post result s'
  | .call c next, s =>
    ∀ s₁, rely s s₁ → ∀ answer s₂, step c s₁ answer s₂ → (next answer).Safe step rely post s₂

section Safe

variable {step : (c : κ) → σ → Except ε (ρ c) → σ → Prop} {rely : σ → σ → Prop}
  {post : Except ε α → σ → Prop} {s s' : σ}

/-- A program stays `Safe` while the others move as `rely` allows. -/
theorem Safe.wait (htrans : ∀ s t u, rely s t → rely t u → rely s u) {p : Program κ ρ ε α}
    (h : p.Safe step rely post s) (hs : rely s s') : p.Safe step rely post s' := by
  cases p with
  | ret result => exact fun t ht => h t (htrans _ _ _ hs ht)
  | call c next => exact fun s₁ hs₁ => h s₁ (htrans _ _ _ hs hs₁)

/-- A program that is `Safe` before a call is so behind its answer. -/
theorem Safe.next (hrefl : ∀ s, rely s s) {c : κ} {next : Except ε (ρ c) → Program κ ρ ε α}
    (h : (Program.call c next).Safe step rely post s) {answer : Except ε (ρ c)}
    (hstep : step c s answer s') : (next answer).Safe step rely post s' :=
  h s (hrefl s) answer s' hstep

/-- What has returned is safe where its result is. -/
theorem Safe.ret (hrefl : ∀ s, rely s s) {result : Except ε α}
    (h : (Program.ret result : Program κ ρ ε α).Safe step rely post s) : post result s :=
  h s (hrefl s)

/-- `Safe` holds for fewer steps and a weaker postcondition. -/
theorem Safe.mono {step' : (c : κ) → σ → Except ε (ρ c) → σ → Prop}
    {post' : Except ε α → σ → Prop} (hstep : ∀ c s a t, step' c s a t → step c s a t)
    (hpost : ∀ result s, post result s → post' result s) {p : Program κ ρ ε α}
    (h : p.Safe step rely post s) : p.Safe step' rely post' s := by
  induction p generalizing s with
  | ret result => exact fun t ht => hpost result t (h t ht)
  | call c next ih =>
    exact fun s₁ hs₁ answer s₂ hs₂ => ih answer (h s₁ hs₁ answer s₂ (hstep c s₁ answer s₂ hs₂))

/-- A program is safe before another if the other is safe from whatever the first leaves. -/
theorem Safe.andThen {p : Program κ ρ ε α} {f : Except ε α → Program κ ρ ε β}
    {post' : Except ε β → σ → Prop} (hrefl : ∀ s, rely s s)
    (h : p.Safe step rely (fun result s => (f result).Safe step rely post' s) s) :
    (p.andThen f).Safe step rely post' s := by
  induction p generalizing s with
  | ret result => exact h s (hrefl s)
  | call c next ih => exact fun s₁ hs₁ answer s₂ hstep => ih answer (h s₁ hs₁ answer s₂ hstep)

/-- A single call is `Safe` if its answers meet the postcondition, whatever the others do around
    it. -/
theorem Safe.perform {c : κ} {post : Except ε (ρ c) → σ → Prop}
    (h : ∀ s₁, rely s s₁ → ∀ answer s₂, step c s₁ answer s₂ → ∀ s₃, rely s₂ s₃ → post answer s₃) :
    (Program.perform c : Program κ ρ ε (ρ c)).Safe step rely post s := h

/-- A `bind` is safe if its continuation is safe from whatever the first program leaves. -/
theorem Safe.bind (hrefl : ∀ s, rely s s)
    {p : Program κ ρ ε α} {f : α → Program κ ρ ε β} {post' : Except ε β → σ → Prop}
    (h : p.Safe step rely
      (fun
        | .ok a, s => (f a).Safe step rely post' s
        | .error e, s => ∀ s', rely s s' → post' (.error e) s') s) :
    (p >>= f).Safe step rely post' s :=
  .andThen hrefl (h.mono (fun _ _ _ _ hstep => hstep) fun
    | .ok _, _, hok => hok
    | .error _, _, herror => herror)

/-- A program with a handler is safe if the handler is safe from wherever the program raises. -/
theorem Safe.tryCatch (hrefl : ∀ s, rely s s) {p : Program κ ρ ε α}
    {handler : ε → Program κ ρ ε α}
    (h : p.Safe step rely
      (fun
        | .ok a, s => ∀ s', rely s s' → post (.ok a) s'
        | .error e, s => (handler e).Safe step rely post s) s) :
    (MonadExcept.tryCatch p handler : Program κ ρ ε α).Safe step rely post s :=
  .andThen hrefl (h.mono (fun _ _ _ _ hstep => hstep) fun
    | .ok _, _, hok => hok
    | .error _, _, herror => herror)

/-- A run without others around it meets the postcondition of a `Safe` program. -/
theorem Safe.run {τ : Type} {handler : (c : κ) → τ → Except ε (ρ c) × τ} {view : τ → σ}
    {ok : κ → τ → Prop} (hrefl : ∀ s, rely s s)
    (hstep : ∀ c t, ok c t → step c (view t) (handler c t).1 (view (handler c t).2))
    {p : Program κ ρ ε α} {t : τ} (h : p.Safe step rely post (view t))
    (hok : p.Meets handler ok t) :
    post (p.run handler t).1 (view (p.run handler t).2) := by
  induction p generalizing t with
  | ret result => exact h (view t) (hrefl (view t))
  | call c next ih => exact ih _ (h.next hrefl (hstep c t hok.1)) hok.2

end Safe

/-- `P` holds of a program, and of what it can become. -/
def Throughout (P : Program κ ρ ε α → Prop) : Program κ ρ ε α → Prop
  | .ret result => P (.ret result)
  | .call c next => P (.call c next) ∧ ∀ answer, (next answer).Throughout P

/-- What holds throughout holds at first. -/
theorem Throughout.here {P : Program κ ρ ε α → Prop} {p : Program κ ρ ε α}
    (h : p.Throughout P) : P p := by
  cases p with
  | ret result => exact h
  | call c next => exact h.1

end Program
