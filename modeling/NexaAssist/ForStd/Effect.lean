/-!
# Effects: state, an environment and exceptions

`Effect ρ ε σ α` reads an environment, changes a state and returns or raises. A raise
keeps the state it was raised in, as an exception does that passes through code with
side effects.

`Moves R` says that an effect takes every state to one `R` relates it to, whether it
returns or raises; for a preorder it is closed under all ways to compose effects.
`Lockstep S` says that two runs from states that `S` relates end alike, and in states
that `S` relates.
-/

/-- A computation with an environment, a state and exceptions. -/
def Effect (ρ ε σ α : Type) : Type := ρ → σ → Except ε α × σ

namespace Effect

variable {ρ ε σ α β : Type}

instance : Monad (Effect ρ ε σ) where
  pure a := fun _ s => (.ok a, s)
  bind x f := fun env s =>
    match x env s with
    | (.ok a, s') => f a env s'
    | (.error e, s') => (.error e, s')

instance : MonadExceptOf ε (Effect ρ ε σ) where
  throw e := fun _ s => (.error e, s)
  tryCatch x handler := fun env s =>
    match x env s with
    | (.ok a, s') => (.ok a, s')
    | (.error e, s') => handler e env s'

/-- The environment. -/
def ask : Effect ρ ε σ ρ := fun env s => (.ok env, s)

/-- The state. -/
def get : Effect ρ ε σ σ := fun _ s => (.ok s, s)

/-- Change the state. -/
def modify (f : σ → σ) : Effect ρ ε σ Unit := fun _ s => (.ok (), f s)

/-- Return what is there, or raise. -/
def ofExcept (x : Except ε α) : Effect ρ ε σ α := fun _ s => (x, s)

/-- `pure` returns and changes nothing. -/
@[simp]
theorem pure_run (a : α) (env : ρ) (s : σ) : (pure a : Effect ρ ε σ α) env s = (.ok a, s) := rfl

/-- `throw` raises and changes nothing. -/
@[simp]
theorem throw_run (e : ε) (env : ρ) (s : σ) :
    (throw e : Effect ρ ε σ α) env s = (.error e, s) := rfl

/-- `ask` gives the environment. -/
@[simp]
theorem ask_run (env : ρ) (s : σ) : (ask : Effect ρ ε σ ρ) env s = (.ok env, s) := rfl

/-- `get` gives the state. -/
@[simp]
theorem get_run (env : ρ) (s : σ) : (get : Effect ρ ε σ σ) env s = (.ok s, s) := rfl

/-- `modify` changes the state. -/
@[simp]
theorem modify_run (f : σ → σ) (env : ρ) (s : σ) :
    (modify f : Effect ρ ε σ Unit) env s = (.ok (), f s) := rfl

/-- `ofExcept` returns or raises and changes nothing. -/
@[simp]
theorem ofExcept_run (x : Except ε α) (env : ρ) (s : σ) :
    (ofExcept x : Effect ρ ε σ α) env s = (x, s) := rfl

/-- What returns is followed by the rest. -/
theorem bind_of_ok {x : Effect ρ ε σ α} {f : α → Effect ρ ε σ β} {env : ρ} {s s' : σ} {a : α}
    (h : x env s = (.ok a, s')) : (x >>= f) env s = f a env s' := by
  show (match x env s with
    | (.ok a, s') => f a env s'
    | (.error e, s') => (.error e, s')) = f a env s'
  rw [h]

/-- What raises is not. -/
theorem bind_of_error {x : Effect ρ ε σ α} {f : α → Effect ρ ε σ β} {env : ρ} {s s' : σ} {e : ε}
    (h : x env s = (.error e, s')) : (x >>= f) env s = (.error e, s') := by
  show (match x env s with
    | (.ok a, s') => f a env s'
    | (.error e, s') => (.error e, s')) = (.error e, s')
  rw [h]

/-- What returns is not caught. -/
theorem tryCatch_of_ok {x : Effect ρ ε σ α} {handler : ε → Effect ρ ε σ α} {env : ρ} {s s' : σ}
    {a : α} (h : x env s = (.ok a, s')) : (tryCatch x handler) env s = (.ok a, s') := by
  show (match x env s with
    | (.ok a, s') => (.ok a, s')
    | (.error e, s') => handler e env s') = (.ok a, s')
  rw [h]

/-- What raises is. -/
theorem tryCatch_of_error {x : Effect ρ ε σ α} {handler : ε → Effect ρ ε σ α} {env : ρ}
    {s s' : σ} {e : ε} (h : x env s = (.error e, s')) :
    (tryCatch x handler) env s = handler e env s' := by
  show (match x env s with
    | (.ok a, s') => (.ok a, s')
    | (.error e, s') => handler e env s') = handler e env s'
  rw [h]

/-- A `bind` returns just if both of its parts do. -/
theorem bind_eq_ok {x : Effect ρ ε σ α} {f : α → Effect ρ ε σ β} {env : ρ} {s s' : σ} {b : β} :
    (x >>= f) env s = (.ok b, s') ↔
      ∃ a s₁, x env s = (.ok a, s₁) ∧ f a env s₁ = (.ok b, s') := by
  constructor
  · intro h
    match hx : x env s with
    | (.ok a, s₁) =>
      rw [bind_of_ok hx] at h
      exact ⟨a, s₁, rfl, h⟩
    | (.error e, s₁) =>
      rw [bind_of_error hx] at h
      exact nomatch (Prod.mk.inj h).1
  · rintro ⟨a, s₁, hx, hf⟩
    rw [bind_of_ok hx, hf]

/-- Steps one after another are one sequence. -/
theorem bind_assoc {γ : Type} (x : Effect ρ ε σ α) (f : α → Effect ρ ε σ β)
    (g : β → Effect ρ ε σ γ) : (x >>= f) >>= g = x >>= fun a => f a >>= g := by
  funext env s
  match hx : x env s with
  | (.error e, s') =>
    rw [bind_of_error hx, bind_of_error (bind_of_error hx)]
  | (.ok a, s') =>
    rw [bind_of_ok hx]
    match hf : f a env s' with
    | (.error e, s₂) => rw [bind_of_error hf, bind_of_error ((bind_of_ok hx).trans hf)]
    | (.ok b, s₂) => rw [bind_of_ok hf, bind_of_ok ((bind_of_ok hx).trans hf)]

/-! ## Where an effect can go -/

/-- From every state `x` goes to one that `R` relates it to. -/
def Moves (R : ρ → σ → σ → Prop) (x : Effect ρ ε σ α) : Prop := ∀ env s, R env s (x env s).2

section Moves

variable {R : ρ → σ → σ → Prop}

/-- `pure` moves as far as standing still. -/
theorem Moves.pure (hrefl : ∀ env s, R env s s) (a : α) :
    Moves R (Pure.pure a : Effect ρ ε σ α) := fun env s => hrefl env s

/-- `throw` moves as a reflexive relation allows. -/
theorem Moves.throw (hrefl : ∀ env s, R env s s) (e : ε) :
    Moves R (MonadExcept.throw e : Effect ρ ε σ α) := fun env s => hrefl env s

/-- `ask` moves as a reflexive relation allows. -/
theorem Moves.ask (hrefl : ∀ env s, R env s s) : Moves R (ask : Effect ρ ε σ ρ) :=
  fun env s => hrefl env s

/-- `get` moves as a reflexive relation allows. -/
theorem Moves.get (hrefl : ∀ env s, R env s s) : Moves R (get : Effect ρ ε σ σ) :=
  fun env s => hrefl env s

/-- `ofExcept` moves as a reflexive relation allows. -/
theorem Moves.ofExcept (hrefl : ∀ env s, R env s s) (x : Except ε α) :
    Moves R (ofExcept x : Effect ρ ε σ α) := fun env s => hrefl env s

/-- Two steps that move as a transitive relation allows do so together. -/
theorem Moves.bind (htrans : ∀ env s t u, R env s t → R env t u → R env s u)
    {x : Effect ρ ε σ α} {f : α → Effect ρ ε σ β} (hx : Moves R x) (hf : ∀ a, Moves R (f a)) :
    Moves R (x >>= f) := by
  intro env s
  have hfirst : R env s (x env s).2 := hx env s
  match h : x env s with
  | (.ok a, s') =>
    rw [bind_of_ok h]
    rw [h] at hfirst
    exact htrans env s s' _ hfirst (hf a env s')
  | (.error e, s') =>
    rw [bind_of_error h]
    rw [h] at hfirst
    exact hfirst

/-- A step and its handler move as a transitive relation allows, if both do. -/
theorem Moves.tryCatch (htrans : ∀ env s t u, R env s t → R env t u → R env s u)
    {x : Effect ρ ε σ α} {handler : ε → Effect ρ ε σ α} (hx : Moves R x)
    (hhandler : ∀ e, Moves R (handler e)) : Moves R (MonadExcept.tryCatch x handler) := by
  intro env s
  have hfirst : R env s (x env s).2 := hx env s
  match h : x env s with
  | (.ok a, s') =>
    rw [tryCatch_of_ok h]
    rw [h] at hfirst
    exact hfirst
  | (.error e, s') =>
    rw [tryCatch_of_error h]
    rw [h] at hfirst
    exact htrans env s s' _ hfirst (hhandler e env s')

end Moves

/-! ## Two runs -/

/-- From states that `S` relates `x` ends alike, in states that `S` relates. -/
def Lockstep (S : σ → σ → Prop) (x : Effect ρ ε σ α) : Prop :=
  ∀ env s t, S s t → (x env s).1 = (x env t).1 ∧ S (x env s).2 (x env t).2

section Lockstep

variable {S : σ → σ → Prop}

/-- `pure` keeps in step. -/
theorem Lockstep.pure (a : α) : Lockstep S (Pure.pure a : Effect ρ ε σ α) :=
  fun _ _ _ h => ⟨rfl, h⟩

/-- `throw` keeps two runs in step. -/
theorem Lockstep.throw (e : ε) : Lockstep S (MonadExcept.throw e : Effect ρ ε σ α) :=
  fun _ _ _ h => ⟨rfl, h⟩

/-- `ask` keeps two runs in step. -/
theorem Lockstep.ask : Lockstep S (ask : Effect ρ ε σ ρ) := fun _ _ _ h => ⟨rfl, h⟩

/-- Two steps that each keep two runs in step do so together. -/
theorem Lockstep.bind {x : Effect ρ ε σ α} {f : α → Effect ρ ε σ β} (hx : Lockstep S x)
    (hf : ∀ a, Lockstep S (f a)) : Lockstep S (x >>= f) := by
  intro env s t h
  obtain ⟨hresult, hstate⟩ := hx env s t h
  match hs : x env s, ht : x env t with
  | (.ok a, s'), (r, t') =>
    rw [hs, ht] at hresult hstate
    obtain rfl : r = .ok a := hresult.symm
    rw [bind_of_ok hs, bind_of_ok ht]
    exact hf a env s' t' hstate
  | (.error e, s'), (r, t') =>
    rw [hs, ht] at hresult hstate
    obtain rfl : r = .error e := hresult.symm
    rw [bind_of_error hs, bind_of_error ht]
    exact ⟨rfl, hstate⟩

/-- A step and its handler keep two runs in step, if both do. -/
theorem Lockstep.tryCatch {x : Effect ρ ε σ α} {handler : ε → Effect ρ ε σ α}
    (hx : Lockstep S x) (hhandler : ∀ e, Lockstep S (handler e)) :
    Lockstep S (MonadExcept.tryCatch x handler) := by
  intro env s t h
  obtain ⟨hresult, hstate⟩ := hx env s t h
  match hs : x env s, ht : x env t with
  | (.ok a, s'), (r, t') =>
    rw [hs, ht] at hresult hstate
    obtain rfl : r = .ok a := hresult.symm
    rw [tryCatch_of_ok hs, tryCatch_of_ok ht]
    exact ⟨rfl, hstate⟩
  | (.error e, s'), (r, t') =>
    rw [hs, ht] at hresult hstate
    obtain rfl : r = .error e := hresult.symm
    rw [tryCatch_of_error hs, tryCatch_of_error ht]
    exact hhandler e env s' t' hstate

end Lockstep

end Effect
