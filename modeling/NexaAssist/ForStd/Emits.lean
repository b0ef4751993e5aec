import NexaAssist.ForStd.Effect

/-!
# What an effect emits

An effect that hands items to an `emit` of its own, one after another. `Emits emit env x items r`
says that `x` is to emit `items` in order and then to end in `r`: it ends early only where
`emit` raises. How effects are composed decides what the whole emits.
-/

namespace Effect

variable {ρ ε σ α β φ : Type}

/-- `try: x` with `finally: last`. -/
def tryFinally (x : Effect ρ ε σ α) (last : Effect ρ ε σ Unit) : Effect ρ ε σ α := fun env s =>
  match x env s with
  | (r, s') => (last >>= fun _ => ofExcept r) env s'

/-- Emit one item after another. -/
def emitAll (emit : φ → Effect ρ ε σ Unit) : List φ → Effect ρ ε σ Unit
  | [] => pure ()
  | item :: items => do
    emit item
    emitAll emit items

/-- `x` emits `items` and ends in `r`, unless it is stopped by a raise of `emit`. -/
def Emits (emit : φ → Effect ρ ε σ Unit) (env : ρ) (x : Effect ρ ε σ α) (items : List φ)
    (r : Except ε α) : Prop :=
  ∀ s, x env s = (emitAll emit items >>= fun _ => ofExcept r) env s

section Emits

variable {emit : φ → Effect ρ ε σ Unit} {env : ρ}

/-- `emitAll` of two lists emits one and then the other. -/
theorem emitAll_append (emit : φ → Effect ρ ε σ Unit) (env : ρ) (items more : List φ) (s : σ) :
    emitAll emit (items ++ more) env s =
      (emitAll emit items >>= fun _ => emitAll emit more) env s := by
  induction items generalizing s with
  | nil => rfl
  | cons item items ih =>
    match hitem : emit item env s with
    | (.ok (), s') =>
      have hrest := ih s'
      rw [List.cons_append, emitAll, bind_of_ok hitem, hrest, emitAll, bind_assoc,
        bind_of_ok hitem]
    | (.error e, s') =>
      rw [List.cons_append, emitAll, bind_of_error hitem, emitAll, bind_assoc,
        bind_of_error hitem]

/-- A result emits nothing. -/
theorem Emits.ofExcept (r : Except ε α) : Emits emit env (ofExcept r) [] r := fun _ => rfl

/-- `pure` emits nothing. -/
theorem Emits.pure (a : α) : Emits emit env (Pure.pure a) [] (.ok a) := fun _ => rfl

/-- `ask` emits nothing. -/
theorem Emits.ask : Emits emit env ask [] (.ok env) := fun _ => rfl

/-- `throw` emits nothing. -/
theorem Emits.throw (e : ε) :
    Emits emit env (MonadExcept.throw e : Effect ρ ε σ α) [] (.error e) :=
  fun _ => rfl

/-- `emitAll` emits its items. -/
theorem Emits.emitAll (items : List φ) : Emits emit env (emitAll emit items) items (.ok ()) := by
  intro s
  match hall : Effect.emitAll emit items env s with
  | (.ok (), s') => rw [bind_of_ok hall, ofExcept_run]
  | (.error e, s') => rw [bind_of_error hall]

/-- `emit` of one item emits that item. -/
theorem Emits.one (item : φ) : Emits emit env (emit item) [item] (.ok ()) := by
  intro s
  match hitem : emit item env s with
  | (.ok (), s') => rw [Effect.emitAll, bind_assoc, bind_of_ok hitem]; rfl
  | (.error e, s') => rw [Effect.emitAll, bind_assoc, bind_of_error hitem]

/-- What emits nothing more emits what it has. -/
theorem Emits.of_append_nil {x : Effect ρ ε σ α} {items : List φ} {r : Except ε α}
    (h : Emits emit env x (items ++ []) r) : Emits emit env x items r := by
  rwa [List.append_nil] at h

/-- A `bind` whose first part returns emits what both of its parts do. -/
theorem Emits.bind {x : Effect ρ ε σ α} {f : α → Effect ρ ε σ β} {items more : List φ} {a : α}
    {r : Except ε β} (hx : Emits emit env x items (.ok a)) (hf : Emits emit env (f a) more r) :
    Emits emit env (x >>= f) (items ++ more) r := by
  intro s
  have hrun := hx s
  match hall : Effect.emitAll emit items env s with
  | (.ok (), s') =>
    rw [bind_of_ok hall, ofExcept_run] at hrun
    have hboth := emitAll_append emit env items more s
    rw [bind_of_ok hall] at hboth
    rw [bind_of_ok hrun, hf s']
    match hmore : Effect.emitAll emit more env s' with
    | (.ok (), s'') => rw [bind_of_ok hmore, bind_of_ok (hboth.trans hmore)]
    | (.error e, s'') => rw [bind_of_error hmore, bind_of_error (hboth.trans hmore)]
  | (.error e, s') =>
    rw [bind_of_error hall] at hrun
    have hboth := emitAll_append emit env items more s
    rw [bind_of_error hall] at hboth
    rw [bind_of_error hrun, bind_of_error hboth]

/-- A `bind` whose first part raises emits what that part does. -/
theorem Emits.bind_error {x : Effect ρ ε σ α} {f : α → Effect ρ ε σ β} {items : List φ} {e : ε}
    (hx : Emits emit env x items (.error e)) : Emits emit env (x >>= f) items (.error e) := by
  intro s
  have hrun := hx s
  match hall : Effect.emitAll emit items env s with
  | (.ok (), s') =>
    rw [bind_of_ok hall, ofExcept_run] at hrun
    rw [bind_of_error hrun, bind_of_ok hall, ofExcept_run]
  | (.error e', s') =>
    rw [bind_of_error hall] at hrun
    rw [bind_of_error hrun, bind_of_error hall]

/-- What `emit` raises for one of `items` goes through the handler. -/
def Passes (emit : φ → Effect ρ ε σ Unit) (env : ρ) (handler : ε → Effect ρ ε σ α)
    (items : List φ) : Prop :=
  ∀ item ∈ items, ∀ s e s', emit item env s = (.error e, s') → handler e env s' = (.error e, s')

/-- The empty list of items passes every handler. -/
theorem Passes.nil {handler : ε → Effect ρ ε σ α} : Passes emit env handler [] := by
  intro item hmem
  exact nomatch hmem

/-- Where its items pass a handler, `emitAll` does. -/
theorem Passes.emitAll {handler : ε → Effect ρ ε σ α} {items : List φ}
    (h : Passes emit env handler items) {s s' : σ} {e : ε}
    (hall : Effect.emitAll emit items env s = (.error e, s')) :
    handler e env s' = (.error e, s') := by
  induction items generalizing s with
  | nil => exact nomatch (Prod.mk.inj hall).1
  | cons item items ih =>
    match hitem : emit item env s with
    | (.ok (), s₁) =>
      rw [Effect.emitAll, bind_of_ok hitem] at hall
      exact ih (fun other hother => h other (List.mem_cons_of_mem item hother)) hall
    | (.error e₁, s₁) =>
      rw [Effect.emitAll, bind_of_error hitem] at hall
      obtain ⟨hresult, rfl⟩ := Prod.mk.inj hall
      obtain rfl := Except.error.inj hresult
      exact h item List.mem_cons_self s e₁ s₁ hitem

/-- A handler emits nothing where nothing is raised. -/
theorem Emits.tryCatch {x : Effect ρ ε σ α} {handler : ε → Effect ρ ε σ α} {items : List φ}
    {a : α} (hpass : Passes emit env handler items) (hx : Emits emit env x items (.ok a)) :
    Emits emit env (MonadExcept.tryCatch x handler) items (.ok a) := by
  intro s
  have hrun := hx s
  match hall : Effect.emitAll emit items env s with
  | (.ok (), s') =>
    rw [bind_of_ok hall, ofExcept_run] at hrun
    rw [tryCatch_of_ok hrun, bind_of_ok hall, ofExcept_run]
  | (.error e, s') =>
    rw [bind_of_error hall] at hrun
    rw [tryCatch_of_error hrun, bind_of_error hall, hpass.emitAll hall]

/-- Where a step raises, its handler emits behind what the step has emitted. -/
theorem Emits.tryCatch_error {x : Effect ρ ε σ α} {handler : ε → Effect ρ ε σ α}
    {items more : List φ} {e : ε} {r : Except ε α} (hpass : Passes emit env handler items)
    (hx : Emits emit env x items (.error e)) (hhandler : Emits emit env (handler e) more r) :
    Emits emit env (MonadExcept.tryCatch x handler) (items ++ more) r := by
  intro s
  have hrun := hx s
  have hboth := emitAll_append emit env items more s
  match hall : Effect.emitAll emit items env s with
  | (.ok (), s') =>
    rw [bind_of_ok hall, ofExcept_run] at hrun
    rw [bind_of_ok hall] at hboth
    rw [tryCatch_of_error hrun, hhandler s']
    match hmore : Effect.emitAll emit more env s' with
    | (.ok (), s'') => rw [bind_of_ok hmore, bind_of_ok (hboth.trans hmore)]
    | (.error e', s'') => rw [bind_of_error hmore, bind_of_error (hboth.trans hmore)]
  | (.error e', s') =>
    rw [bind_of_error hall] at hrun hboth
    rw [tryCatch_of_error hrun, hpass.emitAll hall, bind_of_error hboth]

/-- `emit` takes the items that `accepts` holds of, puts them at the end of what `emitted`
    shows, and raises on every other. -/
structure Appends (emit : φ → Effect ρ ε σ Unit) (env : ρ) (accepts : φ → Bool)
    (emitted : σ → List φ) (invariant : σ → σ → Prop) : Prop where
  refl (s : σ) : invariant s s
  trans (s t u : σ) : invariant s t → invariant t u → invariant s u
  accepted (item : φ) (s : σ) : accepts item = true →
    ∃ s', emit item env s = (.ok (), s') ∧ emitted s' = emitted s ++ [item] ∧ invariant s s'
  refused (item : φ) (s : σ) : accepts item = false →
    ∃ e, emit item env s = (.error e, s)

variable {accepts : φ → Bool} {emitted : σ → List φ} {invariant : σ → σ → Prop}

/-- Items that are all accepted are all emitted. -/
theorem Appends.emitAll_ok (h : Appends emit env accepts emitted invariant) (items : List φ)
    (s : σ) (hall : ∀ item ∈ items, accepts item = true) :
    ∃ s', Effect.emitAll emit items env s = (.ok (), s') ∧ emitted s' = emitted s ++ items ∧
      invariant s s' := by
  induction items generalizing s with
  | nil => exact ⟨s, rfl, (List.append_nil _).symm, h.refl s⟩
  | cons item items ih =>
    obtain ⟨s₁, hitem, hone, hkept⟩ := h.accepted item s (hall item List.mem_cons_self)
    obtain ⟨s', hitems, hmore, hkept'⟩ := ih s₁ fun other hother =>
      hall other (List.mem_cons_of_mem item hother)
    refine ⟨s', ?_, ?_, h.trans s s₁ s' hkept hkept'⟩
    · rw [Effect.emitAll, bind_of_ok hitem, hitems]
    · rw [hmore, hone, List.append_assoc, List.singleton_append]

/-- An item that is not accepted ends it. -/
theorem Appends.emitAll_error (h : Appends emit env accepts emitted invariant) (items : List φ)
    (s : σ) {item : φ} (hmem : item ∈ items) (hrefused : accepts item = false) :
    ∃ e s', Effect.emitAll emit items env s = (.error e, s') ∧ invariant s s' := by
  induction items generalizing s with
  | nil => exact nomatch hmem
  | cons first items ih =>
    cases hfirst : accepts first with
    | false =>
      obtain ⟨e, herror⟩ := h.refused first s hfirst
      exact ⟨e, s, by rw [Effect.emitAll, bind_of_error herror], h.refl s⟩
    | true =>
      obtain ⟨s₁, hok, -, hkept⟩ := h.accepted first s hfirst
      have hlater : item ∈ items := by
        rcases List.mem_cons.mp hmem with rfl | hlater
        · exact nomatch hfirst.symm.trans hrefused
        · exact hlater
      obtain ⟨e, s', herror, hkept'⟩ := ih s₁ hlater
      refine ⟨e, s', ?_, h.trans s s₁ s' hkept hkept'⟩
      rw [Effect.emitAll, bind_of_ok hok, herror]

/-- An effect returns just if every item it emits is accepted and its result is no error. -/
theorem Emits.returns_iff {x : Effect ρ ε σ α} {items : List φ} {r : Except ε α} {a : α}
    (h : Appends emit env accepts emitted invariant) (hx : Emits emit env x items r) (s : σ) :
    (x env s).1 = .ok a ↔ (∀ item ∈ items, accepts item = true) ∧ r = .ok a := by
  rw [hx s]
  by_cases hall : ∀ item ∈ items, accepts item = true
  · obtain ⟨s', hrun, -, -⟩ := h.emitAll_ok items s hall
    rw [bind_of_ok hrun, ofExcept_run]
    exact (and_iff_right hall).symm
  · rw [Classical.not_forall] at hall
    obtain ⟨item, hitem⟩ := hall
    rw [Classical.not_imp, Bool.not_eq_true] at hitem
    obtain ⟨e, s', hrun, -⟩ := h.emitAll_error items s hitem.1 hitem.2
    rw [bind_of_error hrun]
    exact ⟨nofun, fun hok => nomatch (hok.1 item hitem.1).symm.trans hitem.2⟩

/-- The items up to the first that is not accepted are emitted. -/
theorem Appends.emitted_emitAll (h : Appends emit env accepts emitted invariant) (items : List φ)
    (s : σ) :
    emitted (Effect.emitAll emit items env s).2 = emitted s ++ items.takeWhile accepts := by
  induction items generalizing s with
  | nil => exact (List.append_nil _).symm
  | cons item items ih =>
    cases haccepts : accepts item with
    | false =>
      obtain ⟨e, herror⟩ := h.refused item s haccepts
      rw [Effect.emitAll, bind_of_error herror, List.takeWhile_cons_of_neg (by simp [haccepts]),
        List.append_nil]
    | true =>
      obtain ⟨s', hok, hone, -⟩ := h.accepted item s haccepts
      rw [Effect.emitAll, bind_of_ok hok, ih s', hone, List.takeWhile_cons_of_pos haccepts,
        List.append_assoc, List.singleton_append]

/-- However an effect ends, it has emitted the items up to the first that is not accepted. -/
theorem Emits.emitted_eq {x : Effect ρ ε σ α} {items : List φ} {r : Except ε α}
    (h : Appends emit env accepts emitted invariant) (hx : Emits emit env x items r) (s : σ) :
    emitted (x env s).2 = emitted s ++ items.takeWhile accepts := by
  have hall := h.emitted_emitAll items s
  rw [hx s]
  match hrun : Effect.emitAll emit items env s with
  | (.ok (), s') =>
    rw [hrun] at hall
    rw [bind_of_ok hrun, ofExcept_run, hall]
  | (.error e, s') =>
    rw [hrun] at hall
    rw [bind_of_error hrun, hall]

/-- An effect that returns has emitted everything. -/
theorem Emits.emitted_of_ok {x : Effect ρ ε σ α} {items : List φ} {r : Except ε α} {a : α}
    (h : Appends emit env accepts emitted invariant) (hx : Emits emit env x items r) {s : σ}
    (hok : (x env s).1 = .ok a) : emitted (x env s).2 = emitted s ++ items := by
  obtain ⟨s', hrun, hemitted, -⟩ := h.emitAll_ok items s ((hx.returns_iff h s).mp hok).1
  rw [hx s, bind_of_ok hrun, ofExcept_run, hemitted]

/-- However it ends, it leaves what `emit` leaves. -/
theorem Emits.kept {x : Effect ρ ε σ α} {items : List φ} {r : Except ε α}
    (h : Appends emit env accepts emitted invariant) (hx : Emits emit env x items r) (s : σ) :
    invariant s (x env s).2 := by
  rw [hx s]
  by_cases hall : ∀ item ∈ items, accepts item = true
  · obtain ⟨s', hrun, -, hkept⟩ := h.emitAll_ok items s hall
    rw [bind_of_ok hrun, ofExcept_run]
    exact hkept
  · rw [Classical.not_forall] at hall
    obtain ⟨item, hitem⟩ := hall
    rw [Classical.not_imp, Bool.not_eq_true] at hitem
    obtain ⟨e, s', hrun, hkept⟩ := h.emitAll_error items s hitem.1 hitem.2
    rw [bind_of_error hrun]
    exact hkept

end Emits

end Effect
