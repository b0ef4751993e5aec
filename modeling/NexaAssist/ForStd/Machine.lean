/-!
# Machines, runs and guarded reachability

A `Machine` is a deterministic step function over events: every choice its
environment makes is in the event. `Reachable` collects the states of its runs,
and `ReachableVia ok` those of the runs whose every step meets `ok`, a condition
on the state before the step and the event.

An `Object` answers calls. Two objects related by a simulation answer every
sequence of calls alike.
-/

/-- A deterministic machine. `step s e = none` when `e` cannot happen in `s`. -/
structure Machine (σ ε : Type) where
  init : σ
  step : σ → ε → Option σ

namespace Machine

variable {σ ε : Type} (M : Machine σ ε)

/-- Run a list of events from `s`, failing at the first one that is not enabled. -/
def runFrom (s : σ) : List ε → Option σ
  | [] => some s
  | e :: es => (M.step s e).bind fun s' => runFrom s' es

/-- Run a list of events from the initial state. -/
def run (es : List ε) : Option σ := M.runFrom M.init es

/-- States reached by runs whose every step meets `ok` in the state before it. -/
inductive ReachableVia (ok : σ → ε → Prop) : σ → Prop
  | init : ReachableVia ok M.init
  | step {s s' : σ} {e : ε} :
      ReachableVia ok s → ok s e → M.step s e = some s' → ReachableVia ok s'

/-- States reached by any run. -/
def Reachable : σ → Prop := M.ReachableVia fun _ _ => True

/-- An invariant of the initial state and of every permitted step holds in every
    state those steps reach. -/
theorem ReachableVia.invariant {M : Machine σ ε} {ok : σ → ε → Prop} {inv : σ → Prop}
    (hinit : inv M.init)
    (hstep : ∀ s e s', inv s → ok s e → M.step s e = some s' → inv s')
    {s : σ} (h : M.ReachableVia ok s) : inv s := by
  induction h with
  | init => exact hinit
  | step _ hok hs ih => exact hstep _ _ _ ih hok hs

/-- Every step of a run from `s` meets `ok`, as far as the run gets. -/
def Meets (ok : σ → ε → Prop) (s : σ) : List ε → Prop
  | [] => True
  | e :: es => ok s e ∧ ∀ s', M.step s e = some s' → Meets ok s' es

/-- Whether a run meets a condition that can be checked can be checked by running it. -/
instance decidableMeets (ok : σ → ε → Prop) [∀ s e, Decidable (ok s e)] (s : σ) :
    (es : List ε) → Decidable (M.Meets ok s es)
  | [] => .isTrue trivial
  | e :: es =>
    match hstep : M.step s e with
    | none => decidable_of_iff (ok s e)
        ⟨fun hok => ⟨hok, fun _ hs' => nomatch hstep.symm.trans hs'⟩, fun h => h.1⟩
    | some s' =>
      have := decidableMeets ok s' es
      decidable_of_iff (ok s e ∧ M.Meets ok s' es)
        ⟨fun h => ⟨h.1, fun _ ht => Option.some.inj (hstep.symm.trans ht) ▸ h.2⟩,
          fun h => ⟨h.1, h.2 s' hstep⟩⟩

/-- A run whose steps meet the condition goes from a reachable state to a reachable one. -/
theorem ReachableVia.runFrom {M : Machine σ ε} {ok : σ → ε → Prop} {s s' : σ}
    (h : M.ReachableVia ok s) (es : List ε) (hok : M.Meets ok s es)
    (hrun : M.runFrom s es = some s') : M.ReachableVia ok s' := by
  induction es generalizing s with
  | nil =>
    simp only [Machine.runFrom, Option.some.injEq] at hrun
    exact hrun ▸ h
  | cons e es ih =>
    simp only [Machine.runFrom] at hrun
    cases hstep : M.step s e with
    | none => simp [hstep] at hrun
    | some s₁ =>
      simp only [hstep, Option.bind_some] at hrun
      exact ih (.step h hok.1 hstep) (hok.2 s₁ hstep) hrun

/-- The end of a run whose every step meets `ok`. -/
theorem reachableVia_of_run {M : Machine σ ε} {ok : σ → ε → Prop} {s : σ} (es : List ε)
    (hok : M.Meets ok M.init es) (hrun : M.run es = some s) : M.ReachableVia ok s :=
  ReachableVia.runFrom .init es hok hrun

/-- Every run meets the condition that asks nothing. -/
theorem meets_true (s : σ) (es : List ε) : M.Meets (fun _ _ => True) s es := by
  induction es generalizing s with
  | nil => trivial
  | cons e es ih => exact ⟨trivial, fun s' _ => ih s'⟩

/-- Where a step from a good state leads to a good one just if it meets `ok`, a run passes through
    good states only just if it meets `ok`. -/
theorem always_iff_meets {M : Machine σ ε} {ok : σ → ε → Prop} (inv good : σ → Prop)
    (hinv : ∀ s e s', inv s → M.step s e = some s' → inv s')
    (hstep : ∀ s e s', inv s → good s → M.step s e = some s' → (good s' ↔ ok s e))
    (hstuck : ∀ s e, M.step s e = none → ok s e)
    {s : σ} (hs : inv s) (hgood : good s) (es : List ε) :
    (∀ before s', before <+: es → M.runFrom s before = some s' → good s') ↔ M.Meets ok s es := by
  induction es generalizing s with
  | nil =>
    refine ⟨fun _ => trivial, ?_⟩
    intro _ before s' hbefore hrun
    rw [List.prefix_nil.mp hbefore, Machine.runFrom, Option.some.injEq] at hrun
    exact hrun ▸ hgood
  | cons e es ih =>
    constructor
    · intro hall
      -- The first step is good, and every prefix of what follows is a longer prefix of the run
      have hmet : ∀ s₁, M.step s e = some s₁ → good s₁ ∧ M.Meets ok s₁ es := by
        intro s₁ hs₁
        have hgood₁ := hall [e] s₁ (by simp) (by simp [Machine.runFrom, hs₁])
        refine ⟨hgood₁, (ih (hinv s e s₁ hs hs₁) hgood₁).mp ?_⟩
        intro before s' hbefore hrun
        apply hall (e :: before) s' (List.cons_prefix_cons.mpr ⟨rfl, hbefore⟩)
        rw [Machine.runFrom, hs₁, Option.bind_some, hrun]
      refine ⟨?_, fun s₁ hs₁ => (hmet s₁ hs₁).2⟩
      cases hs₁ : M.step s e with
      -- A step that cannot be taken meets the condition by hstuck
      | none => exact hstuck s e hs₁
      | some s₁ => exact (hstep s e s₁ hs hgood hs₁).mp (hmet s₁ hs₁).1
    · rintro ⟨hok, hrest⟩ before s' hbefore hrun
      cases before with
      | nil =>
        rw [Machine.runFrom, Option.some.injEq] at hrun
        exact hrun ▸ hgood
      | cons e' before =>
        -- The first step is permitted, so it is good, and the rest follows by induction
        obtain ⟨rfl, hlater⟩ := List.cons_prefix_cons.mp hbefore
        rw [Machine.runFrom, Option.bind_eq_some_iff] at hrun
        obtain ⟨s₁, hs₁, hrun⟩ := hrun
        have hgood₁ := (hstep s e' s₁ hs hgood hs₁).mpr hok
        exact (ih (hinv s e' s₁ hs hs₁) hgood₁).mpr (hrest s₁ hs₁) before s' hlater hrun

/-- The end of a run from the initial state is reachable. -/
theorem reachable_of_run {M : Machine σ ε} {s : σ} (es : List ε)
    (hrun : M.run es = some s) : M.Reachable s :=
  reachableVia_of_run es (M.meets_true M.init es) hrun

/-- Two machines whose related states take each event alike, to related states or not at
    all, run alike. -/
theorem runFrom_rel {σ τ ε : Type} {M : Machine σ ε} {N : Machine τ ε} {R : σ → τ → Prop}
    (hstep : ∀ s t e, R s t → Option.Rel R (M.step s e) (N.step t e))
    {s : σ} {t : τ} (h : R s t) (es : List ε) :
    Option.Rel R (M.runFrom s es) (N.runFrom t es) := by
  induction es generalizing s t with
  | nil => exact .some h
  | cons e es ih =>
    simp only [Machine.runFrom]
    generalize hM : M.step s e = s', hN : N.step t e = t'
    have hrel : Option.Rel R s' t' := hM ▸ hN ▸ hstep s t e h
    cases hrel with
    | some h' => exact ih h'
    | none => exact .none

end Machine

/-- An object answers each call with an output and its next state. -/
structure Object (σ ι ο : Type) where
  init : σ
  call : σ → ι → ο × σ

namespace Object

variable {σ τ ι ο : Type}

/-- The answers to a list of calls made one after another from `s`. -/
def outputsFrom (O : Object σ ι ο) (s : σ) : List ι → List ο
  | [] => []
  | i :: is => (O.call s i).1 :: O.outputsFrom (O.call s i).2 is

/-- The answers to a list of calls made from the initial state. -/
def outputs (O : Object σ ι ο) (is : List ι) : List ο := O.outputsFrom O.init is

/-- The state a list of calls leaves behind. -/
def stateFrom (O : Object σ ι ο) (s : σ) : List ι → σ
  | [] => s
  | i :: is => O.stateFrom (O.call s i).2 is

/-- Two objects a simulation relates give the same answers, call for call. -/
theorem outputsFrom_eq_of_simulation {O : Object σ ι ο} {P : Object τ ι ο}
    (R : σ → τ → Prop)
    (hcall : ∀ s t i, R s t →
      (O.call s i).1 = (P.call t i).1 ∧ R (O.call s i).2 (P.call t i).2)
    {s : σ} {t : τ} (h : R s t) (is : List ι) :
    O.outputsFrom s is = P.outputsFrom t is := by
  induction is generalizing s t with
  | nil => rfl
  | cons i is ih =>
    obtain ⟨hout, hnext⟩ := hcall s t i h
    simp only [outputsFrom, hout, ih hnext]

/-- Two objects whose calls keep a relation stay related after any list of calls. -/
theorem stateFrom_rel {O : Object σ ι ο} {P : Object τ ι ο} (R : σ → τ → Prop)
    (hcall : ∀ s t i, R s t → R (O.call s i).2 (P.call t i).2)
    {s : σ} {t : τ} (h : R s t) (is : List ι) : R (O.stateFrom s is) (P.stateFrom t is) := by
  induction is generalizing s t with
  | nil => exact h
  | cons i is ih => exact ih (hcall s t i h)

/-- A property every call preserves holds after any list of calls. -/
theorem stateFrom_invariant {O : Object σ ι ο} (inv : σ → Prop) (is : List ι)
    (hcall : ∀ s, ∀ i ∈ is, inv s → inv (O.call s i).2) {s : σ} (h : inv s) :
    inv (O.stateFrom s is) := by
  induction is generalizing s with
  | nil => exact h
  | cons i is ih =>
    have hi : inv (O.call s i).2 := hcall s i (by simp) h
    exact ih (fun s' j hj => hcall s' j (by simp [hj])) hi

end Object
