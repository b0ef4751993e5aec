import NexaAssist.Spec.ReviewClaims

/-!
# What a reviewer decided

Nothing in `resolve` looks at the item it closes. Where every `resolve` that gets to its
`UPDATE` is right to make it, no decision is lost: the row is locked from then on, so the
item is still what it was when the `UPDATE` is committed.
-/

namespace NexaAssist.Spec.ReviewDecisions

open NexaAssist PyJson ReviewClaims

/-- Who works with session `k`. -/
def reviewerOf (s : Reviews) (k : Nat) : Option Nat := s.sessions[k]?.map (·.reviewer)

/-- What a step does to decisions: a resolved item keeps its resolution, and a claimed item is
    closed by a `resolve` of a reviewer who has claimed it. -/
structure Respects (s : Reviews) (e : ReviewEvent) (s' : Reviews) : Prop where
  kept : ∀ reviewId row, s.row reviewId = some row → row.status = .resolved →
    ∃ row', s'.row reviewId = some row' ∧ row'.resolution = row.resolution
  closer : ∀ reviewId row row', s.row reviewId = some row → row.status = .claimed →
    s'.row reviewId = some row' → row'.status = .resolved →
    ∃ n id call resolution, e = .advance n id ∧ s.calls[n]? = some call ∧
      call.request = .resolve reviewId resolution ∧
      ∀ other ∈ s.calls, Claimant reviewId other →
        ∃ own ∈ s.calls, Claimant reviewId own ∧
          reviewerOf s own.session = reviewerOf s call.session

/-! ## When it is right to close an item -/

/-- A claim at this stage has its item. -/
def hasItem : ReviewStage → Bool
  | .took => true
  | .returned item => item.isSome
  | _ => false

/-- `hasItem` is told of what a stage has. -/
theorem hasItem_iff (stage : ReviewStage) :
    hasItem stage = true ↔ stage = .took ∨ ∃ item, stage = .returned (some item) := by
  cases stage with
  | returned item => cases item <;> simp [hasItem]
  | took => simp [hasItem]
  | _ => simp [hasItem]

instance (reviewId : Uuid) (call : ReviewCall) : Decidable (Claimant reviewId call) :=
  decidable_of_iff (call.request = .claim reviewId ∧ hasItem call.stage = true)
    (and_congr_right' (hasItem_iff call.stage))

/-- The item is not resolved with another text, nor claimed by another reviewer. -/
def Rightful (s : Reviews) (k : Nat) (reviewId : Uuid) (resolution : PyStr) : Prop :=
  ∀ row, s.row reviewId = some row →
    (row.status = .resolved → row.resolution = some resolution) ∧
    (row.status = .claimed → ∀ other ∈ s.calls, Claimant reviewId other →
      reviewerOf s other.session = reviewerOf s k)

instance (s : Reviews) (k : Nat) (reviewId : Uuid) (resolution : PyStr) :
    Decidable (Rightful s k reviewId resolution) :=
  match hrow : s.row reviewId with
  | none => .isTrue fun _ hsome => nomatch hrow.symm.trans hsome
  | some row => decidable_of_iff
      ((row.status = .resolved → row.resolution = some resolution) ∧
        (row.status = .claimed → ∀ other ∈ s.calls, Claimant reviewId other →
          reviewerOf s other.session = reviewerOf s k))
      ⟨fun h _ hsome => Option.some.inj (hrow.symm.trans hsome) ▸ h, fun h => h row hrow⟩

/-- The session, the item and the text of a `resolve` that is about to send its `UPDATE`. -/
def closing (s : Reviews) : ReviewEvent → Option (Nat × Uuid × PyStr)
  | .advance n _ =>
    match s.calls[n]? with
    | some ⟨k, .resolve reviewId resolution, .got _⟩ => some (k, reviewId, resolution)
    | _ => none
  | _ => none

/-- A `resolve` sends its `UPDATE` only where it is right to. -/
def Proper (s : Reviews) (e : ReviewEvent) : Prop :=
  ∀ k reviewId resolution, closing s e = some (k, reviewId, resolution) →
    Rightful s k reviewId resolution

instance (s : Reviews) (e : ReviewEvent) : Decidable (Proper s e) :=
  match hclosing : closing s e with
  | none => .isTrue fun _ _ _ hsome => nomatch hclosing.symm.trans hsome
  | some (k, reviewId, resolution) => decidable_of_iff (Rightful s k reviewId resolution)
      ⟨fun h _ _ _ hsome => by
        rw [hclosing, Option.some.injEq, Prod.mk.injEq, Prod.mk.injEq] at hsome
        obtain ⟨rfl, rfl, rfl⟩ := hsome
        exact h, fun h => h k reviewId resolution hclosing⟩

/-! ## Sessions stay their reviewers' -/

section Sessions

variable {s s' : Reviews} {k : Nat}

/-- Session `k` is whose it was. -/
def Seats (s s' : Reviews) : Prop :=
  ∀ k, k < s.sessions.length → k < s'.sessions.length ∧ reviewerOf s' k = reviewerOf s k

/-- The sessions have their seats where they are the same. -/
theorem Seats.of_eq (h : s'.sessions = s.sessions) : Seats s s' := by
  intro k hk
  exact ⟨h ▸ hk, by simp only [reviewerOf, h]⟩

/-- A reload leaves the seats. -/
theorem Seats.reload (h : Seats s s') (change : List ReviewRow → List ReviewRow) :
    Seats s (s'.reload k change) := by
  intro j hj
  obtain ⟨hlt, hsame⟩ := h j hj
  refine ⟨by simpa [Reviews.reload] using hlt, ?_⟩
  rw [← hsame]
  simp only [reviewerOf, Reviews.reload, List.getElem?_modify]
  cases s'.sessions[j]? with
  | none => rfl
  | some session => by_cases hkj : k = j <;> simp [hkj]

/-- `become` leaves every call its seat. -/
theorem seats_become (s : Reviews) (n : Nat) (call : ReviewCall) (stage : ReviewStage) :
    Seats s (s.become n call stage) := .of_eq rfl

/-- `abort` leaves every call its seat. -/
theorem seats_abort (s : Reviews) (n : Nat) (call : ReviewCall) : Seats s (s.abort n call) :=
  (seats_become s n call _).reload _

/-- `getOr` leaves every call its seat. -/
theorem seats_getOr (s : Reviews) (n : Nat) (call : ReviewCall) (reviewId : Uuid)
    (stage : ReviewRow → ReviewStage) : Seats s (s.getOr n call reviewId stage) := by
  simp only [Reviews.getOr]
  split
  · exact seats_become s n call _
  · exact (seats_become s n call _).reload _

/-- `advance` leaves every call its seat. -/
theorem advance_seats {n : Nat} {id : Uuid} (h : s.advance n id = some s') : Seats s s' := by
  simp only [Reviews.advance] at h
  -- No stage of a request changes its session, whatever the item it holds is loaded with
  split at h
  · cases h
  · next call hcall =>
    split at h
    · simp only [Reviews.enqueue] at h
      split at h
      · split at h
        · cases h
        · split at h
          · exact Option.some.inj h ▸ seats_abort s n call
          · exact Option.some.inj h ▸ (seats_become s n call _).reload _
      · exact Option.some.inj h ▸ .of_eq rfl
      · cases h
    · simp only [Reviews.get] at h
      split at h
      · exact Option.some.inj h ▸ seats_getOr s n call _ _
      · cases h
    · simp only [Reviews.claim] at h
      split at h
      · split at h
        · exact Option.some.inj h ▸ (seats_become s n call _).reload _
        · split at h
          · cases h
          · exact Option.some.inj h ▸ (seats_become s n call _).reload _
      · exact Option.some.inj h ▸ seats_become s n call _
      · exact Option.some.inj h ▸ .of_eq rfl
      · exact Option.some.inj h ▸ seats_getOr s n call _ _
      · cases h
    · simp only [Reviews.resolve] at h
      split at h
      · exact Option.some.inj h ▸ seats_getOr s n call _ _
      · split at h
        · exact Option.some.inj h ▸ seats_abort s n call
        · split at h
          · exact Option.some.inj h ▸ (seats_become s n call _).reload _
          · split at h
            · cases h
            · exact Option.some.inj h ▸ (seats_become s n call _).reload _
      · exact Option.some.inj h ▸ seats_become s n call _
      · exact Option.some.inj h ▸ .of_eq rfl
      · cases h

/-- Every step leaves every call its seat. -/
theorem step_seats {e : ReviewEvent} (h : s.step e = some s') : Seats s s' := by
  cases e with
  | connect reviewer =>
    intro j hj
    rw [← Option.some.inj h]
    refine ⟨by simp only [List.length_append]; omega, ?_⟩
    simp only [reviewerOf, List.getElem?_append_left hj]
  | call k request =>
    simp only [Reviews.step] at h
    split at h
    · exact Option.some.inj h ▸ .of_eq rfl
    · cases h
  | advance n id => exact advance_seats h
  | fail n =>
    simp only [Reviews.step, Reviews.fail] at h
    split at h
    · cases h
    · next call hcall =>
      split at h
      · cases h
      · exact Option.some.inj h ▸ seats_abort s n call
  | forget k reviewId => exact Option.some.inj h ▸ (Seats.of_eq rfl).reload _

end Sessions

/-! ## The invariant -/

structure Respected (s : Reviews) : Prop where
  orderly : Orderly s
  seated : ∀ call ∈ s.calls, call.session < s.sessions.length
  /-- A `resolve` that has sent its `UPDATE` was right to, and still is. -/
  rightful : ∀ (n : Nat) call reviewId resolution item row old, s.calls[n]? = some call →
    call.request = .resolve reviewId resolution → call.stage = .flushed item (some row) →
    s.row reviewId = some old →
    (old.status = .resolved → row.resolution = old.resolution) ∧
    (old.status = .claimed → ∀ other ∈ s.calls, Claimant reviewId other →
      reviewerOf s other.session = reviewerOf s call.session)

section Steps

variable {s s' : Reviews} {e : ReviewEvent}

/-- A move leaves every call with a session there is. -/
theorem Moves.seated (hmoves : Moves s e s') (hseats : Seats s s')
    (h : ∀ call ∈ s.calls, call.session < s.sessions.length) :
    ∀ call ∈ s'.calls, call.session < s'.sessions.length := by
  have hset : ∀ {n : Nat} {call : ReviewCall} {stage : ReviewStage}, s.calls[n]? = some call →
      s'.calls = s.calls.set n { call with stage } →
      ∀ other ∈ s'.calls, other.session < s'.sessions.length := by
    intro n call stage hcall hcalls other hother
    rw [hcalls] at hother
    rcases List.mem_or_eq_of_mem_set hother with hother | rfl
    · exact (hseats _ (h other hother)).1
    · exact (hseats _ (h call (List.mem_of_getElem? hcall))).1
  cases hmoves with
  | still hrows hcalls => exact fun call hcall => (hseats _ (h call (hcalls ▸ hcall))).1
  | begins k request hlt hrows hcalls =>
    intro call hcall
    rw [hcalls, List.mem_append, List.mem_singleton] at hcall
    rcases hcall with hcall | rfl
    · exact (hseats _ (h call hcall)).1
    · exact (hseats k hlt).1
  | goes n call stage hcall hnone hclaimant hanswered hrows hcalls => exact hset hcall hcalls
  | inserts n call row hcall hrequest hfresh hrows hcalls => exact hset hcall hcalls
  | enters n call row hcall hrequest hstage hrows hcalls => exact hset hcall hcalls
  | takes n call asked row hcall hrequest hbegun hfind hfree hrows hcalls =>
    exact hset hcall hcalls
  | claims n call asked row hcall hrequest hstage hrows hcalls => exact hset hcall hcalls
  | flushes n call asked resolution item closed row written hevent hcall hrequest hstage hrow
      hflush hfree hrows hcalls => exact hset hcall hcalls
  | closes n call asked resolution item row hevent hcall hrequest hstage hrows hcalls =>
    exact hset hcall hcalls

/-- While an item is locked by call `n`, a step of another call changes neither its row nor who
    has claimed it. -/
theorem Moves.locked (hmoves : Moves s e s') (h : Orderly s) {n : Nat} {call : ReviewCall}
    {row : ReviewRow} (hcall : s.calls[n]? = some call) (hopen : call.stage.open? = some row)
    (hold : (s.row row.id).isSome) (hsame : s'.calls[n]? = some call) :
    s'.row row.id = s.row row.id ∧ ∀ other ∈ s'.calls, Claimant row.id other →
      ∃ before ∈ s.calls, Claimant row.id before ∧ before.session = other.session := by
  -- The call that moves is another one: it has not written the row
  have hrows : s'.rows = s.rows → s'.row row.id = s.row row.id := by
    intro hrows
    simp only [Reviews.row, hrows]
  have hset : ∀ {m : Nat} {other : ReviewCall} {stage : ReviewStage},
      s.calls[m]? = some other → s'.calls = s.calls.set m { other with stage } →
      (Claimant row.id { other with stage } → Claimant row.id other) →
      ∀ after ∈ s'.calls, Claimant row.id after →
        ∃ before ∈ s.calls, Claimant row.id before ∧ before.session = after.session := by
    intro m other stage hother hcalls hclaimant after hafter hclaims
    rw [hcalls] at hafter
    rcases List.mem_or_eq_of_mem_set hafter with hafter | rfl
    · exact ⟨after, hafter, hclaims, rfl⟩
    · exact ⟨other, List.mem_of_getElem? hother, hclaimant hclaims, rfl⟩
  -- The rows other calls have written are of other items
  have hapart : ∀ {m : Nat} {other : ReviewCall} {stage : ReviewStage} {written : ReviewRow},
      s.calls[m]? = some other → s'.calls = s.calls.set m { other with stage } →
      stage.open? = none → other.stage.open? = some written → written.id ≠ row.id := by
    intro m other stage written hother hcalls hnone hwritten
    rw [hcalls] at hsame
    rcases List.getElem?_set_cases hsame with ⟨hne, -⟩ | ⟨-, rfl⟩
    · exact h.apart m n other call written row hne hother hcall hwritten hopen
    · cases hnone.symm.trans hopen
  cases hmoves with
  | still hrows' hcalls =>
    exact ⟨hrows hrows', fun other hother hclaims => ⟨other, hcalls ▸ hother, hclaims, rfl⟩⟩
  | begins k request hlt hrows' hcalls =>
    refine ⟨hrows hrows', fun other hother hclaims => ?_⟩
    rw [hcalls, List.mem_append, List.mem_singleton] at hother
    rcases hother with hother | rfl
    · exact ⟨other, hother, hclaims, rfl⟩
    · rcases hclaims with ⟨-, hstage | ⟨item, hstage⟩⟩ <;> cases hstage
  | goes m other stage hother hnone hclaimant hanswered hrows' hcalls =>
    exact ⟨hrows hrows', hset hother hcalls (hclaimant row.id)⟩
  | inserts m other row' hother hrequest hfresh hrows' hcalls =>
    exact ⟨hrows hrows', hset hother hcalls fun hclaims => absurd hclaims.1 (hrequest _)⟩
  | enters m other row' hother hrequest hstage hrows' hcalls =>
    refine ⟨?_, hset hother hcalls fun hclaims => absurd hclaims.1 (hrequest _)⟩
    obtain ⟨old, hold⟩ := Option.isSome_iff_exists.1 hold
    rw [Reviews.row, hrows', List.find?_append, ← Reviews.row, hold]
    rfl
  | takes m other asked row' hother hrequest hbegun hfind hfree hrows' hcalls =>
    refine ⟨hrows hrows', hset hother hcalls ?_⟩
    rintro ⟨-, hstage | ⟨item, hstage⟩⟩ <;> cases hstage
  | claims m other asked row' hother hrequest hstage hrows' hcalls =>
    have hne := hapart hother hcalls rfl (by rw [hstage]; rfl)
    refine ⟨?_, hset hother hcalls ?_⟩
    · rw [Reviews.row, hrows', find?_overwrite_other hne, ← Reviews.row]
    · -- the item it has claimed is not this one
      rintro ⟨hasked, -⟩
      obtain ⟨found, hfound, -, rfl⟩ := h.claiming m other asked row' hother hrequest hstage
      have hid : found.id = asked := row_id hfound
      exact absurd (hid.trans (ReviewRequest.claim.inj (hrequest.symm.trans hasked))) hne
  | flushes m other asked resolution item closed row' written hevent hother hrequest hstage hrow
      hflush hfree hrows' hcalls =>
    refine ⟨hrows hrows', hset hother hcalls ?_⟩
    rintro ⟨-, hstage | ⟨item, hstage⟩⟩ <;> cases hstage
  | closes m other asked resolution item row' hevent hother hrequest hstage hrows' hcalls =>
    have hne := hapart hother hcalls rfl (by rw [hstage]; rfl)
    refine ⟨?_, hset hother hcalls ?_⟩
    · rw [Reviews.row, hrows', find?_overwrite_other hne, ← Reviews.row]
    · rintro ⟨hasked, -⟩
      cases hrequest.symm.trans hasked

/-- `flush` writes the resolution, or leaves the one that is there. -/
theorem flush_resolution {row item written : ReviewRow} {resolution : PyStr}
    (h : row.flush item resolution = some written) :
    written.resolution = some resolution ∨ written.resolution = row.resolution := by
  simp only [ReviewRow.flush] at h
  split at h
  · rw [← Option.some.inj h]
    dsimp only
    split
    · exact .inl rfl
    · exact .inr rfl
  · exact nomatch h

/-- A `resolve` that has sent its `UPDATE` has done so before this step, or does so now. -/
theorem Moves.flushed (hmoves : Moves s e s') {n : Nat} {call : ReviewCall} {reviewId : Uuid}
    {resolution : PyStr} {item row : ReviewRow} (hcall : s'.calls[n]? = some call)
    (hrequest : call.request = .resolve reviewId resolution)
    (hstage : call.stage = .flushed item (some row)) :
    s.calls[n]? = some call ∨ ∃ id before loaded old, e = .advance n id ∧
      s.calls[n]? = some before ∧ before.session = call.session ∧
      before.request = .resolve reviewId resolution ∧ before.stage = .got loaded ∧
      s.row reviewId = some old ∧ old.flush loaded resolution = some row ∧
      s'.rows = s.rows ∧ s'.calls = s.calls.set n { before with stage := call.stage } := by
  have hset : ∀ {m : Nat} {other : ReviewCall} {stage : ReviewStage},
      s'.calls = s.calls.set m { other with stage } → stage ≠ .flushed item (some row) →
      s.calls[n]? = some call := by
    intro m other stage hcalls hother
    rw [hcalls] at hcall
    rcases List.getElem?_set_cases hcall with ⟨-, hcall⟩ | ⟨-, rfl⟩
    · exact hcall
    · exact absurd hstage hother
  cases hmoves with
  | still hrows hcalls => exact .inl (hcalls ▸ hcall)
  | begins k request hlt hrows hcalls =>
    rw [hcalls] at hcall
    rcases List.getElem?_concat_cases hcall with hcall | ⟨-, rfl⟩
    · exact .inl hcall
    · exact nomatch hstage
  | goes m other stage hother hnone hclaimant hanswered hrows hcalls =>
    refine .inl (hset hcalls ?_)
    rintro rfl
    exact nomatch hnone
  | inserts m other row' hother hrequest' hfresh hrows hcalls => exact .inl (hset hcalls nofun)
  | enters m other row' hother hrequest' hstage' hrows hcalls => exact .inl (hset hcalls nofun)
  | takes m other asked row' hother hrequest' hbegun hfind hfree hrows hcalls =>
    exact .inl (hset hcalls nofun)
  | claims m other asked row' hother hrequest' hstage' hrows hcalls =>
    exact .inl (hset hcalls nofun)
  -- The one step that writes a resolution out
  | flushes m other asked resolution' loaded closed old written hevent hother hrequest' hstage'
      hrow hflush hfree hrows hcalls =>
    obtain ⟨id, rfl⟩ := hevent
    rw [hcalls] at hcall
    rcases List.getElem?_set_cases hcall with ⟨-, hcall⟩ | ⟨rfl, rfl⟩
    · exact .inl hcall
    · obtain ⟨rfl, rfl⟩ := ReviewRequest.resolve.inj (hrequest'.symm.trans hrequest)
      have hwritten := Option.some.inj (ReviewStage.flushed.inj hstage).2
      exact .inr ⟨id, other, loaded, old, rfl, hother, rfl, hrequest', hstage', hrow,
        hwritten ▸ hflush, hrows, hcalls⟩
  | closes m other asked resolution' item' row' hevent hother hrequest' hstage' hrows hcalls =>
    exact .inl (hset hcalls nofun)

/-- Decisions stay respected in every proper step. -/
theorem Respected.step (h : Respected s) (hok : Proper s e) (hstep : s.step e = some s') :
    Respected s' := by
  have hmoves : Moves s e s' := step_moves hstep
  have hseats := step_seats hstep
  refine ⟨h.orderly.moves hmoves, Moves.seated hmoves hseats h.seated, ?_⟩
  · intro n call reviewId resolution item row old hcall hrequest hstage hold
    rcases Moves.flushed hmoves hcall hrequest hstage with hbefore |
      ⟨id, before, loaded, old', rfl, hbefore, hsession, hrequest', hstage', hrow, hflush, hrows,
        hcalls⟩
    · -- it holds the row
      obtain ⟨found, loaded, hfound, hflush⟩ :=
        h.orderly.closing n call reviewId resolution item row hbefore hrequest hstage
      have hid : row.id = reviewId := (flush_cases hflush).1.trans (row_id hfound)
      subst hid
      obtain ⟨hsame, hclaimants⟩ := Moves.locked hmoves h.orderly hbefore
        (by rw [hstage]; rfl) (by rw [hfound]; rfl) hcall
      rw [hsame] at hold
      obtain ⟨hkept, hother⟩ :=
        h.rightful n call row.id resolution item row old hbefore hrequest hstage hold
      refine ⟨hkept, fun hclaimed after hafter hclaims => ?_⟩
      obtain ⟨was, hwas, hclaims', hseat⟩ := hclaimants after hafter hclaims
      have hmine := hother hclaimed was hwas hclaims'
      rw [(hseats _ (h.seated call (List.mem_of_getElem? hbefore))).2, ← hmine, ← hseat]
      exact (hseats _ (h.seated was hwas)).2
    · -- it was right to send the `UPDATE`
      have hright : Rightful s call.session reviewId resolution := by
        refine hok call.session reviewId resolution ?_
        obtain ⟨k, request, stage⟩ := before
        dsimp only at hsession hrequest' hstage'
        subst hsession hrequest' hstage'
        simp only [closing, hbefore]
      have hsame : s'.row reviewId = s.row reviewId := by simp only [Reviews.row, hrows]
      rw [hsame, hrow] at hold
      obtain rfl := Option.some.inj hold
      obtain ⟨hresolved, hclaimed⟩ := hright old' hrow
      constructor
      · intro hstatus
        rcases flush_resolution hflush with hwritten | hwritten
        · rw [hwritten, hresolved hstatus]
        · exact hwritten
      · intro hstatus other hother hclaims
        rw [hcalls] at hother
        have hwas : other ∈ s.calls := by
          rcases List.mem_or_eq_of_mem_set hother with hother | rfl
          · exact hother
          · rcases hclaims with ⟨-, hstage' | ⟨item', hstage'⟩⟩
            · cases hstage.symm.trans hstage'
            · cases hstage.symm.trans hstage'
        have hmine := hclaimed hstatus other hwas hclaims
        rw [(hseats _ (h.seated other hwas)).2, hmine, ← hsession]
        exact ((hseats _ (h.seated before (List.mem_of_getElem? hbefore))).2).symm

/-- Every step from a `Respected` state respects the decisions made. -/
theorem Respected.respects (h : Respected s) (hstep : s.step e = some s') : Respects s e s' := by
  have hmoves : Moves s e s' := step_moves hstep
  -- What the call that writes the item has left of it
  have hself : ∀ {n : Nat} {call : ReviewCall} {reviewId : Uuid} {resolution : PyStr}
      {item row : ReviewRow}, s.calls[n]? = some call →
      call.request = .resolve reviewId resolution → call.stage = .flushed item (some row) →
      s'.rows = overwrite row s.rows → row.id = reviewId ∧ s'.row reviewId = some row := by
    intro n call reviewId resolution item row hcall hrequest hstage hrows
    obtain ⟨old, loaded, hold, hflush⟩ :=
      h.orderly.closing n call reviewId resolution item row hcall hrequest hstage
    have hid : row.id = reviewId := (flush_cases hflush).1.trans (row_id hold)
    subst hid
    exact ⟨rfl, (h.orderly.overwrites hrows hold).2.1⟩
  have hsame : s'.rows = s.rows → Respects s e s' := by
    intro hrows
    have hrow : ∀ reviewId, s'.row reviewId = s.row reviewId := by
      intro reviewId
      simp only [Reviews.row, hrows]
    refine ⟨fun reviewId row hfound _ => ⟨row, (hrow reviewId).trans hfound, rfl⟩, ?_⟩
    intro reviewId row row' hfound hclaimed hfound' hresolved
    rw [hrow, hfound] at hfound'
    rw [← Option.some.inj hfound', hclaimed] at hresolved
    cases hresolved
  cases hmoves with
  | still hrows hcalls => exact hsame hrows
  | begins k request hlt hrows hcalls => exact hsame hrows
  | goes n call stage hcall hnone hclaimant hanswered hrows hcalls => exact hsame hrows
  | inserts n call row hcall hrequest hfresh hrows hcalls => exact hsame hrows
  | enters n call row hcall hrequest hstage hrows hcalls =>
    have hrow : ∀ reviewId found, s.row reviewId = some found →
        s'.row reviewId = some found := by
      intro reviewId found hfound
      rw [Reviews.row, hrows, List.find?_append, ← Reviews.row, hfound]
      rfl
    refine ⟨fun reviewId found hfound _ => ⟨found, hrow reviewId found hfound, rfl⟩, ?_⟩
    intro reviewId found found' hfound hclaimed hfound' hresolved
    rw [hrow reviewId found hfound] at hfound'
    rw [← Option.some.inj hfound', hclaimed] at hresolved
    cases hresolved
  | takes n call asked row hcall hrequest hbegun hfind hfree hrows hcalls => exact hsame hrows
  | claims n call asked row hcall hrequest hstage hrows hcalls =>
    obtain ⟨old, hold, hpending, rfl⟩ :=
      h.orderly.claiming n call asked row hcall hrequest hstage
    have hid : old.id = asked := row_id hold
    -- A claim writes a pending row, so no resolved one
    have hother : ∀ reviewId found, s.row reviewId = some found → found.status ≠ .pending →
        s'.row reviewId = some found := by
      intro reviewId found hfound hstatus
      by_cases hsame : old.id = reviewId
      · rw [← hsame, hid, hold] at hfound
        exact absurd (Option.some.inj hfound ▸ hpending) hstatus
      · have hne : ({ old with status := .claimed } : ReviewRow).id ≠ reviewId := hsame
        rw [Reviews.row, hrows, find?_overwrite_other hne, ← Reviews.row, hfound]
    constructor
    · intro reviewId found hfound hresolved
      refine ⟨found, hother reviewId found hfound ?_, rfl⟩
      rw [hresolved]
      decide
    · intro reviewId found found' hfound hclaimed hfound' hresolved
      rw [hother reviewId found hfound (by rw [hclaimed]; decide)] at hfound'
      rw [← Option.some.inj hfound', hclaimed] at hresolved
      cases hresolved
  | flushes n call asked resolution item closed row written hevent hcall hrequest hstage hrow
      hflush hfree hrows hcalls => exact hsame hrows
  | closes n call asked resolution item row hevent hcall hrequest hstage hrows hcalls =>
    obtain ⟨hid, hrow⟩ := hself hcall hrequest hstage hrows
    -- A resolution writes the row of its own item
    have hother : ∀ reviewId, asked ≠ reviewId → s'.row reviewId = s.row reviewId := by
      intro reviewId hne
      rw [Reviews.row, hrows, find?_overwrite_other (hid ▸ hne), ← Reviews.row]
    constructor
    · intro reviewId found hfound hresolved
      by_cases hsame : asked = reviewId
      · subst hsame
        exact ⟨row, hrow,
          (h.rightful n call asked resolution item row found hcall hrequest hstage hfound).1
            hresolved⟩
      · exact ⟨found, (hother reviewId hsame).trans hfound, rfl⟩
    · intro reviewId found found' hfound hclaimed hfound' hresolved
      by_cases hsame : asked = reviewId
      · subst hsame
        obtain ⟨id, hevent⟩ := hevent
        refine ⟨n, id, call, resolution, hevent, hcall, hrequest, ?_⟩
        intro other hmem hclaims
        exact ⟨other, hmem, hclaims,
          (h.rightful n call asked resolution item row found hcall hrequest hstage hfound).2
            hclaimed other hmem hclaims⟩
      · rw [hother reviewId hsame, hfound] at hfound'
        rw [← Option.some.inj hfound', hclaimed] at hresolved
        cases hresolved

end Steps

/-- `Respected` holds at first. -/
theorem respected_init : Respected reviews.init := by
  have hcalls : reviews.init.calls = [] := rfl
  refine ⟨orderly_init, ?_, ?_⟩
  · intro call hcall
    exact absurd (hcalls ▸ hcall) List.not_mem_nil
  · intro n call _ _ _ _ _ hcall
    rw [hcalls, List.getElem?_nil] at hcall
    exact nomatch hcall

/-! ## Decisions -/

/-- In every run whose every `resolve` is right to send its `UPDATE`, a resolved item stays
    resolved with its text, and a claimed one is closed by a reviewer who has claimed it. -/
theorem decisions_kept {s : Reviews} (h : reviews.ReachableVia Proper s) :
    (∀ es s', reviews.Meets Proper s es → reviews.runFrom s es = some s' →
      ∀ reviewId row, s.row reviewId = some row → row.status = .resolved →
        ∃ row', s'.row reviewId = some row' ∧ row'.status = .resolved ∧
          row'.resolution = row.resolution) ∧
    ∀ e s', Proper s e → reviews.step s e = some s' → Respects s e s' := by
  have hs : Respected s :=
    h.invariant respected_init fun _ _ _ hs hok hstep => hs.step hok hstep
  refine ⟨?_, fun e s' _ hstep => hs.respects hstep⟩
  intro es s' hmeets hrun
  clear h
  induction es generalizing s with
  | nil =>
    intro reviewId row hrow hresolved
    exact ⟨row, Option.some.inj hrun ▸ hrow, hresolved, rfl⟩
  | cons e es ih =>
    intro reviewId row hrow hresolved
    simp only [Machine.runFrom] at hrun
    cases hstep : reviews.step s e with
    | none => simp [hstep] at hrun
    | some t =>
      simp only [hstep, Option.bind_some] at hrun
      obtain ⟨row₁, hrow₁, hkept⟩ := (hs.respects hstep).kept reviewId row hrow hresolved
      obtain ⟨row₂, hrow₂, hle⟩ := (Moves.forward (step_moves hstep) hs.orderly).status
        reviewId row hrow
      rw [hrow₁] at hrow₂
      rw [hresolved, ← Option.some.inj hrow₂] at hle
      obtain ⟨row', hrow', hresolved', hsame⟩ := ih (hs.step hmeets.1 hstep) (hmeets.2 t hstep)
        hrun reviewId row₁ hrow₁ (resolved_of_rank_le hle)
      exact ⟨row', hrow', hresolved', hsame.trans hkept⟩

private def itemId : Uuid := .repeated 0

/-- One reviewer claims an item, and another one loads it. -/
private def claimed : List ReviewEvent :=
  [.connect 0, .connect 1,
    .call 0 (.enqueue (lit "help") .complaint .complaint none none),
    .advance 0 itemId, .advance 0 itemId,
    .call 0 (.claim itemId), .advance 1 itemId, .advance 1 itemId, .advance 1 itemId,
    .call 1 (.get itemId), .advance 2 itemId]

/-- The one who has claimed it closes it. -/
private def closes : List ReviewEvent :=
  [.call 0 (.resolve itemId (lit "refunded")),
    .advance 3 itemId, .advance 3 itemId, .advance 3 itemId]

/-- The run of the example is proper. -/
private theorem closes_meets : reviews.Meets Proper reviews.init (claimed ++ closes) := by
  decide +kernel

/-- A session claims an item and resolves it. -/
private theorem closes_runs : ∃ s, reviews.run (claimed ++ closes) = some s ∧
    ∃ row, s.row itemId = some row ∧ row.status = .resolved ∧
      row.resolution = some (lit "refunded") :=
  ⟨_, rfl, _, rfl, rfl, rfl⟩

/-- Behind a claim that was resolved, the text of the decision stays through every proper run. -/
theorem decisions_kept_claimed : ∃ s, reviews.run (claimed ++ closes) = some s ∧
    ∀ es s', reviews.Meets Proper s es → reviews.runFrom s es = some s' →
      ∃ row', s'.row itemId = some row' ∧ row'.resolution = some (lit "refunded") := by
  obtain ⟨s, hrun, row, hrow, hresolved, htext⟩ := closes_runs
  refine ⟨s, hrun, fun es s' hmeets hrun' => ?_⟩
  obtain ⟨row', hrow', -, hsame⟩ :=
    (decisions_kept (Machine.reachableVia_of_run (claimed ++ closes) closes_meets hrun)).1
      es s' hmeets hrun' itemId row hrow hresolved
  exact ⟨row', hrow', hsame.trans htext⟩

/-- A second reviewer closes the item that the first one has claimed, and then the first one puts
    another text in place of the decision. -/
theorem decision_overwritten :
    ∃ s s' t t', reviews.run (claimed ++ [.call 1 (.resolve itemId (lit "refused")),
        .advance 3 itemId, .advance 3 itemId]) = some s ∧
      reviews.step s (.advance 3 itemId) = some s' ∧ ¬Respects s (.advance 3 itemId) s' ∧
      reviews.runFrom s' [.call 0 (.resolve itemId (lit "refunded")),
        .advance 4 itemId, .advance 4 itemId] = some t ∧
      reviews.step t (.advance 4 itemId) = some t' ∧ ¬Respects t (.advance 4 itemId) t' := by
  refine ⟨_, _, _, _, rfl, rfl, ?_, rfl, rfl, ?_⟩
  · intro h
    obtain ⟨n, id, call, resolution, hevent, hcall, -, hown⟩ :=
      h.closer itemId _ _ rfl rfl rfl rfl
    obtain ⟨rfl, -⟩ := ReviewEvent.advance.inj hevent
    obtain ⟨own, hmem, hclaims, hsame⟩ := hown _ (.tail _ (.head _)) ⟨rfl, .inr ⟨_, rfl⟩⟩
    rw [← Option.some.inj hcall] at hsame
    exact (by decide +kernel : ∀ own ∈ _, Claimant itemId own →
      reviewerOf _ own.session ≠ reviewerOf _ 1) own hmem hclaims hsame
  · intro h
    obtain ⟨row', hrow', hsame⟩ := h.kept itemId _ rfl rfl
    rw [← Option.some.inj hrow'] at hsame
    exact absurd hsame (by decide)

end NexaAssist.Spec.ReviewDecisions
