import NexaAssist.ForStd.List
import NexaAssist.Services.Review

/-!
# A review item is claimed once and only moves forward

A claim takes an item only while it is pending, and from then on no other transaction can
write the row until the claim has ended. Whatever is written over a row is at least as far
along as the row, so a stale item of a `resolve` takes nothing back.
-/

namespace NexaAssist.Spec.ReviewClaims

open NexaAssist PyJson

/-! ## Claims that take an item -/

/-- A claim that has committed and found the item pending. -/
def Claimant (reviewId : Uuid) (call : ReviewCall) : Prop :=
  call.request = .claim reviewId ∧
    (call.stage = .took ∨ ∃ item, call.stage = .returned (some item))

/-- A claim whose `UPDATE` found the item pending. -/
def Takes (reviewId : Uuid) (call : ReviewCall) : Prop :=
  Claimant reviewId call ∨
    (call.request = .claim reviewId ∧ ∃ row, call.stage = .updated (some row))

/-- A successful claim that returned the item. -/
def Returns (reviewId : Uuid) (call : ReviewCall) : Prop :=
  ∃ asked item, call.request = .claim asked ∧ call.stage = .returned (some item) ∧
    item.id = reviewId

/-! ## What a step does -/

/-- What a step does to the committed rows and the calls. A row is written by `advance`. -/
inductive Moves (s : Reviews) (e : ReviewEvent) (s' : Reviews) : Prop
  | still : s'.rows = s.rows → s'.calls = s.calls → Moves s e s'
  | begins (k : Nat) (request : ReviewRequest) :
      k < s.sessions.length → s'.rows = s.rows → s'.calls = s.calls ++ [⟨k, request, .begun⟩] → Moves s e s'
  /-- A call goes on without writing, or what it has written is rolled back. -/
  | goes (n : Nat) (call : ReviewCall) (stage : ReviewStage) :
      s.calls[n]? = some call → stage.open? = none →
      (∀ reviewId, Claimant reviewId { call with stage } → Claimant reviewId call) →
      (∀ reviewId item, call.request = .claim reviewId → stage = .returned (some item) →
        item.id = reviewId) →
      s'.rows = s.rows → s'.calls = s.calls.set n { call with stage } → Moves s e s'
  | inserts (n : Nat) (call : ReviewCall) (row : ReviewRow) :
      s.calls[n]? = some call → (∀ reviewId, call.request ≠ .claim reviewId) →
      (∀ other ∈ s.rows ++ s.openRows, other.id ≠ row.id) →
      s'.rows = s.rows → s'.calls = s.calls.set n { call with stage := .inserted row } →
      Moves s e s'
  | enters (n : Nat) (call : ReviewCall) (row : ReviewRow) :
      s.calls[n]? = some call → (∀ reviewId, call.request ≠ .claim reviewId) →
      call.stage = .inserted row →
      s'.rows = s.rows ++ [row] →
      s'.calls = s.calls.set n { call with stage := .returned (some row) } → Moves s e s'
  | takes (n : Nat) (call : ReviewCall) (reviewId : Uuid) (row : ReviewRow) :
      s.calls[n]? = some call → call.request = .claim reviewId → call.stage = .begun →
      s.rows.find? (fun row => row.id = reviewId ∧ row.status = .pending) = some row →
      (∀ other ∈ s.openRows, other.id ≠ reviewId) →
      s'.rows = s.rows →
      s'.calls = s.calls.set n
        { call with stage := .updated (some { row with status := .claimed }) } → Moves s e s'
  | claims (n : Nat) (call : ReviewCall) (reviewId : Uuid) (row : ReviewRow) :
      s.calls[n]? = some call → call.request = .claim reviewId →
      call.stage = .updated (some row) →
      s'.rows = overwrite row s.rows → s'.calls = s.calls.set n { call with stage := .took } →
      Moves s e s'
  | flushes (n : Nat) (call : ReviewCall) (reviewId : Uuid) (resolution : PyStr)
      (item closed row written : ReviewRow) :
      (∃ id, e = .advance n id) →
      s.calls[n]? = some call → call.request = .resolve reviewId resolution →
      call.stage = .got item → s.row reviewId = some row →
      row.flush item resolution = some written →
      (∀ other ∈ s.openRows, other.id ≠ reviewId) →
      s'.rows = s.rows →
      s'.calls = s.calls.set n { call with stage := .flushed closed (some written) } → Moves s e s'
  | closes (n : Nat) (call : ReviewCall) (reviewId : Uuid) (resolution : PyStr)
      (item row : ReviewRow) :
      (∃ id, e = .advance n id) →
      s.calls[n]? = some call → call.request = .resolve reviewId resolution →
      call.stage = .flushed item (some row) →
      s'.rows = overwrite row s.rows →
      s'.calls = s.calls.set n { call with stage := .returned (some item) } → Moves s e s'

/-- `lookup` gives the item of the id. -/
theorem lookup_id {s : Reviews} {k : Nat} {reviewId : Uuid} {item : ReviewRow}
    (h : s.lookup k reviewId = some item) : item.id = reviewId := by
  simp only [Reviews.lookup] at h
  split at h
  · next found hfind =>
    rw [← Option.some.inj h]
    simpa using List.find?_some hfind
  · simpa using List.find?_some h

/-- A call that raises makes a move that `Moves` allows. -/
theorem raises_moves {s s' : Reviews} {e : ReviewEvent} {n : Nat} {call : ReviewCall} {error : Raised}
    (hcall : s.calls[n]? = some call) (hrows : s'.rows = s.rows)
    (hcalls : s'.calls = s.calls.set n { call with stage := .raised error }) : Moves s e s' := by
  refine .goes n call (.raised error) hcall rfl ?_ ?_ hrows hcalls
  · rintro asked ⟨-, hstage | ⟨item, hstage⟩⟩ <;> exact nomatch hstage
  · intro asked item hclaim hstage
    exact nomatch hstage

/-- `getOr` makes a move that `Moves` allows: it goes on with the item, or raises. -/
theorem getOr_moves {s : Reviews} {e : ReviewEvent} {n : Nat} {call : ReviewCall} {reviewId : Uuid}
    {stage : ReviewRow → ReviewStage} (hcall : s.calls[n]? = some call)
    (hopen : ∀ item, (stage item).open? = none)
    (hclaim : ∀ item reviewId, Claimant reviewId { call with stage := stage item } →
      Claimant reviewId call)
    (hid : ∀ asked item item', call.request = .claim asked →
      stage item = .returned (some item') → asked = reviewId ∧ item' = item) :
    Moves s e (s.getOr n call reviewId stage) := by
  simp only [Reviews.getOr]
  split
  · exact raises_moves hcall rfl rfl
  · next item hlookup =>
    refine .goes n call _ hcall (hopen item) (hclaim item) ?_ rfl rfl
    intro asked item' hrequest hstage
    obtain ⟨rfl, rfl⟩ := hid asked item item' hrequest hstage
    exact lookup_id hlookup

/-- Where an id is not locked, no row of an open transaction has it. -/
theorem unlocked {s : Reviews} {reviewId : Uuid} (h : ¬s.locked reviewId = true) :
    ∀ other ∈ s.openRows, other.id ≠ reviewId := by
  simpa [Reviews.locked] using h

section Calls

variable {s s' : Reviews} {e : ReviewEvent} {n : Nat} {call : ReviewCall}
  (hcall : s.calls[n]? = some call)
include hcall

/-- `enqueue` is a move. -/
theorem enqueue_moves {message : PyStr} {intent : IntentCategory} {reason : EscalationReason}
    {proposedReply : Option PyStr} {ticketId : Option Uuid} {id : Uuid}
    (hrequest : call.request = .enqueue message intent reason proposedReply ticketId)
    (h : s.enqueue n call message intent reason proposedReply ticketId id = some s') :
    Moves s e s' := by
  have hother : ∀ reviewId, call.request ≠ .claim reviewId := by
    intro reviewId hclaim
    exact nomatch hrequest.symm.trans hclaim
  simp only [Reviews.enqueue] at h
  split at h
  · split at h
    · exact nomatch h
    · next hfresh =>
      split at h
      · exact Option.some.inj h ▸ raises_moves hcall rfl rfl
      · refine Option.some.inj h ▸ .inserts n call _ hcall hother ?_ rfl rfl
        simpa [or_imp, forall_and] using hfresh
  · next row hstage =>
    exact Option.some.inj h ▸ .enters n call row hcall hother hstage rfl rfl
  · exact nomatch h

/-- `get` makes a move that `Moves` allows. -/
theorem get_moves {reviewId : Uuid} (hrequest : call.request = .get reviewId)
    (h : s.get n call reviewId = some s') : Moves s e s' := by
  simp only [Reviews.get] at h
  split at h
  · refine Option.some.inj h ▸ getOr_moves hcall (fun _ => rfl) ?_ ?_
    · rintro item asked ⟨hclaim, -⟩
      exact nomatch hrequest.symm.trans hclaim
    · intro asked item item' hclaim
      exact nomatch hrequest.symm.trans hclaim
  · exact nomatch h

/-- `claim` makes a move that `Moves` allows. -/
theorem claim_moves {reviewId : Uuid} (hrequest : call.request = .claim reviewId)
    (h : s.claim n call reviewId = some s') : Moves s e s' := by
  simp only [Reviews.claim] at h
  split at h
  · next hbegun =>
    split at h
    · refine Option.some.inj h ▸ .goes n call (.updated none) hcall rfl ?_
        (fun _ _ _ hstage => nomatch hstage) rfl rfl
      rintro asked ⟨-, hstage | ⟨item, hstage⟩⟩ <;> exact nomatch hstage
    · next row hfind =>
      split at h
      · exact nomatch h
      · next hlock =>
        exact Option.some.inj h ▸
          .takes n call reviewId row hcall hrequest hbegun hfind (unlocked hlock) rfl rfl
  · refine Option.some.inj h ▸ .goes n call (.returned none) hcall rfl ?_
      (fun _ _ _ hstage => nomatch ReviewStage.returned.inj hstage) rfl rfl
    rintro asked ⟨-, hstage | ⟨item, hstage⟩⟩
    · exact nomatch hstage
    · exact nomatch ReviewStage.returned.inj hstage
  · next row hstage =>
    exact Option.some.inj h ▸ .claims n call reviewId row hcall hrequest hstage rfl rfl
  · next hstage =>
    refine Option.some.inj h ▸ getOr_moves hcall (fun _ => rfl) ?_ ?_
    · rintro item asked ⟨hclaim, -⟩
      exact ⟨hclaim, .inl hstage⟩
    · intro asked item item' hclaim hreturned
      have hasked := ReviewRequest.claim.inj (hrequest.symm.trans hclaim)
      exact ⟨hasked.symm, (Option.some.inj (ReviewStage.returned.inj hreturned)).symm⟩
  · exact nomatch h

/-- `resolve` makes a move that `Moves` allows. -/
theorem resolve_moves {reviewId : Uuid} {resolution : PyStr}
    (hevent : ∃ id, e = .advance n id) (hrequest : call.request = .resolve reviewId resolution)
    (h : s.resolve n call reviewId resolution = some s') : Moves s e s' := by
  have hother : ∀ (stage : ReviewStage) asked, Claimant asked { call with stage } →
      Claimant asked call := by
    rintro stage asked ⟨hclaim, -⟩
    exact nomatch hrequest.symm.trans hclaim
  have hnone : ∀ (stage : ReviewStage) asked (item : ReviewRow), call.request = .claim asked →
      stage = .returned (some item) → item.id = asked := by
    intro stage asked item hclaim
    exact nomatch hrequest.symm.trans hclaim
  simp only [Reviews.resolve] at h
  split at h
  · exact Option.some.inj h ▸ getOr_moves hcall (fun _ => rfl) (fun _ => hother _)
      fun _ _ _ _ hstage => nomatch hstage
  · next item hstage =>
    split at h
    · exact Option.some.inj h ▸ raises_moves hcall rfl rfl
    · next row hrow =>
      split at h
      · exact Option.some.inj h ▸ .goes n call _ hcall rfl (hother _) (hnone _) rfl rfl
      · next written hwritten =>
        split at h
        · exact nomatch h
        · next hlock =>
          exact Option.some.inj h ▸ .flushes n call reviewId resolution item _ row written hevent
            hcall hrequest hstage hrow hwritten (unlocked hlock) rfl rfl
  · exact Option.some.inj h ▸ .goes n call _ hcall rfl (hother _) (hnone _) rfl rfl
  · next item row hstage =>
    exact Option.some.inj h ▸
      .closes n call reviewId resolution item row hevent hcall hrequest hstage rfl rfl
  · exact nomatch h

end Calls

/-- Every step is a move. -/
theorem step_moves {s s' : Reviews} {e : ReviewEvent} (h : s.step e = some s') : Moves s e s' := by
  cases e with
  | connect reviewer => exact Option.some.inj h ▸ .still rfl rfl
  | call k request =>
    simp only [Reviews.step] at h
    split at h
    · next hfree => exact Option.some.inj h ▸ .begins k request hfree.1 rfl rfl
    · exact nomatch h
  | advance n id =>
    simp only [Reviews.step, Reviews.advance] at h
    split at h
    · exact nomatch h
    · next call hcall =>
      split at h
      · next hrequest => exact enqueue_moves hcall hrequest h
      · next hrequest => exact get_moves hcall hrequest h
      · next hrequest => exact claim_moves hcall hrequest h
      · next hrequest => exact resolve_moves hcall ⟨id, rfl⟩ hrequest h
  | fail n =>
    simp only [Reviews.step, Reviews.fail] at h
    split at h
    · exact nomatch h
    · next call hcall =>
      split at h
      · exact nomatch h
      · exact Option.some.inj h ▸ raises_moves hcall rfl rfl
  | forget k reviewId => exact Option.some.inj h ▸ .still rfl rfl

/-! ## Rows -/

/-- `overwrite` puts a row in place of the one with its id. -/
theorem find?_overwrite_self {rows : List ReviewRow} {row found : ReviewRow}
    (h : rows.find? (fun other => other.id = row.id) = some found) :
    (overwrite row rows).find? (fun other => other.id = row.id) = some row := by
  induction rows with
  | nil => exact nomatch h
  | cons first rows ih =>
    simp only [overwrite, List.map_cons] at ih ⊢
    by_cases hfirst : first.id = row.id
    · simp [hfirst]
    · rw [List.find?_cons_of_neg (by simpa using hfirst)] at h
      rw [if_neg hfirst, List.find?_cons_of_neg (by simpa using hfirst)]
      exact ih h

/-- `overwrite` leaves the rows with other ids. -/
theorem find?_overwrite_other {rows : List ReviewRow} {row : ReviewRow} {reviewId : Uuid}
    (hne : row.id ≠ reviewId) :
    (overwrite row rows).find? (fun other => other.id = reviewId) =
      rows.find? fun other => other.id = reviewId := by
  induction rows with
  | nil => rfl
  | cons first rows ih =>
    simp only [overwrite, List.map_cons] at ih ⊢
    by_cases hfirst : first.id = row.id
    · rw [if_pos hfirst, List.find?_cons_of_neg (by simpa using hne),
        List.find?_cons_of_neg (by simpa [hfirst] using hne), ih]
    · rw [if_neg hfirst, List.find?_cons, List.find?_cons, ih]

/-- `overwrite` keeps the ids of the rows. -/
theorem ids_overwrite (row : ReviewRow) (rows : List ReviewRow) :
    (overwrite row rows).map (·.id) = rows.map (·.id) := by
  simp only [overwrite, List.map_map]
  refine List.map_congr_left fun other _ => ?_
  simp only [Function.comp]
  split
  · next hid => exact hid.symm
  · rfl

/-- `flush` keeps the id of the row, and resolves it or leaves its status. -/
theorem flush_cases {row item written : ReviewRow} {resolution : PyStr}
    (h : row.flush item resolution = some written) : written.id = row.id ∧
      (written.status = .resolved ∨ written.status = row.status) := by
  simp only [ReviewRow.flush] at h
  split at h
  · rw [← Option.some.inj h]
    refine ⟨rfl, ?_⟩
    dsimp only
    split
    · exact .inl rfl
    · exact .inr rfl
  · exact nomatch h

/-- No status is past `resolved`. -/
theorem rank_le_resolved (status : ReviewStatus) : status.rank ≤ ReviewStatus.resolved.rank := by
  cases status <;> decide

/-! ## The invariant -/

structure Orderly (s : Reviews) : Prop where
  ids : (s.rows.map (·.id)).Nodup
  inserting : ∀ (n : Nat) call row, s.calls[n]? = some call → call.stage = .inserted row →
    ∀ other ∈ s.rows, other.id ≠ row.id
  /-- What a claim has written over a pending item. -/
  claiming : ∀ (n : Nat) call reviewId row, s.calls[n]? = some call →
    call.request = .claim reviewId → call.stage = .updated (some row) →
    ∃ old, s.row reviewId = some old ∧ old.status = .pending ∧
      row = { old with status := .claimed }
  /-- What a `resolve` has written over an item, which is as it was when it was written. -/
  closing : ∀ (n : Nat) call reviewId resolution item row, s.calls[n]? = some call →
    call.request = .resolve reviewId resolution → call.stage = .flushed item (some row) →
    ∃ old loaded, s.row reviewId = some old ∧ old.flush loaded resolution = some row
  /-- No two open transactions have written one row. -/
  apart : ∀ (n m : Nat) call other row row', n ≠ m → s.calls[n]? = some call →
    s.calls[m]? = some other → call.stage.open? = some row → other.stage.open? = some row' →
    row.id ≠ row'.id
  taken : ∀ (n : Nat) call reviewId, s.calls[n]? = some call → Claimant reviewId call →
    ∃ row, s.row reviewId = some row ∧ row.status ≠ .pending
  once : ∀ (n m : Nat) call other reviewId, s.calls[n]? = some call → s.calls[m]? = some other →
    Takes reviewId call → Takes reviewId other → n = m
  answered : ∀ (n : Nat) call reviewId item, s.calls[n]? = some call →
    call.request = .claim reviewId → call.stage = .returned (some item) → item.id = reviewId

/-- `row` gives the row of the id. -/
theorem row_id {s : Reviews} {reviewId : Uuid} {row : ReviewRow}
    (h : s.row reviewId = some row) : row.id = reviewId := by
  simpa using List.find?_some h

/-- What a call has open is among the open rows. -/
theorem mem_openRows {s : Reviews} {n : Nat} {call : ReviewCall} {row : ReviewRow}
    (hcall : s.calls[n]? = some call) (hopen : call.stage.open? = some row) :
    row ∈ s.openRows :=
  List.mem_filterMap.2 ⟨call, List.mem_of_getElem? hcall, hopen⟩

/-- A claim that takes a pending item has an open row for it. -/
theorem Orderly.taking {s : Reviews} (h : Orderly s) {n : Nat} {call : ReviewCall}
    {reviewId : Uuid} (hcall : s.calls[n]? = some call) (htakes : Takes reviewId call)
    (hpending : ∀ row, s.row reviewId = some row → row.status = .pending) :
    ∃ row, call.stage.open? = some row ∧ row.id = reviewId := by
  rcases htakes with hclaimant | ⟨hrequest, row, hstage⟩
  · obtain ⟨row, hrow, hstatus⟩ := h.taken n call reviewId hcall hclaimant
    exact absurd (hpending row hrow) hstatus
  · obtain ⟨old, hold, -, rfl⟩ := h.claiming n call reviewId row hcall hrequest hstage
    have hid : old.id = reviewId := row_id hold
    exact ⟨{ old with status := .claimed }, by rw [hstage]; rfl, hid⟩

/-! ## What a step keeps -/

section Kept

variable {s s' : Reviews} {e : ReviewEvent} {n : Nat} {call : ReviewCall} {stage : ReviewStage}

/-- `Orderly` is kept by a call that goes on and commits nothing. -/
theorem Orderly.goes (h : Orderly s) (hcall : s.calls[n]? = some call)
    (hrows : s'.rows = s.rows) (hcalls : s'.calls = s.calls.set n { call with stage })
    (hinserting : ∀ row, stage = .inserted row → ∀ other ∈ s.rows, other.id ≠ row.id)
    (hclaiming : ∀ reviewId row, call.request = .claim reviewId → stage = .updated (some row) →
      ∃ old, s.row reviewId = some old ∧ old.status = .pending ∧
        row = { old with status := .claimed })
    (hclosing : ∀ reviewId resolution item row, call.request = .resolve reviewId resolution →
      stage = .flushed item (some row) →
      ∃ old loaded, s.row reviewId = some old ∧ old.flush loaded resolution = some row)
    (hapart : ∀ row, stage.open? = some row → ∀ other ∈ s.openRows, other.id ≠ row.id)
    (htaken : ∀ reviewId, Claimant reviewId { call with stage } → Claimant reviewId call)
    (hanswered : ∀ reviewId item, call.request = .claim reviewId →
      stage = .returned (some item) → item.id = reviewId) : Orderly s' := by
  have hrow : ∀ reviewId, s'.row reviewId = s.row reviewId := by
    intro reviewId
    simp only [Reviews.row, hrows]
  -- A claim that takes the item anew is the only one: the others have left it pending
  have honce : ∀ (m : Nat) other reviewId, m ≠ n → s.calls[m]? = some other →
      Takes reviewId { call with stage } → ¬Takes reviewId other := by
    intro m other reviewId hne hother htakes hothers
    rcases htakes with hclaimant | ⟨hrequest, row, hstage⟩
    · exact hne (h.once m n other call reviewId hother hcall hothers (.inl (htaken _ hclaimant)))
    · obtain ⟨old, hold, hpending, rfl⟩ := hclaiming reviewId row hrequest hstage
      have hopens : stage.open? = some { old with status := .claimed } := congrArg _ hstage
      obtain ⟨row, hopen, hid⟩ := h.taking hother hothers fun row hrow => by
        rw [hold] at hrow
        exact Option.some.inj hrow ▸ hpending
      exact hapart _ hopens row (mem_openRows hother hopen) (hid.trans (row_id hold).symm)
  constructor
  · rw [hrows]
    exact h.ids
  · intro m other row hm hstage
    rw [hrows]
    rw [hcalls] at hm
    rcases List.getElem?_set_cases hm with ⟨-, hm'⟩ | ⟨-, rfl⟩
    · exact h.inserting m other row hm' hstage
    · exact hinserting row hstage
  · intro m other reviewId row hm hrequest hstage
    rw [hrow]
    rw [hcalls] at hm
    rcases List.getElem?_set_cases hm with ⟨-, hm'⟩ | ⟨-, rfl⟩
    · exact h.claiming m other reviewId row hm' hrequest hstage
    · exact hclaiming reviewId row hrequest hstage
  · intro m other reviewId resolution item row hm hrequest hstage
    rw [hrow]
    rw [hcalls] at hm
    rcases List.getElem?_set_cases hm with ⟨-, hm'⟩ | ⟨-, rfl⟩
    · exact h.closing m other reviewId resolution item row hm' hrequest hstage
    · exact hclosing reviewId resolution item row hrequest hstage
  · intro m k other other' row row' hne hm hk hopen hopen'
    rw [hcalls] at hm hk
    rcases List.getElem?_set_cases hm with ⟨-, hm'⟩ | ⟨rfl, rfl⟩
    · rcases List.getElem?_set_cases hk with ⟨-, hk'⟩ | ⟨-, rfl⟩
      · exact h.apart m k other other' row row' hne hm' hk' hopen hopen'
      · exact hapart row' hopen' row (mem_openRows hm' hopen)
    · rcases List.getElem?_set_cases hk with ⟨-, hk'⟩ | ⟨rfl, -⟩
      · exact (hapart row hopen row' (mem_openRows hk' hopen')).symm
      · exact absurd rfl hne
  · intro m other reviewId hm hclaimant
    rw [hrow]
    rw [hcalls] at hm
    rcases List.getElem?_set_cases hm with ⟨-, hm'⟩ | ⟨-, rfl⟩
    · exact h.taken m other reviewId hm' hclaimant
    · exact h.taken n call reviewId hcall (htaken reviewId hclaimant)
  · intro m k other other' reviewId hm hk htakes htakes'
    rw [hcalls] at hm hk
    rcases List.getElem?_set_cases hm with ⟨hnm, hm'⟩ | ⟨rfl, rfl⟩
    · rcases List.getElem?_set_cases hk with ⟨-, hk'⟩ | ⟨-, rfl⟩
      · exact h.once m k other other' reviewId hm' hk' htakes htakes'
      · exact absurd htakes (honce m other reviewId hnm.symm hm' htakes')
    · rcases List.getElem?_set_cases hk with ⟨hnk, hk'⟩ | ⟨rfl, -⟩
      · exact absurd htakes' (honce k other' reviewId hnk.symm hk' htakes)
      · rfl
  · intro m other reviewId item hm hrequest hstage
    rw [hcalls] at hm
    rcases List.getElem?_set_cases hm with ⟨-, hm'⟩ | ⟨-, rfl⟩
    · exact h.answered m other reviewId item hm' hrequest hstage
    · exact hanswered reviewId item hrequest hstage

/-- `Orderly` is kept by a call that commits the row it has written. -/
theorem Orderly.commits (h : Orderly s) (hcall : s.calls[n]? = some call) {row : ReviewRow}
    (hopen : call.stage.open? = some row) (hids : (s'.rows.map (·.id)).Nodup)
    (hself : s'.row row.id = some row)
    (hother : ∀ reviewId, row.id ≠ reviewId → s'.row reviewId = s.row reviewId)
    (hmem : ∀ other ∈ s'.rows, other.id ≠ row.id → other ∈ s.rows)
    (hcalls : s'.calls = s.calls.set n { call with stage }) (hnone : stage.open? = none)
    (hkept : ∀ old, s.row row.id = some old → old.status ≠ .pending → row.status ≠ .pending)
    (htaken : ∀ reviewId, Claimant reviewId { call with stage } →
      Takes reviewId call ∧ row.id = reviewId ∧ row.status ≠ .pending)
    (hanswered : ∀ reviewId item, call.request = .claim reviewId →
      stage = .returned (some item) → item.id = reviewId) : Orderly s' := by
  -- The rows other transactions have written are others than this one
  have hfree : ∀ (m : Nat) other written, n ≠ m → s.calls[m]? = some other →
      other.stage.open? = some written → row.id ≠ written.id :=
    fun m other written hne hm hwritten =>
      h.apart n m call other row written hne hcall hm hopen hwritten
  have htakes : ∀ reviewId, Takes reviewId { call with stage } → Takes reviewId call := by
    rintro reviewId (hclaimant | ⟨-, written, hstage⟩)
    · exact (htaken reviewId hclaimant).1
    · have hstage : stage = .updated (some written) := hstage
      rw [hstage] at hnone
      exact nomatch hnone
  constructor
  · exact hids
  · intro m other written hm hstage found hfound
    rw [hcalls] at hm
    rcases List.getElem?_set_cases hm with ⟨hne, hm'⟩ | ⟨-, rfl⟩
    · have hdiffer := hfree m other written hne hm' (by rw [hstage]; rfl)
      -- The new row replaces the one of its id and touches no other
      by_cases hid : found.id = row.id
      · rw [hid]
        exact hdiffer
      · exact h.inserting m other written hm' hstage found (hmem found hfound hid)
    · have hstage : stage = .inserted written := hstage
      rw [hstage] at hnone
      exact nomatch hnone
  · intro m other reviewId written hm hrequest hstage
    rw [hcalls] at hm
    rcases List.getElem?_set_cases hm with ⟨hne, hm'⟩ | ⟨-, rfl⟩
    · have hdiffer := hfree m other written hne hm' (by rw [hstage]; rfl)
      obtain ⟨old, hold, hpending, rfl⟩ :=
        h.claiming m other reviewId written hm' hrequest hstage
      have hid : old.id = reviewId := row_id hold
      rw [hother reviewId (hid ▸ hdiffer)]
      exact ⟨old, hold, hpending, rfl⟩
    · have hstage : stage = .updated (some written) := hstage
      rw [hstage] at hnone
      exact nomatch hnone
  · intro m other reviewId resolution item written hm hrequest hstage
    rw [hcalls] at hm
    rcases List.getElem?_set_cases hm with ⟨hne, hm'⟩ | ⟨-, rfl⟩
    · have hdiffer := hfree m other written hne hm' (by rw [hstage]; rfl)
      obtain ⟨old, loaded, hold, hflush⟩ :=
        h.closing m other reviewId resolution item written hm' hrequest hstage
      have hid : written.id = reviewId := (flush_cases hflush).1.trans (row_id hold)
      rw [hother reviewId (hid ▸ hdiffer)]
      exact ⟨old, loaded, hold, hflush⟩
    · have hstage : stage = .flushed item (some written) := hstage
      rw [hstage] at hnone
      exact nomatch hnone
  · intro m k other other' written written' hne hm hk hwritten hwritten'
    rw [hcalls] at hm hk
    rcases List.getElem?_set_cases hm with ⟨-, hm'⟩ | ⟨-, rfl⟩
    · rcases List.getElem?_set_cases hk with ⟨-, hk'⟩ | ⟨-, rfl⟩
      · exact h.apart m k other other' written written' hne hm' hk' hwritten hwritten'
      · exact nomatch hnone.symm.trans hwritten'
    · exact nomatch hnone.symm.trans hwritten
  · intro m other reviewId hm hclaimant
    rw [hcalls] at hm
    rcases List.getElem?_set_cases hm with ⟨-, hm'⟩ | ⟨-, rfl⟩
    · obtain ⟨old, hold, hstatus⟩ := h.taken m other reviewId hm' hclaimant
      by_cases hid : row.id = reviewId
      · subst hid
        exact ⟨row, hself, hkept old hold hstatus⟩
      · rw [hother reviewId hid]
        exact ⟨old, hold, hstatus⟩
    · obtain ⟨-, rfl, hstatus⟩ := htaken reviewId hclaimant
      exact ⟨row, hself, hstatus⟩
  · intro m k other other' reviewId hm hk hwas hwas'
    rw [hcalls] at hm hk
    rcases List.getElem?_set_cases hm with ⟨-, hm'⟩ | ⟨rfl, rfl⟩
    · rcases List.getElem?_set_cases hk with ⟨-, hk'⟩ | ⟨rfl, rfl⟩
      · exact h.once m k other other' reviewId hm' hk' hwas hwas'
      · exact h.once m k other call reviewId hm' hcall hwas (htakes reviewId hwas')
    · rcases List.getElem?_set_cases hk with ⟨-, hk'⟩ | ⟨rfl, -⟩
      · exact h.once m k call other' reviewId hcall hk' (htakes reviewId hwas) hwas'
      · rfl
  · intro m other reviewId item hm hrequest hstage
    rw [hcalls] at hm
    rcases List.getElem?_set_cases hm with ⟨-, hm'⟩ | ⟨-, rfl⟩
    · exact h.answered m other reviewId item hm' hrequest hstage
    · exact hanswered reviewId item hrequest hstage

/-- `Orderly` is about the rows and the calls alone. -/
theorem Orderly.congr (h : Orderly s) (hrows : s'.rows = s.rows) (hcalls : s'.calls = s.calls) :
    Orderly s' := by
  obtain ⟨rows, sessions, calls⟩ := s
  obtain ⟨rows', sessions', calls'⟩ := s'
  dsimp only at hrows hcalls
  subst hrows hcalls
  exact ⟨h.ids, h.inserting, h.claiming, h.closing, h.apart, h.taken, h.once, h.answered⟩

/-- `Orderly` is kept when a call begins. -/
theorem Orderly.begins (h : Orderly s) {k : Nat} {request : ReviewRequest}
    (hrows : s'.rows = s.rows) (hcalls : s'.calls = s.calls ++ [⟨k, request, .begun⟩]) :
    Orderly s' := by
  have hrow : ∀ reviewId, s'.row reviewId = s.row reviewId := by
    intro reviewId
    simp only [Reviews.row, hrows]
  have hclaimant : ∀ reviewId, ¬Claimant reviewId ⟨k, request, .begun⟩ := by
    rintro reviewId ⟨-, hstage | ⟨item, hstage⟩⟩ <;> exact nomatch hstage
  have htakes : ∀ reviewId, ¬Takes reviewId ⟨k, request, .begun⟩ := by
    rintro reviewId (hclaims | ⟨-, row, hstage⟩)
    · exact hclaimant reviewId hclaims
    · exact nomatch hstage
  -- The new call has written nothing
  constructor
  · exact hrows ▸ h.ids
  · intro m other row hm hstage
    rw [hrows]
    rcases List.getElem?_concat_cases (hcalls ▸ hm) with hm | ⟨-, rfl⟩
    · exact h.inserting m other row hm hstage
    · exact nomatch hstage
  · intro m other reviewId row hm hrequest hstage
    rw [hrow]
    rcases List.getElem?_concat_cases (hcalls ▸ hm) with hm | ⟨-, rfl⟩
    · exact h.claiming m other reviewId row hm hrequest hstage
    · exact nomatch hstage
  · intro m other reviewId resolution item row hm hrequest hstage
    rw [hrow]
    rcases List.getElem?_concat_cases (hcalls ▸ hm) with hm | ⟨-, rfl⟩
    · exact h.closing m other reviewId resolution item row hm hrequest hstage
    · exact nomatch hstage
  · intro m l other other' row row' hne hm hl hopen hopen'
    rcases List.getElem?_concat_cases (hcalls ▸ hm) with hm | ⟨-, rfl⟩
    · rcases List.getElem?_concat_cases (hcalls ▸ hl) with hl | ⟨-, rfl⟩
      · exact h.apart m l other other' row row' hne hm hl hopen hopen'
      · exact nomatch hopen'
    · exact nomatch hopen
  · intro m other reviewId hm hclaims
    rw [hrow]
    rcases List.getElem?_concat_cases (hcalls ▸ hm) with hm | ⟨-, rfl⟩
    · exact h.taken m other reviewId hm hclaims
    · exact absurd hclaims (hclaimant reviewId)
  · intro m l other other' reviewId hm hl hwas hwas'
    rcases List.getElem?_concat_cases (hcalls ▸ hm) with hm | ⟨-, rfl⟩
    · rcases List.getElem?_concat_cases (hcalls ▸ hl) with hl | ⟨-, rfl⟩
      · exact h.once m l other other' reviewId hm hl hwas hwas'
      · exact absurd hwas' (htakes reviewId)
    · exact absurd hwas (htakes reviewId)
  · intro m other reviewId item hm hrequest hstage
    rcases List.getElem?_concat_cases (hcalls ▸ hm) with hm | ⟨-, rfl⟩
    · exact h.answered m other reviewId item hm hrequest hstage
    · exact nomatch hstage

/-- The pending row a claim finds is the row of the item. -/
theorem Orderly.row_of_pending (h : Orderly s) {reviewId : Uuid} {row : ReviewRow}
    (hfind : s.rows.find? (fun row => row.id = reviewId ∧ row.status = .pending) = some row) :
    s.row reviewId = some row ∧ row.status = .pending := by
  have hfound : row.id = reviewId ∧ row.status = .pending := by
    simpa using List.find?_some hfind
  refine ⟨?_, hfound.2⟩
  rw [Reviews.row, ← hfound.1]
  exact List.find?_key_of_mem h.ids (List.mem_of_find?_eq_some hfind)

/-- `overwrite` keeps the ids apart and changes the one row. -/
theorem Orderly.overwrites (h : Orderly s) {row old : ReviewRow}
    (hrows : s'.rows = overwrite row s.rows) (hold : s.row row.id = some old) :
    (s'.rows.map (·.id)).Nodup ∧ s'.row row.id = some row ∧
      (∀ reviewId, row.id ≠ reviewId → s'.row reviewId = s.row reviewId) ∧
      ∀ other ∈ s'.rows, other.id ≠ row.id → other ∈ s.rows := by
  simp only [Reviews.row, hrows]
  refine ⟨?_, find?_overwrite_self hold, fun reviewId hne => find?_overwrite_other hne, ?_⟩
  · rw [ids_overwrite]
    exact h.ids
  · intro other hother hne
    obtain ⟨before, hbefore, hmapped⟩ := List.mem_map.1 hother
    split at hmapped
    · exact absurd (hmapped ▸ rfl) hne
    · exact hmapped ▸ hbefore

/-- `Orderly` is kept by every move. -/
theorem Orderly.moves (h : Orderly s) (hmoves : Moves s e s') : Orderly s' := by
  cases hmoves with
  | still hrows hcalls => exact h.congr hrows hcalls
  | begins k request hlt hrows hcalls => exact h.begins hrows hcalls
  -- A call that writes nothing
  | goes n call stage hcall hnone hclaimant hanswered hrows hcalls =>
    have hwrites : ∀ row, stage.open? ≠ some row := by
      intro row hopen
      exact nomatch hnone.symm.trans hopen
    refine h.goes hcall hrows hcalls ?_ ?_ ?_ ?_ hclaimant hanswered
    · rintro row rfl
      exact absurd rfl (hwrites row)
    · rintro reviewId row - rfl
      exact absurd rfl (hwrites row)
    · rintro reviewId resolution item row - rfl
      exact absurd rfl (hwrites row)
    · intro row hopen
      exact absurd hopen (hwrites row)
  -- A new item waits under an id of its own
  | inserts n call row hcall hrequest hfresh hrows hcalls =>
    refine h.goes hcall hrows hcalls ?_ nofun nofun ?_ ?_ nofun
    · rintro row' hstage other hother
      exact ReviewStage.inserted.inj hstage ▸ hfresh other (List.mem_append_left _ hother)
    · intro row' hopen other hother
      exact Option.some.inj hopen ▸ hfresh other (List.mem_append_right _ hother)
    · rintro reviewId ⟨-, hstage | ⟨item, hstage⟩⟩ <;> exact nomatch hstage
  -- It is committed, and nobody has claimed it
  | enters n call row hcall hrequest hstage hrows hcalls =>
    have hfresh := h.inserting n call row hcall hstage
    have hnone : s.row row.id = none := by
      rw [Reviews.row, List.find?_eq_none]
      intro other hother
      simpa using hfresh other hother
    refine h.commits hcall (by rw [hstage]; rfl) ?_ ?_ ?_ ?_ hcalls rfl ?_ ?_ ?_
    · rw [hrows, List.map_append, List.nodup_append]
      refine ⟨h.ids, by simp, ?_⟩
      intro a ha b hb
      obtain ⟨other, hother, rfl⟩ := List.mem_map.1 ha
      rw [List.map_cons, List.map_nil, List.mem_singleton] at hb
      exact hb ▸ hfresh other hother
    · rw [Reviews.row, hrows, List.find?_append, ← Reviews.row, hnone]
      simp
    · intro reviewId hne
      rw [Reviews.row, hrows, List.find?_append, ← Reviews.row]
      simp [hne]
    · intro other hother hne
      rw [hrows, List.mem_append, List.mem_singleton] at hother
      rcases hother with hother | rfl
      · exact hother
      · exact absurd rfl hne
    · intro old hold
      exact nomatch hnone.symm.trans hold
    · rintro reviewId ⟨hclaim, -⟩
      exact absurd hclaim (hrequest reviewId)
    · intro reviewId item hclaim
      exact absurd hclaim (hrequest reviewId)
  -- The `UPDATE` finds the item pending and not locked
  | takes n call reviewId row hcall hrequest hbegun hfind hfree hrows hcalls =>
    obtain ⟨hrow, hpending⟩ := h.row_of_pending hfind
    refine h.goes hcall hrows hcalls nofun ?_ nofun ?_ ?_ nofun
    · rintro asked row' hasked hstage
      have hid := ReviewRequest.claim.inj (hrequest.symm.trans hasked)
      have hrow' := Option.some.inj (ReviewStage.updated.inj hstage)
      exact ⟨row, hid ▸ hrow, hpending, hrow'.symm⟩
    · intro row' hopen other hother
      have hid : row.id = reviewId := row_id hrow
      rw [← Option.some.inj hopen]
      exact fun hsame => hfree other hother (hsame.trans hid)
    · rintro asked ⟨-, hstage | ⟨item, hstage⟩⟩ <;> exact nomatch hstage
  -- The claim is committed over the pending row
  | claims n call reviewId row hcall hrequest hstage hrows hcalls =>
    obtain ⟨old, hold, hpending, rfl⟩ := h.claiming n call reviewId row hcall hrequest hstage
    have hid : old.id = reviewId := row_id hold
    obtain ⟨hids, hself, hother, hmem⟩ := h.overwrites hrows (by rw [← hold, ← hid])
    refine h.commits hcall (by rw [hstage]; rfl) hids hself hother hmem hcalls rfl ?_ ?_ nofun
    · intro _ _ _
      exact (by decide : ReviewStatus.claimed ≠ .pending)
    · rintro asked ⟨hasked, -⟩
      have hsame : reviewId = asked := ReviewRequest.claim.inj (hrequest.symm.trans hasked)
      exact ⟨.inr ⟨hasked, _, hstage⟩, hid.trans hsame,
        (by decide : ReviewStatus.claimed ≠ .pending)⟩
  -- A resolution is written over the row as it was loaded
  | flushes n call reviewId resolution item closed row written hevent hcall hrequest hstage hrow hflush
      hfree hrows hcalls =>
    obtain ⟨hid, -⟩ := flush_cases hflush
    refine h.goes hcall hrows hcalls nofun nofun ?_ ?_ ?_ nofun
    · rintro asked resolution' item' row' hasked hstage'
      obtain ⟨rfl, rfl⟩ := ReviewRequest.resolve.inj (hrequest.symm.trans hasked)
      obtain ⟨-, hwritten⟩ := ReviewStage.flushed.inj hstage'
      exact ⟨row, item, hrow, hflush.trans hwritten⟩
    · intro row' hopen other hother
      rw [← Option.some.inj hopen, hid, row_id hrow]
      exact hfree other hother
    · rintro asked ⟨-, hstage | ⟨item, hstage⟩⟩ <;> exact nomatch hstage
  -- And its commit takes no status back
  | closes n call reviewId resolution item row hevent hcall hrequest hstage hrows hcalls =>
    obtain ⟨old, loaded, hold, hflush⟩ :=
      h.closing n call reviewId resolution item row hcall hrequest hstage
    obtain ⟨hid, hstatus⟩ := flush_cases hflush
    have hrow : s.row row.id = some old := by rw [hid, row_id hold, hold]
    obtain ⟨hids, hself, hother, hmem⟩ := h.overwrites hrows hrow
    refine h.commits hcall (by rw [hstage]; rfl) hids hself hother hmem hcalls rfl ?_ ?_ ?_
    · intro found hfound hpending
      rw [hrow] at hfound
      rw [← Option.some.inj hfound] at hpending
      rcases hstatus with hstatus | hstatus
      · rw [hstatus]
        decide
      · rw [hstatus]
        exact hpending
    · rintro asked ⟨hasked, -⟩
      exact nomatch hrequest.symm.trans hasked
    · intro asked item' hasked
      exact nomatch hrequest.symm.trans hasked

end Kept

/-- `Orderly` holds at first. -/
theorem orderly_init : Orderly reviews.init := by
  have hnone : ∀ (n : Nat) call, reviews.init.calls[n]? = some call → False := by
    intro n call hcall
    exact nomatch (List.getElem?_nil (α := ReviewCall)).symm.trans hcall
  exact {
    ids := List.nodup_nil
    inserting := fun n call _ hcall => (hnone n call hcall).elim
    claiming := fun n call _ _ hcall => (hnone n call hcall).elim
    closing := fun n call _ _ _ _ hcall => (hnone n call hcall).elim
    apart := fun n _ call _ _ _ _ hcall => (hnone n call hcall).elim
    taken := fun n call _ hcall => (hnone n call hcall).elim
    once := fun n _ call _ _ hcall => (hnone n call hcall).elim
    answered := fun n call _ _ hcall => (hnone n call hcall).elim }

/-- `Orderly` holds in every reachable state. -/
theorem orderly_of_reachable {s : Reviews} (h : reviews.Reachable s) : Orderly s :=
  Machine.ReachableVia.invariant orderly_init (fun _ _ _ hs _ hstep => hs.moves (step_moves hstep)) h

/-! ## Forward -/

/-- No item goes back, and no claim takes one that is resolved. -/
structure Forward (s s' : Reviews) : Prop where
  status : ∀ reviewId row, s.row reviewId = some row →
    ∃ row', s'.row reviewId = some row' ∧ row.status.rank ≤ row'.status.rank
  closed : ∀ reviewId row, s.row reviewId = some row → row.status = .resolved →
    ∀ (n : Nat) call, s'.calls[n]? = some call → Takes reviewId call →
      ∃ before, s.calls[n]? = some before ∧ Takes reviewId before

/-- Standing still is going forward. -/
theorem Forward.refl (s : Reviews) : Forward s s where
  status _ row hrow := ⟨row, hrow, Nat.le_refl _⟩
  closed _ _ _ _ _ call hcall htakes := ⟨call, hcall, htakes⟩

/-- What is as far as `resolved` is resolved. -/
theorem resolved_of_rank_le {status : ReviewStatus}
    (h : ReviewStatus.resolved.rank ≤ status.rank) : status = .resolved := by
  cases status with
  | pending => exact absurd h (by decide)
  | claimed => exact absurd h (by decide)
  | resolved => rfl

/-- Going forward twice is going forward. -/
theorem Forward.trans {s t u : Reviews} (h : Forward s t) (h' : Forward t u) : Forward s u where
  status reviewId row hrow := by
    obtain ⟨row', hrow', hle⟩ := h.status reviewId row hrow
    obtain ⟨row'', hrow'', hle'⟩ := h'.status reviewId row' hrow'
    exact ⟨row'', hrow'', hle.trans hle'⟩
  closed reviewId row hrow hresolved n call hcall htakes := by
    obtain ⟨row', hrow', hle⟩ := h.status reviewId row hrow
    rw [hresolved] at hle
    obtain ⟨before, hbefore, hwas⟩ :=
      h'.closed reviewId row' hrow' (resolved_of_rank_le hle) n call hcall htakes
    exact h.closed reviewId row hrow hresolved n before hbefore hwas

section Forward

variable {s s' : Reviews} {e : ReviewEvent}

/-- The status of every item goes forward where one row changes and goes forward. -/
theorem Forward.status_of_row {row old : ReviewRow} (hold : s.row row.id = some old)
    (hle : old.status.rank ≤ row.status.rank) (hself : s'.row row.id = some row)
    (hother : ∀ reviewId, row.id ≠ reviewId → s'.row reviewId = s.row reviewId)
    (reviewId : Uuid) (before : ReviewRow) (hbefore : s.row reviewId = some before) :
    ∃ after, s'.row reviewId = some after ∧ before.status.rank ≤ after.status.rank := by
  by_cases hid : row.id = reviewId
  · subst hid
    rw [hold] at hbefore
    exact ⟨row, hself, Option.some.inj hbefore ▸ hle⟩
  · rw [hother reviewId hid]
    exact ⟨before, hbefore, Nat.le_refl _⟩

/-- No move takes a status back. -/
theorem Moves.status (hmoves : Moves s e s') (h : Orderly s) (reviewId : Uuid) (row : ReviewRow)
    (hrow : s.row reviewId = some row) :
    ∃ row', s'.row reviewId = some row' ∧ row.status.rank ≤ row'.status.rank := by
  have hsame : s'.rows = s.rows →
      ∃ row', s'.row reviewId = some row' ∧ row.status.rank ≤ row'.status.rank := by
    intro hrows
    exact ⟨row, by rw [Reviews.row, hrows, ← Reviews.row, hrow], Nat.le_refl _⟩
  cases hmoves with
  | still hrows hcalls => exact hsame hrows
  | begins k request hlt hrows hcalls => exact hsame hrows
  | goes n call stage hcall hnone hclaimant hanswered hrows hcalls => exact hsame hrows
  | inserts n call row' hcall hrequest hfresh hrows hcalls => exact hsame hrows
  | enters n call row' hcall hrequest hstage hrows hcalls =>
    refine ⟨row, ?_, Nat.le_refl _⟩
    rw [Reviews.row, hrows, List.find?_append, ← Reviews.row, hrow]
    rfl
  | takes n call asked row' hcall hrequest hbegun hfind hfree hrows hcalls => exact hsame hrows
  -- The two that overwrite a row raise its rank, or leave it
  | claims n call asked row' hcall hrequest hstage hrows hcalls =>
    obtain ⟨old, hold, hpending, rfl⟩ := h.claiming n call asked row' hcall hrequest hstage
    have hid : old.id = asked := row_id hold
    have hfound : s.row old.id = some old := by rw [hid, hold]
    obtain ⟨-, hself, hother, -⟩ := h.overwrites hrows hfound
    refine @Forward.status_of_row s s' { old with status := .claimed } old hfound ?_ hself hother
      reviewId row hrow
    rw [hpending]
    exact Nat.zero_le _
  | flushes n call asked resolution item closed row' written hevent hcall hrequest hstage hrow' hflush
      hfree hrows hcalls => exact hsame hrows
  | closes n call asked resolution item row' hevent hcall hrequest hstage hrows hcalls =>
    obtain ⟨old, loaded, hold, hflush⟩ :=
      h.closing n call asked resolution item row' hcall hrequest hstage
    obtain ⟨hid, hstatus⟩ := flush_cases hflush
    have hfound : s.row row'.id = some old := by rw [hid, row_id hold, hold]
    obtain ⟨-, hself, hother, -⟩ := h.overwrites hrows hfound
    refine Forward.status_of_row hfound ?_ hself hother reviewId row hrow
    rcases hstatus with hstatus | hstatus
    · rw [hstatus]
      exact rank_le_resolved _
    · rw [hstatus]

/-- A move makes a claim take an item only if the item is pending or was taken by it before. -/
theorem Moves.taker (hmoves : Moves s e s') (h : Orderly s) {reviewId : Uuid} {n : Nat}
    {call : ReviewCall} (hcall : s'.calls[n]? = some call) (htakes : Takes reviewId call) :
    (∃ before, s.calls[n]? = some before ∧ Takes reviewId before) ∨
      ∃ row, s.row reviewId = some row ∧ row.status = .pending := by
  -- A call that was not the one to move took it before
  have hset : ∀ {m : Nat} {other : ReviewCall}, s'.calls = s.calls.set m other →
      (∃ before, s.calls[n]? = some before ∧ Takes reviewId before) ∨ n = m ∧ call = other := by
    intro m other hcalls
    rw [hcalls] at hcall
    rcases List.getElem?_set_cases hcall with ⟨-, hcall⟩ | hnew
    · exact .inl ⟨call, hcall, htakes⟩
    · exact .inr hnew
  -- Nor does a call take an item by its end, unless it has the item written
  have hclaims : ∀ {m : Nat} {other : ReviewCall} {stage : ReviewStage},
      s.calls[m]? = some other → s'.calls = s.calls.set m { other with stage } →
      (∀ row, stage ≠ .updated (some row)) →
      (Claimant reviewId { other with stage } → Takes reviewId other) →
      ∃ before, s.calls[n]? = some before ∧ Takes reviewId before := by
    intro m other stage hother hcalls hupdated hclaimant
    rcases hset hcalls with hbefore | ⟨rfl, rfl⟩
    · exact hbefore
    · rcases htakes with hclaims | ⟨-, row, hstage⟩
      · exact ⟨other, hother, hclaimant hclaims⟩
      · exact absurd hstage (hupdated row)
  cases hmoves with
  | still hrows hcalls => exact .inl ⟨call, hcalls ▸ hcall, htakes⟩
  | begins k request hlt hrows hcalls =>
    rw [hcalls] at hcall
    rcases List.getElem?_concat_cases hcall with hcall | ⟨-, rfl⟩
    · exact .inl ⟨call, hcall, htakes⟩
    · rcases htakes with ⟨-, hstage | ⟨item, hstage⟩⟩ | ⟨-, row, hstage⟩ <;> exact nomatch hstage
  | goes m other stage hother hnone hclaimant hanswered hrows hcalls =>
    refine .inl (hclaims hother hcalls ?_ fun hclaim => .inl (hclaimant reviewId hclaim))
    rintro row rfl
    exact nomatch hnone
  | inserts m other row hother hrequest hfresh hrows hcalls =>
    exact .inl (hclaims hother hcalls nofun fun hclaim => absurd hclaim.1 (hrequest reviewId))
  | enters m other row hother hrequest hstage hrows hcalls =>
    exact .inl (hclaims hother hcalls nofun fun hclaim => absurd hclaim.1 (hrequest reviewId))
  -- Only the `UPDATE` that finds the item pending takes it anew
  | takes m other asked row hother hrequest hbegun hfind hfree hrows hcalls =>
    rcases hset hcalls with hbefore | ⟨rfl, rfl⟩
    · exact .inl hbefore
    · rcases htakes with ⟨-, hstage | ⟨item, hstage⟩⟩ | ⟨hasked, -⟩
      · exact nomatch hstage
      · exact nomatch hstage
      · have hsame : asked = reviewId := ReviewRequest.claim.inj (hrequest.symm.trans hasked)
        exact .inr ⟨row, hsame ▸ h.row_of_pending hfind⟩
  | claims m other asked row hother hrequest hstage hrows hcalls =>
    refine .inl (hclaims hother hcalls nofun ?_)
    rintro ⟨hasked, -⟩
    exact .inr ⟨hasked, row, hstage⟩
  | flushes m other asked resolution item closed row written hevent hother hrequest hstage hrow hflush
      hfree hrows hcalls =>
    refine .inl (hclaims hother hcalls nofun ?_)
    rintro ⟨hasked, -⟩
    exact nomatch hrequest.symm.trans hasked
  | closes m other asked resolution item row hevent hother hrequest hstage hrows hcalls =>
    refine .inl (hclaims hother hcalls nofun ?_)
    rintro ⟨hasked, -⟩
    exact nomatch hrequest.symm.trans hasked

/-- Every move takes the items `Forward`. -/
theorem Moves.forward (hmoves : Moves s e s') (h : Orderly s) : Forward s s' where
  status := hmoves.status h
  closed reviewId row hrow hresolved n call hcall htakes := by
    rcases hmoves.taker h hcall htakes with hbefore | ⟨row', hrow', hpending⟩
    · exact hbefore
    · rw [hrow] at hrow'
      rw [← Option.some.inj hrow', hresolved] at hpending
      exact nomatch hpending

/-- Every run takes the items `Forward`. -/
theorem Orderly.forward (h : Orderly s) {es : List ReviewEvent}
    (hrun : reviews.runFrom s es = some s') : Forward s s' := by
  induction es generalizing s with
  | nil => exact Option.some.inj hrun ▸ .refl s
  | cons e es ih =>
    simp only [Machine.runFrom] at hrun
    cases hstep : reviews.step s e with
    | none => simp [hstep] at hrun
    | some t =>
      simp only [hstep, Option.bind_some] at hrun
      have hmoves : Moves s e t := step_moves hstep
      exact (hmoves.forward h).trans (ih (h.moves hmoves) hrun)

end Forward

/-! ## Claims -/

/-- However the calls of any number of sessions interleave, one claim at most returns an
    item, no claim takes a resolved one, and the status of an item never goes back. -/
theorem claims_once_forward {s : Reviews} (h : reviews.Reachable s) :
    (∀ reviewId (n m : Nat) call other, s.calls[n]? = some call → s.calls[m]? = some other →
      Returns reviewId call → Returns reviewId other → n = m) ∧
    ∀ es s', reviews.runFrom s es = some s' → Forward s s' := by
  have hs := orderly_of_reachable h
  have hclaimant : ∀ reviewId (n : Nat) call, s.calls[n]? = some call → Returns reviewId call →
      Takes reviewId call := by
    rintro reviewId n call hcall ⟨asked, item, hrequest, hstage, rfl⟩
    rw [hs.answered n call asked item hcall hrequest hstage]
    exact .inl ⟨hrequest, .inr ⟨item, hstage⟩⟩
  refine ⟨?_, fun es s' => hs.forward⟩
  intro reviewId n m call other hcall hother hreturns hreturns'
  exact hs.once n m call other reviewId hcall hother (hclaimant reviewId n call hcall hreturns)
    (hclaimant reviewId m other hother hreturns')

private def raceId : Uuid := .repeated 0

/-- Two reviewers claim one item, and the one who has it closes it. -/
private def race : List ReviewEvent :=
  [.connect 0, .connect 1,
    .call 0 (.enqueue (lit "help") .complaint .complaint none none),
    .advance 0 raceId, .advance 0 raceId,
    .call 0 (.claim raceId), .call 1 (.claim raceId),
    .advance 1 raceId, .advance 1 raceId, .advance 2 raceId, .advance 2 raceId,
    .advance 1 raceId,
    .call 0 (.resolve raceId (lit "refunded")),
    .advance 3 raceId, .advance 3 raceId, .advance 3 raceId]

/-- Two sessions claim one item: the first gets it, the second nothing, and the first resolves
    it. -/
private theorem race_runs : ∃ s, reviews.run race = some s ∧
    (∃ item, s.calls[1]? = some ⟨0, .claim raceId, .returned (some item)⟩) ∧
    s.calls[2]? = some ⟨1, .claim raceId, .returned none⟩ ∧
    (s.row raceId).map (·.status) = some .resolved :=
  ⟨_, rfl, ⟨_, rfl⟩, rfl, rfl⟩

/-- The race, and what any run can do behind it. -/
theorem claims_once_forward_race : ∃ s, reviews.run race = some s ∧
    (∃ item, s.calls[1]? = some ⟨0, .claim raceId, .returned (some item)⟩) ∧
    s.calls[2]? = some ⟨1, .claim raceId, .returned none⟩ ∧
    ∀ es s', reviews.runFrom s es = some s' → Forward s s' := by
  obtain ⟨s, hrun, htaken, hlost, -⟩ := race_runs
  exact ⟨s, hrun, htaken, hlost,
    (claims_once_forward (Machine.reachable_of_run race hrun)).2⟩

end NexaAssist.Spec.ReviewClaims
