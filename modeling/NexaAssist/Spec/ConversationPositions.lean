import Mathlib.Data.List.Nodup
import NexaAssist.Db.Appends
import NexaAssist.ForStd.List

/-!
# Positions are dense and in order

A position is read before it is inserted, and may be stale by then. But an insert that goes
through takes the next position, and until its transaction ends nobody else can take one,
so what is committed is always `0`, `1`, `2`, … in the order of the commits.
-/

namespace NexaAssist.Spec.ConversationPositions

open NexaAssist PyJson

/-! ## Lists -/

/-- `set` exchanges what `filterMap` picks of one element for what it picks of another. -/
theorem filterMap_set_perm {α β : Type} (f : α → Option β) {xs : List α} {n : Nat} {a : α}
    (h : xs[n]? = some a) (b : α) :
    ((xs.set n b).filterMap f ++ (f a).toList).Perm (xs.filterMap f ++ (f b).toList) := by
  induction xs generalizing n with
  | nil => simp at h
  | cons x xs ih =>
    cases n with
    | zero =>
      simp only [List.getElem?_cons_zero, Option.some.injEq] at h
      subst h
      simp only [List.set_cons_zero, List.filterMap_cons]
      cases f b with
      | none => cases f x <;> simp
      | some y =>
        cases f x with
        | none => simpa using (List.perm_append_singleton y (xs.filterMap f)).symm
        | some z =>
          calc (y :: xs.filterMap f) ++ [z]
              |>.Perm (z :: y :: xs.filterMap f) := List.perm_append_singleton _ _
            _ |>.Perm (y :: z :: xs.filterMap f) := List.Perm.swap _ _ _
            _ |>.Perm ((z :: xs.filterMap f) ++ [y]) := (List.perm_append_singleton _ _).symm
    | succ n =>
      rw [List.getElem?_cons_succ] at h
      have ih := ih h
      simp only [List.set_cons_succ, List.filterMap_cons]
      cases f x with
      | none => exact ih
      | some y => exact ih.cons y

/-! ## The invariant -/

/-- Positions from `0` on, in this order. -/
def Dense (rows : List MessageRow) : Prop :=
  ∀ c, (rowsOf c rows).map (·.message.position) = List.range (rowsOf c rows).length

structure Kept (s : Appends) : Prop where
  dense : Dense s.rows
  ids : ((s.rows ++ s.openRows).map (·.id)).Nodup
  /-- A position that was read is not past the next one. -/
  chosen : ∀ (n : Nat) request p, s.calls[n]? = some ⟨request, .positioned p⟩ →
    p ≤ (rowsOf request.conversationId s.rows).length
  /-- A row that is inserted has the next one, and is the only one to. -/
  opened : ∀ row ∈ s.openRows,
    row.message.position = (rowsOf row.message.conversationId s.rows).length
  apart : (s.openRows.map MessageRow.key).Nodup
  asked : ∀ (n : Nat) request row, s.calls[n]? = some ⟨request, .inserted row⟩ →
    row.message.conversationId = request.conversationId
  committed : s.rows = s.commits.filterMap fun n => s.calls[n]?.bind AppendCall.returned?
  once : s.commits.Nodup
  returned : ∀ n, n ∈ s.commits ↔ ∃ request row, s.calls[n]? = some ⟨request, .returned row⟩

/-! ## What a step does -/

/-- Whether a call at a stage has a row of its own, open or committed. -/
def AppendStage.hasRow : AppendStage → Bool
  | .inserted _ => true
  | .returned _ => true
  | _ => false

inductive Moves (s : Appends) : Appends → Prop
  | create (conversation : Conversation) :
      Moves s { s with conversations := s.conversations ++ [conversation] }
  | append (request : AppendRequest) :
      Moves s { s with calls := s.calls ++ [{ request, stage := .begun }] }
  /-- A call that has no row comes to a stage where it has none. -/
  | goes (n : Nat) (request : AppendRequest) (stage stage' : AppendStage) :
      s.calls[n]? = some ⟨request, stage⟩ → AppendStage.hasRow stage = false →
      AppendStage.hasRow stage' = false →
      (∀ p, stage' = .positioned p → p = nextPositionOf request.conversationId s.rows) →
      Moves s (s.become n request stage')
  | inserts (n : Nat) (request : AppendRequest) (p : Nat) (row : MessageRow) :
      s.calls[n]? = some ⟨request, .positioned p⟩ →
      row.message.conversationId = request.conversationId → row.message.position = p →
      (∀ other ∈ s.rows ++ s.openRows, other.id ≠ row.id) →
      (∀ other ∈ s.rows ++ s.openRows, other.key ≠ row.key) →
      Moves s (s.become n request (.inserted row))
  | rollsBack (n : Nat) (request : AppendRequest) (row : MessageRow) :
      s.calls[n]? = some ⟨request, .inserted row⟩ →
      Moves s (s.become n request (.raised .sqlalchemy))
  | commits (n : Nat) (request : AppendRequest) (row : MessageRow) :
      s.calls[n]? = some ⟨request, .inserted row⟩ →
      Moves s { s.become n request (.returned row) with
        rows := s.rows ++ [row], commits := s.commits ++ [n] }

/-- Every step is a move. -/
theorem step_moves {s s' : Appends} {e : AppendEvent} (h : s.step e = some s') : Moves s s' := by
  cases e with
  | create conversation =>
    simp only [Appends.step] at h
    -- The event may not be enabled at all
    split at h
    · exact nomatch h
    · exact Option.some.inj h ▸ .create conversation
  | append request => exact Option.some.inj h ▸ .append request
  | advance n id now =>
    simp only [Appends.step, Appends.advance] at h
    split at h
    · exact nomatch h
    · next request stage hcall =>
      cases stage with
      -- An existing conversation is looked up, a missing one is refused
      | begun =>
        dsimp only at h
        split at h
        · exact Option.some.inj h ▸ .goes n request _ _ hcall rfl rfl nofun
        · split at h
          · exact Option.some.inj h ▸ .goes n request _ _ hcall rfl rfl nofun
          · exact Option.some.inj h ▸ .goes n request _ _ hcall rfl rfl nofun
      | found =>
        refine Option.some.inj h ▸ .goes n request _ _ hcall rfl rfl fun p hp => ?_
        exact (AppendStage.positioned.inj hp).symm
      -- The insert draws a fresh id and is held up by the unique constraint
      | positioned p =>
        dsimp only at h
        split at h
        · exact nomatch h
        · next hid =>
          split at h
          · exact Option.some.inj h ▸ .goes n request _ _ hcall rfl rfl nofun
          · split at h
            · exact nomatch h
            · next hopen =>
              split at h
              · exact Option.some.inj h ▸ .goes n request _ _ hcall rfl rfl nofun
              · next hrows =>
                refine Option.some.inj h ▸ .inserts n request p (request.row id p now) hcall
                  rfl rfl ?_ ?_
                · intro other hother heq
                  have hdrawn : other.id = id := heq
                  exact hid (List.any_eq_true.2 ⟨other, hother, decide_eq_true hdrawn⟩)
                · intro other hother
                  rcases List.mem_append.1 hother with hmem | hmem
                  · simp only [List.any_eq_true, not_exists, not_and] at hrows
                    simpa using hrows other hmem
                  · simp only [List.any_eq_true, not_exists, not_and] at hopen
                    simpa using hopen other hmem
      | inserted row => exact Option.some.inj h ▸ .commits n request row hcall
      | returned row => exact nomatch h
      | raised error => exact nomatch h
  | fail n =>
    simp only [Appends.step, Appends.fail] at h
    split at h
    · exact nomatch h
    · next request stage hcall =>
      cases stage with
      | begun => exact Option.some.inj h ▸ .goes n request _ _ hcall rfl rfl nofun
      | found => exact Option.some.inj h ▸ .goes n request _ _ hcall rfl rfl nofun
      | positioned p => exact Option.some.inj h ▸ .goes n request _ _ hcall rfl rfl nofun
      -- Only a call that has inserted its row has something to roll back
      | inserted row => exact Option.some.inj h ▸ .rollsBack n request row hcall
      | returned row => exact nomatch h
      | raised error => exact nomatch h

/-! ## What a step keeps -/

section Kept

variable {s : Appends} {n : Nat} {request : AppendRequest} {stage stage' : AppendStage}

/-- `become` changes the stage of one call. -/
theorem getElem?_become (hcall : s.calls[n]? = some ⟨request, stage⟩) (m : Nat) :
    (s.become n request stage').calls[m]? =
      if n = m then some ⟨request, stage'⟩ else s.calls[m]? := by
  obtain ⟨hlt, -⟩ := List.getElem?_eq_some_iff.1 hcall
  by_cases hm : n = m
  · subst hm
    simp [Appends.become, hlt]
  · simp [Appends.become, hm]

variable (stage') in
/-- `become` exchanges the open row of one call for that of its next stage. -/
theorem openRows_become (hcall : s.calls[n]? = some ⟨request, stage⟩) :
    ((s.become n request stage').openRows ++ (AppendCall.open? ⟨request, stage⟩).toList).Perm
      (s.openRows ++ (AppendCall.open? ⟨request, stage'⟩).toList) :=
  filterMap_set_perm AppendCall.open? hcall ⟨request, stage'⟩

/-- A call without a row has none open. -/
theorem AppendStage.open?_eq_none (h : AppendStage.hasRow stage = false) :
    AppendCall.open? ⟨request, stage⟩ = none := by
  cases stage <;> first | rfl | exact nomatch h

variable (stage') in
/-- A call that did not commit may move on as far as the commits go. -/
theorem Kept.committed_become (h : Kept s) (hcall : s.calls[n]? = some ⟨request, stage⟩)
    (hstage : ∀ row, stage ≠ .returned row) : n ∉ s.commits ∧
      s.rows = s.commits.filterMap fun m =>
        (s.become n request stage').calls[m]?.bind AppendCall.returned? := by
  have hn : n ∉ s.commits := by
    intro hmem
    obtain ⟨request', row, hcall'⟩ := (h.returned n).1 hmem
    rw [hcall] at hcall'
    simp only [Option.some.injEq, AppendCall.mk.injEq] at hcall'
    exact hstage row hcall'.2
  refine ⟨hn, h.committed.trans (List.filterMap_congr fun m hm => ?_)⟩
  have hne : n ≠ m := fun heq => hn (heq ▸ hm)
  rw [getElem?_become hcall, if_neg hne]

/-- In dense rows the next position is their number. -/
theorem nextPositionOf_eq {rows : List MessageRow} (h : Dense rows) (c : Uuid) :
    nextPositionOf c rows = (rowsOf c rows).length := by
  rw [nextPositionOf, h c]
  cases (rowsOf c rows).length with
  | zero => rfl
  | succ k =>
    have hmax : (List.range (k + 1)).max? = some k := by
      rw [List.max?_eq_some_iff]
      exact ⟨by simp, fun b hb => by simpa [Nat.lt_succ_iff] using hb⟩
    rw [hmax]

/-- `Kept` is kept when a call goes on without a row. -/
theorem Kept.goes (h : Kept s) (hcall : s.calls[n]? = some ⟨request, stage⟩)
    (hold : AppendStage.hasRow stage = false) (hnew : AppendStage.hasRow stage' = false)
    (hp : ∀ p, stage' = .positioned p → p = nextPositionOf request.conversationId s.rows) :
    Kept (s.become n request stage') := by
  -- No row is opened or closed
  have hperm : (s.become n request stage').openRows.Perm s.openRows := by
    simpa [AppendStage.open?_eq_none, hold, hnew] using
      openRows_become stage' hcall
  obtain ⟨hn, hcommitted⟩ := h.committed_become stage' hcall
    (fun row heq => by rw [heq] at hold; exact nomatch hold)
  refine {
    dense := h.dense, once := h.once, committed := hcommitted
    ids := ((hperm.append_left s.rows).map (·.id)).nodup_iff.2 h.ids
    opened := fun row hrow => h.opened row (hperm.mem_iff.1 hrow)
    apart := (hperm.map MessageRow.key).nodup_iff.2 h.apart
    chosen := ?_, asked := ?_, returned := ?_ }
  · intro m request' p hm
    rw [getElem?_become hcall] at hm
    split at hm
    · simp only [Option.some.injEq, AppendCall.mk.injEq] at hm
      obtain ⟨rfl, hstage⟩ := hm
      exact (hp p hstage).trans (nextPositionOf_eq h.dense _) |>.le
    · exact h.chosen m request' p hm
  · intro m request' row hm
    -- The moving call has no row, and the others keep theirs
    rw [getElem?_become hcall] at hm
    split at hm
    · simp only [Option.some.injEq, AppendCall.mk.injEq] at hm
      rw [hm.2] at hnew
      exact nomatch hnew
    · exact h.asked m request' row hm
  · intro m
    rw [getElem?_become hcall]
    split
    · next heq =>
      subst heq
      refine ⟨fun hmem => absurd hmem hn, ?_⟩
      rintro ⟨request', row, hm⟩
      simp only [Option.some.injEq, AppendCall.mk.injEq] at hm
      rw [hm.2] at hnew
      exact nomatch hnew
    · exact h.returned m

/-- A position that is not taken is the next one, or past it. -/
theorem Dense.length_le {rows : List MessageRow} (h : Dense rows) {row : MessageRow}
    (hfree : ∀ other ∈ rows, other.key ≠ row.key) :
    (rowsOf row.message.conversationId rows).length ≤ row.message.position := by
  by_contra hlt
  have hmem : row.message.position ∈
      (rowsOf row.message.conversationId rows).map (·.message.position) := by
    rw [h, List.mem_range]
    omega
  obtain ⟨other, hother, hposition⟩ := List.mem_map.1 hmem
  obtain ⟨hrows, hconversation⟩ := List.mem_filter.1 hother
  refine hfree other hrows ?_
  rw [MessageRow.key, MessageRow.key, hposition, of_decide_eq_true hconversation]

/-- The calls that returned are those they were, if the one that moves does not return. -/
theorem Kept.returned_become (h : Kept s) (hcall : s.calls[n]? = some ⟨request, stage⟩)
    (hn : n ∉ s.commits) (hnew : ∀ row, stage' ≠ .returned row) (m : Nat) :
    m ∈ s.commits ↔ ∃ request' row,
      (s.become n request stage').calls[m]? = some ⟨request', .returned row⟩ := by
  rw [getElem?_become hcall]
  split
  · next heq =>
    subst heq
    refine ⟨fun hmem => absurd hmem hn, ?_⟩
    rintro ⟨request', row, hm⟩
    simp only [Option.some.injEq, AppendCall.mk.injEq] at hm
    exact absurd hm.2 (hnew row)
  · exact h.returned m

/-- `Kept` holds after an `INSERT` at the next position. -/
theorem Kept.inserts (h : Kept s) {p : Nat} {row : MessageRow}
    (hcall : s.calls[n]? = some ⟨request, .positioned p⟩)
    (hconversation : row.message.conversationId = request.conversationId)
    (hposition : row.message.position = p)
    (hid : ∀ other ∈ s.rows ++ s.openRows, other.id ≠ row.id)
    (hkey : ∀ other ∈ s.rows ++ s.openRows, other.key ≠ row.key) :
    Kept (s.become n request (.inserted row)) := by
  have hperm : (s.become n request (.inserted row)).openRows.Perm (s.openRows ++ [row]) := by
    simpa [AppendCall.open?] using openRows_become (.inserted row) hcall
  obtain ⟨hn, hcommitted⟩ := h.committed_become (.inserted row) hcall nofun
  -- It was not past the next position when it was read, and nobody has taken it since
  have hnext : row.message.position = (rowsOf row.message.conversationId s.rows).length := by
    have hle := h.chosen n request p hcall
    have hge := h.dense.length_le fun other hother => hkey other (List.mem_append_left _ hother)
    rw [hconversation] at hge ⊢
    omega
  refine {
    dense := h.dense, once := h.once, committed := hcommitted
    returned := h.returned_become hcall hn nofun
    ids := ?_, chosen := ?_, opened := ?_, apart := ?_, asked := ?_ }
  · have hids : ((s.rows ++ (s.openRows ++ [row])).map (·.id)).Nodup := by
      rw [← List.append_assoc, List.map_append, List.nodup_append]
      refine ⟨h.ids, by simp, ?_⟩
      intro a ha b hb
      obtain ⟨other, hother, rfl⟩ := List.mem_map.1 ha
      rw [List.map_cons, List.map_nil, List.mem_singleton] at hb
      exact hb ▸ hid other hother
    exact ((hperm.append_left s.rows).map (·.id)).nodup_iff.2 hids
  · intro m request' p' hm
    rw [getElem?_become hcall] at hm
    split at hm
    · simp at hm
    · exact h.chosen m request' p' hm
  · intro other hother
    rcases List.mem_append.1 (hperm.mem_iff.1 hother) with hother | hother
    · exact h.opened other hother
    · rw [List.mem_singleton] at hother
      exact hother ▸ hnext
  · have hkeys : ((s.openRows ++ [row]).map MessageRow.key).Nodup := by
      rw [List.map_append, List.nodup_append]
      refine ⟨h.apart, by simp, ?_⟩
      intro a ha b hb
      obtain ⟨other, hother, rfl⟩ := List.mem_map.1 ha
      rw [List.map_cons, List.map_nil, List.mem_singleton] at hb
      exact hb ▸ hkey other (List.mem_append_right _ hother)
    exact (hperm.map MessageRow.key).nodup_iff.2 hkeys
  · intro m request' row' hm
    rw [getElem?_become hcall] at hm
    split at hm
    · simp only [Option.some.injEq, AppendCall.mk.injEq, AppendStage.inserted.injEq] at hm
      obtain ⟨rfl, rfl⟩ := hm
      exact hconversation
    · exact h.asked m request' row' hm

variable (stage') in
/-- `become` takes out the open row of a call whose transaction ends. -/
theorem openRows_close {row : MessageRow} (hcall : s.calls[n]? = some ⟨request, .inserted row⟩)
    (hnew : AppendCall.open? ⟨request, stage'⟩ = none) :
    ((s.become n request stage').openRows ++ [row]).Perm s.openRows := by
  have hperm := openRows_become stage' hcall
  rw [hnew] at hperm
  simpa [AppendCall.open?] using hperm

/-- `Kept` holds after a rollback. -/
theorem Kept.rollsBack (h : Kept s) {row : MessageRow}
    (hcall : s.calls[n]? = some ⟨request, .inserted row⟩) :
    Kept (s.become n request (.raised .sqlalchemy)) := by
  have hperm := openRows_close (.raised .sqlalchemy) hcall rfl
  have hsub : ∀ other ∈ (s.become n request (.raised .sqlalchemy)).openRows,
      other ∈ s.openRows := fun other hother => hperm.mem_iff.1 (List.mem_append_left _ hother)
  obtain ⟨hn, hcommitted⟩ := h.committed_become (.raised .sqlalchemy) hcall nofun
  refine {
    dense := h.dense, once := h.once, committed := hcommitted
    returned := h.returned_become hcall hn nofun
    opened := fun other hother => h.opened other (hsub other hother)
    ids := ?_, chosen := ?_, apart := ?_, asked := ?_ }
  · have hids := ((hperm.append_left s.rows).map (·.id)).nodup_iff.2 h.ids
    rw [← List.append_assoc, List.map_append] at hids
    exact (List.nodup_append.1 hids).1
  · intro m request' p hm
    rw [getElem?_become hcall] at hm
    split at hm
    · simp at hm
    · exact h.chosen m request' p hm
  · have hkeys := (hperm.map MessageRow.key).nodup_iff.2 h.apart
    rw [List.map_append] at hkeys
    exact (List.nodup_append.1 hkeys).1
  · intro m request' row' hm
    rw [getElem?_become hcall] at hm
    split at hm
    · simp at hm
    · exact h.asked m request' row' hm

/-- A row belongs to its own conversation. -/
theorem rowsOf_append (c : Uuid) (rows : List MessageRow) (row : MessageRow) :
    rowsOf c (rows ++ [row]) =
      if row.message.conversationId = c then rowsOf c rows ++ [row] else rowsOf c rows := by
  by_cases hc : row.message.conversationId = c <;> simp [rowsOf, hc]

/-- A row at the next position leaves the rows dense. -/
theorem Dense.append {rows : List MessageRow} (h : Dense rows) {row : MessageRow}
    (hnext : row.message.position = (rowsOf row.message.conversationId rows).length) :
    Dense (rows ++ [row]) := by
  intro c
  rw [rowsOf_append]
  by_cases hc : row.message.conversationId = c
  · subst hc
    simp [h row.message.conversationId, hnext, List.range_succ]
  · rw [if_neg hc]
    exact h c

/-- `Kept` is kept by a `COMMIT`. -/
theorem Kept.commits (h : Kept s) {row : MessageRow}
    (hcall : s.calls[n]? = some ⟨request, .inserted row⟩) :
    Kept { s.become n request (.returned row) with
      rows := s.rows ++ [row], commits := s.commits ++ [n] } := by
  have hperm := openRows_close (.returned row) hcall rfl
  have hrow : row ∈ s.openRows := hperm.mem_iff.1 (by simp)
  have hsub : ∀ other ∈ (s.become n request (.returned row)).openRows, other ∈ s.openRows :=
    fun other hother => hperm.mem_iff.1 (List.mem_append_left _ hother)
  have hkeys := (hperm.map MessageRow.key).nodup_iff.2 h.apart
  obtain ⟨hn, hcommitted⟩ := h.committed_become (.returned row) hcall nofun
  -- The next position of a conversation only goes up
  have hrowsOf : ∀ c, (rowsOf c s.rows).length ≤ (rowsOf c (s.rows ++ [row])).length := by
    intro c
    rw [rowsOf_append]
    split <;> simp
  refine {
    dense := h.dense.append (h.opened row hrow)
    ids := ?_, chosen := ?_, opened := ?_, apart := ?_, asked := ?_, committed := ?_
    once := ?_, returned := ?_ }
  · show ((s.rows ++ [row] ++ (s.become n request (.returned row)).openRows).map (·.id)).Nodup
    rw [List.append_assoc]
    have hmoved := (List.perm_append_comm.trans hperm).append_left s.rows
    exact (hmoved.map (·.id)).nodup_iff.2 h.ids
  · intro m request' p hm
    have hm' : (s.become n request (.returned row)).calls[m]? = _ := hm
    rw [getElem?_become hcall] at hm'
    split at hm'
    · simp at hm'
    · exact (h.chosen m request' p hm').trans (hrowsOf _)
  · intro other hother
    have hother' := h.opened other (hsub other hother)
    show other.message.position = (rowsOf other.message.conversationId (s.rows ++ [row])).length
    -- The rows still open belong to other conversations
    have hne : row.message.conversationId ≠ other.message.conversationId := by
      -- Two open rows of one conversation would have one position
      intro heq
      have hposition := h.opened row hrow
      rw [heq, ← hother'] at hposition
      have hkey : row.key = other.key := by rw [MessageRow.key, MessageRow.key, heq, hposition]
      rw [List.map_append, List.nodup_append] at hkeys
      exact hkeys.2.2 other.key (List.mem_map_of_mem hother) row.key (by simp) hkey.symm
    rw [rowsOf_append, if_neg hne]
    exact hother'
  · rw [List.map_append] at hkeys
    exact (List.nodup_append.1 hkeys).1
  · intro m request' row' hm
    have hm' : (s.become n request (.returned row)).calls[m]? = _ := hm
    rw [getElem?_become hcall] at hm'
    split at hm'
    · simp at hm'
    · exact h.asked m request' row' hm'
  · show s.rows ++ [row] = (s.commits ++ [n]).filterMap fun m =>
      (s.become n request (.returned row)).calls[m]?.bind AppendCall.returned?
    rw [List.filterMap_append, ← hcommitted]
    simp [getElem?_become hcall, AppendCall.returned?]
  · rw [List.nodup_append]
    refine ⟨h.once, by simp, ?_⟩
    intro m hm k hk heq
    rw [List.mem_singleton] at hk
    exact hn (hk ▸ heq ▸ hm)
  · intro m
    show m ∈ s.commits ++ [n] ↔ ∃ request' row',
      (s.become n request (.returned row)).calls[m]? = some ⟨request', .returned row'⟩
    rw [getElem?_become hcall, List.mem_append, List.mem_singleton]
    by_cases hm : n = m
    · simp [hm]
    · simp only [hm, Ne.symm hm, if_false, or_false]
      exact h.returned m

/-- `Kept` holds after a call begins. -/
theorem Kept.append (h : Kept s) (request : AppendRequest) :
    Kept { s with calls := s.calls ++ [{ request, stage := .begun }] } := by
  -- A call that has just begun has no row
  have hopen : Appends.openRows { s with calls := s.calls ++ [{ request, stage := .begun }] } =
      s.openRows := by
    simp [Appends.openRows, AppendCall.open?]
  have hreturned : ∀ m, m ∈ s.commits →
      (s.calls ++ [{ request, stage := .begun }])[m]? = s.calls[m]? := by
    intro m hm
    obtain ⟨request', row, hcall⟩ := (h.returned m).1 hm
    exact List.getElem?_append_left (List.getElem?_eq_some_iff.1 hcall).1
  refine {
    dense := h.dense, once := h.once
    ids := hopen ▸ h.ids
    opened := fun row hrow => h.opened row (hopen ▸ hrow)
    apart := hopen ▸ h.apart
    chosen := ?_, asked := ?_, committed := ?_, returned := ?_ }
  · intro m request' p hm
    rcases List.getElem?_append_singleton_cases hm with hm | heq
    · exact h.chosen m request' p hm
    · exact nomatch heq
  · intro m request' row hm
    rcases List.getElem?_append_singleton_cases hm with hm | heq
    · exact h.asked m request' row hm
    · exact nomatch heq
  · exact h.committed.trans (List.filterMap_congr fun m hm => by
      rw [← hreturned m hm])
  · intro m
    constructor
    · intro hm
      obtain ⟨request', row, hcall⟩ := (h.returned m).1 hm
      exact ⟨request', row, (hreturned m hm).trans hcall⟩
    · rintro ⟨request', row, hm⟩
      rcases List.getElem?_append_singleton_cases hm with hm | heq
      · exact (h.returned m).2 ⟨request', row, hm⟩
      · exact nomatch heq

/-- `Kept` holds after every move. -/
theorem Kept.moves {s' : Appends} (h : Kept s) (hmoves : Moves s s') : Kept s' := by
  cases hmoves with
  | create conversation => exact { h with }
  | append request => exact h.append request
  | goes n request stage stage' hcall hold hnew hp => exact h.goes hcall hold hnew hp
  | inserts n request p row hcall hconversation hposition hid hkey =>
    exact h.inserts hcall hconversation hposition hid hkey
  | rollsBack n request row hcall => exact h.rollsBack hcall
  | commits n request row hcall => exact h.commits hcall

end Kept

/-- `Kept` holds in every reachable state. -/
theorem kept_of_reachable {s : Appends} (h : appends.Reachable s) : Kept s := by
  refine Machine.ReachableVia.invariant ?_ ?_ h
  · refine {
      dense := fun c => rfl, ids := List.nodup_nil, chosen := ?_, opened := ?_
      apart := List.nodup_nil, asked := ?_, committed := rfl, once := List.nodup_nil
      returned := ?_ }
    · intro n request p hn
      exact nomatch hn
    · intro row hrow
      exact nomatch hrow
    · intro n request row hn
      exact nomatch hn
    · intro n
      simp [appends]
  · intro s e s' hs _ hstep
    exact hs.moves (step_moves hstep)

/-! ## Reading back -/

section History

variable {rows : List MessageRow}

/-- Dense rows are in order. -/
theorem Dense.pairwise (h : Dense rows) (c : Uuid) :
    (rowsOf c rows).Pairwise fun a b => a.message.position < b.message.position := by
  have hrange := List.pairwise_lt_range (n := (rowsOf c rows).length)
  rw [← h c] at hrange
  exact List.pairwise_map.1 hrange

/-- The rows of a conversation, sorted by their positions, are as they are stored. -/
theorem Dense.ascending (h : Dense rows) (c : Uuid) {part : List MessageRow}
    (hsub : part.Sublist (rowsOf c rows)) :
    (part.insertionSort fun a b => a.message.position ≤ b.message.position) = part :=
  List.Pairwise.insertionSort_eq (((h.pairwise c).sublist hsub).imp Nat.le_of_lt)

/-- The rows of a conversation, sorted the other way, are stored in reverse. -/
theorem Dense.descending (h : Dense rows) (c : Uuid) :
    ((rowsOf c rows).insertionSort fun a b => b.message.position ≤ a.message.position) =
      (rowsOf c rows).reverse := by
  have htotal : Std.Total fun a b : MessageRow => b.message.position ≤ a.message.position :=
    ⟨fun a b => Nat.le_total _ _⟩
  have htrans : IsTrans MessageRow fun a b => b.message.position ≤ a.message.position :=
    ⟨fun a b c hab hbc => Nat.le_trans hbc hab⟩
  have hsorted := List.pairwise_insertionSort
    (fun a b : MessageRow => b.message.position ≤ a.message.position) (rowsOf c rows)
  have hreverse : (rowsOf c rows).reverse.Pairwise
      fun a b => b.message.position ≤ a.message.position :=
    List.pairwise_reverse.2 ((h.pairwise c).imp Nat.le_of_lt)
  have hnodup : ((rowsOf c rows).map (·.message.position)).Nodup := h c ▸ List.nodup_range
  refine List.Perm.eq_of_pairwise ?_ hsorted hreverse
    ((List.perm_insertionSort _ _).trans (List.reverse_perm _).symm)
  intro a b ha hb hab hba
  have ha' : a ∈ rowsOf c rows := (List.mem_insertionSort _).1 ha
  exact List.inj_on_of_nodup_map hnodup ha' (List.mem_reverse.1 hb) (Nat.le_antisymm hba hab)

/-- Picking elements by the keys of a list's end gives that end, where no key is there twice. -/
theorem filter_mem_map_eq {α β : Type} [DecidableEq β] (f : α → β) {front back : List α}
    (h : ((front ++ back).map f).Nodup) {keys : List β} (hkeys : ∀ k, k ∈ keys ↔ k ∈ back.map f) :
    (front ++ back).filter (fun a => f a ∈ keys) = back := by
  rw [List.map_append, List.nodup_append] at h
  have hfront : front.filter (fun a => f a ∈ keys) = [] := by
    rw [List.filter_eq_nil_iff]
    intro a ha
    simp only [hkeys, decide_eq_true_eq]
    exact fun hmem => h.2.2 (f a) (List.mem_map_of_mem ha) (f a) hmem rfl
  have hback : back.filter (fun a => f a ∈ keys) = back := by
    rw [List.filter_eq_self]
    intro a ha
    simp only [hkeys, decide_eq_true_eq]
    exact List.mem_map_of_mem ha
  rw [List.filter_append, hfront, hback, List.nil_append]

/-- `historyOf` with a limit gives the last turns of the history. -/
theorem Dense.history_some (h : Dense rows) (hids : (rows.map (·.id)).Nodup) (c : Uuid)
    (limit : Nat) : historyOf c (some limit) rows =
      (historyOf c none rows).drop ((historyOf c none rows).length - limit) := by
  have hall : historyOf c none rows = rowsOf c rows := h.ascending c (List.Sublist.refl _)
  rw [hall]
  have hsplit : (rowsOf c rows).take ((rowsOf c rows).length - limit) ++
      (rowsOf c rows).drop ((rowsOf c rows).length - limit) = rowsOf c rows :=
    List.take_append_drop _ _
  have hsub : ((rowsOf c rows).map (·.id)).Nodup :=
    hids.sublist (List.filter_sublist.map _)
  generalize hrecent : (((rowsOf c rows).insertionSort fun a b =>
    b.message.position ≤ a.message.position).take limit).map (·.id) = recent
  have hkeys : ∀ id, id ∈ recent ↔
      id ∈ ((rowsOf c rows).drop ((rowsOf c rows).length - limit)).map (·.id) := by
    intro id
    rw [← hrecent, h.descending c, List.take_reverse, List.map_reverse, List.mem_reverse]
  -- The ids are looked for in the whole table, but are of this conversation
  have hpicked : (rows.filter fun row => row.id ∈ recent) =
      (rowsOf c rows).filter fun row => row.id ∈ recent := by
    rw [rowsOf, List.filter_filter]
    refine List.filter_congr fun row hrow => ?_
    by_cases hmem : row.id ∈ recent
    · obtain ⟨other, hother, hid⟩ := List.mem_map.1 ((hkeys _).1 hmem)
      obtain ⟨hother', hc⟩ := List.mem_filter.1 (List.mem_of_mem_drop hother)
      obtain rfl : other = row := List.inj_on_of_nodup_map hids hother' hrow hid
      simp [hmem, of_decide_eq_true hc]
    · simp [hmem]
  simp only [historyOf, hrecent]
  rw [hpicked, ← hsplit, filter_mem_map_eq _ (hsplit.symm ▸ hsub) hkeys]
  rw [hsplit]
  exact h.ascending c (List.drop_sublist _ _)

end History

/-! ## Every interleaving -/

/-- What is committed, in any state. -/
structure Ordered (s : Appends) : Prop where
  /-- The positions of a conversation, in the order its rows were committed. -/
  dense : ∀ c, (rowsOf c s.rows).map (·.message.position) =
    List.range (rowsOf c s.rows).length
  recent : ∀ c limit, historyOf c (some limit) s.rows =
    (historyOf c none s.rows).drop ((historyOf c none s.rows).length - limit)
  /-- There is one row for each append that returned, and none for one that did not. -/
  rows : s.rows = s.commits.filterMap fun n => s.calls[n]?.bind AppendCall.returned?
  once : s.commits.Nodup
  returned : ∀ n, n ∈ s.commits ↔ ∃ request row, s.calls[n]? = some ⟨request, .returned row⟩

/-- What a step does to what is committed. -/
structure Undisturbed (s s' : Appends) : Prop where
  /-- An append that loses leaves every row as it is, and no row of its own. -/
  raised : ∀ (n : Nat) request error, s'.calls[n]? = some ⟨request, .raised error⟩ →
    s.calls[n]? = s'.calls[n]? ∨ s'.rows = s.rows ∧ s'.commits = s.commits
  /-- A conversation gets a row only by an append to it, which returns. -/
  appended : ∀ c, rowsOf c s'.rows = rowsOf c s.rows ∨
    ∃ (n : Nat) (request : AppendRequest) (row : MessageRow), request.conversationId = c ∧
      s'.calls[n]? = some ⟨request, .returned row⟩ ∧
      rowsOf c s'.rows = rowsOf c s.rows ++ [row]

/-- Where `Kept` holds, messages are ordered. -/
theorem Kept.ordered {s : Appends} (h : Kept s) : Ordered s where
  dense := h.dense
  recent c limit := by
    have hids := h.ids
    rw [List.map_append, List.nodup_append] at hids
    exact h.dense.history_some hids.1 c limit
  rows := h.committed
  once := h.once
  returned := h.returned

/-- No move disturbs what is committed. -/
theorem Kept.undisturbed {s s' : Appends} (h : Kept s) (hmoves : Moves s s') :
    Undisturbed s s' := by
  cases hmoves with
  | create conversation => exact ⟨fun _ _ _ _ => .inl rfl, fun _ => .inl rfl⟩
  | append request => exact ⟨fun _ _ _ _ => .inr ⟨rfl, rfl⟩, fun _ => .inl rfl⟩
  | goes n request stage stage' => exact ⟨fun _ _ _ _ => .inr ⟨rfl, rfl⟩, fun _ => .inl rfl⟩
  | inserts n request p row => exact ⟨fun _ _ _ _ => .inr ⟨rfl, rfl⟩, fun _ => .inl rfl⟩
  | rollsBack n request row => exact ⟨fun _ _ _ _ => .inr ⟨rfl, rfl⟩, fun _ => .inl rfl⟩
  | commits n request row hcall =>
    refine ⟨?_, ?_⟩
    · intro m request' error hm
      have hm' : (s.become n request (.returned row)).calls[m]? = _ := hm
      rw [getElem?_become hcall] at hm'
      split at hm'
      · simp at hm'
      · exact .inl (hm'.trans hm.symm)
    · intro c
      have hc := h.asked n request row hcall
      by_cases heq : request.conversationId = c
      · refine .inr ⟨n, request, row, heq, ?_, ?_⟩
        · exact (getElem?_become hcall n).trans (if_pos rfl)
        · exact (rowsOf_append c s.rows row).trans (if_pos (hc.trans heq))
      · exact .inl ((rowsOf_append c s.rows row).trans (if_neg (hc ▸ heq)))

/-- However appends interleave, the positions of a conversation are `0` to `n - 1` in the
    order of the commits, an append that loses changes nothing, and the most recent turns
    are the last of all. -/
theorem positions_dense : ∀ s, appends.Reachable s → Ordered s ∧
    ∀ e s', appends.step s e = some s' → Undisturbed s s' := by
  intro s h
  have hs := kept_of_reachable h
  exact ⟨hs.ordered, fun e s' hstep => hs.undisturbed (step_moves hstep)⟩

private def raceId : Uuid := .repeated 0

private def raceAppend : AppendRequest where
  conversationId := raceId
  role := .customer
  content := lit "hello"
  citations := []
  scope := none

/-- Both read position 0, one commits it, and the other inserts it too. -/
private def race : List AppendEvent :=
  [.create { id := raceId, customerId := raceId, ownerSubject := none, createdAt := 0 },
    .append raceAppend, .append raceAppend,
    .advance 0 raceId 0, .advance 0 raceId 0, .advance 1 raceId 0, .advance 1 raceId 0,
    .advance 0 raceId 0, .advance 0 raceId 0,
    .advance 1 (.repeated 1) 0]

/-- Two calls take one position, and the second raises. -/
private theorem race_runs : ∃ s, appends.run race = some s ∧ s.rows.length = 1 ∧
    s.calls[1]? = some ⟨raceAppend, .raised .sqlalchemy⟩ :=
  ⟨_, rfl, rfl, rfl⟩

/-- The race, and what it leaves. -/
theorem positions_dense_race : ∃ s, appends.run race = some s ∧ s.rows.length = 1 ∧
    s.calls[1]? = some ⟨raceAppend, .raised .sqlalchemy⟩ ∧ Ordered s := by
  obtain ⟨s, hrun, hrows, hcall⟩ := race_runs
  exact ⟨s, hrun, hrows, hcall, (positions_dense s (Machine.reachable_of_run race hrun)).1⟩

end NexaAssist.Spec.ConversationPositions
