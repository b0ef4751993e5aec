import Mathlib.Data.Finset.Card
import Mathlib.Data.List.Sort

/-!
# Reading a list in pages while it grows

A reader takes the pages of a list one after another, by their offsets, and between two of
them the list may gain elements anywhere. Nothing that was there at the first page is passed
over, and elements are read again at most as often as elements were gained.
-/

namespace List

variable {α : Type} {r : α → α → Prop} [DecidableRel r]

/-- Sorting keeps what a list gains apart from what it had. -/
theorem Sublist.insertionSort [IsTrans α r] [Std.Total r] {rows grown : List α}
    (h : rows <+ grown) : rows.insertionSort r <+ grown.insertionSort r := by
  induction h with
  | slnil => exact .slnil
  | cons x _ ih => exact ih.trans (sublist_orderedInsert x _)
  | cons_cons x _ ih => exact Sublist.orderedInsert_sublist x ih (pairwise_insertionSort r _)

/-- A page shows none of the rows that are not on it. -/
theorem countP_append_of_disjoint [DecidableEq α] {shown page rest : List α}
    (h : Disjoint page rest) :
    rest.countP (· ∈ shown ++ page) = rest.countP (· ∈ shown) := by
  apply countP_congr
  intro x hx
  have hpage : x ∉ page := fun hmem => h hmem hx
  simp [hpage]

/-- What is new in a list without repetitions adds to what there is. -/
theorem card_toFinset_append [DecidableEq α] (shown : List α) {page : List α} (h : page.Nodup) :
    (shown ++ page).toFinset.card + page.countP (· ∈ shown) =
      shown.toFinset.card + page.length := by
  have hnew : (shown ++ page).toFinset = shown.toFinset ∪ (page.filter (· ∉ shown)).toFinset := by
    ext x
    simp only [mem_toFinset, mem_append, Finset.mem_union, mem_filter, decide_eq_true_eq]
    tauto
  have hlength := length_eq_countP_add_countP (l := page) (p := fun x => decide (x ∈ shown))
  have hrest : page.countP (fun x => !decide (x ∈ shown)) =
      page.countP fun x => decide ¬decide (x ∈ shown) = true := by
    congr 1
    funext x
    simp
  rw [hnew, Finset.card_union_of_disjoint, toFinset_card_of_nodup (h.filter _),
    ← countP_eq_length_filter]
  · simp only [decide_not] at hlength hrest ⊢
    omega
  · rw [Finset.disjoint_left]
    intro x hshown hpage
    simp only [mem_toFinset, mem_filter, decide_eq_true_eq] at hshown hpage
    exact hpage.2 hshown

end List

/-- A reader of a list in pages. -/
structure Pager (α : Type) where
  rows : List α
  offset : Nat
  shown : List α
  /-- How many elements the list has gained. -/
  gained : Nat
  /-- Whether a page was not full, and the reader stopped. -/
  finished : Bool

namespace Pager

variable {α : Type}

/-- Before the first page. -/
def start (rows : List α) : Pager α where
  rows := rows
  offset := 0
  shown := []
  gained := 0
  finished := false

def page (p : Pager α) (size : Nat) : List α := (p.rows.drop p.offset).take size

/-- Read the next page. -/
def read (p : Pager α) (size : Nat) : Pager α where
  rows := p.rows
  offset := p.offset + size
  shown := p.shown ++ p.page size
  gained := p.gained
  finished := decide ((p.page size).length < size)

/-- The list grows. -/
def grow (p : Pager α) (grown : List α) : Pager α :=
  { p with rows := grown, gained := p.gained + (grown.length - p.rows.length) }

variable [DecidableEq α]

/-- What holds of a reader of a list that had `first` in it at its first page. -/
structure Inv (first : List α) (p : Pager α) : Prop where
  nodup : p.rows.Nodup
  /-- What has not been read is still to come. -/
  covered : ∀ x ∈ first, x ∈ p.shown ∨ x ∈ p.rows.drop p.offset
  complete : p.finished = true → ∀ x ∈ first, x ∈ p.shown
  /-- Elements gained can make elements come again, one each. -/
  again : p.shown.length + (p.rows.drop p.offset).countP (· ∈ p.shown) ≤
    p.shown.toFinset.card + p.gained
  still : p.gained = 0 → p.rows = first ∧ p.shown = first.take p.offset

/-- `Inv` holds at first. -/
theorem inv_start {first : List α} (h : first.Nodup) : Inv first (start first) where
  nodup := h
  covered _ hx := .inr hx
  complete hover := by cases hover
  again := by simp [start]
  still _ := ⟨rfl, rfl⟩

variable {first : List α} {p : Pager α}

/-- `Inv` is kept when a page is read. -/
theorem Inv.read (h : Inv first p) (size : Nat) : Inv first (p.read size) := by
  -- The rows behind the offset are the page and what comes after it, with nothing twice
  have hsplit : p.rows.drop p.offset = p.page size ++ p.rows.drop (p.offset + size) := by
    rw [page, ← List.drop_drop, List.take_append_drop]
  have hnodup : (p.page size ++ p.rows.drop (p.offset + size)).Nodup :=
    hsplit ▸ h.nodup.sublist (List.drop_sublist _ _)
  obtain ⟨hpage, -, hapart⟩ := List.nodup_append'.mp hnodup
  have hcovered : ∀ x ∈ first, x ∈ p.shown ++ p.page size ∨
      x ∈ p.rows.drop (p.offset + size) := by
    intro x hx
    have hbefore := h.covered x hx
    rw [hsplit, List.mem_append] at hbefore
    rw [List.mem_append, or_assoc]
    exact hbefore
  constructor
  case nodup => exact h.nodup
  case covered => exact hcovered
  case complete =>
    intro hover x hx
    have hshort : (p.page size).length < size := of_decide_eq_true hover
    -- A page that is not full is the last one.
    have hend : p.rows.drop (p.offset + size) = [] := by
      rw [page, List.length_take, List.length_drop] at hshort
      exact List.drop_eq_nil_of_le (by omega)
    have hread := hcovered x hx
    rw [hend] at hread
    exact hread.resolve_right List.not_mem_nil
  -- Every row shown again is paid for by one that was gained
  case again =>
    have hagain := h.again
    have hcard := List.card_toFinset_append p.shown hpage
    rw [hsplit, List.countP_append] at hagain
    show (p.shown ++ p.page size).length +
      (p.rows.drop (p.offset + size)).countP (· ∈ p.shown ++ p.page size) ≤
        (p.shown ++ p.page size).toFinset.card + p.gained
    rw [List.countP_append_of_disjoint hapart, List.length_append]
    omega
  -- Without new rows the pages are consecutive parts of the first list
  case still =>
    intro hgained
    obtain ⟨hrows, hshown⟩ := h.still hgained
    refine ⟨hrows, ?_⟩
    show p.shown ++ p.page size = first.take (p.offset + size)
    rw [hshown, page, hrows, List.take_add]

/-- `Inv` is kept when the rows grow. -/
theorem Inv.grow (h : Inv first p) {grown : List α} (hgrown : p.rows.Sublist grown)
    (hnodup : grown.Nodup) : Inv first (p.grow grown) := by
  have hdrop : (p.rows.drop p.offset).Sublist (grown.drop p.offset) := hgrown.drop p.offset
  have hle := hgrown.length_le
  constructor
  case nodup => exact hnodup
  case covered => exact fun x hx => (h.covered x hx).imp_right fun hmem => hdrop.mem hmem
  case complete => exact h.complete
  case again =>
    have hagain := h.again
    have hcount := hdrop.le_countP (p := fun x => decide (x ∈ p.shown))
    rw [List.length_drop, List.length_drop] at hcount
    show p.shown.length + (grown.drop p.offset).countP (· ∈ p.shown) ≤
      p.shown.toFinset.card + (p.gained + (grown.length - p.rows.length))
    omega
  case still =>
    intro hgained
    have hparts : p.gained = 0 ∧ grown.length - p.rows.length = 0 := Nat.add_eq_zero_iff.mp hgained
    obtain ⟨hrows, hshown⟩ := h.still hparts.1
    exact ⟨(hgrown.eq_of_length (by omega)).symm.trans hrows, hshown⟩

end Pager
