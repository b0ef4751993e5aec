import Mathlib.Algebra.BigOperators.Group.List.Basic
import Mathlib.Algebra.Ring.Int.Defs
import Mathlib.Data.List.Basic

/-!
# Counting the elements of a list by boxes

The elements with a property, where each falls into one of some boxes, and what the numbers in
the boxes add up to.
-/

namespace List

variable {α β : Type}

/-- What has `p` has `q` with it, or has not. -/
theorem countP_split (p q : α → Bool) (l : List α) :
    l.countP p = l.countP (fun x => p x && q x) + l.countP fun x => p x && !q x := by
  induction l with
  | nil => rfl
  | cons x l ih =>
    rw [countP_cons, countP_cons, countP_cons, ih]
    cases p x <;> cases q x <;> simp <;> omega

/-- Where every element with `p` falls into one of some boxes, and no more than `most` of them
    fall into any one, there are no more than that for every box. -/
theorem countP_le_length_mul [DecidableEq β] (f : α → β) {most : Nat} (boxes : List β)
    (p : α → Bool) {l : List α} (hfalls : ∀ x ∈ l, p x = true → f x ∈ boxes)
    (hmost : ∀ b ∈ boxes, l.countP (fun x => p x && decide (f x = b)) ≤ most) :
    l.countP p ≤ boxes.length * most := by
  induction boxes generalizing p with
  | nil =>
    have hnone : l.countP p = 0 :=
      countP_eq_zero.mpr fun x hx hp => absurd (hfalls x hx hp) not_mem_nil
    omega
  | cons b boxes ih =>
    have hbox := hmost b mem_cons_self
    have hrest : l.countP (fun x => p x && !decide (f x = b)) ≤ boxes.length * most := by
      apply ih
      · intro x hx hp
        simp only [Bool.and_eq_true, Bool.not_eq_true', decide_eq_false_iff_not] at hp
        exact (mem_cons.mp (hfalls x hx hp.1)).resolve_left hp.2
      · intro other hother
        refine Nat.le_trans (countP_mono_left ?_) (hmost other (mem_cons_of_mem b hother))
        intro x _ hp
        simp only [Bool.and_eq_true] at hp ⊢
        exact ⟨hp.1.1, hp.2⟩
    rw [countP_split p (fun x => decide (f x = b)) l, length_cons, Nat.add_mul, Nat.one_mul]
    omega

/-! ## Sums -/

/-- A sum is that of the items with `p` and that of the others. -/
theorem sum_map_filter_add (p : α → Bool) (g : α → Int) (l : List α) :
    ((l.filter p).map g).sum + ((l.filter fun x => !p x).map g).sum = (l.map g).sum := by
  induction l with
  | nil => rfl
  | cons x l ih =>
    simp only [filter_cons]
    cases p x <;> simp [← ih] <;> omega

/-- Where every element falls into one of some boxes, the sums of the boxes add up to the sum of
    all. -/
theorem sum_map_sum_filter [DecidableEq β] (f : α → β) (g : α → Int) {boxes : List β}
    (hdistinct : boxes.Nodup) {l : List α} (hfalls : ∀ x ∈ l, f x ∈ boxes) :
    (boxes.map fun b => ((l.filter fun x => f x = b).map g).sum).sum = (l.map g).sum := by
  induction boxes generalizing l with
  | nil =>
    have hnone : l = [] := eq_nil_iff_forall_not_mem.mpr fun x hx => absurd (hfalls x hx) not_mem_nil
    rw [hnone]
    rfl
  | cons b boxes ih =>
    obtain ⟨hnew, hrest⟩ := nodup_cons.mp hdistinct
    have hothers : ∀ other ∈ boxes,
        ((l.filter fun x => f x = other).map g).sum =
          (((l.filter fun x => !decide (f x = b)).filter fun x => f x = other).map g).sum := by
      intro other hother
      have hne : other ≠ b := fun heq => hnew (heq ▸ hother)
      rw [filter_filter]
      congr 2
      apply filter_congr
      intro x _
      by_cases hx : f x = other <;> simp [hx, hne]
    rw [map_cons, sum_cons, map_congr_left hothers, ih hrest,
      sum_map_filter_add (fun x => decide (f x = b))]
    intro x hx
    obtain ⟨hmem, hx⟩ := mem_filter.mp hx
    have hne : f x ≠ b := by simpa using hx
    exact (mem_cons.mp (hfalls x hmem)).resolve_left hne

end List
