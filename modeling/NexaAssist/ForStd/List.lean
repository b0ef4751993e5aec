import Mathlib.Data.List.Forall2
import Mathlib.Data.List.Sort

/-!
# List lemmas for the standard library

Facts about lists that are useful beyond the modules that need them.
-/

namespace List

variable {α β : Type}

/-- Every element on the left has a partner on the right. -/
theorem Forall₂.exists_of_mem_left {R : α → β → Prop} {xs : List α} {ys : List β}
    (h : Forall₂ R xs ys) {x : α} (hx : x ∈ xs) : ∃ y ∈ ys, R x y := by
  induction h with
  | nil => simp at hx
  | @cons a b as bs hab _ ih =>
    rcases mem_cons.mp hx with rfl | hx
    · exact ⟨b, by simp, hab⟩
    · obtain ⟨y, hy, hxy⟩ := ih hx
      exact ⟨y, by simp [hy], hxy⟩

/-- Every element on the right has a partner on the left. -/
theorem Forall₂.exists_of_mem_right {R : α → β → Prop} {xs : List α} {ys : List β}
    (h : Forall₂ R xs ys) {y : β} (hy : y ∈ ys) : ∃ x ∈ xs, R x y :=
  Forall₂.exists_of_mem_left (R := fun b a => R a b) h.flip hy

/-- If every element is related to something, the list is related to a list. -/
theorem exists_forall₂ {R : α → β → Prop} {xs : List α} (h : ∀ x ∈ xs, ∃ y, R x y) :
    ∃ ys, Forall₂ R xs ys := by
  induction xs with
  | nil => exact ⟨[], .nil⟩
  | cons x xs ih =>
    obtain ⟨y, hy⟩ := h x mem_cons_self
    obtain ⟨ys, hys⟩ := ih fun x hx => h x (mem_cons_of_mem _ hx)
    exact ⟨y :: ys, .cons hy hys⟩

/-- Two functions that agree on related elements map related lists to the same list. -/
theorem Forall₂.map_eq {γ : Type} {R : α → β → Prop} {f : α → γ} {g : β → γ} {xs : List α}
    {ys : List β} (h : Forall₂ R xs ys) (hfun : ∀ x y, R x y → g y = f x) :
    ys.map g = xs.map f := by
  induction h with
  | nil => rfl
  | cons hxy _ ih => rw [map_cons, map_cons, hfun _ _ hxy, ih]

/-- Two functions that map related lists to the same list agree on related elements. -/
theorem Forall₂.and_map_eq {γ : Type} {R : α → β → Prop} {f : α → γ} {g : β → γ} {xs : List α}
    {ys : List β} (h : Forall₂ R xs ys) (heq : ys.map g = xs.map f) :
    Forall₂ (fun x y => R x y ∧ g y = f x) xs ys := by
  induction h with
  | nil => exact .nil
  | cons hxy _ ih =>
    rw [map_cons, map_cons, cons.injEq] at heq
    exact .cons ⟨hxy, heq.1⟩ (ih heq.2)

/-- Related lists are related after `filter`, where the predicates agree on related elements. -/
theorem Forall₂.filter {R : α → β → Prop} {p : α → Bool} {q : β → Bool} {xs : List α}
    {ys : List β} (h : Forall₂ R xs ys) (hsame : ∀ x y, R x y → q y = p x) :
    Forall₂ (fun x y => R x y ∧ p x = true) (xs.filter p) (ys.filter q) := by
  induction h with
  | nil => exact .nil
  | @cons x y xs ys hxy _ ih =>
    rw [filter_cons, filter_cons, hsame x y hxy]
    cases hx : p x with
    | false => exact ih
    | true => exact .cons ⟨hxy, hx⟩ ih

/-- `eraseIdx` takes out one occurrence of the element at its index. -/
theorem count_eraseIdx_of_getElem? [DecidableEq α] {xs : List α} {i : Nat} {a : α}
    (h : xs[i]? = some a) : (xs.eraseIdx i).count a + 1 = xs.count a := by
  induction xs generalizing i with
  | nil => simp at h
  | cons x xs ih =>
    cases i with
    | zero =>
      simp only [getElem?_cons_zero, Option.some.injEq] at h
      rw [eraseIdx_cons_zero, h, count_cons_self]
    | succ i =>
      rw [getElem?_cons_succ] at h
      have ih := ih h
      rw [eraseIdx_cons_succ, count_cons, count_cons]
      omega

/-- What is found in a list with one element more was found before, or is that one. -/
theorem getElem?_append_singleton_cases {xs : List α} {x a : α} {n : Nat}
    (h : (xs ++ [x])[n]? = some a) : xs[n]? = some a ∨ a = x := by
  rw [getElem?_append] at h
  split at h
  · exact .inl h
  · exact .inr (by simpa using mem_of_getElem? h)

/-- What is found in a list with one element more was found before, or is the last. -/
theorem getElem?_concat_cases {xs : List α} {x a : α} {n : Nat}
    (h : (xs ++ [x])[n]? = some a) : xs[n]? = some a ∨ (n = xs.length ∧ a = x) := by
  by_cases hn : n < xs.length
  · rw [getElem?_append_left hn] at h
    exact .inl h
  · have hbound := (getElem?_eq_some_iff.mp h).1
    rw [length_append, length_singleton] at hbound
    have hlast : n = xs.length := by omega
    rw [hlast, getElem?_concat_length] at h
    exact .inr ⟨hlast, (Option.some.inj h).symm⟩

/-- An element of `xs.set m x` is an element of `xs` at another index, or `x` at `m`. -/
theorem getElem?_set_cases {xs : List α} {x a : α} {m n : Nat}
    (h : (xs.set m x)[n]? = some a) : (m ≠ n ∧ xs[n]? = some a) ∨ (n = m ∧ a = x) := by
  rw [getElem?_set] at h
  split at h
  · rename_i hmn
    split at h
    · exact .inr ⟨hmn.symm, (Option.some.inj h).symm⟩
    · exact nomatch h
  · rename_i hmn
    exact .inl ⟨hmn, h⟩

/-- Where no two elements have one key, the element with a key is found by it. -/
theorem find?_key_of_mem {κ : Type} [DecidableEq κ] {key : α → κ} {xs : List α}
    (h : (xs.map key).Nodup) {a : α} (ha : a ∈ xs) :
    (xs.find? fun x => key x = key a) = some a := by
  cases hfind : xs.find? fun x => key x = key a with
  | none => exact absurd (decide_eq_true rfl) (find?_eq_none.mp hfind a ha)
  | some found =>
    have hsame : key found = key a := by simpa using find?_some hfind
    rw [inj_on_of_nodup_map h (mem_of_find?_eq_some hfind) ha hsame]

/-- Two lists are parted alike at the last occurrence of an element. -/
theorem append_cons_inj_of_notMem_right {xs ys zs ws : List α} {a : α} (hzs : a ∉ zs)
    (hws : a ∉ ws) (h : xs ++ a :: zs = ys ++ a :: ws) : xs = ys ∧ zs = ws := by
  rw [append_eq_append_iff] at h
  obtain ⟨gap, hys, hgap⟩ | ⟨gap, hxs, hgap⟩ := h
  · cases gap with
    | nil => simp_all
    | cons b gap =>
      rw [cons_append, cons_eq_cons] at hgap
      exact absurd (by simp [hgap.2]) hzs
  · cases gap with
    | nil => simp_all
    | cons b gap =>
      rw [cons_append, cons_eq_cons] at hgap
      exact absurd (by simp [hgap.2]) hws

/-- Two lists are parted alike at the first occurrence of an element. -/
theorem append_cons_inj_of_notMem_left {xs ys zs ws : List α} {a : α} (hxs : a ∉ xs)
    (hys : a ∉ ys) (h : xs ++ a :: zs = ys ++ a :: ws) : xs = ys ∧ zs = ws := by
  have hreverse := congrArg List.reverse h
  rw [reverse_append, reverse_append, reverse_cons, reverse_cons, append_assoc, append_assoc,
    singleton_append, singleton_append] at hreverse
  obtain ⟨hafter, hbefore⟩ := append_cons_inj_of_notMem_right (mt mem_reverse.mp hxs)
    (mt mem_reverse.mp hys) hreverse
  exact ⟨reverse_injective hbefore, reverse_injective hafter⟩

/-- An element in front of a common end can be cancelled out of a permutation to the front. -/
theorem perm_cons_of_append {xs ys zs : List α} {a : α}
    (h : (xs ++ zs).Perm (ys ++ a :: zs)) : xs.Perm (a :: ys) :=
  (perm_append_right_iff zs).mp (h.trans perm_middle)

/-- `set` exchanges what `flatMap` makes of one element for what it makes of another. -/
theorem flatMap_set_perm {f : α → List β} {xs : List α} {i : Nat} {x : α} (h : xs[i]? = some x)
    (y : α) : ((xs.set i y).flatMap f ++ f x).Perm (xs.flatMap f ++ f y) := by
  induction xs generalizing i with
  | nil => exact nomatch h
  | cons z xs ih =>
    cases i with
    | zero =>
      obtain rfl : z = x := Option.some.inj h
      rw [set_cons_zero, flatMap_cons, flatMap_cons, append_assoc, append_assoc]
      refine perm_append_comm.trans ?_
      rw [append_assoc]
      exact perm_append_comm_assoc _ _ _
    | succ i =>
      rw [set_cons_succ, flatMap_cons, flatMap_cons, append_assoc, append_assoc]
      exact (ih h).append_left _

/-- Two elements with `p` are the same where `countP p` is at most one. -/
theorem eq_of_countP_le_one {p : α → Bool} {xs : List α} (h : xs.countP p ≤ 1) {a b : α}
    (ha : a ∈ xs) (hb : b ∈ xs) (hpa : p a = true) (hpb : p b = true) : a = b := by
  have ha' : a ∈ xs.filter p := mem_filter.2 ⟨ha, hpa⟩
  have hb' : b ∈ xs.filter p := mem_filter.2 ⟨hb, hpb⟩
  rw [countP_eq_length_filter] at h
  match hf : xs.filter p, h with
  | [], _ => simp [hf] at ha'
  | [x], _ =>
    rw [hf, mem_singleton] at ha' hb'
    exact ha'.trans hb'.symm

/-- What goes after everything is inserted at the end. -/
theorem orderedInsert_append_of_le {r : α → α → Prop} [DecidableRel r] {x a : α} (hxa : r x a)
    (xs : List α) : (xs ++ [a]).orderedInsert r x = xs.orderedInsert r x ++ [a] := by
  induction xs with
  | nil => simp [hxa]
  | cons y ys ih =>
    rw [cons_append, orderedInsert_cons, orderedInsert_cons]
    split
    · simp
    · rw [ih, cons_append]

/-- What goes after everything is sorted to the end. -/
theorem insertionSort_append_of_le {r : α → α → Prop} [DecidableRel r] {xs : List α} {a : α}
    (h : ∀ x ∈ xs, r x a) : (xs ++ [a]).insertionSort r = xs.insertionSort r ++ [a] := by
  induction xs with
  | nil => rfl
  | cons x xs ih =>
    have hxs : ∀ y ∈ xs, r y a := fun y hy => h y (mem_cons_of_mem x hy)
    rw [cons_append, insertionSort_cons, ih hxs, insertionSort_cons,
      orderedInsert_append_of_le (h x mem_cons_self)]

/-! ## `mapM` that may fail -/

section MapM

variable {ε : Type} {f : α → Except ε β}

/-- `mapM` returns just if `f` does for every element, and gives what `f` does. -/
theorem mapM_eq_ok_iff {xs : List α} {ys : List β} :
    xs.mapM f = .ok ys ↔ Forall₂ (fun x y => f x = .ok y) xs ys := by
  induction xs generalizing ys with
  | nil =>
    rw [mapM_nil, forall₂_nil_left_iff]
    exact ⟨fun h => (Except.ok.inj h).symm, fun h => congrArg Except.ok h.symm⟩
  | cons x xs ih =>
    rw [mapM_cons, forall₂_cons_left_iff]
    constructor
    · intro h
      cases hfirst : f x with
      | error e => rw [hfirst] at h; cases h
      | ok y =>
        cases hrest : xs.mapM f with
        | error e => rw [hfirst, hrest] at h; cases h
        | ok ys =>
          rw [hfirst, hrest] at h
          exact ⟨y, ys, rfl, ih.mp hrest, (Except.ok.inj h).symm⟩
    · rintro ⟨y, ys, hfirst, hrest, rfl⟩
      rw [hfirst, ih.mpr hrest]
      rfl

/-- An error of `mapM` is the error of `f` for one of the elements. -/
theorem exists_of_mapM_eq_error {xs : List α} {e : ε} (h : xs.mapM f = .error e) :
    ∃ x ∈ xs, f x = .error e := by
  induction xs with
  | nil => cases h
  | cons x xs ih =>
    rw [mapM_cons] at h
    cases hfirst : f x with
    | error e' =>
      rw [hfirst] at h
      cases h
      exact ⟨x, mem_cons_self, hfirst⟩
    | ok y =>
      rw [hfirst] at h
      cases hrest : xs.mapM f with
      | error e' =>
        rw [hrest] at h
        cases h
        obtain ⟨other, hother, herror⟩ := ih hrest
        exact ⟨other, mem_cons_of_mem _ hother, herror⟩
      | ok ys => rw [hrest] at h; cases h

/-- `mapM` fails just if `f` does for some element. -/
theorem exists_mapM_eq_error_iff {xs : List α} :
    (∃ e, xs.mapM f = .error e) ↔ ∃ x ∈ xs, ∃ e, f x = .error e := by
  constructor
  · rintro ⟨e, h⟩
    obtain ⟨x, hx, herror⟩ := exists_of_mapM_eq_error h
    exact ⟨x, hx, e, herror⟩
  · rintro ⟨x, hx, e, herror⟩
    cases h : xs.mapM f with
    | error e' => exact ⟨e', rfl⟩
    | ok ys =>
      obtain ⟨y, -, hok⟩ := (mapM_eq_ok_iff.mp h).exists_of_mem_left hx
      rw [herror] at hok
      cases hok

end MapM

end List
