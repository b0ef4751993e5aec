import Mathlib.Data.List.Chain

/-!
# Greedy packing

Items are put on a line as long as it fits, and on the next one when it no longer does. An
item that fits nowhere gets a line of its own.
-/

namespace Packing

variable {α : Type} (fits : List α → Prop)

/-- The finished lines and the current one, after one more item. -/
def step [DecidablePred fits] : List (List α) × List α → α → List (List α) × List α
  | (lines, line), item =>
    if ¬ fits (line ++ [item]) ∧ line ≠ [] then (lines ++ [line], [item])
    else (lines, line ++ [item])

/-- The lines, the current one included once it has an item. -/
def close : List (List α) × List α → List (List α)
  | (lines, line) => if line = [] then lines else lines ++ [line]

/-- The lines of some items. -/
def pack [DecidablePred fits] (items : List α) : List (List α) :=
  close (items.foldl (step fits) ([], []))

/-- Each line begins with an item that did not fit on the line before. -/
def Filled (lines : List (List α)) : Prop :=
  List.IsChain (fun line next => ∀ item ∈ next.head?, ¬ fits (line ++ [item])) lines

/-- What packing some items comes to. -/
structure Packed (items : List α) (lines : List (List α)) : Prop where
  flatten : lines.flatten = items
  ne_nil : ∀ line ∈ lines, line ≠ []
  short : ∀ line ∈ lines, fits line ∨ ∃ item, line = [item]
  filled : Filled fits lines

/-- The loop has packed the items so far, and a line is begun with an item. -/
structure Loop (items : List α) (s : List (List α) × List α) : Prop where
  packed : Packed fits items (close s)
  begun : s.2 = [] → s.1 = []

variable {fits}

/-- A line that fits no more is finished, and the next one begins with the item. -/
theorem Packed.concat {items : List α} {lines : List (List α)} (h : Packed fits items lines)
    (item : α) (hfull : ∀ line ∈ lines.getLast?, ¬ fits (line ++ [item])) :
    Packed fits (items ++ [item]) (lines ++ [[item]]) where
  flatten := by simp [h.flatten]
  ne_nil := by simpa [or_imp, forall_and] using h.ne_nil
  short := by
    intro line hline
    cases List.mem_append.mp hline with
    | inl hbefore => exact h.short line hbefore
    | inr hnew => exact .inr ⟨item, List.mem_singleton.mp hnew⟩
  filled := by
    refine List.IsChain.append h.filled (.singleton _) ?_
    intro line hline next hnext first hfirst
    obtain rfl := Option.some.inj hnext
    obtain rfl := Option.some.inj hfirst
    exact hfull line hline

/-- The last line grows by an item that fits on it. -/
theorem Packed.grow {items : List α} {lines : List (List α)} {line : List α}
    (h : Packed fits items (lines ++ [line])) (item : α) (hfits : fits (line ++ [item])) :
    Packed fits (items ++ [item]) (lines ++ [line ++ [item]]) where
  flatten := by
    have := h.flatten
    simp only [List.flatten_append, List.flatten_singleton] at this ⊢
    rw [← List.append_assoc, this]
  ne_nil := by
    intro other hother
    cases List.mem_append.mp hother with
    | inl hbefore => exact h.ne_nil other (List.mem_append_left _ hbefore)
    | inr hlast => rw [List.mem_singleton.mp hlast]; simp
  short := by
    intro other hother
    cases List.mem_append.mp hother with
    | inl hbefore => exact h.short other (List.mem_append_left _ hbefore)
    | inr hlast => rw [List.mem_singleton.mp hlast]; exact .inl hfits
  filled := by
    have hline : line ≠ [] := h.ne_nil line (by simp)
    obtain ⟨hlines, _, hlast⟩ := List.isChain_append.mp h.filled
    refine List.IsChain.append hlines (.singleton _) ?_
    intro before hbefore next hnext first hfirst
    obtain rfl := Option.some.inj hnext
    apply hlast before hbefore line rfl
    rwa [List.head?_append_of_ne_nil _ hline] at hfirst

/-- One more item is packed by one `step`. -/
theorem Loop.step [DecidablePred fits] {items : List α} {s : List (List α) × List α}
    (h : Loop fits items s) (item : α) : Loop fits (items ++ [item]) (step fits s item) := by
  obtain ⟨lines, line⟩ := s
  have hpacked := h.packed
  by_cases hline : line = []
  · obtain rfl : lines = [] := h.begun hline
    subst hline
    refine ⟨?_, by simp [Packing.step]⟩
    simpa [Packing.step, close] using hpacked.concat item (by simp [close])
  rw [close, if_neg hline] at hpacked
  by_cases hfits : fits (line ++ [item])
  · have hstep : Packing.step fits (lines, line) item = (lines, line ++ [item]) := by
      simp [Packing.step, hfits]
    rw [hstep]
    refine ⟨?_, by simp⟩
    rw [close, if_neg (by simp)]
    exact hpacked.grow item hfits
  · have hstep : Packing.step fits (lines, line) item = (lines ++ [line], [item]) := by
      simp [Packing.step, hfits, hline]
    rw [hstep]
    refine ⟨?_, by simp⟩
    rw [close, if_neg (by simp)]
    exact hpacked.concat item (by simpa using hfits)

/-- The lines that are packed hold the items in order. -/
theorem pack_packed (fits : List α → Prop) [DecidablePred fits] (items : List α) :
    Packed fits items (pack fits items) := by
  have hrun : ∀ (rest before : List α) (s : List (List α) × List α), Loop fits before s →
      Loop fits (before ++ rest) (rest.foldl (step fits) s) := by
    intro rest
    induction rest with
    | nil => intro before s h; simpa using h
    | cons item rest ih =>
      intro before s h
      simpa using ih (before ++ [item]) (step fits s item) (h.step item)
  exact (hrun items [] ([], []) ⟨⟨rfl, nofun, nofun, .nil⟩, fun _ => rfl⟩).packed

end Packing
