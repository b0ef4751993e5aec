import NexaAssist.ForStd.PyWords

/-!
# Lists in one line of text

Entries with commas between them, as an environment variable has them: white space around an entry
does not count, and a blank one is none. What is read of a line is a list of entries, and every
such list is read of the line that joins them.
-/

namespace PyJson

open PyStr

/-- `text.partition(sep)` of one character: what stands before it, whether it is there, and what
    stands after it. -/
def PyStr.partition (sep : CodePoint) (text : PyStr) : PyStr × Bool × PyStr :=
  let rest := text.dropWhile (· ≠ sep)
  (text.takeWhile (· ≠ sep), !rest.isEmpty, rest.tail)

def comma : CodePoint := 0x2c

/-- `[entry.strip() for entry in text.split(",") if entry.strip()]`. -/
def entriesOf (text : PyStr) : List PyStr :=
  ((List.splitOn comma text).map strip).filter fun entry => entry ≠ []

/-- What can stand between two commas and is all read. -/
structure IsEntry (entry : PyStr) : Prop where
  stripped : Stripped entry
  nonempty : entry ≠ []
  whole : comma ∉ entry

/-- No separator stands in what it separates. -/
theorem notMem_of_mem_splitOn {sep : CodePoint} {text part : PyStr}
    (h : part ∈ List.splitOn sep text) : sep ∉ part := by
  induction text generalizing part with
  | nil =>
    rw [List.splitOn_nil, List.mem_singleton] at h
    rw [h]
    exact List.not_mem_nil
  | cons c text ih =>
    rw [List.splitOn_cons_eq_if_modifyHead] at h
    split at h
    · obtain rfl | h := List.mem_cons.mp h
      · exact List.not_mem_nil
      · exact ih h
    · rename_i hne
      -- The character goes to the first part
      cases hparts : List.splitOn sep text with
      | nil => exact absurd hparts (List.splitOn_ne_nil sep text)
      | cons first rest =>
        rw [hparts] at h ih
        obtain rfl | h := List.mem_cons.mp h
        · intro hmem
          obtain heq | hmem := List.mem_cons.mp hmem
          · exact hne (by simp [heq])
          · exact ih List.mem_cons_self hmem
        · exact ih (List.mem_cons_of_mem _ h)

/-- What is separated is of the text. -/
theorem subset_of_mem_splitOn {sep : CodePoint} {text part : PyStr}
    (h : part ∈ List.splitOn sep text) : part ⊆ text := by
  induction text generalizing part with
  | nil =>
    rw [List.splitOn_nil, List.mem_singleton] at h
    rw [h]
    exact List.nil_subset _
  | cons c text ih =>
    rw [List.splitOn_cons_eq_if_modifyHead] at h
    split at h
    · obtain rfl | h := List.mem_cons.mp h
      · exact List.nil_subset _
      · exact List.subset_cons_of_subset c (ih h)
    · cases hparts : List.splitOn sep text with
      | nil => exact absurd hparts (List.splitOn_ne_nil sep text)
      | cons first rest =>
        rw [hparts] at h ih
        obtain rfl | h := List.mem_cons.mp h
        · exact List.cons_subset_cons c (ih List.mem_cons_self)
        · exact List.subset_cons_of_subset c (ih (List.mem_cons_of_mem _ h))

/-- An entry has characters of the text only. -/
theorem subset_of_mem_entriesOf {text entry : PyStr} (h : entry ∈ entriesOf text) :
    entry ⊆ text := by
  obtain ⟨part, hpart, rfl⟩ := List.mem_map.mp (List.mem_filter.mp h).1
  exact List.Subset.trans (infix_strip part).subset (subset_of_mem_splitOn hpart)

/-- What `entriesOf` gives is an entry. -/
theorem isEntry_of_mem {text entry : PyStr} (h : entry ∈ entriesOf text) : IsEntry entry := by
  obtain ⟨hmem, hne⟩ := List.mem_filter.mp h
  obtain ⟨part, hpart, rfl⟩ := List.mem_map.mp hmem
  exact {
    stripped := stripped_strip part
    nonempty := of_decide_eq_true hne
    whole := fun hcomma => notMem_of_mem_splitOn hpart ((infix_strip part).subset hcomma) }

/-- The entries of a line that was made of them. -/
theorem entriesOf_intercalate {entries : List PyStr} (h : ∀ entry ∈ entries, IsEntry entry) :
    entriesOf (List.intercalate [comma] entries) = entries := by
  rw [entriesOf]
  obtain rfl | hne := eq_or_ne entries []
  · rfl
  · rw [List.splitOn_intercalate comma (fun entry hentry => (h entry hentry).whole) hne]
    have hstrip : entries.map strip = entries := by
      rw [List.map_congr_left fun entry hentry => strip_of_stripped (h entry hentry).stripped,
        List.map_id']
    rw [hstrip, List.filter_eq_self]
    exact fun entry hentry => decide_eq_true (h entry hentry).nonempty

/-- `partition` parts a text at its first separator. -/
theorem partition_append {sep : CodePoint} {front : PyStr} (h : sep ∉ front) (back : PyStr) :
    PyStr.partition sep (front ++ sep :: back) = (front, true, back) := by
  have hall : ∀ c ∈ front, decide (c ≠ sep) = true :=
    fun c hc => decide_eq_true fun heq => h (heq ▸ hc)
  rw [PyStr.partition, List.takeWhile_append_of_pos hall, List.dropWhile_append_of_pos hall]
  simp

/-- A text that `partition` has parted is the two parts with the separator between them. -/
theorem append_of_partition {sep : CodePoint} {text front back : PyStr}
    (h : PyStr.partition sep text = (front, true, back)) :
    text = front ++ sep :: back ∧ sep ∉ front := by
  rw [PyStr.partition, Prod.mk.injEq, Prod.mk.injEq] at h
  obtain ⟨hfront, hfound, hback⟩ := h
  have htext := List.takeWhile_append_dropWhile (p := fun c => decide (c ≠ sep)) (l := text)
  have hhead := List.head?_dropWhile_not (fun c => decide (c ≠ sep)) text
  cases hrest : text.dropWhile fun c => decide (c ≠ sep) with
  | nil => rw [hrest] at hfound; cases hfound
  | cons c rest =>
    rw [hrest] at htext hhead hback
    have hc : c = sep := by simpa using hhead
    refine ⟨by rw [← htext, hfront, hc, ← hback]; rfl, ?_⟩
    rw [← hfront]
    intro hmem
    simpa using List.mem_takeWhile_imp hmem

end PyJson
