import Mathlib.Data.List.TakeWhile
import NexaAssist.Workflows.Execution

/-!
# References as they are written and read

An accepted id is a name, perhaps with a line break after it, and what is read as a reference is
a reference expression, perhaps with a line break after it: `$` matches before one. Without the
line breaks a reference that is written is read back, and what is read is all of a value.
-/

namespace NexaAssist.Spec.WorkflowReferences

open NexaAssist PyJson

/-! ## What is promised -/

def Spaces (text : PyStr) : Prop := ∀ c ∈ text, isSpace c = true

/-- A reference expression to `name`, and nothing before or after it. -/
def IsReference (text name : PyStr) : Prop :=
  isName name = true ∧ ∃ left right, Spaces left ∧ Spaces right ∧
    text = lit "\x7b\x7b" ++ left ++ lit "steps." ++ name ++ lit ".output" ++ right ++
      lit "\x7d\x7d"

/-- A step is given the output that each of its references stands for, and what is no reference
    is left alone. -/
structure Agrees (step : WorkflowStep) : Prop where
  given : ∀ key value, (key, value) ∈ step.params → ∀ outputs,
    (referencedStep value = none ∧ (key, value) ∈ WorkflowRunner.resolve step outputs) ∨
      ∃ source ∈ step.references,
        (key, (PyDict.get source outputs).getD .none) ∈ WorkflowRunner.resolve step outputs
  used : ∀ source ∈ step.references, ∃ key value,
    (key, value) ∈ step.params ∧ referencedStep value = some source

structure Exact (id : PyStr) (value : PyValue) (step : WorkflowStep) : Prop where
  roundTrip : matchesName id = true → referencedStep (.str (referenceTo id)) = some id
  whole : ∀ name, referencedStep value = some name ↔
    ∃ text, value = .str text ∧ IsReference text name
  agrees : Agrees step

/-- No line break comes after an id, or after a reference expression. -/
structure Unbroken (id : PyStr) (value : PyValue) : Prop where
  id : matchesName id = true → id.getLast? ≠ some 0x0a
  value : ∀ reference name, IsReference reference name → value ≠ .str (reference ++ [0x0a])

/-! ## Parts of texts -/

/-- `afterLit` gives what stands behind the literal, if the text begins with it. -/
theorem afterLit_eq_some {literal text rest : PyStr} :
    afterLit literal text = some rest ↔ text = literal ++ rest := by
  unfold afterLit
  split
  · rename_i h
    obtain ⟨tail, rfl⟩ := List.isPrefixOf_iff_prefix.mp h
    simp
  · rename_i h
    refine iff_of_false nofun ?_
    rintro rfl
    exact h (List.isPrefixOf_iff_prefix.mpr (List.prefix_append literal rest))

/-- `takeWhile` and `dropWhile` part a text behind its first run. -/
theorem takeWhile_run {p : CodePoint → Bool} {run : PyStr} {c : CodePoint} (rest : PyStr)
    (hrun : ∀ d ∈ run, p d = true) (hc : p c = false) :
    (run ++ c :: rest).takeWhile p = run ∧ (run ++ c :: rest).dropWhile p = c :: rest := by
  rw [List.takeWhile_append_of_pos hrun, List.dropWhile_append_of_pos hrun]
  simp [hc]

/-- A text without its `takeWhile` is its `dropWhile`. -/
theorem drop_takeWhile (p : CodePoint → Bool) (text : PyStr) :
    text.drop (text.takeWhile p).length = text.dropWhile p := by
  have hsplit : (text.takeWhile p ++ text.dropWhile p).drop (text.takeWhile p).length =
      text.dropWhile p := List.drop_left
  rwa [List.takeWhile_append_dropWhile] at hsplit

/-- `atEnd` holds of nothing and of one line break, as `$` does. -/
theorem atEnd_iff {text : PyStr} : atEnd text = true ↔ text = [] ∨ text = [0x0a] := by
  simp [atEnd]

/-- A name has only the characters of names. -/
theorem isNameChar_of_isName {name : PyStr} (h : isName name = true) :
    ∀ c ∈ name, isNameChar c = true := by
  cases name with
  | nil => exact nofun
  | cons first rest =>
    simp only [isName, Bool.and_eq_true, List.all_eq_true] at h
    intro c hc
    cases hc with
    | head => simp [isNameChar, h.1]
    | tail _ hc => exact h.2 c hc

/-! ## What the patterns match -/

/-- `matchesName` takes a name, also in front of one line break. -/
theorem matchesName_iff {text : PyStr} :
    matchesName text = true ↔
      ∃ name, isName name = true ∧ (text = name ∨ text = name ++ [0x0a]) := by
  unfold matchesName
  rw [Bool.and_eq_true, atEnd_iff, drop_takeWhile]
  have hsplit : text.takeWhile isNameChar ++ text.dropWhile isNameChar = text :=
    List.takeWhile_append_dropWhile
  constructor
  · rintro ⟨hname, hend⟩
    refine ⟨text.takeWhile isNameChar, hname, hend.imp (fun hnil => ?_) fun hbreak => ?_⟩
    · rw [hnil, List.append_nil] at hsplit
      exact hsplit.symm
    · rw [hbreak] at hsplit
      exact hsplit.symm
  · rintro ⟨name, hname, rfl | rfl⟩
    · have htake := List.takeWhile_eq_self_iff.mpr (isNameChar_of_isName hname)
      rw [← drop_takeWhile, htake]
      exact ⟨hname, .inl List.drop_length⟩
    · have hbreak : isNameChar 0x0a = false := by decide
      obtain ⟨htake, hdrop⟩ := takeWhile_run [] (isNameChar_of_isName hname) hbreak
      rw [htake, hdrop]
      exact ⟨hname, .inr rfl⟩

/-- A text that begins like a reference is the runs that the pattern takes, put together. -/
theorem cut_reference {text₁ text₂ text₃ text₄ : PyStr}
    (h₂ : text₁.dropWhile isSpace = lit "steps." ++ text₂)
    (h₃ : text₂.dropWhile isNameChar = lit ".output" ++ text₃)
    (h₄ : text₃.dropWhile isSpace = lit "\x7d\x7d" ++ text₄) :
    text₁ = text₁.takeWhile isSpace ++ lit "steps." ++ text₂.takeWhile isNameChar ++
      lit ".output" ++ text₃.takeWhile isSpace ++ lit "\x7d\x7d" ++ text₄ := by
  calc text₁ = text₁.takeWhile isSpace ++ (lit "steps." ++ text₂) := by
        rw [← h₂, List.takeWhile_append_dropWhile]
    _ = text₁.takeWhile isSpace ++ (lit "steps." ++ (text₂.takeWhile isNameChar ++
        (lit ".output" ++ text₃))) := by
        rw [← h₃, List.takeWhile_append_dropWhile]
    _ = text₁.takeWhile isSpace ++ (lit "steps." ++ (text₂.takeWhile isNameChar ++
        (lit ".output" ++ (text₃.takeWhile isSpace ++ (lit "\x7d\x7d" ++ text₄))))) := by
        rw [← h₄, List.takeWhile_append_dropWhile]
    _ = _ := by simp only [List.append_assoc]

/-- `matchReference` takes a reference, also in front of one line break. -/
theorem matchReference_iff {text name : PyStr} :
    matchReference text = some name ↔
      ∃ reference, IsReference reference name ∧
        (text = reference ∨ text = reference ++ [0x0a]) := by
  unfold matchReference
  simp only [Option.bind_eq_bind, Option.bind_eq_some_iff, afterLit_eq_some, drop_takeWhile,
    Option.ite_none_right_eq_some, Option.some.injEq, Bool.and_eq_true, atEnd_iff]
  constructor
  · rintro ⟨text₁, rfl, text₂, h₂, text₃, h₃, text₄, h₄, ⟨hname, hend⟩, rfl⟩
    -- What the pattern skips is white space, so the text is cut as the reference is written
    have hleft : Spaces (text₁.takeWhile isSpace) := fun c hc => List.mem_takeWhile_imp hc
    have hright : Spaces (text₃.takeWhile isSpace) := fun c hc => List.mem_takeWhile_imp hc
    have hcut := congrArg (lit "\x7b\x7b" ++ ·) (cut_reference h₂ h₃ h₄)
    simp only [← List.append_assoc] at hcut
    refine ⟨_, ⟨hname, _, _, hleft, hright, rfl⟩, hend.imp (fun hnil => ?_) fun hbreak => ?_⟩
    · rw [hnil, List.append_nil] at hcut
      exact hcut
    · rw [hbreak] at hcut
      exact hcut
  · rintro ⟨reference, ⟨hname, left, right, hleft, hright, rfl⟩, hend⟩
    obtain ⟨tail, htail, rfl⟩ : ∃ tail, (tail = [] ∨ tail = [0x0a]) ∧
        text = lit "\x7b\x7b" ++ left ++ lit "steps." ++ name ++ lit ".output" ++ right ++
          lit "\x7d\x7d" ++ tail := by
      rcases hend with rfl | rfl
      · exact ⟨[], .inl rfl, (List.append_nil _).symm⟩
      · exact ⟨[0x0a], .inr rfl, rfl⟩
    -- Each run ends at the literal after it.
    have hclose := takeWhile_run (lit "\x7d" ++ tail) hright (c := 0x7d) (by decide)
    let output := lit "output" ++ (right ++ (lit "\x7d\x7d" ++ tail))
    have houtput := takeWhile_run output (isNameChar_of_isName hname) (c := 0x2e) (by decide)
    let steps := lit "teps." ++ (name ++ (lit ".output" ++ (right ++ (lit "\x7d\x7d" ++ tail))))
    have hsteps := takeWhile_run steps hleft (c := 0x73) (by decide)
    refine ⟨left ++ 0x73 :: steps, ?_, name ++ 0x2e :: output, hsteps.2,
      right ++ 0x7d :: (lit "\x7d" ++ tail), houtput.2, tail, hclose.2, ?_, houtput.1⟩
    · simp only [List.append_assoc]
      rfl
    · rw [houtput.1]
      exact ⟨hname, htail⟩

/-! ## What the line breaks do -/

/-- `referenceTo` writes a reference to a name. -/
theorem isReference_referenceTo {id : PyStr} (h : isName id = true) :
    IsReference (referenceTo id) id := by
  have hspace : Spaces [0x20] := by
    intro c hc
    rw [List.mem_singleton.mp hc]
    rfl
  refine ⟨h, [0x20], [0x20], hspace, hspace, ?_⟩
  unfold referenceTo
  simp only [List.append_assoc]
  rfl

/-- `matchReference` reads no reference to an id that ends in a line break. -/
theorem matchReference_broken {name : PyStr} (h : isName name = true) :
    matchReference (referenceTo (name ++ [0x0a])) = none := by
  have hopen : afterLit (lit "\x7b\x7b") (referenceTo (name ++ [0x0a])) =
      some (0x20 :: (lit "steps." ++ (name ++ 0x0a :: lit ".output \x7d\x7d"))) := by
    rw [afterLit_eq_some, referenceTo]
    simp only [List.append_assoc]
    rfl
  have hsteps : afterLit (lit "steps.")
      ((0x20 :: (lit "steps." ++ (name ++ 0x0a :: lit ".output \x7d\x7d"))).dropWhile isSpace) =
        some (name ++ 0x0a :: lit ".output \x7d\x7d") := afterLit_eq_some.mpr rfl
  obtain ⟨htake, hdrop⟩ := takeWhile_run (lit ".output \x7d\x7d") (isNameChar_of_isName h)
    (c := 0x0a) (by decide)
  have houtput : afterLit (lit ".output") (0x0a :: lit ".output \x7d\x7d") = none := by decide
  unfold matchReference
  simp only [hopen, hsteps, Option.bind_eq_bind, Option.bind_some, drop_takeWhile, hdrop, houtput,
    Option.bind_none]

/-- `referencedStep` reads an id back just if it does not end in a line break. -/
theorem roundTrip_iff {id : PyStr} :
    (matchesName id = true → referencedStep (.str (referenceTo id)) = some id) ↔
      (matchesName id = true → id.getLast? ≠ some 0x0a) := by
  refine imp_congr_right fun hid => ?_
  obtain ⟨name, hname, rfl | rfl⟩ := matchesName_iff.mp hid
  · refine iff_of_true (matchReference_iff.mpr ⟨_, isReference_referenceTo hname, .inl rfl⟩) ?_
    intro hlast
    have hchar := isNameChar_of_isName hname _ (List.mem_of_getLast? hlast)
    exact absurd hchar (by decide)
  · refine iff_of_false ?_ fun h => h List.getLast?_concat
    show matchReference _ ≠ _
    rw [matchReference_broken hname]
    exact nofun

/-- A reference expression ends in its closing braces. -/
theorem getLast?_reference {text name : PyStr} (h : IsReference text name) :
    text.getLast? = some 0x7d := by
  obtain ⟨-, left, right, -, -, rfl⟩ := h
  have hbraces : lit "\x7d\x7d" = [0x7d] ++ [0x7d] := by decide
  rw [hbraces, ← List.append_assoc, List.getLast?_concat]

/-- `referencedStep` reads whole references only just if the value is none with a line break. -/
theorem whole_iff {value : PyValue} :
    (∀ name, referencedStep value = some name ↔
      ∃ text, value = .str text ∧ IsReference text name) ↔
        ∀ reference name, IsReference reference name → value ≠ .str (reference ++ [0x0a]) := by
  constructor
  · rintro h reference name hreference rfl
    obtain ⟨text, htext, hwhole⟩ := (h name).mp
      (matchReference_iff.mpr ⟨reference, hreference, .inr rfl⟩)
    have hbroken : reference ++ [0x0a] = text := PyValue.str.inj htext
    have hlast := getLast?_reference hwhole
    rw [← hbroken, List.getLast?_concat] at hlast
    exact absurd hlast (by decide)
  · intro h name
    constructor
    · intro hstep
      cases value with
      | str text =>
        obtain ⟨reference, hreference, rfl | rfl⟩ := matchReference_iff.mp hstep
        · exact ⟨_, rfl, hreference⟩
        · exact absurd rfl (h reference name hreference)
      | none | bool _ | int _ | float _ | list _ | tuple _ | dict _ | object _ =>
        exact nomatch hstep
    · rintro ⟨text, rfl, hreference⟩
      exact matchReference_iff.mpr ⟨text, hreference, .inl rfl⟩

/-- `resolve` looks up just the `references` of a step. -/
theorem agrees (step : WorkflowStep) : Agrees step where
  given key value hparam outputs := by
    cases hsource : referencedStep value with
    | none =>
      have hmem : (key, value) ∈ WorkflowRunner.resolve step outputs :=
        List.mem_map.mpr ⟨(key, value), hparam, by simp only [hsource]⟩
      exact .inl ⟨rfl, hmem⟩
    | some source =>
      have hmem : (key, (PyDict.get source outputs).getD .none) ∈
          WorkflowRunner.resolve step outputs :=
        List.mem_map.mpr ⟨(key, value), hparam, by simp only [hsource]⟩
      exact .inr ⟨source, List.mem_filterMap.mpr ⟨_, hparam, hsource⟩, hmem⟩
  used source hsource := by
    obtain ⟨⟨key, value⟩, hparam, hvalue⟩ := List.mem_filterMap.mp hsource
    exact ⟨key, value, hparam, hvalue⟩

/-- An id, a value and a step are `Exact` just if the id and the value are `Unbroken`. -/
theorem exact_iff_unbroken (id : PyStr) (value : PyValue) (step : WorkflowStep) :
    Exact id value step ↔ Unbroken id value :=
  ⟨fun h => ⟨roundTrip_iff.mp h.roundTrip, whole_iff.mp h.whole⟩,
    fun h => ⟨roundTrip_iff.mpr h.id, whole_iff.mpr h.value, agrees step⟩⟩

/-- A step that nothing is given to. -/
def bareStep : WorkflowStep where
  id := lit "ticket"
  tool := lit "get_ticket"
  params := []
  optional := false

/-- An id with a line break is accepted, and a reference to it is no reference. -/
theorem broken_id_lost : ¬Exact (lit "ticket\n") .none bareStep := by
  intro h
  exact absurd (h.roundTrip (by decide)) (by decide)

end NexaAssist.Spec.WorkflowReferences
