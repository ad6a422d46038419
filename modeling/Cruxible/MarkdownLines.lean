import Cruxible.MarkdownIdentities

/-!
# Lines of Markdown chunks

The Markdown parser counts newlines. The chunker indexes into the lines of
`str.splitlines`, which ends a line at form feeds, vertical tabs and other separators too.
A chunk has the text of its token where both find the same lines.
-/
namespace Cruxible.MarkdownChunks
open PythonDict Cruxible.Graph PropertyValidation Fallible

section Lines

variable (boundary : Char → Bool)

/-- The lines that some characters end, and what follows the last of them. -/
def linesBy (current : List Char) : List Char → List String
  | [] => if current = [] then [] else [String.ofList current.reverse]
  | c :: cs =>
      if boundary c then String.ofList current.reverse :: linesBy [] cs
      else linesBy (c :: current) cs

variable {boundary}

variable {cs : List Char} {current : List Char} {boundary' : Char → Bool}

theorem not_mem_linesBy {c : Char} (hc : boundary c = true) (hcurrent : c ∉ current) :
    ∀ l ∈ linesBy boundary current cs, c ∉ l.toList := by
  induction cs generalizing current with
  | nil =>
    intro l hl
    unfold linesBy at hl
    split_ifs at hl
    · cases hl
    · rw [List.mem_singleton.mp hl, String.toList_ofList, List.mem_reverse]
      exact hcurrent
  | cons d cs ih =>
    intro l hl
    unfold linesBy at hl
    split_ifs at hl with hd
    · rcases List.mem_cons.mp hl with rfl | hl
      · rw [String.toList_ofList, List.mem_reverse]
        exact hcurrent
      · exact ih (by simp) l hl
    · refine ih ?_ l hl
      rw [List.mem_cons, not_or]
      refine ⟨?_, hcurrent⟩
      rintro rfl
      exact hd hc

theorem linesBy_eq_nil : linesBy boundary [] cs = [] ↔ cs = [] := by
  have hne : ∀ cs current, current ≠ [] → linesBy boundary current cs ≠ [] := by
    intro cs
    induction cs with
    | nil =>
      intro current hcurrent
      rw [linesBy, if_neg hcurrent]
      exact List.cons_ne_nil _ _
    | cons c cs ih =>
      intro current hcurrent
      rw [linesBy]
      split_ifs
      · exact List.cons_ne_nil _ _
      · exact ih _ (List.cons_ne_nil _ _)
  cases cs with
  | nil => simp [linesBy]
  | cons c cs =>
    rw [linesBy]
    split_ifs
    · simp
    · simp [hne cs [c] (List.cons_ne_nil _ _)]

/-- More boundaries give at least as many lines. A line that the fewer boundaries leave open
may just have been ended by one of the others. -/
theorem length_linesBy_le (h : ∀ c, boundary c = true → boundary' c = true) (cs : List Char) :
    (∀ current current', (current = [] ↔ current' = []) →
      (linesBy boundary current cs).length ≤ (linesBy boundary' current' cs).length) ∧
    ∀ current, (linesBy boundary current cs).length ≤ (linesBy boundary' [] cs).length + 1 := by
  induction cs with
  | nil =>
    constructor
    · intro current current' hsame
      simp only [linesBy, hsame]
      split_ifs <;> simp
    · intro current
      simp only [linesBy]
      split_ifs <;> simp
  | cons c cs ih =>
    constructor
    · intro current current' hsame
      rw [linesBy, linesBy]
      by_cases hc : boundary c = true
      · have hrest := ih.1 [] [] Iff.rfl
        simp only [hc, h c hc, if_true, List.length_cons]
        omega
      · by_cases hc' : boundary' c = true
        · have hrest := ih.2 (c :: current)
          simp only [hc, hc', if_true, Bool.false_eq_true, if_false, List.length_cons]
          omega
        · have hrest := ih.1 (c :: current) (c :: current') (by simp)
          simpa only [hc, hc', Bool.false_eq_true, if_false] using hrest
    · intro current
      rw [linesBy, linesBy]
      by_cases hc : boundary c = true
      · have hrest := ih.1 [] [] Iff.rfl
        simp only [hc, h c hc, if_true, List.length_cons]
        omega
      · by_cases hc' : boundary' c = true
        · have hrest := ih.2 (c :: current)
          simp only [hc, hc', if_true, Bool.false_eq_true, if_false, List.length_cons]
          omega
        · have hrest := ih.1 (c :: current) [c] (by simp)
          simp only [hc, hc', Bool.false_eq_true, if_false]
          omega

end Lines

/-- The lines that the Markdown parser counts. -/
def newlineLines (text : String) : List String :=
  linesBy (fun c => c = '\n') [] (normalizeLineEndings text).toList

theorem carriageReturn_not_mem (text : String) : '\r' ∉ (normalizeLineEndings text).toList := by
  unfold normalizeLineEndings
  rw [String.toList_ofList, List.mem_map]
  rintro ⟨c, _, hc⟩
  split_ifs at hc with hreturn
  · exact absurd hc (by decide)
  · exact hreturn hc

theorem splitlinesFrom_eq {current cs : List Char} (h : '\r' ∉ cs) :
    splitlinesFrom current cs = linesBy isLineBoundary current cs := by
  induction cs generalizing current with
  | nil => rfl
  | cons c cs ih =>
    rw [List.mem_cons, not_or] at h
    rw [linesBy, splitlinesFrom, ih h.2, ih h.2]
    intro cs' hc
    exact absurd hc.symm h.1

theorem documentLines_eq (text : String) :
    documentLines text = linesBy isLineBoundary [] (normalizeLineEndings text).toList :=
  splitlinesFrom_eq (carriageReturn_not_mem text)

theorem length_newlineLines_le (text : String) :
    (newlineLines text).length ≤ (documentLines text).length := by
  rw [documentLines_eq]
  refine (length_linesBy_le ?_ _).1 [] [] Iff.rfl
  intro c hc
  rw [of_decide_eq_true hc]
  rfl

theorem joinSlice_inj {xs ys : List String} {a b : Nat} (hx : ∀ l ∈ xs, '\n' ∉ l.toList)
    (hy : ∀ l ∈ ys, '\n' ∉ l.toList) (hab : a < b) (hxs : a < xs.length) (hys : a < ys.length) :
    joinSlice xs a b = joinSlice ys a b ↔ ∀ i, a ≤ i → i < b → xs[i]? = ys[i]? := by
  have hread : ∀ zs : List String, (∀ l ∈ zs, '\n' ∉ l.toList) → a < zs.length →
      (joinSlice zs a b).toList.splitOn '\n' = ((zs.take b).drop a).map String.toList := by
    intro zs hz hlength
    unfold joinSlice
    rw [String.toList_intercalate]
    refine List.splitOn_intercalate '\n' ?_ ?_
    · intro l hl
      obtain ⟨s, hs, rfl⟩ := List.mem_map.mp hl
      exact hz s (List.mem_of_mem_take (List.mem_of_mem_drop hs))
    · have hne : 0 < ((zs.take b).drop a).length := by
        rw [List.length_drop, List.length_take]
        omega
      rw [Ne, List.map_eq_nil_iff]
      exact List.ne_nil_of_length_pos hne
  constructor
  · intro h i hi hib
    have hlines := hread xs hx hxs
    rw [h, hread ys hy hys] at hlines
    have hslices := List.map_injective_iff.mpr (fun s t hst => String.toList_inj.mp hst) hlines
    have hat := congrArg (·[i - a]?) hslices
    simp only [List.getElem?_drop, List.getElem?_take] at hat
    have hindex : a + (i - a) = i := by omega
    rw [hindex, if_pos hib, if_pos hib] at hat
    exact hat.symm
  · intro h
    unfold joinSlice
    congr 1
    refine List.ext_getElem? ?_
    intro k
    simp only [List.getElem?_drop, List.getElem?_take]
    split_ifs with hk
    · exact h _ (by omega) hk
    · rfl

end Cruxible.MarkdownChunks
