import Blocklist.Proofs.Deduplication

set_option autoImplicit false

/-! # What is left without repeats

A filter list without repeated patterns is said by positions: a line stays unless it has the marks
of a pattern and is one of the lines before it (`firstOccurrences`). So each pattern stays where it
stands first, and the patterns that stay are the different ones (`filter_isRuleLine_keptAfter`).
What is left holds no repeats any more, and no carriage returns that could be taken off, so leaving
out repeats once more changes nothing (`dedupe_keeps_first`). -/

namespace Blocklist.FilterList

/-- The lines that do not repeat an earlier one that has the marks of a pattern. -/
def firstOccurrences (lines : List (List Char)) : List (List Char) :=
  (lines.zipIdx.filter fun place => !isLeftOut (lines.take place.2) place.1).map Prod.fst

/-! ## Lines that are kept -/

theorem keptAfter_eq (before lines : List (List Char)) :
    keptAfter before lines
      = ((lines.zipIdx before.length).filter fun place =>
          !isLeftOut ((before ++ lines).take place.2) place.1).map Prod.fst := by
  induction lines generalizing before with
  | nil => rfl
  | cons line rest ih =>
    have hrest := ih (before ++ [line])
    rw [List.length_append, List.length_singleton, ← List.append_cons] at hrest
    have hbefore : (before ++ line :: rest).take before.length = before := List.take_left
    rw [keptAfter, hrest, List.zipIdx_cons, List.filter_cons]
    simp only [hbefore]
    cases isLeftOut before line with
    | true => rfl
    | false => rfl

/-- What is kept can be said by positions. -/
theorem keptAfter_nil_eq (lines : List (List Char)) :
    keptAfter [] lines = firstOccurrences lines :=
  keptAfter_eq [] lines

theorem eraseDups_append_filter_keptAfter (before lines : List (List Char)) :
    (before.filter isRuleLine).eraseDups ++ (keptAfter before lines).filter isRuleLine
      = ((before ++ lines).filter isRuleLine).eraseDups := by
  induction lines generalizing before with
  | nil => simp [keptAfter]
  | cons line rest ih =>
    rw [List.append_cons, ← ih, keptAfter, List.filter_append]
    by_cases hrule : isRuleLine line = true
    · by_cases hmem : line ∈ before
      · simp [isLeftOut, hrule, hmem, eraseDups_append_singleton]
      · simp [isLeftOut, hrule, hmem, eraseDups_append_singleton]
    · simp [isLeftOut, hrule]

/-- The patterns that are kept are the different ones, in the order of their first places. -/
theorem filter_isRuleLine_keptAfter (lines : List (List Char)) :
    (keptAfter [] lines).filter isRuleLine = (lines.filter isRuleLine).eraseDups := by
  simpa using eraseDups_append_filter_keptAfter [] lines

/-- Lines that are kept are kept again after fewer lines. -/
theorem keptAfter_keptAfter {before other : List (List Char)} (h : before ⊆ other)
    (lines : List (List Char)) :
    keptAfter before (keptAfter other lines) = keptAfter other lines := by
  induction lines generalizing before other with
  | nil => rfl
  | cons line rest ih =>
    have hother : before ⊆ other ++ [line] := List.Subset.trans h (List.subset_append_left ..)
    rw [keptAfter]
    split
    · exact ih hother
    · next hkept =>
      have hstays : ¬ isLeftOut before line = true := by
        intro hout
        rw [isLeftOut, Bool.and_eq_true, List.contains_iff_mem] at hout hkept
        exact hkept ⟨hout.1, h hout.2⟩
      rw [keptAfter, if_neg hstays, ih]
      exact List.append_subset.2 ⟨hother, List.subset_append_right ..⟩

/-! ## Patterns that were seen -/

/-- Each pattern that is kept was new when it was seen. -/
theorem Strainer.size_seen_add {strainer : Strainer}
    (h : strainer.seen.size = strainer.kept.countP isRuleLine) (line : List Char) :
    (strainer.add line).seen.size = (strainer.add line).kept.countP isRuleLine := by
  simp only [Strainer.add]
  split
  · next hrule =>
    split
    · exact h
    · next hnew =>
      rw [Std.HashSet.size_insert, if_neg, h, List.countP_cons_of_pos hrule]
      rwa [← Std.HashSet.contains_iff_mem]
  · next hother => rwa [List.countP_cons_of_neg hother]

theorem Strainer.size_seen_foldl_add {strainer : Strainer}
    (h : strainer.seen.size = strainer.kept.countP isRuleLine) (lines : List (List Char)) :
    (lines.foldl Strainer.add strainer).seen.size
      = (lines.foldl Strainer.add strainer).kept.countP isRuleLine := by
  induction lines generalizing strainer with
  | nil => exact h
  | cons line rest ih => exact ih (Strainer.size_seen_add h line)

/-- As many patterns are counted as there are different ones. -/
theorem uniqueRules_dedupe (text : String) :
    (dedupe text).uniqueRules = ((plainLines text).filter isRuleLine).eraseDups.length := by
  have hstart : Strainer.Saw [] ⟨[], [], ∅⟩ := fun line _ => by simp
  have hkept := (hstart.foldl_add (Text.lines text.toList)).1
  have hnone : (⟨[], [], ∅⟩ : Strainer).seen.size = List.countP isRuleLine [] := rfl
  have hsize : (dedupe text).uniqueRules = _ :=
    Strainer.size_seen_foldl_add hnone (Text.lines text.toList)
  rw [hsize, ← filter_isRuleLine_keptAfter, ← List.countP_eq_length_filter, ← List.countP_reverse,
    hkept]
  rfl

/-! ## The whole -/

/-- The lines of what is left end in no carriage return. -/
theorem plainLines_dedupe (text : String) :
    plainLines (dedupe text).text = keptAfter [] (plainLines text) := by
  rw [plainLines, lines_dedupe]
  refine (List.map_congr_left fun line hline => Text.trimEnd_eq_self fun c hc => ?_).trans
    (List.map_id _)
  have hlast := getLast?_of_mem_plainLines ((keptAfter_sublist [] (plainLines text)).subset hline)
  rw [beq_eq_false_iff_ne]
  rintro rfl
  exact hlast hc

/-- Leaving out repeats once more changes nothing. -/
theorem dedupe_dedupe (text : String) :
    (dedupe (dedupe text).text).text = (dedupe text).text
      ∧ (dedupe (dedupe text).text).uniqueRules = (dedupe text).uniqueRules
      ∧ (dedupe (dedupe text).text).removed = 0 := by
  have hkept := keptAfter_keptAfter (List.Subset.refl []) (plainLines text)
  obtain ⟨htext, hlength⟩ := dedupe_eq (dedupe text).text
  rw [plainLines_dedupe, hkept] at htext hlength
  refine ⟨htext.trans (dedupe_eq text).1.symm, ?_, by omega⟩
  rw [uniqueRules_dedupe, uniqueRules_dedupe, plainLines_dedupe, ← filter_isRuleLine_keptAfter,
    hkept, filter_isRuleLine_keptAfter]

/-- A source without repeats is made of the lines that do not repeat an earlier one with the marks
of a pattern, in order and each ended by a newline. It has as many patterns as there are different
ones, the lines that are missing are those removed, and there is nothing more to remove. -/
theorem dedupe_keeps_first (text : String) :
    (dedupe text).text = String.ofList (Text.unlines (firstOccurrences (plainLines text)))
      ∧ (dedupe text).uniqueRules = ((plainLines text).filter isRuleLine).eraseDups.length
      ∧ (dedupe text).removed + (Text.lines (dedupe text).text.toList).length
        = (Text.lines text.toList).length
      ∧ (dedupe (dedupe text).text).text = (dedupe text).text
      ∧ (dedupe (dedupe text).text).uniqueRules = (dedupe text).uniqueRules
      ∧ (dedupe (dedupe text).text).removed = 0 := by
  obtain ⟨htext, hlength⟩ := dedupe_eq text
  rw [plainLines, List.length_map, ← plainLines] at hlength
  refine ⟨by rw [htext, keptAfter_nil_eq], uniqueRules_dedupe text, ?_, dedupe_dedupe text⟩
  rw [lines_dedupe]
  omega

/-- Carriage returns at the end do not count, others and blanks do, and a pattern is a line with
the marks of one. -/
example : firstOccurrences (plainLines "||a^\n \n||a^\r\r\n||a^ \n \n||^\n||\ra^\n||^")
    = ["||a^", " ", "||a^ ", " ", "||^", "||\ra^"].map String.toList := by decide +kernel

end Blocklist.FilterList
