import Blocklist.FilterList.Dedupe
import Blocklist.Proofs.Compilation
import Blocklist.Proofs.Text

set_option autoImplicit false

/-! # Removing repeated patterns before compiling

Two places look for repeats. Removing them from the source compares lines with the marks of a
pattern as they are written, but for carriage returns at the end; compiling compares the lines that
are patterns, without any blanks around them. They agree where it counts: a line with the marks of a
pattern has no blanks around it, so a line that is left out of the source is for the compiler an
earlier line over again, and that is no rule and not ignored either
(`filterMap_verdictsAfter_keptAfter`). So a source gives the same rules with and without its
repeats, if it is compiled without repeats (`compile_dedupe`). -/

namespace Blocklist.FilterList

/-! ## Lines that are kept -/

/-- The lines of a text, without carriage returns at their ends. -/
def plainLines (text : String) : List (List Char) :=
  (Text.lines text.toList).map (Text.trimEnd (· == '\r'))

/-- Whether a line after the given ones is left out: it has the marks of a pattern and is one of
them. -/
def isLeftOut (before : List (List Char)) (line : List Char) : Bool :=
  isRuleLine line && before.contains line

/-- The lines that are kept of lines that stand after the given ones. -/
def keptAfter (before : List (List Char)) : List (List Char) → List (List Char)
  | [] => []
  | line :: rest =>
    if isLeftOut before line then keptAfter (before ++ [line]) rest
    else line :: keptAfter (before ++ [line]) rest

theorem keptAfter_sublist (before lines : List (List Char)) :
    (keptAfter before lines).Sublist lines := by
  induction lines generalizing before with
  | nil => exact List.Sublist.refl _
  | cons line rest ih =>
    rw [keptAfter]
    split
    · exact (ih _).cons line
    · exact (ih _).cons_cons line

/-- The patterns that the strainer has seen are the lines before with the marks of one. -/
def Strainer.Saw (before : List (List Char)) (strainer : Strainer) : Prop :=
  ∀ line, isRuleLine line = true → (String.ofList line ∈ strainer.seen ↔ line ∈ before)

/-- One more line is kept or left out, and counts as seen. -/
theorem Strainer.Saw.add {before : List (List Char)} {strainer : Strainer}
    (h : strainer.Saw before) (line : List Char) :
    let plain := Text.trimEnd (· == '\r') line
    (strainer.add line).Saw (before ++ [plain])
      ∧ if isLeftOut before plain then
          (strainer.add line).kept = strainer.kept
            ∧ (strainer.add line).removed = String.ofList plain :: strainer.removed
        else
          (strainer.add line).kept = plain :: strainer.kept
            ∧ (strainer.add line).removed = strainer.removed := by
  intro plain
  have hplain : Text.trimEnd (· == '\r') line = plain := rfl
  simp only [Strainer.add, hplain, isLeftOut]
  cases hrule : isRuleLine plain with
  | false =>
    refine ⟨fun other hother => ?_, by simp⟩
    have hne : other ≠ plain := by
      rintro rfl
      rw [hrule] at hother
      cases hother
    simpa [hne] using h other hother
  | true =>
    have hseen : strainer.seen.contains (String.ofList plain) = before.contains plain := by
      rw [Bool.eq_iff_iff, Std.HashSet.contains_iff_mem, List.contains_iff_mem, h plain hrule]
    simp only [hseen, Bool.true_and, if_true]
    split
    · next hbefore =>
      refine ⟨fun other hother => ?_, rfl, rfl⟩
      rw [h other hother, List.mem_append, List.mem_singleton, or_iff_left_of_imp]
      rintro rfl
      exact List.contains_iff_mem.1 hbefore
    · refine ⟨fun other hother => ?_, rfl, rfl⟩
      rw [Std.HashSet.mem_insert, beq_iff_eq, h other hother, List.mem_append, List.mem_singleton,
        or_comm, String.ofList_inj, eq_comm]

/-- Lines after the given ones are kept as the strainer keeps them, and the others counted. -/
theorem Strainer.Saw.foldl_add {before : List (List Char)} {strainer : Strainer}
    (h : strainer.Saw before) (lines : List (List Char)) :
    let plain := lines.map (Text.trimEnd (· == '\r'))
    let last := lines.foldl Strainer.add strainer
    last.kept.reverse = strainer.kept.reverse ++ keptAfter before plain
      ∧ last.removed.length + (keptAfter before plain).length
        = strainer.removed.length + lines.length := by
  induction lines generalizing before strainer with
  | nil => simp [keptAfter]
  | cons line rest ih =>
    obtain ⟨hsaw, hadd⟩ := h.add line
    obtain ⟨hkept, hremoved⟩ := ih hsaw
    simp only [List.map_cons, List.foldl_cons, keptAfter] at hkept hremoved ⊢
    rw [hkept]
    split at hadd
    · next hout =>
      simp only [if_pos hout, hadd.1, hadd.2, List.length_cons] at hremoved ⊢
      exact ⟨trivial, by omega⟩
    · next hin =>
      simp only [if_neg hin, hadd.1, hadd.2, List.length_cons] at hremoved ⊢
      exact ⟨by simp, by omega⟩

/-- The source without repeats is made of the lines that are kept; the others are removed. -/
theorem dedupe_eq (text : String) :
    (dedupe text).text = String.ofList (Text.unlines (keptAfter [] (plainLines text)))
      ∧ (keptAfter [] (plainLines text)).length + (dedupe text).removed
        = (plainLines text).length := by
  have hstart : Strainer.Saw [] ⟨[], [], ∅⟩ := fun line _ => by simp
  obtain ⟨hkept, hremoved⟩ := hstart.foldl_add (Text.lines text.toList)
  constructor
  · simpa [dedupe, plainLines] using congrArg (String.ofList ∘ Text.unlines) hkept
  · simp only [dedupe, Deduplicated.removed, plainLines, List.length_reverse, List.length_map]
    simp only [List.length_nil] at hremoved
    omega

theorem getLast?_of_mem_plainLines {text : String} {line : List Char}
    (h : line ∈ plainLines text) : line.getLast? ≠ some '\r' := by
  obtain ⟨raw, -, rfl⟩ := List.mem_map.1 h
  intro hlast
  simpa using Text.getLast?_trimEnd hlast

theorem newline_not_mem_of_mem_plainLines {text : String} {line : List Char}
    (h : line ∈ plainLines text) : '\n' ∉ line := by
  obtain ⟨raw, hraw, rfl⟩ := List.mem_map.1 h
  intro hmem
  exact Text.newline_not_mem_of_mem_lines hraw ((Text.isPrefix_trimEnd _ raw).subset hmem)

/-- The lines of the source without repeats are those that are kept. -/
theorem lines_dedupe (text : String) :
    Text.lines (dedupe text).text.toList = keptAfter [] (plainLines text) := by
  have hsub := (keptAfter_sublist [] (plainLines text)).subset
  rw [(dedupe_eq text).1, String.toList_ofList]
  exact Text.lines_unlines (fun line hline => newline_not_mem_of_mem_plainLines (hsub hline))
    fun line hline => getLast?_of_mem_plainLines (hsub hline)

theorem trimmedLines_eq (text : String) :
    trimmedLines text = (plainLines text).map (Text.trim isPadding) := by
  rw [trimmedLines, plainLines, List.map_map]
  refine List.map_congr_left fun line _ => (Text.trim_trimEnd (fun c hc => ?_) line).symm
  rw [isPadding, hc, Bool.or_true]

theorem trimmedLines_dedupe (text : String) :
    trimmedLines (dedupe text).text
      = (keptAfter [] (plainLines text)).map (Text.trim isPadding) := by
  rw [trimmedLines, lines_dedupe]

/-! ## What they are to the compiler -/

variable {options : Options}

/-- A line with the marks of a pattern has no blanks around it, and is not ignored. -/
theorem of_isRuleLine {line : List Char} (h : isRuleLine line = true) :
    Text.trim isPadding line = line ∧ isIgnorable line = false := by
  rw [isRuleLine, Bool.and_eq_true, beq_iff_eq, List.isPrefixOf_iff_prefix] at h
  obtain ⟨⟨domain, rfl⟩, hlast⟩ := h
  refine ⟨Text.trim_eq_self (fun c hc => ?_) (fun c hc => ?_), rfl⟩
  · cases hc
    rfl
  · cases hlast.symm.trans hc
    rfl

theorem classOf_ne_ignorable {line : List Char} (h : isIgnorable line = false) :
    options.classOf line ≠ .ignorable := by
  rw [Options.classOf, classify, h, if_neg Bool.false_ne_true]
  cases domainOf options.maxDomainLength.toNat line with
  | ok domain => exact nofun
  | error reason => exact nofun

/-- For the compiler, a line that is left out is refused or a repeat. -/
theorem verdictAfter_of_isLeftOut (hdedupe : options.dedupe = true) {before : List (List Char)}
    {line : List Char} (h : isLeftOut before line = true) :
    options.verdictAfter (before.map (Text.trim isPadding)) (Text.trim isPadding line) = .duplicate
      ∨ ∃ reason, options.verdictAfter (before.map (Text.trim isPadding))
        (Text.trim isPadding line) = .rejected reason := by
  rw [isLeftOut, Bool.and_eq_true, List.contains_iff_mem] at h
  obtain ⟨htrim, hcontent⟩ := of_isRuleLine h.1
  have hbefore : line ∈ before.map (Text.trim isPadding) := List.mem_map.2 ⟨line, h.2, htrim⟩
  rw [htrim, Options.verdictAfter]
  cases hclass : options.classOf line with
  | ignorable => exact absurd hclass (classOf_ne_ignorable hcontent)
  | rejected reason => exact .inr ⟨reason, rfl⟩
  | pattern domain =>
    have hrepeats : options.repeats (before.map (Text.trim isPadding)) line = true := by
      simp [Options.repeats, Options.accepts, hclass, hdedupe, hbefore]
    exact .inl (if_pos hrepeats)

theorem verdictAfter_congr {before other : List (List Char)} (h : ∀ l, l ∈ before ↔ l ∈ other)
    (line : List Char) : options.verdictAfter before line = options.verdictAfter other line := by
  have hcontains : before.contains line = other.contains line := by
    rw [Bool.eq_iff_iff, List.contains_iff_mem, List.contains_iff_mem, h]
  rw [Options.verdictAfter, Options.verdictAfter, Options.repeats, Options.repeats, hcontains]

/-- It makes no difference how often and where a line stands before. -/
theorem verdictsAfter_congr {before other : List (List Char)} (h : ∀ l, l ∈ before ↔ l ∈ other)
    (lines : List (List Char)) :
    options.verdictsAfter before lines = options.verdictsAfter other lines := by
  induction lines generalizing before other with
  | nil => rfl
  | cons line rest ih =>
    have hnext : ∀ l, l ∈ before ++ [line] ↔ l ∈ other ++ [line] := fun l => by simp [h]
    rw [Options.verdictsAfter, Options.verdictsAfter, verdictAfter_congr h, ih hnext]

/-- What does not look at refused lines and repeats does not see which lines were left out. -/
theorem filterMap_verdictsAfter_keptAfter {β : Type} {f : Verdict → Option β}
    (hrejected : ∀ reason, f (.rejected reason) = none) (hduplicate : f .duplicate = none)
    (hdedupe : options.dedupe = true) (before lines : List (List Char)) :
    (options.verdictsAfter (before.map (Text.trim isPadding))
        ((keptAfter before lines).map (Text.trim isPadding))).filterMap f
      = (options.verdictsAfter (before.map (Text.trim isPadding))
        (lines.map (Text.trim isPadding))).filterMap f := by
  induction lines generalizing before with
  | nil => rfl
  | cons line rest ih =>
    have hrest := ih (before ++ [line])
    simp only [List.map_append, List.map_cons, List.map_nil] at hrest
    rw [keptAfter, List.map_cons, Options.verdictsAfter, List.filterMap_cons]
    split
    · next hout =>
      -- The line stands before already, so the lines after it do not see that it is gone.
      have hmem : Text.trim isPadding line ∈ before.map (Text.trim isPadding) := by
        rw [isLeftOut, Bool.and_eq_true, List.contains_iff_mem] at hout
        exact List.mem_map_of_mem hout.2
      have hsame : ∀ l, l ∈ before.map (Text.trim isPadding)
          ↔ l ∈ before.map (Text.trim isPadding) ++ [Text.trim isPadding line] := fun l => by
        rw [List.mem_append, List.mem_singleton, or_iff_left_of_imp]
        rintro rfl
        exact hmem
      have hnone : f (options.verdictAfter (before.map (Text.trim isPadding))
          (Text.trim isPadding line)) = none := by
        rcases verdictAfter_of_isLeftOut hdedupe hout with hv | ⟨reason, hv⟩
        · rw [hv, hduplicate]
        · rw [hv, hrejected]
      rw [hnone, verdictsAfter_congr hsame, hrest]
    · rw [List.map_cons, Options.verdictsAfter, List.filterMap_cons, hrest]

theorem filterMap_verdicts_dedupe {β : Type} {f : Verdict → Option β}
    (hrejected : ∀ reason, f (.rejected reason) = none) (hduplicate : f .duplicate = none)
    (hdedupe : options.dedupe = true) (text : String) :
    (verdicts options (dedupe text).text).filterMap f = (verdicts options text).filterMap f := by
  rw [verdicts, verdicts, trimmedLines_dedupe, trimmedLines_eq]
  exact filterMap_verdictsAfter_keptAfter hrejected hduplicate hdedupe [] _

theorem countP_isIgnored_verdicts_dedupe (hdedupe : options.dedupe = true) (text : String) :
    (verdicts options (dedupe text).text).countP Verdict.isIgnored
      = (verdicts options text).countP Verdict.isIgnored := by
  have hfilter := filterMap_verdicts_dedupe (f := Option.guard Verdict.isIgnored)
    (fun _ => rfl) rfl hdedupe text
  rw [List.filterMap_eq_filter] at hfilter
  rw [List.countP_eq_length_filter, hfilter, List.countP_eq_length_filter]

theorem length_verdicts_dedupe (options : Options) (text : String) :
    (verdicts options (dedupe text).text).length + (dedupe text).removed
      = (verdicts options text).length := by
  rw [verdicts, verdicts, length_verdictsAfter, length_verdictsAfter, trimmedLines_dedupe,
    trimmedLines_eq, List.length_map, List.length_map]
  exact (dedupe_eq text).2

/-- Compiled without repeats, a source gives the same with and without its repeats: the same error,
or the same rules and as many ignored lines. The lines that are missing are those removed. -/
theorem compile_dedupe (options : Options) (text : String) (hdedupe : options.dedupe = true) :
    (∃ e, compile options (dedupe text).text = .error e ∧ compile options text = .error e)
      ∨ ∃ thinned whole, compile options (dedupe text).text = .ok thinned
        ∧ compile options text = .ok whole
        ∧ thinned.rules = whole.rules
        ∧ thinned.stats.ignoredLines = whole.stats.ignoredLines
        ∧ thinned.stats.totalLines + (dedupe text).removed = whole.stats.totalLines := by
  have hcandidates : options.candidates (trimmedLines (dedupe text).text)
      = options.candidates (trimmedLines text) := by
    rw [← filterMap_pattern?_verdicts, ← filterMap_pattern?_verdicts]
    exact filterMap_verdicts_dedupe (fun _ => rfl) rfl hdedupe text
  have hignored := countP_isIgnored_verdicts_dedupe hdedupe text
  have hlength := length_verdicts_dedupe options text
  by_cases hstart : options.startId = 0
  · exact .inl ⟨_, compile_eq_invalidOptions _ hstart, compile_eq_invalidOptions _ hstart⟩
  · rw [compile_eq _ hstart, compile_eq _ hstart, hcandidates]
    generalize verdicts options (dedupe text).text = thinned at hignored hlength ⊢
    generalize verdicts options text = whole at hignored hlength ⊢
    split
    · exact .inl ⟨_, rfl, rfl⟩
    · exact .inr ⟨_, _, rfl, rfl, rfl, hignored, hlength⟩

/-- A pattern four times, of which the source without repeats keeps the second one with a blank
before it, and a refused line twice. -/
def repeatedList : String :=
  "! list\n||a.com^\r\n ||a.com^\n||a.com^\n||*.b.com^\n||a.com^\r\r\n||*.b.com^\n||c.de^"

/-- Three lines are removed, and two ids are enough before and after. -/
theorem compile_dedupe_repeatedList :
    lastIds.dedupe = true ∧ (dedupe repeatedList).removed = 3
      ∧ ∃ thinned whole, compile lastIds (dedupe repeatedList).text = .ok thinned
        ∧ compile lastIds repeatedList = .ok whole ∧ thinned.rules = whole.rules
        ∧ thinned.stats.ignoredLines = whole.stats.ignoredLines
        ∧ thinned.stats.totalLines + 3 = whole.stats.totalLines := by
  have hlength : (plainLines repeatedList).length = 8 := by decide +kernel
  have hkept : (keptAfter [] (plainLines repeatedList)).length = 5 := by decide +kernel
  have hremoved : (dedupe repeatedList).removed = 3 := by
    have hsum := (dedupe_eq repeatedList).2
    omega
  have hstart : lastIds.startId ≠ 0 := by decide
  have hroom : ¬ lastIds.capacity < (lastIds.candidates (trimmedLines repeatedList)).length := by
    decide +kernel
  refine ⟨rfl, hremoved, ?_⟩
  rcases compile_dedupe lastIds repeatedList rfl with ⟨e, -, he⟩ | hsame
  · rw [compile_eq _ hstart, if_neg hroom] at he
    cases he
  · rwa [hremoved] at hsame

end Blocklist.FilterList
