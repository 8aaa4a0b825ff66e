import Blocklist.FilterList.Compile
import Mathlib.Data.List.Basic

set_option autoImplicit false

/-! # Verdicts on lines

What becomes of a line depends on the line and on whether an earlier one is equal to it
(`Options.verdictAfter`); so the verdicts on the lines of a text can be told without going through
them (`getElem?_verdictsAfter`). The patterns of the verdicts are the candidates for rules
(`filterMap_pattern?_verdicts`), and what there is to count and to refuse is read off the
verdicts. -/

namespace Blocklist.FilterList

variable {options : Options}

/-! ## Lines -/

/-- The lines of a text, without the blanks around them. -/
def trimmedLines (text : String) : List (List Char) :=
  (Text.lines text.toList).map (Text.trim isPadding)

/-- What a line is under the limit of the options. -/
def Options.classOf (options : Options) (line : List Char) : LineClass :=
  classify options.maxDomainLength.toNat line

/-- Whether a line is a pattern. -/
def Options.accepts (options : Options) (line : List Char) : Bool :=
  match options.classOf line with
  | .pattern _ => true
  | _ => false

/-- The reason to refuse a line, if it is refused. -/
def Options.refusal? (options : Options) (line : List Char) : Option RejectReason :=
  match options.classOf line with
  | .rejected reason => some reason
  | _ => none

/-- The patterns among the lines, as they stand. -/
def Options.patterns (options : Options) (lines : List (List Char)) : List String :=
  (lines.filter options.accepts).map String.ofList

/-- The patterns that get a rule: all of them, or the first occurrence of each. -/
def Options.candidates (options : Options) (lines : List (List Char)) : List String :=
  if options.dedupe then (options.patterns lines).eraseDups else options.patterns lines

/-- Whether a line after the given ones is passed over as one of them. -/
def Options.repeats (options : Options) (before : List (List Char)) (line : List Char) : Bool :=
  options.dedupe && options.accepts line && before.contains line

theorem refusal?_eq_some_iff {line : List Char} {reason : RejectReason} :
    options.refusal? line = some reason ↔ options.classOf line = .rejected reason := by
  rw [Options.refusal?]
  cases options.classOf line with
  | ignorable => simp
  | pattern domain => simp
  | rejected other => simp

theorem mem_patterns {lines : List (List Char)} {pattern : String} :
    pattern ∈ options.patterns lines
      ↔ ∃ line ∈ lines, options.accepts line = true ∧ String.ofList line = pattern := by
  simp [Options.patterns, and_assoc]

/-- A pattern is among those of the lines iff it is one of the lines. -/
theorem ofList_mem_patterns {lines : List (List Char)} {line : List Char}
    (h : options.accepts line = true) :
    String.ofList line ∈ options.patterns lines ↔ line ∈ lines := by
  rw [mem_patterns]
  constructor
  · rintro ⟨other, hother, -, heq⟩
    exact String.ofList_injective heq ▸ hother
  · intro hline
    exact ⟨line, hline, h, rfl⟩

/-! ## Verdicts -/

/-- What becomes of a line. -/
inductive Verdict where
  | ignored
  | rejected (reason : RejectReason)
  /-- A pattern that gave a rule before. -/
  | duplicate
  | rule (pattern : String)
deriving DecidableEq, Repr

namespace Verdict

/-- Whether the line is passed over as a comment, a header or an empty line. -/
def isIgnored : Verdict → Bool
  | ignored => true
  | _ => false

/-- The reason for which the line is refused, if it is. -/
def reason? : Verdict → Option RejectReason
  | rejected reason => some reason
  | _ => none

/-- Whether the line repeats a pattern. -/
def isDuplicate : Verdict → Bool
  | duplicate => true
  | _ => false

/-- The pattern of the line's rule, if it gives one. -/
def pattern? : Verdict → Option String
  | rule pattern => some pattern
  | _ => none

end Verdict

/-- What becomes of a line that stands after the given ones. -/
def Options.verdictAfter (options : Options) (before : List (List Char)) (line : List Char) :
    Verdict :=
  match options.classOf line with
  | .ignorable => .ignored
  | .rejected reason => .rejected reason
  | .pattern _ => if options.repeats before line then .duplicate else .rule (String.ofList line)

/-- What becomes of lines that stand after the given ones. -/
def Options.verdictsAfter (options : Options) (before : List (List Char)) :
    List (List Char) → List Verdict
  | [] => []
  | line :: rest =>
    options.verdictAfter before line :: options.verdictsAfter (before ++ [line]) rest

theorem isIgnored_verdictAfter (before : List (List Char)) (line : List Char) :
    (options.verdictAfter before line).isIgnored = (options.classOf line == .ignorable) := by
  cases hclass : options.classOf line with
  | ignorable => simp [Options.verdictAfter, hclass, Verdict.isIgnored]
  | rejected reason => simp [Options.verdictAfter, hclass, Verdict.isIgnored]
  | pattern domain =>
    by_cases hrepeats : options.repeats before line = true
    · simp [Options.verdictAfter, hclass, hrepeats, Verdict.isIgnored]
    · simp [Options.verdictAfter, hclass, hrepeats, Verdict.isIgnored]

theorem reason?_verdictAfter (before : List (List Char)) (line : List Char) :
    (options.verdictAfter before line).reason? = options.refusal? line := by
  cases hclass : options.classOf line with
  | ignorable => simp [Options.verdictAfter, Options.refusal?, hclass, Verdict.reason?]
  | rejected reason => simp [Options.verdictAfter, Options.refusal?, hclass, Verdict.reason?]
  | pattern domain =>
    by_cases hrepeats : options.repeats before line = true
    · simp [Options.verdictAfter, Options.refusal?, hclass, hrepeats, Verdict.reason?]
    · simp [Options.verdictAfter, Options.refusal?, hclass, hrepeats, Verdict.reason?]

theorem isDuplicate_verdictAfter (before : List (List Char)) (line : List Char) :
    (options.verdictAfter before line).isDuplicate = options.repeats before line := by
  cases hclass : options.classOf line with
  | ignorable =>
    simp [Options.verdictAfter, Options.repeats, Options.accepts, hclass, Verdict.isDuplicate]
  | rejected reason =>
    simp [Options.verdictAfter, Options.repeats, Options.accepts, hclass, Verdict.isDuplicate]
  | pattern domain =>
    by_cases hrepeats : options.repeats before line = true
    · simp [Options.verdictAfter, hclass, hrepeats, Verdict.isDuplicate]
    · simp [Options.verdictAfter, hclass, hrepeats, Verdict.isDuplicate]

theorem pattern?_verdictAfter (before : List (List Char)) (line : List Char) :
    (options.verdictAfter before line).pattern?
      = if options.accepts line && !options.repeats before line then some (String.ofList line)
        else none := by
  cases hclass : options.classOf line with
  | ignorable => simp [Options.verdictAfter, Options.accepts, hclass, Verdict.pattern?]
  | rejected reason => simp [Options.verdictAfter, Options.accepts, hclass, Verdict.pattern?]
  | pattern domain =>
    by_cases hrepeats : options.repeats before line = true
    · simp [Options.verdictAfter, Options.accepts, hclass, hrepeats, Verdict.pattern?]
    · simp [Options.verdictAfter, Options.accepts, hclass, hrepeats, Verdict.pattern?]

/-- The verdicts on the lines of a text, in order. -/
def verdicts (options : Options) (text : String) : List Verdict :=
  options.verdictsAfter [] (trimmedLines text)

theorem verdictsAfter_append_singleton (before lines : List (List Char)) (line : List Char) :
    options.verdictsAfter before (lines ++ [line])
      = options.verdictsAfter before lines ++ [options.verdictAfter (before ++ lines) line] := by
  induction lines generalizing before with
  | nil => simp [Options.verdictsAfter]
  | cons first rest ih => simp [Options.verdictsAfter, ih]

theorem getElem?_verdictsAfter (before lines : List (List Char)) (i : Nat) :
    (options.verdictsAfter before lines)[i]?
      = lines[i]?.map (options.verdictAfter (before ++ lines.take i)) := by
  induction lines generalizing before i with
  | nil => simp [Options.verdictsAfter]
  | cons line rest ih =>
    cases i with
    | zero => simp [Options.verdictsAfter]
    | succ i => simp [Options.verdictsAfter, ih]

/-! ## Candidates -/

theorem patterns_append (lines more : List (List Char)) :
    options.patterns (lines ++ more) = options.patterns lines ++ options.patterns more := by
  simp [Options.patterns]

theorem patterns_singleton (line : List Char) :
    options.patterns [line] = if options.accepts line then [String.ofList line] else [] := by
  by_cases haccepts : options.accepts line = true
  · simp [Options.patterns, haccepts]
  · simp [Options.patterns, haccepts]

theorem eraseDups_append_singleton {α : Type} [BEq α] [LawfulBEq α] (xs : List α) (x : α) :
    (xs ++ [x]).eraseDups = xs.eraseDups ++ if x ∈ xs then [] else [x] := by
  rw [List.eraseDups_append]
  by_cases hmem : x ∈ xs
  · simp [List.removeAll, hmem]
  · simp [List.removeAll, hmem, List.eraseDups_cons]

theorem candidates_append_singleton (before : List (List Char)) (line : List Char) :
    options.candidates (before ++ [line])
      = options.candidates before ++ ((options.verdictAfter before line).pattern?).toList := by
  rw [pattern?_verdictAfter, Options.candidates, Options.candidates, patterns_append,
    patterns_singleton, Options.repeats]
  by_cases haccepts : options.accepts line = true
  · by_cases hdedupe : options.dedupe = true
    · rw [if_pos hdedupe, if_pos hdedupe, if_pos haccepts, eraseDups_append_singleton]
      have hmem : String.ofList line ∈ options.patterns before ↔ line ∈ before :=
        ofList_mem_patterns haccepts
      by_cases hline : line ∈ before
      · simp [haccepts, hdedupe, hmem, hline]
      · simp [haccepts, hdedupe, hmem, hline]
    · simp [haccepts, hdedupe]
  · simp [haccepts]

/-- The lines that give rules are the candidates. -/
theorem candidates_append (before lines : List (List Char)) :
    options.candidates (before ++ lines)
      = options.candidates before
        ++ (options.verdictsAfter before lines).filterMap Verdict.pattern? := by
  induction lines generalizing before with
  | nil => simp [Options.verdictsAfter]
  | cons line rest ih =>
    rw [List.append_cons, ih, candidates_append_singleton, Options.verdictsAfter]
    cases hpattern : (options.verdictAfter before line).pattern? with
    | none => simp [hpattern]
    | some pattern => simp [hpattern]

/-- More lines do not take candidates away. -/
theorem length_candidates_le (before lines : List (List Char)) :
    (options.candidates before).length ≤ (options.candidates (before ++ lines)).length := by
  rw [candidates_append, List.length_append]
  exact Nat.le_add_right _ _

theorem filterMap_pattern?_verdicts (options : Options) (text : String) :
    (verdicts options text).filterMap Verdict.pattern?
      = options.candidates (trimmedLines text) := by
  have hnil : options.candidates [] = [] := by simp [Options.candidates, Options.patterns]
  simpa [hnil, verdicts] using (@candidates_append options [] (trimmedLines text)).symm

/-! ## Counts -/

/-- The counts of a list of verdicts. -/
def Stats.ofVerdicts (vs : List Verdict) : Stats :=
  let ignored := vs.countP Verdict.isIgnored
  let reasons := vs.filterMap Verdict.reason?
  let duplicates := vs.countP Verdict.isDuplicate
  { totalLines := vs.length
    processedRules := (vs.filterMap Verdict.pattern?).length
    skippedLines := ignored + reasons.length + duplicates
    errors := reasons.countP RejectReason.isStructural
    ignoredLines := ignored
    rejectedLines := reasons.length
    duplicateLines := duplicates }

/-- One more verdict, counted by its kind. -/
def Stats.add (stats : Stats) : Verdict → Stats
  | .ignored => stats.addIgnored
  | .rejected reason => stats.addRejected reason
  | .duplicate => stats.addDuplicate
  | .rule _ => stats.addRule

theorem ofVerdicts_append_singleton (vs : List Verdict) (v : Verdict) :
    Stats.ofVerdicts (vs ++ [v]) = (Stats.ofVerdicts vs).addLine.add v := by
  simp only [Stats.ofVerdicts, Stats.addLine, List.length_append, List.filterMap_append,
    List.countP_append, List.filterMap_cons, List.filterMap_nil, List.countP_singleton]
  cases v with
  | ignored =>
    simp [Stats.add, Stats.addIgnored, Verdict.isIgnored, Verdict.isDuplicate, Verdict.reason?,
      Verdict.pattern?]
    omega
  | rejected reason =>
    cases hstructural : reason.isStructural with
    | true =>
      simp [Stats.add, Stats.addRejected, Verdict.isIgnored, Verdict.isDuplicate, Verdict.reason?,
        Verdict.pattern?, hstructural]
      omega
    | false =>
      simp [Stats.add, Stats.addRejected, Verdict.isIgnored, Verdict.isDuplicate, Verdict.reason?,
        Verdict.pattern?, hstructural]
      omega
  | duplicate =>
    simp [Stats.add, Stats.addDuplicate, Verdict.isIgnored, Verdict.isDuplicate, Verdict.reason?,
      Verdict.pattern?]
    omega
  | rule pattern =>
    simp [Stats.add, Stats.addRule, Verdict.isIgnored, Verdict.isDuplicate, Verdict.reason?,
      Verdict.pattern?]

theorem map_verdictsAfter {α : Type} (f : Verdict → α) (before lines : List (List Char)) :
    (options.verdictsAfter before lines).map f
      = lines.mapIdx fun i line => f (options.verdictAfter (before ++ lines.take i) line) := by
  refine List.ext_getElem? fun i => ?_
  rw [List.getElem?_map, getElem?_verdictsAfter, List.getElem?_mapIdx, Option.map_map]
  rfl

theorem length_verdictsAfter (before lines : List (List Char)) :
    (options.verdictsAfter before lines).length = lines.length := by
  simpa using congrArg List.length (@map_verdictsAfter options _ id before lines)

/-- A count that looks at the lines alone. -/
theorem countP_verdictsAfter {p : Verdict → Bool} {q : List Char → Bool}
    (h : ∀ before line, p (options.verdictAfter before line) = q line)
    (before lines : List (List Char)) :
    (options.verdictsAfter before lines).countP p = lines.countP q := by
  induction lines generalizing before with
  | nil => rfl
  | cons line rest ih => simp [Options.verdictsAfter, List.countP_cons, h, ih]

/-- Every verdict is of one kind. -/
theorem length_eq_sum_of_kinds (vs : List Verdict) :
    vs.length = (vs.filterMap Verdict.pattern?).length
      + (vs.countP Verdict.isIgnored + (vs.filterMap Verdict.reason?).length
        + vs.countP Verdict.isDuplicate) := by
  simp only [List.length_filterMap_eq_countP]
  induction vs with
  | nil => rfl
  | cons v rest ih =>
    rw [List.length_cons, ih]
    simp only [List.countP_cons]
    cases v with
    | ignored =>
      simp [Verdict.pattern?, Verdict.reason?, Verdict.isIgnored, Verdict.isDuplicate]
      omega
    | rejected reason =>
      simp [Verdict.pattern?, Verdict.reason?, Verdict.isIgnored, Verdict.isDuplicate]
      omega
    | duplicate =>
      simp [Verdict.pattern?, Verdict.reason?, Verdict.isIgnored, Verdict.isDuplicate]
      omega
    | rule pattern =>
      simp [Verdict.pattern?, Verdict.reason?, Verdict.isIgnored, Verdict.isDuplicate]
      omega

/-- The only structural fault is a NUL character. -/
theorem isStructural_eq (reason : RejectReason) :
    reason.isStructural = (reason == .nullCharacter) := by
  cases reason with
  | domainTooLong length limit => simp [RejectReason.isStructural]
  | _ => rfl

/-! ## Rejections -/

/-- The rejections of a list of verdicts, in the order of their lines. -/
def rejectionsOf (vs : List Verdict) : List Rejection :=
  (vs.zipIdx 1).filterMap fun (v, line) => v.reason?.map fun reason => ⟨line, reason⟩

theorem rejectionsOf_append_singleton (vs : List Verdict) (v : Verdict) :
    rejectionsOf (vs ++ [v])
      = rejectionsOf vs
        ++ (v.reason?.map fun reason => (⟨vs.length + 1, reason⟩ : Rejection)).toList := by
  cases hreason : v.reason? with
  | none => simp [rejectionsOf, List.zipIdx_append, hreason]
  | some reason => simp [rejectionsOf, List.zipIdx_append, hreason, Nat.add_comm]

theorem mem_rejectionsOf {vs : List Verdict} {r : Rejection} :
    r ∈ rejectionsOf vs ↔ 1 ≤ r.line ∧ vs[r.line - 1]?.bind Verdict.reason? = some r.reason := by
  obtain ⟨line, reason⟩ := r
  simp only [rejectionsOf, List.mem_filterMap, Prod.exists, Option.map_eq_some_iff,
    Rejection.mk.injEq, List.mem_zipIdx_iff_le_and_getElem?_sub, Option.bind_eq_some_iff]
  constructor
  · rintro ⟨v, i, ⟨hle, hv⟩, reason', hreason, rfl, rfl⟩
    exact ⟨hle, v, hv, hreason⟩
  · rintro ⟨hle, v, hv, hreason⟩
    exact ⟨v, line, ⟨hle, hv⟩, reason, hreason, rfl, rfl⟩

theorem pairwise_rejectionsOf (vs : List Verdict) :
    (rejectionsOf vs).Pairwise (·.line < ·.line) := by
  have hnumbers : (vs.zipIdx 1).Pairwise (·.2 < ·.2) := by
    have hsnd : ((vs.zipIdx 1).map Prod.snd).Pairwise (· < ·) := by
      rw [List.zipIdx_map_snd]
      exact List.pairwise_lt_range'
    exact List.pairwise_map.1 hsnd
  rw [rejectionsOf, List.pairwise_filterMap]
  refine hnumbers.imp fun hlt r hr r' hr' => ?_
  obtain ⟨_, -, rfl⟩ := Option.map_eq_some_iff.1 hr
  obtain ⟨_, -, rfl⟩ := Option.map_eq_some_iff.1 hr'
  exact hlt

/-! ## Rules -/

/-- The block rules of patterns, with ids that count up from the first. -/
def rulesOf (options : Options) (patterns : List String) : List Rule :=
  (patterns.zipIdx).map fun (pattern, i) =>
    .block (options.startId + UInt32.ofNat i) options.priority pattern

/-- The number of ids from the first one on. -/
def Options.capacity (options : Options) : Nat :=
  UInt32.size - options.startId.toNat

theorem rulesOf_append_singleton (patterns : List String) (pattern : String) :
    rulesOf options (patterns ++ [pattern])
      = rulesOf options patterns
        ++ [.block (options.startId + UInt32.ofNat patterns.length) options.priority pattern] := by
  simp [rulesOf, List.zipIdx_append]

theorem length_rulesOf (patterns : List String) :
    (rulesOf options patterns).length = patterns.length := by
  simp [rulesOf]

/-- As long as the ids last, they count up from the first one. -/
theorem getElem?_rulesOf {patterns : List String} (hroom : patterns.length ≤ options.capacity)
    {k : Nat} {pattern : String} (hpattern : patterns[k]? = some pattern) :
    ∃ id : UInt32, id.toNat = options.startId.toNat + k
      ∧ (rulesOf options patterns)[k]? = some (.block id options.priority pattern) := by
  have hk : k < patterns.length := (List.getElem?_eq_some_iff.1 hpattern).1
  have hsize : UInt32.size = 2 ^ 32 := rfl
  rw [Options.capacity, hsize] at hroom
  refine ⟨options.startId + UInt32.ofNat k, ?_, ?_⟩
  · rw [UInt32.toNat_add, UInt32.toNat_ofNat']
    omega
  · rw [rulesOf, List.getElem?_map, List.getElem?_zipIdx, hpattern]
    simp

end Blocklist.FilterList
