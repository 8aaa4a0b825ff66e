import Blocklist.Proofs.Progress

set_option autoImplicit false

/-! # What a compilation is

What a compilation must be is said in terms of the lines alone (`Compilation.Meets`): the rules are
those of the candidates, in order and with ids that count up, the rejections are the refused lines,
and every counter counts its lines. The loop that goes through the lines ends with what the verdicts
on them say; so a compilation succeeds and meets this as long as the ids last, and fails for want of
ids otherwise (`compile_meets_or_exhausts`). -/

namespace Blocklist.FilterList

variable {options : Options}

/-- What the compilation of some lines has to be. -/
structure Compilation.Meets (options : Options) (lines : List (List Char)) (c : Compilation) :
    Prop where
  /-- There is one rule for each candidate. -/
  length_rules : c.rules.length = (options.candidates lines).length
  /-- The rules block the candidates as they stand, in order, and their ids count up. -/
  rules : ∀ k pattern, (options.candidates lines)[k]? = some pattern →
    ∃ id : UInt32, id.toNat = options.startId.toNat + k
      ∧ c.rules[k]? = some (.block id options.priority pattern)
  /-- The rejections are the refused lines, numbered from 1 on. -/
  mem_rejections : ∀ line reason, ⟨line, reason⟩ ∈ c.rejections
    ↔ ∃ i content, line = i + 1 ∧ lines[i]? = some content
      ∧ options.classOf content = .rejected reason
  rejections_in_order : c.rejections.Pairwise (·.line < ·.line)
  total : c.stats.totalLines = lines.length
  processed : c.stats.processedRules = (options.candidates lines).length
  ignored : c.stats.ignoredLines = lines.countP (options.classOf · == .ignorable)
  rejected : c.stats.rejectedLines = lines.countP fun line => (options.refusal? line).isSome
  /-- The duplicates are the patterns that stand among the lines before them, if these count. -/
  duplicates : c.stats.duplicateLines
    = (lines.mapIdx fun i line => options.repeats (lines.take i) line).count true
  errors : c.stats.errors = lines.countP (options.classOf · == .rejected .nullCharacter)
  processed_add_skipped : c.stats.processedRules + c.stats.skippedLines = c.stats.totalLines
  skipped : c.stats.ignoredLines + c.stats.rejectedLines + c.stats.duplicateLines
    = c.stats.skippedLines

theorem mem_rejectionsOf_verdictsAfter {lines : List (List Char)} {line : Nat}
    {reason : RejectReason} :
    ⟨line, reason⟩ ∈ rejectionsOf (options.verdictsAfter [] lines)
      ↔ ∃ i content, line = i + 1 ∧ lines[i]? = some content
        ∧ options.classOf content = .rejected reason := by
  rw [mem_rejectionsOf, getElem?_verdictsAfter]
  simp only [Option.bind_map, Function.comp_def, reason?_verdictAfter, Option.bind_eq_some_iff,
    refusal?_eq_some_iff]
  constructor
  · rintro ⟨hle, content, hcontent, hclass⟩
    exact ⟨line - 1, content, by omega, hcontent, hclass⟩
  · rintro ⟨i, content, rfl, hcontent, hclass⟩
    exact ⟨by omega, content, hcontent, hclass⟩

theorem countP_isStructural_verdictsAfter (lines : List (List Char)) :
    ((options.verdictsAfter [] lines).filterMap Verdict.reason?).countP RejectReason.isStructural
      = lines.countP (options.classOf · == .rejected .nullCharacter) := by
  rw [List.countP_filterMap, countP_verdictsAfter fun before line => ?_]
  rw [reason?_verdictAfter, Options.refusal?]
  cases options.classOf line with
  | ignorable => rfl
  | pattern domain => rfl
  | rejected reason => simp [isStructural_eq]

theorem length_reasons_verdictsAfter (lines : List (List Char)) :
    ((options.verdictsAfter [] lines).filterMap Verdict.reason?).length
      = lines.countP fun line => (options.refusal? line).isSome := by
  rw [List.length_filterMap_eq_countP]
  exact countP_verdictsAfter (fun before line => by rw [reason?_verdictAfter]) [] lines

theorem countP_isDuplicate_verdictsAfter (lines : List (List Char)) :
    (options.verdictsAfter [] lines).countP Verdict.isDuplicate
      = (lines.mapIdx fun i line => options.repeats (lines.take i) line).count true := by
  have hmap := @map_verdictsAfter options _ Verdict.isDuplicate [] lines
  simp only [isDuplicate_verdictAfter, List.nil_append] at hmap
  rw [← hmap, List.count, List.countP_map]
  simp [Function.comp_def]

/-- The compilation of a text, as long as the ids last. -/
theorem meets_of_verdicts (options : Options) (text : String)
    (hroom : (options.candidates (trimmedLines text)).length ≤ options.capacity) :
    Compilation.Meets options (trimmedLines text)
      { rules := rulesOf options (options.candidates (trimmedLines text))
        stats := .ofVerdicts (verdicts options text)
        rejections := rejectionsOf (verdicts options text) } := by
  have hpatterns := filterMap_pattern?_verdicts options text
  have hsum := length_eq_sum_of_kinds (verdicts options text)
  rw [verdicts] at hpatterns hsum ⊢
  exact {
    length_rules := length_rulesOf _
    rules := fun _ _ => getElem?_rulesOf hroom
    mem_rejections := fun _ _ => mem_rejectionsOf_verdictsAfter
    rejections_in_order := pairwise_rejectionsOf _
    total := length_verdictsAfter ..
    processed := congrArg List.length hpatterns
    ignored := countP_verdictsAfter isIgnored_verdictAfter ..
    rejected := length_reasons_verdictsAfter _
    duplicates := countP_isDuplicate_verdictsAfter _
    errors := countP_isStructural_verdictsAfter _
    processed_add_skipped := hsum.symm
    -- The loop counts the skipped lines by themselves; `Progress.Follows` has them as this sum.
    skipped := rfl }

/-- As long as there are no more candidates than ids, a compilation succeeds and is what it has to
be. If there are more, it fails and tells how many rules found an id. -/
theorem compile_meets_or_exhausts (options : Options) (text : String)
    (hstart : 1 ≤ options.startId) :
    ((options.candidates (trimmedLines text)).length ≤ UInt32.size - options.startId.toNat →
      ∃ c, compile options text = .ok c ∧ c.Meets options (trimmedLines text))
    ∧ (UInt32.size - options.startId.toNat < (options.candidates (trimmedLines text)).length →
      compile options text
        = .error (.idSpaceExhausted options.startId (UInt32.size - options.startId.toNat))) := by
  have hne : options.startId ≠ 0 := by
    rintro heq
    rw [heq] at hstart
    exact absurd hstart (by decide)
  have hcapacity : UInt32.size - options.startId.toNat = options.capacity := rfl
  rw [hcapacity, compile_eq text hne]
  constructor
  · intro hroom
    exact ⟨_, if_neg (Nat.not_lt.2 hroom), meets_of_verdicts options text hroom⟩
  · intro hfull
    exact if_pos hfull

/-- Two ids are left, and a pattern that is given twice is one rule. -/
def lastIds : Options := ⟨0xFFFFFFFE, 7, Options.defaultMaxDomainLength, true⟩

/-- A comment, a pattern, the pattern again with blanks around it, a refused line, and a pattern. -/
def shortList : String := "! list\n||a.com^\r\n \t||a.com^\n||*.b.com^\n||c.de^"

/-- Without repeats the two ids are enough for the list, and with them they are not. -/
theorem compile_shortList :
    1 ≤ lastIds.startId
      ∧ (lastIds.candidates (trimmedLines shortList)).length ≤ UInt32.size - lastIds.startId.toNat
      ∧ (∃ c, compile lastIds shortList = .ok c ∧ c.Meets lastIds (trimmedLines shortList))
      ∧ compile { lastIds with dedupe := false } shortList
        = .error (.idSpaceExhausted lastIds.startId (UInt32.size - lastIds.startId.toNat)) := by
  have hstart : 1 ≤ lastIds.startId := by decide
  have hroom : (lastIds.candidates (trimmedLines shortList)).length
      ≤ UInt32.size - lastIds.startId.toNat := by decide +kernel
  exact ⟨hstart, hroom, (compile_meets_or_exhausts lastIds shortList hstart).1 hroom,
    (compile_meets_or_exhausts { lastIds with dedupe := false } shortList hstart).2
      (by decide +kernel)⟩

end Blocklist.FilterList
