import Blocklist.Proofs.Verdicts

set_option autoImplicit false

/-! # The loop and the verdicts

Compiling is a loop that carries the rules, the counters, the rejections, the patterns seen so far
and the next id. What it has come to after some lines is what the verdicts on them say
(`Progress.Follows`): one more line keeps to that or finds no id, and so does any number of lines,
by induction. So a compilation is known from the verdicts, and it fails iff there are more
candidates than ids (`compile_eq`). -/

namespace Blocklist.FilterList

variable {options : Options} {before : List (List Char)} {progress after : Progress}

/-! ## Ids -/

/-- The id of a rule that has `k` rules before it, if there is one. -/
def Options.idAt? (options : Options) (k : Nat) : Option UInt32 :=
  if k < options.capacity then some (options.startId + UInt32.ofNat k) else none

theorem idAt?_eq_some_iff {k : Nat} {id : UInt32} :
    options.idAt? k = some id
      ↔ k < options.capacity ∧ options.startId + UInt32.ofNat k = id := by
  simp [Options.idAt?]

theorem idAt?_eq_none_iff {k : Nat} : options.idAt? k = none ↔ options.capacity ≤ k := by
  simp [Options.idAt?]

theorem idAt?_zero (options : Options) : options.idAt? 0 = some options.startId := by
  have hlt : options.startId.toNat < UInt32.size := options.startId.toNat_lt
  refine idAt?_eq_some_iff.2 ⟨Nat.sub_pos_of_lt hlt, ?_⟩
  simp

/-- The next id is there as long as the ids last, and counts on from the one before. -/
theorem idAfter?_of_idAt? {k : Nat} {id : UInt32} (h : options.idAt? k = some id) :
    idAfter? id = options.idAt? (k + 1) := by
  obtain ⟨hlt, rfl⟩ := idAt?_eq_some_iff.1 h
  have hsize : UInt32.size = 2 ^ 32 := rfl
  have htoNat : (options.startId + UInt32.ofNat k).toNat = options.startId.toNat + k := by
    rw [Options.capacity, hsize] at hlt
    rw [UInt32.toNat_add, UInt32.toNat_ofNat']
    omega
  have hiff : options.startId.toNat + k + 1 < UInt32.size ↔ k + 1 < options.capacity := by
    rw [Options.capacity, hsize]
    omega
  have hsucc : options.startId + UInt32.ofNat k + 1 = options.startId + UInt32.ofNat (k + 1) := by
    rw [UInt32.ofNat_add, UInt32.add_assoc]
    rfl
  rw [idAfter?, htoNat, Options.idAt?, hsucc]
  simp only [hiff]

/-! ## One line -/

/-- What a compilation has come to after the given lines, without the blanks around them. -/
structure Progress.Follows (options : Options) (before : List (List Char)) (progress : Progress) :
    Prop where
  rules : progress.rules.toList = rulesOf options (options.candidates before)
  stats : progress.stats = .ofVerdicts (options.verdictsAfter [] before)
  rejections : progress.rejections.toList = rejectionsOf (options.verdictsAfter [] before)
  /-- The patterns seen are those of the lines, if they are looked for. -/
  seen : options.dedupe = true →
    ∀ pattern, pattern ∈ progress.seen ↔ pattern ∈ options.patterns before
  nextId : progress.nextId = options.idAt? (options.candidates before).length
  room : (options.candidates before).length ≤ options.capacity

namespace Progress.Follows

theorem start (options : Options) : (Progress.start options).Follows options [] := by
  have hpatterns : options.patterns [] = [] := by simp [Options.patterns]
  have hcandidates : options.candidates [] = [] := by simp [Options.candidates, hpatterns]
  constructor
  · simp [Progress.start, hcandidates, rulesOf]
  · rfl
  · rfl
  · simp [Progress.start, hpatterns]
  · rw [hcandidates]
    exact (idAt?_zero options).symm
  · simp [hcandidates]

/-- A line that gives no rule. -/
theorem skip (h : progress.Follows options before) {line : List Char}
    (hpattern : (options.verdictAfter before line).pattern? = none)
    (hrules : after.rules = progress.rules) (hnext : after.nextId = progress.nextId)
    (hseen : after.seen = progress.seen)
    (hpatterns : options.dedupe = true → ∀ pattern,
      pattern ∈ options.patterns (before ++ [line]) ↔ pattern ∈ options.patterns before)
    (hstats : after.stats = progress.stats.addLine.add (options.verdictAfter before line))
    (hrejections : after.rejections.toList = progress.rejections.toList
      ++ ((options.verdictAfter before line).reason?.map fun reason =>
        (⟨before.length + 1, reason⟩ : Rejection)).toList) :
    after.Follows options (before ++ [line]) := by
  have hcandidates : options.candidates (before ++ [line]) = options.candidates before := by
    simp [candidates_append_singleton, hpattern]
  have hlength : (options.verdictsAfter [] before).length = before.length :=
    length_verdictsAfter ..
  constructor
  · rw [hrules, hcandidates, h.rules]
  · rw [hstats, h.stats, verdictsAfter_append_singleton, ofVerdicts_append_singleton]
    rfl
  · rw [hrejections, h.rejections, verdictsAfter_append_singleton, rejectionsOf_append_singleton,
      hlength]
    rfl
  · intro hdedupe pattern
    rw [hseen, h.seen hdedupe, hpatterns hdedupe]
  · rw [hnext, hcandidates, h.nextId]
  · rw [hcandidates]
    exact h.room

/-- A line that gives a rule. -/
theorem rule (h : progress.Follows options before) {line : List Char} {id : UInt32}
    (hverdict : options.verdictAfter before line = .rule (String.ofList line))
    (hid : progress.nextId = some id)
    (hrules : after.rules = progress.rules.push (.block id options.priority (String.ofList line)))
    (hnext : after.nextId = idAfter? id)
    (hseen : options.dedupe = true → after.seen = progress.seen.insert (String.ofList line))
    (haccepts : options.accepts line = true)
    (hstats : after.stats = progress.stats.addLine.addRule)
    (hrejections : after.rejections = progress.rejections) :
    after.Follows options (before ++ [line]) := by
  have hcandidates : options.candidates (before ++ [line])
      = options.candidates before ++ [String.ofList line] := by
    rw [candidates_append_singleton, hverdict]
    rfl
  have hidAt := h.nextId.symm.trans hid
  obtain ⟨hlt, hstart⟩ := idAt?_eq_some_iff.1 hidAt
  constructor
  · rw [hrules, Array.toList_push, h.rules, hcandidates, rulesOf_append_singleton, hstart]
  · rw [hstats, h.stats, verdictsAfter_append_singleton, ofVerdicts_append_singleton,
      List.nil_append, hverdict]
    rfl
  · rw [hrejections, h.rejections, verdictsAfter_append_singleton, rejectionsOf_append_singleton,
      List.nil_append, hverdict]
    simp [Verdict.reason?]
  · intro hdedupe pattern
    rw [hseen hdedupe, Std.HashSet.mem_insert, h.seen hdedupe, patterns_append,
      patterns_singleton, if_pos haccepts, List.mem_append, List.mem_singleton, beq_iff_eq]
    rw [or_comm, eq_comm]
  · rw [hnext, idAfter?_of_idAt? hidAt, hcandidates, List.length_append, List.length_singleton]
  · rw [hcandidates, List.length_append, List.length_singleton]
    exact hlt

/-- The loop looks for the text of a line among the patterns, the verdict for the line itself. -/
theorem contains_seen (h : progress.Follows options before) {line : List Char}
    (haccepts : options.accepts line = true) :
    (options.dedupe && progress.seen.contains (String.ofList line))
      = options.repeats before line := by
  rw [Options.repeats, haccepts, Bool.and_true]
  cases hdedupe : options.dedupe with
  | false => rfl
  | true =>
    rw [Bool.true_and, Bool.true_and, Bool.eq_iff_iff, Std.HashSet.contains_iff_mem,
      List.contains_iff_mem, h.seen hdedupe, ofList_mem_patterns haccepts]

/-- Without a next id, there is a rule for each id. -/
theorem length_candidates (h : progress.Follows options before) (hid : progress.nextId = none) :
    (options.candidates before).length = options.capacity :=
  Nat.le_antisymm h.room (idAt?_eq_none_iff.1 (h.nextId.symm.trans hid))

theorem size_rules (h : progress.Follows options before) :
    progress.rules.size = (options.candidates before).length := by
  rw [← Array.length_toList, h.rules, length_rulesOf]

/-- One more line is taken, or it finds no id since all of them are used up. -/
theorem take (h : progress.Follows options before) (line : List Char) :
    match progress.take options before.length line with
    | (.ok (), after) => after.Follows options (before ++ [Text.trim isPadding line])
    | (.error e, _) => e = .idSpaceExhausted options.startId options.capacity
        ∧ options.capacity
          < (options.candidates (before ++ [Text.trim isPadding line])).length := by
  unfold Progress.take
  generalize Text.trim isPadding line = trimmed
  have hclass : classify options.maxDomainLength.toNat trimmed = options.classOf trimmed := rfl
  simp only [hclass]
  cases hkind : options.classOf trimmed with
  | ignorable =>
    have haccepts : options.accepts trimmed = false := by simp [Options.accepts, hkind]
    have hverdict : options.verdictAfter before trimmed = .ignored := by
      simp [Options.verdictAfter, hkind]
    refine h.skip (by rw [hverdict]; rfl) rfl rfl rfl (fun _ pattern => ?_) ?_ ?_
    · simp [patterns_append, patterns_singleton, haccepts]
    · rw [hverdict]
      rfl
    · simp [hverdict, Verdict.reason?]
  | rejected reason =>
    have haccepts : options.accepts trimmed = false := by simp [Options.accepts, hkind]
    have hverdict : options.verdictAfter before trimmed = .rejected reason := by
      simp [Options.verdictAfter, hkind]
    refine h.skip (by rw [hverdict]; rfl) rfl rfl rfl (fun _ pattern => ?_) ?_ ?_
    · simp [patterns_append, patterns_singleton, haccepts]
    · rw [hverdict]
      rfl
    · simp [hverdict, Verdict.reason?]
  | pattern domain =>
    have haccepts : options.accepts trimmed = true := by simp [Options.accepts, hkind]
    simp only [h.contains_seen haccepts]
    by_cases hrepeated : options.repeats before trimmed = true
    · have hverdict : options.verdictAfter before trimmed = .duplicate := by
        simp [Options.verdictAfter, hkind, hrepeated]
      have hmem : trimmed ∈ before := by
        simp only [Options.repeats, Bool.and_eq_true, List.contains_iff_mem] at hrepeated
        exact hrepeated.2
      rw [if_pos hrepeated]
      refine h.skip (by rw [hverdict]; rfl) rfl rfl rfl (fun _ pattern => ?_) ?_ ?_
      · rw [patterns_append, patterns_singleton, if_pos haccepts, List.mem_append,
          List.mem_singleton, or_iff_left_of_imp]
        rintro rfl
        exact (ofList_mem_patterns haccepts).2 hmem
      · rw [hverdict]
        rfl
      · simp [hverdict, Verdict.reason?]
    · have hverdict : options.verdictAfter before trimmed = .rule (String.ofList trimmed) := by
        simp [Options.verdictAfter, hkind, hrepeated]
      rw [if_neg hrepeated]
      cases hid : progress.nextId with
      | some id =>
        refine h.rule hverdict hid rfl rfl (fun hdedupe => ?_) haccepts rfl rfl
        rw [if_pos hdedupe]
      | none =>
        have hfull := h.length_candidates hid
        refine ⟨by rw [h.size_rules, hfull], ?_⟩
        rw [candidates_append_singleton, hverdict, List.length_append, hfull]
        exact Nat.lt_succ_self _

/-! ## All lines -/

/-- Any number of lines is taken, or one of them finds no id. -/
theorem takeAll (h : progress.Follows options before) (lines : List (List Char)) :
    match progress.takeAll options before.length lines with
    | (.ok (), after) => after.Follows options (before ++ lines.map (Text.trim isPadding))
    | (.error e, _) => e = .idSpaceExhausted options.startId options.capacity
        ∧ options.capacity
          < (options.candidates (before ++ lines.map (Text.trim isPadding))).length := by
  induction lines generalizing before progress with
  | nil =>
    rw [Progress.takeAll, List.map_nil, List.append_nil]
    exact h
  | cons line rest ih =>
    have hline := h.take line
    rw [Progress.takeAll, List.map_cons, List.append_cons]
    cases htake : progress.take options before.length line with
    | mk result next =>
      rw [htake] at hline
      cases result with
      | ok =>
        have hrest := ih hline
        rw [List.length_append, List.length_singleton] at hrest
        exact hrest
      | error e =>
        exact ⟨hline.1, Nat.lt_of_lt_of_le hline.2 (length_candidates_le _ _)⟩

end Progress.Follows

/-- A compilation is read off the verdicts on the lines, unless there are more candidates than
ids. -/
theorem compile_eq (text : String) (hstart : options.startId ≠ 0) :
    compile options text
      = if options.capacity < (options.candidates (trimmedLines text)).length then
          .error (.idSpaceExhausted options.startId options.capacity)
        else
          .ok {
            rules := rulesOf options (options.candidates (trimmedLines text))
            stats := .ofVerdicts (verdicts options text)
            rejections := rejectionsOf (verdicts options text) } := by
  have hloop := (Progress.Follows.start options).takeAll (Text.lines text.toList)
  rw [compile, compileLines, if_neg hstart]
  cases htaken : (Progress.start options).takeAll options 0 (Text.lines text.toList) with
  | mk result progress =>
    rw [List.length_nil, htaken] at hloop
    cases result with
    | ok =>
      have hfollows : progress.Follows options (trimmedLines text) := hloop
      rw [if_neg (Nat.not_lt.2 hfollows.room), ← hfollows.rules, verdicts, ← hfollows.stats,
        ← hfollows.rejections]
      rfl
    | error e =>
      obtain ⟨rfl, hfull⟩ := hloop
      exact (if_pos hfull).symm

theorem compile_eq_invalidOptions (text : String) (hstart : options.startId = 0) :
    compile options text = .error .invalidOptions := by
  rw [compile, compileLines, if_pos hstart]
  rfl

end Blocklist.FilterList
