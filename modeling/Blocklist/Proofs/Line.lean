import Blocklist.FilterList.Line

set_option autoImplicit false

/-! # The grammar of lines

What a line is can be said without the order of the checks. It is a remark, or it is a pattern
(`IsPattern`), or something is wrong with it. Several things may be wrong with a line at once, each
of them a fault for itself (`Faulty`); the one that is told is the first of them (`FirstFault`).
Every line is of exactly one of these kinds, and `classify` says of which (`classify_grammar`). -/

namespace Blocklist.FilterList

/-! ## The grammar -/

/-- An empty line, or one that starts like a comment or a header. -/
def IsRemark (line : List Char) : Prop :=
  line = [] ∨ ∃ c ∈ ['!', '[', '#'], line.head? = some c

/-- A domain between the marks of a pattern. -/
def anchored (domain : List Char) : List Char :=
  '|' :: '|' :: (domain ++ ['^'])

/-- A line that is the pattern of a domain. -/
structure IsPattern (limit : Nat) (line domain : List Char) : Prop where
  line_eq : line = anchored domain
  two_le_length : 2 ≤ domain.length
  length_le : domain.length ≤ limit
  no_wildcard : '*' ∉ domain
  no_path : '/' ∉ domain
  no_null : '\x00' ∉ domain

/-- The characters that a domain must not hold, and what is wrong with a domain that does. -/
inductive Forbidden : Char → RejectReason → Prop where
  | wildcard : Forbidden '*' .wildcard
  | path : Forbidden '/' .path
  | nullCharacter : Forbidden '\x00' .nullCharacter

/-- What is wrong with a line, whatever else may be wrong with it. Of the characters that a domain
must not hold, only the leftmost counts. -/
inductive Faulty (limit : Nat) (line : List Char) : RejectReason → Prop where
  | tooShort : line.length ≤ 4 → Faulty limit line .tooShort
  | missingHostAnchor : ¬ ['|', '|'] <+: line → Faulty limit line .missingHostAnchor
  | missingSeparator : ¬ ['^'] <:+ line → Faulty limit line .missingSeparator
  | domainTooLong {domain : List Char} : line = anchored domain → limit < domain.length →
      Faulty limit line (.domainTooLong domain.length limit)
  | forbidden {before after : List Char} {c : Char} {reason : RejectReason} :
      line = anchored (before ++ c :: after) → (∀ x ∈ before, ∀ other, ¬ Forbidden x other) →
      Forbidden c reason → Faulty limit line reason

/-- The place of a fault among the faults of a line. Those of a character come last, and all at one
place, since a line has at most one of them. -/
def RejectReason.rank : RejectReason → Nat
  | tooShort => 0
  | missingHostAnchor => 1
  | missingSeparator => 2
  | domainTooLong _ _ => 3
  | wildcard | path | nullCharacter => 4

/-- The fault of a line that comes before all others. -/
def FirstFault (limit : Nat) (line : List Char) (reason : RejectReason) : Prop :=
  Faulty limit line reason ∧ ∀ other, Faulty limit line other → reason.rank ≤ other.rank

/-! ## Parts of a line -/

theorem isIgnorable_eq_true_iff (line : List Char) : isIgnorable line = true ↔ IsRemark line := by
  cases line with
  | nil => simp [isIgnorable, IsRemark]
  | cons c rest => simp [isIgnorable, IsRemark, or_assoc]

theorem faultOfChar?_eq_some_iff {c : Char} {reason : RejectReason} :
    faultOfChar? c = some reason ↔ Forbidden c reason := by
  constructor
  · intro h
    unfold faultOfChar? at h
    split at h
    · cases h; exact .wildcard
    · cases h; exact .path
    · cases h; exact .nullCharacter
    · cases h
  · rintro (_ | _ | _) <;> rfl

theorem faultOfChar?_eq_none_iff {c : Char} :
    faultOfChar? c = none ↔ ∀ reason, ¬ Forbidden c reason := by
  simp only [Option.eq_none_iff_forall_ne_some, Ne, faultOfChar?_eq_some_iff]

theorem anchored_injective {a b : List Char} (h : anchored a = anchored b) : a = b := by
  simpa [anchored] using h

theorem length_anchored (domain : List Char) : (anchored domain).length = domain.length + 3 := by
  simp [anchored]

theorem anchor_prefix_anchored (domain : List Char) : ['|', '|'] <+: anchored domain :=
  ⟨domain ++ ['^'], rfl⟩

theorem separator_suffix_anchored (domain : List Char) : ['^'] <:+ anchored domain :=
  ⟨'|' :: '|' :: domain, rfl⟩

/-- A line with room between its two marks is a domain between them. -/
theorem exists_eq_anchored {line : List Char} (hlength : 4 < line.length)
    (hanchor : ['|', '|'] <+: line) (hseparator : ['^'] <:+ line) :
    ∃ domain, line = anchored domain := by
  obtain ⟨rest, rfl⟩ := hanchor
  have hrest : ['^'] <:+ rest := by
    refine List.suffix_of_suffix_length_le hseparator (List.suffix_append ..) ?_
    simp at hlength ⊢
    omega
  obtain ⟨domain, rfl⟩ := hrest
  exact ⟨domain, rfl⟩

/-! ## The first fault -/

section

variable {limit : Nat} {line domain : List Char} {reason first : RejectReason}

/-- A fault that comes before all others is the first one. -/
theorem firstFault_iff_eq (hfirst : Faulty limit line first)
    (hothers : ∀ other, Faulty limit line other → other = first ∨ first.rank < other.rank) :
    FirstFault limit line reason ↔ reason = first := by
  constructor
  · rintro ⟨hfaulty, hle⟩
    have hrank := hle first hfirst
    rcases hothers reason hfaulty with heq | hlt
    · exact heq
    · omega
  · rintro rfl
    refine ⟨hfirst, fun other hother => ?_⟩
    rcases hothers other hother with rfl | hlt
    · exact Nat.le_refl _
    · exact Nat.le_of_lt hlt

theorem firstFault_of_short (hlength : line.length ≤ 4) :
    FirstFault limit line reason ↔ reason = .tooShort := by
  refine firstFault_iff_eq (.tooShort hlength) fun other _ => ?_
  cases other <;> simp [RejectReason.rank]

theorem firstFault_of_no_anchor (hlength : 4 < line.length) (hanchor : ¬ ['|', '|'] <+: line) :
    FirstFault limit line reason ↔ reason = .missingHostAnchor := by
  refine firstFault_iff_eq (.missingHostAnchor hanchor) fun other hother => ?_
  cases hother with
  | tooShort hshort => omega
  | missingHostAnchor _ => exact .inl rfl
  | missingSeparator _ => exact .inr (by decide)
  | domainTooLong _ _ => exact .inr (by simp [RejectReason.rank])
  | forbidden _ _ hc => exact .inr (by cases hc <;> decide)

theorem firstFault_of_no_separator (hlength : 4 < line.length) (hanchor : ['|', '|'] <+: line)
    (hseparator : ¬ ['^'] <:+ line) :
    FirstFault limit line reason ↔ reason = .missingSeparator := by
  refine firstFault_iff_eq (.missingSeparator hseparator) fun other hother => ?_
  cases hother with
  | tooShort hshort => omega
  | missingHostAnchor hmissing => exact absurd hanchor hmissing
  | missingSeparator _ => exact .inl rfl
  | domainTooLong _ _ => exact .inr (by simp [RejectReason.rank])
  | forbidden _ _ hc => exact .inr (by cases hc <;> decide)

/-- The leftmost character that a domain must not hold gives its fault. -/
theorem findSome?_faultOfChar?_eq_some_iff :
    domain.findSome? faultOfChar? = some reason
      ↔ ∃ before c after, domain = before ++ c :: after
        ∧ (∀ x ∈ before, ∀ other, ¬ Forbidden x other) ∧ Forbidden c reason := by
  rw [List.findSome?_eq_some_iff]
  simp only [faultOfChar?_eq_some_iff, faultOfChar?_eq_none_iff]
  constructor
  · rintro ⟨before, c, after, heq, hc, hbefore⟩
    exact ⟨before, c, after, heq, hbefore, hc⟩
  · rintro ⟨before, c, after, heq, hbefore, hc⟩
    exact ⟨before, c, after, heq, hc, hbefore⟩

/-- Between its marks a line has only faults of its domain. -/
theorem faulty_anchored_iff (htwo : 2 ≤ domain.length) :
    Faulty limit (anchored domain) reason
      ↔ (reason = .domainTooLong domain.length limit ∧ limit < domain.length)
        ∨ domain.findSome? faultOfChar? = some reason := by
  rw [findSome?_faultOfChar?_eq_some_iff]
  constructor
  · intro h
    cases h with
    | tooShort hshort =>
      rw [length_anchored] at hshort
      omega
    | missingHostAnchor hmissing => exact absurd (anchor_prefix_anchored domain) hmissing
    | missingSeparator hmissing => exact absurd (separator_suffix_anchored domain) hmissing
    | domainTooLong heq hlong =>
      obtain rfl := anchored_injective heq
      exact .inl ⟨rfl, hlong⟩
    | forbidden heq hbefore hc => exact .inr ⟨_, _, _, anchored_injective heq, hbefore, hc⟩
  · rintro (⟨rfl, hlong⟩ | ⟨before, c, after, rfl, hbefore, hc⟩)
    · exact .domainTooLong rfl hlong
    · exact .forbidden rfl hbefore hc

theorem firstFault_of_long (htwo : 2 ≤ domain.length) (hlong : limit < domain.length) :
    FirstFault limit (anchored domain) reason
      ↔ reason = .domainTooLong domain.length limit := by
  refine firstFault_iff_eq (.domainTooLong rfl hlong) fun other hother => ?_
  rcases (faulty_anchored_iff htwo).1 hother with ⟨rfl, -⟩ | hchar
  · exact .inl rfl
  · obtain ⟨_, _, _, -, -, hc⟩ := findSome?_faultOfChar?_eq_some_iff.1 hchar
    exact .inr (by cases hc <;> exact Nat.lt_succ_self 3)

/-- A domain that is not too long has the fault of a character, if any. -/
theorem firstFault_of_le (htwo : 2 ≤ domain.length) (hle : domain.length ≤ limit) :
    FirstFault limit (anchored domain) reason
      ↔ domain.findSome? faultOfChar? = some reason := by
  have hfaulty : ∀ other, Faulty limit (anchored domain) other
      ↔ domain.findSome? faultOfChar? = some other := by
    intro other
    rw [faulty_anchored_iff htwo, or_iff_right]
    rintro ⟨-, hlong⟩
    omega
  constructor
  · rintro ⟨h, -⟩
    exact (hfaulty reason).1 h
  · intro h
    refine (firstFault_iff_eq ((hfaulty reason).2 h) fun other hother => .inl ?_).2 rfl
    exact Option.some.inj (((hfaulty other).1 hother).symm.trans h)

/-! ## What a line is -/

theorem isPattern_anchored_iff {other : List Char} :
    IsPattern limit (anchored domain) other
      ↔ domain = other ∧ 2 ≤ domain.length ∧ domain.length ≤ limit
        ∧ domain.findSome? faultOfChar? = none := by
  have hallowed : domain.findSome? faultOfChar? = none
      ↔ '*' ∉ domain ∧ '/' ∉ domain ∧ '\x00' ∉ domain := by
    rw [List.findSome?_eq_none_iff]
    simp only [faultOfChar?_eq_none_iff]
    constructor
    · intro h
      exact ⟨fun hc => h _ hc _ .wildcard, fun hc => h _ hc _ .path,
        fun hc => h _ hc _ .nullCharacter⟩
    · rintro ⟨hwildcard, hpath, hnull⟩ c hc reason hforbidden
      cases hforbidden with
      | wildcard => exact hwildcard hc
      | path => exact hpath hc
      | nullCharacter => exact hnull hc
  rw [hallowed]
  constructor
  · rintro ⟨heq, htwo, hle, hwildcard, hpath, hnull⟩
    obtain rfl := anchored_injective heq
    exact ⟨rfl, htwo, hle, hwildcard, hpath, hnull⟩
  · rintro ⟨rfl, htwo, hle, hwildcard, hpath, hnull⟩
    exact ⟨rfl, htwo, hle, hwildcard, hpath, hnull⟩

theorem IsPattern.marks (h : IsPattern limit line domain) :
    4 < line.length ∧ ['|', '|'] <+: line ∧ ['^'] <:+ line := by
  obtain ⟨rfl, htwo, -⟩ := h
  refine ⟨?_, anchor_prefix_anchored domain, separator_suffix_anchored domain⟩
  rw [length_anchored]
  omega

theorem domainOf_of_short (hlength : line.length ≤ 4) : domainOf limit line = .error .tooShort :=
  if_pos hlength

theorem domainOf_of_no_anchor (hlength : 4 < line.length) (hanchor : ¬ ['|', '|'] <+: line) :
    domainOf limit line = .error .missingHostAnchor := by
  unfold domainOf
  rw [if_neg (Nat.not_le.2 hlength)]
  split
  · next rest => exact absurd ⟨rest, rfl⟩ hanchor
  · rfl

theorem domainOf_of_no_separator (hlength : 4 < line.length) (hanchor : ['|', '|'] <+: line)
    (hseparator : ¬ ['^'] <:+ line) : domainOf limit line = .error .missingSeparator := by
  obtain ⟨rest, rfl⟩ := hanchor
  have hlast : rest.getLast? ≠ some '^' := by
    rintro h
    obtain ⟨domain, rfl⟩ := List.getLast?_eq_some_iff.1 h
    exact hseparator (separator_suffix_anchored domain)
  unfold domainOf
  rw [if_neg (Nat.not_le.2 hlength)]
  exact if_neg hlast

theorem domainOf_anchored (htwo : 2 ≤ domain.length) :
    domainOf limit (anchored domain)
      = if limit < domain.length then .error (.domainTooLong domain.length limit)
        else (domain.findSome? faultOfChar?).elim (.ok domain) .error := by
  have hroom : ¬ (anchored domain).length ≤ 4 := by
    rw [length_anchored]
    omega
  have hlast : (domain ++ ['^']).getLast? = some '^' := List.getLast?_concat
  have hdrop : (domain ++ ['^']).dropLast = domain := List.dropLast_concat
  unfold domainOf
  rw [if_neg hroom]
  refine (if_pos hlast).trans ?_
  simp only [hdrop]
  cases domain.findSome? faultOfChar? with
  | some reason => rfl
  | none => rfl

/-- A line has a domain iff it is the pattern of it, and if it has none its first fault is told. -/
theorem domainOf_eq_iff (limit : Nat) (line : List Char) :
    (∀ domain, domainOf limit line = .ok domain ↔ IsPattern limit line domain)
      ∧ ∀ reason, domainOf limit line = .error reason ↔ FirstFault limit line reason := by
  by_cases hlength : 4 < line.length
  · by_cases hanchor : ['|', '|'] <+: line
    · by_cases hseparator : ['^'] <:+ line
      · obtain ⟨domain, rfl⟩ := exists_eq_anchored hlength hanchor hseparator
        have htwo : 2 ≤ domain.length := by
          rw [length_anchored] at hlength
          omega
        rw [domainOf_anchored htwo]
        simp only [isPattern_anchored_iff]
        by_cases hlong : limit < domain.length
        · have hle : ¬ domain.length ≤ limit := Nat.not_le.2 hlong
          simp [if_pos hlong, firstFault_of_long htwo hlong, hle, eq_comm]
        · have hle : domain.length ≤ limit := Nat.not_lt.1 hlong
          rw [if_neg hlong]
          simp only [firstFault_of_le htwo hle]
          cases domain.findSome? faultOfChar? with
          | some reason => simp
          | none => simp [htwo, hle]
      · have hpattern : ∀ domain, ¬ IsPattern limit line domain := fun _ h =>
          hseparator h.marks.2.2
        simp [domainOf_of_no_separator hlength hanchor hseparator, hpattern,
          firstFault_of_no_separator hlength hanchor hseparator, eq_comm]
    · have hpattern : ∀ domain, ¬ IsPattern limit line domain := fun _ h => hanchor h.marks.2.1
      simp [domainOf_of_no_anchor hlength hanchor, hpattern,
        firstFault_of_no_anchor hlength hanchor, eq_comm]
  · have hpattern : ∀ domain, ¬ IsPattern limit line domain := fun _ h => hlength h.marks.1
    have hshort : line.length ≤ 4 := Nat.not_lt.1 hlength
    simp [domainOf_of_short hshort, hpattern, firstFault_of_short hshort, eq_comm]

/-- No pattern is a remark. -/
theorem IsPattern.not_isRemark (h : IsPattern limit line domain) : ¬ IsRemark line := by
  rw [h.line_eq]
  rintro (hnil | ⟨c, hc, hhead⟩)
  · cases hnil
  · cases hhead
    revert hc
    decide

/-- What a line is: a remark, the pattern of a domain, or else something of which the first fault
is told. -/
theorem classify_grammar (limit : Nat) (line : List Char) :
    (classify limit line = .ignorable ↔ IsRemark line)
      ∧ (∀ domain, classify limit line = .pattern domain ↔ IsPattern limit line domain)
      ∧ ∀ reason, classify limit line = .rejected reason
          ↔ ¬ IsRemark line ∧ (∀ domain, ¬ IsPattern limit line domain)
            ∧ FirstFault limit line reason := by
  obtain ⟨hok, herror⟩ := domainOf_eq_iff limit line
  rw [classify]
  by_cases hremark : IsRemark line
  · have hpattern : ∀ domain, ¬ IsPattern limit line domain := fun _ h => h.not_isRemark hremark
    simp [(isIgnorable_eq_true_iff line).2 hremark, hremark, hpattern]
  · have hcontent : ¬ isIgnorable line = true := fun h =>
      hremark ((isIgnorable_eq_true_iff line).1 h)
    rw [if_neg hcontent]
    cases hdomain : domainOf limit line with
    | ok domain =>
      simp only [hdomain, Except.ok.injEq] at hok
      have hpattern : IsPattern limit line domain := (hok domain).1 rfl
      refine ⟨by simp [hremark], fun other => ?_, fun reason => ?_⟩
      · rw [← hok, LineClass.pattern.injEq]
      · exact iff_of_false nofun fun h => h.2.1 domain hpattern
    | error reason =>
      simp only [hdomain, Except.error.injEq] at hok herror
      have hpattern : ∀ domain, ¬ IsPattern limit line domain := fun domain h =>
        nomatch (hok domain).2 h
      refine ⟨by simp [hremark], fun domain => ?_, fun other => ?_⟩
      · exact iff_of_false nofun (hpattern domain)
      · rw [← herror, LineClass.rejected.injEq, and_iff_right hremark, and_iff_right hpattern]

end

/-- No separator, a domain that is too long, and two characters that do not belong there. -/
example : classify 3 "||a/*b.c".toList = .rejected .missingSeparator := by decide

/-- Now only the characters are wrong. -/
example : classify 6 "||a/*b.c^".toList = .rejected .path := by decide

end Blocklist.FilterList
