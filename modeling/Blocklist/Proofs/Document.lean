import Blocklist.Json.Reader
import Blocklist.Json.Writer
import Mathlib.Data.List.TakeWhile
import Mathlib.Tactic.IntervalCases

set_option autoImplicit false

/-! # Documents are read as they were written

A value that was written, in either layout, is read back as it is (`parse?_pretty`). The scanner is
followed along the text and the builder along the tokens; both are said for a value in the middle
of a document, so that lists and records come out by induction on the value.

A number or a word ends only when the character after it is seen. So what the scanner makes of a
value is said for texts that go on with a character that is neither a digit nor a letter
(`Breaks`), and the end of the document counts as a line end (`finish_newline`). -/

namespace Blocklist

/-- Induction on a value, by its items and the values of its members. -/
@[elab_as_elim]
theorem Value.induction {σ ν : Type} {motive : Value σ ν → Prop} (null : motive .null)
    (bool : ∀ b, motive (.bool b)) (number : ∀ n, motive (.number n)) (text : ∀ s, motive (.text s))
    (list : ∀ items, (∀ item ∈ items, motive item) → motive (.list items))
    (record : ∀ members, (∀ member ∈ members, motive member.2) → motive (.record members))
    (v : Value σ ν) : motive v :=
  @Value.rec σ ν motive (fun items => ∀ item ∈ items, motive item)
    (fun members => ∀ member ∈ members, motive member.2) (fun member => motive member.2)
    null bool number text list record (fun _ h => nomatch h)
    (fun _ _ hhead htail => List.forall_mem_cons.2 ⟨hhead, htail⟩) (fun _ h => nomatch h)
    (fun _ _ hhead htail => List.forall_mem_cons.2 ⟨hhead, htail⟩) (fun _ _ h => h) v

namespace Json

/-! ## Scanning -/

/-- The scanner after some more characters. -/
def Scanner.scan (s : Scanner) (cs : List Char) : Option Scanner :=
  (cs.map some).foldlM Scanner.step s

namespace Scanner

@[simp]
theorem scan_nil (s : Scanner) : s.scan [] = some s := rfl

@[simp]
theorem scan_cons (s : Scanner) (c : Char) (cs : List Char) :
    s.scan (c :: cs) = (s.step (some c)).bind (·.scan cs) := rfl

theorem scan_append (s : Scanner) (cs ds : List Char) :
    s.scan (cs ++ ds) = (s.scan cs).bind (·.scan ds) := by
  induction cs generalizing s with
  | nil => rfl
  | cons c cs ih =>
    rw [List.cons_append, scan_cons, scan_cons, Option.bind_assoc]
    exact congrArg _ (funext fun s => ih s)

/-- The scanner between two tokens, with the tokens found so far, last first. -/
def found (tokens : List Token) : Scanner := ⟨tokens, .between⟩

@[simp]
theorem step_found (tokens : List Token) (c : Char) :
    (found tokens).step (some c) = (found tokens).between c := rfl

theorem mode_of_endWord {s after : Scanner} {chars : List Char}
    (h : s.endWord chars = some after) : after.mode = .between := by
  rw [endWord] at h
  split at h
  · cases h; rfl
  · cases h; rfl
  · cases h; rfl
  · cases h

theorem mode_of_endNumber {s after : Scanner} {chars : List Char}
    (h : s.endNumber chars = some after) : after.mode = .between := by
  obtain ⟨n, -, rfl⟩ := Option.map_eq_some_iff.1 h
  rfl

theorem finish_of_ended {ended : Option Scanner} (h : ∀ s ∈ ended, s.mode = .between) :
    (ended.bind (·.between '\n')).bind finish = ended.map (·.tokens.reverse) := by
  cases ended with
  | none => rfl
  | some s =>
    obtain ⟨tokens, mode⟩ := s
    obtain rfl : mode = .between := h _ rfl
    rfl

/-- A line end after the document changes nothing. -/
theorem finish_newline (s : Scanner) : (s.step (some '\n')).bind finish = s.finish := by
  obtain ⟨tokens, mode⟩ := s
  cases mode with
  | between => rfl
  | word chars => exact finish_of_ended fun _ h => mode_of_endWord h
  | number chars => exact finish_of_ended fun _ h => mode_of_endNumber h
  | literal pieces => rfl
  | escape pieces => rfl
  | hex pieces count value => rfl

/-! ### Blanks -/

/-- The characters that a layout may put between tokens. -/
def isSpace (c : Char) : Bool := c == ' ' || c == '\n'

theorem scan_spaces {spaces : List Char} (h : ∀ c ∈ spaces, isSpace c = true) (tokens : List Token)
    (cs : List Char) : (found tokens).scan (spaces ++ cs) = (found tokens).scan cs := by
  induction spaces with
  | nil => rfl
  | cons c spaces ih =>
    obtain ⟨hc, hrest⟩ := List.forall_mem_cons.1 h
    have hbetween : (found tokens).between c = some (found tokens) := by
      rw [isSpace, Bool.or_eq_true, beq_iff_eq, beq_iff_eq] at hc
      rcases hc with rfl | rfl
      · rfl
      · rfl
    rw [List.cons_append, scan_cons, step_found, hbetween]
    exact ih hrest

/-- The text goes on with a character that belongs to no word or number. -/
def Breaks (cs : List Char) : Prop :=
  ∃ c rest, cs = c :: rest ∧ c.isLower = false ∧ isNumberChar c = false

theorem breaks_cons {c : Char} (rest : List Char) (hlower : c.isLower = false)
    (hnumber : isNumberChar c = false) : Breaks (c :: rest) :=
  ⟨c, rest, rfl, hlower, hnumber⟩

theorem breaks_spaces {spaces cs : List Char} (h : ∀ c ∈ spaces, isSpace c = true)
    (hcs : Breaks cs) : Breaks (spaces ++ cs) := by
  cases spaces with
  | nil => exact hcs
  | cons c spaces =>
    have hc := h c (List.mem_cons_self ..)
    rw [isSpace, Bool.or_eq_true, beq_iff_eq, beq_iff_eq] at hc
    rcases hc with rfl | rfl
    · exact breaks_cons _ (by decide) (by decide)
    · exact breaks_cons _ (by decide) (by decide)

/-! ### Words and numbers -/

theorem scan_of_endWord {tokens more : List Token} {chars cs : List Char}
    (hend : endWord ⟨tokens, .word chars⟩ chars = some (found more)) (h : Breaks cs) :
    (Scanner.mk tokens (.word chars)).scan cs = (found more).scan cs := by
  obtain ⟨c, rest, rfl, hlower, -⟩ := h
  have hstep : (Scanner.mk tokens (.word chars)).step (some c)
      = if c.isLower then some ⟨tokens, .word (c :: chars)⟩
        else (endWord ⟨tokens, .word chars⟩ chars).bind (·.between c) := rfl
  rw [scan_cons, hstep, hlower, hend]
  rfl

theorem scan_null (tokens : List Token) {cs : List Char} (h : Breaks cs) :
    (found tokens).scan (['n', 'u', 'l', 'l'] ++ cs) = (found (.null :: tokens)).scan cs :=
  @scan_of_endWord tokens _ ['l', 'l', 'u', 'n'] _ rfl h

theorem scan_true (tokens : List Token) {cs : List Char} (h : Breaks cs) :
    (found tokens).scan (['t', 'r', 'u', 'e'] ++ cs) = (found (.bool true :: tokens)).scan cs :=
  @scan_of_endWord tokens _ ['e', 'u', 'r', 't'] _ rfl h

theorem scan_false (tokens : List Token) {cs : List Char} (h : Breaks cs) :
    (found tokens).scan (['f', 'a', 'l', 's', 'e'] ++ cs)
      = (found (.bool false :: tokens)).scan cs :=
  @scan_of_endWord tokens _ ['e', 's', 'l', 'a', 'f'] _ rfl h

theorem between_of_isDigit {c : Char} (h : c.isDigit = true) (tokens : List Token) :
    (found tokens).between c = some ⟨tokens, .number [c]⟩ := by
  fun_cases between
  case case12 => rfl
  case case13 hdigit _ => simp [h] at hdigit
  case case14 hdigit _ => simp [h] at hdigit
  all_goals exact absurd h (by decide)

theorem scan_digits {digits : List Char} (h : ∀ c ∈ digits, c.isDigit = true) (tokens : List Token)
    (chars cs : List Char) :
    (Scanner.mk tokens (.number chars)).scan (digits ++ cs)
      = (Scanner.mk tokens (.number (digits.reverse ++ chars))).scan cs := by
  induction digits generalizing chars with
  | nil => rfl
  | cons c digits ih =>
    obtain ⟨hc, hrest⟩ := List.forall_mem_cons.1 h
    have hstep : (Scanner.mk tokens (.number chars)).step (some c)
        = if isNumberChar c then some ⟨tokens, .number (c :: chars)⟩
          else (endNumber ⟨tokens, .number chars⟩ chars).bind (·.between c) := rfl
    have hnumber : isNumberChar c = true := by simp [isNumberChar, hc]
    rw [List.cons_append, scan_cons, hstep, if_pos hnumber]
    simpa using ih hrest (c :: chars)

theorem isDigit_of_mem_toDigits {n : Nat} {c : Char} (h : c ∈ Nat.toDigits 10 n) :
    c.isDigit = true :=
  Nat.isDigit_of_mem_toDigits (by decide) (by decide) h

/-- A number is written with a leading zero only if that is all of it. -/
theorem toDigits_cases (n : Nat) :
    Nat.toDigits 10 n = ['0'] ∨ (Nat.toDigits 10 n).head? ≠ some '0' := by
  induction n using Nat.strongRecOn with
  | _ n ih =>
    by_cases hsmall : n < 10
    · rw [Nat.toDigits_of_lt_base hsmall]
      interval_cases n <;> decide
    · have hle : 10 ≤ n := Nat.not_lt.1 hsmall
      have hhead : (Nat.toDigits 10 n).head? = (Nat.toDigits 10 (n / 10)).head? := by
        rw [Nat.toDigits_of_base_le (by decide) hle, List.head?_append, Option.or_of_isSome]
        exact List.isSome_head?.2 Nat.toDigits_ne_nil
      rw [hhead]
      rcases ih (n / 10) (by omega) with hzero | hne
      · have hvalue := congrArg (Nat.ofDigitChars 10 · 0) hzero
        simp only [Nat.ofDigitChars_toDigits (b := 10) (n := n / 10) (by decide) (by decide)]
          at hvalue
        have : n / 10 = 0 := hvalue
        omega
      · exact Or.inr hne

theorem digitsValue_toDigits (n : Nat) : Text.digitsValue (Nat.toDigits 10 n) = n := by
  have hvalue : Text.digitsValue (Nat.toDigits 10 n)
      = Nat.ofDigitChars 10 (Nat.toDigits 10 n) 0 := by
    simp only [Text.digitsValue, Nat.ofDigitChars, Nat.mul_comm]
  rw [hvalue, Nat.ofDigitChars_toDigits (by decide) (by decide)]

theorem numeral?_toDigits (n : Nat) : numeral? (Nat.toDigits 10 n) = some (.natural n) := by
  have hdigits : ∀ c ∈ Nat.toDigits 10 n, c.isDigit = true := fun _ => isDigit_of_mem_toDigits
  have hvalue := digitsValue_toDigits n
  have hcases := toDigits_cases n
  have hne : Nat.toDigits 10 n ≠ [] := Nat.toDigits_ne_nil
  generalize Nat.toDigits 10 n = digits at hdigits hvalue hcases hne
  have htake : takeDigits digits = (digits, []) := by
    rw [takeDigits, List.takeWhile_eq_self_iff.2 hdigits, List.dropWhile_eq_nil_iff.2 hdigits]
  have hzero : (digits.head? == some '0' && decide (1 < digits.length)) = false := by
    rcases hcases with rfl | hhead
    · rfl
    · simp [hhead]
  obtain ⟨d, ds, rfl⟩ := List.exists_cons_of_ne_nil hne
  have hminus : ∀ rest, d :: ds ≠ '-' :: rest := by
    rintro rest heq
    rw [(List.cons.inj heq).1] at hdigits
    exact absurd (hdigits '-' (List.mem_cons_self ..)) (by decide)
  rw [numeral?]
  · simp only [htake, hzero, List.isEmpty_cons, Bool.or_self, Bool.false_eq_true, if_false]
    simp [fraction?, exponent?, hvalue]
  · exact hminus

theorem scan_toDigits (n : Nat) (tokens : List Token) {cs : List Char} (h : Breaks cs) :
    (found tokens).scan (Nat.toDigits 10 n ++ cs)
      = (found (.number (.natural n) :: tokens)).scan cs := by
  obtain ⟨d, ds, hdigits⟩ := List.exists_cons_of_ne_nil (Nat.toDigits_ne_nil (n := n) (b := 10))
  have hall : ∀ c ∈ d :: ds, c.isDigit = true :=
    hdigits ▸ fun _ => isDigit_of_mem_toDigits
  obtain ⟨hd, hds⟩ := List.forall_mem_cons.1 hall
  obtain ⟨c, rest, rfl, -, hnumber⟩ := h
  have hend : endNumber ⟨tokens, .number (ds.reverse ++ [d])⟩ (ds.reverse ++ [d])
      = some (found (.number (.natural n) :: tokens)) := by
    rw [endNumber, List.reverse_append, List.reverse_reverse, List.reverse_singleton,
      List.singleton_append, ← hdigits, numeral?_toDigits]
    rfl
  have hstep : (Scanner.mk tokens (.number (ds.reverse ++ [d]))).step (some c)
      = if isNumberChar c then some ⟨tokens, .number (c :: (ds.reverse ++ [d]))⟩
        else (endNumber ⟨tokens, .number (ds.reverse ++ [d])⟩ (ds.reverse ++ [d])).bind
          (·.between c) := rfl
  rw [hdigits, List.cons_append, scan_cons, step_found, between_of_isDigit hd, Option.bind_some,
    scan_digits hds, scan_cons, hstep, hnumber, hend]
  rfl

/-! ### String literals -/

/-- A piece of a literal spells a character, whatever follows. -/
def Spells (piece : Piece) (c : Char) : Prop :=
  ∀ rest, Piece.spell? (piece :: rest) = (Piece.spell? rest).map (c :: ·)

theorem spells_cell (c : Char) : Spells (.cell (some c)) c := fun _ => rfl

theorem spells_unit {c : Char} (h : c.toNat < 0x20) : Spells (.unit c.toNat) c := by
  intro rest
  have hlow : (c.toNat < 0xD800 || 0xDFFF < c.toNat) = true := by
    rw [Bool.or_eq_true, decide_eq_true_eq]
    omega
  rw [Piece.spell?.eq_def]
  simp only [if_pos hlow, Char.ofNat_toNat]

theorem hexDigit?_hexChar : ∀ n < 16, Text.hexDigit? (Text.hexChar n) = some n := by
  decide

theorem scan_hex {n : Nat} (h : n < 0x100) (tokens : List Token) (pieces : List Piece)
    (cs : List Char) :
    (Scanner.mk tokens (.literal pieces)).scan
        (['\\', 'u', '0', '0', Text.hexChar (n / 16), Text.hexChar (n % 16)] ++ cs)
      = (Scanner.mk tokens (.literal (.unit n :: pieces))).scan cs := by
  have hhigh := hexDigit?_hexChar (n / 16) (by omega)
  have hlow := hexDigit?_hexChar (n % 16) (by omega)
  have hzeros : (Scanner.mk tokens (.literal pieces)).scan
        (['\\', 'u', '0', '0', Text.hexChar (n / 16), Text.hexChar (n % 16)] ++ cs)
      = (Scanner.mk tokens (.hex pieces 2 0)).scan
        ([Text.hexChar (n / 16), Text.hexChar (n % 16)] ++ cs) := rfl
  have hstep : ∀ (count value : Nat) (c : Char),
      (Scanner.mk tokens (.hex pieces count value)).step (some c)
        = (Text.hexDigit? c).map fun d =>
          if count == 3 then ⟨tokens, .literal (.unit (value * 16 + d) :: pieces)⟩
          else ⟨tokens, .hex pieces (count + 1) (value * 16 + d)⟩ := fun _ _ _ => rfl
  have hvalue : (0 * 16 + n / 16) * 16 + n % 16 = n := by omega
  rw [hzeros, List.cons_append, List.cons_append, List.nil_append, scan_cons, hstep, hhigh]
  simp only [Option.map_some, Option.bind_some, scan_cons]
  simp only [Nat.reduceBEq, Bool.false_eq_true, if_false, hstep, hlow, Option.map_some,
    Option.bind_some, Nat.reduceAdd, if_true, hvalue]

/-- The text of a character in a literal gives one piece, which spells the character. -/
theorem scan_escape (c : Char) (tokens : List Token) (pieces : List Piece) (cs : List Char) :
    ∃ piece, Spells piece c
      ∧ (Scanner.mk tokens (.literal pieces)).scan (escape c ++ cs)
        = (Scanner.mk tokens (.literal (piece :: pieces))).scan cs := by
  fun_cases escape c
  case case8 hcontrol =>
    exact ⟨.unit c.toNat, spells_unit hcontrol, scan_hex (by omega) tokens pieces cs⟩
  case case9 hquote hbackslash _ _ _ _ _ hcontrol =>
    refine ⟨.cell (some c), spells_cell c, ?_⟩
    have hstep : (Scanner.mk tokens (.literal pieces)).step (some c)
        = if c == '"' then some (endLiteral ⟨tokens, .literal pieces⟩ pieces)
          else if c == '\\' then some ⟨tokens, .escape pieces⟩
          else if c.toNat < 0x20 then none
          else some ⟨tokens, .literal (.cell (some c) :: pieces)⟩ := rfl
    rw [List.singleton_append, scan_cons, hstep, if_neg (by simpa using hquote),
      if_neg (by simpa using hbackslash), if_neg hcontrol]
    rfl
  all_goals exact ⟨.cell (some _), spells_cell _, rfl⟩

theorem scan_flatMap_escape (cs rest : List Char) (tokens : List Token) (pieces : List Piece) :
    ∃ more, (∀ others, Piece.spell? (more ++ others) = (Piece.spell? others).map (cs ++ ·))
      ∧ (Scanner.mk tokens (.literal pieces)).scan (cs.flatMap escape ++ rest)
        = (Scanner.mk tokens (.literal (more.reverse ++ pieces))).scan rest := by
  induction cs generalizing pieces with
  | nil => exact ⟨[], by simp, rfl⟩
  | cons c cs ih =>
    obtain ⟨piece, hspells, hscan⟩ := scan_escape c tokens pieces (cs.flatMap escape ++ rest)
    obtain ⟨more, hmore, hrest⟩ := ih (piece :: pieces)
    refine ⟨piece :: more, fun others => ?_, ?_⟩
    · rw [List.cons_append, hspells, hmore, Option.map_map]
      rfl
    · rw [List.flatMap_cons, List.append_assoc, hscan, hrest, List.reverse_cons, List.append_assoc]
      rfl

theorem scan_quote (s : String) (tokens : List Token) (cs : List Char) :
    (found tokens).scan (quote s ++ cs) = (found (.text (some s) :: tokens)).scan cs := by
  obtain ⟨pieces, hspell, hscan⟩ := scan_flatMap_escape s.toList ('"' :: cs) tokens []
  have hopen : (found tokens).scan (quote s ++ cs)
      = (Scanner.mk tokens (.literal [])).scan (s.toList.flatMap escape ++ '"' :: cs) := by
    rw [quote, List.cons_append, List.cons_append, List.append_assoc]
    rfl
  have hclose : (Scanner.mk tokens (.literal (pieces.reverse ++ []))).scan ('"' :: cs)
      = (endLiteral ⟨tokens, .literal (pieces.reverse ++ [])⟩ (pieces.reverse ++ [])).scan cs := rfl
  rw [hopen, hscan, hclose, endLiteral, List.append_nil, List.reverse_reverse]
  have hpieces := hspell []
  rw [List.append_nil] at hpieces
  rw [hpieces]
  simp [emit, found, Piece.spell?]

end Scanner

/-! ## The tokens of a value -/

mutual

/-- The tokens with which a value is written. -/
def tokensOf : Written → List Token
  | .null => [.null]
  | .bool b => [.bool b]
  | .number n => [.number (.natural n)]
  | .text s => [.text (some s)]
  | .list [] => [.openList, .closeList]
  | .list (item :: rest) => .openList :: tokensOf item ++ tokensOfItems rest ++ [.closeList]
  | .record [] => [.openRecord, .closeRecord]
  | .record ((name, value) :: rest) =>
    .openRecord :: .text (some name) :: .colon :: tokensOf value ++ tokensOfMembers rest
      ++ [.closeRecord]

/-- The tokens of the items after the first. -/
def tokensOfItems : List Written → List Token
  | [] => []
  | item :: rest => .comma :: tokensOf item ++ tokensOfItems rest

/-- The tokens of the members after the first. -/
def tokensOfMembers : List (String × Written) → List Token
  | [] => []
  | (name, value) :: rest =>
    .comma :: .text (some name) :: .colon :: tokensOf value ++ tokensOfMembers rest

end

/-- What a layout puts between tokens are blanks. -/
structure Layout.Spaced (layout : Layout) : Prop where
  newline : ∀ depth, ∀ c ∈ layout.newline depth, Scanner.isSpace c = true
  afterColon : ∀ c ∈ layout.afterColon, Scanner.isSpace c = true

theorem Layout.spaced_compact : compact.Spaced where
  newline _ _ h := nomatch h
  afterColon _ h := nomatch h

theorem Layout.spaced_pretty : pretty.Spaced := by
  constructor
  · intro depth c hc
    rcases List.mem_cons.1 hc with rfl | hspace
    · rfl
    · rw [(List.mem_replicate.1 hspace).2]
      rfl
  · intro c hc
    rw [List.mem_singleton.1 hc]
    rfl

namespace Scanner

variable {layout : Layout}

/-- Wherever a value is written, the scanner finds its tokens. -/
def Finds (layout : Layout) (v : Written) : Prop :=
  ∀ depth tokens {cs}, Breaks cs →
    (found tokens).scan (write layout depth v ++ cs)
      = (found ((tokensOf v).reverse ++ tokens)).scan cs

theorem breaks_writeItems (depth : Nat) (items : List Written) {cs : List Char} (h : Breaks cs) :
    Breaks (writeItems layout depth items ++ cs) := by
  cases items with
  | nil => exact h
  | cons item rest =>
    rw [writeItems]
    exact breaks_cons _ (by decide) (by decide)

theorem breaks_writeMembers (depth : Nat) (members : List (String × Written)) {cs : List Char}
    (h : Breaks cs) : Breaks (writeMembers layout depth members ++ cs) := by
  cases members with
  | nil => exact h
  | cons member rest =>
    rw [writeMembers]
    exact breaks_cons _ (by decide) (by decide)

theorem scan_writeItems (hlayout : layout.Spaced) {items : List Written}
    (hitems : ∀ item ∈ items, Finds layout item) (depth : Nat) (tokens : List Token)
    {cs : List Char} (h : Breaks cs) :
    (found tokens).scan (writeItems layout depth items ++ cs)
      = (found ((tokensOfItems items).reverse ++ tokens)).scan cs := by
  induction items generalizing tokens with
  | nil => rfl
  | cons item rest ih =>
    obtain ⟨hitem, hrest⟩ := List.forall_mem_cons.1 hitems
    have hcomma : ∀ cs, (found tokens).scan (',' :: cs) = (found (.comma :: tokens)).scan cs :=
      fun _ => rfl
    simp only [writeItems, List.cons_append, List.append_assoc]
    rw [hcomma, scan_spaces (hlayout.newline depth), hitem _ _ (breaks_writeItems depth rest h),
      ih hrest]
    simp [tokensOfItems]

/-- A member is found like its value, after its name and a colon. -/
theorem scan_member (hlayout : layout.Spaced) {value : Written} (hvalue : Finds layout value)
    (name : String) (depth : Nat) (tokens : List Token) {cs : List Char} (h : Breaks cs) :
    (found tokens).scan
        (quote name ++ ':' :: (layout.afterColon ++ (write layout depth value ++ cs)))
      = (found ((tokensOf value).reverse ++ .colon :: .text (some name) :: tokens)).scan cs := by
  have hcolon : ∀ tokens cs, (found tokens).scan (':' :: cs) = (found (.colon :: tokens)).scan cs :=
    fun _ _ => rfl
  rw [scan_quote, hcolon, scan_spaces hlayout.afterColon, hvalue _ _ h]

theorem scan_writeMembers (hlayout : layout.Spaced) {members : List (String × Written)}
    (hmembers : ∀ member ∈ members, Finds layout member.2) (depth : Nat) (tokens : List Token)
    {cs : List Char} (h : Breaks cs) :
    (found tokens).scan (writeMembers layout depth members ++ cs)
      = (found ((tokensOfMembers members).reverse ++ tokens)).scan cs := by
  induction members generalizing tokens with
  | nil => rfl
  | cons member rest ih =>
    obtain ⟨name, value⟩ := member
    obtain ⟨hvalue, hrest⟩ := List.forall_mem_cons.1 hmembers
    have hcomma : ∀ cs, (found tokens).scan (',' :: cs) = (found (.comma :: tokens)).scan cs :=
      fun _ => rfl
    simp only [writeMembers, List.cons_append, List.append_assoc]
    rw [hcomma, scan_spaces (hlayout.newline depth),
      scan_member hlayout hvalue name _ _ (breaks_writeMembers depth rest h), ih hrest]
    simp [tokensOfMembers]

/-- The scanner finds the tokens of every value that is written. -/
theorem finds (hlayout : layout.Spaced) (v : Written) : Finds layout v := by
  induction v using Value.induction with
  | null => exact fun _ tokens _ h => scan_null tokens h
  | bool b =>
    cases b with
    | true => exact fun _ tokens _ h => scan_true tokens h
    | false => exact fun _ tokens _ h => scan_false tokens h
  | number n => exact fun _ tokens _ h => scan_toDigits n tokens h
  | text s => exact fun _ tokens cs _ => scan_quote s tokens cs
  | list items ih =>
    intro depth tokens cs h
    have hclose : ∀ tokens cs, (found tokens).scan (']' :: cs)
        = (found (.closeList :: tokens)).scan cs := fun _ _ => rfl
    have hopen : ∀ tokens cs, (found tokens).scan ('[' :: cs)
        = (found (.openList :: tokens)).scan cs := fun _ _ => rfl
    cases items with
    | nil => rfl
    | cons item rest =>
      obtain ⟨hitem, hrest⟩ := List.forall_mem_cons.1 ih
      have hend : Breaks (layout.newline depth ++ ']' :: cs) :=
        breaks_spaces (hlayout.newline depth) (breaks_cons _ (by decide) (by decide))
      simp only [write, List.cons_append, List.append_assoc, List.nil_append]
      rw [hopen, scan_spaces (hlayout.newline _), hitem _ _ (breaks_writeItems _ rest hend),
        scan_writeItems hlayout hrest _ _ hend, scan_spaces (hlayout.newline depth), hclose]
      simp [tokensOf]
  | record members ih =>
    intro depth tokens cs h
    have hclose : ∀ tokens cs, (found tokens).scan ('}' :: cs)
        = (found (.closeRecord :: tokens)).scan cs := fun _ _ => rfl
    have hopen : ∀ tokens cs, (found tokens).scan ('{' :: cs)
        = (found (.openRecord :: tokens)).scan cs := fun _ _ => rfl
    cases members with
    | nil => rfl
    | cons member rest =>
      obtain ⟨name, value⟩ := member
      obtain ⟨hvalue, hrest⟩ := List.forall_mem_cons.1 ih
      have hend : Breaks (layout.newline depth ++ '}' :: cs) :=
        breaks_spaces (hlayout.newline depth) (breaks_cons _ (by decide) (by decide))
      simp only [write, List.cons_append, List.append_assoc, List.nil_append]
      rw [hopen, scan_spaces (hlayout.newline _),
        scan_member hlayout hvalue name _ _ (breaks_writeMembers _ rest hend),
        scan_writeMembers hlayout hrest _ _ hend, scan_spaces (hlayout.newline depth), hclose]
      simp [tokensOf]

end Scanner

theorem tokens?_eq (cs : List Char) :
    tokens? (cs.map some) = ((Scanner.found []).scan cs).bind Scanner.finish := rfl

/-- A line end after a document changes nothing. -/
theorem tokens?_append_newline (cs : List Char) :
    tokens? ((cs ++ ['\n']).map some) = tokens? (cs.map some) := by
  rw [tokens?_eq, tokens?_eq, Scanner.scan_append]
  cases (Scanner.found []).scan cs with
  | none => rfl
  | some s =>
    rw [Option.bind_some, Option.bind_some, ← Scanner.finish_newline s, Scanner.scan_cons]
    cases s.step (some '\n') with
    | none => rfl
    | some after => rfl

/-- The tokens of a document are those of its value. -/
theorem tokens?_write {layout : Layout} (hlayout : layout.Spaced) (v : Written) :
    tokens? ((write layout 0 v).map some) = some (tokensOf v) := by
  have hbreaks : Scanner.Breaks ['\n'] := Scanner.breaks_cons _ (by decide) (by decide)
  rw [← tokens?_append_newline, tokens?_eq, Scanner.finds hlayout v 0 [] hbreaks, List.append_nil]
  have hend : ((Scanner.found (tokensOf v).reverse).scan ['\n']).bind Scanner.finish
      = some (tokensOf v).reverse.reverse := rfl
  rw [hend, List.reverse_reverse]

/-! ## Building -/

namespace Builder

variable {holes : List Hole}

/-- The builder after some tokens. -/
def build (b : Builder) (tokens : List Token) : Option Builder :=
  tokens.foldlM step b

@[simp]
theorem build_nil (b : Builder) : b.build [] = some b := rfl

@[simp]
theorem build_cons (b : Builder) (t : Token) (tokens : List Token) :
    b.build (t :: tokens) = (b.step t).bind (·.build tokens) := rfl

theorem build_append (b : Builder) (tokens more : List Token) :
    b.build (tokens ++ more) = (b.build tokens).bind (·.build more) := by
  induction tokens generalizing b with
  | nil => rfl
  | cons t tokens ih =>
    rw [List.cons_append, build_cons, build_cons, Option.bind_assoc]
    exact congrArg _ (funext fun b => ih b)

/-- Wherever a value is due, its tokens complete it. -/
def Completes (v : Written) : Prop :=
  ∀ holes, (Builder.mk holes .value).build (tokensOf v) = some ⟨holes, .done v.parsed⟩

/-- The first item of a list is read like any value. -/
theorem build_firstItem (holes : List Hole) (v : Written) :
    (Builder.mk holes .firstItem).build (tokensOf v)
      = (Builder.mk holes .value).build (tokensOf v) := by
  cases v with
  | null => rfl
  | bool b => rfl
  | number n => rfl
  | text s => rfl
  | list items =>
    cases items with
    | nil => rfl
    | cons item rest => rfl
  | record members =>
    cases members with
    | nil => rfl
    | cons member rest => rfl

theorem build_tokensOfItems {items : List Written} (hitems : ∀ item ∈ items, Completes item)
    (holes : List Hole) (before : List Parsed) (v : Parsed) :
    (Builder.mk (.item before :: holes) (.done v)).build (tokensOfItems items ++ [.closeList])
      = some ⟨holes, .done (.list ((v :: before).reverse ++ items.map Written.parsed))⟩ := by
  induction items generalizing before v with
  | nil => simp [tokensOfItems, step, closeValue]
  | cons item rest ih =>
    obtain ⟨hitem, hrest⟩ := List.forall_mem_cons.1 hitems
    have hcomma : (Builder.mk (.item before :: holes) (.done v)).step .comma
        = some ⟨.item (v :: before) :: holes, .value⟩ := rfl
    rw [tokensOfItems, List.cons_append, List.cons_append, build_cons, hcomma, Option.bind_some,
      List.append_assoc, build_append, hitem, Option.bind_some, ih hrest]
    simp

theorem build_tokensOfMembers {members : List (String × Written)}
    (hmembers : ∀ member ∈ members, Completes member.2) (holes : List Hole)
    (before : List (Option String × Parsed)) (name : Option String) (v : Parsed) :
    (Builder.mk (.member before name :: holes) (.done v)).build
        (tokensOfMembers members ++ [.closeRecord])
      = some ⟨holes, .done (.record (((name, v) :: before).reverse
        ++ members.map fun member => (some member.1, Written.parsed member.2)))⟩ := by
  induction members generalizing before name v with
  | nil => simp [tokensOfMembers, step, closeValue]
  | cons member rest ih =>
    obtain ⟨other, value⟩ := member
    obtain ⟨hvalue, hrest⟩ := List.forall_mem_cons.1 hmembers
    have hname : ∀ more, (Builder.mk (.member before name :: holes) (.done v)).build
          (.comma :: .text (some other) :: .colon :: more)
        = (Builder.mk (.member ((name, v) :: before) (some other) :: holes) .value).build more :=
      fun _ => rfl
    simp only [tokensOfMembers, List.cons_append, List.append_assoc]
    rw [hname, build_append, hvalue, Option.bind_some, ih hrest]
    simp

theorem parsed_list (items : List Written) :
    Written.parsed (.list items) = .list (items.map Written.parsed) := by
  rw [Written.parsed, Value.map, Value.mapItems_eq]

theorem parsed_record (members : List (String × Written)) :
    Written.parsed (.record members)
      = .record (members.map fun member => (some member.1, Written.parsed member.2)) := by
  rw [Written.parsed, Value.map, Value.mapMembers_eq]

/-- The tokens of a value complete it. -/
theorem completes (v : Written) : Completes v := by
  induction v using Value.induction with
  | null => exact fun _ => rfl
  | bool b => exact fun _ => rfl
  | number n => exact fun _ => rfl
  | text s => exact fun _ => rfl
  | list items ih =>
    intro holes
    cases items with
    | nil => rfl
    | cons item rest =>
      obtain ⟨hitem, hrest⟩ := List.forall_mem_cons.1 ih
      have hopen : ∀ more, (Builder.mk holes .value).build (.openList :: more)
          = (Builder.mk (.item [] :: holes) .firstItem).build more := fun _ => rfl
      simp only [tokensOf, List.cons_append, List.append_assoc]
      rw [hopen, build_append, build_firstItem, hitem, Option.bind_some,
        build_tokensOfItems hrest, parsed_list]
      rfl
  | record members ih =>
    intro holes
    cases members with
    | nil => rfl
    | cons member rest =>
      obtain ⟨name, value⟩ := member
      obtain ⟨hvalue, hrest⟩ := List.forall_mem_cons.1 ih
      have hopen : ∀ more, (Builder.mk holes .value).build
            (.openRecord :: .text (some name) :: .colon :: more)
          = (Builder.mk (.member [] (some name) :: holes) .value).build more := fun _ => rfl
      simp only [tokensOf, List.cons_append, List.append_assoc]
      rw [hopen, build_append, hvalue, Option.bind_some, build_tokensOfMembers hrest, parsed_record]
      rfl

end Builder

/-! ## Documents -/

theorem value?_tokensOf (v : Written) : value? (tokensOf v) = some v.parsed := by
  have hbuild := Builder.completes v []
  rw [Builder.build] at hbuild
  rw [value?, Builder.start, hbuild]
  rfl

/-- A document in any layout is read as the value that was written. -/
theorem parse?_write {layout : Layout} (hlayout : layout.Spaced) (v : Written) :
    parse? (String.ofList (write layout 0 v)) = some v.parsed := by
  rw [parse?, parseCells?, String.toList_ofList, tokens?_write hlayout, Option.bind_some,
    value?_tokensOf]

theorem parse?_pretty (v : Written) : parse? (pretty v) = some v.parsed :=
  parse?_write Layout.spaced_pretty v

theorem parse?_compact (v : Written) : parse? (compact v) = some v.parsed :=
  parse?_write Layout.spaced_compact v

/-- A line end after a document changes nothing. -/
theorem parse?_append_newline (text : String) : parse? (text ++ "\n") = parse? text := by
  rw [parse?, parse?, parseCells?, parseCells?, String.toList_append]
  exact congrArg (·.bind value?) (tokens?_append_newline text.toList)

end Json

end Blocklist
