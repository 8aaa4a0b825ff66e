import Blocklist.Text.LowerCase
import Blocklist.Proofs.Text

set_option autoImplicit false

/-! # Texts in lower case

Lower-casing a text once is enough (`lower_lower`). No entry of the table maps a code point that an
entry leads to, which is seen from the bounds and the steps of two entries at a time
(`CaseRun.spares`); a capital sigma and a capital I with a dot above, the two characters with rules
of their own, come out of no entry either. So what lower-casing leaves behind are small characters
(`isSmall_of_mem_lower`), which it does not touch wherever they stand. And a text whose ASCII
letters are made small first comes out the same (`lower_map_toLower`). -/

namespace Blocklist.Text

/-! ## The table -/

/-- Whether a run maps no code point that another one leads to: those lie outside its range, or
between the code points that it maps. -/
def CaseRun.spares (run other : CaseRun) : Bool :=
  other.apply other.last < run.first || run.last < other.image
    || (run.first ≤ other.image && (other.image - run.first) % run.step != 0
      && (other.first == other.last || other.step % run.step == 0))

theorem CaseRun.covers_iff {run : CaseRun} {code : Nat} :
    run.covers code = true
      ↔ run.first ≤ code ∧ code ≤ run.last ∧ (code - run.first) % run.step = 0 := by
  simp [covers, and_assoc]

/-- The images of a run stay within its bounds. -/
theorem CaseRun.apply_mem {run : CaseRun} {code : Nat} (h : run.covers code = true) :
    run.image ≤ run.apply code ∧ run.apply code ≤ run.apply run.last := by
  obtain ⟨hfirst, hlast, -⟩ := covers_iff.1 h
  simp only [apply]
  omega

theorem CaseRun.covers_apply {run other : CaseRun} {code : Nat} (hspares : run.spares other = true)
    (hcode : other.covers code = true) : run.covers (other.apply code) = false := by
  obtain ⟨hlow, hhigh⟩ := apply_mem hcode
  obtain ⟨hfirst, hlast, hstep⟩ := covers_iff.1 hcode
  rw [Bool.eq_false_iff, Ne, covers_iff]
  rintro ⟨hfrom, hto, hmod⟩
  simp only [spares, Bool.or_eq_true, Bool.and_eq_true, decide_eq_true_eq, bne_iff_ne,
    beq_iff_eq] at hspares
  rcases hspares with (hbelow | habove) | ⟨⟨hwithin, hbetween⟩, hsteps⟩
  · omega
  · omega
  · -- The distance from the image of the first code point is a multiple of both steps.
    have hdistance : (code - other.first) % run.step = 0 := by
      rcases hsteps with hone | hsteps
      · rw [show code - other.first = 0 by omega, Nat.zero_mod]
      · exact Nat.mod_eq_zero_of_dvd
          (Nat.dvd_trans (Nat.dvd_of_mod_eq_zero hsteps) (Nat.dvd_of_mod_eq_zero hstep))
    rw [apply, Nat.sub_add_comm hwithin, Nat.add_mod, hdistance, Nat.add_zero, Nat.mod_mod] at hmod
    exact hbetween hmod

theorem caseRuns_spare : ∀ run ∈ caseRuns, ∀ other ∈ caseRuns, run.spares other = true := by
  have hall : (caseRuns.all fun run => caseRuns.all run.spares) = true := by decide +kernel
  simpa only [List.all_eq_true] using hall

/-- No entry leads to a capital I with a dot above, and none leads below the small letters. -/
theorem caseRuns_images : ∀ run ∈ caseRuns,
    0x61 ≤ run.image ∧ (run.apply run.last < 0x130 ∨ 0x130 < run.image) := by
  decide +kernel

/-- Every entry leads to scalar values. -/
theorem caseRuns_scalar : ∀ run ∈ caseRuns, run.apply run.last < 0xD800
    ∨ 0xDFFF < run.image ∧ run.apply run.last < 0x110000 := by
  decide +kernel

/-- A code point is mapped by an entry of the table, or is mapped by none and stays as it is. -/
theorem lowerCode_cases (code : Nat) :
    (∃ run ∈ caseRuns, run.covers code = true ∧ lowerCode code = run.apply code)
      ∨ (∀ run ∈ caseRuns, run.covers code = false) ∧ lowerCode code = code := by
  rw [lowerCode]
  split
  · next run hfind =>
    have hcovers : run.covers code = true := by simpa using List.find?_some hfind
    exact .inl ⟨run, List.mem_of_find?_eq_some hfind, hcovers, rfl⟩
  · next hfind =>
    exact .inr ⟨fun run hrun => Bool.eq_false_iff.2 (List.find?_eq_none.1 hfind run hrun), rfl⟩

theorem covers_lowerCode (code : Nat) : ∀ run ∈ caseRuns, run.covers (lowerCode code) = false := by
  rcases lowerCode_cases code with ⟨other, hother, hcovers, hlower⟩ | ⟨hfree, hlower⟩
  · intro run hrun
    rw [hlower]
    exact CaseRun.covers_apply (caseRuns_spare run hrun other hother) hcovers
  · rwa [hlower]

theorem lowerCode_lowerCode (code : Nat) : lowerCode (lowerCode code) = lowerCode code := by
  rcases lowerCode_cases (lowerCode code) with ⟨run, hrun, hcovers, -⟩ | ⟨-, hlower⟩
  · rw [covers_lowerCode code run hrun] at hcovers
    cases hcovers
  · exact hlower

theorem isValidChar_lowerCode (c : Char) : (lowerCode c.toNat).isValidChar := by
  rcases lowerCode_cases c.toNat with ⟨run, hrun, hcovers, hlower⟩ | ⟨-, hlower⟩
  · obtain ⟨hlow, hhigh⟩ := CaseRun.apply_mem hcovers
    rw [hlower, Nat.isValidChar]
    have hscalar := caseRuns_scalar run hrun
    omega
  · rw [hlower]
    exact c.valid

theorem lowerCode_eq_of_lt {code : Nat} (h : lowerCode code < 0x61) : lowerCode code = code := by
  rcases lowerCode_cases code with ⟨run, hrun, hcovers, hlower⟩ | ⟨-, hlower⟩
  · have hlow := (CaseRun.apply_mem hcovers).1
    have himage := (caseRuns_images run hrun).1
    omega
  · exact hlower

theorem lowerCode_ne_dotted {code : Nat} (h : code ≠ 0x130) : lowerCode code ≠ 0x130 := by
  rcases lowerCode_cases code with ⟨run, hrun, hcovers, hlower⟩ | ⟨-, hlower⟩
  · obtain ⟨hlow, hhigh⟩ := CaseRun.apply_mem hcovers
    have himage := (caseRuns_images run hrun).2
    omega
  · rwa [hlower]

/-! ## Small characters -/

/-- Whether a character is its own lower-case form, wherever it stands in a text. -/
def IsSmall (c : Char) : Prop :=
  c ≠ 'Σ' ∧ lowerChar c = [c]

theorem toNat_ofNat {code : Nat} (h : code.isValidChar) : (Char.ofNat code).toNat = code := by
  rw [Char.ofNat, dif_pos h]
  rfl

theorem toNat_ofNat_lowerCode (c : Char) :
    (Char.ofNat (lowerCode c.toNat)).toNat = lowerCode c.toNat :=
  toNat_ofNat (isValidChar_lowerCode c)

theorem isSmall_of_mem_lowerChar {c d : Char} (h : d ∈ lowerChar c) : IsSmall d := by
  rw [lowerChar] at h
  split at h
  · rw [List.mem_cons, List.mem_singleton] at h
    rcases h with rfl | rfl
    · exact ⟨by decide, by decide +kernel⟩
    · exact ⟨by decide, by decide +kernel⟩
  · next hdotted =>
    rw [List.mem_singleton] at h
    have hcode : d.toNat = lowerCode c.toNat := by rw [h, toNat_ofNat_lowerCode]
    constructor
    · rintro rfl
      have hsame := lowerCode_lowerCode c.toNat
      rw [← hcode] at hsame
      exact absurd hsame (by decide +kernel)
    · rw [lowerChar, if_neg, hcode, lowerCode_lowerCode, ← h]
      rintro rfl
      refine lowerCode_ne_dotted (fun hc => hdotted ?_) hcode.symm
      exact Char.toNat_inj.1 hc

/-- Nothing but itself becomes a character below the small letters. -/
theorem eq_of_mem_lowerChar {c d : Char} (h : d ∈ lowerChar c) (hd : d.toNat < 0x61) : d = c := by
  rw [lowerChar] at h
  split at h
  · rw [List.mem_cons, List.mem_singleton] at h
    rcases h with rfl | rfl
    · exact absurd hd (by decide)
    · exact absurd hd (by decide)
  · rw [List.mem_singleton] at h
    rw [h, toNat_ofNat_lowerCode] at hd
    rw [h, lowerCode_eq_of_lt hd, Char.ofNat_toNat]

/-! ## Texts -/

/-- The lower-case form of a character between others, the ones before it last first. -/
def lowerAt (before : List Char) (c : Char) (rest : List Char) : List Char :=
  if c = 'Σ' then [if startsCased before && !startsCased rest then 'ς' else 'σ'] else lowerChar c

theorem lowerAfter_cons (before : List Char) (c : Char) (rest : List Char) :
    lowerAfter before (c :: rest) = lowerAt before c rest ++ lowerAfter (c :: before) rest :=
  rfl

theorem lowerAt_ne_nil (before : List Char) (c : Char) (rest : List Char) :
    lowerAt before c rest ≠ [] := by
  simp only [lowerAt, lowerChar]
  split_ifs <;> exact List.cons_ne_nil _ _

theorem lowerAt_of_isSmall {c : Char} (h : IsSmall c) (before rest : List Char) :
    lowerAt before c rest = [c] := by
  rw [lowerAt, if_neg h.1, h.2]

theorem isSmall_of_mem_lowerAt {before rest : List Char} {c d : Char}
    (h : d ∈ lowerAt before c rest) : IsSmall d := by
  rw [lowerAt] at h
  split at h
  · rw [List.mem_singleton] at h
    split at h <;> subst h <;> exact ⟨by decide, by decide +kernel⟩
  · exact isSmall_of_mem_lowerChar h

theorem eq_of_mem_lowerAt {before rest : List Char} {c d : Char} (h : d ∈ lowerAt before c rest)
    (hd : d.toNat < 0x61) : d = c := by
  rw [lowerAt] at h
  split at h
  · rw [List.mem_singleton] at h
    split at h <;> subst h <;> exact absurd hd (by decide)
  · exact eq_of_mem_lowerChar h hd

theorem lowerAfter_eq_nil {before text : List Char} (h : lowerAfter before text = []) :
    text = [] := by
  cases text with
  | nil => rfl
  | cons c rest =>
    rw [lowerAfter_cons, List.append_eq_nil_iff] at h
    exact absurd h.1 (lowerAt_ne_nil before c rest)

theorem isSmall_of_mem_lowerAfter {before text : List Char} {d : Char}
    (h : d ∈ lowerAfter before text) : IsSmall d := by
  induction text generalizing before with
  | nil => cases h
  | cons c rest ih =>
    rw [lowerAfter_cons, List.mem_append] at h
    exact h.elim isSmall_of_mem_lowerAt ih

theorem mem_of_mem_lowerAfter {before text : List Char} {d : Char} (h : d ∈ lowerAfter before text)
    (hd : d.toNat < 0x61) : d ∈ text := by
  induction text generalizing before with
  | nil => cases h
  | cons c rest ih =>
    rw [lowerAfter_cons, List.mem_append] at h
    rcases h with hhere | hlater
    · rw [eq_of_mem_lowerAt hhere hd]
      exact List.mem_cons_self
    · exact List.mem_cons_of_mem c (ih hlater)

theorem getLast?_of_lowerAfter {before text : List Char} {d : Char}
    (h : (lowerAfter before text).getLast? = some d) (hd : d.toNat < 0x61) :
    text.getLast? = some d := by
  induction text generalizing before with
  | nil => cases h
  | cons c rest ih =>
    rw [lowerAfter_cons, List.getLast?_append] at h
    cases hlater : (lowerAfter (c :: before) rest).getLast? with
    | none =>
      rw [List.getLast?_eq_none_iff] at hlater
      rw [hlater] at h
      rw [lowerAfter_eq_nil hlater, List.getLast?_singleton,
        ← eq_of_mem_lowerAt (List.mem_of_getLast? h) hd]
    | some last =>
      rw [hlater] at h
      cases h
      have hrest := ih hlater
      rw [List.getLast?_cons, hrest]
      rfl

theorem lowerAfter_eq_self {before text : List Char} (h : ∀ c ∈ text, IsSmall c) :
    lowerAfter before text = text := by
  induction text generalizing before with
  | nil => rfl
  | cons c rest ih =>
    rw [List.forall_mem_cons] at h
    rw [lowerAfter_cons, lowerAt_of_isSmall h.1, ih h.2]
    rfl

theorem isSmall_of_mem_lower {text : List Char} {d : Char} (h : d ∈ lower text) : IsSmall d :=
  isSmall_of_mem_lowerAfter h

theorem mem_of_mem_lower {text : List Char} {d : Char} (h : d ∈ lower text)
    (hd : d.toNat < 0x61) : d ∈ text :=
  mem_of_mem_lowerAfter h hd

theorem getLast?_of_lower {text : List Char} {d : Char} (h : (lower text).getLast? = some d)
    (hd : d.toNat < 0x61) : text.getLast? = some d :=
  getLast?_of_lowerAfter h hd

theorem lower_eq_self {text : List Char} (h : ∀ c ∈ text, IsSmall c) : lower text = text :=
  lowerAfter_eq_self h

/-- What is in lower case stays as it is. -/
theorem lower_lower (text : List Char) : lower (lower text) = lower text :=
  lower_eq_self fun _ => isSmall_of_mem_lower

/-! ## The case of ASCII letters -/

/-- What takes the capital and the small letters of ASCII alike takes a character and its small
letter alike. -/
theorem apply_toLower {α : Type} {f : Char → α}
    (h : ∀ k < 26, f (Char.ofNat (0x41 + k)).toLower = f (Char.ofNat (0x41 + k))) (c : Char) :
    f c.toLower = f c := by
  by_cases hcapital : 0x41 ≤ c.toNat ∧ c.toNat ≤ 0x5A
  · have hc := h (c.toNat - 0x41) (by omega)
    rwa [Nat.add_sub_cancel' hcapital.1, Char.ofNat_toNat] at hc
  · have hsame : c.toLower = c := dif_neg fun hrange => hcapital ⟨hrange.1, hrange.2⟩
    rw [hsame]

theorem toLower_eq_iff {c d : Char}
    (h : ∀ k < 26, (Char.ofNat (0x41 + k)).toLower = d ↔ Char.ofNat (0x41 + k) = d) :
    c.toLower = d ↔ c = d :=
  iff_of_eq (apply_toLower (f := (· = d)) (fun k hk => propext (h k hk)) c)

theorem isCased_toLower (c : Char) : isCased c.toLower = isCased c :=
  apply_toLower (by decide +kernel) c

theorem isCaseIgnorable_toLower (c : Char) : isCaseIgnorable c.toLower = isCaseIgnorable c :=
  apply_toLower (by decide +kernel) c

theorem lowerChar_toLower (c : Char) : lowerChar c.toLower = lowerChar c :=
  apply_toLower (by decide +kernel) c

theorem startsCased_map_toLower (cs : List Char) :
    startsCased (cs.map Char.toLower) = startsCased cs := by
  have hignorable : isCaseIgnorable ∘ Char.toLower = isCaseIgnorable :=
    funext isCaseIgnorable_toLower
  rw [startsCased, startsCased, List.dropWhile_map, hignorable]
  cases cs.dropWhile isCaseIgnorable with
  | nil => rfl
  | cons c rest => exact isCased_toLower c

theorem lowerAt_map_toLower (before : List Char) (c : Char) (rest : List Char) :
    lowerAt (before.map Char.toLower) c.toLower (rest.map Char.toLower)
      = lowerAt before c rest := by
  have hsigma : c.toLower = 'Σ' ↔ c = 'Σ' := toLower_eq_iff (by decide)
  simp only [lowerAt, hsigma, startsCased_map_toLower, lowerChar_toLower]

theorem lowerAfter_map_toLower (before text : List Char) :
    lowerAfter (before.map Char.toLower) (text.map Char.toLower) = lowerAfter before text := by
  induction text generalizing before with
  | nil => rfl
  | cons c rest ih =>
    rw [List.map_cons, lowerAfter_cons, lowerAfter_cons, lowerAt_map_toLower, ← List.map_cons, ih]

/-- Capital letters of ASCII and small ones have one lower-case form, whatever they do to a
sigma. -/
theorem lower_map_toLower (text : List Char) : lower (text.map Char.toLower) = lower text :=
  lowerAfter_map_toLower [] text

end Blocklist.Text
