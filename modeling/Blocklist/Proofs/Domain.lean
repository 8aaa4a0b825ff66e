import Blocklist.Domain
import Blocklist.Proofs.LowerCase

set_option autoImplicit false

/-! # Canonical names

The names that name themselves are the texts without blanks, control characters and marks, in lower
case and with no dot at the end (`canonical_iff`), and every input that names a domain names it by
one of them (`normalize?_canonical`). Lower-casing comes after everything was cut off, so it must
not bring anything back that was cut off: what it puts in the place of a character lies among the
small letters or above, and all the marks lie below (`endsAuthority_of_mem_lower`). -/

namespace Blocklist.Domain

/-! ## The parts of an address -/

/-- The host that an address without scheme names. -/
def hostIn (address : List Char) : List Char :=
  dropPort (dropUserInfo (address.takeWhile (!endsAuthority ·)))

/-- The host that an address names. -/
def hostOf (address : List Char) : List Char :=
  hostIn ((afterScheme? address).getD address)

/-- The canonical name of a host, if it has one. -/
def nameOf? (host : List Char) : Option (List Char) :=
  let domain := Text.lower (Text.trimEnd (· == '.') host)
  if domain.isEmpty || domain.any isForbidden then none else some domain

theorem normalizeChars?_eq (input : List Char) :
    normalizeChars? input = nameOf? (hostOf (Text.trim Text.isBlank input)) :=
  rfl

theorem afterScheme?_cons (c : Char) (rest : List Char) :
    afterScheme? (c :: rest)
      = if c = ':' ∧ ['/', '/'] <+: rest then some (rest.drop 2) else afterScheme? rest := by
  split
  · next h =>
    obtain ⟨rfl, address, rfl⟩ := h
    rfl
  · next h =>
    rw [afterScheme?]
    rintro address rfl rfl
    exact h ⟨rfl, address, rfl⟩

/-- No scheme ends within a text without slashes. -/
theorem afterScheme?_append_of_not_mem {lead tail : List Char} (hlead : '/' ∉ lead)
    (hlast : lead.getLast? = some ':' → ¬['/', '/'] <+: tail) :
    afterScheme? (lead ++ tail) = afterScheme? tail := by
  induction lead with
  | nil => rfl
  | cons c rest ih =>
    rw [List.mem_cons, not_or] at hlead
    rw [List.cons_append, afterScheme?_cons, if_neg, ih hlead.2]
    · intro hrest
      refine hlast ?_
      rw [List.getLast?_cons, hrest]
      rfl
    · rintro ⟨rfl, hslashes⟩
      cases rest with
      | nil => exact hlast rfl hslashes
      | cons d more =>
        rw [List.cons_append, List.cons_prefix_cons] at hslashes
        rw [List.mem_cons, not_or] at hlead
        exact hlead.2.1 hslashes.1

theorem afterScheme?_eq_none {text : List Char} (h : '/' ∉ text) : afterScheme? text = none := by
  have happend : afterScheme? (text ++ []) = none :=
    afterScheme?_append_of_not_mem h fun _ => by simp
  rwa [List.append_nil] at happend

theorem takeWhile_eq_self {text : List Char} (h : ∀ c ∈ text, endsAuthority c = false) :
    text.takeWhile (!endsAuthority ·) = text :=
  List.takeWhile_eq_self_iff.2 fun c hc => by rw [h c hc]; rfl

theorem ne_at_of_mem_reverse {host : List Char} (h : '@' ∉ host) :
    ∀ c ∈ host.reverse, (c != '@') = true := by
  intro c hc
  rw [bne_iff_ne]
  rintro rfl
  exact h (List.mem_reverse.1 hc)

theorem dropUserInfo_eq_self {host : List Char} (h : '@' ∉ host) : dropUserInfo host = host := by
  rw [dropUserInfo, List.takeWhile_eq_self_iff.2 (ne_at_of_mem_reverse h), List.reverse_reverse]

theorem dropUserInfo_subset (authority : List Char) : dropUserInfo authority ⊆ authority := by
  intro c hc
  exact List.mem_reverse.1 (List.takeWhile_subset _ (List.mem_reverse.1 hc))

theorem dropPort_eq_self {host : List Char} (h : ':' ∉ host) : dropPort host = host := by
  rw [dropPort]
  split
  · next name hname =>
    have hmem : ':' ∈ host.reverse.dropWhile Char.isDigit := by rw [hname]; exact List.mem_cons_self
    exact absurd (List.mem_reverse.1 (List.dropWhile_subset _ hmem)) h
  · rfl

theorem dropPort_subset (host : List Char) : dropPort host ⊆ host := by
  rw [dropPort]
  split
  · next name hname =>
    split
    · exact List.Subset.refl host
    · intro c hc
      have hmem : c ∈ host.reverse.dropWhile Char.isDigit := by
        rw [hname]
        exact List.mem_cons_of_mem _ (List.mem_reverse.1 hc)
      exact List.mem_reverse.1 (List.dropWhile_subset _ hmem)
  · exact List.Subset.refl host

/-- The host ends before anything that ends the part it stands in. -/
theorem endsAuthority_of_mem_hostIn {address : List Char} {c : Char} (h : c ∈ hostIn address) :
    endsAuthority c = false := by
  have hc := dropUserInfo_subset _ (dropPort_subset _ h)
  simpa using List.mem_takeWhile_imp hc

/-! ## Hosts and names -/

/-- Whether a text has no blanks and none of the marks that set off the parts of an address. -/
def IsBare (host : List Char) : Prop :=
  ∀ c ∈ host, Text.isBlank c = false ∧ endsAuthority c = false ∧ c ≠ '@' ∧ c ≠ ':'

instance (host : List Char) : Decidable (IsBare host) :=
  List.decidableBAll _ host

theorem IsBare.not_mem_slash {host : List Char} (h : IsBare host) : '/' ∉ host :=
  fun hmem => absurd (h '/' hmem).2.1 (by decide)

theorem hostIn_of_isBare {host : List Char} (h : IsBare host) : hostIn host = host := by
  rw [hostIn, takeWhile_eq_self fun c hc => (h c hc).2.1,
    dropUserInfo_eq_self fun hmem => (h '@' hmem).2.2.1 rfl,
    dropPort_eq_self fun hmem => (h ':' hmem).2.2.2 rfl]

/-- A bare host is an address of itself. -/
theorem normalizeChars?_of_isBare {host : List Char} (h : IsBare host) :
    normalizeChars? host = nameOf? host := by
  have htrim : Text.trim Text.isBlank host = host :=
    Text.trim_eq_self (fun c hc => (h c (List.mem_of_mem_head? hc)).1)
      fun c hc => (h c (List.mem_of_getLast? hc)).1
  rw [normalizeChars?_eq, htrim, hostOf, afterScheme?_eq_none h.not_mem_slash, Option.getD_none,
    hostIn_of_isBare h]

/-- The form that a name has. -/
structure Canonical (domain : List Char) : Prop where
  ne_nil : domain ≠ []
  getLast?_ne : domain.getLast? ≠ some '.'
  isBare : IsBare domain
  isForbidden_eq : ∀ c ∈ domain, isForbidden c = false
  lower_eq : Text.lower domain = domain

theorem nameOf?_eq_some_iff {host domain : List Char} :
    nameOf? host = some domain
      ↔ domain = Text.lower (Text.trimEnd (· == '.') host)
        ∧ domain ≠ [] ∧ ∀ c ∈ domain, isForbidden c = false := by
  simp only [nameOf?]
  split
  · next h =>
    rw [Bool.or_eq_true, List.isEmpty_iff, List.any_eq_true] at h
    refine iff_of_false (fun hnone => by cases hnone) ?_
    rintro ⟨rfl, hne, hallowed⟩
    rcases h with hnil | ⟨c, hc, hforbidden⟩
    · exact absurd hnil hne
    · rw [hallowed c hc] at hforbidden
      cases hforbidden
  · next h =>
    rw [Bool.or_eq_true, List.isEmpty_iff, List.any_eq_true, not_or, not_exists] at h
    rw [Option.some_inj]
    constructor
    · rintro rfl
      exact ⟨rfl, h.1, fun c hc => Bool.eq_false_iff.2 fun hforbidden => h.2 c ⟨hc, hforbidden⟩⟩
    · exact fun hdomain => hdomain.1.symm

theorem isForbidden_eq_false_iff {c : Char} :
    isForbidden c = false ↔ Text.isBlank c = false ∧ Text.isControl c = false
      ∧ c ∉ ['*', '^', '|', ':', '@'] := by
  rw [isForbidden, Bool.or_eq_false_iff, Bool.or_eq_false_iff, and_assoc, ← Bool.not_eq_true
    (List.contains _ c), List.contains_iff_mem]

/-- Lower-casing brings no mark back that ended the host. -/
theorem endsAuthority_of_mem_lower {host : List Char} (h : ∀ c ∈ host, endsAuthority c = false)
    {c : Char} (hc : c ∈ Text.lower host) : endsAuthority c = false := by
  cases hends : endsAuthority c with
  | false => rfl
  | true =>
    have hlow : c.toNat < 0x61 := by
      simp only [endsAuthority, Bool.or_eq_true, beq_iff_eq] at hends
      rcases hends with (rfl | rfl) | rfl <;> decide
    rw [← hends]
    exact h c (Text.mem_of_mem_lower hc hlow)

theorem canonical_of_normalizeChars? {input domain : List Char}
    (h : normalizeChars? input = some domain) : Canonical domain := by
  rw [normalizeChars?_eq] at h
  obtain ⟨rfl, hne, hallowed⟩ := nameOf?_eq_some_iff.1 h
  refine ⟨hne, fun hlast => ?_, fun c hc => ?_, hallowed, Text.lower_lower _⟩
  · have hdot := Text.getLast?_trimEnd (Text.getLast?_of_lower hlast (by decide))
    exact absurd hdot (by decide)
  · have hends : endsAuthority c = false :=
      endsAuthority_of_mem_lower
        (fun d hd => endsAuthority_of_mem_hostIn ((Text.isPrefix_trimEnd _ _).subset hd)) hc
    obtain ⟨hblank, -, hmarks⟩ := isForbidden_eq_false_iff.1 (hallowed c hc)
    refine ⟨hblank, hends, ?_, ?_⟩
    · rintro rfl
      exact hmarks (by decide)
    · rintro rfl
      exact hmarks (by decide)

theorem Canonical.normalizeChars?_eq_self {domain : List Char} (h : Canonical domain) :
    normalizeChars? domain = some domain := by
  rw [normalizeChars?_of_isBare h.isBare, nameOf?_eq_some_iff, Text.trimEnd_eq_self, h.lower_eq]
  · exact ⟨rfl, h.ne_nil, h.isForbidden_eq⟩
  · intro c hc
    rw [beq_eq_false_iff_ne]
    rintro rfl
    exact h.getLast?_ne hc

/-- The names are the canonical texts, and each of them names itself. -/
theorem canonical_iff {domain : List Char} :
    Canonical domain ↔ normalizeChars? domain = some domain :=
  ⟨Canonical.normalizeChars?_eq_self, canonical_of_normalizeChars?⟩

/-! ## Capital and small letters -/

theorem isBlank_toLower (c : Char) : Text.isBlank c.toLower = Text.isBlank c :=
  Text.apply_toLower (by decide) c

theorem endsAuthority_toLower (c : Char) : endsAuthority c.toLower = endsAuthority c :=
  Text.apply_toLower (by decide) c

theorem isDigit_toLower (c : Char) : c.toLower.isDigit = c.isDigit :=
  Text.apply_toLower (by decide) c

theorem toLower_eq_colon {c : Char} : c.toLower = ':' ↔ c = ':' :=
  Text.toLower_eq_iff (by decide)

theorem toLower_eq_slash {c : Char} : c.toLower = '/' ↔ c = '/' :=
  Text.toLower_eq_iff (by decide)

theorem slashes_prefix_map_toLower {rest : List Char} :
    ['/', '/'] <+: rest.map Char.toLower ↔ ['/', '/'] <+: rest := by
  rcases rest with _ | ⟨c, _ | ⟨d, more⟩⟩
  · rfl
  · simp
  · simp [List.cons_prefix_cons, toLower_eq_slash, eq_comm (a := '/')]

theorem afterScheme?_map_toLower (text : List Char) :
    afterScheme? (text.map Char.toLower) = (afterScheme? text).map (List.map Char.toLower) := by
  induction text with
  | nil => rfl
  | cons c rest ih =>
    rw [List.map_cons, afterScheme?_cons, afterScheme?_cons]
    by_cases hends : c = ':' ∧ ['/', '/'] <+: rest
    · rw [if_pos hends, if_pos, Option.map_some, List.map_drop]
      exact ⟨toLower_eq_colon.2 hends.1, slashes_prefix_map_toLower.2 hends.2⟩
    · rw [if_neg hends, if_neg, ih]
      exact fun h => hends ⟨toLower_eq_colon.1 h.1, slashes_prefix_map_toLower.1 h.2⟩

theorem dropUserInfo_map_toLower (authority : List Char) :
    dropUserInfo (authority.map Char.toLower) = (dropUserInfo authority).map Char.toLower := by
  have hsame : (· != '@') ∘ Char.toLower = (· != '@') :=
    funext (Text.apply_toLower (f := (· != '@')) (by decide))
  rw [dropUserInfo, ← List.map_reverse, List.takeWhile_map, hsame, ← List.map_reverse, dropUserInfo]

theorem dropPort_map_toLower (host : List Char) :
    dropPort (host.map Char.toLower) = (dropPort host).map Char.toLower := by
  have hsame : Char.isDigit ∘ Char.toLower = Char.isDigit := funext isDigit_toLower
  have hlast : (host.map Char.toLower).getLast? = some ':' ↔ host.getLast? = some ':' := by
    simp [List.getLast?_map, Option.map_eq_some_iff, toLower_eq_colon]
  rw [dropPort, ← List.map_reverse, List.dropWhile_map, hsame, dropPort]
  cases host.reverse.dropWhile Char.isDigit with
  | nil => rfl
  | cons c name =>
    by_cases hc : c = ':'
    · subst hc
      simp only [List.map_cons, show Char.toLower ':' = ':' by decide, hlast]
      split
      · rfl
      · exact List.map_reverse.symm
    · have hlower : c.toLower ≠ ':' := fun h => hc (toLower_eq_colon.1 h)
      rw [List.map_cons]
      split
      · next h => exact absurd (List.cons.inj h).1 hlower
      · split
        · next h => exact absurd (List.cons.inj h).1 hc
        · rfl

theorem hostIn_map_toLower (address : List Char) :
    hostIn (address.map Char.toLower) = (hostIn address).map Char.toLower := by
  have hsame : (!endsAuthority ·) ∘ Char.toLower = (!endsAuthority ·) :=
    funext fun c => congrArg not (endsAuthority_toLower c)
  rw [hostIn, List.takeWhile_map, hsame, dropUserInfo_map_toLower, dropPort_map_toLower, hostIn]

theorem hostOf_map_toLower (address : List Char) :
    hostOf (address.map Char.toLower) = (hostOf address).map Char.toLower := by
  rw [hostOf, hostOf, ← hostIn_map_toLower, afterScheme?_map_toLower]
  cases afterScheme? address <;> rfl

theorem nameOf?_map_toLower (host : List Char) :
    nameOf? (host.map Char.toLower) = nameOf? host := by
  have hdots : Text.trimEnd (· == '.') (host.map Char.toLower)
      = (Text.trimEnd (· == '.') host).map Char.toLower :=
    Text.trimEnd_map (Text.apply_toLower (f := (· == '.')) (by decide)) host
  rw [nameOf?, hdots, Text.lower_map_toLower, nameOf?]

/-- The case of ASCII letters makes no difference. -/
theorem normalizeChars?_map_toLower (input : List Char) :
    normalizeChars? (input.map Char.toLower) = normalizeChars? input := by
  rw [normalizeChars?_eq, Text.trim_map isBlank_toLower, hostOf_map_toLower, nameOf?_map_toLower,
    normalizeChars?_eq]

/-! ## Inputs and their names -/

theorem normalize?_eq_some_iff {input domain : String} :
    normalize? input = some domain ↔ normalizeChars? input.toList = some domain.toList := by
  rw [normalize?, Option.map_eq_some_iff]
  constructor
  · rintro ⟨name, hname, rfl⟩
    rw [hname, String.toList_ofList]
  · exact fun h => ⟨domain.toList, h, String.ofList_toList⟩

/-- What an input names is canonical: it is not empty, does not end in a dot, holds no blank, no
control character and none of the marks of patterns and addresses, is in lower case and names
itself. And an input that differs in the case of ASCII letters alone names the same domain, or
none either. -/
theorem normalize?_canonical (input : String) :
    (∀ domain, normalize? input = some domain →
      domain ≠ "" ∧ domain.toList.getLast? ≠ some '.'
        ∧ (∀ c ∈ domain.toList, Text.isBlank c = false ∧ Text.isControl c = false
          ∧ c ∉ ['*', '^', '|', ':', '@', '/', '?', '#'])
        ∧ Text.lower domain.toList = domain.toList
        ∧ normalize? domain = some domain)
      ∧ ∀ other : String, other.toList.map Char.toLower = input.toList.map Char.toLower →
        normalize? other = normalize? input := by
  constructor
  · intro domain hdomain
    have hcanonical := canonical_of_normalizeChars? (normalize?_eq_some_iff.1 hdomain)
    refine ⟨?_, hcanonical.getLast?_ne, fun c hc => ?_, hcanonical.lower_eq,
      normalize?_eq_some_iff.2 hcanonical.normalizeChars?_eq_self⟩
    · rintro rfl
      exact hcanonical.ne_nil rfl
    · obtain ⟨hblank, hcontrol, hmarks⟩ :=
        isForbidden_eq_false_iff.1 (hcanonical.isForbidden_eq c hc)
      have hends := (hcanonical.isBare c hc).2.1
      simp only [endsAuthority, Bool.or_eq_false_iff, beq_eq_false_iff_ne] at hends
      exact ⟨hblank, hcontrol, by simp_all⟩
  · intro other hother
    rw [normalize?, ← normalizeChars?_map_toLower, hother, normalizeChars?_map_toLower, normalize?]

/-- A capital I with a dot becomes two characters, and a sigma at the end of the host a final one;
all of them are small letters from then on. -/
theorem normalize?_canonical_finalSigma :
    normalize? " User@İo.ΟΔΟΣ.:80/" = some "i\u0307o.οδος"
      ∧ Text.lower "i\u0307o.οδος".toList = "i\u0307o.οδος".toList
      ∧ normalize? "i\u0307o.οδος" = some "i\u0307o.οδος"
      ∧ normalize? " uSER@İO.ΟΔΟΣ.:80/" = some "i\u0307o.οδος" := by
  have hname : normalize? " User@İo.ΟΔΟΣ.:80/" = some "i\u0307o.οδος" := by decide +kernel
  obtain ⟨hnames, hcase⟩ := normalize?_canonical " User@İo.ΟΔΟΣ.:80/"
  obtain ⟨-, -, -, hlower, hself⟩ := hnames _ hname
  exact ⟨hname, hlower, hself, (hcase _ (by decide +kernel)).trans hname⟩

end Blocklist.Domain
