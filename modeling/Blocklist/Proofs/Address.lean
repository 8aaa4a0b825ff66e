import Blocklist.Proofs.Domain
import Mathlib.Data.List.Basic

set_option autoImplicit false

/-! # Hosts with decorations

A host may be given with a scheme and user information before it, with dots, a port and a tail
after it, and with blanks around it all (`Address`). Trimming takes blanks off the scheme, the user
information or the tail, so that an address is left (`Address.dropWhile_core`,
`Address.trimEnd_core`), and from that the parts are cut off one by one until the host and its dots
are left (`Address.hostOf_core`). One search reaches too far: the scheme is taken to end at the
first `://` of the whole text. An address without scheme whose tail holds a `://` names what follows
that, and not its host (`Address.normalize?_text_eq_iff`). -/

namespace Blocklist.Domain

/-! ## Schemes and tails -/

/-- A text without slashes completes no end of a scheme. -/
theorem afterScheme?_append {text tail : List Char} (htail : '/' ∉ tail) :
    afterScheme? (text ++ tail) = (afterScheme? text).map (· ++ tail) := by
  induction text with
  | nil => exact afterScheme?_eq_none htail
  | cons c rest ih =>
    -- The slashes after a colon are both in the text or not there at all.
    have hslashes : ['/', '/'] <+: rest ++ tail ↔ ['/', '/'] <+: rest := by
      refine ⟨fun h => ?_, fun h => h.trans (List.prefix_append rest tail)⟩
      rcases rest with _ | ⟨d, _ | ⟨e, more⟩⟩
      · exact absurd (h.subset List.mem_cons_self) htail
      · rw [List.cons_append, List.cons_prefix_cons] at h
        exact absurd (h.2.subset List.mem_cons_self) htail
      · simpa [List.cons_prefix_cons] using h
    rw [List.cons_append, afterScheme?_cons, afterScheme?_cons]
    by_cases hends : c = ':' ∧ ['/', '/'] <+: rest
    · rw [if_pos hends, if_pos ⟨hends.1, hslashes.2 hends.2⟩, Option.map_some,
        List.drop_append_of_le_length (by simpa using hends.2.length_le)]
    · rw [if_neg hends, if_neg fun h => hends ⟨h.1, hslashes.1 h.2⟩, ih]

theorem afterScheme?_scheme {scheme : List Char} (h : '/' ∉ scheme) (rest : List Char) :
    afterScheme? (scheme ++ ':' :: '/' :: '/' :: rest) = some rest := by
  rw [afterScheme?_append_of_not_mem h]
  · rfl
  · simp

theorem suffix_of_afterScheme? {text rest : List Char} (h : afterScheme? text = some rest) :
    rest <:+ text := by
  induction text with
  | nil => cases h
  | cons c more ih =>
    rw [afterScheme?_cons] at h
    split at h
    · cases h
      exact (List.drop_suffix 2 more).trans (List.suffix_cons c more)
    · exact (ih h).trans (List.suffix_cons c more)

/-- Blanks at the end are blanks at the end of what follows the scheme. -/
theorem afterScheme?_trimEnd (text : List Char) :
    afterScheme? (Text.trimEnd Text.isBlank text)
      = (afterScheme? text).map (Text.trimEnd Text.isBlank) := by
  obtain ⟨run, htext, hrun⟩ := Text.exists_eq_trimEnd_append Text.isBlank text
  have hslash : '/' ∉ run := fun hmem => absurd (hrun '/' hmem) (by decide)
  conv_rhs => rw [htext, afterScheme?_append hslash]
  cases hrest : afterScheme? (Text.trimEnd Text.isBlank text) with
  | none => rfl
  | some rest =>
    have hkept : Text.trimEnd Text.isBlank rest = rest := by
      obtain ⟨lead, hlead⟩ := suffix_of_afterScheme? hrest
      refine Text.trimEnd_eq_self fun c hc => ?_
      have hlast : (Text.trimEnd Text.isBlank text).getLast? = some c := by
        rw [← hlead, List.getLast?_append, hc]
        rfl
      exact Text.getLast?_trimEnd hlast
    rw [Option.map_some, Option.map_some, Text.trimEnd_append_of_forall hrun, hkept]

theorem normalizeChars?_scheme (rest : List Char) :
    normalizeChars? (':' :: '/' :: '/' :: rest)
      = nameOf? (hostIn (Text.trimEnd Text.isBlank rest)) := by
  have htrim : Text.trim Text.isBlank (':' :: '/' :: '/' :: rest)
      = ':' :: '/' :: '/' :: Text.trimEnd Text.isBlank rest :=
    Text.trimEnd_append_cons (by decide) [':', '/'] rest
  rw [normalizeChars?_eq, htrim]
  rfl

/-! ## User information, dots and ports -/

theorem dropUserInfo_append {host : List Char} (h : '@' ∉ host) (userInfo : List Char) :
    dropUserInfo (userInfo ++ '@' :: host) = host := by
  have hreverse : (userInfo ++ '@' :: host).reverse = host.reverse ++ '@' :: userInfo.reverse := by
    simp
  rw [dropUserInfo, hreverse, List.takeWhile_append_of_pos (ne_at_of_mem_reverse h),
    List.takeWhile_cons_of_neg (by simp), List.append_nil, List.reverse_reverse]

theorem of_isDigit {c : Char} (h : c.isDigit = true) :
    Text.isBlank c = false ∧ endsAuthority c = false ∧ c ≠ '@' ∧ c ≠ ':' := by
  have hcode : 48 ≤ c.toNat ∧ c.toNat ≤ 57 := by
    simpa [Char.isDigit, UInt32.le_iff_toNat_le] using h
  have hdigits : ∀ k < 10, Text.isBlank (Char.ofNat (48 + k)) = false
      ∧ endsAuthority (Char.ofNat (48 + k)) = false
      ∧ Char.ofNat (48 + k) ≠ '@' ∧ Char.ofNat (48 + k) ≠ ':' := by decide
  have hc := hdigits (c.toNat - 48) (by omega)
  rwa [Nat.add_sub_cancel' hcode.1, Char.ofNat_toNat] at hc

theorem isDigit_of_getLast?_port {port : List Char} (hne : port ≠ [])
    (hport : ∀ c ∈ port, c.isDigit = true) {c : Char} (h : (':' :: port).getLast? = some c) :
    c.isDigit = true := by
  rw [List.getLast?_cons, List.getLast?_eq_some_getLast hne] at h
  rw [← Option.some.inj h]
  exact hport _ (List.getLast_mem hne)

theorem dropPort_append {port : List Char} (hne : port ≠ []) (hport : ∀ c ∈ port, c.isDigit = true)
    (host : List Char) : dropPort (host ++ ':' :: port) = host := by
  have hreverse : (host ++ ':' :: port).reverse.dropWhile Char.isDigit = ':' :: host.reverse := by
    have hcolon : (host ++ ':' :: port).reverse = port.reverse ++ ':' :: host.reverse := by simp
    rw [hcolon, List.dropWhile_append_of_pos fun c hc => hport c (List.mem_reverse.1 hc)]
    rfl
  have hlast : (host ++ ':' :: port).getLast? ≠ some ':' := by
    rw [List.getLast?_append_cons]
    exact fun h => absurd (isDigit_of_getLast?_port hne hport h) (by decide)
  rw [dropPort, hreverse]
  simp only [if_neg hlast, List.reverse_reverse]

theorem nameOf?_append_dots (host : List Char) (dots : Nat) :
    nameOf? (host ++ List.replicate dots '.') = nameOf? host := by
  rw [nameOf?, Text.trimEnd_append_of_forall, nameOf?]
  exact fun c hc => beq_iff_eq.2 (List.eq_of_mem_replicate hc)

/-! ## Addresses -/

theorem isBlank_of_endsAuthority {c : Char} (h : endsAuthority c = true) :
    Text.isBlank c = false := by
  simp only [endsAuthority, Bool.or_eq_true, beq_iff_eq] at h
  rcases h with (rfl | rfl) | rfl <;> decide

/-- A part that may be missing, with the mark after it. -/
def marked (mark : List Char) : Option (List Char) → List Char
  | some part => part ++ mark
  | none => []

theorem mem_marked {mark : List Char} {part? : Option (List Char)} {c : Char}
    (h : c ∈ marked mark part?) : (∃ part, part? = some part ∧ c ∈ part) ∨ c ∈ mark := by
  cases part? with
  | none => cases h
  | some part => exact (List.mem_append.1 h).imp_left fun hpart => ⟨part, rfl, hpart⟩

theorem getLast?_marked (mark : List Char) {last : Char} {part? : Option (List Char)} {c : Char}
    (h : (marked (mark ++ [last]) part?).getLast? = some c) : c = last := by
  cases part? with
  | none => cases h
  | some part =>
    rw [marked, ← List.append_assoc, List.getLast?_concat] at h
    exact (Option.some.inj h).symm

/-- A mark is no blank, so the blanks before it are those of its part. -/
theorem dropWhile_marked_append {first : Char} (hfirst : Text.isBlank first = false)
    (mark : List Char) {part? : Option (List Char)} {rest : List Char}
    (hrest : part? = none → rest.dropWhile Text.isBlank = rest) :
    (marked (first :: mark) part? ++ rest).dropWhile Text.isBlank
      = marked (first :: mark) (part?.map (List.dropWhile Text.isBlank)) ++ rest := by
  cases part? with
  | none => exact hrest rfl
  | some part =>
    rw [marked, Option.map_some, marked, List.append_assoc, List.append_assoc, List.cons_append,
      Text.dropWhile_append_cons hfirst]

/-- A host and what may stand around it: blanks, a scheme, user information, dots, a port, and a
tail that starts where the authority ends. The host holds no blanks and no marks; the tail may hold
anything. -/
structure Address where
  before : List Char
  scheme? : Option (List Char)
  userInfo? : Option (List Char)
  host : List Char
  dots : Nat
  port? : Option (List Char)
  tail : List Char
  after : List Char
  isBlank_before : ∀ c ∈ before, Text.isBlank c = true
  slash_not_mem : ∀ scheme ∈ scheme?, '/' ∉ scheme
  endsAuthority_userInfo : ∀ userInfo ∈ userInfo?, ∀ c ∈ userInfo, endsAuthority c = false
  isBare : IsBare host
  isDigit_port : ∀ port ∈ port?, port ≠ [] ∧ ∀ c ∈ port, c.isDigit = true
  endsAuthority_tail : ∀ c ∈ tail.head?, endsAuthority c = true
  isBlank_after : ∀ c ∈ after, Text.isBlank c = true

namespace Address

/-- The scheme with its mark, if there is one. -/
def schemePart (a : Address) : List Char :=
  marked [':', '/', '/'] a.scheme?

/-- The user information with its mark, if there is any. -/
def userPart (a : Address) : List Char :=
  marked ['@'] a.userInfo?

/-- The port with its mark, if there is one. -/
def portPart (a : Address) : List Char :=
  match a.port? with
  | some port => ':' :: port
  | none => []

/-- The host with its dots. -/
def dottedHost (a : Address) : List Char :=
  a.host ++ List.replicate a.dots '.'

/-- What stands before the tail, without the scheme. -/
def authority (a : Address) : List Char :=
  a.userPart ++ (a.dottedHost ++ a.portPart)

/-- The address without the blanks around it. -/
def core (a : Address) : List Char :=
  a.schemePart ++ (a.authority ++ a.tail)

/-- The address as it is entered. -/
def text (a : Address) : String :=
  String.ofList (a.before ++ a.core ++ a.after)

/-- What follows the first `://` in the tail of an address without scheme. -/
def stray? (a : Address) : Option (List Char) :=
  if a.scheme?.isSome then none else afterScheme? a.tail

variable (a : Address)

theorem of_mem_hostPort {c : Char} (h : c ∈ a.dottedHost ++ a.portPart) :
    Text.isBlank c = false ∧ endsAuthority c = false ∧ c ≠ '@' := by
  rw [dottedHost, List.mem_append, List.mem_append] at h
  rcases h with (hhost | hdot) | hport
  · obtain ⟨hblank, hends, hat, -⟩ := a.isBare c hhost
    exact ⟨hblank, hends, hat⟩
  · rw [List.eq_of_mem_replicate hdot]
    decide
  · rw [portPart] at hport
    split at hport
    · next port hsome =>
      rcases List.mem_cons.1 hport with rfl | hdigit
      · decide
      · obtain ⟨hblank, hends, hat, -⟩ := of_isDigit ((a.isDigit_port port hsome).2 c hdigit)
        exact ⟨hblank, hends, hat⟩
    · cases hport

theorem endsAuthority_of_mem_authority {c : Char} (h : c ∈ a.authority) :
    endsAuthority c = false := by
  rw [authority, List.mem_append] at h
  rcases h with huser | hhost
  · rcases mem_marked huser with ⟨userInfo, hsome, hinfo⟩ | hat
    · exact a.endsAuthority_userInfo userInfo hsome c hinfo
    · rw [List.mem_singleton.1 hat]
      decide
  · exact (a.of_mem_hostPort hhost).2.1

theorem slash_not_mem_authority : '/' ∉ a.authority :=
  fun hmem => absurd (a.endsAuthority_of_mem_authority hmem) (by decide)

theorem dropUserInfo_authority : dropUserInfo a.authority = a.dottedHost ++ a.portPart := by
  have hat : '@' ∉ a.dottedHost ++ a.portPart := fun hmem => (a.of_mem_hostPort hmem).2.2 rfl
  rw [authority, userPart]
  cases a.userInfo? with
  | some userInfo =>
    rw [marked, List.append_assoc, List.singleton_append, dropUserInfo_append hat]
  | none => rw [marked, List.nil_append, dropUserInfo_eq_self hat]

theorem colon_not_mem_dottedHost : ':' ∉ a.dottedHost := by
  rw [dottedHost, List.mem_append, not_or]
  constructor
  · exact fun hmem => (a.isBare ':' hmem).2.2.2 rfl
  · exact fun hmem => absurd (List.eq_of_mem_replicate hmem) (by decide)

theorem dropPort_hostPort : dropPort (a.dottedHost ++ a.portPart) = a.dottedHost := by
  rw [portPart]
  split
  · next port hsome =>
    obtain ⟨hne, hdigits⟩ := a.isDigit_port port hsome
    exact dropPort_append hne hdigits a.dottedHost
  · rw [List.append_nil, dropPort_eq_self a.colon_not_mem_dottedHost]

theorem hostIn_authority_tail : hostIn (a.authority ++ a.tail) = a.dottedHost := by
  have htail : a.tail.takeWhile (!endsAuthority ·) = [] := by
    cases htail : a.tail with
    | nil => rfl
    | cons c rest =>
      have hends := a.endsAuthority_tail c (by rw [htail]; rfl)
      rw [List.takeWhile_cons, hends]
      rfl
  have htake : (a.authority ++ a.tail).takeWhile (!endsAuthority ·) = a.authority := by
    rw [List.takeWhile_append_of_pos, htail, List.append_nil]
    exact fun c hc => by rw [a.endsAuthority_of_mem_authority hc]; rfl
  rw [hostIn, htake, dropUserInfo_authority, dropPort_hostPort]

/-- What stands before the tail ends in no blank, nor in a colon without a port. -/
theorem of_getLast?_authority {c : Char} (h : a.authority.getLast? = some c) :
    Text.isBlank c = false ∧ c ≠ ':' := by
  rw [authority, List.getLast?_append, List.getLast?_append, Option.or_eq_some_iff,
    Option.or_eq_some_iff] at h
  rcases h with (hport | ⟨-, hhost⟩) | ⟨-, huser⟩
  · rw [portPart] at hport
    split at hport
    · next port hsome =>
      obtain ⟨hne, hdigits⟩ := a.isDigit_port port hsome
      obtain ⟨hblank, -, -, hcolon⟩ := of_isDigit (isDigit_of_getLast?_port hne hdigits hport)
      exact ⟨hblank, hcolon⟩
    · cases hport
  · have hmem := List.mem_of_getLast? hhost
    refine ⟨(a.of_mem_hostPort (List.mem_append_left _ hmem)).1, ?_⟩
    rintro rfl
    exact a.colon_not_mem_dottedHost hmem
  · rw [getLast?_marked [] huser]
    decide

/-- The parts are cut off one by one. -/
theorem hostOf_core : hostOf a.core = (a.stray?.map hostIn).getD a.dottedHost := by
  have hhost := a.hostIn_authority_tail
  rw [hostOf, core, schemePart, stray?]
  -- The search for the end of a scheme stops at the mark of one, and else goes on in the tail.
  cases hscheme : a.scheme? with
  | some scheme =>
    have hsearch : afterScheme? (scheme ++ ([':', '/', '/'] ++ (a.authority ++ a.tail)))
        = some (a.authority ++ a.tail) :=
      afterScheme?_scheme (a.slash_not_mem scheme hscheme) _
    rw [marked, List.append_assoc, hsearch]
    exact hhost
  | none =>
    have hsearch : afterScheme? (a.authority ++ a.tail) = afterScheme? a.tail :=
      afterScheme?_append_of_not_mem a.slash_not_mem_authority fun hlast =>
        absurd rfl (a.of_getLast?_authority hlast).2
    rw [marked, List.nil_append, hsearch]
    cases afterScheme? a.tail with
    | some rest => rfl
    | none => exact hhost

/-! ## Addresses between blanks -/

/-- The address without blanks at its start, which are blanks of the scheme or, without a scheme,
of the user information. -/
def cutStart (a : Address) : Address :=
  { a with
    scheme? := a.scheme?.map (List.dropWhile Text.isBlank)
    userInfo? :=
      if a.scheme?.isSome then a.userInfo? else a.userInfo?.map (List.dropWhile Text.isBlank)
    slash_not_mem := by
      intro scheme hmap hmem
      obtain ⟨whole, hwhole, rfl⟩ := Option.map_eq_some_iff.1 hmap
      exact a.slash_not_mem whole hwhole (List.dropWhile_subset _ hmem)
    endsAuthority_userInfo := by
      intro userInfo huser c hc
      split at huser
      · exact a.endsAuthority_userInfo userInfo huser c hc
      · obtain ⟨whole, hwhole, rfl⟩ := Option.map_eq_some_iff.1 huser
        exact a.endsAuthority_userInfo whole hwhole c (List.dropWhile_subset _ hc) }

/-- The address without blanks at its end, which are blanks of the tail. -/
def cutEnd (a : Address) : Address :=
  { a with
    tail := Text.trimEnd Text.isBlank a.tail
    endsAuthority_tail := by
      intro c hc
      obtain ⟨run, hrun⟩ := Text.isPrefix_trimEnd Text.isBlank a.tail
      refine a.endsAuthority_tail c ?_
      rw [← hrun, List.head?_append, Option.mem_def.1 hc]
      rfl }

/-- What follows the user information starts with no blank. -/
theorem dropWhile_hostPort :
    (a.dottedHost ++ a.portPart ++ a.tail).dropWhile Text.isBlank
      = a.dottedHost ++ a.portPart ++ a.tail := by
  refine Text.dropWhile_eq_self fun c hc => ?_
  rw [List.head?_append, Option.or_eq_some_iff] at hc
  rcases hc with hhost | ⟨-, htail⟩
  · exact (a.of_mem_hostPort (List.mem_of_mem_head? hhost)).1
  · exact isBlank_of_endsAuthority (a.endsAuthority_tail c htail)

theorem dropWhile_core : a.core.dropWhile Text.isBlank = a.cutStart.core := by
  have hcut : a.cutStart.core
      = marked [':', '/', '/'] (a.scheme?.map (List.dropWhile Text.isBlank))
        ++ (marked ['@'] (if a.scheme?.isSome then a.userInfo?
            else a.userInfo?.map (List.dropWhile Text.isBlank))
          ++ (a.dottedHost ++ a.portPart) ++ a.tail) := rfl
  rw [hcut, core, schemePart, authority, userPart]
  cases a.scheme? with
  | some scheme =>
    have hcolon : Text.isBlank ':' = false := by decide
    exact dropWhile_marked_append hcolon ['/', '/'] fun h => by cases h
  | none =>
    have hat : Text.isBlank '@' = false := by decide
    simp only [List.append_assoc]
    exact dropWhile_marked_append hat [] fun _ => by
      simpa only [List.append_assoc] using a.dropWhile_hostPort

theorem trimEnd_core : Text.trimEnd Text.isBlank a.core = a.cutEnd.core := by
  rw [core, ← List.append_assoc, Text.trimEnd_append, List.append_assoc]
  · rfl
  · intro c hc
    rw [List.getLast?_append, Option.or_eq_some_iff] at hc
    rcases hc with hauthority | ⟨-, hscheme⟩
    · exact (a.of_getLast?_authority hauthority).1
    · rw [getLast?_marked [':', '/'] hscheme]
      decide
  · exact fun c hc => isBlank_of_endsAuthority (a.endsAuthority_tail c hc)

theorem stray?_cutStart : a.cutStart.stray? = a.stray? := by
  simp only [stray?, cutStart, Option.isSome_map]

theorem stray?_cutEnd : a.cutEnd.stray? = a.stray?.map (Text.trimEnd Text.isBlank) := by
  simp only [stray?, cutEnd, afterScheme?_trimEnd]
  split <;> rfl

theorem normalizeChars?_address :
    normalizeChars? (a.before ++ a.core ++ a.after)
      = match a.stray? with
        | some rest => normalizeChars? (':' :: '/' :: '/' :: rest)
        | none => normalizeChars? a.host := by
  have htrim : Text.trim Text.isBlank (a.before ++ a.core ++ a.after) = a.cutStart.cutEnd.core := by
    rw [Text.trim_append_of_forall a.isBlank_before a.isBlank_after, Text.trim, dropWhile_core,
      trimEnd_core]
  rw [normalizeChars?_eq, htrim, hostOf_core, stray?_cutEnd, stray?_cutStart]
  cases a.stray? with
  | some rest => exact (normalizeChars?_scheme rest).symm
  | none =>
    exact (nameOf?_append_dots a.host a.dots).trans (normalizeChars?_of_isBare a.isBare).symm

/-- What an address names. -/
theorem normalize?_text :
    normalize? a.text = match a.stray? with
      | some rest => normalize? (String.ofList (':' :: '/' :: '/' :: rest))
      | none => normalize? (String.ofList a.host) := by
  rw [normalize?, text, String.toList_ofList, normalizeChars?_address]
  cases a.stray? <;> simp only [normalize?, String.toList_ofList]

/-- An address names what its host names, unless it has no scheme but a `://` in its tail: then it
names whatever an address names that starts there. -/
theorem normalize?_text_eq_iff (a : Address) :
    (normalize? a.text = normalize? (String.ofList a.host)
      ↔ ∀ rest, a.stray? = some rest →
        normalize? (String.ofList (':' :: '/' :: '/' :: rest)) = normalize? (String.ofList a.host))
      ∧ ∀ rest, a.stray? = some rest →
        normalize? a.text = normalize? (String.ofList (':' :: '/' :: '/' :: rest)) := by
  have htext := a.normalize?_text
  cases hstray : a.stray? with
  | some rest =>
    simp only [hstray] at htext
    rw [htext]
    refine ⟨⟨?_, fun h => h rest rfl⟩, ?_⟩
    · rintro h _ ⟨⟩
      exact h
    · rintro _ ⟨⟩
      rfl
  | none =>
    simp only [hstray] at htext
    refine ⟨iff_of_true htext ?_, ?_⟩
    · rintro _ ⟨⟩
    · rintro _ ⟨⟩

/-- A host with everything that may stand around it, and an address in the tail. -/
def decorated : Address where
  before := [' ', '\t']
  scheme? := some "https".toList
  userInfo? := some ['m', 'e', ':', 'a', '@', 'b', ' ']
  host := "Shop.example.com".toList
  dots := 2
  port? := some ['8', '4', '4', '3']
  tail := "/cart?next=http://b.com".toList
  after := ['\n']
  isBlank_before := by simp [Text.isBlank, Text.inRanges, Text.blankRanges]
  slash_not_mem := by rintro _ ⟨⟩; decide
  endsAuthority_userInfo := by rintro _ ⟨⟩; simp [endsAuthority]
  isBare := by decide
  isDigit_port := by rintro _ ⟨⟩; simp [Char.isDigit]
  endsAuthority_tail := by rintro _ ⟨⟩; decide
  isBlank_after := by simp [Text.isBlank, Text.inRanges, Text.blankRanges]

theorem normalize?_text_eq_iff_decorated :
    decorated.text = " \thttps://me:a@b @Shop.example.com..:8443/cart?next=http://b.com\n"
      ∧ normalize? decorated.text = some "shop.example.com" := by
  have hhost : normalize? (String.ofList decorated.host) = some "shop.example.com" := by
    decide +kernel
  have hagree := (normalize?_text_eq_iff decorated).1.2 fun rest hstray => by cases hstray
  exact ⟨by decide +kernel, hagree.trans hhost⟩

/-- A host with a path and a query that holds an address. -/
def strayed : Address where
  before := []
  scheme? := none
  userInfo? := none
  host := "a.com".toList
  dots := 0
  port? := none
  tail := "/?u=http://b.com".toList
  after := []
  isBlank_before := List.forall_mem_nil _
  slash_not_mem := by rintro _ ⟨⟩
  endsAuthority_userInfo := by rintro _ ⟨⟩
  isBare := by decide
  isDigit_port := by rintro _ ⟨⟩
  endsAuthority_tail := by rintro _ ⟨⟩; decide
  isBlank_after := List.forall_mem_nil _

/-- The address in the query is taken for the one that was entered. -/
theorem normalize?_strayed :
    strayed.text = "a.com/?u=http://b.com" ∧ normalize? strayed.text = some "b.com"
      ∧ normalize? (String.ofList strayed.host) = some "a.com" := by
  decide +kernel

end Address

end Blocklist.Domain
