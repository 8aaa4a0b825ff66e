import Blocklist.IdTable
import Blocklist.Proofs.Document

set_option autoImplicit false

/-! # Records are read as they were written

What a reader of structured values makes of a value that was written: numbers in range, texts,
lists and maps come back as they are, and a record whose names are fields of the form, each of them
at most once, gives every field the value that was written under its name
(`RecordForm.read?_parsed`). -/

namespace Blocklist

namespace Parsed

/-! ## Scalars -/

@[simp]
theorem asBool?_parsed (b : Bool) : asBool? (Written.parsed (.bool b)) = some b := rfl

@[simp]
theorem asText?_parsed (s : String) : asText? (Written.parsed (.text s)) = some s := rfl

@[simp]
theorem asUInt32?_parsed (n : UInt32) :
    asUInt32? (Written.parsed (.number n.toNat)) = some n := by
  have hbound : n.toNat < UInt32.size := n.toNat_lt_size
  simp [Written.parsed, Value.map, asUInt32?, asNatBelow?, hbound]

@[simp]
theorem asUInt64?_parsed (n : UInt64) :
    asUInt64? (Written.parsed (.number n.toNat)) = some n := by
  have hbound : n.toNat < UInt64.size := n.toNat_lt_size
  simp [Written.parsed, Value.map, asUInt64?, asNatBelow?, hbound]

/-! ## Lists and maps -/

/-- A reader that undoes a writer on each item of a list undoes it on the list. -/
theorem mapM_map_eq_some {α β : Type} {write : α → β} {read : β → Option α} {items : List α}
    (h : ∀ item ∈ items, read (write item) = some item) :
    (items.map write).mapM read = some items := by
  induction items with
  | nil => rfl
  | cons item rest ih =>
    obtain ⟨hitem, hrest⟩ := List.forall_mem_cons.1 h
    simp [hitem, ih hrest]

theorem asList?_parsed {α : Type} {read : Parsed → Option α} {write : α → Written} {items : List α}
    (h : ∀ item ∈ items, read (write item).parsed = some item) :
    asList? read (Written.parsed (.list (items.map write))) = some items := by
  rw [Json.Builder.parsed_list, asList?, List.map_map]
  exact mapM_map_eq_some h

theorem asMap?_parsed {α : Type} {read : Parsed → Option α} {write : α → Written}
    (h : ∀ a, read (write a).parsed = some a) (members : List (String × α)) :
    asMap? read (Written.parsed (.record (members.map fun (name, a) => (name, write a))))
      = some members := by
  rw [Json.Builder.parsed_record, asMap?, List.map_map]
  refine mapM_map_eq_some fun member _ => ?_
  simp [h]

end Parsed

/-- A value that may be missing is read as what was written, or as missing. -/
theorem fieldOr_parsed {α : Type} {read : Parsed → Option α} {write : α → Written}
    (h : ∀ a, read (write a).parsed = some a) (hnull : ∀ a, (write a).parsed ≠ .null)
    (a? : Option α) :
    fieldOr none (Parsed.asNullable? read) ((a?.map write).map Written.parsed) = some a? := by
  cases a? with
  | none => rfl
  | some a =>
    have hread : Parsed.asNullable? read (write a).parsed = (read (write a).parsed).map some := by
      rw [Parsed.asNullable?]
      exact hnull a
    simp [fieldOr, hread, h]

/-! ## Records with known fields -/

namespace RecordForm

/-- A member that may be missing, and its name. -/
theorem lookup_toList_map {α : Type} (a? : Option α) (name other : String) (write : α → Written) :
    ((a?.map fun a => (name, write a)).toList).lookup other
      = if other == name then a?.map write else none := by
  cases a? with
  | none => simp
  | some a =>
    simp only [Option.map_some, Option.toList_some, List.lookup_cons, List.lookup_nil]
    cases other == name with
    | true => rfl
    | false => rfl

theorem map_fst_toList_sublist {α : Type} (a? : Option α) (name : String) (write : α → Written) :
    ((a?.map fun a => (name, write a)).toList.map Prod.fst).Sublist [name] := by
  cases a? with
  | none => exact List.nil_sublist _
  | some a => exact List.Sublist.refl _

theorem valuesOf_parsed (members : List (String × Written)) (name : String) :
    valuesOf (members.map fun member => (some member.1, Written.parsed member.2)) name
      = (members.filter (·.1 == name)).map fun member => Written.parsed member.2 := by
  rw [valuesOf, List.filter_map, List.map_map]
  rfl

/-- Where no name stands twice, at most one member has a given name, and it is found there. -/
theorem filter_eq_of_nodup {members : List (String × Written)} (h : (members.map Prod.fst).Nodup)
    (name : String) :
    (members.filter (·.1 == name)).map Prod.snd = (members.lookup name).toList := by
  induction members with
  | nil => rfl
  | cons member rest ih =>
    obtain ⟨first, value⟩ := member
    obtain ⟨hfresh, hrest⟩ := List.nodup_cons.1 h
    rw [List.filter_cons, List.lookup_cons]
    by_cases hname : first = name
    · subst hname
      have hnone : rest.filter (·.1 == first) = [] := by
        rw [List.filter_eq_nil_iff]
        intro other hother heq
        exact hfresh (List.mem_map.2 ⟨other, hother, beq_iff_eq.1 heq⟩)
      simp [hnone]
    · have hne : (name == first) = false := by simpa using Ne.symm hname
      simp [hname, hne, ih hrest]

theorem valuesOf_eq_of_nodup {members : List (String × Written)}
    (h : (members.map Prod.fst).Nodup) (name : String) :
    valuesOf (members.map fun member => (some member.1, Written.parsed member.2)) name
      = ((members.lookup name).map Written.parsed).toList := by
  have hmap := congrArg (List.map Written.parsed) (filter_eq_of_nodup h name)
  rw [List.map_map] at hmap
  rw [valuesOf_parsed, Option.toList_map]
  exact hmap

/-- A record with some of the fields gives each of them the value that was written under its
name. -/
theorem read?_parsed {form : RecordForm} {members : List (String × Written)}
    (hfields : form.fields.Nodup) (hnames : (members.map Prod.fst).Sublist form.fields) :
    form.read? (Written.parsed (.record members))
      = some fun name => (members.lookup name).map Written.parsed := by
  have hknown : ∀ member ∈ members, member.1 ∈ form.fields := fun _ hmember =>
    hnames.subset (List.mem_map_of_mem hmember)
  have hvalues := valuesOf_eq_of_nodup (hfields.sublist hnames)
  have hclosed : members.all fun member => form.fields.contains member.1 := by
    simpa using hknown
  have hsingle : form.fields.all fun name => decide
      (((members.lookup name).map Written.parsed).toList.length ≤ 1) := by
    rw [List.all_eq_true]
    intro name _
    cases members.lookup name with
    | none => rfl
    | some value => rfl
  rw [Json.Builder.parsed_record, read?, fromRecord?]
  simp only [hvalues, List.all_map, Function.comp_def, Option.isSome_some, Option.any_some, hclosed,
    hsingle, Bool.or_true, Bool.and_true, List.all_eq_true, implies_true, if_true,
    Option.some.injEq]
  funext name
  rw [Option.head?_toList]
  split
  · rfl
  · next hunknown =>
    have hnone : members.lookup name = none := by
      rw [List.lookup_eq_none_iff]
      intro member hmember
      rw [bne_iff_ne]
      rintro rfl
      exact hunknown (List.contains_iff_mem.2 (hknown member hmember))
    rw [hnone]
    rfl

end RecordForm

end Blocklist
