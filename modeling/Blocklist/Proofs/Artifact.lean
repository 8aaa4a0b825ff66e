import Blocklist.Artifact
import Blocklist.Proofs.Record

set_option autoImplicit false

/-! # Artifacts lose nothing

The document of a list of rules spells exactly these rules, whatever they are: any ids and
priorities, parts of a condition that are missing or empty, any text, any set of resource types. So
a document that was read and written once is a normal form: reading and writing it again changes no
character (`ofJson?_toJson_and_rewrite`). -/

namespace Blocklist

namespace ResourceTypes

/-! ## Resource types -/

theorem ctorIdx_lt (t : ResourceType) : t.ctorIdx < 13 := by
  cases t <;> decide

theorem exists_ctorIdx_eq : ∀ i < 13, ∃ t ∈ ResourceType.all, t.ctorIdx = i := by
  decide

theorem ctorIdx_inj {t u : ResourceType} : t.ctorIdx = u.ctorIdx ↔ t = u := by
  cases t <;> cases u <;> decide

theorem contains_insert (types : ResourceTypes) (t u : ResourceType) :
    (types.insert t).contains u = (types.contains u || decide (t = u)) := by
  simp [insert, contains, ctorIdx_lt, ctorIdx_inj, eq_comm]

theorem contains_foldl_insert (kinds : List ResourceType) (types : ResourceTypes)
    (t : ResourceType) :
    (kinds.foldl insert types).contains t = (types.contains t || decide (t ∈ kinds)) := by
  induction kinds generalizing types with
  | nil => simp
  | cons kind rest ih =>
    rw [List.foldl_cons, ih, contains_insert, Bool.or_assoc]
    simp [eq_comm]

theorem contains_ofList (kinds : List ResourceType) (t : ResourceType) :
    (ofList kinds).contains t = decide (t ∈ kinds) := by
  have hempty : empty.contains t = false := by simp [empty, contains]
  rw [ofList, contains_foldl_insert, hempty, Bool.false_or]

/-- A set is known by its kinds. -/
theorem ext_contains {a b : ResourceTypes} (h : ∀ t, a.contains t = b.contains t) : a = b := by
  obtain ⟨mask⟩ := a
  obtain ⟨mask'⟩ := b
  congr 1
  refine BitVec.eq_of_getLsbD_eq fun i hi => ?_
  obtain ⟨t, -, rfl⟩ := exists_ctorIdx_eq i hi
  exact h t

theorem ofList_toList (types : ResourceTypes) : ofList types.toList = types := by
  refine ext_contains fun t => ?_
  simp [contains_ofList, toList]

theorem read?_written (types : ResourceTypes) :
    read? types.written.parsed = some types := by
  have hnames : Parsed.asList? (fun item => item.asText?.bind ResourceType.ofName?)
      types.written.parsed = some types.toList := by
    rw [written, names, List.map_map]
    exact Parsed.asList?_parsed fun t _ => by simp
  rw [read?, hnames, Option.map_some, ofList_toList]

end ResourceTypes

/-! ## Rules -/

theorem Action.read?_written {room : Nat} (hroom : 1 ≤ room) (action : Action) :
    read? room action.written.parsed = some action := by
  have hne : (room != 0) = true := by simpa using Nat.one_le_iff_ne_zero.1 hroom
  have htagged : action.written.parsed.tagged? room = some (action.tag, .record []) := by
    rw [written, Json.Builder.parsed_record]
    simp [Parsed.tagged?, Parsed.inOrder, Parsed.membersInOrder, hne, RecordForm.valuesOf,
      Written.parsed, Value.map]
  rw [read?, htagged]
  cases action with
  | block => rfl
  | allow => rfl

theorem Condition.read?_writtenDomains (domains : List String) :
    Parsed.asList? Parsed.asText? (writtenDomains domains).parsed = some domains :=
  Parsed.asList?_parsed fun s _ => Parsed.asText?_parsed s

/-- Parts of a condition that are missing are left out, and missing when read. -/
theorem Condition.read?_written (condition : Condition) :
    read? condition.written.parsed = some condition := by
  have hfilter := fieldOr_parsed Parsed.asText?_parsed nofun condition.urlFilter
  have hinitiators := fieldOr_parsed read?_writtenDomains nofun condition.initiatorDomains
  have hrequests := fieldOr_parsed read?_writtenDomains nofun condition.requestDomains
  have htypes := ResourceTypes.read?_written condition.resourceTypes
  rw [read?, written, RecordForm.read?_parsed (by decide) ?_]
  · simp [List.lookup_append, RecordForm.lookup_toList_map, List.lookup_cons, -Option.map_map,
      hfilter, hinitiators, hrequests, htypes]
  · simp only [List.map_append]
    exact (((RecordForm.map_fst_toList_sublist ..).append
      (RecordForm.map_fst_toList_sublist ..)).append
      (RecordForm.map_fst_toList_sublist ..)).append (List.Sublist.refl _)

theorem Rule.read?_written {room : Nat} (hroom : 2 ≤ room) (rule : Rule) :
    read? room rule.written.parsed = some rule := by
  have haction : Action.read? (room - 1) rule.action.written.parsed = some rule.action :=
    Action.read?_written (by omega) rule.action
  have hcondition := Condition.read?_written rule.condition
  rw [read?, written, RecordForm.read?_parsed (by decide) (List.Sublist.refl _)]
  simp [List.lookup_cons, haction, hcondition]

namespace Artifact

/-! ## Documents -/

theorem ofJson?_toJson (rules : List Rule) : ofJson? (toJson rules) = some rules := by
  rw [ofJson?, toJson, Json.parse?_append_newline, Json.parse?_pretty, Option.bind_some]
  exact Parsed.asList?_parsed fun rule _ => Rule.read?_written (by decide) rule

/-- A document spells the rules that it was written from. So a document that is read and written is
a normal form of it, whatever the document is. -/
theorem ofJson?_toJson_and_rewrite :
    (∀ rules, ofJson? (toJson rules) = some rules)
      ∧ ∀ text, ((ofJson? text).map toJson).bind (fun written => (ofJson? written).map toJson)
        = (ofJson? text).map toJson := by
  refine ⟨ofJson?_toJson, fun text => ?_⟩
  cases ofJson? text with
  | none => rfl
  | some rules => simp [ofJson?_toJson]

end Artifact

end Blocklist
