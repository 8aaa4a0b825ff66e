import Blocklist.Proofs.Record
import Blocklist.Store.File

set_option autoImplicit false

/-! # Snapshots lose nothing

The document of a snapshot spells this snapshot, at every revision and whatever its state holds
(`FileStore.ofContent_document`). The table of ids is the part that needs an argument: its entries
are written in the order of the domains' names, each name once, so that reading them makes the same
map. -/

namespace Blocklist

theorem IdPair.read?_written (ids : IdPair) : read? ids.written.parsed = some ids := by
  rw [read?, written, RecordForm.read?_parsed (by decide) (List.Sublist.refl _)]
  simp [List.lookup_cons]

namespace IdTable

/-- A map is known by its entries, since no key stands twice among them. -/
theorem ofList_toList_entries (entries : Std.ExtTreeMap String IdPair) :
    Std.ExtTreeMap.ofList entries.toList = entries := by
  refine Std.ExtTreeMap.ext_getElem? fun domain => ?_
  cases hdomain : entries[domain]? with
  | some ids =>
    have hmem := Std.ExtTreeMap.mem_toList_iff_getElem?_eq_some.2 hdomain
    exact Std.ExtTreeMap.getElem?_ofList_of_mem Std.ReflCmp.compare_self
      Std.ExtTreeMap.distinct_keys_toList hmem
  | none =>
    refine Std.ExtTreeMap.getElem?_ofList_of_contains_eq_false ?_
    rw [Std.ExtTreeMap.map_fst_toList_eq_keys]
    simpa using hdomain

theorem read?_written (table : IdTable) : read? table.written.parsed = some table := by
  have hentries := Parsed.asMap?_parsed IdPair.read?_written table.toList
  rw [read?, written, RecordForm.read?_parsed (by decide) (List.Sublist.refl _)]
  simp only [List.lookup_cons, String.reduceBEq, Option.map_some, Option.bind_eq_bind,
    Option.bind_some, Parsed.asUInt32?_parsed, hentries]
  rw [toList, ofList_toList_entries]

end IdTable

theorem PersistedState.read?_writtenTime (time? : Option UInt64) :
    Parsed.asNullable? Parsed.asUInt64?
      (Written.parsed (time?.elim .null (.number ·.toNat))) = some time? := by
  cases time? with
  | none => rfl
  | some time =>
    have hread : Parsed.asNullable? Parsed.asUInt64? (Written.parsed (.number time.toNat))
      = (Parsed.asUInt64? (Written.parsed (.number time.toNat))).map some := rfl
    rw [Option.elim_some, hread, Parsed.asUInt64?_parsed, Option.map_some]

theorem PersistedState.read?_written (state : PersistedState) :
    read? state.written.parsed = some state := by
  have hdomains : (Written.parsed (.list (state.exemptedDomains.map .text))).asList?
      Parsed.asText? = some state.exemptedDomains :=
    Parsed.asList?_parsed fun domain _ => Parsed.asText?_parsed domain
  rw [read?, written, RecordForm.read?_parsed (by decide) (List.Sublist.refl _)]
  -- First what stands under each name, then what each reader makes of it.
  simp only [Option.bind_eq_bind, Option.bind_some]
  simp only [List.lookup_cons, String.reduceBEq, Option.map_some]
  simp only [fieldOr, Parsed.asBool?_parsed, read?_writtenTime, hdomains, IdTable.read?_written,
    Option.bind_some]

theorem Versioned.read?_written (v : Versioned) : read? v.written.parsed = some v := by
  have hstate := PersistedState.read?_written v.state
  rw [read?, written, RecordForm.read?_parsed (by decide) (List.Sublist.refl _)]
  simp [List.lookup_cons, hstate]

theorem FileStore.ofContent_document (path : String) (v : Versioned) :
    ofContent path (document v).toUTF8 = .ok v := by
  have hparse : Json.parseBytes? (document v).toUTF8 = some v.written.parsed :=
    (Json.parseBytes?_toByteArray _).trans (Json.parse?_pretty v.written)
  rw [ofContent, hparse, Option.bind_some, Versioned.read?_written]

end Blocklist
