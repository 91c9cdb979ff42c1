/-
Projections that are written as JSON and read again. An object of strings without marked keys is read as the document
that its members make (`ofTree?_ofStrings`), so any text that carries what a projection of strings is written as comes
back as a projection of its document, up to the order of the fields (`IsOfStrings.read_of_carries`). Under a name that
the table holds more than once, this has the last value.

Writing shows names as they stand in the table, and reading resolves them (`items_ofNewTable`). The only name of a
table that does not stay is `_id`, and `_id` is no name of what has been read (`idField_not_mem_keys`). So the
projection that comes back equals the one that was written unless that shows `_id` (`equal_ofNewTable_iff`).
-/
import Docbase.Projection.Json
import Docbase.Proofs.Json.Written
import Docbase.Proofs.Projection.RoundTrip
import Docbase.Proofs.Projection.SharedTable
import Docbase.Proofs.Projection.Workspace
import Docbase.Proofs.Value.Equality

namespace Docbase

namespace Document

variable {d : Document}

def ofStrings (members : Fields String) : Document := members.map fun m => (m.1, Value.string m.2)

/-- The fields whose values are strings. -/
def strings (d : Document) : Fields String :=
  d.filterMap fun
    | (key, .string s) => some (key, s)
    | _ => none

theorem ofStrings_strings (h : ∀ f ∈ d, ∃ s, f.2 = .string s) : ofStrings (strings d) = d := by
  induction d with
  | nil => rfl
  | cons f d ih =>
    obtain ⟨⟨s, hs⟩, hd⟩ := List.forall_mem_cons.1 h
    obtain ⟨key, v⟩ := f
    cases hs
    exact congrArg _ (ih hd)

theorem toJson_ofStrings (members : Fields String) :
    Json.object (Value.fieldsToJson (ofStrings members)) = Json.ofStrings members := by
  rw [Json.ofStrings]
  congr 1
  induction members with
  | nil => rfl
  | cons m members ih =>
    rw [ofStrings, List.map_cons, Value.fieldsToJson, List.map_cons, Value.toJson]
    exact congrArg _ ih

theorem ofMembers?_ofStrings (marked : Value.MarkedReader) (room : Nat) (members : Fields String) :
    Value.ofMembers? marked room (members.map fun m => (some m.1, .string (some m.2))) =
      some (ofStrings members) := by
  induction members with
  | nil => rfl
  | cons m members ih => simp [Value.ofMembers?, Value.ofTree?, ih, ofStrings]

theorem hasMarkedKey_ofStrings {members : Fields String}
    (h : ∀ key ∈ Fields.keys members, Value.isMarkedKey key = false) :
    Value.hasMarkedKey (members.map fun m => (some m.1, .string (some m.2))) = false := by
  rw [Value.hasMarkedKey, List.any_map, List.any_eq_false]
  intro m hm
  simpa using h m.1 (List.mem_map_of_mem hm)

theorem ofTree?_ofStrings (marked : Value.MarkedReader) (room : Nat) {members : Fields String}
    (h : ∀ key ∈ Fields.keys members, Value.isMarkedKey key = false) :
    ofTree? marked (room + 1) (.ofStrings members) = some (Fields.ofPairs (ofStrings members)) := by
  simp [ofTree?, Json.Tree.ofStrings, Value.ofTree?, hasMarkedKey_ofStrings h, ofMembers?_ofStrings]

end Document

namespace Projection

open NameTables

variable {ts : NameTables} {p : Projection} {d : Document} {text name : String}

/-- Whether all values that a projection shows are strings. -/
def IsOfStrings (ts : NameTables) (p : Projection) : Prop := ∀ v ∈ p.values ts, ∃ s, v = .string s

theorem IsOfStrings.items_eq (h : p.IsOfStrings ts) : p.items ts = Document.ofStrings (Document.strings (p.items ts)) :=
  (Document.ofStrings_strings fun _ hf => h _ (List.mem_map_of_mem hf)).symm

theorem IsOfStrings.toJson_eq (h : p.IsOfStrings ts) :
    p.toJson ts = Json.ofStrings (Document.strings (p.items ts)) := by
  rw [toJson, ← Document.toJson_ofStrings, ← h.items_eq]

theorem IsOfStrings.keys_strings (h : p.IsOfStrings ts) :
    Fields.keys (Document.strings (p.items ts)) = p.keys ts := by
  conv_rhs => rw [keys, h.items_eq, Document.ofStrings, List.map_map]
  rfl

/-- What carries the strings that a projection shows is read as its document, in some order. -/
theorem IsOfStrings.read_of_carries (h : p.IsOfStrings ts)
    (hplain : ∀ name ∈ p.keys ts, Value.isMarkedKey name = false) (marked : Value.MarkedReader)
    (htext : Json.Carries text (Document.strings (p.items ts))) :
    ∃ d, d.Perm (p.toDocument ts) ∧ read marked ts text = .ok (ofNewTable ts d) := by
  obtain ⟨carried, hread, hperm⟩ := htext
  -- The text may leave repeated keys out, and brings none of its own.
  have hcarried : ∀ key ∈ Fields.keys carried, Value.isMarkedKey key = false := by
    intro key hkey
    have hmem : key ∈ Fields.keys (Document.strings (p.items ts)) :=
      Fields.mem_keys_ofPairs_iff.1 ((hperm.map Prod.fst).mem_iff.1 (Fields.mem_keys_ofPairs_iff.2 hkey))
    exact hplain key (h.keys_strings ▸ hmem)
  refine ⟨Fields.ofPairs (Document.ofStrings carried), ?_, ?_⟩
  · rw [toDocument, h.items_eq, Document.ofStrings, Document.ofStrings, Fields.ofPairs_map, Fields.ofPairs_map]
    exact hperm.map _
  · rw [read, hread, Option.bind_some, nestingLimit, Document.ofTree?_ofStrings marked _ hcarried]

theorem mem_keys_toDocument : name ∈ Fields.keys (p.toDocument ts) ↔ name ∈ p.keys ts :=
  Fields.mem_keys_ofPairs_iff

/-! ## What comes back -/

/-- A projection of a document over a new table leaves all others alone, and shows the fields under the names that
their keys are resolved to. -/
theorem items_ofNewTable (ts : NameTables) (d : Document) :
    ts.Extends (ofNewTable ts d).1 ∧ (ofNewTable ts d).2.Addressable (ofNewTable ts d).1 ∧
      ((ofNewTable ts d).2.items (ofNewTable ts d).1).Perm (NamingStrategy.verbatim.fieldsOf d) := by
  have ht := has_create ts []
  obtain ⟨-, -, hholds⟩ := ofDocument_holds (s := .verbatim) ht d
  have haddr := addressable_ofDocument ht d .verbatim
  exact ⟨(extends_create ts []).trans (fits_ofDocument ht d .verbatim).1, haddr,
    hholds.items_perm haddr (Fields.nodup_keys_ofPairs _)⟩

theorem mem_keys_ofNewTable : name ∈ (ofNewTable ts d).2.keys (ofNewTable ts d).1 ↔
    ∃ key ∈ Fields.keys d, NamingStrategy.verbatim.fieldName key = name :=
  ((items_ofNewTable ts d).2.2.map Prod.fst).mem_iff.trans NamingStrategy.mem_keys_fieldsOf

theorem idField_not_mem_keys (ts : NameTables) (d : Document) :
    idField ∉ (ofNewTable ts d).2.keys (ofNewTable ts d).1 := by
  intro hid
  obtain ⟨key, -, hkey⟩ := mem_keys_ofNewTable.1 hid
  exact NamingStrategy.verbatim.fieldName_ne_idField key hkey

section

variable (hd : d.Perm (p.toDocument ts))
include hd

theorem nodup_keys_of_perm_toDocument : (Fields.keys d).Nodup :=
  (hd.map Prod.fst).nodup_iff.2 (Fields.nodup_keys_ofPairs _)

theorem mem_keys_of_perm_toDocument : name ∈ Fields.keys d ↔ name ∈ p.keys ts :=
  (hd.map Prod.fst).mem_iff.trans mem_keys_toDocument

/-- A name that is the only one to become what it is resolved to brings the last value that stands under it. -/
theorem get?_items_ofNewTable {key : String} (halone : ∀ other ∈ p.keys ts,
      NamingStrategy.verbatim.fieldName other = NamingStrategy.verbatim.fieldName key → other = key) :
    Fields.get? ((ofNewTable ts d).2.items (ofNewTable ts d).1) (NamingStrategy.verbatim.fieldName key) =
      Fields.get? (p.items ts).reverse key := by
  have hnodup := nodup_keys_of_perm_toDocument hd
  rw [Fields.get?_of_perm (items_ofNewTable ts d).2.2 (Fields.nodup_keys_ofPairs _),
    NamingStrategy.get?_fieldsOf_of_alone hnodup fun other hother =>
      halone other ((mem_keys_of_perm_toDocument hd).1 hother),
    ← Fields.get?_ofPairs]
  exact Fields.get?_of_perm hd (Fields.nodup_keys_ofPairs _) key

/-- Without `_id` the fields come back as they were. -/
theorem items_ofNewTable_of_kept (hid : idField ∉ p.keys ts) :
    ((ofNewTable ts d).2.items (ofNewTable ts d).1).Perm (p.toDocument ts) := by
  have hkept : ∀ name ∈ Fields.keys d, NamingStrategy.verbatim.fieldName name = name := by
    intro name hname
    refine NamingStrategy.fieldName_eq_self rfl ?_
    rintro rfl
    exact hid ((mem_keys_of_perm_toDocument hd).1 hname)
  have hitems := (items_ofNewTable ts d).2.2
  rw [NamingStrategy.fieldsOf_of_kept (nodup_keys_of_perm_toDocument hd) hkept] at hitems
  exact hitems.trans hd

theorem equal_ofNewTable_iff (hp : p.Fits ts) (hstrings : p.IsOfStrings ts) :
    (ofNewTable ts d).2.equal (ofNewTable ts d).1 p = true ↔ idField ∉ p.keys ts := by
  obtain ⟨hextends, haddr, -⟩ := items_ofNewTable ts d
  have hitems : p.items (ofNewTable ts d).1 = p.items ts :=
    congrArg Observation.items (hp.observe_extended hextends)
  rw [equal, haddr.toDocument_eq, toDocument, hitems, Value.document_equal_iff]
  constructor
  · intro hagree hid
    have hkeys := (hagree.same_keys haddr.nodup_keys_items).1
    exact idField_not_mem_keys ts d (hkeys (Fields.mem_keys_ofPairs_iff.2 hid))
  · intro hid
    have hperm := items_ofNewTable_of_kept hd hid
    refine ⟨hperm.length_eq, fun f hf => ?_⟩
    have hmem : f ∈ p.toDocument ts := hperm.mem_iff.1 hf
    obtain ⟨s, hs⟩ := hstrings f.2 (List.mem_map_of_mem (Fields.mem_of_mem_ofPairs hmem))
    refine ⟨f.2, Fields.get?_of_mem (Fields.nodup_keys_ofPairs _) hmem, ?_⟩
    rw [hs]
    exact Value.equal_iff.2 (.atom rfl)

end

/-- **What a projection of strings is written as is read as an equal one unless it shows `_id`.** In every workspace
that comes from tables by steps, a projection whose values are strings, under names none of which is a marked key, is
written as an object of strings. Every text that carries this object can be read, and gives a projection of the names
that those of the object are resolved to, each once, `_id` as the one that it is shown as. A name that is the only one
to become what it is resolved to brings the last value that the first projection shows under it. If the first does not
show `_id`, the second has the fields of its document; and only then are the two equal. -/
theorem read_toJson {w : Workspace} (hw : w.Reachable) (hp : p ∈ w.projections) (hstrings : p.IsOfStrings w.tables)
    (hplain : ∀ name ∈ p.keys w.tables, Value.isMarkedKey name = false) (marked : Value.MarkedReader) :
    let members := Document.strings (p.items w.tables)
    let resolved := NamingStrategy.verbatim.fieldName
    p.toJson w.tables = Json.ofStrings members ∧ Json.Carries (Json.compact members) members ∧
      ∀ text, Json.Carries text members → ∃ ts q, read marked w.tables text = .ok (ts, q) ∧
        (q.keys ts).Nodup ∧ (∀ name, name ∈ q.keys ts ↔ ∃ key ∈ p.keys w.tables, resolved key = name) ∧
        (∀ key, (∀ other ∈ p.keys w.tables, resolved other = resolved key → other = key) →
          Fields.get? (q.items ts) (resolved key) = Fields.get? (p.items w.tables).reverse key) ∧
        (idField ∉ p.keys w.tables → (q.items ts).Perm (p.toDocument w.tables)) ∧
        (q.equal ts p = true ↔ idField ∉ p.keys w.tables) := by
  intro members resolved
  refine ⟨hstrings.toJson_eq, Json.carries_compact members, fun text htext => ?_⟩
  obtain ⟨d, hd, hread⟩ := hstrings.read_of_carries hplain marked htext
  refine ⟨(ofNewTable w.tables d).1, (ofNewTable w.tables d).2, hread,
    (items_ofNewTable w.tables d).2.1.nodup_keys_items, fun name => ?_, fun key => get?_items_ofNewTable hd,
    items_ofNewTable_of_kept hd, equal_ofNewTable_iff hd (hw.valid p hp) hstrings⟩
  rw [mem_keys_ofNewTable]
  simp only [mem_keys_of_perm_toDocument hd, resolved]

/-- Values by position over a table that holds a name twice, with the value between them removed: two members under
one name are written, of which looking the name up finds the first. A text with white space that has only the second
of them is read as an equal projection, which shows that one. -/
theorem read_toJson_of_repeated_name :
    let w : Workspace := ⟨⟨[["b", "a", "b"]]⟩, [⟨0, [some (.string "x"), none, some (.string "z")], .camelCase⟩]⟩
    let p : Projection := ⟨0, [some (.string "x"), none, some (.string "z")], .camelCase⟩
    let marked : Value.MarkedReader := fun _ _ => none
    w.Reachable ∧ p.IsOfStrings w.tables ∧ (∀ name ∈ p.keys w.tables, Value.isMarkedKey name = false) ∧
      p.toJson w.tables = Json.ofStrings [("b", "x"), ("b", "z")] ∧ p.get? w.tables "b" = some (.string "x") ∧
      ∃ ts q, read marked w.tables "\x7b \"b\" : \"z\" \x7d" = .ok (ts, q) ∧
        q.items ts = [("b", .string "z")] ∧ q.equal ts p = true := by
  intro w p marked
  have hw : w.Reachable := ⟨w.tables, _, (Workspace.Reaches.refl.step
    (o := .ofParts 0 [.string "x", .string "y", .string "z"] .camelCase) rfl).step (o := .remove 0 "a") rfl⟩
  have hstrings : p.IsOfStrings w.tables := by
    have hvalues : p.values w.tables = [.string "x", .string "z"] := rfl
    simp [IsOfStrings, hvalues]
  have hplain : ∀ name ∈ p.keys w.tables, Value.isMarkedKey name = false := by decide
  obtain ⟨hjson, -, hread⟩ := read_toJson hw List.mem_cons_self hstrings hplain marked
  have hcarries : Json.Carries "\x7b \"b\" : \"z\" \x7d" [("b", "x"), ("b", "z")] :=
    ⟨[("b", "z")], rfl, .refl _⟩
  obtain ⟨ts, q, hok, -, -, -, hitems, hequal⟩ := hread _ hcarries
  have hid : idField ∉ p.keys w.tables := by decide
  exact ⟨hw, hstrings, hplain, hjson, rfl, ts, q, hok, List.perm_singleton.1 (hitems hid), hequal.2 hid⟩

/-- A projection that shows `_id`, over a table that holds it, is written with it and read as one that shows `Id`. -/
theorem read_toJson_renames_id :
    let w : Workspace := ⟨⟨[["_id"]]⟩, [⟨0, [some (.string "x")], .verbatim⟩]⟩
    let p : Projection := ⟨0, [some (.string "x")], .verbatim⟩
    let marked : Value.MarkedReader := fun _ _ => none
    w.Reachable ∧ p.IsOfStrings w.tables ∧ (∀ name ∈ p.keys w.tables, Value.isMarkedKey name = false) ∧
      p.toJson w.tables = Json.ofStrings [("_id", "x")] ∧ p.keys w.tables = ["_id"] ∧
      ∃ ts q, read marked w.tables (Json.compact [("_id", "x")]) = .ok (ts, q) ∧
        q.keys ts = ["Id"] ∧ q.equal ts p = false := by
  intro w p marked
  have hw : w.Reachable := ⟨w.tables, _, Workspace.Reaches.refl.step (o := .ofParts 0 [.string "x"] .verbatim) rfl⟩
  have hread : read marked w.tables (Json.compact [("_id", "x")]) =
      .ok (ofNewTable w.tables [("_id", .string "x")]) := by
    rw [read, Json.read?_compact]
    rfl
  have hvalues : p.values w.tables = [.string "x"] := rfl
  exact ⟨hw, by simp [IsOfStrings, hvalues], by decide, rfl, rfl, _, _, hread, by decide +kernel, by decide +kernel⟩

end Projection
end Docbase
