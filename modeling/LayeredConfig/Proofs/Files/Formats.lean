/-
  LayeredConfig/Proofs/Files/Formats.lean
  =======================================
  **The same settings in two formats.**

  A document that JSON can spell and YAML can spell (`Plain`) has the same value in both,
  whatever tags stand in the YAML form and in whatever order its entries come
  (`Plain.YamlForm.value?_eq`).  What that value is, is said once for both
  (`Plain.Means`): items and members that are null are left out at every depth, a whole
  number that fits is an integer, and one that does not fit is the nearest float.

  At the top the two formats differ in one document only.  Null is no object, so it is
  no JSON configuration; for YAML it is the empty one (`json_agrees_with_yaml`).
-/
import LayeredConfig.Files.Format
import LayeredConfig.Proofs.Number.Nearest
import LayeredConfig.Proofs.Outcome
import LayeredConfig.Proofs.Value.Order

namespace LayeredConfig

/-! ### Tables of entries whose keys differ -/

namespace Table

theorem perm_insert {t : Table} {key : String} (h : ∀ entry ∈ t, entry.1 ≠ key) (v : Value) :
    (t.insert key v).Perm ((key, v) :: t) := by
  induction t with
  | nil => exact List.Perm.refl _
  | cons entry rest ih =>
    obtain ⟨k, w⟩ := entry
    obtain ⟨hk, hrest⟩ := List.forall_mem_cons.1 h
    rw [insert, if_neg (Ne.symm hk)]
    split
    next => exact List.Perm.refl _
    next => exact ((ih hrest).cons (k, w)).trans (List.Perm.swap (key, v) (k, w) rest)

theorem perm_insertAll {entries : List (String × Value)} (h : entries.Pairwise fun a b => a.1 ≠ b.1)
    {t : Table} (ht : ∀ entry ∈ entries, ∀ other ∈ t, other.1 ≠ entry.1) :
    (entries.foldl (fun t (key, value) => t.insert key value) t).Perm (entries ++ t) := by
  induction entries generalizing t with
  | nil => exact List.Perm.refl _
  | cons entry rest ih =>
    obtain ⟨hentry, hrest⟩ := List.pairwise_cons.1 h
    obtain ⟨hnew, hothers⟩ := List.forall_mem_cons.1 ht
    have hinsert : ∀ e ∈ rest, ∀ other ∈ t.insert entry.1 entry.2, other.1 ≠ e.1 := by
      intro e he other hother
      rcases eq_or_mem_of_mem_insert hother with rfl | hother
      · exact hentry e he
      · exact hothers e he other hother
    exact (ih hrest hinsert).trans
      (((perm_insert hnew entry.2).append_left rest).trans List.perm_middle)

/-- A table has just the entries that it is made of, if their keys differ. -/
theorem perm_ofList {entries : List (String × Value)}
    (h : entries.Pairwise fun a b => a.1 ≠ b.1) : (ofList entries).Perm entries := by
  have hperm := perm_insertAll h fun _ _ _ (hmem : _ ∈ ([] : Table)) => nomatch hmem
  rwa [List.append_nil] at hperm

theorem pairwise_insertAll (entries : List (String × Value)) {t : Table}
    (ht : t.Pairwise (·.1 < ·.1)) :
    (entries.foldl (fun t (key, value) => t.insert key value) t).Pairwise (·.1 < ·.1) := by
  induction entries generalizing t with
  | nil => exact ht
  | cons entry rest ih => exact ih (pairwise_insert ht entry.1 entry.2)

theorem pairwise_ofList (entries : List (String × Value)) :
    (ofList entries).Pairwise (·.1 < ·.1) :=
  pairwise_insertAll entries List.Pairwise.nil

/-- The order of the entries does not matter if their keys differ. -/
theorem ofList_eq_of_perm {entries entries' : List (String × Value)} (h : entries.Perm entries')
    (hkeys : entries.Pairwise fun a b => a.1 ≠ b.1) : ofList entries = ofList entries' := by
  have hkeys' : entries'.Pairwise fun a b => a.1 ≠ b.1 :=
    (h.pairwise_iff fun hne => hne.symm).1 hkeys
  have hperm := ((perm_ofList hkeys).trans h).trans (perm_ofList hkeys').symm
  apply hperm.eq_of_pairwise _ (pairwise_ofList entries) (pairwise_ofList entries')
  intro a b _ _ hab hba
  exact absurd (String.lt_trans hab hba) (String.lt_irrefl _)

end Table

namespace Document

/-! ### Documents of both formats -/

/-- A document of a kind that both formats have. -/
inductive Plain where
  | null
  | boolean (b : Bool)
  | number (n : Numeral)
  | string (s : String)
  | list (items : List Plain)
  | mapping (members : List (String × Plain))

namespace Plain

mutual

/-- No two members of a mapping have one name, whole numbers are such as 64 bits hold, and so for
    every document inside. -/
def Proper : Plain → Prop
  | .number (.whole n) => Number.minInt ≤ n ∧ n ≤ maxWhole
  | .list items => ProperItems items
  | .mapping members => (members.Pairwise fun a b => a.1 ≠ b.1) ∧ ProperMembers members
  | _ => True

def ProperItems : List Plain → Prop
  | [] => True
  | p :: rest => p.Proper ∧ ProperItems rest

def ProperMembers : List (String × Plain) → Prop
  | [] => True
  | (_, p) :: rest => p.Proper ∧ ProperMembers rest

end

theorem properMembers_iff {members : List (String × Plain)} :
    ProperMembers members ↔ ∀ member ∈ members, member.2.Proper := by
  induction members with
  | nil => simp [ProperMembers]
  | cons member rest ih =>
    rw [ProperMembers]
    simp [ih]

mutual

def json : Plain → Json.Document
  | .null => .null
  | .boolean b => .boolean b
  | .number n => .number n
  | .string s => .string s
  | .list items => .array (jsonItems items)
  | .mapping members => .object (jsonMembers members)

def jsonItems : List Plain → List Json.Document
  | [] => []
  | p :: rest => p.json :: jsonItems rest

def jsonMembers : List (String × Plain) → List (String × Json.Document)
  | [] => []
  | (name, p) :: rest => (name, p.json) :: jsonMembers rest

end

mutual

/-- The second document is the first one in YAML: with any tags, and with the members of mappings
    in any order. -/
inductive YamlForm : Plain → Yaml.Document → Prop where
  | null : YamlForm .null .null
  | boolean (b : Bool) : YamlForm (.boolean b) (.boolean b)
  | number (n : Numeral) : YamlForm (.number n) (.number n)
  | string (s : String) : YamlForm (.string s) (.string s)
  | list {items : List Plain} {ds : List Yaml.Document} :
      YamlItems items ds → YamlForm (.list items) (.sequence ds)
  | mapping {members members' : List (String × Plain)}
      {entries : List (Yaml.Document × Yaml.Document)} :
      members.Perm members' → YamlEntries members' entries →
      YamlForm (.mapping members) (.mapping entries)
  | tagged {p : Plain} {d : Yaml.Document} (tag : String) :
      YamlForm p d → YamlForm p (.tagged tag d)

inductive YamlItems : List Plain → List Yaml.Document → Prop where
  | nil : YamlItems [] []
  | cons {p : Plain} {d : Yaml.Document} {rest : List Plain} {ds : List Yaml.Document} :
      YamlForm p d → YamlItems rest ds → YamlItems (p :: rest) (d :: ds)

inductive YamlEntries : List (String × Plain) → List (Yaml.Document × Yaml.Document) → Prop where
  | nil : YamlEntries [] []
  | cons {name : String} {p : Plain} {d : Yaml.Document} {rest : List (String × Plain)}
      {entries : List (Yaml.Document × Yaml.Document)} :
      YamlForm p d → YamlEntries rest entries →
      YamlEntries ((name, p) :: rest) ((.string name, d) :: entries)

end

mutual

/-- The document stands for the value.  Null stands for none. -/
inductive Means : Plain → Value → Prop where
  | boolean (b : Bool) : Means (.boolean b) (.boolean b)
  | integer {n : Int} {i : Int64} : i.toInt = n → Means (.number (.whole n)) (.integer i)
  | nearest {n : Int} {x : Float} : (∀ i : Int64, i.toInt ≠ n) → Number.IsNearest x n →
      Means (.number (.whole n)) (.float x)
  | fraction (x : Float) : Means (.number (.fraction x)) (.float x)
  | string (s : String) : Means (.string s) (.string s)
  | list {items : List Plain} {vs : List Value} :
      ItemsMean items vs → Means (.list items) (.array vs)
  | mapping {members : List (String × Plain)} {entries table : List (String × Value)} :
      MembersMean members entries → table.Perm entries → table.Pairwise (·.1 < ·.1) →
      Means (.mapping members) (.table table)

inductive ItemsMean : List Plain → List Value → Prop where
  | nil : ItemsMean [] []
  | null {rest : List Plain} {vs : List Value} : ItemsMean rest vs → ItemsMean (.null :: rest) vs
  | value {p : Plain} {v : Value} {rest : List Plain} {vs : List Value} :
      Means p v → ItemsMean rest vs → ItemsMean (p :: rest) (v :: vs)

inductive MembersMean : List (String × Plain) → List (String × Value) → Prop where
  | nil : MembersMean [] []
  | null {name : String} {rest : List (String × Plain)} {entries : List (String × Value)} :
      MembersMean rest entries → MembersMean ((name, .null) :: rest) entries
  | value {name : String} {p : Plain} {v : Value} {rest : List (String × Plain)}
      {entries : List (String × Value)} :
      Means p v → MembersMean rest entries → MembersMean ((name, p) :: rest) ((name, v) :: entries)

end

/-- The document stands for the value, or it is null and there is none. -/
def Gives (p : Plain) : Option Value → Prop
  | some v => p.Means v
  | none => p = .null

/-! ### What the JSON form stands for -/

theorem means_whole {n : Int} (h : Number.minInt ≤ n) (h' : n ≤ maxWhole) :
    Means (.number (.whole n)) (Numeral.whole n).value := by
  rw [Numeral.value, Number.toInt64?]
  by_cases hfits : n ≤ Number.maxInt
  · rw [if_pos ⟨h, hfits⟩]
    exact .integer (Int64.toInt_ofInt_of_le h (Int.lt_add_one_of_le hfits))
  · rw [if_neg fun hboth => hfits hboth.2]
    refine .nearest ?_ (Number.isNearest_ofInt (Int.not_le.1 hfits) h')
    rintro i rfl
    exact hfits (Int.le_of_lt_add_one i.toInt_lt)

theorem entries_jsonMembers (members : List (String × Plain)) :
    Json.Document.entries (jsonMembers members) =
      members.filterMap fun member => member.2.json.value?.map (member.1, ·) := by
  induction members with
  | nil => rfl
  | cons member rest ih =>
    obtain ⟨name, p⟩ := member
    rw [jsonMembers, Json.Document.entries, List.filterMap_cons, ih]
    cases p.json.value? <;> rfl

/-- Members with different names have entries with different keys. -/
theorem pairwise_entries {members : List (String × Plain)}
    (h : members.Pairwise fun a b => a.1 ≠ b.1) :
    (Json.Document.entries (jsonMembers members)).Pairwise fun a b => a.1 ≠ b.1 := by
  rw [entries_jsonMembers, List.pairwise_filterMap]
  apply h.imp
  intro a b hne e he e' he'
  obtain ⟨v, -, rfl⟩ := Option.map_eq_some_iff.1 he
  obtain ⟨v', -, rfl⟩ := Option.map_eq_some_iff.1 he'
  exact hne

mutual

/-- The value of a document is the one that its JSON form has, member by member. -/
theorem Proper.gives_json {p : Plain} (h : p.Proper) : p.Gives p.json.value? := by
  cases p with
  | null => rfl
  | boolean b => exact .boolean b
  | number n =>
    cases n with
    | whole n => exact means_whole h.1 h.2
    | fraction x => exact .fraction x
  | string s => exact .string s
  | list items => exact .list (itemsMean_json h)
  | mapping members =>
    obtain ⟨hnames, hmembers⟩ := h
    exact .mapping (membersMean_json hmembers) (Table.perm_ofList (pairwise_entries hnames))
      (Table.pairwise_ofList _)

theorem itemsMean_json {items : List Plain} (h : ProperItems items) :
    ItemsMean items (Json.Document.values (jsonItems items)) := by
  cases items with
  | nil => exact .nil
  | cons p rest =>
    have hgives := h.1.gives_json
    have hrest := itemsMean_json h.2
    rw [jsonItems, Json.Document.values]
    cases hv : p.json.value? with
    | none =>
      rw [hv] at hgives
      obtain rfl : p = .null := hgives
      exact .null hrest
    | some v =>
      rw [hv] at hgives
      exact .value hgives hrest

theorem membersMean_json {members : List (String × Plain)} (h : ProperMembers members) :
    MembersMean members (Json.Document.entries (jsonMembers members)) := by
  cases members with
  | nil => exact .nil
  | cons member rest =>
    obtain ⟨name, p⟩ := member
    have hgives := h.1.gives_json
    have hrest := membersMean_json h.2
    rw [jsonMembers, Json.Document.entries]
    cases hv : p.json.value? with
    | none =>
      rw [hv] at hgives
      obtain rfl : p = .null := hgives
      exact .null hrest
    | some v =>
      rw [hv] at hgives
      exact .value hgives hrest

end

/-! ### What the YAML form stands for -/

mutual

/-- **A document stands for the same value in both formats.** -/
theorem YamlForm.value?_eq {p : Plain} {y : Yaml.Document} (h : YamlForm p y) (hp : p.Proper) :
    y.value? = p.json.value? := by
  cases h with
  | null => rfl
  | boolean b => rfl
  | number n => rfl
  | string s => rfl
  | list hitems =>
    have hvalues := hitems.values_eq hp
    exact congrArg (fun vs => some (Value.array vs)) hvalues
  | @mapping members members' entries hperm hentries =>
    obtain ⟨hnames, hmembers⟩ := hp
    have hmembers' : ProperMembers members' := by
      rw [properMembers_iff] at hmembers ⊢
      exact fun member hmember => hmembers member (hperm.mem_iff.2 hmember)
    have hsame : (Json.Document.entries (jsonMembers members)).Perm
        (Yaml.Document.entries entries) := by
      rw [hentries.entries_eq hmembers', entries_jsonMembers, entries_jsonMembers]
      exact hperm.filterMap _
    have htable := Table.ofList_eq_of_perm hsame (pairwise_entries hnames)
    exact congrArg (fun table => some (Value.table table)) htable.symm
  | tagged tag hform => exact hform.value?_eq hp

theorem YamlItems.values_eq {items : List Plain} {ds : List Yaml.Document} (h : YamlItems items ds)
    (hp : ProperItems items) :
    Yaml.Document.values ds = Json.Document.values (jsonItems items) := by
  cases h with
  | nil => rfl
  | @cons p d rest ds hform hrest =>
    have hvalues := hrest.values_eq hp.2
    rw [Yaml.Document.values, jsonItems, Json.Document.values, hform.value?_eq hp.1]
    cases p.json.value? with
    | none => exact hvalues
    | some v => exact congrArg (v :: ·) hvalues

theorem YamlEntries.entries_eq {members : List (String × Plain)}
    {entries : List (Yaml.Document × Yaml.Document)} (h : YamlEntries members entries)
    (hp : ProperMembers members) :
    Yaml.Document.entries entries = Json.Document.entries (jsonMembers members) := by
  cases h with
  | nil => rfl
  | @cons name p d rest entries hform hrest =>
    have hentries := hrest.entries_eq hp.2
    rw [Yaml.Document.entries, jsonMembers, Json.Document.entries, hform.value?_eq hp.1]
    cases p.json.value? with
    | none => exact hentries
    | some v => exact congrArg ((name, v) :: ·) hentries

end

/-- Null is the only document without a value. -/
theorem Proper.json_value?_eq_none {p : Plain} (h : p.Proper) :
    p.json.value? = none ↔ p = .null := by
  constructor
  · intro hnone
    have hgives := h.gives_json
    rwa [hnone] at hgives
  · rintro rfl
    rfl

theorem Means.exists_mapping {p : Plain} {table : Table} (h : p.Means (.table table)) :
    ∃ members, p = .mapping members := by
  cases h with
  | mapping => exact ⟨_, rfl⟩

end Plain

end Document

/-! ### Files in both formats -/

namespace Format

theorem ofJson_of_not_table {d : Json.Document} (h : ∀ table, d.value? ≠ some (.table table)) :
    ofJson (some d) = .error .notAnObject := by
  rw [ofJson]
  split
  next table htable => exact absurd htable (h table)
  next => rfl

theorem ofYaml_of_not_table {d : Yaml.Document} {v : Value} (hv : d.value? = some v)
    (h : ∀ table, v ≠ .table table) : ofYaml (some d) = .error .notAMapping := by
  rw [ofYaml, hv]
  cases v with
  | table table => exact absurd rfl (h table)
  | _ => rfl

end Format

/-- The parser of a format gives what its text stands for. -/
theorem FileParser.parse_result {disk : Disk} {path text : String}
    (hread : disk.read path = .text text) (id : Nat) (format : Format) :
    ((FileParser.mk id (.format format)).parse disk path).result =
      (format.readTable text).mapError fun fault => .failed (.parse path fault) := by
  rw [FileParser.parse, Outcome.bind_of_ok rfl]
  simp only [Format.tableAt, hread]
  cases format.readTable text <;> rfl

open Document in
/-- **The same settings mean the same in JSON and in YAML.**  A document without doubled names has
    one value in both formats, and no value just if it is null.  Where it is read from two files,
    both parsers give the table of a mapping and refuse anything else, except that for YAML null is
    the empty table. -/
theorem json_agrees_with_yaml {p : Plain} (hp : p.Proper) {y : Yaml.Document} (hy : p.YamlForm y) :
    y.value? = p.json.value? ∧ (p.json.value? = none ↔ p = .null) ∧
    (∀ v, p.json.value? = some v → p.Means v) ∧
    ∀ (disk : Disk) (jsonPath yamlPath jsonText yamlText : String) (jsonId yamlId : Nat),
      disk.read jsonPath = .text jsonText → Json.Document.read? jsonText.toList = some p.json →
      disk.read yamlPath = .text yamlText → Yaml.Document.read? yamlText.toList = some y →
      (∀ members, p = .mapping members → ∃ table, p.Means (.table table) ∧
        ((FileParser.mk jsonId (.format .json)).parse disk jsonPath).result = .ok table ∧
        ((FileParser.mk yamlId (.format .yaml)).parse disk yamlPath).result = .ok table) ∧
      ((∀ members, p ≠ .mapping members) →
        ((FileParser.mk jsonId (.format .json)).parse disk jsonPath).result =
          .error (.failed (.parse jsonPath .notAnObject)) ∧
        (p = .null →
          ((FileParser.mk yamlId (.format .yaml)).parse disk yamlPath).result = .ok []) ∧
        (p ≠ .null →
          ((FileParser.mk yamlId (.format .yaml)).parse disk yamlPath).result =
            .error (.failed (.parse yamlPath .notAMapping)))) := by
  have hsame := hy.value?_eq hp
  have hmeans : ∀ v, p.json.value? = some v → p.Means v := by
    intro v hv
    have hgives := hp.gives_json
    rwa [hv] at hgives
  refine ⟨hsame, hp.json_value?_eq_none, hmeans, ?_⟩
  intro disk jsonPath yamlPath jsonText yamlText jsonId yamlId hjson hjsonRead hyaml hyamlRead
  have hjsonTable : Format.json.readTable jsonText = Format.ofJson (some p.json) :=
    congrArg Format.ofJson hjsonRead
  have hyamlTable : Format.yaml.readTable yamlText = Format.ofYaml (some y) :=
    congrArg Format.ofYaml hyamlRead
  constructor
  · rintro members rfl
    have hvalue : (Plain.mapping members).json.value? = some (.table _) := rfl
    refine ⟨_, hmeans _ hvalue, ?_, ?_⟩
    · rw [FileParser.parse_result hjson, hjsonTable, Format.ofJson, hvalue, Except.mapError]
    · rw [FileParser.parse_result hyaml, hyamlTable, Format.ofYaml, hsame, hvalue, Except.mapError]
  · intro hmapping
    have hnot : ∀ table, p.json.value? ≠ some (.table table) := by
      intro table htable
      obtain ⟨members, hmembers⟩ := (hmeans _ htable).exists_mapping
      exact hmapping members hmembers
    refine ⟨?_, ?_, ?_⟩
    · rw [FileParser.parse_result hjson, hjsonTable, Format.ofJson_of_not_table hnot,
        Except.mapError]
    · intro hnull
      rw [FileParser.parse_result hyaml, hyamlTable, Format.ofYaml, hsame,
        hp.json_value?_eq_none.2 hnull, Except.mapError]
    · intro hnull
      obtain ⟨v, hv⟩ := Option.ne_none_iff_exists'.1 fun hnone =>
        hnull (hp.json_value?_eq_none.1 hnone)
      have hvalue : ∀ table, v ≠ .table table := by
        rintro table rfl
        exact hnot table hv
      rw [FileParser.parse_result hyaml, hyamlTable,
        Format.ofYaml_of_not_table (hsame.trans hv) hvalue, Except.mapError]

namespace Hosts

open Document

def member : Plain := .mapping [("port", .number (.whole 80)), ("name", .null)]

def settings : Plain := .mapping [
  ("big", .number (.whole 18446744073709551615)), ("hosts", .list [.null, member])]

def jsonText : String := "\x7b\"big\": 18446744073709551615, " ++
  "\"hosts\": [null, \x7b\"port\": 80, \"name\": null\x7d]\x7d"

/-- The same with two tags, and with the members the other way round. -/
def yamlText : String :=
  "!app\nhosts: [~, !host \x7bname: , port: 80\x7d]\nbig: 18446744073709551615"

def taggedMember : Yaml.Document := .tagged "host" (.mapping [
  (.string "name", .null), (.string "port", .number (.whole 80))])

def tagged : Yaml.Document := .tagged "app" (.mapping [
  (.string "hosts", .sequence [.null, taggedMember]),
  (.string "big", .number (.whole 18446744073709551615))])

theorem proper : settings.Proper := by
  simp [settings, member, Plain.Proper, Plain.ProperItems, Plain.ProperMembers, Number.minInt,
    maxWhole]

theorem yamlForm : settings.YamlForm tagged := by
  have hmember : member.YamlForm taggedMember :=
    .tagged "host" (.mapping (List.Perm.swap _ _ _)
      (.cons .null (.cons (.number (.whole 80)) .nil)))
  have hhosts : (Plain.list [.null, member]).YamlForm (.sequence [.null, taggedMember]) :=
    .list (.cons .null (.cons hmember .nil))
  exact .tagged "app" (.mapping (List.Perm.swap _ _ _)
    (.cons hhosts (.cons (.number (.whole 18446744073709551615)) .nil)))

theorem read_json : Json.Document.read? jsonText.toList = some settings.json := by cbv

def plainScalar (s : String) : Yaml.Event := .scalar ⟨none, none⟩ true s.toList

def tokens : List Yaml.Token := [
  .tag ['!'] ("app".toList.map some), .blockMappingStart,
  .key, .scalar true "hosts".toList, .value, .flowSequenceStart,
  .scalar true ['~'], .flowEntry, .tag ['!'] ("host".toList.map some), .flowMappingStart,
  .key, .scalar true "name".toList, .value, .flowEntry,
  .key, .scalar true "port".toList, .value, .scalar true "80".toList,
  .flowMappingEnd, .flowSequenceEnd,
  .key, .scalar true "big".toList, .value, .scalar true "18446744073709551615".toList,
  .blockEnd, .streamEnd]

def events : List Yaml.Event := [
  .mappingStart ⟨none, some (.own "app")⟩,
  plainScalar "hosts", .sequenceStart ⟨none, none⟩, plainScalar "~",
  .mappingStart ⟨none, some (.own "host")⟩,
  plainScalar "name", plainScalar "", plainScalar "port", plainScalar "80", .mappingEnd,
  .sequenceEnd, plainScalar "big", plainScalar "18446744073709551615", .mappingEnd]

theorem read_yaml : Yaml.Document.read? yamlText.toList = some tagged := by
  have htokens : Yaml.tokens? yamlText.toList = some tokens := by decide +kernel
  have hevents : Yaml.events? tokens = some events := by decide +kernel
  have hdocument : Yaml.Document.ofEvents? events = some tagged := rfl
  simp only [Yaml.Document.read?, htokens, hevents, hdocument, Option.bind_eq_bind,
    Option.bind_some]

def disk : Disk := [("app.json", .file (some jsonText)), ("app.yaml", .file (some yamlText))]

theorem one_table :
    settings.Proper ∧ settings.YamlForm tagged ∧ ∃ table, settings.Means (.table table) ∧
      ((FileParser.mk 0 (.format .json)).parse disk "app.json").result = .ok table ∧
      ((FileParser.mk 1 (.format .yaml)).parse disk "app.yaml").result = .ok table := by
  have hjson : disk.read "app.json" = .text jsonText := by decide +kernel
  have hyaml : disk.read "app.yaml" = .text yamlText := by decide +kernel
  obtain ⟨-, -, -, hfiles⟩ := json_agrees_with_yaml proper yamlForm
  obtain ⟨hmapping, -⟩ := hfiles disk _ _ _ _ 0 1 hjson read_json hyaml read_yaml
  exact ⟨proper, yamlForm, hmapping _ rfl⟩

end Hosts

end LayeredConfig
