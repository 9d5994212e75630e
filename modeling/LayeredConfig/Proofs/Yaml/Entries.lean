/-
  LayeredConfig/Proofs/Yaml/Entries.lean
  ======================================
  **Which entries of a mapping are kept.**

  A mapping becomes a table.  An entry whose key is a string, a boolean or a number
  and whose value is not null is found in the table under the text of the key, and
  the table has no other entries (`entries_found`).  The one exception are a string
  and a boolean or number that is spelled like it, both of them keys of the same
  mapping.

  This holds of mappings at any depth, and the table is found where the mapping
  stands, if no key on the way has a rival: steps down in a document are steps down
  in its value.
-/
import LayeredConfig.Proofs.Yaml.Keys

namespace LayeredConfig

/-! ### Tables of lists -/

namespace Table

variable {entries : List (String × Value)} {key : String} {v : Value}

theorem mem_of_get?_insertAll {t : Table}
    (h : (entries.foldl (fun t (key, value) => t.insert key value) t).get? key = some v) :
    (key, v) ∈ entries ∨ t.get? key = some v := by
  induction entries generalizing t with
  | nil => exact .inr h
  | cons entry rest ih =>
    rcases ih h with hmem | ht
    · exact .inl (List.mem_cons_of_mem entry hmem)
    · rw [get?_insert] at ht
      split at ht
      next hkey =>
        obtain rfl := Option.some.inj ht
        subst hkey
        exact .inl List.mem_cons_self
      next => exact .inr ht

theorem mem_of_get?_ofList (h : (ofList entries).get? key = some v) : (key, v) ∈ entries :=
  (mem_of_get?_insertAll h).resolve_right nofun

theorem get?_insertAll_of_unique {t : Table} (hunique : ∀ w, (key, w) ∈ entries → w = v)
    (h : (key, v) ∈ entries ∨ t.get? key = some v) :
    (entries.foldl (fun t (key, value) => t.insert key value) t).get? key = some v := by
  induction entries generalizing t with
  | nil => exact h.resolve_left nofun
  | cons entry rest ih =>
    apply ih fun w hw => hunique w (List.mem_cons_of_mem entry hw)
    rw [get?_insert]
    rcases h with hmem | ht
    · rcases List.mem_cons.1 hmem with rfl | hmem
      · exact .inr (if_pos rfl)
      · exact .inl hmem
    · right
      split
      next hkey =>
        subst hkey
        rw [hunique entry.2 List.mem_cons_self]
      next => exact ht

/-- What is under a key if all entries under that key have the same value. -/
theorem get?_ofList_of_unique (hunique : ∀ w, (key, w) ∈ entries → w = v)
    (hmem : (key, v) ∈ entries) : (ofList entries).get? key = some v :=
  get?_insertAll_of_unique hunique (.inl hmem)

end Table

namespace Yaml

/-! ### One mapping -/

/-- One of the keys is a string, and it is spelled like the boolean or the number that the other
    one is. -/
def Document.Rivals (k l : Document) : Prop := k.key? = l.key? ∧ k.isString ≠ l.isString

/-- No entry with a value has a key that rivals this one. -/
def Document.Unrivalled (k : Document) (entries : List (Document × Document)) : Prop :=
  ∀ entry ∈ entries, k.Rivals entry.1 → entry.2.value? = none

theorem Document.mem_entries {entries : List (Document × Document)} {key : String} {v : Value} :
    (key, v) ∈ Document.entries entries ↔
      ∃ entry ∈ entries, entry.1.key? = some key ∧ entry.2.value? = some v := by
  induction entries with
  | nil => simp [Document.entries]
  | cons entry rest ih =>
    obtain ⟨k, d⟩ := entry
    rw [Document.entries]
    split
    next key' v' hkey hv => simp [ih, hkey, hv, eq_comm]
    next hnone =>
      rw [ih]
      constructor
      · rintro ⟨entry, hmem, hentry⟩
        exact ⟨entry, List.mem_cons_of_mem _ hmem, hentry⟩
      · rintro ⟨entry, hmem, hkey, hv⟩
        rcases List.mem_cons.1 hmem with rfl | hmem
        · exact absurd hv (hnone _ _ hkey)
        · exact ⟨entry, hmem, hkey, hv⟩

theorem get?_of_unrivalled {entries : List (Document × Document)}
    (hkeys : entries.Pairwise fun a b => a.1.same b.1 = false) {k d : Document}
    (hmem : (k, d) ∈ entries) {key : String} {v : Value} (hkey : k.key? = some key)
    (hv : d.value? = some v) (h : k.Unrivalled entries) :
    (Table.ofList (Document.entries entries)).get? key = some v := by
  apply Table.get?_ofList_of_unique
  · intro w hw
    obtain ⟨⟨l, e⟩, hmem', hkey', hw⟩ := Document.mem_entries.1 hw
    -- another entry under this text is no rival, since it has a value, and so it is the same one
    have hstring : k.isString = l.isString := by
      by_contra hne
      rw [h _ hmem' ⟨hkey.trans hkey'.symm, hne⟩] at hw
      cases hw
    have hsame : (k, d) = (l, e) := eq_of_same hkeys hmem hmem'
      (Document.same_of_key?_eq hkey hkey' hstring)
      (Document.same_of_key?_eq hkey' hkey hstring.symm)
    cases hsame
    exact Option.some.inj (hw.symm.trans hv)
  · exact Document.mem_entries.2 ⟨_, hmem, hkey, hv⟩

end Yaml

/-! ### Mappings at any depth -/

/-- A step down in a value: to an item by its index, or to an entry by its key. -/
inductive Value.Step where
  | item (index : Nat)
  | entry (key : String)
deriving DecidableEq, Repr

def Value.follow? : Value → List Value.Step → Option Value
  | v, [] => some v
  | .array items, .item index :: rest => items[index]?.bind fun v => v.follow? rest
  | .table entries, .entry key :: rest => (Table.get? entries key).bind fun v => v.follow? rest
  | _, _ :: _ => none

namespace Yaml

/-- The second document is converted along with the first: it stands inside, below tags, items and
    entries whose keys can be written. -/
inductive Document.Converts : Document → Document → Prop where
  | self (d : Document) : Document.Converts d d
  | tagged {tag : String} {d inner : Document} :
      Document.Converts d inner → Document.Converts (.tagged tag d) inner
  | item {items : List Document} {d inner : Document} :
      d ∈ items → Document.Converts d inner → Document.Converts (.sequence items) inner
  | entry {entries : List (Document × Document)} {k d inner : Document} {key : String} :
      (k, d) ∈ entries → k.key? = some key → Document.Converts d inner →
      Document.Converts (.mapping entries) inner

/-- A document stands inside another one, where the steps lead in the value of that one: below
    tags, items and entries with keys that no other one rivals.  Items are counted without those
    that are null. -/
inductive Document.Holds : Document → List Value.Step → Document → Prop where
  | self (d : Document) : Document.Holds d [] d
  | tagged {tag : String} {d inner : Document} {steps : List Value.Step} :
      Document.Holds d steps inner → Document.Holds (.tagged tag d) steps inner
  | item {before after : List Document} {d inner : Document} {steps : List Value.Step} :
      Document.Holds d steps inner →
      Document.Holds (.sequence (before ++ d :: after))
        (.item (Document.values before).length :: steps) inner
  | entry {entries : List (Document × Document)} {k d inner : Document} {key : String}
      {steps : List Value.Step} :
      (k, d) ∈ entries → k.key? = some key → k.Unrivalled entries →
      Document.Holds d steps inner →
      Document.Holds (.mapping entries) (.entry key :: steps) inner

theorem Document.values_append (before after : List Document) :
    Document.values (before ++ after) = Document.values before ++ Document.values after := by
  induction before with
  | nil => rfl
  | cons d rest ih =>
    rw [List.cons_append, Document.values, Document.values, ih]
    split <;> rfl

theorem Document.Converts.distinct {d inner : Document} (h : d.Converts inner)
    (hd : d.Distinct) : inner.Distinct := by
  induction h with
  | self => exact hd
  | tagged _ ih => exact ih hd
  | item hmem _ ih => exact ih (Document.distinctItems_iff.1 hd _ hmem)
  | entry hmem _ _ ih => exact ih (Document.distinctEntries_iff.1 hd.2 _ hmem)

/-- The value of what a document holds is found in the value of the document. -/
theorem Document.Holds.follow? {d inner : Document} {steps : List Value.Step}
    (h : d.Holds steps inner) (hd : d.Distinct) {v : Value} (hv : inner.value? = some v) :
    ∃ whole, d.value? = some whole ∧ whole.follow? steps = some v := by
  induction h with
  | self => exact ⟨v, hv, by rw [Value.follow?]⟩
  | tagged _ ih => exact ih hd hv
  | @item before after d inner steps _ ih =>
    have hitem : d.Distinct := by
      apply Document.distinctItems_iff.1 hd
      simp
    obtain ⟨w, hw, hfollow⟩ := ih hitem hv
    refine ⟨_, rfl, ?_⟩
    have hvalues : Document.values (before ++ d :: after) =
        Document.values before ++ w :: Document.values after := by
      rw [Document.values_append, Document.values, hw]
    rw [hvalues, Value.follow?]
    simpa using hfollow
  | entry hmem hkey hunrivalled _ ih =>
    obtain ⟨w, hw, hfollow⟩ := ih (Document.distinctEntries_iff.1 hd.2 _ hmem) hv
    refine ⟨_, rfl, ?_⟩
    rw [Value.follow?, get?_of_unrivalled hd.1 hmem hkey hw hunrivalled]
    exact hfollow

/-- **Which entries of a mapping are kept.**  Let a document have no mapping with two keys that are
    the same, and take any mapping that is converted with it, at any depth.  An entry of the mapping
    whose key can be written and whose value is not null is found in the table of the mapping under
    the text of its key, with its own value, unless its key has a rival; the table has no other
    entries; and keys that are written alike are rivals.  Where steps lead to the mapping, they lead
    to that table in the value of the document. -/
theorem entries_found {d : Document} (hd : d.Distinct) {entries : List (Document × Document)}
    (h : d.Converts (.mapping entries)) :
    ∃ table : Table, (Document.mapping entries).value? = some (.table table) ∧
      (∀ k e key v, (k, e) ∈ entries → k.key? = some key → e.value? = some v →
        k.Unrivalled entries → table.get? key = some v) ∧
      (∀ key v, table.get? key = some v →
        ∃ k e, (k, e) ∈ entries ∧ k.key? = some key ∧ e.value? = some v) ∧
      (entries.Pairwise fun a b => ∀ key, a.1.key? = some key → b.1.key? = some key →
        a.1.Rivals b.1) ∧
      ∀ steps, d.Holds steps (.mapping entries) →
        ∃ whole, d.value? = some whole ∧ whole.follow? steps = some (.table table) := by
  have hmapping : (Document.mapping entries).Distinct := h.distinct hd
  refine ⟨_, rfl, ?_, ?_, ?_, ?_⟩
  · intro k e key v hmem hkey hv hunrivalled
    exact get?_of_unrivalled hmapping.1 hmem hkey hv hunrivalled
  · intro key v hv
    obtain ⟨⟨k, e⟩, hmem, hkey, hv⟩ := Document.mem_entries.1 (Table.mem_of_get?_ofList hv)
    exact ⟨k, e, hmem, hkey, hv⟩
  · apply hmapping.1.imp
    intro a b hdiffer key ha hb
    refine ⟨ha.trans hb.symm, ?_⟩
    intro hstring
    rw [Document.same_of_key?_eq ha hb hstring] at hdiffer
    cases hdiffer
  · intro steps hsteps
    exact hsteps.follow? hd rfl

/-! ### Entries that are kept, and entries that are lost -/

namespace Ports

def names : List (Document × Document) := [
  (.number (.whole 80), .tagged "!name" (.string "web")),
  (.boolean true, .null),
  (.string "http", .number (.whole 80))]

def document : Document := .mapping [(.string "ports", .sequence [.null, .mapping names])]

theorem distinct : document.Distinct := by
  simp [document, names, Document.Distinct, Document.DistinctItems, Document.DistinctEntries,
    Document.same]

theorem converts_names : document.Converts (.mapping names) := by
  have hitem : (Document.sequence [.null, .mapping names]).Converts (.mapping names) :=
    .item (List.mem_cons_of_mem _ List.mem_cons_self) (.self _)
  exact .entry List.mem_cons_self rfl hitem

theorem holds_names : document.Holds [.entry "ports", .item 0] (.mapping names) := by
  have hitem : (Document.sequence ([.null] ++ .mapping names :: [])).Holds [.item 0]
      (.mapping names) := .item (.self _)
  refine .entry List.mem_cons_self rfl ?_ hitem
  simp [Document.Unrivalled, Document.Rivals]

/-- The value of an entry is found under the number that is its key. -/
theorem found : ∃ (whole : Value) (table : Table), document.value? = some whole ∧
    whole.follow? [.entry "ports", .item 0] = some (.table table) ∧
      table.get? "80" = some (.string "web") := by
  obtain ⟨table, -, hkept, -, -, hplace⟩ := entries_found distinct converts_names
  obtain ⟨whole, hwhole, hfollow⟩ := hplace _ holds_names
  have hunrivalled : (Document.number (.whole 80)).Unrivalled names := by
    intro entry hentry hrival
    simp only [names, List.mem_cons, List.not_mem_nil, or_false] at hentry
    rcases hentry with rfl | rfl | rfl
    · exact absurd rfl hrival.2
    · rfl
    · exact absurd hrival.1 (by decide)
  exact ⟨whole, table, hwhole, hfollow,
    hkept _ _ "80" _ List.mem_cons_self rfl rfl hunrivalled⟩

end Ports

namespace Lost

/-- Two keys that differ and are written alike. -/
def alike : Document := .mapping [(.number (.whole 1), .string "x"), (.string "1", .string "y")]

/-- A key under a tag. -/
def tagged : Document := .mapping [(.tagged "!k" (.string "a"), .number (.whole 1))]

/-- **Entries can get lost**: one of two that are written alike, and any under a tag. -/
theorem entries_lost :
    (alike.Distinct ∧ alike.value? = some (.table [("1", .string "y")])) ∧
      (tagged.Distinct ∧ tagged.value? = some (.table [])) := by
  refine ⟨⟨?_, ?_⟩, ⟨?_, ?_⟩⟩
  · simp [alike, Document.Distinct, Document.DistinctEntries, Document.same]
  · rfl
  · simp [tagged, Document.Distinct, Document.DistinctEntries]
  · rfl

end Lost

end Yaml

end LayeredConfig
