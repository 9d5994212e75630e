/-
  LayeredConfig/Proofs/Yaml/Keys.lean
  ===================================
  **Keys of mappings.**

  Two keys that are written alike are the same, unless one of them is a string and
  the other one is not (`Document.same_of_key?_eq`): the text of a number tells
  which number it is, and it is not one of the two words for booleans.

  No two keys of one mapping are the same.  A reader makes sure of it, at any depth
  and behind aliases as well (`distinct_of_read?`).
-/
import LayeredConfig.Proofs.Number.FloatText
import LayeredConfig.Yaml.Reader

namespace LayeredConfig.Yaml

/-! ### Keys as strings -/

def numeralText : Document.Numeral → List Char
  | .whole n => Number.intText n
  | .fraction x => Number.floatText Number.inKeyStyle x

theorem sameNumeral_of_numeralText {n k : Document.Numeral} (h : numeralText n = numeralText k) :
    sameNumeral n k = true := by
  cases n with
  | whole n =>
    cases k with
    | whole k => exact decide_eq_true (Number.intText_injective h)
    | fraction x => exact absurd h.symm (Number.floatText_ne_intText x n)
  | fraction x =>
    cases k with
    | whole k => exact absurd h (Number.floatText_ne_intText x k)
    | fraction y =>
      obtain rfl := Number.floatText_injective h
      by_cases hnan : x = Float.nan
      · simp [sameNumeral, Float.isNaN_eq_decide_eq_nan, hnan]
      · simp [sameNumeral, Float.beq_self_iff.2 hnan]

theorem numeralText_ne_word {word : List Char} (hsign : Number.readSign word = (false, word))
    (hnumeral : Number.isNumeral word = false) (hread : Number.Decimal.read? word = none)
    (hnan : word ≠ Number.inKeyStyle.nan) (hinfinity : word ≠ Number.inKeyStyle.infinity)
    (n : Document.Numeral) : numeralText n ≠ word := by
  cases n with
  | whole n => exact Number.intText_ne_word hsign hnumeral n
  | fraction x => exact Number.floatText_ne_word hsign hread hnan hinfinity x

/-- No number is written like a truth value. -/
theorem numeralText_ne_boolean (n : Document.Numeral) (b : Bool) :
    numeralText n ≠ (if b then "true" else "false").toList := by
  cases b with
  | true => exact numeralText_ne_word rfl rfl (by decide) (by decide) (by decide) n
  | false => exact numeralText_ne_word rfl rfl (by decide) (by decide) (by decide) n

def Document.isString : Document → Bool
  | .string _ => true
  | _ => false

theorem Document.key?_number (n : Document.Numeral) :
    (Document.number n).key? = some (String.ofList (numeralText n)) := by
  cases n <;> rfl

theorem Document.key?_boolean_ne_number (b : Bool) (n : Document.Numeral) :
    (Document.boolean b).key? ≠ (Document.number n).key? := by
  rw [Document.key?_number]
  intro h
  have htext := congrArg String.toList (Option.some.inj h)
  rw [String.toList_ofList] at htext
  exact numeralText_ne_boolean n b htext.symm

/-- Two keys that are written alike are the same, unless just one of them is a string. -/
theorem Document.same_of_key?_eq {k l : Document} {key : String} (hk : k.key? = some key)
    (hl : l.key? = some key) (h : k.isString = l.isString) : k.same l = true := by
  have heq := hk.trans hl.symm
  cases k with
  | string s =>
    cases l with
    | string s' => exact decide_eq_true (Option.some.inj heq)
    | _ => cases h
  | boolean b =>
    cases l with
    | boolean b' =>
      have hword : ∀ b b' : Bool,
          (if b then "true" else "false") = (if b' then "true" else "false") → b = b' := by decide
      exact decide_eq_true (hword b b' (Option.some.inj heq))
    | number n => exact absurd heq (Document.key?_boolean_ne_number b n)
    | string s => cases h
    | _ => cases hl
  | number n =>
    cases l with
    | boolean b => exact absurd heq.symm (Document.key?_boolean_ne_number b n)
    | number n' =>
      rw [Document.key?_number, Document.key?_number] at heq
      exact sameNumeral_of_numeralText (String.ofList_injective (Option.some.inj heq))
    | string s => cases h
    | _ => cases hl
  | _ => cases hk

/-! ### Keys that differ -/

mutual

/-- No two keys of a mapping are the same, and so for every mapping inside. -/
def Document.Distinct : Document → Prop
  | .sequence items => Document.DistinctItems items
  | .mapping entries =>
    entries.Pairwise (fun a b => a.1.same b.1 = false) ∧ Document.DistinctEntries entries
  | .tagged _ d => d.Distinct
  | _ => True

def Document.DistinctItems : List Document → Prop
  | [] => True
  | d :: rest => d.Distinct ∧ Document.DistinctItems rest

def Document.DistinctEntries : List (Document × Document) → Prop
  | [] => True
  | (_, d) :: rest => d.Distinct ∧ Document.DistinctEntries rest

end

theorem Document.distinctItems_iff {items : List Document} :
    Document.DistinctItems items ↔ ∀ d ∈ items, d.Distinct := by
  induction items with
  | nil => simp [Document.DistinctItems]
  | cons d rest ih => simp [Document.DistinctItems, ih]

theorem Document.distinctEntries_iff {entries : List (Document × Document)} :
    Document.DistinctEntries entries ↔ ∀ entry ∈ entries, entry.2.Distinct := by
  induction entries with
  | nil => simp [Document.DistinctEntries]
  | cons entry rest ih =>
    rw [Document.DistinctEntries]
    simp [ih]

/-- Of two members of a mapping without equal keys only one has a key. -/
theorem eq_of_same {entries : List (Document × Document)}
    (h : entries.Pairwise fun a b => a.1.same b.1 = false) {a b : Document × Document}
    (ha : a ∈ entries) (hb : b ∈ entries) (hab : a.1.same b.1 = true)
    (hba : b.1.same a.1 = true) : a = b := by
  by_contra hne
  have hdiffer : entries.Pairwise fun a b => ¬ (a.1.same b.1 = true ∧ b.1.same a.1 = true) := by
    apply h.imp
    intro a b hfalse hsame
    rw [hfalse] at hsame
    cases hsame.1
  have : Std.Symm fun a b : Document × Document =>
      ¬ (a.1.same b.1 = true ∧ b.1.same a.1 = true) := ⟨fun a b hnot hsame => hnot hsame.symm⟩
  exact hdiffer.forall ha hb hne ⟨hab, hba⟩

/-! ### What is read -/

theorem distinct_of_ofPlain? {s : List Char} {d : Document} (h : ofPlain? s = some d) :
    d.Distinct := by
  simp only [ofPlain?] at h
  split at h
  · cases h
    trivial
  · split at h
    · cases h
      trivial
    · split at h
      · cases h
        trivial
      · cases h
      · split at h
        all_goals
          cases h
          trivial

theorem distinct_of_ofCommonTag? {tag : String} {s : List Char} {d : Document}
    (h : ofCommonTag? tag s = some d) : d.Distinct := by
  simp only [ofCommonTag?] at h
  split at h
  · obtain ⟨b, -, rfl⟩ := Option.map_eq_some_iff.1 h
    trivial
  · split at h
    · split at h <;> cases h
      trivial
    · split at h
      · obtain ⟨x, -, rfl⟩ := Option.map_eq_some_iff.1 h
        trivial
      · split at h
        · split at h <;> cases h
          trivial
        · cases h
          trivial

theorem distinct_of_ofScalar? {tag : Option Tag} {plain : Bool} {s : List Char} {d : Document}
    (h : ofScalar? tag plain s = some d) : d.Distinct := by
  have huntagged : ∀ d, (if plain then ofPlain? s else some (.string (String.ofList s))) = some d →
      d.Distinct := by
    intro d hd
    split at hd
    · exact distinct_of_ofPlain? hd
    · cases hd
      trivial
  simp only [ofScalar?] at h
  split at h
  · exact distinct_of_ofCommonTag? h
  · obtain ⟨d', hd', rfl⟩ := Option.map_eq_some_iff.1 h
    exact huntagged d' hd'
  · exact huntagged d h
  · exact huntagged d h

theorem distinct_tagWith {d : Document} (h : d.Distinct) (tag : Option Tag) :
    (tagWith tag d).Distinct := by
  rw [tagWith.eq_def]
  split <;> exact h

/-- A mapping may be given one more entry with a key that it has not got. -/
theorem distinct_append {entries : List (Document × Document)} {key d : Document}
    (h : (Document.mapping entries).Distinct)
    (hnew : ¬ (entries.any fun (k, _) => k.same key) = true) (hd : d.Distinct) :
    (Document.mapping (entries ++ [(key, d)])).Distinct := by
  obtain ⟨hkeys, hvalues⟩ := h
  constructor
  · apply List.pairwise_append.2 ⟨hkeys, List.pairwise_singleton _ _, ?_⟩
    intro a ha b hb
    rw [List.mem_singleton.1 hb, Bool.eq_false_iff]
    intro hsame
    exact hnew (List.any_eq_true.2 ⟨a, ha, hsame⟩)
  · rw [Document.distinctEntries_iff] at hvalues ⊢
    intro entry hentry
    rcases List.mem_append.1 hentry with hold | hlast
    · exact hvalues entry hold
    · rw [List.mem_singleton.1 hlast]
      exact hd

variable {source : Source}

-- along the reader's own recursion; an alias is read anew, so what stands behind it needs no lemma
mutual

theorem distinct_of_readDocument? {fuel depth : Nat} {built : Built Unit} {d : Document}
    {left : List Numbered × Nat} (h : readDocument? source fuel depth built = some (d, left)) :
    d.Distinct := by
  cases fuel with
  | zero =>
    rw [readDocument?] at h
    cases h
  | succ fuel =>
    obtain ⟨_, events, jumps⟩ := built
    rw [readDocument?.eq_def] at h
    simp only [Option.bind_eq_bind] at h
    split at h
    next =>
      split at h
      · cases h
      · obtain ⟨events', -, h⟩ := Option.bind_eq_some_iff.1 h
        obtain ⟨⟨d', rest', jumps'⟩, hread, h⟩ := Option.bind_eq_some_iff.1 h
        cases h
        exact distinct_of_readDocument? hread
    next =>
      obtain ⟨d', hscalar, h⟩ := Option.bind_eq_some_iff.1 h
      cases h
      exact distinct_of_ofScalar? hscalar
    next =>
      split at h
      · cases h
      · obtain ⟨⟨items, rest'⟩, hread, h⟩ := Option.bind_eq_some_iff.1 h
        cases h
        exact distinct_tagWith (distinct_of_readItems? hread) _
    next =>
      split at h
      · cases h
      · obtain ⟨⟨entries, rest'⟩, hread, h⟩ := Option.bind_eq_some_iff.1 h
        cases h
        have hempty : (Document.mapping []).Distinct := ⟨.nil, trivial⟩
        exact distinct_tagWith (distinct_of_readEntries? hempty hread) _
    next => cases h

theorem distinct_of_readItems? {fuel depth : Nat} {built : Built Unit} {items : List Document}
    {left : List Numbered × Nat} (h : readItems? source fuel depth built = some (items, left)) :
    (Document.sequence items).Distinct := by
  cases fuel with
  | zero =>
    rw [readItems?] at h
    cases h
  | succ fuel =>
    obtain ⟨_, events, jumps⟩ := built
    rw [readItems?.eq_def] at h
    simp only [Option.bind_eq_bind] at h
    split at h
    next =>
      cases h
      trivial
    next =>
      obtain ⟨⟨d, rest⟩, hread, h⟩ := Option.bind_eq_some_iff.1 h
      obtain ⟨⟨ds, rest'⟩, hrest, h⟩ := Option.bind_eq_some_iff.1 h
      cases h
      exact ⟨distinct_of_readDocument? hread, distinct_of_readItems? hrest⟩

/-- An entry is refused if one of those before it has its key. -/
theorem distinct_of_readEntries? {fuel depth : Nat} {entries entries' : List (Document × Document)}
    {built : Built Unit} {left : List Numbered × Nat}
    (hentries : (Document.mapping entries).Distinct)
    (h : readEntries? source fuel depth entries built = some (entries', left)) :
    (Document.mapping entries').Distinct := by
  cases fuel with
  | zero =>
    rw [readEntries?] at h
    cases h
  | succ fuel =>
    obtain ⟨_, events, jumps⟩ := built
    rw [readEntries?.eq_def] at h
    simp only [Option.bind_eq_bind] at h
    split at h
    next =>
      cases h
      exact hentries
    next =>
      obtain ⟨⟨key, rest⟩, -, h⟩ := Option.bind_eq_some_iff.1 h
      split at h
      · cases h
      next hnew =>
        obtain ⟨⟨d, rest'⟩, hread, h⟩ := Option.bind_eq_some_iff.1 h
        exact distinct_of_readEntries?
          (distinct_append hentries hnew (distinct_of_readDocument? hread)) h

end

/-- **A text is read as a document without equal keys.** -/
theorem distinct_of_read? {text : List Char} {d : Document} (h : Document.read? text = some d) :
    d.Distinct := by
  rw [Document.read?] at h
  simp only [Option.bind_eq_bind] at h
  obtain ⟨tokens, -, h⟩ := Option.bind_eq_some_iff.1 h
  obtain ⟨events, -, h⟩ := Option.bind_eq_some_iff.1 h
  rw [Document.ofEvents?] at h
  simp only [Option.bind_eq_bind] at h
  split at h
  · cases h
    trivial
  · obtain ⟨source, -, h⟩ := Option.bind_eq_some_iff.1 h
    obtain ⟨⟨d', rest, jumps⟩, hread, h⟩ := Option.bind_eq_some_iff.1 h
    split at h <;> cases h
    exact distinct_of_readDocument? hread

end LayeredConfig.Yaml
