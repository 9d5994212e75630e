/-
  LayeredConfig/Proofs/Value/Literal.lean
  =======================================
  **What bare literals look like.**

  A bare literal is made of ASCII letters, digits, signs and points
  (`all_isLiteral_of_ofLiteral?`).  There is no white space in it, no comma and no
  quotation mark, so a list of literals with commas between them can be taken apart
  again.  Integers in decimal and the two words for booleans are read back as what
  they were written for (`ofLiteral?_intText`, `ofLiteral?_word`).
-/
import LayeredConfig.Proofs.Template.Grammar
import LayeredConfig.Value.Scalar
import Mathlib

namespace LayeredConfig

/-! ### Characters -/

/-- A character that occurs in bare literals. -/
def isLiteral (c : Char) : Bool := c.isAlphanum || c = '+' || c = '-' || c = '.'

theorem isLiteral_of_isAlpha {c : Char} (h : c.isAlpha = true) : isLiteral c = true := by
  simp [isLiteral, Char.isAlphanum, h]

theorem isLiteral_of_isDigit {c : Char} (h : c.isDigit = true) : isLiteral c = true := by
  simp [isLiteral, Char.isAlphanum, h]

theorem all_isLiteral_of_isAlpha {s : List Char} (h : ∀ c ∈ s, c.isAlpha = true) :
    s.all isLiteral = true :=
  List.all_eq_true.2 fun c hc => isLiteral_of_isAlpha (h c hc)

theorem isBlank_of_isLiteral {c : Char} (h : isLiteral c = true) : Text.isBlank c = false :=
  Text.isBlank_eq_false_of (by decide : ∀ n ∈ Text.whiteSpace, isLiteral (Char.ofNat n) = false) h

/-! ### Words -/

theorem isAlpha_of_isWord {word : String} (hword : word.toList.all Char.isAlpha = true)
    {s : List Char} (h : isWord word s = true) : ∀ c ∈ s, c.isAlpha = true := by
  rw [isWord, beq_iff_eq] at h
  rw [← h, List.all_map] at hword
  intro c hc
  rw [← Char.isAlpha_toLower_eq_isAlpha]
  exact List.all_eq_true.1 hword c hc

/-! ### Numerals -/

namespace Number

theorem all_isLiteral_of_readSign {s : List Char} (h : (readSign s).2.all isLiteral = true) :
    s.all isLiteral = true := by
  rw [readSign.eq_def] at h
  split at h <;> simp_all [isLiteral]

theorem all_isLiteral_of_isNumeral {ds : List Char} (h : isNumeral ds = true) :
    ds.all isLiteral = true := by
  rw [isNumeral, Bool.and_eq_true] at h
  apply List.all_eq_true.2
  intro c hc
  exact isLiteral_of_isDigit (List.all_eq_true.1 h.2 c hc)

theorem all_isLiteral_of_readInt64? {s : List Char} {i : Int64} (h : readInt64? s = some i) :
    s.all isLiteral = true := by
  simp only [readInt64?] at h
  split at h
  next hnumeral => exact all_isLiteral_of_readSign (all_isLiteral_of_isNumeral hnumeral)
  next => cases h

theorem all_isLiteral_of_readExponent? {s : List Char} {e : Int} (h : readExponent? s = some e) :
    s.all isLiteral = true := by
  cases s with
  | nil => rfl
  | cons c rest =>
    simp only [readExponent?] at h
    split at h
    next hc =>
      split at h
      next hnumeral =>
        have hrest := all_isLiteral_of_readSign (all_isLiteral_of_isNumeral hnumeral)
        have hstart : isLiteral c = true := by rcases hc with rfl | rfl <;> decide
        rw [List.all_cons, hstart, hrest]
        rfl
      next => cases h
    next => cases h

theorem all_isLiteral_of_dropWhile {s : List Char}
    (h : (s.dropWhile Char.isDigit).all isLiteral = true) : s.all isLiteral = true := by
  have hdigits : (s.takeWhile Char.isDigit).all isLiteral = true := by
    apply List.all_eq_true.2
    intro c hc
    exact isLiteral_of_isDigit (List.all_eq_true.1 List.all_takeWhile c hc)
  rw [← List.takeWhile_append_dropWhile (p := Char.isDigit) (l := s), List.all_append, hdigits, h]
  rfl

/-- Decimals are made of digits, a point and an exponent. -/
theorem Decimal.all_isLiteral_of_read? {s : List Char} {d : Decimal}
    (h : Decimal.read? s = some d) : s.all isLiteral = true := by
  apply all_isLiteral_of_dropWhile
  simp only [Decimal.read?] at h
  split at h
  next r hpoint =>
    split at h
    next => cases h
    next =>
      obtain ⟨e, he, -⟩ := Option.map_eq_some_iff.1 h
      have hr := all_isLiteral_of_dropWhile (all_isLiteral_of_readExponent? he)
      rw [hpoint, List.all_cons, hr]
      rfl
  next =>
    split at h
    next => cases h
    next =>
      obtain ⟨e, he, -⟩ := Option.map_eq_some_iff.1 h
      exact all_isLiteral_of_readExponent? he

end Number

/-! ### Literals -/

namespace Value

/-- A bare literal is a boolean, an integer or a float. -/
theorem kind_of_ofLiteral? {s : List Char} {v : Value} (h : ofLiteral? s = some v) :
    (∃ b, v = .boolean b) ∨ (∃ i, v = .integer i) ∨ ∃ x, v = .float x := by
  rw [ofLiteral?] at h
  split at h
  next => exact .inl ⟨_, (Option.some.inj h).symm⟩
  next =>
    split at h
    next => exact .inl ⟨_, (Option.some.inj h).symm⟩
    next =>
      split at h
      next => exact .inr (.inl ⟨_, (Option.some.inj h).symm⟩)
      next =>
        split at h
        next =>
          obtain ⟨x, -, hx⟩ := Option.map_eq_some_iff.1 h
          exact .inr (.inr ⟨x, hx.symm⟩)
        next => cases h

/-- Nothing but letters, digits, signs and points makes up a bare literal. -/
theorem all_isLiteral_of_ofLiteral? {s : List Char} {v : Value} (h : ofLiteral? s = some v) :
    s.all isLiteral = true := by
  rw [ofLiteral?] at h
  split at h
  next hword => exact all_isLiteral_of_isAlpha (isAlpha_of_isWord (by decide) hword)
  next =>
    split at h
    next hword => exact all_isLiteral_of_isAlpha (isAlpha_of_isWord (by decide) hword)
    next =>
      split at h
      next i hi => exact Number.all_isLiteral_of_readInt64? hi
      next =>
        split at h
        next =>
          obtain ⟨x, hx, -⟩ := Option.map_eq_some_iff.1 h
          obtain ⟨d, hd, -⟩ := Option.map_eq_some_iff.1 hx
          exact Number.all_isLiteral_of_readSign (Number.Decimal.all_isLiteral_of_read? hd)
        next => cases h

theorem ne_nil_of_ofLiteral? {s : List Char} {v : Value} (h : ofLiteral? s = some v) : s ≠ [] := by
  rintro rfl
  cases h

/-- A literal neither begins nor ends with white space. -/
theorem trimmed_of_ofLiteral? {s : List Char} {v : Value} (h : ofLiteral? s = some v) :
    Text.Trimmed s s := by
  have hall := List.all_eq_true.1 (all_isLiteral_of_ofLiteral? h)
  refine ⟨⟨[], [], by simp, rfl, rfl⟩, ?_, ?_⟩
  · exact fun c hc => isBlank_of_isLiteral (hall c (List.mem_of_mem_head? hc))
  · exact fun c hc => isBlank_of_isLiteral (hall c (List.mem_of_mem_getLast? hc))

/-! ### Literals as they are written -/

theorem ofLiteral?_true : ofLiteral? "true".toList = some (.boolean true) := rfl

theorem ofLiteral?_false : ofLiteral? "false".toList = some (.boolean false) := rfl

end Value

namespace Number

theorem isNumeral_digits (n : Nat) : isNumeral (digits n) = true := by
  rw [isNumeral, Bool.and_eq_true, Bool.not_eq_true', List.isEmpty_eq_false_iff]
  refine ⟨Nat.toDigits_ne_nil, List.all_eq_true.2 ?_⟩
  intro c hc
  exact Nat.isDigit_of_mem_toDigits (by decide) (by decide) hc

theorem ofDigits_digits (n : Nat) : ofDigits (digits n) = n :=
  Nat.ofDigitChars_toDigits (by decide) (by decide)

theorem readSign_of_isNumeral {ds : List Char} (h : isNumeral ds = true) :
    readSign ds = (false, ds) := by
  rw [readSign.eq_def]
  split <;> simp_all [isNumeral]

theorem toInt64?_toInt (i : Int64) : toInt64? i.toInt = some i := by
  have hle := i.le_toInt
  have hlt := i.toInt_lt
  rw [toInt64?, if_pos, Int64.ofInt_toInt]
  rw [minInt, maxInt]
  omega

theorem readInt64?_intText (i : Int64) : readInt64? (intText i.toInt) = some i := by
  have hdigits := isNumeral_digits i.toInt.natAbs
  rw [intText]
  split
  next hneg =>
    have hvalue : -(i.toInt.natAbs : Int) = i.toInt := by omega
    simp only [readInt64?, readSign, hdigits, if_true, ofDigits_digits, hvalue]
    exact toInt64?_toInt i
  next hpos =>
    have hvalue : (i.toInt.natAbs : Int) = i.toInt := by omega
    simp only [readInt64?, readSign_of_isNumeral hdigits, hdigits, if_true, ofDigits_digits, hvalue]
    exact toInt64?_toInt i

theorem not_isDigit_of_isAlpha {c : Char} (h : c.isAlpha = true) : c.isDigit = false := by
  rw [Bool.eq_false_iff]
  intro hdigit
  simp [Char.isAlpha, Char.isUpper, Char.isLower, UInt32.le_iff_toNat_le] at h
  simp [Char.isDigit, UInt32.le_iff_toNat_le] at hdigit
  omega

theorem readInt64?_of_isAlpha {s : List Char} (h : ∀ c ∈ s, c.isAlpha = true) :
    readInt64? s = none := by
  have hsign : readSign s = (false, s) := by
    rw [readSign.eq_def]
    split
    next => exact absurd (h _ List.mem_cons_self) (by decide)
    next => exact absurd (h _ List.mem_cons_self) (by decide)
    next => rfl
  have hnumeral : isNumeral s = false := by
    cases s with
    | nil => rfl
    | cons c rest => simp [isNumeral, not_isDigit_of_isAlpha (h c List.mem_cons_self)]
  simp [readInt64?, hsign, hnumeral]

/-- No word is taken for an integer. -/
theorem isWord_of_readInt64? {word : String} (hword : word.toList.all Char.isAlpha = true)
    {s : List Char} {i : Int64} (h : readInt64? s = some i) : isWord word s = false := by
  cases hs : isWord word s with
  | false => rfl
  | true =>
    rw [readInt64?_of_isAlpha (isAlpha_of_isWord hword hs)] at h
    cases h

end Number

/-- An integer that is written out is read as that integer, before anything is tried as a float. -/
theorem Value.ofLiteral?_intText (i : Int64) :
    ofLiteral? (Number.intText i.toInt) = some (.integer i) := by
  have hread := Number.readInt64?_intText i
  rw [ofLiteral?, Number.isWord_of_readInt64? (by decide) hread,
    Number.isWord_of_readInt64? (by decide) hread, hread]
  rfl

end LayeredConfig
