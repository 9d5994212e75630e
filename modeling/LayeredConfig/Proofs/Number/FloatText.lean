/-
  LayeredConfig/Proofs/Number/FloatText.lean
  ==========================================
  **The text of a number tells which number it is.**

  Apart from its sign, the text of a float as a key names infinity or the
  undefined number, or it is read back as a decimal that rounds to the float
  (`spells_unsignedText`).  So no two floats are written alike
  (`floatText_injective`).  Whole numbers are not either, and a float is never
  written as a whole number is, for it has a point or an exponent.
-/
import LayeredConfig.Proofs.Number.Rounding
import LayeredConfig.Proofs.Value.Literal

namespace LayeredConfig.Number

/-! ### Digits -/

theorem all_isDigit_of_isNumeral {ds : List Char} (h : isNumeral ds = true) :
    ∀ c ∈ ds, c.isDigit = true :=
  List.all_eq_true.1 (Bool.and_eq_true_iff.1 h).2

theorem ofDigits_append_zeros (ds : List Char) (n : Nat) :
    ofDigits (ds ++ List.replicate n '0') = 10 ^ n * ofDigits ds :=
  (Nat.ofDigitChars_append 0).trans Nat.ofDigitChars_replicate_zero

theorem ofDigits_zeros_append (n : Nat) (ds : List Char) :
    ofDigits (List.replicate n '0' ++ ds) = ofDigits ds := by
  have hzeros : ofDigits (List.replicate n '0') = 0 := Nat.ofDigitChars_replicate_zero
  exact (Nat.ofDigitChars_append 0).trans (congrArg (Nat.ofDigitChars 10 ds) hzeros)

/-! ### Whole numbers -/

theorem readSign_intText (n : Int) : readSign (intText n) = (decide (n < 0), digits n.natAbs) := by
  rw [intText]
  split
  next hneg => rw [decide_eq_true hneg, readSign]
  next hpos => rw [decide_eq_false hpos, readSign_of_isNumeral (isNumeral_digits _)]

theorem intText_injective : Function.Injective intText := by
  intro n k h
  have hread := congrArg readSign h
  rw [readSign_intText, readSign_intText] at hread
  obtain ⟨hsign, hdigits⟩ := Prod.mk.inj hread
  have habs := congrArg ofDigits hdigits
  rw [ofDigits_digits, ofDigits_digits] at habs
  have hsign := decide_eq_decide.1 hsign
  omega

/-! ### Decimals that are read back -/

namespace Decimal

theorem readExponent?_intText (n : Int) : readExponent? ('e' :: intText n) = some n := by
  have hvalue : (if decide (n < 0) then -(n.natAbs : Int) else n.natAbs) = n := by
    split
    next hneg =>
      have hneg := of_decide_eq_true hneg
      omega
    next hpos =>
      have hpos := of_decide_eq_false (Bool.eq_false_iff.2 hpos)
      omega
  simp only [readExponent?, readSign_intText, isNumeral_digits, ofDigits_digits, true_or, if_true,
    hvalue]

section Parts

variable {whole fraction rest : List Char} {e : Int}

/-- An exponent begins with its mark, or there is none. -/
theorem head_of_readExponent? (h : readExponent? rest = some e) :
    ∀ c ∈ rest.head?, c = 'e' ∨ c = 'E' := by
  intro c hc
  cases rest with
  | nil => cases hc
  | cons c' rest =>
    obtain rfl : c' = c := Option.some.inj hc
    simp only [readExponent?] at h
    split at h
    next hmark => exact hmark
    next => cases h

/-- The digits in front of a text end where the first other character stands. -/
theorem span_digits (hwhole : ∀ c ∈ whole, c.isDigit = true)
    (hrest : ∀ c ∈ rest.head?, c.isDigit = false) :
    (whole ++ rest).takeWhile Char.isDigit = whole ∧
      (whole ++ rest).dropWhile Char.isDigit = rest := by
  obtain ⟨htake, hdrop⟩ := Text.takeWhile_of_head hrest
  rw [List.takeWhile_append_of_pos hwhole, List.dropWhile_append_of_pos hwhole, htake, hdrop,
    List.append_nil]
  exact ⟨rfl, rfl⟩

theorem span_exponent (hwhole : ∀ c ∈ whole, c.isDigit = true)
    (hrest : readExponent? rest = some e) :
    (whole ++ rest).takeWhile Char.isDigit = whole ∧
      (whole ++ rest).dropWhile Char.isDigit = rest := by
  apply span_digits hwhole
  intro c hc
  rcases head_of_readExponent? hrest c hc with rfl | rfl <;> decide

/-- Digits and an exponent. -/
theorem read?_whole (hne : whole ≠ []) (hwhole : ∀ c ∈ whole, c.isDigit = true)
    (hrest : readExponent? rest = some e) :
    Decimal.read? (whole ++ rest) = some ⟨ofDigits whole, e⟩ := by
  obtain ⟨htake, hdrop⟩ := span_exponent hwhole hrest
  have hpoint : ∀ r, rest ≠ '.' :: r := by
    rintro r rfl
    rcases head_of_readExponent? hrest '.' rfl with h | h <;> cases h
  have hempty : whole.isEmpty = false := List.isEmpty_eq_false_iff.2 hne
  simp [Decimal.read?, htake, hdrop, hempty, hrest]

/-- Digits with a point among them, and an exponent. -/
theorem read?_fraction (hne : whole ≠ []) (hwhole : ∀ c ∈ whole, c.isDigit = true)
    (hfraction : ∀ c ∈ fraction, c.isDigit = true) (hrest : readExponent? rest = some e) :
    Decimal.read? (whole ++ '.' :: (fraction ++ rest)) =
      some ⟨ofDigits (whole ++ fraction), e - fraction.length⟩ := by
  have hpoint : ∀ c ∈ ('.' :: (fraction ++ rest)).head?, c.isDigit = false := by
    rintro c ⟨⟩
    rfl
  obtain ⟨htake, hdrop⟩ := span_digits hwhole hpoint
  obtain ⟨htake', hdrop'⟩ := span_exponent hfraction hrest
  have hempty : whole.isEmpty = false := List.isEmpty_eq_false_iff.2 hne
  simp only [Decimal.read?, htake, hdrop, htake', hdrop', hrest, Option.map_some, hempty]
  rfl

end Parts

/-! ### Digits with a point -/

/-- The text is read as the number `mantissa × 10 ^ exponent`, if not as these two. -/
def ReadAs (s : List Char) (mantissa : Nat) (exponent : Int) : Prop :=
  ∃ d, Decimal.read? s = some d ∧ d.value = (mantissa : ℚ) * 10 ^ exponent

theorem readAs_point {whole fraction : List Char} (hne : whole ≠ [])
    (hwhole : ∀ c ∈ whole, c.isDigit = true) (hfraction : ∀ c ∈ fraction, c.isDigit = true) :
    ReadAs (whole ++ '.' :: fraction) (ofDigits (whole ++ fraction)) (-fraction.length) := by
  have hread : Decimal.read? (whole ++ '.' :: (fraction ++ [])) =
      some ⟨ofDigits (whole ++ fraction), 0 - fraction.length⟩ :=
    read?_fraction hne hwhole hfraction rfl
  rw [List.append_nil, Int.zero_sub] at hread
  exact ⟨_, hread, rfl⟩

theorem isDigit_of_mem_zeros (n : Nat) : ∀ c ∈ List.replicate n '0', c.isDigit = true := by
  intro c hc
  rw [List.eq_of_mem_replicate hc]
  rfl

theorem ne_nil_of_isNumeral {ds : List Char} (h : isNumeral ds = true) : ds ≠ [] := by
  rintro rfl
  cases h

/-- Zeros are put in to bring the point to its place, and do not change what is read. -/
theorem readAs_positional {ds : List Char} (hds : isNumeral ds = true) (exponent : Int) :
    ReadAs (positional ['.', '0'] ds exponent) (ofDigits ds) exponent := by
  have hdigits := all_isDigit_of_isNumeral hds
  cases exponent with
  | ofNat e =>
    -- a whole number, with one more zero behind the point
    have hwhole : ∀ c ∈ ds ++ List.replicate e '0', c.isDigit = true := by
      intro c hc
      exact (List.mem_append.1 hc).elim (hdigits c) (isDigit_of_mem_zeros e c)
    have hne : ds ++ List.replicate e '0' ≠ [] :=
      List.append_ne_nil_of_left_ne_nil (ne_nil_of_isNumeral hds) _
    obtain ⟨d, hread, hvalue⟩ := readAs_point hne hwhole (isDigit_of_mem_zeros 1)
    refine ⟨d, hread, ?_⟩
    rw [hvalue, List.append_assoc, ← List.replicate_add, ofDigits_append_zeros,
      List.length_replicate, pow_succ]
    push_cast
    rw [zpow_neg_one]
    simp only [Int.ofNat_eq_natCast, zpow_natCast]
    ring
  | negSucc e =>
    rw [positional]
    split
    next hlt =>
      let n := ds.length - (e + 1)
      have hwhole : ∀ c ∈ ds.take n, c.isDigit = true := fun c hc =>
        hdigits c (List.mem_of_mem_take hc)
      have hfraction : ∀ c ∈ ds.drop n, c.isDigit = true := fun c hc =>
        hdigits c (List.mem_of_mem_drop hc)
      have hne : ds.take n ≠ [] := by
        apply List.ne_nil_of_length_pos
        rw [List.length_take]
        omega
      have hlength : -((ds.drop n).length : Int) = .negSucc e := by
        rw [List.length_drop]
        omega
      have hpoint := readAs_point hne hwhole hfraction
      rw [List.take_append_drop, hlength] at hpoint
      exact hpoint
    next hle =>
      let zeros := List.replicate (e + 1 - ds.length) '0'
      have hfraction : ∀ c ∈ zeros ++ ds, c.isDigit = true := by
        intro c hc
        exact (List.mem_append.1 hc).elim (isDigit_of_mem_zeros _ c) (hdigits c)
      have hlength : -((zeros ++ ds).length : Int) = .negSucc e := by
        rw [List.length_append, List.length_replicate]
        omega
      have hzero : List.replicate 1 '0' ≠ [] := List.cons_ne_nil '0' []
      have hpoint := readAs_point hzero (isDigit_of_mem_zeros 1) hfraction
      rw [ofDigits_zeros_append 1, ofDigits_zeros_append, hlength] at hpoint
      exact hpoint

theorem readAs_scientific {ds : List Char} (hds : isNumeral ds = true) (exponent : Int) :
    ReadAs (scientific ds exponent) (ofDigits ds) exponent := by
  have hdigits := all_isDigit_of_isNumeral hds
  have hexponent := readExponent?_intText (exponent + ds.length - 1)
  match ds with
  | [] => cases hds
  | [d] =>
    have hread := read?_whole (List.cons_ne_nil d []) hdigits hexponent
    refine ⟨_, hread, ?_⟩
    rw [Decimal.value]
    simp
  | d :: e :: es =>
    have hwhole : ∀ c ∈ [d], c.isDigit = true := fun c hc =>
      hdigits c (List.mem_cons.2 (.inl (List.mem_singleton.1 hc)))
    have hfraction : ∀ c ∈ e :: es, c.isDigit = true := fun c hc =>
      hdigits c (List.mem_cons_of_mem d hc)
    have hread := read?_fraction (List.cons_ne_nil d []) hwhole hfraction hexponent
    refine ⟨_, hread, ?_⟩
    have hplace : exponent + (d :: e :: es).length - 1 - (e :: es).length = exponent := by
      simp only [List.length_cons]
      omega
    rw [Decimal.value, hplace]
    rfl

end Decimal

/-! ### Floats -/

/-- The bits of a float without its sign, and whether it has a minus sign. -/
def magnitude (x : Float) : Nat := x.toBits.toNat % 0x8000000000000000

def isNegative (x : Float) : Bool := decide (x.toBits.toNat ≥ 0x8000000000000000)

theorem eq_of_magnitude {x y : Float} (hsign : isNegative x = isNegative y)
    (hmagnitude : magnitude x = magnitude y) : x = y := by
  have hx := x.toBits.toNat_lt
  have hy := y.toBits.toNat_lt
  have hsign := decide_eq_decide.1 hsign
  apply Float.toBits_inj.1
  apply UInt64.toNat_inj.1
  rw [magnitude, magnitude] at hmagnitude
  omega

theorem magnitude_nan {x : Float} (h : x.isNaN = true) :
    isNegative x = false ∧ magnitude x = 0x7FF8000000000000 := by
  rw [Float.isNaN_eq_decide_eq_nan] at h
  obtain rfl := of_decide_eq_true h
  decide

section Infinite

open Float.Model Float.Model.UnpackedFloat

theorem magnitude_infinite {x : Float} (h : x.isInf = true) :
    magnitude x = 0x7FF0000000000000 := by
  have hunpack : ∃ s, x.toModel.unpack = .infinity s := by
    change x.toModel.unpack.isInf = true at h
    cases hx : x.toModel.unpack with
    | infinity s => exact ⟨s, rfl⟩
    | _ =>
      rw [hx] at h
      cases h
  obtain ⟨s, hs⟩ := hunpack
  have hvalid : Format.binary64.Valid (pack .binary64 (.infinity s)) := valid_pack
  have hpacked : unpack .binary64 (pack .binary64 (.infinity s)) = .infinity s := by
    cases s <;> rfl
  have hbits : x.toBits.toBitVec = pack .binary64 (.infinity s) :=
    (unpack_inj_of_valid x.toModel.valid hvalid).1 (hs.trans hpacked.symm)
  have hnat : magnitude x = (pack .binary64 (.infinity s)).toNat % 0x8000000000000000 :=
    congrArg (fun bits => bits.toNat % 0x8000000000000000) hbits
  rw [hnat]
  cases s <;> rfl

end Infinite

theorem ofBits_magnitude (x : Float) :
    Binary.ofBits (magnitude x) = Binary.ofBits x.toBits.toNat := by
  have hfraction : magnitude x % 0x10000000000000 = x.toBits.toNat % 0x10000000000000 := by
    rw [magnitude]
    omega
  have hplace : magnitude x / 0x10000000000000 % 0x800 =
      x.toBits.toNat / 0x10000000000000 % 0x800 := by
    rw [magnitude]
    omega
  simp only [Binary.ofBits, hfraction, hplace]

def unsignedText (style : FloatStyle) (x : Float) : List Char :=
  if x.isNaN then style.nan
  else if x.isInf then style.infinity
  else if magnitude x = 0 then '0' :: style.whole
  else
    let d := (Binary.ofBits (magnitude x)).shortest style.tie
    let ds := digits d.mantissa
    let point := d.exponent + ds.length
    if style.least.any fun least => point ≤ least || point > 16 then scientific ds d.exponent
    else positional style.whole ds d.exponent

theorem floatText_eq (style : FloatStyle) (x : Float) :
    floatText style x = (if isNegative x then ['-'] else []) ++ unsignedText style x := by
  by_cases hnan : x.isNaN = true
  · rw [floatText, unsignedText, if_pos hnan, if_pos hnan, (magnitude_nan hnan).1]
    rfl
  · have hmagnitude : x.toBits.toNat % 0x8000000000000000 = magnitude x := rfl
    have hsign : (if x.toBits.toNat ≥ 0x8000000000000000 then ['-'] else []) =
        if isNegative x then ['-'] else [] := by
      simp only [isNegative, decide_eq_true_eq]
    simp only [floatText, unsignedText, if_neg hnan, ofBits_magnitude, hmagnitude, hsign]
    split
    · rfl
    · split
      · rfl
      · split <;> rfl

/-- What the bits of a finite float that is not zero say about its fields. -/
theorem fields_ofBits {bits : Nat} (h : bits % 0x8000000000000000 ≠ 0) :
    0 < (Binary.ofBits bits).m ∧ (Binary.ofBits bits).m < 2 ^ 53 ∧
      -1074 ≤ (Binary.ofBits bits).q ∧ (Binary.ofBits bits).q ≤ 972 := by
  rw [Binary.ofBits]
  split <;> simp only <;> omega

theorem rounds_zero : (Binary.ofBits 0).Rounds 0 := by
  have hlow : (Binary.ofBits 0).low = 0 := by simp [Binary.ofBits, Binary.low]
  have hhigh := Binary.low_lt_high (Binary.ofBits 0)
  rw [hlow] at hhigh
  exact ⟨hlow.le, hhigh.le⟩

/-- What a text without a sign says about the bits of a float: it names the undefined number or
    infinity, or it is read as a decimal that rounds to the float. -/
inductive Spells (s : List Char) (bits : Nat) : Prop where
  | nan : s = inKeyStyle.nan → bits = 0x7FF8000000000000 → Spells s bits
  | infinity : s = inKeyStyle.infinity → bits = 0x7FF0000000000000 → Spells s bits
  | finite (d : Decimal) : Decimal.read? s = some d → (Binary.ofBits bits).Rounds d.value →
      Spells s bits

theorem Spells.of_readAs {s : List Char} {bits : Nat} {d : Decimal}
    (h : Decimal.ReadAs s (ofDigits (digits d.mantissa)) d.exponent)
    (hrounds : (Binary.ofBits bits).Rounds d.value) : Spells s bits := by
  obtain ⟨d', hread, hvalue⟩ := h
  rw [ofDigits_digits] at hvalue
  exact .finite d' hread (hvalue ▸ hrounds)

/-- The text names a special number, or it reads as a decimal that rounds to the float. -/
theorem spells_unsignedText (x : Float) :
    Spells (unsignedText inKeyStyle x) (magnitude x) := by
  rw [unsignedText]
  split
  next hnan => exact .nan rfl (magnitude_nan hnan).2
  next =>
    split
    next hinf => exact .infinity rfl (magnitude_infinite hinf)
    next =>
      split
      next hzero =>
        have hvalue : (⟨0, -1⟩ : Decimal).value = 0 := by simp [Decimal.value]
        rw [hzero]
        exact .finite ⟨0, -1⟩ (by decide) (hvalue.symm ▸ rounds_zero)
      next hne =>
        let d := (Binary.ofBits (magnitude x)).shortest inKeyStyle.tie
        have hbits : magnitude x % 0x8000000000000000 ≠ 0 := by rwa [magnitude, Nat.mod_mod]
        obtain ⟨hm, hlt, hleast, hgreatest⟩ := fields_ofBits hbits
        have hrounds : (Binary.ofBits (magnitude x)).Rounds d.value :=
          Binary.rounds_shortest hm hlt hleast hgreatest inKeyStyle.tie
        have hnumeral := isNumeral_digits d.mantissa
        simp only
        split
        next => exact .of_readAs (Decimal.readAs_scientific hnumeral d.exponent) hrounds
        next => exact .of_readAs (Decimal.readAs_positional hnumeral d.exponent) hrounds

theorem read?_nan : Decimal.read? inKeyStyle.nan = none := by decide

theorem read?_infinity : Decimal.read? inKeyStyle.infinity = none := by decide

namespace Spells

variable {s : List Char} {bits bits' : Nat}

theorem of_nan (h : Spells inKeyStyle.nan bits) : bits = 0x7FF8000000000000 := by
  cases h with
  | nan _ h => exact h
  | infinity hs _ => exact absurd hs (by decide)
  | finite d hread _ =>
    rw [read?_nan] at hread
    cases hread

theorem of_infinity (h : Spells inKeyStyle.infinity bits) : bits = 0x7FF0000000000000 := by
  cases h with
  | nan hs _ => exact absurd hs (by decide)
  | infinity _ h => exact h
  | finite d hread _ =>
    rw [read?_infinity] at hread
    cases hread

theorem rounds (h : Spells s bits) {d : Decimal} (hread : Decimal.read? s = some d) :
    (Binary.ofBits bits).Rounds d.value := by
  cases h with
  | nan hs _ =>
    rw [hs, read?_nan] at hread
    cases hread
  | infinity hs _ =>
    rw [hs, read?_infinity] at hread
    cases hread
  | finite d' hread' hrounds =>
    obtain rfl := Option.some.inj (hread'.symm.trans hread)
    exact hrounds

/-- A text is that of one float only, but for the sign. -/
theorem unique (h : Spells s bits) (h' : Spells s bits') (hbits : bits < 2 ^ 63)
    (hbits' : bits' < 2 ^ 63) : bits = bits' := by
  cases h with
  | nan hs h =>
    subst hs
    exact h.trans h'.of_nan.symm
  | infinity hs h =>
    subst hs
    exact h.trans h'.of_infinity.symm
  | finite d hread hrounds =>
    exact Binary.eq_of_rounds hbits hbits' hrounds (h'.rounds hread)

end Spells

theorem readSign_of_read? {s : List Char} {d : Decimal} (h : Decimal.read? s = some d) :
    readSign s = (false, s) := by
  rw [readSign.eq_def]
  split
  next => simp [Decimal.read?] at h
  next => simp [Decimal.read?] at h
  next => rfl

theorem readSign_floatText (x : Float) :
    readSign (floatText inKeyStyle x) = (isNegative x, unsignedText inKeyStyle x) := by
  have hunsigned : readSign (unsignedText inKeyStyle x) = (false, unsignedText inKeyStyle x) := by
    cases spells_unsignedText x with
    | nan htext _ =>
      rw [htext]
      rfl
    | infinity htext _ =>
      rw [htext]
      rfl
    | finite d hread _ => exact readSign_of_read? hread
  rw [floatText_eq]
  cases isNegative x with
  | true => rfl
  | false => exact hunsigned

/-- **No two floats are written alike as keys.** -/
theorem floatText_injective : Function.Injective (floatText inKeyStyle) := by
  intro x y h
  have hread := congrArg readSign h
  rw [readSign_floatText, readSign_floatText] at hread
  obtain ⟨hsign, htext⟩ := Prod.mk.inj hread
  have hlt : ∀ x, magnitude x < 2 ^ 63 := fun x => Nat.mod_lt _ (by decide)
  have hspells := spells_unsignedText y
  rw [← htext] at hspells
  exact eq_of_magnitude hsign ((spells_unsignedText x).unique hspells (hlt x) (hlt y))

/-! ### Floats, whole numbers and words -/

theorem point_mem_positional (ds : List Char) (exponent : Int) :
    '.' ∈ positional ['.', '0'] ds exponent := by
  cases exponent with
  | ofNat e => simp [positional]
  | negSucc e =>
    rw [positional]
    split <;> simp

/-- A float has a point in its text, or the mark of an exponent. -/
theorem exists_not_isDigit (x : Float) : ∃ c ∈ unsignedText inKeyStyle x, c.isDigit = false := by
  rw [unsignedText]
  split
  next => exact ⟨'.', by decide, rfl⟩
  next =>
    split
    next => exact ⟨'.', by decide, rfl⟩
    next =>
      split
      next => exact ⟨'.', by decide, rfl⟩
      next =>
        simp only
        split
        next => exact ⟨'e', by simp [scientific], rfl⟩
        next => exact ⟨'.', point_mem_positional _ _, rfl⟩

theorem floatText_ne_intText (x : Float) (n : Int) : floatText inKeyStyle x ≠ intText n := by
  intro h
  have hread := congrArg readSign h
  rw [readSign_floatText, readSign_intText] at hread
  obtain ⟨-, htext⟩ := Prod.mk.inj hread
  obtain ⟨c, hc, hdigit⟩ := exists_not_isDigit x
  rw [htext] at hc
  rw [all_isDigit_of_isNumeral (isNumeral_digits _) c hc] at hdigit
  cases hdigit

theorem floatText_ne_word {word : List Char} (hsign : readSign word = (false, word))
    (hread : Decimal.read? word = none) (hnan : word ≠ inKeyStyle.nan)
    (hinfinity : word ≠ inKeyStyle.infinity) (x : Float) : floatText inKeyStyle x ≠ word := by
  intro h
  have htext := congrArg readSign h
  rw [readSign_floatText, hsign] at htext
  obtain ⟨-, htext⟩ := Prod.mk.inj htext
  have hspells := spells_unsignedText x
  rw [htext] at hspells
  cases hspells with
  | nan hs _ => exact hnan hs
  | infinity hs _ => exact hinfinity hs
  | finite d hd _ =>
    rw [hread] at hd
    cases hd

theorem intText_ne_word {word : List Char} (hsign : readSign word = (false, word))
    (hword : isNumeral word = false) (n : Int) : intText n ≠ word := by
  intro h
  have htext := congrArg readSign h
  rw [readSign_intText, hsign] at htext
  obtain ⟨-, htext⟩ := Prod.mk.inj htext
  rw [← htext, isNumeral_digits] at hword
  cases hword

end LayeredConfig.Number
