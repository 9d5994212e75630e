/-
  LayeredConfig/Proofs/Lookup/CallGrammar.lean
  ============================================
  **The grammar of call expressions.**

  A call expression is a name and a pair of parentheses with a list of arguments,
  with white space around all of its parts; between the parentheses there is no
  line feed.  `Spells` says this without a reader: which texts spell which call.
  The reader accepts these texts, gives for each of them the call that it spells,
  and finds fault with all others (`parse_accepts_its_grammar`).

  `Writes` is the narrower relation between a call and the texts that one would
  write for it.  Every call with a proper name and plain arguments can be written,
  and however it is written, it is read back.
-/
import LayeredConfig.Lookup.Call
import LayeredConfig.Proofs.Template.Rewriting
import LayeredConfig.Proofs.Value.Literal

namespace LayeredConfig

/-! ### White space -/

namespace Text

theorem allBlank_append {s t : List Char} (hs : allBlank s = true)
    (ht : allBlank t = true) : allBlank (s ++ t) = true := by
  rw [allBlank, List.all_append, Bool.and_eq_true]
  exact ⟨hs, ht⟩

theorem trimEnd_of_last {s right : List Char} {c : Char} (hc : isBlank c = false)
    (hright : allBlank right = true) : trimEnd (s ++ c :: right) = s ++ [c] := by
  have hreverse : allBlank right.reverse = true := by rwa [allBlank, List.all_reverse]
  have hsplit : (s ++ c :: right).reverse = right.reverse ++ c :: s.reverse := by simp
  rw [trimEnd, hsplit, dropWhile_isBlank_append hreverse]
  simp [hc]

theorem exists_trimEnd (s : List Char) :
    ∃ right, allBlank right = true ∧ s = trimEnd s ++ right := by
  refine ⟨(s.reverse.takeWhile isBlank).reverse, ?_, ?_⟩
  · rw [allBlank, List.all_reverse]
    exact List.all_takeWhile
  · rw [trimEnd, ← List.reverse_append, List.takeWhile_append_dropWhile, List.reverse_reverse]

end Text

namespace CallExpr

/-! ### The grammar -/

/-- The text of a string between its quotation marks: a backslash stands before every backslash and
    every such mark, and at will before any other character. -/
inductive Quoted (quote : Char) : (cs text : List Char) → Prop where
  | nil : Quoted quote [] []
  | plain {c : Char} {cs text : List Char} :
      c ≠ quote → c ≠ '\\' → Quoted quote cs text → Quoted quote (c :: cs) (c :: text)
  | escaped {c : Char} {cs text : List Char} :
      Quoted quote cs text → Quoted quote (c :: cs) ('\\' :: c :: text)

def IsQuote (c : Char) : Prop := c = '\'' ∨ c = '"'

inductive Argument : Value → List Char → Prop where
  | text {quote : Char} {s : String} {text : List Char} :
      IsQuote quote → Quoted quote s.toList text → Argument (.string s) (quote :: (text ++ [quote]))
  | literal {v : Value} {raw : List Char} : Value.ofLiteral? raw = some v → Argument v raw

/-- The texts in which an argument is written. -/
inductive Written : Value → List Char → Prop where
  | text {quote : Char} {s : String} {text : List Char} :
      IsQuote quote → '\n' ∉ s.toList → Quoted quote s.toList text →
      Written (.string s) (quote :: (text ++ [quote]))
  | integer (i : Int64) : Written (.integer i) (Number.intText i.toInt)
  | boolean (b : Bool) : Written (.boolean b) (toString b).toList

/-- Items with commas between them, at least one, and gaps around each of them. -/
inductive Items (gap : List Char → Prop) (item : Value → List Char → Prop) :
    List Value → List Char → Prop where
  | last {v : Value} {left text right : List Char} :
      gap left → item v text → gap right → Items gap item [v] (left ++ (text ++ right))
  | more {v : Value} {vs : List Value} {left text right rest : List Char} :
      gap left → item v text → gap right → Items gap item vs rest →
      Items gap item (v :: vs) (left ++ (text ++ (right ++ ',' :: rest)))

/-- A list of items, or a gap in its place. -/
def Listed (gap : List Char → Prop) (item : Value → List Char → Prop) (vs : List Value)
    (text : List Char) : Prop :=
  vs = [] ∧ gap text ∨ Items gap item vs text

structure IsName (name : List Char) : Prop where
  start : name.head?.any isNameStart = true
  chars : name.all isNameChar = true

/-- A name and a pair of parentheses, with white space around the name and behind the pair. -/
structure Form (name inner text : List Char) : Prop where
  isName : IsName name
  around : ∃ left mid right, text = left ++ (name ++ (mid ++ '(' :: (inner ++ ')' :: right))) ∧
    Text.allBlank left = true ∧ Text.allBlank mid = true ∧ Text.allBlank right = true

def Blank (s : List Char) : Prop := Text.allBlank s = true

def BlankLine (s : List Char) : Prop := Text.allBlank s = true ∧ '\n' ∉ s

def Spells (text : String) (call : CallExpr) : Prop :=
  ∃ inner, Form call.name.toList inner text.toList ∧ '\n' ∉ inner ∧
    Listed Blank Argument call.args inner

def Writes (text : String) (call : CallExpr) : Prop :=
  ∃ inner, Form call.name.toList inner text.toList ∧ Listed BlankLine Written call.args inner

/-! ### The outer form -/

theorem isBlank_of_isNameChar {c : Char} (h : isNameChar c = true) : Text.isBlank c = false :=
  Text.isBlank_eq_false_of
    (by decide : ∀ n ∈ Text.whiteSpace, isNameChar (Char.ofNat n) = false) h

theorem IsName.head_not_blank {name : List Char} (h : IsName name) (rest : List Char) :
    ∀ c ∈ (name ++ rest).head?, Text.isBlank c = false := by
  cases name with
  | nil => cases h.start
  | cons d name =>
    rintro _ ⟨⟩
    exact isBlank_of_isNameChar (List.all_eq_true.1 h.chars d List.mem_cons_self)

/-- A name ends at white space and at a parenthesis. -/
theorem not_isNameChar_of_head {mid : List Char} (hmid : Text.allBlank mid = true)
    (rest : List Char) :
    ∀ c ∈ (mid ++ '(' :: rest).head?, isNameChar c = false := by
  cases mid with
  | nil =>
    rintro _ ⟨⟩
    decide
  | cons d mid =>
    rintro _ ⟨⟩
    rw [Bool.eq_false_iff]
    intro hname
    have hd := List.all_eq_true.1 hmid d List.mem_cons_self
    rw [isBlank_of_isNameChar hname] at hd
    cases hd

/-- The reader finds the parts of a form, unless there is a line feed between the parentheses. -/
theorem splitForm?_eq_of_form {name inner text : List Char} (h : Form name inner text) :
    splitForm? text = if inner.contains '\n' then none else some (name, inner) := by
  obtain ⟨hname, left, mid, right, rfl, hleft, hmid, hright⟩ := h
  have hstart : Text.trimStart (left ++ (name ++ (mid ++ '(' :: (inner ++ ')' :: right)))) =
      name ++ (mid ++ '(' :: (inner ++ ')' :: right)) := by
    rw [Text.trimStart, Text.dropWhile_isBlank_append hleft]
    exact Text.dropWhile_isBlank_of_head? (hname.head_not_blank _)
  have hchars : ∀ c ∈ name, isNameChar c = true := List.all_eq_true.1 hname.chars
  -- the reader takes as many characters for the name as it can, so it has to stop behind it
  obtain ⟨htake, hdrop⟩ := Text.takeWhile_of_head (not_isNameChar_of_head hmid
    (inner ++ ')' :: right))
  have hparen : Text.trimStart (mid ++ '(' :: (inner ++ ')' :: right)) =
      '(' :: (inner ++ ')' :: right) := by
    rw [Text.trimStart, Text.dropWhile_isBlank_append hmid]
    rfl
  have hend : Text.trimEnd (inner ++ ')' :: right) = inner ++ [')'] :=
    Text.trimEnd_of_last (by decide) hright
  simp [splitForm?, hstart, List.takeWhile_append_of_pos hchars, htake, hname.start,
    List.dropWhile_append_of_pos hchars, hdrop, hparen, hend]

theorem splitForm?_of_form {name inner text : List Char} (h : Form name inner text)
    (hline : '\n' ∉ inner) : splitForm? text = some (name, inner) := by
  rw [splitForm?_eq_of_form h, if_neg (by simpa using hline)]

/-- Nothing is split but texts of the outer form, with one line between the parentheses. -/
theorem form_of_splitForm? {name inner text : List Char}
    (h : splitForm? text = some (name, inner)) : Form name inner text ∧ '\n' ∉ inner := by
  simp only [splitForm?] at h
  split at h
  · cases h
  next hstart =>
    split at h
    next rest hparen =>
      split at h
      next reversed hclose =>
        split at h
        · cases h
        next hline =>
          obtain ⟨rfl, rfl⟩ := Prod.mk.inj (Option.some.inj h)
          have hend : Text.trimEnd rest = reversed.reverse ++ [')'] := by
            rw [← List.reverse_reverse (Text.trimEnd rest), hclose, List.reverse_cons]
          refine ⟨⟨⟨by simpa using hstart, List.all_takeWhile⟩, ?_⟩, by simpa using hline⟩
          obtain ⟨right, hright, hrest⟩ := Text.exists_trimEnd rest
          refine ⟨text.takeWhile Text.isBlank,
            ((Text.trimStart text).dropWhile isNameChar).takeWhile Text.isBlank, right, ?_,
            Text.allBlank_takeWhile _, Text.allBlank_takeWhile _, hright⟩
          -- what was cut off the text, from the left to the right
          calc text
              = text.takeWhile Text.isBlank ++ Text.trimStart text :=
                List.takeWhile_append_dropWhile.symm
            _ = text.takeWhile Text.isBlank ++ ((Text.trimStart text).takeWhile isNameChar ++
                  (((Text.trimStart text).dropWhile isNameChar).takeWhile Text.isBlank ++
                    '(' :: rest)) := by
                rw [← hparen]
                simp only [Text.trimStart, List.takeWhile_append_dropWhile]
            _ = _ := by
                rw [hrest, hend, List.append_assoc, List.singleton_append]
      next => cases h
    next => cases h

/-! ### Strings -/

theorem IsQuote.ne_backslash {quote : Char} (h : IsQuote quote) : quote ≠ '\\' := by
  rcases h with rfl | rfl <;> decide

theorem readString?_of_quoted {quote : Char} (hquote : IsQuote quote) {cs text : List Char}
    (h : Quoted quote cs text) (rest : List Char) :
    readString? quote (text ++ quote :: rest) = some (cs, rest) := by
  -- the further goals of a rewriting say that no backslash stands in front
  induction h with
  | nil =>
    rw [List.nil_append, readString?, if_pos rfl]
    · exact fun heq _ => hquote.ne_backslash heq
    · exact fun _ _ heq _ => hquote.ne_backslash heq
  | plain hc hescape _ ih =>
    rw [List.cons_append, readString?, if_neg hc, ih]
    · rfl
    · exact fun heq _ => hescape heq
    · exact fun _ _ heq _ => hescape heq
  | escaped _ ih =>
    rw [List.cons_append, List.cons_append, readString?, ih]
    rfl

theorem quoted_of_readString? {quote : Char} {s cs rest : List Char}
    (h : readString? quote s = some (cs, rest)) :
    ∃ text, Quoted quote cs text ∧ s = text ++ quote :: rest := by
  fun_induction readString? quote s generalizing cs rest with
  | case1 => cases h
  | case2 => cases h
  | case3 c tail ih =>
    obtain ⟨⟨ds, tail'⟩, hread, heq⟩ := Option.map_eq_some_iff.1 h
    obtain ⟨rfl, rfl⟩ := Prod.mk.inj heq
    obtain ⟨text, htext, rfl⟩ := ih hread
    exact ⟨_, htext.escaped, rfl⟩
  | case4 c tail =>
    obtain ⟨rfl, rfl⟩ := Prod.mk.inj (Option.some.inj h)
    exact ⟨[], .nil, rfl⟩
  | case5 c tail hlast hescape hc ih =>
    obtain ⟨⟨ds, tail'⟩, hread, heq⟩ := Option.map_eq_some_iff.1 h
    obtain ⟨rfl, rfl⟩ := Prod.mk.inj heq
    obtain ⟨text, htext, rfl⟩ := ih hread
    -- a backslash with a character behind it is another case, and the closing mark is behind it
    have hplain : c ≠ '\\' := by
      rintro rfl
      cases text with
      | nil => exact hescape _ _ rfl rfl
      | cons d text => exact hescape _ _ rfl rfl
    exact ⟨_, htext.plain hc hplain, rfl⟩

/-! ### Arguments -/

/-- What stands behind an argument and the white space that follows it. -/
def Closes (tail : List Char) : Prop := ∀ c ∈ tail.head?, c = ','

theorem ne_comma_of_isBlank {c : Char} (h : Text.isBlank c = true) : c ≠ ',' := by
  rintro rfl
  cases h

theorem ne_of_isLiteral {c d : Char} (h : isLiteral c = true) (hd : isLiteral d = false) :
    c ≠ d := by
  rintro rfl
  rw [h] at hd
  cases hd

theorem trimStart_of_closes (gap : List Char) {tail : List Char}
    (hgap : Text.allBlank gap = true) (htail : Closes tail) :
    Text.trimStart (gap ++ tail) = tail := by
  rw [Text.trimStart, Text.dropWhile_isBlank_append hgap]
  apply Text.dropWhile_isBlank_of_head?
  intro c hc
  rw [htail c hc]
  rfl

theorem Argument.exists_cons {v : Value} {text : List Char} (h : Argument v text) :
    ∃ c rest, text = c :: rest ∧ Text.isBlank c = false := by
  cases h with
  | @text quote _ _ hquote _ =>
    refine ⟨quote, _, rfl, ?_⟩
    rcases hquote with rfl | rfl <;> rfl
  | literal hv =>
    have hall := List.all_eq_true.1 (Value.all_isLiteral_of_ofLiteral? hv)
    obtain ⟨c, rest, rfl⟩ := List.exists_cons_of_ne_nil (Value.ne_nil_of_ofLiteral? hv)
    exact ⟨c, rest, rfl, isBlank_of_isLiteral (hall c List.mem_cons_self)⟩

/-- An argument is read off the start of a text, if white space and a comma or nothing follow. -/
theorem readArg_of_argument {v : Value} {text right tail : List Char} (h : Argument v text)
    (hright : Text.allBlank right = true) (htail : Closes tail) :
    ∃ rest, readArg (text ++ (right ++ tail)) = .ok (v, rest) ∧ Text.trimStart rest = tail := by
  cases h with
  | @text quote s text hquote htext =>
    refine ⟨right ++ tail, ?_, trimStart_of_closes right hright htail⟩
    have hread := readString?_of_quoted hquote htext (right ++ tail)
    simp [readArg, hread, show quote = '\'' ∨ quote = '"' from hquote]
  | literal hv =>
    have hall := List.all_eq_true.1 (Value.all_isLiteral_of_ofLiteral? hv)
    obtain ⟨d, raw, rfl⟩ := List.exists_cons_of_ne_nil (Value.ne_nil_of_ofLiteral? hv)
    have hliteral := hall d List.mem_cons_self
    -- the literal is taken with all that stands before the next comma, and then trimmed
    have hcomma : ∀ c ∈ d :: raw ++ right, decide (c ≠ ',') = true := by
      intro c hc
      apply decide_eq_true
      rcases List.mem_append.1 hc with hc | hc
      · exact ne_of_isLiteral (hall c hc) (by decide)
      · exact ne_comma_of_isBlank (List.all_eq_true.1 hright c hc)
    have hstop : ∀ c ∈ tail.head?, decide (c ≠ ',') = false := by
      intro c hc
      exact decide_eq_false (not_not_intro (htail c hc))
    obtain ⟨htake, hdrop⟩ := Text.takeWhile_of_head hstop
    have htrim : Text.trim (d :: raw ++ right) = d :: raw := by
      have htrimmed := Value.trimmed_of_ofLiteral? hv
      exact Text.Trimmed.trim_eq ⟨⟨[], right, rfl, rfl, hright⟩, htrimmed.head, htrimmed.last⟩
    have hquote : ¬ (d = '\'' ∨ d = '"') := by
      rintro (rfl | rfl) <;> exact absurd hliteral (by decide)
    have hd : d ≠ ',' := ne_of_isLiteral hliteral (by decide)
    have htaken : (d :: raw ++ (right ++ tail)).takeWhile (· ≠ ',') = d :: raw ++ right := by
      rw [← List.append_assoc, List.takeWhile_append_of_pos hcomma, htake, List.append_nil]
    have hrest : (d :: raw ++ (right ++ tail)).dropWhile (· ≠ ',') = tail := by
      rw [← List.append_assoc, List.dropWhile_append_of_pos hcomma, hdrop]
    refine ⟨tail, ?_, trimStart_of_closes [] rfl htail⟩
    rw [List.cons_append] at htaken hrest ⊢
    simp only [readArg, if_neg hquote, if_neg hd, htaken, hrest, htrim, hv]

/-- What is read as an argument is one, apart from the white space around it. -/
theorem argument_of_readArg {v : Value} {s rest : List Char} (h : readArg s = .ok (v, rest)) :
    ∃ left text right, s = left ++ (text ++ (right ++ rest)) ∧ Text.allBlank left = true ∧
      Argument v text ∧ Text.allBlank right = true := by
  cases s with
  | nil => cases h
  | cons c tail =>
    simp only [readArg] at h
    split at h
    next hquote =>
      split at h
      next cs rest' hread =>
        obtain ⟨rfl, rfl⟩ := Prod.mk.inj (Except.ok.inj h)
        obtain ⟨text, htext, rfl⟩ := quoted_of_readString? hread
        rw [← String.toList_ofList (l := cs)] at htext
        exact ⟨[], _, [], by simp, rfl, .text hquote htext, rfl⟩
      next => cases h
    next =>
      split at h
      next => cases h
      next =>
        split at h
        next w hw =>
          obtain ⟨rfl, rfl⟩ := Prod.mk.inj (Except.ok.inj h)
          obtain ⟨left, right, hsplit, hleft, hright⟩ :=
            (Text.trimmed_trim ((c :: tail).takeWhile (· ≠ ','))).around
          refine ⟨left, _, right, ?_, hleft, .literal hw, hright⟩
          rw [← List.append_assoc, ← List.append_assoc, ← hsplit, List.takeWhile_append_dropWhile]
        next => cases h

/-! ### Lists of arguments -/

section Lists

variable {v : Value} {s rest : List Char} (h : readArg (Text.trimStart s) = .ok (v, rest))
include h

theorem readArgs_last (hrest : Text.trimStart rest = []) : readArgs s = .ok [v] := by
  rw [readArgs]
  split
  next heq => cases heq.symm.trans h
  next w rest' heq =>
    obtain ⟨rfl, rfl⟩ := Prod.mk.inj (Except.ok.inj (heq.symm.trans h))
    split
    next => rfl
    next heq => cases heq.symm.trans hrest
    next heq => cases heq.symm.trans hrest

theorem readArgs_more {vs : List Value} {more : List Char}
    (hrest : Text.trimStart rest = ',' :: more) (hmore : readArgs more = .ok vs) :
    readArgs s = .ok (v :: vs) := by
  rw [readArgs]
  split
  next heq => cases heq.symm.trans h
  next w rest' heq =>
    obtain ⟨rfl, rfl⟩ := Prod.mk.inj (Except.ok.inj (heq.symm.trans h))
    split
    next heq => cases heq.symm.trans hrest
    next heq =>
      obtain rfl := (List.cons.inj (heq.symm.trans hrest)).2
      rw [hmore]
    next hne heq => exact (hne (List.cons.inj (heq.symm.trans hrest)).1).elim

end Lists

theorem readArg_trimStart {v : Value} {left text right tail : List Char}
    (hleft : Text.allBlank left = true) (h : Argument v text) (hright : Text.allBlank right = true)
    (htail : Closes tail) :
    ∃ rest, readArg (Text.trimStart (left ++ (text ++ (right ++ tail)))) = .ok (v, rest) ∧
      Text.trimStart rest = tail := by
  have hstart : Text.trimStart (left ++ (text ++ (right ++ tail))) = text ++ (right ++ tail) := by
    obtain ⟨c, text, rfl, hc⟩ := h.exists_cons
    rw [Text.trimStart, Text.dropWhile_isBlank_append hleft]
    simp [hc]
  rw [hstart]
  exact readArg_of_argument h hright htail

theorem readArgs_of_items {vs : List Value} {s : List Char} (h : Items Blank Argument vs s) :
    readArgs s = .ok vs := by
  induction h with
  | last hleft hv hright =>
    have hend : Closes [] := nofun
    obtain ⟨rest, hread, hrest⟩ := readArg_trimStart hleft hv hright hend
    rw [List.append_nil] at hread
    exact readArgs_last hread hrest
  | @more _ _ _ _ _ rest hleft hv hright _ ih =>
    have hcomma : Closes (',' :: rest) := by
      rintro _ ⟨⟩
      rfl
    obtain ⟨rest', hread, hrest⟩ := readArg_trimStart hleft hv hright hcomma
    exact readArgs_more hread hrest ih

theorem argument_around {v : Value} {s rest : List Char}
    (h : readArg (Text.trimStart s) = .ok (v, rest)) :
    ∃ left text right, s = left ++ (text ++ (right ++ Text.trimStart rest)) ∧
      Blank left ∧ Argument v text ∧ Blank right := by
  obtain ⟨left, text, right, hsplit, hleft, hv, hright⟩ := argument_of_readArg h
  refine ⟨s.takeWhile Text.isBlank ++ left, text, right ++ rest.takeWhile Text.isBlank, ?_,
    Text.allBlank_append (Text.allBlank_takeWhile s) hleft, hv,
    Text.allBlank_append hright (Text.allBlank_takeWhile rest)⟩
  calc s
      = s.takeWhile Text.isBlank ++ Text.trimStart s := List.takeWhile_append_dropWhile.symm
    _ = s.takeWhile Text.isBlank ++ (left ++ (text ++
          (right ++ (rest.takeWhile Text.isBlank ++ Text.trimStart rest)))) := by
        rw [hsplit, Text.trimStart, List.takeWhile_append_dropWhile]
    _ = _ := by simp only [List.append_assoc]

/-- Nothing but a list of arguments is read as one. -/
theorem items_of_readArgs {vs : List Value} {s : List Char} (h : readArgs s = .ok vs) :
    Items Blank Argument vs s := by
  fun_induction readArgs s generalizing vs with
  | case1 => cases h
  | case2 s v rest hread hrest =>
    obtain rfl := Except.ok.inj h
    obtain ⟨left, text, right, hs, hleft, hv, hright⟩ := argument_around hread
    rw [hs, hrest, List.append_nil]
    exact .last hleft hv hright
  | case3 s v rest hread more hrest vs hmore ih =>
    obtain rfl := Except.ok.inj h
    obtain ⟨left, text, right, hs, hleft, hv, hright⟩ := argument_around hread
    rw [hs, hrest]
    exact .more hleft hv hright (ih hmore)
  | case4 => cases h
  | case5 => cases h

theorem Argument.not_blank {v : Value} {left text rest : List Char} (h : Argument v text) :
    ¬ Blank (left ++ (text ++ rest)) := by
  intro hblank
  obtain ⟨c, text, rfl, hc⟩ := h.exists_cons
  rw [List.all_eq_true.1 hblank c (by simp)] at hc
  cases hc

theorem Items.not_blank {vs : List Value} {s : List Char} (h : Items Blank Argument vs s) :
    ¬ Blank s := by
  cases h with
  | last _ hv _ => exact hv.not_blank
  | more _ hv _ _ => exact hv.not_blank

/-! ### The reader and the grammar -/

theorem parse_of_spells {text : String} {call : CallExpr} (h : Spells text call) :
    parse text = .ok call := by
  obtain ⟨inner, hform, hline, hargs⟩ := h
  rw [parse, splitForm?_of_form hform hline]
  rcases hargs with ⟨hnil, hblank⟩ | hitems
  · simp [show Text.allBlank inner = true from hblank, ← hnil]
  · have hblank := hitems.not_blank
    simp [show ¬ Text.allBlank inner = true from hblank, readArgs_of_items hitems]

/-- Nothing but an expression for a call is read as the call. -/
theorem spells_of_parse {text : String} {call : CallExpr} (h : parse text = .ok call) :
    Spells text call := by
  rw [parse] at h
  split at h
  next => cases h
  next name inner hsplit =>
    obtain ⟨hform, hline⟩ := form_of_splitForm? hsplit
    rw [← String.toList_ofList (l := name)] at hform
    split at h
    next hblank =>
      obtain rfl := Except.ok.inj h
      exact ⟨inner, hform, hline, .inl ⟨rfl, hblank⟩⟩
    next =>
      split at h
      next args hread =>
        obtain rfl := Except.ok.inj h
        exact ⟨inner, hform, hline, .inr (items_of_readArgs hread)⟩
      next => cases h

/-- Every fault is found with the expression as a whole. -/
theorem exists_fault_of_error {text : String} {e : Error} (h : parse text = .error e) :
    ∃ fault, parse text = .error (.invalidCall text fault) := by
  rw [parse] at h ⊢
  split at h
  next => exact ⟨_, rfl⟩
  next name inner _ =>
    by_cases hblank : Text.allBlank inner = true
    · rw [if_pos hblank] at h
      cases h
    · simp only [if_neg hblank] at h ⊢
      split at h
      next => cases h
      next => exact ⟨_, rfl⟩

/-! ### Writing calls -/

theorem Written.argument {v : Value} {text : List Char} (h : Written v text) : Argument v text := by
  cases h with
  | text hquote _ htext => exact .text hquote htext
  | integer i => exact .literal (Value.ofLiteral?_intText i)
  | boolean b =>
    cases b with
    | false => exact .literal Value.ofLiteral?_false
    | true => exact .literal Value.ofLiteral?_true

theorem Quoted.one_line {quote : Char} {cs text : List Char} (h : Quoted quote cs text)
    (hcs : '\n' ∉ cs) : '\n' ∉ text := by
  induction h with
  | nil => exact hcs
  | plain _ _ _ ih =>
    rw [List.mem_cons, not_or] at hcs ⊢
    exact ⟨hcs.1, ih hcs.2⟩
  | escaped _ ih =>
    rw [List.mem_cons, not_or] at hcs
    rw [List.mem_cons, List.mem_cons, not_or, not_or]
    exact ⟨by decide, hcs.1, ih hcs.2⟩

theorem one_line_of_ofLiteral? {v : Value} {raw : List Char} (h : Value.ofLiteral? raw = some v) :
    '\n' ∉ raw := by
  intro hmem
  exact absurd (List.all_eq_true.1 (Value.all_isLiteral_of_ofLiteral? h) _ hmem) (by decide)

theorem Written.one_line {v : Value} {text : List Char} (h : Written v text) : '\n' ∉ text := by
  cases h with
  | text hquote hs htext =>
    have hline := htext.one_line hs
    rcases hquote with rfl | rfl <;> simpa using hline
  | integer i => exact one_line_of_ofLiteral? (Value.ofLiteral?_intText i)
  | boolean b =>
    cases b with
    | false => exact one_line_of_ofLiteral? Value.ofLiteral?_false
    | true => exact one_line_of_ofLiteral? Value.ofLiteral?_true

/-- A list as it is written is a list of arguments on one line. -/
theorem Items.accepted {vs : List Value} {s : List Char} (h : Items BlankLine Written vs s) :
    Items Blank Argument vs s ∧ '\n' ∉ s := by
  induction h with
  | last hleft hv hright =>
    exact ⟨.last hleft.1 hv.argument hright.1, by simp [hleft.2, hv.one_line, hright.2]⟩
  | more hleft hv hright _ ih =>
    exact ⟨.more hleft.1 hv.argument hright.1 ih.1,
      by simp [hleft.2, hv.one_line, hright.2, ih.2]⟩

theorem Writes.spells {text : String} {call : CallExpr} (h : Writes text call) :
    Spells text call := by
  obtain ⟨inner, hform, ⟨hnil, hblank⟩ | hitems⟩ := h
  · exact ⟨inner, hform, hblank.2, .inl ⟨hnil, hblank.1⟩⟩
  · exact ⟨inner, hform, hitems.accepted.2, .inr hitems.accepted.1⟩

/-- A value that can be written as an argument. -/
def Plain : Value → Prop
  | .string s => '\n' ∉ s.toList
  | .integer _ => True
  | .boolean _ => True
  | _ => False

/-- Every text can be put between quotation marks: backslashes go before the characters that need
    them. -/
theorem exists_quoted (quote : Char) (cs : List Char) : ∃ text, Quoted quote cs text := by
  induction cs with
  | nil => exact ⟨[], .nil⟩
  | cons c cs ih =>
    obtain ⟨text, htext⟩ := ih
    exact ⟨_, htext.escaped⟩

theorem exists_written {v : Value} (h : Plain v) : ∃ text, Written v text := by
  cases v with
  | string s =>
    obtain ⟨text, htext⟩ := exists_quoted '"' s.toList
    exact ⟨_, .text (.inr rfl) h htext⟩
  | integer i => exact ⟨_, .integer i⟩
  | boolean b => exact ⟨_, .boolean b⟩
  | _ => exact h.elim

theorem exists_items {v : Value} {vs : List Value} (h : ∀ w ∈ v :: vs, Plain w) :
    ∃ s, Items BlankLine Written (v :: vs) s := by
  have hgap : BlankLine [] := ⟨rfl, List.not_mem_nil⟩
  obtain ⟨text, htext⟩ := exists_written (h v List.mem_cons_self)
  induction vs generalizing v text with
  | nil => exact ⟨_, .last hgap htext hgap⟩
  | cons w vs ih =>
    have hvs := fun u hu => h u (List.mem_cons_of_mem _ hu)
    obtain ⟨text', htext'⟩ := exists_written (hvs w List.mem_cons_self)
    obtain ⟨rest, hrest⟩ := ih hvs text' htext'
    exact ⟨_, .more hgap htext hgap hrest⟩

theorem exists_writes {call : CallExpr} (hname : IsName call.name.toList)
    (hargs : ∀ v ∈ call.args, Plain v) : ∃ text, Writes text call := by
  have hlist : ∃ inner, Listed BlankLine Written call.args inner := by
    cases hvs : call.args with
    | nil => exact ⟨[], .inl ⟨rfl, rfl, List.not_mem_nil⟩⟩
    | cons v vs =>
      obtain ⟨inner, hinner⟩ := exists_items (hvs ▸ hargs)
      exact ⟨inner, .inr hinner⟩
  obtain ⟨inner, hinner⟩ := hlist
  refine ⟨String.ofList (call.name.toList ++ '(' :: (inner ++ [')'])), inner, ⟨hname, ?_⟩, hinner⟩
  exact ⟨[], [], [], by simp, rfl, rfl, rfl⟩

/-- **The reader of calls has exactly its grammar.**  A call with a proper name and plain arguments
    can be written, and it is read back from whatever is written for it; the reader gives a call
    for an expression exactly if the expression spells it; and what spells no call is refused. -/
theorem parse_accepts_its_grammar :
    (∀ call : CallExpr, IsName call.name.toList → (∀ v ∈ call.args, Plain v) →
      (∃ text, Writes text call) ∧ ∀ text, Writes text call → parse text = .ok call) ∧
    (∀ text call, parse text = .ok call ↔ Spells text call) ∧
    ∀ text, (∀ call, ¬ Spells text call) →
      ∃ fault, parse text = .error (.invalidCall text fault) := by
  refine ⟨?_, ?_, ?_⟩
  · intro call hname hargs
    exact ⟨exists_writes hname hargs, fun text h => parse_of_spells h.spells⟩
  · exact fun text call => ⟨spells_of_parse, parse_of_spells⟩
  · intro text hnone
    cases h : parse text with
    | ok call => exact absurd (spells_of_parse h) (hnone call)
    | error e =>
      rw [← h]
      exact exists_fault_of_error h

/-! ### A string, an integer and a boolean -/

namespace Mixed

def call : CallExpr := ⟨"f", [.string "it's", .integer (-7), .boolean true]⟩

def text : String := "f( 'i\\t\\'s',-7, true )"

theorem isName_call : IsName call.name.toList := ⟨rfl, rfl⟩

theorem plain_args : ∀ v ∈ call.args, Plain v := by
  simp [call, Plain]

/-- The letter `t` is escaped for no reason, the quotation mark because it has to be. -/
theorem quoted_text : Quoted '\'' "it's".toList ['i', '\\', 't', '\\', '\'', 's'] := by
  have hs : Quoted '\'' ['s'] ['s'] := Quoted.nil.plain (by decide) (by decide)
  exact hs.escaped.escaped.plain (by decide) (by decide)

theorem writes_text : Writes text call := by
  have hnone : BlankLine [] := ⟨rfl, by decide⟩
  have hspace : BlankLine [' '] := ⟨rfl, by decide⟩
  have hstring : Written (.string "it's") _ := .text (.inl rfl) (by decide) quoted_text
  have hboolean : Items BlankLine Written [.boolean true] _ := .last hspace (.boolean true) hspace
  have hinteger : Items BlankLine Written [.integer (-7), .boolean true] _ :=
    .more hnone (.integer (-7)) hnone hboolean
  exact ⟨_, ⟨isName_call, [], [], [], rfl, rfl, rfl, rfl⟩,
    .inr (.more hspace hstring hnone hinteger)⟩

/-- A name alone spells no call, since there are no parentheses. -/
theorem not_spells_name (call : CallExpr) : ¬ Spells "f" call := by
  rintro ⟨inner, ⟨-, left, mid, right, heq, -⟩, -⟩
  have hmem : ')' ∈ "f".toList := heq ▸ (by simp)
  exact absurd hmem (by decide)

theorem reads_mixed_arguments :
    IsName call.name.toList ∧ (∀ v ∈ call.args, Plain v) ∧ Writes text call ∧
      parse text = .ok call ∧ (∀ call, ¬ Spells "f" call) ∧
      ∃ fault, parse "f" = .error (.invalidCall "f" fault) := by
  obtain ⟨hwrites, -, hrefused⟩ := parse_accepts_its_grammar
  exact ⟨isName_call, plain_args, writes_text,
    (hwrites call isName_call plain_args).2 text writes_text, not_spells_name,
    hrefused "f" not_spells_name⟩

end Mixed

end CallExpr

end LayeredConfig
