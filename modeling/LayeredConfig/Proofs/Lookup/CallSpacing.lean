/-
  LayeredConfig/Proofs/Lookup/CallSpacing.lean
  ============================================
  **White space in call expressions.**

  What an expression calls is said by its name and by the texts of its arguments.
  `Respaced` holds between two expressions that agree in these and in nothing else:
  before and behind the name, behind the parentheses, and around every argument and
  comma there may be any white space in the one and any other in the other.

  Two such expressions are the same call, with one exception (`respaced_call`): white
  space between the parentheses must not break the line.  Around them it may, and so
  may every other character that some readers take for the end of a line.
-/
import LayeredConfig.Proofs.Lookup.CallGrammar

namespace LayeredConfig.CallExpr

/-! ### The same parts under other white space -/

def IsArgument (text : List Char) : Prop := ∃ v, Argument v text

/-- Two lists of the same arguments, with white space of their own. -/
inductive SameItems : List Char → List Char → Prop where
  | last {left text right left' right' : List Char} :
      IsArgument text → Blank left → Blank right → Blank left' → Blank right' →
      SameItems (left ++ (text ++ right)) (left' ++ (text ++ right'))
  | more {left text right rest left' right' rest' : List Char} :
      IsArgument text → Blank left → Blank right → Blank left' → Blank right' →
      SameItems rest rest' →
      SameItems (left ++ (text ++ (right ++ ',' :: rest)))
        (left' ++ (text ++ (right' ++ ',' :: rest')))

/-- What stands between the parentheses of two expressions: no argument in either of them, or the
    same ones. -/
def SameList (inner inner' : List Char) : Prop :=
  Blank inner ∧ Blank inner' ∨ SameItems inner inner'

/-- The second expression is the first one with other white space around its parts; `inner'` is
    what it has between its parentheses. -/
def Respaced (text text' : String) (inner' : List Char) : Prop :=
  ∃ name inner, Form name inner text.toList ∧ Form name inner' text'.toList ∧ SameList inner inner'

/-! ### Lists of arguments -/

/-- Whatever the white space, the arguments are of the same values. -/
theorem SameItems.exists_items {s s' : List Char} (h : SameItems s s') :
    ∃ vs, Items Blank Argument vs s ∧ Items Blank Argument vs s' := by
  induction h with
  | last htext hleft hright hleft' hright' =>
    obtain ⟨v, hv⟩ := htext
    exact ⟨[v], .last hleft hv hright, .last hleft' hv hright'⟩
  | more htext hleft hright hleft' hright' _ ih =>
    obtain ⟨v, hv⟩ := htext
    obtain ⟨vs, hrest, hrest'⟩ := ih
    exact ⟨v :: vs, .more hleft hv hright hrest, .more hleft' hv hright' hrest'⟩

theorem SameList.exists_listed {inner inner' : List Char} (h : SameList inner inner') :
    ∃ vs, Listed Blank Argument vs inner ∧ Listed Blank Argument vs inner' := by
  rcases h with ⟨hblank, hblank'⟩ | hitems
  · exact ⟨[], .inl ⟨rfl, hblank⟩, .inl ⟨rfl, hblank'⟩⟩
  · obtain ⟨vs, hvs, hvs'⟩ := hitems.exists_items
    exact ⟨vs, .inr hvs, .inr hvs'⟩

theorem Items.sameItems {vs : List Value} {s : List Char} (h : Items Blank Argument vs s) :
    SameItems s s := by
  induction h with
  | last hleft hv hright => exact .last ⟨_, hv⟩ hleft hright hleft hright
  | more hleft hv hright _ ih => exact .more ⟨_, hv⟩ hleft hright hleft hright ih

/-- The parts of an expression can be told from the white space around them. -/
theorem Spells.respaced {text : String} {call : CallExpr} (h : Spells text call) :
    ∃ inner, Respaced text text inner := by
  obtain ⟨inner, hform, -, ⟨-, hblank⟩ | hitems⟩ := h
  · exact ⟨inner, _, inner, hform, hform, .inl ⟨hblank, hblank⟩⟩
  · exact ⟨inner, _, inner, hform, hform, .inr hitems.sameItems⟩

/-! ### Reading -/

/-- A line that is broken between the parentheses leaves no call. -/
theorem parse_of_broken_line {text : String} {name inner : List Char}
    (h : Form name inner text.toList) (hbreak : '\n' ∈ inner) :
    parse text = .error (.invalidCall text .noCall) := by
  have hsplit : splitForm? text.toList = none := by
    rw [splitForm?_eq_of_form h, if_pos (by simpa using hbreak)]
  rw [parse, hsplit]

theorem parse_of_listed {text : String} {name inner : List Char} {vs : List Value}
    (h : Form name inner text.toList) (hline : '\n' ∉ inner)
    (hvs : Listed Blank Argument vs inner) : parse text = .ok ⟨String.ofList name, vs⟩ := by
  rw [← String.toList_ofList (l := name)] at h
  exact parse_of_spells ⟨inner, h, hline, hvs⟩

/-- **White space around the parts of a call does not matter on one line.**  The parts of an
    expression that is read as a call can be told from the white space around them.  With any other
    white space around the same parts it is read as the same call, unless there is a line feed
    between the parentheses, where no call is found. -/
theorem respaced_call {text : String} {call : CallExpr} (h : parse text = .ok call) :
    (∃ inner, Respaced text text inner) ∧
    ∀ text' inner', Respaced text text' inner' →
      parse text' =
        if '\n' ∈ inner' then .error (.invalidCall text' .noCall) else .ok call := by
  refine ⟨(spells_of_parse h).respaced, ?_⟩
  rintro text' inner' ⟨name, inner, hform, hform', hsame⟩
  obtain ⟨vs, hvs, hvs'⟩ := hsame.exists_listed
  have hline : '\n' ∉ inner := by
    intro hbreak
    rw [parse_of_broken_line hform hbreak] at h
    cases h
  have hcall : call = ⟨String.ofList name, vs⟩ :=
    Except.ok.inj (h.symm.trans (parse_of_listed hform hline hvs))
  split
  next hbreak => exact parse_of_broken_line hform' hbreak
  next hline' => rw [hcall, parse_of_listed hform' hline' hvs']

/-! ### A call on one line, on several lines, and with a break between its arguments -/

namespace Broken

def call : CallExpr := ⟨"f", [.string "a b", .integer 1]⟩

def text : String := "f('a b',1)"

/-- The line breaks before the name, behind it and behind the parentheses; a no-break space stands
    before the second argument. -/
def around : String := "\nf\n('a b' ,\u00a01 )\n"

/-- The line breaks before the second argument. -/
def between : String := "f('a b',\n1)"

theorem isName_f : IsName ['f'] := ⟨rfl, rfl⟩

theorem form_text : Form ['f'] "'a b',1".toList text.toList :=
  ⟨isName_f, [], [], [], rfl, rfl, rfl, rfl⟩

theorem form_around : Form ['f'] "'a b' ,\u00a01 ".toList around.toList :=
  ⟨isName_f, ['\n'], ['\n'], ['\n'], rfl, rfl, rfl, rfl⟩

theorem form_between : Form ['f'] "'a b',\n1".toList between.toList :=
  ⟨isName_f, [], [], [], rfl, rfl, rfl, rfl⟩

theorem argument_string : Argument (.string "a b") "'a b'".toList := by
  have htext : Quoted '\'' "a b".toList ['a', ' ', 'b'] :=
    .plain (by decide) (by decide) (.plain (by decide) (by decide)
      (.plain (by decide) (by decide) .nil))
  exact .text (.inl rfl) htext

theorem argument_integer : Argument (.integer 1) ['1'] := .literal rfl

theorem blank_nil : Blank [] := rfl

theorem parse_text : parse text = .ok call := by
  have hlast : Items Blank Argument [.integer 1] ['1'] :=
    .last blank_nil argument_integer blank_nil
  have hitems : Items Blank Argument call.args "'a b',1".toList :=
    .more blank_nil argument_string blank_nil hlast
  exact parse_of_listed form_text (by decide) (.inr hitems)

theorem respaced_around : Respaced text around "'a b' ,\u00a01 ".toList := by
  have hspace : Blank [' '] := rfl
  have hnoBreak : Blank ['\u00a0'] := rfl
  have hlast : SameItems ['1'] "\u00a01 ".toList :=
    .last ⟨_, argument_integer⟩ blank_nil blank_nil hnoBreak hspace
  have hitems : SameItems "'a b',1".toList "'a b' ,\u00a01 ".toList :=
    .more ⟨_, argument_string⟩ blank_nil blank_nil blank_nil hspace hlast
  exact ⟨['f'], _, form_text, form_around, .inr hitems⟩

theorem respaced_between : Respaced text between "'a b',\n1".toList := by
  have hbreak : Blank ['\n'] := rfl
  have hlast : SameItems ['1'] "\n1".toList :=
    .last ⟨_, argument_integer⟩ blank_nil blank_nil hbreak blank_nil
  have hitems : SameItems "'a b',1".toList "'a b',\n1".toList :=
    .more ⟨_, argument_string⟩ blank_nil blank_nil blank_nil blank_nil hlast
  exact ⟨['f'], _, form_text, form_between, .inr hitems⟩

theorem same_call_around :
    parse text = .ok call ∧ Respaced text around "'a b' ,\u00a01 ".toList ∧
      parse around = .ok call := by
  obtain ⟨-, hrespaced⟩ := respaced_call parse_text
  exact ⟨parse_text, respaced_around, hrespaced around _ respaced_around⟩

/-- White space that is other only between the parentheses, and no call any more. -/
theorem no_call_between :
    parse text = .ok call ∧ Respaced text between "'a b',\n1".toList ∧
      parse between = .error (.invalidCall between .noCall) :=
  ⟨parse_text, respaced_between, parse_of_broken_line form_between (by decide)⟩

end Broken

end LayeredConfig.CallExpr
