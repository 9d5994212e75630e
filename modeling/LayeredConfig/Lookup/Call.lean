/-
  LayeredConfig/Lookup/Call.lean
  ==============================
  **Call expressions.**

  `name(argument, …)` names a function of the host and its arguments: strings in
  either kind of quotes, in which a backslash stands before any character that
  is to be taken as it is, and bare literals.  White space may stand around all
  of these parts.
-/
import LayeredConfig.Error
import LayeredConfig.Text.Blank
import LayeredConfig.Value.Scalar

namespace LayeredConfig

structure CallExpr where
  name : String
  args : List Value
deriving DecidableEq, Repr

namespace CallExpr

/-! ### The outer form -/

def isNameStart (c : Char) : Bool := c.isAlpha || c = '_'

def isNameChar (c : Char) : Bool := c.isAlphanum || c = '_'

/-- The name in front, and what stands between the parentheses behind it.  The last parenthesis
    ends the expression, and there is no line feed between the two. -/
def splitForm? (s : List Char) : Option (List Char × List Char) :=
  let s := Text.trimStart s
  let name := s.takeWhile isNameChar
  if !name.head?.any isNameStart then none
  else match Text.trimStart (s.dropWhile isNameChar) with
    | '(' :: rest =>
      match (Text.trimEnd rest).reverse with
      | ')' :: inner => if inner.contains '\n' then none else some (name, inner.reverse)
      | _ => none
    | _ => none

/-! ### Arguments -/

def readString? (quote : Char) : List Char → Option (List Char × List Char)
  | [] => none
  | ['\\'] => none
  | '\\' :: c :: rest => (readString? quote rest).map fun (cs, rest) => (c :: cs, rest)
  | c :: rest =>
    if c = quote then some ([], rest)
    else (readString? quote rest).map fun (cs, rest) => (c :: cs, rest)

theorem length_lt_of_readString? {quote : Char} {s cs rest : List Char}
    (h : readString? quote s = some (cs, rest)) : rest.length < s.length := by
  fun_induction readString? quote s generalizing cs rest with
  | case1 => simp at h
  | case2 => simp at h
  | case3 c tail ih =>
    simp only [Option.map_eq_some_iff, Prod.mk.injEq] at h
    obtain ⟨⟨ds, tail'⟩, hr, -, rfl⟩ := h
    have := ih hr
    simp only [List.length_cons]
    omega
  | case4 c tail =>
    simp only [Option.some.injEq, Prod.mk.injEq] at h
    obtain ⟨-, rfl⟩ := h
    simp
  | case5 c tail _ _ _ ih =>
    simp only [Option.map_eq_some_iff, Prod.mk.injEq] at h
    obtain ⟨⟨ds, tail'⟩, hr, -, rfl⟩ := h
    have := ih hr
    simp only [List.length_cons]
    omega

/-- The argument at the start of a text without white space in front, and what follows it. -/
def readArg (s : List Char) : Except CallFault (Value × List Char) :=
  match s with
  | [] => .error .emptyArgument
  | c :: rest =>
    if c = '\'' ∨ c = '"' then
      match readString? c rest with
      | some (cs, rest) => .ok (.string (String.ofList cs), rest)
      | none => .error .unterminatedString
    else if c = ',' then .error .emptyArgument
    else
      let raw := Text.trim (s.takeWhile (· ≠ ','))
      match Value.ofLiteral? raw with
      | some v => .ok (v, s.dropWhile (· ≠ ','))
      | none => .error (.unsupportedArgument (String.ofList raw))

/-- An argument takes at least one character. -/
theorem length_lt_of_readArg {s rest : List Char} {v : Value} (h : readArg s = .ok (v, rest)) :
    rest.length < s.length := by
  unfold readArg at h
  split at h
  next => simp at h
  next c tail =>
    split at h
    next =>
      split at h
      next cs rest' hr =>
        simp only [Except.ok.injEq, Prod.mk.injEq] at h
        obtain ⟨-, rfl⟩ := h
        have := length_lt_of_readString? hr
        simp only [List.length_cons]
        omega
      next => simp at h
    next =>
      split at h
      next => simp at h
      next hc =>
        simp only at h
        split at h
        next =>
          simp only [Except.ok.injEq, Prod.mk.injEq] at h
          obtain ⟨-, rfl⟩ := h
          have := (List.dropWhile_sublist (fun d => decide (d ≠ ',')) (l := tail)).length_le
          simp only [List.dropWhile_cons, decide_eq_true hc, if_true, List.length_cons]
          omega
        next => simp at h

/-- Arguments with commas between them, at least one. -/
def readArgs (s : List Char) : Except CallFault (List Value) :=
  match _h : readArg (Text.trimStart s) with
  | .error fault => .error fault
  | .ok (v, rest) =>
    match _hr : Text.trimStart rest with
    | [] => .ok [v]
    | ',' :: more =>
      match readArgs more with
      | .ok vs => .ok (v :: vs)
      | .error fault => .error fault
    | c :: _ => .error (.unexpectedAfterArgument c)
termination_by s.length
decreasing_by
  have h1 := length_lt_of_readArg _h
  have h2 := (List.dropWhile_sublist Text.isBlank (l := s)).length_le
  have h3 := (List.dropWhile_sublist Text.isBlank (l := rest)).length_le
  simp only [Text.trimStart] at h1 _hr
  rw [_hr] at h3
  simp only [List.length_cons] at h3
  omega

def parse (expression : String) : Except Error CallExpr :=
  match splitForm? expression.toList with
  | none => .error (.invalidCall expression .noCall)
  | some (name, inner) =>
    if Text.allBlank inner then .ok ⟨String.ofList name, []⟩
    else match readArgs inner with
      | .ok args => .ok ⟨String.ofList name, args⟩
      | .error fault => .error (.invalidCall expression fault)

end CallExpr

end LayeredConfig
