/-
  LayeredConfig/Template.lean
  ===========================
  **Texts with tokens in them.**

  A token is a text without braces between two pairs of braces.  A text that is
  one token, white space aside, stands for the value of the token, of whatever
  kind.  In any other text every token is replaced by the text of its value.

  A token without a value is kept: a text that is one token stays as it is, and
  so it does if the value is an empty one; within a text the token is written
  back with one blank on either side of its body.  That is what lets several
  resolvers work on one text, each on the tokens that it knows.
-/
import LayeredConfig.Text.Blank
import LayeredConfig.Value.Inline

namespace LayeredConfig.Template

/-! ### Tokens -/

def isBrace (c : Char) : Bool := c = '\x7b' || c = '\x7d'

/-- The body of a token at the start of a text, and what follows the token. -/
def tokenAtStart? : List Char → Option (List Char × List Char)
  | '\x7b' :: '\x7b' :: rest =>
    match rest.dropWhile (fun c => !isBrace c) with
    | '\x7d' :: '\x7d' :: after => some (rest.takeWhile (fun c => !isBrace c), after)
    | _ => none
  | _ => none

/-- A token takes at least its braces. -/
theorem length_lt_of_tokenAtStart? {s body after : List Char}
    (h : tokenAtStart? s = some (body, after)) : after.length < s.length := by
  unfold tokenAtStart? at h
  split at h
  next rest =>
    split at h
    next after' hd =>
      simp only [Option.some.injEq, Prod.mk.injEq] at h
      obtain ⟨-, rfl⟩ := h
      have hl := (List.dropWhile_sublist (fun c => !isBrace c) (l := rest)).length_le
      rw [hd] at hl
      simp only [List.length_cons] at hl ⊢
      omega
    next => simp at h
  next => simp at h

/-- A character of a text, or a token in it. -/
inductive Piece where
  | char (c : Char)
  | token (body : List Char)
deriving DecidableEq, Repr

def pieces (s : List Char) : List Piece :=
  match h : tokenAtStart? s with
  | some (body, after) =>
    have := length_lt_of_tokenAtStart? h
    .token body :: pieces after
  | none =>
    match s with
    | [] => []
    | c :: rest => .char c :: pieces rest
termination_by s.length

/-- The body of the token that a text is, white space aside. -/
def wholeToken? (s : List Char) : Option (List Char) :=
  match tokenAtStart? (Text.trim s) with
  | some (body, []) => some body
  | _ => none

def rewrap (body : List Char) : List Char :=
  ['\x7b', '\x7b', ' '] ++ body ++ [' ', '\x7d', '\x7d']

/-! ### Replacing tokens -/

variable {m : Type → Type} [Monad m]

/-- The text of pieces in which every token is replaced by the text of its value. -/
def render (answer : String → m (Option Value)) : List Piece → m (List Char)
  | [] => pure []
  | .char c :: rest => do
    let tail ← render answer rest
    return c :: tail
  | .token body :: rest => do
    let body := Text.trim body
    let v ← answer (String.ofList body)
    let tail ← render answer rest
    match v with
    | some v => return v.text.toList ++ tail
    | none => return rewrap body ++ tail

/-- The value that a text stands for when its tokens are answered so. -/
def substitute (answer : String → m (Option Value)) (text : String) : m Value :=
  match wholeToken? text.toList with
  | some body => do
    match ← answer (String.ofList (Text.trim body)) with
    | some v => return if v.isTruthy then v else .string text
    | none => return .string text
  | none => do
    let out ← render answer (pieces text.toList)
    return .string (String.ofList out)

end LayeredConfig.Template
