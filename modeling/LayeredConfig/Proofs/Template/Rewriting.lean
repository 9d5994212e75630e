/-
  LayeredConfig/Proofs/Template/Rewriting.lean
  ============================================
  **The tokens of a text that tokens were replaced in.**

  Replacing tokens works on the pieces of a text and gives a text again, which
  the next one to replace tokens cuts into pieces anew.  What he finds are the
  pieces that the first one left (`IsCut.pieces_source`), unless the characters
  of the text and those that were put in have come to make up a token.  They
  never do where no token was answered (`pieces_respace`), whatever braces stand
  around the tokens, nor where braces belong to tokens only (`isCut_of_isPlain`).

  Whether a text is one token shows in its pieces as well: all others are white
  space (`wholeToken?_eq_some_iff_core`).
-/
import LayeredConfig.Proofs.Template.Grammar

namespace LayeredConfig

/-! ### Trimming -/

namespace Text

theorem dropWhile_isBlank_append {left s : List Char} (h : allBlank left = true) :
    (left ++ s).dropWhile isBlank = s.dropWhile isBlank :=
  List.dropWhile_append_of_pos fun c hc => List.all_eq_true.1 h c hc

theorem dropWhile_isBlank_of_head? {s : List Char} (h : ∀ c ∈ s.head?, isBlank c = false) :
    s.dropWhile isBlank = s := by
  cases s with
  | nil => rfl
  | cons c rest => simp [h c rfl]

/-- There is one way to cut a text so, and trimming finds it. -/
theorem Trimmed.trim_eq {s middle : List Char} (h : Trimmed s middle) : trim s = middle := by
  obtain ⟨left, right, rfl, hleft, hright⟩ := h.around
  have hright' : allBlank right.reverse = true := by rwa [allBlank, List.all_reverse]
  have hlast : ∀ c ∈ middle.reverse.head?, isBlank c = false := by
    intro c hc
    rw [List.head?_reverse] at hc
    exact h.last c hc
  have hmiddle : middle.reverse.dropWhile isBlank = middle.reverse :=
    dropWhile_isBlank_of_head? hlast
  rw [trim, trimStart, List.append_assoc, dropWhile_isBlank_append hleft]
  cases middle with
  | nil =>
    have hnil : right.dropWhile isBlank = [] := by
      simpa using dropWhile_isBlank_append (s := []) hright
    rw [List.nil_append, hnil]
    rfl
  | cons c rest =>
    have hstart : (c :: rest ++ right).dropWhile isBlank = c :: rest ++ right :=
      dropWhile_isBlank_of_head? h.head
    rw [hstart, trimEnd, List.reverse_append, dropWhile_isBlank_append hright', hmiddle,
      List.reverse_reverse]

theorem trim_around {left right mid : List Char} {c d : Char} (hleft : allBlank left = true)
    (hright : allBlank right = true) (hc : isBlank c = false) (hd : isBlank d = false) :
    trim (left ++ (c :: (mid ++ [d])) ++ right) = c :: (mid ++ [d]) := by
  apply Trimmed.trim_eq
  refine ⟨⟨left, right, rfl, hleft, hright⟩, ?_, ?_⟩
  · rintro _ ⟨⟩
    exact hc
  · intro x hx
    rw [← List.cons_append, List.getLast?_concat] at hx
    cases hx
    exact hd

theorem trim_between_blanks (s : List Char) : trim (' ' :: (trim s ++ [' '])) = trim s := by
  have h := trimmed_trim s
  exact Trimmed.trim_eq ⟨⟨[' '], [' '], by simp, rfl, rfl⟩, h.head, h.last⟩

end Text

namespace Template

/-! ### Pieces as they are cut -/

/-- A token stands at the start of the text. -/
def BeginsToken (s : List Char) : Prop := ∃ body after, IsBody body ∧ s = bracketed body ++ after

theorem tokenAtStart?_eq_none {s : List Char} : tokenAtStart? s = none ↔ ¬ BeginsToken s := by
  constructor
  · rintro h ⟨body, after, hbody, heq⟩
    rw [tokenAtStart?_eq_some.2 ⟨hbody, heq⟩] at h
    cases h
  · intro h
    cases hs : tokenAtStart? s with
    | none => rfl
    | some token => exact absurd ⟨token.1, token.2, tokenAtStart?_eq_some.1 hs⟩ h

theorem not_beginsToken_of_not_brace {c : Char} (h : isBrace c = false) (s : List Char) :
    ¬ BeginsToken (c :: s) := by
  rintro ⟨body, after, -, heq⟩
  obtain rfl : c = '\x7b' := (List.cons.inj heq).1
  cases h

def leading : List Piece → List Char
  | .char c :: ps => c :: leading ps
  | _ => []

/-- These are the pieces of a text: tokens have bodies, and the characters between two of them do
    not make up another one. -/
def IsCut : List Piece → Prop
  | [] => True
  | .char c :: ps => ¬ BeginsToken (c :: leading ps) ∧ IsCut ps
  | .token body :: ps => IsBody body ∧ IsCut ps

theorem source_eq_leading_append (ps : List Piece) :
    source ps = leading ps ∨
      ∃ body after, source ps = leading ps ++ (bracketed body ++ after) := by
  induction ps with
  | nil => exact .inl rfl
  | cons p ps ih =>
    cases p with
    | token body => exact .inr ⟨body, source ps, rfl⟩
    | char c =>
      rcases ih with h | ⟨body, after, h⟩
      · exact .inl (congrArg (c :: ·) h)
      · exact .inr ⟨body, after, congrArg (c :: ·) h⟩

/-- Whether a token begins at a character shows before the next token does. -/
theorem beginsToken_leading (c : Char) (ps : List Piece) :
    BeginsToken (c :: leading ps) ↔ BeginsToken (c :: source ps) := by
  rcases source_eq_leading_append ps with hps | ⟨next, rest, hps⟩
  · rw [hps]
  · rw [hps, ← List.cons_append]
    constructor
    · rintro ⟨body, after, hbody, heq⟩
      exact ⟨body, after ++ (bracketed next ++ rest), hbody, by rw [heq, List.append_assoc]⟩
    · rintro ⟨body, after, hbody, heq⟩
      -- bodies have no braces: a token that begins here ends before the next one begins
      have hlength := length_le_of_bracketed_append hbody (List.cons_ne_nil _ _) heq.symm
      obtain ⟨after', hafter⟩ : bracketed body <+: c :: leading ps :=
        List.prefix_of_prefix_length_le ⟨_, rfl⟩ ⟨_, heq⟩ hlength
      exact ⟨body, after', hbody, hafter.symm⟩

theorem pieces_of_some {s body after : List Char} (h : tokenAtStart? s = some (body, after)) :
    pieces s = .token body :: pieces after := by
  rw [pieces]
  split
  next body' after' h' =>
    obtain ⟨rfl, rfl⟩ := Prod.mk.inj (Option.some.inj (h.symm.trans h'))
    rfl
  next h' =>
    rw [h] at h'
    cases h'

theorem pieces_of_none {c : Char} {s : List Char} (h : tokenAtStart? (c :: s) = none) :
    pieces (c :: s) = .char c :: pieces s := by
  rw [pieces]
  split
  next h' =>
    rw [h] at h'
    cases h'
  next => rfl

/-- A text that is put together from such pieces is cut into the same ones again. -/
theorem IsCut.pieces_source {ps : List Piece} (h : IsCut ps) : pieces (source ps) = ps := by
  induction ps with
  | nil =>
    rw [source_nil, pieces]
    rfl
  | cons p ps ih =>
    cases p with
    | char c =>
      have hnone : tokenAtStart? (c :: source ps) = none := by
        rw [tokenAtStart?_eq_none, ← beginsToken_leading]
        exact h.1
      rw [source_char, pieces_of_none hnone, ih h.2]
    | token body => rw [source_token, pieces_of_some (tokenAtStart?_eq_some.2 ⟨h.1, rfl⟩), ih h.2]

theorem isCut_pieces (s : List Char) : IsCut (pieces s) := by
  fun_induction pieces s with
  | case1 s body after h _ ih => exact ⟨(tokenAtStart?_eq_some.1 h).1, ih⟩
  | case2 => trivial
  | case3 c rest h ih =>
    refine ⟨?_, ih⟩
    rw [beginsToken_leading, source_pieces]
    exact tokenAtStart?_eq_none.1 h

/-- Braces stand in tokens only. -/
def IsPlain (ps : List Piece) : Prop := ∀ c, .char c ∈ ps → isBrace c = false

theorem isCut_of_isPlain {ps : List Piece} (hplain : IsPlain ps)
    (hbodies : ∀ body, .token body ∈ ps → IsBody body) : IsCut ps := by
  induction ps with
  | nil => trivial
  | cons p ps ih =>
    have hps : IsCut ps :=
      ih (fun c hc => hplain c (List.mem_cons_of_mem _ hc))
        fun body hbody => hbodies body (List.mem_cons_of_mem _ hbody)
    cases p with
    | char c => exact ⟨not_beginsToken_of_not_brace (hplain c List.mem_cons_self) _, hps⟩
    | token body => exact ⟨hbodies body List.mem_cons_self, hps⟩

/-! ### Tokens that are not answered -/

def Piece.respace : Piece → Piece
  | .char c => .char c
  | .token body => .token (' ' :: (Text.trim body ++ [' ']))

/-- The text with one blank on either side of the body of every token. -/
def respace (s : List Char) : List Char := source ((pieces s).map Piece.respace)

theorem isBody_of_all {s : List Char} (h : s.all (fun c => !isBrace c) = true) : IsBody s := by
  intro c hc
  simpa using List.all_eq_true.1 h c hc

theorem IsBody.append {s s' : List Char} (h : IsBody s) (h' : IsBody s') : IsBody (s ++ s') :=
  List.forall_mem_append.2 ⟨h, h'⟩

theorem IsBody.trim {body : List Char} (h : IsBody body) : IsBody (Text.trim body) := by
  obtain ⟨left, right, heq, -, -⟩ := (Text.trimmed_trim body).around
  intro c hc
  apply h c
  rw [heq]
  exact List.mem_append_left _ (List.mem_append_right _ hc)

theorem IsBody.between_blanks {body : List Char} (h : IsBody body) :
    IsBody (' ' :: (body ++ [' '])) := by
  have hblank : IsBody [' '] := isBody_of_all rfl
  exact hblank.append (h.append hblank)

theorem IsBody.respace {body : List Char} (h : IsBody body) :
    IsBody (' ' :: (Text.trim body ++ [' '])) := h.trim.between_blanks

@[simp] theorem leading_map_respace (ps : List Piece) :
    leading (ps.map Piece.respace) = leading ps := by
  induction ps with
  | nil => rfl
  | cons p ps ih =>
    cases p with
    | char c => exact congrArg (c :: ·) ih
    | token body => rfl

theorem IsCut.map_respace {ps : List Piece} (h : IsCut ps) : IsCut (ps.map Piece.respace) := by
  induction ps with
  | nil => trivial
  | cons p ps ih =>
    cases p with
    | char c =>
      refine ⟨?_, ih h.2⟩
      rw [leading_map_respace]
      exact h.1
    | token body => exact ⟨h.1.respace, ih h.2⟩

/-- Writing tokens back makes no token, takes none away and joins no two, whatever braces stand
    around them. -/
theorem pieces_respace (s : List Char) : pieces (respace s) = (pieces s).map Piece.respace :=
  (isCut_pieces s).map_respace.pieces_source

@[simp] theorem Piece.respace_respace (p : Piece) : p.respace.respace = p.respace := by
  cases p with
  | char c => rfl
  | token body => simp only [respace, Text.trim_between_blanks]

@[simp] theorem respace_respace (s : List Char) : respace (respace s) = respace s := by
  rw [respace, pieces_respace, List.map_map]
  exact congrArg source (List.map_congr_left fun p _ => p.respace_respace)

theorem mem_bodies {ps : List Piece} {shown : String} :
    shown ∈ bodies ps ↔ ∃ body, .token body ∈ ps ∧ shown = String.ofList (Text.trim body) := by
  induction ps with
  | nil => simp [bodies]
  | cons p ps ih => cases p <;> simp [bodies, ih, or_and_right, exists_or]

theorem bodies_map_respace (ps : List Piece) : bodies (ps.map Piece.respace) = bodies ps := by
  induction ps with
  | nil => rfl
  | cons p ps ih =>
    cases p with
    | char c => exact ih
    | token body => simp only [List.map_cons, Piece.respace, bodies, Text.trim_between_blanks, ih]

/-! ### Texts that are one token -/

def Piece.isBlank : Piece → Bool
  | .char c => Text.isBlank c
  | .token _ => false

/-- The pieces that are not white space. -/
def core (ps : List Piece) : List Piece := ps.filter fun p => !p.isBlank

theorem core_char (c : Char) (ps : List Piece) :
    core (.char c :: ps) = if Text.isBlank c then core ps else .char c :: core ps := by
  by_cases h : Text.isBlank c <;> simp [core, Piece.isBlank, h]

@[simp] theorem core_token (body : List Char) (ps : List Piece) :
    core (.token body :: ps) = .token body :: core ps := rfl

@[simp] theorem core_append (ps qs : List Piece) : core (ps ++ qs) = core ps ++ core qs :=
  List.filter_append ..

@[simp] theorem char_mem_core {ps : List Piece} {c : Char} :
    .char c ∈ core ps ↔ .char c ∈ ps ∧ Text.isBlank c = false := by
  simp [core, Piece.isBlank]

@[simp] theorem token_mem_core {ps : List Piece} {body : List Char} :
    .token body ∈ core ps ↔ .token body ∈ ps := by
  simp [core, Piece.isBlank]

/-- Only white space has no core. -/
theorem core_eq_nil_iff {ps : List Piece} :
    core ps = [] ↔ Text.allBlank (source ps) = true := by
  induction ps with
  | nil => exact iff_of_true rfl rfl
  | cons p ps ih =>
    cases p with
    | token body => exact iff_of_false nofun nofun
    | char c =>
      rw [core_char, source_char, Text.allBlank, List.all_cons]
      by_cases hc : Text.isBlank c
      · simpa [hc, Text.allBlank] using ih
      · simp [hc]

theorem trim_bracketed {left right body : List Char} (hleft : Text.allBlank left = true)
    (hright : Text.allBlank right = true) :
    Text.trim (left ++ bracketed body ++ right) = bracketed body := by
  have hbody : bracketed body = '\x7b' :: (('\x7b' :: (body ++ ['\x7d'])) ++ ['\x7d']) := by
    simp [bracketed]
  rw [hbody]
  exact Text.trim_around hleft hright rfl rfl

/-- A text is one token if its other pieces are white space. -/
theorem wholeToken?_eq_some_iff_core {s body : List Char} :
    wholeToken? s = some body ↔ core (pieces s) = [.token body] := by
  rw [wholeToken?_eq_some]
  constructor
  · rintro ⟨hbody, htrim⟩
    obtain ⟨left, right, heq, hleft, hright⟩ := (Text.trimmed_trim s).around
    rw [htrim] at heq
    -- what trimming takes off are the other pieces
    obtain ⟨ps, qs, hpieces, rfl, rfl⟩ := occurs_iff_token.1 ⟨hbody, heq⟩
    rw [hpieces, core_append, core_token, core_eq_nil_iff.2 hleft, core_eq_nil_iff.2 hright]
    rfl
  · intro h
    obtain ⟨ps, qs, hpieces, hps, -, hqs⟩ := List.filter_eq_cons_iff.1 h
    have hleft : Text.allBlank (source ps) = true :=
      core_eq_nil_iff.1 (List.filter_eq_nil_iff.2 hps)
    have hright : Text.allBlank (source qs) = true := core_eq_nil_iff.1 hqs
    obtain ⟨hbody, heq⟩ := occurs_iff_token.2 ⟨ps, qs, hpieces, rfl, rfl⟩
    exact ⟨hbody, by rw [heq, trim_bracketed hleft hright]⟩

theorem bodies_core (ps : List Piece) : bodies (core ps) = bodies ps := by
  induction ps with
  | nil => rfl
  | cons p ps ih =>
    cases p with
    | token body => rw [core_token, bodies, bodies, ih]
    | char c =>
      rw [core_char]
      split <;> simpa only [bodies] using ih

theorem bodies_of_whole {s body : List Char} (h : wholeToken? s = some body) :
    bodies (pieces s) = [String.ofList (Text.trim body)] := by
  rw [← bodies_core, wholeToken?_eq_some_iff_core.1 h]
  rfl

theorem mem_bodies_of_whole {s body : List Char} (h : wholeToken? s = some body) :
    String.ofList (Text.trim body) ∈ bodies (pieces s) := by
  rw [bodies_of_whole h]
  exact List.mem_singleton_self _

theorem rewrap_eq_bracketed (body : List Char) :
    rewrap body = bracketed (' ' :: (body ++ [' '])) := by
  simp [rewrap, bracketed]

/-- A token as it is written back is one token, with a blank on either side of its body. -/
theorem wholeToken?_rewrap {body : List Char} (h : IsBody body) :
    wholeToken? (rewrap body) = some (' ' :: (body ++ [' '])) := by
  have htrim : Text.trim ([] ++ bracketed (' ' :: (body ++ [' '])) ++ []) = _ :=
    trim_bracketed rfl rfl
  rw [List.nil_append, List.append_nil] at htrim
  rw [rewrap_eq_bracketed, wholeToken?_eq_some]
  exact ⟨h.between_blanks, htrim⟩

theorem core_map_respace (ps : List Piece) :
    core (ps.map Piece.respace) = (core ps).map Piece.respace := by
  rw [core, core, List.filter_map]
  congr 2
  funext p
  cases p <;> rfl

/-- Written back, a text with other pieces than one token is still such a text. -/
theorem wholeToken?_respace {s : List Char} (h : wholeToken? s = none) :
    wholeToken? (respace s) = none := by
  cases hr : wholeToken? (respace s) with
  | none => rfl
  | some body =>
    rw [wholeToken?_eq_some_iff_core, pieces_respace, core_map_respace] at hr
    obtain ⟨p, hp, hbody⟩ := List.map_eq_singleton_iff.1 hr
    cases p with
    | char c => cases hbody
    | token body' =>
      rw [wholeToken?_eq_some_iff_core.2 hp] at h
      cases h

/-! ### Tokens that are answered -/

/-- The pieces that come of one answer for each token: the text of a value is put in as single
    characters. -/
def fillPieces : List Piece → List (Option Value) → List Piece
  | [], _ => []
  | .char c :: ps, answers => .char c :: fillPieces ps answers
  | .token _ :: ps, some v :: answers => v.text.toList.map .char ++ fillPieces ps answers
  | .token body :: ps, none :: answers => Piece.respace (.token body) :: fillPieces ps answers
  | .token body :: ps, [] => .token body :: fillPieces ps []

theorem source_map_char (s : List Char) : source (s.map .char) = s := by
  induction s with
  | nil => rfl
  | cons c s ih => rw [List.map_cons, source_char, ih]

theorem source_fillPieces (ps : List Piece) (answers : List (Option Value)) :
    source (fillPieces ps answers) = fill ps answers := by
  fun_induction fillPieces ps answers with
  | case1 => rfl
  | case2 c ps answers ih => rw [source_char, fill, ih]
  | case3 body ps v answers ih => rw [source_append, source_map_char, fill, ih, replacement]
  | case4 body ps answers ih =>
    rw [Piece.respace, source_token, fill, ih, replacement, rewrap_eq_bracketed]
  | case5 body ps ih => rw [source_token, fill, ih]

/-- Without an answer a token is written back. -/
theorem fillPieces_of_forall_none {ps : List Piece} {answers : List (Option Value)}
    (hlength : answers.length = (bodies ps).length) (h : ∀ answer ∈ answers, answer = none) :
    fillPieces ps answers = ps.map Piece.respace := by
  induction ps generalizing answers with
  | nil => rfl
  | cons p ps ih =>
    cases p with
    | char c => exact congrArg (.char c :: ·) (ih hlength h)
    | token body =>
      cases answers with
      | nil => cases hlength
      | cons answer answers =>
        obtain rfl : answer = none := h answer List.mem_cons_self
        have hrest := ih (Nat.succ.inj hlength) fun a ha => h a (List.mem_cons_of_mem _ ha)
        exact congrArg (Piece.respace (.token body) :: ·) hrest

/-- A piece that comes of the answers was there before, or was put in. -/
theorem mem_fillPieces {ps : List Piece} {answers : List (Option Value)} {p : Piece}
    (h : p ∈ fillPieces ps answers) :
    p ∈ ps ∨ p ∈ ps.map Piece.respace ∨
      ∃ v c, some v ∈ answers ∧ c ∈ v.text.toList ∧ p = .char c := by
  fun_induction fillPieces ps answers with
  | case1 => cases h
  | case2 c ps answers ih => grind
  | case3 body ps v answers ih => grind
  | case4 body ps answers ih => grind
  | case5 body ps ih => grind

theorem char_mem_fillPieces {ps : List Piece} {c : Char} (h : .char c ∈ ps)
    (answers : List (Option Value)) : .char c ∈ fillPieces ps answers := by
  fun_induction fillPieces ps answers with
  | case1 => cases h
  | case2 d ps answers ih => grind
  | case3 body ps v answers ih => grind
  | case4 body ps answers ih => grind
  | case5 body ps ih => grind

/-- Answers that are not white space leave no less than there was. -/
theorem length_core_le_fillPieces (ps : List Piece) {answers : List (Option Value)}
    (h : ∀ v, some v ∈ answers → Text.allBlank v.text.toList = false) :
    (core ps).length ≤ (core (fillPieces ps answers)).length := by
  fun_induction fillPieces ps answers with
  | case1 => exact Nat.le_refl _
  | case2 c ps answers ih =>
    rw [core_char, core_char]
    by_cases hc : Text.isBlank c
    · simpa [hc] using ih h
    · simpa [hc] using ih h
  | case3 body ps v answers ih =>
    have hps := ih fun w hw => h w (List.mem_cons_of_mem _ hw)
    have hv := h v List.mem_cons_self
    obtain ⟨c, hc, hblank⟩ := List.all_eq_false.1 hv
    have hin : .char c ∈ core (v.text.toList.map .char) := by
      rw [core, List.mem_filter]
      exact ⟨List.mem_map_of_mem hc, by simpa [Piece.isBlank] using hblank⟩
    have hpos := List.length_pos_of_mem hin
    rw [core_token, core_append, List.length_cons, List.length_append]
    omega
  | case4 body ps answers ih =>
    have hps := ih fun w hw => h w (List.mem_cons_of_mem _ hw)
    exact Nat.succ_le_succ hps
  | case5 body ps ih => exact Nat.succ_le_succ (ih h)

end Template

end LayeredConfig
