/-
  LayeredConfig/Proofs/Template/Grammar.lean
  ==========================================
  **What a token is, and what becomes of it.**

  A token occurs in a text wherever a body without braces stands between two
  pairs of braces.  That is said here of positions in the text, without any word
  on how a text is searched.  Two occurrences never share a character
  (`Occurs.disjoint`), and the pieces of a text are exactly its occurrences and
  the characters outside of them (`occurs_iff_token`).

  Replacing tokens is then described from outside (`substitute_by_occurrences`): which
  bodies are shown, in which order, what an answer does to the text, and that
  nothing is shown after a failure.  Whoever answers may remember what was shown
  before, so the answers are a function of the bodies shown so far.
-/
import LayeredConfig.Template

namespace LayeredConfig

/-! ### White space -/

namespace Text

/-- The code points with Unicode's `White_Space` property. -/
def whiteSpace : List Nat :=
  [0x09, 0x0A, 0x0B, 0x0C, 0x0D, 0x20, 0x85, 0xA0, 0x1680, 0x2000, 0x2001, 0x2002, 0x2003, 0x2004,
    0x2005, 0x2006, 0x2007, 0x2008, 0x2009, 0x200A, 0x2028, 0x2029, 0x202F, 0x205F, 0x3000]

theorem isBlank_iff (c : Char) : isBlank c = true ↔ c.toNat ∈ whiteSpace := by
  simp only [isBlank, whiteSpace, Bool.or_eq_true, Bool.and_eq_true, decide_eq_true_eq, beq_iff_eq,
    List.mem_cons, List.not_mem_nil, or_false]
  omega

/-- A kind of characters to which none of these belongs has no white space in it. -/
theorem isBlank_eq_false_of {p : Char → Bool} (hp : ∀ n ∈ whiteSpace, p (Char.ofNat n) = false)
    {c : Char} (h : p c = true) : isBlank c = false := by
  rw [Bool.eq_false_iff]
  intro hblank
  have hc := hp _ ((isBlank_iff c).1 hblank)
  rw [Char.ofNat_toNat, h] at hc
  cases hc

theorem takeWhile_of_head {p : Char → Bool} {s : List Char} (h : ∀ c ∈ s.head?, p c = false) :
    s.takeWhile p = [] ∧ s.dropWhile p = s := by
  cases s with
  | nil => exact ⟨rfl, rfl⟩
  | cons c rest => simp [h c rfl]

/-- A text is cut at two places: the middle neither begins nor ends with white space, and there is
    nothing but white space around it. -/
structure Trimmed (s middle : List Char) : Prop where
  around : ∃ left right, s = left ++ middle ++ right ∧ allBlank left = true ∧ allBlank right = true
  head : ∀ c ∈ middle.head?, isBlank c = false
  last : ∀ c ∈ middle.getLast?, isBlank c = false

theorem head?_dropWhile_isBlank (s : List Char) :
    ∀ c ∈ (s.dropWhile isBlank).head?, isBlank c = false := by
  intro c hc
  have h := List.head?_dropWhile_not isBlank s
  rw [Option.mem_def.1 hc] at h
  simpa using h

theorem allBlank_takeWhile (s : List Char) : allBlank (s.takeWhile isBlank) = true :=
  List.all_takeWhile

theorem trimmed_trim (s : List Char) : Trimmed s (trim s) := by
  let right := ((trimStart s).reverse.takeWhile isBlank).reverse
  have hstart : s = s.takeWhile isBlank ++ trimStart s := List.takeWhile_append_dropWhile.symm
  have hend : trimStart s = trim s ++ right := by
    rw [trim, trimEnd, ← List.reverse_append, List.takeWhile_append_dropWhile, List.reverse_reverse]
  have hright : allBlank right = true := by
    rw [allBlank, List.all_reverse]
    exact allBlank_takeWhile _
  refine ⟨⟨s.takeWhile isBlank, right, ?_, allBlank_takeWhile s, hright⟩, ?_, ?_⟩
  · rw [List.append_assoc, ← hend]
    exact hstart
  · intro c hc
    apply head?_dropWhile_isBlank s c
    rw [← trimStart, hend, Option.mem_def, List.head?_append, Option.mem_def.1 hc]
    rfl
  · intro c hc
    apply head?_dropWhile_isBlank (trimStart s).reverse c
    rwa [trim, trimEnd, List.getLast?_reverse] at hc

end Text

namespace Template

/-! ### Occurrences -/

def IsBody (body : List Char) : Prop := ∀ c ∈ body, isBrace c = false

def bracketed (body : List Char) : List Char := '\x7b' :: '\x7b' :: (body ++ ['\x7d', '\x7d'])

/-- A token occurs in a text, between two parts of it. -/
structure Occurs (s before body after : List Char) : Prop where
  isBody : IsBody body
  eq : s = before ++ bracketed body ++ after

theorem IsBody.left_not_mem {body : List Char} (h : IsBody body) : '\x7b' ∉ body := by
  intro hmem
  have := h _ hmem
  simp [isBrace] at this

/-- A body ends where the first brace stands. -/
theorem IsBody.takeWhile_append {body rest : List Char} (h : IsBody body) :
    (body ++ '\x7d' :: rest).takeWhile (fun c => !isBrace c) = body := by
  rw [List.takeWhile_append_of_pos (fun c hc => by simp [h c hc])]
  simp [isBrace]

theorem IsBody.dropWhile_append {body rest : List Char} (h : IsBody body) :
    (body ++ '\x7d' :: rest).dropWhile (fun c => !isBrace c) = '\x7d' :: rest := by
  rw [List.dropWhile_append_of_pos (fun c hc => by simp [h c hc])]
  simp [isBrace]

theorem isBody_takeWhile (s : List Char) : IsBody (s.takeWhile (fun c => !isBrace c)) := by
  intro c hc
  have := List.all_takeWhile (p := fun c => !isBrace c) (l := s)
  simpa using List.all_eq_true.1 this c hc

/-- The reader of a token at the start of a text finds one exactly if one occurs there. -/
theorem tokenAtStart?_eq_some {s body after : List Char} :
    tokenAtStart? s = some (body, after) ↔ IsBody body ∧ s = bracketed body ++ after := by
  constructor
  · intro h
    unfold tokenAtStart? at h
    split at h
    next rest =>
      split at h
      next after' hd =>
        simp only [Option.some.injEq, Prod.mk.injEq] at h
        obtain ⟨rfl, rfl⟩ := h
        refine ⟨isBody_takeWhile rest, ?_⟩
        have hrest := List.takeWhile_append_dropWhile (p := fun c => !isBrace c) (l := rest)
        rw [hd] at hrest
        simp [bracketed, hrest]
      next => simp at h
    next => simp at h
  · rintro ⟨hbody, rfl⟩
    simp only [bracketed, List.cons_append, List.append_assoc, List.nil_append, tokenAtStart?,
      hbody.dropWhile_append, hbody.takeWhile_append]

/-- What stands at one place of a text has one body. -/
theorem bracketed_append_inj {body₁ body₂ after₁ after₂ : List Char} (h₁ : IsBody body₁)
    (h₂ : IsBody body₂) (h : bracketed body₁ ++ after₁ = bracketed body₂ ++ after₂) :
    body₁ = body₂ ∧ after₁ = after₂ := by
  have hread : tokenAtStart? (bracketed body₁ ++ after₁) = some (body₁, after₁) :=
    tokenAtStart?_eq_some.2 ⟨h₁, rfl⟩
  rw [h, tokenAtStart?_eq_some.2 ⟨h₂, rfl⟩] at hread
  simp only [Option.some.injEq, Prod.mk.injEq] at hread
  exact ⟨hread.1.symm, hread.2.symm⟩

/-- Behind the braces that open a token, the next two opening braces stand behind its end. -/
theorem length_le_of_body_append {body after gap rest : List Char} (h : IsBody body)
    (heq : body ++ '\x7d' :: '\x7d' :: after = gap ++ '\x7b' :: '\x7b' :: rest) :
    body.length + 2 ≤ gap.length := by
  rcases List.append_eq_append_iff.1 heq with ⟨mid, hgap, hmid⟩ | ⟨mid, hbody, hmid⟩
  · -- the gap covers the body; it covers the closing braces too
    match mid with
    | [] => simp at hmid
    | [c] => simp at hmid
    | c :: d :: mid =>
      rw [hgap]
      simp only [List.length_append, List.length_cons]
      omega
  · -- the gap ends within the body, or right behind it
    cases mid with
    | nil => simp at hmid
    | cons c mid =>
      have hc : '\x7b' = c := (List.cons.inj hmid).1
      refine absurd ?_ h.left_not_mem
      rw [hbody, hc]
      exact List.mem_append_right _ List.mem_cons_self

/-- If a text that begins with a token goes on with another one, then behind the first one. -/
theorem length_le_of_bracketed_append {body₁ body₂ after₁ after₂ gap : List Char}
    (h₁ : IsBody body₁) (hgap : gap ≠ [])
    (h : bracketed body₁ ++ after₁ = gap ++ (bracketed body₂ ++ after₂)) :
    (bracketed body₁).length ≤ gap.length := by
  match gap with
  | [] => exact absurd rfl hgap
  | [c] =>
    -- the second brace would stand in the body, or at its end
    have hrest : body₁ ++ '\x7d' :: '\x7d' :: after₁
        = [] ++ '\x7b' :: (body₂ ++ '\x7d' :: '\x7d' :: after₂) := by
      simpa [bracketed] using (List.cons.inj h).2
    cases body₁ with
    | nil => simp at hrest
    | cons d body =>
      have hd : d = '\x7b' := (List.cons.inj hrest).1
      exact absurd (hd ▸ List.mem_cons_self) h₁.left_not_mem
  | c :: d :: gap =>
    have hrest : body₁ ++ '\x7d' :: '\x7d' :: after₁
        = gap ++ '\x7b' :: '\x7b' :: (body₂ ++ '\x7d' :: '\x7d' :: after₂) := by
      simpa [bracketed] using (List.cons.inj (List.cons.inj h).2).2
    have hle := length_le_of_body_append h₁ hrest
    simp only [bracketed, List.length_cons, List.length_append, List.length_nil]
    omega

/-- Of two occurrences in one text, the one that begins first ends before the other begins. -/
theorem Occurs.disjoint_of_le {s before₁ body₁ after₁ before₂ body₂ after₂ : List Char}
    (h₁ : Occurs s before₁ body₁ after₁) (h₂ : Occurs s before₂ body₂ after₂)
    (hle : before₁.length ≤ before₂.length) :
    (before₁ = before₂ ∧ body₁ = body₂ ∧ after₁ = after₂) ∨
      (before₁ ++ bracketed body₁).length ≤ before₂.length := by
  have heq : before₁ ++ (bracketed body₁ ++ after₁) = before₂ ++ (bracketed body₂ ++ after₂) := by
    rw [← List.append_assoc, ← List.append_assoc, ← h₁.eq, ← h₂.eq]
  obtain ⟨gap, rfl⟩ : before₁ <+: before₂ :=
    List.prefix_of_prefix_length_le ⟨_, rfl⟩ ⟨_, heq.symm⟩ hle
  have hgap : bracketed body₁ ++ after₁ = gap ++ (bracketed body₂ ++ after₂) := by
    rw [List.append_assoc] at heq
    exact List.append_cancel_left heq
  by_cases hnil : gap = []
  · subst hnil
    obtain ⟨hbody, hafter⟩ := bracketed_append_inj h₁.isBody h₂.isBody hgap
    exact .inl ⟨(List.append_nil _).symm, hbody, hafter⟩
  · right
    have hlen := length_le_of_bracketed_append h₁.isBody hnil hgap
    simp only [List.length_append]
    omega

/-- Two occurrences in one text are one, or have no character in common. -/
theorem Occurs.disjoint {s before₁ body₁ after₁ before₂ body₂ after₂ : List Char}
    (h₁ : Occurs s before₁ body₁ after₁) (h₂ : Occurs s before₂ body₂ after₂) :
    (before₁ = before₂ ∧ body₁ = body₂ ∧ after₁ = after₂) ∨
      (before₁ ++ bracketed body₁).length ≤ before₂.length ∨
      (before₂ ++ bracketed body₂).length ≤ before₁.length := by
  rcases Nat.le_total before₁.length before₂.length with hle | hle
  · exact (h₁.disjoint_of_le h₂ hle).imp_right .inl
  · rcases h₂.disjoint_of_le h₁ hle with ⟨hbefore, hbody, hafter⟩ | hlen
    · exact .inl ⟨hbefore.symm, hbody.symm, hafter.symm⟩
    · exact .inr (.inr hlen)

/-! ### Pieces -/

/-- What stands in the text for a piece of it. -/
def Piece.source : Piece → List Char
  | .char c => [c]
  | .token body => bracketed body

def source (ps : List Piece) : List Char := ps.flatMap Piece.source

@[simp] theorem source_nil : source [] = [] := rfl

@[simp] theorem source_char (c : Char) (ps : List Piece) :
    source (.char c :: ps) = c :: source ps := rfl

@[simp] theorem source_token (body : List Char) (ps : List Piece) :
    source (.token body :: ps) = bracketed body ++ source ps := rfl

@[simp] theorem source_append (ps qs : List Piece) : source (ps ++ qs) = source ps ++ source qs :=
  List.flatMap_append

/-- Cutting a text into pieces loses nothing. -/
theorem source_pieces (s : List Char) : source (pieces s) = s := by
  fun_induction pieces s with
  | case1 s body after h _ ih =>
    rw [source_token, ih]
    exact (tokenAtStart?_eq_some.1 h).2.symm
  | case2 => rfl
  | case3 c rest h ih => rw [source_char, ih]

theorem isBody_of_mem_pieces {s body : List Char} (h : .token body ∈ pieces s) : IsBody body := by
  fun_induction pieces s with
  | case1 s body' after hs _ ih =>
    rcases List.mem_cons.1 h with h | h
    · cases h
      exact (tokenAtStart?_eq_some.1 hs).1
    · exact ih h
  | case2 => simp at h
  | case3 c rest hs ih => exact ih (by simpa using h)

/-- Every occurrence in a text is one of its pieces. -/
theorem Occurs.exists_pieces {s before body after : List Char} (h : Occurs s before body after) :
    ∃ ps qs, pieces s = ps ++ .token body :: qs ∧ source ps = before ∧ source qs = after := by
  fun_induction pieces s generalizing before with
  | case1 s body' after' hs _ ih =>
    obtain ⟨hbody', hs'⟩ := tokenAtStart?_eq_some.1 hs
    have hfirst : Occurs s [] body' after' := ⟨hbody', hs'⟩
    rcases hfirst.disjoint_of_le h (Nat.zero_le _) with ⟨rfl, rfl, rfl⟩ | hle
    · exact ⟨[], pieces after', rfl, rfl, source_pieces after'⟩
    · -- the occurrence lies behind the first token
      have heq : bracketed body' ++ after' = before ++ (bracketed body ++ after) := by
        rw [← hs', h.eq, List.append_assoc]
      obtain ⟨before', rfl⟩ : bracketed body' <+: before :=
        List.prefix_of_prefix_length_le ⟨_, rfl⟩ ⟨_, heq.symm⟩ hle
      have hafter : after' = before' ++ bracketed body ++ after := by
        rw [List.append_assoc] at heq ⊢
        exact List.append_cancel_left heq
      obtain ⟨ps, qs, hps, hbefore, hqs⟩ := ih ⟨h.isBody, hafter⟩
      refine ⟨.token body' :: ps, qs, ?_, ?_, hqs⟩
      · rw [hps, List.cons_append]
      · rw [source_token, hbefore]
  | case2 => simpa [bracketed] using congrArg List.length h.eq
  | case3 c rest hs ih =>
    cases before with
    | nil =>
      rw [tokenAtStart?_eq_some.2 ⟨h.isBody, h.eq⟩] at hs
      simp at hs
    | cons d before =>
      obtain ⟨rfl, hrest⟩ := List.cons.inj h.eq
      obtain ⟨ps, qs, hps, hbefore, hqs⟩ := ih ⟨h.isBody, hrest⟩
      refine ⟨.char c :: ps, qs, ?_, ?_, hqs⟩
      · rw [hps, List.cons_append]
      · rw [source_char, hbefore]

/-- The tokens among the pieces of a text are its occurrences, at their places. -/
theorem occurs_iff_token {s before body after : List Char} :
    Occurs s before body after ↔
      ∃ ps qs, pieces s = ps ++ .token body :: qs ∧ source ps = before ∧ source qs = after := by
  constructor
  · exact fun h => h.exists_pieces
  · rintro ⟨ps, qs, hps, rfl, rfl⟩
    have hmem : .token body ∈ pieces s := by
      rw [hps]
      exact List.mem_append_right _ List.mem_cons_self
    refine ⟨isBody_of_mem_pieces hmem, ?_⟩
    rw [← source_pieces s, hps, source_append, source_token, List.append_assoc]

/-- A text is one token if it is an occurrence once the white space around it is gone. -/
theorem wholeToken?_eq_some {s body : List Char} :
    wholeToken? s = some body ↔ IsBody body ∧ Text.trim s = bracketed body := by
  unfold wholeToken?
  constructor
  · intro h
    split at h
    next body' hs =>
      obtain rfl := Option.some.inj h
      obtain ⟨hbody, htrim⟩ := tokenAtStart?_eq_some.1 hs
      exact ⟨hbody, htrim.trans (List.append_nil _)⟩
    next => simp at h
  · rintro ⟨hbody, htrim⟩
    have hs : tokenAtStart? (Text.trim s) = some (body, []) :=
      tokenAtStart?_eq_some.2 ⟨hbody, htrim.trans (List.append_nil _).symm⟩
    rw [hs]

/-! ### Replacing tokens -/

/-- The bodies of the tokens among pieces, as they are shown. -/
def bodies : List Piece → List String
  | [] => []
  | .char _ :: ps => bodies ps
  | .token body :: ps => String.ofList (Text.trim body) :: bodies ps

/-- What stands in the place of a token that is answered so. -/
def replacement (body : List Char) : Option Value → List Char
  | some v => v.text.toList
  | none => rewrap (Text.trim body)

/-- The text of pieces with one answer for each token. -/
def fill : List Piece → List (Option Value) → List Char
  | [], _ => []
  | .char c :: ps, answers => c :: fill ps answers
  | .token body :: ps, answer :: answers => replacement body answer ++ fill ps answers
  | .token body :: ps, [] => bracketed body ++ fill ps []

/-- To render pieces is to show the bodies in their order, and then to fill in the answers. -/
theorem render_eq {m : Type → Type} [Monad m] [LawfulMonad m]
    (answer : String → m (Option Value)) (ps : List Piece) :
    render answer ps = do
      let answers ← (bodies ps).mapM answer
      return fill ps answers := by
  induction ps with
  | nil => simp [render, bodies, fill]
  | cons p ps ih =>
    cases p with
    | char c => simp [render, bodies, fill, ih]
    | token body =>
      simp only [render, bodies, ih, List.mapM_cons, bind_assoc, pure_bind]
      apply bind_congr
      intro v
      apply bind_congr
      intro answers
      cases v <;> rfl

/-- A token occurs in the text. -/
def HasToken (text : String) : Prop := ∃ before body after, Occurs text.toList before body after

theorem hasToken_iff {text : String} :
    HasToken text ↔ ∃ body, .token body ∈ pieces text.toList := by
  constructor
  · rintro ⟨before, body, after, h⟩
    obtain ⟨ps, qs, hps, -, -⟩ := occurs_iff_token.1 h
    rw [hps]
    exact ⟨body, List.mem_append_right _ List.mem_cons_self⟩
  · rintro ⟨body, hbody⟩
    obtain ⟨ps, qs, hps⟩ := List.append_of_mem hbody
    exact ⟨_, body, _, occurs_iff_token.2 ⟨ps, qs, hps, rfl, rfl⟩⟩

theorem render_of_no_token {m : Type → Type} [Monad m] [LawfulMonad m]
    (answer : String → m (Option Value)) {ps : List Piece} (h : ∀ body, .token body ∉ ps) :
    render answer ps = pure (source ps) := by
  induction ps with
  | nil => rfl
  | cons p ps ih =>
    cases p with
    | token body => exact absurd List.mem_cons_self (h body)
    | char c =>
      have hps := ih fun body hbody => h body (List.mem_cons_of_mem _ hbody)
      rw [render, hps, pure_bind, source_char]

/-- A text without tokens stands for itself. -/
theorem substitute_of_no_token {m : Type → Type} [Monad m] [LawfulMonad m]
    (answer : String → m (Option Value)) {text : String} (h : ¬ HasToken text) :
    substitute answer text = pure (.string text) := by
  have hwhole : wholeToken? text.toList = none := by
    cases hw : wholeToken? text.toList with
    | none => rfl
    | some body =>
      obtain ⟨hbody, htrim⟩ := wholeToken?_eq_some.1 hw
      obtain ⟨before, after, heq, -, -⟩ := (Text.trimmed_trim text.toList).around
      rw [htrim] at heq
      exact absurd ⟨before, body, after, hbody, heq⟩ h
  have hpieces : ∀ body, .token body ∉ pieces text.toList := by
    intro body hbody
    exact h (hasToken_iff.2 ⟨body, hbody⟩)
  simp only [substitute, hwhole]
  rw [render_of_no_token answer hpieces, pure_bind, source_pieces, String.ofList_toList]

/-- Bodies are shown to someone who may remember what was shown before, and who may fail; what was
    shown is on record also after a failure. -/
abbrev Recorded (ε : Type) := ExceptT ε (StateM (List String))

section Asking

variable {ε : Type} (f : List String → String → Except ε (Option Value))

def ask (body : String) : Recorded ε (Option Value) :=
  ExceptT.mk fun asked => (f asked body, asked ++ [body])

/-- What comes of showing bodies one after the other, and all that were shown: after a failure
    nothing is shown any more. -/
def askAll (asked : List String) : List String → Except ε (List (Option Value)) × List String
  | [] => (.ok [], asked)
  | body :: rest =>
    match f asked body with
    | .error e => (.error e, asked ++ [body])
    | .ok answer =>
      let (answers, all) := askAll (asked ++ [body]) rest
      (answers.map (answer :: ·), all)

/-- What comes of replacing the tokens of a text, and the bodies that were shown for it. -/
def substituteRecorded (text : String) : Except ε Value × List String :=
  (substitute (ask f) text).run.run []

theorem run_ask_bind {α : Type} (body : String) (next : Option Value → Recorded ε α)
    (asked : List String) :
    (ask f body >>= next).run.run asked =
      match f asked body with
      | .ok answer => (next answer).run.run (asked ++ [body])
      | .error e => (.error e, asked ++ [body]) := by
  change (ExceptT.bindCont next (f asked body)).run (asked ++ [body]) = _
  cases f asked body <;> rfl

theorem run_bind_pure {α β : Type} (x : Recorded ε α) (g : α → β) (asked : List String) :
    (x >>= fun a => pure (g a)).run.run asked =
      ((x.run.run asked).1.map g, (x.run.run asked).2) := by
  change (ExceptT.bindCont (fun a => (pure (g a) : Recorded ε β)) (x.run.run asked).1).run
    (x.run.run asked).2 = _
  cases (x.run.run asked).1 <;> rfl

theorem run_mapM_ask (asked rest : List String) :
    (rest.mapM (ask f)).run.run asked = askAll f asked rest := by
  induction rest generalizing asked with
  | nil => rfl
  | cons body rest ih =>
    rw [List.mapM_cons, run_ask_bind, askAll]
    cases f asked body with
    | error e => rfl
    | ok answer => simp only [run_bind_pure, ih]

end Asking

/-- **Tokens, exactly.**  White space is Unicode's; occurrences have no character in common; the
    pieces of a text are its occurrences and the characters outside of them.  If a text without the
    white space around it is one occurrence, its trimmed body is shown once: a value that is not
    empty takes the place of the text, and otherwise the text stays as it is.  In any other text
    the trimmed bodies of the occurrences are shown from left to right up to the first failure,
    which is then the result; without a failure every occurrence gives way to the text of its
    answer, or to its trimmed body between braces and blanks, and all else stays. -/
theorem substitute_by_occurrences (text : String) :
    (∀ c, Text.isBlank c = true ↔ c.toNat ∈ Text.whiteSpace) ∧
    Text.Trimmed text.toList (Text.trim text.toList) ∧
    (∀ before₁ body₁ after₁ before₂ body₂ after₂, Occurs text.toList before₁ body₁ after₁ →
      Occurs text.toList before₂ body₂ after₂ →
      (before₁ = before₂ ∧ body₁ = body₂ ∧ after₁ = after₂) ∨
        (before₁ ++ bracketed body₁).length ≤ before₂.length ∨
        (before₂ ++ bracketed body₂).length ≤ before₁.length) ∧
    source (pieces text.toList) = text.toList ∧
    (∀ before body after, Occurs text.toList before body after ↔
      ∃ ps qs, pieces text.toList = ps ++ .token body :: qs ∧
        source ps = before ∧ source qs = after) ∧
    (∀ {ε : Type} (f : List String → String → Except ε (Option Value)),
      (∀ body, IsBody body → Text.trim text.toList = bracketed body →
        substituteRecorded f text =
          (match f [] (String.ofList (Text.trim body)) with
            | .ok (some v) => .ok (if v.isTruthy then v else .string text)
            | .ok none => .ok (.string text)
            | .error e => .error e,
          [String.ofList (Text.trim body)])) ∧
      ((∀ body, IsBody body → Text.trim text.toList ≠ bracketed body) →
        substituteRecorded f text =
          ((askAll f [] (bodies (pieces text.toList))).1.map fun answers =>
            .string (String.ofList (fill (pieces text.toList) answers)),
          (askAll f [] (bodies (pieces text.toList))).2))) := by
  refine ⟨Text.isBlank_iff, Text.trimmed_trim _, fun _ _ _ _ _ _ h₁ h₂ => h₁.disjoint h₂,
    source_pieces _, fun _ _ _ => occurs_iff_token, fun f => ⟨?_, ?_⟩⟩
  · intro body hbody htrim
    have hwhole : wholeToken? text.toList = some body := wholeToken?_eq_some.2 ⟨hbody, htrim⟩
    simp only [substituteRecorded, substitute, hwhole, run_ask_bind]
    cases f [] (String.ofList (Text.trim body)) with
    | error e => rfl
    | ok answer => cases answer <;> rfl
  · intro hnone
    have hwhole : wholeToken? text.toList = none := by
      cases h : wholeToken? text.toList with
      | none => rfl
      | some body =>
        obtain ⟨hbody, htrim⟩ := wholeToken?_eq_some.1 h
        exact absurd htrim (hnone body hbody)
    simp only [substituteRecorded, substitute, hwhole, render_eq, bind_assoc, pure_bind,
      run_bind_pure, run_mapM_ask]

end Template

end LayeredConfig
