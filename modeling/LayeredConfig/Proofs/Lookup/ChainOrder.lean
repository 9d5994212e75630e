/-
  LayeredConfig/Proofs/Lookup/ChainOrder.lean
  ===========================================
  **Resolvers that answer different tokens may stand in any order.**

  Each resolver of a chain rewrites the text that the next one is shown: it puts
  its answers in, and writes the other tokens back.  As long as the text is kept
  from becoming one token, the next one finds just the tokens that are left, so
  two resolvers together put in what the first one answers, and for the other
  tokens what the second one answers (`fills_comp`).  A chain therefore comes to
  what one resolver comes to that asks all of them for the first answer
  (`Guards.askFirst`).

  If what one resolver answers the others decline (`Resolver.Apart`), the first
  answer is the only one, and the order does not matter (`chain_in_any_order`).
  It does matter where a resolver fails on what another one answers, and a chain
  of no resolvers does not even write tokens back (`order_of_chain_matters`).
-/
import LayeredConfig.Proofs.Lookup.BuiltIn
import LayeredConfig.Proofs.Lookup.Rendering

namespace LayeredConfig

/-! ### Answers put in one after the other -/

namespace Template

variable {R R₁ R₂ : String → Option Value → Prop}

/-- The second pieces come of the first ones when every token gets an answer that `R` allows. -/
inductive Fills (R : String → Option Value → Prop) : List Piece → List Piece → Prop where
  | nil : Fills R [] []
  | char {ps qs : List Piece} (c : Char) : Fills R ps qs → Fills R (.char c :: ps) (.char c :: qs)
  | answered {ps qs : List Piece} {body : List Char} {v : Value} :
      R (String.ofList (Text.trim body)) (some v) → Fills R ps qs →
      Fills R (.token body :: ps) (v.text.toList.map .char ++ qs)
  | declined {ps qs : List Piece} {body : List Char} :
      R (String.ofList (Text.trim body)) none → Fills R ps qs →
      Fills R (.token body :: ps) (.token (' ' :: (Text.trim body ++ [' '])) :: qs)

theorem fills_iff {ps qs : List Piece} :
    Fills R ps qs ↔ ∃ answers, List.Forall₂ R (bodies ps) answers ∧ qs = fillPieces ps answers := by
  constructor
  · intro h
    induction h with
    | nil => exact ⟨[], .nil, rfl⟩
    | char c _ ih =>
      obtain ⟨answers, hanswers, rfl⟩ := ih
      exact ⟨answers, hanswers, rfl⟩
    | answered hv _ ih =>
      obtain ⟨answers, hanswers, rfl⟩ := ih
      exact ⟨some _ :: answers, .cons hv hanswers, rfl⟩
    | declined hnone _ ih =>
      obtain ⟨answers, hanswers, rfl⟩ := ih
      exact ⟨none :: answers, .cons hnone hanswers, rfl⟩
  · rintro ⟨answers, hanswers, rfl⟩
    induction ps generalizing answers with
    | nil => exact .nil
    | cons p ps ih =>
      cases p with
      | char c => exact .char c (ih answers hanswers)
      | token body =>
        cases hanswers with
        | @cons _ answer _ answers hanswer hanswers =>
          cases answer with
          | some v => exact .answered hanswer (ih answers hanswers)
          | none => exact .declined hanswer (ih answers hanswers)

theorem fills_chars_append {s : List Char} {ps qs : List Piece} :
    Fills R (s.map .char ++ ps) qs ↔ ∃ qs', Fills R ps qs' ∧ qs = s.map .char ++ qs' := by
  induction s generalizing qs with
  | nil => simp
  | cons c s ih =>
    constructor
    · rintro (_ | ⟨_, h⟩)
      obtain ⟨qs', hqs', rfl⟩ := ih.1 h
      exact ⟨qs', hqs', rfl⟩
    · rintro ⟨qs', hqs', rfl⟩
      exact .char c (ih.2 ⟨qs', hqs', rfl⟩)

/-- The answer of the first one, or else of the second one. -/
def First (R₁ R₂ : String → Option Value → Prop) (body : String) (answer : Option Value) : Prop :=
  (answer ≠ none ∧ R₁ body answer) ∨ (R₁ body none ∧ R₂ body answer)

/-- To put in the answers of two one after the other is to put in the first ones. -/
theorem fills_comp {ps out : List Piece} :
    Fills (First R₁ R₂) ps out ↔ ∃ qs, Fills R₁ ps qs ∧ Fills R₂ qs out := by
  constructor
  · intro h
    induction h with
    | nil => exact ⟨[], .nil, .nil⟩
    | char c _ ih =>
      obtain ⟨qs, h₁, h₂⟩ := ih
      exact ⟨_, .char c h₁, .char c h₂⟩
    | @answered ps out body v hv _ ih =>
      obtain ⟨qs, h₁, h₂⟩ := ih
      rcases hv with ⟨-, hfirst⟩ | ⟨hnone, hsecond⟩
      · exact ⟨_, .answered hfirst h₁, fills_chars_append.2 ⟨_, h₂, rfl⟩⟩
      · refine ⟨_, .declined hnone h₁, .answered ?_ h₂⟩
        rwa [Text.trim_between_blanks]
    | @declined ps out body hnone _ ih =>
      obtain ⟨qs, h₁, h₂⟩ := ih
      obtain ⟨hfirst, hsecond⟩ := hnone.resolve_left fun h => h.1 rfl
      have hout : Fills R₂ (.token (' ' :: (Text.trim body ++ [' '])) :: qs)
          (.token (' ' :: (Text.trim (' ' :: (Text.trim body ++ [' '])) ++ [' '])) :: out) := by
        refine .declined ?_ h₂
        rwa [Text.trim_between_blanks]
      rw [Text.trim_between_blanks] at hout
      exact ⟨_, .declined hfirst h₁, hout⟩
  · rintro ⟨qs, h₁, h₂⟩
    induction h₁ generalizing out with
    | nil =>
      cases h₂
      exact .nil
    | char c _ ih =>
      cases h₂ with
      | char _ h₂ => exact .char c (ih h₂)
    | answered hv _ ih =>
      obtain ⟨out', hout, rfl⟩ := fills_chars_append.1 h₂
      exact .answered (.inl ⟨Option.some_ne_none _, hv⟩) (ih hout)
    | @declined ps qs body hnone _ ih =>
      cases h₂ with
      | answered hv h₂ =>
        rw [Text.trim_between_blanks] at hv
        exact .answered (.inr ⟨hnone, hv⟩) (ih h₂)
      | declined hnone' h₂ =>
        rw [Text.trim_between_blanks] at hnone' ⊢
        exact .declined (.inr ⟨hnone, hnone'⟩) (ih h₂)

theorem Fills.mono {ps qs : List Piece} (h : Fills R₁ ps qs)
    (hR : ∀ body ∈ bodies ps, ∀ answer, R₁ body answer → R₂ body answer) : Fills R₂ ps qs := by
  induction h with
  | nil => exact .nil
  | char c _ ih => exact .char c (ih hR)
  | answered hv _ ih =>
    refine .answered (hR _ List.mem_cons_self _ hv) (ih ?_)
    exact fun body hbody => hR body (List.mem_cons_of_mem _ hbody)
  | declined hnone _ ih =>
    refine .declined (hR _ List.mem_cons_self _ hnone) (ih ?_)
    exact fun body hbody => hR body (List.mem_cons_of_mem _ hbody)

/-! ### One substitution -/

/-- The answers that are reached. -/
def Reaches (answer : String → Outcome (Option Value)) (body : String) (a : Option Value) : Prop :=
  (answer body).result = .ok a

structure IsWord (text : List Char) : Prop where
  isBody : IsBody text
  not_blank : Text.allBlank text = false

/-- Where words are put in, the text is kept from becoming one token. -/
theorem StaysText.of_fills {shown : List String} {ps qs : List Piece}
    (hs : StaysText shown True ps) (h : Fills R ps qs)
    (hR : ∀ body ∈ shown, ∀ v, R body (some v) → IsWord v.text.toList) :
    StaysText shown True qs := by
  obtain ⟨answers, hanswers, rfl⟩ := fills_iff.1 h
  have hwords : ∀ v, some v ∈ answers → IsWord v.text.toList := by
    intro v hv
    obtain ⟨body, hbody, hreached⟩ := exists_of_forall₂ hanswers hv
    exact hR body (hs.bodies_subset hbody) v hreached
  exact hs.fillPieces (fun v hv => (hwords v hv).isBody) fun _ v hv => (hwords v hv).not_blank

theorem substitute_iff_exists_fills {answer : String → Outcome (Option Value)} {s : String}
    {v : Value} (h : wholeToken? s.toList = none) :
    (substitute answer s).result = .ok v ↔
      ∃ qs, Fills (Reaches answer) (pieces s.toList) qs ∧
        v = .string (String.ofList (source qs)) := by
  rw [substitute_of_inline h]
  constructor
  · rintro ⟨answers, hanswers, rfl⟩
    refine ⟨_, fills_iff.2 ⟨answers, hanswers, rfl⟩, ?_⟩
    rw [source_fillPieces]
  · rintro ⟨qs, hqs, rfl⟩
    obtain ⟨answers, hanswers, rfl⟩ := fills_iff.1 hqs
    refine ⟨answers, hanswers, ?_⟩
    rw [source_fillPieces]

/-- The pieces of what a text becomes are its own pieces with the answers put in. -/
theorem substitute_iff_fills {answer : String → Outcome (Option Value)} {shown : List String}
    {s : String} {v : Value} (hs : StaysText shown True (pieces s.toList))
    (hanswer : ∀ body ∈ shown, ∀ v, Reaches answer body (some v) → IsWord v.text.toList) :
    (substitute answer s).result = .ok v ↔
      ∃ s', v = .string s' ∧ Fills (Reaches answer) (pieces s.toList) (pieces s'.toList) := by
  rw [substitute_iff_exists_fills hs.inline]
  constructor
  · rintro ⟨qs, hqs, rfl⟩
    refine ⟨_, rfl, ?_⟩
    rw [String.toList_ofList, (hs.of_fills hqs hanswer).isCut.pieces_source]
    exact hqs
  · rintro ⟨s', rfl, hfills⟩
    refine ⟨_, hfills, ?_⟩
    rw [source_pieces, String.ofList_toList]

/-- The value of one substitution depends on the answers to the bodies only. -/
theorem substitute_congr {answer answer' : String → Outcome (Option Value)} {s : String}
    (h : ∀ body ∈ bodies (pieces s.toList), ∀ a, Reaches answer body a ↔ Reaches answer' body a)
    (v : Value) :
    (substitute answer s).result = .ok v ↔ (substitute answer' s).result = .ok v := by
  cases hwhole : wholeToken? s.toList with
  | some body =>
    rw [substitute_of_whole hwhole, substitute_of_whole hwhole, Outcome.bind_result_eq_ok,
      Outcome.bind_result_eq_ok]
    exact exists_congr fun a => and_congr_left fun _ => h _ (mem_bodies_of_whole hwhole) a
  | none =>
    rw [substitute_iff_exists_fills hwhole, substitute_iff_exists_fills hwhole]
    refine exists_congr fun qs => and_congr_left fun _ => ⟨fun hqs => ?_, fun hqs => ?_⟩
    · exact hqs.mono fun body hbody a => (h body hbody a).1
    · exact hqs.mono fun body hbody a => (h body hbody a).2

end Template

/-! ### The first answer of a chain -/

/-- Shows a body to the resolvers of a chain in turn, up to the first answer. -/
def Guards.askFirst (replies : Replies) (g : Guards) :
    List Resolver → String → Outcome (Option Value)
  | [], _ => return none
  | r :: rest, body => do
    match ← r.ask replies g body with
    | some v => return some v
    | none => g.askFirst replies rest body

/-- What one of the resolvers answers of these bodies, the other one declines. -/
def Resolver.Apart (replies : Replies) (g : Guards) (shown : List String) (r r' : Resolver) :
    Prop :=
  ∀ body ∈ shown,
    (∀ v, (r.ask replies g body).result = .ok (some v) →
      (r'.ask replies g body).result = .ok none) ∧
    ∀ v, (r'.ask replies g body).result = .ok (some v) →
      (r.ask replies g body).result = .ok none

section FirstAnswer

open Template

variable {replies : Replies} {g : Guards} {chain order : List Resolver} {shown : List String}
  {body : String}

theorem Resolver.Apart.symm {r r' : Resolver} (h : r.Apart replies g shown r') :
    r'.Apart replies g shown r :=
  fun body hbody => ⟨(h body hbody).2, (h body hbody).1⟩

theorem askFirst_singleton (r : Resolver) (body : String) :
    g.askFirst replies [r] body = r.ask replies g body := by
  have hsame : (fun a : Option Value => match a with
      | some v => (pure (some v) : Outcome (Option Value))
      | none => g.askFirst replies [] body) = pure := by
    funext a
    cases a <;> rfl
  rw [Guards.askFirst]
  exact (congrArg (r.ask replies g body >>= ·) hsame).trans (bind_pure _)

theorem reaches_askFirst_cons {r : Resolver} {a : Option Value} :
    Reaches (g.askFirst replies (r :: chain)) body a ↔
      First (Reaches (r.ask replies g)) (Reaches (g.askFirst replies chain)) body a := by
  rw [Reaches, Guards.askFirst, Outcome.bind_result_eq_ok]
  constructor
  · rintro ⟨b, hb, ha⟩
    cases b with
    | some v =>
      obtain rfl := Except.ok.inj ha
      exact .inl ⟨Option.some_ne_none v, hb⟩
    | none => exact .inr ⟨hb, ha⟩
  · rintro (⟨hne, ha⟩ | ⟨hnone, ha⟩)
    · obtain ⟨v, rfl⟩ := Option.ne_none_iff_exists'.1 hne
      exact ⟨some v, ha, rfl⟩
    · exact ⟨none, hnone, ha⟩

theorem reaches_askFirst_none :
    Reaches (g.askFirst replies chain) body none ↔
      ∀ r ∈ chain, (r.ask replies g body).result = .ok none := by
  induction chain with
  | nil => exact iff_of_true rfl nofun
  | cons r rest ih =>
    rw [reaches_askFirst_cons, First, ih, List.forall_mem_cons]
    simp only [ne_eq, not_true, false_and, false_or]
    rfl

/-- Of resolvers that are apart, any answer is the first one. -/
theorem reaches_askFirst_some (hapart : chain.Pairwise (Resolver.Apart replies g shown))
    (hbody : body ∈ shown) {v : Value} :
    Reaches (g.askFirst replies chain) body (some v) ↔
      ∃ r ∈ chain, (r.ask replies g body).result = .ok (some v) := by
  induction chain with
  | nil => exact iff_of_false nofun nofun
  | cons r rest ih =>
    obtain ⟨hr, hrest⟩ := List.pairwise_cons.1 hapart
    rw [reaches_askFirst_cons, First, ih hrest]
    constructor
    · rintro (⟨-, h⟩ | ⟨-, r', hr', h⟩)
      · exact ⟨r, List.mem_cons_self, h⟩
      · exact ⟨r', List.mem_cons_of_mem _ hr', h⟩
    · rintro ⟨r', hr', h⟩
      rcases List.mem_cons.1 hr' with rfl | hr'
      · exact .inl ⟨Option.some_ne_none v, h⟩
      · exact .inr ⟨(hr r' hr' body hbody).2 v h, r', hr', h⟩

theorem reaches_askFirst_perm (hapart : chain.Pairwise (Resolver.Apart replies g shown))
    (hperm : order.Perm chain) (hbody : body ∈ shown) (a : Option Value) :
    Reaches (g.askFirst replies order) body a ↔ Reaches (g.askFirst replies chain) body a := by
  cases a with
  | none =>
    rw [reaches_askFirst_none, reaches_askFirst_none]
    exact ⟨fun h r hr => h r (hperm.mem_iff.2 hr), fun h r hr => h r (hperm.mem_iff.1 hr)⟩
  | some v =>
    have hapart' := (hperm.pairwise_iff fun h => h.symm).2 hapart
    rw [reaches_askFirst_some hapart' hbody, reaches_askFirst_some hapart hbody]
    constructor
    · rintro ⟨r, hr, h⟩
      exact ⟨r, hperm.mem_iff.1 hr, h⟩
    · rintro ⟨r, hr, h⟩
      exact ⟨r, hperm.mem_iff.2 hr, h⟩

end FirstAnswer

/-! ### A chain and its first answers -/

section Settling

open Template

variable {replies : Replies} {g : Guards} {chain : List Resolver} {shown : List String} {s : String}
  {v : Value}

theorem exists_of_reaches_askFirst {body : String}
    (h : Reaches (g.askFirst replies chain) body (some v)) :
    ∃ r ∈ chain, Reaches (r.ask replies g) body (some v) := by
  induction chain with
  | nil => cases h
  | cons r rest ih =>
    rcases reaches_askFirst_cons.1 h with ⟨-, h⟩ | ⟨-, h⟩
    · exact ⟨r, List.mem_cons_self, h⟩
    · obtain ⟨r', hr', h⟩ := ih h
      exact ⟨r', List.mem_cons_of_mem _ hr', h⟩

theorem isWord_of_reaches_askFirst (h : g.AnswersWith IsWord replies chain shown) :
    ∀ body ∈ shown, ∀ v, Reaches (g.askFirst replies chain) body (some v) →
      IsWord v.text.toList := by
  intro body hbody v hv
  obtain ⟨r, hr, hask⟩ := exists_of_reaches_askFirst hv
  exact h r hr body hbody v hask

/-- Where a text is kept from becoming one token, a chain puts in the first answers. -/
theorem settle_iff_fills (hchain : chain ≠ []) (hwords : g.AnswersWith IsWord replies chain shown)
    (hs : StaysText shown True (pieces s.toList)) :
    (g.settle replies chain (.string s)).result = .ok v ↔
      ∃ s', v = .string s' ∧
        Fills (Reaches (g.askFirst replies chain)) (pieces s.toList) (pieces s'.toList) := by
  induction chain generalizing s with
  | nil => exact absurd rfl hchain
  | cons r rest ih =>
    have hr : ∀ body ∈ shown, ∀ v, Reaches (r.ask replies g) body (some v) →
        IsWord v.text.toList := hwords r List.mem_cons_self
    rw [Guards.settle, Outcome.bind_result_eq_ok]
    cases rest with
    | nil =>
      have hask : g.askFirst replies [r] = r.ask replies g := funext (askFirst_singleton r)
      rw [hask, ← substitute_iff_fills hs hr]
      constructor
      · rintro ⟨u, hu, ⟨⟩⟩
        exact hu
      · intro h
        exact ⟨v, h, rfl⟩
    | cons r' rest =>
      have hrest := fun {s : String} => @ih s (List.cons_ne_nil _ _)
        fun r hr => hwords r (List.mem_cons_of_mem _ hr)
      constructor
      · rintro ⟨u, hu, hv⟩
        obtain ⟨s₁, rfl, h₁⟩ := (substitute_iff_fills hs hr).1 hu
        obtain ⟨s', rfl, h₂⟩ := (hrest (hs.of_fills h₁ hr)).1 hv
        refine ⟨s', rfl, (fills_comp.2 ⟨_, h₁, h₂⟩).mono ?_⟩
        exact fun _ _ _ => reaches_askFirst_cons.2
      · rintro ⟨s', rfl, h⟩
        obtain ⟨qs, h₁, h₂⟩ := fills_comp.1 (h.mono fun _ _ _ => reaches_askFirst_cons.1)
        -- the next one is shown the text of these pieces, and finds them in it
        have hqs := hs.of_fills h₁ hr
        have hpieces : pieces (String.ofList (source qs)).toList = qs := by
          rw [String.toList_ofList, hqs.isCut.pieces_source]
        rw [← hpieces] at h₁ h₂ hqs
        exact ⟨_, (substitute_iff_fills hs hr).2 ⟨_, rfl, h₁⟩, (hrest hqs).2 ⟨s', rfl, h₂⟩⟩

/-- An answer without braces is left alone by the chain. -/
theorem settle_of_isBody (h : IsBody v.text.toList) (chain : List Resolver) :
    g.settle replies chain v = pure v := by
  cases v with
  | string s =>
    apply settle_of_no_token
    rintro ⟨before, body, after, -, heq⟩
    have hbrace : '\x7b' ∈ s.toList := by
      rw [heq]
      simp [bracketed]
    have hnot := h '\x7b' hbrace
    cases hnot
  | _ =>
    induction chain with
    | nil => rfl
    | cons r rest ih =>
      rw [Guards.settle]
      exact ih

/-- Of a text that is one token, the chain makes the first answer to it. -/
theorem settle_iff_of_whole {body : List Char} (hwhole : wholeToken? s.toList = some body)
    (hbody : String.ofList (Text.trim body) ∈ shown)
    (hwords : g.AnswersWith IsWord replies chain shown)
    (hapart : chain.Pairwise (Resolver.Apart replies g shown)) :
    (g.settle replies chain (.string s)).result = .ok v ↔
      (substitute (g.askFirst replies chain) s).result = .ok v := by
  rw [substitute_of_whole hwhole, Outcome.bind_result_eq_ok]
  induction chain generalizing v with
  | nil =>
    constructor
    · intro h
      exact ⟨none, rfl, h⟩
    · rintro ⟨a, ⟨⟩, h⟩
      exact h
  | cons r rest ih =>
    obtain ⟨hr, hrest⟩ := List.pairwise_cons.1 hapart
    have hih := fun {v : Value} =>
      @ih v (fun r hr => hwords r (List.mem_cons_of_mem _ hr)) hrest
    -- what one resolver answers is the end of it, for the others decline
    have hanswered : ∀ w, Reaches (r.ask replies g) (String.ofList (Text.trim body)) (some w) →
        (g.settle replies rest (((some w).filter Value.isTruthy).getD (.string s))).result =
          .ok (((some w).filter Value.isTruthy).getD (.string s)) := by
      intro w hw
      rw [Option.filter_some]
      by_cases htruthy : w.isTruthy = true
      · have hword := hwords r List.mem_cons_self _ hbody w hw
        rw [if_pos htruthy, Option.getD_some, settle_of_isBody hword.isBody]
        rfl
      · rw [if_neg htruthy]
        refine hih.2 ⟨none, reaches_askFirst_none.2 ?_, rfl⟩
        intro r' hr'
        exact (hr r' hr' _ hbody).1 w hw
    rw [Guards.settle, process_of_whole hwhole, bind_assoc, Outcome.bind_result_eq_ok]
    simp only [pure_bind]
    constructor
    · rintro ⟨a, ha, hv⟩
      cases a with
      | none =>
        obtain ⟨a, hrest, hv⟩ := hih.1 hv
        exact ⟨a, reaches_askFirst_cons.2 (.inr ⟨ha, hrest⟩), hv⟩
      | some w =>
        rw [hanswered w ha] at hv
        exact ⟨some w, reaches_askFirst_cons.2 (.inl ⟨Option.some_ne_none w, ha⟩), hv⟩
    · rintro ⟨a, ha, hv⟩
      rcases reaches_askFirst_cons.1 ha with ⟨hne, ha⟩ | ⟨hnone, ha⟩
      · obtain ⟨w, rfl⟩ := Option.ne_none_iff_exists'.1 hne
        exact ⟨some w, ha, (hanswered w ha).trans hv⟩
      · exact ⟨none, hnone, hih.2 ⟨a, ha, hv⟩⟩

end Settling

/-! ### Labels -/

namespace Resolver

variable {replies : Replies} {g : Guards} {r r' : Resolver} {label label' body : String}

/-- The resolvers have labels, all different and none with a colon. -/
structure DistinctLabels (chain : List Resolver) : Prop where
  labelled : ∀ r ∈ chain, ∃ label, r.label? = some label ∧ ':' ∉ label.toList
  distinct : chain.Pairwise fun r r' => r.label? ≠ r'.label?

theorem takeWhile_label {label rest : List Char} (h : ':' ∉ label) :
    (label ++ ':' :: rest).takeWhile (· ≠ ':') = label := by
  rw [List.takeWhile_append_of_pos]
  · simp
  · intro c hc
    have hne : c ≠ ':' := by
      rintro rfl
      exact h hc
    simpa using hne

/-- A resolver under a label has something to say only where the text up to the first colon is its
    label. -/
theorem ask_of_label_ne (h : r.label? = some label) (hcolon : ':' ∉ label.toList)
    (hne : body.toList.takeWhile (· ≠ ':') ≠ label.toList) :
    (r.ask replies g body).result = .ok none := by
  apply ask_of_rest?_eq_none h
  rw [rest?, Option.map_eq_none_iff]
  cases hrest : Text.dropPrefix? (label.toList ++ [':']) body.toList with
  | none => rfl
  | some rest =>
    rw [Text.dropPrefix?_eq_some] at hrest
    rw [hrest, List.append_assoc] at hne
    exact absurd (takeWhile_label hcolon) hne

theorem DistinctLabels.apart {chain : List Resolver} (h : DistinctLabels chain)
    (shown : List String) : chain.Pairwise (Apart replies g shown) := by
  have hdeclines : ∀ r ∈ chain, ∀ r' ∈ chain, r.label? ≠ r'.label? → ∀ body v,
      (r.ask replies g body).result = .ok (some v) →
        (r'.ask replies g body).result = .ok none := by
    intro r hr r' hr' hne body v hv
    obtain ⟨label, hlabel, hcolon⟩ := h.labelled r hr
    obtain ⟨label', hlabel', hcolon'⟩ := h.labelled r' hr'
    apply ask_of_label_ne hlabel' hcolon'
    intro heq'
    have heq : body.toList.takeWhile (· ≠ ':') = label.toList := by
      by_contra hother
      rw [ask_of_label_ne hlabel hcolon hother] at hv
      cases hv
    apply hne
    rw [hlabel, hlabel', String.toList_inj.1 (heq.symm.trans heq')]
  apply h.distinct.imp_of_mem
  intro r r' hr hr' hne body _
  exact ⟨hdeclines r hr r' hr' hne body, hdeclines r' hr' r hr hne.symm body⟩

end Resolver

/-! ### Chains in any order -/

section Order

open Template

variable {replies : Replies} {g : Guards} {chain order : List Resolver} {s : String}

/-- A chain makes of a text what one substitution by its first answers makes of it. -/
theorem settle_iff_substitute (hchain : chain ≠ []) (hbraces : IsPlain (pieces s.toList))
    (hwords : g.AnswersWith IsWord replies chain (bodies (pieces s.toList)))
    (hapart : chain.Pairwise (Resolver.Apart replies g (bodies (pieces s.toList)))) (v : Value) :
    (g.settle replies chain (.string s)).result = .ok v ↔
      (substitute (g.askFirst replies chain) s).result = .ok v := by
  cases hwhole : wholeToken? s.toList with
  | some body => exact settle_iff_of_whole hwhole (mem_bodies_of_whole hwhole) hwords hapart
  | none =>
    have hstays : StaysText (bodies (pieces s.toList)) True (pieces s.toList) :=
      ⟨hbraces, List.Subset.refl _, fun _ hbody => isBody_of_mem_pieces hbody,
        kept_of_inline hwhole (.inr trivial)⟩
    rw [settle_iff_fills hchain hwords hstays,
      substitute_iff_fills hstays (isWord_of_reaches_askFirst hwords)]

/-- **Resolvers that answer different tokens may stand in any order.**  Let braces stand in the
    tokens of a text only, and let the answers to them be words.  If what one resolver of a chain
    answers the others decline, as it is with different labels, the chain makes of the text in every
    order the same, and that is what one substitution by all the resolvers makes of it. -/
theorem chain_in_any_order (hbraces : IsPlain (pieces s.toList))
    (hwords : g.AnswersWith IsWord replies chain (bodies (pieces s.toList)))
    (hapart : Resolver.DistinctLabels chain ∨
      chain.Pairwise (Resolver.Apart replies g (bodies (pieces s.toList))))
    (hperm : order.Perm chain) (v : Value) :
    ((g.settle replies order (.string s)).result = .ok v ↔
      (g.settle replies chain (.string s)).result = .ok v) ∧
    (chain ≠ [] →
      ((g.settle replies order (.string s)).result = .ok v ↔
        (substitute (g.askFirst replies chain) s).result = .ok v)) := by
  have happart : chain.Pairwise (Resolver.Apart replies g (bodies (pieces s.toList))) :=
    hapart.elim (fun h => h.apart _) id
  have hapart' : order.Pairwise (Resolver.Apart replies g (bodies (pieces s.toList))) :=
    (hperm.pairwise_iff fun h => h.symm).2 happart
  have hwords' : g.AnswersWith IsWord replies order (bodies (pieces s.toList)) :=
    fun r hr => hwords r (hperm.mem_iff.1 hr)
  -- the first answers to the bodies are the same in every order
  have hfirst := substitute_congr (s := s)
    (fun body hbody => reaches_askFirst_perm happart hperm hbody) v
  have hunion : chain ≠ [] →
      ((g.settle replies order (.string s)).result = .ok v ↔
        (substitute (g.askFirst replies chain) s).result = .ok v) := by
    intro hchain
    have horder : order ≠ [] := by
      rintro rfl
      exact hchain hperm.nil_eq.symm
    rw [settle_iff_substitute horder hbraces hwords' hapart', hfirst]
  refine ⟨?_, hunion⟩
  cases chain with
  | nil =>
    obtain rfl := hperm.eq_nil
    exact Iff.rfl
  | cons r rest =>
    have hchain := List.cons_ne_nil r rest
    rw [hunion hchain, settle_iff_substitute hchain hbraces hwords happart]

end Order

namespace OneAfterAnother

open Template

def replies : Replies := (⟨[], [], Loader.empty⟩ : Tree).reply [] 1

/-! ### Two labels -/

def first : Resolver := ⟨0, .labelled "a" (.data [("x", .integer 1)])⟩

def second : Resolver := ⟨1, .labelled "b" (.data [("y", .integer 2)])⟩

/-- A token for each of them, written with and without blanks. -/
def text : String := "\x7b\x7ba:x\x7d\x7d\x7b\x7b b:y \x7d\x7d"

theorem pieces_text : pieces text.toList =
    [.token ['a', ':', 'x'], .token [' ', 'b', ':', 'y', ' ']] := by
  cbv

theorem distinctLabels : Resolver.DistinctLabels [first, second] where
  labelled := by
    intro r hr
    rcases List.mem_pair.1 hr with rfl | rfl
    · exact ⟨"a", rfl, by decide⟩
    · exact ⟨"b", rfl, by decide⟩
  distinct := by
    rw [List.pairwise_pair]
    decide

theorem isWord_one : IsWord (Value.integer 1).text.toList := by
  have htext : (Value.integer 1).text.toList = ['1'] := by cbv
  rw [htext]
  exact ⟨isBody_of_all rfl, rfl⟩

theorem isWord_two : IsWord (Value.integer 2).text.toList := by
  have htext : (Value.integer 2).text.toList = ['2'] := by cbv
  rw [htext]
  exact ⟨isBody_of_all rfl, rfl⟩

theorem answersWith_isWord :
    Guards.fresh.AnswersWith IsWord replies [first, second] ["a:x", "b:y"] := by
  have hfirst : (first.ask replies Guards.fresh "a:x").result = .ok (some (.integer 1)) := by cbv
  have hsecond : (second.ask replies Guards.fresh "b:y").result = .ok (some (.integer 2)) := by cbv
  have hother : (first.ask replies Guards.fresh "b:y").result = .ok none := by cbv
  have hother' : (second.ask replies Guards.fresh "a:x").result = .ok none := by cbv
  intro r hr body hbody v hv
  rcases List.mem_pair.1 hr with rfl | rfl <;> rcases List.mem_pair.1 hbody with rfl | rfl
  · cases hfirst.symm.trans hv
    exact isWord_one
  · cases hother.symm.trans hv
  · cases hother'.symm.trans hv
  · cases hsecond.symm.trans hv
    exact isWord_two

/-- Both resolvers put their numbers in, whichever comes first. -/
theorem two_labels_in_any_order :
    Resolver.DistinctLabels [first, second] ∧ [second, first].Perm [first, second] ∧
      (Guards.fresh.settle replies [first, second] (.string text)).result = .ok (.string "12") ∧
      (Guards.fresh.settle replies [second, first] (.string text)).result = .ok (.string "12") := by
  have hbraces : IsPlain (pieces text.toList) := by
    rw [pieces_text]
    simp [IsPlain]
  have hwords : Guards.fresh.AnswersWith IsWord replies [first, second]
      (bodies (pieces text.toList)) := by
    have hbodies : bodies (pieces text.toList) = ["a:x", "b:y"] := by cbv
    rw [hbodies]
    exact answersWith_isWord
  have hperm : [second, first].Perm [first, second] := List.Perm.swap _ _ _
  have hvalue : (Guards.fresh.settle replies [first, second] (.string text)).result =
      .ok (.string "12") := by cbv
  obtain ⟨hsame, -⟩ := chain_in_any_order hbraces hwords (.inl distinctLabels) hperm (.string "12")
  exact ⟨distinctLabels, hperm, hvalue, hsame.2 hvalue⟩

/-! ### Where the order shows -/

/-- Knows no functions, and fails on what is no call. -/
def call : Resolver := ⟨0, .labelled "call" (.call [])⟩

/-- Answers a body that is no call. -/
def host : Resolver := ⟨1, .host fun body => .answer (Table.get? [("call:x", .integer 1)] body)⟩

theorem call_answers_nothing (body : String) (v : Value) :
    (call.ask replies Guards.fresh body).result ≠ .ok (some v) := by
  rw [Resolver.ask_result]
  simp only [Resolver.answer, call]
  cases Resolver.rest? "call" body with
  | none =>
    intro h
    cases h
  | some rest =>
    simp only [Resolver.Labelled.answer, Dialogue.run_bind]
    intro h
    obtain ⟨c, -, h⟩ := Outcome.bind_result_eq_ok.1 h
    cases h

/-- **Without resolvers tokens are not written back; and where one resolver answers what another
    one fails on, their order matters,** although no two of them answer one body. -/
theorem order_of_chain_matters :
    (IsPlain (pieces "x \x7b\x7ba\x7d\x7d".toList) ∧
      Guards.fresh.AnswersWith IsWord replies []
        (bodies (pieces "x \x7b\x7ba\x7d\x7d".toList)) ∧
      (Guards.fresh.settle replies [] (.string "x \x7b\x7ba\x7d\x7d")).result =
        .ok (.string "x \x7b\x7ba\x7d\x7d") ∧
      (substitute (Guards.fresh.askFirst replies []) "x \x7b\x7ba\x7d\x7d").result =
        .ok (.string "x \x7b\x7b a \x7d\x7d")) ∧
    (IsPlain (pieces "n=\x7b\x7b call:x \x7d\x7d".toList) ∧
      Guards.fresh.AnswersWith IsWord replies [host, call]
        (bodies (pieces "n=\x7b\x7b call:x \x7d\x7d".toList)) ∧
      (∀ body v v', (host.ask replies Guards.fresh body).result = .ok (some v) →
        (call.ask replies Guards.fresh body).result ≠ .ok (some v')) ∧
      (Guards.fresh.settle replies [host, call]
        (.string "n=\x7b\x7b call:x \x7d\x7d")).result = .ok (.string "n=1") ∧
      (Guards.fresh.settle replies [call, host]
        (.string "n=\x7b\x7b call:x \x7d\x7d")).result =
          .error (.failed (.invalidCall "x" .noCall))) := by
  constructor
  · have hpieces : pieces "x \x7b\x7ba\x7d\x7d".toList =
        [.char 'x', .char ' ', .token ['a']] := by cbv
    refine ⟨?_, ?_, rfl, by cbv⟩
    · rw [hpieces]
      simp [IsPlain, isBrace]
    · intro r hr
      cases hr
  · have hpieces : pieces "n=\x7b\x7b call:x \x7d\x7d".toList =
        [.char 'n', .char '=', .token [' ', 'c', 'a', 'l', 'l', ':', 'x', ' ']] := by cbv
    have hbodies : bodies (pieces "n=\x7b\x7b call:x \x7d\x7d".toList) = ["call:x"] := by cbv
    have hhost : (host.ask replies Guards.fresh "call:x").result = .ok (some (.integer 1)) := by cbv
    refine ⟨?_, ?_, ?_, by cbv, by cbv⟩
    · rw [hpieces]
      simp [IsPlain, isBrace]
    · rw [hbodies]
      intro r hr body hbody v hv
      obtain rfl := List.mem_singleton.1 hbody
      rcases List.mem_pair.1 hr with rfl | rfl
      · cases hhost.symm.trans hv
        exact isWord_one
      · exact absurd hv (call_answers_nothing _ v)
    · intro body v v' _
      exact call_answers_nothing body v'

end OneAfterAnother

end LayeredConfig
