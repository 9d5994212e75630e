/-
  LayeredConfig/Proofs/Lookup/Rendering.lean
  ==========================================
  **Tokens within a text.**

  A resolver that works on a text with more in it than one token leaves a text,
  whatever the values of the tokens.  The next resolver is shown what it left,
  and judges anew.  If by then the text is one token, because the tokens beside
  it gave way to nothing or because its braces were put together only now, the
  value of that token takes the place of the text.

  So a text becomes a text unless a resolver but the last leaves one token
  (`inline_text_becomes_text`), and none does where braces belong to tokens only
  and something is left around them.
-/
import LayeredConfig.Proofs.Lookup.Chain
import LayeredConfig.Proofs.Template.Rewriting
import Mathlib

namespace LayeredConfig

theorem Outcome.mapM_result_eq_ok {α β : Type} {f : α → Outcome β} {as : List α} {bs : List β} :
    (as.mapM f).result = .ok bs ↔ List.Forall₂ (fun a b => (f a).result = .ok b) as bs := by
  induction as generalizing bs with
  | nil =>
    rw [List.mapM_nil]
    constructor
    · intro h
      obtain rfl : [] = bs := Except.ok.inj h
      exact .nil
    · rintro ⟨⟩
      rfl
  | cons a as ih =>
    rw [List.mapM_cons]
    constructor
    · intro h
      obtain ⟨b, hb, h⟩ := Outcome.bind_result_eq_ok.1 h
      obtain ⟨bs', hbs, h⟩ := Outcome.bind_result_eq_ok.1 h
      obtain rfl : b :: bs' = bs := Except.ok.inj h
      exact .cons hb (ih.1 hbs)
    · rintro (_ | ⟨hb, hbs⟩)
      exact Outcome.bind_result_eq_ok.2 ⟨_, hb, Outcome.bind_result_eq_ok.2 ⟨_, ih.2 hbs, rfl⟩⟩

theorem exists_of_forall₂ {α β : Type} {R : α → β → Prop} {as : List α} {bs : List β}
    (h : List.Forall₂ R as bs) {b : β} (hb : b ∈ bs) : ∃ a ∈ as, R a b := by
  induction h with
  | nil => cases hb
  | cons hab _ ih =>
    rcases List.mem_cons.1 hb with rfl | hb
    · exact ⟨_, List.mem_cons_self, hab⟩
    · obtain ⟨a, ha, hr⟩ := ih hb
      exact ⟨a, List.mem_cons_of_mem _ ha, hr⟩

namespace Template

/-! ### One resolver -/

section Substitution

variable {answer : String → Outcome (Option Value)} {text : String} {v : Value}

/-- A text with more in it than one token stays a text, in which the answers are put. -/
theorem substitute_of_inline (h : wholeToken? text.toList = none) :
    (substitute answer text).result = .ok v ↔
      ∃ answers, List.Forall₂ (fun body a => (answer body).result = .ok a)
          (bodies (pieces text.toList)) answers ∧
        v = .string (String.ofList (fill (pieces text.toList) answers)) := by
  rw [substitute, h]
  simp only [render_eq, bind_assoc, pure_bind]
  constructor
  · intro hv
    obtain ⟨answers, hanswers, hv⟩ := Outcome.bind_result_eq_ok.1 hv
    exact ⟨answers, Outcome.mapM_result_eq_ok.1 hanswers, (Except.ok.inj hv).symm⟩
  · rintro ⟨answers, hanswers, rfl⟩
    exact Outcome.bind_result_eq_ok.2 ⟨answers, Outcome.mapM_result_eq_ok.2 hanswers, rfl⟩

end Substitution

/-- Something else than white space stands outside of the tokens. -/
def HasWord (ps : List Piece) : Prop := ∃ c, .char c ∈ ps ∧ Text.isBlank c = false

/-- What keeps pieces from becoming one token: there is none, or something stands beside the tokens,
    or there are two of them and nothing empty is put in their place. -/
def Kept (full : Prop) (ps : List Piece) : Prop :=
  (∀ body, .token body ∉ ps) ∨ HasWord ps ∨ full ∧ 2 ≤ (core ps).length

theorem Kept.core_ne {full : Prop} {ps : List Piece} (h : Kept full ps) (body : List Char) :
    core ps ≠ [.token body] := by
  intro hcore
  rcases h with hnone | ⟨c, hc⟩ | ⟨-, hlength⟩
  · apply hnone body
    simp [← token_mem_core, hcore]
  · have hin := char_mem_core.2 hc
    simp [hcore] at hin
  · simp [hcore] at hlength

theorem kept_of_inline {full : Prop} {s : List Char} (h : wholeToken? s = none)
    (hfull : HasWord (pieces s) ∨ full) : Kept full (pieces s) := by
  rcases hfull with hword | hf
  · exact .inr (.inl hword)
  · match hcore : core (pieces s) with
    | [] =>
      left
      intro body
      simp [← token_mem_core, hcore]
    | [.char c] =>
      have hin : .char c ∈ core (pieces s) := by simp [hcore]
      exact .inr (.inl ⟨c, char_mem_core.1 hin⟩)
    | [.token body] =>
      rw [wholeToken?_eq_some_iff_core.2 hcore] at h
      cases h
    | p :: q :: rest => exact .inr (.inr ⟨hf, by simp [hcore]⟩)

/-- Braces belong to tokens only, whose bodies are among these, and the text is kept from becoming
    one token. -/
structure StaysText (shown : List String) (full : Prop) (ps : List Piece) : Prop where
  isPlain : IsPlain ps
  bodies_subset : bodies ps ⊆ shown
  isBody : ∀ body, .token body ∈ ps → IsBody body
  kept : Kept full ps

section Filled

variable {ps : List Piece} {answers : List (Option Value)}

/-- A token that is left stood there before, perhaps with other blanks. -/
theorem token_mem_fillPieces {body : List Char} (h : .token body ∈ fillPieces ps answers) :
    ∃ other, .token other ∈ ps ∧ (body = other ∨ body = ' ' :: (Text.trim other ++ [' '])) := by
  rcases mem_fillPieces h with hbody | hbody | ⟨v, d, -, -, heq⟩
  · exact ⟨body, hbody, .inl rfl⟩
  · obtain ⟨p, hp, heq⟩ := List.mem_map.1 hbody
    cases p with
    | char c => cases heq
    | token other =>
      cases heq
      exact ⟨other, hp, .inr rfl⟩
  · cases heq

theorem IsPlain.fillPieces (h : IsPlain ps)
    (hanswers : ∀ v, some v ∈ answers → IsBody v.text.toList) :
    IsPlain (fillPieces ps answers) := by
  intro c hc
  rcases mem_fillPieces hc with hc | hc | ⟨v, d, hv, hd, heq⟩
  · exact h c hc
  · obtain ⟨p, hp, heq⟩ := List.mem_map.1 hc
    cases p with
    | token body => cases heq
    | char d =>
      cases heq
      exact h c hp
  · cases heq
    exact hanswers v hv c hd

theorem bodies_fillPieces_subset : bodies (fillPieces ps answers) ⊆ bodies ps := by
  intro text htext
  obtain ⟨body, hbody, rfl⟩ := mem_bodies.1 htext
  obtain ⟨other, hother, rfl | rfl⟩ := token_mem_fillPieces hbody
  · exact mem_bodies.2 ⟨_, hother, rfl⟩
  · exact mem_bodies.2 ⟨_, hother, by rw [Text.trim_between_blanks]⟩

theorem Kept.fillPieces {full : Prop} (h : Kept full ps)
    (hfull : full → ∀ v, some v ∈ answers → Text.allBlank v.text.toList = false) :
    Kept full (fillPieces ps answers) := by
  rcases h with hnone | ⟨c, hc, hblank⟩ | ⟨hf, hlength⟩
  · left
    intro body hbody
    obtain ⟨other, hother, -⟩ := token_mem_fillPieces hbody
    exact hnone other hother
  · exact .inr (.inl ⟨c, char_mem_fillPieces hc answers, hblank⟩)
  · exact .inr (.inr ⟨hf, hlength.trans (length_core_le_fillPieces ps (hfull hf))⟩)

/-- Whatever is put in the place of tokens, if only it holds no braces. -/
theorem StaysText.fillPieces {shown : List String} {full : Prop} (h : StaysText shown full ps)
    (hplain : ∀ v, some v ∈ answers → IsBody v.text.toList)
    (hfull : full → ∀ v, some v ∈ answers → Text.allBlank v.text.toList = false) :
    StaysText shown full (fillPieces ps answers) where
  isPlain := h.isPlain.fillPieces hplain
  bodies_subset := List.Subset.trans bodies_fillPieces_subset h.bodies_subset
  isBody := by
    intro body hbody
    obtain ⟨other, hother, rfl | rfl⟩ := token_mem_fillPieces hbody
    · exact h.isBody _ hother
    · exact (h.isBody _ hother).respace
  kept := h.kept.fillPieces hfull

end Filled

theorem StaysText.isCut {shown : List String} {full : Prop} {ps : List Piece}
    (h : StaysText shown full ps) : IsCut ps := isCut_of_isPlain h.isPlain h.isBody

theorem StaysText.inline {shown : List String} {full : Prop} {s : String}
    (h : StaysText shown full (pieces s.toList)) : wholeToken? s.toList = none := by
  cases hwhole : wholeToken? s.toList with
  | none => rfl
  | some body => exact absurd (wholeToken?_eq_some_iff_core.1 hwhole) (h.kept.core_ne body)

end Template

/-! ### A chain of resolvers -/

section Chain

variable {replies : Replies} {g : Guards} {s : String} {v : Value}

theorem string_of_process {r : Resolver} (h : Template.wholeToken? s.toList = none)
    (hv : (r.process replies g (.string s)).result = .ok v) : ∃ s', v = .string s' := by
  obtain ⟨answers, -, rfl⟩ := (Template.substitute_of_inline h).1 hv
  exact ⟨_, rfl⟩

/-- Some resolvers of the chain, but not all, make one token of the text. -/
def Guards.LeavesToken (replies : Replies) (g : Guards) (chain : List Resolver) (s : String) :
    Prop :=
  ∃ before after s', chain = before ++ after ∧ before ≠ [] ∧ after ≠ [] ∧
    (g.settle replies before (.string s)).result = .ok (.string s') ∧
    Template.wholeToken? s'.toList ≠ none

theorem string_or_leavesToken {chain : List Resolver} (h : Template.wholeToken? s.toList = none)
    (hv : (g.settle replies chain (.string s)).result = .ok v) :
    (∃ s', v = .string s') ∨ g.LeavesToken replies chain s := by
  induction chain generalizing s with
  | nil =>
    cases hv
    exact .inl ⟨s, rfl⟩
  | cons r rest ih =>
    obtain ⟨u, hu, hv⟩ := Outcome.bind_result_eq_ok.1 hv
    obtain ⟨s₁, rfl⟩ := string_of_process h hu
    by_cases hs₁ : Template.wholeToken? s₁.toList = none
    · rcases ih hs₁ hv with hstring | ⟨before, after, s', rfl, hbefore, hafter, hs', htoken⟩
      · exact .inl hstring
      · refine .inr ⟨r :: before, after, s', rfl, List.cons_ne_nil _ _, hafter, ?_, htoken⟩
        exact Outcome.bind_result_eq_ok.2 ⟨_, hu, hs'⟩
    · cases rest with
      | nil =>
        cases hv
        exact .inl ⟨s₁, rfl⟩
      | cons r' rest =>
        refine .inr ⟨[r], r' :: rest, s₁, rfl, List.cons_ne_nil _ _, List.cons_ne_nil _ _, ?_, hs₁⟩
        exact Outcome.bind_result_eq_ok.2 ⟨_, hu, rfl⟩

/-- The resolvers answer the tokens of a text, if at all, with values whose texts are such. -/
def Guards.AnswersWith (P : List Char → Prop) (replies : Replies) (g : Guards)
    (chain : List Resolver) (shown : List String) : Prop :=
  ∀ r ∈ chain, ∀ body ∈ shown, ∀ v, (r.ask replies g body).result = .ok (some v) → P v.text.toList

theorem string_of_staysText {chain : List Resolver} {shown : List String} {full : Prop}
    (hplain : g.AnswersWith Template.IsBody replies chain shown)
    (hfull : full → g.AnswersWith (Text.allBlank · = false) replies chain shown)
    (hs : Template.StaysText shown full (Template.pieces s.toList))
    (hv : (g.settle replies chain (.string s)).result = .ok v) : ∃ s', v = .string s' := by
  induction chain generalizing s with
  | nil =>
    cases hv
    exact ⟨s, rfl⟩
  | cons r rest ih =>
    obtain ⟨u, hu, hv⟩ := Outcome.bind_result_eq_ok.1 hv
    obtain ⟨answers, hanswers, rfl⟩ := (Template.substitute_of_inline hs.inline).1 hu
    -- an answer that was put in is the answer of this resolver to one of the bodies
    have hanswered : ∀ {P : List Char → Prop}, g.AnswersWith P replies (r :: rest) shown →
        ∀ w, some w ∈ answers → P w.text.toList := by
      intro P hP w hw
      obtain ⟨body, hbody, hask⟩ := exists_of_forall₂ hanswers hw
      exact hP r List.mem_cons_self body (hs.bodies_subset hbody) w hask
    have hfill := hs.fillPieces (hanswered hplain) fun hf => hanswered (hfull hf)
    rw [← Template.source_fillPieces] at hv
    refine ih ?_ ?_ ?_ hv
    · exact fun r hr => hplain r (List.mem_cons_of_mem _ hr)
    · exact fun hf r hr => hfull hf r (List.mem_cons_of_mem _ hr)
    · rw [String.toList_ofList, hfill.isCut.pieces_source]
      exact hfill

end Chain

/-- **Tokens within a text are rendered.**  If a text with more in it than one token is resolved, it
    becomes a text, unless the first resolvers of the chain make one token of it and leave that to
    the others.  They do not if braces stand in its tokens only, no text of an answer has braces,
    and either something stands beside the tokens or no text of an answer is empty. -/
theorem inline_text_becomes_text {t : Tree} {disk : Disk} {steps : Nat} {g : Guards} {s : String}
    {v : Value} (hinline : Template.wholeToken? s.toList = none)
    (hv : (g.resolve (t.reply disk steps) t.chain (.string s)).result = .ok v) :
    ((∃ s', v = .string s') ∨ g.LeavesToken (t.reply disk steps) t.chain s) ∧
    (Template.IsPlain (Template.pieces s.toList) →
      g.AnswersWith Template.IsBody (t.reply disk steps) t.chain
        (Template.bodies (Template.pieces s.toList)) →
      (Template.HasWord (Template.pieces s.toList) ∨
        g.AnswersWith (Text.allBlank · = false) (t.reply disk steps) t.chain
          (Template.bodies (Template.pieces s.toList))) →
      ∃ s', v = .string s') := by
  -- what the chain leaves is the value, unless it is a table or an array
  have hsettle : ∃ c, (g.settle (t.reply disk steps) t.chain (.string s)).result = .ok c ∧
      (c.isCompound = false → v = c) := by
    rcases settle_of_expandString hv with ⟨hc, -⟩ | ⟨c, fewer, hc, hcomp, -, -⟩
    · exact ⟨v, hc, fun _ => rfl⟩
    · refine ⟨c, hc, fun h => ?_⟩
      rw [h] at hcomp
      cases hcomp
  obtain ⟨c, hc, hvalue⟩ := hsettle
  constructor
  · rcases string_or_leavesToken hinline hc with ⟨s', rfl⟩ | hleaves
    · exact .inl ⟨s', hvalue rfl⟩
    · exact .inr hleaves
  · intro hplain hanswers hfull
    have hstays : Template.StaysText (Template.bodies (Template.pieces s.toList))
        (g.AnswersWith (Text.allBlank · = false) (t.reply disk steps) t.chain
          (Template.bodies (Template.pieces s.toList))) (Template.pieces s.toList) :=
      ⟨hplain, List.Subset.refl _, fun _ hbody => Template.isBody_of_mem_pieces hbody,
        Template.kept_of_inline hinline hfull⟩
    obtain ⟨s', rfl⟩ := string_of_staysText hanswers id hstays hc
    exact ⟨s', hvalue rfl⟩

namespace NothingBeside

/-- Answers `a:x` with an empty text. -/
def first : Resolver := ⟨0, .labelled "a" (.data [("x", .string "")])⟩

/-- Answers `b:y` with an array. -/
def second : Resolver := ⟨1, .labelled "b" (.data [("y", .array [.integer 1, .integer 2])])⟩

def tree : Tree := ⟨[], [first, second], Loader.empty⟩

def replies : Replies := tree.reply [] 1

theorem first_answersWith : Guards.fresh.AnswersWith Template.IsBody replies [first]
    ["a:x", "b:y"] := by
  have hx : (first.ask replies Guards.fresh "a:x").result = .ok (some (.string "")) := by cbv
  have hy : (first.ask replies Guards.fresh "b:y").result = .ok none := by cbv
  intro r hr body hbody v hv
  obtain rfl := List.mem_singleton.1 hr
  rcases List.mem_pair.1 hbody with rfl | rfl
  · rw [hx] at hv
    cases hv
    simp [Template.IsBody, Value.text]
  · rw [hy] at hv
    cases hv

theorem second_answersWith : Guards.fresh.AnswersWith Template.IsBody replies [second]
    ["a:x", "b:y"] := by
  have hx : (second.ask replies Guards.fresh "a:x").result = .ok none := by cbv
  have hy : (second.ask replies Guards.fresh "b:y").result =
      .ok (some (.array [.integer 1, .integer 2])) := by cbv
  have htext : (Value.array [.integer 1, .integer 2]).text.toList =
      ['[', '1', ',', ' ', '2', ']'] := by cbv
  intro r hr body hbody v hv
  obtain rfl := List.mem_singleton.1 hr
  rcases List.mem_pair.1 hbody with rfl | rfl
  · rw [hx] at hv
    cases hv
  · rw [hy] at hv
    cases hv
    rw [htext]
    simp [Template.IsBody, Template.isBrace]

/-- Beside a word, the second token is rendered although the first one is empty. -/
theorem becomes_text :
    Template.wholeToken? "n=\x7b\x7b a:x \x7d\x7d\x7b\x7b b:y \x7d\x7d".toList = none ∧
      (Guards.fresh.resolve replies tree.chain
        (.string "n=\x7b\x7b a:x \x7d\x7d\x7b\x7b b:y \x7d\x7d")).result =
          .ok (.string "n=[1, 2]") ∧
      ∃ s', (.string "n=[1, 2]" : Value) = .string s' := by
  have hinline : Template.wholeToken? "n=\x7b\x7b a:x \x7d\x7d\x7b\x7b b:y \x7d\x7d".toList =
      none := by cbv
  have hresult : (Guards.fresh.resolve replies tree.chain
      (.string "n=\x7b\x7b a:x \x7d\x7d\x7b\x7b b:y \x7d\x7d")).result =
        .ok (.string "n=[1, 2]") := by cbv
  have hpieces : Template.pieces "n=\x7b\x7b a:x \x7d\x7d\x7b\x7b b:y \x7d\x7d".toList =
      [.char 'n', .char '=', .token [' ', 'a', ':', 'x', ' '],
        .token [' ', 'b', ':', 'y', ' ']] := by cbv
  have hbodies : Template.bodies (Template.pieces
      "n=\x7b\x7b a:x \x7d\x7d\x7b\x7b b:y \x7d\x7d".toList) = ["a:x", "b:y"] := by cbv
  refine ⟨hinline, hresult, (inline_text_becomes_text hinline hresult).2 ?_ ?_ ?_⟩
  · rw [hpieces]
    simp [Template.IsPlain, Template.isBrace]
  · rw [hbodies]
    intro r hr
    rcases List.mem_pair.1 hr with rfl | rfl
    · exact first_answersWith first (List.mem_singleton_self _)
    · exact second_answersWith second (List.mem_singleton_self _)
  · left
    rw [hpieces]
    exact ⟨'n', by simp, by decide⟩

/-- **A text of two tokens can become an array.**  The first token gives way to nothing, and the
    second one is all that is left. -/
theorem becomes_array :
    Template.wholeToken? "\x7b\x7b a:x \x7d\x7d\x7b\x7b b:y \x7d\x7d".toList = none ∧
      (Guards.fresh.resolve replies tree.chain
        (.string "\x7b\x7b a:x \x7d\x7d\x7b\x7b b:y \x7d\x7d")).result =
        .ok (.array [.integer 1, .integer 2]) ∧
      ¬ ∃ s', (.array [.integer 1, .integer 2] : Value) = .string s' := by
  refine ⟨by cbv, by cbv, ?_⟩
  rintro ⟨s', h⟩
  cases h

end NothingBeside

end LayeredConfig
