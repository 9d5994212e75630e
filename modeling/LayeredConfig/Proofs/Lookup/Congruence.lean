/-
  LayeredConfig/Proofs/Lookup/Congruence.lean
  ===========================================
  **What a chain makes of a text, with the one replies and with the other.**

  Between two questions a resolver does nothing but put outcomes one after the
  other.  A relation between outcomes that survives this (`Congruent`) therefore
  holds between what a chain of built-in resolvers makes of a value in two
  situations, if only it holds between the replies to the questions.
-/
import LayeredConfig.Proofs.Lookup.BuiltIn
import LayeredConfig.Proofs.Value.Strings

namespace LayeredConfig

/-- The relation holds between a still outcome and itself, and is kept by going on. -/
structure Congruent (Rel : {α : Type} → Outcome α → Outcome α → Prop) : Prop where
  still : ∀ {α : Type} {x : Outcome α}, x.Still → Rel x x
  bind : ∀ {α β : Type} {x y : Outcome α} {f f' : α → Outcome β},
    Rel x y → (∀ a, Rel (f a) (f' a)) → Rel (x >>= f) (y >>= f')

namespace Congruent

variable {Rel : {α : Type} → Outcome α → Outcome α → Prop} (h : Congruent Rel)
include h

theorem pure {α : Type} (a : α) : Rel (Pure.pure a) (Pure.pure a) := h.still (Outcome.Still.pure a)

/-- Tables and arrays are gone on with, other values are kept. -/
theorem bind_compound {x y : Outcome Value} {f f' : Value → Outcome Value} (hx : Rel x y)
    (hf : ∀ v, Rel (f v) (f' v)) :
    Rel (x >>= fun v => if v.isCompound then f v else Pure.pure v)
      (y >>= fun v => if v.isCompound then f' v else Pure.pure v) := by
  apply h.bind hx
  intro v
  by_cases hv : v.isCompound
  · simp only [hv, if_true]
    exact hf v
  · simp only [hv]
    exact h.pure v

/-! ### Values and texts -/

theorem render {answer₁ answer₂ : String → Outcome (Option Value)}
    (hanswer : ∀ body, Rel (answer₁ body) (answer₂ body)) (ps : List Template.Piece) :
    Rel (Template.render answer₁ ps) (Template.render answer₂ ps) := by
  induction ps with
  | nil => exact h.pure []
  | cons p ps ih =>
    cases p with
    | char c =>
      apply h.bind ih
      intro tail
      exact h.pure _
    | token body =>
      apply h.bind (hanswer _)
      intro v
      apply h.bind ih
      intro tail
      cases v <;> exact h.pure _

/-- What stands beside the tokens of a text is the same for both, so the answers decide. -/
theorem substitute {answer₁ answer₂ : String → Outcome (Option Value)}
    (hanswer : ∀ body, Rel (answer₁ body) (answer₂ body)) (text : String) :
    Rel (Template.substitute answer₁ text) (Template.substitute answer₂ text) := by
  unfold Template.substitute
  cases Template.wholeToken? text.toList with
  | none =>
    apply h.bind (h.render hanswer _)
    intro out
    exact h.pure _
  | some body =>
    apply h.bind (hanswer _)
    intro v
    cases v <;> exact h.pure _

mutual

/-- What is no string in a value is the same for both, so its strings decide. -/
theorem traverse (change₁ change₂ : String → Outcome Value) (v : Value)
    (hchange : ∀ s ∈ v.strings, Rel (change₁ s) (change₂ s)) :
    Rel (v.traverse change₁) (v.traverse change₂) := by
  cases v with
  | string s => exact hchange s List.mem_cons_self
  | array items =>
    apply h.bind (traverseItems change₁ change₂ items hchange)
    intro items
    exact h.pure _
  | table entries =>
    apply h.bind (traverseEntries change₁ change₂ entries hchange)
    intro entries
    exact h.pure _
  | integer i => exact h.pure _
  | float x => exact h.pure _
  | boolean b => exact h.pure _
  | datetime d => exact h.pure _

theorem traverseItems (change₁ change₂ : String → Outcome Value) (items : List Value)
    (hchange : ∀ s ∈ Value.stringsOfItems items, Rel (change₁ s) (change₂ s)) :
    Rel (Value.traverseItems change₁ items) (Value.traverseItems change₂ items) := by
  cases items with
  | nil => exact h.pure _
  | cons v rest =>
    have hv := traverse change₁ change₂ v fun s hs => hchange s (List.mem_append_left _ hs)
    have hrest := traverseItems change₁ change₂ rest fun s hs =>
      hchange s (List.mem_append_right _ hs)
    apply h.bind hv
    intro v
    apply h.bind hrest
    intro rest
    exact h.pure _

theorem traverseEntries (change₁ change₂ : String → Outcome Value) (entries : Table)
    (hchange : ∀ s ∈ entries.strings, Rel (change₁ s) (change₂ s)) :
    Rel (Value.traverseEntries change₁ entries) (Value.traverseEntries change₂ entries) := by
  cases entries with
  | nil => exact h.pure _
  | cons entry rest =>
    have hv := traverse change₁ change₂ entry.2 fun s hs =>
      hchange s (List.mem_append_left _ hs)
    have hrest := traverseEntries change₁ change₂ rest fun s hs =>
      hchange s (List.mem_append_right _ hs)
    apply h.bind hv
    intro v
    apply h.bind hrest
    intro rest
    exact h.pure _

end

/-! ### Resolvers -/

section Resolvers

variable {g₁ g₂ : Guards} {replies₁ replies₂ : Replies}
  (hreplies : ∀ q : Request, q.IsPlain → Rel (replies₁ g₁ q) (replies₂ g₂ q))
include hreplies

theorem run {α : Type} {d : Dialogue α} (hd : d.IsForward) :
    Rel (d.run (replies₁ g₁)) (d.run (replies₂ g₂)) := by
  induction d with
  | done r => exact h.still (Outcome.Still.ofExcept r)
  | ask q next ih =>
    obtain ⟨hq, herror, hok⟩ := hd
    rw [Dialogue.run_ask herror, Dialogue.run_ask herror]
    apply h.bind (hreplies q hq)
    intro a
    exact ih (.ok a) (hok a)

theorem ask {r : Resolver} (hr : r.IsBuiltIn) (body : String) :
    Rel (r.ask replies₁ g₁ body) (r.ask replies₂ g₂ body) := by
  have hnote : Rel (Outcome.note (.asked r.id body)) (Outcome.note (.asked r.id body)) :=
    h.still (Outcome.Still.note trivial)
  apply h.bind hnote
  intro _
  exact h.run hreplies (hr.isForward_answer body)

theorem process {r : Resolver} (hr : r.IsBuiltIn) (v : Value) :
    Rel (r.process replies₁ g₁ v) (r.process replies₂ g₂ v) := by
  cases v with
  | string s => exact h.substitute (h.ask hreplies hr) s
  | _ => exact h.pure _

/-- What a chain of built-in resolvers makes of a value is decided by the replies. -/
theorem settle {chain : List Resolver} (hchain : ∀ r ∈ chain, r.IsBuiltIn) (v : Value) :
    Rel (g₁.settle replies₁ chain v) (g₂.settle replies₂ chain v) := by
  induction chain generalizing v with
  | nil => exact h.pure v
  | cons r rest ih =>
    apply h.bind (h.process hreplies (hchain r List.mem_cons_self) v)
    intro v
    exact ih (fun r hr => hchain r (List.mem_cons_of_mem _ hr)) v

end Resolvers

end Congruent

end LayeredConfig
