/-
  LayeredConfig/Proofs/Lookup/Chain.lean
  ======================================
  **One string and a chain of resolvers.**

  A string that is one token is the answer to its body, a string without tokens
  is left alone, and what the chain makes of a string is what becomes of it,
  except that the strings in a table or an array are resolved as well.
-/
import LayeredConfig.Proofs.Outcome
import LayeredConfig.Proofs.Template.Grammar
import LayeredConfig.Tree.Basic

namespace LayeredConfig

section Strings

variable {replies : Replies} {g : Guards} {s : String}

theorem Resolver.ask_result {r : Resolver} (body : String) :
    (r.ask replies g body).result = ((r.answer body).run (replies g)).result := by
  rw [Resolver.ask, Outcome.bind_of_ok rfl]

/-- A resolver under a label declines what does not begin with it. -/
theorem Resolver.ask_of_rest?_eq_none {r : Resolver} {label body : String}
    (h : r.label? = some label) (hrest : Resolver.rest? label body = none) :
    (r.ask replies g body).result = .ok none := by
  obtain ⟨id, kind⟩ := r
  cases kind with
  | host answer => cases h
  | labelled label' what =>
    obtain rfl := Option.some.inj h
    rw [Resolver.ask_result]
    simp only [Resolver.answer, hrest]
    rfl

theorem Resolver.rest?_ofList (label : String) (body : List Char) :
    Resolver.rest? label (String.ofList body) =
      (Text.dropPrefix? (label.toList ++ [':']) body).map fun rest =>
        String.ofList (Text.trim rest) := by
  have hbody : (String.ofList body).toList = body := String.toList_ofList
  rw [Resolver.rest?, hbody]

/-- A text that is one token is the answer to its body, unless there is none or an empty one. -/
theorem Template.substitute_of_whole {body : List Char}
    (h : Template.wholeToken? s.toList = some body) (answer : String → Outcome (Option Value)) :
    Template.substitute answer s = do
      let answer ← answer (String.ofList (Text.trim body))
      return (answer.filter Value.isTruthy).getD (.string s) := by
  rw [Template.substitute, h]
  apply bind_congr
  intro answer
  cases answer with
  | none => rfl
  | some v => by_cases hv : v.isTruthy <;> simp [Option.filter, hv]

/-- One token is shown to a resolver with its body, and kept if there is no answer or an empty
    one. -/
theorem process_of_whole {body : List Char} (h : Template.wholeToken? s.toList = some body)
    (r : Resolver) :
    r.process replies g (.string s) = do
      let answer ← r.ask replies g (String.ofList (Text.trim body))
      return (answer.filter Value.isTruthy).getD (.string s) :=
  Template.substitute_of_whole h _

theorem settle_append (replies : Replies) (g : Guards) (front chain : List Resolver) (v : Value) :
    g.settle replies (front ++ chain) v =
      (do let v ← g.settle replies front v; g.settle replies chain v) := by
  induction front generalizing v with
  | nil => exact (pure_bind v _).symm
  | cons r rest ih =>
    simp only [List.cons_append, Guards.settle, bind_assoc, ih]

theorem settle_of_no_token (h : ¬ Template.HasToken s) (chain : List Resolver) :
    g.settle replies chain (.string s) = pure (.string s) := by
  induction chain with
  | nil => rfl
  | cons r rest ih =>
    have hprocess : r.process replies g (.string s) = pure (.string s) :=
      Template.substitute_of_no_token _ h
    rw [Guards.settle, hprocess, pure_bind]
    exact ih

/-- A chain leaves alone what is not a string. -/
theorem settle_of_not_string {v : Value} (h : ∀ s, v ≠ .string s) (chain : List Resolver) :
    g.settle replies chain v = pure v := by
  induction chain with
  | nil => rfl
  | cons r rest ih =>
    have hprocess : r.process replies g v = pure v := by
      cases v with
      | string s => exact absurd rfl (h s)
      | _ => rfl
    rw [Guards.settle, hprocess, pure_bind]
    exact ih

end Strings

section Expanding

variable {replies : Replies} {chain : List Resolver}

theorem expandString_of_settle {fl : List KeyPath} {room : Nat} {s : String} {v : Value}
    (h : ((⟨fl, room⟩ : Guards).settle replies chain (.string s)).result = .ok v)
    (hv : v.isCompound = false) :
    (expandString replies chain fl room s).result = .ok v := by
  cases room with
  | zero =>
    rw [expandString, Outcome.bind_of_ok h, hv]
    rfl
  | succ room =>
    rw [expandString, Outcome.bind_of_ok h, hv]
    rfl

/-- A string without tokens is itself, and nothing is done about it. -/
theorem expandString_of_no_token {fl : List KeyPath} {s : String} (h : ¬ Template.HasToken s)
    (room : Nat) : expandString replies chain fl room s = pure (.string s) := by
  cases room with
  | zero =>
    rw [expandString, settle_of_no_token h, pure_bind]
    rfl
  | succ room =>
    rw [expandString, settle_of_no_token h, pure_bind]
    rfl

/-- A string becomes what the chain makes of it, with the strings in there resolved if that is a
    table or an array. -/
theorem settle_of_expandString {fl : List KeyPath}
    {room : Nat} {s : String} {v : Value}
    (h : (expandString replies chain fl room s).result = .ok v) :
    ((⟨fl, room⟩ : Guards).settle replies chain (.string s)).result = .ok v ∧
        v.isCompound = false ∨
      ∃ c fewer, ((⟨fl, room⟩ : Guards).settle replies chain (.string s)).result = .ok c ∧
        c.isCompound = true ∧ room = fewer + 1 ∧
        (c.traverse (expandString replies chain fl fewer)).result = .ok v := by
  cases room with
  | zero =>
    obtain ⟨c, hc, h⟩ := Outcome.bind_result_eq_ok.1 h
    cases hcomp : c.isCompound with
    | true =>
      rw [hcomp, if_pos rfl] at h
      cases h
    | false =>
      rw [hcomp] at h
      cases h
      exact .inl ⟨hc, hcomp⟩
  | succ room =>
    obtain ⟨c, hc, h⟩ := Outcome.bind_result_eq_ok.1 h
    cases hcomp : c.isCompound with
    | true =>
      rw [hcomp, if_pos rfl] at h
      exact .inr ⟨c, room, hc, hcomp, rfl, h⟩
    | false =>
      rw [hcomp] at h
      cases h
      exact .inl ⟨hc, hcomp⟩

theorem resolve_of_error {g : Guards} {s : String}
    {halt : Halt} (h : (g.settle replies chain (.string s)).result = .error halt) :
    (g.resolve replies chain (.string s)).result = .error halt := by
  obtain ⟨fl, room⟩ := g
  rw [Guards.resolve, Value.traverse]
  cases room with
  | zero => rw [expandString, Outcome.bind_of_error h]
  | succ room => rw [expandString, Outcome.bind_of_error h]

end Expanding

end LayeredConfig
