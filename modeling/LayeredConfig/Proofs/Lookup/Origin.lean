/-
  LayeredConfig/Proofs/Lookup/Origin.lean
  =======================================
  **Where the strings of a read come from.**

  A tree gives some texts: those in its data, in the tables of its resolvers and
  in its files; and the host puts texts into the tables and arrays that its
  functions answer, and into the tables that its parsers find.  Every string with
  a token in it that a read ever meets is one of these texts, after the chain has
  been at it a number of times (`Tree.Arises`).

  The chain makes a string of the text, and a string of that, until it makes a
  table or an array for once.  So every text opens up at one string at most
  (`Tree.finite_unfolds`).
-/
import LayeredConfig.Proofs.Files.Tables
import LayeredConfig.Proofs.Lookup.Determined
import LayeredConfig.Proofs.Template.Rewriting
import Mathlib.Data.Set.Finite.Lattice
import Mathlib.Logic.Relation

namespace LayeredConfig

/-! ### Texts that are given -/

def Resolver.texts (r : Resolver) : List String :=
  match r.data? with
  | some table => Table.strings table
  | none => []

/-- The texts in the data of a tree, in the tables of its resolvers and in its files. -/
def Tree.texts (t : Tree) (disk : Disk) : List String :=
  Table.strings t.data ++ t.chain.flatMap Resolver.texts ++ t.loader.texts disk

/-- A host function of the resolver has this value for the arguments of a call in a token. -/
def Resolver.HostGives (r : Resolver) (v : Value) : Prop :=
  ∃ label functions body rest call f, r.kind = .labelled label (.call functions) ∧
    Template.IsBody body.toList ∧ Resolver.rest? label body = some rest ∧
    CallExpr.parse rest = .ok call ∧ functions.lookup call.name = some f ∧ f call.args = some v

/-- The texts with tokens that the host puts into tables and arrays: its functions into what they
    answer to calls in tokens, its parsers into what they find in files. -/
def Tree.hostTexts (t : Tree) (disk : Disk) : Set String :=
  {s | Template.HasToken s ∧
    ((∃ r ∈ t.chain, ∃ v, r.HostGives v ∧ v.isCompound = true ∧ s ∈ v.strings) ∨
      t.loader.HostPuts disk s)}

variable {t : Tree} {disk : Disk}

/-! ### What arises from them -/

/-- The chain makes another string of a string. -/
def Tree.Rewrites (t : Tree) (disk : Disk) (s s' : String) : Prop := t.Settles disk s (.string s')

/-- The string has no token, or the chain makes it of a text that is given, in some rounds. -/
def Tree.Arises (t : Tree) (disk : Disk) (s : String) : Prop :=
  ¬ Template.HasToken s ∨
    ∃ text, (text ∈ t.texts disk ∨ text ∈ t.hostTexts disk) ∧
      Relation.ReflTransGen (t.Rewrites disk) text s

def Tree.ArisesIn (t : Tree) (disk : Disk) (v : Value) : Prop := ∀ s ∈ v.strings, t.Arises disk s

theorem Tree.arises_of_mem_texts {s : String} (h : s ∈ t.texts disk) : t.Arises disk s :=
  .inr ⟨s, .inl h, .refl⟩

theorem Tree.arises_of_mem_data {s : String} (h : s ∈ Table.strings t.data) : t.Arises disk s :=
  arises_of_mem_texts (List.mem_append_left _ (List.mem_append_left _ h))

theorem Tree.arisesIn_of_mem_data? {r : Resolver} (hr : r ∈ t.chain) {table : Table}
    (h : r.data? = some table) : t.ArisesIn disk (.table table) := by
  intro s hs
  refine arises_of_mem_texts (List.mem_append_left _ (List.mem_append_right _ ?_))
  refine List.mem_flatMap.2 ⟨r, hr, ?_⟩
  rw [Resolver.texts, h]
  exact hs

theorem Tree.arises_of_hostTexts {s : String} (h : Template.HasToken s → s ∈ t.hostTexts disk) :
    t.Arises disk s := by
  by_cases htoken : Template.HasToken s
  · exact .inr ⟨s, .inr (h htoken), .refl⟩
  · exact .inl htoken

theorem Tree.arisesIn_of_load {path : String} {table : Table}
    (h : (t.loader.loadFile disk path).result = .ok table) : t.ArisesIn disk (.table table) := by
  intro s hs
  rcases Loader.strings_of_loadFile h hs with hfile | hhost
  · exact arises_of_mem_texts (List.mem_append_right _ hfile)
  · exact arises_of_hostTexts fun htoken => ⟨htoken, .inr hhost⟩

theorem Tree.arisesIn_of_hostGives {r : Resolver} (hr : r ∈ t.chain) {v : Value}
    (h : r.HostGives v) (hv : v.isCompound = true) : t.ArisesIn disk v := by
  intro s hs
  exact arises_of_hostTexts fun htoken => ⟨htoken, .inl ⟨r, hr, v, h, hv, hs⟩⟩

theorem Tree.ArisesIn.get? {entries : Table} (h : t.ArisesIn disk (.table entries)) {key : String}
    {v : Value} (hv : entries.get? key = some v) : t.ArisesIn disk v := by
  intro s hs
  exact h s (Table.strings_of_get? hv hs)

theorem Tree.Arises.rewrite {s s' : String} (h : t.Arises disk s) (hs : t.Rewrites disk s s') :
    t.Arises disk s' := by
  rcases h with h | ⟨text, htext, hpath⟩
  · have hself : t.Settles disk s (.string s) := by
      rw [Tree.Settles, Tree.story, settle_of_no_token h]
      rfl
    obtain rfl := Value.string.inj (hself.unique hs)
    exact .inl h
  · exact .inr ⟨text, htext, hpath.tail hs⟩

/-! ### Answers -/

/-- What becomes of a text is a text again, or an answer to the body of a token. -/
theorem string_or_answer_of_substitute {answer : String → Outcome (Option Value)} {text : String}
    {w : Value} (h : (Template.substitute answer text).result = .ok w) :
    (∃ s, w = .string s) ∨
      ∃ body, Template.IsBody body ∧ (answer (String.ofList body)).result = .ok (some w) := by
  unfold Template.substitute at h
  cases hwhole : Template.wholeToken? text.toList with
  | none =>
    rw [hwhole] at h
    obtain ⟨out, -, h⟩ := Outcome.bind_result_eq_ok.1 h
    exact .inl ⟨_, (Except.ok.inj h).symm⟩
  | some body =>
    rw [hwhole] at h
    obtain ⟨v, hv, h⟩ := Outcome.bind_result_eq_ok.1 h
    cases v with
    | none => exact .inl ⟨_, (Except.ok.inj h).symm⟩
    | some v =>
      obtain rfl : (if v.isTruthy then v else .string text) = w := Except.ok.inj h
      by_cases htruthy : v.isTruthy
      · rw [if_pos htruthy]
        exact .inr ⟨_, (Template.wholeToken?_eq_some.1 hwhole).1.trim, hv⟩
      · rw [if_neg htruthy]
        exact .inl ⟨text, rfl⟩

/-- Replies whose strings arise from the texts of the tree. -/
def Tree.Replying (t : Tree) (disk : Disk) (replies : Replies) : Prop :=
  ∀ g, (∀ path v, (replies g (.get path)).result = .ok (some v) → t.ArisesIn disk v) ∧
    ∀ path u, (replies g (.load path)).result = .ok u → t.ArisesIn disk (.table u)

section Answers

variable (hb : t.IsBuiltIn) {replies : Replies} (hreplies : t.Replying disk replies)
include hb hreplies

/-- A table or an array that a resolver answers holds strings that arise. -/
theorem arisesIn_of_ask {r : Resolver} (hr : r ∈ t.chain) {g : Guards} {body : String} {v : Value}
    (hbody : Template.IsBody body.toList) (h : (r.ask replies g body).result = .ok (some v))
    (hv : v.isCompound = true) : t.ArisesIn disk v := by
  obtain ⟨_, -, h⟩ := Outcome.bind_result_eq_ok.1 h
  have hbuilt := hb r hr
  rcases r with ⟨id, kind⟩
  cases kind with
  | host answer => exact hbuilt.elim
  | labelled label what =>
    simp only [Resolver.answer] at h
    cases hrest : Resolver.rest? label body with
    | none =>
      rw [hrest] at h
      cases h
    | some rest =>
      simp only [hrest] at h
      cases what with
      | host answer => exact hbuilt.elim
      | data table =>
        have htable : t.ArisesIn disk (.table table) := Tree.arisesIn_of_mem_data? hr rfl
        simp only [Resolver.Labelled.answer] at h
        split at h
        · cases h
          exact htable
        · exact htable.get? (Except.ok.inj h)
      | reference =>
        have hrun := Dialogue.run_request (.get (KeyPath.parse rest)) (replies g)
        exact (hreplies g).1 _ v ((congrArg Outcome.result hrun).symm.trans h)
      | call functions =>
        simp only [Resolver.Labelled.answer, Dialogue.run_bind] at h
        obtain ⟨call, hcall, h⟩ := Outcome.bind_result_eq_ok.1 h
        cases hf : functions.lookup call.name with
        | none =>
          rw [hf] at h
          cases h
        | some f =>
          rw [hf] at h
          have hgives : Resolver.HostGives ⟨id, .labelled label (.call functions)⟩ v :=
            ⟨label, functions, body, rest, call, f, rfl, hbody, hrest,
              Outcome.ofExcept_result_eq_ok.1 hcall, hf, Except.ok.inj h⟩
          exact Tree.arisesIn_of_hostGives hr hgives hv
      | inclusion roots =>
        simp only [Resolver.Labelled.answer, Dialogue.run_bind] at h
        obtain ⟨path, -, h⟩ := Outcome.bind_result_eq_ok.1 h
        obtain ⟨u, hu, h⟩ := Outcome.bind_result_eq_ok.1 h
        cases h
        have hrun := Dialogue.run_request (.load path) (replies g)
        have hload : (replies g (.load path)).result = .ok u :=
          (congrArg Outcome.result hrun).symm.trans hu
        exact (hreplies g).2 path u hload

/-- A resolver makes no table or array but those that it answers with. -/
theorem arisesIn_of_process {r : Resolver} (hr : r ∈ t.chain) {g : Guards} {v w : Value}
    (hv : v.isCompound = true → t.ArisesIn disk v) (h : (r.process replies g v).result = .ok w)
    (hw : w.isCompound = true) : t.ArisesIn disk w := by
  cases v with
  | string s =>
    rcases string_or_answer_of_substitute h with ⟨s', rfl⟩ | ⟨body, hbody, hanswer⟩
    · cases hw
    · rw [← String.toList_ofList (l := body)] at hbody
      exact arisesIn_of_ask hb hreplies hr hbody hanswer hw
  | _ =>
    cases h
    exact hv hw

theorem arisesIn_of_settle {chain : List Resolver} (hchain : ∀ r ∈ chain, r ∈ t.chain) {g : Guards}
    {v w : Value} (hv : v.isCompound = true → t.ArisesIn disk v)
    (h : (g.settle replies chain v).result = .ok w) (hw : w.isCompound = true) :
    t.ArisesIn disk w := by
  induction chain generalizing v with
  | nil =>
    cases h
    exact hv hw
  | cons r rest ih =>
    obtain ⟨u, hu, h⟩ := Outcome.bind_result_eq_ok.1 h
    have hr := hchain r List.mem_cons_self
    have hrest : ∀ r ∈ rest, r ∈ t.chain := by
      intro r' hr'
      exact hchain r' (List.mem_cons_of_mem _ hr')
    have hu' : u.isCompound = true → t.ArisesIn disk u := by
      intro hcomp
      exact arisesIn_of_process hb hreplies hr hv hu hcomp
    exact ih hrest hu' h

theorem arisesIn_of_settle_string {g : Guards} {s : String} {w : Value}
    (h : (g.settle replies t.chain (.string s)).result = .ok w) (hw : w.isCompound = true) :
    t.ArisesIn disk w := by
  have hstring : (Value.string s).isCompound = true → t.ArisesIn disk (.string s) := by
    intro hcomp
    cases hcomp
  have hchain : ∀ r ∈ t.chain, r ∈ t.chain := by
    intro r hr
    exact hr
  exact arisesIn_of_settle hb hreplies hchain hstring h hw

end Answers

/-! ### Values -/

theorem Tree.Arises.of_settles {s : String} {v : Value} (h : t.Arises disk s)
    (hv : t.Settles disk s v) (hcomp : v.isCompound = false) : t.ArisesIn disk v := by
  cases v with
  | string s' =>
    intro x hx
    rw [List.mem_singleton.1 hx]
    exact h.rewrite hv
  | array items => cases hcomp
  | table entries => cases hcomp
  | _ =>
    intro x hx
    cases hx

/-- The value that a walk has come to, if there is one. -/
def Tree.ArisesAt (t : Tree) (disk : Disk) (v : Option Value) : Prop :=
  ∀ w, v = some w → t.ArisesIn disk w

section Values

variable (hb : t.IsBuiltIn) {steps : Nat} (hreplies : t.Replying disk (t.reply disk steps))
include hb hreplies

theorem arisesIn_of_expandString {fl : List KeyPath} {room : Nat} {s : String} {v : Value}
    (hs : t.Arises disk s)
    (h : (expandString (t.reply disk steps) t.chain fl room s).result = .ok v) :
    t.ArisesIn disk v := by
  induction room generalizing s v with
  | zero =>
    rcases settle_of_expandString h with ⟨hv, hcomp⟩ | ⟨c, fewer, -, -, hroom, -⟩
    · exact hs.of_settles (settles_of_settle hb hv) hcomp
    · cases hroom
  | succ room ih =>
    rcases settle_of_expandString h with ⟨hv, hcomp⟩ | ⟨c, fewer, hc, hcomp, hroom, htraverse⟩
    · exact hs.of_settles (settles_of_settle hb hv) hcomp
    · cases hroom
      have hstrings : t.ArisesIn disk c :=
        arisesIn_of_settle_string hb hreplies hc hcomp
      refine Value.forall_strings_traverse htraverse ?_
      intro x hx u hu
      exact ih (hstrings x hx) hu

/-- Resolving brings up no strings that do not arise. -/
theorem arisesIn_of_resolve {g : Guards} {v w : Value} (hv : t.ArisesIn disk v)
    (h : (g.resolve (t.reply disk steps) t.chain v).result = .ok w) : t.ArisesIn disk w := by
  refine Value.forall_strings_traverse h ?_
  intro x hx u hu
  exact arisesIn_of_expandString hb hreplies (hv x hx) hu

theorem arisesAt_of_walk {g : Guards} {v w : Option Value} {keys : List String}
    (hv : t.ArisesAt disk v) (h : (g.walk (t.reply disk steps) t v keys).result = .ok w) :
    t.ArisesAt disk w := by
  induction keys generalizing v with
  | nil =>
    obtain rfl : v = w := by cases v <;> exact Except.ok.inj h
    exact hv
  | cons key rest ih =>
    cases v with
    | none =>
      cases h
      exact nofun
    | some v =>
      cases v with
      | table entries => exact ih (fun x hx => (hv _ rfl).get? hx) h
      | string s =>
        obtain ⟨u, hu, h⟩ := Outcome.bind_result_eq_ok.1 h
        have hstrings : t.ArisesIn disk u := arisesIn_of_resolve hb hreplies (hv _ rfl) hu
        cases u with
        | table entries => exact ih (fun x hx => hstrings.get? hx) h
        | _ =>
          cases h
          exact nofun
      | _ =>
        cases h
        exact nofun

theorem arisesAt_of_find {g : Guards} {path : KeyPath} {w : Option Value}
    (h : (g.find (t.reply disk steps) t path).result = .ok w) : t.ArisesAt disk w := by
  have hdata : t.ArisesIn disk (.table t.data) := by
    intro s hs
    exact Tree.arises_of_mem_data hs
  unfold Guards.find at h
  split at h
  · cases h
    rintro _ ⟨⟩
    exact hdata
  · exact arisesAt_of_walk hb hreplies (fun x hx => hdata.get? hx) h

theorem arisesAt_of_read {g : Guards} {path : KeyPath} {w : Option Value}
    (h : (g.read (t.reply disk steps) t path keepAll).result = .ok w) : t.ArisesAt disk w := by
  by_cases hpath : path ∈ g.inFlight
  · rw [Guards.read_of_mem hpath] at h
    cases h
  · rw [Guards.read_of_not_mem hpath] at h
    obtain ⟨v, hv, h⟩ := Outcome.bind_result_eq_ok.1 h
    cases v with
    | none =>
      cases h
      exact nofun
    | some v =>
      obtain ⟨u, hu, h⟩ := Outcome.bind_result_eq_ok.1 h
      cases h
      rintro _ ⟨⟩
      exact arisesIn_of_resolve hb hreplies (arisesAt_of_find hb hreplies hv v rfl) hu

end Values

/-! ### Replies -/

section Replies

variable (hb : t.IsBuiltIn)
include hb

/-- Nor do replies, however deep their questions nest. -/
theorem replying_reply (disk : Disk) (steps : Nat) : t.Replying disk (t.reply disk steps) := by
  induction steps with
  | zero => exact fun _ => ⟨nofun, nofun⟩
  | succ steps ih =>
    intro g
    constructor
    · intro path v h
      exact arisesAt_of_read hb ih h v rfl
    · intro path u h
      exact Tree.arisesIn_of_load h

theorem replying_verdict (disk : Disk) : t.Replying disk (t.verdict disk) := by
  intro g
  constructor
  · intro path v h
    by_cases hex : ∃ w, t.Reads disk path w
    · simp only [Tree.verdict, dif_pos hex] at h
      obtain ⟨g', steps, hread⟩ := hex.choose_spec
      exact arisesAt_of_read hb (replying_reply hb disk steps) hread v (Except.ok.inj h)
    · simp only [Tree.verdict, dif_neg hex] at h
      cases h
  · intro path u h
    exact Tree.arisesIn_of_load h

/-- The chain makes tables and arrays of strings that arise, and they hold such strings again. -/
theorem Tree.Settles.arisesIn {s : String} {v : Value} (h : t.Settles disk s v)
    (hv : v.isCompound = true) : t.ArisesIn disk v :=
  arisesIn_of_settle_string hb (replying_verdict hb disk) h hv

theorem Tree.Becomes.arisesIn {s : String} {v : Value} (hs : t.Arises disk s)
    (h : t.Becomes disk s v) : t.ArisesIn disk v := by
  obtain ⟨g, steps, h⟩ := h
  exact arisesIn_of_expandString hb (replying_reply hb disk steps) hs h

end Replies

/-! ### Strings that open up -/

/-- The string arises, and the chain makes a table or an array of it. -/
def Tree.Unfolds (t : Tree) (disk : Disk) (s : String) : Prop :=
  t.Arises disk s ∧ ∃ c, t.Settles disk s c ∧ c.isCompound = true

/-- What the chain makes a table or an array of, it makes no other string of. -/
theorem eq_of_reflTransGen {s s' : String} {c : Value}
    (h : Relation.ReflTransGen (t.Rewrites disk) s s') (hc : t.Settles disk s c)
    (hcomp : c.isCompound = true) : s = s' := by
  rcases h.cases_head with heq | ⟨next, hnext, -⟩
  · exact heq
  · rw [hc.unique hnext] at hcomp
    cases hcomp

/-- Every text opens up at one string at most. -/
theorem subsingleton_unfolds (t : Tree) (disk : Disk) (text : String) :
    {s | Relation.ReflTransGen (t.Rewrites disk) text s ∧ t.Unfolds disk s}.Subsingleton := by
  rintro s₁ ⟨h₁, -, c₁, hc₁, hcomp₁⟩ s₂ ⟨h₂, -, c₂, hc₂, hcomp₂⟩
  have hright : Relator.RightUnique (t.Rewrites disk) := by
    intro s s' s'' h' h''
    exact Value.string.inj (Tree.Settles.unique h' h'')
  rcases h₁.total_of_right_unique hright h₂ with h | h
  · exact eq_of_reflTransGen h hc₁ hcomp₁
  · exact (eq_of_reflTransGen h hc₂ hcomp₂).symm

/-- From each of the texts that are given the chain leads to one string at most that opens up. -/
theorem Tree.finite_unfolds (hhost : (t.hostTexts disk).Finite) :
    {s | t.Unfolds disk s}.Finite := by
  have htexts : {text | text ∈ t.texts disk ∨ text ∈ t.hostTexts disk}.Finite :=
    (List.finite_toSet _).union hhost
  apply (htexts.biUnion fun text _ => (subsingleton_unfolds t disk text).finite).subset
  intro s hs
  rcases hs.1 with htoken | ⟨text, htext, hpath⟩
  · -- a string without a token stays what it is, and does not open up
    obtain ⟨-, c, hc, hcomp⟩ := hs
    rw [Tree.Settles, Tree.story, settle_of_no_token htoken] at hc
    cases hc
    cases hcomp
  · exact Set.mem_biUnion htext ⟨hpath, hs⟩

end LayeredConfig
