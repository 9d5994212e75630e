/-
  LayeredConfig/Proofs/Tree/Declined.lean
  =======================================
  **Tokens that nobody answers.**

  A tree is still read if its resolvers decline all tokens that they are shown.
  Every value is then read as it is stored, but for the blanks in tokens that
  stand within longer texts (`declined_reads`).  That comes of two facts: the
  tokens of a text written back are those that it had (`pieces_respace`), and
  so it is written back the same way by however many resolvers.
-/
import LayeredConfig.Proofs.Lookup.Rendering
import LayeredConfig.Proofs.Tree.Around
import LayeredConfig.Proofs.Value.Strings

namespace LayeredConfig

/-! ### Texts -/

namespace Template

/-- The text as it is left by resolvers that decline: one token stays as it is, and in any other
    text the tokens are written back. -/
def respaced (text : String) : String :=
  match wholeToken? text.toList with
  | some _ => text
  | none => String.ofList (respace text.toList)

theorem respaced_of_whole {text : String} {body : List Char}
    (h : wholeToken? text.toList = some body) : respaced text = text := by
  rw [respaced, h]

theorem respaced_of_inline {text : String} (h : wholeToken? text.toList = none) :
    respaced text = String.ofList (respace text.toList) := by
  rw [respaced, h]

theorem pieces_respaced {text : String} (h : wholeToken? text.toList = none) :
    pieces (respaced text).toList = (pieces text.toList).map Piece.respace := by
  rw [respaced_of_inline h, String.toList_ofList, pieces_respace]

theorem respaced_of_no_token {text : String} (h : ¬ HasToken text) : respaced text = text := by
  cases hw : wholeToken? text.toList with
  | some body => exact respaced_of_whole hw
  | none =>
    have hpieces : (pieces text.toList).map Piece.respace = pieces text.toList := by
      refine (List.map_congr_left fun p hp => ?_).trans (List.map_id _)
      cases p with
      | char c => rfl
      | token body => exact absurd (hasToken_iff.2 ⟨body, hp⟩) h
    rw [respaced_of_inline hw, respace, hpieces, source_pieces, String.ofList_toList]

theorem bodies_respaced (text : String) :
    bodies (pieces (respaced text).toList) = bodies (pieces text.toList) := by
  cases hw : wholeToken? text.toList with
  | some body => rw [respaced_of_whole hw]
  | none => rw [pieces_respaced hw, bodies_map_respace]

theorem respaced_respaced (text : String) : respaced (respaced text) = respaced text := by
  cases hw : wholeToken? text.toList with
  | some body => rw [respaced_of_whole hw, respaced_of_whole hw]
  | none =>
    have hinline : wholeToken? (String.ofList (respace text.toList)).toList = none := by
      rw [String.toList_ofList]
      exact wholeToken?_respace hw
    rw [respaced_of_inline hw, respaced_of_inline hinline, String.toList_ofList, respace_respace]

/-- Replacing the tokens of a text leaves it respaced if none is answered. -/
theorem substitute_of_declined {answer : String → Outcome (Option Value)} {text : String}
    (h : ∀ body ∈ bodies (pieces text.toList), (answer body).result = .ok none) :
    (substitute answer text).result = .ok (.string (respaced text)) := by
  cases hw : wholeToken? text.toList with
  | some body =>
    rw [respaced_of_whole hw, substitute_of_whole hw]
    exact Outcome.bind_result_eq_ok.2 ⟨none, h _ (mem_bodies_of_whole hw), rfl⟩
  | none =>
    have hanswers : List.Forall₂ (fun body a => (answer body).result = .ok a)
        (bodies (pieces text.toList)) ((bodies (pieces text.toList)).map fun _ => none) := by
      rw [List.forall₂_map_right_iff]
      exact List.forall₂_same.2 h
    refine (substitute_of_inline hw).2 ⟨_, hanswers, ?_⟩
    rw [respaced_of_inline hw, respace, ← source_fillPieces,
      fillPieces_of_forall_none (List.length_map _)]
    intro answer hanswer
    obtain ⟨-, -, rfl⟩ := List.mem_map.1 hanswer
    rfl

end Template

/-! ### Values -/

/-- The resolvers decline all tokens of the text. -/
def Guards.Declines (replies : Replies) (chain : List Resolver) (g : Guards) (text : String) :
    Prop :=
  ∀ r ∈ chain, ∀ body ∈ Template.bodies (Template.pieces text.toList),
    (r.ask replies g body).result = .ok none

section Declining

variable {replies : Replies} {chain : List Resolver} {g : Guards}

theorem Guards.Declines.respaced {text : String} (h : g.Declines replies chain text) :
    g.Declines replies chain (Template.respaced text) := by
  intro r hr body hbody
  rw [Template.bodies_respaced] at hbody
  exact h r hr body hbody

section Chain

variable {text : String} {r : Resolver}

theorem Guards.Declines.tail (h : g.Declines replies (r :: chain) text) :
    g.Declines replies chain text := by
  intro r' hr'
  exact h r' (List.mem_cons_of_mem _ hr')

theorem Guards.Declines.process (h : g.Declines replies (r :: chain) text) :
    (r.process replies g (.string text)).result = .ok (.string (Template.respaced text)) :=
  Template.substitute_of_declined (h r List.mem_cons_self)

theorem settle_of_respaced (h : g.Declines replies chain text)
    (hrest : Template.respaced text = text) :
    (g.settle replies chain (.string text)).result = .ok (.string text) := by
  induction chain with
  | nil => rfl
  | cons r rest ih =>
    have hr := h.process
    rw [hrest] at hr
    exact Outcome.bind_result_eq_ok.2 ⟨_, hr, ih h.tail⟩

/-- The first resolver writes the tokens back, and the others find nothing to change. -/
theorem settle_of_declined (hchain : chain ≠ []) (h : g.Declines replies chain text) :
    (g.settle replies chain (.string text)).result = .ok (.string (Template.respaced text)) := by
  cases chain with
  | nil => exact absurd rfl hchain
  | cons r rest =>
    have hrest := settle_of_respaced h.tail.respaced (Template.respaced_respaced text)
    exact Outcome.bind_result_eq_ok.2 ⟨_, h.process, hrest⟩

end Chain

theorem expandString_of_declined {text : String} (hchain : chain ≠ [])
    (h : g.Declines replies chain text) :
    (expandString replies chain g.inFlight g.room text).result =
      .ok (.string (Template.respaced text)) := by
  obtain ⟨fl, room⟩ := g
  cases room with
  | zero => exact Outcome.bind_result_eq_ok.2 ⟨_, settle_of_declined hchain h, rfl⟩
  | succ room => exact Outcome.bind_result_eq_ok.2 ⟨_, settle_of_declined hchain h, rfl⟩

theorem resolve_of_declined {v : Value} (hchain : chain ≠ [])
    (h : ∀ s ∈ v.strings, g.Declines replies chain s) :
    (g.resolve replies chain v).result = .ok (v.mapStrings Template.respaced) :=
  Value.traverse_eq_mapStrings fun s hs => expandString_of_declined hchain (h s hs)

/-- What was read is not changed by reading it once more. -/
theorem resolve_again_of_declined {v : Value} (hchain : chain ≠ [])
    (h : ∀ s ∈ v.strings, g.Declines replies chain s) :
    (g.resolve replies chain (v.mapStrings Template.respaced)).result =
      .ok (v.mapStrings Template.respaced) := by
  have hagain := resolve_of_declined hchain
    (Value.forall_strings_mapStrings fun s hs => (h s hs).respaced)
  rwa [Value.mapStrings_mapStrings Template.respaced_respaced] at hagain

end Declining

/-! ### Reads -/

/-- The strings on the way along a path, and in the value at its end. -/
def Value.along : Value → List String → List String
  | v, [] => v.strings
  | .table entries, key :: rest =>
    match Table.get? entries key with
    | some v => v.along rest
    | none => []
  | .string s, _ :: _ => [s]
  | _, _ :: _ => []

section Reads

variable {replies : Replies} {t : Tree} {g : Guards}

theorem Value.along_of_at? {v w : Value} {keys : List String} (h : v.at? keys = some w) :
    v.along keys = w.strings := by
  induction keys generalizing v with
  | nil =>
    obtain rfl : v = w := by simpa [Value.at?] using h
    rw [Value.along]
  | cons key rest ih =>
    cases v with
    | table entries =>
      rw [Value.at?] at h
      rw [Value.along]
      cases hv : Table.get? entries key with
      | none =>
        rw [hv] at h
        cases h
      | some v =>
        rw [hv] at h
        exact ih h
    | _ => cases h

theorem Value.along_subset (v : Value) (keys : List String) : v.along keys ⊆ v.strings := by
  induction keys generalizing v with
  | nil =>
    rw [Value.along]
    exact List.Subset.refl _
  | cons key rest ih =>
    cases v with
    | string s => exact List.Subset.refl _
    | table entries =>
      rw [Value.along]
      cases hv : Table.get? entries key with
      | none => exact List.nil_subset _
      | some v => exact List.Subset.trans (ih v) (Table.strings_of_get? hv)
    | _ => exact List.nil_subset _

/-- The way leads through stored tables only: a string that is met does not become a table. -/
theorem walk_of_declined (hchain : t.chain ≠ []) {v : Value} {keys : List String}
    (h : ∀ s ∈ v.along keys, g.Declines replies t.chain s) :
    (g.walk replies t (some v) keys).result = .ok (v.at? keys) := by
  induction keys generalizing v with
  | nil =>
    rw [Value.at?]
    rfl
  | cons key rest ih =>
    cases v with
    | string s =>
      -- it is resolved to a string, with nothing below
      have hs : (g.resolve replies t.chain (.string s)).result =
          .ok (.string (Template.respaced s)) :=
        expandString_of_declined hchain (h s List.mem_cons_self)
      exact Outcome.bind_result_eq_ok.2 ⟨_, hs, rfl⟩
    | table entries =>
      rw [Value.along] at h
      rw [Guards.walk, Value.at?]
      cases hv : Table.get? entries key with
      | none => cases rest <;> rfl
      | some v =>
        rw [hv] at h
        exact ih h
    | _ => rfl

theorem find_of_declined (hchain : t.chain ≠ []) {path : KeyPath}
    (h : ∀ s ∈ (Value.table t.data).along path.segments, g.Declines replies t.chain s) :
    (g.find replies t path).result = .ok (t.data.at? path.segments) := by
  rw [find_eq_walk]
  exact walk_of_declined hchain h

theorem body_of_declined (hchain : t.chain ≠ []) {path : KeyPath} (keep : Value → Bool)
    (h : ∀ s ∈ (Value.table t.data).along path.segments, g.Declines replies t.chain s) :
    (g.body replies t path keep).result =
      .ok (((t.data.at? path.segments).filter keep).map (Value.mapStrings Template.respaced)) := by
  rw [Guards.body, Outcome.bind_of_ok (find_of_declined hchain h)]
  cases hv : t.data.at? path.segments with
  | none => rfl
  | some v =>
    have hresolve : (g.resolve replies t.chain v).result =
        .ok (v.mapStrings Template.respaced) := by
      rw [Value.along_of_at? hv] at h
      exact resolve_of_declined hchain h
    by_cases hkeep : keep v
    · simp only [hkeep, if_true, Option.filter_some, Option.map_some]
      exact Outcome.bind_result_eq_ok.2 ⟨_, hresolve, rfl⟩
    · simp only [hkeep, Option.filter_some]
      rfl

theorem read_of_declined (hchain : t.chain ≠ []) {path : KeyPath} (keep : Value → Bool)
    (h : ∀ s ∈ (Value.table t.data).along path.segments,
      (Guards.fresh.enter path).Declines replies t.chain s) :
    (Guards.fresh.read replies t path keep).result =
      .ok (((t.data.at? path.segments).filter keep).map (Value.mapStrings Template.respaced)) := by
  rw [Guards.read_of_not_mem List.not_mem_nil]
  exact body_of_declined hchain keep h

end Reads

/-- **What nobody answers is read as it is stored.**  If the resolvers of a chain, at least one,
    decline the tokens that they are shown in a read, it comes to the stored value, where all
    strings but those that are one token are respaced; none is found below anything but a stored
    table.  Running the chain over such a value leaves it as it is.

    To respace a text changes the tokens in it to have one blank on either side of the body, and
    nothing else. -/
theorem declined_reads {t : Tree} (hchain : t.chain ≠ []) (disk : Disk) (steps : Nat) :
    (∀ path : KeyPath,
      let g := Guards.fresh.enter path
      let stored := t.data.at? path.segments
      (∀ s ∈ (Value.table t.data).along path.segments, g.Declines (t.reply disk steps) t.chain s) →
        (t.getWithin disk path steps).result =
            .ok (stored.map (Value.mapStrings Template.respaced)) ∧
          (∀ default, (t.getOrWithin disk path default steps).result =
            .ok (((stored.filter Value.isTruthy).map
              (Value.mapStrings Template.respaced)).getD default)) ∧
          ∀ v, stored.map (Value.mapStrings Template.respaced) = some v →
            (g.resolve (t.reply disk steps) t.chain v).result = .ok v) ∧
    ((∀ s ∈ t.data.strings, Guards.fresh.Declines (t.reply disk steps) t.chain s) →
      (t.allWithin disk steps).result = .ok (t.data.mapStrings Template.respaced) ∧
        (Guards.fresh.resolveTable (t.reply disk steps) t.chain
          (t.data.mapStrings Template.respaced)).result =
            .ok (t.data.mapStrings Template.respaced)) ∧
    (∀ s body, Template.wholeToken? s.toList = some body → Template.respaced s = s) ∧
    (∀ s, ¬ Template.HasToken s → Template.respaced s = s) ∧
    (∀ s, Template.wholeToken? s.toList = none →
      Template.pieces (Template.respaced s).toList =
        (Template.pieces s.toList).map Template.Piece.respace) := by
  refine ⟨?_, ?_, ?_, ?_, ?_⟩
  · intro path g stored h
    refine ⟨?_, ?_, ?_⟩
    · have hstored : stored.filter keepAll = stored := by cases stored <;> rfl
      have hread := read_of_declined hchain keepAll h
      rwa [hstored] at hread
    · intro default
      have hread := read_of_declined hchain Value.isTruthy h
      exact Outcome.bind_result_eq_ok.2 ⟨_, hread, rfl⟩
    · intro v hv
      obtain ⟨w, hw, rfl⟩ := Option.map_eq_some_iff.1 hv
      rw [Value.along_of_at? hw] at h
      exact resolve_again_of_declined hchain h
  · intro h
    have hdeclines : ∀ s ∈ (Value.table t.data).strings,
        Guards.fresh.Declines (t.reply disk steps) t.chain s := h
    constructor
    · obtain ⟨out, hout, heq⟩ := resolve_table_eq_ok.1 (resolve_of_declined hchain hdeclines)
      cases heq
      exact hout
    · obtain ⟨out, hout, heq⟩ := resolve_table_eq_ok.1 (resolve_again_of_declined hchain hdeclines)
      cases heq
      exact hout
  · intro s body h
    exact Template.respaced_of_whole h
  · intro s h
    exact Template.respaced_of_no_token h
  · intro s h
    exact Template.pieces_respaced h

namespace Unanswered

/-- Tokens of other labels than the chain knows, at every depth. -/
def data : Table :=
  [("text", .string "\x7b \x7b\x7bx:a\x7d\x7d \x7b\x7b  y:b \x7d\x7d\x7d"),
    ("whole", .string " \x7b\x7bx:a\x7d\x7d "),
    ("deep", .table [("items", .array [.string "\x7b\x7bx:a\x7d\x7d.", .integer 1])])]

def tree : Tree where
  data := data
  chain := [⟨0, .labelled Resolver.dataLabel (.data [])⟩,
    ⟨1, .labelled Resolver.referenceLabel .reference⟩]
  loader := Loader.empty

/-- A resolver declines a token that does not bear its label. -/
theorem declines (replies : Replies) (g : Guards) :
    ∀ s ∈ data.strings, g.Declines replies tree.chain s := by
  have hbodies : ∀ s ∈ data.strings, ∀ body ∈ Template.bodies (Template.pieces s.toList),
      body = "x:a" ∨ body = "y:b" := by
    have hall : data.strings.flatMap (fun s => Template.bodies (Template.pieces s.toList)) =
        ["x:a", "y:b", "x:a", "x:a"] := by cbv
    intro s hs body hbody
    have hin : body ∈ data.strings.flatMap fun s => Template.bodies (Template.pieces s.toList) :=
      List.mem_flatMap.2 ⟨s, hs, hbody⟩
    rw [hall] at hin
    simp only [List.mem_cons, List.not_mem_nil, or_false] at hin
    tauto
  intro s hs r hr body hbody
  rcases List.mem_pair.1 hr with rfl | rfl
  · apply Resolver.ask_of_rest?_eq_none rfl
    rcases hbodies s hs body hbody with rfl | rfl <;> cbv
  · apply Resolver.ask_of_rest?_eq_none rfl
    rcases hbodies s hs body hbody with rfl | rfl <;> cbv

/-- Only tokens within longer texts are changed. -/
theorem unanswered_reads :
    (tree.getWithin [] ⟨["text"]⟩ 1).result =
        .ok (some (.string "\x7b \x7b\x7b x:a \x7d\x7d \x7b\x7b y:b \x7d\x7d\x7d")) ∧
      (tree.getOrWithin [] ⟨["text", "below"]⟩ (.integer 1) 1).result = .ok (.integer 1) ∧
      (tree.allWithin [] 1).result = .ok
        [("text", .string "\x7b \x7b\x7b x:a \x7d\x7d \x7b\x7b y:b \x7d\x7d\x7d"),
          ("whole", .string " \x7b\x7bx:a\x7d\x7d "),
          ("deep", .table [("items", .array [.string "\x7b\x7b x:a \x7d\x7d.", .integer 1])])] := by
  have hchain : tree.chain ≠ [] := List.cons_ne_nil _ _
  obtain ⟨hpaths, hall, -⟩ := declined_reads hchain [] 1
  have hdeclines : ∀ path : KeyPath, ∀ s ∈ (Value.table tree.data).along path.segments,
      (Guards.fresh.enter path).Declines (tree.reply [] 1) tree.chain s := by
    intro path s hs
    exact declines _ _ s (Value.along_subset _ _ hs)
  refine ⟨?_, ?_, ?_⟩
  · obtain ⟨hget, -, -⟩ := hpaths ⟨["text"]⟩ (hdeclines _)
    rw [hget]
    cbv
  · obtain ⟨-, hgetOr, -⟩ := hpaths ⟨["text", "below"]⟩ (hdeclines _)
    rw [hgetOr]
    cbv
  · obtain ⟨hdata, -⟩ := hall (declines _ _)
    rw [hdata]
    cbv

end Unanswered

end LayeredConfig
