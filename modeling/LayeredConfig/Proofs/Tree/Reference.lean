/-
  LayeredConfig/Proofs/Tree/Reference.lean
  ========================================
  **A token that names another path.**

  In a tree with references only, an entry that is one token naming another path
  is read as that path is (`reference_reads_path`), with two provisos.  The path
  must be the one that its dotted text spells, which a path with a point in a key
  is not.  And the value is handed on to be expanded like that of any other
  token: if it is a table or an array, what is in there is resolved once more.

  The read of the other path is the same within the read of the entry as on its
  own.  If it needed the entry, it would have closed a circle.
-/
import LayeredConfig.Proofs.Lookup.Chain
import LayeredConfig.Proofs.Tree.Around

namespace LayeredConfig

/-! ### Stored values -/

theorem walk_of_at? {replies : Replies} {t : Tree} {g : Guards} {v w : Value} {keys : List String}
    (h : v.at? keys = some w) : g.walk replies t (some v) keys = pure (some w) := by
  induction keys generalizing v with
  | nil =>
    rw [Value.at?] at h
    cases h
    rfl
  | cons key rest ih =>
    cases v with
    | table entries =>
      rw [Value.at?] at h
      rw [Guards.walk]
      cases hv : Table.get? entries key with
      | none =>
        rw [hv] at h
        cases h
      | some v =>
        rw [hv] at h
        exact ih h
    | _ => cases h

/-- A value without tokens is resolved to itself. -/
theorem resolve_of_no_token {replies : Replies} {chain : List Resolver} {g : Guards} {v : Value}
    (h : ∀ s ∈ v.strings, ¬ Template.HasToken s) : (g.resolve replies chain v).result = .ok v := by
  have hexpand : ∀ s ∈ v.strings,
      (expandString replies chain g.inFlight g.room s).result = .ok (.string (id s)) := by
    intro s hs
    rw [expandString_of_no_token (h s hs)]
    rfl
  have hself : v.mapStrings id = v := Value.mapStrings_eq_self fun _ _ => rfl
  rw [Guards.resolve, Value.traverse_eq_mapStrings hexpand, hself]

/-! ### References -/

/-- References are all that the tree resolves, and the string that it holds at the path `a` is a
    token with the dotted text of the path `b`. -/
structure Tree.Names (t : Tree) (id : Nat) (label : String) (a b : KeyPath) (s : String) :
    Prop where
  chain_eq : t.chain = [⟨id, .labelled label .reference⟩]
  stored : t.data.at? a.segments = some (.string s)
  whole : ∃ body, Template.wholeToken? s.toList = some body ∧
    String.ofList (Text.trim body) = label ++ ":" ++ b.display

/-- The dotted text spells the path that it is the text of. -/
structure Tree.RefersTo (t : Tree) (id : Nat) (label : String) (a b : KeyPath) (s : String) : Prop
    extends t.Names id label a b s where
  parse : KeyPath.parse (String.ofList (Text.trim b.display.toList)) = b

namespace Tree.RefersTo

variable {t : Tree} {id : Nat} {label : String} {a b : KeyPath} {s : String}
  (h : t.RefersTo id label a b s)
include h

theorem isBuiltIn : t.IsBuiltIn := by
  intro r hr
  rw [h.chain_eq] at hr
  rw [List.mem_singleton.1 hr]
  trivial

/-- The resolver passes on what is at the path. -/
theorem ask_eq (replies : Replies) (g : Guards) {body : List Char}
    (hbody : String.ofList (Text.trim body) = label ++ ":" ++ b.display) :
    ((⟨id, .labelled label .reference⟩ : Resolver).ask replies g
      (String.ofList (Text.trim body))).result = (replies g (.get b)).result := by
  have hprefix : Text.dropPrefix? (label.toList ++ [':']) (label ++ ":" ++ b.display).toList =
      some b.display.toList := by
    rw [Text.dropPrefix?_eq_some]
    simp
  have hrest : Resolver.rest? label (String.ofList (Text.trim body)) =
      some (String.ofList (Text.trim b.display.toList)) := by
    rw [hbody, Resolver.rest?, hprefix, Option.map_some]
  rw [Resolver.ask_result]
  simp only [Resolver.answer, hrest, Resolver.Labelled.answer]
  rw [h.parse]
  exact congrArg Outcome.result (Dialogue.run_request (.get b) (replies g))

theorem settle_of_ok {replies : Replies} {g : Guards} {v : Value}
    (hv : (replies g (.get b)).result = .ok (some v)) (htruthy : v.isTruthy = true) :
    (g.settle replies t.chain (.string s)).result = .ok v := by
  obtain ⟨body, hwhole, hbody⟩ := h.whole
  have hask := (h.ask_eq replies g hbody).trans hv
  rw [h.chain_eq, Guards.settle, process_of_whole hwhole]
  refine Outcome.bind_result_eq_ok.2 ⟨v, Outcome.bind_result_eq_ok.2 ⟨_, hask, ?_⟩, rfl⟩
  rw [Option.filter_some, if_pos htruthy]
  rfl

theorem settle_of_error {replies : Replies} {g : Guards} {halt : Halt}
    (hhalt : (replies g (.get b)).result = .error halt) :
    (g.settle replies t.chain (.string s)).result = .error halt := by
  obtain ⟨body, hwhole, hbody⟩ := h.whole
  have hask := (h.ask_eq replies g hbody).trans hhalt
  rw [h.chain_eq, Guards.settle, process_of_whole hwhole, Outcome.bind_of_error hask,
    Outcome.bind_of_error rfl]

theorem find_eq (replies : Replies) (g : Guards) :
    g.find replies t a = pure (some (.string s)) := by
  rw [find_eq_walk]
  exact walk_of_at? h.stored

/-- Where the path is in flight, the entry has no value. -/
theorem body_ne_ok (disk : Disk) (steps : Nat) {g : Guards} (hb : b ∈ g.inFlight)
    (answer : Option Value) : (g.body (t.reply disk steps) t a keepAll).result ≠ .ok answer := by
  have hreply : ∃ halt, (t.reply disk steps g (.get b)).result = .error halt := by
    cases steps with
    | zero => exact ⟨_, rfl⟩
    | succ steps =>
      refine ⟨.failed (g.cycle (.path b)), ?_⟩
      exact congrArg Outcome.result (Guards.read_of_mem hb keepAll)
  obtain ⟨halt, hhalt⟩ := hreply
  have hfind : (g.find (t.reply disk steps) t a).result = .ok (some (.string s)) := by
    rw [h.find_eq]
    rfl
  rw [body_of_find_some hfind, resolve_of_error (h.settle_of_error hhalt)]
  exact nofun

/-- The path is read within the entry as on its own. -/
theorem read_in_flight (disk : Disk) {steps more : Nat} (hle : steps ≤ more) {v : Value}
    (hv : (t.getWithin disk b steps).result = .ok (some v)) :
    ((Guards.fresh.enter a).read (t.reply disk more) t b keepAll).result = .ok (some v) := by
  have hb := h.isBuiltIn
  have hmore : (t.getWithin disk b more).result = .ok (some v) :=
    (steady_read hb disk b).ok (Guards.le_refl _) hle hv
  rw [getWithin_result] at hmore
  have hne : b ∉ (Guards.fresh.enter a).inFlight := by
    intro hmem
    obtain rfl := List.mem_singleton.1 hmem
    exact h.body_ne_ok disk more List.mem_cons_self _ hmore
  have hbeside : (Guards.fresh.enter b).Beside a ((Guards.fresh.enter a).enter b) :=
    (Guards.Beside.of_enter Guards.fresh a).enter b
  rw [Guards.read_of_not_mem hne]
  by_cases hq : .opened a ∈ ((Guards.fresh.enter b).body (t.reply disk more) t b keepAll).journal
  · -- the entry was read on the way, where the path was in flight
    obtain ⟨inner, steps', hinner, -, hend⟩ :=
      (invariant_nested t disk more a).body hb (Nat.le_refl more) b keepAll hq
    have hmem : b ∈ inner.inFlight := hinner.inFlight List.mem_cons_self
    rcases hend with ⟨answer, hanswer⟩ | ⟨halt, -, hhalt⟩
    · by_cases ha : a ∈ inner.inFlight
      · rw [Guards.read_of_mem ha] at hanswer
        cases hanswer
      · rw [Guards.read_of_not_mem ha] at hanswer
        exact absurd hanswer (h.body_ne_ok disk steps' (List.mem_cons_of_mem _ hmem) answer)
    · rw [hmore] at hhalt
      cases hhalt
  · exact ((lockstep_beside t disk a).body hb hbeside b keepAll hq).ok hmore

end Tree.RefersTo

/-- **A reference reads the other path.** -/
theorem reference_reads_path {t : Tree} {id : Nat} {label : String} {a b : KeyPath} {s : String}
    (h : t.RefersTo id label a b s) (disk : Disk) {steps : Nat} {v : Value}
    (hv : (t.getWithin disk b steps).result = .ok (some v)) (htruthy : v.isTruthy = true) :
    ∀ more, steps < more →
      (v.isCompound = false → (t.getWithin disk a more).result = .ok (some v)) ∧
      (v.isCompound = true → (t.getWithin disk a more).result =
        ((⟨[a], maxDepth - 1⟩ : Guards).resolve (t.reply disk more) t.chain v).result.map some) ∧
      ((∀ text ∈ v.strings, ¬ Template.HasToken text) →
        (t.getWithin disk a more).result = .ok (some v)) := by
  intro more hlt
  obtain ⟨more, rfl⟩ := Nat.exists_eq_succ_of_ne_zero (Nat.ne_zero_of_lt hlt)
  let g := Guards.fresh.enter a
  have hreply : (t.reply disk (more + 1) g (.get b)).result = .ok (some v) :=
    h.read_in_flight disk (Nat.le_of_lt_succ hlt) hv
  have hsettle : (g.settle (t.reply disk (more + 1)) t.chain (.string s)).result = .ok v :=
    h.settle_of_ok hreply htruthy
  have hget : (t.getWithin disk a (more + 1)).result =
      (g.resolve (t.reply disk (more + 1)) t.chain (.string s)).result.map some := by
    rw [getWithin_result, body_of_find_some]
    rw [h.find_eq]
    rfl
  have hplain : v.isCompound = false → (t.getWithin disk a (more + 1)).result = .ok (some v) := by
    intro hcomp
    rw [hget, show (g.resolve (t.reply disk (more + 1)) t.chain (.string s)).result = .ok v from
      expandString_of_settle hsettle hcomp]
    rfl
  have hexpanded : v.isCompound = true → (t.getWithin disk a (more + 1)).result =
      ((⟨[a], maxDepth - 1⟩ : Guards).resolve (t.reply disk (more + 1)) t.chain v).result.map
        some := by
    intro hcomp
    have hunfold : g.resolve (t.reply disk (more + 1)) t.chain (.string s) =
        g.settle (t.reply disk (more + 1)) t.chain (.string s) >>= fun v =>
          if v.isCompound then Outcome.between .unfolded .folded
            ((⟨[a], maxDepth - 1⟩ : Guards).resolve (t.reply disk (more + 1)) t.chain v)
          else return v := rfl
    rw [hget, hunfold, Outcome.bind_of_ok hsettle, if_pos hcomp]
    rfl
  refine ⟨hplain, hexpanded, ?_⟩
  intro htokens
  cases hcomp : v.isCompound with
  | false => exact hplain hcomp
  | true =>
    rw [hexpanded hcomp, resolve_of_no_token htokens]
    rfl

namespace Referring

/-- What `b` is read as has a token; what `d` is read as has none.  The path that `e` is meant to
    name has a point in its key. -/
def tree : Tree where
  data := [
    ("a", .string "\x7b\x7b config:b \x7d\x7d"),
    ("b", .table [("k", .string "\x7b\x7b config:\x7b\x7b config:x \x7d\x7d \x7d\x7d")]),
    ("c", .string "\x7b\x7b config:d \x7d\x7d"),
    ("d", .table [("k", .string "\x7b\x7b config:y \x7d\x7d")]),
    ("e", .string "\x7b\x7b config:x.y \x7d\x7d"),
    ("x", .string "y"),
    ("x.y", .integer 2),
    ("y", .integer 1)]
  chain := [⟨0, .labelled Resolver.referenceLabel .reference⟩]
  loader := Loader.empty

theorem names {a : String} {s : String} {b : KeyPath} (body : List Char)
    (hstored : tree.data.at? [a] = some (.string s))
    (hwhole : Template.wholeToken? s.toList = some body)
    (hbody : String.ofList (Text.trim body) = Resolver.referenceLabel ++ ":" ++ b.display) :
    tree.Names 0 Resolver.referenceLabel ⟨[a]⟩ b s :=
  ⟨rfl, hstored, body, hwhole, hbody⟩

theorem a_refersTo_b : tree.RefersTo 0 Resolver.referenceLabel ⟨["a"]⟩ ⟨["b"]⟩
    "\x7b\x7b config:b \x7d\x7d" where
  toNames := names " config:b ".toList (by cbv) (by cbv) (by cbv)
  parse := by cbv

theorem c_refersTo_d : tree.RefersTo 0 Resolver.referenceLabel ⟨["c"]⟩ ⟨["d"]⟩
    "\x7b\x7b config:d \x7d\x7d" where
  toNames := names " config:d ".toList (by cbv) (by cbv) (by cbv)
  parse := by cbv

/-- The one table is taken over, the other one is resolved once more. -/
theorem references_read :
    (tree.getWithin [] ⟨["d"]⟩ 3).result = .ok (some (.table [("k", .integer 1)])) ∧
      (tree.getWithin [] ⟨["c"]⟩ 4).result = .ok (some (.table [("k", .integer 1)])) ∧
      (tree.getWithin [] ⟨["b"]⟩ 3).result =
        .ok (some (.table [("k", .string "\x7b\x7b config:y \x7d\x7d")])) ∧
      (tree.getWithin [] ⟨["a"]⟩ 4).result = .ok (some (.table [("k", .integer 1)])) := by
  have hd : (tree.getWithin [] ⟨["d"]⟩ 3).result = .ok (some (.table [("k", .integer 1)])) := by cbv
  have hb : (tree.getWithin [] ⟨["b"]⟩ 3).result =
      .ok (some (.table [("k", .string "\x7b\x7b config:y \x7d\x7d")])) := by cbv
  obtain ⟨-, -, hc⟩ := reference_reads_path c_refersTo_d [] hd rfl 4 (Nat.lt_succ_self 3)
  obtain ⟨-, ha, -⟩ := reference_reads_path a_refersTo_b [] hb rfl 4 (Nat.lt_succ_self 3)
  refine ⟨hd, hc ?_, hb, ?_⟩
  · intro text htext
    cases htext
  · rw [ha rfl]
    cbv

/-- **A reference can read something else**: a table with a token resolved that the other path has
    left, and nothing at all where a key has a point. -/
theorem reads_something_else :
    (tree.Names 0 Resolver.referenceLabel ⟨["a"]⟩ ⟨["b"]⟩ "\x7b\x7b config:b \x7d\x7d" ∧
      (tree.get [] ⟨["b"]⟩).result =
        .ok (some (.table [("k", .string "\x7b\x7b config:y \x7d\x7d")])) ∧
      (tree.get [] ⟨["a"]⟩).result = .ok (some (.table [("k", .integer 1)]))) ∧
    (tree.Names 0 Resolver.referenceLabel ⟨["e"]⟩ ⟨["x.y"]⟩ "\x7b\x7b config:x.y \x7d\x7d" ∧
      (tree.get [] ⟨["x.y"]⟩).result = .ok (some (.integer 2)) ∧
      (tree.get [] ⟨["e"]⟩).result = .ok (some (.string "\x7b\x7b config:x.y \x7d\x7d"))) := by
  refine ⟨⟨a_refersTo_b.toNames, ?_, ?_⟩, ⟨?_, ?_, ?_⟩⟩
  · cbv
  · cbv
  · exact names " config:x.y ".toList (by cbv) (by cbv) (by cbv)
  · cbv
  · cbv

end Referring

end LayeredConfig
