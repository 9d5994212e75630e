/-
  LayeredConfig/Proofs/Tree/FinitePaths.lean
  ==========================================
  **Every read comes back.**

  A read resolves the strings of the data, those in the tables and arrays that the
  chain makes of a string, and those in the tables that a string on the way to a
  path becomes.  If the host puts finitely many texts with tokens into what its
  functions answer and its parsers find, these strings are finitely many
  (`Tree.finite_meets`), and so are the paths that are asked for on their behalf
  (`Tree.finite_asked`), although the names of paths are put together from the
  output of other tokens and strings are resolved again at every step of a path.

  Since no path is read while it is being read, every read then comes back
  (`every_read_comes_back`).
-/
import LayeredConfig.Proofs.Lookup.HostTexts
import LayeredConfig.Proofs.Tree.Ending
import Mathlib

namespace LayeredConfig

variable {t : Tree} {disk : Disk}

/-! ### Strings that are met -/

/-- A read can come to resolve the string. -/
def Tree.Meets (t : Tree) (disk : Disk) (s : String) : Prop :=
  s ∈ Table.strings t.data ∨
    (∃ s₀ c, t.Unfolds disk s₀ ∧ t.Settles disk s₀ c ∧ s ∈ c.strings) ∨
      ∃ s₀ v, t.Unfolds disk s₀ ∧ t.Becomes disk s₀ v ∧ s ∈ v.strings

def Tree.MeetsIn (t : Tree) (disk : Disk) (v : Value) : Prop := ∀ s ∈ v.strings, t.Meets disk s

theorem Tree.MeetsIn.get? {entries : Table} (h : t.MeetsIn disk (.table entries)) {key : String}
    {v : Value} (hv : entries.get? key = some v) : t.MeetsIn disk v := by
  intro s hs
  exact h s (Table.strings_of_get? hv hs)

theorem Tree.meetsIn_data (t : Tree) (disk : Disk) : t.MeetsIn disk (.table t.data) := by
  intro s hs
  exact .inl hs

/-- The strings in a value that is determined are finitely many. -/
theorem finite_strings {P : Value → Prop} (hP : ∀ v w, P v → P w → v = w) :
    {s | ∃ v, P v ∧ s ∈ v.strings}.Finite := by
  by_cases hex : ∃ v, P v
  · obtain ⟨v, hv⟩ := hex
    refine (List.finite_toSet v.strings).subset ?_
    rintro s ⟨w, hw, hs⟩
    rw [hP v w hv hw]
    exact hs
  · refine Set.finite_empty.subset ?_
    rintro s ⟨v, hv, -⟩
    exact hex ⟨v, hv⟩

/-- Strings are met in the data and in what finitely many strings open up to. -/
theorem Tree.finite_meets (hb : t.IsBuiltIn) (hhost : (t.hostTexts disk).Finite) :
    {s | t.Meets disk s}.Finite := by
  have hunfolds := Tree.finite_unfolds hhost
  have hdata : {s | s ∈ Table.strings t.data}.Finite := List.finite_toSet _
  have hmade : ∀ s₀, {s | ∃ c, t.Settles disk s₀ c ∧ s ∈ c.strings}.Finite := by
    intro s₀
    apply finite_strings
    intro v w hv hw
    exact hv.unique hw
  have hbecome : ∀ s₀, {s | ∃ v, t.Becomes disk s₀ v ∧ s ∈ v.strings}.Finite := by
    intro s₀
    apply finite_strings
    intro v w hv hw
    exact hv.unique hb hw
  have hmade' := hunfolds.biUnion fun s₀ _ => hmade s₀
  have hbecome' := hunfolds.biUnion fun s₀ _ => hbecome s₀
  apply (hdata.union (hmade'.union hbecome')).subset
  rintro s (hs | ⟨s₀, c, hs₀, hc, hs⟩ | ⟨s₀, v, hs₀, hv, hs⟩)
  · exact .inl hs
  · exact .inr (.inl (Set.mem_biUnion hs₀ ⟨c, hc, hs⟩))
  · exact .inr (.inr (Set.mem_biUnion hs₀ ⟨v, hv, hs⟩))

/-! ### Paths that are asked for -/

/-- The paths that are asked for on behalf of the strings that a read can meet. -/
def Tree.asked (t : Tree) (disk : Disk) : Set KeyPath :=
  {path | ∃ s, t.Meets disk s ∧ .opened path ∈ (t.story disk s).journal}

/-- A string that is met has one story, in which finitely many paths are named. -/
theorem Tree.finite_asked (hb : t.IsBuiltIn) (hhost : (t.hostTexts disk).Finite) :
    (t.asked disk).Finite := by
  have hstory : ∀ s, {path | .opened path ∈ (t.story disk s).journal}.Finite := by
    intro s
    apply (List.finite_toSet (t.story disk s).journal).preimage
    intro p _ q _ h
    exact Event.opened.inj h
  apply ((Tree.finite_meets hb hhost).biUnion fun s _ => hstory s).subset
  rintro path ⟨s, hs, hpath⟩
  exact Set.mem_biUnion hs hpath

theorem congruent_opens (paths : Set KeyPath) : Congruent fun x _ => x.Opens paths where
  still hx := hx.opens
  bind hx hf := by
    apply hx.bind
    intro a _
    exact hf a

section Traverse

variable {paths : Set KeyPath} {change : String → Outcome Value}

theorem opens_traverse (v : Value) (h : ∀ s ∈ v.strings, (change s).Opens paths) :
    (v.traverse change).Opens paths := (congruent_opens paths).traverse change change v h

theorem opens_traverseEntries (entries : Table)
    (h : ∀ s ∈ entries.strings, (change s).Opens paths) :
    (Value.traverseEntries change entries).Opens paths :=
  (congruent_opens paths).traverseEntries change change entries h

end Traverse

section Meets

variable (hb : t.IsBuiltIn)
include hb

theorem Tree.Meets.arises {s : String} (h : t.Meets disk s) : t.Arises disk s := by
  rcases h with h | ⟨s₀, c, ⟨hs₀, c', hc', hcomp⟩, hc, hs⟩ | ⟨s₀, v, hs₀, hv, hs⟩
  · exact Tree.arises_of_mem_data h
  · obtain rfl := hc'.unique hc
    exact hc.arisesIn hb hcomp s hs
  · exact hv.arisesIn hb hs₀.1 s hs

/-- The chain makes a table or an array of a string that is met: what is in there is met too. -/
theorem Tree.Meets.settles {s : String} (h : t.Meets disk s) {c : Value} (hc : t.Settles disk s c)
    (hcomp : c.isCompound = true) : t.MeetsIn disk c := by
  intro s' hs'
  have hunfolds : t.Unfolds disk s := ⟨h.arises hb, c, hc, hcomp⟩
  exact .inr (.inl ⟨s, c, hunfolds, hc, hs'⟩)

/-- A string that is met becomes a table: what is in there may be met on the way to a path. -/
theorem Tree.Meets.becomes {s : String} (h : t.Meets disk s) {entries : Table}
    (hv : t.Becomes disk s (.table entries)) : t.MeetsIn disk (.table entries) := by
  rcases hv.settles hb with ⟨-, hcomp⟩ | hc
  · cases hcomp
  · intro s' hs'
    exact .inr (.inr ⟨s, .table entries, ⟨h.arises hb, hc⟩, hv, hs'⟩)

section Reads

variable {steps : Nat} (hfewer : ∀ fewer < steps, ∀ (g : Guards) path,
  (g.read (t.reply disk fewer) t path keepAll).Opens (insert path (t.asked disk)))
include hfewer

theorem opens_settle {g : Guards} {s : String} (hs : t.Meets disk s) :
    (g.settle (t.reply disk steps) t.chain (.string s)).Opens (t.asked disk) := by
  have hstory : ∀ path, .opened path ∈ (t.story disk s).journal → path ∈ t.asked disk := by
    intro path hpath
    exact ⟨s, hs, hpath⟩
  exact (settle_within hb hfewer g s hstory).1

/-- What a string opens up to is met in turn, so its tokens count as well. -/
theorem opens_expandString {fl : List KeyPath} {room : Nat} {s : String} (hs : t.Meets disk s) :
    (expandString (t.reply disk steps) t.chain fl room s).Opens (t.asked disk) := by
  induction room generalizing s with
  | zero =>
    apply (opens_settle hb hfewer hs).bind
    intro c _
    cases c.isCompound with
    | true => exact (Outcome.Still.fail _).opens
    | false => exact (Outcome.Still.pure _).opens
  | succ room ih =>
    apply (opens_settle hb hfewer hs).bind
    intro c hc
    cases hcomp : c.isCompound with
    | true =>
      have hmeets := hs.settles hb (settles_of_settle hb hc) hcomp
      have hinside : (c.traverse (expandString (t.reply disk steps) t.chain fl room)).Opens
          (t.asked disk) := by
        apply opens_traverse
        intro x hx
        exact ih (hmeets x hx)
      exact hinside.unfolded
    | false => exact (Outcome.Still.pure _).opens

theorem opens_resolve {g : Guards} {v : Value} (hv : t.MeetsIn disk v) :
    (g.resolve (t.reply disk steps) t.chain v).Opens (t.asked disk) := by
  apply opens_traverse
  intro s hs
  exact opens_expandString hb hfewer (hv s hs)

theorem opens_resolveTable {g : Guards} {table : Table} (hv : t.MeetsIn disk (.table table)) :
    (g.resolveTable (t.reply disk steps) t.chain table).Opens (t.asked disk) := by
  apply opens_traverseEntries
  intro s hs
  exact opens_expandString hb hfewer (hv s hs)

theorem opens_walk {g : Guards} {v : Option Value} {keys : List String}
    (hv : ∀ w, v = some w → t.MeetsIn disk w) :
    (g.walk (t.reply disk steps) t v keys).Opens (t.asked disk) ∧
      ∀ w, (g.walk (t.reply disk steps) t v keys).result = .ok (some w) → t.MeetsIn disk w := by
  induction keys generalizing v with
  | nil =>
    cases v with
    | none => exact ⟨(Outcome.Still.pure _).opens, nofun⟩
    | some v =>
      constructor
      · exact (Outcome.Still.pure _).opens
      · intro w hw
        cases hw
        exact hv v rfl
  | cons key rest ih =>
    -- What is in a table that was met is met, so the walk may go on from there.
    have hgo : ∀ entries : Table, t.MeetsIn disk (.table entries) →
        ∀ w, entries.get? key = some w → t.MeetsIn disk w := by
      intro entries hentries w hw
      exact hentries.get? hw
    cases v with
    | none => exact ⟨(Outcome.Still.pure _).opens, nofun⟩
    | some v =>
      cases v with
      | table entries => exact ih (hgo entries (hv _ rfl))
      | string s =>
        have hs : t.Meets disk s := hv _ rfl s List.mem_cons_self
        have hbecomes : ∀ entries : Table,
            (g.resolve (t.reply disk steps) t.chain (.string s)).result = .ok (.table entries) →
              t.MeetsIn disk (.table entries) := by
          intro entries h
          exact hs.becomes hb ⟨g, steps, h⟩
        constructor
        · apply (opens_resolve hb hfewer (hv _ rfl)).bind
          intro u hu
          cases u with
          | table entries => exact (ih (hgo entries (hbecomes entries hu))).1
          | _ => exact (Outcome.Still.pure _).opens
        · intro w hw
          obtain ⟨u, hu, hw⟩ := Outcome.bind_result_eq_ok.1 hw
          cases u with
          | table entries => exact (ih (hgo entries (hbecomes entries hu))).2 w hw
          | _ => cases hw
      | _ => exact ⟨(Outcome.Still.pure _).opens, nofun⟩

theorem opens_find {g : Guards} {path : KeyPath} :
    (g.find (t.reply disk steps) t path).Opens (t.asked disk) ∧
      ∀ w, (g.find (t.reply disk steps) t path).result = .ok (some w) → t.MeetsIn disk w := by
  have hdata := Tree.meetsIn_data t disk
  unfold Guards.find
  split
  · constructor
    · exact (Outcome.Still.pure _).opens
    · intro w hw
      cases hw
      exact hdata
  · apply opens_walk hb hfewer
    intro w hw
    exact hdata.get? hw

theorem opens_body {g : Guards} {path : KeyPath} {keep : Value → Bool} :
    (g.body (t.reply disk steps) t path keep).Opens (t.asked disk) := by
  obtain ⟨hopen, hmeets⟩ := opens_find hb hfewer
  apply hopen.bind
  intro v hv
  cases v with
  | none => exact (Outcome.Still.pure _).opens
  | some v =>
    by_cases hkeep : keep v
    · simp only [hkeep, if_true]
      apply (opens_resolve hb hfewer (hmeets v hv)).bind
      intro w _
      exact (Outcome.Still.pure _).opens
    · simp only [hkeep]
      exact (Outcome.Still.pure _).opens

theorem opens_read_of_fewer (g : Guards) (path : KeyPath) (keep : Value → Bool) :
    (g.read (t.reply disk steps) t path keep).Opens (insert path (t.asked disk)) := by
  by_cases hpath : path ∈ g.inFlight
  · rw [Guards.read_of_mem hpath]
    exact (Outcome.Still.fail _).opens
  · rw [Guards.read_of_not_mem hpath]
    exact (opens_body hb hfewer).read

end Reads

/-- A read begins its own read and such as are asked for on behalf of the strings it meets. -/
theorem opens_read (steps : Nat) (g : Guards) (path : KeyPath) (keep : Value → Bool) :
    (g.read (t.reply disk steps) t path keep).Opens (insert path (t.asked disk)) := by
  -- the values of strings are compared with all reads of fewer steps, so one step less will not do
  induction steps using Nat.strong_induction_on generalizing g path keep with
  | _ steps ih =>
    apply opens_read_of_fewer hb
    intro fewer hlt g path
    exact ih fewer hlt g path keepAll

end Meets

/-! ### The bound -/

/-- With more than `bound` steps the read has one outcome, a value or an error; and at every moment
    at most `bound` paths are in flight, each of them once, and at most `maxDepth` expansions are
    open. -/
structure EndsWithin {α : Type} (bound : Nat) (run : Nat → Outcome α) : Prop where
  ends : ∃ x : Outcome α, x.result ≠ .error .exhausted ∧ ∀ steps, bound < steps → run steps = x
  inFlight : ∀ steps j, j <+: (run steps).journal →
    (inFlightAfter [] j).Nodup ∧ (inFlightAfter [] j).length ≤ bound
  expansions : ∀ steps j, j <+: (run steps).journal →
    0 ≤ openExpansions j ∧ openExpansions j ≤ maxDepth

/-- No more paths can be in flight than are read at all. -/
theorem EndsByPaths.endsWithin {α : Type} {run : Nat → Outcome α} (h : EndsByPaths run)
    {paths : Finset KeyPath} {bound : Nat} (hpaths : ReadsAmong run paths)
    (hbound : paths.card ≤ bound) : EndsWithin bound run := by
  obtain ⟨x, hx, henough⟩ := h.ends paths hpaths
  refine ⟨⟨x, hx, ?_⟩, ?_, h.expansions⟩
  · intro steps hsteps
    exact henough steps (by omega)
  · intro steps j hj
    obtain ⟨hnodup, -, hlength⟩ := h.inFlight paths hpaths steps j hj
    exact ⟨hnodup, hlength.trans hbound⟩

/-- **Every read comes back.**  For a tree of built-in resolvers whose host puts finitely many texts
    with tokens into tables and arrays, there is a bound on the paths in flight and on the
    questions that nest, for all reads of the tree. -/
theorem every_read_comes_back (hb : t.IsBuiltIn) (hhost : (t.hostTexts disk).Finite) :
    ∃ bound, ∀ path default, EndsWithin bound (t.getWithin disk path) ∧
      EndsWithin bound (t.getOrWithin disk path default) ∧ EndsWithin bound (t.allWithin disk) := by
  classical
  let asked : Finset KeyPath := (Tree.finite_asked hb hhost).toFinset
  have hasked : (asked : Set KeyPath) = t.asked disk := Set.Finite.coe_toFinset _
  refine ⟨asked.card + 1, ?_⟩
  intro path default
  obtain ⟨hget, hgetOr, hall⟩ := reads_end_iff_finitely_many_paths hb disk path default
  have hcard : (insert path asked).card ≤ asked.card + 1 := Finset.card_insert_le path asked
  have hread : ∀ steps keep,
      (Guards.fresh.read (t.reply disk steps) t path keep).Opens
        (insert path asked : Finset _) := by
    intro steps keep
    rw [Finset.coe_insert, hasked]
    exact opens_read hb steps Guards.fresh path keep
  have hamongGet : ReadsAmong (t.getWithin disk path) (insert path asked) := by
    intro steps
    exact hread steps keepAll
  have hamongGetOr : ReadsAmong (t.getOrWithin disk path default) (insert path asked) := by
    intro steps
    apply (hread steps Value.isTruthy).bind
    intro v _
    exact (Outcome.Still.pure _).opens
  have hamongAll : ReadsAmong (t.allWithin disk) asked := by
    intro steps
    rw [hasked]
    apply opens_resolveTable hb
    · intro fewer _ g p
      exact opens_read hb fewer g p keepAll
    · exact Tree.meetsIn_data t disk
  exact ⟨hget.endsWithin hamongGet hcard, hgetOr.endsWithin hamongGetOr hcard,
    hall.endsWithin hamongAll (Nat.le_succ _)⟩

/-- A host function with one table, in which a token names the entry that calls it. -/
def selfNaming : HostFunction :=
  fun _ => some (.table [("x", .string "\x7b\x7b config:a \x7d\x7d")])

/-- One entry calls this function, the other one gets its arguments back. -/
def twoCalls : Tree where
  data := [("a", .string "\x7b\x7b call:f() \x7d\x7d"),
    ("b", .string "\x7b\x7b call:args('x', 1) \x7d\x7d")]
  chain := [⟨0, .labelled "config" .reference⟩,
    ⟨1, .labelled "call" (.call [("f", selfNaming), ("args", .arguments)])⟩]
  loader :=
    ⟨[⟨0, .fixed "tokens" [".tokens"] [("t", .string "\x7b\x7b config:b \x7d\x7d")]⟩], none⟩

theorem isBuiltIn_twoCalls : twoCalls.IsBuiltIn := by
  intro r hr
  rcases List.mem_cons.1 hr with rfl | hr
  · trivial
  · rw [List.mem_singleton.1 hr]
    trivial

theorem functionsAddOnly_twoCalls :
    twoCalls.FunctionsAddOnly {"\x7b\x7b config:a \x7d\x7d"} := by
  intro r hr label functions hkind name f hf
  rcases List.mem_cons.1 hr with rfl | hr
  · cases hkind
  · obtain rfl := List.mem_singleton.1 hr
    cases hkind
    rw [List.lookup_cons] at hf
    split at hf
    · cases hf
      rintro args _ ⟨⟩ - s hs -
      exact .inl (List.mem_singleton.1 hs)
    · rw [List.lookup_cons] at hf
      split at hf
      · cases hf
        exact HostFunction.addsOnly_arguments _
      · cases hf

theorem finite_hostTexts_twoCalls (disk : Disk) : (twoCalls.hostTexts disk).Finite := by
  apply Tree.finite_hostTexts (Set.finite_singleton _) functionsAddOnly_twoCalls
  apply (Set.finite_singleton [("t", Value.string "\x7b\x7b config:b \x7d\x7d")]).subset
  rintro table ⟨p, hp, hfinds⟩
  obtain rfl := List.mem_singleton.1 hp
  exact FileParser.eq_of_fixed_finds hfinds

/-- The circle through the host function is found out, and the other call has a value. -/
theorem twoCalls_come_back :
    (twoCalls.getWithin [] ⟨["a"]⟩ 2).IsCyclic ∧
      (twoCalls.getWithin [] ⟨["b"]⟩ 2).result = .ok (some (.array [.string "x", .integer 1])) ∧
      ∃ bound, ∀ path, EndsWithin bound (twoCalls.getWithin [] path) ∧
        EndsWithin bound (twoCalls.allWithin []) := by
  have hcircle : (twoCalls.getWithin [] ⟨["a"]⟩ 2).result =
      .error (.failed (.cyclic [⟨["a"]⟩] (.path ⟨["a"]⟩))) := by cbv
  have hvalue : (twoCalls.getWithin [] ⟨["b"]⟩ 2).result =
      .ok (some (.array [.string "x", .integer 1])) := by cbv
  obtain ⟨bound, hbound⟩ :=
    every_read_comes_back isBuiltIn_twoCalls (finite_hostTexts_twoCalls [])
  refine ⟨⟨_, _, hcircle⟩, hvalue, bound, ?_⟩
  intro path
  obtain ⟨hget, -, hall⟩ := hbound path (.integer 0)
  exact ⟨hget, hall⟩

end LayeredConfig
