/-
  LayeredConfig/Proofs/Tree/Spelling.lean
  =======================================
  **Paths and the texts that spell them.**

  A text spells one path, and different texts spell different ones.  A path need
  not be spelled by any text: whoever builds it from keys may put a point into a
  key, and then its text is that of a longer path.  The guards of a read compare
  keys, while the report of a circle and the tokens have the texts, so two paths
  of one text must not be taken for each other.

  They are not (`paths_and_texts`).  Neither keeps the other from being read.  And
  since tokens name paths by their texts, no read on the way to a value is one of a
  path that no text spells (`Call.Spelled`); so with such a path in flight everything
  ends as it does without.
-/
import LayeredConfig.Proofs.Lookup.Traces

namespace LayeredConfig

def KeyPath.Spelled (p : KeyPath) : Prop := ∃ text, KeyPath.parse text = p

theorem KeyPath.spelled_iff {p : KeyPath} : p.Spelled ↔ parse p.display = p := by
  constructor
  · rintro ⟨text, rfl⟩
    rw [display_parse]
  · intro h
    exact ⟨p.display, h⟩

/-! ### The beginning of a read -/

/-- The first thing that happens is that the read of the path begins. -/
def Outcome.Begins {α : Type} (path : KeyPath) (x : Outcome α) : Prop :=
  x.journal.head? = some (.opened path)

/-- A read begins unless its path is in flight. -/
theorem begins_read_iff {replies : Replies} {t : Tree} {g : Guards} {path : KeyPath}
    {keep : Value → Bool} : (g.read replies t path keep).Begins path ↔ path ∉ g.inFlight := by
  by_cases h : path ∈ g.inFlight
  · rw [Guards.read_of_mem h]
    exact iff_of_false nofun (not_not_intro h)
  · rw [Guards.read_of_not_mem h]
    exact iff_of_true rfl h

/-- Another path in flight does not keep a path from being read. -/
theorem begins_read_beside_iff {replies : Replies} {t : Tree} {g g' : Guards}
    {path other : KeyPath} {keep : Value → Bool} (h : g.Beside other g') (hne : path ≠ other) :
    (g'.read replies t path keep).Begins path ↔ path ∉ g.inFlight := by
  rw [begins_read_iff, h.mem_iff, not_or, and_iff_left hne]

/-! ### Paths on the way -/

/-- The paths in flight are spelled by texts, but for some that are known, and so is a path that is
    to be read. -/
structure Call.Spelled (known : List KeyPath) (c : Call) : Prop where
  inFlight : ∀ p ∈ c.guards.inFlight, p ∈ known ∨ p.Spelled
  asked : ∀ path keep, c.task = .read path keep → path.Spelled

section Calls

variable {t : Tree} {disk : Disk} {known : List KeyPath} {c c' : Call} {j : List Event}

/-- A token names a path by a text. -/
theorem Tree.NamedIn.spelled {steps : Nat} {g : Guards} {s : String} {path : KeyPath}
    (h : t.NamedIn disk steps g s path j) : path.Spelled := by
  cases h
  exact ⟨_, rfl⟩

theorem Call.Spelled.step (h : c.Spelled known) (hstart : c.Starts t disk j c') :
    c'.Spelled known := by
  cases hstart with
  | enter hpath =>
    refine ⟨?_, nofun⟩
    intro p hp
    rcases List.mem_cons.1 hp with rfl | hp
    · exact .inr (h.asked _ _ rfl)
    · exact h.inFlight p hp
  | onWay | found | inside | unfold => exact ⟨h.inFlight, nofun⟩
  | named hnamed =>
    refine ⟨h.inFlight, ?_⟩
    rintro path keep heq
    cases heq
    exact hnamed.spelled

theorem Call.Spelled.of_reaches (h : c.Spelled known) (hreach : c.Reaches t disk j c') :
    c'.Spelled known := by
  induction hreach with
  | here => exact h
  | step _ hstart ih => exact ih.step hstart

/-- A read that begins in the course of a call is of a path that is spelled by a text. -/
theorem spelled_of_opened (hb : t.IsBuiltIn) {α : Type} {x : Outcome α}
    (htraced : Traced t disk c [] x) (hx : x.journal = c.course t disk)
    (hc : c.Spelled c.guards.inFlight) {p : KeyPath} (hp : p ∉ c.guards.inFlight)
    (hopened : .opened p ∈ x.journal) : p.Spelled := by
  obtain ⟨before, after, hjournal⟩ := List.append_of_mem hopened
  have hmoment : before ++ [.opened p] <+: x.journal :=
    ⟨after, (List.append_cons before _ after).symm.trans hjournal.symm⟩
  have hpart : [] ++ x.journal <+: c.course t disk := hx ▸ List.prefix_rfl
  -- when it has begun, a call is in progress that has the path in flight
  obtain ⟨c', hat⟩ := htraced.moment hpart _ hmoment
  have hmem : p ∈ c'.guards.inFlight := by
    rw [← (hat.leads hb disk).inFlight, List.nil_append, inFlightAfter_append]
    exact List.mem_cons_self
  obtain ⟨j, since, hreach, -⟩ := hat
  exact ((hc.of_reaches hreach).inFlight p hmem).resolve_left hp

end Calls

/-! ### Beside a path that is not spelled -/

theorem Outcome.EndsAlike.of_sameOrCyclic {α : Type} {x y : Outcome α} (h : x.SameOrCyclic y)
    (h' : y.SameOrCyclic x) : x.EndsAlike y := by
  rcases h with heq | hy
  · exact .inl heq
  · rcases h' with heq | hx
    · exact .inl heq.symm
    · exact .inr ⟨hx, hy⟩

namespace Guards.Beside

variable {p : KeyPath} {g g' : Guards} (h : g.Beside p g')
include h

theorem le : g ≤ g' := by
  refine ⟨?_, Nat.le_of_eq h.room_eq⟩
  intro path hpath
  exact (h.mem_iff path).2 (.inl hpath)

theorem ge_of_mem (hp : p ∈ g.inFlight) : g' ≤ g := by
  refine ⟨?_, Nat.le_of_eq h.room_eq.symm⟩
  intro path hpath
  rcases (h.mem_iff path).1 hpath with hmem | rfl
  · exact hmem
  · exact hp

/-- To see that a course ends alike with one more path in flight, the path may be taken for one that
    was not in flight before. -/
theorem endsAlike {α : Type} {run : Guards → Outcome α}
    (hle : ∀ g₁ g₂, g₁ ≤ g₂ → (run g₁).SameOrCyclic (run g₂))
    (hbeside : p ∉ g.inFlight → (run g).EndsAlike (run g')) : (run g).EndsAlike (run g') := by
  by_cases hmem : p ∈ g.inFlight
  · exact .of_sameOrCyclic (hle _ _ h.le) (hle _ _ (h.ge_of_mem hmem))
  · exact hbeside hmem

end Guards.Beside

section Beside

variable {t : Tree} (hb : t.IsBuiltIn) (disk : Disk) (steps : Nat) {g g' : Guards} {p : KeyPath}
  (h : g.Beside p g')
include hb h

theorem read_beside_of_not_opened {path : KeyPath} {keep : Value → Bool}
    (hopened : .opened p ∉ (g.read (t.reply disk steps) t path keep).journal) :
    (g.read (t.reply disk steps) t path keep).EndsAlike
      (g'.read (t.reply disk steps) t path keep) := by
  by_cases h₁ : path ∈ g.inFlight
  · rw [Guards.read_of_mem h₁, Guards.read_of_mem (h.le.inFlight h₁)]
    exact Outcome.endsAlike_cycle _ _ _ _
  · rw [Guards.read_of_not_mem h₁] at hopened ⊢
    have h₂ : path ∉ g'.inFlight := by
      intro hmem
      obtain rfl := h.eq_of_mem h₁ hmem
      exact hopened (Outcome.mem_journal_between.2 (.inl rfl))
    rw [Guards.read_of_not_mem h₂]
    apply (lockstep_beside t disk p).body hb (h.enter path) path keep
    intro hbody
    exact hopened (Outcome.mem_journal_between.2 (.inr (.inl hbody)))

variable (hp : ¬ p.Spelled)
include hp

theorem resolve_beside (v : Value) :
    (g.resolve (t.reply disk steps) t.chain v).EndsAlike
      (g'.resolve (t.reply disk steps) t.chain v) := by
  apply h.endsAlike fun _ _ hle => resolve_sameOrCyclic hb disk steps hle v
  intro hmem
  apply (lockstep_beside t disk p).resolve hb h v
  intro hopened
  have hcall : Call.Spelled g.inFlight ⟨steps, g, .resolve v⟩ := ⟨fun _ => .inl, nofun⟩
  exact hp (spelled_of_opened hb (traced_resolve hb disk steps g v) rfl hcall hmem hopened)

/-- A path that no token can name is read by the caller alone, so it may be in flight or not. -/
theorem read_beside {path : KeyPath} (hpath : path.Spelled) (keep : Value → Bool) :
    (g.read (t.reply disk steps) t path keep).EndsAlike
      (g'.read (t.reply disk steps) t path keep) := by
  apply h.endsAlike fun _ _ hle => read_sameOrCyclic hb disk steps hle path keep
  intro hmem
  apply read_beside_of_not_opened hb disk steps h
  intro hopened
  have hcall : Call.Spelled g.inFlight ⟨steps, g, .read path keep⟩ := by
    refine ⟨fun _ => .inl, ?_⟩
    rintro _ _ ⟨⟩
    exact hpath
  exact hp (spelled_of_opened hb (traced_read hb disk steps g path keep) rfl hcall hmem hopened)

end Beside

/-! ### Paths and texts -/

/-- **Paths and their texts.**  A text is the text of the path that it spells, so the paths that are
    spelled by texts are the same if their texts are.  A path is spelled by its text, unless one of
    its keys has a point or its only key is empty.  It is then not taken for the path that its text
    spells: neither, when it is in flight, keeps the other from being read; and with built-in
    resolvers what is read by a text and what is resolved ends as it does without it. -/
theorem paths_and_texts :
    (∀ text, (KeyPath.parse text).display = text) ∧
    (∀ path : KeyPath, KeyPath.parse path.display = path ↔
      (∀ key ∈ path.segments, '.' ∉ key.toList) ∧ path ≠ ⟨[""]⟩) ∧
    (∀ text₁ text₂, KeyPath.parse text₁ = KeyPath.parse text₂ ↔
      (KeyPath.parse text₁).display = (KeyPath.parse text₂).display) ∧
    ∀ path : KeyPath, (∃ key ∈ path.segments, '.' ∈ key.toList) ∨ path = ⟨[""]⟩ →
      let nested := KeyPath.parse path.display
      nested.display = path.display ∧ nested ≠ path ∧
      (∀ (replies : Replies) (t : Tree) (keep : Value → Bool) (g g' : Guards),
        (g.Beside path g' →
          ((g'.read replies t nested keep).Begins nested ↔ nested ∉ g.inFlight)) ∧
        (g.Beside nested g' →
          ((g'.read replies t path keep).Begins path ↔ path ∉ g.inFlight))) ∧
      ∀ t : Tree, t.IsBuiltIn → ∀ (disk : Disk) (steps : Nat) (g g' : Guards), g.Beside path g' →
        (∀ text keep, (g.read (t.reply disk steps) t (KeyPath.parse text) keep).EndsAlike
          (g'.read (t.reply disk steps) t (KeyPath.parse text) keep)) ∧
        ∀ v, (g.resolve (t.reply disk steps) t.chain v).EndsAlike
          (g'.resolve (t.reply disk steps) t.chain v) := by
  refine ⟨KeyPath.display_parse, KeyPath.parse_display_iff, ?_, ?_⟩
  · intro text₁ text₂
    rw [KeyPath.display_parse, KeyPath.display_parse, KeyPath.parse_inj]
  · intro path hpath nested
    have hne : nested ≠ path := by
      intro h
      obtain ⟨hpoint, hempty⟩ := (KeyPath.parse_display_iff path).1 h
      rcases hpath with ⟨key, hkey, hmem⟩ | heq
      · exact hpoint key hkey hmem
      · exact hempty heq
    have hspelled : ¬ path.Spelled := fun h => hne (KeyPath.spelled_iff.1 h)
    refine ⟨KeyPath.display_parse _, hne, ?_, ?_⟩
    · intro replies t keep g g'
      exact ⟨fun h => begins_read_beside_iff h hne, fun h => begins_read_beside_iff h hne.symm⟩
    · intro t hb disk steps g g' h
      constructor
      · intro text keep
        exact read_beside hb disk steps h hspelled ⟨text, rfl⟩ keep
      · intro v
        exact resolve_beside hb disk steps h hspelled v

namespace Dotted

/-- The text of the entry with a point in its key is that of the path to the entry in the table. -/
def tree : Tree where
  data := [
    ("a", .table [("b", .integer 1)]),
    ("a.b", .string "\x7b\x7b config:x \x7d\x7d"),
    ("x", .string "\x7b\x7b config:a.b \x7d\x7d")]
  chain := [⟨0, .labelled Resolver.referenceLabel .reference⟩]
  loader := Loader.empty

theorem isBuiltIn : tree.IsBuiltIn := by
  intro r hr
  rw [List.mem_singleton.1 hr]
  trivial

theorem has_point : ∃ key ∈ (KeyPath.mk ["a.b"]).segments, '.' ∈ key.toList :=
  ⟨"a.b", List.mem_singleton_self _, by decide⟩

theorem parse_text : KeyPath.parse (KeyPath.display ⟨["a.b"]⟩) = ⟨["a", "b"]⟩ := by cbv

theorem beside : (Guards.fresh.enter ⟨["x"]⟩).Beside ⟨["a.b"]⟩
    ((Guards.fresh.enter ⟨["a.b"]⟩).enter ⟨["x"]⟩) :=
  (Guards.Beside.of_enter Guards.fresh ⟨["a.b"]⟩).enter ⟨["x"]⟩

/-- While the one entry is being read the other one is read, though their texts are the same. -/
theorem nested_read_within :
    (∃ key ∈ (KeyPath.mk ["a.b"]).segments, '.' ∈ key.toList) ∧ tree.IsBuiltIn ∧
      (Guards.fresh.enter ⟨["x"]⟩).Beside ⟨["a.b"]⟩
        ((Guards.fresh.enter ⟨["a.b"]⟩).enter ⟨["x"]⟩) ∧
      KeyPath.display ⟨["a", "b"]⟩ = KeyPath.display ⟨["a.b"]⟩ ∧
      (((Guards.fresh.enter ⟨["a.b"]⟩).enter ⟨["x"]⟩).read (tree.reply [] 1) tree ⟨["a", "b"]⟩
        keepAll).result = .ok (some (.integer 1)) ∧
      (tree.getWithin [] ⟨["a.b"]⟩ 3).result = .ok (some (.integer 1)) := by
  obtain ⟨-, -, -, hbeside⟩ := paths_and_texts
  obtain ⟨htext, -, -, hends⟩ := hbeside ⟨["a.b"]⟩ (.inl has_point)
  obtain ⟨hread, -⟩ := hends tree isBuiltIn [] 1 _ _ beside
  have hwithout : ((Guards.fresh.enter ⟨["x"]⟩).read (tree.reply [] 1) tree
      (KeyPath.parse (KeyPath.display ⟨["a.b"]⟩)) keepAll).result = .ok (some (.integer 1)) := by
    rw [parse_text]
    cbv
  have hwithin := (hread _ keepAll).ok hwithout
  rw [parse_text] at htext hwithin
  exact ⟨has_point, isBuiltIn, beside, htext, hwithin, by cbv⟩

end Dotted

end LayeredConfig
