/-
  LayeredConfig/Proofs/Tree/Visited.lean
  ======================================
  **A read depends on the entries that it visits.**

  A read begins other reads, and which ones is seen only as it goes.  It looks at
  the data in one place only: where the walk along a path begins, at the entry
  under the first key of the path.  Take the keys at which the reads of one course
  begin.  If a second tree has the same entries there, the same course is taken
  through it, step by step, to the same end (`read_depends_on_visited`); and so a
  layer that has nothing under these keys changes nothing for the read.

  The courses are compared by a relation that supposes the reads of the first one
  to begin at these keys (`Outcome.Follows`): what holds of a course as a whole
  holds of each of its parts.
-/
import LayeredConfig.Proofs.Tree.Ending
import LayeredConfig.Proofs.Value.Merging

namespace LayeredConfig

/-! ### Courses that visit some entries -/

namespace Outcome

variable {α β : Type} {keys : Set String}

/-- Every read that begins in the course is of a path that begins with one of these keys; so none
    is of the whole tree. -/
def Visits (keys : Set String) (x : Outcome α) : Prop :=
  x.Opens {path | ∃ key ∈ keys, path.segments.head? = some key}

/-- The second course is the first one, if that visits these entries only. -/
def Follows (keys : Set String) (x y : Outcome α) : Prop := x.Visits keys → y = x

theorem Follows.bind {x y : Outcome α} {f f' : α → Outcome β} (h : x.Follows keys y)
    (hf : ∀ a, (f a).Follows keys (f' a)) : (x >>= f).Follows keys (y >>= f') := by
  intro hvisits
  obtain ⟨hx, hrest⟩ := hvisits.of_bind
  rw [h hx]
  cases hresult : x.result with
  | error halt => rw [bind_of_error hresult, bind_of_error hresult]
  | ok a => rw [bind_of_ok hresult, bind_of_ok hresult, hf a (hrest a hresult)]

theorem Follows.between {x y : Outcome α} (h : x.Follows keys y) (before after : Event) :
    (between before after x).Follows keys (between before after y) := by
  intro hvisits
  rw [h]
  intro path hpath
  exact hvisits path (mem_journal_between.2 (.inr (.inl hpath)))

theorem congruent_follows (keys : Set String) : Congruent (fun x y => x.Follows keys y) where
  still _ _ := rfl
  bind h hf := h.bind hf

end Outcome

/-! ### Trees with the same entries -/

/-- The trees are the same but for data, and have the same under these keys. -/
structure Tree.AgreesOn (keys : Set String) (t₁ t₂ : Tree) : Prop where
  chain : t₂.chain = t₁.chain
  loader : t₂.loader = t₁.loader
  data : ∀ key ∈ keys, t₂.data.get? key = t₁.data.get? key

/-- Apart from where a path begins, a tree is read by its chain only. -/
theorem Guards.walk_of_chain {t₁ t₂ : Tree} (h : t₂.chain = t₁.chain) (replies : Replies)
    (g : Guards) (v : Option Value) (path : List String) :
    g.walk replies t₂ v path = g.walk replies t₁ v path := by
  induction path generalizing v with
  | nil => cases v <;> rfl
  | cons key rest ih =>
    match v with
    | some (.string s) =>
      simp only [walk, h]
      congr 1
      funext v
      cases v with
      | table entries => exact ih _
      | _ => rfl
    | some (.table entries) => exact ih _
    | none | some (.integer _) | some (.float _) | some (.boolean _) | some (.datetime _)
    | some (.array _) => rfl

/-- Trees with the same entry where a path begins have the same along the path. -/
theorem Tree.AgreesOn.body_eq {keys : Set String} {t₁ t₂ : Tree} (h : t₁.AgreesOn keys t₂)
    {key : String} (hkey : key ∈ keys) {path : KeyPath} (hpath : path.segments.head? = some key)
    (replies : Replies) (g : Guards) (keep : Value → Bool) :
    g.body replies t₂ path keep = g.body replies t₁ path keep := by
  obtain ⟨rest, hsegments⟩ := List.head?_eq_some_iff.1 hpath
  have hfind : g.find replies t₂ path = g.find replies t₁ path := by
    simp only [Guards.find, hsegments, h.data key hkey]
    exact Guards.walk_of_chain h.chain replies g _ rest
  simp only [Guards.body, hfind, h.chain]

/-! ### Courses side by side -/

/-- The courses are under the same guards, however deep questions may nest. -/
def SameGuards (_steps : Nat) (g₁ g₂ : Guards) : Prop := g₁ = g₂

/-- Under the same guards, a course follows another one as long as the replies do. -/
theorem lockstep_follows (keys : Set String) (t : Tree) (disk : Disk) :
    Lockstep t disk 0 0 SameGuards (fun _ _ x y => x.Follows keys y) where
  subset := by
    rintro steps g₁ g₂ rfl
    exact List.Subset.refl _
  room_le := by
    rintro steps g₁ g₂ rfl
    exact Nat.le_refl _
  near_unfold := by
    rintro steps fl₁ fl₂ room₁ room₂ ⟨⟩
    rfl
  near_enter := by
    rintro steps g₁ g₂ path rfl -
    rfl
  congruent _ := Outcome.congruent_follows keys
  unfolded _ h := h.between .unfolded .folded
  full := by
    rintro steps fl₁ fl₂ ⟨⟩ -
    rfl
  cut_full := by
    rintro steps fl₁ fl₂ room x ⟨⟩
  cycle := by
    rintro steps g₁ g₂ path rfl - - -
    rfl
  cut_cycle near h₁ h₂ := absurd (near ▸ h₂) h₁
  read _ h₁ h₂ hbody := by
    rw [Guards.read_of_not_mem h₁, Guards.read_of_not_mem h₂]
    exact hbody.between _ _
  exhausted := by
    rintro g₁ g₂ q rfl -
    rfl

section Agreeing

variable {keys : Set String} {t₁ t₂ : Tree} (hagree : t₁.AgreesOn keys t₂) (hb : t₁.IsBuiltIn)
include hagree hb

theorem read_follows {replies₁ replies₂ : Replies}
    (hreplies : ∀ g q, q.IsPlain → (replies₁ g q).Follows keys (replies₂ g q))
    (g : Guards) (path : KeyPath) (keep : Value → Bool) :
    (g.read replies₁ t₁ path keep).Follows keys (g.read replies₂ t₂ path keep) := by
  by_cases hmem : path ∈ g.inFlight
  · rw [Guards.read_of_mem hmem, Guards.read_of_mem hmem]
    exact fun _ => rfl
  · rw [Guards.read_of_not_mem hmem, Guards.read_of_not_mem hmem]
    intro hvisits
    obtain ⟨key, hkey, hpath⟩ := hvisits path (Outcome.mem_journal_between.2 (.inl rfl))
    have hreplying : Lockstep.Replying SameGuards (fun _ _ x y => x.Follows keys y) 0
        replies₁ replies₂ := by
      rintro g₁ g₂ rfl q hq
      exact hreplies g₁ q hq
    have hsame : SameGuards 0 (g.enter path) (g.enter path) := rfl
    have hbody := (lockstep_follows keys t₁ []).body_of_replying hreplying hb hsame path keep
    rw [hagree.body_eq hkey hpath]
    exact hbody.between _ _ hvisits

theorem reply_follows (disk : Disk) (steps : Nat) (g : Guards) (q : Request) (hq : q.IsPlain) :
    (t₁.reply disk steps g q).Follows keys (t₂.reply disk steps g q) := by
  induction steps generalizing g q with
  | zero => exact fun _ => rfl
  | succ steps ih =>
    cases q with
    | get path => exact read_follows hagree hb ih g path keepAll
    | load path =>
      simp only [Tree.reply, hagree.loader]
      exact fun _ => rfl
    | resolve v => exact hq.elim
    | resolveTable table => exact hq.elim

/-- What is read in the first tree at these entries is read in the second one. -/
theorem getWithin_of_visits {disk : Disk} {path : KeyPath} {steps : Nat}
    (h : (t₁.getWithin disk path steps).Visits keys) :
    t₂.getWithin disk path steps = t₁.getWithin disk path steps :=
  read_follows hagree hb (reply_follows hagree hb disk steps) Guards.fresh path keepAll h

end Agreeing

/-! ### Layers beside the entries -/

theorem Placement.get?_apply {data : Table} (hdata : data.Pairwise (·.1 < ·.1)) (p : Placement)
    {layer : Table} {key : String} (h : (Table.nestUnder p.under.segments layer).get? key = none) :
    (p.apply data layer).get? key = data.get? key := by
  unfold apply
  split
  · exact Table.get?_deepMerge_of_lower hdata h
  · exact Table.get?_deepMerge_of_upper h data

/-! ### The dependence of a read -/

/-- **A read depends only on the entries that it visits.**  It has the same course and end in every
    tree that has the same ones; and so it has after the merge of any layer beside them. -/
theorem read_depends_on_visited {t : Tree} (hb : t.IsBuiltIn) {disk : Disk} {path : KeyPath}
    {steps : Nat} {keys : Set String} (hvisits : (t.getWithin disk path steps).Visits keys) :
    (∀ t₂ : Tree, t.AgreesOn keys t₂ →
      t₂.getWithin disk path steps = t.getWithin disk path steps) ∧
    (t.data.Ordered →
      ∀ (s : Surroundings) (source : Source) (placement : Placement) (layer : Table),
        (t.loader.load s source).result = .ok layer →
        (∀ key ∈ keys, (Table.nestUnder placement.under.segments layer).get? key = none) →
        ∃ t₂, (t.merge s source placement).result = .ok t₂ ∧
          t₂.getWithin disk path steps = t.getWithin disk path steps) := by
  constructor
  · intro t₂ hagree
    exact getWithin_of_visits hagree hb hvisits
  · intro hdata s source placement layer hload hlayer
    have hagree : t.AgreesOn keys { t with data := placement.apply t.data layer } := by
      refine ⟨rfl, rfl, ?_⟩
      intro key hkey
      exact placement.get?_apply hdata.pairwise (hlayer key hkey)
    refine ⟨_, ?_, getWithin_of_visits hagree hb hvisits⟩
    rw [Tree.merge, Outcome.bind_result_eq_ok]
    exact ⟨layer, hload, rfl⟩

/-! ### An entry beside those that are read -/

namespace Beside

/-- The first entry refers into the second one, and the third one is not read. -/
def tree : Tree where
  data := [("a", .string "\x7b\x7b config:b.x \x7d\x7d"), ("b", .table [("x", .integer 1)]),
    ("c", .integer 2)]
  chain := [⟨0, .labelled "config" .reference⟩]
  loader := Loader.empty

/-- Another third entry, and a fourth one. -/
def layer : Table := [("c", .integer 3), ("d", .integer 4)]

theorem isBuiltIn_tree : tree.IsBuiltIn := by
  intro r hr
  rw [List.mem_singleton.1 hr]
  trivial

theorem ordered_data : tree.data.Ordered := by
  rw [Table.Ordered, Value.Ordered]
  refine ⟨by decide, ?_⟩
  simp [tree, Value.Ordered, Value.OrderedEntries]

theorem visits_tree : (tree.getWithin [] ⟨["a"]⟩ 2).Visits {"a", "b"} := by
  have hjournal : (tree.getWithin [] ⟨["a"]⟩ 2).journal =
      [.opened ⟨["a"]⟩, .asked 0 "config:b.x", .opened ⟨["b", "x"]⟩, .closed ⟨["b", "x"]⟩,
        .closed ⟨["a"]⟩] := by
    cbv
  intro path hpath
  rw [hjournal] at hpath
  simp only [List.mem_cons, Event.opened.injEq, reduceCtorEq, List.not_mem_nil, or_false,
    false_or] at hpath
  rcases hpath with rfl | rfl
  · exact ⟨"a", .inl rfl, rfl⟩
  · exact ⟨"b", .inr rfl, rfl⟩

theorem reads_beside :
    (tree.getWithin [] ⟨["a"]⟩ 2).Visits {"a", "b"} ∧
      (tree.getWithin [] ⟨["a"]⟩ 2).result = .ok (some (.integer 1)) ∧
      ∃ t₂, (tree.merge ⟨[], []⟩ (.table layer) .onTop).result = .ok t₂ ∧
        t₂.getWithin [] ⟨["a"]⟩ 2 = tree.getWithin [] ⟨["a"]⟩ 2 := by
  refine ⟨visits_tree, by cbv, ?_⟩
  apply (read_depends_on_visited isBuiltIn_tree visits_tree).2 ordered_data ⟨[], []⟩ (.table layer)
    .onTop layer rfl
  rintro key (rfl | rfl)
  · rfl
  · rfl

end Beside

end LayeredConfig
