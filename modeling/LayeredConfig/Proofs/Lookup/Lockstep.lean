/-
  LayeredConfig/Proofs/Lookup/Lockstep.lean
  =========================================
  **Two reads of one tree, side by side.**

  Many laws of reads compare two courses through the same tree that differ in
  the state of the guards, or in how deep questions may nest.  Both courses do
  the same things in the same order for as long as the guards let them.  A
  relation between outcomes that is kept by the few things which a read can do
  (`Lockstep`) therefore holds between the two courses as a whole, whatever is
  resolved (`Lockstep.resolve`), walked to (`Lockstep.find`) or read
  (`Lockstep.body`).

  A property of one course is a relation that looks at the first one only
  (`Invariant`).
-/
import LayeredConfig.Proofs.Lookup.Congruence

namespace LayeredConfig

/-! ### The steps of a read -/

/-- The read of a path, once it is known that the path is not in flight. -/
def Guards.body (replies : Replies) (t : Tree) (g : Guards) (path : KeyPath)
    (keep : Value → Bool) : Outcome (Option Value) := do
  match ← g.find replies t path with
  | none => return none
  | some v =>
    if keep v then do
      let v ← g.resolve replies t.chain v
      return some v
    else return none

/-- A path in flight is not read again. -/
theorem Guards.read_of_mem {replies : Replies} {t : Tree} {g : Guards} {path : KeyPath}
    (h : path ∈ g.inFlight) (keep : Value → Bool) :
    g.read replies t path keep = Outcome.fail (g.cycle (.path path)) := if_pos h

theorem Guards.read_of_not_mem {replies : Replies} {t : Tree} {g : Guards} {path : KeyPath}
    (h : path ∉ g.inFlight) (keep : Value → Bool) :
    g.read replies t path keep =
      Outcome.between (.opened path) (.closed path) ((g.enter path).body replies t path keep) :=
  if_neg h

abbrev keepAll : Value → Bool := fun _ => true

/-- `Near` pairs the guards of two courses through a tree, whose questions may nest `steps + lag₁`
    and `steps + lag₂` deep, and `Rel` is kept by all that may happen in them. -/
structure Lockstep (t : Tree) (disk : Disk) (lag₁ lag₂ : Nat) (Near : Nat → Guards → Guards → Prop)
    (Rel : {α : Type} → Guards → Guards → Outcome α → Outcome α → Prop) : Prop where
  subset : ∀ {steps g₁ g₂}, Near steps g₁ g₂ → g₁.inFlight ⊆ g₂.inFlight
  room_le : ∀ {steps g₁ g₂}, Near steps g₁ g₂ → g₂.room ≤ g₁.room
  near_unfold : ∀ {steps fl₁ fl₂ room₁ room₂}, Near steps ⟨fl₁, room₁ + 1⟩ ⟨fl₂, room₂ + 1⟩ →
    Near steps ⟨fl₁, room₁⟩ ⟨fl₂, room₂⟩
  near_enter : ∀ {steps g₁ g₂ path}, Near (steps + 1) g₁ g₂ → path ∉ g₂.inFlight →
    Near steps (g₁.enter path) (g₂.enter path)
  congruent : ∀ {steps g₁ g₂}, Near steps g₁ g₂ → Congruent (Rel g₁ g₂)
  unfolded : ∀ {steps fl₁ fl₂ room₁ room₂} {x y : Outcome Value},
    Near steps ⟨fl₁, room₁ + 1⟩ ⟨fl₂, room₂ + 1⟩ → Rel ⟨fl₁, room₁⟩ ⟨fl₂, room₂⟩ x y →
    Rel ⟨fl₁, room₁ + 1⟩ ⟨fl₂, room₂ + 1⟩ (.between .unfolded .folded x)
      (.between .unfolded .folded y)
  full : ∀ {steps fl₁ fl₂}, Near steps ⟨fl₁, 0⟩ ⟨fl₂, 0⟩ →
    Rel ⟨fl₁, 0⟩ ⟨fl₂, 0⟩ (.fail (Guards.cycle ⟨fl₁, 0⟩ .depth) : Outcome Value)
      (.fail (Guards.cycle ⟨fl₂, 0⟩ .depth))
  cut_full : ∀ {steps fl₁ fl₂ room} {x : Outcome Value}, Near steps ⟨fl₁, room + 1⟩ ⟨fl₂, 0⟩ →
    Rel ⟨fl₁, room + 1⟩ ⟨fl₂, 0⟩ x (.fail (Guards.cycle ⟨fl₂, 0⟩ .depth))
  cycle : ∀ {steps g₁ g₂ path}, Near steps g₁ g₂ → path ∈ g₁.inFlight → path ∈ g₂.inFlight →
    Rel g₁ g₂ (.fail (g₁.cycle (.path path)) : Outcome (Option Value))
      (.fail (g₂.cycle (.path path)))
  cut_cycle : ∀ {steps g₁ g₂ path}, Near (steps + 1) g₁ g₂ → path ∉ g₁.inFlight →
    path ∈ g₂.inFlight →
    Rel g₁ g₂ (g₁.read (t.reply disk (steps + lag₁)) t path keepAll)
      (.fail (g₂.cycle (.path path)))
  read : ∀ {steps g₁ g₂ path}, Near (steps + 1) g₁ g₂ → path ∉ g₁.inFlight → path ∉ g₂.inFlight →
    Rel (g₁.enter path) (g₂.enter path)
      ((g₁.enter path).body (t.reply disk (steps + lag₁)) t path keepAll)
      ((g₂.enter path).body (t.reply disk (steps + lag₂)) t path keepAll) →
    Rel g₁ g₂ (g₁.read (t.reply disk (steps + lag₁)) t path keepAll)
      (g₂.read (t.reply disk (steps + lag₂)) t path keepAll)
  exhausted : ∀ {g₁ g₂} (q : Request), Near 0 g₁ g₂ →
    Rel g₁ g₂ (t.reply disk lag₁ g₁ q) (t.reply disk lag₂ g₂ q)

namespace Lockstep

variable {t : Tree} {disk : Disk} {lag₁ lag₂ steps : Nat} {Near : Nat → Guards → Guards → Prop}
  {Rel : {α : Type} → Guards → Guards → Outcome α → Outcome α → Prop} {g₁ g₂ : Guards}

/-- Replies to the plain questions of two courses that are related. -/
def Replying (Near : Nat → Guards → Guards → Prop)
    (Rel : {α : Type} → Guards → Guards → Outcome α → Outcome α → Prop) (steps : Nat)
    (replies₁ replies₂ : Replies) : Prop :=
  ∀ {g₁ g₂}, Near steps g₁ g₂ → ∀ q : Request, q.IsPlain → Rel g₁ g₂ (replies₁ g₁ q) (replies₂ g₂ q)

section Resolving

variable (h : Lockstep t disk lag₁ lag₂ Near Rel) {replies₁ replies₂ : Replies}
  (hreplies : Replying Near Rel steps replies₁ replies₂)
include h hreplies

/-! ### Expansions -/

/-- A string that turns into a table or an array is resolved once more, with less room; all others
    end with the chain. -/
theorem expandString {chain : List Resolver} (hchain : ∀ r ∈ chain, r.IsBuiltIn)
    {fl₁ fl₂ : List KeyPath} {room₁ room₂ : Nat} (near : Near steps ⟨fl₁, room₁⟩ ⟨fl₂, room₂⟩)
    (s : String) :
    Rel ⟨fl₁, room₁⟩ ⟨fl₂, room₂⟩ (LayeredConfig.expandString replies₁ chain fl₁ room₁ s)
      (LayeredConfig.expandString replies₂ chain fl₂ room₂ s) := by
  -- on the room of the first course, of which it has no less than the second one
  induction room₁ generalizing room₂ s with
  | zero =>
    obtain rfl : room₂ = 0 := Nat.le_zero.1 (h.room_le near)
    have hc := h.congruent near
    apply hc.bind_compound (hc.settle (hreplies near) hchain (.string s))
    intro v
    exact h.full near
  | succ room₁ ih =>
    have hc := h.congruent near
    cases room₂ with
    | zero =>
      apply hc.bind_compound (hc.settle (hreplies near) hchain (.string s))
      intro v
      exact h.cut_full near
    | succ room₂ =>
      apply hc.bind_compound (hc.settle (hreplies near) hchain (.string s))
      intro v
      have near' := h.near_unfold near
      have hinside := (h.congruent near').traverse _ _ v fun s _ => ih near' s
      exact h.unfolded near hinside

theorem resolve_of_replying (near : Near steps g₁ g₂) {chain : List Resolver}
    (hchain : ∀ r ∈ chain, r.IsBuiltIn) (v : Value) :
    Rel g₁ g₂ (g₁.resolve replies₁ chain v) (g₂.resolve replies₂ chain v) :=
  (h.congruent near).traverse _ _ v fun s _ => h.expandString hreplies hchain near s

theorem resolveTable_of_replying (near : Near steps g₁ g₂) {chain : List Resolver}
    (hchain : ∀ r ∈ chain, r.IsBuiltIn) (table : Table) :
    Rel g₁ g₂ (g₁.resolveTable replies₁ chain table) (g₂.resolveTable replies₂ chain table) :=
  (h.congruent near).traverseEntries _ _ table fun s _ => h.expandString hreplies hchain near s

/-! ### Paths -/

variable (hb : t.IsBuiltIn) (near : Near steps g₁ g₂)
include hb near

/-- Key by key: a string on the way is expanded before the next key is looked up. -/
theorem walk (v : Option Value) (keys : List String) :
    Rel g₁ g₂ (g₁.walk replies₁ t v keys) (g₂.walk replies₂ t v keys) := by
  have hc := h.congruent near
  induction keys generalizing v with
  | nil => cases v <;> exact hc.pure _
  | cons key rest ih =>
    cases v with
    | none => exact hc.pure _
    | some v =>
      cases v with
      | string s =>
        apply hc.bind (h.resolve_of_replying hreplies near hb (.string s))
        intro v
        cases v with
        | table entries => exact ih _
        | _ => exact hc.pure _
      | table entries => exact ih _
      | _ => exact hc.pure _

theorem find_of_replying (path : KeyPath) :
    Rel g₁ g₂ (g₁.find replies₁ t path) (g₂.find replies₂ t path) := by
  unfold Guards.find
  cases path.segments with
  | nil => exact (h.congruent near).pure _
  | cons key rest => exact h.walk hreplies hb near _ rest

theorem body_of_replying (path : KeyPath) (keep : Value → Bool) :
    Rel g₁ g₂ (g₁.body replies₁ t path keep) (g₂.body replies₂ t path keep) := by
  have hc := h.congruent near
  apply hc.bind (h.find_of_replying hreplies hb near path)
  intro v
  cases v with
  | none => exact hc.pure _
  | some v =>
    by_cases hv : keep v
    · simp only [hv, if_true]
      apply hc.bind (h.resolve_of_replying hreplies near hb v)
      intro v
      exact hc.pure _
    · simp only [hv]
      exact hc.pure _

end Resolving

/-! ### Replies -/

/-- Replies are related at every depth of questions, since a reply is a read with one step less. -/
theorem replying (h : Lockstep t disk lag₁ lag₂ Near Rel) (hb : t.IsBuiltIn) (steps : Nat) :
    Replying Near Rel steps (t.reply disk (steps + lag₁)) (t.reply disk (steps + lag₂)) := by
  induction steps with
  | zero =>
    intro g₁ g₂ near q _
    rw [Nat.zero_add, Nat.zero_add]
    exact h.exhausted q near
  | succ steps ih =>
    intro g₁ g₂ near q hq
    rw [Nat.add_right_comm steps 1 lag₁, Nat.add_right_comm steps 1 lag₂]
    cases q with
    | get path =>
      by_cases h₁ : path ∈ g₁.inFlight
      · have h₂ : path ∈ g₂.inFlight := h.subset near h₁
        simp only [Tree.reply, Guards.read_of_mem h₁, Guards.read_of_mem h₂]
        exact h.cycle near h₁ h₂
      · by_cases h₂ : path ∈ g₂.inFlight
        · -- here the courses part
          simp only [Tree.reply, Guards.read_of_mem h₂]
          exact h.cut_cycle near h₁ h₂
        · exact h.read near h₁ h₂ (h.body_of_replying ih hb (h.near_enter near h₂) path keepAll)
    | load path => exact (h.congruent near).still (Loader.still_loadFile t.loader disk path)
    | resolve v => exact hq.elim
    | resolveTable table => exact hq.elim

section Courses

variable (h : Lockstep t disk lag₁ lag₂ Near Rel) (hb : t.IsBuiltIn) (near : Near steps g₁ g₂)
include h hb near

theorem resolve (v : Value) :
    Rel g₁ g₂ (g₁.resolve (t.reply disk (steps + lag₁)) t.chain v)
      (g₂.resolve (t.reply disk (steps + lag₂)) t.chain v) :=
  h.resolve_of_replying (h.replying hb steps) near hb v

theorem resolveTable (table : Table) :
    Rel g₁ g₂ (g₁.resolveTable (t.reply disk (steps + lag₁)) t.chain table)
      (g₂.resolveTable (t.reply disk (steps + lag₂)) t.chain table) :=
  h.resolveTable_of_replying (h.replying hb steps) near hb table

theorem find (path : KeyPath) :
    Rel g₁ g₂ (g₁.find (t.reply disk (steps + lag₁)) t path)
      (g₂.find (t.reply disk (steps + lag₂)) t path) :=
  h.find_of_replying (h.replying hb steps) hb near path

theorem body (path : KeyPath) (keep : Value → Bool) :
    Rel g₁ g₂ (g₁.body (t.reply disk (steps + lag₁)) t path keep)
      (g₂.body (t.reply disk (steps + lag₂)) t path keep) :=
  h.body_of_replying (h.replying hb steps) hb near path keep

end Courses

end Lockstep

/-! ### Properties of one course -/

/-- `Holds` is kept by all that may happen in a course through the tree whose questions may nest
    `steps` deep, as long as the guards are `Ok`. -/
structure Invariant (t : Tree) (disk : Disk) (Ok : Nat → Guards → Prop)
    (Holds : {α : Type} → Guards → Outcome α → Prop) : Prop where
  ok_unfold : ∀ {steps fl room}, Ok steps ⟨fl, room + 1⟩ → Ok steps ⟨fl, room⟩
  ok_enter : ∀ {steps g path}, Ok (steps + 1) g → path ∉ g.inFlight → Ok steps (g.enter path)
  still : ∀ {steps g} {α : Type} {x : Outcome α}, Ok steps g → x.Still → Holds g x
  bind : ∀ {steps g} {α β : Type} {x : Outcome α} {f : α → Outcome β}, Ok steps g → Holds g x →
    (∀ a, Holds g (f a)) → Holds g (x >>= f)
  unfolded : ∀ {steps fl room} {x : Outcome Value}, Ok steps ⟨fl, room + 1⟩ →
    Holds ⟨fl, room⟩ x → Holds ⟨fl, room + 1⟩ (.between .unfolded .folded x)
  read : ∀ {steps g path}, Ok (steps + 1) g → path ∉ g.inFlight →
    Holds (g.enter path) ((g.enter path).body (t.reply disk steps) t path keepAll) →
    Holds g (g.read (t.reply disk steps) t path keepAll)
  exhausted : ∀ {g} {α : Type}, Ok 0 g → Holds g (.exhausted : Outcome α)

namespace Invariant

variable {t : Tree} {disk : Disk} {Ok : Nat → Guards → Prop}
  {Holds : {α : Type} → Guards → Outcome α → Prop}

/-- A property of one course is a relation between a course and itself. -/
theorem lockstep (h : Invariant t disk Ok Holds) :
    Lockstep t disk 0 0 (fun steps g₁ g₂ => g₁ = g₂ ∧ Ok steps g₁) (fun g _ x _ => Holds g x) where
  subset := by
    rintro steps g₁ g₂ ⟨rfl, -⟩
    exact List.Subset.refl _
  room_le := by
    rintro steps g₁ g₂ ⟨rfl, -⟩
    exact Nat.le_refl _
  near_unfold := by
    rintro steps fl₁ fl₂ room₁ room₂ ⟨heq, hok⟩
    cases heq
    exact ⟨rfl, h.ok_unfold hok⟩
  near_enter := by
    rintro steps g₁ g₂ path ⟨rfl, hok⟩ hpath
    exact ⟨rfl, h.ok_enter hok hpath⟩
  congruent near := ⟨h.still near.2, h.bind near.2⟩
  unfolded near hx := h.unfolded near.2 hx
  full near := h.still near.2 (Outcome.Still.fail _)
  cut_full near := by cases near.1
  cycle near _ _ := h.still near.2 (Outcome.Still.fail _)
  cut_cycle near h₁ h₂ := absurd (near.1 ▸ h₂) h₁
  read near h₁ _ hbody := h.read near.2 h₁ hbody
  exhausted q near := h.exhausted near.2

variable (h : Invariant t disk Ok Holds) (hb : t.IsBuiltIn) {steps : Nat} {g : Guards}
  (hok : Ok steps g)
include h hb hok

theorem resolve (v : Value) : Holds g (g.resolve (t.reply disk steps) t.chain v) :=
  h.lockstep.resolve hb ⟨rfl, hok⟩ v

theorem resolveTable (table : Table) :
    Holds g (g.resolveTable (t.reply disk steps) t.chain table) :=
  h.lockstep.resolveTable hb ⟨rfl, hok⟩ table

theorem find (path : KeyPath) : Holds g (g.find (t.reply disk steps) t path) :=
  h.lockstep.find hb ⟨rfl, hok⟩ path

theorem body (path : KeyPath) (keep : Value → Bool) :
    Holds g (g.body (t.reply disk steps) t path keep) :=
  h.lockstep.body hb ⟨rfl, hok⟩ path keep

end Invariant

end LayeredConfig
