/-
  LayeredConfig/Proofs/Lookup/GuardOrder.lean
  ===========================================
  **The guards only cut reads short.**

  Guards are smaller if fewer paths are in flight and more expansions may still
  be opened.  Under greater guards a read can end with the report of a circle
  where it did not before; nothing else about its ending changes
  (`ending_under_greater_guards`).  The values of a tree therefore do not depend
  on where in a read they are asked for.
-/
import LayeredConfig.Proofs.Lookup.Lockstep
import Mathlib

namespace LayeredConfig

/-! ### The order of guards -/

/-- What is in flight under the first guards is so under the second ones, where no more expansions
    may be opened. -/
structure Guards.Le (g₁ g₂ : Guards) : Prop where
  inFlight : g₁.inFlight ⊆ g₂.inFlight
  room : g₂.room ≤ g₁.room

instance : LE Guards := ⟨Guards.Le⟩

namespace Guards

theorem le_refl (g : Guards) : g ≤ g := ⟨List.Subset.refl _, Nat.le_refl _⟩

theorem le_trans {g₁ g₂ g₃ : Guards} (h₁ : g₁ ≤ g₂) (h₂ : g₂ ≤ g₃) : g₁ ≤ g₃ :=
  ⟨List.Subset.trans h₁.inFlight h₂.inFlight, Nat.le_trans h₂.room h₁.room⟩

theorem le_enter (g : Guards) (path : KeyPath) : g ≤ g.enter path :=
  ⟨List.subset_cons_self _ _, Nat.le_refl _⟩

theorem le_unfold (fl : List KeyPath) (room : Nat) : (⟨fl, room + 1⟩ : Guards) ≤ ⟨fl, room⟩ :=
  ⟨List.Subset.refl _, Nat.le_succ _⟩

theorem enter_le_enter {g₁ g₂ : Guards} (h : g₁ ≤ g₂) (path : KeyPath) :
    g₁.enter path ≤ g₂.enter path :=
  ⟨List.cons_subset_cons path h.inFlight, h.room⟩

end Guards

/-! ### Endings under greater guards -/

namespace Outcome

variable {α β : Type}

/-- The outcomes end alike, or the second one is the report of a circle. -/
def SameOrCyclic (x y : Outcome α) : Prop := y.result = x.result ∨ y.IsCyclic

theorem isCyclic_fail_cycle (g : Guards) (closing : Closing) :
    (fail (g.cycle closing) : Outcome α).IsCyclic := ⟨_, _, rfl⟩

theorem SameOrCyclic.bind {x y : Outcome α} {f f' : α → Outcome β} (h : x.SameOrCyclic y)
    (hf : ∀ a, (f a).SameOrCyclic (f' a)) : (x >>= f).SameOrCyclic (y >>= f') := by
  rcases h with h | h
  · cases hx : x.result with
    | error halt =>
      left
      rw [bind_of_error hx, bind_of_error (h.trans hx)]
    | ok a =>
      rw [bind_of_ok hx, bind_of_ok (h.trans hx)]
      exact hf a
  · exact .inr (h.bind f')

/-- A value that is reached under greater guards is reached under smaller ones. -/
theorem SameOrCyclic.ok_back {x y : Outcome α} (h : x.SameOrCyclic y) {a : α}
    (hy : y.result = .ok a) : x.result = .ok a := by
  rcases h with h | h
  · exact h.symm.trans hy
  · exact absurd h (not_isCyclic_of_ok hy)

theorem SameOrCyclic.back {x y : Outcome α} (h : x.SameOrCyclic y) (hy : ¬ y.IsCyclic) :
    x.result = y.result :=
  (h.resolve_right hy).symm

end Outcome

/-- Greater guards object to more; until they do, the courses are the same. -/
theorem lockstep_guards (t : Tree) (disk : Disk) :
    Lockstep t disk 0 0 (fun _ g₁ g₂ => g₁ ≤ g₂) (fun _ _ x y => x.SameOrCyclic y) where
  subset hg := hg.inFlight
  room_le hg := hg.room
  near_unfold hg := ⟨hg.inFlight, Nat.le_of_succ_le_succ hg.room⟩
  near_enter hg _ := Guards.enter_le_enter hg _
  congruent _ := ⟨fun _ => .inl rfl, fun hx hf => hx.bind hf⟩
  unfolded _ h := h
  full _ := .inr (Outcome.isCyclic_fail_cycle _ _)
  cut_full _ := .inr (Outcome.isCyclic_fail_cycle _ _)
  cycle _ _ _ := .inr (Outcome.isCyclic_fail_cycle _ _)
  cut_cycle _ _ _ := .inr (Outcome.isCyclic_fail_cycle _ _)
  read _ h₁ h₂ hbody := by
    rw [Guards.read_of_not_mem h₁, Guards.read_of_not_mem h₂]
    exact hbody
  exhausted _ _ := .inl rfl

section Courses

variable {t : Tree} (hb : t.IsBuiltIn) (disk : Disk) (steps : Nat) {g₁ g₂ : Guards} (hg : g₁ ≤ g₂)
include hb hg

theorem resolve_sameOrCyclic (v : Value) :
    (g₁.resolve (t.reply disk steps) t.chain v).SameOrCyclic
      (g₂.resolve (t.reply disk steps) t.chain v) :=
  (lockstep_guards t disk).resolve hb hg v

theorem resolveTable_sameOrCyclic (table : Table) :
    (g₁.resolveTable (t.reply disk steps) t.chain table).SameOrCyclic
      (g₂.resolveTable (t.reply disk steps) t.chain table) :=
  (lockstep_guards t disk).resolveTable hb hg table

theorem find_sameOrCyclic (path : KeyPath) :
    (g₁.find (t.reply disk steps) t path).SameOrCyclic
      (g₂.find (t.reply disk steps) t path) :=
  (lockstep_guards t disk).find hb hg path

/-- A path that only the second guards have in flight is where the courses part. -/
theorem read_sameOrCyclic (path : KeyPath) (keep : Value → Bool) :
    (g₁.read (t.reply disk steps) t path keep).SameOrCyclic
      (g₂.read (t.reply disk steps) t path keep) := by
  by_cases h₂ : path ∈ g₂.inFlight
  · rw [Guards.read_of_mem h₂]
    exact .inr (Outcome.isCyclic_fail_cycle _ _)
  · have h₁ : path ∉ g₁.inFlight := by
      intro h
      exact h₂ (hg.inFlight h)
    rw [Guards.read_of_not_mem h₁, Guards.read_of_not_mem h₂]
    exact (lockstep_guards t disk).body hb (Guards.enter_le_enter hg path) path keep

/-- **The guards only turn endings into reports of circles.**  Under smaller guards, a value or
    path comes to the value, or to the error that is no such report, to which it comes under
    greater ones; and under greater guards it ends as under smaller ones, or with such a report. -/
theorem ending_under_greater_guards :
    (∀ v,
      let x := g₁.resolve (t.reply disk steps) t.chain v
      let y := g₂.resolve (t.reply disk steps) t.chain v
      (∀ r, y.result = .ok r → x.result = .ok r) ∧
      (∀ e, y.result = .error (.failed e) → ¬ y.IsCyclic → x.result = .error (.failed e)) ∧
      (y.result = x.result ∨ y.IsCyclic)) ∧
    (∀ path,
      let x := g₁.read (t.reply disk steps) t path keepAll
      let y := g₂.read (t.reply disk steps) t path keepAll
      (∀ r, y.result = .ok r → x.result = .ok r) ∧
      (∀ e, y.result = .error (.failed e) → ¬ y.IsCyclic → x.result = .error (.failed e)) ∧
      (y.result = x.result ∨ y.IsCyclic)) := by
  constructor
  · intro v x y
    have h : x.SameOrCyclic y := resolve_sameOrCyclic hb disk steps hg v
    exact ⟨fun r hr => h.ok_back hr, fun e he hy => (h.back hy).trans he, h⟩
  · intro path x y
    have h : x.SameOrCyclic y := read_sameOrCyclic hb disk steps hg path keepAll
    exact ⟨fun r hr => h.ok_back hr, fun e he hy => (h.back hy).trans he, h⟩

end Courses

/-- Two entries, of which the first one names the second one. -/
def twoEntries : Tree where
  data := [("a", .string "x \x7b\x7b config:b \x7d\x7d"), ("b", .integer 1)]
  chain := [⟨0, .labelled "config" .reference⟩]
  loader := Loader.empty

theorem isBuiltIn_twoEntries : twoEntries.IsBuiltIn := by
  intro r hr
  rw [List.mem_singleton.1 hr]
  trivial

/-- Where the second entry is being read, the read of the first one closes a circle. -/
theorem twoEntries_under_greater_guards :
    let g : Guards := ⟨[⟨["b"]⟩], maxDepth⟩
    let x := Guards.fresh.read (twoEntries.reply [] 2) twoEntries ⟨["a"]⟩ keepAll
    let y := g.read (twoEntries.reply [] 2) twoEntries ⟨["a"]⟩ keepAll
    Guards.fresh ≤ g ∧ x.result = .ok (some (.string "x 1")) ∧ y.IsCyclic := by
  intro g x y
  have hg : Guards.fresh ≤ g := ⟨List.nil_subset _, Nat.le_refl _⟩
  have hx : x.result = .ok (some (.string "x 1")) := by cbv
  have hy : y.result ≠ .ok (some (.string "x 1")) := by
    have heq : y.result = .error (.failed (.cyclic [⟨["b"]⟩, ⟨["a"]⟩] (.path ⟨["b"]⟩))) := by cbv
    intro hvalue
    rw [heq] at hvalue
    cases hvalue
  obtain ⟨-, hread⟩ := ending_under_greater_guards isBuiltIn_twoEntries [] 2 hg
  obtain ⟨-, -, hend⟩ := hread ⟨["a"]⟩
  exact ⟨hg, hx, hend.resolve_left fun heq => hy (heq.trans hx)⟩

end LayeredConfig
