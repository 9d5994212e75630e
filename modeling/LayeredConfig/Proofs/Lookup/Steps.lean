/-
  LayeredConfig/Proofs/Lookup/Steps.lean
  ======================================
  **More steps never change an ending.**

  How deep questions may nest is no part of a tree: a read that came to an end
  comes to the same one, by the same course, when it is given more steps; a read
  that was exhausted goes on, and begins all the reads that it began before
  (`Outcome.Extends`).  What a read comes to with enough steps is therefore well
  defined, and a read that is exhausted with any number of steps has no end.
-/
import LayeredConfig.Proofs.Lookup.Lockstep

namespace LayeredConfig

/-! ### Outcomes with more steps -/

namespace Outcome

variable {α β : Type}

/-- The second outcome is the first one, or the first one was exhausted on the way to it. -/
def Extends (x y : Outcome α) : Prop :=
  y = x ∨ x.result = .error .exhausted ∧ x.journal ⊆ y.journal

theorem Extends.bind {x y : Outcome α} {f f' : α → Outcome β} (h : x.Extends y)
    (hf : ∀ a, (f a).Extends (f' a)) : (x >>= f).Extends (y >>= f') := by
  rcases h with rfl | ⟨hend, hjournal⟩
  · cases hy : y.result with
    | error halt =>
      left
      rw [bind_of_error hy, bind_of_error hy]
    | ok a =>
      rw [bind_of_ok hy, bind_of_ok hy]
      rcases hf a with heq | ⟨hend, hjournal⟩
      · left
        rw [heq]
      · refine .inr ⟨hend, ?_⟩
        exact List.append_subset.2 ⟨List.subset_append_left _ _,
          List.subset_append_of_subset_right _ hjournal⟩
  · right
    rw [bind_of_error hend]
    refine ⟨rfl, ?_⟩
    intro e he
    exact mem_journal_bind.2 (.inl (hjournal he))

theorem Extends.between {x y : Outcome α} (h : x.Extends y) (before after : Event) :
    (between before after x).Extends (between before after y) := by
  rcases h with rfl | ⟨hend, hjournal⟩
  · exact .inl rfl
  · refine .inr ⟨hend, ?_⟩
    intro e he
    rw [mem_journal_between] at he ⊢
    rcases he with he | he | he
    · exact .inl he
    · exact .inr (.inl (hjournal he))
    · exact .inr (.inr he)

theorem Extends.journal_subset {x y : Outcome α} (h : x.Extends y) : x.journal ⊆ y.journal := by
  rcases h with rfl | ⟨-, hjournal⟩
  · exact List.Subset.refl _
  · exact hjournal

/-- Only exhaustion leaves room for more: any other ending is the last word. -/
theorem Extends.eq {x y : Outcome α} (h : x.Extends y) (hx : x.result ≠ .error .exhausted) :
    y = x := by
  rcases h with heq | ⟨hend, -⟩
  · exact heq
  · exact absurd hend hx

end Outcome

/-- A course with more steps does again whatever it does with fewer. -/
theorem lockstep_steps (t : Tree) (disk : Disk) (lag : Nat) :
    Lockstep t disk 0 lag (fun _ g₁ g₂ => g₁ = g₂) (fun _ _ x y => x.Extends y) where
  subset near := near ▸ List.Subset.refl _
  room_le near := near ▸ Nat.le_refl _
  near_unfold near := by
    cases near
    rfl
  near_enter near _ := near ▸ rfl
  congruent _ := ⟨fun _ => .inl rfl, fun hx hf => hx.bind hf⟩
  unfolded _ h := h.between _ _
  full near := by
    cases near
    exact .inl rfl
  cut_full near := by cases near
  cycle near _ _ := by
    subst near
    exact .inl rfl
  cut_cycle near h₁ h₂ := absurd (near ▸ h₂) h₁
  read _ h₁ h₂ hbody := by
    rw [Guards.read_of_not_mem h₁, Guards.read_of_not_mem h₂]
    exact hbody.between _ _
  exhausted _ _ := .inr ⟨rfl, List.nil_subset _⟩

/-! ### Runs -/

/-- The outcomes of one read for every number of steps: more steps only ever extend it. -/
def Extending {α : Type} (run : Nat → Outcome α) : Prop :=
  ∀ steps lag, (run steps).Extends (run (steps + lag))

namespace Extending

variable {α β : Type} {run : Nat → Outcome α}

/-- An end that was reached is reached with more steps as well. -/
theorem eq_of_le (h : Extending run) {steps more : Nat} (hle : steps ≤ more)
    (hend : (run steps).result ≠ .error .exhausted) : run more = run steps := by
  obtain ⟨lag, rfl⟩ := Nat.exists_eq_add_of_le hle
  exact (h steps lag).eq hend

theorem journal_subset (h : Extending run) {steps more : Nat} (hle : steps ≤ more) :
    (run steps).journal ⊆ (run more).journal := by
  obtain ⟨lag, rfl⟩ := Nat.exists_eq_add_of_le hle
  exact (h steps lag).journal_subset

theorem bind (h : Extending run) {f : α → Outcome β} :
    Extending fun steps => run steps >>= f := by
  intro steps lag
  apply (h steps lag).bind
  intro a
  exact .inl rfl

end Extending

section Runs

variable {t : Tree} (hb : t.IsBuiltIn) (disk : Disk) (g : Guards)
include hb

theorem extending_resolve (v : Value) :
    Extending fun steps => g.resolve (t.reply disk steps) t.chain v := by
  intro steps lag
  exact (lockstep_steps t disk lag).resolve hb rfl v

theorem extending_resolveTable (table : Table) :
    Extending fun steps => g.resolveTable (t.reply disk steps) t.chain table := by
  intro steps lag
  exact (lockstep_steps t disk lag).resolveTable hb rfl table

theorem extending_find (path : KeyPath) :
    Extending fun steps => g.find (t.reply disk steps) t path := by
  intro steps lag
  exact (lockstep_steps t disk lag).find hb rfl path

/-- A path in flight is always refused; any other read extends as its body does. -/
theorem extending_read (path : KeyPath) (keep : Value → Bool) :
    Extending fun steps => g.read (t.reply disk steps) t path keep := by
  intro steps lag
  by_cases h : path ∈ g.inFlight
  · left
    simp only [Guards.read_of_mem h]
  · simp only [Guards.read_of_not_mem h]
    exact ((lockstep_steps t disk lag).body hb rfl path keep).between _ _

end Runs

end LayeredConfig
