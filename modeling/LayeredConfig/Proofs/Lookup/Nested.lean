/-
  LayeredConfig/Proofs/Lookup/Nested.lean
  =======================================
  **One more path in flight.**

  What becomes of a read if one more path is in flight?  If the read does not
  begin a read of that path, it ends alike (`lockstep_beside`).  If it does, then
  that nested read has reached a value, or the read as a whole has ended with
  the very error of the nested one (`invariant_nested`).  And a read that goes
  through such nested reads ends alike if each of them ends with the report of
  a circle anyway (`lockstep_reentrant`).
-/
import LayeredConfig.Proofs.Lookup.GuardOrder
import LayeredConfig.Proofs.Lookup.Steps

namespace LayeredConfig

/-! ### Values that stay -/

/-- An ending other than exhaustion and the report of a circle is kept under smaller guards and with
    more steps. -/
def Steady {α : Type} (run : Guards → Nat → Outcome α) : Prop :=
  ∀ g₁ g₂ more steps, g₁ ≤ g₂ → steps ≤ more → ¬ (run g₂ steps).IsCyclic →
    (run g₂ steps).result ≠ .error .exhausted → (run g₁ more).result = (run g₂ steps).result

namespace Steady

variable {α : Type} {run : Guards → Nat → Outcome α}

theorem intro (hguards : ∀ g₁ g₂ steps, g₁ ≤ g₂ → (run g₁ steps).SameOrCyclic (run g₂ steps))
    (hsteps : ∀ g, Extending (run g)) : Steady run := by
  intro g₁ g₂ more steps hg hle hcyclic hend
  have hsame := (hguards g₁ g₂ steps hg).back hcyclic
  rw [(hsteps g₁).eq_of_le hle (hsame ▸ hend)]
  exact hsame

/-- A value stays under smaller guards and with more steps. -/
theorem ok (h : Steady run) {g₁ g₂ : Guards} {more steps : Nat} {a : α} (hg : g₁ ≤ g₂)
    (hle : steps ≤ more) (ha : (run g₂ steps).result = .ok a) : (run g₁ more).result = .ok a := by
  rw [h _ _ _ _ hg hle (Outcome.not_isCyclic_of_ok ha) (Outcome.ne_exhausted_of_ok ha), ha]

/-- There is one value at most, whatever the guards and the steps. -/
theorem unique (h : Steady run) {g₁ g₂ : Guards} {steps₁ steps₂ : Nat} {a b : α}
    (ha : (run g₁ steps₁).result = .ok a) (hb : (run g₂ steps₂).result = .ok b) : a = b := by
  let least : Guards := ⟨[], max g₁.room g₂.room⟩
  have h₁ : least ≤ g₁ := ⟨List.nil_subset _, Nat.le_max_left _ _⟩
  have h₂ : least ≤ g₂ := ⟨List.nil_subset _, Nat.le_max_right _ _⟩
  have ha' := h.ok h₁ (Nat.le_max_left steps₁ steps₂) ha
  have hb' := h.ok h₂ (Nat.le_max_right steps₁ steps₂) hb
  rw [ha'] at hb'
  exact Except.ok.inj hb'

end Steady

section Runs

variable {t : Tree} (hb : t.IsBuiltIn) (disk : Disk)
include hb

theorem steady_resolve (v : Value) :
    Steady fun g steps => g.resolve (t.reply disk steps) t.chain v := by
  apply Steady.intro
  · intro g₁ g₂ steps hg
    exact resolve_sameOrCyclic hb disk steps hg v
  · intro g
    exact extending_resolve hb disk g v

theorem steady_find (path : KeyPath) :
    Steady fun g steps => g.find (t.reply disk steps) t path := by
  apply Steady.intro
  · intro g₁ g₂ steps hg
    exact find_sameOrCyclic hb disk steps hg path
  · intro g
    exact extending_find hb disk g path

theorem steady_read (path : KeyPath) :
    Steady fun g steps => g.read (t.reply disk steps) t path keepAll := by
  apply Steady.intro
  · intro g₁ g₂ steps hg
    exact read_sameOrCyclic hb disk steps hg path keepAll
  · intro g
    exact extending_read hb disk g path keepAll

end Runs

/-! ### Beside one more path -/

/-- The second guards have one more path in flight. -/
structure Guards.Beside (q : KeyPath) (g₁ g₂ : Guards) : Prop where
  mem_iff : ∀ path, path ∈ g₂.inFlight ↔ path ∈ g₁.inFlight ∨ path = q
  room_eq : g₂.room = g₁.room

namespace Guards.Beside

variable {q : KeyPath} {g₁ g₂ : Guards}

theorem of_enter (g : Guards) (q : KeyPath) : g.Beside q (g.enter q) :=
  ⟨fun _ => List.mem_cons.trans or_comm, rfl⟩

theorem enter (h : g₁.Beside q g₂) (path : KeyPath) : (g₁.enter path).Beside q (g₂.enter path) := by
  refine ⟨?_, h.room_eq⟩
  intro other
  simp only [Guards.enter, List.mem_cons, h.mem_iff other, or_assoc]

theorem eq_of_mem (h : g₁.Beside q g₂) {path : KeyPath} (h₁ : path ∉ g₁.inFlight)
    (h₂ : path ∈ g₂.inFlight) : path = q :=
  ((h.mem_iff path).1 h₂).resolve_left h₁

end Guards.Beside

namespace Outcome

variable {α β : Type}

/-- The outcomes end with one value or error, or both with the report of a circle. -/
def EndsAlike (x y : Outcome α) : Prop := y.result = x.result ∨ x.IsCyclic ∧ y.IsCyclic

/-- Both courses go on with the same value, or neither goes on. -/
theorem EndsAlike.bind {x y : Outcome α} {f f' : α → Outcome β} (h : x.EndsAlike y)
    (hf : ∀ a, x.result = .ok a → (f a).EndsAlike (f' a)) : (x >>= f).EndsAlike (y >>= f') := by
  rcases h with h | ⟨hx, hy⟩
  · cases hx : x.result with
    | error halt =>
      left
      rw [bind_of_error hx, bind_of_error (h.trans hx)]
    | ok a =>
      rw [bind_of_ok hx, bind_of_ok (h.trans hx)]
      exact hf a hx
  · exact .inr ⟨hx.bind f, hy.bind f'⟩

theorem EndsAlike.ok {x y : Outcome α} (h : x.EndsAlike y) {a : α} (ha : x.result = .ok a) :
    y.result = .ok a := by
  rcases h with h | ⟨hx, -⟩
  · exact h.trans ha
  · exact absurd hx (not_isCyclic_of_ok ha)

theorem endsAlike_cycle (g₁ g₂ : Guards) (closing₁ closing₂ : Closing) :
    (fail (g₁.cycle closing₁) : Outcome α).EndsAlike (fail (g₂.cycle closing₂)) :=
  .inr ⟨isCyclic_fail_cycle _ _, isCyclic_fail_cycle _ _⟩

end Outcome

/-- It makes no difference that a path is in flight to a course that does not read it. -/
theorem lockstep_beside (t : Tree) (disk : Disk) (q : KeyPath) :
    Lockstep t disk 0 0 (fun _ g₁ g₂ => g₁.Beside q g₂)
      (fun _ _ x y => .opened q ∉ x.journal → x.EndsAlike y) where
  subset near path hpath := (near.mem_iff path).2 (.inl hpath)
  room_le near := Nat.le_of_eq near.room_eq
  near_unfold near := ⟨near.mem_iff, Nat.succ.inj near.room_eq⟩
  near_enter near _ := near.enter _
  congruent near := by
    constructor
    · intro α x _ _
      exact .inl rfl
    · intro α β x y f f' hx hf hq
      have hqx : .opened q ∉ x.journal := by
        intro h
        exact hq (Outcome.mem_journal_bind.2 (.inl h))
      apply (hx hqx).bind
      intro a ha
      apply hf a
      intro h
      exact hq (Outcome.mem_journal_bind.2 (.inr ⟨a, ha, h⟩))
  unfolded _ h hq := by
    apply h
    intro he
    exact hq (Outcome.mem_journal_between.2 (.inr (.inl he)))
  full _ _ := Outcome.endsAlike_cycle _ _ _ _
  cut_full near := absurd near.room_eq nofun
  cycle _ _ _ _ := Outcome.endsAlike_cycle _ _ _ _
  cut_cycle near h₁ h₂ hq := by
    obtain rfl := near.eq_of_mem h₁ h₂
    rw [Guards.read_of_not_mem h₁] at hq
    exact absurd (Outcome.mem_journal_between.2 (.inl rfl)) hq
  read _ h₁ h₂ hbody hq := by
    rw [Guards.read_of_not_mem h₁] at hq ⊢
    rw [Guards.read_of_not_mem h₂]
    apply hbody
    intro he
    exact hq (Outcome.mem_journal_between.2 (.inr (.inl he)))
  exhausted _ _ _ := .inl rfl

/-! ### A path read on the way -/

/-- Every read of the path on the way has reached a value, or its error is the ending of all. -/
def Nested (t : Tree) (disk : Disk) (bound : Nat) (q : KeyPath) {α : Type} (g : Guards)
    (x : Outcome α) : Prop :=
  .opened q ∈ x.journal → ∃ inner steps, g ≤ inner ∧ steps ≤ bound ∧
    ((∃ a, (inner.read (t.reply disk steps) t q keepAll).result = .ok a) ∨
      ∃ halt, (inner.read (t.reply disk steps) t q keepAll).result = .error halt ∧
        x.result = .error halt)

/-- What is known of a read within a part of a course is known of it within the course. -/
theorem Nested.weaken {t : Tree} {disk : Disk} {bound : Nat} {q : KeyPath} {α β : Type}
    {g g' : Guards} {x : Outcome α} {y : Outcome β} (h : Nested t disk bound q g' x) (hg : g ≤ g')
    (hx : .opened q ∈ x.journal) (hy : ∀ halt, x.result = .error halt → y.result = .error halt) :
    Nested t disk bound q g y := by
  intro _
  obtain ⟨inner, steps, hle, hsteps, hend⟩ := h hx
  refine ⟨inner, steps, Guards.le_trans hg hle, hsteps, hend.imp_right ?_⟩
  rintro ⟨halt, hinner, hhalt⟩
  exact ⟨halt, hinner, hy halt hhalt⟩

theorem invariant_nested (t : Tree) (disk : Disk) (bound : Nat) (q : KeyPath) :
    Invariant t disk (fun steps _ => steps ≤ bound) (fun g x => Nested t disk bound q g x) where
  ok_unfold h := h
  ok_enter h _ := Nat.le_of_succ_le h
  still _ hx hq := (hx.quiet _ hq).elim
  bind _ hx hf hq := by
    rcases Outcome.mem_journal_bind.1 hq with h | ⟨a, ha, h⟩
    · exact hx.weaken (Guards.le_refl _) h (fun halt hh => by rw [Outcome.bind_of_error hh]) hq
    · exact (hf a).weaken (Guards.le_refl _) h (fun halt hh => by rw [Outcome.bind_of_ok ha, hh]) hq
  unfolded _ hx hq := by
    have hq' := (Outcome.mem_journal_between.1 hq).resolve_left nofun
    exact hx.weaken (Guards.le_unfold _ _) (hq'.resolve_right nofun) (fun _ hh => hh) hq
  read {steps g path} hbound hpath hbody hq := by
    by_cases hqp : q = path
    · -- the read of the path itself
      subst hqp
      refine ⟨g, steps, Guards.le_refl _, Nat.le_of_succ_le hbound, ?_⟩
      cases hend : (g.read (t.reply disk steps) t q keepAll).result with
      | ok a => exact .inl ⟨a, rfl⟩
      | error halt => exact .inr ⟨halt, rfl, rfl⟩
    · rw [Guards.read_of_not_mem hpath] at hq ⊢
      have hq' := (Outcome.mem_journal_between.1 hq).resolve_left fun h => hqp (Event.opened.inj h)
      exact hbody.weaken (Guards.le_enter _ _) (hq'.resolve_right nofun) (fun _ hh => hh) hq
  exhausted _ hq := absurd hq List.not_mem_nil

/-! ### A path that is read in a circle anyway -/

/-- A path whose read runs into a circle by itself may as well be in flight: a course that reads it
    ends with a report either way. -/
theorem lockstep_reentrant {t : Tree} (hb : t.IsBuiltIn) (disk : Disk) {q : KeyPath} {lag : Nat}
    (hq : (Guards.fresh.read (t.reply disk lag) t q keepAll).IsCyclic) :
    Lockstep t disk lag 0 (fun _ g₁ g₂ => g₁.Beside q g₂ ∧ Guards.fresh ≤ g₁)
      (fun _ _ x y => y.result ≠ .error .exhausted → x.EndsAlike y) where
  subset near path hpath := (near.1.mem_iff path).2 (.inl hpath)
  room_le near := Nat.le_of_eq near.1.room_eq
  near_unfold near :=
    ⟨⟨near.1.mem_iff, Nat.succ.inj near.1.room_eq⟩, Guards.le_trans near.2 (Guards.le_unfold _ _)⟩
  near_enter near _ := ⟨near.1.enter _, Guards.le_trans near.2 (Guards.le_enter _ _)⟩
  congruent near := by
    constructor
    · intro α x _ _
      exact .inl rfl
    · intro α β x y f f' hx hf hend
      have hy : y.result ≠ .error .exhausted := by
        intro h
        apply hend
        rw [Outcome.bind_of_error h]
      rcases hx hy with heq | ⟨hcx, hcy⟩
      · apply (hx hy).bind
        intro a ha
        apply hf a
        intro h
        apply hend
        rw [Outcome.bind_of_ok (heq.trans ha)]
        exact h
      · exact .inr ⟨hcx.bind f, hcy.bind f'⟩
  unfolded _ h := h
  full _ _ := Outcome.endsAlike_cycle _ _ _ _
  cut_full near := absurd near.1.room_eq nofun
  cycle _ _ _ _ := Outcome.endsAlike_cycle _ _ _ _
  cut_cycle {steps g₁ g₂ path} near h₁ h₂ _ := by
    obtain rfl := near.1.eq_of_mem h₁ h₂
    refine .inr ⟨?_, Outcome.isCyclic_fail_cycle _ _⟩
    -- with more steps and under greater guards the circle is still reported
    have hmore : Guards.fresh.read (t.reply disk (steps + lag)) t path keepAll =
        Guards.fresh.read (t.reply disk lag) t path keepAll := by
      obtain ⟨inFlight, closing, hend⟩ := hq
      exact (extending_read hb disk Guards.fresh path keepAll).eq_of_le (Nat.le_add_left _ _)
        (Outcome.ne_exhausted_of_failed hend)
    rcases read_sameOrCyclic hb disk (steps + lag) near.2 path keepAll with heq | hcyclic
    · obtain ⟨inFlight, closing, hend⟩ := hmore ▸ hq
      exact ⟨inFlight, closing, heq.trans hend⟩
    · exact hcyclic
  read _ h₁ h₂ hbody := by
    rw [Guards.read_of_not_mem h₁, Guards.read_of_not_mem h₂]
    exact hbody
  exhausted _ _ hend := absurd rfl hend

end LayeredConfig
