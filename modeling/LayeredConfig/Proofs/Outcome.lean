/-
  LayeredConfig/Proofs/Outcome.lean
  =================================
  **How outcomes are put together.**

  One outcome after another has the ending of the first one that did not reach a
  value, and the journals one behind the other.  An outcome is still
  (`Outcome.Still`) if it reaches an end and no read of a path and no expansion
  began on the way: what a resolver does on its own, and what a loader does.
-/
import LayeredConfig.Outcome
import Mathlib.Data.Set.Insert

namespace LayeredConfig

namespace Outcome

variable {α β : Type}

/-! ### One after the other -/

theorem bind_of_ok {x : Outcome α} {a : α} (h : x.result = .ok a) (f : α → Outcome β) :
    x >>= f = ⟨(f a).result, x.journal ++ (f a).journal⟩ := by
  change x.bind f = _
  simp only [bind, h]

theorem bind_of_error {x : Outcome α} {halt : Halt} (h : x.result = .error halt)
    (f : α → Outcome β) : x >>= f = ⟨.error halt, x.journal⟩ := by
  change x.bind f = _
  simp only [bind, h]

/-- A sequence that reached a value reached one at every step. -/
theorem bind_result_eq_ok {x : Outcome α} {f : α → Outcome β} {b : β} :
    (x >>= f).result = .ok b ↔ ∃ a, x.result = .ok a ∧ (f a).result = .ok b := by
  cases h : x.result with
  | error halt => simp [bind_of_error h]
  | ok a => simp [bind_of_ok h]

theorem ofExcept_result_eq_ok {r : Except Error α} {a : α} :
    (ofExcept r).result = .ok a ↔ r = .ok a := by
  cases r with
  | error e => exact iff_of_false nofun nofun
  | ok b => simp [ofExcept, Outcome.pure]

/-- What follows is in the journal only if there was a value to go on with. -/
theorem mem_journal_bind {x : Outcome α} {f : α → Outcome β} {e : Event} :
    e ∈ (x >>= f).journal ↔ e ∈ x.journal ∨ ∃ a, x.result = .ok a ∧ e ∈ (f a).journal := by
  cases h : x.result with
  | error halt => simp [bind_of_error h]
  | ok a => simp [bind_of_ok h]

theorem mem_journal_between {x : Outcome α} {before after e : Event} :
    e ∈ (between before after x).journal ↔ e = before ∨ e ∈ x.journal ∨ e = after := by
  simp [between]

/-! ### Endings -/

theorem ne_exhausted_of_ok {x : Outcome α} {a : α} (h : x.result = .ok a) :
    x.result ≠ .error .exhausted := by
  rw [h]
  exact nofun

theorem ne_exhausted_of_failed {x : Outcome α} {e : Error} (h : x.result = .error (.failed e)) :
    x.result ≠ .error .exhausted := by
  rw [h]
  exact nofun

/-! ### Circles -/

/-- The outcome is the report of a circle. -/
def IsCyclic (x : Outcome α) : Prop :=
  ∃ inFlight closing, x.result = .error (.failed (.cyclic inFlight closing))

theorem IsCyclic.bind {x : Outcome α} (h : x.IsCyclic) (f : α → Outcome β) :
    (x >>= f).IsCyclic := by
  obtain ⟨inFlight, closing, hx⟩ := h
  exact ⟨inFlight, closing, by rw [bind_of_error hx]⟩

theorem not_isCyclic_of_ok {x : Outcome α} {a : α} (h : x.result = .ok a) : ¬ x.IsCyclic := by
  rintro ⟨inFlight, closing, hx⟩
  rw [h] at hx
  cases hx

end Outcome

/-! ### Stillness -/

/-- The event is neither the beginning nor the end of a read or of an expansion. -/
def Event.IsQuiet : Event → Prop
  | .parsed _ _ | .asked _ _ => True
  | .opened _ | .closed _ | .unfolded | .folded => False

/-- The outcome has a value or an error, and no read and no expansion began on the way. -/
structure Outcome.Still {α : Type} (x : Outcome α) : Prop where
  ends : x.result ≠ .error .exhausted
  quiet : ∀ e ∈ x.journal, e.IsQuiet

namespace Outcome.Still

variable {α β : Type}

theorem pure (a : α) : (Pure.pure a : Outcome α).Still := ⟨nofun, nofun⟩

theorem fail (e : Error) : (Outcome.fail e : Outcome α).Still :=
  ⟨nofun, nofun⟩

theorem ofExcept (r : Except Error α) : (Outcome.ofExcept r).Still := by
  cases r with
  | error e => exact fail e
  | ok a => exact pure a

theorem note {e : Event} (h : e.IsQuiet) : (Outcome.note e).Still :=
  ⟨nofun, by simpa [Outcome.note] using h⟩

theorem bind {x : Outcome α} {f : α → Outcome β} (hx : x.Still) (hf : ∀ a, (f a).Still) :
    (x >>= f).Still := by
  cases h : x.result with
  | error halt =>
    rw [Outcome.bind_of_error h]
    refine ⟨fun hend => hx.ends ?_, hx.quiet⟩
    cases hend
    exact h
  | ok a =>
    rw [Outcome.bind_of_ok h]
    refine ⟨(hf a).ends, fun e he => ?_⟩
    rcases List.mem_append.1 he with he | he
    · exact hx.quiet e he
    · exact (hf a).quiet e he

end Outcome.Still

/-! ### Paths on the way -/

namespace Outcome

variable {α β : Type}

/-- The reads that begin in the course are reads of these paths. -/
def Opens (paths : Set KeyPath) (x : Outcome α) : Prop :=
  ∀ path, .opened path ∈ x.journal → path ∈ paths

variable {paths : Set KeyPath}

theorem Still.opens {x : Outcome α} (h : x.Still) : x.Opens paths :=
  fun _ he => (h.quiet _ he).elim

theorem Opens.bind {x : Outcome α} {f : α → Outcome β} (hx : x.Opens paths)
    (hf : ∀ a, x.result = .ok a → (f a).Opens paths) : (x >>= f).Opens paths := by
  intro path hpath
  rcases mem_journal_bind.1 hpath with h | ⟨a, ha, h⟩
  · exact hx path h
  · exact hf a ha path h

theorem Opens.of_bind {x : Outcome α} {f : α → Outcome β} (h : (x >>= f).Opens paths) :
    x.Opens paths ∧ ∀ a, x.result = .ok a → (f a).Opens paths := by
  constructor
  · exact fun path hpath => h path (mem_journal_bind.2 (.inl hpath))
  · exact fun a ha path hpath => h path (mem_journal_bind.2 (.inr ⟨a, ha, hpath⟩))

theorem Opens.unfolded {x : Outcome α} (h : x.Opens paths) :
    (between .unfolded .folded x).Opens paths := by
  intro path hpath
  have hpath' := (mem_journal_between.1 hpath).resolve_left nofun
  exact h path (hpath'.resolve_right nofun)

/-- A read adds its own path to those of the reads within it. -/
theorem Opens.read {x : Outcome α} {p : KeyPath} (h : x.Opens paths) :
    (between (.opened p) (.closed p) x).Opens (insert p paths) := by
  intro path hpath
  rcases mem_journal_between.1 hpath with heq | h' | heq
  · exact .inl (Event.opened.inj heq)
  · exact .inr (h path h')
  · cases heq

end Outcome

end LayeredConfig
