/-
  LayeredConfig/Proofs/Tree/Ending.lean
  =====================================
  **When a read comes to an end.**

  The two guards end every read that begins the reads of finitely many paths, and
  such are exactly the reads that end (`reads_end_iff_finitely_many_paths`): if
  those paths are `n`, at most `n` of them are ever in flight, each of them once,
  and questions nest no deeper than that, while the expansions that are open
  inside one another are at most `maxDepth`.  Nothing else is asked of a tree: its
  host functions, files, labels and resolvers are what they are.
-/
import LayeredConfig.Proofs.Lookup.Course
import LayeredConfig.Proofs.Lookup.Steps
import Mathlib.Data.Finset.Card

namespace LayeredConfig

/-! ### Reads of a tree -/

namespace Tree

def getWithin (t : Tree) (disk : Disk) (path : KeyPath) (steps : Nat) : Outcome (Option Value) :=
  Guards.fresh.read (t.reply disk steps) t path keepAll

def getOrWithin (t : Tree) (disk : Disk) (path : KeyPath) (default : Value) (steps : Nat) :
    Outcome Value := do
  let v ← Guards.fresh.read (t.reply disk steps) t path Value.isTruthy
  return v.getD default

def allWithin (t : Tree) (disk : Disk) (steps : Nat) : Outcome Table :=
  Guards.fresh.resolveTable (t.reply disk steps) t.chain t.data

theorem get_eq_getWithin (t : Tree) (disk : Disk) (path : KeyPath) :
    t.get disk path = t.getWithin disk path maxSteps := rfl

theorem getOr_eq_getOrWithin (t : Tree) (disk : Disk) (path : KeyPath) (default : Value) :
    t.getOr disk path default = t.getOrWithin disk path default maxSteps := rfl

theorem all_eq_allWithin (t : Tree) (disk : Disk) : t.all disk = t.allWithin disk maxSteps := rfl

end Tree

/-! ### Ends and bounds -/

section Ends

variable {α : Type}

/-- With enough steps the read always has one and the same outcome, a value or an error. -/
def ComesBack (run : Nat → Outcome α) : Prop :=
  ∃ x : Outcome α, x.result ≠ .error .exhausted ∧ ∃ enough, ∀ steps, enough ≤ steps → run steps = x

/-- Every path whose read begins in the course, with however many steps, is one of these. -/
def ReadsAmong (run : Nat → Outcome α) (paths : Finset KeyPath) : Prop :=
  ∀ steps, (run steps).Opens paths

/-- A read ends exactly if it begins the reads of finitely many paths; and these bound how deep
    questions nest, and at every moment how many paths are in flight. -/
structure EndsByPaths (run : Nat → Outcome α) : Prop where
  comesBack_iff : ComesBack run ↔ ∃ paths, ReadsAmong run paths
  ends : ∀ paths, ReadsAmong run paths →
    ∃ x : Outcome α, x.result ≠ .error .exhausted ∧ ∀ steps, paths.card < steps → run steps = x
  inFlight : ∀ paths, ReadsAmong run paths → ∀ steps j, j <+: (run steps).journal →
    (inFlightAfter [] j).Nodup ∧ (∀ path ∈ inFlightAfter [] j, path ∈ paths) ∧
      (inFlightAfter [] j).length ≤ paths.card
  expansions : ∀ steps j, j <+: (run steps).journal →
    0 ≤ openExpansions j ∧ openExpansions j ≤ maxDepth

def Event.opened? : Event → Option KeyPath
  | .opened path => some path
  | _ => none

theorem length_le_card {fl : List KeyPath} {paths : Finset KeyPath} (hfl : fl.Nodup)
    (hsub : ∀ path ∈ fl, path ∈ paths) : fl.length ≤ paths.card := by
  rw [← List.toFinset_card_of_nodup hfl]
  apply Finset.card_le_card
  intro path hpath
  exact hsub path (List.mem_toFinset.1 hpath)

/-- The paths in flight are different ones, so there are at most as many as paths that are read;
    with that many steps no question is left without a reply. -/
theorem EndsByPaths.of_course {run : Nat → Outcome α} (hrun : Extending run)
    (hcourse : ∀ steps, Course steps Guards.fresh (run steps)) : EndsByPaths run := by
  have hmoment : ∀ paths, ReadsAmong run paths → ∀ steps j, j <+: (run steps).journal →
      ∀ path ∈ inFlightAfter [] j, path ∈ paths := by
    intro paths hpaths steps j hj path hpath
    rcases mem_of_mem_inFlightAfter hpath with h | h
    · cases h
    · exact hpaths steps path (hj.subset h)
  have hends : ∀ paths, ReadsAmong run paths →
      ∃ x : Outcome α, x.result ≠ .error .exhausted ∧
        ∀ steps, paths.card < steps → run steps = x := by
    intro paths hpaths
    have hend : (run (paths.card + 1)).result ≠ .error .exhausted := by
      intro hend
      -- with too few steps there was a moment with more paths in flight than there are
      obtain ⟨j, hj, hdeep⟩ := (hcourse _).deep hend
      have hlen : (inFlightAfter [] j).length ≤ paths.card :=
        length_le_card ((hcourse _).nodup j hj) (hmoment paths hpaths _ j hj)
      exact Nat.not_succ_le_self _ (hdeep.trans hlen)
    refine ⟨run (paths.card + 1), hend, ?_⟩
    intro steps hsteps
    exact hrun.eq_of_le hsteps hend
  refine ⟨⟨?_, ?_⟩, hends, ?_, ?_⟩
  · rintro ⟨x, hx, enough, henough⟩
    refine ⟨(x.journal.filterMap Event.opened?).toFinset, ?_⟩
    intro steps path hpath
    have hle : (run steps).journal ⊆ x.journal := by
      rw [← henough (max steps enough) (Nat.le_max_right _ _)]
      exact hrun.journal_subset (Nat.le_max_left _ _)
    exact List.mem_toFinset.2 (List.mem_filterMap.2 ⟨_, hle hpath, rfl⟩)
  · rintro ⟨paths, hpaths⟩
    obtain ⟨x, hx, henough⟩ := hends paths hpaths
    exact ⟨x, hx, paths.card + 1, henough⟩
  · intro paths hpaths steps j hj
    have hnodup := (hcourse steps).nodup j hj
    have hsub := hmoment paths hpaths steps j hj
    exact ⟨hnodup, hsub, length_le_card hnodup hsub⟩
  · intro steps j hj
    exact ⟨(hcourse steps).open_nonneg j hj, (hcourse steps).open_le j hj⟩

end Ends

/-! ### The reads of a tree end -/

section Reads

variable {t : Tree} (hb : t.IsBuiltIn) (disk : Disk)
include hb

theorem course_read (path : KeyPath) (keep : Value → Bool) (steps : Nat) :
    Course steps Guards.fresh (Guards.fresh.read (t.reply disk steps) t path keep) := by
  have hfresh : path ∉ Guards.fresh.inFlight := List.not_mem_nil
  have hwithin : (Guards.fresh.enter path).Within steps steps :=
    ⟨List.nodup_singleton path, Nat.le_add_right _ _⟩
  rw [Guards.read_of_not_mem hfresh]
  exact ((invariant_course t disk steps).body hb hwithin path keep).enclosed List.nodup_nil

theorem course_all (steps : Nat) : Course steps Guards.fresh (t.allWithin disk steps) :=
  (invariant_course t disk steps).resolveTable hb ⟨List.nodup_nil, Nat.le_add_right _ _⟩ t.data

/-- **A read comes back if and only if it reads finitely many paths.**  The same holds for reads of
    a path, with a default or without, and for the read of all data. -/
theorem reads_end_iff_finitely_many_paths (path : KeyPath) (default : Value) :
    EndsByPaths (t.getWithin disk path) ∧ EndsByPaths (t.getOrWithin disk path default) ∧
      EndsByPaths (t.allWithin disk) := by
  refine ⟨?_, ?_, ?_⟩
  · exact .of_course (extending_read hb disk _ path keepAll) (course_read hb disk path keepAll)
  · apply EndsByPaths.of_course (extending_read hb disk _ path Value.isTruthy).bind
    intro steps
    apply (course_read hb disk path Value.isTruthy steps).bind
    intro v
    exact Course.of_still List.nodup_nil (Outcome.Still.pure _)
  · exact .of_course (extending_resolveTable hb disk _ t.data) (course_all hb disk)

end Reads

end LayeredConfig
