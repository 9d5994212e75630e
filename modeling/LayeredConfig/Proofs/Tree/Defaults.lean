/-
  LayeredConfig/Proofs/Tree/Defaults.lean
  =======================================
  **Reads with a default.**

  A read with a default judges the value that the walk has reached and lets go of it if
  it is an empty one, before its tokens are resolved.  That saves a pass of the chain and
  changes nothing else: an empty value has no tokens, so the pass can neither fail nor
  ask for anything, and it leaves the value as it is (`resolve_of_empty`).  The two reads
  therefore take the same course, whatever resolvers the chain has, and their values
  differ only where there is nothing or an empty value (`read_with_default`).

  A value that becomes empty in the last pass is not an empty one when it is judged.
-/
import LayeredConfig.Proofs.Lookup.Chain
import LayeredConfig.Proofs.Tree.Around

namespace LayeredConfig

/-! ### Empty values -/

section Resolving

variable {replies : Replies} {chain : List Resolver} {g : Guards}

theorem resolve_empty_string : g.resolve replies chain (.string "") = pure (.string "") := by
  have htoken : ¬ Template.HasToken "" := by
    rw [Template.hasToken_iff]
    rintro ⟨body, hbody⟩
    have hpieces : Template.pieces "".toList = [] := by cbv
    rw [hpieces] at hbody
    cases hbody
  exact expandString_of_no_token htoken g.room

/-- An empty value is resolved to itself, without a question to anyone. -/
theorem resolve_of_empty {v : Value} (h : v.isTruthy = false) :
    g.resolve replies chain v = pure v := by
  cases v with
  | string s =>
    obtain rfl : s = "" := by simpa [Value.isTruthy] using h
    exact resolve_empty_string
  | array items =>
    obtain rfl : items = [] := by simpa [Value.isTruthy] using h
    rfl
  | table entries =>
    obtain rfl : entries = [] := by simpa [Value.isTruthy] using h
    rfl
  | integer i => rfl
  | float x => rfl
  | boolean b => rfl
  | datetime d => rfl

end Resolving

/-! ### Two courses -/

section Body

variable {replies : Replies} {t : Tree} {g : Guards} {path : KeyPath}

/-- What the read would keep anyway is not judged. -/
theorem body_eq_of_keep {keep : Value → Bool}
    (h : ∀ v, (g.find replies t path).result = .ok (some v) → keep v = true) :
    g.body replies t path keep = g.body replies t path keepAll := by
  rw [Guards.body, Guards.body]
  cases hfind : (g.find replies t path).result with
  | error halt => rw [Outcome.bind_of_error hfind, Outcome.bind_of_error hfind]
  | ok found =>
    rw [Outcome.bind_of_ok hfind, Outcome.bind_of_ok hfind]
    cases found with
    | none => rfl
    | some v =>
      have hkeep := h v hfind
      simp only [hkeep, keepAll, if_true]

/-- A value that is not kept is let go of where it was found. -/
theorem body_of_not_kept {keep : Value → Bool} {v : Value}
    (hfind : (g.find replies t path).result = .ok (some v)) (hkeep : keep v = false) :
    g.body replies t path keep = ⟨.ok none, (g.find replies t path).journal⟩ := by
  rw [Guards.body, Outcome.bind_of_ok hfind]
  simp only [hkeep]
  exact Outcome.ext rfl (List.append_nil _)

theorem body_of_empty {v : Value} (hfind : (g.find replies t path).result = .ok (some v))
    (hv : v.isTruthy = false) :
    g.body replies t path keepAll = ⟨.ok (some v), (g.find replies t path).journal⟩ := by
  rw [Guards.body, Outcome.bind_of_ok hfind]
  simp only [keepAll, if_true, resolve_of_empty hv]
  exact Outcome.ext rfl (List.append_nil _)

end Body

/-! ### Two reads -/

section Reads

variable {t : Tree} {disk : Disk} {path : KeyPath} (default : Value) {steps : Nat}

theorem getWithin_of_empty {v : Value}
    (hfind : ((Guards.fresh.enter path).find (t.reply disk steps) t path).result = .ok (some v))
    (hv : v.isTruthy = false) :
    (t.getWithin disk path steps).result = .ok (some v) ∧
      (t.getOrWithin disk path default steps).result = .ok default ∧
      (t.getOrWithin disk path default steps).journal = (t.getWithin disk path steps).journal := by
  rw [Tree.getWithin, Tree.getOrWithin, Guards.read_of_not_mem List.not_mem_nil,
    Guards.read_of_not_mem List.not_mem_nil, body_of_empty hfind hv, body_of_not_kept hfind hv,
    Outcome.bind_of_ok rfl]
  exact ⟨rfl, rfl, List.append_nil _⟩

theorem getOrWithin_of_set
    (h : ∀ v, ((Guards.fresh.enter path).find (t.reply disk steps) t path).result = .ok (some v) →
      v.isTruthy = true) :
    (t.getOrWithin disk path default steps).result =
        (t.getWithin disk path steps).result.map (·.getD default) ∧
      (t.getOrWithin disk path default steps).journal = (t.getWithin disk path steps).journal := by
  have heq : t.getOrWithin disk path default steps = do
      let v ← t.getWithin disk path steps
      return v.getD default := by
    rw [Tree.getWithin, Tree.getOrWithin, Guards.read_of_not_mem List.not_mem_nil,
      Guards.read_of_not_mem List.not_mem_nil, body_eq_of_keep h]
  rw [heq]
  cases hget : (t.getWithin disk path steps).result with
  | error halt =>
    rw [Outcome.bind_of_error hget]
    exact ⟨rfl, rfl⟩
  | ok found =>
    rw [Outcome.bind_of_ok hget]
    exact ⟨rfl, List.append_nil _⟩

end Reads

/-- **A read with a default differs from a plain one in nothing but the default.**  Both fail with
    the same error, and both do the same things on the way. -/
theorem read_with_default (t : Tree) (disk : Disk) (path : KeyPath) (default : Value)
    (steps : Nat) :
    (∀ halt, (t.getOrWithin disk path default steps).result = .error halt ↔
      (t.getWithin disk path steps).result = .error halt) ∧
    ((t.getWithin disk path steps).result = .ok none →
      (t.getOrWithin disk path default steps).result = .ok default) ∧
    (∀ v, ((Guards.fresh.enter path).find (t.reply disk steps) t path).result = .ok (some v) →
      v.isTruthy = false →
      (t.getOrWithin disk path default steps).result = .ok default ∧
        (t.getWithin disk path steps).result = .ok (some v)) ∧
    (∀ w, (t.getWithin disk path steps).result = .ok (some w) →
      (∀ v, ((Guards.fresh.enter path).find (t.reply disk steps) t path).result = .ok (some v) →
        v.isTruthy = true) →
      (t.getOrWithin disk path default steps).result = .ok w) ∧
    (t.getOrWithin disk path default steps).journal = (t.getWithin disk path steps).journal := by
  by_cases hset : ∀ v, ((Guards.fresh.enter path).find (t.reply disk steps) t path).result =
      .ok (some v) → v.isTruthy = true
  · obtain ⟨hresult, hjournal⟩ := getOrWithin_of_set default hset
    refine ⟨fun halt => ?_, fun hnone => ?_, fun v hv hempty => ?_, fun w hw _ => ?_, hjournal⟩
    · rw [hresult]
      cases (t.getWithin disk path steps).result <;> simp [Except.map]
    · rw [hresult, hnone]
      rfl
    · rw [hset v hv] at hempty
      cases hempty
    · rw [hresult, hw]
      rfl
  · obtain ⟨v, hset⟩ := not_forall.1 hset
    obtain ⟨hfind, hset⟩ := Classical.not_imp.1 hset
    have hempty : v.isTruthy = false := Bool.eq_false_iff.2 hset
    obtain ⟨hget, hgetOr, hjournal⟩ := getWithin_of_empty default hfind hempty
    refine ⟨fun halt => ?_, fun hnone => ?_, fun v' hv' _ => ?_, fun w _ hset' => ?_, hjournal⟩
    · rw [hget, hgetOr]
      simp
    · rw [hget] at hnone
      cases hnone
    · obtain rfl : v = v' := Option.some.inj (Except.ok.inj (hfind.symm.trans hv'))
      exact ⟨hgetOr, hget⟩
    · exact absurd (hset' v hfind) hset

namespace Switches

/-- A string that becomes empty when it is resolved, and one that expands to a table with an empty
    value in it. -/
def tree : Tree where
  data := [
    ("made", .string "\x7b\x7b data:made \x7d\x7d"),
    ("twice", .string "\x7b\x7b data:e \x7d\x7d\x7b\x7b data:e \x7d\x7d")]
  chain := [
    ⟨0, .labelled "data" (.data [("e", .string ""), ("made", .table [("off", .array [])])])⟩]
  loader := Loader.empty

theorem defaults :
    (tree.getOrWithin [] ⟨["twice"]⟩ (.integer 1) 1).result = .ok (.string "") ∧
      (tree.getOrWithin [] ⟨["made", "off"]⟩ (.integer 1) 1).result = .ok (.integer 1) ∧
      (tree.getWithin [] ⟨["made", "off"]⟩ 1).result = .ok (some (.array [])) ∧
      (tree.getOrWithin [] ⟨["made", "on"]⟩ (.integer 1) 1).result = .ok (.integer 1) := by
  have htwice : (tree.getWithin [] ⟨["twice"]⟩ 1).result = .ok (some (.string "")) := by cbv
  have hfound : ((Guards.fresh.enter ⟨["twice"]⟩).find (tree.reply [] 1) tree ⟨["twice"]⟩).result =
      .ok (some (.string "\x7b\x7b data:e \x7d\x7d\x7b\x7b data:e \x7d\x7d")) := by cbv
  have hoff : ((Guards.fresh.enter ⟨["made", "off"]⟩).find (tree.reply [] 1) tree
      ⟨["made", "off"]⟩).result = .ok (some (.array [])) := by cbv
  have hon : (tree.getWithin [] ⟨["made", "on"]⟩ 1).result = .ok none := by cbv
  obtain ⟨-, -, -, hset, -⟩ := read_with_default tree [] ⟨["twice"]⟩ (.integer 1) 1
  obtain ⟨-, -, hempty, -, -⟩ := read_with_default tree [] ⟨["made", "off"]⟩ (.integer 1) 1
  obtain ⟨-, hnone, -, -, -⟩ := read_with_default tree [] ⟨["made", "on"]⟩ (.integer 1) 1
  refine ⟨hset _ htwice fun v hv => ?_, (hempty _ hoff rfl).1, (hempty _ hoff rfl).2, hnone hon⟩
  rw [hfound] at hv
  cases hv
  rfl

end Switches

end LayeredConfig
