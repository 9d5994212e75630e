/-
  LayeredConfig/Proofs/Tree/Around.lean
  =====================================
  **Reading a path and reading the table around it.**

  The table at a path can be read as a whole, or key by key with a longer path.
  Both ways come to the same values (`read_agrees_with_read_around`), although the
  one resolves every entry of the table and the other only what it meets on its
  way, and although different paths are in flight.

  Where the table is stored as such, the entry is what the longer path has.
  Where a string expanded to the table, the longer path has the entry resolved
  once more.  The read of all data is the read of the empty path.
-/
import LayeredConfig.Proofs.Lookup.Nested
import LayeredConfig.Proofs.Tree.Ending

namespace LayeredConfig

/-! ### Entries -/

/-- A table with its strings changed has the changed entry under every key. -/
theorem get?_traverseEntries {change : String → Outcome Value} {entries out : Table}
    (h : (Value.traverseEntries change entries).result = .ok out) (key : String) :
    (entries.get? key = none → out.get? key = none) ∧
      ∀ v, entries.get? key = some v →
        ∃ w, out.get? key = some w ∧ (v.traverse change).result = .ok w := by
  induction entries generalizing out with
  | nil =>
    obtain rfl : [] = out := Except.ok.inj h
    constructor
    · intro _
      rfl
    · intro v hv
      cases hv
  | cons entry rest ih =>
    obtain ⟨k, v⟩ := entry
    obtain ⟨v', hv, h⟩ := Outcome.bind_result_eq_ok.1 h
    obtain ⟨rest', hrest, h⟩ := Outcome.bind_result_eq_ok.1 h
    obtain rfl : (k, v') :: rest' = out := Except.ok.inj h
    rw [Table.get?_cons, Table.get?_cons]
    by_cases hk : k = key
    · rw [if_pos hk, if_pos hk]
      constructor
      · intro hnone
        cases hnone
      · intro v₁ hv₁
        obtain rfl := Option.some.inj hv₁
        exact ⟨v', rfl, hv⟩
    · rw [if_neg hk, if_neg hk]
      exact ih hrest

theorem resolve_table_eq_ok {replies : Replies} {chain : List Resolver} {g : Guards}
    {entries : Table} {v : Value} :
    (g.resolve replies chain (.table entries)).result = .ok v ↔
      ∃ out, (g.resolveTable replies chain entries).result = .ok out ∧ v = .table out := by
  constructor
  · intro h
    obtain ⟨out, hout, h⟩ := Outcome.bind_result_eq_ok.1 h
    exact ⟨out, hout, (Except.ok.inj h).symm⟩
  · rintro ⟨out, hout, rfl⟩
    exact Outcome.bind_result_eq_ok.2 ⟨out, hout, rfl⟩

/-! ### One key further -/

/-- The path one key further. -/
def KeyPath.child (p : KeyPath) (key : String) : KeyPath := ⟨p.segments ++ [key]⟩

section Finding

variable {replies : Replies} {t : Tree} {g : Guards}

theorem walk_nil (v : Option Value) : g.walk replies t v [] = pure v := by
  cases v <;> rfl

theorem walk_cons (v : Option Value) (key : String) (rest : List String) :
    g.walk replies t v (key :: rest) =
      g.walk replies t v [key] >>= fun w => g.walk replies t w rest := by
  have hnone : g.walk replies t none rest = pure none := by cases rest <;> rfl
  cases v with
  | none => exact hnone.symm
  | some v =>
    cases v with
    | string s =>
      simp only [Guards.walk, bind_assoc]
      congr 1
      funext w
      cases w with
      | table entries => exact (pure_bind _ _).symm
      | _ => exact hnone.symm
    | table entries => exact (pure_bind _ _).symm
    | _ => exact hnone.symm

theorem walk_append (v : Option Value) (keys : List String) (key : String) :
    g.walk replies t v (keys ++ [key]) =
      g.walk replies t v keys >>= fun w => g.walk replies t w [key] := by
  induction keys generalizing v with
  | nil => rw [walk_nil, pure_bind, List.nil_append]
  | cons k rest ih => rw [List.cons_append, walk_cons, walk_cons v k rest, bind_assoc, funext ih]

theorem find_child (p : KeyPath) (key : String) :
    g.find replies t (p.child key) =
      g.find replies t p >>= fun w => g.walk replies t w [key] := by
  rcases p with ⟨segments⟩
  cases segments with
  | nil =>
    simp only [Guards.find, KeyPath.child, List.nil_append, pure_bind]
    rfl
  | cons k rest => exact walk_append _ rest key

/-- To find a path is to walk along it from the table of all data. -/
theorem find_eq_walk (g : Guards) (path : KeyPath) :
    g.find replies t path = g.walk replies t (some (.table t.data)) path.segments := by
  rw [Guards.find]
  cases path.segments <;> rfl

theorem body_of_find_none {path : KeyPath} (h : (g.find replies t path).result = .ok none) :
    (g.body replies t path keepAll).result = .ok none := by
  rw [Guards.body, Outcome.bind_of_ok h]
  rfl

theorem body_of_find_some {path : KeyPath} {v : Value}
    (h : (g.find replies t path).result = .ok (some v)) :
    (g.body replies t path keepAll).result = (g.resolve replies t.chain v).result.map some := by
  rw [Guards.body, Outcome.bind_of_ok h]
  simp only [if_true]
  cases hv : (g.resolve replies t.chain v).result with
  | error halt =>
    rw [Outcome.bind_of_error hv]
    rfl
  | ok w =>
    rw [Outcome.bind_of_ok hv]
    rfl

theorem find_of_body {path : KeyPath} {a : Option Value}
    (h : (g.body replies t path keepAll).result = .ok a) :
    ∃ v, (g.find replies t path).result = .ok v := by
  obtain ⟨v, hv, -⟩ := Outcome.bind_result_eq_ok.1 h
  exact ⟨v, hv⟩

theorem find_resolve_of_body {path : KeyPath} {v : Value}
    (h : (g.body replies t path keepAll).result = .ok (some v)) :
    ∃ w, (g.find replies t path).result = .ok (some w) ∧
      (g.resolve replies t.chain w).result = .ok v := by
  obtain ⟨w, hw, h⟩ := Outcome.bind_result_eq_ok.1 h
  cases w with
  | none => cases h
  | some w =>
    simp only [if_true] at h
    obtain ⟨v', hv, h⟩ := Outcome.bind_result_eq_ok.1 h
    cases h
    exact ⟨w, hw, hv⟩

end Finding

theorem getWithin_result (t : Tree) (disk : Disk) (path : KeyPath) (steps : Nat) :
    (t.getWithin disk path steps).result =
      ((Guards.fresh.enter path).body (t.reply disk steps) t path keepAll).result := by
  rw [Tree.getWithin, Guards.read_of_not_mem List.not_mem_nil]
  rfl

section Child

variable {t : Tree} (hb : t.IsBuiltIn) (disk : Disk) (steps : Nat) {p : KeyPath} {w v : Value}
  (hfind : ((Guards.fresh.enter p).find (t.reply disk steps) t p).result = .ok (some w))
  (hresolve : ((Guards.fresh.enter p).resolve (t.reply disk steps) t.chain w).result = .ok v)
include hb hfind hresolve

/-- A value that was read without a read of the path `q` on the way is found with `q` in flight, and
    otherwise the read of `q` on the way has reached a value. -/
theorem find_beside_or_get (q : KeyPath) :
    (((Guards.fresh.enter q).find (t.reply disk steps) t p).result = .ok (some w) ∧
        ((Guards.fresh.enter q).resolve (t.reply disk steps) t.chain w).result = .ok v) ∨
      ∃ a, (t.getWithin disk q steps).result = .ok a := by
  have hbody : ((Guards.fresh.enter p).body (t.reply disk steps) t p keepAll).result =
      .ok (some v) := by
    rw [body_of_find_some hfind, hresolve]
    rfl
  by_cases hq : .opened q ∈ ((Guards.fresh.enter p).body (t.reply disk steps) t p keepAll).journal
  · right
    obtain ⟨inner, steps', hinner, hsteps, hend⟩ :=
      (invariant_nested t disk steps q).body hb (Nat.le_refl steps) p keepAll hq
    rcases hend with ⟨a, ha⟩ | ⟨halt, -, hhalt⟩
    · have hle := Guards.le_trans (Guards.le_enter Guards.fresh p) hinner
      exact ⟨a, (steady_read hb disk q).ok hle hsteps ha⟩
    · rw [hbody] at hhalt
      cases hhalt
  · left
    have hbeside := Guards.Beside.of_enter (Guards.fresh.enter p) q
    have hle : Guards.fresh.enter q ≤ (Guards.fresh.enter p).enter q :=
      Guards.enter_le_enter (Guards.le_enter Guards.fresh p) q
    have hbody' : (((Guards.fresh.enter p).enter q).body (t.reply disk steps) t p keepAll).result =
        .ok (some v) :=
      ((lockstep_beside t disk q).body hb hbeside p keepAll hq).ok hbody
    obtain ⟨w', hw', hv'⟩ := find_resolve_of_body hbody'
    obtain rfl : w' = w := Option.some.inj ((steady_find hb disk p).unique hw' hfind)
    exact ⟨(steady_find hb disk p).ok hle (Nat.le_refl _) hw',
      (steady_resolve hb disk w').ok hle (Nat.le_refl _) hv'⟩

/-- The value at a path is found on the way to a longer one. -/
theorem find_on_way (key : String) :
    ((Guards.fresh.enter (p.child key)).find (t.reply disk steps) t p).result = .ok (some w) := by
  rcases find_beside_or_get hb disk steps hfind hresolve (p.child key) with ⟨h, -⟩ | ⟨a, ha⟩
  · exact h
  · rw [getWithin_result] at ha
    obtain ⟨x, hx⟩ := find_of_body ha
    rw [find_child] at hx
    obtain ⟨w', hw', -⟩ := Outcome.bind_result_eq_ok.1 hx
    rw [hw', (steady_find hb disk p).unique hw' hfind]

end Child

section Agreement

variable {t : Tree} (hb : t.IsBuiltIn) (disk : Disk) (steps : Nat) {p : KeyPath} {u : Table}
include hb

/-- The entry of a stored table is read with the longer path. -/
theorem get_child_of_table {w : Table} (key : String)
    (hfind : ((Guards.fresh.enter p).find (t.reply disk steps) t p).result = .ok (some (.table w)))
    (hresolve : ((Guards.fresh.enter p).resolve (t.reply disk steps) t.chain (.table w)).result =
      .ok (.table u)) :
    (t.getWithin disk (p.child key) steps).result = .ok (u.get? key) := by
  let q := p.child key
  have hway := find_on_way hb disk steps hfind hresolve key
  have hchild : ((Guards.fresh.enter q).find (t.reply disk steps) t q).result =
      .ok (w.get? key) := by
    rw [find_child, Outcome.bind_of_ok hway]
    rfl
  obtain ⟨u', hu, heq⟩ := resolve_table_eq_ok.1 hresolve
  cases heq
  obtain ⟨hnone, hsome⟩ := get?_traverseEntries hu key
  rw [getWithin_result]
  cases hentry : w.get? key with
  | none =>
    rw [hnone hentry]
    exact body_of_find_none (hentry ▸ hchild)
  | some x =>
    obtain ⟨y, hy, hxy⟩ := hsome x hentry
    rw [hentry] at hchild
    rw [hy, body_of_find_some hchild]
    -- the entry has a value with the longer path in flight, which can only be the same one
    have hvalue : ∃ z, ((Guards.fresh.enter q).resolve (t.reply disk steps) t.chain x).result =
        .ok z := by
      rcases find_beside_or_get hb disk steps hfind hresolve q with ⟨-, h⟩ | ⟨a, ha⟩
      · obtain ⟨out, hout, -⟩ := resolve_table_eq_ok.1 h
        obtain ⟨z, -, hz⟩ := (get?_traverseEntries hout key).2 x hentry
        exact ⟨z, hz⟩
      · rw [getWithin_result, body_of_find_some hchild] at ha
        cases hz : ((Guards.fresh.enter q).resolve (t.reply disk steps) t.chain x).result with
        | ok z => exact ⟨z, rfl⟩
        | error halt =>
          rw [hz] at ha
          cases ha
    obtain ⟨z, hz⟩ := hvalue
    rw [hz, (steady_resolve hb disk x).unique hz hxy]
    rfl

/-- The entry of a table that a string expands to is resolved once more. -/
theorem get_child_of_string {s : String} (key : String)
    (hfind : ((Guards.fresh.enter p).find (t.reply disk steps) t p).result = .ok (some (.string s)))
    (hresolve : ((Guards.fresh.enter p).resolve (t.reply disk steps) t.chain (.string s)).result =
      .ok (.table u)) :
    (t.getWithin disk (p.child key) steps).result =
      match u.get? key with
      | none => .ok none
      | some v =>
        ((Guards.fresh.enter (p.child key)).resolve (t.reply disk steps) t.chain v).result.map
          some := by
  let q := p.child key
  have hway := find_on_way hb disk steps hfind hresolve key
  have hstring : ((Guards.fresh.enter q).resolve (t.reply disk steps) t.chain (.string s)).result =
      .ok (.table u) := by
    rcases find_beside_or_get hb disk steps hfind hresolve q with ⟨-, h⟩ | ⟨a, ha⟩
    · exact h
    · rw [getWithin_result] at ha
      obtain ⟨x, hx⟩ := find_of_body ha
      rw [find_child, Outcome.bind_of_ok hway] at hx
      obtain ⟨v, hv, -⟩ := Outcome.bind_result_eq_ok.1 hx
      rw [(steady_resolve hb disk (.string s)).unique hresolve hv]
      exact hv
  have hchild : ((Guards.fresh.enter q).find (t.reply disk steps) t q).result =
      .ok (u.get? key) := by
    rw [find_child, Outcome.bind_of_ok hway]
    change (_ >>= _ : Outcome _).result = _
    rw [Outcome.bind_of_ok hstring]
    rfl
  rw [getWithin_result]
  cases hentry : u.get? key with
  | none => exact body_of_find_none (hentry ▸ hchild)
  | some x => exact body_of_find_some (hentry ▸ hchild)

end Agreement

/-! ### All data -/

/-- All data, read while the empty path is. -/
def Tree.allInRoot (t : Tree) (disk : Disk) (steps : Nat) : Outcome Table :=
  (Guards.fresh.enter .root).resolveTable (t.reply disk steps) t.chain t.data

theorem get_root_result (t : Tree) (disk : Disk) (steps : Nat) :
    (t.getWithin disk .root steps).result =
      (t.allInRoot disk steps).result.map fun u => some (.table u) := by
  rw [getWithin_result, body_of_find_some rfl]
  unfold Tree.allInRoot
  cases h : ((Guards.fresh.enter .root).resolveTable (t.reply disk steps) t.chain
      t.data).result with
  | error halt =>
    have hv : ((Guards.fresh.enter .root).resolve (t.reply disk steps) t.chain
        (.table t.data)).result = .error halt := by
      change (_ >>= _ : Outcome _).result = _
      exact congrArg Outcome.result (Outcome.bind_of_error h _)
    rw [hv]
    rfl
  | ok u =>
    rw [resolve_table_eq_ok.2 ⟨u, h, rfl⟩]
    rfl

theorem get_root_eq_ok {t : Tree} {disk : Disk} {steps : Nat} {u : Table} :
    (t.getWithin disk .root steps).result = .ok (some (.table u)) ↔
      (t.allInRoot disk steps).result = .ok u := by
  rw [get_root_result]
  cases (t.allInRoot disk steps).result <;> simp [Except.map]

theorem get_root_eq_error {t : Tree} {disk : Disk} {steps : Nat} {halt : Halt} :
    (t.getWithin disk .root steps).result = .error halt ↔
      (t.allInRoot disk steps).result = .error halt := by
  rw [get_root_result]
  cases (t.allInRoot disk steps).result <;> simp [Except.map]

/-- Both outcomes are failures, with the same error or with the report of a circle each. -/
def Outcome.FailsLike {α β : Type} (x : Outcome α) (y : Outcome β) : Prop :=
  (∃ e, x.result = .error (.failed e) ∧ y.result = .error (.failed e)) ∨ x.IsCyclic ∧ y.IsCyclic

theorem failsLike_get_root {t : Tree} {disk : Disk} {steps : Nat} {x : Outcome Table}
    (h : x.EndsAlike (t.allInRoot disk steps)) {e : Error}
    (he : x.result = .error (.failed e) ∨ (t.allInRoot disk steps).result = .error (.failed e)) :
    x.FailsLike (t.getWithin disk .root steps) := by
  rcases h with heq | ⟨hx, inFlight, closing, hroot⟩
  · have hboth : x.result = .error (.failed e) := by
      rcases he with he | he
      · exact he
      · exact heq.symm.trans he
    exact .inl ⟨e, hboth, get_root_eq_error.2 (heq.trans hboth)⟩
  · exact .inr ⟨hx, inFlight, closing, get_root_eq_error.2 hroot⟩

section All

variable {t : Tree} (hb : t.IsBuiltIn) (disk : Disk)
include hb

theorem all_sameOrCyclic (steps : Nat) :
    (t.allWithin disk steps).SameOrCyclic (t.allInRoot disk steps) :=
  resolveTable_sameOrCyclic hb disk steps (Guards.le_enter Guards.fresh .root) t.data

/-- If the read of all data ends, so does the read of the empty path. -/
theorem all_endsAlike_root {steps : Nat}
    (hend : (t.allWithin disk steps).result ≠ .error .exhausted) :
    (t.allWithin disk steps).EndsAlike (t.allInRoot disk steps) := by
  by_cases hq : .opened .root ∈ (t.allWithin disk steps).journal
  · obtain ⟨inner, steps', hinner, hsteps, hnested⟩ :=
      (invariant_nested t disk steps .root).resolveTable hb (Nat.le_refl steps) t.data hq
    have hsteady := steady_read hb disk .root
    have hsame := all_sameOrCyclic hb disk steps
    rcases hnested with ⟨a, ha⟩ | ⟨halt, hread, hhalt⟩
    · -- a read of the empty path on the way that has a value shows that there is no circle
      have hroot : (t.getWithin disk .root steps).result = .ok a := hsteady.ok hinner hsteps ha
      cases hr : (t.allInRoot disk steps).result with
      | error halt =>
        rw [get_root_eq_error.2 hr] at hroot
        cases hroot
      | ok u => exact .inl (hr.trans (hsame.ok_back hr).symm)
    · by_cases hcyclic : (inner.read (t.reply disk steps') t .root keepAll).IsCyclic
      · obtain ⟨inFlight, closing, hc⟩ := hcyclic
        obtain rfl := Except.error.inj (hread.symm.trans hc)
        rcases hsame with h | h
        · exact .inl h
        · exact .inr ⟨⟨inFlight, closing, hhalt⟩, h⟩
      · have hexhausted : (inner.read (t.reply disk steps') t .root keepAll).result ≠
            .error .exhausted := by
          intro h
          obtain rfl := Except.error.inj (hread.symm.trans h)
          exact hend hhalt
        have hroot : (t.getWithin disk .root steps).result = .error halt :=
          (hsteady _ _ _ _ hinner hsteps hcyclic hexhausted).trans hread
        exact .inl ((get_root_eq_error.1 hroot).trans hhalt.symm)
  · exact (lockstep_beside t disk .root).resolveTable hb (Guards.Beside.of_enter _ _) t.data hq

/-- If the read of the empty path ends, so does the read of all data, with enough steps. -/
theorem root_endsAlike_all {steps : Nat}
    (hend : (t.allInRoot disk steps).result ≠ .error .exhausted) :
    ∃ enough, ∀ more, enough ≤ more →
      (t.allWithin disk more).EndsAlike (t.allInRoot disk steps) := by
  by_cases hcyclic : (t.allInRoot disk steps).IsCyclic
  · have hread : (Guards.fresh.read (t.reply disk steps) t .root keepAll).IsCyclic := by
      obtain ⟨inFlight, closing, hc⟩ := hcyclic
      exact ⟨inFlight, closing, get_root_eq_error.2 hc⟩
    have hnear : Guards.fresh.Beside .root (Guards.fresh.enter .root) ∧
        Guards.fresh ≤ Guards.fresh :=
      ⟨Guards.Beside.of_enter _ _, Guards.le_refl _⟩
    have halike : (t.allWithin disk (steps + steps)).EndsAlike (t.allInRoot disk steps) :=
      (lockstep_reentrant hb disk hread).resolveTable hb hnear t.data hend
    refine ⟨steps + steps, ?_⟩
    intro more hmore
    have hall : (t.allWithin disk (steps + steps)).result ≠ .error .exhausted := by
      rcases halike with h | ⟨⟨_, _, h⟩, -⟩
      · exact h ▸ hend
      · exact Outcome.ne_exhausted_of_failed h
    have heq : t.allWithin disk more = t.allWithin disk (steps + steps) :=
      (extending_resolveTable hb disk Guards.fresh t.data).eq_of_le hmore hall
    rw [heq]
    exact halike
  · have hsame := (all_sameOrCyclic hb disk steps).back hcyclic
    refine ⟨steps, ?_⟩
    intro more hmore
    have heq : t.allWithin disk more = t.allWithin disk steps :=
      (extending_resolveTable hb disk Guards.fresh t.data).eq_of_le hmore (hsame ▸ hend)
    left
    rw [heq]
    exact hsame.symm

end All

/-- **Reading a path agrees with reading the table around it.** -/
theorem read_agrees_with_read_around {t : Tree} (hb : t.IsBuiltIn) (disk : Disk) (p : KeyPath)
    (key : String) (steps : Nat) :
    (∀ u : Table, (t.getWithin disk p steps).result = .ok (some (.table u)) →
      (∀ w, ((Guards.fresh.enter p).find (t.reply disk steps) t p).result =
          .ok (some (.table w)) →
        (t.getWithin disk (p.child key) steps).result = .ok (u.get? key)) ∧
      (∀ s, ((Guards.fresh.enter p).find (t.reply disk steps) t p).result =
          .ok (some (.string s)) →
        (t.getWithin disk (p.child key) steps).result =
          match u.get? key with
          | none => .ok none
          | some v =>
            ((Guards.fresh.enter (p.child key)).resolve (t.reply disk steps) t.chain v).result.map
              some)) ∧
    (∀ u : Table, (t.allWithin disk steps).result = .ok u ↔
      (t.getWithin disk .root steps).result = .ok (some (.table u))) ∧
    (∀ e, (t.allWithin disk steps).result = .error (.failed e) →
      (t.allWithin disk steps).FailsLike (t.getWithin disk .root steps)) ∧
    (∀ e, (t.getWithin disk .root steps).result = .error (.failed e) →
      ∃ enough, ∀ more, enough ≤ more →
        (t.allWithin disk more).FailsLike (t.getWithin disk .root steps)) := by
  refine ⟨?_, ?_, ?_, ?_⟩
  · intro u hu
    rw [getWithin_result] at hu
    obtain ⟨v, hfind, hresolve⟩ := find_resolve_of_body hu
    constructor
    · intro w hw
      obtain rfl : v = .table w := Option.some.inj (Except.ok.inj (hfind.symm.trans hw))
      exact get_child_of_table hb disk steps key hfind hresolve
    · intro s hs
      obtain rfl : v = .string s := Option.some.inj (Except.ok.inj (hfind.symm.trans hs))
      exact get_child_of_string hb disk steps key hfind hresolve
  · intro u
    constructor
    · intro h
      have halike := all_endsAlike_root hb disk (Outcome.ne_exhausted_of_ok h)
      exact get_root_eq_ok.2 (halike.ok h)
    · intro h
      exact (all_sameOrCyclic hb disk steps).ok_back (get_root_eq_ok.1 h)
  · intro e he
    have halike := all_endsAlike_root hb disk (Outcome.ne_exhausted_of_failed he)
    exact failsLike_get_root halike (.inl he)
  · intro e he
    have hroot := get_root_eq_error.1 he
    obtain ⟨enough, henough⟩ := root_endsAlike_all hb disk (Outcome.ne_exhausted_of_failed hroot)
    exact ⟨enough, fun more hmore => failsLike_get_root (henough more hmore) (.inr hroot)⟩

/-- One table twice: stored, and behind a string that expands to it. -/
def storedAndExpanded : Tree where
  data := [
    ("expanded", .string "\x7b\x7b data:* \x7d\x7d"),
    ("one", .integer 1),
    ("stored", .table [("k", .string "\x7b\x7b config:one \x7d\x7d")])]
  chain := [
    ⟨0, .labelled "data" (.data [("k", .string "\x7b\x7b config:one \x7d\x7d")])⟩,
    ⟨1, .labelled "config" .reference⟩]
  loader := Loader.empty

theorem isBuiltIn_storedAndExpanded : storedAndExpanded.IsBuiltIn := by
  intro r hr
  rcases List.mem_cons.1 hr with rfl | hr
  · trivial
  · rw [List.mem_singleton.1 hr]
    trivial

theorem storedAndExpanded_agree :
    (storedAndExpanded.getWithin [] ⟨["stored"]⟩ 3).result =
        .ok (some (.table [("k", .integer 1)])) ∧
      (storedAndExpanded.getWithin [] (KeyPath.child ⟨["stored"]⟩ "k") 3).result =
        .ok (some (.integer 1)) ∧
      (storedAndExpanded.getWithin [] ⟨["expanded"]⟩ 3).result =
        .ok (some (.table [("k", .integer 1)])) ∧
      (storedAndExpanded.getWithin [] (KeyPath.child ⟨["expanded"]⟩ "k") 3).result =
        .ok (some (.integer 1)) := by
  have hb := isBuiltIn_storedAndExpanded
  have hstored : (storedAndExpanded.getWithin [] ⟨["stored"]⟩ 3).result =
      .ok (some (.table [("k", .integer 1)])) := by cbv
  have htable : ((Guards.fresh.enter ⟨["stored"]⟩).find (storedAndExpanded.reply [] 3)
      storedAndExpanded ⟨["stored"]⟩).result =
        .ok (some (.table [("k", .string "\x7b\x7b config:one \x7d\x7d")])) := by cbv
  have hexpanded : (storedAndExpanded.getWithin [] ⟨["expanded"]⟩ 3).result =
      .ok (some (.table [("k", .integer 1)])) := by cbv
  have hstring : ((Guards.fresh.enter ⟨["expanded"]⟩).find (storedAndExpanded.reply [] 3)
      storedAndExpanded ⟨["expanded"]⟩).result =
        .ok (some (.string "\x7b\x7b data:* \x7d\x7d")) := by cbv
  have h₁ := ((read_agrees_with_read_around hb [] ⟨["stored"]⟩ "k" 3).1 _ hstored).1 _ htable
  have h₂ := ((read_agrees_with_read_around hb [] ⟨["expanded"]⟩ "k" 3).1 _ hexpanded).2 _ hstring
  exact ⟨hstored, h₁, hexpanded, h₂⟩

end LayeredConfig
