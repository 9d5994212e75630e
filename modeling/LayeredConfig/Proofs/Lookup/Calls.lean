/-
  LayeredConfig/Proofs/Lookup/Calls.lean
  ======================================
  **Calls on one lookup.**

  Whoever has a lookup at hand may call it as often as he likes.  Since every call
  leaves the guards as it found them, none of them shows in what comes of the
  others: neither the calls in a row (`Live.under_calls`), nor those that a
  resolver makes, which may look at an error and go on (`Live.under_dialogue`),
  nor those for the entries of a table (`Live.changeEntries_eq_ok_iff`,
  `Live.changeEntries_eq_error_iff`).
-/
import LayeredConfig.Proofs.Lookup.Agreement
import Mathlib

namespace LayeredConfig

namespace Live

variable {α β : Type} {g : Guards}

theorem Balanced.under_eq {x : Live α} (h : x.Balanced) (g : Guards) :
    x.under g = ((x.under g).1, g) :=
  Prod.ext rfl (h g)

theorem Balanced.under_bind {x : Live α} (h : x.Balanced) (f : α → Live β) (g : Guards) :
    (x >>= f).under g =
      match (x.under g).1 with
      | .ok a => (f a).under g
      | .error halt => (.error halt, g) := by
  rw [Live.under_bind, h.under_eq g]
  cases (x.under g).1 <;> rfl

/-! ### In a row and in a dialogue -/

section Replies

variable {reply : (q : Request) → Live q.Reply}

/-- One call after the other, with what came of each. -/
def calls (reply : (q : Request) → Live q.Reply) :
    List Request → Live (List (Σ q : Request, Except Halt q.Reply))
  | [] => return []
  | q :: rest => do
    let r ← (reply q).caught
    let rs ← calls reply rest
    return ⟨q, r⟩ :: rs

variable (hreply : ∀ q, (reply q).Balanced)
include hreply

/-- Each call finds the guards as the first one found them. -/
theorem under_calls (qs : List Request) (g : Guards) :
    (calls reply qs).under g = (.ok (qs.map fun q => ⟨q, ((reply q).under g).1⟩), g) := by
  induction qs with
  | nil => rfl
  | cons q rest ih =>
    rw [calls, (hreply q).caught.under_bind, under_caught]
    change (calls reply rest >>= _).under g = _
    rw [Live.under_bind, ih]
    rfl

theorem under_attempt (q : Request) (g : Guards) :
    (reply q).attempt.under g =
      ((⟨((reply q).under g).1, []⟩ : Outcome q.Reply).attempt.result, g) := by
  rw [attempt, (hreply q).caught.under_bind, under_caught]
  cases h : ((reply q).under g).1 with
  | ok a => rfl
  | error halt => cases halt <;> rfl

/-- A dialogue comes to what it would come to if each of its questions were the only one. -/
theorem under_dialogue (d : Dialogue α) (g : Guards) :
    (d.live reply).under g = ((d.run fun q => ⟨((reply q).under g).1, []⟩).result, g) := by
  induction d with
  | done r =>
    rw [Dialogue.live, under_ofExcept]
    cases r <;> rfl
  | ask q next ih =>
    rw [Dialogue.live, Live.under_bind, under_attempt hreply, Dialogue.run]
    cases h : (⟨((reply q).under g).1, []⟩ : Outcome q.Reply).attempt.result with
    | ok r =>
      rw [Outcome.bind_of_ok h]
      exact ih r
    | error halt => rw [Outcome.bind_of_error h]

end Replies

/-! ### Entry by entry -/

section Entries

variable {change : Value → Live Value} (hchange : ∀ v, (change v).Balanced)
include hchange

theorem changeEntries_cons_of_error {key : String} {v : Value} {halt : Halt}
    (hv : ((change v).under g).1 = .error halt) (rest : Table) :
    ((Table.changeEntries change ((key, v) :: rest)).under g).1 = .error halt := by
  simp only [Table.changeEntries, List.mapM_cons, bind_assoc, (hchange v).under_bind, hv]

theorem changeEntries_cons_of_ok {key : String} {v w : Value}
    (hv : ((change v).under g).1 = .ok w) (rest : Table) :
    ((Table.changeEntries change ((key, v) :: rest)).under g).1 =
      ((Table.changeEntries change rest).under g).1.map ((key, w) :: ·) := by
  have hrest : (Table.changeEntries change rest).Balanced := Balanced.changeEntries hchange rest
  have hcons : (Table.changeEntries change ((key, v) :: rest)).under g =
      (Table.changeEntries change rest >>= fun out => pure ((key, w) :: out)).under g := by
    simp only [Table.changeEntries, List.mapM_cons, bind_assoc, pure_bind,
      (hchange v).under_bind, hv]
  rw [hcons, hrest.under_bind]
  cases ((Table.changeEntries change rest).under g).1 <;> rfl

/-- There is a table if there is a value for each entry. -/
theorem changeEntries_eq_ok_iff {table out : Table} :
    ((table.changeEntries change).under g).1 = .ok out ↔
      List.Forall₂ (fun entry entry' =>
        entry'.1 = entry.1 ∧ ((change entry.2).under g).1 = .ok entry'.2) table out := by
  induction table generalizing out with
  | nil =>
    change Except.ok [] = Except.ok out ↔ _
    rw [List.forall₂_nil_left_iff, Except.ok.injEq, eq_comm]
  | cons entry rest ih =>
    obtain ⟨key, v⟩ := entry
    rw [List.forall₂_cons_left_iff]
    cases hv : ((change v).under g).1 with
    | error halt =>
      rw [changeEntries_cons_of_error hchange hv]
      constructor
      · exact nofun
      · rintro ⟨entry', out', ⟨-, hok⟩, -, -⟩
        cases hok
    | ok w =>
      rw [changeEntries_cons_of_ok hchange hv]
      constructor
      · intro h
        cases hrest : ((Table.changeEntries change rest).under g).1 with
        | error halt =>
          rw [hrest] at h
          cases h
        | ok out' =>
          rw [hrest] at h
          cases h
          exact ⟨(key, w), out', ⟨rfl, rfl⟩, ih.1 hrest, rfl⟩
      · rintro ⟨⟨key', w'⟩, out', ⟨hkey, hw⟩, hrest, rfl⟩
        cases hkey
        cases hw
        rw [ih.2 hrest]
        rfl

/-- If an entry fails, then the first one that fails has the word. -/
theorem changeEntries_eq_error_iff {table : Table} (htable : table.Pairwise (·.1 < ·.1))
    {halt : Halt} :
    ((table.changeEntries change).under g).1 = .error halt ↔
      ∃ entry ∈ table, ((change entry.2).under g).1 = .error halt ∧
        ∀ other ∈ table, other.1 < entry.1 → ∃ w, ((change other.2).under g).1 = .ok w := by
  induction table with
  | nil =>
    constructor
    · exact nofun
    · rintro ⟨entry, hentry, -⟩
      cases hentry
  | cons entry rest ih =>
    obtain ⟨key, v⟩ := entry
    obtain ⟨hkey, hrest⟩ := List.pairwise_cons.1 htable
    cases hv : ((change v).under g).1 with
    | error first =>
      rw [changeEntries_cons_of_error hchange hv]
      constructor
      · intro h
        obtain rfl := Except.error.inj h
        refine ⟨(key, v), List.mem_cons_self, hv, ?_⟩
        intro other hother hlt
        rcases List.mem_cons.1 hother with rfl | hother
        · exact (Std.lt_irrefl hlt).elim
        · -- no later entry has a smaller key
          exact (Std.lt_irrefl (Std.lt_trans hlt (hkey other hother))).elim
      · rintro ⟨entry, hentry, herror, hbefore⟩
        rcases List.mem_cons.1 hentry with rfl | hentry
        · cases hv.symm.trans herror
          rfl
        · obtain ⟨w, hw⟩ := hbefore (key, v) List.mem_cons_self (hkey entry hentry)
          cases hv.symm.trans hw
    | ok w =>
      have hfails : ((Table.changeEntries change ((key, v) :: rest)).under g).1 = .error halt ↔
          ((Table.changeEntries change rest).under g).1 = .error halt := by
        rw [changeEntries_cons_of_ok hchange hv]
        cases ((Table.changeEntries change rest).under g).1 <;> simp [Except.map]
      rw [hfails, ih hrest]
      constructor
      · rintro ⟨entry, hentry, herror, hbefore⟩
        refine ⟨entry, List.mem_cons_of_mem _ hentry, herror, ?_⟩
        intro other hother hlt
        rcases List.mem_cons.1 hother with rfl | hother
        · exact ⟨w, hv⟩
        · exact hbefore other hother hlt
      · rintro ⟨entry, hentry, herror, hbefore⟩
        rcases List.mem_cons.1 hentry with rfl | hentry
        · cases hv.symm.trans herror
        · refine ⟨entry, hentry, herror, ?_⟩
          intro other hother
          exact hbefore other (List.mem_cons_of_mem _ hother)

end Entries

end Live

/-- **Calls on one lookup do not influence one another.**  Whatever resolvers do on it, a call
    leaves the guards as they were; so calls in a row, and the questions of a resolver that goes on
    after errors, have the replies that each of them has alone.  A table is resolved entry by
    entry, and if it fails, it fails as the first entry does that fails.  With the resolvers of the
    tree, all this is said of the replies to their questions. -/
theorem Tree.calls_on_one_lookup (t : Tree) (workers : List Worker) (disk : Disk)
    (limit steps : Nat) (g : Guards) :
    (∀ q, ((t.live workers disk limit steps q).under g).2 = g) ∧
    (∀ qs, (Live.calls (t.live workers disk limit steps) qs).under g =
      (.ok (qs.map fun q => ⟨q, ((t.live workers disk limit steps q).under g).1⟩), g)) ∧
    (∀ (α : Type) (d : Dialogue α), (d.live (t.live workers disk limit steps)).under g =
      ((d.run fun q => ⟨((t.live workers disk limit steps q).under g).1, []⟩).result, g)) ∧
    (∀ table out : Table,
      ((t.live workers disk limit (steps + 1) (.resolveTable table)).under g).1 = .ok out ↔
        List.Forall₂ (fun entry entry' => entry'.1 = entry.1 ∧
          ((t.live workers disk limit (steps + 1) (.resolve entry.2)).under g).1 = .ok entry'.2)
          table out) ∧
    (∀ table : Table, table.Pairwise (·.1 < ·.1) → ∀ halt,
      ((t.live workers disk limit (steps + 1) (.resolveTable table)).under g).1 = .error halt ↔
        ∃ entry ∈ table,
          ((t.live workers disk limit (steps + 1) (.resolve entry.2)).under g).1 = .error halt ∧
          ∀ other ∈ table, other.1 < entry.1 →
            ∃ v, ((t.live workers disk limit (steps + 1) (.resolve other.2)).under g).1 = .ok v) ∧
    ∀ q, ∃ least, ∀ more, least ≤ more →
      (t.live (t.chain.map Resolver.worker) disk more steps q).under g =
        ((t.reply disk steps g q).result, g) := by
  have hbalanced := t.balanced_live workers disk limit steps
  refine ⟨fun q => hbalanced q g, fun qs => Live.under_calls hbalanced qs g,
    fun α d => Live.under_dialogue hbalanced d g, ?_, ?_, ?_⟩
  · intro table out
    exact Live.changeEntries_eq_ok_iff (Live.Balanced.resolve hbalanced workers limit)
  · intro table htable halt
    exact Live.changeEntries_eq_error_iff (Live.Balanced.resolve hbalanced workers limit) htable
  · intro q
    exact Filter.eventually_atTop.1 (t.agrees_live disk steps g q)

/-! ### After a circle -/

namespace Recovering

/-- Asks for `a`, and after an error for `b`; any other body is a path. -/
def answer (body : String) : Dialogue (Option Value) :=
  if body = "either" then
    .ask (.get ⟨["a"]⟩) fun
      | .ok v => .answer v
      | .error _ => .request (.get ⟨["b"]⟩)
  else .request (.get ⟨[body]⟩)

def tree : Tree where
  data := [("a", .string "\x7b\x7b either \x7d\x7d"), ("b", .integer 1)]
  chain := [⟨0, .host answer⟩]
  loader := Loader.empty

/-- Two entries fail, and one does not. -/
def table : Table :=
  [("either", .string "\x7b\x7b either \x7d\x7d"), ("first", .string "\x7b\x7b a \x7d\x7d"),
    ("second", .string "\x7b\x7b a \x7d\x7d")]

/-- The path `a` is being read. -/
def guards : Guards := ⟨[⟨["a"]⟩], 2⟩

/-- The questions may nest three deep, and values as well. -/
abbrev reply : (q : Request) → Live q.Reply :=
  tree.live (tree.chain.map Resolver.worker) [] 3 3

def circle : Halt := .failed (.cyclic [⟨["a"]⟩] (.path ⟨["a"]⟩))

theorem ordered_table : table.Pairwise (·.1 < ·.1) := by decide

theorem reply_a : ((reply (.get ⟨["a"]⟩)).under guards).1 = .error circle := by cbv

theorem reply_b : ((reply (.get ⟨["b"]⟩)).under guards).1 = .ok (some (.integer 1)) := by cbv

theorem resolve_either :
    ((reply (.resolve (.string "\x7b\x7b either \x7d\x7d"))).under guards).1 =
      .ok (.integer 1) := by
  cbv

theorem resolve_first :
    ((reply (.resolve (.string "\x7b\x7b a \x7d\x7d"))).under guards).1 = .error circle := by
  cbv

/-- Errors come and go, and the guards stay. -/
theorem calls_while_reading :
    (Live.calls reply [.get ⟨["a"]⟩, .get ⟨["b"]⟩, .get ⟨["a"]⟩]).under guards =
      (.ok [⟨.get ⟨["a"]⟩, .error circle⟩, ⟨.get ⟨["b"]⟩, .ok (some (.integer 1))⟩,
        ⟨.get ⟨["a"]⟩, .error circle⟩], guards) ∧
      table.Pairwise (·.1 < ·.1) ∧
      ((reply (.resolveTable table)).under guards).1 = .error circle := by
  have hthree := tree.calls_on_one_lookup (tree.chain.map Resolver.worker) [] 3 3 guards
  have htwo := tree.calls_on_one_lookup (tree.chain.map Resolver.worker) [] 3 2 guards
  obtain ⟨-, hcalls, -⟩ := hthree
  obtain ⟨-, -, -, -, hfails, -⟩ := htwo
  refine ⟨?_, ordered_table, ?_⟩
  · rw [hcalls, List.map_cons, List.map_cons, List.map_cons, List.map_nil, reply_a, reply_b]
  · apply (hfails table ordered_table circle).2
    refine ⟨("first", .string "\x7b\x7b a \x7d\x7d"), by simp [table], resolve_first, ?_⟩
    intro other hother hlt
    simp only [table, List.mem_cons, List.not_mem_nil, or_false] at hother
    rcases hother with rfl | rfl | rfl
    · exact ⟨.integer 1, resolve_either⟩
    · exact (Std.lt_irrefl hlt).elim
    · exact absurd hlt (by decide)

end Recovering

end LayeredConfig
