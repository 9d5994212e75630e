/-
  LayeredConfig/Proofs/Lookup/Agreement.lean
  ==========================================
  **A lookup and the replies to questions.**

  A lookup whose workers are the resolvers of a tree gives the replies that the
  tree gives, whatever its guards are (`Tree.agrees_live`).  Both do the same in
  the same order.  But a lookup looks into values only down to a limit, while the
  replies take a value as it is, and how deep the values of a course are is known
  only when it is over.  So what is stated is stated from some limit on
  (`Agrees`): of the parts of a course there are finitely many, and each has its
  limit.
-/
import LayeredConfig.Proofs.Lookup.Chain
import LayeredConfig.Proofs.Lookup.Live
import LayeredConfig.Proofs.Lookup.Lockstep
import Mathlib.Order.Filter.AtTopBot.Basic

namespace LayeredConfig

open Filter (atTop Eventually)

/-! ### The dialogue about a text -/

section Texts

variable (reply : (q : Request) → Outcome q.Reply) (answer : String → Dialogue (Option Value))

theorem Dialogue.run_render (ps : List Template.Piece) :
    (Template.render answer ps).run reply =
      Template.render (fun body => (answer body).run reply) ps := by
  induction ps with
  | nil => rfl
  | cons p ps ih =>
    cases p with
    | char c =>
      rw [Template.render, Template.render, Dialogue.run_bind, ih]
      rfl
    | token body =>
      simp only [Template.render, Dialogue.run_bind, ih]
      apply bind_congr
      intro v
      apply bind_congr
      intro tail
      cases v <;> rfl

/-- The tokens of a text can be answered in one dialogue or each in its own. -/
theorem Dialogue.run_substitute (text : String) :
    (Template.substitute answer text).run reply =
      Template.substitute (fun body => (answer body).run reply) text := by
  rw [Template.substitute, Template.substitute]
  cases Template.wholeToken? text.toList with
  | none =>
    rw [Dialogue.run_bind, Dialogue.run_render]
    rfl
  | some body =>
    rw [Dialogue.run_bind]
    apply bind_congr
    intro v
    cases v <;> rfl

end Texts

theorem congruent_result : Congruent fun x y => x.result = y.result where
  still _ := rfl
  bind {_ _ x y f f'} h hf := by
    cases hx : x.result with
    | error halt => rw [Outcome.bind_of_error hx, Outcome.bind_of_error (h ▸ hx)]
    | ok a =>
      rw [Outcome.bind_of_ok hx, Outcome.bind_of_ok (h ▸ hx)]
      exact hf a

/-- The worker of a resolver does what the resolver does, and writes nothing into the journal. -/
theorem Resolver.run_worker (replies : Replies) (g : Guards) (r : Resolver) (v : Value) :
    ((r.worker v).run (replies g)).result = (r.process replies g v).result := by
  cases v with
  | string s =>
    rw [Resolver.worker, Dialogue.run_substitute]
    apply congruent_result.substitute
    intro body
    exact (Resolver.ask_result body).symm
  | _ => rfl

/-! ### Values and what is in there -/

section Traverse

variable {m : Type → Type} [Monad m] [LawfulMonad m] (change : String → m Value)

theorem Value.traverseItems_eq_mapM (items : List Value) :
    Value.traverseItems change items = items.mapM (Value.traverse change) := by
  induction items with
  | nil => simp [Value.traverseItems]
  | cons v rest ih => rw [Value.traverseItems, List.mapM_cons, ih]

theorem Table.traverse_eq_changeEntries (t : Table) :
    t.traverse change = t.changeEntries (Value.traverse change) := by
  rw [Table.traverse, Table.changeEntries]
  induction t with
  | nil => simp [Value.traverseEntries]
  | cons entry rest ih =>
    rw [Value.traverseEntries, List.mapM_cons, ih]
    simp only [bind_assoc, pure_bind]

theorem Value.isString_of_isCompound {v : Value} (h : v.isCompound = true) :
    v.isString = false := by
  cases v with
  | string s => cases h
  | _ => rfl

/-- A value that is no string changes by what is in there. -/
theorem Value.traverse_eq_changeInside {v : Value} (hv : v.isString = false) :
    v.traverse change = v.changeInside (Value.traverse change) := by
  cases v with
  | string s => cases hv
  | array items => rw [Value.traverse, Value.changeInside, Value.traverseItems_eq_mapM]
  | table entries =>
    rw [Value.traverse, Value.changeInside, ← Table.traverse_eq_changeEntries]
    rfl
  | _ => rfl

end Traverse

/-- Only strings hold tokens. -/
theorem Guards.settle_of_no_string (replies : Replies) (g : Guards) (chain : List Resolver)
    {v : Value} (hv : v.isString = false) : g.settle replies chain v = pure v := by
  apply settle_of_not_string
  rintro s rfl
  cases hv

/-! ### Agreement -/

/-- From some limit on, what is done on a lookup ends as the outcome does, and leaves the guards as
    they were. -/
def Agrees {α : Type} (g : Guards) (x : Nat → Live α) (y : Outcome α) : Prop :=
  ∀ᶠ limit in atTop, (x limit).under g = (y.result, g)

namespace Agrees

variable {α β : Type} {g : Guards}

theorem of_forall {x : Nat → Live α} {y : Outcome α}
    (h : ∀ limit, (x limit).under g = (y.result, g)) : Agrees g x y := Eventually.of_forall h

theorem pure (a : α) : Agrees g (fun _ => Pure.pure a) (Pure.pure a) := of_forall fun _ => rfl

theorem congr {x x' : Nat → Live α} {y : Outcome α} (h : Agrees g x y)
    (hx : ∀ᶠ limit in atTop, x' limit = x limit) : Agrees g x' y := by
  filter_upwards [h, hx] with limit h hx
  rw [hx, h]

theorem bind {x : Nat → Live α} {y : Outcome α} {f : Nat → α → Live β} {f' : α → Outcome β}
    (hx : Agrees g x y) (hf : ∀ a, y.result = .ok a → Agrees g (fun limit => f limit a) (f' a)) :
    Agrees g (fun limit => x limit >>= f limit) (y >>= f') := by
  cases hy : y.result with
  | error halt =>
    filter_upwards [hx] with limit hx
    rw [Live.under_bind, hx, hy, Outcome.bind_of_error hy]
  | ok a =>
    filter_upwards [hx, hf a hy] with limit hx hf
    rw [Live.under_bind, hx, hy, Outcome.bind_of_ok hy]
    exact hf

theorem attempt {x : Nat → Live α} {y : Outcome α} (h : Agrees g x y) :
    Agrees g (fun limit => (x limit).attempt) y.attempt := by
  filter_upwards [h] with limit h
  rw [Live.attempt, Live.under_bind, Live.under_caught, h, Outcome.attempt]
  rcases y.result with (e | _) | a <;> rfl

theorem mapM {f : Nat → α → Live β} {f' : α → Outcome β} {items : List α}
    (h : ∀ a ∈ items, Agrees g (fun limit => f limit a) (f' a)) :
    Agrees g (fun limit => items.mapM (f limit)) (items.mapM f') := by
  induction items with
  | nil => exact pure []
  | cons a rest ih =>
    simp only [List.mapM_cons]
    apply (h a List.mem_cons_self).bind
    intro b _
    apply (ih fun a ha => h a (List.mem_cons_of_mem _ ha)).bind
    intro bs _
    exact pure _

theorem changeEntries {change : Nat → Value → Live Value} {change' : Value → Outcome Value}
    {t : Table} (h : ∀ entry ∈ t, Agrees g (fun limit => change limit entry.2) (change' entry.2)) :
    Agrees g (fun limit => t.changeEntries (change limit)) (t.changeEntries change') := by
  apply mapM
  intro entry hentry
  exact (h entry hentry).bind fun v _ => pure _

/-- What is inside of a value is smaller than the value itself. -/
theorem changeInside {change : Nat → Value → Live Value} {change' : Value → Outcome Value}
    {v : Value}
    (h : ∀ u, sizeOf u < sizeOf v → Agrees g (fun limit => change limit u) (change' u)) :
    Agrees g (fun limit => v.changeInside (change limit)) (v.changeInside change') := by
  cases v with
  | array items =>
    have hitems : ∀ u ∈ items, Agrees g (fun limit => change limit u) (change' u) := by
      intro u hu
      have hlt := List.sizeOf_lt_of_mem hu
      exact h u (by rw [Value.array.sizeOf_spec]; omega)
    exact (mapM hitems).bind fun items _ => pure _
  | table entries =>
    have hentries : ∀ entry ∈ entries,
        Agrees g (fun limit => change limit entry.2) (change' entry.2) := by
      rintro ⟨key, u⟩ hu
      have hlt := List.sizeOf_lt_of_mem hu
      rw [Prod.mk.sizeOf_spec] at hlt
      exact h u (by rw [Value.table.sizeOf_spec]; omega)
    exact (changeEntries hentries).bind fun entries _ => pure _
  | _ => exact pure _

theorem changeInside_of_scalar {change : Nat → Value → Live Value} {v : Value}
    (hv : v.isCompound = false) :
    Agrees g (fun limit => v.changeInside (change limit)) (Pure.pure v) := by
  cases v with
  | array items => cases hv
  | table entries => cases hv
  | _ => exact pure _

/-! ### Resolvers -/

section Lookup

variable {reply : Nat → (q : Request) → Live q.Reply} {replies : Replies}
  (hreply : ∀ g q, Agrees g (fun limit => reply limit q) (replies g q))
include hreply

/-- A dialogue that meets the same replies takes the same course. -/
theorem dialogue (d : Dialogue α) :
    Agrees g (fun limit => d.live (reply limit)) (d.run (replies g)) := by
  induction d with
  | done r =>
    apply of_forall
    intro limit
    rw [Dialogue.live, Live.under_ofExcept]
    cases r <;> rfl
  | ask q next ih => exact (hreply g q).attempt.bind fun r _ => ih r

theorem work (r : Resolver) (v : Value) :
    Agrees g (fun limit => (r.worker v).live (reply limit)) (r.process replies g v) := by
  filter_upwards [dialogue hreply (r.worker v)] with limit h
  rw [h, r.run_worker]

theorem settle (chain : List Resolver) (v : Value) :
    Agrees g (fun limit => Live.settle (reply limit) (chain.map Resolver.worker) v)
      (g.settle replies chain v) := by
  induction chain generalizing v with
  | nil => exact pure v
  | cons r rest ih =>
    simp only [List.map_cons, Live.settle_cons]
    exact (work hreply r v).bind fun w _ => ih w

theorem settle_of_no_string {chain : List Resolver} {v : Value} (hv : v.isString = false) :
    Agrees g (fun limit => Live.settle (reply limit) (chain.map Resolver.worker) v)
      (Pure.pure v) := by
  rw [← Guards.settle_of_no_string replies g chain hv]
  exact settle hreply chain v

end Lookup

/-! ### Reads -/

section Reads

variable {reply : Nat → (q : Request) → Live q.Reply} {replies : Replies} {chain : List Resolver}

/-- What is left of the limit at some depth.  The limit itself stays the same for all questions, so
    it is the depth that changes on the way into a value. -/
abbrev resolveAt (reply : Nat → (q : Request) → Live q.Reply) (chain : List Resolver)
    (depth limit : Nat) : Value → Live Value :=
  Live.resolve (reply limit) (chain.map Resolver.worker) (limit - depth)

/-- A limit that lies deeper does not show in one step of resolving. -/
theorem resolveAt_eq (depth : Nat) (v : Value) : ∀ᶠ limit in atTop,
    resolveAt reply chain depth limit v =
      Live.settle (reply limit) (chain.map Resolver.worker) v >>= fun w =>
        if v.isString && w.isCompound then
          Live.unfolding (w.changeInside (resolveAt reply chain (depth + 1) limit))
        else w.changeInside (resolveAt reply chain (depth + 1) limit) := by
  filter_upwards [Filter.eventually_gt_atTop depth] with limit hlimit
  have hsub : limit - depth = limit - (depth + 1) + 1 := by omega
  rw [resolveAt, hsub, Live.resolve]

variable (hreply : ∀ g q, Agrees g (fun limit => reply limit q) (replies g q))
include hreply

/-- A value is resolved alike if strings are. -/
theorem traverse {change : String → Outcome Value}
    (hstrings : ∀ depth s,
      Agrees g (fun limit => resolveAt reply chain depth limit (.string s)) (change s))
    (depth : Nat) (v : Value) :
    Agrees g (fun limit => resolveAt reply chain depth limit v) (v.traverse change) := by
  cases hv : v.isString with
  | true =>
    cases v with
    | string s => exact hstrings depth s
    | _ => cases hv
  | false =>
    apply Agrees.congr _ (resolveAt_eq depth v)
    rw [Value.traverse_eq_changeInside change hv,
      ← pure_bind v fun v => v.changeInside (Value.traverse change)]
    -- the workers leave the value as it is, so what is in there is smaller than the value
    apply (settle_of_no_string hreply hv).bind
    intro w hw
    obtain rfl := Except.ok.inj hw
    rw [hv]
    apply changeInside
    intro u hu
    exact traverse hstrings (depth + 1) u
termination_by sizeOf v

/-- By induction on the room: a table or an array in the place of a string is resolved with less of
    it. -/
theorem resolveAt_string {fl : List KeyPath} {room : Nat} (depth : Nat) (s : String) :
    Agrees ⟨fl, room⟩ (fun limit => resolveAt reply chain depth limit (.string s))
      (expandString replies chain fl room s) := by
  -- what a string turns into is resolved with less room, whatever strings are in there
  induction room generalizing depth s with
  | zero =>
    apply Agrees.congr _ (resolveAt_eq depth (.string s))
    rw [expandString]
    apply (settle hreply chain (.string s)).bind
    intro w _
    cases hw : w.isCompound with
    | true => exact of_forall fun limit => Live.under_unfolding_zero _ fl
    | false => exact changeInside_of_scalar hw
  | succ room ih =>
    apply Agrees.congr _ (resolveAt_eq depth (.string s))
    rw [expandString]
    apply (settle hreply chain (.string s)).bind
    intro w _
    cases hw : w.isCompound with
    | true =>
      have hinside : Agrees ⟨fl, room⟩
          (fun limit => w.changeInside (resolveAt reply chain (depth + 1) limit))
          (w.traverse (expandString replies chain fl room)) := by
        rw [Value.traverse_eq_changeInside _ (Value.isString_of_isCompound hw)]
        apply changeInside
        intro u _
        exact traverse hreply ih (depth + 1) u
      filter_upwards [hinside] with limit hinside
      have hunfold := Live.under_unfolding_succ
        (w.changeInside (resolveAt reply chain (depth + 1) limit)) fl room
      rw [hinside] at hunfold
      exact hunfold
    | false => exact changeInside_of_scalar hw

theorem resolve (v : Value) :
    Agrees g (fun limit => Live.resolve (reply limit) (chain.map Resolver.worker) limit v)
      (g.resolve replies chain v) :=
  traverse hreply (resolveAt_string hreply) 0 v

theorem resolveTable (table : Table) :
    Agrees g
      (fun limit => Live.resolveTable (reply limit) (chain.map Resolver.worker) limit table)
      (g.resolveTable replies chain table) := by
  rw [Guards.resolveTable, Table.traverse_eq_changeEntries]
  apply changeEntries
  intro entry _
  exact resolve hreply entry.2

variable {t : Tree}

theorem walk (v : Option Value) (path : List String) :
    Agrees g
      (fun limit => Live.walk (reply limit) (t.chain.map Resolver.worker) limit v path)
      (g.walk replies t v path) := by
  induction path generalizing v with
  | nil => exact pure v
  | cons key rest ih =>
    rcases v with _ | v
    · exact pure none
    · cases v with
      | string s =>
        apply (resolve hreply (.string s)).bind
        intro w _
        cases w with
        | table entries => exact ih _
        | _ => exact pure none
      | table entries => exact ih _
      | _ => exact pure none

theorem find (path : KeyPath) :
    Agrees g (fun limit => Live.find (reply limit) (t.chain.map Resolver.worker) limit t path)
      (g.find replies t path) := by
  simp only [Live.find, Guards.find]
  cases path.segments with
  | nil => exact pure _
  | cons key rest => exact walk hreply _ rest

theorem body (path : KeyPath) (keep : Value → Bool) :
    Agrees g
      (fun limit => Live.body (reply limit) (t.chain.map Resolver.worker) limit t path keep)
      (g.body replies t path keep) := by
  apply (find hreply path).bind
  rintro (_ | v) _
  · exact pure none
  · cases hkeep : keep v with
    | true =>
      simp only [hkeep, if_true]
      exact (resolve hreply v).bind fun w _ => pure _
    | false =>
      simp only [hkeep]
      exact pure none

theorem read (path : KeyPath) (keep : Value → Bool) :
    Agrees g
      (fun limit => Live.read (reply limit) (t.chain.map Resolver.worker) limit t path keep)
      (g.read replies t path keep) := by
  by_cases hpath : path ∈ g.inFlight
  · rw [Guards.read_of_mem hpath]
    exact of_forall fun limit => Live.under_reading_of_mem _ hpath
  · rw [Guards.read_of_not_mem hpath]
    filter_upwards [body hreply (g := g.enter path) path keep] with limit hbody
    rw [Live.read, Live.under_reading_of_not_mem _ hpath, hbody]
    rfl

end Reads

end Agrees

/-- With limits that are great enough a question has the reply that it has under fixed guards, and
    leaves the guards as they were. -/
theorem Tree.agrees_live (t : Tree) (disk : Disk) (steps : Nat) (g : Guards) (q : Request) :
    Agrees g (fun limit => t.live (t.chain.map Resolver.worker) disk limit steps q)
      (t.reply disk steps g q) := by
  induction steps generalizing g q with
  | zero => exact Agrees.of_forall fun limit => rfl
  | succ steps ih =>
    cases q with
    | get path => exact Agrees.read ih path _
    | resolve v => exact Agrees.resolve ih v
    | resolveTable table => exact Agrees.resolveTable ih table
    | load path => exact Agrees.of_forall fun limit => Live.under_ofExcept _ g

end LayeredConfig
