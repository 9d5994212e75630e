/-
  LayeredConfig/Proofs/Tree/Decliners.lean
  ========================================
  **Resolvers that decline everything.**

  Such a resolver does change a text, since it writes back the tokens that it does
  not answer.  But the others are shown the same bodies for the text that it leaves
  as for the one that it was given, and make the same of it
  (`Template.substitute_respaced`).  So it is not noticed in front of a chain, by
  whatever resolvers of the host the chain holds (`decliners_change_nothing`).

  A resolver may ask back before it declines.  It then takes part in the read, and
  the steps that its questions need may be wanting, which is the one thing that
  shows (`SameOrCut`).
-/
import LayeredConfig.Proofs.Tree.Declined
import LayeredConfig.Proofs.Tree.Ending

namespace LayeredConfig

/-! ### Texts that were written back -/

namespace Template

variable {m : Type → Type} [Monad m] (answer : String → m (Option Value))

/-- A resolver is shown a body without the white space around it. -/
theorem render_map_respace (ps : List Piece) :
    render answer (ps.map Piece.respace) = render answer ps := by
  induction ps with
  | nil => rfl
  | cons p ps ih =>
    cases p with
    | char c => simp only [List.map_cons, Piece.respace, render, ih]
    | token body => simp only [List.map_cons, Piece.respace, render, ih, Text.trim_between_blanks]

/-- A text that was written back is treated as it was before. -/
theorem substitute_respaced (text : String) :
    substitute answer (respaced text) = substitute answer text := by
  cases hw : wholeToken? text.toList with
  | some body => rw [respaced_of_whole hw]
  | none =>
    have hinline : wholeToken? (respaced text).toList = none := by
      rw [respaced_of_inline hw, String.toList_ofList]
      exact wholeToken?_respace hw
    simp only [substitute, hw, hinline, pieces_respaced hw, render_map_respace]

end Template

section Respaced

variable (replies : Replies) (g : Guards)

theorem Resolver.process_respaced (r : Resolver) (s : String) :
    r.process replies g (.string (Template.respaced s)) = r.process replies g (.string s) :=
  Template.substitute_respaced (r.ask replies g) s

/-- The first resolver of a chain does not see whether a text was written back before. -/
theorem settle_respaced {chain : List Resolver} (hchain : chain ≠ []) (s : String) :
    g.settle replies chain (.string (Template.respaced s)) =
      g.settle replies chain (.string s) := by
  cases chain with
  | nil => exact absurd rfl hchain
  | cons r rest => rw [Guards.settle, Guards.settle, r.process_respaced]

end Respaced

/-! ### Declining -/

/-- Whatever the replies to its questions are, the dialogue ends without a value. -/
inductive Dialogue.Declines : Dialogue (Option Value) → Prop where
  | done : Declines (.done (.ok none))
  | ask {q : Request} {next : Except Error q.Reply → Dialogue (Option Value)} :
      (∀ reply, Declines (next reply)) → Declines (.ask q next)

namespace Resolver

def DeclinesAll (r : Resolver) : Prop := ∀ body, (r.answer body).Declines

/-- The resolver declines every body at once, without a question. -/
def IsSilent (r : Resolver) : Prop := ∀ body, r.answer body = .answer none

theorem IsSilent.declinesAll {r : Resolver} (h : r.IsSilent) : r.DeclinesAll := by
  intro body
  rw [h body]
  exact .done

end Resolver

/-! ### The same result -/

/-- The first outcome has the result of the second one, unless questions are asked that the first
    one has too few steps for. -/
def SameOrCut (asking : Prop) {α : Type} (x y : Outcome α) : Prop :=
  x.result = y.result ∨ asking ∧ x.result = .error .exhausted

namespace SameOrCut

variable {asking : Prop} {α β : Type}

theorem refl (x : Outcome α) : SameOrCut asking x x := .inl rfl

theorem bind {x y : Outcome α} {f f' : α → Outcome β} (h : SameOrCut asking x y)
    (hf : ∀ a, SameOrCut asking (f a) (f' a)) : SameOrCut asking (x >>= f) (y >>= f') := by
  rcases h with h | ⟨hasking, hcut⟩
  · cases hx : x.result with
    | error halt =>
      rw [Outcome.bind_of_error hx, Outcome.bind_of_error (h ▸ hx)]
      exact .inl rfl
    | ok a =>
      rw [Outcome.bind_of_ok hx, Outcome.bind_of_ok (h ▸ hx)]
      exact hf a
  · rw [Outcome.bind_of_error hcut]
    exact .inr ⟨hasking, rfl⟩

theorem attempt {x y : Outcome α} (h : SameOrCut asking x y) :
    SameOrCut asking x.attempt y.attempt := by
  rcases h with h | ⟨hasking, hcut⟩
  · refine .inl ?_
    simp only [Outcome.attempt, h]
    rcases y.result with (e | -) | a <;> rfl
  · refine .inr ⟨hasking, ?_⟩
    simp only [Outcome.attempt, hcut]

theorem between {x y : Outcome α} (h : SameOrCut asking x y) (before after : Event) :
    SameOrCut asking (Outcome.between before after x) (Outcome.between before after y) := h

theorem congruent (asking : Prop) : Congruent (SameOrCut asking) :=
  ⟨fun {_ x} _ => refl x, bind⟩

end SameOrCut

/-! ### Resolvers, side by side -/

section Chains

variable {asking : Prop} {replies' replies : Replies}

theorem ask_of_declinesAll {d : Resolver} (h : d.DeclinesAll) (hasking : ¬ d.IsSilent → asking)
    (g : Guards) (body : String) : SameOrCut asking (d.ask replies g body) (pure none) := by
  by_cases hsilent : d.IsSilent
  · refine .inl ?_
    rw [Resolver.ask_result, hsilent body]
    rfl
  · have hrun : ∀ {x : Dialogue (Option Value)}, x.Declines →
        SameOrCut asking (x.run (replies g)) (pure none) := by
      intro x hx
      induction hx with
      | done => exact .refl _
      | @ask q next _ ih =>
        rw [Dialogue.run]
        cases hreply : (replies g q).attempt.result with
        | error halt =>
          -- a reply that fails is handed on, so that only the steps can be wanting
          rw [Outcome.bind_of_error hreply]
          rw [Outcome.attempt] at hreply
          split at hreply <;> cases hreply
          exact .inr ⟨hasking hsilent, rfl⟩
        | ok r =>
          rw [Outcome.bind_of_ok hreply]
          exact ih r
    rw [SameOrCut, Resolver.ask_result]
    exact hrun (h body)

/-- What resolvers leave of a text if they decline it. -/
theorem settle_of_declinesAll {ds : List Resolver} (h : ∀ d ∈ ds, d.DeclinesAll)
    (hasking : ∀ d ∈ ds, ¬ d.IsSilent → asking) (replies : Replies) (g : Guards) (s : String) :
    ∃ s', (s' = s ∨ s' = Template.respaced s) ∧
      SameOrCut asking (g.settle replies ds (.string s)) (pure (.string s')) := by
  induction ds generalizing s with
  | nil => exact ⟨s, .inl rfl, .refl _⟩
  | cons d ds ih =>
    obtain ⟨hd, hds⟩ := List.forall_mem_cons.1 h
    obtain ⟨hasking_d, hasking_ds⟩ := List.forall_mem_cons.1 hasking
    obtain ⟨s', hs', hrest⟩ := ih hds hasking_ds (Template.respaced s)
    have hsame : s' = Template.respaced s := by
      rcases hs' with rfl | rfl
      · rfl
      · exact Template.respaced_respaced s
    have hprocess : SameOrCut asking (d.process replies g (.string s))
        (Template.substitute (fun _ => pure none) s) :=
      (SameOrCut.congruent asking).substitute (ask_of_declinesAll hd hasking_d g) s
    have hleft : (Template.substitute (fun _ => (pure none : Outcome (Option Value))) s).result =
        .ok (.string (Template.respaced s)) :=
      Template.substitute_of_declined fun _ _ => rfl
    refine ⟨s', .inr hsame, ?_⟩
    rcases hprocess with hprocess | ⟨hcut, hprocess⟩
    · rw [Guards.settle, Outcome.bind_of_ok (hprocess.trans hleft)]
      exact hrest
    · rw [Guards.settle, Outcome.bind_of_error hprocess]
      exact .inr ⟨hcut, rfl⟩

variable (hreplies : ∀ g q, SameOrCut asking (replies' g q) (replies g q))
include hreplies

theorem run_sameOrCut {α : Type} (d : Dialogue α) (g : Guards) :
    SameOrCut asking (d.run (replies' g)) (d.run (replies g)) := by
  induction d with
  | done r => exact .refl _
  | ask q next ih => exact (hreplies g q).attempt.bind ih

theorem process_sameOrCut (r : Resolver) (g : Guards) (v : Value) :
    SameOrCut asking (r.process replies' g v) (r.process replies g v) := by
  cases v with
  | string s =>
    apply (SameOrCut.congruent asking).substitute
    intro body
    exact (SameOrCut.refl _).bind fun _ => run_sameOrCut hreplies (r.answer body) g
  | _ => exact .refl _

theorem settle_sameOrCut (chain : List Resolver) (g : Guards) (v : Value) :
    SameOrCut asking (g.settle replies' chain v) (g.settle replies chain v) := by
  induction chain generalizing v with
  | nil => exact .refl _
  | cons r rest ih => exact (process_sameOrCut hreplies r g v).bind ih

variable {chain ds : List Resolver} (hchain : chain ≠ []) (hds : ∀ d ∈ ds, d.DeclinesAll)
  (hasking : ∀ d ∈ ds, ¬ d.IsSilent → asking)
include hchain hds hasking

/-- The chain makes the same of what the resolvers in front of it leave of a text. -/
theorem settle_behind (g : Guards) (s : String) :
    SameOrCut asking (g.settle replies' (ds ++ chain) (.string s))
      (g.settle replies chain (.string s)) := by
  obtain ⟨s', hs', hfront⟩ := settle_of_declinesAll hds hasking replies' g s
  have hbehind := hfront.bind (settle_sameOrCut hreplies chain g)
  rw [pure_bind] at hbehind
  rw [settle_append]
  rcases hs' with rfl | rfl
  · exact hbehind
  · rwa [settle_respaced replies g hchain s] at hbehind

/-- What decliners hand on is the string or the string written back, and a chain makes the same of
    both. -/
theorem expandString_behind (fl : List KeyPath) (room : Nat) (s : String) :
    SameOrCut asking (expandString replies' (ds ++ chain) fl room s)
      (expandString replies chain fl room s) := by
  have hc := SameOrCut.congruent asking
  induction room generalizing s with
  | zero =>
    apply hc.bind_compound (settle_behind hreplies hchain hds hasking ⟨fl, 0⟩ s)
    exact fun v => .refl _
  | succ room ih =>
    apply hc.bind_compound (settle_behind hreplies hchain hds hasking ⟨fl, room + 1⟩ s)
    exact fun v => (hc.traverse _ _ v fun s _ => ih s).between _ _

theorem resolve_behind (g : Guards) (v : Value) :
    SameOrCut asking (g.resolve replies' (ds ++ chain) v) (g.resolve replies chain v) :=
  (SameOrCut.congruent asking).traverse _ _ v fun s _ =>
    expandString_behind hreplies hchain hds hasking g.inFlight g.room s

theorem resolveTable_behind (g : Guards) (table : Table) :
    SameOrCut asking (g.resolveTable replies' (ds ++ chain) table)
      (g.resolveTable replies chain table) :=
  (SameOrCut.congruent asking).traverseEntries _ _ table fun s _ =>
    expandString_behind hreplies hchain hds hasking g.inFlight g.room s

end Chains

/-! ### Reads, side by side -/

/-- The tree with resolvers in front of its chain. -/
def Tree.behind (t : Tree) (ds : List Resolver) : Tree := { t with chain := ds ++ t.chain }

section Reads

variable {asking : Prop} {t : Tree} {ds : List Resolver} (hchain : t.chain ≠ [])
  (hds : ∀ d ∈ ds, d.DeclinesAll) (hasking : ∀ d ∈ ds, ¬ d.IsSilent → asking)
include hchain hds hasking

section Replies

variable {replies' replies : Replies}
  (hreplies : ∀ g q, SameOrCut asking (replies' g q) (replies g q))
include hreplies

theorem walk_behind (g : Guards) (v : Option Value) (keys : List String) :
    SameOrCut asking (g.walk replies' (t.behind ds) v keys) (g.walk replies t v keys) := by
  induction keys generalizing v with
  | nil => cases v <;> exact .refl _
  | cons key rest ih =>
    cases v with
    | none => exact .refl _
    | some v =>
      cases v with
      | string s =>
        apply (resolve_behind hreplies hchain hds hasking g (.string s)).bind
        intro v
        cases v with
        | table entries => exact ih _
        | _ => exact .refl _
      | table entries => exact ih _
      | _ => exact .refl _

theorem find_behind (g : Guards) (path : KeyPath) :
    SameOrCut asking (g.find replies' (t.behind ds) path) (g.find replies t path) := by
  rw [find_eq_walk, find_eq_walk]
  exact walk_behind hchain hds hasking hreplies g _ _

theorem body_behind (g : Guards) (path : KeyPath) (keep : Value → Bool) :
    SameOrCut asking (g.body replies' (t.behind ds) path keep) (g.body replies t path keep) := by
  have hfind := find_behind hchain hds hasking hreplies g path
  apply hfind.bind
  intro v
  cases v with
  | none => exact .refl _
  | some v =>
    by_cases hv : keep v
    · simp only [hv, if_true]
      apply (resolve_behind hreplies hchain hds hasking g v).bind
      exact fun v => .refl _
    · simp only [hv, Bool.false_eq_true, if_false]
      exact .refl _

theorem read_behind (g : Guards) (path : KeyPath) (keep : Value → Bool) :
    SameOrCut asking (g.read replies' (t.behind ds) path keep) (g.read replies t path keep) := by
  by_cases hpath : path ∈ g.inFlight
  · rw [Guards.read_of_mem hpath, Guards.read_of_mem hpath]
    exact .refl _
  · rw [Guards.read_of_not_mem hpath, Guards.read_of_not_mem hpath]
    exact (body_behind hchain hds hasking hreplies (g.enter path) path keep).between _ _

end Replies

/-- Behind decliners that ask nothing the replies are the same; others may use up steps. -/
theorem reply_behind (disk : Disk) (steps : Nat) (g : Guards) (q : Request) :
    SameOrCut asking ((t.behind ds).reply disk steps g q) (t.reply disk steps g q) := by
  induction steps generalizing g q with
  | zero => exact .refl _
  | succ steps ih =>
    cases q with
    | get path => exact read_behind hchain hds hasking ih g path keepAll
    | resolve v => exact resolve_behind ih hchain hds hasking g v
    | resolveTable table => exact resolveTable_behind ih hchain hds hasking g table
    | load path => exact .refl _

end Reads

/-- **Who declines everything is not noticed by those behind him.**  What any resolver makes of a
    text that was declined, with all that it is shown on the way, is what it makes of the text; and
    in front of a chain, at least one, any number of decliners change no result of a read, by
    whatever resolvers the chain holds.  Only if some of them ask back, a read may need more steps
    for that. -/
theorem decliners_change_nothing :
    (∀ (r d : Resolver) (replies : Replies) (g : Guards) (s : String), g.Declines replies [d] s →
      let given := d.process replies g (.string s)
      let alone := r.process replies g (.string s)
      (do let v ← given; r.process replies g v) =
        ⟨alone.result, given.journal ++ alone.journal⟩) ∧
    ∀ (t : Tree) (ds : List Resolver) (disk : Disk) (steps : Nat), t.chain ≠ [] →
      (∀ d ∈ ds, d.DeclinesAll) →
      let asking := ∃ d ∈ ds, ¬ d.IsSilent
      (∀ path, SameOrCut asking ((t.behind ds).getWithin disk path steps)
        (t.getWithin disk path steps)) ∧
      (∀ path default, SameOrCut asking ((t.behind ds).getOrWithin disk path default steps)
        (t.getOrWithin disk path default steps)) ∧
      SameOrCut asking ((t.behind ds).allWithin disk steps) (t.allWithin disk steps) := by
  refine ⟨?_, ?_⟩
  · intro r d replies g s h
    simp only [Outcome.bind_of_ok h.process, Resolver.process_respaced]
  · intro t ds disk steps hchain hds asking
    have hasking : ∀ d ∈ ds, ¬ d.IsSilent → asking := fun d hd hsilent => ⟨d, hd, hsilent⟩
    have hreplies := reply_behind hchain hds hasking disk steps
    refine ⟨?_, ?_, ?_⟩
    · exact fun path => read_behind hchain hds hasking hreplies Guards.fresh path keepAll
    · intro path default
      apply (read_behind hchain hds hasking hreplies Guards.fresh path Value.isTruthy).bind
      exact fun v => .refl _
    · exact resolveTable_behind hreplies hchain hds hasking Guards.fresh t.data

/-! ### Two decliners in front of a table -/

namespace Unnoticed

/-- A resolver that declines at once, and one that reads a path before it does. -/
def silent : Resolver := ⟨8, .host fun _ => .answer none⟩

def asking : Resolver := ⟨9, .host fun _ => .ask (.get ⟨["name"]⟩) fun _ => .answer none⟩

def tree : Tree where
  data := [("name", .string "x"), ("text", .string "a\x7b\x7bdata:k\x7d\x7d \x7b\x7b?\x7d\x7d")]
  chain := [⟨0, .labelled Resolver.dataLabel (.data [("k", .integer 1)])⟩]
  loader := Loader.empty

theorem isSilent_silent : silent.IsSilent := fun _ => rfl

theorem declinesAll : ∀ d ∈ [silent, asking], d.DeclinesAll := by
  intro d hd
  rcases List.mem_pair.1 hd with rfl | rfl
  · exact isSilent_silent.declinesAll
  · exact fun _ => .ask fun _ => .done

theorem declines_text (replies : Replies) (g : Guards) (s : String) :
    g.Declines replies [silent] s := by
  intro d hd body _
  rw [List.mem_singleton.1 hd]
  rfl

theorem text_in_tree :
    (tree.getWithin [] ⟨["text"]⟩ 2).result = .ok (some (.string "a1 \x7b\x7b ? \x7d\x7d")) := by
  cbv

/-- With the two in front the text is read as it was, since the steps suffice. -/
theorem text_read_behind_decliners :
    Guards.fresh.Declines (tree.reply [] 2) [silent] "a\x7b\x7bdata:k\x7d\x7d" ∧
      (do
        let v ← silent.process (tree.reply [] 2) Guards.fresh (.string "a\x7b\x7bdata:k\x7d\x7d")
        asking.process (tree.reply [] 2) Guards.fresh v).journal =
          [.asked 8 "data:k", .asked 9 "data:k", .opened ⟨["name"]⟩, .closed ⟨["name"]⟩] ∧
      tree.chain ≠ [] ∧ (∀ d ∈ [silent, asking], d.DeclinesAll) ∧
      ((tree.behind [silent, asking]).getWithin [] ⟨["text"]⟩ 2).result =
        .ok (some (.string "a1 \x7b\x7b ? \x7d\x7d")) := by
  obtain ⟨hprocess, hreads⟩ := decliners_change_nothing
  have hchain : tree.chain ≠ [] := List.cons_ne_nil _ _
  have hdeclines := declines_text (tree.reply [] 2) Guards.fresh "a\x7b\x7bdata:k\x7d\x7d"
  refine ⟨hdeclines, ?_, hchain, declinesAll, ?_⟩
  · rw [hprocess asking silent _ _ _ hdeclines]
    cbv
  · obtain ⟨hget, -, -⟩ := hreads tree [silent, asking] [] 2 hchain declinesAll
    rcases hget ⟨["text"]⟩ with hsame | ⟨-, hcut⟩
    · exact hsame.trans text_in_tree
    · have hend : ((tree.behind [silent, asking]).getWithin [] ⟨["text"]⟩ 2).result.isOk := by cbv
      rw [hcut] at hend
      cases hend

end Unnoticed

end LayeredConfig
