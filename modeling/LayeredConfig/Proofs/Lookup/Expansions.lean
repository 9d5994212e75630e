/-
  LayeredConfig/Proofs/Lookup/Expansions.lean
  ===========================================
  **The limit on expansions.**

  Without the limit a token may expand to a table with the same token in it, and
  so on.  If the resolvers read no path of the tree, nothing else can keep a
  value from being resolved, and the limit does just that: the value comes out as
  it does without a limit, unless more than `maxDepth` expansions would be open
  inside one another (`expansion_limit`).

  What is resolved without a limit need not have an end.  It is given fuel
  instead, one unit for each expansion inside another one.  The limit then reads:
  whoever runs out of fuel reports a circle (`expandString_eq_capped`).
-/
import LayeredConfig.Proofs.Lookup.Course

namespace LayeredConfig

/-! ### Resolvers that read no path -/

theorem Outcome.Still.attempt {α : Type} {x : Outcome α} (h : x.Still) : x.attempt.Still := by
  rcases x with ⟨(_ | _) | a, journal⟩
  · exact ⟨nofun, h.quiet⟩
  · exact absurd rfl h.ends
  · exact ⟨nofun, h.quiet⟩

namespace Dialogue

variable {α β : Type}

def LoadsOnly : Dialogue α → Prop
  | .done _ => True
  | .ask (.load _) next => ∀ reply, (next reply).LoadsOnly
  | .ask _ _ => False

theorem loadsOnly_bind {d : Dialogue α} {f : α → Dialogue β} (hd : d.LoadsOnly)
    (hf : ∀ a, (f a).LoadsOnly) : (d.bind f).LoadsOnly := by
  induction d with
  | done r =>
    cases r with
    | error e => trivial
    | ok a => exact hf a
  | ask q next ih =>
    cases q with
    | load path => exact fun reply => ih reply (hd reply)
    | _ => exact hd.elim

/-- Whoever loads files the same way holds the same dialogue, and a still one. -/
theorem LoadsOnly.run_eq {reply₁ reply₂ : (q : Request) → Outcome q.Reply}
    (hload : ∀ path, (reply₁ (.load path)).Still ∧ reply₁ (.load path) = reply₂ (.load path))
    {d : Dialogue α} (hd : d.LoadsOnly) : (d.run reply₁).Still ∧ d.run reply₁ = d.run reply₂ := by
  induction d with
  | done r => exact ⟨Outcome.Still.ofExcept r, rfl⟩
  | ask q next ih =>
    cases q with
    | load path =>
      obtain ⟨hstill, heq⟩ := hload path
      have hnext : ∀ r, ((next r).run reply₁).Still ∧ (next r).run reply₁ = (next r).run reply₂ :=
        fun r => ih r (hd r)
      constructor
      · apply hstill.attempt.bind
        intro r
        exact (hnext r).1
      · simp only [run, heq]
        congr 1
        funext r
        exact (hnext r).2
    | _ => exact hd.elim

end Dialogue

/-- The resolver answers from a table, by a function of the host, or from a file. -/
def Resolver.LoadsOnly (r : Resolver) : Prop :=
  match r.kind with
  | .labelled _ (.data _) | .labelled _ (.call _) | .labelled _ (.inclusion _) => True
  | _ => False

theorem Resolver.LoadsOnly.answer {r : Resolver} (h : r.LoadsOnly) (body : String) :
    (r.answer body).LoadsOnly := by
  rcases r with ⟨id, kind⟩
  cases kind with
  | host answer => exact h.elim
  | labelled label what =>
    simp only [Resolver.answer]
    cases rest? label body with
    | none => trivial
    | some rest =>
      cases what with
      | data table =>
        simp only [Labelled.answer]
        split <;> trivial
      | reference => exact h.elim
      | call functions =>
        apply Dialogue.loadsOnly_bind (show (Dialogue.ofExcept _).LoadsOnly from trivial)
        intro call
        cases functions.lookup call.name <;> trivial
      | inclusion roots =>
        apply Dialogue.loadsOnly_bind (show (Dialogue.ofExcept _).LoadsOnly from trivial)
        intro path
        exact fun reply => by cases reply <;> trivial
      | host answer => exact h.elim

theorem Resolver.LoadsOnly.isBuiltIn {r : Resolver} (h : r.LoadsOnly) : r.IsBuiltIn := by
  rcases r with ⟨id, _ | _⟩
  case labelled label what => cases what <;> trivial
  case host answer => exact h.elim

/-! ### Texts -/

/-- The replies of both load every file alike, whatever the guards, and without a read of a tree. -/
def LoadAlike (replies₁ replies₂ : Replies) : Prop :=
  ∀ g₁ g₂ path, (replies₁ g₁ (.load path)).Still ∧
    replies₁ g₁ (.load path) = replies₂ g₂ (.load path)

/-- The data of a tree has no part in loading, and one step is enough. -/
theorem loadAlike_reply {t₁ t₂ : Tree} (h : t₁.loader = t₂.loader) (disk : Disk)
    (steps₁ steps₂ : Nat) :
    LoadAlike (t₁.reply disk (steps₁ + 1)) (t₂.reply disk (steps₂ + 1)) := by
  intro g₁ g₂ path
  have heq : t₁.reply disk (steps₁ + 1) g₁ (.load path) =
      t₂.reply disk (steps₂ + 1) g₂ (.load path) := by
    rw [Tree.reply, Tree.reply, h]
  exact ⟨t₁.loader.still_loadFile disk path, heq⟩

theorem congruent_still : Congruent fun x y => x.Still ∧ x = y where
  still hx := ⟨hx, rfl⟩
  bind := by
    rintro α β x _ f f' ⟨hx, rfl⟩ hf
    constructor
    · apply hx.bind
      intro a
      exact (hf a).1
    · congr 1
      funext a
      exact (hf a).2

section Texts

variable {replies₁ replies₂ : Replies} (hload : LoadAlike replies₁ replies₂)
include hload

theorem Resolver.LoadsOnly.ask_eq {r : Resolver} (hr : r.LoadsOnly) (g₁ g₂ : Guards)
    (body : String) :
    (r.ask replies₁ g₁ body).Still ∧ r.ask replies₁ g₁ body = r.ask replies₂ g₂ body := by
  obtain ⟨hstill, heq⟩ := Dialogue.LoadsOnly.run_eq (hload g₁ g₂) (hr.answer body)
  constructor
  · have hnote : (Outcome.note (.asked r.id body)).Still := Outcome.Still.note trivial
    apply hnote.bind
    intro _
    exact hstill
  · rw [Resolver.ask, heq]
    rfl

/-- What such resolvers make of a text takes no read and depends on no guards. -/
theorem settle_of_loadAlike {chain : List Resolver} (hchain : ∀ r ∈ chain, r.LoadsOnly)
    (g₁ g₂ : Guards) (v : Value) :
    (g₁.settle replies₁ chain v).Still ∧
      g₁.settle replies₁ chain v = g₂.settle replies₂ chain v := by
  induction chain generalizing v with
  | nil => exact ⟨Outcome.Still.pure v, rfl⟩
  | cons r rest ih =>
    have hr : (r.process replies₁ g₁ v).Still ∧
        r.process replies₁ g₁ v = r.process replies₂ g₂ v := by
      cases v with
      | string s =>
        exact congruent_still.substitute ((hchain r List.mem_cons_self).ask_eq hload g₁ g₂) s
      | _ => exact ⟨Outcome.Still.pure _, rfl⟩
    apply congruent_still.bind hr
    intro v
    exact ih (fun r hr => hchain r (List.mem_cons_of_mem _ hr)) v

theorem expandString_of_loadAlike {chain : List Resolver} (hchain : ∀ r ∈ chain, r.LoadsOnly)
    (fl : List KeyPath) (room : Nat) :
    expandString replies₁ chain fl room = expandString replies₂ chain fl room := by
  have hsettle : ∀ (g : Guards) (s : String),
      g.settle replies₁ chain (.string s) = g.settle replies₂ chain (.string s) := fun g s =>
    (settle_of_loadAlike hload hchain g g (.string s)).2
  induction room with
  | zero =>
    funext s
    rw [expandString, expandString, hsettle]
  | succ room ih =>
    funext s
    rw [expandString, expandString, hsettle, ih]

end Texts

theorem settle_of_loadsOnly {t : Tree} {chain : List Resolver} (hchain : ∀ r ∈ chain, r.LoadsOnly)
    (disk : Disk) (steps : Nat) (g g' : Guards) (v : Value) :
    (g.settle (t.reply disk (steps + 1)) chain v).Still ∧
      g.settle (t.reply disk (steps + 1)) chain v =
        g'.settle (t.reply disk (steps + 1)) chain v :=
  settle_of_loadAlike (loadAlike_reply rfl disk steps steps) hchain g g' v

/-! ### Resolving without the limit -/

section Freely

variable (replies : Replies) (chain : List Resolver) (g : Guards)

/-- What becomes of a string if nothing limits how many expansions are open.  With `fuel` at most
    that many are opened inside one another, and what needs more is exhausted. -/
def expandFreely : (fuel : Nat) → String → Outcome Value
  | 0, s => do
    let v ← g.settle replies chain (.string s)
    if v.isCompound then Outcome.exhausted else return v
  | fuel + 1, s => do
    let v ← g.settle replies chain (.string s)
    if v.isCompound then Outcome.between .unfolded .folded (v.traverse (expandFreely fuel))
    else return v

/-- The value with all its tokens resolved, without a limit on expansions. -/
def Guards.resolveFreely (fuel : Nat) (v : Value) : Outcome Value :=
  v.traverse (expandFreely replies chain g fuel)

end Freely

/-! ### The limit on fuel -/

def Halt.capped (e : Error) : Halt → Halt
  | .exhausted => .failed e
  | .failed e' => .failed e'

def Outcome.capped {α : Type} (e : Error) (x : Outcome α) : Outcome α :=
  ⟨x.result.mapError (Halt.capped e), x.journal⟩

namespace Outcome

variable {α β : Type} {e : Error} {x : Outcome α}

theorem capped_of_ends (h : x.result ≠ .error .exhausted) : x.capped e = x := by
  rcases x with ⟨(_ | _) | a, journal⟩
  · rfl
  · exact absurd rfl h
  · rfl

theorem capped_of_exhausted (h : x.result = .error .exhausted) :
    (x.capped e).result = .error (.failed e) := by
  rw [capped, h]
  rfl

theorem capped_ends (e : Error) (x : Outcome α) : (x.capped e).result ≠ .error .exhausted := by
  rcases x with ⟨(_ | _) | a, journal⟩ <;> exact nofun

theorem capped_bind (e : Error) (x : Outcome α) (f : α → Outcome β) :
    (x >>= f).capped e = x.capped e >>= fun a => (f a).capped e := by
  rcases x with ⟨(_ | _) | a, journal⟩ <;> rfl

end Outcome

theorem congruent_capped (e : Error) : Congruent fun x y => x = y.capped e where
  still hx := (Outcome.capped_of_ends hx.ends).symm
  bind := by
    rintro α β _ y f f' rfl hf
    rw [Outcome.capped_bind]
    congr 1
    funext a
    exact hf a

section Capped

variable {t : Tree} (hchain : ∀ r ∈ t.chain, r.LoadsOnly) (disk : Disk) (steps : Nat)
include hchain

/-- To resolve a string is to resolve it without a limit, on as much fuel as expansions may be
    opened, and to report a circle if that is too little. -/
theorem expandString_eq_capped (g : Guards) (room : Nat) (s : String) :
    expandString (t.reply disk (steps + 1)) t.chain g.inFlight room s =
      (expandFreely (t.reply disk (steps + 1)) t.chain g room s).capped (g.cycle .depth) := by
  -- the resolvers do not see how much room is left
  have hsettle : ∀ (room : Nat) (s : String),
      (⟨g.inFlight, room⟩ : Guards).settle (t.reply disk (steps + 1)) t.chain (.string s) =
        (g.settle (t.reply disk (steps + 1)) t.chain (.string s)).capped (g.cycle .depth) := by
    intro room s
    obtain ⟨hstill, heq⟩ := settle_of_loadsOnly hchain disk steps g
      ⟨g.inFlight, room⟩ (.string s)
    rw [Outcome.capped_of_ends hstill.ends, heq]
  induction room generalizing s with
  | zero =>
    apply (congruent_capped (g.cycle .depth)).bind_compound (hsettle 0 s)
    intro v
    rfl
  | succ room ih =>
    apply (congruent_capped (g.cycle .depth)).bind_compound (hsettle (room + 1) s)
    intro v
    have hv := (congruent_capped (g.cycle .depth)).traverse _ _ v fun s _ => ih s
    exact congrArg (Outcome.between .unfolded .folded) hv

theorem resolve_eq_capped (g : Guards) (v : Value) :
    g.resolve (t.reply disk (steps + 1)) t.chain v =
      (g.resolveFreely (t.reply disk (steps + 1)) t.chain g.room v).capped (g.cycle .depth) :=
  (congruent_capped (g.cycle .depth)).traverse _ _ v fun s _ =>
    expandString_eq_capped hchain disk steps g g.room s

end Capped

/-! ### More fuel -/

/-- The outcome never has more than `n` expansions open, and in the end none. -/
structure Outcome.Folds {α : Type} (n : Nat) (x : Outcome α) : Prop where
  open_le : ∀ j, j <+: x.journal → openExpansions j ≤ n
  open_back : openExpansions x.journal = 0

/-- The second outcome has more fuel than the first one, which has `n` units.  It is the same if the
    first one had an end, and otherwise comes to have more than `n` expansions open. -/
structure Outcome.Deepens {α : Type} (n : Nat) (x y : Outcome α) : Prop extends x.Folds n where
  ends : x.result ≠ .error .exhausted → y = x
  deeper : x.result = .error .exhausted → ∃ j, j <+: y.journal ∧ openExpansions j = n + 1

namespace Outcome

variable {α β : Type} {n : Nat} {x y : Outcome α}

theorem Still.folds (h : x.Still) (n : Nat) : x.Folds n := by
  refine ⟨?_, openExpansions_of_quiet h.quiet⟩
  intro j hj
  rw [openExpansions_of_quiet fun e he => h.quiet e (hj.subset he)]
  exact Int.natCast_nonneg n

theorem Folds.bind {f : α → Outcome β} (hx : x.Folds n) (hf : ∀ a, (f a).Folds n) :
    (x >>= f).Folds n := by
  cases h : x.result with
  | error halt =>
    rw [bind_of_error h]
    exact ⟨hx.open_le, hx.open_back⟩
  | ok a =>
    rw [bind_of_ok h]
    constructor
    · intro j hj
      rcases prefix_append_cases hj with hj | ⟨j', rfl, hj'⟩
      · exact hx.open_le j hj
      · rw [openExpansions_append, hx.open_back, Int.zero_add]
        exact (hf a).open_le j' hj'
    · rw [openExpansions_append, hx.open_back, (hf a).open_back]
      rfl

theorem openExpansions_unfolded (j : List Event) :
    openExpansions (.unfolded :: j) = 1 + openExpansions j := openExpansions_cons _ _

theorem Folds.unfolded (h : x.Folds n) : (between .unfolded .folded x).Folds (n + 1) := by
  have hclosed : openExpansions (.unfolded :: x.journal ++ [.folded]) = 0 := by
    rw [openExpansions_append, openExpansions_unfolded, h.open_back]
    rfl
  refine ⟨?_, hclosed⟩
  intro j hj
  rcases prefix_between_cases hj with rfl | ⟨j', rfl, hj'⟩ | rfl
  · exact Int.natCast_nonneg _
  · have hle := h.open_le j' hj'
    rw [openExpansions_unfolded]
    omega
  · rw [hclosed]
    exact Int.natCast_nonneg _

theorem journal_prefix_bind (x : Outcome α) (f : α → Outcome β) :
    x.journal <+: (x >>= f).journal := by
  cases h : x.result with
  | error halt => exact ⟨[], by rw [bind_of_error h, List.append_nil]⟩
  | ok a => exact ⟨(f a).journal, by rw [bind_of_ok h]⟩

theorem Deepens.bind {f f' : α → Outcome β} (h : x.Deepens n y)
    (hf : ∀ a, (f a).Deepens n (f' a)) : (x >>= f).Deepens n (y >>= f') := by
  refine ⟨h.toFolds.bind fun a => (hf a).toFolds, ?_, ?_⟩
  · intro hend
    cases hx : x.result with
    | error halt =>
      have hxend : x.result ≠ .error .exhausted := by
        rw [hx]
        rintro ⟨⟩
        rw [bind_of_error hx] at hend
        exact hend rfl
      rw [h.ends hxend, bind_of_error hx, bind_of_error hx]
    | ok a =>
      rw [bind_of_ok hx] at hend
      rw [h.ends (ne_exhausted_of_ok hx), bind_of_ok hx, bind_of_ok hx, (hf a).ends hend]
  · intro hend
    cases hx : x.result with
    | error halt =>
      rw [bind_of_error hx] at hend
      cases hend
      obtain ⟨j, hj, hdeep⟩ := h.deeper hx
      exact ⟨j, hj.trans (journal_prefix_bind y f'), hdeep⟩
    | ok a =>
      -- what follows is deeper, and nothing is open where it begins
      rw [bind_of_ok hx] at hend
      obtain ⟨j, hj, hdeep⟩ := (hf a).deeper hend
      rw [h.ends (ne_exhausted_of_ok hx), bind_of_ok hx]
      refine ⟨x.journal ++ j, (List.prefix_append_right_inj _).2 hj, ?_⟩
      rw [openExpansions_append, h.open_back, hdeep, Int.zero_add]

theorem Deepens.unfolded (h : x.Deepens n y) :
    (between .unfolded .folded x).Deepens (n + 1) (between .unfolded .folded y) := by
  refine ⟨h.toFolds.unfolded, ?_, ?_⟩
  · intro hend
    rw [h.ends hend]
  · intro hend
    obtain ⟨j, hj, hdeep⟩ := h.deeper hend
    refine ⟨.unfolded :: j, ?_, ?_⟩
    · exact List.prefix_append_of_prefix (List.cons_prefix_cons.2 ⟨rfl, hj⟩)
    · rw [openExpansions_unfolded, hdeep]
      omega

theorem deepens_exhausted (y : Outcome α) :
    (exhausted : Outcome α).Deepens 0 (between .unfolded .folded y) := by
  refine ⟨⟨?_, rfl⟩, fun hend => absurd rfl hend, fun _ => ⟨[.unfolded], ?_, rfl⟩⟩
  · intro j hj
    rw [List.prefix_nil.1 hj]
    exact Int.le_refl 0
  · exact List.cons_prefix_cons.2 ⟨rfl, List.nil_prefix⟩

end Outcome

theorem congruent_deepens (n : Nat) : Congruent fun x y => x.Deepens n y where
  still hx := ⟨hx.folds n, fun _ => rfl, fun hend => absurd hend hx.ends⟩
  bind hx hf := hx.bind hf

/-- The outcomes of one run for every amount of fuel. -/
def Deepening {α : Type} (run : Nat → Outcome α) : Prop :=
  ∀ fuel more, fuel < more → (run fuel).Deepens fuel (run more)

namespace Deepening

variable {α : Type} {run : Nat → Outcome α} (h : Deepening run) {fuel n : Nat}
include h

theorem open_le (fuel : Nat) : ∀ j, j <+: (run fuel).journal → openExpansions j ≤ fuel :=
  (h fuel (fuel + 1) (Nat.lt_succ_self _)).open_le

/-- There is one end at most. -/
theorem eq_of_ends (hfuel : (run fuel).result ≠ .error .exhausted)
    (hn : (run n).result ≠ .error .exhausted) : run n = run fuel := by
  rcases Nat.lt_trichotomy fuel n with hlt | rfl | hlt
  · exact (h fuel n hlt).ends hfuel
  · rfl
  · exact ((h n fuel hlt).ends hn).symm

/-- Fuel for all expansions that are ever open is enough. -/
theorem ends_of_open_le (hfuel : (run fuel).result ≠ .error .exhausted)
    (hopen : ∀ j, j <+: (run fuel).journal → openExpansions j ≤ n) :
    (run n).result ≠ .error .exhausted := by
  intro hn
  rcases Nat.lt_trichotomy fuel n with hlt | rfl | hlt
  · rw [(h fuel n hlt).ends hfuel] at hn
    exact hfuel hn
  · exact hfuel hn
  · obtain ⟨j, hj, hdeep⟩ := (h n fuel hlt).deeper hn
    have hle := hopen j hj
    omega

/-- Fuel for fewer expansions than are once open is too little. -/
theorem exhausted_of_open {j : List Event} (hj : j <+: (run fuel).journal)
    (hopen : n < openExpansions j) : (run n).result = .error .exhausted := by
  have hlt : n < fuel := by
    have hle := h.open_le fuel j hj
    omega
  -- else both runs are one, which opens no more than the lesser fuel allows
  by_contra hn
  rw [(h n fuel hlt).ends hn] at hj
  have hle := h.open_le n j hj
  omega

/-- Fuel for `n` expansions is enough for an end, or more than `n` are once open. -/
theorem ends_or_opens (n : Nat) :
    ((run n).result ≠ .error .exhausted ∧ ∀ j, j <+: (run n).journal → openExpansions j ≤ n) ∨
      ∃ j, j <+: (run (n + 1)).journal ∧ n < openExpansions j := by
  by_cases hn : (run n).result = .error .exhausted
  · obtain ⟨j, hj, hdeep⟩ := (h n (n + 1) (Nat.lt_succ_self n)).deeper hn
    exact .inr ⟨j, hj, by omega⟩
  · exact .inl ⟨hn, h.open_le n⟩

end Deepening

section Deepens

variable {t : Tree} (hchain : ∀ r ∈ t.chain, r.LoadsOnly) (disk : Disk) (steps : Nat)
include hchain

theorem expandFreely_deepens (g : Guards) {fuel more : Nat} (hlt : fuel < more) (s : String) :
    (expandFreely (t.reply disk (steps + 1)) t.chain g fuel s).Deepens fuel
      (expandFreely (t.reply disk (steps + 1)) t.chain g more s) := by
  have hsettle : ∀ (n : Nat) (s : String),
      (g.settle (t.reply disk (steps + 1)) t.chain (.string s)).Deepens n
        (g.settle (t.reply disk (steps + 1)) t.chain (.string s)) := by
    intro n s
    obtain ⟨hstill, -⟩ := settle_of_loadsOnly hchain disk steps g g (.string s)
    exact (congruent_deepens n).still hstill
  induction fuel generalizing more s with
  | zero =>
    cases more with
    | zero => cases hlt
    | succ more =>
      apply (congruent_deepens 0).bind_compound (hsettle 0 s)
      intro v
      exact Outcome.deepens_exhausted _
  | succ fuel ih =>
    cases more with
    | zero => cases hlt
    | succ more =>
      apply (congruent_deepens (fuel + 1)).bind_compound (hsettle (fuel + 1) s)
      intro v
      have hv := (congruent_deepens fuel).traverse _ _ v fun s _ =>
        ih (Nat.lt_of_succ_lt_succ hlt) s
      exact hv.unfolded

theorem deepening_resolveFreely (g : Guards) (v : Value) :
    Deepening fun fuel => g.resolveFreely (t.reply disk (steps + 1)) t.chain fuel v := by
  intro fuel more hlt
  apply (congruent_deepens fuel).traverse
  intro s _
  exact expandFreely_deepens hchain disk steps g hlt s

end Deepens

/-! ### Nesting -/

/-- The outcome without its value. -/
def Outcome.void {α : Type} (x : Outcome α) : Outcome Unit := x >>= fun _ => Pure.pure ()

theorem Outcome.void_bind {α β : Type} (x : Outcome α) (f : α → Outcome β) :
    (x >>= f).void = x >>= fun a => (f a).void := bind_assoc x f _

theorem Outcome.void_mapM {α β : Type} (f : α → Outcome β) (items : List α) :
    (items.mapM f).void = forM items fun a => (f a).void := by
  induction items with
  | nil => rfl
  | cons a items ih =>
    rw [List.mapM_cons, List.forM_cons, ← ih]
    simp [Outcome.void]

theorem Outcome.journal_bind_pure {α β : Type} (x : Outcome α) (f : α → β) :
    (x >>= fun a => Pure.pure (f a)).journal = x.journal := by
  rcases x with ⟨halt | a, journal⟩
  · rfl
  · exact List.append_nil journal

theorem Outcome.journal_void {α : Type} (x : Outcome α) : x.void.journal = x.journal :=
  Outcome.journal_bind_pure x fun _ => ()

theorem Outcome.void_result_eq_error {α : Type} {x : Outcome α} {halt : Halt} :
    x.void.result = .error halt ↔ x.result = .error halt := by
  rcases x with ⟨halt' | a, journal⟩
  · simp [void, bind_of_error]
  · exact iff_of_false nofun nofun

mutual

/-- Apart from the value that they have, changes of strings are made in the order in which the
    strings stand, whatever is around them. -/
theorem Value.void_traverse (change : String → Outcome Value) (v : Value) :
    (v.traverse change).void = forM v.strings fun s => (change s).void := by
  cases v with
  | string s =>
    rw [Value.traverse, Value.strings]
    simp [Outcome.void]
  | array items =>
    rw [Value.traverse, Value.strings, ← Value.void_traverseItems, Outcome.void_bind]
    rfl
  | table entries =>
    rw [Value.traverse, Value.strings, ← Value.void_traverseEntries, Outcome.void_bind]
    rfl
  | _ => rfl

theorem Value.void_traverseItems (change : String → Outcome Value) (items : List Value) :
    (Value.traverseItems change items).void =
      forM (Value.stringsOfItems items) fun s => (change s).void := by
  cases items with
  | nil => rfl
  | cons v rest =>
    rw [Value.traverseItems, Value.stringsOfItems, List.forM_append, ← Value.void_traverse,
      ← Value.void_traverseItems]
    simp [Outcome.void]

theorem Value.void_traverseEntries (change : String → Outcome Value)
    (entries : List (String × Value)) :
    (Value.traverseEntries change entries).void =
      forM (Value.stringsOfEntries entries) fun s => (change s).void := by
  cases entries with
  | nil => rfl
  | cons entry rest =>
    rw [Value.traverseEntries, Value.stringsOfEntries, List.forM_append, ← Value.void_traverse,
      ← Value.void_traverseEntries]
    simp [Outcome.void]

end

/-- Values with the same strings are resolved alike. -/
theorem resolve_of_same_strings (replies : Replies) (chain : List Resolver) (g : Guards)
    {v w : Value} (h : w.strings = v.strings) :
    (g.resolve replies chain w).journal = (g.resolve replies chain v).journal ∧
      ∀ halt, (g.resolve replies chain w).result = .error halt ↔
        (g.resolve replies chain v).result = .error halt := by
  have hvoid : (g.resolve replies chain w).void = (g.resolve replies chain v).void := by
    simp only [Guards.resolve, Value.void_traverse, h]
  constructor
  · rw [← Outcome.journal_void, hvoid, Outcome.journal_void]
  · intro halt
    rw [← Outcome.void_result_eq_error, hvoid, Outcome.void_result_eq_error]

/-- **The limit on expansions is exact.**  Let the resolvers read no path of the tree.  A value that
    is resolved on its own has an end.  It is the same as without a limit, course and all, if that
    has an end and never more than `maxDepth` expansions open; it is the report of a circle if that
    ever has more open; and one of both is the case.  Tables and arrays around strings do not
    matter. -/
theorem expansion_limit {t : Tree} (hchain : ∀ r ∈ t.chain, r.LoadsOnly) (disk : Disk) (steps : Nat)
    (fl : List KeyPath) (v : Value) :
    let g : Guards := ⟨fl, maxDepth⟩
    let x := g.resolve (t.reply disk (steps + 1)) t.chain v
    let free := fun fuel => g.resolveFreely (t.reply disk (steps + 1)) t.chain fuel v
    x.result ≠ .error .exhausted ∧
    (∀ fuel, (free fuel).result ≠ .error .exhausted →
      (∀ j, j <+: (free fuel).journal → openExpansions j ≤ maxDepth) → x = free fuel) ∧
    (∀ fuel j, j <+: (free fuel).journal → maxDepth < openExpansions j →
      x.result = .error (.failed (.cyclic fl.reverse .depth))) ∧
    ((∃ fuel, (free fuel).result ≠ .error .exhausted ∧
        ∀ j, j <+: (free fuel).journal → openExpansions j ≤ maxDepth) ∨
      ∃ fuel j, j <+: (free fuel).journal ∧ maxDepth < openExpansions j) ∧
    (∀ w : Value, w.strings = v.strings →
      let y := g.resolve (t.reply disk (steps + 1)) t.chain w
      y.journal = x.journal ∧ ∀ halt, y.result = .error halt ↔ x.result = .error halt) := by
  intro g x free
  have hx : x = (free maxDepth).capped (g.cycle .depth) := resolve_eq_capped hchain disk steps g v
  have hfree : Deepening free := deepening_resolveFreely hchain disk steps g v
  refine ⟨?_, ?_, ?_, ?_, ?_⟩
  · rw [hx]
    exact Outcome.capped_ends _ _
  · intro fuel hend hopen
    have hmax : (free maxDepth).result ≠ .error .exhausted := hfree.ends_of_open_le hend hopen
    rw [hx, Outcome.capped_of_ends hmax]
    exact hfree.eq_of_ends hend hmax
  · intro fuel j hj hopen
    rw [hx]
    exact Outcome.capped_of_exhausted (hfree.exhausted_of_open hj hopen)
  · rcases hfree.ends_or_opens maxDepth with hends | ⟨j, hj, hopen⟩
    · exact .inl ⟨maxDepth, hends⟩
    · exact .inr ⟨maxDepth + 1, j, hj, hopen⟩
  · intro w hw
    exact resolve_of_same_strings _ _ g hw

namespace InsideItself

/-- The table under `x` has a token with an end in it; the one under `z` has its own. -/
def tree : Tree where
  data := []
  chain := [⟨0, .labelled Resolver.dataLabel (.data [
    ("x", .table [("k", .string "\x7b\x7b data:y \x7d\x7d")]),
    ("y", .array [.integer 1]),
    ("z", .table [("k", .string "\x7b\x7b data:z \x7d\x7d")])])⟩]
  loader := Loader.empty

theorem loadsOnly : ∀ r ∈ tree.chain, r.LoadsOnly := by
  intro r hr
  rw [List.mem_singleton.1 hr]
  trivial

/-- However much is opened, there is one more to open. -/
theorem exhausted (fuel : Nat) :
    (Guards.fresh.resolveFreely (tree.reply [] 1) tree.chain fuel
      (.string "\x7b\x7b data:z \x7d\x7d")).result = .error .exhausted := by
  have hsettle : (Guards.fresh.settle (tree.reply [] 1) tree.chain
      (.string "\x7b\x7b data:z \x7d\x7d")).result =
        .ok (.table [("k", .string "\x7b\x7b data:z \x7d\x7d")]) := by cbv
  induction fuel with
  | zero =>
    rw [Guards.resolveFreely, Value.traverse, expandFreely, Outcome.bind_of_ok hsettle]
    rfl
  | succ fuel ih =>
    rw [Guards.resolveFreely, Value.traverse] at ih
    rw [Guards.resolveFreely, Value.traverse, expandFreely, Outcome.bind_of_ok hsettle]
    simp only [Value.isCompound, if_true, Outcome.between, Value.traverse, Value.traverseEntries,
      Outcome.bind_of_error ih]
    rfl

/-- Two expansions are opened, or as many as there may be. -/
theorem resolved :
    (Guards.fresh.resolve (tree.reply [] 1) tree.chain
        (.string "\x7b\x7b data:x \x7d\x7d")).result = .ok (.table [("k", .array [.integer 1])]) ∧
      (Guards.fresh.resolve (tree.reply [] 1) tree.chain
        (.string "\x7b\x7b data:z \x7d\x7d")).result = .error (.failed (.cyclic [] .depth)) := by
  constructor
  · obtain ⟨-, hsame, -⟩ :=
      expansion_limit loadsOnly [] 0 [] (.string "\x7b\x7b data:x \x7d\x7d")
    have hfree : (Guards.fresh.resolveFreely (tree.reply [] 1) tree.chain 2
        (.string "\x7b\x7b data:x \x7d\x7d")).result =
          .ok (.table [("k", .array [.integer 1])]) := by cbv
    have hopen := (deepening_resolveFreely loadsOnly [] 0 Guards.fresh
      (.string "\x7b\x7b data:x \x7d\x7d")).open_le 2
    have hx := hsame 2 (Outcome.ne_exhausted_of_ok hfree) fun j hj =>
      (hopen j hj).trans (by decide)
    exact (congrArg Outcome.result hx).trans hfree
  · obtain ⟨-, -, hcircle, hcases, -⟩ :=
      expansion_limit loadsOnly [] 0 [] (.string "\x7b\x7b data:z \x7d\x7d")
    rcases hcases with ⟨fuel, hend, -⟩ | ⟨fuel, j, hj, hopen⟩
    · exact absurd (exhausted fuel) hend
    · exact hcircle fuel j hj hopen

end InsideItself

end LayeredConfig
