/-
  LayeredConfig/Proofs/Lookup/Determined.lean
  ===========================================
  **What a text comes to, once and for all.**

  Guards and steps can only keep a read from its value, never change it.  So
  there is one story of what the chain makes of a string, told with the value of
  every path that has one (`Tree.verdict`); and whatever the chain makes of the
  string under some guards, with some steps, it makes in that story too
  (`settle_within`).  The paths that can be asked for on behalf of a string are
  therefore finitely many: those that the story names.
-/
import LayeredConfig.Proofs.Lookup.Chain
import LayeredConfig.Proofs.Lookup.Nested

namespace LayeredConfig

variable {t : Tree} {disk : Disk}

/-! ### Values of paths and strings -/

def Tree.Reads (t : Tree) (disk : Disk) (path : KeyPath) (v : Option Value) : Prop :=
  ∃ (g : Guards) (steps : Nat), (g.read (t.reply disk steps) t path keepAll).result = .ok v

def Tree.Becomes (t : Tree) (disk : Disk) (s : String) (v : Value) : Prop :=
  ∃ (g : Guards) (steps : Nat), (g.resolve (t.reply disk steps) t.chain (.string s)).result = .ok v

/-- A path has at most one value, whatever the guards and the number of steps. -/
theorem Tree.Reads.unique (hb : t.IsBuiltIn) {path : KeyPath} {v w : Option Value}
    (hv : t.Reads disk path v) (hw : t.Reads disk path w) : v = w := by
  obtain ⟨g₁, steps₁, h₁⟩ := hv
  obtain ⟨g₂, steps₂, h₂⟩ := hw
  exact (steady_read hb disk path).unique h₁ h₂

theorem Tree.Becomes.unique (hb : t.IsBuiltIn) {s : String} {v w : Value}
    (hv : t.Becomes disk s v) (hw : t.Becomes disk s w) : v = w := by
  obtain ⟨g₁, steps₁, h₁⟩ := hv
  obtain ⟨g₂, steps₂, h₂⟩ := hw
  exact (steady_resolve hb disk (.string s)).unique h₁ h₂

/-! ### The story -/

open Classical in
/-- Replies that know the value of every path, and read nothing. -/
noncomputable def Tree.verdict (t : Tree) (disk : Disk) : Replies
  | _, .get path =>
    ⟨if h : ∃ v, t.Reads disk path v then .ok h.choose else .error .exhausted, [.opened path]⟩
  | _, .load path => t.loader.loadFile disk path
  | _, .resolve _ => .exhausted
  | _, .resolveTable _ => .exhausted

/-- What the chain makes of a string, told with the value of every path. -/
noncomputable def Tree.story (t : Tree) (disk : Disk) (s : String) : Outcome Value :=
  Guards.fresh.settle (t.verdict disk) t.chain (.string s)

/-- The chain makes a value of a string; what is in there has not been resolved. -/
def Tree.Settles (t : Tree) (disk : Disk) (s : String) (v : Value) : Prop :=
  (t.story disk s).result = .ok v

theorem Tree.Settles.unique {s : String} {v w : Value} (hv : t.Settles disk s v)
    (hw : t.Settles disk s w) : v = w := Except.ok.inj (hv.symm.trans hw)

/-- The first outcome comes to no other value than the second one, and begins no other reads than
    these if the second one names no others. -/
def Outcome.Within {α : Type} (paths : Set KeyPath) (x y : Outcome α) : Prop :=
  y.Opens paths → x.Opens paths ∧ ∀ a, x.result = .ok a → y.result = .ok a

theorem congruent_within (paths : Set KeyPath) :
    Congruent fun x y => x.Within paths y where
  still _ hy := by
    refine ⟨hy, ?_⟩
    intro a ha
    exact ha
  bind {α β x y f f'} hx hf hy := by
    obtain ⟨hopen, hopen'⟩ := hy.of_bind
    obtain ⟨hxopen, hxok⟩ := hx hopen
    constructor
    · apply hxopen.bind
      intro a ha
      exact (hf a (hopen' a (hxok a ha))).1
    · intro b hb
      obtain ⟨a, ha, hfa⟩ := Outcome.bind_result_eq_ok.1 hb
      have hya := hxok a ha
      exact Outcome.bind_result_eq_ok.2 ⟨a, hya, (hf a (hopen' a hya)).2 b hfa⟩

section Story

variable (hb : t.IsBuiltIn) {paths : Set KeyPath} {steps : Nat}
  (hpaths : ∀ fewer < steps, ∀ (g : Guards) path,
    (g.read (t.reply disk fewer) t path keepAll).Opens (insert path paths))
include hb hpaths

/-- Under any guards a reply comes to no other value than the verdict. -/
theorem reply_within (g g' : Guards) {q : Request} (hq : q.IsPlain) :
    (t.reply disk steps g q).Within paths (t.verdict disk g' q) := by
  cases steps with
  | zero => exact fun _ => ⟨nofun, nofun⟩
  | succ fewer =>
    cases q with
    | load path => exact (congruent_within paths).still (Loader.still_loadFile t.loader disk path)
    | resolve v => exact hq.elim
    | resolveTable table => exact hq.elim
    | get path =>
      intro hopen
      have hpath : path ∈ paths := hopen path List.mem_cons_self
      constructor
      · intro other hother
        rcases hpaths fewer (Nat.lt_succ_self _) g path other hother with rfl | h
        · exact hpath
        · exact h
      · intro v hv
        -- the verdict has chosen some value of the path, and there is only one
        have hreads : t.Reads disk path v := ⟨g, fewer, hv⟩
        have hex : ∃ w, t.Reads disk path w := ⟨v, hreads⟩
        simp only [Tree.verdict, dif_pos hex]
        rw [hex.choose_spec.unique hb hreads]

/-- On a read the chain makes of a string what its story tells, or nothing at all. -/
theorem settle_within (g : Guards) (s : String) :
    (g.settle (t.reply disk steps) t.chain (.string s)).Within paths (t.story disk s) := by
  apply (congruent_within paths).settle
  · intro q hq
    exact reply_within hb hpaths g _ hq
  · exact hb

end Story

/-! ### What a string becomes -/

section Becoming

variable (hb : t.IsBuiltIn)
include hb

theorem settles_of_settle {g : Guards} {steps : Nat} {s : String} {v : Value}
    (h : (g.settle (t.reply disk steps) t.chain (.string s)).result = .ok v) :
    t.Settles disk s v := by
  have hall : ∀ fewer < steps, ∀ (g : Guards) path,
      (g.read (t.reply disk fewer) t path keepAll).Opens (insert path Set.univ) := by
    intro fewer _ g path other _
    exact .inr trivial
  have hstory : (t.story disk s).Opens Set.univ := by
    intro path _
    trivial
  exact (settle_within hb hall g s hstory).2 v h

/-- Either a string becomes what the chain makes of it, or the chain makes a table or an array of
    it, whose strings are resolved in turn. -/
theorem Tree.Becomes.settles {s : String} {v : Value} (h : t.Becomes disk s v) :
    t.Settles disk s v ∧ v.isCompound = false ∨ ∃ c, t.Settles disk s c ∧ c.isCompound = true := by
  obtain ⟨g, steps, h⟩ := h
  rcases settle_of_expandString h with ⟨hv, hcomp⟩ | ⟨c, fewer, hc, hcomp, -⟩
  · exact .inl ⟨settles_of_settle hb hv, hcomp⟩
  · exact .inr ⟨c, settles_of_settle hb hc, hcomp⟩

end Becoming

end LayeredConfig
