/-
  LayeredConfig/Proofs/Lookup/HostTexts.lean
  ==========================================
  **What a host adds to the texts of a tree.**

  The body of a token has no brace in it, and so there is none in the arguments of
  a call that stands there: no argument holds a token (`no_token_in_args`).  A
  function of the host that only passes its arguments on, as they are or in a table
  or an array, therefore adds no text with a token, whatever calls it gets and how
  many of them.  What counts is only what functions add of their own
  (`Tree.finite_hostTexts`).
-/
import LayeredConfig.Proofs.Lookup.CallGrammar
import LayeredConfig.Proofs.Lookup.Origin

namespace LayeredConfig

/-! ### What arguments are made of -/

namespace CallExpr

theorem Quoted.subset {quote : Char} {cs text : List Char} (h : Quoted quote cs text) :
    cs ⊆ text := by
  induction h with
  | nil => exact List.nil_subset _
  | plain _ _ _ ih => exact List.cons_subset_cons _ ih
  | escaped _ ih => exact List.subset_cons_of_subset _ (List.cons_subset_cons _ ih)

theorem Argument.subset {v : Value} {text : List Char} (h : Argument v text) {s : String}
    (hs : s ∈ v.strings) : s.toList ⊆ text := by
  cases h with
  | text hquote hquoted =>
    obtain rfl := List.mem_singleton.1 hs
    exact List.subset_cons_of_subset _ (List.subset_append_of_subset_left _ hquoted.subset)
  | literal hraw =>
    rcases Value.kind_of_ofLiteral? hraw with ⟨b, rfl⟩ | ⟨i, rfl⟩ | ⟨x, rfl⟩ <;> cases hs

theorem Items.subset {vs : List Value} {text : List Char} (h : Items Blank Argument vs text)
    {v : Value} (hv : v ∈ vs) {s : String} (hs : s ∈ v.strings) : s.toList ⊆ text := by
  induction h with
  | last _ harg _ =>
    obtain rfl := List.mem_singleton.1 hv
    exact List.subset_append_of_subset_right _
      (List.subset_append_of_subset_left _ (harg.subset hs))
  | more _ harg _ _ ih =>
    apply List.subset_append_of_subset_right
    rcases List.mem_cons.1 hv with rfl | hv
    · exact List.subset_append_of_subset_left _ (harg.subset hs)
    · exact List.subset_append_of_subset_right _ (List.subset_append_of_subset_right _
        (List.subset_cons_of_subset _ (ih hv)))

/-- The strings among the arguments are made of characters of the expression. -/
theorem subset_of_parse {text : String} {call : CallExpr} (h : parse text = .ok call) {v : Value}
    (hv : v ∈ call.args) {s : String} (hs : s ∈ v.strings) : s.toList ⊆ text.toList := by
  obtain ⟨inner, hform, -, ⟨hnil, -⟩ | hitems⟩ := spells_of_parse h
  · rw [hnil] at hv
    cases hv
  · obtain ⟨left, mid, right, htext, -⟩ := hform.around
    rw [htext]
    intro c hc
    have hinner : c ∈ inner := hitems.subset hv hs hc
    simp [hinner]

end CallExpr

theorem Template.IsBody.no_token {s : String} (h : IsBody s.toList) : ¬ HasToken s := by
  rintro ⟨before, body, after, -, heq⟩
  apply h.left_not_mem
  rw [heq]
  exact List.mem_append_left _ (List.mem_append_right _ List.mem_cons_self)

theorem isBody_of_rest? {label body rest : String} (h : Template.IsBody body.toList)
    (hrest : Resolver.rest? label body = some rest) : Template.IsBody rest.toList := by
  obtain ⟨s, hs, rfl⟩ := Option.map_eq_some_iff.1 hrest
  rw [Text.dropPrefix?_eq_some.1 hs] at h
  rw [String.toList_ofList]
  exact Template.IsBody.trim fun c hc => h c (List.mem_append_right _ hc)

/-- **Arguments hold no tokens**, if the call stands in a token. -/
theorem no_token_in_args {label body rest : String} {call : CallExpr}
    (hbody : Template.IsBody body.toList) (hrest : Resolver.rest? label body = some rest)
    (hcall : CallExpr.parse rest = .ok call) {v : Value} (hv : v ∈ call.args) {s : String}
    (hs : s ∈ v.strings) : ¬ Template.HasToken s := by
  have hrest' := isBody_of_rest? hbody hrest
  exact Template.IsBody.no_token fun c hc => hrest' c (CallExpr.subset_of_parse hcall hv hs hc)

/-! ### What functions add -/

/-- Every text with a token that the function puts into a table or an array is in its arguments, or
    is one of these. -/
def HostFunction.AddsOnly (f : HostFunction) (own : Set String) : Prop :=
  ∀ args v, f args = some v → v.isCompound = true → ∀ s ∈ v.strings, Template.HasToken s →
    s ∈ own ∨ ∃ a ∈ args, s ∈ a.strings

def HostFunction.arguments : HostFunction := fun args => some (.array args)

theorem HostFunction.addsOnly_arguments (own : Set String) : AddsOnly arguments own := by
  rintro args _ ⟨⟩ - s hs -
  exact .inr (Value.mem_stringsOfItems.1 hs)

/-- All functions that tokens can call add only these texts. -/
def Tree.FunctionsAddOnly (t : Tree) (own : Set String) : Prop :=
  ∀ r ∈ t.chain, ∀ label functions, r.kind = .labelled label (.call functions) →
    ∀ name f, functions.lookup name = some f → HostFunction.AddsOnly f own

/-- The host adds finitely many texts if its functions add finitely many of their own and its
    parsers find finitely many tables. -/
theorem Tree.finite_hostTexts {t : Tree} {disk : Disk} {own : Set String} (hown : own.Finite)
    (hfunctions : t.FunctionsAddOnly own)
    (hparsers : {table | ∃ p ∈ t.loader.parsers, p.HostFinds disk table}.Finite) :
    (t.hostTexts disk).Finite := by
  have hfound := hparsers.biUnion fun table _ => List.finite_toSet (Table.strings table)
  apply (hown.union hfound).subset
  rintro s ⟨htoken, ⟨r, hr, v, hgives, hv, hs⟩ | ⟨p, hp, table, hfinds, hs⟩⟩
  · obtain ⟨label, functions, body, rest, call, f, hkind, hbody, hrest, hcall, hf, happ⟩ := hgives
    rcases hfunctions r hr label functions hkind call.name f hf call.args v happ hv s hs htoken
      with hmem | ⟨a, ha, hsa⟩
    · exact .inl hmem
    · exact absurd htoken (no_token_in_args hbody hrest hcall ha hsa)
  · exact .inr (Set.mem_biUnion ⟨p, hp, hfinds⟩ hs)

theorem FileParser.eq_of_fixed_finds {id : Nat} {name : String} {suffixes : List String}
    {table found : Table} {disk : Disk}
    (h : (FileParser.mk id (.fixed name suffixes table)).HostFinds disk found) : found = table := by
  obtain ⟨parser, path, hkind, -, hfound⟩ := h
  cases hkind
  exact (Except.ok.inj hfound).symm

end LayeredConfig
