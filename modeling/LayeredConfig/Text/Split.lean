/-
  LayeredConfig/Text/Split.lean
  =============================
  **Cutting a text at separators and putting it together again.**

  `split` cuts at every occurrence of one letter, `splitDouble` at every
  doubled one (leftmost first, so of three in a row the third stays with the
  text).  `join` is the way back.  The letters are characters as a rule; the
  paths of files may have others.
-/

namespace LayeredConfig.Text

variable {α : Type} [DecidableEq α]

/-- The parts of a text between the occurrences of `sep`; never the empty list. -/
def split (sep : α) : List α → List (List α)
  | [] => [[]]
  | c :: rest =>
    if c = sep then [] :: split sep rest
    else match split sep rest with
      | part :: parts => (c :: part) :: parts
      | [] => [[c]]

/-- The parts of a text between the doubled occurrences of `sep`. -/
def splitDouble (sep : α) : List α → List (List α)
  | [] => [[]]
  | [c] => [[c]]
  | c :: d :: rest =>
    if c = sep ∧ d = sep then [] :: splitDouble sep rest
    else match splitDouble sep (d :: rest) with
      | part :: parts => (c :: part) :: parts
      | [] => [[c]]

/-- The parts with `sep` between any two of them. -/
def join {α : Type} (sep : List α) : List (List α) → List α
  | [] => []
  | [part] => part
  | part :: parts => part ++ sep ++ join sep parts

/-- What is left of `s` behind `start`, if it starts so. -/
def dropPrefix? : (start s : List α) → Option (List α)
  | [], s => some s
  | _ :: _, [] => none
  | p :: ps, c :: cs => if p = c then dropPrefix? ps cs else none

theorem join_cons_cons {α : Type} (sep part next : List α) (parts : List (List α)) :
    join sep (part :: next :: parts) = part ++ sep ++ join sep (next :: parts) := rfl

theorem split_ne_nil (sep : α) (s : List α) : split sep s ≠ [] := by
  cases s with
  | nil => simp [split]
  | cons c rest =>
    simp only [split]
    split
    · simp
    · split <;> simp

theorem split_append (sep : α) (s t : List α) :
    split sep (s ++ sep :: t) = split sep s ++ split sep t := by
  induction s with
  | nil => simp [split]
  | cons c rest ih =>
    by_cases hc : c = sep
    · simp [split, hc, ih]
    · obtain ⟨part, parts, hparts⟩ := List.exists_cons_of_ne_nil (split_ne_nil sep rest)
      simp [split, hc, ih, hparts]

theorem split_of_not_mem {sep : α} {s : List α} (h : sep ∉ s) : split sep s = [s] := by
  induction s with
  | nil => rfl
  | cons c rest ih =>
    rw [List.mem_cons, not_or] at h
    simp [split, Ne.symm h.1, ih h.2]

theorem splitDouble_ne_nil (sep : α) (s : List α) : splitDouble sep s ≠ [] := by
  fun_cases splitDouble sep s <;> simp_all

/-- A character that does not begin a doubled separator belongs to the first part. -/
theorem splitDouble_cons {sep c : α} {s part : List α} {parts : List (List α)}
    (h : c = sep → s.head? ≠ some sep) (hs : splitDouble sep s = part :: parts) :
    splitDouble sep (c :: s) = (c :: part) :: parts := by
  cases s with
  | nil =>
    obtain ⟨rfl, rfl⟩ := List.cons.inj hs
    rfl
  | cons d rest =>
    have hcd : ¬ (c = sep ∧ d = sep) := fun ⟨hc, hd⟩ => h hc (congrArg some hd)
    rw [splitDouble, if_neg hcd, hs]

/-- A change of characters that neither makes nor unmakes separators is made part by part. -/
theorem splitDouble_map {sep : α} {f : α → α} (h : ∀ c, f c = sep ↔ c = sep)
    (s : List α) :
    splitDouble sep (s.map f) = (splitDouble sep s).map (List.map f) := by
  induction s using splitDouble.induct sep with
  | case1 => rfl
  | case2 c => rfl
  | case3 c d rest hcd ih =>
    have hcd' : f c = sep ∧ f d = sep := ⟨(h c).2 hcd.1, (h d).2 hcd.2⟩
    rw [List.map_cons, List.map_cons, splitDouble, if_pos hcd', splitDouble, if_pos hcd, ih]
    rfl
  | case4 c d rest hcd part parts hparts ih =>
    have hhead : c = sep → (d :: rest).head? ≠ some sep := by
      intro hc hd
      exact hcd ⟨hc, Option.some.inj hd⟩
    have hhead' : f c = sep → ((d :: rest).map f).head? ≠ some sep := by
      intro hc hd
      exact hcd ⟨(h c).1 hc, (h d).1 (Option.some.inj hd)⟩
    rw [hparts] at ih
    rw [List.map_cons, splitDouble_cons hhead' ih, splitDouble_cons hhead hparts]
    rfl
  | case5 c d rest hcd hnil => exact absurd hnil (splitDouble_ne_nil sep (d :: rest))

/-- Cutting at the first doubled separator: a part without one that does not end in half of one is
    cut off as a whole. -/
theorem splitDouble_append {sep : α} {part : List α} (hinside : ¬ [sep, sep] <:+: part)
    (hend : ¬ [sep] <:+ part) (s : List α) :
    splitDouble sep (part ++ sep :: sep :: s) = part :: splitDouble sep s := by
  induction part with
  | nil => rw [List.nil_append, splitDouble, if_pos ⟨rfl, rfl⟩]
  | cons c rest ih =>
    have hinside' : ¬ [sep, sep] <:+: rest := fun h => hinside (List.infix_cons h)
    have hend' : ¬ [sep] <:+ rest := fun h => hend (List.suffix_cons_iff.2 (.inr h))
    apply splitDouble_cons _ (ih hinside' hend')
    rintro rfl hhead
    cases rest with
    | nil => exact hend (List.suffix_refl _)
    | cons d rest =>
      obtain rfl : d = c := Option.some.inj hhead
      exact hinside (List.infix_append' [] [d, d] rest)

theorem splitDouble_of_not_infix {sep : α} {s : List α} (h : ¬ [sep, sep] <:+: s) :
    splitDouble sep s = [s] := by
  induction s with
  | nil => rfl
  | cons c rest ih =>
    apply splitDouble_cons _ (ih fun h' => h (List.infix_cons h'))
    rintro rfl hhead
    cases rest with
    | nil => cases hhead
    | cons d rest =>
      obtain rfl : d = c := Option.some.inj hhead
      exact h (List.infix_append' [] [d, d] rest)

/-- Parts that are joined by doubled separators come back, if none of them has a doubled separator
    inside and none but the last ends in a separator. -/
theorem splitDouble_join {sep : α} {parts : List (List α)} (hne : parts ≠ [])
    (hinside : ∀ part ∈ parts, ¬ [sep, sep] <:+: part)
    (hend : ∀ part ∈ parts.dropLast, ¬ [sep] <:+ part) :
    splitDouble sep (join [sep, sep] parts) = parts := by
  induction parts with
  | nil => exact absurd rfl hne
  | cons part rest ih =>
    obtain ⟨hpart, hrest⟩ := List.forall_mem_cons.1 hinside
    cases rest with
    | nil => exact splitDouble_of_not_infix hpart
    | cons next rest =>
      rw [List.dropLast_cons_cons] at hend
      obtain ⟨hpart', hrest'⟩ := List.forall_mem_cons.1 hend
      have hjoin : join [sep, sep] (part :: next :: rest) =
          part ++ sep :: sep :: join [sep, sep] (next :: rest) := by
        rw [join_cons_cons, List.append_assoc]
        rfl
      rw [hjoin, splitDouble_append hpart hpart', ih (List.cons_ne_nil _ _) hrest hrest']

/-- Cutting loses nothing: the parts, joined by the separator, are the text. -/
theorem join_split (sep : α) (s : List α) : join [sep] (split sep s) = s := by
  induction s with
  | nil => rfl
  | cons c rest ih =>
    simp only [split]
    split
    next h =>
      subst h
      cases hs : split c rest with
      | nil => exact absurd hs (split_ne_nil _ _)
      | cons part parts =>
        rw [hs] at ih
        simp [join, ih]
    next =>
      cases hs : split sep rest with
      | nil => exact absurd hs (split_ne_nil _ _)
      | cons part parts =>
        rw [hs] at ih
        cases parts <;> simp only [join, List.cons_append, List.cons.injEq, true_and] at ih ⊢ <;>
          exact ih

/-- Parts without the separator come back when they are joined by it. -/
theorem split_join {sep : α} {parts : List (List α)} (hne : parts ≠ [])
    (h : ∀ part ∈ parts, sep ∉ part) : split sep (join [sep] parts) = parts := by
  induction parts with
  | nil => exact absurd rfl hne
  | cons part rest ih =>
    obtain ⟨hpart, hrest⟩ := List.forall_mem_cons.1 h
    cases rest with
    | nil => exact split_of_not_mem hpart
    | cons next rest =>
      have hjoin :
          join [sep] (part :: next :: rest) = part ++ sep :: join [sep] (next :: rest) := by
        rw [join_cons_cons, List.append_assoc]
        rfl
      rw [hjoin, split_append, split_of_not_mem hpart, ih (List.cons_ne_nil _ _) hrest]
      rfl

/-- No part holds the separator. -/
theorem not_mem_of_mem_split (sep : α) (s : List α) :
    ∀ part ∈ split sep s, sep ∉ part := by
  induction s with
  | nil => simp [split]
  | cons c rest ih =>
    simp only [split]
    split
    · simpa using ih
    next h =>
      cases hs : split sep rest with
      | nil => exact absurd hs (split_ne_nil _ _)
      | cons part parts =>
        simp only [hs, List.mem_cons, forall_eq_or_imp] at ih
        simp only [List.mem_cons, forall_eq_or_imp, not_or]
        exact ⟨⟨fun g => h g.symm, ih.1⟩, ih.2⟩

theorem dropPrefix?_eq_some {start s rest : List α} :
    dropPrefix? start s = some rest ↔ s = start ++ rest := by
  induction start generalizing s with
  | nil => simp [dropPrefix?, eq_comm]
  | cons p ps ih =>
    cases s with
    | nil => simp [dropPrefix?]
    | cons c cs =>
      simp only [dropPrefix?]
      split
      · simp_all
      · simp only [reduceCtorEq, List.cons_append, List.cons.injEq, false_iff, not_and]
        intro h; exact absurd h.symm ‹_›

end LayeredConfig.Text
