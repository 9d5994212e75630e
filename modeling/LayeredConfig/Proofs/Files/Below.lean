/-
  LayeredConfig/Proofs/Files/Below.lean
  =====================================
  **Which included files lie below their root.**

  A path can be followed by its text alone: a part that says nothing is passed over,
  `..` takes back the part before it, and any other part is a name to go into.
  `Path.names` are the names that are left in the end.  A file is `Below` a directory
  if its names are those of the directory with names of its own inside them.

  A token leads to where its relative part leads from the directory of its root
  (`target_from_root`).  That is below the directory as long as the relative part
  never takes back more than it has gone into.  Nothing keeps a token from doing so:
  `..` is a part like any other.
-/
import LayeredConfig.Lookup.Inclusion

namespace LayeredConfig

namespace Path

/-! ### Following a path by its text -/

variable {α : Type} [Letter α] [DecidableEq α]

/-- The names on the way to a place, innermost first, after one more part.  Above the top of the
    file system there is nothing; above a place that is only known by its steps upwards there is
    one more step. -/
def enter (absolute : Bool) (names : List (List α)) (part : List α) : List (List α) :=
  if isIdle part then names
  else if part = up then
    match names with
    | [] => if absolute then [] else [up]
    | name :: around => if name = up then up :: name :: around else around
  else part :: names

def follow (absolute : Bool) (names parts : List (List α)) : List (List α) :=
  parts.foldl (enter absolute) names

/-- The names on the way to the place where a path leads, innermost first. -/
def names (path : List α) : List (List α) :=
  follow (isAbsolute path) [] (Text.split slash path)

/-- The path leads to the directory, or to a place inside it. -/
def Below (path dir : List α) : Prop :=
  isAbsolute path = isAbsolute dir ∧ ∃ inside, up ∉ inside ∧ names path = inside ++ names dir

/-- The path never takes back more than it has gone into. -/
def StaysInside (path : List α) : Prop := up ∉ follow false [] (Text.split slash path)

section Steps

variable {absolute : Bool} {names : List (List α)} {part : List α}

theorem enter_of_idle (h : isIdle part = true) : enter absolute names part = names := by
  cases names <;> exact if_pos h

theorem not_idle_up : ¬ isIdle (up : List α) = true := by
  simp [isIdle, up]

theorem enter_up_nil : enter false [] (up : List α) = [up] :=
  (if_neg not_idle_up).trans (if_pos rfl)

theorem enter_up_cons {name : List α} :
    enter absolute (name :: names) up = if name = up then up :: name :: names else names :=
  (if_neg not_idle_up).trans (if_pos rfl)

theorem enter_of_name (hidle : ¬ isIdle part = true) (hup : part ≠ up) :
    enter absolute names part = part :: names := by
  cases names <;> exact (if_neg hidle).trans (if_neg hup)

end Steps

theorem follow_cons (absolute : Bool) (names : List (List α)) (part : List α)
    (parts : List (List α)) :
    follow absolute names (part :: parts) = follow absolute (enter absolute names part) parts :=
  rfl

theorem follow_append (absolute : Bool) (names parts more : List (List α)) :
    follow absolute names (parts ++ more) =
      follow absolute (follow absolute names parts) more :=
  List.foldl_append

theorem follow_without_empty (absolute : Bool) (names parts : List (List α)) :
    follow absolute names (parts.filter (· ≠ [])) = follow absolute names parts := by
  induction parts generalizing names with
  | nil => rfl
  | cons part parts ih =>
    by_cases hpart : part = []
    · subst hpart
      exact ih names
    · simp only [ne_eq, hpart, not_false_eq_true, decide_true, List.filter_cons_of_pos, follow_cons]
      exact ih _

/-! ### Joined paths -/

omit [DecidableEq α] in
theorem head?_ne_slash {part : List α} (h : slash ∉ part) : part.head? ≠ some slash := by
  intro hhead
  exact h (List.mem_of_mem_head? hhead)

/-- A part without a slash is put behind a path with one slash between them. -/
theorem push_cases (base : List α) {part : List α} (hpart : slash ∉ part) :
    base = [] ∧ push base part = part ∨
    (∃ dir, base = dir ++ [slash] ∧ push base part = dir ++ slash :: part) ∨
    base ≠ [] ∧ push base part = base ++ slash :: part := by
  rw [push, if_neg (head?_ne_slash hpart)]
  split
  next hlast => exact .inl ⟨List.getLast?_eq_none_iff.1 hlast, rfl⟩
  next last hlast =>
    obtain ⟨dir, rfl⟩ := List.getLast?_eq_some_iff.1 hlast
    split
    next hslash => exact .inr (.inl ⟨dir, by rw [hslash], by simp [hslash]⟩)
    next => exact .inr (.inr ⟨by simp, rfl⟩)

theorem isAbsolute_append {dir rest : List α} (h : dir ≠ []) :
    isAbsolute (dir ++ rest) = isAbsolute dir := by
  obtain ⟨c, dir, rfl⟩ := List.exists_cons_of_ne_nil h
  rfl

theorem isAbsolute_of_no_slash {part : List α} (h : slash ∉ part) : isAbsolute part = false := by
  rw [isAbsolute, decide_eq_false_iff_not]
  exact head?_ne_slash h

theorem isAbsolute_push {base part : List α} (hpart : slash ∉ part) :
    isAbsolute (push base part) = isAbsolute base := by
  rcases push_cases base hpart with ⟨rfl, hpush⟩ | ⟨dir, rfl, hpush⟩ | ⟨hbase, hpush⟩
  · rw [hpush, isAbsolute_of_no_slash hpart]
    rfl
  · rw [hpush]
    cases dir <;> rfl
  · rw [hpush, isAbsolute_append hbase]

/-- A part without a slash is one more part, whatever the path looks like at its end. -/
theorem names_push {base part : List α} (hpart : slash ∉ part) :
    names (push base part) = enter (isAbsolute base) (names base) part := by
  have hsplit := Text.split_of_not_mem hpart
  rw [names, isAbsolute_push hpart]
  rcases push_cases base hpart with ⟨rfl, hpush⟩ | ⟨dir, rfl, hpush⟩ | ⟨hbase, hpush⟩
  · rw [hpush, hsplit]
    rfl
  · -- the empty part behind the last slash gives way to the new one
    rw [hpush, Text.split_append, hsplit, follow_append, names, Text.split_append, follow_append]
    rfl
  · rw [hpush, Text.split_append, hsplit, follow_append]
    rfl

theorem isAbsolute_pushAll {parts : List (List α)} (hparts : ∀ part ∈ parts, slash ∉ part)
    (base : List α) : isAbsolute (parts.foldl push base) = isAbsolute base := by
  induction parts generalizing base with
  | nil => rfl
  | cons part parts ih =>
    obtain ⟨hpart, hparts⟩ := List.forall_mem_cons.1 hparts
    rw [List.foldl_cons, ih hparts, isAbsolute_push hpart]

theorem names_pushAll {parts : List (List α)} (hparts : ∀ part ∈ parts, slash ∉ part)
    (base : List α) :
    names (parts.foldl push base) = follow (isAbsolute base) (names base) parts := by
  induction parts generalizing base with
  | nil => rfl
  | cons part parts ih =>
    obtain ⟨hpart, hparts⟩ := List.forall_mem_cons.1 hparts
    rw [List.foldl_cons, ih hparts, isAbsolute_push hpart, names_push hpart, follow_cons]

/-! ### Staying inside -/

/-- A step upwards that has had nothing to take back remains. -/
theorem up_mem_enter {names : List (List α)} (h : up ∈ names) (part : List α) :
    up ∈ enter false names part := by
  by_cases hidle : isIdle part = true
  · rwa [enter_of_idle hidle]
  · by_cases hup : part = up
    · subst hup
      cases names with
      | nil => cases h
      | cons name around =>
        rw [enter_up_cons]
        split
        next => exact List.mem_cons_self
        next hname => exact (List.mem_cons.1 h).resolve_left (Ne.symm hname)
    · rw [enter_of_name hidle hup]
      exact List.mem_cons_of_mem _ h

theorem up_mem_follow {names : List (List α)} (h : up ∈ names) (parts : List (List α)) :
    up ∈ follow false names parts := by
  induction parts generalizing names with
  | nil => exact h
  | cons part parts ih => exact ih (up_mem_enter h part)

/-- A part that does not step out of the names that were gone into leads to the same names from
    everywhere. -/
theorem enter_inside (absolute : Bool) (outside : List (List α)) {inside : List (List α)}
    {part : List α} (h : up ∉ enter false inside part) :
    enter absolute (inside ++ outside) part = enter false inside part ++ outside := by
  by_cases hidle : isIdle part = true
  · rw [enter_of_idle hidle, enter_of_idle hidle]
  · by_cases hup : part = up
    · subst hup
      cases inside with
      | nil =>
        rw [enter_up_nil] at h
        exact absurd (List.mem_singleton_self up) h
      | cons name around =>
        rw [List.cons_append, enter_up_cons, enter_up_cons]
        split <;> rfl
    · rw [enter_of_name hidle hup, enter_of_name hidle hup, List.cons_append]

/-- Parts that never take back more than they have gone into lead to the same names from
    everywhere. -/
theorem follow_inside (absolute : Bool) (outside : List (List α)) {parts : List (List α)}
    {inside : List (List α)} (h : up ∉ follow false inside parts) :
    follow absolute (inside ++ outside) parts = follow false inside parts ++ outside := by
  induction parts generalizing inside with
  | nil => rfl
  | cons part parts ih =>
    rw [follow_cons] at h
    have hstep : up ∉ enter false inside part := fun hup => h (up_mem_follow hup parts)
    rw [follow_cons, enter_inside absolute outside hstep, ih h, follow_cons]

end Path

/-! ### Targets of tokens -/

namespace IncludeRoots

/-- The directory of a root that holds the files. -/
def directory (i : IncludeRoots) (root : String) : List Char :=
  if i.resourceDir = "" then root.toList else Path.push root.toList i.resourceDir.toList

/-- **A token leads to where its relative part leads from the directory of its root.**  The path
    that it stands for has the names that are left when the parts are followed from the names of
    the directory, and so it lies below the directory if these parts never take back more than
    they have gone into. -/
theorem target_from_root {i : IncludeRoots} {token path : String} (h : i.target token = .ok path) :
    ∃ name relative root, splitToken? token.toList = some (name, relative) ∧
      i.roots.lookup (String.ofList name) = some root ∧
      Path.isAbsolute path.toList = Path.isAbsolute (i.directory root) ∧
      Path.names path.toList =
        Path.follow (Path.isAbsolute (i.directory root)) (Path.names (i.directory root))
          (Text.split '/' relative) ∧
      (Path.StaysInside relative → Path.Below path.toList (i.directory root)) := by
  rw [target] at h
  split at h
  next => cases h
  next name relative hsplit =>
    split at h
    next => cases h
    next root hroot =>
      obtain rfl := Except.ok.inj h
      have hparts : ∀ part ∈ (Text.split '/' relative).filter (· ≠ []), '/' ∉ part := by
        intro part hpart
        exact Text.not_mem_of_mem_split '/' relative part ((List.mem_filter.1 hpart).1)
      have habsolute := Path.isAbsolute_pushAll hparts (i.directory root)
      have hnames := Path.names_pushAll hparts (i.directory root)
      rw [Path.follow_without_empty] at hnames
      rw [String.toList_ofList]
      refine ⟨name, relative, root, hsplit, hroot, habsolute, hnames, ?_⟩
      intro hinside
      exact ⟨habsolute, _, hinside, hnames.trans (Path.follow_inside _ _ hinside)⟩

/-! ### A token inside, and one that leads out -/

namespace Served

def roots : IncludeRoots := ⟨[("app", "/srv/app")], "resources"⟩

def insideToken : String := "$app/db/.//../main.toml"

def outsideToken : String := "$app/../../secret.toml"

theorem target_inside : roots.target insideToken = .ok "/srv/app/resources/db/./../main.toml" :=
  rfl

theorem target_outside :
    roots.target outsideToken = .ok "/srv/app/resources/../../secret.toml" :=
  rfl

theorem lies_inside :
    roots.target insideToken = .ok "/srv/app/resources/db/./../main.toml" ∧
      Path.Below "/srv/app/resources/db/./../main.toml".toList "/srv/app/resources".toList := by
  obtain ⟨name, relative, root, hsplit, hroot, -, -, hbelow⟩ := target_from_root target_inside
  have hparts : splitToken? insideToken.toList =
      some ("app".toList, "db/.//../main.toml".toList) := by
    decide
  obtain ⟨rfl, rfl⟩ := Prod.mk.inj (Option.some.inj (hsplit.symm.trans hparts))
  obtain rfl : root = "/srv/app" := Option.some.inj (hroot.symm.trans rfl)
  exact ⟨target_inside, hbelow (by unfold Path.StaysInside; decide)⟩

/-- The resource directory is relative and has no step upwards, and still the file lies outside. -/
theorem leads_outside :
    Path.isAbsolute roots.resourceDir.toList = false ∧
      Path.up ∉ Text.split '/' roots.resourceDir.toList ∧
      roots.target outsideToken = .ok "/srv/app/resources/../../secret.toml" ∧
      ¬ Path.Below "/srv/app/resources/../../secret.toml".toList (roots.directory "/srv/app") := by
  refine ⟨by decide, by decide, target_outside, ?_⟩
  rintro ⟨-, inside, -, hnames⟩
  have hlength := congrArg List.length hnames
  rw [List.length_append] at hlength
  have hpath : (Path.names "/srv/app/resources/../../secret.toml".toList).length = 2 := by decide
  have hdir : (Path.names (roots.directory "/srv/app")).length = 3 := by decide
  omega

end Served

end IncludeRoots

end LayeredConfig
