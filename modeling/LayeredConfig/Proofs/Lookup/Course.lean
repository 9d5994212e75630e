/-
  LayeredConfig/Proofs/Lookup/Course.lean
  =======================================
  **What is in flight at each moment of a read.**

  The journal of a read tells its course: every beginning of a path and of an
  expansion is in there, and every end.  A moment of the read is a beginning of
  its journal, and what was in flight at that moment can be told from it
  (`inFlightAfter`, `openExpansions`).

  At every moment of every read the paths in flight are different from each
  other and no more expansions are open than the guards allow, and in the end
  everything that was begun has been ended.  A read that was given too few steps
  had, at some moment, as many paths in flight as it was given steps: that is
  how a bound on the paths bounds the steps (`Course.deep`).
-/
import LayeredConfig.Proofs.Lookup.Lockstep

namespace LayeredConfig

/-! ### Moments -/

/-- The paths in flight after an event, innermost first. -/
def Event.inFlight (fl : List KeyPath) : Event → List KeyPath
  | .opened path => path :: fl
  | .closed _ => fl.tail
  | _ => fl

def inFlightAfter (fl : List KeyPath) (events : List Event) : List KeyPath :=
  events.foldl Event.inFlight fl

def openExpansions (events : List Event) : Int :=
  events.count .unfolded - events.count .folded

theorem inFlightAfter_append (fl : List KeyPath) (xs ys : List Event) :
    inFlightAfter fl (xs ++ ys) = inFlightAfter (inFlightAfter fl xs) ys := List.foldl_append

theorem inFlightAfter_cons (fl : List KeyPath) (e : Event) (events : List Event) :
    inFlightAfter fl (e :: events) = inFlightAfter (e.inFlight fl) events := rfl

theorem openExpansions_append (xs ys : List Event) :
    openExpansions (xs ++ ys) = openExpansions xs + openExpansions ys := by
  simp only [openExpansions, List.count_append]
  omega

theorem openExpansions_cons (e : Event) (xs : List Event) :
    openExpansions (e :: xs) = openExpansions [e] + openExpansions xs :=
  openExpansions_append [e] xs

theorem inFlightAfter_of_quiet {events : List Event} (h : ∀ e ∈ events, e.IsQuiet)
    (fl : List KeyPath) : inFlightAfter fl events = fl := by
  induction events with
  | nil => rfl
  | cons e rest ih =>
    have hquiet : ∀ e' ∈ rest, e'.IsQuiet := by
      intro e' he'
      exact h e' (List.mem_cons_of_mem _ he')
    have hrest := ih hquiet
    cases e with
    | parsed _ _ | asked _ _ => exact hrest
    | opened _ | closed _ | unfolded | folded => exact (h _ List.mem_cons_self).elim

theorem openExpansions_of_quiet {events : List Event} (h : ∀ e ∈ events, e.IsQuiet) :
    openExpansions events = 0 := by
  have hunfolded : Event.unfolded ∉ events := by
    intro he
    exact h _ he
  have hfolded : Event.folded ∉ events := by
    intro he
    exact h _ he
  rw [openExpansions, List.count_eq_zero_of_not_mem hunfolded,
    List.count_eq_zero_of_not_mem hfolded]
  rfl

/-- What is in flight was so before, or was begun in between. -/
theorem mem_of_mem_inFlightAfter {fl : List KeyPath} {events : List Event} {path : KeyPath}
    (h : path ∈ inFlightAfter fl events) : path ∈ fl ∨ .opened path ∈ events := by
  induction events generalizing fl with
  | nil => exact .inl h
  | cons e rest ih =>
    rcases ih h with h | h
    · cases e with
      | opened p =>
        rcases List.mem_cons.1 h with rfl | h
        · exact .inr List.mem_cons_self
        · exact .inl h
      | closed p => exact .inl (List.mem_of_mem_tail h)
      | _ => exact .inl h
    · exact .inr (List.mem_cons_of_mem _ h)

/-! ### Beginnings of journals -/

/-- A moment of two parts in a row lies in the first one, or in the second one with all of the first
    one before it. -/
theorem prefix_append_cases {j xs ys : List Event} (h : j <+: xs ++ ys) :
    j <+: xs ∨ ∃ j', j = xs ++ j' ∧ j' <+: ys := by
  rcases Nat.le_total j.length xs.length with hle | hle
  · exact .inl (List.prefix_of_prefix_length_le h (List.prefix_append xs ys) hle)
  · obtain ⟨j', rfl⟩ := List.prefix_of_prefix_length_le (List.prefix_append xs ys) h hle
    exact .inr ⟨j', rfl, (List.prefix_append_right_inj xs).1 h⟩

/-- A moment of an enclosed part comes before it, lies within it, or comes at its end. -/
theorem prefix_between_cases {j xs : List Event} {before after : Event}
    (h : j <+: before :: xs ++ [after]) :
    j = [] ∨ (∃ j', j = before :: j' ∧ j' <+: xs) ∨ j = before :: xs ++ [after] := by
  rcases List.prefix_concat_iff.1 h with h | h
  · exact .inr (.inr h)
  · rcases List.prefix_cons_iff.1 h with h | ⟨j', hj, hj'⟩
    · exact .inl h
    · exact .inr (.inl ⟨j', hj, hj'⟩)

/-! ### The course of a read -/

/-- What holds of a course under the guards `g`, whose questions may nest so deep that `bound` paths
    can be in flight. -/
structure Course (bound : Nat) {α : Type} (g : Guards) (x : Outcome α) : Prop where
  nodup : ∀ j, j <+: x.journal → (inFlightAfter g.inFlight j).Nodup
  open_nonneg : ∀ j, j <+: x.journal → 0 ≤ openExpansions j
  open_le : ∀ j, j <+: x.journal → openExpansions j ≤ g.room
  inFlight_back : inFlightAfter g.inFlight x.journal = g.inFlight
  open_back : openExpansions x.journal = 0
  deep : x.result = .error .exhausted →
    ∃ j, j <+: x.journal ∧ bound ≤ (inFlightAfter g.inFlight j).length

namespace Course

variable {bound : Nat} {g : Guards} {α β : Type}

theorem of_still {x : Outcome α} (hg : g.inFlight.Nodup) (hx : x.Still) : Course bound g x := by
  have hquiet : ∀ j, j <+: x.journal → ∀ e ∈ j, e.IsQuiet := by
    intro j hj e he
    exact hx.quiet e (hj.subset he)
  refine ⟨?_, ?_, ?_, ?_, ?_, ?_⟩
  · intro j hj
    rw [inFlightAfter_of_quiet (hquiet j hj)]
    exact hg
  · intro j hj
    exact Int.le_of_eq (openExpansions_of_quiet (hquiet j hj)).symm
  · intro j hj
    rw [openExpansions_of_quiet (hquiet j hj)]
    exact Int.natCast_nonneg _
  · exact inFlightAfter_of_quiet hx.quiet _
  · exact openExpansions_of_quiet hx.quiet
  · intro hend
    exact absurd hend hx.ends

theorem bind {x : Outcome α} {f : α → Outcome β} (hx : Course bound g x)
    (hf : ∀ a, Course bound g (f a)) : Course bound g (x >>= f) := by
  cases h : x.result with
  | error halt =>
    rw [Outcome.bind_of_error h]
    refine ⟨hx.nodup, hx.open_nonneg, hx.open_le, hx.inFlight_back, hx.open_back, ?_⟩
    intro hend
    cases hend
    exact hx.deep h
  | ok a =>
    rw [Outcome.bind_of_ok h]
    have hfa := hf a
    refine ⟨?_, ?_, ?_, ?_, ?_, ?_⟩
    · intro j hj
      rcases prefix_append_cases hj with hj | ⟨j', rfl, hj'⟩
      · exact hx.nodup j hj
      · rw [inFlightAfter_append, hx.inFlight_back]
        exact hfa.nodup j' hj'
    · intro j hj
      rcases prefix_append_cases hj with hj | ⟨j', rfl, hj'⟩
      · exact hx.open_nonneg j hj
      · rw [openExpansions_append, hx.open_back, Int.zero_add]
        exact hfa.open_nonneg j' hj'
    · intro j hj
      rcases prefix_append_cases hj with hj | ⟨j', rfl, hj'⟩
      · exact hx.open_le j hj
      · rw [openExpansions_append, hx.open_back, Int.zero_add]
        exact hfa.open_le j' hj'
    · rw [inFlightAfter_append, hx.inFlight_back, hfa.inFlight_back]
    · rw [openExpansions_append, hx.open_back, hfa.open_back]
      rfl
    · intro hend
      obtain ⟨j', hj', hdeep⟩ := hfa.deep hend
      refine ⟨x.journal ++ j', (List.prefix_append_right_inj _).2 hj', ?_⟩
      rw [inFlightAfter_append, hx.inFlight_back]
      exact hdeep

/-- A course between an event and the event that undoes it. -/
theorem between {g' : Guards} {before after : Event} {x : Outcome α} {d : Nat}
    (hx : Course bound g' x) (hg : g.inFlight.Nodup)
    (hbefore : before.inFlight g.inFlight = g'.inFlight)
    (hafter : after.inFlight g'.inFlight = g.inFlight) (hd : openExpansions [before] = d)
    (hd' : openExpansions [after] = -d) (hroom : g'.room + d ≤ g.room) :
    Course bound g (.between before after x) := by
  have hinside : ∀ j, inFlightAfter g.inFlight (before :: j) = inFlightAfter g'.inFlight j := by
    intro j
    rw [inFlightAfter_cons, hbefore]
  have hback : inFlightAfter g.inFlight (before :: x.journal ++ [after]) = g.inFlight := by
    rw [inFlightAfter_append, hinside, hx.inFlight_back]
    exact hafter
  have hclosed : openExpansions (before :: x.journal ++ [after]) = 0 := by
    rw [openExpansions_append, openExpansions_cons, hx.open_back, hd, hd']
    omega
  refine ⟨?_, ?_, ?_, hback, hclosed, ?_⟩
  · intro j hj
    rcases prefix_between_cases hj with rfl | ⟨j', rfl, hj'⟩ | rfl
    · exact hg
    · rw [hinside]
      exact hx.nodup j' hj'
    · rw [hback]
      exact hg
  · intro j hj
    rcases prefix_between_cases hj with rfl | ⟨j', rfl, hj'⟩ | rfl
    · exact Int.le_refl 0
    · have hj := hx.open_nonneg j' hj'
      rw [openExpansions_cons, hd]
      omega
    · exact Int.le_of_eq hclosed.symm
  · intro j hj
    rcases prefix_between_cases hj with rfl | ⟨j', rfl, hj'⟩ | rfl
    · exact Int.natCast_nonneg _
    · have hj := hx.open_le j' hj'
      rw [openExpansions_cons, hd]
      omega
    · rw [hclosed]
      exact Int.natCast_nonneg _
  · intro hend
    obtain ⟨j', hj', hdeep⟩ := hx.deep hend
    refine ⟨before :: j', ?_, ?_⟩
    · exact List.prefix_append_of_prefix (List.cons_prefix_cons.2 ⟨rfl, hj'⟩)
    · rw [hinside]
      exact hdeep

theorem unfolded {fl : List KeyPath} {room : Nat} {x : Outcome α} (hx : Course bound ⟨fl, room⟩ x)
    (hfl : fl.Nodup) : Course bound ⟨fl, room + 1⟩ (.between .unfolded .folded x) :=
  hx.between (d := 1) hfl rfl rfl rfl rfl (Nat.le_refl _)

theorem enclosed {path : KeyPath} {x : Outcome α} (hx : Course bound (g.enter path) x)
    (hg : g.inFlight.Nodup) : Course bound g (.between (.opened path) (.closed path) x) :=
  hx.between (d := 0) hg rfl rfl rfl rfl (Nat.le_refl _)

theorem exhausted (hg : g.inFlight.Nodup) (hbound : bound ≤ g.inFlight.length) :
    Course bound g (.exhausted : Outcome α) := by
  refine ⟨?_, ?_, ?_, rfl, rfl, ?_⟩
  · intro j hj
    rw [List.prefix_nil.1 hj]
    exact hg
  · intro j hj
    rw [List.prefix_nil.1 hj]
    exact Int.le_refl 0
  · intro j hj
    rw [List.prefix_nil.1 hj]
    exact Int.natCast_nonneg _
  · intro _
    exact ⟨[], List.nil_prefix, hbound⟩

end Course

/-- The paths in flight and the questions that may still nest make up `bound`. -/
structure Guards.Within (bound steps : Nat) (g : Guards) : Prop where
  nodup : g.inFlight.Nodup
  bound_le : bound ≤ steps + g.inFlight.length

/-- With every path that is put in flight the questions may nest one less deep. -/
theorem Guards.Within.enter {bound steps : Nat} {g : Guards} {path : KeyPath}
    (h : g.Within bound (steps + 1)) (hpath : path ∉ g.inFlight) :
    (g.enter path).Within bound steps := by
  refine ⟨List.nodup_cons.2 ⟨hpath, h.nodup⟩, ?_⟩
  have hle := h.bound_le
  simp only [Guards.enter, List.length_cons]
  omega

/-- Every read takes its course: a path in flight is refused, and so is an expansion for which there
    is no room. -/
theorem invariant_course (t : Tree) (disk : Disk) (bound : Nat) :
    Invariant t disk (fun steps g => g.Within bound steps) (fun g x => Course bound g x) where
  ok_unfold h := ⟨h.nodup, h.bound_le⟩
  ok_enter h hpath := h.enter hpath
  still h hx := Course.of_still h.nodup hx
  bind _ hx hf := hx.bind hf
  unfolded h hx := hx.unfolded h.nodup
  read h hpath hbody := by
    rw [Guards.read_of_not_mem hpath]
    exact hbody.enclosed h.nodup
  exhausted h := by
    have hle := h.bound_le
    exact Course.exhausted h.nodup (by omega)

end LayeredConfig
