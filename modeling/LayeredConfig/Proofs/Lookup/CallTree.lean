/-
  LayeredConfig/Proofs/Lookup/CallTree.lean
  =========================================
  **The calls that a read consists of.**

  A read calls for the values of strings on its way, these for the contents of
  what they expand to, and for further reads where a token names a path.  Every
  such call is given guards.  `Call.Starts` says which calls a call makes, and
  after which events; `Call.Reaches` goes through calls in calls.

  The guards are handed down, and nobody looks at the journal to set them.  Yet at
  every moment of the journal there is a call that was given just the guards which
  the events so far make up (`Traced.moment`); and the report of a circle comes
  from one call, whose guards it lists, and passes through the others unchanged
  (`Traced.report`).
-/
import LayeredConfig.Proofs.Lookup.Expansions
import LayeredConfig.Proofs.Lookup.Rendering
import LayeredConfig.Proofs.Tree.Around

namespace LayeredConfig

/-! ### Guards and events -/

/-- From the guards `g` the events lead to the guards `g'`: paths are put in flight and taken out
    again, and expansions are begun and ended, with what room is left. -/
structure Guards.Leads (g : Guards) (j : List Event) (g' : Guards) : Prop where
  inFlight : inFlightAfter g.inFlight j = g'.inFlight
  room : openExpansions j + g'.room = g.room

def Event.IsEnd : Event → Prop
  | .closed _ | .folded => True
  | _ => False

namespace Guards.Leads

variable {g g' g'' : Guards} {j j' : List Event}

theorem refl (g : Guards) : g.Leads [] g := ⟨rfl, Int.zero_add _⟩

theorem trans (h : g.Leads j g') (h' : g'.Leads j' g'') : g.Leads (j ++ j') g'' := by
  refine ⟨?_, ?_⟩
  · rw [inFlightAfter_append, h.inFlight, h'.inFlight]
  · have hroom := h.room
    have hroom' := h'.room
    rw [openExpansions_append]
    omega

/-- Events that neither begin nor end anything leave the guards as they are. -/
theorem of_quiet (h : ∀ e ∈ j, e.IsQuiet) (g : Guards) : g.Leads j g := by
  refine ⟨inFlightAfter_of_quiet h _, ?_⟩
  rw [openExpansions_of_quiet h, Int.zero_add]

theorem opened (g : Guards) (path : KeyPath) : g.Leads [.opened path] (g.enter path) :=
  ⟨rfl, Int.zero_add _⟩

theorem closed (g : Guards) (path : KeyPath) : (g.enter path).Leads [.closed path] g :=
  ⟨rfl, Int.zero_add _⟩

theorem unfolded (fl : List KeyPath) (room : Nat) :
    Guards.Leads ⟨fl, room + 1⟩ [.unfolded] ⟨fl, room⟩ :=
  ⟨rfl, Int.add_comm 1 room⟩

theorem folded (fl : List KeyPath) (room : Nat) :
    Guards.Leads ⟨fl, room⟩ [.folded] ⟨fl, room + 1⟩ := by
  refine ⟨rfl, ?_⟩
  change (-1 : Int) + (room + 1 : Nat) = room
  omega

end Guards.Leads

/-! ### Calls -/

inductive Task where
  /-- To read a path, unless it is in flight. -/
  | read (path : KeyPath) (keep : Value → Bool)
  /-- To find the value at a path that is in flight now, and to resolve it. -/
  | body (path : KeyPath) (keep : Value → Bool)
  /-- To resolve the strings of a value. -/
  | resolve (v : Value)
  /-- To run the chain over a string, and to resolve what it expands to. -/
  | expand (s : String)

/-- A task, the guards under which it is done, and how deep questions may nest in it. -/
structure Call where
  steps : Nat
  guards : Guards
  task : Task

section Calls

variable (t : Tree) (disk : Disk)

def Call.course (c : Call) : List Event :=
  match c.task with
  | .read path keep => (c.guards.read (t.reply disk c.steps) t path keep).journal
  | .body path keep => (c.guards.body (t.reply disk c.steps) t path keep).journal
  | .resolve v => (c.guards.resolve (t.reply disk c.steps) t.chain v).journal
  | .expand s =>
    (expandString (t.reply disk c.steps) t.chain c.guards.inFlight c.guards.room s).journal

/-- While a string is being resolved, a reference is shown a token that names the path: after these
    events, in what the resolvers in front of it have made of the string. -/
inductive Tree.NamedIn (steps : Nat) (g : Guards) (s : String) : KeyPath → List Event → Prop where
  | intro {before behind : List Resolver} {r : Resolver} {label text body rest : String}
      {shown later : List String} {answers : List (Option Value)} {j j' : List Event} :
      t.chain = before ++ r :: behind → r.kind = .labelled label .reference →
      g.settle (t.reply disk steps) before (.string s) = ⟨.ok (.string text), j⟩ →
      Template.bodies (Template.pieces text.toList) = shown ++ body :: later →
      shown.mapM (r.ask (t.reply disk steps) g) = ⟨.ok answers, j'⟩ →
      Resolver.rest? label body = some rest →
      NamedIn steps g s (KeyPath.parse rest) (j ++ (j' ++ [.asked r.id body]))

/-- A call makes another one, after these events. -/
inductive Call.Starts : Call → List Event → Call → Prop where
  | enter {steps : Nat} {g : Guards} {path : KeyPath} {keep : Value → Bool} :
      path ∉ g.inFlight →
      Starts ⟨steps, g, .read path keep⟩ [.opened path] ⟨steps, g.enter path, .body path keep⟩
  | onWay {steps : Nat} {g : Guards} {path : KeyPath} {keep : Value → Bool} {way : List String}
      {s : String} {j : List Event} :
      way <+: path.segments → way ≠ path.segments →
      g.find (t.reply disk steps) t ⟨way⟩ = ⟨.ok (some (.string s)), j⟩ →
      Starts ⟨steps, g, .body path keep⟩ j ⟨steps, g, .expand s⟩
  | found {steps : Nat} {g : Guards} {path : KeyPath} {keep : Value → Bool} {v : Value}
      {j : List Event} :
      g.find (t.reply disk steps) t path = ⟨.ok (some v), j⟩ → keep v = true →
      Starts ⟨steps, g, .body path keep⟩ j ⟨steps, g, .resolve v⟩
  | inside {steps : Nat} {g : Guards} {v : Value} {done later : List String} {s : String}
      {values : List Value} {j : List Event} :
      v.strings = done ++ s :: later →
      done.mapM (expandString (t.reply disk steps) t.chain g.inFlight g.room) = ⟨.ok values, j⟩ →
      Starts ⟨steps, g, .resolve v⟩ j ⟨steps, g, .expand s⟩
  | unfold {steps : Nat} {fl : List KeyPath} {room : Nat} {s : String} {v : Value}
      {j : List Event} :
      Guards.settle (t.reply disk steps) ⟨fl, room + 1⟩ t.chain (.string s) = ⟨.ok v, j⟩ →
      v.isCompound = true →
      Starts ⟨steps, ⟨fl, room + 1⟩, .expand s⟩ (j ++ [.unfolded]) ⟨steps, ⟨fl, room⟩, .resolve v⟩
  | named {steps : Nat} {g : Guards} {s : String} {path : KeyPath} {j : List Event} :
      t.NamedIn disk (steps + 1) g s path j →
      Starts ⟨steps + 1, g, .expand s⟩ j ⟨steps, g, .read path keepAll⟩

/-- A call, or one that it makes, or one that these make, and so on. -/
inductive Call.Reaches (c : Call) : List Event → Call → Prop where
  | here : Reaches c [] c
  | step {j j' : List Event} {c' c'' : Call} :
      Reaches c j c' → c'.Starts t disk j' c'' → Reaches c (j ++ j') c''

/-- At this moment of the call `c`, after these events, the call `c'` is in progress: it was made,
    its course has come so far, and the reads and expansions that were begun in it are over. -/
def Call.At (c : Call) (moment : List Event) (c' : Call) : Prop :=
  ∃ j since, c.Reaches t disk j c' ∧ moment = j ++ since ∧ since <+: c'.course t disk ∧
    c'.guards.Leads since c'.guards

end Calls

/-- The circles that a call reports by itself. -/
inductive Call.Raises : Call → List KeyPath → Closing → Prop where
  | path {steps : Nat} {g : Guards} {path : KeyPath} {keep : Value → Bool} :
      path ∈ g.inFlight → Raises ⟨steps, g, .read path keep⟩ g.inFlight.reverse (.path path)
  | depth {steps : Nat} {fl : List KeyPath} {s : String} :
      Raises ⟨steps, ⟨fl, 0⟩, .expand s⟩ fl.reverse .depth

namespace Call

variable {t : Tree} {disk : Disk} {c c' c'' : Call} {j j' : List Event}

theorem Starts.reaches (h : c.Starts t disk j c') : c.Reaches t disk j c' := by
  have hreach := Reaches.here.step h
  rwa [List.nil_append] at hreach

theorem Reaches.trans (h : c.Reaches t disk j c') (h' : c'.Reaches t disk j' c'') :
    c.Reaches t disk (j ++ j') c'' := by
  induction h' with
  | here => rwa [List.append_nil]
  | step _ hstart ih =>
    rw [← List.append_assoc]
    exact ih.step hstart

theorem At.of_leads (h : c.guards.Leads j c.guards) (hj : j <+: c.course t disk) :
    c.At t disk j c :=
  ⟨[], j, .here, rfl, hj, h⟩

/-- What is in progress in a call that this one makes is in progress in this one as well. -/
theorem At.of_starts (h : c.Starts t disk j c') (h' : c'.At t disk j' c'') :
    c.At t disk (j ++ j') c'' := by
  obtain ⟨i, since, hreach, rfl, hsince⟩ := h'
  exact ⟨j ++ i, since, h.reaches.trans hreach, (List.append_assoc j i since).symm, hsince⟩

end Call

/-! ### Courses within a call -/

/-- What is done after these events of a call leaves the guards as they are.  If it is a part of the
    course of the call, then at each of its moments some call is in progress; and if it ends with
    the report of a circle, the report was raised by a call that was in progress then, and since
    then everything has only been ended. -/
structure Traced (t : Tree) (disk : Disk) (c : Call) (since : List Event) {α : Type}
    (x : Outcome α) : Prop where
  back : c.guards.Leads x.journal c.guards
  moment : since ++ x.journal <+: c.course t disk →
    ∀ j, j <+: x.journal → ∃ c', c.At t disk (since ++ j) c'
  report : since ++ x.journal <+: c.course t disk →
    ∀ listed closing, x.result = .error (.failed (.cyclic listed closing)) →
      ∃ c' j ends, x.journal = j ++ ends ∧ (∀ e ∈ ends, e.IsEnd) ∧
        c.At t disk (since ++ j) c' ∧ c'.Raises listed closing

structure Outcome.Plain {α : Type} (x : Outcome α) : Prop where
  quiet : ∀ e ∈ x.journal, e.IsQuiet
  not_cyclic : ¬ x.IsCyclic

namespace Traced

variable {t : Tree} {disk : Disk} {c c' : Call} {since : List Event} {α β : Type}

/-- In whatever way it ends, the guards come back as they were. -/
theorem leads {x : Outcome α} {result : Except Halt α} {j : List Event}
    (h : Traced t disk c since x) (hx : x = ⟨result, j⟩) : c.guards.Leads j c.guards := by
  rw [hx] at h
  exact h.back

/-- Without reads, expansions and reports the call itself is in progress all along. -/
theorem of_plain (hsince : c.guards.Leads since c.guards) {x : Outcome α} (h : x.Plain) :
    Traced t disk c since x := by
  refine ⟨.of_quiet h.quiet _, ?_, ?_⟩
  · intro hpart j hj
    have hquiet : ∀ e ∈ j, e.IsQuiet := fun e he => h.quiet e (hj.subset he)
    have hj' : since ++ j <+: since ++ x.journal := (List.prefix_append_right_inj since).2 hj
    exact ⟨c, .of_leads (hsince.trans (.of_quiet hquiet _)) (hj'.trans hpart)⟩
  · intro _ listed closing hx
    exact absurd ⟨listed, closing, hx⟩ h.not_cyclic

theorem pure (hsince : c.guards.Leads since c.guards) (a : α) :
    Traced t disk c since (Pure.pure a : Outcome α) :=
  of_plain hsince ⟨nofun, nofun⟩

/-- A circle that the call reports by itself was raised by a call in progress, namely this one. -/
theorem raised (hsince : c.guards.Leads since c.guards) {listed : List KeyPath}
    {closing : Closing} (h : c.Raises listed closing) :
    Traced t disk c since (Outcome.fail (.cyclic listed closing) : Outcome α) := by
  refine ⟨.refl _, ?_, ?_⟩
  · intro hpart j hj
    rw [List.prefix_nil.1 hj]
    exact ⟨c, .of_leads (hsince.trans (.refl _)) hpart⟩
  · intro hpart listed' closing' hx
    cases hx
    exact ⟨c, [], [], rfl, nofun, .of_leads (hsince.trans (.refl _)) hpart, h⟩

/-- One after the other: the second part begins where the journal of the first one ends. -/
theorem bind {x : Outcome α} {f : α → Outcome β} (hsince : c.guards.Leads since c.guards)
    (hx : Traced t disk c since x)
    (hf : ∀ a, x.result = .ok a → c.guards.Leads (since ++ x.journal) c.guards →
      Traced t disk c (since ++ x.journal) (f a)) :
    Traced t disk c since (x >>= f) := by
  cases h : x.result with
  | error halt =>
    rw [Outcome.bind_of_error h]
    refine ⟨hx.back, hx.moment, ?_⟩
    intro hpart listed closing hend
    cases hend
    exact hx.report hpart listed closing h
  | ok a =>
    rw [Outcome.bind_of_ok h]
    have hfa := hf a h (hsince.trans hx.back)
    refine ⟨hx.back.trans hfa.back, ?_, ?_⟩
    · intro hpart j hj
      rw [← List.append_assoc] at hpart
      rcases prefix_append_cases hj with hj | ⟨j', rfl, hj'⟩
      · exact hx.moment ((List.prefix_append _ _).trans hpart) j hj
      · rw [← List.append_assoc]
        exact hfa.moment hpart j' hj'
    · intro hpart listed closing hend
      rw [← List.append_assoc] at hpart
      obtain ⟨c', j, ends, heq, hends, hat, hraises⟩ := hfa.report hpart listed closing hend
      refine ⟨c', x.journal ++ j, ends, ?_, hends, ?_, hraises⟩
      · simp only [heq, List.append_assoc]
      · rwa [← List.append_assoc]

theorem of_void {x : Outcome α} (h : Traced t disk c since x.void) : Traced t disk c since x := by
  refine ⟨?_, ?_, ?_⟩
  · simpa only [Outcome.journal_void] using h.back
  · simpa only [Outcome.journal_void] using h.moment
  · intro hpart listed closing hx
    rw [← Outcome.journal_void] at hpart ⊢
    exact h.report hpart listed closing (Outcome.void_result_eq_error.2 hx)

theorem void (hsince : c.guards.Leads since c.guards) {x : Outcome α}
    (h : Traced t disk c since x) : Traced t disk c since x.void :=
  h.bind hsince fun _ _ hsince => .pure hsince ()

theorem mapM {f : β → Outcome α} {items : List β} (hsince : c.guards.Leads since c.guards)
    (h : ∀ done b later values j, items = done ++ b :: later → done.mapM f = ⟨.ok values, j⟩ →
      c.guards.Leads (since ++ j) c.guards → Traced t disk c (since ++ j) (f b)) :
    Traced t disk c since (items.mapM f) := by
  induction items generalizing since with
  | nil => exact .pure hsince []
  | cons a items ih =>
    rw [List.mapM_cons]
    have ha := h [] a items [] [] rfl rfl
    rw [List.append_nil] at ha
    refine bind hsince (ha hsince) fun v hv hsince' => ?_
    have hitems : Traced t disk c (since ++ (f a).journal) (items.mapM f) := by
      apply ih hsince'
      intro done b later values j hsplit hdone hlead
      have hcons : (a :: done).mapM f = ⟨.ok (v :: values), (f a).journal ++ j⟩ := by
        rw [List.mapM_cons, Outcome.bind_of_ok hv, hdone, Outcome.bind_of_ok rfl]
        change Outcome.mk _ ((f a).journal ++ (j ++ [])) = _
        rw [List.append_nil]
        rfl
      rw [List.append_assoc] at hlead ⊢
      exact h (a :: done) b later _ _ (by rw [hsplit]; rfl) hcons hlead
    exact bind hsince' hitems fun _ _ hsince'' => .pure hsince'' _

/-- What another call does under the same guards. -/
theorem of_starts {x : Outcome α} (hstart : c.Starts t disk since c')
    (hguards : c'.guards = c.guards) (hx : x.journal = c'.course t disk)
    (h : Traced t disk c' [] x) : Traced t disk c since x := by
  have hpart : [] ++ x.journal <+: c'.course t disk := hx ▸ List.prefix_rfl
  refine ⟨hguards ▸ h.back, ?_, ?_⟩
  · intro _ j hj
    obtain ⟨c'', hat⟩ := h.moment hpart j hj
    exact ⟨c'', .of_starts hstart hat⟩
  · intro _ listed closing hx
    obtain ⟨c'', j, ends, heq, hends, hat, hraises⟩ := h.report hpart listed closing hx
    exact ⟨c'', j, ends, heq, hends, .of_starts hstart hat, hraises⟩

/-- What another call does under guards of its own, which an event brings about and another one
    takes back. -/
theorem between {x : Outcome α} {before after : Event} (hsince : c.guards.Leads since c.guards)
    (hstart : c.Starts t disk (since ++ [before]) c')
    (hbefore : c.guards.Leads [before] c'.guards) (hafter : c'.guards.Leads [after] c.guards)
    (hend : after.IsEnd) (hx : x.journal = c'.course t disk) (h : Traced t disk c' [] x) :
    Traced t disk c since (Outcome.between before after x) := by
  have hinside : [] ++ x.journal <+: c'.course t disk := hx ▸ List.prefix_rfl
  have hback : c.guards.Leads (before :: x.journal ++ [after]) c.guards :=
    (hbefore.trans h.back).trans hafter
  refine ⟨hback, ?_, ?_⟩
  · intro hpart j hj
    -- before the one event, between the two, and after the other one
    rcases prefix_between_cases hj with rfl | ⟨j', rfl, hj'⟩ | rfl
    · have hsince' : since ++ [] <+: since ++ _ := (List.prefix_append_right_inj since).2 hj
      exact ⟨c, .of_leads (hsince.trans (.refl _)) (hsince'.trans hpart)⟩
    · obtain ⟨c'', hat⟩ := h.moment hinside j' hj'
      have hat' := Call.At.of_starts hstart hat
      rw [List.append_assoc] at hat'
      exact ⟨c'', hat'⟩
    · exact ⟨c, .of_leads (hsince.trans hback) hpart⟩
  · intro _ listed closing hx
    obtain ⟨c'', j, ends, heq, hends, hat, hraises⟩ := h.report hinside listed closing hx
    have hat' := Call.At.of_starts hstart hat
    rw [List.append_assoc] at hat'
    refine ⟨c'', before :: j, ends ++ [after], ?_, ?_, hat', hraises⟩
    · simp [Outcome.between, heq]
    · intro e he
      rcases List.mem_append.1 he with he | he
      · exact hends e he
      · rw [List.mem_singleton.1 he]
        exact hend

end Traced

end LayeredConfig
