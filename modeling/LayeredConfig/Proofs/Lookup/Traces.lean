/-
  LayeredConfig/Proofs/Lookup/Traces.lean
  =======================================
  **Every call is traced.**

  With built-in resolvers the course of every call is traced (`traced_read`,
  `traced_resolve`): its moments belong to the calls in it, and so do the reports
  of circles.  The proof goes along with the definition of each kind of call, and
  by induction on how deep questions may nest, since a read within a call may do so
  less deep.
-/
import LayeredConfig.Proofs.Lookup.CallGrammar
import LayeredConfig.Proofs.Lookup.CallTree

namespace LayeredConfig

/-! ### Texts -/

/-- To replace the tokens of a text is to show their bodies one after the other. -/
theorem Template.substitute_eq_mapM (text : String) :
    ∃ out : List (Option Value) → Value, ∀ answer : String → Outcome (Option Value),
      Template.substitute answer text = do
        let answers ← (Template.bodies (Template.pieces text.toList)).mapM answer
        return out answers := by
  cases hw : wholeToken? text.toList with
  | none =>
    refine ⟨fun answers => .string (String.ofList (fill (pieces text.toList) answers)), ?_⟩
    intro answer
    simp only [substitute, hw, render_eq, bind_assoc, pure_bind]
  | some body =>
    refine ⟨fun answers => ((answers.head?.join).filter Value.isTruthy).getD (.string text), ?_⟩
    intro answer
    rw [substitute_of_whole hw, bodies_of_whole hw]
    simp only [List.mapM_cons, List.mapM_nil, bind_assoc, pure_bind, List.head?_cons,
      Option.join_some]

/-! ### Courses without reads -/

namespace Outcome.Plain

variable {α β : Type}

theorem pure (a : α) : (Pure.pure a : Outcome α).Plain := ⟨nofun, nofun⟩

theorem exhausted : (Outcome.exhausted : Outcome α).Plain := ⟨nofun, nofun⟩

theorem note {e : Event} (h : e.IsQuiet) : (Outcome.note e).Plain :=
  ⟨(Outcome.Still.note h).quiet, nofun⟩

theorem ofExcept {r : Except Error α} (h : ∀ listed closing, r ≠ .error (.cyclic listed closing)) :
    (Outcome.ofExcept r).Plain := by
  refine ⟨(Outcome.Still.ofExcept r).quiet, ?_⟩
  rintro ⟨listed, closing, heq⟩
  cases r with
  | ok a => cases heq
  | error e =>
    cases heq
    exact h listed closing rfl

theorem bind {x : Outcome α} {f : α → Outcome β} (hx : x.Plain) (hf : ∀ a, (f a).Plain) :
    (x >>= f).Plain := by
  refine ⟨?_, ?_⟩
  · intro e he
    rcases Outcome.mem_journal_bind.1 he with he | ⟨a, -, he⟩
    · exact hx.quiet e he
    · exact (hf a).quiet e he
  · rintro ⟨listed, closing, heq⟩
    cases h : x.result with
    | error halt =>
      rw [Outcome.bind_of_error h] at heq
      cases heq
      exact hx.not_cyclic ⟨listed, closing, h⟩
    | ok a =>
      rw [Outcome.bind_of_ok h] at heq
      exact (hf a).not_cyclic ⟨listed, closing, heq⟩

end Outcome.Plain

/-- Parsers read no tree, and circles are not theirs to report. -/
theorem Loader.plain_parseFile (l : Loader) (disk : Disk) (path : String) :
    (l.parseFile disk path).Plain := by
  unfold parseFile
  split
  next p _ =>
    apply (Outcome.Plain.note (e := .parsed p.id path) trivial).bind
    intro _
    cases p.kind with
    | host h => exact .ofExcept (h.parse_ne_cyclic disk path)
    | format f =>
      apply Outcome.Plain.ofExcept
      intro listed closing
      unfold Format.tableAt
      split
      · exact nofun
      · exact nofun
      · split <;> exact nofun
  next => exact .pure _

theorem Loader.plain_loadFile (l : Loader) (disk : Disk) (path : String) :
    (l.loadFile disk path).Plain := by
  unfold loadFile
  apply (l.plain_parseFile disk path).bind
  intro base
  cases l.environment with
  | none => exact .pure _
  | some environment =>
    apply (l.plain_parseFile disk (Path.overlay path environment)).bind
    exact fun overlay => .pure _

theorem IncludeRoots.target_ne_cyclic (i : IncludeRoots) (token : String) (listed : List KeyPath)
    (closing : Closing) : i.target token ≠ .error (.cyclic listed closing) := by
  unfold target
  split
  · exact nofun
  · split <;> exact nofun

theorem CallExpr.parse_ne_cyclic (expression : String) (listed : List KeyPath)
    (closing : Closing) : parse expression ≠ .error (.cyclic listed closing) := by
  intro h
  obtain ⟨fault, hfault⟩ := exists_fault_of_error h
  cases h.symm.trans hfault

/-- Of the built-in resolvers only a reference takes a read to answer, and only under its label. -/
theorem Resolver.plain_answer {r : Resolver} (hr : r.IsBuiltIn) {body : String}
    (hreference : ∀ label rest, r.kind = .labelled label .reference →
      Resolver.rest? label body ≠ some rest) (t : Tree) (disk : Disk) (steps : Nat) (g : Guards) :
    ((r.answer body).run (t.reply disk steps g)).Plain := by
  obtain ⟨id, kind⟩ := r
  cases kind with
  | host answer => exact hr.elim
  | labelled label what =>
    simp only [answer]
    cases hrest : rest? label body with
    | none => exact .pure none
    | some rest =>
      cases what with
      | host answer => exact hr.elim
      | reference => exact absurd hrest (hreference label rest rfl)
      | data table =>
        simp only [Labelled.answer]
        split <;> exact .pure _
      | call functions =>
        simp only [Labelled.answer, Dialogue.run_bind]
        apply (Outcome.Plain.ofExcept (CallExpr.parse_ne_cyclic rest)).bind
        intro call
        cases functions.lookup call.name <;> exact .pure _
      | inclusion roots =>
        simp only [Labelled.answer, Dialogue.run_bind]
        apply (Outcome.Plain.ofExcept (roots.target_ne_cyclic rest)).bind
        intro path
        have hload : ((Dialogue.request (.load path)).run (t.reply disk steps g)).Plain := by
          rw [Dialogue.run_request]
          cases steps with
          | zero => exact .exhausted
          | succ steps => exact t.loader.plain_loadFile disk path
        exact hload.bind fun table => .pure _

/-! ### The chain -/

/-- The reads in which questions may nest `n` deep are traced. -/
def Tree.ReadsTraced (t : Tree) (disk : Disk) (n : Nat) : Prop :=
  ∀ g path, Traced t disk ⟨n, g, .read path keepAll⟩ [] (g.read (t.reply disk n) t path keepAll)

section Kinds

variable {t : Tree} {disk : Disk} {n : Nat} {g : Guards} (hb : t.IsBuiltIn)
  (hreads : ∀ m, n = m + 1 → t.ReadsTraced disk m)

section Chain

include hb hreads

variable {s : String} {before behind : List Resolver} {r : Resolver} {j : List Event}

/-- A reference that is shown a token for it reads the path that is named there; nothing else that
    is shown leads to a read. -/
theorem traced_ask {text body : String} {shown later : List String}
    {answers : List (Option Value)} {j' : List Event} (hchain : t.chain = before ++ r :: behind)
    (hsettle : g.settle (t.reply disk n) before (.string s) = ⟨.ok (.string text), j⟩)
    (hbodies : Template.bodies (Template.pieces text.toList) = shown ++ body :: later)
    (hshown : shown.mapM (r.ask (t.reply disk n) g) = ⟨.ok answers, j'⟩)
    (hsince : g.Leads (j ++ j') g) :
    Traced t disk ⟨n, g, .expand s⟩ (j ++ j') (r.ask (t.reply disk n) g body) := by
  have hr : r.IsBuiltIn := by
    apply hb r
    rw [hchain]
    exact List.mem_append_right _ List.mem_cons_self
  have hnote : (Outcome.note (.asked r.id body)).Plain := .note trivial
  -- only a reference that finds its label starts a read
  by_cases hreference : ∃ label rest, r.kind = .labelled label .reference ∧
      Resolver.rest? label body = some rest
  · obtain ⟨label, rest, hkind, hrest⟩ := hreference
    have hanswer : r.answer body = .request (.get (KeyPath.parse rest)) := by
      simp only [Resolver.answer, hkind, hrest, Resolver.Labelled.answer]
    rw [Resolver.ask, hanswer, Dialogue.run_request]
    refine .bind hsince (.of_plain hsince hnote) fun _ _ hsince' => ?_
    cases n with
    | zero => exact .of_plain hsince' .exhausted
    | succ m =>
      rw [List.append_assoc]
      exact .of_starts (.named (.intro hchain hkind hsettle hbodies hshown hrest)) rfl rfl
        (hreads m rfl g _)
  · refine .of_plain hsince (hnote.bind fun _ => r.plain_answer hr ?_ t disk n g)
    exact fun label rest hkind hrest => hreference ⟨label, rest, hkind, hrest⟩

theorem traced_asks {text : String} {shown later : List String}
    (hchain : t.chain = before ++ r :: behind)
    (hsettle : g.settle (t.reply disk n) before (.string s) = ⟨.ok (.string text), j⟩)
    (hbodies : Template.bodies (Template.pieces text.toList) = shown ++ later)
    (hsince : g.Leads j g) :
    Traced t disk ⟨n, g, .expand s⟩ j (shown.mapM (r.ask (t.reply disk n) g)) := by
  refine .mapM hsince ?_
  rintro done body rest answers j' rfl hdone hsince'
  rw [List.append_assoc] at hbodies
  exact traced_ask hb hreads hchain hsettle hbodies hdone hsince'

theorem traced_process {v : Value} (hchain : t.chain = before ++ r :: behind)
    (hsettle : g.settle (t.reply disk n) before (.string s) = ⟨.ok v, j⟩) (hsince : g.Leads j g) :
    Traced t disk ⟨n, g, .expand s⟩ j (r.process (t.reply disk n) g v) := by
  cases v with
  | string text =>
    obtain ⟨out, hout⟩ := Template.substitute_eq_mapM text
    rw [Resolver.process, hout]
    have hasks := traced_asks hb hreads hchain hsettle (List.append_nil _).symm hsince
    exact hasks.bind hsince fun _ _ hsince' => .pure hsince' _
  | _ => exact .pure hsince _

/-- What a part of the chain does with what the resolvers in front of it have made of a string. -/
theorem traced_settle {part : List Resolver} {v : Value}
    (hchain : t.chain = before ++ (part ++ behind))
    (hsettle : g.settle (t.reply disk n) before (.string s) = ⟨.ok v, j⟩) (hsince : g.Leads j g) :
    Traced t disk ⟨n, g, .expand s⟩ j (g.settle (t.reply disk n) part v) := by
  -- what lies behind, `before`, grows by one resolver after the other
  induction part generalizing before v j with
  | nil => exact .pure hsince v
  | cons r rest ih =>
    have hprocess := traced_process hb hreads hchain hsettle hsince
    refine .bind hsince hprocess fun w hw hsince' => ?_
    have hsettle' : g.settle (t.reply disk n) (before ++ [r]) (.string s) =
        ⟨.ok w, j ++ (r.process (t.reply disk n) g v).journal⟩ := by
      rw [settle_append, hsettle, Outcome.bind_of_ok rfl, Guards.settle, Outcome.bind_of_ok hw]
      change Outcome.mk (.ok w) (j ++ (_ ++ [])) = _
      rw [List.append_nil]
    exact ih (by rw [hchain, List.append_assoc]; rfl) hsettle' hsince'

theorem traced_front {part : List Resolver} (hchain : t.chain = part ++ behind) :
    Traced t disk ⟨n, g, .expand s⟩ [] (g.settle (t.reply disk n) part (.string s)) := by
  have hchain' : t.chain = [] ++ (part ++ behind) := hchain
  exact traced_settle hb hreads hchain' rfl (.refl g)

end Chain

/-! ### Values and paths -/

section Values

theorem traced_strings {v : Value} {done later : List String}
    (hexpand : ∀ s, Traced t disk ⟨n, g, .expand s⟩ []
      (expandString (t.reply disk n) t.chain g.inFlight g.room s))
    (hv : v.strings = done ++ later) :
    Traced t disk ⟨n, g, .resolve v⟩ []
      (done.mapM (expandString (t.reply disk n) t.chain g.inFlight g.room)) := by
  refine .mapM (.refl g) ?_
  rintro front s rest values j rfl hfront -
  rw [List.append_assoc] at hv
  exact .of_starts (.inside hv hfront) rfl rfl (hexpand s)

theorem traced_resolve_of {v : Value}
    (hexpand : ∀ s, Traced t disk ⟨n, g, .expand s⟩ []
      (expandString (t.reply disk n) t.chain g.inFlight g.room s)) :
    Traced t disk ⟨n, g, .resolve v⟩ [] (g.resolve (t.reply disk n) t.chain v) := by
  apply Traced.of_void
  rw [Guards.resolve, Value.void_traverse, ← Outcome.void_mapM]
  exact (traced_strings hexpand (List.append_nil _).symm).void (.refl g)

include hb hreads

/-- A string goes through the chain, and what comes of it may be resolved in an expansion. -/
theorem traced_expandString (fl : List KeyPath) (room : Nat) (s : String) :
    Traced t disk ⟨n, ⟨fl, room⟩, .expand s⟩ []
      (expandString (t.reply disk n) t.chain fl room s) := by
  have hsettle (room : Nat) (s : String) : Traced t disk ⟨n, ⟨fl, room⟩, .expand s⟩ []
      ((⟨fl, room⟩ : Guards).settle (t.reply disk n) t.chain (.string s)) :=
    traced_front hb hreads (List.append_nil _).symm
  -- what a string expands to is resolved with less room
  induction room generalizing s with
  | zero =>
    refine (hsettle 0 s).bind (.refl _) fun v _ hsince => ?_
    split
    · exact .raised hsince .depth
    · exact .pure hsince v
  | succ room ih =>
    refine (hsettle (room + 1) s).bind (.refl _) fun v hv hsince => ?_
    split
    next hcompound =>
      have hstart := Call.Starts.unfold (Outcome.ext hv rfl) hcompound
      exact .between hsince hstart (.unfolded fl room) (.folded fl room) trivial rfl
        (traced_resolve_of ih)
    next => exact .pure hsince v

theorem traced_key {path : KeyPath} {keep : Value → Bool} {way rest : List String} {key : String}
    {v : Option Value} {j : List Event} (hpath : path.segments = way ++ key :: rest)
    (hfind : g.find (t.reply disk n) t ⟨way⟩ = ⟨.ok v, j⟩) (hsince : g.Leads j g) :
    Traced t disk ⟨n, g, .body path keep⟩ j (g.walk (t.reply disk n) t v [key]) := by
  cases v with
  | none => exact .pure hsince none
  | some v =>
    cases v with
    | string s =>
      have hway : way <+: path.segments := ⟨_, hpath.symm⟩
      have hne : way ≠ path.segments := by simp [hpath]
      have hexpand := traced_expandString hb hreads g.inFlight g.room s
      have hstring : Traced t disk ⟨n, g, .body path keep⟩ j
          (g.resolve (t.reply disk n) t.chain (.string s)) :=
        .of_starts (.onWay hway hne hfind) rfl rfl hexpand
      refine hstring.bind hsince fun w _ hsince' => ?_
      cases w with
      | table entries =>
        dsimp only
        rw [walk_nil]
        exact .pure hsince' _
      | _ => exact .pure hsince' none
    | table entries =>
      rw [Guards.walk, walk_nil]
      exact .pure hsince _
    | _ => exact .pure hsince none

/-- The way so far leads to a value, and the next key from there on. -/
theorem traced_walk {path : KeyPath} {keep : Value → Bool} {way rest : List String}
    {v : Option Value} {j : List Event} (hpath : path.segments = way ++ rest)
    (hfind : g.find (t.reply disk n) t ⟨way⟩ = ⟨.ok v, j⟩) (hsince : g.Leads j g) :
    Traced t disk ⟨n, g, .body path keep⟩ j (g.walk (t.reply disk n) t v rest) := by
  -- at every key `v` is what has been found at the way so far
  induction rest generalizing way v j with
  | nil =>
    rw [walk_nil]
    exact .pure hsince v
  | cons key rest ih =>
    rw [walk_cons]
    refine (traced_key hb hreads hpath hfind hsince).bind hsince fun w hw hsince' => ?_
    have hfind' : g.find (t.reply disk n) t ⟨way ++ [key]⟩ =
        ⟨.ok w, j ++ (g.walk (t.reply disk n) t v [key]).journal⟩ := by
      rw [← KeyPath.child, find_child, hfind, Outcome.bind_of_ok rfl, hw]
    exact ih (by rw [hpath, List.append_assoc]; rfl) hfind' hsince'

theorem traced_find (path : KeyPath) (keep : Value → Bool) :
    Traced t disk ⟨n, g, .body path keep⟩ [] (g.find (t.reply disk n) t path) := by
  have hpath : path.segments = [] ++ path.segments := rfl
  rw [find_eq_walk]
  exact traced_walk hb hreads hpath rfl (.refl g)

theorem traced_body (path : KeyPath) (keep : Value → Bool) :
    Traced t disk ⟨n, g, .body path keep⟩ [] (g.body (t.reply disk n) t path keep) := by
  refine (traced_find hb hreads path keep).bind (.refl g) fun v hv hsince => ?_
  cases v with
  | none => exact .pure hsince none
  | some v =>
    dsimp only
    split
    next hkeep =>
      have hresolve : Traced t disk ⟨n, g, .body path keep⟩ _
          (g.resolve (t.reply disk n) t.chain v) :=
        .of_starts (.found (Outcome.ext hv rfl) hkeep) rfl rfl
          (traced_resolve_of (traced_expandString hb hreads g.inFlight g.room))
      exact hresolve.bind hsince fun _ _ hsince' => .pure hsince' _
    next => exact .pure hsince none

theorem traced_read_of (path : KeyPath) (keep : Value → Bool) :
    Traced t disk ⟨n, g, .read path keep⟩ [] (g.read (t.reply disk n) t path keep) := by
  by_cases hpath : path ∈ g.inFlight
  · rw [Guards.read_of_mem hpath]
    exact .raised (.refl g) (.path hpath)
  · rw [Guards.read_of_not_mem hpath]
    exact .between (.refl g) (.enter hpath) (.opened g path) (.closed g path) trivial rfl
      (traced_body hb hreads path keep)

end Values

end Kinds

/-! ### All calls -/

section All

variable {t : Tree} (hb : t.IsBuiltIn) (disk : Disk)
include hb

/-- By induction on how deep questions may nest: a reference reads with one step less. -/
theorem readsTraced (n : Nat) : t.ReadsTraced disk n := by
  induction n with
  | zero =>
    intro g path
    refine traced_read_of hb ?_ path keepAll
    intro m hm
    cases hm
  | succ n ih =>
    intro g path
    refine traced_read_of hb ?_ path keepAll
    intro m hm
    rwa [← Nat.succ.inj hm]

theorem traced_read (n : Nat) (g : Guards) (path : KeyPath) (keep : Value → Bool) :
    Traced t disk ⟨n, g, .read path keep⟩ [] (g.read (t.reply disk n) t path keep) :=
  traced_read_of hb (fun m _ => readsTraced hb disk m) path keep

theorem traced_resolve (n : Nat) (g : Guards) (v : Value) :
    Traced t disk ⟨n, g, .resolve v⟩ [] (g.resolve (t.reply disk n) t.chain v) :=
  traced_resolve_of (traced_expandString hb (fun m _ => readsTraced hb disk m) g.inFlight g.room)

/-- Between the guards of a call and those of a call that it makes are the events in between. -/
theorem Call.Starts.leads {c c' : Call} {j : List Event} (h : c.Starts t disk j c') :
    c.guards.Leads j c'.guards := by
  have hreads (n m : Nat) (_ : n = m + 1) : t.ReadsTraced disk m := readsTraced hb disk m
  cases h with
  | enter hpath => exact .opened _ _
  | onWay _ _ hfind => exact (traced_find hb (hreads _) ⟨_⟩ keepAll).leads hfind
  | found hfind _ => exact (traced_find hb (hreads _) _ keepAll).leads hfind
  | inside hv hdone =>
    exact (traced_strings (traced_expandString hb (hreads _) _ _) hv).leads hdone
  | unfold hsettle hcompound =>
    have hleads := (traced_front hb (hreads _) (List.append_nil _).symm).leads hsettle
    exact hleads.trans (.unfolded _ _)
  | named hnamed =>
    obtain ⟨hchain, -, hsettle, hbodies, hshown, -⟩ := hnamed
    have hleads := (traced_front hb (hreads _) hchain).leads hsettle
    have hleads' := (traced_asks hb (hreads _) hchain hsettle hbodies hleads).leads hshown
    refine hleads.trans (hleads'.trans (.of_quiet ?_ _))
    intro e he
    rw [List.mem_singleton.1 he]
    trivial

theorem Call.Reaches.leads {c c' : Call} {j : List Event} (h : c.Reaches t disk j c') :
    c.guards.Leads j c'.guards := by
  induction h with
  | here => exact .refl _
  | step _ hstart ih => exact ih.trans (hstart.leads hb disk)

theorem Call.At.leads {c c' : Call} {moment : List Event} (h : c.At t disk moment c') :
    c.guards.Leads moment c'.guards := by
  obtain ⟨j, since, hreach, rfl, -, hleads⟩ := h
  exact (hreach.leads hb disk).trans hleads

end All

end LayeredConfig
