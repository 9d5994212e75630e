/-
  LayeredConfig/Proofs/Lookup/BuiltIn.lean
  ========================================
  **The resolvers that the library brings along.**

  The four kinds of resolvers under a label are built in: they answer from a
  table, from another path of the tree, by a function of the host, or from a
  file.  What a resolver of the host may do is wider: it may look at an error
  and go on, and it may have values resolved.  A built-in resolver asks for
  paths and files only, and hands every error on (`Dialogue.IsForward`), so
  that its dialogue is a plain sequence of replies (`Dialogue.run_ask`).
-/
import LayeredConfig.Proofs.Outcome
import LayeredConfig.Tree.Basic

namespace LayeredConfig

/-! ### Chains without resolvers of the host -/

/-- The resolver is of one of the four kinds that the library brings along. -/
def Resolver.IsBuiltIn (r : Resolver) : Prop :=
  match r.kind with
  | .labelled _ (.host _) | .host _ => False
  | .labelled _ _ => True

def Tree.IsBuiltIn (t : Tree) : Prop := ∀ r ∈ t.chain, r.IsBuiltIn

/-! ### Dialogues without detours -/

def Request.IsPlain : Request → Prop
  | .get _ | .load _ => True
  | .resolve _ | .resolveTable _ => False

namespace Dialogue

variable {α β : Type}

/-- The dialogue asks for paths and files only, and an error that comes back is its last word. -/
def IsForward : Dialogue α → Prop
  | .done _ => True
  | .ask q next =>
    q.IsPlain ∧ (∀ e, next (.error e) = .done (.error e)) ∧ ∀ a, (next (.ok a)).IsForward

/-- A dialogue that hands errors on is held by going on with the reply. -/
theorem run_ask {q : Request} {next : Except Error q.Reply → Dialogue α}
    (h : ∀ e, next (.error e) = .done (.error e)) (reply : (q : Request) → Outcome q.Reply) :
    (Dialogue.ask q next).run reply = reply q >>= fun a => (next (.ok a)).run reply := by
  simp only [run, Outcome.attempt]
  cases hq : (reply q).result with
  | ok a => rw [Outcome.bind_of_ok hq, Outcome.bind_of_ok rfl]
  | error halt =>
    rw [Outcome.bind_of_error hq]
    cases halt with
    | failed e => simp [Outcome.bind_of_ok, h, run, Outcome.ofExcept, Outcome.fail]
    | exhausted => rw [Outcome.bind_of_error rfl]

theorem run_bind (d : Dialogue α) (f : α → Dialogue β) (reply : (q : Request) → Outcome q.Reply) :
    (d >>= f).run reply = d.run reply >>= fun a => (f a).run reply := by
  change (d.bind f).run reply = _
  induction d with
  | done r =>
    cases r with
    | error e => rfl
    | ok a => exact (Outcome.pure_bind a fun a => (f a).run reply).symm
  | ask q next ih => simp only [bind, run, bind_assoc, ih]

theorem run_request (q : Request) (reply : (q : Request) → Outcome q.Reply) :
    (request q).run reply = reply q := by
  rw [request, run_ask fun _ => rfl]
  exact Outcome.bind_pure _

theorem isForward_bind {d : Dialogue α} {f : α → Dialogue β} (hd : d.IsForward)
    (hf : ∀ a, (f a).IsForward) : (d.bind f).IsForward := by
  induction d with
  | done r =>
    cases r with
    | error e => trivial
    | ok a => exact hf a
  | ask q next ih =>
    obtain ⟨hq, herror, hok⟩ := hd
    refine ⟨hq, ?_, ?_⟩
    · intro e
      change (next (.error e)).bind f = _
      rw [herror e]
      rfl
    · intro a
      exact ih (.ok a) (hok a)

theorem isForward_ofExcept (r : Except Error α) : (ofExcept r).IsForward := trivial

theorem isForward_request {q : Request} (hq : q.IsPlain) : (request q).IsForward :=
  ⟨hq, fun _ => rfl, fun _ => trivial⟩

end Dialogue

/-- Whatever a built-in resolver is shown, it goes straight on to its answer. -/
theorem Resolver.IsBuiltIn.isForward_answer {r : Resolver} (h : r.IsBuiltIn) (body : String) :
    (r.answer body).IsForward := by
  rcases r with ⟨id, kind⟩
  cases kind with
  | host answer => exact h.elim
  | labelled label what =>
    simp only [answer]
    cases rest? label body with
    | none => trivial
    | some rest =>
      cases what with
      | data table =>
        simp only [Labelled.answer]
        split <;> trivial
      | reference => exact Dialogue.isForward_request trivial
      | call functions =>
        apply Dialogue.isForward_bind (Dialogue.isForward_ofExcept _)
        intro call
        cases functions.lookup call.name <;> trivial
      | inclusion roots =>
        apply Dialogue.isForward_bind (Dialogue.isForward_ofExcept _)
        intro path
        have hload : (Dialogue.request (.load path)).IsForward := Dialogue.isForward_request trivial
        apply Dialogue.isForward_bind hload
        intro table
        trivial
      | host answer => exact h.elim

/-! ### Files -/

theorem FileParser.still_parse (p : FileParser) (disk : Disk) (path : String) :
    (p.parse disk path).Still := by
  unfold parse
  have hnote : (Outcome.note (.parsed p.id path)).Still := Outcome.Still.note trivial
  apply hnote.bind
  intro _
  cases p.kind with
  | format f => exact Outcome.Still.ofExcept _
  | host h => exact Outcome.Still.ofExcept _

theorem Loader.still_parseFile (l : Loader) (disk : Disk) (path : String) :
    (l.parseFile disk path).Still := by
  unfold parseFile
  split
  · exact FileParser.still_parse _ disk path
  · exact Outcome.Still.pure _

/-- To load a file takes no read of the tree. -/
theorem Loader.still_loadFile (l : Loader) (disk : Disk) (path : String) :
    (l.loadFile disk path).Still := by
  unfold loadFile
  apply (l.still_parseFile disk path).bind
  intro base
  cases l.environment with
  | none => exact Outcome.Still.pure _
  | some environment =>
    apply (l.still_parseFile disk (Path.overlay path environment)).bind
    intro overlay
    exact Outcome.Still.pure _

end LayeredConfig
