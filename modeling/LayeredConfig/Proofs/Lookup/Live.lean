/-
  LayeredConfig/Proofs/Lookup/Live.lean
  =====================================
  **A lookup that is going on.**

  A read hands its guards down to the questions that are asked on the way
  (`Tree.reply`).  One may as well keep them in one place: every read that begins
  writes its path there and takes it away in the end, and so does every expansion
  with its room.  Resolvers then all work on one and the same lookup, which each
  question finds as the one before has left it.

  Here is that lookup (`Tree.live`), for resolvers that may do more than those of
  a chain: they are shown every value, and not only strings (`Worker`).  Whatever
  they ask and however it ends, the guards come back as they were
  (`Tree.balanced_live`).  All changes of the guards are made in one place
  (`Live.guarded`), and the rest is put together from balanced parts.
-/
import LayeredConfig.Tree.Basic

namespace LayeredConfig

/-- What is done on a lookup.  Its changes of the guards stay, also if it fails. -/
abbrev Live (α : Type) := ExceptT Halt (StateM Guards) α

namespace Live

variable {α β : Type}

def under (x : Live α) (g : Guards) : Except Halt α × Guards := x.run.run g

@[simp] theorem under_pure (a : α) (g : Guards) : (pure a : Live α).under g = (.ok a, g) := rfl

@[simp] theorem under_throw (halt : Halt) (g : Guards) :
    (throw halt : Live α).under g = (.error halt, g) := rfl

@[simp] theorem under_get (g : Guards) : (get : Live Guards).under g = (.ok g, g) := rfl

@[simp] theorem under_modify (f : Guards → Guards) (g : Guards) :
    (modify f : Live PUnit).under g = (.ok ⟨⟩, f g) := rfl

@[simp] theorem under_ofExcept (r : Except Halt α) (g : Guards) :
    (ofExcept r : Live α).under g = (r, g) := by
  cases r <;> rfl

theorem under_bind (x : Live α) (f : α → Live β) (g : Guards) :
    (x >>= f).under g =
      match x.under g with
      | (.ok a, g') => (f a).under g'
      | (.error halt, g') => (.error halt, g') := by
  simp only [under, ExceptT.run_bind, StateT.run_bind]
  rcases x.run.run g with ⟨halt | a, g'⟩ <;> rfl

/-! ### Endings as values -/

def caught (x : Live α) : Live (Except Halt α) :=
  tryCatch (Except.ok <$> x) fun halt => return .error halt

@[simp] theorem under_caught (x : Live α) (g : Guards) :
    x.caught.under g = (.ok (x.under g).1, (x.under g).2) := by
  simp only [under, caught, ExceptT.run_tryCatch, ExceptT.run_map, StateT.run_bind, StateT.run_map]
  rcases x.run.run g with ⟨halt | a, g'⟩ <;> rfl

def attempt (x : Live α) : Live (Except Error α) := do
  match ← x.caught with
  | .ok a => return .ok a
  | .error (.failed e) => return .error e
  | .error .exhausted => throw .exhausted

/-- Changes the guards for the time being, unless they object. -/
def guarded (objection? : Guards → Option Error) (enter leave : Guards → Guards) (x : Live α) :
    Live α := do
  match objection? (← get) with
  | some e => throw (.failed e)
  | none =>
    modify enter
    let r ← x.caught
    modify leave
    ofExcept r

/-- If there is an objection nothing is changed, and otherwise the change is taken back, also after
    a failure. -/
theorem under_guarded (objection? : Guards → Option Error) (enter leave : Guards → Guards)
    (x : Live α) (g : Guards) :
    (guarded objection? enter leave x).under g =
      match objection? g with
      | some e => (.error (.failed e), g)
      | none => ((x.under (enter g)).1, leave (x.under (enter g)).2) := by
  simp only [guarded, under_bind, under_get]
  cases objection? g with
  | some e => rfl
  | none => simp [under_bind]

end Live

/-! ### Resolvers on a lookup -/

/-- What a resolver makes of a value, with the questions that it asks on the way. -/
abbrev Worker := Value → Dialogue Value

/-- A resolver of a chain works on strings, token by token. -/
def Resolver.worker (r : Resolver) : Worker
  | .string s => Template.substitute r.answer s
  | v => return v

/-- Holds the dialogue on a lookup. -/
def Dialogue.live {α : Type} (reply : (q : Request) → Live q.Reply) : Dialogue α → Live α
  | .done r => MonadExcept.ofExcept (r.mapError Halt.failed)
  | .ask q next => do
    let r ← (reply q).attempt
    (next r).live reply

def Value.isString : Value → Bool
  | .string _ => true
  | _ => false

section Inside

variable {m : Type → Type} [Monad m]

def Table.changeEntries (change : Value → m Value) (t : Table) : m Table :=
  t.mapM fun (key, v) => return (key, ← change v)

def Value.changeInside (change : Value → m Value) : Value → m Value
  | .array items => return .array (← items.mapM change)
  | .table entries => return .table (← Table.changeEntries change entries)
  | v => return v

end Inside

namespace Live

section Lookup

variable (reply : (q : Request) → Live q.Reply) (workers : List Worker)

def settle (v : Value) : Live Value := workers.foldlM (fun v work => (work v).live reply) v

/-- Takes room for an expansion. -/
def unfolding {α : Type} (x : Live α) : Live α :=
  guarded (fun g => if g.room = 0 then some (g.cycle .depth) else none)
    (fun g => { g with room := g.room - 1 }) (fun g => { g with room := g.room + 1 }) x

/-- The value with all its tokens resolved, at most `limit` values deep.  What a string turns into
    is an expansion. -/
def resolve : (limit : Nat) → Value → Live Value
  | 0, _ => throw .exhausted
  | limit + 1, v => do
    let w ← settle reply workers v
    if v.isString && w.isCompound then unfolding (w.changeInside (resolve limit))
    else w.changeInside (resolve limit)

def resolveTable (limit : Nat) (table : Table) : Live Table :=
  table.changeEntries (resolve reply workers limit)

def resolveString (limit : Nat) (v : Value) : Live Value :=
  if v.isString then resolve reply workers limit v else return v

/-- Walks on from a value.  Strings on the way are resolved. -/
def walk (limit : Nat) : Option Value → List String → Live (Option Value)
  | v, [] => return v
  | none, _ :: _ => return none
  | some v, key :: rest => do
    match ← resolveString reply workers limit v with
    | .table entries => walk limit (Table.get? entries key) rest
    | _ => return none

def find (limit : Nat) (t : Tree) (path : KeyPath) : Live (Option Value) :=
  match path.segments with
  | [] => return some (.table t.data)
  | key :: rest => walk reply workers limit (t.data.get? key) rest

def reading {α : Type} (path : KeyPath) (x : Live α) : Live α :=
  guarded (fun g => if path ∈ g.inFlight then some (g.cycle (.path path)) else none)
    (fun g => g.enter path) (fun g => { g with inFlight := g.inFlight.tail }) x

def body (limit : Nat) (t : Tree) (path : KeyPath) (keep : Value → Bool) :
    Live (Option Value) := do
  match ← find reply workers limit t path with
  | none => return none
  | some v => if keep v then return some (← resolve reply workers limit v) else return none

def read (limit : Nat) (t : Tree) (path : KeyPath) (keep : Value → Bool) : Live (Option Value) :=
  reading path (body reply workers limit t path keep)

end Lookup

theorem settle_cons (reply : (q : Request) → Live q.Reply) (work : Worker) (rest : List Worker)
    (v : Value) : settle reply (work :: rest) v = (work v).live reply >>= settle reply rest :=
  List.foldlM_cons

/-! The two guards, one at a time. -/

section Guarded

variable {α : Type} (x : Live α)

/-- Without room the expansion is reported and the guards stay. -/
theorem under_unfolding_zero (fl : List KeyPath) :
    (unfolding x).under ⟨fl, 0⟩ = (.error (.failed (Guards.cycle ⟨fl, 0⟩ .depth)), ⟨fl, 0⟩) :=
  under_guarded _ _ _ x _

theorem under_unfolding_succ (fl : List KeyPath) (room : Nat) :
    (unfolding x).under ⟨fl, room + 1⟩ =
      ((x.under ⟨fl, room⟩).1,
        { (x.under ⟨fl, room⟩).2 with room := (x.under ⟨fl, room⟩).2.room + 1 }) :=
  under_guarded _ _ _ x _

/-- A path in flight is reported and the guards stay. -/
theorem under_reading_of_mem {g : Guards} {path : KeyPath} (h : path ∈ g.inFlight) :
    (reading path x).under g = (.error (.failed (g.cycle (.path path))), g) := by
  rw [reading, under_guarded, if_pos h]

theorem under_reading_of_not_mem {g : Guards} {path : KeyPath} (h : path ∉ g.inFlight) :
    (reading path x).under g =
      ((x.under (g.enter path)).1,
        { (x.under (g.enter path)).2 with
          inFlight := (x.under (g.enter path)).2.inFlight.tail }) := by
  rw [reading, under_guarded, if_neg h]

end Guarded

end Live

/-- Replies to a question on a lookup, where questions may nest `steps` deep. -/
def Tree.live (t : Tree) (workers : List Worker) (disk : Disk) (limit : Nat) :
    (steps : Nat) → (q : Request) → Live q.Reply
  | 0, _ => throw .exhausted
  | steps + 1, .get path =>
    Live.read (t.live workers disk limit steps) workers limit t path fun _ => true
  | steps + 1, .resolve v => Live.resolve (t.live workers disk limit steps) workers limit v
  | steps + 1, .resolveTable table =>
    Live.resolveTable (t.live workers disk limit steps) workers limit table
  | _ + 1, .load path => ofExcept (t.loader.loadFile disk path).result

/-! ### Balance -/

/-- The guards come back as they were. -/
def Live.Balanced {α : Type} (x : Live α) : Prop := ∀ g, (x.under g).2 = g

namespace Live.Balanced

variable {α β : Type}

theorem pure (a : α) : (Pure.pure a : Live α).Balanced := by
  intro g
  rw [under_pure]

theorem throw (halt : Halt) : (MonadExcept.throw halt : Live α).Balanced := by
  intro g
  rw [under_throw]

theorem ofExcept (r : Except Halt α) : (MonadExcept.ofExcept r : Live α).Balanced := by
  intro g
  rw [under_ofExcept]

theorem bind {x : Live α} {f : α → Live β} (hx : x.Balanced) (hf : ∀ a, (f a).Balanced) :
    (x >>= f).Balanced := by
  intro g
  have hg := hx g
  rw [under_bind]
  rcases h : x.under g with ⟨halt | a, g'⟩
  · rwa [h] at hg
  · rw [h] at hg
    rw [hf a g']
    exact hg

theorem caught {x : Live α} (hx : x.Balanced) : x.caught.Balanced := by
  intro g
  rw [under_caught]
  exact hx g

theorem attempt {x : Live α} (hx : x.Balanced) : x.attempt.Balanced := by
  apply hx.caught.bind
  rintro ((e | _) | a)
  · exact pure _
  · exact throw _
  · exact pure _

/-- It is enough that a change of the guards which they do not object to is undone. -/
theorem guarded {objection? : Guards → Option Error} {enter leave : Guards → Guards} {x : Live α}
    (h : ∀ g, objection? g = none → leave (enter g) = g) (hx : x.Balanced) :
    (Live.guarded objection? enter leave x).Balanced := by
  intro g
  rw [under_guarded]
  cases hg : objection? g with
  | some e => rfl
  | none =>
    change leave (x.under (enter g)).2 = g
    rw [hx, h g hg]

/-- Room that was taken is given back. -/
theorem unfolding {x : Live α} (hx : x.Balanced) : (Live.unfolding x).Balanced := by
  apply guarded _ hx
  intro g hg
  have hroom : g.room ≠ 0 := by
    intro h
    simp [h] at hg
  rw [Nat.sub_add_cancel (Nat.pos_of_ne_zero hroom)]

theorem reading {x : Live α} (hx : x.Balanced) (path : KeyPath) :
    (Live.reading path x).Balanced :=
  guarded (fun _ _ => rfl) hx

theorem mapM {f : α → Live β} (hf : ∀ a, (f a).Balanced) (items : List α) :
    (items.mapM f).Balanced := by
  induction items with
  | nil => exact pure _
  | cons a rest ih =>
    rw [List.mapM_cons]
    apply (hf a).bind
    intro b
    apply ih.bind
    intro bs
    exact pure _

theorem changeEntries {change : Value → Live Value} (h : ∀ v, (change v).Balanced) (t : Table) :
    (t.changeEntries change).Balanced := by
  apply mapM
  rintro ⟨key, v⟩
  exact (h v).bind fun _ => pure _

theorem changeInside {change : Value → Live Value} (h : ∀ v, (change v).Balanced) (v : Value) :
    (v.changeInside change).Balanced := by
  cases v with
  | array items => exact (mapM h items).bind fun _ => pure _
  | table entries => exact (changeEntries h entries).bind fun _ => pure _
  | _ => exact pure _

/-! ### Reads -/

section Lookup

variable {reply : (q : Request) → Live q.Reply} (hreply : ∀ q, (reply q).Balanced)
include hreply

/-- A resolver may ask whatever it likes, and go on after errors. -/
theorem dialogue (d : Dialogue α) : (d.live reply).Balanced := by
  induction d with
  | done r => exact ofExcept _
  | ask q next ih => exact (hreply q).attempt.bind ih

variable (workers : List Worker) (limit : Nat)

theorem settle (v : Value) : (Live.settle reply workers v).Balanced := by
  induction workers generalizing v with
  | nil => exact pure v
  | cons work rest ih =>
    rw [settle_cons]
    exact (dialogue hreply (work v)).bind ih

theorem resolve (v : Value) : (Live.resolve reply workers limit v).Balanced := by
  induction limit generalizing v with
  | zero => exact throw _
  | succ limit ih =>
    rw [Live.resolve]
    apply (settle hreply workers v).bind
    intro w
    have hw : (w.changeInside (Live.resolve reply workers limit)).Balanced := changeInside ih w
    cases v.isString && w.isCompound with
    | true => exact hw.unfolding
    | false => exact hw

theorem resolveTable (table : Table) :
    (Live.resolveTable reply workers limit table).Balanced :=
  changeEntries (resolve hreply workers limit) table

theorem resolveString (v : Value) : (Live.resolveString reply workers limit v).Balanced := by
  rw [Live.resolveString]
  cases v.isString with
  | true => exact resolve hreply workers limit v
  | false => exact pure v

theorem walk (v : Option Value) (path : List String) :
    (Live.walk reply workers limit v path).Balanced := by
  induction path generalizing v with
  | nil => exact pure v
  | cons key rest ih =>
    cases v with
    | none => exact pure none
    | some v =>
      apply (resolveString hreply workers limit v).bind
      intro w
      cases w with
      | table entries => exact ih _
      | _ => exact pure none

theorem find (t : Tree) (path : KeyPath) : (Live.find reply workers limit t path).Balanced := by
  rw [Live.find]
  cases path.segments with
  | nil => exact pure _
  | cons key rest => exact walk hreply workers limit _ rest

theorem body (t : Tree) (path : KeyPath) (keep : Value → Bool) :
    (Live.body reply workers limit t path keep).Balanced := by
  apply (find hreply workers limit t path).bind
  intro v
  cases v with
  | none => exact pure none
  | some v =>
    cases hkeep : keep v with
    | true =>
      simp only [hkeep, if_true]
      exact (resolve hreply workers limit v).bind fun _ => pure _
    | false =>
      simp only [hkeep]
      exact pure none

/-- A path that was put in flight is taken out again, in whatever way its read ends. -/
theorem read (t : Tree) (path : KeyPath) (keep : Value → Bool) :
    (Live.read reply workers limit t path keep).Balanced :=
  (body hreply workers limit t path keep).reading path

end Lookup

end Live.Balanced

/-- Whatever is asked on a lookup, and however it ends, the guards come back as they were. -/
theorem Tree.balanced_live (t : Tree) (workers : List Worker) (disk : Disk) (limit steps : Nat)
    (q : Request) : (t.live workers disk limit steps q).Balanced := by
  induction steps generalizing q with
  | zero => exact Live.Balanced.throw _
  | succ steps ih =>
    cases q with
    | get path => exact Live.Balanced.read ih workers limit t path _
    | resolve v => exact Live.Balanced.resolve ih workers limit v
    | resolveTable table => exact Live.Balanced.resolveTable ih workers limit table
    | load path => exact Live.Balanced.ofExcept _

end LayeredConfig
