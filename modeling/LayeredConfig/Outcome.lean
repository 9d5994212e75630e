/-
  LayeredConfig/Outcome.lean
  ==========================
  **What comes of a read.**

  A read ends with a value, with an error, or not at all within the steps it was
  given; and whichever way it ends, it leaves a journal of what was done on the
  way.  The journal serves those who want to know what was asked for, and it
  makes statements about the course of a read into statements about a list.
-/
import LayeredConfig.Error

namespace LayeredConfig

inductive Event where
  /-- A parser was given the file at a path. -/
  | parsed (parser : Nat) (path : String)
  /-- A resolver was shown the body of a token. -/
  | asked (resolver : Nat) (body : String)
  /-- The read of a path began, and ended. -/
  | opened (path : KeyPath)
  | closed (path : KeyPath)
  /-- The content of what a token expanded to began to be resolved, and was. -/
  | unfolded
  | folded
deriving DecidableEq, Repr

/-- Why a read has no value: it failed, or the steps it was given were too few. -/
inductive Halt where
  | failed (e : Error)
  | exhausted
deriving DecidableEq, Repr

structure Outcome (α : Type) where
  result : Except Halt α
  journal : List Event

namespace Outcome

variable {α β γ : Type}

@[ext] theorem ext {x y : Outcome α} (h : x.result = y.result) (g : x.journal = y.journal) :
    x = y := by
  cases x; cases y; simp_all

def pure (a : α) : Outcome α := ⟨.ok a, []⟩

def bind (x : Outcome α) (f : α → Outcome β) : Outcome β :=
  match x.result with
  | .ok a => ⟨(f a).result, x.journal ++ (f a).journal⟩
  | .error halt => ⟨.error halt, x.journal⟩

instance : Monad Outcome where
  pure := pure
  bind := bind

/-! ### Endings and notes -/

def fail (e : Error) : Outcome α := ⟨.error (.failed e), []⟩

def exhausted : Outcome α := ⟨.error .exhausted, []⟩

def ofExcept : Except Error α → Outcome α
  | .ok a => pure a
  | .error e => fail e

def note (event : Event) : Outcome Unit := ⟨.ok (), [event]⟩

/-- Writes into the journal before and after, whether or not there is a value. -/
def between (before after : Event) (x : Outcome α) : Outcome α :=
  ⟨x.result, before :: x.journal ++ [after]⟩

def attempt (x : Outcome α) : Outcome (Except Error α) :=
  match x.result with
  | .ok a => ⟨.ok (.ok a), x.journal⟩
  | .error (.failed e) => ⟨.ok (.error e), x.journal⟩
  | .error .exhausted => ⟨.error .exhausted, x.journal⟩

/-! ### Laws -/

@[simp] theorem pure_bind (a : α) (f : α → Outcome β) : bind (pure a) f = f a := rfl

@[simp] theorem bind_pure (x : Outcome α) : bind x pure = x := by
  rcases x with ⟨_ | _, _⟩ <;> simp [bind, pure]

theorem bind_assoc (x : Outcome α) (f : α → Outcome β) (g : β → Outcome γ) :
    bind (bind x f) g = bind x fun a => bind (f a) g := by
  rcases x with ⟨halt | a, journal⟩
  · rfl
  · simp only [bind]
    rcases f a with ⟨halt | b, journal'⟩ <;> simp [List.append_assoc]

instance : LawfulMonad Outcome :=
  LawfulMonad.mk' Outcome (fun x => bind_pure x) (fun a f => pure_bind a f)
    (fun x f g => bind_assoc x f g)

end Outcome

end LayeredConfig
