/-
  LayeredConfig/Lookup/Dialogue.lean
  ==================================
  **What a resolver may do to find a value.**

  A resolver that answers a token may ask back: for the value at a path of the
  same tree, for a value or a table with its tokens resolved, or for a file of
  the tree's loader.  A dialogue is such a course of questions that ends in an
  answer.  Errors come back as replies, so that a resolver may go on after one.
-/
import LayeredConfig.Outcome
import LayeredConfig.Value.Basic

namespace LayeredConfig

inductive Request where
  | get (path : KeyPath)
  | resolve (v : Value)
  | resolveTable (t : Table)
  | load (path : String)
deriving DecidableEq, Repr

abbrev Request.Reply : Request → Type
  | .get _ => Option Value
  | .resolve _ => Value
  | .resolveTable _ => Table
  | .load _ => Table

/-- A course of questions that ends in an answer or an error. -/
inductive Dialogue (α : Type) where
  | done (result : Except Error α)
  | ask (q : Request) (next : Except Error q.Reply → Dialogue α)

namespace Dialogue

variable {α β : Type}

def answer (a : α) : Dialogue α := .done (.ok a)

def ofExcept (r : Except Error α) : Dialogue α := .done r

def request (q : Request) : Dialogue q.Reply := .ask q .done

/-- Goes on with an answer; an error stays. -/
def bind (d : Dialogue α) (f : α → Dialogue β) : Dialogue β :=
  match d with
  | .done (.ok a) => f a
  | .done (.error e) => .done (.error e)
  | .ask q next => .ask q fun reply => bind (next reply) f

instance : Monad Dialogue where
  pure := answer
  bind := bind

/-- Holds the dialogue with someone who replies. -/
def run (reply : (q : Request) → Outcome q.Reply) : Dialogue α → Outcome α
  | .done r => Outcome.ofExcept r
  | .ask q next => do
    let r ← (reply q).attempt
    run reply (next r)

end Dialogue

end LayeredConfig
