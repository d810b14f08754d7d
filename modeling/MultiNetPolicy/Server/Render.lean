import MultiNetPolicy.Server.State

/-!
# Rendering programs

The functions that render policies reach the kernel through three calls only: `addChain`,
`updateSet` and `updateRule`.  `Render` is the type of programs over these calls, `run` executes one
with a connection.  What the calls are wrapped in (`wrapErr`) and what is done for each element of a
list (`forEach`) are programs over the same calls.
-/

namespace MultiNetPolicy

open ByteString

/-- A program over the three calls.  Each call carries what the callers do to its error. -/
inductive Render (α : Type) where
  | ret (a : α)
  | fail (e : Error)
  | chain (onError : Error → Error) (c : Chain) (k : Chain → Render α)
  | set (onError : Error → Error) (s : NftSet) (els : List SetElement) (k : NftSet → Render α)
  | rule (onError : Error → Error) (r : Rule) (action : RuleAction) (force : Bool)
      (k : Bool → Render α)

namespace Render

variable {α β : Type}

def bind : Render α → (α → Render β) → Render β
  | ret a, f => f a
  | fail e, _ => fail e
  | chain w c k, f => chain w c fun x => bind (k x) f
  | set w s els k, f => set w s els fun x => bind (k x) f
  | rule w r action force k, f => rule w r action force fun x => bind (k x) f

instance : Monad Render where
  pure := ret
  bind := bind

def addChain (c : Chain) : Render Chain := chain id c ret

def updateSet (s : NftSet) (els : List SetElement) : Render NftSet := set id s els ret

def updateRule (r : Rule) (action : RuleAction) (force : Bool) : Render Bool :=
  rule id r action force ret

/-- `fmt.Errorf("context: %w", err)` around whatever error the program ends with. -/
def wrapErr (context : Str) : Render α → Render α
  | ret a => ret a
  | fail e => fail (.wrap context e)
  | chain w c k => chain (fun e => .wrap context (w e)) c fun x => wrapErr context (k x)
  | set w s els k => set (fun e => .wrap context (w e)) s els fun x => wrapErr context (k x)
  | rule w r action force k =>
    rule (fun e => .wrap context (w e)) r action force fun x => wrapErr context (k x)

/-- A computation that may fail, inside a program. -/
def ofExcept : Except Error α → Render α
  | .ok a => ret a
  | .error e => fail e

/-- `if c { x }`. -/
def when (c : Prop) [Decidable c] (x : Render Unit) : Render Unit := if c then x else ret ()

/-- `for index, x := range l`. -/
def forEach (f : Nat → α → Render Unit) : Nat → List α → Render Unit
  | _, [] => ret ()
  | i, x :: xs => do
    f i x
    forEach f (i + 1) xs

/-- A loop that remembers whether one of its rounds said yes. -/
def orLoop (f : α → Render Bool) : List α → Render Bool
  | [] => ret false
  | x :: xs => do
    let b ← f x
    let bs ← orLoop f xs
    return b || bs

/-- Execute a program with a connection. -/
def run (h : Host) : Render α → M α
  | ret a => pure a
  | fail e => throw e
  | chain w c k => do
    let x ← mapErr w (MultiNetPolicy.addChain h c)
    run h (k x)
  | set w s els k => do
    let x ← mapErr w (MultiNetPolicy.updateSet h s els)
    run h (k x)
  | rule w r action force k => do
    let x ← mapErr w (MultiNetPolicy.updateRule h r action force)
    run h (k x)

end Render

end MultiNetPolicy
