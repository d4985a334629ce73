import SingleTable.Backoff
import SingleTable.Store.Call

/-!
# Dialogues with the store

An operation of the library is a dialogue: it asks the store, goes on with what it is
answered, and is done in the end.  A dialogue says nothing about the store, so the same
operation can be run against any store, alone with `run` or together with others.

Dialogues that run at once form a `Pool` and take turns: each goes on until it pauses, and
as soon as one is done, the next that waits can start.
-/

namespace SingleTable

/-- A finite exchange with the store that ends in a result. -/
inductive Dialogue (α : Type) where
  | done (result : α)
  | ask (call : Call) (resume : Except Error call.Answer → Dialogue α)
  /-- Wait for a time drawn below the ceiling, then go on. -/
  | pause (ceiling : Duration) (rest : Dialogue α)

namespace Dialogue

variable {α β : Type}

def bind (next : α → Dialogue β) : Dialogue α → Dialogue β
  | done result => next result
  | ask call resume => ask call fun answer => bind next (resume answer)
  | pause ceiling rest => pause ceiling (bind next rest)

instance : Monad Dialogue where
  pure := done
  bind dialogue next := dialogue.bind next

end Dialogue

abbrev Operation (α : Type) := ExceptT Error Dialogue α

namespace Operation

def ask (call : Call) : Operation call.Answer := Dialogue.ask call .done

/-- The result of a computation without a call. -/
def ofExcept {α : Type} (result : Except Error α) : Operation α := Dialogue.done result

instance : MonadLift (Except Error) Operation := ⟨ofExcept⟩

end Operation

/-! ## Running dialogues -/

abbrev Store (σ : Type) := (call : Call) → σ → Except Error call.Answer × σ

def Store.recording {σ : Type} (store : Store σ) : Store (σ × List Call) :=
  fun call (state, calls) =>
    let (answer, state) := store call state
    (answer, state, calls ++ [call])

namespace Dialogue

variable {σ α : Type}

def run (store : Store σ) : Dialogue α → σ → α × σ
  | done result, state => (result, state)
  | ask call resume, state =>
    let (answer, state) := store call state
    run store (resume answer) state
  | pause _ rest, state => run store rest state

/-- Run a dialogue up to its first pause. -/
def advance (store : Store σ) : Dialogue α → σ → Dialogue α × σ
  | done result, state => (done result, state)
  | ask call resume, state =>
    let (answer, state) := store call state
    advance store (resume answer) state
  | pause _ rest, state => (rest, state)

def runAll (store : Store σ) : List (Dialogue α) → σ → List α × σ
  | [], state => ([], state)
  | dialogue :: rest, state =>
    let (result, state) := dialogue.run store state
    let (results, state) := runAll store rest state
    (result :: results, state)

/-- The dialogue whose turn it is, and then those under way and those still waiting.  A
dialogue that waits starts as soon as fewer than `width` are under way; otherwise the one
that has paused longest goes on.  One dialogue can always be under way. -/
def turn (width : Nat) : (underWay waiting : List (Dialogue α)) →
    Option (Dialogue α × List (Dialogue α) × List (Dialogue α))
  | [], [] => none
  | [], next :: waiting => some (next, [], waiting)
  | paused :: underWay, [] => some (paused, underWay, [])
  | paused :: underWay, next :: waiting =>
    if underWay.length + 1 < width then some (next, paused :: underWay, waiting)
    else some (paused, underWay, next :: waiting)

/-- Run dialogues at once for some turns, and what is left then one after another.  In its
turn a dialogue goes on up to its next pause.  The results come in the order in which the
dialogues are done. -/
def runTurns (store : Store σ) (width : Nat) :
    (turns : Nat) → (underWay waiting : List (Dialogue α)) → σ → List α × σ
  | 0, underWay, waiting, state => runAll store (underWay ++ waiting) state
  | turns + 1, underWay, waiting, state =>
    match turn width underWay waiting with
    | none => ([], state)
    | some (dialogue, underWay, waiting) =>
      match dialogue.advance store state with
      | (done result, state) =>
        let (results, state) := runTurns store width turns underWay waiting state
        (result :: results, state)
      | (rest, state) => runTurns store width turns (underWay ++ [rest]) waiting state

end Dialogue

/-- Several dialogues that run at once. -/
structure Pool (α : Type) where
  dialogues : List (Dialogue α)
  /-- The number of dialogues that may be under way at the same time. -/
  width : Nat
  /-- The number of turns they take in all, at most. -/
  turns : Nat

def Pool.run {σ α : Type} (store : Store σ) (pool : Pool α) (state : σ) : List α × σ :=
  Dialogue.runTurns store pool.width pool.turns [] pool.dialogues state

end SingleTable
