import Scriptlet.Call
import Scriptlet.Proofs.Access

/-!
# Callbacks

A method that calls a function back hands it a row of arguments and goes on with its answer. The
function is given what it takes: one of the program or a bound method gets the whole row, and one
of the host no more of it than it takes by position. For a function of the program a failure
counts as undefined. Between its calls the store is not touched; so what a method has done up to
some moment is the list of the calls that it has made, each with its row and its answer, and the
store in which they leave the program.
-/

namespace Scriptlet

namespace Value

/-- The number of arguments that a callable **takes by position**; none if it takes any number. -/
def positionalArity : Value → Option Nat
  | native f | hostMethod _ _ f => f.arity
  | _ => none

/-- What there is to do for a callable that is **called back** with a row of arguments. -/
def callbackTask (callee : Value) (row : List Value) : Task :=
  match callee with
  | function f => .activate f row none false
  | v => .call v (row.take (v.positionalArity.getD row.length))

/-- The **answer** of a callable that has given a value. -/
def answer (callee v : Value) : Value :=
  match callee with
  | function _ => v.orUndefined
  | _ => v

end Value

variable {run : Runner} {callee v : Value} {row : List Value} {s s' t : Store} {i : Interrupt}

/-- A callback is the task of its callable and then the answer. -/
theorem Step.invoke_eq (callable : callee.isCallable = true) (row : List Value) :
    invoke run callee row = callee.answer <$> run (callee.callbackTask row) := by
  have same (task : Task) : (fun v : Value => v) <$> run task = run task := id_map _
  cases callee with
  | function f => rfl
  | method identity name subject =>
    show run (.call _ row) = (fun v => v) <$> run (.call _ (row.take row.length))
    rw [same, List.take_length]
  | native f | hostMethod identity ref f =>
    show run (.call _ _) = (fun v => v) <$> run (.call _ _)
    rw [same]
    rfl
  | _ => cases callable

/-- **Calls of a callback** that have been made one after another from a store on, each with its row
of arguments and its answer, and the store in which they leave off. -/
inductive CalledBack (run : Runner) (callee : Value) :
    Store → List (List Value × Value) → Store → Prop
  | nil (s : Store) : CalledBack run callee s [] s
  | cons {s s' t : Store} {row : List Value} {v : Value} {calls : List (List Value × Value)}
    (called : run (callee.callbackTask row) s = .ok v s') (rest : CalledBack run callee s' calls t) :
    CalledBack run callee s ((row, callee.answer v) :: calls) t

namespace CalledBack

/-- Calls that follow one another. -/
theorem append {calls more : List (List Value × Value)} (first : CalledBack run callee s calls s')
    (second : CalledBack run callee s' more t) : CalledBack run callee s (calls ++ more) t := by
  induction first with
  | nil => exact second
  | cons called _ ih => exact .cons called (ih second)

end CalledBack

/-- A callback answers if its task is done, -/
theorem Step.invoke_of_ok (callable : callee.isCallable = true)
    (done : run (callee.callbackTask row) s = .ok v t) :
    invoke run callee row s = .ok (callee.answer v) t := by
  rw [invoke_eq callable, map_eq_pure_bind, bind_of_ok done]
  rfl

/-- and is interrupted if its task is. -/
theorem Step.invoke_of_error (callable : callee.isCallable = true)
    (interrupted : run (callee.callbackTask row) s = .error i t) :
    invoke run callee row s = .error i t := by
  rw [invoke_eq callable, map_eq_pure_bind, bind_of_error interrupted]

/-- What is no callable cannot be called back, and nothing is changed in trying to. -/
theorem Step.invoke_onlyLooks (notCallable : callee.isCallable = false) (row : List Value) :
    (invoke run callee row).OnlyLooks := by
  have displays : Step.OnlyLooks (do wrongType ((← display callee) ++ " is not a function") : Step Value) :=
    .bind (read_onlyLooks _) fun _ _ => rfl
  cases callee with
  | function | method | native | hostMethod => cases notCallable
  | _ => exact displays

/-- An interrupt **comes among the calls** of a callback: some have been made, and it comes out of
the next or leaves the store as they have left it. -/
def ComesAmongCalls (run : Runner) (callee : Value) (s : Store) (i : Interrupt) (t : Store) : Prop :=
  ∃ calls u, CalledBack run callee s calls u
    ∧ (t = u ∨ ∃ row, run (callee.callbackTask row) u = .error i t)

end Scriptlet
