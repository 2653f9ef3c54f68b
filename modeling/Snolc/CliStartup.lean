import Mathlib.Data.Nat.Notation
import Mathlib.Logic.Function.Basic

set_option autoImplicit false

/-!
# Starting several workers

`run_engine` with more than one worker: the main thread, one thread per worker with its
engine, the ready and done channels, the cancelled flag, and the command queue and the
acknowledgements of each engine. Every thread takes its steps in the order of its code;
the label of a step names the thread.
-/
namespace Snolc.Cli

inductive Caller where
  | worker
  | main
  deriving DecidableEq, Repr

/-- Where the thread of a worker is. Behind `entering` it is in `engine.run()`, whose loop is
    left through `stopping`. -/
inductive Stage where
  | unspawned
  | building
  | built
  | checking
  | calling
  | awaiting
  | entering
  | running
  | stopping
  | finished (result : Except String Unit)
  | failing (error : String)
  | reporting (error : String)
  | exited

def Stage.isExited : Stage → Bool
  | .exited => true
  | _ => false

def Stage.hasEngine : Stage → Bool
  | .built | .checking | .calling | .awaiting | .entering | .running | .stopping => true
  | _ => false

structure Worker where
  stage : Stage := .unspawned
  queue : List Caller := []
  acknowledged : List Caller := []

/-- The first half of `EngineHandle::shutdown`. A clone of the sender has a slot of its own, so
    only a queue without a receiver refuses the command. -/
def Worker.shutdown (w : Worker) (caller : Caller) : Option Worker :=
  if w.stage.hasEngine then some { w with queue := w.queue ++ [caller] } else none

/-- The second half: the response has arrived, or was dropped with the engine. -/
def Worker.answered (w : Worker) (caller : Caller) : Bool :=
  decide (caller ∈ w.acknowledged) || !w.stage.hasEngine

inductive Main where
  | spawning
  | refused (error : String)
  | gathering (left : ℕ) (handles : List ℕ) (error : String)
  | collecting (left : ℕ) (handles : List ℕ) (startupError : Option String)
  | installing (handles : List ℕ)
  | serving (handles : List ℕ)
  | shutting (handles : List ℕ) (result : Except String Unit)
  | waiting (engine : ℕ) (handles : List ℕ) (result : Except String Unit)
  | joining (next : ℕ) (result : Except String Unit)
  | returned (result : Except String Unit)

structure Plan where
  workers : ℕ
  spawn : ℕ → Except String Unit
  build : ℕ → Except String Unit
  startup : ℕ → Except String Unit
  handler : Except String Unit

structure Process where
  main : Main := .spawning
  threads : ℕ := 0
  workers : ℕ → Worker := fun _ => {}
  ready : List (Except String ℕ) := []
  done : List (Except String Unit) := []
  cancelled : Bool := false

inductive Thread where
  | main
  | worker (index : ℕ)
  deriving DecidableEq, Repr

def recvError : String := "receiving on a closed channel"

namespace Process

def setWorker (s : Process) (i : ℕ) (w : Worker) : Process :=
  { s with workers := Function.update s.workers i w }

def allExited (s : Process) : Bool := (List.range s.threads).all fun i => (s.workers i).stage.isExited

/-- The next step of a worker, if it is not blocked. An engine without a command stays in its loop. -/
def workerStep (p : Plan) (s : Process) (i : ℕ) : Option Process :=
  let w := s.workers i
  match w.stage with
  | .unspawned => none
  | .building =>
    match p.build i with
    | .ok () => some (s.setWorker i { w with stage := .built })
    | .error error => some (s.setWorker i { w with stage := .failing error })
  | .built => some { s.setWorker i { w with stage := .checking } with ready := s.ready ++ [.ok i] }
  | .checking =>
    if s.cancelled then some (s.setWorker i { w with stage := .calling })
    else some (s.setWorker i { w with stage := .entering })
  | .calling =>
    match w.shutdown .worker with
    | some w => some (s.setWorker i { w with stage := .awaiting })
    | none => some (s.setWorker i { w with stage := .entering })
  | .awaiting => if w.answered .worker then some (s.setWorker i { w with stage := .entering }) else none
  | .entering =>
    match p.startup i with
    | .ok () => some (s.setWorker i { w with stage := .running })
    | .error error => some (s.setWorker i { w with stage := .finished (.error error), queue := [] })
  | .running =>
    match w.queue with
    | [] => none
    | caller :: queue =>
      some (s.setWorker i { stage := .stopping, queue, acknowledged := w.acknowledged ++ [caller] })
  | .stopping => some (s.setWorker i { w with stage := .finished (.ok ()), queue := [] })
  | .finished result => some { s.setWorker i { w with stage := .exited } with done := s.done ++ [result] }
  | .failing error => some { s.setWorker i { w with stage := .reporting error } with cancelled := true }
  | .reporting error =>
    some { s.setWorker i { w with stage := .exited } with ready := s.ready ++ [.error error] }
  | .exited => none

def mainStep (p : Plan) (s : Process) : Option Process :=
  match s.main with
  | .spawning =>
    if s.threads < p.workers then
      match p.spawn s.threads with
      | .ok () =>
        some { s.setWorker s.threads { s.workers s.threads with stage := .building } with threads := s.threads + 1 }
      | .error error => some { s with main := .refused error }
    else some { s with main := .collecting p.workers [] none }
  | .refused error => some { s with cancelled := true, main := .gathering s.threads [] error }
  -- the main thread still has a sender of its own here
  | .gathering 0 handles error => some { s with main := .shutting handles (.error error) }
  | .gathering (left + 1) handles error =>
    match s.ready with
    | [] => none
    | .ok i :: ready => some { s with ready, main := .gathering left (handles ++ [i]) error }
    | .error _ :: ready => some { s with ready, main := .gathering left handles error }
  | .collecting 0 handles (some error) => some { s with main := .shutting handles (.error error) }
  | .collecting 0 handles none => some { s with main := .installing handles }
  | .collecting (left + 1) handles startupError =>
    match s.ready with
    | [] => if s.allExited then some { s with main := .returned (.error recvError) } else none
    | .ok i :: ready => some { s with ready, main := .collecting left (handles ++ [i]) startupError }
    | .error error :: ready =>
      some { s with ready, cancelled := true, main := .collecting left handles (some (startupError.getD error)) }
  | .installing handles =>
    match p.handler with
    | .ok () => some { s with main := .serving handles }
    | .error error => some { s with main := .returned (.error error) }
  | .serving handles =>
    match s.done with
    | [] => if s.allExited then some { s with main := .returned (.error recvError) } else none
    | first :: done => some { s with done, main := .shutting handles first }
  | .shutting [] result => some { s with main := .joining 0 result }
  | .shutting (i :: handles) result =>
    match (s.workers i).shutdown .main with
    | some w => some { s.setWorker i w with main := .waiting i handles result }
    | none => some { s with main := .shutting handles result }
  | .waiting i handles result =>
    if (s.workers i).answered .main then some { s with main := .shutting handles result } else none
  | .joining next result =>
    if next < s.threads then
      if (s.workers next).stage.isExited then some { s with main := .joining (next + 1) result } else none
    else some { s with main := .returned result }
  | .returned _ => none

def step? (p : Plan) (s : Process) : Thread → Option Process
  | .main => s.mainStep p
  | .worker i => s.workerStep p i

def step (p : Plan) (s : Process) (t : Thread) : Process := (s.step? p t).getD s

def Stuck (p : Plan) (s : Process) : Prop := ∀ t, s.step? p t = none

end Process
end Snolc.Cli
