import Headroom.Simulation.Thread

/-!
Several requests served at once in simulated time. The clock starts at zero and
jumps to the next moment at which some thread can go on; at each moment every
unfinished thread, in the order of the list, does all it can.
-/
namespace Headroom.Simulation

open Headroom.Cycle (Report Rules)

/-- Let every thread in turn do all it can at a moment. -/
def advanceAll (rules : Rules) (now : Nat) : List Thread → World → List Thread × World
  | [], w => ([], w)
  | t :: rest, w =>
    let (t, w) := t.advance rules now w
    let (rest, w) := advanceAll rules now rest w
    (t :: rest, w)

/-- The next moment at which a thread can go on. -/
def nextMoment? (threads : List Thread) : Option Nat := (threads.filterMap Thread.wake?).min?

/-- A bound on the things that all threads still have to do. -/
def remainingAll (rules : Rules) (threads : List Thread) : Nat :=
  (threads.map (Thread.remaining rules)).foldl (· + ·) 0

/-- The threads when none can go on, the time of the last thing done, and the world. -/
structure Settled where
  threads : List Thread
  finish : Nat
  world : World

/-- Go on from a moment until no thread gets any further. -/
def runFrom (rules : Rules) (now : Nat) (threads : List Thread) (w : World) : Settled :=
  match nextMoment? threads with
  | none => ⟨threads, now, w⟩
  | some moment =>
    let next := advanceAll rules moment threads w
    if remainingAll rules next.1 < remainingAll rules threads then
      runFrom rules moment next.1 next.2
    else ⟨threads, now, w⟩
termination_by remainingAll rules threads

/-- The report of a finished thread. -/
def Thread.report? (t : Thread) : Option Report :=
  match t.activity with
  | .finished report => some report
  | _ => none

/-- Serve requests together, each on the controller of its number. -/
def serveAll (rules : Rules) (requests : List (Nat × Request)) (w : World) : Settled :=
  runFrom rules 0 (requests.map fun (controller, request) => { controller, request }) w

end Headroom.Simulation
