import ShellEngine.Console.Gesture
import ShellEngine.Error
import ShellEngine.Process.Status

/-!
# Waiting for a stage

A wait ends when the stage ends, when the line is cancelled, or when the user detaches the stage.
Until then the engine looks at the console input from time to time and watches for gestures. What
happens first is decided by the `Surroundings`; the wait decides what it listens to, and what to
make of each look.

While a look asked for a delay, nothing but the end of that delay leads to the next look. While a
synchronous task runs, new input leads to none, so that such a task is never detached.
-/

namespace ShellEngine

/-- What ends a pause between two looks. -/
inductive Wake
  | cancelled
  | ended (how : Except IoError StageStatus)
  /-- New input may be there. -/
  | input
  /-- The delay is over. -/
  | elapsed

/-- How a wait ended. -/
inductive WaitOutcome
  | completed (status : StageStatus)
  | cancelled
  /-- The stage goes on without the engine. -/
  | backgrounded
  deriving DecidableEq, Repr

/-- What a wait sees and does. -/
structure Surroundings (σ : Type) where
  /-- Waits for what happens first; input counts only if it is listened to, and a delay only if
  there is one. -/
  await : (listens : Bool) → (delay : Option Nat) → σ → Wake × σ
  isCancelled : σ → Bool
  isSynchronous : σ → Bool
  /-- Takes a look at the input: its events, and whether input is still queued. -/
  look : σ → (List InputEvent × Bool) × σ
  /-- Lets go of the stage. -/
  detach : σ → σ
  /-- Shows that the stage is running. -/
  indicate : σ → σ

namespace Surroundings

/-- Whether new input leads to a look. -/
def listens {σ : Type} (e : Surroundings σ) (delay : Option Nat) (s : σ) : Bool :=
  delay.isNone && !e.isCancelled s && !e.isSynchronous s

/-- Waits for a stage, with at most the given number of looks; after the last one the input is left
alone. -/
def wait {σ : Type} (e : Surroundings σ) :
    Nat → GestureWatch → Option Nat → σ → Except IoError WaitOutcome × σ
  | 0, _, _, s =>
    match e.await false none s with
    | (.cancelled, s) => (.ok .cancelled, s)
    | (.ended how, s) => (how.map .completed, s)
    | (_, s) => (.error .childLost, s)
  | looks + 1, watch, delay, s =>
    match e.await (e.listens delay s) delay s with
    | (.cancelled, s) => (.ok .cancelled, s)
    | (.ended how, s) => (how.map .completed, s)
    | (_, s) =>
      let ((events, pending), s) := e.look s
      let (look, watch) := watch.observe events pending
      if look.detach then (.ok .backgrounded, e.detach s)
      else
        let s := if look.showIndicator then e.indicate s else s
        e.wait looks watch look.delay s

end Surroundings

end ShellEngine
