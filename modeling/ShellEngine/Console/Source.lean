import ShellEngine.Console.Terminal

/-!
# Consoles

Where a session sees what is typed while a stage runs: nowhere, in a script that hands out one list
of events after the other, or on a terminal.
-/

namespace ShellEngine

/-- What a session asks of its console beside input. -/
inductive ConsoleCall
  | show
  | clear
  | discard
  deriving DecidableEq, Repr

/-- The console of a session. -/
inductive Console
  /-- The input is no terminal. -/
  | absent
  /-- Each look takes the first of the frames; the calls so far are kept, the latest first. -/
  | scripted (frames : List (List InputEvent)) (calls : List ConsoleCall)
  | terminal (t : Terminal)

namespace Console

/-- Whether new input is there, which is then no longer new. -/
def awaitInput : Console → Bool × Console
  | .absent => (false, .absent)
  | .scripted frames calls => (!frames.isEmpty, .scripted frames calls)
  | .terminal t => let (came, t) := t.awaitInput; (came, .terminal t)

def hasPending : Console → Bool
  | .absent => false
  | .scripted frames _ => !frames.isEmpty
  | .terminal t => t.hasPending

/-- Takes a look at the input. -/
def peek : Console → List InputEvent × Console
  | .absent => ([], .absent)
  | .scripted [] calls => ([], .scripted [] calls)
  | .scripted (frame :: frames) calls => (frame, .scripted frames calls)
  | .terminal t => let (events, t) := t.peek; (events, .terminal t)

/-- Does what a session asks for. -/
def call (c : Console) (what : ConsoleCall) : Console :=
  match c with
  | .absent => .absent
  | .scripted frames calls => .scripted frames (what :: calls)
  | .terminal t =>
    .terminal <| match what with
      | .show => t.showTaskIndicator
      | .clear => t.clearTaskIndicator
      | .discard => t.discardGestures

/-- Takes the keys that were typed ahead of the prompt. -/
def takeTypeahead : Console → Bytes × Console
  | .terminal t => let (typed, t) := t.takeTypeahead; (typed, .terminal t)
  | c => ([], c)

end Console

end ShellEngine
