import ShellEngine.Config.Settings
import ShellEngine.Console.Event
import ShellEngine.Console.Unread

/-!
# The terminal

The queue of typed bytes that the foreground stage and the engine share. The stage is the intended
reader, so the engine only counts what is queued, and takes it into its *lookahead* once the same
amount has stayed through every strike. Gestures are dropped from the lookahead; the other keys wait
there for the next prompt, or are dropped as well.

The engine reads whatever it counted. Left out are a read that fails, and one that gets less than
was counted, as from a terminal in canonical mode, which counts two lines and gives one.
-/

namespace ShellEngine

/-- A terminal, as the engine watches it. -/
structure Terminal where
  /-- Typed bytes that nobody has read. -/
  queue : Bytes := []
  /-- Bytes that the engine took off the queue. -/
  lookahead : Bytes := []
  unread : UnreadInput
  keepTypeahead : Bool
  /-- Whether the terminal can show that a task is running. -/
  indicator : Bool := false
  /-- What was written to the terminal. -/
  shown : Bytes := []
  /-- Whether bytes were typed since the engine last waited for input. -/
  fresh : Bool := false

namespace Terminal

/-- A terminal that the engine starts to watch. -/
def start (settings : MonitorSettings) (indicator : Bool) : Terminal :=
  { unread := { strikes := max settings.detachStrikes 1 }
    keepTypeahead := settings.keepTypeahead
    indicator }

/-- Bytes are typed. -/
def type (t : Terminal) (bs : Bytes) : Terminal :=
  { t with queue := t.queue ++ bs, fresh := t.fresh || !bs.isEmpty }

/-- Another reader takes up to `n` bytes. -/
def take (t : Terminal) (n : Nat) : Bytes × Terminal :=
  (t.queue.take n, { t with queue := t.queue.drop n })

/-- Whether input waits, on the queue or in the lookahead. -/
def hasPending (t : Terminal) : Bool := !t.queue.isEmpty || !t.lookahead.isEmpty

/-- Takes a look at the input. -/
def peek (t : Terminal) : List InputEvent × Terminal :=
  let (ready, unread) := t.unread.observe t.queue.length
  let t :=
    if ready then { t with unread, queue := [], lookahead := t.lookahead ++ t.queue }
    else { t with unread }
  (Console.decode t.lookahead, t)

/-- Forgets the gestures in the lookahead. -/
def discardGestures (t : Terminal) : Terminal := { t with lookahead := Console.strip t.lookahead }

/-- Takes the keys in the lookahead, which are lost unless they are to be kept. -/
def takeTypeahead (t : Terminal) : Bytes × Terminal :=
  let typed := Console.strip t.lookahead
  (if t.keepTypeahead then typed else [], { t with lookahead := [] })

/-- Waits for input for a moment; true if some came that is still there. -/
def awaitInput (t : Terminal) : Bool × Terminal :=
  (t.fresh && !t.queue.isEmpty, { t with fresh := false })

/-- The progress report of a terminal (OSC 9;4): running, or none. -/
def indicatorRunning : String := "\x1b]9;4;3;0\x07"
def indicatorClear : String := "\x1b]9;4;0;0\x07"

def write (t : Terminal) (sequence : String) : Terminal :=
  if t.indicator then { t with shown := t.shown ++ Text.bytes sequence } else t

def showTaskIndicator (t : Terminal) : Terminal := t.write indicatorRunning

def clearTaskIndicator (t : Terminal) : Terminal := t.write indicatorClear

end Terminal

end ShellEngine
