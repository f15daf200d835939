import ShellEngine.Config.Settings
import ShellEngine.Console.Event

/-!
# Watching for gestures

Debounces the detach chord and the loss of focus over consecutive looks at the input. A gesture
counts only once it has stayed unread through every strike, that is, once it is plain that the
foreground stage does not consume it.
-/

namespace ShellEngine

/-- What one look at the input decided. -/
structure Look where
  /-- How long to wait before the next look, in milliseconds; without it, until new input comes. -/
  delay : Option Nat := none
  detach : Bool := false
  showIndicator : Bool := false
  deriving DecidableEq, Repr

/-- The gestures seen in the looks so far. -/
structure GestureWatch where
  settings : MonitorSettings
  detachCount : Nat := 0
  focusCount : Nat := 0
  deriving DecidableEq, Repr

namespace GestureWatch

/-- The last change of focus among some events. -/
def lastFocus? (events : List InputEvent) : Option Bool :=
  events.reverse.findSome? fun e ↦ match e with
    | .focus gained => some gained
    | .key .. => none

/-- Takes the focus into account, in a look that does not detach. -/
def observeFocus (w : GestureWatch) (look : Look) (events : List InputEvent) :
    Look × GestureWatch :=
  match lastFocus? events with
  | some false =>
    if w.focusCount < w.settings.focusStrikes then
      ({ look with delay := some (look.delay.getD w.settings.confirmDelay) },
        { w with focusCount := w.focusCount + 1 })
    else ({ look with showIndicator := true }, w)
  | some true => (look, { w with focusCount := 0 })
  | none => (look, w)

/-- Records a look at the input: its events, and whether input is still queued. -/
def observe (w : GestureWatch) (events : List InputEvent) (pending : Bool) : Look × GestureWatch :=
  let chord := events.any InputEvent.isDetachChord
  if chord && !(w.detachCount < w.settings.detachStrikes) then ({ detach := true }, w)
  else
    let w := { w with detachCount := if chord then w.detachCount + 1 else 0 }
    let look : Look := { delay := if chord then some w.settings.confirmDelay else none }
    let (look, w) := w.observeFocus look events
    if look.delay.isNone && (pending || !events.isEmpty) then
      ({ look with delay := some w.settings.pendingInputDelay }, w)
    else (look, w)

end GestureWatch

end ShellEngine
