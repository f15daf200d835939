import ShellEngine.Text.Utf8

/-!
# Input events

What a terminal sends, decoded into keys and changes of focus. Two of them are gestures: the detach
chord, which sends a foreground stage to the background, and the focus marks. `decode` reads all
bytes, `strip` takes the bytes of the gestures out.
-/

namespace ShellEngine

/-- A key, or a change of focus. -/
inductive InputEvent
  | key (ctrl alt : Bool) (key : Char) (down : Bool)
  | focus (gained : Bool)
  deriving DecidableEq, Repr

namespace InputEvent

/-- The detach chord is Ctrl+B, pressed. -/
def isDetachChord (e : InputEvent) : Bool := e == .key true false 'b' true

/-- Whether an event is a gesture. -/
def isGesture (e : InputEvent) : Bool :=
  match e with
  | .focus _ => true
  | .key .. => e.isDetachChord

end InputEvent

namespace Console

def escByte : UInt8 := 0x1b
def chordByte : UInt8 := 0x02

/-- Whether bytes start with a mark for focus gained or lost. -/
def focusMark? : Bytes → Option Bool
  | a :: b :: c :: _ =>
    if a == escByte && b == 0x5b then
      if c == 0x49 then some true else if c == 0x4f then some false else none
    else none
  | _ => none

/-- Whether bytes start with an escape and a visible character, which is that key with Alt. -/
def altKey? : Bytes → Option Char
  | a :: b :: _ =>
    if a == escByte && 0x21 ≤ b && b ≤ 0x7e then some (Char.ofNat b.toNat) else none
  | _ => none

/-- The key of a single byte: a control character is a letter with Ctrl, unless it has a key of its
own. -/
def singleKey (b : UInt8) : InputEvent :=
  if 0x01 ≤ b && b ≤ 0x1a && b != 0x09 && b != 0x0a && b != 0x0d then
    .key true false (Char.ofNat (b.toNat + 0x60)) true
  else .key false false (Char.ofNat b.toNat) true

/-- Decodes the bytes of a terminal. -/
def decode (bs : Bytes) : List InputEvent :=
  match bs with
  | [] => []
  | b :: rest =>
    match focusMark? (b :: rest), altKey? (b :: rest) with
    | some gained, _ => .focus gained :: decode (rest.drop 2)
    | none, some key => .key false true key true :: decode (rest.drop 1)
    | none, none => singleKey b :: decode rest
termination_by bs.length
decreasing_by all_goals simp only [List.length_cons, List.length_drop]; omega

/-- The bytes without those of gestures. -/
def strip (bs : Bytes) : Bytes :=
  match bs with
  | [] => []
  | b :: rest =>
    match focusMark? (b :: rest) with
    | some _ => strip (rest.drop 2)
    | none => if b == chordByte then strip rest else b :: strip rest
termination_by bs.length
decreasing_by all_goals simp only [List.length_cons, List.length_drop]; omega

end Console

end ShellEngine
