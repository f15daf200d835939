import ShellEngine.Console.Terminal
import ShellEngine.Engine.Wait
import ShellEngine.Proofs.Console.Gestures

/-!
# What detaches a stage

Stages are waited for on a terminal, one after the other, each with a watch of its own, while keys
are typed and the stage in the foreground may read them (`waits`). A wait detaches its stage only
after a detach chord was typed: in the course of the wait, or before it, for what was left on the
terminal is still there when the next wait begins.

So a chord may detach another stage than the one it was typed for: once it was taken into the
lookahead, it detaches any stage that is looked at often enough, even if the stage that it was typed
for is long gone.
-/

namespace ShellEngine

/-! ## Waits on a terminal -/

/-- What may happen while stages are waited for. -/
inductive Happening
  | type (bs : Bytes)
  /-- The stage in the foreground reads up to so many bytes. -/
  | read (count : Nat)
  /-- The engine takes a look at the input. -/
  | look
  /-- The stage in the foreground ends. -/
  | complete
  deriving DecidableEq

/-- A terminal in the course of time. -/
structure Bench where
  terminal : Terminal
  /-- What is still to happen. -/
  ahead : List Happening
  /-- What was typed since the wait began. -/
  typed : Bytes := []

namespace Bench

/-- Time passes until there is something for a wait to do. -/
def await (t : Terminal) (typed : Bytes) : List Happening → Wake × Bench
  | [] => (.ended (.error .childLost), { terminal := t, ahead := [], typed })
  | .type bs :: ahead => await (t.type bs) (typed ++ bs) ahead
  | .read count :: ahead => await (t.take count).2 typed ahead
  | .look :: ahead => (.elapsed, { terminal := t, ahead, typed })
  | .complete :: ahead =>
    (.ended (.ok (.process (.exited 0))), { terminal := t, ahead, typed })

/-- The terminal as the surroundings of a wait. -/
def surroundings : Surroundings Bench where
  await _ _ s := await s.terminal s.typed s.ahead
  isCancelled _ := false
  isSynchronous _ := false
  look s :=
    let (events, terminal) := s.terminal.peek
    ((events, terminal.hasPending), { s with terminal })
  detach s := { s with terminal := s.terminal.discardGestures.clearTaskIndicator }
  indicate s := { s with terminal := s.terminal.showTaskIndicator }

/-- How many looks are taken before the stage in the foreground ends. -/
def looksAhead : List Happening → Nat
  | [] | .complete :: _ => 0
  | .look :: ahead => looksAhead ahead + 1
  | .type _ :: ahead | .read _ :: ahead => looksAhead ahead

end Bench

/-- A wait for a stage. -/
structure Waited where
  before : Bench
  outcome : Except IoError WaitOutcome
  after : Bench

def Waited.of (settings : MonitorSettings) (s : Bench) : Waited :=
  let s := { s with typed := [] }
  let (outcome, t) := Bench.surroundings.wait s.ahead.length { settings } none s
  { before := s, outcome, after := t }

/-- Waits for a number of stages, one after the other. -/
def waits (settings : MonitorSettings) : Nat → Bench → List Waited
  | 0, _ => []
  | stages + 1, s =>
    let w := Waited.of settings s
    w :: waits settings stages w.after

/-! ## What a look decides -/

namespace GestureWatch

variable {w : GestureWatch} {events : List InputEvent} {pending : Bool}

theorem observeFocus_eq (w : GestureWatch) (look : Look) (events : List InputEvent) :
    (w.observeFocus look events).1.detach = look.detach ∧
      (w.observeFocus look events).2.detachCount = w.detachCount ∧
      (w.observeFocus look events).2.settings = w.settings := by
  unfold observeFocus
  split
  · split <;> exact ⟨rfl, rfl, rfl⟩
  · exact ⟨rfl, rfl, rfl⟩
  · exact ⟨rfl, rfl, rfl⟩

/-- A look detaches if it shows a chord and all strikes were made before; otherwise a chord is one
more strike. -/
theorem observe_of_chord (hchord : events.any InputEvent.isDetachChord = true) :
    (w.settings.detachStrikes ≤ w.detachCount → (w.observe events pending).1.detach = true) ∧
      (w.detachCount < w.settings.detachStrikes →
        (w.observe events pending).1.detach = false ∧
          (w.observe events pending).2.detachCount = w.detachCount + 1 ∧
          (w.observe events pending).2.settings = w.settings) := by
  constructor
  · intro hle
    simp [observe, hchord, Nat.not_lt.mpr hle]
  · intro hlt
    obtain ⟨hdetach, hcount, hsettings⟩ := observeFocus_eq { w with detachCount := w.detachCount + 1 }
      { delay := some w.settings.confirmDelay } events
    unfold observe
    simp only [hchord, hlt, decide_true, Bool.not_true, Bool.and_false, Bool.false_eq_true, if_false,
      if_true]
    split <;> exact ⟨hdetach, hcount, hsettings⟩

theorem any_isDetachChord_of_detach (hdetach : (w.observe events pending).1.detach = true) :
    events.any InputEvent.isDetachChord = true := by
  cases hchord : events.any InputEvent.isDetachChord with
  | true => rfl
  | false =>
    have hfocus := (observeFocus_eq { w with detachCount := 0 } {} events).1
    unfold observe at hdetach
    simp only [hchord, Bool.false_and, Bool.false_eq_true, if_false] at hdetach
    split at hdetach <;> rw [hfocus] at hdetach <;> cases hdetach

end GestureWatch

namespace Terminal

theorem peek_fst (t : Terminal) : t.peek.1 = Console.decode t.peek.2.lookahead := rfl

theorem mem_peek (t : Terminal) (b : UInt8) :
    b ∈ t.peek.2.queue ∨ b ∈ t.peek.2.lookahead ↔ b ∈ t.queue ∨ b ∈ t.lookahead := by
  unfold peek
  rcases t.unread.observe t.queue.length with ⟨ready, unread⟩
  cases ready with
  | false => exact Iff.rfl
  | true => simp [or_comm]

theorem mem_lookahead_peek {t : Terminal} {b : UInt8} (h : b ∈ t.lookahead) :
    b ∈ t.peek.2.lookahead := by
  unfold peek
  rcases t.unread.observe t.queue.length with ⟨ready, unread⟩
  cases ready with
  | false => exact h
  | true => exact List.mem_append_left _ h

@[simp]
theorem queue_write (t : Terminal) (sequence : String) : (t.write sequence).queue = t.queue := by
  unfold write
  split <;> rfl

@[simp]
theorem lookahead_write (t : Terminal) (sequence : String) :
    (t.write sequence).lookahead = t.lookahead := by
  unfold write
  split <;> rfl

end Terminal

/-! ## Where a chord comes from -/

namespace Bench

variable {s t : Bench} {before : Terminal}

/-- All that is on the terminal was there before the wait, or was typed since. -/
def Accounted (before : Terminal) (s : Bench) : Prop :=
  ∀ b, b ∈ s.terminal.queue ∨ b ∈ s.terminal.lookahead →
    b ∈ s.typed ∨ b ∈ before.queue ∨ b ∈ before.lookahead

theorem accounted_await (h : Accounted before s) :
    Accounted before (await s.terminal s.typed s.ahead).2 := by
  obtain ⟨t, ahead, typed⟩ := s
  induction ahead generalizing t typed with
  | nil => exact h
  | cons happening ahead ih =>
    cases happening with
    | type bs =>
      refine ih (t.type bs) (typed ++ bs) fun b hb ↦ ?_
      simp only [Terminal.type, List.mem_append] at hb ⊢
      rcases hb with (hb | hb) | hb
      · exact (h b (Or.inl hb)).imp_left Or.inl
      · exact Or.inl (Or.inr hb)
      · exact (h b (Or.inr hb)).imp_left Or.inl
    | read count =>
      exact ih (t.take count).2 typed fun b hb ↦ h b (hb.imp_left List.mem_of_mem_drop)
    | look => exact h
    | complete => exact h

theorem Accounted.mem_of_wait {looks : Nat} {watch : GestureWatch} {delay : Option Nat}
    (h : Accounted before s)
    (hwait : surroundings.wait looks watch delay s = (.ok .backgrounded, t)) :
    Console.chordByte ∈ t.typed ∨ Console.chordByte ∈ before.queue ∨
      Console.chordByte ∈ before.lookahead := by
  have hended (how : Except IoError StageStatus) (u : Bench) :
      (how.map WaitOutcome.completed, u) ≠ (.ok .backgrounded, t) := by
    cases how <;> simp [Except.map]
  induction looks generalizing watch delay s with
  | zero =>
    unfold Surroundings.wait at hwait
    split at hwait
    · cases hwait
    · exact absurd hwait (hended _ _)
    · cases hwait
  | succ looks ih =>
    unfold Surroundings.wait at hwait
    split at hwait
    · cases hwait
    · exact absurd hwait (hended _ _)
    · rename_i wake u _ _ hawait
      have hlater : Accounted before u := by
        have hu : u = (Bench.await s.terminal s.typed s.ahead).2 :=
          (congrArg (·.2) hawait).symm
        exact hu ▸ accounted_await h
      have hseen : Accounted before { u with terminal := u.terminal.peek.2 } :=
        fun b hb ↦ hlater b ((u.terminal.mem_peek b).mp hb)
      dsimp only [surroundings] at hwait
      split at hwait
      · rename_i hdetach
        obtain rfl := (Prod.mk.inj hwait).2
        have hchord := GestureWatch.any_isDetachChord_of_detach hdetach
        rw [Terminal.peek_fst, Console.any_isDetachChord_decode] at hchord
        exact hseen _ (Or.inr hchord)
      · refine ih ?_ hwait
        split
        · intro b hb
          refine hseen b ?_
          simpa only [Terminal.showTaskIndicator, Terminal.queue_write, Terminal.lookahead_write]
            using hb
        · exact hseen

/-! ## What a chord in the lookahead does -/

theorem looksAhead_le (ahead : List Happening) : looksAhead ahead ≤ ahead.length := by
  fun_induction looksAhead ahead with
  | case1 => exact Nat.le_refl _
  | case2 => exact Nat.zero_le _
  | case3 ahead ih => exact Nat.succ_le_succ ih
  | case4 _ ahead ih => exact Nat.le_succ_of_le ih
  | case5 _ ahead ih => exact Nat.le_succ_of_le ih

/-- If the stage does not end before, time passes until the next look, and nothing is taken into the
lookahead or out of it. -/
theorem await_of_looksAhead {ahead : List Happening} (hpos : 0 < looksAhead ahead) (t : Terminal)
    (typed : Bytes) : ∃ u, await t typed ahead = (.elapsed, u) ∧
      looksAhead u.ahead + 1 = looksAhead ahead ∧ u.terminal.lookahead = t.lookahead := by
  fun_induction await t typed ahead with
  | case1 => exact absurd hpos (Nat.lt_irrefl 0)
  | case2 t typed bs ahead ih => exact ih hpos
  | case3 t typed count ahead ih => exact ih hpos
  | case4 t typed ahead => exact ⟨_, rfl, rfl, rfl⟩
  | case5 => exact absurd hpos (Nat.lt_irrefl 0)

/-- A wait that finds a chord in the lookahead detaches, if enough looks are taken. -/
theorem wait_of_mem_lookahead {looks : Nat} {watch : GestureWatch} {delay : Option Nat}
    (hmem : Console.chordByte ∈ s.terminal.lookahead) (hlooks : looksAhead s.ahead ≤ looks)
    (hcount : watch.detachCount ≤ watch.settings.detachStrikes)
    (henough : watch.settings.detachStrikes < watch.detachCount + looksAhead s.ahead) :
    (surroundings.wait looks watch delay s).1 = .ok .backgrounded := by
  -- Each look is one more strike, as the chord stays where it is.
  induction looks generalizing watch delay s with
  | zero => omega
  | succ looks ih =>
    have hpos : 0 < looksAhead s.ahead := by omega
    obtain ⟨u, hawait, hahead, hlookahead⟩ := await_of_looksAhead hpos s.terminal s.typed
    have hseen : Console.chordByte ∈ u.terminal.peek.2.lookahead :=
      Terminal.mem_lookahead_peek (hlookahead.symm ▸ hmem)
    have hchord : u.terminal.peek.1.any InputEvent.isDetachChord = true := by
      rw [Terminal.peek_fst, Console.any_isDetachChord_decode]
      exact hseen
    obtain ⟨hdetach, hstrike⟩ :=
      @GestureWatch.observe_of_chord watch _ u.terminal.peek.2.hasPending hchord
    unfold Surroundings.wait
    dsimp only [surroundings] at ih ⊢
    rw [hawait]
    dsimp only
    rcases Nat.lt_or_ge watch.detachCount watch.settings.detachStrikes with hlt | hle
    · obtain ⟨hon, hcount', hsettings⟩ := hstrike hlt
      rw [hon, if_neg Bool.false_ne_true]
      refine ih ?_ ?_ ?_ ?_
      · split
        · rw [Terminal.showTaskIndicator, Terminal.lookahead_write]
          exact hseen
        · exact hseen
      · have hlater : looksAhead u.ahead ≤ looks := by omega
        split <;> exact hlater
      · rw [hcount', hsettings]
        exact hlt
      · rw [hcount', hsettings]
        split <;> (dsimp only; omega)
    · rw [hdetach hle, if_pos rfl]

end Bench

/-- **What detaches a stage.** A wait that ends with its stage in the background had a detach chord
typed since it began, or found one on the terminal; and a wait that finds a chord in the lookahead
ends so, whatever is typed, if its stage stays for more looks than there are strikes. -/
theorem waits_backgrounded {settings : MonitorSettings} {stages : Nat} {s : Bench} {w : Waited}
    (hw : w ∈ waits settings stages s) :
    (w.outcome = .ok .backgrounded → Console.chordByte ∈ w.after.typed ∨
      Console.chordByte ∈ w.before.terminal.queue ∨
      Console.chordByte ∈ w.before.terminal.lookahead) ∧
    (Console.chordByte ∈ w.before.terminal.lookahead →
      settings.detachStrikes < Bench.looksAhead w.before.ahead →
      w.outcome = .ok .backgrounded) := by
  induction stages generalizing s with
  | zero => cases hw
  | succ stages ih =>
    rcases List.mem_cons.mp hw with rfl | hw
    · let begun : Bench := { s with typed := [] }
      have haccounted : Bench.Accounted s.terminal begun := fun b hb ↦ Or.inr hb
      exact ⟨fun hbackgrounded ↦ haccounted.mem_of_wait (Prod.ext hbackgrounded rfl),
        fun hmem henough ↦ Bench.wait_of_mem_lookahead hmem (Bench.looksAhead_le _) (Nat.zero_le _)
          ((Nat.zero_add _).symm ▸ henough)⟩
    · exact ih hw

/-- A detach chord is typed for a first stage, which ends once the chord was taken off the queue. A
second stage is detached for it, after another key was typed. -/
def leftover : Bench where
  terminal := .start {} false
  ahead := [.type [Console.chordByte], .look, .look, .look, .look, .complete, .type [0x78], .look,
    .look, .look, .look]

/-- The wait for the second stage. -/
def leftoverWait : Waited := Waited.of {} (Waited.of {} leftover).after

theorem leftoverWait_mem : leftoverWait ∈ waits {} 2 leftover :=
  List.mem_cons_of_mem _ List.mem_cons_self

theorem waits_backgrounded_leftover :
    leftoverWait ∈ waits {} 2 leftover ∧
      Console.chordByte ∈ leftoverWait.before.terminal.lookahead ∧
      leftoverWait.outcome = .ok .backgrounded :=
  have hmem : Console.chordByte ∈ leftoverWait.before.terminal.lookahead := by decide +kernel
  ⟨leftoverWait_mem, hmem, (waits_backgrounded leftoverWait_mem).2 hmem (by decide +kernel)⟩

/-- So the chord that detaches a stage need not have been typed for that stage. -/
theorem not_forall_chord_typed :
    ¬ ∀ (settings : MonitorSettings) (stages : Nat) (s : Bench), ∀ w ∈ waits settings stages s,
      w.outcome = .ok .backgrounded → Console.chordByte ∈ w.after.typed := by
  intro h
  have hbackgrounded : leftoverWait.outcome = .ok .backgrounded :=
    Bench.wait_of_mem_lookahead (by decide +kernel) (Bench.looksAhead_le _) (Nat.zero_le _)
      (by decide +kernel)
  have htyped : leftoverWait.after.typed = [0x78] := by decide +kernel
  have hchord := h {} 2 leftover leftoverWait leftoverWait_mem hbackgrounded
  rw [htyped] at hchord
  exact absurd hchord (by decide)

end ShellEngine
