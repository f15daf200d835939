import ShellEngine.Proofs.Engine.Draining
import ShellEngine.Proofs.Engine.Verdict

/-!
# What a stage adds to a buffer

A stage whose standard output goes to a buffer adds to it what it prints, and nothing else: a builtin
what it wrote until it was done (`Taps.gathers_of_run`), a program what lies in its pipe once it was
waited for (`Taps.gathers_of_wait`).

Of a program this can be said only if it behaves (`Session.Behaves`): it leaves the open files of the
engine alone, runs to completion, and all that it wrote is in its pipe when that is closed.
-/

namespace ShellEngine

open Machine

namespace Session

/-! ## What stages print -/

/-- What a builtin prints to the standard output of its stage. -/
def printedBy (s : Session) (r : RunningStage) (cmd : Builtin) : Octets :=
  match s.redirect r true with
  | (.ok snapshot, placed, t) =>
    ((cmd.run r.stage.arguments).outcome
      ((t.hold snapshot.nextInput).commenceDrains placed).2).2.output
  | (.error _, _) => []

/-- What a program prints to the standard output of its stage, if it is launched. A program runs to
its end when it is launched; its bytes are in the pipe from then on, each from its time on. -/
def printedFrom (s : Session) (r : RunningStage) (target : String) : Octets :=
  match s.redirect r false with
  | (.ok _, placed, t) =>
    match t.launch placed target with
    | (.ok (), _, u) => u.output
    | (.error _, _) => []
  | (.error _, _) => []

/-- What a stage prints to its standard output. -/
def printed (s : Session) (r : RunningStage) : Octets :=
  match Builtin.ofName? r.stage.program with
  | some cmd => s.printedBy r cmd
  | none =>
    match PlanAction.target? s r with
    | some target => s.printedFrom r target
    | none => []

/-- What a stage adds to a buffer: what it prints, if its output goes there. -/
def added (s : Session) (r : RunningStage) : Octets :=
  if r.stage.stdout = .buffer then s.printed r else []

/-- A program that was launched has a child that runs to completion, and all that was written to its
standard output is there when the pipe behind that is closed. -/
structure RunsOut (s : Session) (launched : RunningStage) (snapshot : Snapshot) : Prop where
  child : launched.child ≠ none
  whole : ∀ c, s.host.target? 1 = some (.channel c) →
    (s.host.world.channel c).Whole (s.host.world.channel c).closes
  completes : ∃ status t,
    ((s.revert { snapshot with nextInput := none }).commenceDrains launched).2.waitForStage
      { launched with pendingDrains := [] } = (.ok (.completed status), t)

/-- If the stage is a program, it behaves: whatever comes of launching it leaves the open files of
the engine alone. If its output goes to a buffer, it runs out. -/
def Behaves (s : Session) (r : RunningStage) : Prop :=
  ∀ target snapshot placed t result launched u, Builtin.ofName? r.stage.program = none →
    PlanAction.target? s r = some target → s.redirect r false = (.ok snapshot, placed, t) →
    t.launch placed target = (result, launched, u) →
      t.host.world.Respects u.host.world ∧
        (result = .ok () → r.stage.stdout = .buffer → u.RunsOut launched snapshot)

/-! ## What is gathered from one stage -/

variable {s t u : Session} {r placed : RunningStage} {snapshot : Snapshot} {reader channel : Nat}
  {front : Bytes}

/-- Order was kept, and some bytes were gathered. -/
structure Gathers (s : Session) (last : Option Nat) (bs : Bytes) (t : Session) : Prop where
  host : s.host.Extends t.host
  orderly : t.Orderly
  gathered : t.Gathered last bs

theorem Gathers.after {last : Option Nat} {bs : Bytes} (h : t.Gathers last bs u)
    (hhost : s.host.Extends t.host) : s.Gathers last bs u :=
  ⟨hhost.trans h.host, h.orderly, h.gathered⟩

/-- While a pipe is being drained, waiting for the end of that gathers all that lies in it. -/
theorem Drains.gathers {own : Pump} {c : Channel} {buffers : List Nat}
    (h : s.Drains own channel front c) (horderly : s.Orderly) (hmem : own.buffer ∈ buffers) :
    s.Gathers (some own.buffer) (front ++ c.octets.toBytes) (s.finalize buffers) :=
  ⟨(spares_finalize s buffers).host, (spares_finalize s buffers).orderly horderly, h.finalize hmem⟩

theorem commenceDrains_of_pendingDrains {key fd : Nat} (h : r.pendingDrains = [(key, fd)])
    (s : Session) : (s.commenceDrains r).2 = s.commence key fd := by
  unfold commenceDrains
  rw [h]
  rfl

theorem snapshot_eq_of_nextInput (h : snapshot.nextInput = none) :
    { snapshot with nextInput := none } = snapshot := by
  rw [← h]

namespace Taps

/-- A builtin adds what it wrote to the buffer of its stage. -/
theorem gathers_of_run {cmd : Builtin} {args : List String} {result : Except Crash Int}
    (h : s.Taps r placed snapshot reader channel t) (horderly : s.Orderly)
    (hfront : s.Gathered r.stdoutBuffer front) (hdrains : r.pendingDrains = [])
    (hrun : (cmd.run args).outcome (t.commenceDrains placed).2 = (result, u)) :
    s.Gathers placed.stdoutBuffer (front ++ u.output.toBytes)
      ((u.revert snapshot).finalize (placed.stdoutBuffer.toList ++ placed.stderrBuffer.toList)) := by
  obtain ⟨key, hkey⟩ : ∃ key, r.stdoutBuffer.getD s.buffers.size = key := ⟨_, rfl⟩
  have hplumbing := h.plumbing_eq hkey hdrains
  have hpending : placed.pendingDrains = [(key, reader)] := congrArg (·.2.2) hplumbing
  have hbuffer : placed.stdoutBuffer = some key := congrArg (·.1) hplumbing
  rw [commenceDrains_of_pendingDrains hpending] at hrun
  have hwrites : Writes (t.commence key reader) u := by
    have hchore := Writes.chore.run cmd args (t.commence key reader)
    rwa [Action.Keeps, hrun] at hchore
  have hgrows : t.host.world.Grows u.host.world := hwrites.world.respects.grows
  -- The channel was empty, and whatever was written to it since was there at once.
  have hempty : (t.host.world.channel channel).Whole t.now := by
    rw [h.host.empty]
    exact ⟨rfl, rfl, fun p hp ↦ by cases hp⟩
  have hwhole : (u.host.world.channel channel).Whole u.now := by
    rw [show u.now = t.now from hwrites.world.clock]
    exact hwrites.whole channel h.host.there hempty
  have hdrained := h.drains horderly hkey hfront hwrites.descriptors hgrows
    (hwhole.mono (Nat.le_max_left _ _)) rfl hwrites.buffers hwrites.pumps
  have hbegun := (h.spares.orderly horderly).commence (h.gathered horderly hkey hfront).1.there
    h.host.known
  have hspares := hwrites.spares.trans (spares_revert u snapshot)
  rw [(h.output_eq hwrites.descriptors hgrows).2, hbuffer]
  exact (hdrained.gathers (hspares.orderly hbegun) List.mem_cons_self).after
    (h.host.host.trans hspares.host)

/-- A program adds what lies in its pipe to the buffer of its stage, once it was waited for. -/
theorem gathers_of_wait {target : String} {launched : RunningStage} {status : StageStatus}
    {v w : Session} (h : s.Taps r placed snapshot reader channel t) (horderly : s.Orderly)
    (hfront : s.Gathered r.stdoutBuffer front) (hdrains : r.pendingDrains = [])
    (hlaunch : t.launch placed target = (.ok (), launched, u))
    (hrespects : t.host.world.Respects u.host.world) (hrunsOut : u.RunsOut launched snapshot)
    (hv : ((u.revert snapshot).commenceDrains launched).2 = v)
    (hwait : v.waitForStage { launched with pendingDrains := [] } = (.ok (.completed status), w)) :
    s.Gathers launched.stdoutBuffer (front ++ u.output.toBytes) w := by
  obtain ⟨key, hkey⟩ : ∃ key, r.stdoutBuffer.getD s.buffers.size = key := ⟨_, rfl⟩
  have hleaves := leaves_of_launch hlaunch
  have hplumbing := plumbing_of_launch hlaunch
  rw [h.plumbing_eq hkey hdrains] at hplumbing
  have hpending : launched.pendingDrains = [(key, reader)] := congrArg (·.2.2) hplumbing
  have hbuffer : launched.stdoutBuffer = some key := congrArg (·.1) hplumbing
  rw [commenceDrains_of_pendingDrains hpending] at hv
  obtain ⟨htarget, houtput⟩ := h.output_eq hleaves.descriptors hrespects.grows
  have hdrained : v.Drains ⟨key, reader⟩ channel front (u.host.world.channel channel) := by
    refine h.drains horderly hkey hfront hleaves.descriptors hrespects.grows
      ((hrunsOut.whole channel htarget).mono (Nat.le_max_right _ _)) ?_ ?_ ?_ <;> rw [← hv]
    · rfl
    · simp only [commence, revert, hleaves.buffers]
    · simp only [commence, revert, hleaves.pumps]
  have hspares := (spares_launch hlaunch hrespects).trans (spares_revert u snapshot)
  have hbegun : v.Orderly := by
    rw [← hv]
    exact ((hspares.orderly (h.spares.orderly horderly)).commence
      ((h.gathered horderly hkey hfront).spares hspares).1.there
      (Nat.lt_of_lt_of_le h.host.known hspares.host.next))
  have hhost : s.host.Extends v.host := by
    rw [← hv]
    exact h.host.host.trans hspares.host
  rw [houtput, hbuffer]
  cases waitsFor_of_waitForStage hwait hrunsOut.child with
  | completed hrests =>
    have hbuffers : key ∈ launched.stdoutBuffer.toList ++ launched.stderrBuffer.toList := by
      rw [hbuffer]
      exact List.mem_cons_self
    exact ((hdrained.rests hrests).gathers (hrests.spares.orderly hbegun) hbuffers).after
      (hhost.trans hrests.spares.host)

end Taps

end Session

end ShellEngine
