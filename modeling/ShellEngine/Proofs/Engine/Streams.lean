import ShellEngine.Proofs.Engine.Outcome

/-!
# What putting streams in place leaves alone

Streams are put in place by a few changes, to descriptors and open files on the one side, and to the
snapshot and the stage on the other. A relation that none of them breaks (`Redirect.Course`) holds
between a redirection at its start and what becomes of it, also if it fails. So a stage may get hold
of other buffers and descriptors, but what it is to run stays the same, and so do its child and its
harvester.
-/

namespace ShellEngine

open Machine

/-- A stage but for its buffers and descriptors: what it is to run, the key of its record, and its
child and harvester. -/
def RunningStage.task (r : RunningStage) : Stage × Nat × Option Nat × Option Nat :=
  (r.stage, r.record, r.child, r.harvester)

namespace Redirect

variable {α β : Type}

/-- Whatever a step of a redirection comes to, a relation holds between before and after it. -/
def Keeps (R : Redirecting → Redirecting → Prop) (x : Redirect α) : Prop :=
  ∀ r : Redirecting, R r (x.run.run r).2

/-- A relation between redirections in the making, reflexive and transitive, that holds across each
change that is made while streams are put in place. -/
structure Course (R : Redirecting → Redirecting → Prop) : Prop where
  refl : ∀ r, R r r
  trans : ∀ {r r' r''}, R r r' → R r' r'' → R r r''
  descriptors : ∀ r descriptors, R r { r with host := { r.host with descriptors } }
  pipe : ∀ r, R r { r with host := r.host.pipe.2 }
  opened : ∀ r path os mode, Host.pathBytes path = .ok os →
    R r { r with host := (r.host.openWith fun w s ↦ w.openPath s os mode).2 }
  snapshot : ∀ r snapshot, R r { r with snapshot }
  /-- The stage gets hold of other buffers and descriptors. -/
  stage : ∀ r (stage : RunningStage) nextBuffer, stage.task = r.stage.task →
    R r { r with stage, nextBuffer }

theorem keeps_attempt {R : Redirecting → Redirecting → Prop} (target : String)
    {f : Host → Except Errno α × Host} (hf : ∀ r, R r { r with host := (f r.host).2 }) :
    Keeps R (attempt target f) := by
  intro r
  have hr := hf r
  unfold attempt
  rw [run_run_get_bind]
  rcases hfr : f r.host with ⟨e | a, host⟩ <;> rw [hfr] at hr <;> exact hr

namespace Course

variable {R : Redirecting → Redirecting → Prop} (h : Course R)
include h

theorem bind {x : Redirect α} {f : α → Redirect β} (hx : Keeps R x) (hf : ∀ a, Keeps R (f a)) :
    Keeps R (x >>= f) := by
  intro r
  have hr' := hx r
  rcases hr : x.run.run r with ⟨e | a, r'⟩ <;> rw [hr] at hr'
  · rw [run_run_bind_of_error hr]
    exact hr'
  · rw [run_run_bind_of_ok hr]
    exact h.trans hr' (hf a r')

theorem tryCatch {x : Redirect α} {f : EngineError → Redirect α} (hx : Keeps R x)
    (hf : ∀ e, Keeps R (f e)) : Keeps R (tryCatch x f) := by
  intro r
  have hr' := hx r
  rcases hr : x.run.run r with ⟨e | a, r'⟩ <;> rw [hr] at hr'
  · rw [run_run_tryCatch_of_error hr]
    exact h.trans hr' (hf e r')
  · rw [run_run_tryCatch_of_ok hr]
    exact hr'

theorem pure (a : α) : Keeps R (Pure.pure a) := h.refl

theorem throw (e : EngineError) : Keeps R (throw e : Redirect α) := h.refl

theorem get : Keeps R (get : Redirect Redirecting) := h.refl

theorem openPath (path : String) (mode : OpenMode) : Keeps R (openPath path mode) := by
  unfold Redirect.openPath
  split
  · exact h.throw _
  · rename_i os hos
    exact keeps_attempt path fun r ↦ h.opened r path os mode hos

theorem duplicateTo (target : String) (fd stream : Nat) :
    Keeps R (Redirect.attempt target fun h ↦ h.duplicateTo fd stream) := by
  refine keeps_attempt target fun r ↦ ?_
  unfold Host.duplicateTo
  rcases r.host.descriptors.call with ⟨_ | e, d⟩ <;> exact h.descriptors r _

theorem install (fd stream : Nat) (target : String) (others : List Nat) :
    Keeps R (install fd stream target others) := by
  unfold Redirect.install
  refine h.bind (h.tryCatch (h.duplicateTo _ _ _) fun e ↦ ?_) fun _ r ↦ h.snapshot r _
  exact h.bind (fun r ↦ h.descriptors r _) fun _ ↦ h.throw e

theorem copyStream (source target : Nat) : Keeps R (copyStream source target) :=
  h.bind (h.duplicateTo _ _ _) fun _ r ↦ h.snapshot r _

theorem placeInput : Keeps R placeInput := by
  have hopen (path source : String) :
      Keeps R (openInput path >>= fun fd ↦ Redirect.install fd 0 source []) :=
    h.bind (h.openPath _ _) fun _ ↦ h.install _ _ _ _
  refine h.bind h.get fun r ↦ ?_
  split
  · exact h.pure _
  · exact hopen _ _
  · exact hopen _ _
  · refine h.bind h.get fun r ↦ ?_
    split
    · exact h.bind (fun r ↦ h.stage r _ r.nextBuffer rfl) fun _ ↦ h.install _ _ _ _
    · exact hopen _ _

theorem bufferOf (stream : Nat) : Keeps R (bufferOf stream) := by
  intro r
  unfold Redirect.bufferOf
  rw [run_run_get_bind]
  dsimp only
  split
  · exact h.refl r
  · split <;> exact h.stage r _ _ rfl

theorem placeOutput (target : Output) (stream : Nat) : Keeps R (placeOutput target stream) := by
  have hopen (path : String) (appends : Bool) :
      Keeps R (openOutput path appends >>= fun fd ↦ Redirect.install fd stream path []) :=
    h.bind (h.openPath _ _) fun _ ↦ h.install _ _ _ _
  unfold Redirect.placeOutput
  split
  · exact h.pure _
  · exact h.pure _
  · exact hopen _ _
  · exact hopen _ _
  · exact hopen _ _
  · split
    · refine h.bind (keeps_attempt _ h.pipe) fun (_, _) ↦ ?_
      exact h.bind (h.install _ _ _ _) fun _ r ↦ h.snapshot r _
    · exact h.pure _
  · refine h.bind (keeps_attempt _ h.pipe) fun (_, _) ↦ ?_
    refine h.bind (h.install _ _ _ _) fun _ ↦ ?_
    exact h.bind (h.bufferOf _) fun _ r ↦ h.stage r _ r.nextBuffer rfl

theorem placeStreams : Keeps R placeStreams := by
  refine h.bind h.placeInput fun _ ↦ h.bind h.get fun r ↦ ?_
  dsimp only
  split
  · exact h.pure _
  · exact h.bind (h.placeOutput _ _) fun _ ↦ h.copyStream _ _
  · exact h.bind (h.placeOutput _ _) fun _ ↦ h.copyStream _ _
  · exact h.bind (h.placeOutput _ _) fun _ ↦ h.placeOutput _ _

end Course

/-- A redirection in the making leaves alone all of the stage but its buffers and descriptors. -/
theorem course_task : Course fun r r' ↦ r'.stage.task = r.stage.task where
  refl _ := rfl
  trans h h' := h'.trans h
  descriptors _ _ := rfl
  pipe _ := rfl
  opened _ _ _ _ _ := rfl
  snapshot _ _ := rfl
  stage _ _ _ htask := htask

/-- A redirection leaves alone all of a stage but its buffers and descriptors. -/
theorem task_apply (h : Host) (c : Cancellation) (stage : RunningStage) (nextBuffer : Nat)
    (routes : Bool) : (apply h c stage nextBuffer routes).stage.task = stage.task := by
  unfold apply
  -- What is put back when it fails belongs to the host; the stage is as `placeStreams` left it.
  rcases Snapshot.capture h with ⟨snapshot, host⟩
  have hplaced := course_task.placeStreams { host, stage, snapshot, nextBuffer }
  rcases hrun : placeStreams.run.run { host, stage, snapshot, nextBuffer } with ⟨e | _, r⟩ <;>
    rw [hrun] at hplaced
  all_goals
    change (placeStreams.run { host, stage, snapshot, nextBuffer }).run = _ at hrun
    dsimp only
    rw [hrun]
    exact hplaced

end Redirect

namespace Session

theorem task_redirect (s : Session) (stage : RunningStage) (routes : Bool) :
    (s.redirect stage routes).2.1.task = stage.task :=
  Redirect.task_apply _ _ _ _ _

theorem stage_redirect (s : Session) (stage : RunningStage) (routes : Bool) :
    (s.redirect stage routes).2.1.stage = stage.stage :=
  congrArg Prod.fst (s.task_redirect stage routes)

/-- Drains what a builtin writes for the next stage into a buffer. -/
def hold (s : Session) (reader : Option Nat) : Session :=
  match reader with
  | none => s
  | some reader => s.addBuffer.2.commence s.addBuffer.1 reader

end Session

/-! ## Steps of the session -/

namespace PlanAction

theorem gives_redirect (index : Nat) (r : RunningStage) (routes : Bool) (a : Situation) :
    (redirect index r routes).Gives a
      ((a.2.redirect r routes).1.map (·, (a.2.redirect r routes).2.1))
      (withStage a.1 index (a.2.redirect r routes).2.1, (a.2.redirect r routes).2.2) := rfl

theorem gives_commenceDrains (index : Nat) (r : RunningStage) (a : Situation) :
    (commenceDrains index r).Gives a (a.2.commenceDrains r).1
      (withStage a.1 index (a.2.commenceDrains r).1, (a.2.commenceDrains r).2) := rfl

theorem gives_hold (reader : Option Nat) (a : Situation) :
    (reader.mapM fun reader ↦ ask fun s ↦
      (s.addBuffer.1, s.addBuffer.2.commence s.addBuffer.1 reader)).Gives a
        (reader.map fun _ ↦ a.2.buffers.size) (a.1, a.2.hold reader) := by
  cases reader <;> rfl

end PlanAction

end ShellEngine
