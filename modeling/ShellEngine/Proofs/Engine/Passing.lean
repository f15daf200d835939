import ShellEngine.Proofs.Engine.Cancelled
import ShellEngine.Proofs.Engine.Gathering

/-!
# What running a stage gathers

A stage whose standard output goes to a buffer adds what it prints to the bytes that were gathered,
in the last buffer or, if there was none, in a new one; any other stage leaves them alone
(`passes_of_runsStage`). The stages behind it stay as they were, but for inputs that they are handed.

A stage that is refused because of a redirection adds nothing; the plan ends with it, so that nobody
asks for its buffer.
-/

namespace ShellEngine

open Machine

namespace PlanAction

open Session

variable {index : Nat} {a b c : Situation} {r : RunningStage}

/-! ## Stages that were not begun -/

/-- The stages from an index on hold on to nothing but inputs. -/
def Pending (index : Nat) (a : Situation) : Prop :=
  ∀ j r, index ≤ j → a.1.plan.stages[j]? = some r →
    r.unfed = { stage := r.stage, record := r.record } ∧
      ∀ fd, r.pipedInput = some fd → fd < a.2.host.descriptors.next

theorem Pending.mono {later : Nat} (h : Pending index a) (hle : index ≤ later) :
    Pending later a :=
  fun j r hj hr ↦ h j r (Nat.le_trans hle hj) hr

theorem Pending.extends {p : PlanState} {s t : Session} (h : Pending index (p, s))
    (hhost : s.host.Extends t.host) : Pending index (p, t) := fun j r hj hr ↦ by
  obtain ⟨hunfed, hinput⟩ := h j r hj hr
  exact ⟨hunfed, fun fd hfd ↦ Nat.lt_of_lt_of_le (hinput fd hfd) hhost.next⟩

theorem getElem?_withStage_self {p : PlanState} (hr : p.plan.stages[index]? = some r)
    (new : RunningStage) : (withStage p index new).plan.stages[index]? = some new := by
  rw [withStage, Array.getElem?_modify, if_pos rfl, hr]
  rfl

theorem getElem?_withStage_of_ne {p : PlanState} {j : Nat} (hne : index ≠ j) (new : RunningStage) :
    (withStage p index new).plan.stages[j]? = p.plan.stages[j]? := by
  rw [withStage, Array.getElem?_modify, if_neg hne]

theorem Pending.withStage {p : PlanState} {s : Session} (h : Pending (index + 1) (p, s))
    (new : RunningStage) : Pending (index + 1) (withStage p index new, s) := fun j r hj hr ↦ by
  refine h j r hj ?_
  rwa [← getElem?_withStage_of_ne (Nat.ne_of_lt hj) new]

/-! ## Stages that add nothing -/

/-- Buffers that were settled were left alone, and so was the buffer of the stage. -/
structure Idles (index : Nat) (a b : Situation) : Prop where
  spares : Spares a.2 b.2
  pending : Pending (index + 1) a → Pending (index + 1) b
  lastBuffer : b.1.lastBuffer = a.1.lastBuffer
  buffer : b.1.plan.stages[index]?.map RunningStage.stdoutBuffer
    = a.1.plan.stages[index]?.map RunningStage.stdoutBuffer

namespace Idles

theorem refl (index : Nat) (a : Situation) : Idles index a a := ⟨.refl _, id, rfl, rfl⟩

theorem trans (h : Idles index a b) (h' : Idles index b c) : Idles index a c where
  spares := h.spares.trans h'.spares
  pending := h'.pending ∘ h.pending
  lastBuffer := h'.lastBuffer.trans h.lastBuffer
  buffer := h'.buffer.trans h.buffer

theorem of_spares {p : PlanState} {s t : Session} (h : Spares s t) : Idles index (p, s) (p, t) :=
  ⟨h, fun hpending ↦ hpending.extends h.host, rfl, rfl⟩

theorem withStage {p : PlanState} {s t : Session} {new : RunningStage}
    (hr : p.plan.stages[index]? = some r) (hnew : new.stdoutBuffer = r.stdoutBuffer)
    (h : Spares s t) : Idles index (p, s) (withStage p index new, t) where
  spares := h
  pending hpending := (hpending.withStage new).extends h.host
  lastBuffer := rfl
  buffer := by
    rw [getElem?_withStage_self hr, hr]
    exact congrArg some hnew

theorem handsOff {reader : Option Nat} (h : HandsOff index a reader b)
    (hreader : ∀ fd, reader = some fd → fd < a.2.host.descriptors.next) : Idles index a b := by
  cases h with
  | nothing => exact .refl index a
  | dropped => exact .of_spares (spares_closeDescriptor _ _)
  | @handed fd next hnext =>
    have hspares := spares_foldl_closeDescriptor a.2 next.pipedInput.toList
    refine ⟨hspares, fun hpending ↦ ?_, rfl, ?_⟩
    · refine Pending.extends (fun j r hj hr ↦ ?_) hspares.host
      by_cases hj' : index + 1 = j
      · subst hj'
        rw [getElem?_withStage_self hnext] at hr
        obtain rfl := Option.some.inj hr
        exact ⟨(hpending _ next (Nat.le_refl _) hnext).1, hreader⟩
      · rw [getElem?_withStage_of_ne hj'] at hr
        exact hpending j r hj hr
    · rw [getElem?_withStage_of_ne (Nat.succ_ne_self index)]

end Idles

/-! ## Outputs that go elsewhere -/

section Elsewhere

variable {result : Except EngineError StageResult}

theorem commenceDrains_of_nil {r : RunningStage} (h : r.pendingDrains = []) (s : Session) :
    (s.commenceDrains r).2 = s := by
  unfold Session.commenceDrains
  rw [h]
  rfl

def IsRefusal (result : Except EngineError StageResult) : Prop :=
  ∃ e, result = .error e ∧ e.isRedirection = true

/-- A stage was refused, and added nothing. -/
structure Refuses (index : Nat) (a : Situation) (result : Except EngineError StageResult)
    (b : Situation) : Prop where
  refused : IsRefusal result
  spares : Spares a.2 b.2
  lastBuffer : b.1.lastBuffer = a.1.lastBuffer

theorem refuses_of_misplaces {routes : Bool} {placed : RunningStage} {s : Session} {e : EngineError}
    (hplaced : a.2.redirect r routes = (.error e, placed, s))
    (hmisplaces : a.2.Misplaces (.error e) s) :
    Refuses index a (.error e) (withStage a.1 index placed, s) := by
  have hspares := spares_of_misplaces hplaced hmisplaces
  obtain ⟨e', he, hredirection, -⟩ := hmisplaces
  exact ⟨⟨e, rfl, Except.error.inj he ▸ hredirection⟩, hspares, rfl⟩

/-- A stage none of whose outputs goes to a buffer. -/
structure Unbuffered (r : RunningStage) : Prop where
  stdout : r.stage.stdout ≠ .buffer
  stderr : r.stage.stderr ≠ .buffer
  drains : r.pendingDrains = []

section

variable {s t : Session} {placed : RunningStage} {snapshot : Snapshot}

theorem Unbuffered.of_places (hunbuffered : Unbuffered r) (h : s.Places r placed snapshot t) :
    placed.stdoutBuffer = r.stdoutBuffer ∧ placed.pendingDrains = [] := by
  have hplaced : placed.plumbing = r.plumbing := (congrArg RunningStage.plumbing h.stage :)
  exact ⟨congrArg (·.1) hplaced, (congrArg (·.2.2) hplaced).trans hunbuffered.drains⟩

/-- A redirection of a stage none of whose outputs goes to a buffer. -/
theorem Unbuffered.places (hunbuffered : Unbuffered r) (horderly : s.Orderly) {routes : Bool}
    (h : s.redirect r routes = (.ok snapshot, placed, t)) : s.Places r placed snapshot t := by
  rcases redirect_of_ne h hunbuffered.stdout hunbuffered.stderr horderly.host with
    ⟨_, hok, -⟩ | ⟨_, hok, hplaces⟩
  · cases hok
  · obtain rfl := Except.ok.inj hok
    exact hplaces

theorem Unbuffered.refuses (hunbuffered : Unbuffered r) (horderly : a.2.Orderly) {routes : Bool}
    {e : EngineError} (h : a.2.redirect r routes = (.error e, placed, t)) :
    Refuses index a (.error e) (withStage a.1 index placed, t) := by
  rcases redirect_of_ne h hunbuffered.stdout hunbuffered.stderr horderly.host with
    hmisplaces | ⟨_, hok, -⟩
  · exact refuses_of_misplaces h hmisplaces
  · cases hok

theorem spares_of_run {u : Session} {cmd : Builtin} {args : List String}
    {result : Except Crash Int} (h : s.Places r placed snapshot t)
    (hdrains : placed.pendingDrains = [])
    (hrun : (cmd.run args).outcome ((t.hold snapshot.nextInput).commenceDrains placed).2
      = (result, u)) (snapshot' : Snapshot) (buffers : List Nat) :
    Spares s ((u.revert snapshot').finalize buffers) := by
  rw [commenceDrains_of_nil hdrains] at hrun
  have hwrites := Writes.chore.run cmd args (t.hold snapshot.nextInput)
  rw [Action.Keeps, hrun] at hwrites
  exact h.spares.trans ((spares_hold t h.nextInput).trans (hwrites.spares.trans
    ((spares_revert u snapshot').trans (spares_finalize _ buffers))))

end

theorem RunsBuiltin.idles {cmd : Builtin} (h : RunsBuiltin index r cmd a result b)
    (hr : a.1.plan.stages[index]? = some r) (horderly : a.2.Orderly)
    (hunbuffered : Unbuffered r) : Refuses index a result b ∨ Idles index a b := by
  cases h with
  | misplaced hplaced =>
    exact Or.inl (hunbuffered.refuses horderly hplaced)
  | ran hplaced hrun hinput =>
    have hplaces := hunbuffered.places horderly hplaced
    obtain ⟨hbuffer, hdrains⟩ := hunbuffered.of_places hplaces
    exact Or.inr (.withStage hr hbuffer (spares_of_run hplaces hdrains hrun _ _))
  | @piped _ placed _ _ _ _ _ replayed _ hplaced hrun hinput hreplay hhand =>
    have hplaces := hunbuffered.places horderly hplaced
    obtain ⟨hbuffer, hdrains⟩ := hunbuffered.of_places hplaces
    obtain ⟨hreplayed, hreader⟩ := spares_replay hreplay
    have hspares := (spares_of_run hplaces hdrains hrun _ _).trans hreplayed
    refine Or.inr (.trans ?_ (.handsOff hhand fun fd hfd ↦ hreader fd ?_))
    · exact .withStage hr hbuffer hspares
    · cases replayed with
      | error e => cases hfd
      | ok reader => exact congrArg Except.ok (Option.some.inj hfd)

theorem spares_of_launches {s t : Session} {target : String} {snapshot : Snapshot}
    {ready : RunningStage} (h : Launches s r target snapshot ready t) (horderly : s.Orderly)
    (hunbuffered : Unbuffered r) (hname : Builtin.ofName? r.stage.program = none)
    (htarget : target? s r = some target) (hbehaves : s.Behaves r) :
    Spares s t ∧ ready.stdoutBuffer = r.stdoutBuffer ∧
      ∀ fd, snapshot.nextInput = some fd → fd < t.host.descriptors.next := by
  obtain ⟨placed, launched, s₁, s₂, hplaced, hlaunched, rfl, rfl⟩ := h.exists_launch
  have hplaces := hunbuffered.places horderly hplaced
  have hrespects := (hbehaves target _ _ _ _ _ _ hname htarget hplaced hlaunched).1
  have hplumbing := plumbing_of_launch hlaunched
  obtain ⟨hbuffer, hdrains⟩ := hunbuffered.of_places hplaces
  have hspares := (spares_launch hlaunched hrespects).trans
    (spares_revert s₂ { snapshot with nextInput := none })
  rw [commenceDrains_of_nil ((congrArg (·.2.2) hplumbing).trans hdrains)]
  exact ⟨hplaces.spares.trans hspares, (congrArg (·.1) hplumbing).trans hbuffer,
    fun fd hfd ↦ Nat.lt_of_lt_of_le (hplaces.nextInput fd hfd) hspares.host.next⟩

theorem Awaits.idles {waited : Except EngineError Int} (h : Awaits index r a waited b)
    (hr : a.1.plan.stages[index]? = some r) (hchild : r.child ≠ none)
    (hunsignaled : b.2.cancellation.signaled = false) : Idles index a b := by
  cases h with
  | lost hwait =>
    cases waitsFor_of_waitForStage hwait hchild with
    | lost hrests => exact .of_spares hrests.spares
  | completed hwait =>
    cases waitsFor_of_waitForStage hwait hchild with
    | completed hrests => exact .of_spares (hrests.spares.trans (spares_finalize _ _))
  | cancelled hwait =>
    cases waitsFor_of_waitForStage hwait hchild with
    | cancelled hsignaled =>
      rw [hsignaled] at hunsignaled
      cases hunsignaled
  | @backgrounded t text hwait =>
    cases waitsFor_of_waitForStage hwait hchild with
    | backgrounded hrests =>
      refine .withStage hr rfl (hrests.spares.trans ((spares_say t 2 text).trans ?_))
      exact .of_host (.refl _) rfl rfl

theorem cancellation_foldl_closeDescriptor (fds : List Nat) (s : Session) :
    (fds.foldl closeDescriptor s).cancellation = s.cancellation := by
  induction fds generalizing s with
  | nil => rfl
  | cons fd fds ih => exact ih _

theorem HandsOff.cancellation_eq {reader : Option Nat} (h : HandsOff index a reader b) :
    b.2.cancellation = a.2.cancellation := by
  cases h with
  | nothing => rfl
  | dropped => rfl
  | handed => exact cancellation_foldl_closeDescriptor _ _

theorem RunsProgram.idles {target : String} (h : RunsProgram index r target a result b)
    (hr : a.1.plan.stages[index]? = some r) (horderly : a.2.Orderly)
    (hunbuffered : Unbuffered r) (hname : Builtin.ofName? r.stage.program = none)
    (htarget : target? a.2 r = some target) (hbehaves : a.2.Behaves r)
    (hunsignaled : b.2.cancellation.signaled = false) :
    Refuses index a result b ∨ Idles index a b := by
  cases h with
  | misplaced hplaced =>
    exact Or.inl (hunbuffered.refuses horderly hplaced)
  | @unlaunched e snapshot placed launched s t hplaced hlaunched =>
    have hplaces := hunbuffered.places horderly hplaced
    have hrespects := (hbehaves target _ _ _ _ _ _ hname htarget hplaced hlaunched).1
    have hplumbing := plumbing_of_launch hlaunched
    refine Or.inr (.withStage hr ((congrArg (·.1) hplumbing).trans
      (hunbuffered.of_places hplaces).1) (hplaces.spares.trans ?_))
    exact (spares_launch hlaunched hrespects).trans ((spares_revert t _).trans
      (spares_foldl_closeDescriptor _ _))
  | @unattended snapshot ready t _ hlaunches hidle hhand =>
    obtain ⟨hspares, hbuffer, hinput⟩ :=
      spares_of_launches hlaunches horderly hunbuffered hname htarget hbehaves
    exact Or.inr ((Idles.withStage hr hbuffer hspares).trans (.handsOff hhand hinput))
  | @lost snapshot ready t e c hlaunches hwaits hchild hwait =>
    obtain ⟨hspares, hbuffer, -⟩ :=
      spares_of_launches hlaunches horderly hunbuffered hname htarget hbehaves
    rw [cancellation_foldl_closeDescriptor] at hunsignaled
    have hidles := hwait.idles (getElem?_withStage_self hr ready) hchild hunsignaled
    exact Or.inr (((Idles.withStage hr hbuffer hspares).trans hidles).trans
      (.of_spares (spares_foldl_closeDescriptor _ _)))
  | @attended snapshot ready t code _ c hlaunches hwaits hchild hwait hhand =>
    obtain ⟨hspares, hbuffer, hinput⟩ :=
      spares_of_launches hlaunches horderly hunbuffered hname htarget hbehaves
    have hidles := hwait.idles (getElem?_withStage_self hr ready) hchild
      (hhand.cancellation_eq ▸ hunsignaled)
    exact Or.inr (((Idles.withStage hr hbuffer hspares).trans hidles).trans
      (.handsOff hhand fun fd hfd ↦ Nat.lt_of_lt_of_le (hinput fd hfd) hidles.spares.host.next))

end Elsewhere

/-! ## Outputs that go to a buffer -/

section Buffered

variable {result : Except EngineError StageResult} {last : Option Nat} {front : Bytes}

/-- A stage was run, and these bytes are what is gathered now. If it was refused, they lie in the
last buffer from before; otherwise in that of the stage, if it has one. -/
structure Passes (index : Nat) (a : Situation) (last : Option Nat) (bs : Bytes)
    (result : Except EngineError StageResult) (b : Situation) : Prop where
  orderly : b.2.Orderly
  lastBuffer : b.1.lastBuffer = a.1.lastBuffer
  refused : IsRefusal result → b.2.Gathered last bs
  passed : ¬ IsRefusal result → Pending (index + 1) b ∧
    ∃ r, b.1.plan.stages[index]? = some r ∧
      (∀ key, r.stdoutBuffer = some key → r.stage.waits = true) ∧
      b.2.Gathered (r.stdoutBuffer.or last) bs

theorem Refuses.passes (h : Refuses index a result b) (horderly : a.2.Orderly)
    (hfront : a.2.Gathered last front) : Passes index a last front result b where
  orderly := h.spares.orderly horderly
  lastBuffer := h.lastBuffer
  refused _ := hfront.spares h.spares
  passed hpassed := absurd h.refused hpassed

theorem Idles.passes (h : Idles index a b) (horderly : a.2.Orderly)
    (hpending : Pending (index + 1) a) (hr : a.1.plan.stages[index]? = some r)
    (hbuffer : r.stdoutBuffer = none) (hfront : a.2.Gathered last front) :
    Passes index a last front result b where
  orderly := h.spares.orderly horderly
  lastBuffer := h.lastBuffer
  refused _ := hfront.spares h.spares
  passed _ := by
    have hstays := h.buffer
    rw [hr, Option.map_some, hbuffer] at hstays
    obtain ⟨r', hr', hnone⟩ := Option.map_eq_some_iff.mp hstays
    refine ⟨h.pending hpending, r', hr', fun key hkey ↦ ?_, ?_⟩
    · rw [hnone] at hkey
      cases hkey
    · rw [hnone]
      exact hfront.spares h.spares

/-- A stage whose standard output goes to a buffer, and which goes on where the last one ended. -/
structure Buffered (r : RunningStage) (last : Option Nat) : Prop where
  stdout : r.stage.stdout = .buffer
  stderr : r.stage.stderr ≠ .buffer
  waits : r.stage.waits = true
  drains : r.pendingDrains = []
  stdoutBuffer : r.stdoutBuffer = last

section

variable {s t : Session} {placed : RunningStage} {snapshot : Snapshot}

/-- A redirection of a stage whose standard output goes to a buffer. -/
theorem Buffered.exists_taps (hbuffered : Buffered r last) (horderly : s.Orderly)
    (hinput : ∀ fd, r.pipedInput = some fd → fd < s.host.descriptors.next) {routes : Bool}
    (h : s.redirect r routes = (.ok snapshot, placed, t)) :
    ∃ reader channel, s.Taps r placed snapshot reader channel t := by
  rcases redirect_of_buffer h hbuffered.stdout hbuffered.stderr horderly.host hinput with
    ⟨_, hok, -⟩ | ⟨_, reader, channel, hok, htaps⟩
  · cases hok
  · obtain rfl := Except.ok.inj hok
    exact ⟨reader, channel, htaps⟩

theorem Buffered.refuses (hbuffered : Buffered r last) (horderly : a.2.Orderly)
    (hinput : ∀ fd, r.pipedInput = some fd → fd < a.2.host.descriptors.next) {routes : Bool}
    {e : EngineError} (h : a.2.redirect r routes = (.error e, placed, t)) :
    Refuses index a (.error e) (withStage a.1 index placed, t) := by
  rcases redirect_of_buffer h hbuffered.stdout hbuffered.stderr horderly.host hinput with
    hmisplaces | ⟨_, _, _, hok, -⟩
  · exact refuses_of_misplaces h hmisplaces
  · cases hok

end

theorem passes_of_gathers {new : RunningStage} {t : Session} {bs : Bytes}
    (hpending : Pending (index + 1) a) (hr : a.1.plan.stages[index]? = some r)
    (hgathers : a.2.Gathers new.stdoutBuffer bs t) (hsome : new.stdoutBuffer ≠ none)
    (hwaits : new.stage.waits = true) (hrefusal : IsRefusal result → t.Gathered last bs) :
    Passes index a last bs result (withStage a.1 index new, t) where
  orderly := hgathers.orderly
  lastBuffer := rfl
  refused := hrefusal
  passed _ := by
    refine ⟨(hpending.withStage new).extends hgathers.host, new, getElem?_withStage_self hr new,
      fun _ _ ↦ hwaits, ?_⟩
    obtain ⟨key, hkey⟩ := Option.ne_none_iff_exists'.mp hsome
    have hgathered := hgathers.gathered
    rw [hkey] at hgathered ⊢
    exact hgathered

/-- A builtin whose output goes to a buffer adds what it prints. -/
theorem RunsBuiltin.passes {cmd : Builtin} (h : RunsBuiltin index r cmd a result b)
    (hname : Builtin.ofName? r.stage.program = some cmd)
    (hr : a.1.plan.stages[index]? = some r) (horderly : a.2.Orderly)
    (hpending : Pending (index + 1) a)
    (hinput : ∀ fd, r.pipedInput = some fd → fd < a.2.host.descriptors.next)
    (hbuffered : Buffered r last) (hfront : a.2.Gathered last front) :
    Passes index a last (front ++ (a.2.printed r).toBytes) result b := by
  have hprinted : a.2.printed r = a.2.printedBy r cmd := by rw [printed, hname]
  rw [hprinted]
  cases h with
  | misplaced hplaced =>
    rw [printedBy, hplaced, Octets.toBytes, List.map_nil, List.append_nil]
    exact (hbuffered.refuses horderly hinput hplaced).passes horderly hfront
  | @ran snapshot placed s t code hplaced hrun hnone =>
    obtain ⟨reader, channel, htaps⟩ := hbuffered.exists_taps horderly hinput hplaced
    rw [printedBy, hplaced]
    dsimp only
    rw [hrun, snapshot_eq_of_nextInput hnone]
    rw [hnone] at hrun
    refine passes_of_gathers hpending hr (htaps.gathers_of_run horderly
      (hbuffered.stdoutBuffer ▸ hfront) hbuffered.drains hrun) ?_ ?_ fun hrefusal ↦ ?_
    · exact htaps.stdoutBuffer_ne_none
    · exact (congrArg Stage.waits htaps.stage_eq).trans hbuffered.waits
    · obtain ⟨_, herror, -⟩ := hrefusal
      cases herror
  | piped hplaced hrun hsome =>
    obtain ⟨_, _, htaps⟩ := hbuffered.exists_taps horderly hinput hplaced
    rw [htaps.nextInput] at hsome
    cases hsome

/-- A program that was launched with its output going to a buffer runs out, and then what it printed
is gathered. -/
theorem Buffered.completes {target : String} {snapshot : Snapshot} {ready : RunningStage}
    {t : Session} (hbuffered : Buffered r last)
    (hlaunches : Launches a.2 r target snapshot ready t)
    (hname : Builtin.ofName? r.stage.program = none) (htarget : target? a.2 r = some target)
    (horderly : a.2.Orderly)
    (hinput : ∀ fd, r.pipedInput = some fd → fd < a.2.host.descriptors.next)
    (hfront : a.2.Gathered last front) (hbehaves : a.2.Behaves r) : ∃ status w,
      t.waitForStage ready = (.ok (.completed status), w) ∧ snapshot.nextInput = none ∧
      ready.stage.waits = true ∧ ready.child ≠ none ∧ ready.stdoutBuffer ≠ none ∧
      a.2.Gathers ready.stdoutBuffer (front ++ (a.2.printedFrom r target).toBytes) w := by
  have hwaits := hlaunches.waits_eq.trans hbuffered.waits
  obtain ⟨placed, launched, s₁, s₂, hplaced, hlaunch, rfl, rfl⟩ := hlaunches.exists_launch
  obtain ⟨hrespects, hrunsOut⟩ := hbehaves target _ _ _ _ _ _ hname htarget hplaced hlaunch
  have hout := hrunsOut rfl hbuffered.stdout
  obtain ⟨status, w, hwait⟩ := hout.completes
  obtain ⟨reader, channel, htaps⟩ := hbuffered.exists_taps horderly hinput hplaced
  rw [snapshot_eq_of_nextInput htaps.nextInput] at hwait ⊢
  have hbuffer : launched.stdoutBuffer = placed.stdoutBuffer :=
    congrArg (·.1) (plumbing_of_launch hlaunch)
  refine ⟨status, w, hwait, htaps.nextInput, hwaits, hout.child,
    hbuffer ▸ htaps.stdoutBuffer_ne_none, ?_⟩
  rw [printedFrom, hplaced]
  dsimp only
  rw [hlaunch]
  exact htaps.gathers_of_wait horderly (hbuffered.stdoutBuffer ▸ hfront) hbuffered.drains
    hlaunch hrespects hout rfl hwait

/-- A program that could not be launched adds nothing, and leaves its stage a buffer. -/
theorem Buffered.passes_of_unlaunched {target : String} {e : EngineError} {snapshot : Snapshot}
    {placed launched : RunningStage} {s t : Session} (hbuffered : Buffered r last)
    (hplaced : a.2.redirect r false = (.ok snapshot, placed, s))
    (hlaunch : s.launch placed target = (.error e, launched, t))
    (hr : a.1.plan.stages[index]? = some r) (horderly : a.2.Orderly)
    (hpending : Pending (index + 1) a)
    (hinput : ∀ fd, r.pipedInput = some fd → fd < a.2.host.descriptors.next)
    (hfront : a.2.Gathered last front) (hrespects : s.host.world.Respects t.host.world) :
    Passes index a last front (.error e)
      (withStage a.1 index { launched with pendingDrains := [] },
        (snapshot.nextInput.toList ++ launched.pendingDrains.map (·.2)).foldl closeDescriptor
          (t.revert { snapshot with nextInput := none })) := by
  obtain ⟨reader, channel, htaps⟩ := hbuffered.exists_taps horderly hinput hplaced
  have hspares := (spares_launch hlaunch hrespects).trans
    ((spares_revert t { snapshot with nextInput := none }).trans
      (spares_foldl_closeDescriptor _
        (snapshot.nextInput.toList ++ launched.pendingDrains.map (·.2))))
  have hplumbing := plumbing_of_launch hlaunch
  have hwaits := waits_of_launch hlaunch
  rw [htaps.stage_eq, hbuffered.waits] at hwaits
  rw [htaps.plumbing_eq rfl hbuffered.drains] at hplumbing
  have hbuffer : launched.stdoutBuffer = some _ := congrArg (·.1) hplumbing
  have hgathered := (htaps.gathered horderly rfl (hbuffered.stdoutBuffer ▸ hfront)).spares hspares
  refine passes_of_gathers hpending hr ⟨htaps.spares.host.trans hspares.host,
    hspares.orderly (htaps.spares.orderly horderly), hbuffer ▸ hgathered⟩ ?_ hwaits fun _ ↦ ?_
  · rw [hbuffer]
    exact Option.some_ne_none _
  · exact hfront.spares (htaps.spares.trans hspares)

/-- A program whose output goes to a buffer adds what it prints. -/
theorem RunsProgram.passes {target : String} (h : RunsProgram index r target a result b)
    (hname : Builtin.ofName? r.stage.program = none) (htarget : target? a.2 r = some target)
    (hr : a.1.plan.stages[index]? = some r) (horderly : a.2.Orderly)
    (hpending : Pending (index + 1) a)
    (hinput : ∀ fd, r.pipedInput = some fd → fd < a.2.host.descriptors.next)
    (hbuffered : Buffered r last) (hfront : a.2.Gathered last front) (hbehaves : a.2.Behaves r) :
    Passes index a last (front ++ (a.2.printed r).toBytes) result b := by
  have hprinted : a.2.printed r = a.2.printedFrom r target := by rw [printed, hname, htarget]
  rw [hprinted]
  have hcompletes {snapshot : Snapshot} {ready : RunningStage} {t : Session}
      (hlaunches : Launches a.2 r target snapshot ready t) :=
    hbuffered.completes hlaunches hname htarget horderly hinput hfront hbehaves
  cases h with
  | misplaced hplaced =>
    rw [printedFrom, hplaced, Octets.toBytes, List.map_nil, List.append_nil]
    exact (hbuffered.refuses horderly hinput hplaced).passes horderly hfront
  | unlaunched hplaced hlaunch =>
    have hrespects := (hbehaves target _ _ _ _ _ _ hname htarget hplaced hlaunch).1
    have hnothing : a.2.printedFrom r target = [] := by
      rw [printedFrom, hplaced]
      dsimp only
      rw [hlaunch]
    rw [hnothing, Octets.toBytes, List.map_nil, List.append_nil]
    exact hbuffered.passes_of_unlaunched hplaced hlaunch hr horderly hpending hinput hfront
      hrespects
  | unattended hlaunches hidle =>
    obtain ⟨-, -, -, -, hwaits, hchild, -⟩ := hcompletes hlaunches
    rcases hidle with hidle | hidle
    · rw [hwaits] at hidle
      cases hidle
    · exact absurd hidle hchild
  | lost hlaunches _ _ hwait =>
    obtain ⟨status, w, hcompleted, -⟩ := hcompletes hlaunches
    cases hwait with
    | lost hlost =>
      rw [hcompleted] at hlost
      cases hlost
  | @attended snapshot ready t code _ c hlaunches _ _ hwait hhand =>
    obtain ⟨status, w, hcompleted, hnone, hwaits, -, hbuffer, hgathers⟩ := hcompletes hlaunches
    rw [hnone] at hhand
    cases hhand
    cases hwait with
    | completed hwait =>
      rw [hcompleted] at hwait
      obtain ⟨-, rfl⟩ := Prod.mk.inj hwait
      refine passes_of_gathers hpending hr hgathers hbuffer hwaits fun hrefusal ↦ ?_
      obtain ⟨_, herror, -⟩ := hrefusal
      cases herror
    | cancelled hwait =>
      rw [hcompleted] at hwait
      cases hwait
    | backgrounded hwait =>
      rw [hcompleted] at hwait
      cases hwait

/-- **A stage adds what it prints** to the bytes that were gathered, if its output goes to a buffer,
and nothing otherwise. -/
theorem passes_of_runsStage (h : RunsStage index a result b)
    (hr : a.1.plan.stages[index]? = some r) (horderly : a.2.Orderly)
    (hpending : Pending (index + 1) a)
    (hinput : ∀ fd, r.pipedInput = some fd → fd < a.2.host.descriptors.next)
    (hready : Buffered r last ∨ Unbuffered r ∧ r.stdoutBuffer = none)
    (hfront : a.2.Gathered last front) (hbehaves : a.2.Behaves r)
    (hunsignaled : b.2.cancellation.signaled = false) (hhere : result ≠ .ok .delegated) :
    Passes index a last (front ++ (a.2.added r).toBytes) result b := by
  have hsame {r' : RunningStage} (hr' : a.1.plan.stages[index]? = some r') : r' = r :=
    Option.some.inj (hr'.symm.trans hr)
  rcases hready with hbuffered | ⟨hunbuffered, hnone⟩
  · rw [added, if_pos hbuffered.stdout]
    cases h with
    | builtin hr' hname hrun =>
      obtain rfl := hsame hr'
      exact hrun.passes hname hr horderly hpending hinput hbuffered hfront
    | program hr' hname htarget hrun =>
      obtain rfl := hsame hr'
      exact hrun.passes hname htarget hr horderly hpending hinput hbuffered hfront hbehaves
    | delegated hr' _ _ _ hwaits =>
      obtain rfl := hsame hr'
      rw [hbuffered.waits] at hwaits
      cases hwaits
    | notFound hr' hname htarget =>
      obtain rfl := hsame hr'
      rw [printed, hname, htarget, Octets.toBytes, List.map_nil, List.append_nil]
      refine ⟨horderly, rfl, fun _ ↦ hfront, fun _ ↦ ⟨hpending, _, hr, fun _ _ ↦ hbuffered.waits, ?_⟩⟩
      rw [hbuffered.stdoutBuffer, Option.or_self]
      exact hfront
    | absent habsent =>
      rw [hr] at habsent
      cases habsent
  · rw [added, if_neg hunbuffered.stdout, Octets.toBytes, List.map_nil, List.append_nil]
    have hpasses (h : Refuses index a result b ∨ Idles index a b) :
        Passes index a last front result b :=
      h.elim (·.passes horderly hfront) (·.passes horderly hpending hr hnone hfront)
    cases h with
    | builtin hr' _ hrun =>
      obtain rfl := hsame hr'
      exact hpasses (hrun.idles hr horderly hunbuffered)
    | program hr' hname htarget hrun =>
      obtain rfl := hsame hr'
      exact hpasses (hrun.idles hr horderly hunbuffered hname htarget hbehaves hunsignaled)
    | @delegated r' delegated t _ _ _ _ _ hdelegate =>
      rcases a.2.delegate_cases r'.stage.text with ⟨e, hfailed⟩ | ⟨id, u, hstarted, -⟩
      · obtain ⟨-, rfl⟩ := Prod.mk.inj (hfailed.symm.trans hdelegate)
        exact hpasses (Or.inr (.refl index a))
      · obtain ⟨rfl, -⟩ := Prod.mk.inj (hstarted.symm.trans hdelegate)
        exact absurd rfl hhere
    | notFound => exact hpasses (Or.inr (.refl index a))
    | absent => exact hpasses (Or.inr (.refl index a))

end Buffered

end PlanAction

end ShellEngine
