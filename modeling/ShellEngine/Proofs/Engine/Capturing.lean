import ShellEngine.Engine.Expression
import ShellEngine.Proofs.Engine.Handover
import ShellEngine.Proofs.Engine.Passing
import ShellEngine.Proofs.Engine.Walking
import ShellEngine.Proofs.Expansion.Unbounded
import ShellEngine.Proofs.Line.Neighbours

/-!
# What is captured

When the output of a line is captured, each stage whose standard output would be that of the engine
writes to a buffer instead (`Stage.captured`). The stages share one buffer, though each gets hold of
it only when it is run: the first of them makes it, and the others go on where the last one ended,
past stages that write elsewhere, that are not found, or that fail before they have it.

The loop invariant says that the bytes in the last buffer are those that the stages before have
printed, and without a buffer none (`Collects`). With the last round it says what the captured text
is (`capture_eq`).
-/

namespace ShellEngine

open Machine PlanAction

/-! ## Stages that are captured -/

def Stage.captured (s : Stage) : Stage :=
  let s := if s.stdout = .inherit then { s with stdout := .buffer } else s
  if s.stdout = .buffer then { s with waits := true } else s

theorem Plan.stages_captured (plan : Plan) :
    plan.captured.stages = plan.stages.map Stage.captured := rfl

namespace Stage

variable {s : Stage}

theorem stderr_captured (s : Stage) : s.captured.stderr = s.stderr := by
  unfold captured
  dsimp only
  split <;> split <;> rfl

theorem stdout_captured_iff (h : s.stdout ≠ .buffer) :
    s.captured.stdout = .buffer ↔ s.stdout = .inherit := by
  unfold captured
  dsimp only
  by_cases hinherit : s.stdout = .inherit
  · simp [hinherit]
  · simp [hinherit, h]

theorem waits_captured (h : s.captured.stdout = .buffer) : s.captured.waits = true := by
  unfold captured at h ⊢
  dsimp only at h ⊢
  by_cases hinherit : s.stdout = .inherit
  · simp [hinherit]
  · simp only [hinherit, if_false] at h ⊢
    split
    · rfl
    · rename_i hne
      simp [hne] at h

end Stage

namespace Visit

/-- What the stage printed to its standard output. -/
def printed (v : Visit) : Octets :=
  match v.start.1.plan.stages[v.stage]? with
  | some r => v.start.2.printed r
  | none => []

/-- What is captured of that: all of it if the plan has the stage write to the standard output of the
engine, and nothing otherwise. -/
def captured (plan : Plan) (v : Visit) : Octets :=
  if plan.stages[v.stage]?.map Stage.stdout = some .inherit then v.printed else []

/-- The stage is a builtin, or a program that behaves. -/
def Behaves (v : Visit) : Prop :=
  ∀ r, v.start.1.plan.stages[v.stage]? = some r → v.start.2.Behaves r

end Visit

namespace PlanAction

open Session

variable {plan : Plan} {index : Nat} {a b : Situation} {v : Visit} {bs : Bytes}

/-! ## Before and after a stage -/

/-- A stage that is due is got ready: if its output goes to a buffer, it goes on where the last one
ended. -/
theorem exists_stage_prepared {r : RunningStage} (hr : a.1.plan.stages[index]? = some r)
    (hpending : Pending index a)
    (hwaits : ∀ key waits, a.1.lastBuffer = some (key, waits) → waits = true) :
    ∃ ready, (prepared a.1 index).plan.stages[index]? = some ready ∧ ready.stage = r.stage ∧
      ready.pendingDrains = [] ∧ ready.pipedInput = r.pipedInput ∧
      ready.stdoutBuffer = if r.stage.stdout = .buffer then a.1.lastBuffer.map (·.1) else none := by
  obtain ⟨hunfed, -⟩ := hpending index r (Nat.le_refl _) hr
  have hbuffer : r.stdoutBuffer = none := congrArg RunningStage.stdoutBuffer hunfed
  have hdrains : r.pendingDrains = [] := congrArg RunningStage.pendingDrains hunfed
  unfold prepared
  rw [hr]
  rcases hlast : a.1.lastBuffer with _ | ⟨key, waits⟩
  · exact ⟨r, hr, rfl, hdrains, rfl, by simp [hbuffer]⟩
  · obtain rfl := hwaits key waits hlast
    dsimp only
    by_cases hout : r.stage.stdout = .buffer
    · rw [if_pos (by simp [hout, hbuffer])]
      exact ⟨_, getElem?_withStage_self hr _, rfl, hdrains, rfl, by simp [hout]⟩
    · rw [if_neg (by simp [hout])]
      exact ⟨r, hr, rfl, hdrains, rfl, by simp [hout, hbuffer]⟩

theorem lastBuffer_prepared (p : PlanState) (index : Nat) :
    (prepared p index).lastBuffer = p.lastBuffer := by
  unfold prepared
  split
  · split <;> rfl
  · rfl

theorem lastBuffer_passed {p : PlanState} {r : RunningStage}
    (hr : p.plan.stages[index]? = some r) :
    (passed p index).lastBuffer = (r.stdoutBuffer.map (·, r.stage.waits)).or p.lastBuffer := by
  unfold passed
  rw [hr, Option.bind_some]
  cases r.stdoutBuffer <;> rfl

/-! ## The loop invariant -/

/-- What holds when a stage is due: the bytes in the last buffer are those that were captured. -/
structure Collects (plan : Plan) (index : Nat) (a : Situation) (bs : Bytes) : Prop where
  inside : index < plan.stages.length
  orderly : a.2.Orderly
  ahead : Ahead plan.captured index a.1
  pending : Pending index a
  waits : ∀ key waits, a.1.lastBuffer = some (key, waits) → waits = true
  gathered : a.2.Gathered (a.1.lastBuffer.map (·.1)) bs
  start : index = 0 → bs = []

/-- A stage that is due, got ready, and what it is in the plan. -/
structure Due (plan : Plan) (v : Visit) (last : Option Nat) (r : RunningStage) : Prop where
  stage : v.start.1.plan.stages[v.stage]? = some r
  ready : Buffered r last ∨ Unbuffered r ∧ r.stdoutBuffer = none
  added : v.start.2.added r = v.captured plan
  input : ∀ fd, r.pipedInput = some fd → fd < v.start.2.host.descriptors.next

theorem Collects.exists_due (h : Collects plan v.stage a bs)
    (hplain : ∀ s ∈ plan.stages, s.stdout ≠ .buffer ∧ s.stderr ≠ .buffer)
    (hstart : v.start = (prepared a.1 v.stage, a.2)) :
    ∃ r, Due plan v (a.1.lastBuffer.map (·.1)) r := by
  have hlt : v.stage < a.1.plan.stages.size := by
    rw [h.ahead.size, Plan.stages_captured, List.length_map]
    exact h.inside
  have hget := Array.getElem?_eq_getElem hlt
  generalize a.1.plan.stages[v.stage] = r₀ at hget
  obtain ⟨r, hr, hstage, hdrains, hinput, hbuffer⟩ := exists_stage_prepared hget h.pending h.waits
  have hplan := h.ahead.stage v.stage (Nat.le_refl _)
  rw [hget, Plan.stages_captured, List.getElem?_map, Option.map_some] at hplan
  obtain ⟨s, hs, hcaptured⟩ := Option.map_eq_some_iff.mp hplan.symm
  obtain ⟨hout, herr⟩ := hplain s (List.mem_of_getElem? hs)
  rw [← hstage] at hbuffer hcaptured
  have hbuffer_iff := Stage.stdout_captured_iff hout
  have herr' := Stage.stderr_captured s
  rw [hcaptured] at hbuffer_iff herr'
  have hr' : v.start.1.plan.stages[v.stage]? = some r := by rw [hstart]; exact hr
  refine ⟨r, hr', ?_, ?_, fun fd hfd ↦ ?_⟩
  · by_cases hcase : r.stage.stdout = .buffer
    · rw [if_pos hcase] at hbuffer
      have hwaits := Stage.waits_captured (s := s) (hcaptured ▸ hcase)
      exact Or.inl ⟨hcase, herr'.symm ▸ herr, hcaptured ▸ hwaits, hdrains, hbuffer⟩
    · rw [if_neg hcase] at hbuffer
      exact Or.inr ⟨⟨hcase, herr'.symm ▸ herr, hdrains⟩, hbuffer⟩
  · rw [Session.added, Visit.captured, hs, Visit.printed, hr']
    simp only [Option.map_some, Option.some.injEq, hbuffer_iff]
  · rw [hinput] at hfd
    rw [hstart]
    exact (h.pending v.stage r₀ (Nat.le_refl _) hget).2 fd hfd

/-! ## The step of the loop -/

theorem Pending.prepared {p : PlanState} {s : Session} (h : Pending index (p, s)) :
    Pending (index + 1) (prepared p index, s) := by
  have hlater := h.mono (Nat.le_succ index)
  unfold PlanAction.prepared
  split
  · split
    · exact hlater.withStage _
    · exact hlater
  · exact hlater

theorem Pending.passed {p : PlanState} {s t : Session} {i : Nat} (h : Pending index (p, s))
    (hhost : s.host.Extends t.host) : Pending index (passed p i, t) := by
  refine Pending.extends (fun j r hj hr ↦ h j r hj ?_) hhost
  rwa [plan_passed] at hr

/-- Once its outcome was noted, the buffer of a stage is the last one, unless it was refused. -/
theorem settled_of_not_isRefusal (hhere : ¬ v.IsDelegated) (hpassed : ¬ IsRefusal v.result) :
    (settled v).1 = passed v.stop.1 v.stage := by
  rcases hresult : v.result with e | (code | _)
  · have hredirection : e.isRedirection = false := by
      simpa [IsRefusal, hresult] using hpassed
    simp [settled, hresult, hredirection]
  · simp [settled, hresult]
  · exact absurd hresult hhere

theorem settled_of_isRefusal (hrefused : IsRefusal v.result) :
    (settled v).1 = v.stop.1 ∧ ∀ status, v.turn ≠ .goOn status := by
  obtain ⟨e, hresult, hredirection⟩ := hrefused
  refine ⟨by simp [settled, hresult, hredirection], fun status hturn ↦ ?_⟩
  simp [Visit.turn, hresult, hredirection] at hturn

/-- Noting the outcome of a stage sets the level and reports errors. -/
theorem spares_settled (v : Visit) :
    Spares v.stop.2 (settled v).2 ∧ (settled v).2.cancellation = v.stop.2.cancellation := by
  have hlevel (s : Session) (level : Int) : Spares s { s with level } := .of_host (.refl _) rfl rfl
  unfold settled
  split
  · exact ⟨hlevel _ _, rfl⟩
  · exact ⟨hlevel _ _, rfl⟩
  · exact ⟨(spares_say v.stop.2 2 _).trans (hlevel _ _), rfl⟩

/-- What a turn of the loop leaves behind, and what holds at the next stage. -/
structure Collected (plan : Plan) (v : Visit) (b : Situation) (bs : Bytes) : Prop where
  gathered : b.2.Gathered (b.1.lastBuffer.map (·.1)) bs
  next : ∀ status, v.turn = .goOn status → ∀ next, v.stage < next → next < plan.stages.length →
    Collects plan next b bs

/-- **A turn of the loop** adds what its stage printed, if that is captured. -/
theorem Collects.turn (h : Collects plan v.stage a bs)
    (hplain : ∀ s ∈ plan.stages, s.stdout ≠ .buffer ∧ s.stderr ≠ .buffer) (hv : v.Turns a b)
    (hbehaves : v.Behaves) (hunsignaled : b.2.cancellation.signaled = false)
    (hhere : ¬ v.IsDelegated) : Collected plan v b (bs ++ (v.captured plan).toBytes) := by
  have hstart : v.start = (prepared a.1 v.stage, a.2) :=
    (hv.prepare.unique (gives_prepare v.stage a)).2
  obtain ⟨-, -, rfl⟩ := eq_of_gives_settle hv.settle
  obtain ⟨hspares, hcancellation⟩ := spares_settled v
  obtain ⟨r, hdue⟩ := h.exists_due hplain hstart
  have hlast : v.start.1.lastBuffer = a.1.lastBuffer := by
    rw [hstart]
    exact lastBuffer_prepared a.1 v.stage
  have hsession : v.start.2 = a.2 := by rw [hstart]
  have hpasses := passes_of_runsStage (runsStage_of_gives hv.run) hdue.stage
    (hsession.symm ▸ h.orderly) (hstart ▸ h.pending.prepared) hdue.input hdue.ready
    (hsession.symm ▸ h.gathered) (hbehaves r hdue.stage) (hcancellation ▸ hunsignaled) hhere
  rw [hdue.added] at hpasses
  by_cases hrefused : IsRefusal v.result
  · obtain ⟨hplan, hhalts⟩ := settled_of_isRefusal hrefused
    refine ⟨?_, fun status hturn ↦ absurd hturn (hhalts status)⟩
    rw [hplan, hpasses.lastBuffer, hlast]
    exact (hpasses.refused hrefused).spares hspares
  · have hplan := settled_of_not_isRefusal hhere hrefused
    obtain ⟨hpending, r', hr', hwaits, hgathered⟩ := hpasses.passed hrefused
    have hbuffer : (settled v).1.lastBuffer
        = (r'.stdoutBuffer.map (·, r'.stage.waits)).or a.1.lastBuffer := by
      rw [hplan, lastBuffer_passed hr', hpasses.lastBuffer, hlast]
    have hkey : (settled v).1.lastBuffer.map (·.1)
        = r'.stdoutBuffer.or (a.1.lastBuffer.map (·.1)) := by
      rw [hbuffer]
      cases r'.stdoutBuffer <;> rfl
    have hall := hkey ▸ hgathered.spares hspares
    refine ⟨hall, fun status hturn next hlt hinside ↦ ⟨hinside, ?_, ?_, ?_, ?_, hall, ?_⟩⟩
    · exact hspares.orderly hpasses.orderly
    · have hahead := h.ahead.of_sameFrom (sameFrom_prepared a.1 v.stage) (Nat.le_refl _)
        (Nat.zero_le _)
      have hran := sameFrom_of_runStage hv.run
      rw [hstart] at hran
      exact (hahead.of_sameFrom hran (Nat.le_of_lt hlt) hlt).of_sameFrom (sameFrom_settled v)
        (Nat.le_refl _) (Nat.zero_le _)
    · have hsettled := hpending.passed (i := v.stage) hspares.host
      rw [← hplan] at hsettled
      exact hsettled.mono hlt
    · intro key waits hnoted
      rw [hbuffer] at hnoted
      cases hmine : r'.stdoutBuffer with
      | some mine =>
        rw [hmine] at hnoted
        obtain ⟨-, rfl⟩ := Prod.mk.inj (Option.some.inj hnoted)
        exact hwaits mine hmine
      | none =>
        rw [hmine] at hnoted
        exact h.waits key waits hnoted
    · intro hzero
      exact absurd (hzero ▸ hlt) (Nat.not_lt_zero _)

/-! ## All rounds -/

theorem unsignaled_of_rounds {rules : List Continuation} {visits : List Visit}
    (h : Rounds rules index a visits b) (hunsignaled : b.2.cancellation.signaled = false) :
    a.2.cancellation.signaled = false := by
  have hfirst {a b : Situation} {v : Visit} (hv : v.Turns a b) : a.2.cancellation.signaled = false := by
    have hstart := (hv.prepare.unique (gives_prepare v.stage a)).2
    have hdown := hv.unsignaled
    rwa [hstart] at hdown
  cases h with
  | cancelled _ hsignaled =>
    rw [hsignaled] at hunsignaled
    cases hunsignaled
  | halted hv => exact hfirst hv
  | last hv => exact hfirst hv
  | next hv => exact hfirst hv

/-- A stage that was handed to a new instance is the only one of its plan, and not captured. -/
theorem Collects.eq_nil_of_isDelegated (h : Collects plan v.stage a bs)
    (hplain : ∀ s ∈ plan.stages, s.stdout ≠ .buffer ∧ s.stderr ≠ .buffer) (hv : v.Turns a b)
    (hdelegated : v.IsDelegated) : bs ++ (v.captured plan).toBytes = [] := by
  have hstart : v.start = (prepared a.1 v.stage, a.2) :=
    (hv.prepare.unique (gives_prepare v.stage a)).2
  obtain ⟨r, hdue⟩ := h.exists_due hplain hstart
  have hrun := runsStage_of_gives hv.run
  rw [hdelegated] at hrun
  obtain ⟨hsingle, hwaits⟩ : v.start.1.plan.stages.size = 1 ∧ r.stage.waits = false := by
    generalize hresult : (.ok .delegated : Except EngineError StageResult) = result at hrun
    generalize v.stop = stop at hrun
    cases hrun with
    | builtin hr hname hrun => exact absurd hresult.symm (hrun.verdict hname).2
    | program hr hname htarget hrun => exact absurd hresult.symm (hrun.verdict hname htarget).2
    | delegated hr _ _ hsingle hwaits =>
      obtain rfl := Option.some.inj (hr.symm.trans hdue.stage)
      exact ⟨hsingle, hwaits⟩
    | notFound => cases hresult
    | absent => cases hresult
  have hlength : plan.stages.length = 1 := by
    have hsize := (sameFrom_prepared a.1 v.stage).size.trans h.ahead.size
    rw [Plan.stages_captured, List.length_map] at hsize
    rw [hstart] at hsingle
    exact hsize.symm.trans hsingle
  have hfirst : v.stage = 0 := Nat.lt_one_iff.mp (hlength ▸ h.inside)
  have hnone : v.captured plan = [] := by
    rw [← hdue.added]
    rcases hdue.ready with hbuffered | ⟨hunbuffered, -⟩
    · rw [hbuffered.waits] at hwaits
      cases hwaits
    · exact if_neg hunbuffered.stdout
  rw [h.start hfirst, hnone]
  rfl

/-- **The rounds of the loop** gather what their stages printed, as far as that is captured, in this
order. A plan that is handed to a new instance has printed nothing that is captured. -/
theorem Collects.rounds {visits : List Visit} (h : Collects plan index a bs)
    (hplain : ∀ s ∈ plan.stages, s.stdout ≠ .buffer ∧ s.stderr ≠ .buffer)
    (hrounds : Rounds plan.captured.rules index a visits b) (hbehaves : ∀ v ∈ visits, v.Behaves)
    (hunsignaled : b.2.cancellation.signaled = false) :
    ((∃ v ∈ visits, v.IsDelegated) →
      bs ++ Octets.toBytes (visits.flatMap (Visit.captured plan)) = []) ∧
    ((¬ ∃ v ∈ visits, v.IsDelegated) → b.2.Gathered (b.1.lastBuffer.map (·.1))
      (bs ++ Octets.toBytes (visits.flatMap (Visit.captured plan)))) := by
  have hsingle (v : Visit) : [v].flatMap (Visit.captured plan) = v.captured plan := by simp
  have hlone {v : Visit} : (∃ w ∈ [v], w.IsDelegated) ↔ v.IsDelegated := by simp
  -- The bytes from before stand in front of those of the rounds that are left.
  induction hrounds generalizing bs with
  | cancelled _ hsignaled =>
    rw [hsignaled] at hunsignaled
    cases hunsignaled
  | @halted v _ _ _ hv _ =>
    rw [hsingle, hlone]
    exact ⟨h.eq_nil_of_isDelegated hplain hv, fun hhere ↦
      (h.turn hplain hv (hbehaves v (List.mem_singleton.mpr rfl)) hunsignaled hhere).gathered⟩
  | @last v _ _ _ hv hturn _ =>
    rw [hsingle, hlone]
    exact ⟨fun hdelegated ↦ absurd hdelegated (not_isDelegated_of_goOn hturn), fun hhere ↦
      (h.turn hplain hv (hbehaves v (List.mem_singleton.mpr rfl)) hunsignaled hhere).gathered⟩
  | @next v _ b' _ status next visits hv hturn hnext rest ih =>
    have hhere := not_isDelegated_of_goOn hturn
    obtain ⟨hlt, hinside⟩ := nextStage_bounds hnext
    rw [length_rules, Plan.stages_captured, List.length_map] at hinside
    have hnext := (h.turn hplain hv (hbehaves v List.mem_cons_self)
      (unsignaled_of_rounds rest hunsignaled) hhere).next status hturn next hlt hinside
    have hrest := ih hnext (fun w hw ↦ hbehaves w (List.mem_cons_of_mem _ hw)) hunsignaled
    have hbytes : bs ++ Octets.toBytes ((v :: visits).flatMap (Visit.captured plan))
        = bs ++ (v.captured plan).toBytes
          ++ Octets.toBytes (visits.flatMap (Visit.captured plan)) := by
      rw [List.flatMap_cons, Octets.toBytes, List.map_append, List.append_assoc]
      rfl
    have hdelegated : (∃ w ∈ v :: visits, w.IsDelegated) ↔ ∃ w ∈ visits, w.IsDelegated := by
      simp [hhere]
    rw [hbytes, hdelegated]
    exact hrest

/-! ## The beginning and the end -/

theorem collects_starting {s : Session} (hne : plan.stages ≠ []) (horderly : s.Orderly) :
    Collects plan 0 (s.starting plan.captured) [] where
  inside := List.length_pos_iff.mpr hne
  orderly := by
    obtain ⟨records, hbegin⟩ := s.exists_begin_eq plan.captured
    rw [starting, hbegin]
    exact ⟨horderly.host, horderly.pumps⟩
  ahead := ahead_starting s plan.captured
  pending j r _ hr := by
    have hbare := eq_of_mem_starting (Array.mem_of_getElem? hr)
    have hinput : r.pipedInput = none := congrArg RunningStage.pipedInput hbare
    refine ⟨by rw [hbare]; rfl, fun fd hfd ↦ ?_⟩
    rw [hinput] at hfd
    cases hfd
  waits _ _ hlast := by cases hlast
  gathered := rfl
  start _ := rfl

theorem buffers_foldl_released (is : List Nat) (a : Situation) :
    (is.foldl released a).1.lastBuffer = a.1.lastBuffer ∧
      (is.foldl released a).2.buffers = a.2.buffers := by
  induction is generalizing a with
  | nil => exact ⟨rfl, rfl⟩
  | cons i is ih =>
    have hjoined (s : Session) (harvester : Option Nat) :
        (harvester.elim s s.join).buffers = s.buffers := by
      cases harvester <;> rfl
    have hstep : (released a i).1.lastBuffer = a.1.lastBuffer ∧
        (released a i).2.buffers = a.2.buffers := by
      unfold released
      split
      · exact ⟨rfl, rfl⟩
      · dsimp only
        split
        · exact ⟨rfl, rfl⟩
        · split <;> exact ⟨rfl, hjoined _ _⟩
    exact ⟨(ih _).1.trans hstep.1, (ih _).2.trans hstep.2⟩

/-- A plan that is run in rounds comes to its end, and gives the last buffer. One that is handed to a
new instance gives none. -/
theorem gives_runAll_of_rounds {visits : List Visit}
    (hrounds : Rounds a.1.plan.rules 0 a visits b)
    (hunsignaled : b.2.cancellation.signaled = false) :
    ∃ buffer c, runAll.Gives a buffer c ∧ ((∃ v ∈ visits, v.IsDelegated) → buffer = none) ∧
      ((¬ ∃ v ∈ visits, v.IsDelegated) →
        buffer = b.1.lastBuffer.map (·.1) ∧ c.2.buffers = b.2.buffers) := by
  obtain ⟨passage, hdrive, hdelegated⟩ := gives_of_rounds hrounds
  unfold runAll
  simp only [(gives_get a).bind_iff, hdrive.bind_iff]
  split
  · rename_i hhanded
    exact ⟨none, b, gives_pure none b, fun _ ↦ rfl, fun hhere ↦ absurd (hdelegated.mp hhanded) hhere⟩
  · rename_i hkept
    have hreleased := buffers_foldl_released (List.range b.1.plan.stages.size) b
    simp only [(gives_session b).bind_iff, hunsignaled]
    refine ⟨_, _, (gives_release b).bind ((gives_get _).bind (gives_pure _ _)),
      fun hhanded ↦ absurd (hdelegated.mpr hhanded) hkept, fun _ ↦ ⟨?_, hreleased.2⟩⟩
    rw [hreleased.1]

/-- The stages that are dealt with are to run what the plan says. The first of them begins where the
rounds do. -/
theorem ahead_of_rounds {visits : List Visit} (hahead : Ahead plan index a.1)
    (h : Rounds plan.rules index a visits b) : ∀ v ∈ visits, Ahead plan v.stage v.start.1 ∧
      (v.stage = index ∧ v.start = (prepared a.1 index, a.2) ∨ index < v.stage) := by
  have hfirst {v : Visit} {a b : Situation} (hahead : Ahead plan v.stage a.1) (hv : v.Turns a b) :
      Ahead plan v.stage v.start.1 ∧ v.start = (prepared a.1 v.stage, a.2) := by
    have hstart := (hv.prepare.unique (gives_prepare v.stage a)).2
    rw [hstart]
    exact ⟨hahead.of_sameFrom (sameFrom_prepared a.1 _) (Nat.le_refl _) (Nat.zero_le _), rfl⟩
  induction h with
  | cancelled => exact fun v hv ↦ absurd hv List.not_mem_nil
  | halted hv | last hv =>
    intro w hw
    obtain rfl := List.mem_singleton.mp hw
    exact ⟨(hfirst hahead hv).1, Or.inl ⟨rfl, (hfirst hahead hv).2⟩⟩
  | @next v a b c status next visits hv _ hnext _ ih =>
    obtain ⟨hstart, hbegins⟩ := hfirst hahead hv
    obtain ⟨-, -, hsettled⟩ := eq_of_gives_settle hv.settle
    have hlt := (nextStage_bounds hnext).1
    have hbehind : Ahead plan next b.1 := by
      rw [hsettled]
      exact (hstart.of_sameFrom (sameFrom_of_runStage hv.run) (Nat.le_succ _)
        (Nat.le_refl _)).of_sameFrom (sameFrom_settled v) hlt (Nat.zero_le _)
    intro w hw
    obtain rfl | hw := List.mem_cons.mp hw
    · exact ⟨hstart, Or.inl ⟨rfl, hbegins⟩⟩
    · obtain ⟨hw, ⟨hstage, -⟩ | hlater⟩ := ih hbehind w hw
      · exact ⟨hw, Or.inr (hstage ▸ hlt)⟩
      · exact ⟨hw, Or.inr (Nat.lt_trans hlt hlater)⟩

end PlanAction

/-! ## Capturing -/

theorem flatten_nil : Line.flatten (Text.decodeLossy []) = [] := by
  simp [Line.flatten, Text.decodeLossy, Text.decodeLossy.go]

namespace Action

variable {s s₁ : Session} {plan : Plan} {visits : List Visit} {driven : Situation}

/-- The output of a plan is the text of the buffer that comes of it, if there is one. -/
theorem outcome_capturePlan_of_execute {buffer : Option Nat} {ended : RunningPlan} {t : Session}
    {bs : Bytes} (hexecute : (execute plan.captured true).outcome s = (.ok (buffer, ended), t))
    (hnone : buffer = none → bs = [])
    (hsome : ∀ key, buffer = some key → t.buffer key = { contents := bs }) :
    (capturePlan plan).outcome s = (.ok (Line.flatten (Text.decodeLossy bs)), t) := by
  unfold capturePlan
  rw [outcome_bind, hexecute]
  cases buffer with
  | none =>
    rw [hnone rfl, flatten_nil]
    rfl
  | some key =>
    dsimp only
    rw [outcome_bind, outcome_get]
    dsimp only
    rw [hsome key rfl, OutputBuffer.text, String.toList_ofList]
    rfl

/-- **What a plan prints is captured.** -/
theorem outcome_capturePlan
    (hplain : ∀ stage ∈ plan.stages, stage.stdout ≠ .buffer ∧ stage.stderr ≠ .buffer)
    (horderly : s.Orderly) (hdrives : s.Drives plan.captured visits driven)
    (hunsignaled : driven.2.cancellation.signaled = false) (hbehaves : ∀ v ∈ visits, v.Behaves) :
    ∃ t, (capturePlan plan).outcome s = (.ok (Line.flatten (Text.decodeLossy
      (Octets.toBytes (visits.flatMap (Visit.captured plan))))), t) := by
  by_cases hne : plan.stages = []
  · have hnil : plan.captured.stages = [] := by rw [Plan.stages_captured, hne, List.map_nil]
    rw [Session.Drives, if_pos hnil] at hdrives
    obtain ⟨rfl, -⟩ := hdrives
    exact ⟨_, outcome_capturePlan_of_execute (outcome_execute_nil hnil) (fun _ ↦ rfl)
      fun _ hkey ↦ absurd hkey (Option.some_ne_none _).symm⟩
  · have hne' : plan.captured.stages ≠ [] := by
      rw [Plan.stages_captured]
      simpa using hne
    have hhere : plan.captured.isHandedOver true s.isSubshell = false := by simp [Plan.isHandedOver]
    rw [Session.Drives, if_neg hne'] at hdrives
    obtain ⟨hhanded, hkept⟩ :=
      (collects_starting hne horderly).rounds hplain hdrives hbehaves hunsignaled
    rw [List.nil_append] at hhanded hkept
    rw [← s.rules_starting plan.captured] at hdrives
    obtain ⟨buffer, c, hall, hnone, hlast⟩ := gives_runAll_of_rounds hdrives hunsignaled
    have hexecute : (execute plan.captured true).outcome s = (.ok (buffer, c.1.plan), c.2) := by
      rw [outcome_execute_here hne' hhere, hall]
    refine ⟨c.2, outcome_capturePlan_of_execute hexecute (fun hbuffer ↦ ?_) fun key hbuffer ↦ ?_⟩
    all_goals by_cases hdelegated : ∃ v ∈ visits, v.IsDelegated
    · exact hhanded hdelegated
    · have hgathered := hkept hdelegated
      rwa [← (hlast hdelegated).1, hbuffer] at hgathered
    · rw [hnone hdelegated] at hbuffer
      cases hbuffer
    · have hgathered := hkept hdelegated
      rw [← (hlast hdelegated).1, hbuffer] at hgathered
      rw [Session.buffer, (hlast hdelegated).2]
      exact hgathered.2

/-- A line that is parsed once it is expanded has the output of its plan captured. -/
theorem outcome_capture {line text : String}
    (hexpand : (expand line).outcome { s with synchronous := true } = (.ok text, s₁))
    (hparse : Line.parse text = .ok plan) :
    (capture line).outcome s =
      match (capturePlan plan).outcome s₁ with
      | (.ok output, t) => (.ok (.ok (String.ofList output)), { t with synchronous := s.synchronous })
      | (.error crash, t) => (.error crash, t) := by
  obtain ⟨expanded, u, hexpanded, hrest⟩ := Line.exists_run_run_of_bind hexpand
  obtain ⟨htext, rfl⟩ := Prod.mk.inj hrest
  obtain rfl := Except.ok.inj htext
  change (expandLine line.toList).outcome _ = _ at hexpanded
  rw [capture, captureWith, outcome_bind, outcome_synchronously, outcome_bind, hexpanded]
  dsimp only
  rw [hparse]
  dsimp only
  rw [outcome_bind]
  rcases (capturePlan plan).outcome u with ⟨crash | output, t⟩ <;> rfl

/-- **What a line prints is captured.** A line is expanded and parsed, and its plan comes to some
visits of its stages; the cancellation signal stays down, and the programs among them behave. Then
the output is what those stages printed that were to write to the standard output of the engine, one
after the other, as text on a single line. -/
theorem capture_eq {line text : String}
    (hexpand : (expand line).outcome { s with synchronous := true } = (.ok text, s₁))
    (hparse : Line.parse text = .ok plan) (horderly : s₁.Orderly)
    (hdrives : s₁.Drives plan.captured visits driven)
    (hunsignaled : driven.2.cancellation.signaled = false) (hbehaves : ∀ v ∈ visits, v.Behaves) :
    ∃ t, (capture line).outcome s = (.ok (.ok (String.ofList (Line.flatten (Text.decodeLossy
      (Octets.toBytes (visits.flatMap (Visit.captured plan))))))), t) := by
  have hplain (stage : Stage) (hstage : stage ∈ plan.stages) := Line.ne_buffer_of_parse hparse hstage
  obtain ⟨t, hcapture⟩ := outcome_capturePlan hplain horderly hdrives hunsignaled hbehaves
  rw [outcome_capture hexpand hparse, hcapture]
  exact ⟨_, rfl⟩

/-- A session on a machine with a program that prints, amid a task that cannot be sent to the
background. -/
def talkative : Session where
  settings := {}
  host :=
    { world := { tree := FileTree.empty.withNode "/say" (.program .echo) 0o755 }
      cwd := FileTree.root
      descriptors := { table := [] } }
  synchronous := true

theorem orderly_talkative : talkative.Orderly where
  host :=
    { standard := by decide
      known := by intro e he; exact absurd he List.not_mem_nil
      sound := by decide }
  pumps p hp := absurd hp List.not_mem_nil

/-- The plan of `/say hello; pwd`. -/
def sayAndTell : Plan :=
  .ofStages "/say hello; pwd" [{ argv := ["/say", "hello"], text := "/say hello" },
    { argv := ["pwd"], text := "pwd" }]

/-- The program that `/say hello` runs behaves: it leaves the open files of the engine alone, and
runs out. -/
theorem behaves_sayAndTell {r : RunningStage}
    (hr : (prepared (talkative.starting sayAndTell.captured).1 0).plan.stages[0]? = some r) :
    (talkative.starting sayAndTell.captured).2.Behaves r := by
  let due : RunningStage :=
    { stage := Stage.captured { argv := ["/say", "hello"], text := "/say hello" }, record := 0 }
  let begun := (talkative.starting sayAndTell.captured).2
  let placed := (begun.redirect due false).2
  let launched := (placed.2.launch placed.1 "/say").2
  obtain rfl : due = r := Option.some.inj hr
  intro target snapshot placed' t result launched' u _ htarget hredirect hlaunch
  have hprogram : target? begun due = some "/say" := by decide +kernel
  obtain rfl : "/say" = target := Option.some.inj (hprogram.symm.trans htarget)
  obtain rfl : placed.1 = placed' := congrArg (·.2.1) hredirect
  obtain rfl : placed.2 = t := congrArg (·.2.2) hredirect
  obtain rfl : launched.1 = launched' := congrArg (·.2.1) hlaunch
  obtain rfl : launched.2 = u := congrArg (·.2.2) hlaunch
  refine ⟨⟨⟨by decide +kernel, by decide +kernel, by decide +kernel⟩, fun _ ↦ by decide +kernel⟩,
    fun _ _ ↦ ⟨by decide +kernel, fun c hc ↦ ?_, ?_⟩⟩
  · have hchannel : launched.2.host.target? 1 = some (.channel 0) := by decide +kernel
    obtain rfl : 0 = c := by simpa using hchannel.symm.trans hc
    exact ⟨by decide +kernel, by decide +kernel, by decide +kernel⟩
  · let waited (snapshot : Snapshot) :=
      ((launched.2.revert { snapshot with nextInput := none }).commenceDrains launched.1).2.waitForStage
        { launched.1 with pendingDrains := [] }
    have hwaited : (begun.redirect due false).1.toOption.map (fun snapshot ↦
        (waited snapshot).1.toOption) = some (some (.completed (.process (.exited 0)))) := by
      decide +kernel
    have hsnapshot : (begun.redirect due false).1 = .ok snapshot := congrArg (·.1) hredirect
    rw [hsnapshot] at hwaited
    have hcompleted : (waited snapshot).1.toOption = some (.completed (.process (.exited 0))) :=
      Option.some.inj hwaited
    refine ⟨.process (.exited 0), (waited snapshot).2, Prod.ext ?_ rfl⟩
    change (waited snapshot).1 = _
    cases hresult : (waited snapshot).1 with
    | error e => rw [hresult] at hcompleted; cases hcompleted
    | ok outcome => rw [hresult] at hcompleted; rw [Option.some.inj hcompleted]

/-- The second stage writes to the buffer of the first one, and behind it. -/
theorem capture_sayAndTell :
    talkative.Orderly ∧ Line.parse "/say hello; pwd" = .ok sayAndTell ∧
      ∃ visits driven, talkative.Drives sayAndTell.captured visits driven ∧
        driven.2.cancellation.signaled = false ∧ (∀ v ∈ visits, v.Behaves) ∧
        (∃ t, (capture "/say hello; pwd").outcome talkative = (.ok (.ok (String.ofList
          (Line.flatten (Text.decodeLossy
            (Octets.toBytes (visits.flatMap (Visit.captured sayAndTell))))))), t)) ∧
        ((capture "/say hello; pwd").outcome talkative).1.toOption.bind Except.toOption
          = some "hello /" := by
  have hne : sayAndTell.captured.stages ≠ [] := by decide
  have hparse : Line.parse "/say hello; pwd" = .ok sayAndTell := by decide +kernel
  have hfind : Line.Substitution.find "/say hello; pwd".toList = none := by decide
  have hexpand : (expand "/say hello; pwd").outcome talkative = (.ok "/say hello; pwd", talkative) :=
    outcome_expand_of_find_none hfind talkative
  have hended : ((drive conductor sayAndTell.captured.rules 0).outcome
      (talkative.starting sayAndTell.captured)).1.isOk = true ∧
      ((drive conductor sayAndTell.captured.rules 0).outcome
        (talkative.starting sayAndTell.captured)).2.cancellation.signaled = false := by
    decide +kernel
  obtain ⟨hok, hunsignaled⟩ := hended
  rcases hdrive : (drive conductor sayAndTell.captured.rules 0).outcome
      (talkative.starting sayAndTell.captured) with ⟨crash | ⟨passage, p⟩, t⟩
  · rw [hdrive] at hok
    cases hok
  · rw [hdrive] at hunsignaled
    obtain ⟨visits, hrounds, -⟩ := rounds_of_gives (b := (p, t)) sayAndTell.captured.rules 0 _ hdrive
    have hdrives : talkative.Drives sayAndTell.captured visits (p, t) := by
      rw [Session.Drives, if_neg hne]
      exact hrounds
    have hbehaves : ∀ v ∈ visits, v.Behaves := by
      intro v hv r hr
      obtain ⟨hahead, ⟨hstage, hstart⟩ | hlater⟩ :=
        ahead_of_rounds (ahead_starting talkative sayAndTell.captured) hrounds v hv
      · rw [hstage, hstart] at hr
        rw [hstart]
        exact behaves_sayAndTell hr
      · -- the other stage is a builtin, which is no program that could misbehave
        have hstage := hahead.stage v.stage (Nat.le_refl _)
        rw [hr, Option.map_some] at hstage
        have hlt : v.stage < 2 := (List.getElem?_eq_some_iff.mp hstage.symm).1
        have hsecond : v.stage = 1 := by omega
        rw [hsecond] at hstage
        have hbuiltin : Builtin.ofName? r.stage.program = some .pwd := by
          rw [Option.some.inj hstage]
          decide
        intro _ _ _ _ _ _ _ hprogram
        cases hbuiltin.symm.trans hprogram
    refine ⟨orderly_talkative, hparse, visits, (p, t), hdrives, hunsignaled, hbehaves,
      capture_eq hexpand hparse orderly_talkative hdrives hunsignaled hbehaves, ?_⟩
    have houtput : ((capturePlan sayAndTell).outcome talkative).1.toOption
        = some "hello /".toList := by decide +kernel
    rw [outcome_capture hexpand hparse]
    rcases hplan : (capturePlan sayAndTell).outcome talkative with ⟨crash | output, u⟩ <;>
      rw [hplan] at houtput
    · cases houtput
    · rw [Option.some.inj houtput]
      rfl

end Action

end ShellEngine
