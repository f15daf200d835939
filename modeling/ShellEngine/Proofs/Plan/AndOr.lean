import ShellEngine.Plan.Walk
import Mathlib.Data.List.Basic

/-!
# Walks and and-or lists

`nextStage` leaves a whole chain of stages out in one jump. The usual reading of an and-or list
decides about one pipeline after the other, from left to right, and carries the status of the last
pipeline that ran. This module has that reading as an evaluator of its own and shows that a walk
follows it.

## Stage by stage

A pipeline that does not run leaves the carried status as it is, so the evaluator may as well pass
its stages one at a time (`evaluateAfter_cons_of_not_admits`). This is the form in which it meets
the jump: `afterChain` drops one rule of the chain at a time as well. A jump ends behind the first
rule that is neither the skipped one nor `concurrent`, and that rule always admits what comes
after it, because the two conditions exclude each other.
-/

namespace ShellEngine

/-! ## Pipelines -/

/-- Stages that run side by side. All but the last one are linked by `concurrent`. -/
structure Pipeline where
  /-- The stages in front of the last one. -/
  before : List Nat
  last : Nat
  /-- The rule of the last stage; `concurrent` where the plan ends with the pipeline. -/
  rule : Continuation
  deriving DecidableEq, Repr

def Pipeline.stages (p : Pipeline) : List Nat := p.before ++ [p.last]

/-- Puts a stage linked by `concurrent` in front of the pipelines after it. -/
def joinPipeline (stage : Nat) : List Pipeline → List Pipeline
  | [] => [{ before := [], last := stage, rule := .concurrent }]
  | p :: ps => { p with before := stage :: p.before } :: ps

/-- Cuts rules into pipelines, the first rule being that of stage `stage`. A pipeline is closed by
the first rule that is not `concurrent`, or by the end. -/
def pipelinesFrom (stage : Nat) : List Continuation → List Pipeline
  | [] => []
  | rule :: rest =>
    if rule = .concurrent then joinPipeline stage (pipelinesFrom (stage + 1) rest)
    else { before := [], last := stage, rule } :: pipelinesFrom (stage + 1) rest

def pipelines (rules : List Continuation) : List Pipeline := pipelinesFrom 0 rules

/-! ## The evaluator -/

/-- Whether a pipeline runs that comes after a stage with rule `rule`, where `carried` is the status
of the last pipeline that ran. -/
def Continuation.admits (rule : Continuation) (carried : Int) : Bool :=
  match rule with
  | .unconditional => true
  | .onSuccess => carried == 0
  | .onFailure => carried != 0
  | .concurrent | .never => false

/-- The stages that run, for pipelines that come after a stage with rule `rule`. -/
def evaluateAfter (status : Nat → Int) (rule : Continuation) (carried : Int) :
    List Pipeline → List Nat
  | [] => []
  | p :: ps =>
    if rule.admits carried then p.stages ++ evaluateAfter status p.rule (status p.last) ps
    else evaluateAfter status p.rule carried ps

/-- The stages that a left-associative and-or list runs: the first pipeline, and of the others those
that the rule before them admits. -/
def evaluate (status : Nat → Int) : List Pipeline → List Nat
  | [] => []
  | p :: ps => p.stages ++ evaluateAfter status p.rule (status p.last) ps

variable {rules rest : List Continuation} {rule chained : Continuation} {status : Nat → Int}
  {carried : Int} {stage : Nat}

theorem evaluateAfter_of_admits (h : rule.admits carried = true) (ps : List Pipeline) :
    evaluateAfter status rule carried ps = evaluate status ps := by
  cases ps with
  | nil => rfl
  | cons p ps => rw [evaluateAfter, if_pos h, evaluate]

theorem evaluate_joinPipeline (ps : List Pipeline) :
    evaluate status (joinPipeline stage ps) = stage :: evaluate status ps := by
  cases ps with
  | nil => rfl
  | cons p ps => rfl

theorem evaluateAfter_joinPipeline (h : rule.admits carried = false) (ps : List Pipeline) :
    evaluateAfter status rule carried (joinPipeline stage ps)
      = evaluateAfter status rule carried ps := by
  cases ps with
  | nil => simp [joinPipeline, evaluateAfter, h]
  | cons p ps => simp [joinPipeline, evaluateAfter, h]

theorem flatMap_stages_joinPipeline (stage : Nat) (ps : List Pipeline) :
    (joinPipeline stage ps).flatMap Pipeline.stages = stage :: ps.flatMap Pipeline.stages := by
  cases ps with
  | nil => rfl
  | cons p ps => rfl

/-- Cutting into pipelines keeps every stage in its place. -/
theorem flatMap_stages_pipelinesFrom (stage : Nat) (rules : List Continuation) :
    (pipelinesFrom stage rules).flatMap Pipeline.stages = List.range' stage rules.length := by
  induction rules generalizing stage with
  | nil => rfl
  | cons rule rest ih =>
    rw [pipelinesFrom, List.length_cons, List.range'_succ, ← ih (stage + 1)]
    split
    · exact flatMap_stages_joinPipeline stage _
    · rfl

/-- Where a pipeline runs, its first stage runs, and the others by the same token. -/
theorem evaluate_pipelinesFrom_cons :
    evaluate status (pipelinesFrom stage (rule :: rest))
      = stage :: if rule = .concurrent then evaluate status (pipelinesFrom (stage + 1) rest)
        else evaluateAfter status rule (status stage) (pipelinesFrom (stage + 1) rest) := by
  rw [pipelinesFrom]
  split
  · exact evaluate_joinPipeline _
  · rfl

theorem evaluateAfter_cons_of_not_admits (h : chained.admits carried = false) :
    evaluateAfter status chained carried (pipelinesFrom stage (rule :: rest))
      = if rule = .concurrent then
          evaluateAfter status chained carried (pipelinesFrom (stage + 1) rest)
        else evaluateAfter status rule carried (pipelinesFrom (stage + 1) rest) := by
  rw [pipelinesFrom]
  split
  · exact evaluateAfter_joinPipeline h _
  · simp [evaluateAfter, h]

/-! ## The jump -/

theorem length_of_drop_eq_cons (h : rules.drop stage = rule :: rest) :
    rules.length = stage + 1 + rest.length := by
  have hlen := congrArg List.length h
  rw [List.length_drop, List.length_cons] at hlen
  omega

theorem drop_succ_of_drop_eq_cons (h : rules.drop stage = rule :: rest) :
    rules.drop (stage + 1) = rest := by
  rw [← List.drop_drop, h, List.drop_one, List.tail_cons]

theorem getD_of_drop_eq_cons (h : rules.drop stage = rule :: rest) (d : Continuation) :
    rules.getD stage d = rule := by
  have hget : rules[stage]? = some rule := by
    rw [← List.head?_drop, h, List.head?_cons]
  rw [List.getD_eq_getElem?_getD, hget, Option.getD_some]

theorem afterChain_nil (h : rules.length ≤ stage) : afterChain rules stage chained = none := by
  rw [afterChain, List.drop_eq_nil_of_le h]
  exact if_neg (by simp; omega)

theorem afterChain_of_continuesSkip (h : rules.drop stage = rule :: rest)
    (hr : continuesSkip chained rule = true) :
    afterChain rules stage chained = afterChain rules (stage + 1) chained := by
  rw [afterChain, afterChain, h, drop_succ_of_drop_eq_cons h, List.takeWhile_cons_of_pos hr,
    List.length_cons]
  congr 2 <;> omega

/-- Any other rule ends the jump behind its stage. -/
theorem afterChain_of_not_continuesSkip (h : rules.drop stage = rule :: rest)
    (hr : continuesSkip chained rule = false) :
    afterChain rules stage chained
      = if stage + 1 < rules.length then some (stage + 1) else none := by
  rw [afterChain, h, List.takeWhile_cons_of_neg (by simp [hr])]
  rfl

/-- What ends a jump admits the stage after it: of the two conditions one holds. -/
theorem admits_of_not_continuesSkip (hc : chained = .onSuccess ∨ chained = .onFailure)
    (hn : chained.admits carried = false) (hr : continuesSkip chained rule = false)
    (hv : rule ≠ .never) : rule.admits carried = true := by
  rcases hc with rfl | rfl <;> cases rule <;> simp_all [Continuation.admits, continuesSkip]

/-! ## The walk -/

theorem nextStage_of_admits (h : rules.drop stage = rule :: rest) (hne : rest ≠ [])
    (ha : rule = .concurrent ∨ rule.admits carried = true) :
    nextStage rules stage carried = some (stage + 1) := by
  have hpos := List.length_pos_iff.mpr hne
  have hlen := length_of_drop_eq_cons h
  rw [nextStage, if_neg (by omega), getD_of_drop_eq_cons h]
  cases rule <;> simp_all [Continuation.admits]

theorem nextStage_of_not_admits (h : rules.drop stage = chained :: rest) (hne : rest ≠ [])
    (hc : chained = .onSuccess ∨ chained = .onFailure) (hn : chained.admits carried = false) :
    nextStage rules stage carried = afterChain rules (stage + 1) chained := by
  have hpos := List.length_pos_iff.mpr hne
  have hlen := length_of_drop_eq_cons h
  rw [nextStage, if_neg (by omega), getD_of_drop_eq_cons h]
  rcases hc with rfl | rfl <;> simp_all [Continuation.admits]

theorem nextStage_last (h : rules.drop stage = [rule]) : nextStage rules stage carried = none := by
  have hlen := length_of_drop_eq_cons h
  rw [List.length_nil] at hlen
  rw [nextStage, if_pos (by omega)]

/-- The stages of a walk that goes on at the given stage, if there is one. -/
def walkOn (rules : List Continuation) (status : Nat → Int) : Option Nat → List Nat
  | none => []
  | some stage => walkFrom rules status stage

theorem walkFrom_eq_cons (stage : Nat) :
    walkFrom rules status stage
      = stage :: walkOn rules status (nextStage rules stage (status stage)) := by
  rw [walkFrom]
  split <;> rename_i h <;> rw [h] <;> rfl

/-! ## Jump and evaluator -/

/-- A walk from a stage runs what the evaluator runs of the rules that are left. -/
def WalkAgrees (rules : List Continuation) (status : Nat → Int) (stage : Nat)
    (left : List Continuation) : Prop :=
  left ≠ [] → walkFrom rules status stage = evaluate status (pipelinesFrom stage left)

/-- A jump over a chain of stages leaves out what the evaluator leaves out. -/
def JumpAgrees (rules : List Continuation) (status : Nat → Int) (stage : Nat)
    (left : List Continuation) : Prop :=
  ∀ (chained : Continuation) (carried : Int),
    chained = .onSuccess ∨ chained = .onFailure → chained.admits carried = false →
      walkOn rules status (afterChain rules stage chained)
        = evaluateAfter status chained carried (pipelinesFrom stage left)

/-- A walk goes on behind its first stage, or comes to a jump. -/
theorem walkAgrees_cons (h : rules.drop stage = rule :: rest) (hrule : rule ≠ .never)
    (hwalk : WalkAgrees rules status (stage + 1) rest)
    (hjump : JumpAgrees rules status (stage + 1) rest) :
    WalkAgrees rules status stage (rule :: rest) := fun _ ↦ by
  rw [walkFrom_eq_cons, evaluate_pipelinesFrom_cons]
  congr 1
  by_cases hne : rest = []
  · subst hne
    rw [nextStage_last h]
    simp [walkOn, pipelinesFrom, evaluate, evaluateAfter]
  by_cases ha : rule = .concurrent ∨ rule.admits (status stage) = true
  · rw [nextStage_of_admits h hne ha, walkOn, hwalk hne]
    by_cases hcon : rule = .concurrent
    · rw [if_pos hcon]
    · rw [if_neg hcon, evaluateAfter_of_admits (ha.resolve_left hcon)]
  · rw [not_or, Bool.not_eq_true] at ha
    have hc : rule = .onSuccess ∨ rule = .onFailure := by
      cases rule <;> simp_all [Continuation.admits]
    rw [nextStage_of_not_admits h hne hc ha.2, if_neg ha.1, hjump rule _ hc ha.2]

/-- A jump goes on over its first stage, or ends behind it, where a walk goes on. -/
theorem jumpAgrees_cons (h : rules.drop stage = rule :: rest) (hrule : rule ≠ .never)
    (hwalk : WalkAgrees rules status (stage + 1) rest)
    (hjump : JumpAgrees rules status (stage + 1) rest) :
    JumpAgrees rules status stage (rule :: rest) := fun chained carried hc hn ↦ by
  rw [evaluateAfter_cons_of_not_admits hn]
  cases hr : continuesSkip chained rule with
  | true =>
    rw [afterChain_of_continuesSkip h hr, hjump chained carried hc hn]
    by_cases hcon : rule = .concurrent
    · rw [if_pos hcon]
    · have heq : rule = chained := by simpa [continuesSkip, hcon] using hr
      rw [if_neg hcon, heq]
  | false =>
    have hcon : rule ≠ .concurrent := by
      rintro rfl
      simp [continuesSkip] at hr
    rw [afterChain_of_not_continuesSkip h hr, if_neg hcon,
      evaluateAfter_of_admits (admits_of_not_continuesSkip hc hn hr hrule)]
    by_cases hne : rest = []
    · subst hne
      rw [if_neg (by rw [length_of_drop_eq_cons h]; simp)]
      rfl
    · have hpos := List.length_pos_iff.mpr hne
      rw [if_pos (by rw [length_of_drop_eq_cons h]; omega), walkOn, hwalk hne]

/-- **Jump and evaluator meet.** The two halves are proved by a single induction on the rules that
are left: a walk comes to a jump, and a jump ends where a walk goes on. -/
theorem walkAgrees_and_jumpAgrees (hv : .never ∉ rules) (left : List Continuation) (stage : Nat)
    (h : rules.drop stage = left) :
    WalkAgrees rules status stage left ∧ JumpAgrees rules status stage left := by
  induction left generalizing stage with
  | nil =>
    refine ⟨fun hne ↦ absurd rfl hne, fun chained carried _ _ ↦ ?_⟩
    rw [afterChain_nil (List.drop_eq_nil_iff.mp h)]
    rfl
  | cons rule rest ih =>
    obtain ⟨hwalk, hjump⟩ := ih (stage + 1) (drop_succ_of_drop_eq_cons h)
    have hrule : rule ≠ .never := by
      rintro rfl
      exact hv (List.mem_of_mem_drop (h ▸ List.mem_cons_self))
    exact ⟨walkAgrees_cons h hrule hwalk hjump, jumpAgrees_cons h hrule hwalk hjump⟩

/-! ## The whole walk -/

theorem isChain_walkFrom (rules : List Continuation) (status : Nat → Int) (stage : Nat) :
    (walkFrom rules status stage).IsChain fun i j ↦ nextStage rules i (status i) = some j := by
  fun_induction walkFrom rules status stage with
  | case1 stage h => exact .singleton _
  | case2 stage next h ih =>
    rw [walkFrom_eq_cons] at ih ⊢
    exact List.isChain_cons_cons.mpr ⟨h, ih⟩

theorem nextStage_getLast?_walkFrom (rules : List Continuation) (status : Nat → Int)
    (stage : Nat) :
    ∀ i ∈ (walkFrom rules status stage).getLast?, nextStage rules i (status i) = none := by
  fun_induction walkFrom rules status stage with
  | case1 stage h =>
    intro i hi
    rw [List.getLast?_singleton, Option.mem_some_iff] at hi
    rwa [← hi]
  | case2 stage next h ih =>
    intro i hi
    rw [walkFrom_eq_cons next, List.getLast?_cons_cons, ← walkFrom_eq_cons] at hi
    exact ih i hi

/-- **A walk is an evaluation.** The stages reached from the first one by `nextStage` are those that
the left-associative and-or list of all stages runs, in order; and there the walk ends. -/
theorem walk_eq_evaluate (hv : .never ∉ rules) (status : Nat → Int) :
    walk rules status = evaluate status (pipelines rules) ∧
      (pipelines rules).flatMap Pipeline.stages = List.range rules.length ∧
      ((walk rules status).IsChain fun i j ↦ nextStage rules i (status i) = some j) ∧
      (walk rules status).Pairwise (· < ·) ∧
      ∀ i ∈ (walk rules status).getLast?, nextStage rules i (status i) = none := by
  have hcut : (pipelines rules).flatMap Pipeline.stages = List.range rules.length := by
    rw [pipelines, flatMap_stages_pipelinesFrom, List.range_eq_range']
  cases rules with
  | nil => simp [walk, pipelines, pipelinesFrom, evaluate]
  | cons rule rest =>
    have hwalk : walk (rule :: rest) status = walkFrom (rule :: rest) status 0 := rfl
    have hchain := isChain_walkFrom (rule :: rest) status 0
    rw [hwalk]
    refine ⟨?_, hcut, hchain, ?_, nextStage_getLast?_walkFrom _ _ _⟩
    · exact (walkAgrees_and_jumpAgrees hv _ 0 rfl).1 (List.cons_ne_nil _ _)
    · exact List.isChain_iff_pairwise.mp (hchain.imp fun _ _ h ↦ (nextStage_bounds h).1)

/-- `a && b | c || d ; e` where `a` fails: the pipeline `b | c` is left out. -/
theorem walk_eq_evaluate_of_failure :
    .never ∉ [Continuation.onSuccess, .concurrent, .onFailure, .unconditional, .unconditional] ∧
      walk [.onSuccess, .concurrent, .onFailure, .unconditional, .unconditional]
        (fun i ↦ if i = 0 then 1 else 0) = [0, 3, 4] :=
  ⟨by decide, (walk_eq_evaluate (by decide) _).1.trans (by decide)⟩

end ShellEngine
