import ShellEngine.Proofs.Plan.AndOr
import Mathlib.Data.List.Chain
import Mathlib.Data.List.Infix

/-!
# The steps of a walk

How a walk gets from one stage to the next, said without the jump. Every step goes through a
*gate*: the walk leaves a stage linked by `concurrent` at once, and any other stage behind the first
rule from there on that admits the stage's status (`nextStage_eq_gate`). A rule that holds is such
a rule itself; a rule that does not hold is passed together with the chain behind it, none of whose
rules admits the status either.

Two things follow about the stages of a plan. A stage behind `concurrent` runs exactly when the
stage in front of it does, and a stage behind `unconditional` always runs, because no gate lies
further on. Between them they say which stages run whatever happens (`forall_mem_walk_iff`).
-/

namespace ShellEngine

variable {rules : List Continuation} {rule chained : Continuation} {status : Nat → Int}
  {carried : Int} {stage i j k : Nat}

/-! ## Gates -/

/-- The stage behind which a walk goes on that left stage `stage` with status `carried`. -/
def gate (rules : List Continuation) (stage : Nat) (carried : Int) : Nat :=
  if rules[stage]? = some .concurrent then stage
  else stage + (rules.drop stage).findIdx (·.admits carried)

theorem gate_of_concurrent (h : rules[stage]? = some .concurrent) (carried : Int) :
    gate rules stage carried = stage := if_pos h

theorem le_gate (rules : List Continuation) (stage : Nat) (carried : Int) :
    stage ≤ gate rules stage carried := by
  rw [gate]
  split <;> omega

theorem gate_le (h : rules[k]? = some rule) (ha : rule.admits carried = true) (hk : stage ≤ k) :
    gate rules stage carried ≤ k := by
  rw [gate]
  split
  · exact hk
  · by_contra hlt
    have hfind : k - stage < (rules.drop stage).findIdx (·.admits carried) := by omega
    have hnot := List.not_of_lt_findIdx hfind
    have hget : (rules.drop stage)[k - stage]? = some rule := by
      rw [List.getElem?_drop, Nat.add_sub_cancel' hk, h]
    rw [(List.getElem?_eq_some_iff.mp hget).2, ha] at hnot
    cases hnot

/-- What stands at a gate: the rule of the stage itself or one that admits its status. -/
theorem eq_or_admits_of_gate (h : gate rules stage carried < rules.length) :
    rules[stage]? = some .concurrent ∨
      ∃ rule, rules[gate rules stage carried]? = some rule ∧ rule.admits carried = true := by
  by_cases hc : rules[stage]? = some .concurrent
  · exact Or.inl hc
  · rw [gate, if_neg hc] at h ⊢
    have hfind : (rules.drop stage).findIdx (·.admits carried) < (rules.drop stage).length := by
      rw [List.length_drop]
      omega
    exact Or.inr ⟨_, by rw [← List.getElem?_drop, List.getElem?_eq_getElem hfind],
      List.findIdx_getElem (w := hfind)⟩

/-! ## A step goes through a gate -/

/-- A skipped chain is made of the rules that admit nothing of the status it is skipped for. -/
theorem continuesSkip_eq (hc : chained = .onSuccess ∨ chained = .onFailure)
    (hn : chained.admits carried = false) (hv : rule ≠ .never) :
    continuesSkip chained rule = !rule.admits carried := by
  cases hr : continuesSkip chained rule with
  | false => rw [admits_of_not_continuesSkip hc hn hr hv, Bool.not_true]
  | true =>
    have heq : rule = chained ∨ rule = .concurrent := by simpa [continuesSkip] using hr
    rcases heq with rfl | rfl
    · rw [hn, Bool.not_false]
    · rfl

theorem length_takeWhile_eq_findIdx {α : Type} {p q : α → Bool} {l : List α}
    (h : ∀ a ∈ l, p a = !q a) : (l.takeWhile p).length = l.findIdx q := by
  induction l with
  | nil => rfl
  | cons a l ih =>
    obtain ⟨ha, hl⟩ := List.forall_mem_cons.mp h
    rw [List.findIdx_cons, List.takeWhile_cons, ha]
    cases q a with
    | true => rfl
    | false => simp [ih hl]

/-- A jump that begins behind a stage whose rule does not hold ends where the gate is. -/
theorem afterChain_eq_gate (hv : .never ∉ rules) (h : rules[stage]? = some chained)
    (hc : chained = .onSuccess ∨ chained = .onFailure) (hn : chained.admits carried = false) :
    afterChain rules (stage + 1) chained
      = if gate rules stage carried + 1 < rules.length then some (gate rules stage carried + 1)
        else none := by
  obtain ⟨hlt, hget⟩ := List.getElem?_eq_some_iff.mp h
  have hcon : ¬rules[stage]? = some .concurrent := by
    rw [h]
    rcases hc with rfl | rfl <;> simp
  have hchain : ((rules.drop (stage + 1)).takeWhile (continuesSkip chained)).length
      = (rules.drop (stage + 1)).findIdx (·.admits carried) :=
    length_takeWhile_eq_findIdx fun rule hrule ↦ continuesSkip_eq hc hn <| by
      rintro rfl
      exact hv (List.mem_of_mem_drop hrule)
  -- a rule that does not hold is no gate, so the search for one begins behind it
  have hgate : gate rules stage carried
      = stage + 1 + (rules.drop (stage + 1)).findIdx (·.admits carried) := by
    rw [gate, if_neg hcon, List.drop_eq_getElem_cons hlt, hget, List.findIdx_cons, hn, cond_false]
    omega
  rw [afterChain, hchain, ← hgate]

/-- **A step goes through a gate.** A walk goes on behind the gate of the stage it leaves, and ends
if no stage is there. -/
theorem nextStage_eq_gate (hv : .never ∉ rules) (stage : Nat) (carried : Int) :
    nextStage rules stage carried
      = if gate rules stage carried + 1 < rules.length then some (gate rules stage carried + 1)
        else none := by
  by_cases hlast : rules.length ≤ stage + 1
  · have hle := le_gate rules stage carried
    rw [nextStage, if_pos hlast, if_neg (by omega)]
  · have hlt : stage < rules.length := by omega
    have hget : rules[stage]? = some rules[stage] := List.getElem?_eq_getElem hlt
    have hdrop : rules.drop stage = rules[stage] :: rules.drop (stage + 1) :=
      List.drop_eq_getElem_cons hlt
    have hne : rules.drop (stage + 1) ≠ [] := by
      simpa using hlast
    have hrule : rules[stage] ≠ .never := fun h ↦ hv (h ▸ List.getElem_mem hlt)
    -- a rule that holds is its own gate, and from one that does not hold the walk jumps
    by_cases ha : rules[stage] = .concurrent ∨ rules[stage].admits carried = true
    · have hgate : gate rules stage carried = stage := by
        rcases ha with hcon | ha
        · exact gate_of_concurrent (by rw [hget, hcon]) carried
        · exact Nat.le_antisymm (gate_le hget ha (Nat.le_refl _)) (le_gate _ _ _)
      rw [nextStage_of_admits hdrop hne ha, hgate, if_pos (by omega)]
    · rw [not_or, Bool.not_eq_true] at ha
      have hc : rules[stage] = .onSuccess ∨ rules[stage] = .onFailure := by
        generalize rules[stage] = rule at ha hrule
        cases rule <;> simp_all [Continuation.admits]
      rw [nextStage_of_not_admits hdrop hne hc ha.2, afterChain_eq_gate hv hget hc ha.2]

/-- How a walk comes to a stage: from the stage in front of it, linked by `concurrent`, or because
the rule in front of it admits a status. -/
theorem concurrent_or_admits_of_nextStage (hv : .never ∉ rules)
    (h : nextStage rules i carried = some (k + 1)) :
    (rules[k]? = some .concurrent ∧ i = k) ∨
      ∃ rule, rules[k]? = some rule ∧ rule.admits carried = true := by
  rw [nextStage_eq_gate hv, Option.ite_none_right_eq_some, Option.some.injEq, Nat.succ_inj] at h
  obtain ⟨hlt, rfl⟩ := h
  rcases eq_or_admits_of_gate (Nat.lt_of_succ_lt hlt) with hi | hadmits
  · rw [gate_of_concurrent hi]
    exact Or.inl ⟨hi, rfl⟩
  · exact Or.inr hadmits

theorem eq_of_nextStage_of_concurrent (hv : .never ∉ rules) (hk : rules[k]? = some .concurrent)
    (h : nextStage rules i carried = some (k + 1)) : i = k := by
  rcases concurrent_or_admits_of_nextStage hv h with ⟨-, hi⟩ | ⟨rule, hrule, ha⟩
  · exact hi
  · rw [hk, Option.some.injEq] at hrule
    rw [← hrule] at ha
    cases ha

theorem nextStage_of_concurrent (hk : rules[k]? = some .concurrent) (hlt : k + 1 < rules.length)
    (carried : Int) : nextStage rules k carried = some (k + 1) := by
  obtain ⟨hlen, hget⟩ := List.getElem?_eq_some_iff.mp hk
  exact nextStage_of_admits (List.drop_eq_getElem_cons hlen) (by simpa using hlt) (Or.inl hget)

/-! ## Neighbours in a walk -/

theorem walk_eq_walkFrom (hne : rules ≠ []) (status : Nat → Int) :
    walk rules status = walkFrom rules status 0 := by
  rw [walk, if_neg (by simpa using hne)]

theorem mem_walkFrom_self (rules : List Continuation) (status : Nat → Int) (stage : Nat) :
    stage ∈ walkFrom rules status stage := by
  rw [walkFrom_eq_cons]
  exact List.mem_cons_self

theorem zero_mem_walk (hne : rules ≠ []) (status : Nat → Int) : 0 ∈ walk rules status := by
  rw [walk_eq_walkFrom hne]
  exact mem_walkFrom_self rules status 0

/-- Where a walk goes on from a stage, both stages stand next to each other in it. -/
theorem isInfix_walkFrom (hi : i ∈ walkFrom rules status stage)
    (h : nextStage rules i (status i) = some j) : [i, j] <:+: walkFrom rules status stage := by
  fun_induction walkFrom rules status stage with
  | case1 stage hend =>
    rw [List.mem_singleton] at hi
    rw [hi, hend] at h
    cases h
  | case2 stage next hnext ih =>
    rcases List.mem_cons.mp hi with rfl | hi
    · rw [hnext, Option.some.injEq] at h
      rw [← h, walkFrom_eq_cons next]
      exact (List.prefix_append [i, next] _).isInfix
    · exact (ih hi).trans (List.suffix_cons _ _).isInfix

/-- Every stage of a walk but the first one has another in front of it. -/
theorem exists_isInfix_walkFrom (hj : j ∈ walkFrom rules status stage) (hne : j ≠ stage) :
    ∃ i, [i, j] <:+: walkFrom rules status stage := by
  fun_induction walkFrom rules status stage with
  | case1 stage hend => exact absurd (List.mem_singleton.mp hj) hne
  | case2 stage next hnext ih =>
    have hj := (List.mem_cons.mp hj).resolve_left hne
    by_cases heq : j = next
    · rw [heq, walkFrom_eq_cons next]
      exact ⟨stage, (List.prefix_append [stage, next] _).isInfix⟩
    · obtain ⟨i, hi⟩ := ih hj heq
      exact ⟨i, hi.trans (List.suffix_cons _ _).isInfix⟩

/-- **Neighbours.** One stage stands right before another in a walk when the walk comes to the first
and goes on from there to the second. -/
theorem isInfix_walk_iff :
    [i, j] <:+: walk rules status ↔
      i ∈ walk rules status ∧ nextStage rules i (status i) = some j := by
  by_cases hne : rules = []
  · simp [hne, walk]
  · rw [walk_eq_walkFrom hne]
    constructor
    · intro h
      refine ⟨h.mem List.mem_cons_self, ?_⟩
      obtain ⟨before, after, hcut⟩ := h
      have hchain := isChain_walkFrom rules status 0
      rw [← hcut, List.append_assoc] at hchain
      exact (List.isChain_cons_cons.mp (List.isChain_append.mp hchain).2.1).1
    · rintro ⟨hi, h⟩
      exact isInfix_walkFrom hi h

theorem exists_isInfix_walk (hj : j ∈ walk rules status) (hne : j ≠ 0) :
    ∃ i, [i, j] <:+: walk rules status := by
  by_cases hrules : rules = []
  · simp [hrules, walk] at hj
  · rw [walk_eq_walkFrom hrules] at hj ⊢
    exact exists_isInfix_walkFrom hj hne

/-! ## Which stages run -/

/-- A walk comes to a stage behind `concurrent` only from the stage in front of it. -/
theorem isInfix_walk_iff_of_concurrent (hv : .never ∉ rules) (hk : rules[k]? = some .concurrent)
    (hmem : k + 1 ∈ walk rules status) : [i, k + 1] <:+: walk rules status ↔ i = k := by
  obtain ⟨i', hi'⟩ := exists_isInfix_walk hmem (Nat.succ_ne_zero k)
  constructor
  · intro h
    exact eq_of_nextStage_of_concurrent hv hk (isInfix_walk_iff.mp h).2
  · rintro rfl
    rwa [eq_of_nextStage_of_concurrent hv hk (isInfix_walk_iff.mp hi').2] at hi'

/-- **Side by side.** A stage behind `concurrent` runs exactly when the one in front of it does. -/
theorem succ_mem_walk_iff_of_concurrent (hv : .never ∉ rules)
    (hk : rules[k]? = some .concurrent) (hlt : k + 1 < rules.length) :
    k + 1 ∈ walk rules status ↔ k ∈ walk rules status := by
  constructor
  · intro h
    exact ((isInfix_walk_iff_of_concurrent hv hk h).mpr rfl).mem List.mem_cons_self
  · intro h
    exact (isInfix_walk_iff.mpr ⟨h, nextStage_of_concurrent hk hlt _⟩).mem (by simp)

/-- No step passes a stage behind `unconditional`. -/
theorem succ_mem_walkFrom_of_unconditional (hv : .never ∉ rules)
    (hk : rules[k]? = some .unconditional) (hlt : k + 1 < rules.length) (hle : stage ≤ k) :
    k + 1 ∈ walkFrom rules status stage := by
  -- the gate of each stage up to `k` is at `k` at the latest, so no step gets past `k + 1`
  fun_induction walkFrom rules status stage with
  | case1 stage hend =>
    have hgate : gate rules stage (status stage) ≤ k := gate_le hk rfl hle
    rw [nextStage_eq_gate hv, if_pos (by omega)] at hend
    cases hend
  | case2 stage next hnext ih =>
    have hgate : gate rules stage (status stage) ≤ k := gate_le hk rfl hle
    rw [nextStage_eq_gate hv, if_pos (by omega), Option.some.injEq] at hnext
    by_cases heq : next = k + 1
    · rw [heq]
      exact List.mem_cons_of_mem _ (mem_walkFrom_self _ _ _)
    · exact List.mem_cons_of_mem _ (ih (by omega))

theorem succ_mem_walk_of_unconditional (hv : .never ∉ rules)
    (hk : rules[k]? = some .unconditional) (hlt : k + 1 < rules.length) (status : Nat → Int) :
    k + 1 ∈ walk rules status := by
  have hne : rules ≠ [] := by
    rintro rfl
    cases hk
  rw [walk_eq_walkFrom hne]
  exact succ_mem_walkFrom_of_unconditional hv hk hlt (Nat.zero_le _)

/-- A stage behind a condition is left out if all stages end with a status that it does not
admit. -/
theorem succ_not_mem_walk_of_not_admits (hv : .never ∉ rules) (hk : rules[k]? = some rule)
    (hc : rule ≠ .concurrent) (hn : rule.admits carried = false) :
    k + 1 ∉ walk rules fun _ ↦ carried := by
  intro hmem
  obtain ⟨i, hi⟩ := exists_isInfix_walk hmem (Nat.succ_ne_zero k)
  rcases concurrent_or_admits_of_nextStage hv (isInfix_walk_iff.mp hi).2 with
    ⟨hcon, -⟩ | ⟨rule', hrule', ha⟩
  · rw [hk, Option.some.injEq] at hcon
    exact hc hcon
  · rw [hk, Option.some.injEq] at hrule'
    rw [← hrule', hn] at ha
    cases ha

/-- Whether a rule makes the stage after it depend on a status. -/
def Continuation.IsCondition (rule : Continuation) : Prop := rule = .onSuccess ∨ rule = .onFailure

theorem Continuation.IsCondition.ne_unconditional (h : rule.IsCondition) :
    rule ≠ .unconditional := by
  rcases h with rfl | rfl <;> simp

theorem Continuation.IsCondition.ne_concurrent (h : rule.IsCondition) : rule ≠ .concurrent := by
  rcases h with rfl | rfl <;> simp

theorem Continuation.IsCondition.exists_not_admits (h : rule.IsCondition) :
    ∃ carried, rule.admits carried = false := by
  rcases h with rfl | rfl
  · exact ⟨1, rfl⟩
  · exact ⟨0, rfl⟩

/-- Every condition in front of stage `i` has an `unconditional` between itself and the stage. -/
def Settled (rules : List Continuation) (i : Nat) : Prop :=
  ∀ k < i, ∀ rule, rules[k]? = some rule → rule.IsCondition →
    ∃ l < i, k < l ∧ rules[l]? = some .unconditional

theorem settled_succ_of_unconditional (hi : rules[i]? = some .unconditional) :
    Settled rules (i + 1) := by
  intro k hk rule hrule hcondition
  rcases Nat.lt_succ_iff_lt_or_eq.mp hk with hlt | rfl
  · exact ⟨i, Nat.lt_succ_self i, hlt, hi⟩
  · rw [hi, Option.some.injEq] at hrule
    exact absurd hrule.symm hcondition.ne_unconditional

theorem settled_succ_iff_of_concurrent (hi : rules[i]? = some .concurrent) :
    Settled rules (i + 1) ↔ Settled rules i := by
  constructor
  · intro h k hk rule hrule hcondition
    obtain ⟨l, hl, hkl, hlrule⟩ := h k (by omega) rule hrule hcondition
    refine ⟨l, Nat.lt_of_le_of_ne (by omega) ?_, hkl, hlrule⟩
    rintro rfl
    rw [hi] at hlrule
    cases hlrule
  · intro h k hk rule hrule hcondition
    rcases Nat.lt_succ_iff_lt_or_eq.mp hk with hlt | rfl
    · obtain ⟨l, hl, hkl, hlrule⟩ := h k hlt rule hrule hcondition
      exact ⟨l, by omega, hkl, hlrule⟩
    · rw [hi, Option.some.injEq] at hrule
      exact absurd hrule.symm hcondition.ne_concurrent

theorem not_settled_succ_of_isCondition (hi : rules[i]? = some rule) (hc : rule.IsCondition) :
    ¬Settled rules (i + 1) := by
  intro h
  obtain ⟨l, hl, hil, -⟩ := h i (Nat.lt_succ_self i) rule hi hc
  omega

/-- **What always runs.** A stage runs whatever the stages return exactly when every condition in
front of it has an `unconditional` behind it that is still in front of the stage. -/
theorem forall_mem_walk_iff_settled (hv : .never ∉ rules) (hi : i < rules.length) :
    (∀ status, i ∈ walk rules status) ↔ Settled rules i := by
  induction i with
  | zero =>
    have hsettled : Settled rules 0 := fun k hk ↦ absurd hk (Nat.not_lt_zero k)
    exact iff_of_true (zero_mem_walk (List.ne_nil_of_length_pos hi)) hsettled
  | succ i ih =>
    have hlt : i < rules.length := Nat.lt_of_succ_lt hi
    have hget : rules[i]? = some rules[i] := List.getElem?_eq_getElem hlt
    -- only `concurrent` leaves the question to the stages further ahead
    cases hrule : rules[i] with
    | unconditional =>
      rw [hrule] at hget
      exact iff_of_true (succ_mem_walk_of_unconditional hv hget hi)
        (settled_succ_of_unconditional hget)
    | concurrent =>
      rw [hrule] at hget
      simp only [succ_mem_walk_iff_of_concurrent hv hget hi, ih hlt,
        settled_succ_iff_of_concurrent hget]
    | never => exact absurd (hrule ▸ List.getElem_mem hlt) hv
    | onSuccess | onFailure =>
      have hcondition : rules[i].IsCondition := by simp [Continuation.IsCondition, hrule]
      obtain ⟨carried, hn⟩ := hcondition.exists_not_admits
      have hnot := succ_not_mem_walk_of_not_admits hv hget hcondition.ne_concurrent hn
      exact iff_of_false (fun h ↦ hnot (h _))
        (not_settled_succ_of_isCondition hget hcondition)

end ShellEngine
