import ShellEngine.Proofs.Line.Neighbours

/-!
# Walks over the stages of a line

A line links two stages twice: by what they hand to each other and by the rule between them. The
plan is sound when the two agree, also along a walk that leaves stages out. This module has the two
properties that a driver of plans relies on.

The first one is about pipes. The stage that writes to a pipe and the one that reads from it are
neighbours in the plan, and `concurrent` stands between them, so that a walk has both of them next
to each other or none (`watertight_of_parse`).

The second one is about `&`. It links by `concurrent` as well, because a command in the background
runs beside what comes after it. For the same reason it does not end a list of conditions as `;`
does: what stands behind `&` is left out together with what stands in front of it
(`succ_mem_walk_iff_of_background`).
-/

namespace ShellEngine

/-! ## Pipes -/

/-- A plan without a loose end: each pipe is where its other end is looked for, in the plan and in
every walk over it. -/
structure Plan.Watertight (p : Plan) : Prop where
  argv : ∀ s ∈ p.stages, s.argv ≠ []
  next : ∀ s ∈ p.stages, s.next ≠ .never
  stdout : ∀ s ∈ p.stages, s.stdout ≠ .buffer ∧ s.stdout ≠ .same
  stderr : ∀ s ∈ p.stages, s.stderr ≠ .pipe ∧ s.stderr ≠ .buffer
  /-- What writes to a pipe runs beside the stage behind it, and that one has its input from
  somewhere. -/
  writer : ∀ i s, p.stages[i]? = some s → s.stdout = .pipe →
    s.next = .concurrent ∧ s.waits = false ∧
      ∃ t, p.stages[i + 1]? = some t ∧ t.stdin ≠ .inherit
  /-- What reads from a pipe stands behind a stage that it runs beside. -/
  reader : ∀ i t, p.stages[i]? = some t → t.stdin = .pipe →
    ∃ j s, i = j + 1 ∧ p.stages[j]? = some s ∧ s.next = .concurrent
  /-- A walk comes to a reader from the stage in front of it only. -/
  entered : ∀ status, ∀ i ∈ walk p.rules status, ∀ t, p.stages[i]? = some t → t.stdin = .pipe →
    ∀ k, [k, i] <:+: walk p.rules status ↔ k + 1 = i
  /-- A walk goes on from a writer to the stage behind it. -/
  left : ∀ status, ∀ i ∈ walk p.rules status, ∀ s, p.stages[i]? = some s → s.stdout = .pipe →
    ∀ k, [i, k] <:+: walk p.rules status ↔ k = i + 1

namespace Line

section

variable {before : Closer} {seps : List Separator} {stages : List Stage} {s : Stage} {i k : Nat}
  {status : Nat → Int}

/-- A stage writes to a pipe only in front of one. -/
theorem Linked.pipe_of_stdout (h : Linked before seps stages) (hs : stages[i]? = some s)
    (hout : s.stdout = .pipe) : seps[i]? = some .pipe := by
  obtain ⟨alone, halone, rfl⟩ := h.exists_linkBetween hs
  rcases stdout_linkBetween_cases halone (closerBefore before seps i) seps[i]? with
    ⟨hafter, -⟩ | hinherit | htarget
  · exact hafter
  · rw [hout] at hinherit
    cases hinherit
  · exact absurd hout (Output.ne_of_isTarget htarget rfl)

/-- Behind a pipe, a stage does not read what the shell reads. -/
theorem Linked.exists_reader (h : Linked before seps stages) (hpipe : seps[i]? = some .pipe) :
    ∃ t, stages[i + 1]? = some t ∧ t.stdin ≠ .inherit := by
  have hlt := h.lt_length_of_promisesCommand hpipe rfl
  have ht : stages[i + 1]? = some stages[i + 1] := List.getElem?_eq_getElem hlt
  obtain ⟨alone, halone, heq⟩ := h.exists_linkBetween ht
  refine ⟨_, ht, ?_⟩
  rw [heq]
  exact stdin_linkBetween_ne_inherit halone _ _ hpipe

theorem Linked.exists_pipe_of_stdin (h : Linked none seps stages) (hs : stages[i]? = some s)
    (hin : s.stdin = .pipe) : ∃ j, i = j + 1 ∧ seps[j]? = some .pipe := by
  obtain ⟨alone, halone, rfl⟩ := h.exists_linkBetween hs
  have hbefore := stdin_linkBetween_eq_pipe halone _ _ hin
  cases i with
  | zero => cases hbefore
  | succ j => exact ⟨j, rfl, hbefore⟩

theorem Linked.concurrent (h : Linked before seps stages) (hi : i < stages.length)
    (hsep : seps[i]? = some .pipe ∨ seps[i]? = some .background) :
    (stages.map Stage.next)[i]? = some .concurrent := by
  rw [h.rule hi]
  rcases hsep with hsep | hsep <;> rw [hsep] <;> rfl

theorem Linked.concurrent_of_pipe (h : Linked before seps stages)
    (hpipe : seps[i]? = some .pipe) :
    i + 1 < stages.length ∧ (stages.map Stage.next)[i]? = some .concurrent := by
  have hlt := h.lt_length_of_promisesCommand hpipe rfl
  exact ⟨hlt, h.concurrent (Nat.lt_of_succ_lt hlt) (Or.inl hpipe)⟩

/-- **Entering a pipe.** A walk has the reader of a pipe right behind its writer. -/
theorem Linked.isInfix_walk_of_stdin (h : Linked none seps stages) (hs : stages[i]? = some s)
    (hin : s.stdin = .pipe) (hmem : i ∈ walk (stages.map Stage.next) status) :
    [k, i] <:+: walk (stages.map Stage.next) status ↔ k + 1 = i := by
  obtain ⟨j, rfl, hpipe⟩ := h.exists_pipe_of_stdin hs hin
  obtain ⟨-, hconcurrent⟩ := h.concurrent_of_pipe hpipe
  rw [isInfix_walk_iff_of_concurrent h.never_not_mem hconcurrent hmem, Nat.succ_inj]

/-- **Leaving a pipe.** A walk goes on from the writer of a pipe to its reader. -/
theorem Linked.isInfix_walk_of_stdout (h : Linked before seps stages) (hs : stages[i]? = some s)
    (hout : s.stdout = .pipe) (hmem : i ∈ walk (stages.map Stage.next) status) :
    [i, k] <:+: walk (stages.map Stage.next) status ↔ k = i + 1 := by
  obtain ⟨hlt, hconcurrent⟩ := h.concurrent_of_pipe (h.pipe_of_stdout hs hout)
  have hnext := nextStage_of_concurrent hconcurrent (by simpa using hlt) (status i)
  rw [isInfix_walk_iff, hnext, Option.some.injEq, eq_comm (a := i + 1)]
  exact and_iff_right hmem

end

/-- **Pipes never dangle.** Every line that is accepted makes a watertight plan. -/
theorem watertight_of_parse {line : String} {plan : Plan} (h : parse line = .ok plan) :
    plan.Watertight := by
  obtain ⟨ps, stages, hps, -, -⟩ := parse_eq_ok_iff.mp h
  have hlinked := linked_of_parse h hps
  have halone : ∀ s ∈ plan.stages, ∃ alone before after, Unlinked alone ∧
      s = linkBetween before after alone := by
    intro s hs
    obtain ⟨i, hi⟩ := List.mem_iff_getElem?.mp hs
    obtain ⟨alone, halone, heq⟩ := hlinked.exists_linkBetween hi
    exact ⟨alone, _, _, halone, heq⟩
  constructor
  case argv =>
    intro s hs
    obtain ⟨alone, before, after, halone, rfl⟩ := halone s hs
    exact argv_linkBetween_ne_nil halone before after
  case next =>
    intro s hs
    obtain ⟨alone, before, after, halone, rfl⟩ := halone s hs
    rw [next_linkBetween halone]
    exact Closer.rule_ne_never after
  case stdout =>
    intro s hs
    obtain ⟨alone, before, after, halone, rfl⟩ := halone s hs
    rcases stdout_linkBetween_cases halone before after with ⟨-, hout⟩ | hout | hout
    · simp [hout]
    · simp [hout]
    · exact ⟨Output.ne_of_isTarget hout rfl, Output.ne_of_isTarget hout rfl⟩
  case stderr =>
    intro s hs
    obtain ⟨alone, before, after, halone, rfl⟩ := halone s hs
    rcases stderr_linkBetween_cases halone before after with herr | herr | herr
    · simp [herr]
    · simp [herr]
    · exact ⟨Output.ne_of_isTarget herr rfl, Output.ne_of_isTarget herr rfl⟩
  case writer =>
    intro i s hs hout
    have hpipe := hlinked.pipe_of_stdout hs hout
    obtain ⟨alone, halone, rfl⟩ := hlinked.exists_linkBetween hs
    rw [next_linkBetween halone, waits_linkBetween halone, hpipe]
    exact ⟨rfl, rfl, hlinked.exists_reader hpipe⟩
  case reader =>
    intro i t ht hin
    obtain ⟨j, rfl, hpipe⟩ := hlinked.exists_pipe_of_stdin ht hin
    obtain ⟨-, hconcurrent⟩ := hlinked.concurrent_of_pipe hpipe
    rw [List.getElem?_map, Option.map_eq_some_iff] at hconcurrent
    obtain ⟨s, hs, hnext⟩ := hconcurrent
    exact ⟨j, s, rfl, hs, hnext⟩
  case entered =>
    intro status i hmem t ht hin k
    exact hlinked.isInfix_walk_of_stdin ht hin hmem
  case left =>
    intro status i hmem s hs hout k
    exact hlinked.isInfix_walk_of_stdout hs hout hmem

/-- A pipeline behind a condition, one of its stages with an input of its own. -/
theorem watertight_of_parse_pipeline :
    parse "make && cat log | sort < raw | head -1 > top; date" =
      .ok (Plan.ofStages "make && cat log | sort < raw | head -1 > top; date"
        [{ argv := ["make"], text := "make", next := .onSuccess },
          { argv := ["cat", "log"], text := "cat log", stdout := .pipe, next := .concurrent
            waits := false },
          { argv := ["sort"], text := "sort < raw", stdin := .file "raw", stdout := .pipe
            next := .concurrent, waits := false },
          { argv := ["head", "-1"], text := "head -1 > top", stdin := .pipe
            stdout := .overwrite "top" },
          { argv := ["date"], text := "date" }]) ∧
    (Plan.ofStages "make && cat log | sort < raw | head -1 > top; date"
        [{ argv := ["make"], text := "make", next := .onSuccess },
          { argv := ["cat", "log"], text := "cat log", stdout := .pipe, next := .concurrent
            waits := false },
          { argv := ["sort"], text := "sort < raw", stdin := .file "raw", stdout := .pipe
            next := .concurrent, waits := false },
          { argv := ["head", "-1"], text := "head -1 > top", stdin := .pipe
            stdout := .overwrite "top" },
          { argv := ["date"], text := "date" }]).Watertight := by
  refine ⟨?hparse, watertight_of_parse ?hparse⟩
  decide +kernel

/-! ## What follows a background command -/

section

variable {before : Closer} {seps : List Separator} {stages : List Stage} {i : Nat}

/-- The conditions of a plan are its `&&` and `||`, and each `;` settles those in front of it. -/
theorem Linked.settled_iff (h : Linked before seps stages) (hi : i < stages.length)
    (hlen : i ≤ seps.length) :
    Settled (stages.map Stage.next) i ↔
      ∀ k < i, seps[k]? = some .and ∨ seps[k]? = some .or →
        ∃ l < i, k < l ∧ seps[l]? = some .semi := by
  -- only the end of the line has a rule without a separator, and it is not in front of a stage
  have hrule : ∀ k < i, ∃ sep, seps[k]? = some sep ∧
      (stages.map Stage.next)[k]? = some (Closer.rule (some sep)) := by
    intro k hk
    have hsep : seps[k]? = some seps[k] := List.getElem?_eq_getElem (Nat.lt_of_lt_of_le hk hlen)
    exact ⟨_, hsep, by rw [h.rule (Nat.lt_trans hk hi), hsep]⟩
  have hsettles : ∀ l < i, (stages.map Stage.next)[l]? = some .unconditional ↔
      seps[l]? = some .semi := by
    intro l hl
    obtain ⟨sep, hsep, hget⟩ := hrule l hl
    rw [hget, hsep, Option.some.injEq, Option.some.injEq, Closer.rule_eq_unconditional_iff]
  constructor
  · intro hsettled k hk hcondition
    obtain ⟨sep, hsep, hget⟩ := hrule k hk
    have hrulecondition : (Closer.rule (some sep)).IsCondition := by
      rwa [Closer.isCondition_rule_iff, ← hsep]
    obtain ⟨l, hl, hkl, hlrule⟩ := hsettled k hk _ hget hrulecondition
    exact ⟨l, hl, hkl, (hsettles l hl).mp hlrule⟩
  · intro hsettled k hk rule hrulek hcondition
    obtain ⟨sep, hsep, hget⟩ := hrule k hk
    rw [hget, Option.some.injEq] at hrulek
    rw [← hrulek, Closer.isCondition_rule_iff, ← hsep] at hcondition
    obtain ⟨l, hl, hkl, hsemi⟩ := hsettled k hk hcondition
    exact ⟨l, hl, hkl, (hsettles l hl).mpr hsemi⟩

end

/-- **Behind `&`.** A stage behind `&` runs exactly when the one in the background does. So it runs
whatever the stages in front of it return exactly when every `&&` and `||` in front of the `&` has a
`;` between itself and the `&`. -/
theorem succ_mem_walk_iff_of_background {line : String} {plan : Plan} {ps : List Piece} {i : Nat}
    (h : parse line = .ok plan) (hps : pieces line.toList = .ok ps)
    (hsep : (separators ps)[i]? = some .background) (hi : i + 1 < plan.stages.length) :
    (∀ status, i + 1 ∈ walk plan.rules status ↔ i ∈ walk plan.rules status) ∧
      ((∀ status, i + 1 ∈ walk plan.rules status) ↔
        ∀ k < i, (separators ps)[k]? = some .and ∨ (separators ps)[k]? = some .or →
          ∃ l < i, k < l ∧ (separators ps)[l]? = some .semi) := by
  have hlinked := linked_of_parse h hps
  have hv : .never ∉ plan.rules := hlinked.never_not_mem
  have hlen : i + 1 < plan.rules.length := by simpa [Plan.rules] using hi
  have hconcurrent : plan.rules[i]? = some .concurrent :=
    hlinked.concurrent (Nat.lt_of_succ_lt hi) (Or.inr hsep)
  have hboth : ∀ status, i + 1 ∈ walk plan.rules status ↔ i ∈ walk plan.rules status :=
    fun status ↦ succ_mem_walk_iff_of_concurrent hv hconcurrent hlen
  refine ⟨hboth, ?_⟩
  obtain ⟨hltseps, -⟩ := List.getElem?_eq_some_iff.mp hsep
  rw [forall_congr' hboth, forall_mem_walk_iff_settled hv (Nat.lt_of_succ_lt hlen)]
  exact hlinked.settled_iff (Nat.lt_of_succ_lt hi) (Nat.le_of_lt hltseps)

/-- The `;` settles the condition in front of it. -/
theorem succ_mem_walk_of_settled_background :
    ∃ plan, parse "false && a; b & c" = .ok plan ∧ plan.stages.length = 4 ∧
      ∀ status, 3 ∈ walk plan.rules status := by
  have hparse : parse "false && a; b & c" = .ok (Plan.ofStages "false && a; b & c"
      [{ argv := ["false"], text := "false", next := .onSuccess },
        { argv := ["a"], text := "a" },
        { argv := ["b"], text := "b", next := .concurrent, waits := false, graceful := true },
        { argv := ["c"], text := "c" }]) := by
    decide +kernel
  obtain ⟨ps, hps, hseps⟩ := exists_pieces_of_map_separators
    (show (pieces "false && a; b & c".toList).map separators = .ok [.and, .semi, .background] by
      decide +kernel)
  refine ⟨_, hparse, rfl, ?_⟩
  refine (succ_mem_walk_iff_of_background hparse hps (by rw [hseps]; rfl) (by decide)).2.mpr ?_
  rw [hseps]
  decide

/-- Behind a condition without a `;`, the stage behind `&` is left out as well. -/
theorem succ_not_mem_walk_of_background :
    ∃ plan ps, parse "false && a & b" = .ok plan ∧ pieces "false && a & b".toList = .ok ps ∧
      separators ps = [.and, .background] ∧ plan.stages.length = 3 ∧
      2 ∉ walk plan.rules fun i ↦ if i = 0 then 1 else 0 := by
  have hparse : parse "false && a & b" = .ok (Plan.ofStages "false && a & b"
      [{ argv := ["false"], text := "false", next := .onSuccess },
        { argv := ["a"], text := "a", next := .concurrent, waits := false, graceful := true },
        { argv := ["b"], text := "b" }]) := by
    decide +kernel
  obtain ⟨ps, hps, hseps⟩ := exists_pieces_of_map_separators
    (show (pieces "false && a & b".toList).map separators = .ok [.and, .background] by
      decide +kernel)
  refine ⟨_, ps, hparse, hps, hseps, rfl, ?_⟩
  have hwalk : walkFrom [.onSuccess, .concurrent, .unconditional]
      (fun i ↦ if i = 0 then 1 else 0) 0 = [0] := by
    rw [walkFrom_eq_cons]
    rfl
  show 2 ∉ walkFrom [.onSuccess, .concurrent, .unconditional] (fun i ↦ if i = 0 then 1 else 0) 0
  rw [hwalk]
  decide

end Line

end ShellEngine
