import ShellEngine.Proofs.Line.Printing
import ShellEngine.Proofs.Line.StageText
import ShellEngine.Proofs.Plan.Steps

/-!
# Stages and the separators around them

Linking goes through a line from left to right, and the two ends of a pipe are made at different
times: the output of a stage when its separator is read, the input of the next one when that stage
is complete. Here the result is said without the order of events. Stage `i` of a plan is what its
fragment makes of it alone, with the separators `i - 1` and `i` of the line at its sides
(`Linked.exists_linkBetween`), and a separator that promises a command has a stage behind it
(`Linked.length_of_promisesCommand`). Whatever a plan says about two neighbours follows from these.
-/

namespace ShellEngine

/-- Whether an output is one that a redirection with a path makes. -/
def Output.isTarget : Output → Bool
  | .overwrite _ | .append _ | .null => true
  | _ => false

theorem Output.ne_of_isTarget {o o' : Output} (h : o.isTarget = true) (h' : o'.isTarget = false) :
    o ≠ o' := by
  rintro rfl
  rw [h] at h'
  cases h'

namespace Line

/-! ## A stage alone -/

namespace Draft

/-- The outputs of the draft are targets, and that for errors may be `2>&1` as well. -/
structure Redirected (d : Draft) : Prop where
  stdout : ∀ o ∈ d.stdout, o.isTarget = true
  stderr : ∀ o ∈ d.stderr, o = .same ∨ o.isTarget = true

theorem isTarget_overwriteOf (path : String) : (overwriteOf path).isTarget = true := by
  rcases overwriteOf_eq path with h | h <;> rw [h] <;> rfl

theorem isTarget_appendOf (path : String) : (appendOf path).isTarget = true := by
  rcases appendOf_eq path with h | h <;> rw [h] <;> rfl

theorem Redirected.redirect {d : Draft} (h : d.Redirected) (r : Redirection) (path : String) :
    (d.redirect r path).Redirected := by
  cases r with
  | input => exact ⟨h.stdout, h.stderr⟩
  | overwrite => exact ⟨by simp [Draft.redirect, isTarget_overwriteOf], h.stderr⟩
  | append => exact ⟨by simp [Draft.redirect, isTarget_appendOf], h.stderr⟩
  | errOverwrite => exact ⟨h.stdout, by simp [Draft.redirect, isTarget_overwriteOf]⟩
  | errAppend => exact ⟨h.stdout, by simp [Draft.redirect, isTarget_appendOf]⟩

theorem redirected_of_ofPieces {ps : List Piece} {d : Draft} (h : ofPieces ps = .ok d) :
    d.Redirected :=
  invariant_of_ofPieces ⟨by simp, by simp⟩ (fun _ _ _ _ hd ↦ ⟨hd.stdout, hd.stderr⟩)
    (fun _ r path hd ↦ hd.redirect r path) (fun _ hd ↦ ⟨hd.stdout, by simp⟩) h

end Draft

/-- A stage as its fragment makes it, before it is linked. -/
structure Unlinked (s : Stage) : Prop where
  argv : s.argv ≠ []
  stdin : s.stdin ≠ .pipe
  stdout : s.stdout = .inherit ∨ s.stdout.isTarget = true
  stderr : s.stderr = .inherit ∨ s.stderr = .same ∨ s.stderr.isTarget = true
  next : s.next = .unconditional
  waits : s.waits = true
  graceful : s.graceful = false

theorem Fragment.unlinked_stage {f : Fragment} {s : Stage} (h : f.stage = .ok s) :
    Unlinked s := by
  rw [f.stage_eq] at h
  obtain ⟨d, hd, hs⟩ := bind_eq_ok_iff.mp h
  have hpiped := Draft.unpiped_of_ofPieces hd
  have htargets := Draft.redirected_of_ofPieces hd
  obtain ⟨-, hargv, rfl⟩ := Draft.stage_eq_ok_iff.mp hs
  refine ⟨by simpa using hargv, ?_, ?_, ?_, rfl, rfl, rfl⟩
  · intro hpipe
    exact hpiped.stdin ((Option.getD_eq_iff.mp hpipe).resolve_right (by simp))
  · cases ho : d.stdout with
    | none => exact Or.inl rfl
    | some o => exact Or.inr (htargets.stdout o ho)
  · cases ho : d.stderr with
    | none => exact Or.inl rfl
    | some o => exact Or.inr (htargets.stderr o ho)

/-! ## A stage between two separators -/

/-- Links a stage to both of its neighbours. -/
def linkBetween (before after : Closer) (s : Stage) : Stage :=
  match after with
  | some closer => linkAfter closer (linkBefore (before == some .pipe) s)
  | none => linkBefore (before == some .pipe) s

theorem linkBefore_eq (before : Closer) (s : Stage) :
    linkBefore (before == some .pipe) s =
      { s with stdin := if before = some .pipe ∧ s.stdin = .inherit then .pipe else s.stdin } := by
  by_cases hpiped : before = some .pipe ∧ s.stdin = .inherit
  · rw [if_pos hpiped, linkBefore, if_pos (by simpa using hpiped)]
  · rw [if_neg hpiped, linkBefore, if_neg (by simpa using hpiped)]

theorem linkBetween_eq {s : Stage} (h : Unlinked s) (before after : Closer) :
    linkBetween before after s =
      { s with
        stdin := if before = some .pipe ∧ s.stdin = .inherit then .pipe else s.stdin
        stdout := if after = some .pipe ∧ s.stdout = .inherit then .pipe else s.stdout
        next := Closer.rule after
        waits := decide (after ≠ some .pipe ∧ after ≠ some .background)
        graceful := decide (after = some .background) } := by
  obtain ⟨argv, text, stdin, stdout, stderr, next, waits, graceful⟩ := s
  obtain ⟨-, -, -, -, rfl, rfl, rfl⟩ := h
  cases after with
  | none => simp [linkBetween, linkBefore_eq, Closer.rule]
  | some closer => cases closer <;> simp [linkBetween, linkBefore_eq, linkAfter, Closer.rule]

section

variable {s : Stage} (h : Unlinked s) (before after : Closer)
include h

theorem next_linkBetween : (linkBetween before after s).next = Closer.rule after := by
  rw [linkBetween_eq h]

theorem waits_linkBetween :
    (linkBetween before after s).waits =
      decide (after ≠ some .pipe ∧ after ≠ some .background) := by
  rw [linkBetween_eq h]

theorem argv_linkBetween_ne_nil : (linkBetween before after s).argv ≠ [] := by
  rw [linkBetween_eq h]
  exact h.argv

theorem stdin_linkBetween_eq_pipe (hpipe : (linkBetween before after s).stdin = .pipe) :
    before = some .pipe := by
  rw [linkBetween_eq h] at hpipe
  by_contra hbefore
  rw [if_neg fun hpiped ↦ hbefore hpiped.1] at hpipe
  exact h.stdin hpipe

/-- A pipe before the stage is its input, unless a redirection is. -/
theorem stdin_linkBetween_ne_inherit (hbefore : before = some .pipe) :
    (linkBetween before after s).stdin ≠ .inherit := by
  rw [linkBetween_eq h]
  simp only
  split
  · simp
  · rename_i hpiped
    exact fun hinherit ↦ hpiped ⟨hbefore, hinherit⟩

theorem stdout_linkBetween_cases :
    (after = some .pipe ∧ (linkBetween before after s).stdout = .pipe) ∨
      (linkBetween before after s).stdout = .inherit ∨
      (linkBetween before after s).stdout.isTarget = true := by
  rw [linkBetween_eq h]
  simp only
  split
  · rename_i hpiped
    exact Or.inl ⟨hpiped.1, rfl⟩
  · exact Or.inr h.stdout

theorem stderr_linkBetween_cases :
    (linkBetween before after s).stderr = .inherit ∨ (linkBetween before after s).stderr = .same ∨
      (linkBetween before after s).stderr.isTarget = true := by
  rw [linkBetween_eq h]
  exact h.stderr

end

/-! ## The stages of a line -/

/-- Stages that stand between the given separators, the first one behind `before`. -/
inductive Linked : Closer → List Separator → List Stage → Prop
  /-- The line ends where no command was promised. -/
  | vacant {before : Closer} (h : promisesCommand before = false) : Linked before [] []
  | last {s : Stage} (before : Closer) (h : Unlinked s) :
      Linked before [] [linkBetween before none s]
  | closed {s : Stage} {sep : Separator} {seps : List Separator} {stages : List Stage}
      (before : Closer) (h : Unlinked s) (rest : Linked (some sep) seps stages) :
      Linked before (sep :: seps) (linkBetween before (some sep) s :: stages)

def separators (ps : List Piece) : List Separator := ps.filterMap Piece.separator?

theorem separators_of_forall {us : List Piece} (h : ∀ p ∈ us, p.separator? = none) :
    separators us = [] := List.filterMap_eq_nil_iff.mpr h

theorem separators_append_cons {us : List Piece} {p : Piece} {sep : Separator}
    (h : ∀ q ∈ us, q.separator? = none) (hp : p.separator? = some sep) (ps : List Piece) :
    separators (us ++ p :: ps) = sep :: separators ps := by
  rw [separators, List.filterMap_append, ← separators, separators_of_forall h, List.nil_append,
    List.filterMap_cons_some hp, ← separators]

theorem exists_pieces_of_map_separators {line : List Char} {seps : List Separator}
    (h : (pieces line).map separators = .ok seps) :
    ∃ ps, pieces line = .ok ps ∧ separators ps = seps := by
  cases hps : pieces line with
  | error e =>
    rw [hps] at h
    cases h
  | ok ps =>
    rw [hps] at h
    exact ⟨ps, rfl, Except.ok.inj h⟩

/-- What linking adds to the stages it has found. -/
theorem exists_linked_of_link {ps : List Piece} {before : Closer} {found stages : List Stage}
    (h : link found before (fragments ps) = .ok stages) :
    ∃ linked, stages = found.reverse ++ linked ∧
      Linked before (separators ps) linked := by
  -- what was found before stands in front of the result, so only the rest is put in relation
  induction ps using fragments_induction generalizing found before with
  | last us hus =>
    rw [fragments_of_forall hus, link] at h
    rw [separators_of_forall hus]
    obtain ⟨vacant, hvacant, hrest⟩ := bind_eq_ok_iff.mp h
    cases vacant with
    | true =>
      simp only [if_true] at hrest
      split at hrest
      · cases hrest
      · rename_i hpromise
        exact ⟨[], by simpa using (Except.ok.inj hrest).symm, .vacant (by simpa using hpromise)⟩
    | false =>
      obtain ⟨s, hs, hlink⟩ := bind_eq_ok_iff.mp hrest
      rw [link, Except.ok.injEq] at hlink
      refine ⟨[linkBetween before none s], ?_, .last before (Fragment.unlinked_stage hs)⟩
      rw [← hlink, List.reverse_cons]
      rfl
  | cons us p sep ps hus hp ih =>
    rw [fragments_append_cons hus hp] at h
    obtain ⟨s, hs, hlink⟩ := bind_eq_ok_iff.mp h
    obtain ⟨linked, rfl, hlinked⟩ := ih hlink
    rw [separators_append_cons hus hp]
    refine ⟨_, ?_, .closed before (Fragment.unlinked_stage hs) hlinked⟩
    rw [List.reverse_cons, List.append_assoc]
    rfl

/-- The stages of a line stand between its separators. -/
theorem linked_of_parse {line : String} {plan : Plan} {ps : List Piece}
    (h : parse line = .ok plan) (hps : pieces line.toList = .ok ps) :
    Linked none (separators ps) plan.stages := by
  obtain ⟨ps', stages, hps', hlink, rfl⟩ := parse_eq_ok_iff.mp h
  obtain rfl : ps' = ps := Except.ok.inj (hps'.symm.trans hps)
  obtain ⟨linked, rfl, hlinked⟩ := exists_linked_of_link hlink
  exact hlinked

/-- What closes the stage in front of stage `i`. -/
def closerBefore (before : Closer) (seps : List Separator) : Nat → Closer
  | 0 => before
  | i + 1 => seps[i]?

section

variable {before : Closer} {seps : List Separator} {stages : List Stage} {s : Stage} {i : Nat}

/-- **Between two separators.** Each stage is that of a fragment, linked to what stands on both of
its sides. -/
theorem Linked.exists_linkBetween (h : Linked before seps stages) (hs : stages[i]? = some s) :
    ∃ alone, Unlinked alone ∧ s = linkBetween (closerBefore before seps i) seps[i]? alone := by
  induction h generalizing i with
  | vacant => simp at hs
  | @last alone before halone =>
    cases i with
    | zero => exact ⟨alone, halone, (Option.some.inj hs).symm⟩
    | succ i => simp at hs
  | @closed alone sep seps stages before halone rest ih =>
    cases i with
    | zero => exact ⟨alone, halone, (Option.some.inj hs).symm⟩
    | succ i =>
      obtain ⟨alone', halone', heq⟩ := ih hs
      refine ⟨alone', halone', heq.trans ?_⟩
      -- what stands before the rest of the stages is the separator that closed the first one
      cases i <;> rfl

/-- Each stage of a line is that of a fragment, linked to something on both of its sides. -/
theorem exists_linkBetween_of_parse {line : String} {plan : Plan} {s : Stage}
    (h : parse line = .ok plan) (hs : s ∈ plan.stages) :
    ∃ alone before after, Unlinked alone ∧ s = linkBetween before after alone := by
  obtain ⟨ps, stages, hps, -, -⟩ := parse_eq_ok_iff.mp h
  obtain ⟨i, hi⟩ := List.mem_iff_getElem?.mp hs
  obtain ⟨alone, halone, heq⟩ := (linked_of_parse h hps).exists_linkBetween hi
  exact ⟨alone, _, _, halone, heq⟩

theorem ne_buffer_of_parse {line : String} {plan : Plan} {s : Stage}
    (h : parse line = .ok plan) (hs : s ∈ plan.stages) : s.stdout ≠ .buffer ∧ s.stderr ≠ .buffer := by
  obtain ⟨alone, before, after, halone, rfl⟩ := exists_linkBetween_of_parse h hs
  constructor
  · rcases stdout_linkBetween_cases halone before after with ⟨-, hout⟩ | hout | hout
    · simp [hout]
    · simp [hout]
    · exact Output.ne_of_isTarget hout rfl
  · rcases stderr_linkBetween_cases halone before after with herr | herr | herr
    · simp [herr]
    · simp [herr]
    · exact Output.ne_of_isTarget herr rfl

theorem Linked.ne_nil_of_promisesCommand (h : Linked before seps stages)
    (hp : promisesCommand before = true) : stages ≠ [] := by
  cases h with
  | vacant hnone =>
    rw [hp] at hnone
    cases hnone
  | last | closed => exact List.cons_ne_nil _ _

/-- A separator that promises a command has a stage behind it. -/
theorem Linked.lt_length_of_promisesCommand {sep : Separator} (h : Linked before seps stages)
    (hsep : seps[i]? = some sep) (hp : promisesCommand (some sep) = true) :
    i + 1 < stages.length := by
  induction h generalizing i with
  | vacant | last => simp at hsep
  | closed _ _ rest ih =>
    cases i with
    | zero =>
      rw [List.getElem?_cons_zero, Option.some.injEq] at hsep
      subst hsep
      simpa using List.length_pos_iff.mpr (rest.ne_nil_of_promisesCommand hp)
    | succ i => simpa using ih hsep

theorem Linked.rule (h : Linked before seps stages) (hi : i < stages.length) :
    (stages.map Stage.next)[i]? = some (Closer.rule seps[i]?) := by
  have hs : stages[i]? = some stages[i] := List.getElem?_eq_getElem hi
  obtain ⟨alone, halone, heq⟩ := h.exists_linkBetween hs
  rw [List.getElem?_map, hs, Option.map_some, heq, next_linkBetween halone]

theorem Closer.isCondition_rule_iff (closer : Closer) :
    (Closer.rule closer).IsCondition ↔ closer = some .and ∨ closer = some .or := by
  rcases closer with _ | (_ | _ | _ | _ | _) <;> simp [Closer.rule, Continuation.IsCondition]

theorem Closer.rule_eq_unconditional_iff (sep : Separator) :
    Closer.rule (some sep) = .unconditional ↔ sep = .semi := by
  cases sep <;> simp [Closer.rule]

theorem Closer.rule_ne_never (closer : Closer) : Closer.rule closer ≠ .never := by
  rcases closer with _ | (_ | _ | _ | _ | _) <;> simp [Closer.rule]

theorem Linked.never_not_mem (h : Linked before seps stages) :
    .never ∉ stages.map Stage.next := by
  intro hmem
  obtain ⟨i, hi⟩ := List.mem_iff_getElem?.mp hmem
  obtain ⟨hlt, -⟩ := List.getElem?_eq_some_iff.mp hi
  rw [h.rule (by simpa using hlt), Option.some.injEq] at hi
  exact Closer.rule_ne_never _ hi

end

end Line

end ShellEngine
