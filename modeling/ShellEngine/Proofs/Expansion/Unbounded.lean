import ShellEngine.Proofs.Expansion.SinglePass

/-!
# Expansion without a bound

A line is expanded under ever higher bounds until one is high enough. What is finished under a bound
comes to the same under each higher one (`Action.rising_expandNested`), so it makes no difference
which bounds are tried: a line expands to whatever it comes to under some bound
(`Action.outcome_expandLine_iff`).

Thus the bounds are gone. What is left is a loop that looks for a command, runs it, and starts again
with its output in its place, for as long as it finds one
(`Action.outcome_expandLine_iff_expandRound`).
-/

namespace ShellEngine.Action

open Line

variable {α β : Type} {x y z : Action α} {s t : Session}

theorem outcome_isCancelled (s : Session) :
    isCancelled.outcome s = (.ok s.cancellation.signaled, s) := rfl

/-! ## Approximations -/

/-- What is done as a task that cannot be sent to the background comes to what it comes to on its
own, with the flag up; afterwards the flag is what it was. -/
theorem outcome_synchronously {α : Type} (act : Action α) (s : Session) :
    (synchronously act).outcome s =
      match act.outcome { s with synchronous := true } with
      | (.ok a, t) => (.ok a, { t with synchronous := s.synchronous })
      | (.error e, t) => (.error e, t) := by
  have hact (f : α → Action α) : (act >>= f).outcome { s with synchronous := true } = _ :=
    outcome_bind act f _
  unfold synchronously
  rw [outcome_bind, outcome_get]
  dsimp only
  rw [outcome_bind]
  refine (hact _).trans ?_
  rcases act.outcome { s with synchronous := true } with ⟨e | a, t⟩ <;> rfl

/-- An action comes to its end, be it a crash. -/
def Finishes (x : Action α) (s : Session) : Prop := (x.outcome s).1 ≠ .error .unfinished

theorem Finishes.of_bind {f : α → Action β} (h : Finishes (x >>= f) s) : Finishes x s := by
  intro hcrash
  unfold Finishes at h
  rw [outcome_bind] at h
  rcases hx : x.outcome s with ⟨crash | r, t⟩ <;> rw [hx] at h hcrash <;> cases hcrash
  exact h rfl

theorem Finishes.of_bind_ok {f : α → Action β} {r : α} (h : Finishes (x >>= f) s)
    (hx : x.outcome s = (.ok r, t)) : Finishes (f r) t := by
  unfold Finishes at h
  rwa [outcome_bind, hx] at h

theorem Finishes.of_synchronously (h : Finishes (synchronously x) s) :
    Finishes x { s with synchronous := true } := by
  intro hcrash
  unfold Finishes at h
  rw [outcome_synchronously] at h
  rcases hx : x.outcome { s with synchronous := true } with ⟨crash | r, t⟩ <;>
    rw [hx] at h hcrash
  · exact h hcrash
  · cases hcrash

/-- Wherever the first action is finished, the second one comes to the same. -/
def Approximates (x y : Action α) : Prop := ∀ s, Finishes x s → y.outcome s = x.outcome s

namespace Approximates

theorem refl (x : Action α) : Approximates x x := fun _ _ ↦ rfl

theorem trans (h : Approximates x y) (h' : Approximates y z) : Approximates x z := by
  intro s hx
  have hxy := h s hx
  have hy : Finishes y s := by rwa [Finishes, hxy]
  rw [h' s hy, hxy]

theorem unfinished (x : Action α) : Approximates (throw .unfinished) x :=
  fun _ hfinished ↦ absurd rfl hfinished

theorem bind {f g : α → Action β} (h : Approximates x y) (hf : ∀ r, Approximates (f r) (g r)) :
    Approximates (x >>= f) (y >>= g) := by
  intro s hfinishes
  rw [outcome_bind, outcome_bind, h s hfinishes.of_bind]
  rcases hx : x.outcome s with ⟨crash | r, t⟩
  · rfl
  · exact hf r t (hfinishes.of_bind_ok hx)

theorem synchronously (h : Approximates x y) :
    Approximates (synchronously x) (synchronously y) :=
  (refl _).bind fun _ ↦ (refl _).bind fun _ ↦ h.bind fun _ ↦ refl _

theorem captureWith {expand expand' : List Char → Action (List Char)}
    (h : ∀ line, Approximates (expand line) (expand' line)) (line : List Char) :
    Approximates (captureWith expand line) (captureWith expand' line) :=
  ((h line).bind fun _ ↦ refl _).synchronously

end Approximates

/-! ## Ever higher bounds -/

/-- What is finished under a bound comes to the same under each higher one. -/
def Rising (act : Nat → Action α) : Prop := ∀ b b', b ≤ b' → Approximates (act b) (act b')

section Rising

variable {act : Nat → Action α} {start bound : Nat} {r : Except Crash α × Session}

theorem Rising.outcome_eq (hact : Rising act) {b b' : Nat}
    (hb : Finishes (act b) s) (hb' : Finishes (act b') s) :
    (act b).outcome s = (act b').outcome s := by
  obtain hle | hle := Nat.le_total b b'
  · exact (hact b b' hle s hb).symm
  · exact hact b' b hle s hb'

theorem isCutOff_iff {r : Except Crash α} : isCutOff r = true ↔ r = .error .unfinished := by
  refine ⟨fun h ↦ ?_, fun h ↦ h ▸ rfl⟩
  unfold isCutOff at h
  split at h
  · rfl
  · cases h

theorem outcome_unbounded (act : Nat → Action α) (bound : Nat) (s : Session) :
    (unbounded act bound).outcome s =
      if isCutOff ((act bound).outcome s).1 then (unbounded act (2 * bound + 1)).outcome s
      else (act bound).outcome s := by
  have hloop : repeatM (m := Id) (tryBound act s) bound =
      (tryBound act s bound).elim (repeatM (m := Id) (tryBound act s)) id := by
    rw [repeatM_eq_of_monadTail, repeatM.body]
    cases tryBound act s bound <;> rfl
  refine (congrArg Subtype.val hloop).trans ?_
  rw [tryBound]
  split <;> rename_i hcut
  · exact (if_pos hcut).symm
  · exact (if_neg hcut).symm

/-- Even a loop that does not come to its end would come to what some bound leads to. -/
theorem exists_outcome_unbounded_eq (act : Nat → Action α) (s : Session) (start : Nat) :
    ∃ b, (act b).outcome s = (unbounded act start).outcome s :=
  (repeatM (m := Id) (tryBound act s) start).property

/-- The first bound is as good as any other one. The induction is on how far the bound that is high
enough lies above the one that is tried. -/
theorem Rising.outcome_unbounded_eq (hact : Rising act) {b : Nat} (hb : Finishes (act b) s)
    (start : Nat) : (unbounded act start).outcome s = (act b).outcome s := by
  rw [outcome_unbounded]
  by_cases hcut : isCutOff ((act start).outcome s).1 = true
  · have hlt : start < b := by
      refine Nat.lt_of_not_le fun hle ↦ hb ?_
      rw [← hact b start hle s hb]
      exact isCutOff_iff.mp hcut
    rw [if_pos hcut]
    exact hact.outcome_unbounded_eq hb (2 * start + 1)
  · rw [if_neg hcut]
    exact hact.outcome_eq (fun hcrash ↦ hcut (isCutOff_iff.mpr hcrash)) hb
termination_by b - start

/-- Without a bound, something comes to whatever it comes to under some bound. -/
theorem Rising.outcome_unbounded_iff (hact : Rising act) (hr : r.1 ≠ .error .unfinished) :
    (unbounded act start).outcome s = r ↔ ∃ b, (act b).outcome s = r := by
  constructor
  · rintro rfl
    exact exists_outcome_unbounded_eq act s start
  · rintro ⟨b, rfl⟩
    exact hact.outcome_unbounded_eq hr start

theorem Rising.approximates_unbounded (hact : Rising act) (b start : Nat) :
    Approximates (act b) (unbounded act start) :=
  fun _ hb ↦ (hact.outcome_unbounded_iff hb).mpr ⟨b, rfl⟩

end Rising

/-! ## Rounds -/

section Rounds

variable {run run' : List Char → Action (Except EngineError (List Char))}
  {next next' : List Char → Action (List Char)} {line : List Char} {limit limit' : Nat}

/-- One round of expansion: a command is looked for and run, its output takes its place, and `next`
goes on with the line. There is nothing to go on with if there is no command, if it fails, which is
reported, or if the line is cancelled. -/
def expandRound (run : List Char → Action (Except EngineError (List Char)))
    (next : List Char → Action (List Char)) (line : List Char) : Action (List Char) :=
  match Substitution.find line with
  | none => return line
  | some found => do
    match ← run found.inner with
    | .error e =>
      report e
      return line
    | .ok output =>
      let line := found.before ++ output ++ found.after
      if ← isCancelled then return line else next line

theorem Approximates.expandRound (hrun : ∀ inner, Approximates (run inner) (run' inner))
    (hnext : ∀ line, Approximates (next line) (next' line)) (line : List Char) :
    Approximates (expandRound run next line) (expandRound run' next' line) := by
  unfold Action.expandRound
  cases Substitution.find line with
  | none => exact .refl _
  | some found =>
    refine (hrun found.inner).bind fun result ↦ ?_
    cases result with
    | error e => exact .refl _
    | ok output =>
      refine (Approximates.refl isCancelled).bind fun cancelled ↦ ?_
      cases cancelled with
      | true => exact .refl _
      | false => exact hnext _

/-- Expansion with a limit on the rounds, which must be high enough. -/
def expandUpTo (run : List Char → Action (Except EngineError (List Char))) (limit : Nat)
    (line : List Char) : Action (List Char) := do
  let expansion ← Line.expandWith run report isCancelled limit line
  if expansion.ended then return expansion.text else throw .unfinished

theorem expandNested_succ (bound : Nat) (line : List Char) :
    expandNested (bound + 1) line = expandUpTo (captureWith (expandNested bound)) bound line := rfl

theorem expandUpTo_succ (run : List Char → Action (Except EngineError (List Char))) (limit : Nat)
    (line : List Char) :
    expandUpTo run (limit + 1) line = expandRound run (expandUpTo run limit) line := by
  rw [expandUpTo, Line.expandWith, expandRound]
  cases Substitution.find line with
  | none => rfl
  | some found =>
    dsimp only
    rw [bind_assoc]
    refine bind_congr fun result ↦ ?_
    cases result with
    | error e => rw [bind_assoc]; rfl
    | ok output =>
      dsimp only
      rw [bind_assoc]
      refine bind_congr fun cancelled ↦ ?_
      cases cancelled <;> rfl

theorem approximates_expandUpTo_zero (line : List Char) :
    Approximates (expandUpTo run 0 line) (expandRound run' next line) := by
  unfold Action.expandRound
  cases hfind : Substitution.find line with
  | none =>
    have hzero : expandUpTo run 0 line = pure line := by
      rw [expandUpTo, Line.expandWith, hfind]
      rfl
    rw [hzero]
    exact .refl _
  | some found =>
    have hzero : expandUpTo run 0 line = throw .unfinished := by
      rw [expandUpTo, Line.expandWith, hfind]
      rfl
    rw [hzero]
    exact .unfinished _

theorem approximates_expandUpTo (hrun : ∀ inner, Approximates (run inner) (run' inner))
    (hlimit : limit ≤ limit') (line : List Char) :
    Approximates (expandUpTo run limit line) (expandUpTo run' limit' line) := by
  induction limit generalizing limit' line with
  | zero =>
    cases limit' with
    | zero => exact .refl _
    | succ limit' =>
      rw [expandUpTo_succ]
      exact approximates_expandUpTo_zero line
  | succ limit ih =>
    obtain ⟨limit', rfl⟩ := Nat.exists_eq_add_of_le' (Nat.lt_of_lt_of_le (Nat.succ_pos _) hlimit)
    rw [expandUpTo_succ, expandUpTo_succ]
    exact .expandRound hrun (fun line ↦ ih (Nat.le_of_succ_le_succ hlimit) line) line

/-- **Bounds only cut off**: a line that is expanded under a bound is expanded to the same under each
higher one. -/
theorem rising_expandNested (line : List Char) : Rising fun bound ↦ expandNested bound line := by
  intro b
  induction b generalizing line with
  | zero => exact fun _ _ ↦ .unfinished _
  | succ b ih =>
    intro b' hle
    obtain ⟨b', rfl⟩ := Nat.exists_eq_add_of_le' (Nat.lt_of_lt_of_le (Nat.succ_pos _) hle)
    have hle := Nat.le_of_succ_le_succ hle
    exact approximates_expandUpTo (.captureWith fun line ↦ ih line b' hle) hle line

end Rounds

/-! ## Lines -/

variable {line : List Char} {r : Except Crash (List Char) × Session}

theorem outcome_expandLine_iff (hr : r.1 ≠ .error .unfinished) :
    (expandLine line).outcome s = r ↔ ∃ bound, (expandNested bound line).outcome s = r :=
  (rising_expandNested line).outcome_unbounded_iff hr

/-- There is no end to a line if no bound is high enough. -/
theorem not_finishes_expandLine_iff :
    ¬Finishes (expandLine line) s ↔ ∀ bound, ¬Finishes (expandNested bound line) s := by
  constructor
  · intro h bound hfinishes
    have heq := (outcome_expandLine_iff hfinishes).mpr ⟨bound, rfl⟩
    exact h (by rwa [Finishes, heq])
  · intro h hfinishes
    obtain ⟨bound, hbound⟩ := (outcome_expandLine_iff hfinishes).mp rfl
    exact h bound (by rwa [Finishes, hbound])

theorem approximates_expandLine (bound : Nat) (line : List Char) :
    Approximates (expandNested bound line) (expandLine line) :=
  (rising_expandNested line).approximates_unbounded bound _

theorem rising_captureWith (line : List Char) :
    Rising fun bound ↦ captureWith (expandNested bound) line :=
  fun b b' hle ↦ .captureWith (fun line ↦ rising_expandNested line b b' hle) line

theorem exists_captureWith_eq (h : Finishes (captureWith expandLine line) s) :
    ∃ bound, (captureWith (expandNested bound) line).outcome s
      = (captureWith expandLine line).outcome s := by
  have hline : Finishes (expandLine line) { s with synchronous := true } :=
    h.of_synchronously.of_bind
  obtain ⟨bound, hbound⟩ := (outcome_expandLine_iff hline).mp rfl
  refine ⟨bound, ?_⟩
  rw [captureWith, captureWith, outcome_synchronously, outcome_synchronously, outcome_bind,
    outcome_bind, hbound]

theorem exists_expandRound_eq (h : Finishes (expandRound (captureWith expandLine) expandLine line) s) :
    ∃ bound, (expandRound (captureWith (expandNested bound)) (expandNested bound) line).outcome s
      = (expandRound (captureWith expandLine) expandLine line).outcome s := by
  unfold expandRound at h ⊢
  cases hfind : Substitution.find line with
  | none => exact ⟨0, rfl⟩
  | some found =>
    rw [hfind] at h
    dsimp only at h ⊢
    obtain ⟨b, hb⟩ := exists_captureWith_eq h.of_bind
    rcases hrun : (captureWith expandLine found.inner).outcome s with ⟨crash | e | output, t⟩
    · exact ⟨b, by rw [outcome_bind, outcome_bind, hb, hrun]⟩
    · exact ⟨b, by rw [outcome_bind, outcome_bind, hb, hrun]⟩
    · cases hcancelled : t.cancellation.signaled with
      | true =>
        refine ⟨b, ?_⟩
        rw [outcome_bind, outcome_bind, hb, hrun]
        simp only [outcome_bind, outcome_isCancelled, hcancelled, if_true]
      | false =>
        have hnext := (h.of_bind_ok hrun).of_bind_ok (outcome_isCancelled t)
        rw [hcancelled, if_neg Bool.false_ne_true] at hnext
        obtain ⟨b', hb'⟩ := (outcome_expandLine_iff hnext).mp rfl
        -- the higher of the two bounds does for the command as well as for the rest
        refine ⟨max b b', ?_⟩
        have hinner := rising_captureWith found.inner b (max b b') (Nat.le_max_left ..) s
          (by rw [Finishes, hb]; exact h.of_bind)
        have hrest := rising_expandNested _ b' (max b b') (Nat.le_max_right ..) t
          (by rw [Finishes, hb']; exact hnext)
        dsimp only at hinner hrest
        rw [outcome_bind, outcome_bind, hinner, hb, hrun]
        simp only [outcome_bind, outcome_isCancelled, hcancelled, Bool.false_eq_true, if_false]
        rw [hrest, hb']

/-- A line that is finished was expanded by a round, and by expanding what that has made of it. -/
theorem approximates_expandRound (line : List Char) :
    Approximates (expandLine line) (expandRound (captureWith expandLine) expandLine line) := by
  intro s hfinishes
  obtain ⟨bound, hbound⟩ := (outcome_expandLine_iff hfinishes).mp rfl
  rw [Finishes, ← hbound] at hfinishes
  rw [← hbound]
  cases bound with
  | zero => exact absurd rfl hfinishes
  | succ bound =>
    have hlonger : Approximates (expandNested (bound + 1) line)
        (expandUpTo (captureWith (expandNested bound)) (bound + 1) line) :=
      approximates_expandUpTo (fun _ ↦ .refl _) (Nat.le_succ bound) line
    rw [expandUpTo_succ] at hlonger
    have hrun := Approximates.captureWith fun line ↦ approximates_expandLine bound line
    have hround := Approximates.expandRound hrun (approximates_expandLine (bound + 1)) line
    exact hlonger.trans hround s hfinishes

theorem expandRound_approximates (line : List Char) :
    Approximates (expandRound (captureWith expandLine) expandLine line) (expandLine line) := by
  intro s hfinishes
  obtain ⟨bound, hbound⟩ := exists_expandRound_eq hfinishes
  rw [Finishes, ← hbound] at hfinishes
  rw [← hbound]
  have hrun (line : List Char) := rising_captureWith line bound (bound + 1) (Nat.le_succ bound)
  have hnext (line : List Char) : Approximates (expandNested bound line)
      (expandUpTo (captureWith (expandNested (bound + 1))) bound line) :=
    (rising_expandNested line bound (bound + 1) (Nat.le_succ bound)).trans
      (approximates_expandUpTo hrun (Nat.le_refl bound) line)
  have hround := Approximates.expandRound hrun hnext line
  rw [← expandUpTo_succ, ← expandNested_succ] at hround
  exact hround.trans (approximates_expandLine (bound + 2) line) s hfinishes

/-- **Expansion is a loop of rounds**, for as long as there is something left to do. Whatever a line
expands to, with whatever session that leaves, is what the next round and the loop behind it come
to, and so is every crash. -/
theorem outcome_expandLine_iff_expandRound (hr : r.1 ≠ .error .unfinished) :
    (expandLine line).outcome s = r ↔
      (expandRound (captureWith expandLine) expandLine line).outcome s = r := by
  constructor
  · rintro rfl
    exact approximates_expandRound line s hr
  · rintro rfl
    exact expandRound_approximates line s hr

theorem outcome_expandLine_of_find_none (hfind : Substitution.find line = none) (s : Session) :
    (expandLine line).outcome s = (.ok line, s) := by
  have hround : (expandRound (captureWith expandLine) expandLine line).outcome s = (.ok line, s) := by
    rw [expandRound, hfind]
    rfl
  exact (outcome_expandLine_iff_expandRound (by simp)).mpr hround

theorem outcome_expand_of_find_none {line : String} (hfind : Substitution.find line.toList = none)
    (s : Session) : (expand line).outcome s = (.ok line, s) := by
  rw [expand, outcome_bind, outcome_expandLine_of_find_none hfind]
  dsimp only
  rw [String.ofList_toList, outcome_pure]

/-- With a limit on the rounds that is high enough, expansion comes to the same. -/
theorem approximates_expandUpTo_expandLine (limit : Nat) (line : List Char) :
    Approximates (expandUpTo (captureWith expandLine) limit line) (expandLine line) := by
  induction limit generalizing line with
  | zero => exact (approximates_expandUpTo_zero line).trans (expandRound_approximates line)
  | succ limit ih =>
    rw [expandUpTo_succ]
    exact (Approximates.expandRound (fun _ ↦ .refl _) ih line).trans (expandRound_approximates line)

/-- Where the outputs make no openers, a line expands in a single pass. -/
theorem expandLine_of_singlePass {t : Session} {p : Pass}
    (h : (singlePass (captureWith expandLine) report isCancelled line).outcome s = (.ok p, t))
    (hplain : ∀ r ∈ p.replies, r.IsPlain) : (expandLine line).outcome s = (.ok p.text, t) := by
  have hexpand := (runs_of_singlePass h).expandWith hplain Substitution.passes_nil
    (Nat.le_refl line.length)
  have hlimited : (expandUpTo (captureWith expandLine) line.length line).outcome s
      = (.ok p.text, t) := (run_run_bind_of_ok hexpand _).trans rfl
  have hfinishes : Finishes (expandUpTo (captureWith expandLine) line.length line) s := by
    rw [Finishes, hlimited]
    exact fun h ↦ nomatch h
  rw [approximates_expandUpTo_expandLine line.length line s hfinishes, hlimited]

end ShellEngine.Action
