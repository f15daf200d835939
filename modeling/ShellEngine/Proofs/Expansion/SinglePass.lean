import ShellEngine.Engine.Expression
import ShellEngine.Proofs.Engine.Outcome
import ShellEngine.Proofs.Expansion.Cutting

/-!
# Expansion in a single pass

Expansion looks at a line again from its start after each replacement. When the outputs are plain,
it might as well go on behind the replacement: what stands before it has been read over, and no
opener arises in an output or at its seams. `singlePass` goes through a line in this way, once from
left to right, and expansion does exactly the same (`expandWith_eq_singlePass`).

## The seams

An output is *plain* if it has no backquote, no dollar sign and no opening parenthesis. Then an
opener can only come about where an output is empty and brings a dollar sign of the line together
with a parenthesis of the line, so an output that follows a dollar sign must not be empty.

## What running a command means

Both are programs over any state, and a command may change it, fail or crash. A pass has a result
unless a command crashes or its error cannot be reported (`exists_singlePass_eq_ok`). `Runs` says
how it comes to that, and expansion is compared with each of the four ways.
-/

namespace ShellEngine.Line

open Substitution

/-! ## One pass -/

/-- An embedded command that was run: where it was cut out of the rest of its line, and what came of
it. -/
structure Reply where
  cut : Substitution
  result : Except EngineError (List Char)

/-- A line after a pass over it, with the commands that were run, in order. -/
structure Pass where
  text : List Char
  replies : List Reply

/-- Puts the output of each embedded command in its place, going on behind it. A command that fails
is reported; it and what follows it are left as they are. The same goes for what is left once the
pass is to stop. -/
def singlePass {m : Type → Type} [Monad m]
    (run : List Char → m (Except EngineError (List Char))) (report : EngineError → m Unit)
    (stops : m Bool) (line : List Char) : m Pass :=
  match _h : find line with
  | none => return { text := line, replies := [] }
  | some f => do
    match ← run f.inner with
    | .error e =>
      report e
      return { text := line, replies := [{ cut := f, result := .error e }] }
    | .ok output =>
      let reply := { cut := f, result := .ok output }
      if ← stops then return { text := f.before ++ output ++ f.after, replies := [reply] }
      else
        let rest ← singlePass run report stops f.after
        return { text := f.before ++ output ++ rest.text, replies := reply :: rest.replies }
termination_by line.length
decreasing_by exact length_after_lt _h

/-- The embedded commands of a line, one behind the other. -/
def cuts (line : List Char) : List Substitution :=
  match _h : find line with
  | none => []
  | some f => f :: cuts f.after
termination_by line.length
decreasing_by exact length_after_lt _h

theorem singlePass_of_find_none {m : Type → Type} [Monad m]
    {run : List Char → m (Except EngineError (List Char))} {report : EngineError → m Unit}
    {stops : m Bool} {line : List Char} (h : find line = none) :
    singlePass run report stops line = pure { text := line, replies := [] } := by
  rw [singlePass]
  split
  · rfl
  · rename_i hsome
    cases h.symm.trans hsome

theorem singlePass_of_find {m : Type → Type} [Monad m]
    {run : List Char → m (Except EngineError (List Char))} {report : EngineError → m Unit}
    {stops : m Bool} {line : List Char} {f : Substitution} (h : find line = some f) :
    singlePass run report stops line = (do
      match ← run f.inner with
      | .error e =>
        report e
        return { text := line, replies := [{ cut := f, result := .error e }] }
      | .ok output =>
        let reply := { cut := f, result := .ok output }
        if ← stops then return { text := f.before ++ output ++ f.after, replies := [reply] }
        else
          let rest ← singlePass run report stops f.after
          return { text := f.before ++ output ++ rest.text, replies := reply :: rest.replies }) := by
  rw [singlePass]
  split
  · rename_i hnone
    cases hnone.symm.trans h
  · rename_i g hg
    obtain rfl : g = f := Option.some.inj (hg.symm.trans h)
    rfl

theorem cuts_of_find_none {line : List Char} (h : find line = none) : cuts line = [] := by
  rw [cuts]
  split
  · rfl
  · rename_i hsome
    cases h.symm.trans hsome

theorem cuts_of_find {line : List Char} {f : Substitution} (h : find line = some f) :
    cuts line = f :: cuts f.after := by
  rw [cuts]
  split
  · rename_i hnone
    cases hnone.symm.trans h
  · rename_i g hg
    obtain rfl : g = f := Option.some.inj (hg.symm.trans h)
    rfl

/-- The output, if there is one, makes no opener: it is plain, and not empty behind a dollar
sign. -/
def Reply.IsPlain (r : Reply) : Prop :=
  ∀ output, r.result = .ok output →
    (∀ c ∈ output, isPlain c = true) ∧ (r.cut.before.getLast? = some '$' → output ≠ [])

section

variable {σ κ : Type} {run : List Char → ExceptT κ (StateM σ) (Except EngineError (List Char))}
  {report : EngineError → ExceptT κ (StateM σ) Unit} {stops : ExceptT κ (StateM σ) Bool}
  {line front : List Char} {s t : σ} {p : Pass} {limit : Nat}

variable (run report stops) in
/-- How a pass over a line goes from one state to another without a crash. -/
inductive Runs : List Char → σ → Pass → σ → Prop
  | done {line : List Char} {s : σ} (hfind : find line = none) :
      Runs line s { text := line, replies := [] } s
  | failed {line : List Char} {s s₁ t : σ} {f : Substitution} {e : EngineError}
      (hfind : find line = some f) (hrun : (run f.inner).run.run s = (.ok (.error e), s₁))
      (hreport : (report e).run.run s₁ = (.ok (), t)) :
      Runs line s { text := line, replies := [{ cut := f, result := .error e }] } t
  | stopped {line output : List Char} {s s₁ t : σ} {f : Substitution}
      (hfind : find line = some f) (hrun : (run f.inner).run.run s = (.ok (.ok output), s₁))
      (hstops : stops.run.run s₁ = (.ok true, t)) :
      Runs line s { text := f.before ++ output ++ f.after,
                    replies := [{ cut := f, result := .ok output }] } t
  | next {line output : List Char} {s s₁ s₂ t : σ} {f : Substitution} {rest : Pass}
      (hfind : find line = some f) (hrun : (run f.inner).run.run s = (.ok (.ok output), s₁))
      (hstops : stops.run.run s₁ = (.ok false, s₂)) (hrest : Runs f.after s₂ rest t) :
      Runs line s { text := f.before ++ output ++ rest.text,
                    replies := { cut := f, result := .ok output } :: rest.replies } t

theorem exists_run_run_of_bind {α β : Type} {x : ExceptT κ (StateM σ) α}
    {f : α → ExceptT κ (StateM σ) β} {r : β} (h : (x >>= f).run.run s = (.ok r, t)) :
    ∃ a s₁, x.run.run s = (.ok a, s₁) ∧ (f a).run.run s₁ = (.ok r, t) := by
  rcases hx : x.run.run s with ⟨e | a, s₁⟩
  · rw [run_run_bind_of_error hx] at h
    cases (Prod.mk.inj h).1
  · rw [run_run_bind_of_ok hx] at h
    exact ⟨a, s₁, rfl, h⟩

/-- A pass that ends without a crash went in one of the four ways. -/
theorem runs_of_singlePass (h : (singlePass run report stops line).run.run s = (.ok p, t)) :
    Runs run report stops line s p t := by
  induction line using cuts.induct generalizing s p t with
  | case1 line hfind =>
    rw [singlePass_of_find_none hfind] at h
    obtain ⟨hp, rfl⟩ := Prod.mk.inj h
    obtain rfl := Except.ok.inj hp
    exact .done hfind
  | case2 line f hfind ih =>
    rw [singlePass_of_find hfind] at h
    obtain ⟨result, s₁, hrun, h⟩ := exists_run_run_of_bind h
    cases result with
    | error e =>
      obtain ⟨⟨⟩, s₂, hreport, h⟩ := exists_run_run_of_bind h
      obtain ⟨hp, rfl⟩ := Prod.mk.inj h
      obtain rfl := Except.ok.inj hp
      exact .failed hfind hrun hreport
    | ok output =>
      obtain ⟨stopped, s₂, hstops, h⟩ := exists_run_run_of_bind h
      cases stopped with
      | true =>
        obtain ⟨hp, rfl⟩ := Prod.mk.inj h
        obtain rfl := Except.ok.inj hp
        exact .stopped hfind hrun hstops
      | false =>
        obtain ⟨rest, s₃, hrest, h⟩ := exists_run_run_of_bind h
        obtain ⟨hp, rfl⟩ := Prod.mk.inj h
        obtain rfl := Except.ok.inj hp
        exact .next hfind hrun hstops (ih hrest)

/-- A pass has a result where each command gives an output or an error. -/
theorem exists_singlePass_eq_ok (hrun : ∀ inner s, ∃ r t, (run inner).run.run s = (.ok r, t))
    (hreport : ∀ e s, ∃ t, (report e).run.run s = (.ok (), t))
    (hstops : ∀ s, ∃ b t, stops.run.run s = (.ok b, t)) (line : List Char) (s : σ) :
    ∃ p t, (singlePass run report stops line).run.run s = (.ok p, t) := by
  induction line using cuts.induct generalizing s with
  | case1 line hfind => exact ⟨_, s, by rw [singlePass_of_find_none hfind]; rfl⟩
  | case2 line f hfind ih =>
    rw [singlePass_of_find hfind]
    obtain ⟨result, s₁, hresult⟩ := hrun f.inner s
    rw [run_run_bind_of_ok hresult]
    cases result with
    | error e =>
      obtain ⟨t, ht⟩ := hreport e s₁
      exact ⟨_, t, (run_run_bind_of_ok ht _).trans rfl⟩
    | ok output =>
      obtain ⟨stopped, s₂, hstopped⟩ := hstops s₁
      dsimp only
      rw [run_run_bind_of_ok hstopped]
      cases stopped with
      | true => exact ⟨_, s₂, rfl⟩
      | false =>
        obtain ⟨rest, t, hrest⟩ := ih s₂
        exact ⟨_, t, (run_run_bind_of_ok hrest _).trans rfl⟩

/-- A run takes the commands of the line in order, each of them once. -/
theorem Runs.map_cut_prefix (h : Runs run report stops line s p t) :
    p.replies.map Reply.cut <+: cuts line := by
  induction h with
  | done => exact List.nil_prefix
  | failed hfind =>
    rw [cuts_of_find hfind]
    exact List.prefix_append [_] _
  | stopped hfind =>
    rw [cuts_of_find hfind]
    exact List.prefix_append [_] _
  | next hfind _ _ _ ih =>
    rw [cuts_of_find hfind]
    exact (List.prefix_cons_inj _).mpr ih

/-- A run that nothing stops takes all the commands of the line. -/
theorem Runs.map_cut_eq (h : Runs run report stops line s p t)
    (hstops : ∀ s t, stops.run.run s ≠ (.ok true, t))
    (hresults : ∀ r ∈ p.replies, ∃ output, r.result = .ok output) :
    p.replies.map Reply.cut = cuts line := by
  induction h with
  | done hfind => rw [cuts_of_find_none hfind, List.map_nil]
  | failed =>
    obtain ⟨output, houtput⟩ := hresults _ List.mem_cons_self
    cases houtput
  | stopped _ _ hstopped => exact absurd hstopped (hstops _ _)
  | next hfind _ _ _ ih =>
    rw [cuts_of_find hfind, List.map_cons, ih (List.forall_mem_cons.mp hresults).2]

theorem exists_eq_succ_of_find {f : Substitution} (hfind : find line = some f)
    (hlimit : line.length ≤ limit) : ∃ n, limit = n + 1 ∧ f.after.length ≤ n := by
  have hshort := length_after_lt hfind
  exact ⟨limit - 1, by omega, by omega⟩

/-- **Expansion of what is left.** Behind a text that has been read over, expansion does what a
pass does. -/
theorem Runs.expandWith (h : Runs run report stops line s p t)
    (hplain : ∀ r ∈ p.replies, r.IsPlain) (hfront : Passes front) (hlimit : line.length ≤ limit) :
    (Line.expandWith run report stops limit (front ++ line)).run.run s
      = (.ok { text := front ++ p.text, ended := true }, t) := by
  induction h generalizing front limit with
  | @done line _ hfind =>
    have hnone : find (front ++ line) = none := by rw [hfront, hfind, Option.map_none]
    cases limit with
    | zero =>
      rw [Line.expandWith, hnone]
      rfl
    | succ limit =>
      rw [Line.expandWith, hnone]
      rfl
  | failed hfind hrun hreport =>
    obtain ⟨limit, rfl, -⟩ := exists_eq_succ_of_find hfind hlimit
    rw [Line.expandWith, hfront, hfind]
    exact (run_run_bind_of_ok hrun _).trans ((run_run_bind_of_ok hreport _).trans rfl)
  | stopped hfind hrun hstops =>
    obtain ⟨limit, rfl, -⟩ := exists_eq_succ_of_find hfind hlimit
    rw [Line.expandWith, hfront, hfind]
    refine (run_run_bind_of_ok hrun _).trans ((run_run_bind_of_ok hstops _).trans ?_)
    simp only [behind_before, behind_after, List.append_assoc]
    rfl
  | @next line output s s₁ s₂ t f rest hfind hrun hstops hrest ih =>
    obtain ⟨limit, rfl, hroom⟩ := exists_eq_succ_of_find hfind hlimit
    obtain ⟨hreply, hreplies⟩ := List.forall_mem_cons.mp hplain
    obtain ⟨houtput, hdollar⟩ := hreply output rfl
    have hpassed : Passes (front ++ (f.before ++ output)) :=
      hfront.append (passes_before_append hfind houtput hdollar)
    have hgoes := ih hreplies hpassed hroom
    rw [Line.expandWith, hfront, hfind]
    refine (run_run_bind_of_ok hrun _).trans ((run_run_bind_of_ok hstops _).trans ?_)
    simpa using hgoes

/-! ## Which commands are run -/

/-- An action in a state that has a log beside it. -/
def beside {α : Type} (x : ExceptT κ (StateM σ) α) : ExceptT κ (StateM (σ × List (List Char))) α :=
  ExceptT.mk fun (s, log) ↦
    let (r, t) := x.run.run s
    (r, (t, log))

variable (run) in
/-- Runs an embedded command and logs its text. -/
def recorded (inner : List Char) :
    ExceptT κ (StateM (σ × List (List Char))) (Except EngineError (List Char)) :=
  ExceptT.mk fun (s, log) ↦
    let (r, t) := (run inner).run.run s
    (r, (t, log ++ [inner]))

theorem run_run_beside {α : Type} {x : ExceptT κ (StateM σ) α} {r : Except κ α}
    (h : x.run.run s = (r, t)) (log : List (List Char)) :
    (beside x).run.run (s, log) = (r, (t, log)) := by
  change (let (r, t) := x.run.run s; (r, (t, log))) = _
  rw [h]

theorem run_run_recorded {inner : List Char} {r : Except κ (Except EngineError (List Char))}
    (h : (run inner).run.run s = (r, t)) (log : List (List Char)) :
    (recorded run inner).run.run (s, log) = (r, (t, log ++ [inner])) := by
  change (let (r, t) := (run inner).run.run s; (r, (t, log ++ [inner]))) = _
  rw [h]

theorem Runs.recorded (h : Runs run report stops line s p t) (log : List (List Char)) :
    Runs (Line.recorded run) (beside ∘ report) (beside stops) line (s, log) p
      (t, log ++ p.replies.map (·.cut.inner)) := by
  induction h generalizing log with
  | done hfind => simpa using Runs.done hfind
  | failed hfind hrun hreport =>
    exact .failed hfind (run_run_recorded hrun log) (run_run_beside hreport _)
  | stopped hfind hrun hstops =>
    exact .stopped hfind (run_run_recorded hrun log) (run_run_beside hstops _)
  | @next _ _ _ _ _ _ f _ hfind hrun hstops _ ih =>
    have hgoes := ih (log ++ [f.inner])
    rw [List.append_assoc] at hgoes
    exact .next hfind (run_run_recorded hrun log) (run_run_beside hstops _) hgoes

/-! ## Expansion -/

/-- **Expansion goes through a line once.** Where the outputs make no openers, expansion does what a
pass does, in the same states, if it has room for as many replacements as the line has characters.
It runs the commands of the line verbatim and in order, each of them once: as far as it gets before
a command fails or expansion is to stop, and otherwise all of them. -/
theorem expandWith_eq_singlePass (hlimit : line.length ≤ limit)
    (h : (singlePass run report stops line).run.run s = (.ok p, t))
    (hplain : ∀ r ∈ p.replies, r.IsPlain) :
    (expandWith run report stops limit line).run.run s
        = (.ok { text := p.text, ended := true }, t) ∧
      (expandWith (recorded run) (beside ∘ report) (beside stops) limit line).run.run (s, [])
        = (.ok { text := p.text, ended := true }, (t, p.replies.map (·.cut.inner))) ∧
      p.replies.map Reply.cut <+: cuts line ∧
      ((∀ s t, stops.run.run s ≠ (.ok true, t)) →
        (∀ r ∈ p.replies, ∃ output, r.result = .ok output) →
        p.replies.map Reply.cut = cuts line) := by
  have hruns := runs_of_singlePass h
  exact ⟨hruns.expandWith hplain passes_nil hlimit,
    (hruns.recorded []).expandWith hplain passes_nil hlimit,
    hruns.map_cut_prefix, hruns.map_cut_eq⟩

end

/-- Answers commands with the letters of the alphabet, one after the other, and refuses a command
that begins with a bar. -/
def spell (inner : List Char) : ExceptT Crash (StateM Nat) (Except EngineError (List Char)) := do
  let n ← get
  set (n + 1)
  if inner.head? = some '|' then return .error (.parse (.missingCommand (some .pipe)))
  else return .ok [Char.ofNat ('A'.toNat + n)]

/-- Behind a dollar sign, with another command in it, refused, and left alone. -/
theorem expandWith_spell :
    let line := "$\x60a\x60(b)$(c $(d))$(| x)$(e)".toList
    let p : Pass := {
      text := "$A(b)B$(| x)$(e)".toList
      replies := [
        { cut := ⟨['$'], ['a'], "(b)$(c $(d))$(| x)$(e)".toList⟩, result := .ok ['A'] },
        { cut := ⟨"(b)".toList, "c $(d)".toList, "$(| x)$(e)".toList⟩, result := .ok ['B'] },
        { cut := ⟨[], "| x".toList, "$(e)".toList⟩,
          result := .error (.parse (.missingCommand (some .pipe))) }] }
    (singlePass spell (fun _ ↦ pure ()) (pure false) line).run.run 0 = (.ok p, 3) ∧
      (expandWith spell (fun _ ↦ pure ()) (pure false) line.length line).run.run 0
        = (.ok { text := p.text, ended := true }, 3) := by
  intro line p
  have hpass : (singlePass spell (fun _ ↦ pure ()) (pure false) line).run.run 0 = (.ok p, 3) := by
    have hfirst : find line = some ⟨['$'], ['a'], "(b)$(c $(d))$(| x)$(e)".toList⟩ := by decide
    have hsecond : find "(b)$(c $(d))$(| x)$(e)".toList
        = some ⟨"(b)".toList, "c $(d)".toList, "$(| x)$(e)".toList⟩ := by decide
    have hthird : find "$(| x)$(e)".toList = some ⟨[], "| x".toList, "$(e)".toList⟩ := by decide
    rw [singlePass_of_find hfirst, singlePass_of_find hsecond, singlePass_of_find hthird]
    rfl
  have hplain : ∀ r ∈ p.replies, r.IsPlain := by
    simp [p, Reply.IsPlain, isPlain, backquote]
  exact ⟨hpass, (expandWith_eq_singlePass (Nat.le_refl _) hpass hplain).1⟩

end ShellEngine.Line
