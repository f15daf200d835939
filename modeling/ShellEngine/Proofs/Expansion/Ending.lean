import ShellEngine.Proofs.Expansion.Cutting

/-!
# When expansion ends

After each replacement a line is looked at again from its start, so what an output brings in may be
run in its turn. Where each command has a fixed output, expansion goes on forever if a command
outputs itself, and it need not be as simple as that: outputs without any complete opener can make
one at their seams (`not_settles_of_returns` has the test).

A replacement takes two backquotes from the line, or a dollar sign and an opening parenthesis
(`Substitution.exists_of_find`). Going on forever therefore takes outputs that bring them back:
infinitely many with two backquotes or a dollar sign, and infinitely many with two backquotes or a
parenthesis (`settles_or_bringsIn_frequently`). The proof weighs a line by what openers can be made
of; a replacement takes off two, and adds the weight of the output.
-/

namespace ShellEngine.Line

open Substitution

/-! ## Expansion with fixed outputs -/

/-- Gives the output of a command, or the error that comes of it, and logs the output. -/
def answer (outputs : List Char → Except EngineError (List Char)) (inner : List Char) :
    StateM (List (List Char)) (Except EngineError (List Char)) :=
  fun log ↦ (outputs inner, log ++ (outputs inner).toOption.toList)

/-- Expansion where each command has its output, with at most `limit` replacements, and the outputs
that were put in, in order. -/
def replay (outputs : List Char → Except EngineError (List Char)) (limit : Nat) (line : List Char) :
    Expansion × List (List Char) :=
  (expandWith (answer outputs) (fun _ ↦ pure ()) (pure false) limit line).run []

/-- From some limit on there is nothing left to replace, and the outputs that were put in are
always the same. -/
def Settles (outputs : List Char → Except EngineError (List Char)) (line : List Char) : Prop :=
  ∃ n, (replay outputs n line).1.ended = true ∧
    ∀ limit, n ≤ limit → replay outputs limit line = replay outputs n line

/-- Whether an output brings in two backquotes or a certain character. -/
def bringsIn (c : Char) (output : List Char) : Bool :=
  decide (2 ≤ output.count backquote) || output.contains c

section

variable {outputs : List Char → Except EngineError (List Char)} {line output : List Char}
  {f : Substitution} {c : Char}

theorem replay_zero :
    replay outputs 0 line = ({ text := line, ended := (find line).isNone }, []) := rfl

theorem replay_of_find_none (h : find line = none) (limit : Nat) :
    replay outputs limit line = ({ text := line, ended := true }, []) := by
  cases limit with
  | zero => rw [replay_zero, h, Option.isNone_none]
  | succ limit =>
    rw [replay, expandWith, h]
    rfl

theorem replay_succ_of_error {e : EngineError} (h : find line = some f)
    (houtput : outputs f.inner = .error e) (limit : Nat) :
    replay outputs (limit + 1) line = ({ text := line, ended := true }, []) := by
  have hanswer : answer outputs f.inner [] = (.error e, []) := by
    rw [answer, houtput]
    rfl
  rw [replay, expandWith, h]
  simp only [StateT.run, bind, StateT.bind, hanswer]
  rfl

theorem expandWith_answer_succ (h : find line = some f) (houtput : outputs f.inner = .ok output)
    (limit : Nat) (log : List (List Char)) :
    (expandWith (answer outputs) (fun _ ↦ pure ()) (pure false) (limit + 1) line).run log =
      (expandWith (answer outputs) (fun _ ↦ pure ()) (pure false) limit
        (f.before ++ output ++ f.after)).run (log ++ [output]) := by
  have hanswer : answer outputs f.inner log = (.ok output, log ++ [output]) := by
    rw [answer, houtput]
    rfl
  rw [expandWith, h]
  simp only [StateT.run, bind, StateT.bind, hanswer]
  rfl

theorem expandWith_answer (limit : Nat) (line : List Char) (log : List (List Char)) :
    (expandWith (answer outputs) (fun _ ↦ pure ()) (pure false) limit line).run log =
      ((replay outputs limit line).1, log ++ (replay outputs limit line).2) := by
  induction limit generalizing line log with
  | zero =>
    rw [replay_zero, List.append_nil]
    rfl
  | succ limit ih =>
    cases hfind : find line with
    | none =>
      rw [replay_of_find_none hfind, expandWith, hfind, List.append_nil]
      rfl
    | some f =>
      cases houtput : outputs f.inner with
      | error e =>
        have hanswer : answer outputs f.inner log = (.error e, log) := by
          rw [answer, houtput]
          exact congrArg _ (List.append_nil log)
        rw [replay_succ_of_error hfind houtput, expandWith, hfind, List.append_nil]
        simp only [StateT.run, bind, StateT.bind, hanswer]
        rfl
      | ok output =>
        have hfresh : replay outputs (limit + 1) line = _ :=
          (expandWith_answer_succ hfind houtput limit []).trans (ih _ _)
        rw [expandWith_answer_succ hfind houtput, ih, hfresh, List.nil_append, List.append_assoc log]

theorem replay_succ_of_ok (h : find line = some f) (houtput : outputs f.inner = .ok output)
    (limit : Nat) :
    replay outputs (limit + 1) line =
      ((replay outputs limit (f.before ++ output ++ f.after)).1,
        output :: (replay outputs limit (f.before ++ output ++ f.after)).2) := by
  rw [replay, expandWith_answer_succ h houtput, expandWith_answer]
  rfl

theorem done_or_replaced (outputs : List Char → Except EngineError (List Char)) (line : List Char) :
    (∀ n, replay outputs (n + 1) line = ({ text := line, ended := true }, [])) ∨
      ∃ f output, find line = some f ∧ outputs f.inner = .ok output := by
  cases hfind : find line with
  | none => exact Or.inl fun n ↦ replay_of_find_none hfind (n + 1)
  | some f =>
    cases houtput : outputs f.inner with
    | error e => exact Or.inl (replay_succ_of_error hfind houtput)
    | ok output => exact Or.inr ⟨f, output, rfl, houtput⟩

/-! ## Limits -/

theorem replay_add {m : Nat} (hopen : (replay outputs m line).1.ended = false) (n : Nat) :
    replay outputs (m + n) line =
      ((replay outputs n (replay outputs m line).1.text).1,
        (replay outputs m line).2 ++ (replay outputs n (replay outputs m line).1.text).2) := by
  induction m generalizing line with
  | zero => rw [Nat.zero_add, replay_zero, List.nil_append]
  | succ m ih =>
    rcases done_or_replaced outputs line with hdone | ⟨f, output, hfind, houtput⟩
    · rw [hdone] at hopen
      cases hopen
    · rw [replay_succ_of_ok hfind houtput] at hopen ⊢
      rw [Nat.add_right_comm, replay_succ_of_ok hfind houtput, ih hopen]
      rfl

theorem replay_eq_of_ended {n limit : Nat} (hended : (replay outputs n line).1.ended = true)
    (hle : n ≤ limit) : replay outputs limit line = replay outputs n line := by
  induction n generalizing line limit with
  | zero =>
    have hnone : find line = none := Option.isNone_iff_eq_none.mp hended
    rw [replay_of_find_none hnone, replay_of_find_none hnone]
  | succ n ih =>
    obtain ⟨limit, rfl⟩ : ∃ k, limit = k + 1 := Nat.exists_eq_add_one.mpr (by omega)
    rcases done_or_replaced outputs line with hdone | ⟨f, output, hfind, houtput⟩
    · rw [hdone, hdone]
    · rw [replay_succ_of_ok hfind houtput] at hended
      rw [replay_succ_of_ok hfind houtput, replay_succ_of_ok hfind houtput,
        ih hended (Nat.le_of_succ_le_succ hle)]

theorem settles_of_ended {n : Nat} (hended : (replay outputs n line).1.ended = true) :
    Settles outputs line :=
  ⟨n, hended, fun _ hle ↦ replay_eq_of_ended hended hle⟩

theorem not_settles_of_returns {m : Nat} (hm : 0 < m)
    (hreturns : (replay outputs m line).1 = { text := line, ended := false }) :
    ¬Settles outputs line := by
  have hrounds (k : Nat) :
      (replay outputs ((k + 1) * m) line).1 = { text := line, ended := false } := by
    induction k with
    | zero => rw [Nat.zero_add, Nat.one_mul, hreturns]
    | succ k ih =>
      have hopen : (replay outputs ((k + 1) * m) line).1.ended = false := by rw [ih]
      rw [Nat.succ_mul, replay_add hopen, ih, hreturns]
  rintro ⟨n, hended, hsame⟩
  have hle : n ≤ (n + 1) * m := Nat.le_trans (Nat.le_succ n) (Nat.le_mul_of_pos_right _ hm)
  rw [← hsame _ hle, hrounds] at hended
  cases hended

/-! ## What openers are made of -/

/-- Twice the number of a character, and the number of backquotes. -/
def weight (c : Char) (text : List Char) : Nat := 2 * text.count c + text.count backquote

theorem weight_append (c : Char) (text text' : List Char) :
    weight c (text ++ text') = weight c text + weight c text' := by
  simp only [weight, List.count_append]
  omega

theorem weight_le_one (h : bringsIn c output = false) : weight c output ≤ 1 := by
  simp only [bringsIn, Bool.or_eq_false_iff, decide_eq_false_iff_not, Nat.not_le,
    List.contains_eq_mem] at h
  have hcount : output.count c = 0 := List.count_eq_zero.mpr h.2
  rw [weight, hcount]
  omega

theorem two_le_weight {inner body : List Char} (hbody : Delimited inner body)
    (hc : c = '$' ∨ c = '(') : 2 ≤ weight c body := by
  cases hbody with
  | parentheses =>
    have hpos : 0 < ('$' :: '(' :: inner ++ [')']).count c := by
      rcases hc with rfl | rfl <;> exact List.count_pos_iff.mpr (by simp)
    rw [weight]
    omega
  | backquotes =>
    have hcount : (backquote :: inner ++ [backquote]).count backquote
        = inner.count backquote + 2 := by simp
    rw [weight, hcount]
    omega

/-- A replacement by a light output makes a line lighter. -/
theorem weight_lt_of_find (h : find line = some f) (hc : c = '$' ∨ c = '(')
    (hlight : bringsIn c output = false) :
    weight c (f.before ++ output ++ f.after) < weight c line := by
  obtain ⟨body, hbody, rfl⟩ := exists_of_find h
  have htaken := two_le_weight hbody hc
  have hadded := weight_le_one hlight
  simp only [weight_append]
  omega

/-- With light outputs only, a line that stays open has lost weight with each replacement. -/
theorem add_weight_le (hc : c = '$' ∨ c = '(') {limit : Nat}
    (hopen : (replay outputs limit line).1.ended = false)
    (hlight : ∀ o ∈ (replay outputs limit line).2, bringsIn c o = false) :
    limit + weight c (replay outputs limit line).1.text ≤ weight c line := by
  induction limit generalizing line with
  | zero => exact Nat.le_of_eq (Nat.zero_add _)
  | succ limit ih =>
    rcases done_or_replaced outputs line with hdone | ⟨f, output, hfind, houtput⟩
    · rw [hdone] at hopen
      cases hopen
    · rw [replay_succ_of_ok hfind houtput] at hopen hlight ⊢
      obtain ⟨houtput, hlater⟩ := List.forall_mem_cons.mp hlight
      have hstep := weight_lt_of_find hfind hc houtput
      have hrest := ih hopen hlater
      dsimp only
      omega

/-- Where nothing ends expansion, heavy outputs come again and again. -/
theorem bringsIn_frequently (hc : c = '$' ∨ c = '(')
    (hopen : ∀ limit, (replay outputs limit line).1.ended = false) (n : Nat) :
    ∃ limit, n ≤ (replay outputs limit line).2.countP (bringsIn c) := by
  induction n generalizing line with
  | zero => exact ⟨0, Nat.zero_le _⟩
  | succ n ih =>
    -- the line is too light for this many replacements by light outputs
    let m := weight c line + 1
    have hheavy : 0 < (replay outputs m line).2.countP (bringsIn c) := by
      refine Nat.pos_of_ne_zero fun hzero ↦ ?_
      have hlight : ∀ o ∈ (replay outputs m line).2, bringsIn c o = false := fun o ho ↦
        Bool.eq_false_iff.mpr (List.countP_eq_zero.mp hzero o ho)
      have hweight := add_weight_le hc (hopen m) hlight
      omega
    have hopen' (k : Nat) : (replay outputs k (replay outputs m line).1.text).1.ended = false := by
      have hall := hopen (m + k)
      rwa [replay_add (hopen m)] at hall
    obtain ⟨k, hk⟩ := ih hopen'
    refine ⟨m + k, ?_⟩
    rw [replay_add (hopen m), List.countP_append]
    omega

end

/-- **Expansion ends unless openers keep coming.** With fixed outputs, only finitely many
replacements are made, or infinitely many outputs bring in two backquotes or a dollar sign, and
infinitely many bring in two backquotes or an opening parenthesis. -/
theorem settles_or_bringsIn_frequently (outputs : List Char → Except EngineError (List Char))
    (line : List Char) :
    Settles outputs line ∨
      (∀ n, ∃ limit, n ≤ (replay outputs limit line).2.countP (bringsIn '$')) ∧
      ∀ n, ∃ limit, n ≤ (replay outputs limit line).2.countP (bringsIn '(') := by
  by_cases hended : ∃ n, (replay outputs n line).1.ended = true
  · exact Or.inl (settles_of_ended hended.choose_spec)
  · have hopen (n : Nat) : (replay outputs n line).1.ended = false :=
      Bool.eq_false_iff.mpr fun h ↦ hended ⟨n, h⟩
    exact Or.inr ⟨bringsIn_frequently (Or.inl rfl) hopen, bringsIn_frequently (Or.inr rfl) hopen⟩

/-- Outputs that stay open forever: one that is its own command, and two that have no opener but
make one where they meet a dollar sign or a parenthesis of the line. -/
theorem not_settles_cat_and_swap :
    (¬Settles (fun _ ↦ .ok "\x60cat f\x60".toList) "\x60cat f\x60".toList) ∧
      ¬Settles (fun inner ↦ .ok (if inner = ['x'] then "(y)(x)".toList else "$$".toList))
        "$$(x)".toList :=
  ⟨not_settles_of_returns (m := 1) (by decide) (by decide +kernel),
    not_settles_of_returns (m := 2) (by decide) (by decide +kernel)⟩

end ShellEngine.Line
