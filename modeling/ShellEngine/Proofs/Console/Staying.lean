import Mathlib.Data.List.DropRight
import ShellEngine.Proofs.Console.Whereabouts

/-!
# Input that stays unread

A watcher of input compares each number of unread bytes with the one before, and starts over with
any other number and after it has found input ready. So what it answers depends on the length of the
row of looks that found the same number, up to this one (`stay`): input is ready at the end of each
period of it (`observeAll_unreadAfter`).

A terminal takes all that is queued at such a look, and nothing at any other. What happens between
the looks plays no part but for the numbers that they find.
-/

namespace ShellEngine

namespace UnreadInput

/-! ## Looks in a row -/

/-- How many looks in a row, up to the last one, found the same number. -/
def stay (looks : List Nat) : Nat := (looks.rtakeWhile fun n ↦ looks.getLast? = some n).length

theorem rtakeWhile_of_getLast?_ne {looks : List Nat} {n : Nat} (h : looks.getLast? ≠ some n) :
    (looks.rtakeWhile fun m ↦ some n = some m) = [] := by
  rcases looks.eq_nil_or_concat with rfl | ⟨init, last, rfl⟩
  · rfl
  · rw [List.concat_eq_append, List.rtakeWhile_concat_neg]
    simpa [eq_comm] using h

theorem stay_concat (looks : List Nat) (n : Nat) :
    stay (looks ++ [n]) = if looks.getLast? = some n then stay looks + 1 else 1 := by
  rw [stay, List.getLast?_concat, List.rtakeWhile_concat_pos _ _ _ (by simp), List.length_append,
    List.length_singleton]
  split
  · rename_i h
    rw [stay, h]
  · rename_i h
    rw [rtakeWhile_of_getLast?_ne h, List.length_nil]

theorem replicate_stay_suffix {looks : List Nat} {n : Nat} (h : looks.getLast? = some n) :
    List.replicate (stay looks) n <:+ looks := by
  have hrow : (looks.rtakeWhile fun m ↦ some n = some m) = List.replicate (stay looks) n := by
    rw [stay, h, List.eq_replicate_iff]
    refine ⟨rfl, fun m hm ↦ ?_⟩
    have hmem := List.mem_rtakeWhile_imp hm
    simpa [eq_comm] using hmem
  rw [← hrow]
  exact List.rtakeWhile_suffix _ _

theorem replicate_suffix_of_le {looks : List Nat} {n k : Nat} (h : looks.getLast? = some n)
    (hk : k ≤ stay looks) : List.replicate k n <:+ looks := by
  refine List.IsSuffix.trans ⟨List.replicate (stay looks - k) n, ?_⟩ (replicate_stay_suffix h)
  rw [List.replicate_append_replicate, Nat.sub_add_cancel hk]

/-! ## The counts of the watcher -/

/-- How many looks in a row it takes until input is ready. -/
def period (strikes : Nat) : Nat := max strikes 1 + 1

/-- The watcher after some looks: it counts within a period. -/
def unreadAfter (strikes : Nat) (looks : List Nat) : UnreadInput where
  strikes
  last := if stay looks % period strikes = 0 then 0 else looks.getLast?.getD 0
  passes := if looks.getLast?.getD 0 = 0 then 0 else stay looks % period strikes - 1

theorem unreadAfter_nil (strikes : Nat) : unreadAfter strikes [] = { strikes } := by
  simp [unreadAfter, stay]

theorem observe_of_ne {u : UnreadInput} {n : Nat} (h : n ≠ u.last) :
    u.observe n = (false, { u with last := n, passes := 0 }) := by
  simp [observe, h]

theorem observe_of_eq {u : UnreadInput} {n : Nat} (hn : n ≠ 0) (h : n = u.last) :
    u.observe n = if u.passes + 1 < u.strikes then (false, { u with passes := u.passes + 1 })
      else (true, { u with last := 0, passes := 0 }) := by
  simp [observe, hn, ← h]

section

variable {strikes n : Nat} {looks : List Nat}

theorem two_le_period (strikes : Nat) : 2 ≤ period strikes := by
  unfold period
  omega

/-- One more look in a row is the next one of the period, or the first one of another. -/
theorem stay_concat_mod (hlast : looks.getLast? = some n) :
    stay (looks ++ [n]) % period strikes = (stay looks % period strikes + 1) % period strikes := by
  rw [stay_concat, if_pos hlast, Nat.mod_add_mod]

/-- Within a period the passes count the looks behind its first one. -/
theorem unreadAfter_of_more (hn : n ≠ 0) (hlast : looks.getLast? = some n)
    (h : stay looks % period strikes ≠ 0) : unreadAfter strikes looks =
      { strikes, last := n, passes := stay looks % period strikes - 1 } := by
  simp [unreadAfter, hlast, hn, h]

/-- With another number, or at the end of a period, the watcher has nothing to compare with. -/
theorem ne_last_unreadAfter (hn : n ≠ 0)
    (h : looks.getLast? ≠ some n ∨ stay looks % period strikes = 0) :
    n ≠ (unreadAfter strikes looks).last := by
  unfold unreadAfter
  dsimp only
  split
  · exact hn
  · rename_i hmore
    cases hlast : looks.getLast? with
    | none => exact hn
    | some m => exact fun heq ↦ (h.resolve_right hmore) (heq ▸ hlast)

theorem observe_first (hn : n ≠ 0)
    (h : looks.getLast? ≠ some n ∨ stay looks % period strikes = 0) :
    (unreadAfter strikes looks).observe n =
      (decide (stay (looks ++ [n]) % period strikes = 0), unreadAfter strikes (looks ++ [n])) := by
  have htwo := two_le_period strikes
  have hone : stay (looks ++ [n]) % period strikes = 1 := by
    by_cases hlast : looks.getLast? = some n
    · rw [stay_concat_mod hlast, h.resolve_left (not_not_intro hlast), Nat.mod_eq_of_lt (by omega)]
    · rw [stay_concat, if_neg hlast, Nat.mod_eq_of_lt (by omega)]
  rw [observe_of_ne (ne_last_unreadAfter hn h), hone]
  simp [unreadAfter, hone]

theorem observe_more (hn : n ≠ 0) (hlast : looks.getLast? = some n)
    (h : stay looks % period strikes ≠ 0) : (unreadAfter strikes looks).observe n =
      (decide (stay (looks ++ [n]) % period strikes = 0), unreadAfter strikes (looks ++ [n])) := by
  have hperiod : period strikes = max strikes 1 + 1 := rfl
  have hlt : stay looks % period strikes < period strikes := Nat.mod_lt _ (by omega)
  rw [unreadAfter_of_more hn hlast h, observe_of_eq hn rfl]
  by_cases hmore : stay looks % period strikes < strikes
  · have hsucc : stay (looks ++ [n]) % period strikes = stay looks % period strikes + 1 :=
      (stay_concat_mod hlast).trans (Nat.mod_eq_of_lt (by omega))
    have hne : stay (looks ++ [n]) % period strikes ≠ 0 := by omega
    have hpasses :
        stay looks % period strikes - 1 + 1 = stay (looks ++ [n]) % period strikes - 1 := by
      omega
    rw [if_pos (by dsimp only; omega), decide_eq_false hne,
      unreadAfter_of_more hn List.getLast?_concat hne]
    dsimp only
    rw [hpasses]
  · -- all strikes were made, so this is the last look of the period
    have hfull : stay looks % period strikes + 1 = period strikes := by omega
    have hzero : stay (looks ++ [n]) % period strikes = 0 := by
      rw [stay_concat_mod hlast, hfull, Nat.mod_self]
    rw [if_neg (by dsimp only; omega), decide_eq_true hzero]
    simp [unreadAfter, hzero]

end

/-- A look finds input ready if it is the last one of a period. -/
theorem observe_unreadAfter (strikes : Nat) (looks : List Nat) (n : Nat) :
    (unreadAfter strikes looks).observe n =
      (decide (n ≠ 0 ∧ period strikes ∣ stay (looks ++ [n])),
        unreadAfter strikes (looks ++ [n])) := by
  by_cases hn : n = 0
  · simp [observe, unreadAfter, hn]
  · have hready : (n ≠ 0 ∧ period strikes ∣ stay (looks ++ [n])) =
        (stay (looks ++ [n]) % period strikes = 0) := by
      rw [Nat.dvd_iff_mod_eq_zero]
      exact propext (and_iff_right hn)
    simp only [hready]
    -- Only behind the first look of a period there is a number to compare with.
    by_cases hlast : looks.getLast? = some n ∧ stay looks % period strikes ≠ 0
    · exact observe_more hn hlast.1 hlast.2
    · exact observe_first hn ((not_and_or.mp hlast).imp_right not_not.mp)

/-- From any look on, input is ready at the last look of each period. -/
theorem observeAll_unreadAfter (strikes : Nat) (before looks : List Nat) :
    (unreadAfter strikes before).observeAll looks = List.ofFn fun t : Fin looks.length ↦
      decide (looks[t] ≠ 0 ∧ period strikes ∣ stay (before ++ looks.take (t + 1))) := by
  induction looks generalizing before with
  | nil => rfl
  | cons n looks ih =>
    rw [observeAll, observe_unreadAfter, List.ofFn_succ]
    dsimp only
    rw [ih]
    simp only [List.append_assoc]
    rfl

end UnreadInput

/-! ## Looks at a terminal -/

namespace Terminal

theorem unread_peek (t : Terminal) : t.peek.2.unread = (t.unread.observe t.queue.length).2 := by
  unfold peek
  rcases t.unread.observe t.queue.length with ⟨ready, unread⟩
  cases ready <;> rfl

theorem queue_peek (t : Terminal) :
    t.peek.2.queue = if (t.unread.observe t.queue.length).1 then [] else t.queue := by
  unfold peek
  rcases t.unread.observe t.queue.length with ⟨ready, unread⟩
  cases ready <;> rfl

end Terminal

namespace Watched

/-- How many bytes each look finds queued. -/
def counts (w : Watched) : List TerminalUse → List Nat
  | [] => []
  | .peek :: uses => w.terminal.queue.length :: (w.step .peek).counts uses
  | u :: uses => (w.step u).counts uses

theorem counts_append (w : Watched) (uses more : List TerminalUse) :
    w.counts (uses ++ more) = w.counts uses ++ (w.run uses).counts more := by
  induction uses generalizing w with
  | nil => rfl
  | cons u uses ih =>
    cases u with
    | peek => exact congrArg (w.terminal.queue.length :: ·) (ih _)
    | type | read | discardGestures | takeTypeahead => exact ih _

theorem unread_run {w : Watched} {strikes : Nat} {before : List Nat}
    (h : w.terminal.unread = .unreadAfter strikes before) (uses : List TerminalUse) :
    (w.run uses).terminal.unread = .unreadAfter strikes (before ++ w.counts uses) := by
  induction uses generalizing w before with
  | nil => simpa [run, counts] using h
  | cons u uses ih =>
    cases u with
    | peek =>
      have hpeek : (w.step .peek).terminal.unread =
          .unreadAfter strikes (before ++ [w.terminal.queue.length]) := by
        rw [step, Terminal.unread_peek, h, UnreadInput.observe_unreadAfter]
      have hrun := ih hpeek
      rw [List.append_assoc] at hrun
      exact hrun
    | type | read | discardGestures | takeTypeahead => exact ih h

theorem taken_step_peek (w : Watched) : (w.step .peek).taken =
    if (w.terminal.unread.observe w.terminal.queue.length).1 then w.taken ++ w.terminal.queue
    else w.taken := by
  simp only [step, Terminal.queue_peek]
  split <;> simp

/-- **Input is taken after it has stayed unread.** A watcher answers a look with true exactly if it
finds input and the looks in a row that found as much, up to this one, make up whole periods. A
terminal takes all that is queued at such a look, and nothing at any other; so it takes input only
if the looks of a whole period found as much. -/
theorem taken_iff_stay (strikes : Nat) (looks : List Nat) (settings : MonitorSettings)
    (indicator : Bool) (uses : List TerminalUse) :
    let start : Watched := { terminal := .start settings indicator }
    let w := start.run uses
    let queued := w.terminal.queue.length
    let counts := start.counts (uses ++ [.peek])
    UnreadInput.observeAll { strikes } looks = (List.ofFn fun t : Fin looks.length ↦
        decide (looks[t] ≠ 0 ∧ max strikes 1 + 1 ∣ UnreadInput.stay (looks.take (t + 1)))) ∧
      (w.step .peek).taken = (if queued ≠ 0 ∧
          max settings.detachStrikes 1 + 1 ∣ UnreadInput.stay counts
        then w.taken ++ w.terminal.queue else w.taken) ∧
      ((w.step .peek).taken ≠ w.taken →
        queued ≠ 0 ∧ List.replicate (max settings.detachStrikes 1 + 1) queued <:+ counts) := by
  intro start w queued counts
  have hunread : w.terminal.unread =
      .unreadAfter (max settings.detachStrikes 1) (start.counts uses) :=
    @unread_run start _ [] (UnreadInput.unreadAfter_nil _).symm uses
  have hcounts : counts = start.counts uses ++ [queued] := start.counts_append uses [.peek]
  have hperiod : UnreadInput.period (max settings.detachStrikes 1) =
      max settings.detachStrikes 1 + 1 := by rw [UnreadInput.period, Nat.max_assoc, Nat.max_self]
  have htaken : (w.step .peek).taken = if queued ≠ 0 ∧
      max settings.detachStrikes 1 + 1 ∣ UnreadInput.stay counts
      then w.taken ++ w.terminal.queue else w.taken := by
    rw [taken_step_peek, hunread, UnreadInput.observe_unreadAfter, hperiod, hcounts]
    exact if_congr decide_eq_true_iff rfl rfl
  refine ⟨?_, htaken, fun hne ↦ ?_⟩
  · rw [← UnreadInput.unreadAfter_nil]
    exact UnreadInput.observeAll_unreadAfter strikes [] looks
  · have hstayed : queued ≠ 0 ∧ max settings.detachStrikes 1 + 1 ∣ UnreadInput.stay counts := by
      by_contra hnot
      exact hne (htaken.trans (if_neg hnot))
    have hlast : counts.getLast? = some queued := by rw [hcounts, List.getLast?_concat]
    have hpos : 0 < UnreadInput.stay counts := by
      rw [hcounts, UnreadInput.stay_concat]
      split <;> omega
    exact ⟨hstayed.1,
      UnreadInput.replicate_suffix_of_le hlast (Nat.le_of_dvd hpos hstayed.2)⟩

/-- After input was ready the same number begins another period. -/
example : UnreadInput.observeAll { strikes := 2 } [4, 4, 4, 4, 4, 5, 5, 5]
    = [false, false, true, false, false, false, false, true] := by decide

end Watched

end ShellEngine
