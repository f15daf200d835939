import Mathlib.Data.List.Basic
import Mathlib.Data.Nat.Init
import ShellEngine.Console.Gesture

/-!
# Debouncing in closed form

A watch keeps two counts from look to look, and both stop at their strikes. What it answers to a
look can be said without them, from what the looks up to this one found: whether a chord was held
through all strikes, and how often the focus was seen lost since it was last seen gained
(`answers_eq_closedForm`).

A look that detaches is left before the focus is looked at. So it neither counts as a loss nor puts
an end to the losses before it, and the closed form has to leave it out of both.
-/

namespace ShellEngine

/-- The focus that an event tells of. -/
def InputEvent.focus? : InputEvent → Option Bool
  | .focus gained => some gained
  | .key .. => none

namespace GestureWatch

/-- What a look at the input finds. -/
structure Sight where
  events : List InputEvent
  /-- Whether input is still queued. -/
  pending : Bool
  deriving DecidableEq, Repr

namespace Sight

def chord (s : Sight) : Bool := s.events.any InputEvent.isDetachChord

/-- What the last focus event tells. -/
def focus? (s : Sight) : Option Bool := (s.events.filterMap InputEvent.focus?).getLast?

def isIdle (s : Sight) : Bool := s.events.isEmpty && !s.pending

end Sight

/-- The answers of a watch to looks in a row. -/
def answers (w : GestureWatch) : List Sight → List Look
  | [] => []
  | s :: rest =>
    (w.observe s.events s.pending).1 :: (w.observe s.events s.pending).2.answers rest

/-! ## The closed form -/

/-- The looks from `strikes` before the one at `t` up to that one all exist and found a chord. -/
def Held (strikes : Nat) (sights : List Sight) (t : Nat) : Prop :=
  strikes ≤ t ∧ ∀ i ≤ t, t - strikes ≤ i → (sights[i]?).any Sight.chord = true

instance (strikes : Nat) (sights : List Sight) (t : Nat) : Decidable (Held strikes sights t) := by
  unfold Held
  infer_instance

/-- The look at `t` does not detach, and the last focus event that it found is this one. -/
def Turned (strikes : Nat) (sights : List Sight) (gained : Bool) (t : Nat) : Prop :=
  ¬Held strikes sights t ∧ (sights[t]?).bind Sight.focus? = some gained

instance (strikes : Nat) (sights : List Sight) (gained : Bool) (t : Nat) :
    Decidable (Turned strikes sights gained t) := by
  unfold Turned
  infer_instance

/-- How many looks before `t` found the focus lost, since the last one that found it gained. -/
def losses (strikes : Nat) (sights : List Sight) (t : Nat) : Nat :=
  (List.range t).countP fun i ↦
    Turned strikes sights false i ∧ ∀ j < t, i < j → ¬Turned strikes sights true j

/-- The answer to the look at `t`. The focus is lost if the last focus event says so. -/
def closedForm (settings : MonitorSettings) (sights : List Sight) (t : Fin sights.length) : Look :=
  let lost := sights[t].focus? = some false
  let shows := settings.focusStrikes ≤ losses settings.detachStrikes sights t
  if Held settings.detachStrikes sights t then { detach := true }
  else
    { showIndicator := lost ∧ shows
      delay :=
        if sights[t].isIdle then none
        else if sights[t].chord ∨ lost ∧ ¬shows then some settings.confirmDelay
        else some settings.pendingInputDelay }

/-! ## Counts by position -/

/-- How many looks in a row, right before `t`, found a chord. -/
def streak (sights : List Sight) : Nat → Nat
  | 0 => 0
  | t + 1 => if (sights[t]?).any Sight.chord = true then streak sights t + 1 else 0

theorem held_zero (sights : List Sight) (t : Nat) :
    Held 0 sights t ↔ (sights[t]?).any Sight.chord = true := by
  constructor
  · rintro ⟨-, h⟩
    exact h t (Nat.le_refl t) (Nat.le_refl t)
  · intro h
    refine ⟨Nat.zero_le t, fun i hle hge ↦ ?_⟩
    rwa [Nat.le_antisymm hle hge]

theorem held_succ (strikes : Nat) (sights : List Sight) (t : Nat) :
    Held (strikes + 1) sights (t + 1) ↔
      (sights[t + 1]?).any Sight.chord = true ∧ Held strikes sights t := by
  constructor
  · rintro ⟨hle, h⟩
    refine ⟨h (t + 1) (Nat.le_refl _) (Nat.sub_le _ _), Nat.le_of_succ_le_succ hle, ?_⟩
    intro i hi hge
    exact h i (Nat.le_succ_of_le hi) (by omega)
  · rintro ⟨hlast, hle, h⟩
    refine ⟨by omega, fun i hi hge ↦ ?_⟩
    rcases Nat.lt_or_eq_of_le hi with hlt | rfl
    · exact h i (by omega) (by omega)
    · exact hlast

theorem held_iff (strikes : Nat) (sights : List Sight) (t : Nat) :
    Held strikes sights t ↔ strikes < streak sights (t + 1) := by
  induction t generalizing strikes with
  | zero =>
    rcases strikes with _ | strikes
    · rw [held_zero, streak, streak]
      split <;> simp_all
    · constructor
      · rintro ⟨hle, -⟩
        omega
      · intro h
        rw [streak, streak] at h
        split at h <;> omega
  | succ t ih =>
    rw [streak]
    rcases strikes with _ | strikes
    · rw [held_zero]
      split <;> simp_all
    · rw [held_succ, ih]
      split <;> simp_all

theorem losses_succ (strikes : Nat) (sights : List Sight) (t : Nat) :
    losses strikes sights (t + 1)
      = if Turned strikes sights true t then 0
        else if Turned strikes sights false t then losses strikes sights t + 1
        else losses strikes sights t := by
  have hlast : ∀ j < t + 1, t < j → ¬Turned strikes sights true j := by omega
  unfold losses
  rw [List.range_succ, List.countP_append, List.countP_singleton]
  by_cases hgain : Turned strikes sights true t
  · rw [if_pos hgain]
    have hloss : ¬Turned strikes sights false t := by
      rintro ⟨-, hfalse⟩
      rw [hgain.2] at hfalse
      cases hfalse
    -- every earlier loss has this gain behind it
    rw [if_neg (by simp [hloss]), Nat.add_zero, List.countP_eq_zero]
    intro i hi hcounted
    obtain ⟨-, hnone⟩ := of_decide_eq_true hcounted
    exact hnone t (Nat.lt_succ_self t) (List.mem_range.mp hi) hgain
  · have hearlier : (List.range t).countP (fun i ↦ Turned strikes sights false i ∧
          ∀ j < t + 1, i < j → ¬Turned strikes sights true j)
        = (List.range t).countP fun i ↦ Turned strikes sights false i ∧
          ∀ j < t, i < j → ¬Turned strikes sights true j := by
      refine List.countP_congr fun i _ ↦ ?_
      rw [decide_eq_true_iff, decide_eq_true_iff, Nat.forall_lt_succ_right]
      simp [hgain]
    rw [if_neg hgain, hearlier]
    by_cases hloss : Turned strikes sights false t
    · rw [if_pos hloss, if_pos (decide_eq_true ⟨hloss, hlast⟩)]
    · rw [if_neg hloss, if_neg (by simp [hloss]), Nat.add_zero]

/-! ## Counts of the watch -/

theorem lastFocus?_eq (events : List InputEvent) :
    lastFocus? events = (events.filterMap InputEvent.focus?).getLast? := by
  rw [lastFocus?, List.getLast?_filterMap]
  rfl

theorem Sight.focus?_of_isIdle {s : Sight} (h : s.isIdle = true) :
    s.chord = false ∧ s.focus? = none := by
  obtain ⟨hevents, -⟩ := Bool.and_eq_true_iff.mp h
  rw [Sight.chord, Sight.focus?, List.isEmpty_iff.mp hevents]
  exact ⟨rfl, rfl⟩

/-- A chord that all strikes were made for detaches, and the look is left at once. -/
theorem observe_of_le {w : GestureWatch} {s : Sight} (hchord : s.chord = true)
    (hle : w.settings.detachStrikes ≤ w.detachCount) :
    w.observe s.events s.pending = ({ detach := true }, w) := by
  rw [Sight.chord] at hchord
  simp [observe, hchord, Nat.not_lt.mpr hle]

/-- The count of losses behind a look that does not detach. -/
def lossesBehind (w : GestureWatch) (s : Sight) : Nat :=
  match s.focus? with
  | some true => 0
  | some false => if w.focusCount < w.settings.focusStrikes then w.focusCount + 1 else w.focusCount
  | none => w.focusCount

theorem observe_of_not {w : GestureWatch} {s : Sight}
    (h : ¬(s.chord = true ∧ w.settings.detachStrikes ≤ w.detachCount)) :
    w.observe s.events s.pending =
      ({ showIndicator := s.focus? = some false ∧ w.settings.focusStrikes ≤ w.focusCount
         delay :=
          if s.isIdle then none
          else if s.chord ∨ s.focus? = some false ∧ ¬w.settings.focusStrikes ≤ w.focusCount then
            some w.settings.confirmDelay
          else some w.settings.pendingInputDelay },
        { w with
          detachCount := if s.chord then w.detachCount + 1 else 0
          focusCount := w.lossesBehind s }) := by
  have hstays : (s.chord && !decide (w.detachCount < w.settings.detachStrikes)) = false := by
    rw [← Bool.not_eq_true]
    simpa using h
  have hinput : (s.pending || !s.events.isEmpty) = !s.isIdle := by
    rw [Sight.isIdle, Bool.not_and, Bool.not_not, Bool.or_comm]
  unfold observe observeFocus lossesBehind
  dsimp only
  rw [lastFocus?_eq, ← Sight.focus?, ← Sight.chord, hstays, if_neg Bool.false_ne_true, hinput]
  cases hidle : s.isIdle with
  | true =>
    obtain ⟨hchord, hfocus⟩ := s.focus?_of_isIdle hidle
    simp [hchord, hfocus]
  | false =>
    -- A chord sets the delay first, and then a loss; only if neither did, the input does.
    rcases hfocus : s.focus? with _ | _ | _
    · cases hchord : s.chord <;> simp
    · rcases Nat.lt_or_ge w.focusCount w.settings.focusStrikes with hlt | hge
      · cases hchord : s.chord <;> simp [hlt, Nat.not_le.mpr hlt]
      · cases hchord : s.chord <;> simp [hge, Nat.not_lt.mpr hge]
    · cases hchord : s.chord <;> simp

/-! ## The counts of the watch -/

/-- The watch before the look at `t`: its counts stop at their strikes. -/
def watchAt (settings : MonitorSettings) (sights : List Sight) (t : Nat) : GestureWatch where
  settings
  detachCount := min settings.detachStrikes (streak sights t)
  focusCount := min settings.focusStrikes (losses settings.detachStrikes sights t)

theorem watchAt_zero (settings : MonitorSettings) (sights : List Sight) :
    watchAt settings sights 0 = { settings } := by
  simp [watchAt, streak, losses]

section

variable (settings : MonitorSettings) (sights : List Sight) (t : Fin sights.length)

theorem streak_succ :
    streak sights (t + 1) = if sights[t].chord then streak sights t + 1 else 0 := by
  rw [streak, List.getElem?_eq_getElem t.isLt, Option.any_some]
  rfl

theorem turned_iff (strikes : Nat) (gained : Bool) : Turned strikes sights gained t ↔
    ¬Held strikes sights t ∧ sights[t].focus? = some gained := by
  rw [Turned, List.getElem?_eq_getElem t.isLt, Option.bind_some]
  rfl

variable {settings sights t}

theorem observe_watchAt_of_held (h : Held settings.detachStrikes sights t) :
    (watchAt settings sights t).observe sights[t].events sights[t].pending
      = ({ detach := true }, watchAt settings sights (t + 1)) := by
  have hstreak := (held_iff _ _ _).mp h
  have hlosses : losses settings.detachStrikes sights (t + 1)
      = losses settings.detachStrikes sights t := by
    rw [losses_succ, if_neg fun hgain ↦ hgain.1 h, if_neg fun hloss ↦ hloss.1 h]
  rw [streak_succ] at hstreak
  by_cases hchord : sights[t].chord = true
  · rw [if_pos hchord] at hstreak
    have hle : settings.detachStrikes ≤ min settings.detachStrikes (streak sights t) := by omega
    rw [observe_of_le hchord hle, watchAt, watchAt, streak_succ, if_pos hchord, hlosses,
      Nat.min_eq_left (Nat.le_of_lt hstreak), Nat.min_eq_left (Nat.le_of_lt_succ hstreak)]
  · rw [if_neg hchord] at hstreak
    exact absurd hstreak (Nat.not_lt_zero _)

theorem min_streak_succ (h : ¬Held settings.detachStrikes sights t) :
    min settings.detachStrikes (streak sights (t + 1))
      = if sights[t].chord then min settings.detachStrikes (streak sights t) + 1 else 0 := by
  rw [held_iff, streak_succ] at h
  rw [streak_succ]
  by_cases hchord : sights[t].chord = true
  · rw [if_pos hchord] at h
    rw [if_pos hchord, if_pos hchord]
    omega
  · rw [if_neg hchord, if_neg hchord, Nat.min_zero]

theorem min_losses_succ (h : ¬Held settings.detachStrikes sights t) :
    min settings.focusStrikes (losses settings.detachStrikes sights (t + 1))
      = (watchAt settings sights t).lossesBehind sights[t] := by
  have hturned (gained : Bool) : Turned settings.detachStrikes sights gained t ↔
      sights[t].focus? = some gained :=
    (turned_iff sights t _ gained).trans (and_iff_right h)
  rw [losses_succ]
  simp only [hturned]
  unfold lossesBehind watchAt
  rcases sights[t].focus? with _ | _ | _
  · simp
  · simp only [Option.some.injEq, Bool.false_eq_true, if_false, if_true]
    split <;> omega
  · simp

/-- A look gives the answer of the closed form, and the counts of the next look. -/
theorem observe_watchAt (settings : MonitorSettings) (sights : List Sight)
    (t : Fin sights.length) :
    (watchAt settings sights t).observe sights[t].events sights[t].pending
      = (closedForm settings sights t, watchAt settings sights (t + 1)) := by
  by_cases hheld : Held settings.detachStrikes sights t
  · rw [observe_watchAt_of_held hheld, closedForm, if_pos hheld]
  · have hstays : ¬(sights[t].chord = true ∧
        settings.detachStrikes ≤ min settings.detachStrikes (streak sights t)) := by
      rintro ⟨hchord, hle⟩
      rw [held_iff, streak_succ, if_pos hchord] at hheld
      omega
    have hshows : settings.focusStrikes ≤
          min settings.focusStrikes (losses settings.detachStrikes sights t) ↔
        settings.focusStrikes ≤ losses settings.detachStrikes sights t := by
      omega
    have hobserve := observe_of_not (w := watchAt settings sights t) hstays
    rw [hobserve, closedForm, if_neg hheld, ← min_losses_succ hheld]
    simp only [watchAt, hshows, min_streak_succ hheld]

end

/-- From any look on, the answers are those of the closed form. -/
theorem answers_watchAt (settings : MonitorSettings) (sights : List Sight) {t : Nat}
    (ht : t ≤ sights.length) : (watchAt settings sights t).answers (sights.drop t)
      = (List.ofFn (closedForm settings sights)).drop t := by
  induction ht using Nat.decreasingInduction with
  | self => simp [answers]
  | of_succ t ht ih =>
    have hobserve := observe_watchAt settings sights ⟨t, ht⟩
    have hlength : t < (List.ofFn (closedForm settings sights)).length := by
      rwa [List.length_ofFn]
    rw [List.drop_eq_getElem_cons ht, List.drop_eq_getElem_cons hlength, answers]
    simp only [Fin.getElem_fin] at hobserve
    rw [hobserve, ih, List.getElem_ofFn]

/-- **Debouncing in closed form.** What a watch answers to each of some looks is said by what these
looks found, up to that one. -/
theorem answers_eq_closedForm (settings : MonitorSettings) (sights : List Sight) :
    answers { settings } sights = List.ofFn (closedForm settings sights) := by
  rw [← watchAt_zero settings sights]
  exact answers_watchAt settings sights (Nat.zero_le _)

/-- The gain in the second look does not count, because that look detaches. -/
example : answers { settings := { detachStrikes := 0, focusStrikes := 1 } }
    [{ events := [.focus false], pending := true },
      { events := [.key true false 'b' true, .focus true], pending := true },
      { events := [.focus false], pending := true }]
    = [{ delay := some 30 }, { detach := true }, { delay := some 100, showIndicator := true }] := by
  decide

end GestureWatch

end ShellEngine
