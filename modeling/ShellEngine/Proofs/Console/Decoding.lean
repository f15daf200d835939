import Mathlib.Data.List.Infix
import ShellEngine.Proofs.Console.Debouncing
import ShellEngine.Proofs.Console.Gestures

/-!
# Gestures in decoded input

Decoding takes one, two or three bytes at a time, and a key with Alt begins with an escape like a
focus mark. But behind an escape it takes visible bytes only, and a gesture begins with a byte that
is not visible. So nothing swallows the beginning of a gesture: those that are decoded are the ones
that stand anywhere among the bytes, in the order in which they stand there
(`filter_isGesture_decode`).
-/

namespace ShellEngine.Console

variable {b : UInt8} {bs rest : Bytes} {gained : Bool} {key : Char}

/-! ## Bytes behind an escape -/

/-- Whether a byte is a visible character. -/
def IsVisible (b : UInt8) : Prop := 0x21 ≤ b ∧ b ≤ 0x7e

instance (b : UInt8) : Decidable (IsVisible b) := inferInstanceAs (Decidable (_ ∧ _))

/-- The last byte of a focus mark. -/
def focusByte (gained : Bool) : UInt8 := if gained then 0x49 else 0x4f

theorem focusMark_eq (gained : Bool) : focusMark gained = [escByte, 0x5b, focusByte gained] := rfl

theorem isVisible_focusByte (gained : Bool) : IsVisible (focusByte gained) := by
  cases gained <;> decide

theorem ne_escByte_of_isVisible (hb : IsVisible b) : b ≠ escByte := by
  rintro rfl
  exact absurd hb (by decide)

theorem ne_chordByte_of_isVisible (hb : IsVisible b) : b ≠ chordByte := by
  rintro rfl
  exact absurd hb (by decide)

theorem isSome_altKey?_iff (b c : UInt8) (rest : Bytes) :
    (altKey? (b :: c :: rest)).isSome = true ↔ b = escByte ∧ IsVisible c := by
  rw [altKey?, IsVisible]
  split <;> simp_all

theorem exists_of_altKey? (hkey : altKey? (b :: rest) = some key) :
    b = escByte ∧ ∃ c after, rest = c :: after ∧ IsVisible c := by
  cases rest with
  | nil => cases hkey
  | cons c after =>
    obtain ⟨hb, hc⟩ := (isSome_altKey?_iff b c after).mp (Option.isSome_of_eq_some hkey)
    exact ⟨hb, c, after, rfl, hc⟩

theorem altKey?_eq_none_iff (b : UInt8) (rest : Bytes) :
    altKey? (b :: rest) = none ↔ (b = escByte → ∀ c ∈ rest.head?, ¬IsVisible c) := by
  cases rest with
  | nil => simp [altKey?]
  | cons c rest =>
    rw [← Option.not_isSome_iff_eq_none, isSome_altKey?_iff]
    simp

theorem altKey?_of_ne (hb : b ≠ escByte) (rest : Bytes) : altKey? (b :: rest) = none :=
  (altKey?_eq_none_iff b rest).mpr fun h ↦ absurd h hb

theorem focusMark?_eq_some_iff : focusMark? bs = some gained ↔ focusMark gained <+: bs := by
  constructor
  · intro h
    obtain ⟨rest, rfl⟩ := eq_of_focusMark? h
    exact List.prefix_append _ _
  · rintro ⟨rest, rfl⟩
    cases gained <;> rfl

/-- A focus mark would be a key with Alt otherwise. -/
theorem focusMark?_of_altKey? (hkey : altKey? (b :: rest) = none) :
    focusMark? (b :: rest) = none := by
  rw [Option.eq_none_iff_forall_ne_some]
  intro gained hmark
  obtain ⟨after, heq⟩ := eq_of_focusMark? hmark
  rw [heq] at hkey
  cases hkey

theorem focusMark?_of_ne (hb : b ≠ escByte) (rest : Bytes) : focusMark? (b :: rest) = none :=
  focusMark?_of_altKey? (altKey?_of_ne hb rest)

/-! ## The first event -/

theorem decode_of_focusMark? (hmark : focusMark? (b :: rest) = some gained) :
    decode (b :: rest) = .focus gained :: decode (rest.drop 2) := by
  rw [decode, hmark]

theorem decode_of_altKey? (hmark : focusMark? (b :: rest) = none)
    (hkey : altKey? (b :: rest) = some key) :
    decode (b :: rest) = .key false true key true :: decode (rest.drop 1) := by
  rw [decode, hmark, hkey]

theorem decode_of_none (hkey : altKey? (b :: rest) = none) :
    decode (b :: rest) = singleKey b :: decode rest := by
  rw [decode, focusMark?_of_altKey? hkey, hkey]

theorem isGesture_altKey (key : Char) : (InputEvent.key false true key true).isGesture = false := by
  simp [InputEvent.isGesture, InputEvent.isDetachChord]

theorem isGesture_singleKey (b : UInt8) : (singleKey b).isGesture = true ↔ b = chordByte := by
  rw [← isDetachChord_singleKey, singleKey]
  split <;> rfl

/-! ## Where gestures stand -/

/-- What a focus mark tells that bytes begin with. -/
def focusAt? (bs : Bytes) : Option Bool :=
  if focusMark true <+: bs then some true
  else if focusMark false <+: bs then some false
  else none

/-- The gesture that bytes begin with. -/
def gestureAt? (bs : Bytes) : Option InputEvent :=
  if [chordByte] <+: bs then some (.key true false 'b' true) else (focusAt? bs).map .focus

theorem focusMark?_eq (bs : Bytes) : focusMark? bs = focusAt? bs := by
  rw [focusAt?]
  split
  · rename_i h
    exact focusMark?_eq_some_iff.mpr h
  · rename_i htrue
    split
    · rename_i h
      exact focusMark?_eq_some_iff.mpr h
    · rename_i hfalse
      rw [Option.eq_none_iff_forall_ne_some]
      rintro (_ | _) h
      · exact hfalse (focusMark?_eq_some_iff.mp h)
      · exact htrue (focusMark?_eq_some_iff.mp h)

theorem gestureAt?_of_isVisible (hb : IsVisible b) (rest : Bytes) :
    gestureAt? (b :: rest) = none := by
  rw [gestureAt?, ← focusMark?_eq, focusMark?_of_ne (ne_escByte_of_isVisible hb)]
  simp [(ne_chordByte_of_isVisible hb).symm]

theorem gestureAt?_focusMark_append (gained : Bool) (rest : Bytes) :
    gestureAt? (focusMark gained ++ rest) = some (.focus gained) := by
  have hchord : ¬[chordByte] <+: focusMark gained ++ rest := by
    simp [focusMark_eq, show chordByte ≠ escByte by decide]
  rw [gestureAt?, if_neg hchord, ← focusMark?_eq,
    focusMark?_eq_some_iff.mpr (List.prefix_append _ _), Option.map_some]

/-- A byte that begins no focus mark is a gesture if it is one when it is decoded alone. -/
theorem gestureAt?_of_single (hmark : focusMark? (b :: rest) = none) :
    gestureAt? (b :: rest) = if (singleKey b).isGesture then some (singleKey b) else none := by
  by_cases hb : b = chordByte
  · subst hb
    rfl
  · rw [if_neg ((isGesture_singleKey b).not.mpr hb), gestureAt?, ← focusMark?_eq, hmark]
    simp [Ne.symm hb]

/-- **Gestures in decoded input.** The gestures that are decoded are those that stand anywhere among
the bytes. -/
theorem filter_isGesture_decode (bs : Bytes) :
    (decode bs).filter InputEvent.isGesture = bs.tails.filterMap gestureAt? := by
  fun_induction decode bs with
  | case1 => rfl
  | case2 b rest gained hmark ih =>
    -- Behind the escape of a mark come two visible bytes.
    obtain ⟨after, heq⟩ := eq_of_focusMark? hmark
    have hfirst : gestureAt? (b :: rest) = some (.focus gained) := by
      rw [heq]
      exact gestureAt?_focusMark_append gained after
    obtain ⟨rfl, rfl⟩ : b = escByte ∧ rest = 0x5b :: focusByte gained :: after := List.cons.inj heq
    rw [List.tails_cons, List.filterMap_cons_some hfirst, List.tails_cons,
      List.filterMap_cons_none (gestureAt?_of_isVisible (by decide) _), List.tails_cons,
      List.filterMap_cons_none (gestureAt?_of_isVisible (isVisible_focusByte gained) _)]
    exact congrArg (InputEvent.focus gained :: ·) ih
  | case3 b rest key hkey hmark ih =>
    -- The byte behind the escape is visible, so that no gesture begins where the key goes on.
    obtain ⟨rfl, c, after, rfl, hc⟩ := exists_of_altKey? hkey
    have hnone : gestureAt? (escByte :: c :: after) = none :=
      (gestureAt?_of_single hmark).trans (if_neg (by decide))
    have hkept : ¬(InputEvent.key false true key true).isGesture = true := by
      rw [isGesture_altKey]
      exact Bool.false_ne_true
    rw [List.tails_cons, List.filterMap_cons_none hnone, List.tails_cons,
      List.filterMap_cons_none (gestureAt?_of_isVisible hc after), List.filter_cons_of_neg hkept]
    exact ih
  | case4 b rest hkey hmark ih =>
    rw [List.tails_cons, List.filterMap_cons, gestureAt?_of_single hmark, List.filter_cons, ih]
    split <;> rfl

/-! ## Chords and focus marks -/

theorem isGesture_of_isDetachChord {e : InputEvent} (h : e.isDetachChord = true) :
    e.isGesture = true := by
  cases e with
  | key => exact h
  | focus => rfl

theorem isGesture_of_focus? {e : InputEvent} (h : e.focus? = some gained) :
    e.isGesture = true := by
  cases e with
  | key => cases h
  | focus => rfl

theorem map_isDetachChord_gestureAt? (bs : Bytes) :
    ((gestureAt? bs).map InputEvent.isDetachChord).getD false = decide ([chordByte] <+: bs) := by
  by_cases h : [chordByte] <+: bs
  · rw [gestureAt?, if_pos h, decide_eq_true h]
    rfl
  · rw [gestureAt?, if_neg h, decide_eq_false h]
    cases focusAt? bs <;> rfl

theorem bind_focus?_gestureAt? (bs : Bytes) :
    (gestureAt? bs).bind InputEvent.focus? = focusAt? bs := by
  by_cases h : [chordByte] <+: bs
  · obtain ⟨rest, rfl⟩ := h
    rw [gestureAt?, if_pos (List.prefix_append _ _), ← focusMark?_eq]
    exact (focusMark?_of_ne (by decide) rest).symm
  · rw [gestureAt?, if_neg h]
    cases focusAt? bs <;> rfl

theorem countP_tails (b : UInt8) (bs : Bytes) :
    (bs.tails.countP fun suffix ↦ [b] <+: suffix) = bs.count b := by
  induction bs with
  | nil => rfl
  | cons c bs ih =>
    rw [List.tails_cons, List.countP_cons, List.count_cons, ih]
    simp only [List.cons_prefix_cons, List.nil_prefix, and_true, decide_eq_true_eq, beq_iff_eq]
    simp only [eq_comm]

/-- **Decoding hides no gesture and invents none.** There are as many detach chords among the events
as there are chord bytes, and the changes of focus are the focus marks that stand anywhere among the
bytes, in their order. -/
theorem gestures_of_decode (bs : Bytes) :
    (decode bs).countP InputEvent.isDetachChord = bs.count chordByte ∧
      (decode bs).filterMap InputEvent.focus? = bs.tails.filterMap focusAt? := by
  constructor
  · calc (decode bs).countP InputEvent.isDetachChord
      _ = ((decode bs).filter InputEvent.isGesture).countP InputEvent.isDetachChord := by
        rw [List.countP_filter]
        refine List.countP_congr fun e _ ↦ ?_
        rw [Bool.and_eq_true]
        exact ⟨fun h ↦ ⟨h, isGesture_of_isDetachChord h⟩, And.left⟩
      _ = bs.tails.countP fun suffix ↦ [chordByte] <+: suffix := by
        rw [filter_isGesture_decode, List.countP_filterMap]
        exact congrArg (List.countP · bs.tails) (funext map_isDetachChord_gestureAt?)
      _ = bs.count chordByte := countP_tails chordByte bs
  · calc (decode bs).filterMap InputEvent.focus?
      _ = ((decode bs).filter InputEvent.isGesture).filterMap InputEvent.focus? := by
        rw [List.filterMap_filter]
        refine List.filterMap_congr fun e _ ↦ ?_
        split
        · rfl
        · rename_i h
          exact Option.eq_none_iff_forall_ne_some.mpr fun _ heq ↦ h (isGesture_of_focus? heq)
      _ = bs.tails.filterMap focusAt? := by
        rw [filter_isGesture_decode, List.filterMap_filterMap]
        exact congrArg (List.filterMap · bs.tails) (funext bind_focus?_gestureAt?)

/-- An escape in front of a focus mark is a key of its own, and so is an open bracket behind one. -/
example : decode [escByte, escByte, 0x5b, focusByte false, 0x5b, chordByte]
    = [.key false false '\x1b' true, .focus false, .key false false '[' true,
      .key true false 'b' true] := by
  decide +kernel

end ShellEngine.Console
