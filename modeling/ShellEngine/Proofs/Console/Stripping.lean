import ShellEngine.Console.Terminal
import ShellEngine.Proofs.Console.Decoding

/-!
# Input without its gestures

Stripping takes the bytes of gestures out, and decoding reads what is left. An event that decoding
had found before comes out again, unless bytes meet that were apart: an escape that stood alone, or
that was a key together with `[`, may have one more visible byte behind it when the gestures in
between are gone (`Interrupted`). Then both make one key, or a focus mark that nobody sent.
-/

namespace ShellEngine.Console

variable {b c : UInt8} {word rest spread : Bytes} {gestures : List Bytes}

/-! ## Bytes with gestures in between -/

/-- The bytes of a word in their order, each behind any number of gestures. -/
inductive Among : Bytes → Bytes → Prop
  | nil : Among [] []
  | cons {b : UInt8} {word spread : Bytes} {gestures : List Bytes}
      (hgestures : ∀ g ∈ gestures, IsGesture g) (hspread : Among word spread) :
      Among (b :: word) (gestures.flatten ++ b :: spread)

/-- Somewhere an escape has the bytes of a word behind it, but with gestures in between. -/
def Interrupted (word bs : Bytes) : Prop :=
  ∃ spread, Among word spread ∧ spread ≠ word ∧ escByte :: spread <:+: bs

def InterruptedAt (word bs : Bytes) : Prop :=
  ∃ spread, Among word spread ∧ spread ≠ word ∧ escByte :: spread <+: bs

/-- What an escape makes something else with: the character of a key, or the rest of a focus
mark. -/
inductive Continues : Bytes → Prop
  | key {c : UInt8} (hc : IsVisible c) : Continues [c]
  | mark (gained : Bool) : Continues [0x5b, focusByte gained]

theorem interrupted_cons :
    Interrupted word (b :: rest) ↔ InterruptedAt word (b :: rest) ∨ Interrupted word rest := by
  simp only [Interrupted, InterruptedAt, List.infix_cons_iff]
  constructor
  · rintro ⟨spread, hspread, hne, hbegins | hwithin⟩
    · exact Or.inl ⟨spread, hspread, hne, hbegins⟩
    · exact Or.inr ⟨spread, hspread, hne, hwithin⟩
  · rintro (⟨spread, hspread, hne, hbegins⟩ | ⟨spread, hspread, hne, hwithin⟩)
    · exact ⟨spread, hspread, hne, Or.inl hbegins⟩
    · exact ⟨spread, hspread, hne, Or.inr hwithin⟩

theorem not_interruptedAt_of_ne (hb : b ≠ escByte) : ¬InterruptedAt word (b :: rest) := by
  rintro ⟨spread, -, -, hbegins⟩
  exact hb (List.cons_prefix_cons.mp hbegins).1.symm

theorem interrupted_cons_of_ne (hb : b ≠ escByte) :
    Interrupted word (b :: rest) ↔ Interrupted word rest :=
  interrupted_cons.trans (or_iff_right (not_interruptedAt_of_ne hb))

theorem Continues.isVisible (h : Continues word) : ∀ c ∈ word, IsVisible c := by
  cases h with
  | key hc => simpa using hc
  | mark gained => simpa using ⟨by decide, isVisible_focusByte gained⟩

/-! ## What stripping leaves -/

theorem strip_cons_of_ne (hmark : focusMark? (b :: rest) = none) (hb : b ≠ chordByte) :
    strip (b :: rest) = b :: strip rest := by
  rw [strip, hmark]
  simp [hb]

theorem strip_cons_of_isVisible (hc : IsVisible c) (rest : Bytes) :
    strip (c :: rest) = c :: strip rest :=
  strip_cons_of_ne (focusMark?_of_ne (ne_escByte_of_isVisible hc) rest)
    (ne_chordByte_of_isVisible hc)

theorem strip_gesture_append {g : Bytes} (hg : IsGesture g) (rest : Bytes) :
    strip (g ++ rest) = strip rest := by
  rcases hg with rfl | ⟨gained, rfl⟩
  · rw [List.singleton_append, strip, focusMark?_of_ne (by decide)]
    rfl
  · have hmark : focusMark? (focusMark gained ++ rest) = some gained :=
      focusMark?_eq_some_iff.mpr (List.prefix_append _ _)
    rw [focusMark_eq, List.cons_append] at hmark ⊢
    rw [strip, hmark]
    rfl

theorem strip_flatten_append (hgestures : ∀ g ∈ gestures, IsGesture g) (rest : Bytes) :
    strip (gestures.flatten ++ rest) = strip rest := by
  induction gestures with
  | nil => rfl
  | cons g gestures ih =>
    obtain ⟨hg, hgestures⟩ := List.forall_mem_cons.mp hgestures
    rw [List.flatten_cons, List.append_assoc, strip_gesture_append hg, ih hgestures]

/-- In front of a byte that is left stand gestures only. -/
theorem exists_of_strip_eq_cons {bs left : Bytes} (h : strip bs = c :: left) :
    ∃ (gestures : List Bytes) (rest : Bytes), (∀ g ∈ gestures, IsGesture g) ∧
      bs = gestures.flatten ++ c :: rest ∧ strip rest = left := by
  revert h
  fun_induction strip bs with
  | case1 => exact fun h ↦ nomatch h
  | case2 b rest gained hmark ih =>
    intro h
    obtain ⟨after, heq⟩ := eq_of_focusMark? hmark
    obtain ⟨rfl, rfl⟩ := List.cons.inj heq
    obtain ⟨gestures, rest, hgestures, hafter, hleft⟩ := ih h
    exact ⟨focusMark gained :: gestures, rest,
      List.forall_mem_cons.mpr ⟨Or.inr ⟨gained, rfl⟩, hgestures⟩,
      congrArg (focusMark gained ++ ·) hafter, hleft⟩
  | case3 b rest _ hchord ih =>
    intro h
    obtain ⟨gestures, rest, hgestures, rfl, hleft⟩ := ih h
    exact ⟨[chordByte] :: gestures, rest,
      List.forall_mem_cons.mpr ⟨Or.inl rfl, hgestures⟩, by rw [beq_iff_eq.mp hchord]; rfl, hleft⟩
  | case4 b rest _ _ _ =>
    intro h
    obtain ⟨rfl, hleft⟩ := List.cons.inj h
    exact ⟨[], rest, List.forall_mem_nil _, rfl, hleft⟩

/-- A visible word begins what is left if it stands at the front with gestures in between. -/
theorem isPrefix_strip_iff (hword : ∀ c ∈ word, IsVisible c) (bs : Bytes) :
    word <+: strip bs ↔ ∃ spread, Among word spread ∧ spread <+: bs := by
  induction word generalizing bs with
  | nil => exact iff_of_true List.nil_prefix ⟨[], .nil, List.nil_prefix⟩
  | cons c word ih =>
    obtain ⟨hc, hword⟩ := List.forall_mem_cons.mp hword
    constructor
    · -- All in front of the first byte that is left are gestures; the rest was stripped by itself.
      rintro ⟨s, hs⟩
      obtain ⟨gestures, rest, hgestures, rfl, hrest⟩ := exists_of_strip_eq_cons hs.symm
      obtain ⟨spread, hspread, hbegins⟩ := (ih hword rest).mp ⟨s, hrest.symm⟩
      exact ⟨_, .cons hgestures hspread,
        (List.prefix_append_right_inj _).mpr ((List.prefix_cons_inj c).mpr hbegins)⟩
    · rintro ⟨_, hspread, tail, rfl⟩
      cases hspread with
      | @cons _ _ spread gestures hgestures hspread =>
        have hbegins := (ih hword (spread ++ tail)).mpr ⟨spread, hspread, List.prefix_append _ _⟩
        rw [List.append_assoc, strip_flatten_append hgestures, List.cons_append,
          strip_cons_of_isVisible hc]
        exact (List.prefix_cons_inj c).mpr hbegins

/-- A visible word stands at the front in one way only. -/
theorem Among.eq_of_isPrefix (h : Among word spread) (hword : ∀ c ∈ word, IsVisible c) {bs : Bytes}
    (hspread : spread <+: bs) (hbegins : word <+: bs) : spread = word := by
  induction h generalizing bs with
  | nil => rfl
  | @cons b word spread gestures hgestures _ ih =>
    obtain ⟨hb, hword⟩ := List.forall_mem_cons.mp hword
    obtain ⟨tail, rfl⟩ := hbegins
    cases gestures with
    | nil =>
      obtain ⟨-, hspread⟩ := List.cons_prefix_cons.mp hspread
      rw [List.flatten_nil, List.nil_append, ih hword hspread (List.prefix_append _ _)]
    | cons g gestures =>
      -- A gesture begins with a byte that is not visible.
      rcases (List.forall_mem_cons.mp hgestures).1 with rfl | ⟨gained, rfl⟩
      · exact absurd (List.cons_prefix_cons.mp hspread).1.symm (ne_chordByte_of_isVisible hb)
      · exact absurd (List.cons_prefix_cons.mp hspread).1.symm (ne_escByte_of_isVisible hb)

/-- Gestures interrupt a word behind an escape if it is there only after stripping. -/
theorem interruptedAt_iff (hword : ∀ c ∈ word, IsVisible c) :
    InterruptedAt word (escByte :: rest) ↔ word <+: strip rest ∧ ¬word <+: rest := by
  rw [isPrefix_strip_iff hword]
  constructor
  · rintro ⟨spread, hspread, hne, hbegins⟩
    have hbegins := (List.prefix_cons_inj escByte).mp hbegins
    exact ⟨⟨spread, hspread, hbegins⟩, fun h ↦ hne (hspread.eq_of_isPrefix hword hbegins h)⟩
  · rintro ⟨⟨spread, hspread, hbegins⟩, hnot⟩
    exact ⟨spread, hspread, fun h ↦ hnot (h ▸ hbegins), (List.prefix_cons_inj escByte).mpr hbegins⟩

/-! ## Where escapes are left alone -/

/-- No key and no focus mark has gestures within it. -/
def Seamless (bs : Bytes) : Prop := ∀ word, Continues word → ¬Interrupted word bs

theorem seamless_nil : Seamless [] := by
  rintro word - ⟨spread, -, -, hwithin⟩
  cases List.infix_nil.mp hwithin

theorem seamless_cons : Seamless (b :: rest) ↔
    (∀ word, Continues word → ¬InterruptedAt word (b :: rest)) ∧ Seamless rest := by
  simp only [Seamless, interrupted_cons, not_or, imp_and, forall_and]

theorem seamless_cons_of_ne (hb : b ≠ escByte) : Seamless (b :: rest) ↔ Seamless rest :=
  seamless_cons.trans (and_iff_right fun _ _ ↦ not_interruptedAt_of_ne hb)

theorem interruptedAt_cons_iff (hword : ∀ c ∈ word, IsVisible c) (hc : IsVisible c) :
    InterruptedAt word (escByte :: c :: rest) ↔ word <+: c :: strip rest ∧ ¬word <+: c :: rest := by
  rw [interruptedAt_iff hword, strip_cons_of_isVisible hc]

theorem not_interruptedAt_focusMark (hword : Continues word) (gained : Bool) (rest : Bytes) :
    ¬InterruptedAt word (focusMark gained ++ rest) := by
  -- Both bytes behind the escape are visible, so stripping begins behind them.
  have hfocus := isVisible_focusByte gained
  rw [focusMark_eq, List.cons_append, List.cons_append,
    interruptedAt_cons_iff hword.isVisible (by decide), List.cons_append, List.nil_append,
    strip_cons_of_isVisible hfocus]
  rintro ⟨hbegins, hnot⟩
  refine hnot ?_
  cases hword with
  | key hc => simpa using hbegins
  | mark gained' => simpa using hbegins

/-- A gesture has no gestures within it, and what is behind it has its own escapes. -/
theorem interrupted_gesture_append {g : Bytes} (hword : Continues word) (hg : IsGesture g)
    (rest : Bytes) : Interrupted word (g ++ rest) ↔ Interrupted word rest := by
  rcases hg with rfl | ⟨gained, rfl⟩
  · exact interrupted_cons_of_ne (by decide)
  · have hfocus := ne_escByte_of_isVisible (isVisible_focusByte gained)
    refine (interrupted_cons.trans (or_iff_right ?_)).trans ?_
    · exact not_interruptedAt_focusMark hword gained rest
    · exact (interrupted_cons_of_ne (by decide)).trans (interrupted_cons_of_ne hfocus)

theorem seamless_gesture_append {g : Bytes} (hg : IsGesture g) (rest : Bytes) :
    Seamless (g ++ rest) ↔ Seamless rest :=
  forall₂_congr fun _ hword ↦ (interrupted_gesture_append hword hg rest).not

/-- An escape that was decoded alone stays alone if nothing was in its way. -/
theorem altKey?_strip_eq_none_iff (hkey : altKey? (escByte :: rest) = none) :
    altKey? (escByte :: strip rest) = none ↔
      ∀ word, Continues word → ¬InterruptedAt word (escByte :: rest) := by
  rw [altKey?_eq_none_iff] at hkey ⊢
  constructor
  · intro hnone word hword hinterrupted
    obtain ⟨⟨tail, htail⟩, -⟩ := (interruptedAt_iff hword.isVisible).mp hinterrupted
    rw [← htail] at hnone
    cases hword with
    | key hc => exact hnone rfl _ rfl hc
    | mark gained => exact hnone rfl _ rfl (by decide)
  · intro hall _ c hhead hc
    obtain ⟨left, hleft⟩ := List.head?_eq_some_iff.mp hhead
    refine hall [c] (.key hc) ((interruptedAt_iff (by simpa using hc)).mpr ⟨?_, ?_⟩)
    · rw [hleft]
      exact List.prefix_append [c] left
    · rintro ⟨tail, rfl⟩
      exact hkey rfl c rfl hc

/-- A key with Alt stays one if nothing was in its way to a focus mark. -/
theorem focusMark?_strip_eq_none_iff (hc : IsVisible c)
    (hmark : focusMark? (escByte :: c :: rest) = none) :
    focusMark? (escByte :: c :: strip rest) = none ↔
      ∀ word, Continues word → ¬InterruptedAt word (escByte :: c :: rest) := by
  rw [Option.eq_none_iff_forall_ne_some] at hmark ⊢
  constructor
  · intro hnone word hword hinterrupted
    obtain ⟨hbegins, hnot⟩ := (interruptedAt_cons_iff hword.isVisible hc).mp hinterrupted
    cases hword with
    | key => exact hnot (by simpa using hbegins)
    | mark gained =>
      exact hnone gained (focusMark?_eq_some_iff.mpr ((List.prefix_cons_inj escByte).mpr hbegins))
  · intro hall gained hgained
    have hword : Continues [0x5b, focusByte gained] := .mark gained
    refine hall _ hword ((interruptedAt_cons_iff hword.isVisible hc).mpr ⟨?_, fun hbegins ↦ ?_⟩)
    · exact (List.prefix_cons_inj escByte).mp (focusMark?_eq_some_iff.mp hgained)
    · exact hmark gained (focusMark?_eq_some_iff.mpr ((List.prefix_cons_inj escByte).mpr hbegins))

/-! ## Decoding what is left -/

/-- Events without the gestures. -/
def keysOf (events : List InputEvent) : List InputEvent := events.filter fun e ↦ !e.isGesture

theorem keysOf_cons_of_isGesture {e : InputEvent} (he : e.isGesture = true)
    (events : List InputEvent) : keysOf (e :: events) = keysOf events := by
  simp [keysOf, he]

theorem keysOf_cons_of_not {e : InputEvent} (he : e.isGesture = false)
    (events : List InputEvent) : keysOf (e :: events) = e :: keysOf events := by
  simp [keysOf, he]

theorem decode_escByte_eq_iff {left : Bytes} {events : List InputEvent} :
    decode (escByte :: left) = singleKey escByte :: events ↔
      altKey? (escByte :: left) = none ∧ decode left = events := by
  cases hkey : altKey? (escByte :: left) with
  | none =>
    rw [decode_of_none hkey, List.cons.injEq]
    simp
  | some key =>
    refine iff_of_false (fun h ↦ ?_) fun h ↦ nomatch h.1
    cases hmark : focusMark? (escByte :: left) with
    | none =>
      rw [decode_of_altKey? hmark hkey] at h
      exact absurd (List.cons.inj h).1 (by simp [singleKey, escByte])
    | some gained =>
      rw [decode_of_focusMark? hmark] at h
      exact absurd (List.cons.inj h).1 (by simp [singleKey, escByte])

theorem decode_altKey_eq_iff {key : Char} {left : Bytes} {events : List InputEvent}
    (hkey : altKey? (escByte :: c :: left) = some key) :
    decode (escByte :: c :: left) = .key false true key true :: events ↔
      focusMark? (escByte :: c :: left) = none ∧ decode left = events := by
  cases hmark : focusMark? (escByte :: c :: left) with
  | none =>
    rw [decode_of_altKey? hmark hkey, List.cons.injEq]
    simp
  | some gained =>
    rw [decode_of_focusMark? hmark]
    simp

theorem decode_strip_gesture_append {g : Bytes} {events : List InputEvent} (hg : IsGesture g)
    (h : decode (strip rest) = events ↔ Seamless rest) :
    decode (strip (g ++ rest)) = events ↔ Seamless (g ++ rest) := by
  rw [strip_gesture_append hg, seamless_gesture_append hg]
  exact h

/-- **Decoding what is left.** The events are those of before without the gestures, unless a key or
a focus mark has gestures within it. -/
theorem decode_strip_eq_iff (bs : Bytes) :
    decode (strip bs) = keysOf (decode bs) ↔ Seamless bs := by
  fun_induction decode bs with
  | case1 => exact iff_of_true (by rw [strip, decode]; rfl) seamless_nil
  | case2 b rest gained hmark ih =>
    obtain ⟨after, heq⟩ := eq_of_focusMark? hmark
    obtain ⟨rfl, rfl⟩ := List.cons.inj heq
    rw [keysOf_cons_of_isGesture rfl]
    exact decode_strip_gesture_append (Or.inr ⟨gained, rfl⟩) ih
  | case3 b rest key hkey hmark ih =>
    obtain ⟨rfl, c, after, rfl, hc⟩ := exists_of_altKey? hkey
    have hkey : altKey? (escByte :: c :: strip after) = some key := hkey
    rw [strip_cons_of_ne hmark (by decide), strip_cons_of_isVisible hc,
      keysOf_cons_of_not (isGesture_altKey key), decode_altKey_eq_iff hkey, seamless_cons,
      seamless_cons_of_ne (ne_escByte_of_isVisible hc)]
    exact and_congr (focusMark?_strip_eq_none_iff hc hmark) ih
  | case4 b rest hkey hmark ih =>
    by_cases hchord : b = chordByte
    · subst hchord
      rw [keysOf_cons_of_isGesture rfl]
      exact decode_strip_gesture_append (Or.inl rfl) ih
    · have hkept : (singleKey b).isGesture = false :=
        Bool.eq_false_iff.mpr ((isGesture_singleKey b).not.mpr hchord)
      rw [strip_cons_of_ne hmark hchord, keysOf_cons_of_not hkept]
      -- Only an escape can make something else with bytes that come to stand behind it.
      by_cases hesc : b = escByte
      · subst hesc
        rw [decode_escByte_eq_iff, seamless_cons]
        exact and_congr (altKey?_strip_eq_none_iff hkey) ih
      · rw [decode_of_none (altKey?_of_ne hesc _), List.cons.injEq, and_iff_right rfl,
          seamless_cons_of_ne hesc]
        exact ih

/-! ## Gestures in what is left -/

theorem strip_sublist (bs : Bytes) : (strip bs).Sublist bs := by
  fun_induction strip bs with
  | case1 => exact List.Sublist.refl []
  | case2 b rest _ _ ih => exact ih.trans ((List.drop_sublist 2 rest).cons b)
  | case3 b rest _ _ ih => exact ih.cons b
  | case4 b rest _ _ ih => exact ih.cons_cons b

/-- No gesture stands anywhere among the bytes. -/
def Gestureless (bs : Bytes) : Prop := ∀ g, IsGesture g → ¬g <:+: bs

theorem gestureAt?_eq_none_iff (bs : Bytes) :
    gestureAt? bs = none ↔ ∀ g, IsGesture g → ¬g <+: bs := by
  constructor
  · rintro hnone g (rfl | ⟨gained, rfl⟩) ⟨rest, rfl⟩
    · cases hnone
    · rw [gestureAt?_focusMark_append] at hnone
      cases hnone
  · intro h
    rw [gestureAt?, if_neg (h _ (Or.inl rfl)), focusAt?, if_neg (h _ (Or.inr ⟨true, rfl⟩)),
      if_neg (h _ (Or.inr ⟨false, rfl⟩))]
    rfl

theorem gestureless_nil : Gestureless [] := by
  rintro g (rfl | ⟨gained, rfl⟩) hwithin <;> cases List.infix_nil.mp hwithin

theorem gestureless_cons : Gestureless (b :: rest) ↔
    gestureAt? (b :: rest) = none ∧ Gestureless rest := by
  simp only [Gestureless, gestureAt?_eq_none_iff, List.infix_cons_iff, not_or, imp_and, forall_and]

theorem not_gestureless_append {g : Bytes} (hg : IsGesture g) (rest : Bytes) :
    ¬Gestureless (g ++ rest) := fun h ↦ h g hg (List.prefix_append g rest).isInfix

theorem gestureAt?_of_strip_keeps (hmark : focusMark? (b :: rest) = none) (hb : b ≠ chordByte) :
    gestureAt? (b :: rest) = none := by
  rw [gestureAt?_of_single hmark, if_neg ((isGesture_singleKey b).not.mpr hb)]

theorem strip_eq_self_iff (bs : Bytes) : strip bs = bs ↔ Gestureless bs := by
  have hshorter (b : UInt8) {left rest : Bytes} (h : left.Sublist rest) : left ≠ b :: rest := by
    rintro rfl
    exact Nat.not_succ_le_self _ h.length_le
  fun_induction strip bs with
  | case1 => exact iff_of_true rfl gestureless_nil
  | case2 b rest gained hmark _ =>
    refine iff_of_false (hshorter b ((strip_sublist _).trans (List.drop_sublist 2 rest))) ?_
    obtain ⟨after, heq⟩ := eq_of_focusMark? hmark
    rw [heq]
    exact not_gestureless_append (Or.inr ⟨gained, rfl⟩) after
  | case3 b rest _ hchord _ =>
    refine iff_of_false (hshorter b (strip_sublist rest)) ?_
    rw [beq_iff_eq.mp hchord]
    exact not_gestureless_append (Or.inl rfl) rest
  | case4 b rest hmark hchord ih =>
    have hnone := gestureAt?_of_strip_keeps hmark (mt beq_iff_eq.mpr hchord)
    rw [gestureless_cons, and_iff_right hnone, List.cons.injEq, and_iff_right rfl]
    exact ih

theorem forall_mem_decode_iff (bs : Bytes) :
    (∀ e ∈ decode bs, e.isGesture = false) ↔ Gestureless bs := by
  calc (∀ e ∈ decode bs, e.isGesture = false)
    _ ↔ (decode bs).filter InputEvent.isGesture = [] := by
      simp [List.filter_eq_nil_iff]
    _ ↔ ∀ suffix, suffix <:+ bs → gestureAt? suffix = none := by
      rw [filter_isGesture_decode, List.filterMap_eq_nil_iff]
      simp only [List.mem_tails]
    _ ↔ Gestureless bs := by
      simp only [gestureAt?_eq_none_iff, Gestureless, List.infix_iff_prefix_suffix]
      constructor
      · rintro h g hg ⟨suffix, hbegins, hsuffix⟩
        exact h suffix hsuffix g hg hbegins
      · intro h suffix hsuffix g hg hbegins
        exact h g hg ⟨suffix, hbegins, hsuffix⟩

theorem focusMark_infix_strip_iff (gained : Bool) (bs : Bytes) :
    focusMark gained <:+: strip bs ↔ Interrupted [0x5b, focusByte gained] bs := by
  have hword : Continues [0x5b, focusByte gained] := .mark gained
  fun_induction strip bs with
  | case1 =>
    refine iff_of_false (fun h ↦ ?_) (seamless_nil _ hword)
    cases List.infix_nil.mp h
  | case2 b rest gained' hmark ih =>
    obtain ⟨after, heq⟩ := eq_of_focusMark? hmark
    obtain ⟨rfl, rfl⟩ := List.cons.inj heq
    exact ih.trans (interrupted_gesture_append hword (Or.inr ⟨gained', rfl⟩) after).symm
  | case3 b rest _ hchord ih =>
    rw [beq_iff_eq.mp hchord]
    exact ih.trans (interrupted_gesture_append hword (Or.inl rfl) rest).symm
  | case4 b rest hmark _ ih =>
    rw [List.infix_cons_iff, interrupted_cons]
    refine or_congr ?_ ih
    by_cases hesc : b = escByte
    · subst hesc
      -- A mark that stood here before would have been taken out.
      have hnot : ¬[0x5b, focusByte gained] <+: rest := fun h ↦ by
        rw [focusMark?_eq_some_iff.mpr ((List.prefix_cons_inj escByte).mpr h)] at hmark
        cases hmark
      rw [interruptedAt_iff hword.isVisible, and_iff_left hnot]
      exact List.prefix_cons_inj escByte
    · exact iff_of_false (fun h ↦ hesc (List.cons_prefix_cons.mp h).1.symm)
        (not_interruptedAt_of_ne hesc)

theorem chordByte_not_mem_strip (bs : Bytes) : chordByte ∉ strip bs := by
  fun_induction strip bs with
  | case1 => exact List.not_mem_nil
  | case2 _ _ _ _ ih => exact ih
  | case3 _ _ _ _ ih => exact ih
  | case4 b rest _ hchord ih =>
    exact List.not_mem_cons_of_ne_of_not_mem (fun h ↦ hchord (beq_iff_eq.mpr h.symm)) ih

theorem gestureless_strip_iff (bs : Bytes) :
    Gestureless (strip bs) ↔ ∀ gained, ¬Interrupted [0x5b, focusByte gained] bs := by
  simp only [← focusMark_infix_strip_iff]
  constructor
  · exact fun h gained ↦ h _ (Or.inr ⟨gained, rfl⟩)
  · rintro h g (rfl | ⟨gained, rfl⟩)
    · exact fun hwithin ↦ chordByte_not_mem_strip bs (hwithin.subset List.mem_cons_self)
    · exact h gained

/-! ## Stripping -/

/-- **Input without its gestures.** Decoding what stripping leaves gives the events without the
gestures if and only if no key and no focus mark has gestures within it. No gesture is among these
events, and stripping once more changes nothing, if and only if this holds of the focus marks; the
same goes for typeahead that is taken when the gestures were discarded. -/
theorem decode_strip_iff (bs : Bytes) (t : Terminal) :
    (decode (strip bs) = keysOf (decode bs) ↔ ∀ word, Continues word → ¬Interrupted word bs) ∧
      ((∀ e ∈ decode (strip bs), e.isGesture = false) ↔
        ∀ gained, ¬Interrupted [0x5b, focusByte gained] bs) ∧
      (strip (strip bs) = strip bs ↔ ∀ gained, ¬Interrupted [0x5b, focusByte gained] bs) ∧
      (({ t with lookahead := bs } : Terminal).discardGestures.takeTypeahead.1 =
          ({ t with lookahead := bs } : Terminal).takeTypeahead.1 ↔
        t.keepTypeahead = true → ∀ gained, ¬Interrupted [0x5b, focusByte gained] bs) := by
  have htwice : strip (strip bs) = strip bs ↔ ∀ gained, ¬Interrupted [0x5b, focusByte gained] bs :=
    (strip_eq_self_iff _).trans (gestureless_strip_iff bs)
  refine ⟨decode_strip_eq_iff bs, (forall_mem_decode_iff _).trans (gestureless_strip_iff bs),
    htwice, ?_⟩
  rw [← htwice]
  simp only [Terminal.discardGestures, Terminal.takeTypeahead]
  cases t.keepTypeahead <;> simp

/-- A chord between the escape and the rest of a focus mark leaves the mark behind. -/
theorem strip_of_chord_within :
    let bs := [escByte, chordByte, 0x5b, focusByte true]
    decode (strip bs) ≠ keysOf (decode bs) ∧ (∃ e ∈ decode (strip bs), e.isGesture = true) ∧
      strip (strip bs) ≠ strip bs := by
  decide +kernel

end ShellEngine.Console
