import Mathlib.Data.List.Infix
import Mathlib.Data.Nat.Find
import ShellEngine.Proofs.Expansion.Cutting

/-!
# Which command is found

An embedded command is complete if its opener has a closer: the next backquote, or the parenthesis
that is the first to close more levels than were opened since (`Matched`). What is found is the
command of the first opener of the line (`find_eq_some_iff`). If that one has no closer nothing is
found, although there may be complete commands behind it (`find_eq_none_iff`).
-/

namespace ShellEngine.Line.Substitution

/-! ## Levels -/

def openers (text : List Char) : Nat := text.tails.countP fun suffix ↦ ['$', '('] <+: suffix

/-- A text closes the levels that it opens, and `depth` more, and no front of it closes more than
that. -/
structure Closes (depth : Nat) (text : List Char) : Prop where
  count : text.count ')' = openers text + depth
  front : ∀ front, front <+: text → front.count ')' ≤ openers front + depth

theorem openers_nil : openers [] = 0 := by decide

theorem openers_opener (text : List Char) : openers ('$' :: '(' :: text) = openers text + 1 := by
  simp [openers]

theorem openers_cons_of_not {c : Char} {text : List Char} (h : ¬(c = '$' ∧ text.head? = some '(')) :
    openers (c :: text) = openers text := by
  have hnot : ¬['$', '('] <+: c :: text := by
    rintro ⟨tail, htail⟩
    obtain ⟨rfl, rfl⟩ := List.cons.inj htail
    exact h ⟨rfl, rfl⟩
  simp [openers, hnot]

section

variable {depth : Nat} {c : Char} {text : List Char}

theorem closes_iff : Closes depth text ↔ text.count ')' = openers text + depth ∧
    ∀ front, front <+: text → front.count ')' ≤ openers front + depth :=
  ⟨fun h ↦ ⟨h.count, h.front⟩, fun h ↦ ⟨h.1, h.2⟩⟩

theorem forall_prefix_cons {p : List Char → Prop} (hnil : p []) :
    (∀ front, front <+: c :: text → p front) ↔ ∀ front, front <+: text → p (c :: front) := by
  constructor
  · exact fun h front hfront ↦ h _ ((List.prefix_cons_inj c).mpr hfront)
  · intro h front hfront
    rcases List.prefix_cons_iff.mp hfront with rfl | ⟨tail, rfl, htail⟩
    · exact hnil
    · exact h tail htail

theorem closes_nil_iff : Closes depth [] ↔ depth = 0 := by
  rw [closes_iff, openers_nil]
  constructor
  · rintro ⟨hcount, -⟩
    simpa [eq_comm] using hcount
  · rintro rfl
    refine ⟨rfl, fun front hfront ↦ ?_⟩
    rw [List.prefix_nil.mp hfront]
    exact Nat.zero_le _

theorem closes_opener_iff : Closes depth ('$' :: '(' :: text) ↔ Closes (depth + 1) text := by
  have hcount (text : List Char) : ('$' :: '(' :: text).count ')' = text.count ')' := by simp
  rw [closes_iff, closes_iff, forall_prefix_cons (Nat.zero_le _),
    forall_prefix_cons (by simp)]
  simp only [hcount, openers_opener, Nat.add_assoc, Nat.add_comm 1]

theorem closes_closer_iff : Closes (depth + 1) (')' :: text) ↔ Closes depth text := by
  have hcount (text : List Char) : (')' :: text).count ')' = text.count ')' + 1 := by simp
  have hopeners (text : List Char) : openers (')' :: text) = openers text :=
    openers_cons_of_not (by simp)
  rw [closes_iff, closes_iff, forall_prefix_cons (Nat.zero_le _)]
  simp only [hcount, hopeners, ← Nat.add_assoc, Nat.add_right_cancel_iff, Nat.add_le_add_iff_right]

theorem not_closes_closer : ¬Closes 0 (')' :: text) := by
  intro h
  have hle := h.front [')'] (List.prefix_append [')'] text)
  exact absurd hle (by decide)

theorem closes_cons_iff (hc : c ≠ ')') (hopener : ¬(c = '$' ∧ text.head? = some '(')) :
    Closes depth (c :: text) ↔ Closes depth text := by
  have hcount (text : List Char) : (c :: text).count ')' = text.count ')' := by simp [hc]
  have hfront : ∀ front, front <+: text → openers (c :: front) = openers front := by
    rintro front ⟨tail, rfl⟩
    refine openers_cons_of_not fun h ↦ hopener ⟨h.1, ?_⟩
    rw [List.head?_append, h.2]
    rfl
  rw [closes_iff, closes_iff, forall_prefix_cons (Nat.zero_le _), hcount,
    hfront text (List.prefix_refl text)]
  refine and_congr_right fun _ ↦ forall₂_congr fun front hbegins ↦ ?_
  rw [hcount, hfront front hbegins]

end

/-! ## The closer of an opener -/

section

variable {acc rest inner after : List Char} {c : Char}

/-- The first character is the closer or comes before it. -/
theorem exists_passed_cons_iff {p : List Char → Prop} :
    (∃ passed, inner = acc.reverse ++ passed ∧ c :: rest = passed ++ ')' :: after ∧ p passed) ↔
      (c = ')' ∧ inner = acc.reverse ∧ rest = after ∧ p []) ∨
        ∃ passed, inner = (c :: acc).reverse ++ passed ∧ rest = passed ++ ')' :: after ∧
          p (c :: passed) := by
  constructor
  · rintro ⟨_ | ⟨d, passed⟩, hinner, hline, hp⟩
    · obtain ⟨rfl, rfl⟩ := List.cons.inj hline
      exact Or.inl ⟨rfl, by rw [hinner, List.append_nil], rfl, hp⟩
    · obtain ⟨rfl, rfl⟩ := List.cons.inj hline
      exact Or.inr ⟨passed, by simpa using hinner, rfl, hp⟩
  · rintro (⟨rfl, hinner, rfl, hp⟩ | ⟨passed, hinner, rfl, hp⟩)
    · exact ⟨[], by rw [hinner, List.append_nil], rfl, hp⟩
    · exact ⟨c :: passed, by simpa using hinner, rfl, hp⟩

/-- The closer is the first parenthesis that closes more levels than were opened. -/
theorem closing_eq_some_iff {text : List Char} {depth : Nat} :
    closing acc depth text = some (inner, after) ↔
      ∃ passed, inner = acc.reverse ++ passed ∧ text = passed ++ ')' :: after ∧
        Closes depth passed := by
  fun_induction closing acc depth text with
  | case1 => simp
  | case2 acc depth rest ih =>
    rw [exists_passed_cons_iff, or_iff_right (by simp), exists_passed_cons_iff,
      or_iff_right (by simp)]
    simpa only [closes_opener_iff] using ih
  | case3 acc rest =>
    rw [exists_passed_cons_iff]
    simp only [closes_nil_iff, not_closes_closer, and_false, exists_false, or_false]
    simp [eq_comm]
  | case4 acc depth rest ih =>
    rw [exists_passed_cons_iff]
    simpa [closes_nil_iff, closes_closer_iff] using ih
  | case5 acc depth c rest hopener hzero hsucc ih =>
    have hc : c ≠ ')' := by
      rintro rfl
      cases depth with
      | zero => exact hzero rfl rfl
      | succ depth => exact hsucc depth rfl rfl
    rw [exists_passed_cons_iff, or_iff_right fun h ↦ hc h.1]
    refine ih.trans (exists_congr fun passed ↦ and_congr_right fun _ ↦ and_congr_right fun hrest ↦
      (closes_cons_iff hc ?_).symm)
    -- An opener in what is passed is one in the text, where there is none.
    rintro ⟨rfl, hhead⟩
    obtain ⟨tail, rfl⟩ := List.head?_eq_some_iff.mp hhead
    exact hopener _ rfl hrest

theorem closingQuote_eq_some_iff {text : List Char} :
    closingQuote text = some (inner, after) ↔
      text = inner ++ backquote :: after ∧ backquote ∉ inner := by
  constructor
  · intro h
    refine ⟨closingQuote_eq h, ?_⟩
    unfold closingQuote at h
    split at h
    · obtain ⟨rfl, rfl⟩ := Prod.mk.inj (Option.some.inj h)
      intro hmem
      simpa using List.all_eq_true.mp List.all_takeWhile _ hmem
    · cases h
  · rintro ⟨rfl, hnot⟩
    have hpass : ∀ c ∈ inner, (c != backquote) = true := fun c hc ↦
      bne_iff_ne.mpr fun heq ↦ hnot (heq ▸ hc)
    rw [closingQuote, List.dropWhile_append_of_pos hpass, List.takeWhile_append_of_pos hpass]
    simp

end

/-! ## Complete commands -/

/-- A command between an opener and its closer. -/
inductive Matched (inner : List Char) : List Char → Prop
  | parentheses (hinner : Closes 0 inner) : Matched inner ('$' :: '(' :: inner ++ [')'])
  | backquotes (hinner : backquote ∉ inner) : Matched inner (backquote :: inner ++ [backquote])

/-- What is cut out of the line is a complete command with its delimiters. -/
def Complete (line : List Char) (f : Substitution) : Prop :=
  ∃ body, Matched f.inner body ∧ line = f.before ++ body ++ f.after

def OpensAt (line : List Char) (i : Nat) : Prop := ∃ c rest, line.drop i = c :: rest ∧ Opens c rest

section

variable {line rest : List Char} {c : Char} {f : Substitution} {i : Nat}

theorem opensAt_zero : OpensAt (c :: rest) 0 ↔ Opens c rest := by
  constructor
  · rintro ⟨d, tail, hline, hopens⟩
    obtain ⟨rfl, rfl⟩ := List.cons.inj hline
    exact hopens
  · exact fun hopens ↦ ⟨c, rest, rfl, hopens⟩

theorem opensAt_succ : OpensAt (c :: rest) (i + 1) ↔ OpensAt rest i := Iff.rfl

theorem Complete.opensAt (h : Complete line f) : OpensAt line f.before.length := by
  obtain ⟨body, hbody, rfl⟩ := h
  rw [List.append_assoc, OpensAt, List.drop_left]
  cases hbody with
  | parentheses => exact ⟨'$', _, rfl, Or.inr ⟨rfl, rfl⟩⟩
  | backquotes => exact ⟨backquote, _, rfl, Or.inl rfl⟩

theorem complete_behind_iff : Complete (c :: rest) (f.behind [c]) ↔ Complete rest f := by
  simp [Complete, behind]

/-- A command whose opener is not the first character stands in the rest of the line. -/
theorem Complete.exists_behind (h : Complete (c :: rest) f) (hbefore : f.before ≠ []) :
    ∃ g : Substitution, f = g.behind [c] ∧ Complete rest g := by
  obtain ⟨before, inner, after⟩ := f
  obtain ⟨d, before, rfl⟩ := List.exists_cons_of_ne_nil hbefore
  obtain ⟨body, hbody, hline⟩ := h
  obtain ⟨rfl, hrest⟩ := List.cons.inj hline
  exact ⟨⟨before, inner, after⟩, rfl, body, hbody, hrest⟩

/-- A line that begins with an opener is cut there, or not at all. -/
theorem find_eq_some_iff_of_opens (h : Opens c rest) :
    find (c :: rest) = some f ↔ Complete (c :: rest) f ∧ f.before = [] := by
  rcases h with rfl | ⟨rfl, hhead⟩
  · rw [find, findFrom_backquote, Option.map_eq_some_iff]
    constructor
    · rintro ⟨⟨inner, after⟩, hclose, rfl⟩
      obtain ⟨rfl, hinner⟩ := closingQuote_eq_some_iff.mp hclose
      exact ⟨⟨_, .backquotes hinner, by simp⟩, rfl⟩
    · obtain ⟨before, inner, after⟩ := f
      rintro ⟨⟨body, hbody, hline⟩, rfl⟩
      cases hbody with
      | parentheses => exact absurd (List.cons.inj hline).1 (by decide)
      | backquotes hinner =>
        have hrest : rest = inner ++ backquote :: after := by simpa using (List.cons.inj hline).2
        exact ⟨(inner, after), closingQuote_eq_some_iff.mpr ⟨hrest, hinner⟩, rfl⟩
  · obtain ⟨tail, rfl⟩ : ∃ tail, rest = '(' :: tail := List.head?_eq_some_iff.mp hhead
    rw [find, findFrom_dollar, Option.map_eq_some_iff]
    constructor
    · rintro ⟨⟨inner, after⟩, hclose, rfl⟩
      obtain ⟨passed, rfl, rfl, hinner⟩ := closing_eq_some_iff.mp hclose
      exact ⟨⟨_, .parentheses hinner, by simp⟩, rfl⟩
    · obtain ⟨before, inner, after⟩ := f
      rintro ⟨⟨body, hbody, hline⟩, rfl⟩
      cases hbody with
      | parentheses hinner =>
        have htail : tail = inner ++ ')' :: after := by simpa using hline
        exact ⟨(inner, after), closing_eq_some_iff.mpr ⟨inner, rfl, htail, hinner⟩, rfl⟩
      | backquotes => exact absurd (List.cons.inj hline).1 (by decide)

/-- **Which command is found.** It is the complete one that begins with the first opener. -/
theorem find_eq_some_iff :
    find line = some f ↔ Complete line f ∧ ∀ i < f.before.length, ¬OpensAt line i := by
  induction line generalizing f with
  | nil =>
    refine iff_of_false (fun h ↦ nomatch h) fun h ↦ ?_
    obtain ⟨c, rest, hline, -⟩ := h.1.opensAt
    simp at hline
  | cons c rest ih =>
    by_cases hopens : Opens c rest
    · rw [find_eq_some_iff_of_opens hopens]
      refine and_congr_right fun _ ↦ ⟨fun hbefore ↦ by simp [hbefore], fun hfirst ↦ ?_⟩
      by_contra hbefore
      exact hfirst 0 (List.length_pos_iff.mpr hbefore) (opensAt_zero.mpr hopens)
    · rw [find_cons_of_not_opens hopens, Option.map_eq_some_iff]
      constructor
      · rintro ⟨g, hg, rfl⟩
        obtain ⟨hcomplete, hfirst⟩ := ih.mp hg
        refine ⟨complete_behind_iff.mpr hcomplete, fun i hi ↦ ?_⟩
        cases i with
        | zero => exact opensAt_zero.not.mpr hopens
        | succ i => exact opensAt_succ.not.mpr (hfirst i (Nat.lt_of_succ_lt_succ hi))
      · rintro ⟨hcomplete, hfirst⟩
        have hbefore : f.before ≠ [] := fun hnil ↦ by
          have hfound := hcomplete.opensAt
          rw [hnil] at hfound
          exact hopens (opensAt_zero.mp hfound)
        obtain ⟨g, rfl, hg⟩ := hcomplete.exists_behind hbefore
        refine ⟨g, ih.mpr ⟨hg, fun i hi ↦ ?_⟩, rfl⟩
        exact opensAt_succ.not.mp (hfirst (i + 1) (Nat.succ_lt_succ hi))

/-- Nothing is found if every complete command is behind an opener that has no closer. -/
theorem find_eq_none_iff : find line = none ↔ ∀ g, Complete line g →
    ∃ i < g.before.length, OpensAt line i ∧ ∀ h, Complete line h → h.before.length ≠ i := by
  classical
  constructor
  · intro hnone g hg
    -- The first opener of the line has no closer, as its command would have been found.
    have hexists : ∃ i, OpensAt line i := ⟨_, hg.opensAt⟩
    have hlone (h : Substitution) (hcomplete : Complete line h) :
        h.before.length ≠ Nat.find hexists := fun heq ↦ by
      have hfound : find line = some h :=
        find_eq_some_iff.mpr ⟨hcomplete, fun i hi ↦ Nat.find_min hexists (heq ▸ hi)⟩
      cases hnone.symm.trans hfound
    exact ⟨Nat.find hexists,
      Nat.lt_of_le_of_ne (Nat.find_min' hexists hg.opensAt) (hlone g hg).symm,
      Nat.find_spec hexists, hlone⟩
  · intro h
    rw [Option.eq_none_iff_forall_ne_some]
    intro f hf
    obtain ⟨hcomplete, hfirst⟩ := find_eq_some_iff.mp hf
    obtain ⟨i, hi, hopens, -⟩ := h f hcomplete
    exact hfirst i hi hopens

/-- **The first opener decides.** What is found is the complete command of the first opener, and so
no complete command begins before it. Nothing is found if and only if every complete command is
behind an opener that has no closer. -/
theorem find_first_opener (line : List Char) :
    (∀ f, find line = some f ↔ Complete line f ∧ ∀ i < f.before.length, ¬OpensAt line i) ∧
      (∀ f g, find line = some f → Complete line g → f.before.length ≤ g.before.length) ∧
      (find line = none ↔ ∀ g, Complete line g →
        ∃ i < g.before.length, OpensAt line i ∧ ∀ h, Complete line h → h.before.length ≠ i) := by
  refine ⟨fun f ↦ find_eq_some_iff, fun f g hf hg ↦ ?_, find_eq_none_iff⟩
  by_contra hlt
  exact (find_eq_some_iff.mp hf).2 _ (Nat.lt_of_not_le hlt) hg.opensAt

end

/-- A complete command behind a parenthesis that is not closed. -/
theorem find_behind_unclosed :
    let line := "$(open \x60echo hi\x60".toList
    Complete line ⟨"$(open ".toList, "echo hi".toList, []⟩ ∧ find line = none :=
  ⟨⟨_, .backquotes (by decide), by decide⟩, by decide⟩

end ShellEngine.Line.Substitution
