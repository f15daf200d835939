import ShellEngine.Proofs.Line.Linking
import Mathlib.Data.List.Flatten

/-!
# What trimming does to pieces

The blanks that are trimmed from the end of a line are more than the blanks between words: a bare
word may hold some, and so may a comment. Trimming a line can therefore shorten its last piece, or
take away words that are nothing but blanks. `Trimmed` says what becomes of the pieces, and
`Trimmed.source` that the trimmed line has just these pieces.

The span that a stage is quoted by does not grow, and it shrinks when the last piece is a word that
loses something (`Trimmed.spanText_lt`). That is how a trimmed plan is told from the original.
-/

namespace ShellEngine.Line

open Text (isBlank)

theorem isBlank_of_isGap {c : Char} (h : isGap c = true) : isBlank c = true := by
  simp only [isGap, Bool.or_eq_true, beq_iff_eq] at h
  rcases h with (((rfl | rfl) | rfl) | rfl) | rfl <;> decide

/-! ## Pieces cut short -/

/-- A token of which less was read; only bare words and comments can be cut. -/
def Token.cut (raw : List Char) : Token → Token
  | .word .bare _ => .word .bare raw
  | .comment _ => .comment raw
  | token => token

def Piece.cut (p : Piece) (raw : List Char) : Piece := { p with raw, token := p.token.cut raw }

theorem Piece.isComment_cut (p : Piece) (raw : List Char) :
    (p.cut raw).isComment = p.isComment := by
  obtain ⟨gap, old, token⟩ := p
  cases token with
  | word quoting text => cases quoting <;> rfl
  | _ => rfl

theorem Piece.separator?_cut (p : Piece) (raw : List Char) :
    (p.cut raw).separator? = p.separator? := by
  obtain ⟨gap, old, token⟩ := p
  cases token with
  | word quoting text => cases quoting <;> rfl
  | _ => rfl

theorem Stands.cut_self {raw rest : List Char} {token : Token} (h : Stands raw token rest) :
    token.cut raw = token := by
  cases h <;> rfl

/-- Only bare words and comments may end in a blank. -/
theorem Stands.eq_or_of_blank {raw rest : List Char} {token : Token} (h : Stands raw token rest) :
    token = .word .bare raw ∨ token = .comment raw ∨ ∀ c ∈ raw.getLast?, isBlank c = false := by
  cases h with
  | bare => exact Or.inl rfl
  | broken => exact Or.inl rfl
  | comment => exact Or.inr (Or.inl rfl)
  | single | double =>
    refine Or.inr (Or.inr ?_)
    rw [List.getLast?_concat]
    rintro c ⟨⟩
    rfl
  | _ =>
    refine Or.inr (Or.inr ?_)
    rintro c ⟨⟩
    rfl

theorem Stands.of_blank_head {c : Char} {cs rest : List Char} {token : Token}
    (h : Stands (c :: cs) token rest) (hc : isBlank c = true) :
    token = .word .bare (c :: cs) ∧ ∀ d ∈ c :: cs, endsWord d = false := by
  cases h with
  | bare hword => exact ⟨rfl, hword⟩
  | _ => exact absurd hc (by decide)

/-- Only bare words may be blank altogether. -/
theorem Stands.exists_not_blank {raw rest : List Char} {token : Token} (h : Stands raw token rest)
    (hbare : token ≠ .word .bare raw) : ∃ c ∈ raw, isBlank c = false := by
  obtain ⟨c, cs, hraw, -⟩ := h.exists_cons
  rcases h.eq_or_of_blank with htoken | htoken | hlast
  · exact absurd htoken hbare
  · rw [htoken] at h
    obtain ⟨body, rfl, -⟩ := h.exists_of_comment
    exact ⟨'#', by simp, by decide⟩
  · have hne : raw ≠ [] := by simp [hraw]
    exact ⟨_, List.getLast_mem hne, hlast _ (List.getLast?_eq_some_getLast hne)⟩

/-- A token still stands when blanks are cut off its end, and the blanks after it with them. -/
theorem Stands.cut {w b rest : List Char} {token : Token} (h : Stands (w ++ b) token rest)
    (hw : w ≠ []) (hb : ∀ c ∈ b, isBlank c = true) (hrest : ∀ c ∈ rest.head?, isBlank c = true) :
    Stands w (token.cut w) [] := by
  have hamp : rest.head? ≠ some '&' := by
    intro hhead
    exact absurd (hrest '&' hhead) (by decide)
  obtain ⟨c, cs, rfl⟩ := List.exists_cons_of_ne_nil hw
  rcases h.eq_or_of_blank with rfl | rfl | hlast
  · have hword := h.forall_of_bare hamp
    exact .bare (fun d hd ↦ hword d (List.mem_append_left _ hd)) (by simp) (by simp)
  · obtain ⟨body, hraw, hbody⟩ := h.exists_of_comment
    obtain ⟨rfl, hcut⟩ := List.cons.inj hraw
    refine .comment (fun d hd ↦ hbody d ?_) (by simp)
    rw [← hcut]
    exact List.mem_append_left _ hd
  · rcases List.eq_nil_or_concat b with rfl | ⟨b, d, rfl⟩
    · rw [List.append_nil] at h
      rw [h.cut_self]
      refine h.of_isPrefix List.nil_prefix ?_
      rintro rfl
      exact absurd h.of_broken.2 hamp
    · rw [List.concat_eq_append] at hb hlast
      rw [← List.append_assoc, List.getLast?_concat] at hlast
      have hd := hlast d rfl
      rw [hb d (by simp)] at hd
      cases hd

theorem Piece.cut_eq_self {p : Piece} {w b rest : List Char} (h : Stands p.raw p.token rest)
    (hraw : p.raw = w ++ b) (hb : ∀ c ∈ b, isBlank c = true)
    (hlast : ∀ c ∈ p.raw.getLast?, isBlank c = false) : p.cut w = p := by
  rcases List.eq_nil_or_concat b with rfl | ⟨b, d, rfl⟩
  · rw [List.append_nil] at hraw
    rw [Piece.cut, ← hraw, h.cut_self]
  · rw [List.concat_eq_append] at hb hraw
    rw [hraw, ← List.append_assoc, List.getLast?_concat] at hlast
    have hd := hlast d rfl
    rw [hb d (by simp)] at hd
    cases hd

/-! ## Trimming from the end -/

/-- What is left of pieces when blanks are trimmed from the end of the text that they spell. -/
inductive Trimmed : List Piece → List Piece → Prop
  | nil : Trimmed [] []
  | drop {us vs : List Piece} {p : Piece} (hp : ∀ c ∈ p.raw, isBlank c = true)
      (h : Trimmed us vs) : Trimmed (us ++ [p]) vs
  | cut {us : List Piece} {p : Piece} {w b : List Char} (hraw : p.raw = w ++ b) (hw : w ≠ [])
      (hlast : ∀ c ∈ w.getLast?, isBlank c = false) (hb : ∀ c ∈ b, isBlank c = true) :
      Trimmed (us ++ [p]) (us ++ [p.cut w])

theorem exists_trimmed (us : List Piece) : ∃ vs, Trimmed us vs := by
  induction us using List.reverseRecOn with
  | nil => exact ⟨[], .nil⟩
  | append_singleton us p ih =>
    by_cases hp : ∀ c ∈ p.raw, isBlank c = true
    · obtain ⟨vs, hvs⟩ := ih
      exact ⟨vs, .drop hp hvs⟩
    · refine ⟨us ++ [p.cut (p.raw.rdropWhile isBlank)],
        .cut List.rdropWhile_append_rtakeWhile.symm ?_ Text.getLast?_rdropWhile_of_not
          fun c hc ↦ List.mem_rtakeWhile_imp hc⟩
      rwa [ne_eq, List.rdropWhile_eq_nil_iff]

theorem Trimmed.eq_nil {vs : List Piece} (h : Trimmed [] vs) : vs = [] := by
  generalize hps : [] = ps at h
  cases h with
  | nil => rfl
  | drop | cut => simp at hps

theorem Trimmed.concat {us vs : List Piece} {p : Piece} (h : Trimmed (us ++ [p]) vs) :
    ((∀ c ∈ p.raw, isBlank c = true) ∧ Trimmed us vs) ∨
      ∃ w b, p.raw = w ++ b ∧ w ≠ [] ∧ (∀ c ∈ w.getLast?, isBlank c = false) ∧
        (∀ c ∈ b, isBlank c = true) ∧ vs = us ++ [p.cut w] := by
  generalize hps : us ++ [p] = ps at h
  cases h with
  | nil => simp at hps
  | drop hp h =>
    obtain ⟨rfl, hsame⟩ := List.append_inj' hps rfl
    cases hsame
    exact Or.inl ⟨hp, h⟩
  | cut hraw hw hlast hb =>
    obtain ⟨rfl, hsame⟩ := List.append_inj' hps rfl
    cases hsame
    exact Or.inr ⟨_, _, hraw, hw, hlast, hb, rfl⟩

/-- **The pieces of a trimmed text** are the trimmed pieces. -/
theorem Trimmed.source {us vs : List Piece} (h : Trimmed us vs) {tail : List Char}
    (hstanding : Standing us tail) (htail : ∀ c ∈ tail, isBlank c = true) :
    (sourceOf us ++ tail).rdropWhile isBlank = sourceOf vs ∧ Standing vs [] := by
  induction h generalizing tail with
  | nil => exact ⟨List.rdropWhile_eq_nil_iff.mpr htail, trivial⟩
  | @drop us vs p hp _ ih =>
    obtain ⟨hus, hgap, -, -⟩ := standing_append.mp hstanding
    have hblank : ∀ c ∈ sourceOf [p] ++ tail, isBlank c = true := by
      intro c hc
      rw [sourceOf_cons, sourceOf_nil, List.append_nil, List.mem_append, List.mem_append] at hc
      rcases hc with (hc | hc) | hc
      · exact isBlank_of_isGap (hgap c hc)
      · exact hp c hc
      · exact htail c hc
    rw [sourceOf_append, List.append_assoc]
    exact ih hus hblank
  | @cut us p w b hraw hw hlast hb =>
    obtain ⟨hus, hgap, hstands, -⟩ := standing_append.mp hstanding
    rw [hraw, sourceOf_nil, List.nil_append] at hstands
    have hcut : Stands w (p.token.cut w) [] := hstands.cut hw hb fun c hc ↦
      htail c (List.mem_of_mem_head? hc)
    have hsource : sourceOf (us ++ [p]) ++ tail = sourceOf (us ++ [p.cut w]) ++ (b ++ tail) := by
      simp [Piece.cut, hraw]
    have hend : (sourceOf (us ++ [p.cut w])).getLast? = w.getLast? := by
      rw [sourceOf_append, sourceOf_cons, sourceOf_nil, List.append_nil, ← List.append_assoc]
      exact List.getLast?_append_of_ne_nil _ hw
    rw [hsource]
    refine ⟨Text.rdropWhile_append_of_getLast? ?_ ?_, ?_⟩
    · intro c hc
      exact (List.mem_append.mp hc).elim (hb c) (htail c)
    · rwa [hend]
    · refine standing_append.mpr ⟨hus.of_isPrefix ?_ ?_, hgap, hcut, trivial⟩
      · simp [Piece.cut, hraw]
      · simp [Piece.cut, hw]

theorem Trimmed.append {us vs : List Piece} (h : Trimmed us vs) {qs : List Piece}
    (hqs : Trimmed qs qs) : Trimmed (qs ++ us) (qs ++ vs) := by
  induction h with
  | nil => rwa [List.append_nil]
  | drop hp _ ih =>
    rw [← List.append_assoc]
    exact .drop hp ih
  | cut hraw hw hlast hb =>
    rw [← List.append_assoc, ← List.append_assoc]
    exact .cut hraw hw hlast hb

theorem Stands.not_blank_of_separator {p : Piece} {rest : List Char}
    (h : Stands p.raw p.token rest) (hp : p.separator? ≠ none) :
    ∀ c ∈ p.raw.getLast?, isBlank c = false := by
  rcases h.eq_or_of_blank with htoken | htoken | hlast
  · exact absurd (by simp [Piece.separator?, htoken]) hp
  · exact absurd (by simp [Piece.separator?, htoken]) hp
  · exact hlast

theorem trimmed_self {qs : List Piece} {tail : List Char} (hstanding : Standing qs tail)
    (hqs : ∀ p ∈ qs.getLast?, p.separator? ≠ none) : Trimmed qs qs := by
  rcases List.eq_nil_or_concat qs with rfl | ⟨qs, p, rfl⟩
  · exact .nil
  rw [List.concat_eq_append] at *
  obtain ⟨-, -, hstands, -⟩ := standing_append.mp hstanding
  have hlast := hstands.not_blank_of_separator (hqs p (by simp))
  obtain ⟨c, cs, hraw, -⟩ := hstands.exists_cons
  have hcut : Trimmed (qs ++ [p]) (qs ++ [p.cut p.raw]) :=
    .cut (List.append_nil _).symm (by simp [hraw]) hlast (by simp)
  rwa [Piece.cut_eq_self hstands (List.append_nil _).symm (by simp) hlast] at hcut

theorem Trimmed.head? {us vs : List Piece} (h : Trimmed us vs) :
    ∀ q ∈ vs.head?, ∃ p ∈ us.head?, q.raw.head? = p.raw.head? := by
  induction h with
  | nil => simp
  | drop _ _ ih =>
    intro q hq
    obtain ⟨p, hp, hsame⟩ := ih q hq
    exact ⟨p, by rw [List.head?_append, Option.mem_def.mp hp]; rfl, hsame⟩
  | @cut us p w b hraw hw hlast hb =>
    intro q hq
    cases us with
    | nil =>
      cases hq
      obtain ⟨c, cs, rfl⟩ := List.exists_cons_of_ne_nil hw
      exact ⟨p, rfl, by rw [hraw]; rfl⟩
    | cons r us => exact ⟨r, rfl, by rw [← Option.some_inj.mp hq]⟩

/-- **The pieces of a line that is trimmed at both ends**, if it does not begin with a blank
word. -/
theorem Trimmed.trim {us vs : List Piece} (h : Trimmed us vs) {tail : List Char}
    (hstanding : Standing us tail) (htail : ∀ c ∈ tail, isBlank c = true)
    (hfirst : ∀ p ∈ us.head?, ∀ c ∈ p.raw.head?, isBlank c = false) :
    Text.trim (sourceOf us ++ tail) = sourceOf (closeGap vs) ∧
      pieces (sourceOf (closeGap vs)) = .ok (closeGap vs) := by
  obtain ⟨hsource, hvs⟩ := h.source hstanding htail
  refine ⟨?_, pieces_eq_ok_iff.mpr ⟨[], by simp, standing_closeGap hvs, by simp⟩⟩
  rw [Text.trim_eq_strip, Text.strip_eq_dropWhile, hsource]
  cases vs with
  | nil => rfl
  | cons q vs =>
    obtain ⟨p, hp, hsame⟩ := h.head? q rfl
    obtain ⟨hgap, hstands, -⟩ := hvs
    obtain ⟨c, cs, hraw, -⟩ := hstands.exists_cons
    rw [closeGap, sourceOf_cons, sourceOf_cons]
    refine (Text.takeWhile_append_of_head? (fun d hd ↦ isBlank_of_isGap (hgap d hd)) ?_).2
    rw [hraw]
    intro d hd
    cases hd
    exact hfirst p hp c (by rw [← hsame, hraw]; rfl)

/-! ## Spans -/

theorem length_sourceOf_closeGap_append (us vs : List Piece) :
    (sourceOf (closeGap us)).length ≤ (sourceOf (closeGap (us ++ vs))).length := by
  cases us with
  | nil => exact Nat.zero_le _
  | cons p us =>
    rw [closeGap_append (by simp), sourceOf_append, List.length_append]
    omega

theorem length_sourceOf_closeGap_concat (us : List Piece) {p : Piece} (hp : p.raw ≠ []) :
    (sourceOf (closeGap us)).length < (sourceOf (closeGap (us ++ [p]))).length := by
  have hraw : 0 < p.raw.length := List.length_pos_iff.mpr hp
  cases us with
  | nil => simpa [closeGap] using hraw
  | cons q us =>
    rw [closeGap_append (by simp), sourceOf_append, sourceOf_cons, List.length_append,
      List.length_append, List.length_append]
    omega

theorem length_sourceOf_closeGap_le (us : List Piece) :
    (sourceOf (closeGap us)).length ≤ (sourceOf us).length := by
  cases us with
  | nil => exact Nat.le_refl _
  | cons p us => simp [closeGap]

theorem spanText_concat_of_isComment {p : Piece} (hp : p.isComment = true) (us : List Piece) :
    spanText (us ++ [p]) = spanText us := by
  rw [spanText_eq, spanText_eq, bareSpan_eq_strip, bareSpan_eq_strip,
    Text.strip_concat_of_pos hp]

theorem spanText_concat_of_not {p : Piece} (hp : p.isComment = false) (us : List Piece) :
    spanText (us ++ [p]) = sourceOf (closeGap (us.dropWhile Piece.isComment ++ [p])) := by
  rw [spanText_eq, bareSpan_eq_strip, Text.strip_concat_of_neg hp]

theorem spanText_cons_of_isComment {p : Piece} (hp : p.isComment = true) (us : List Piece) :
    spanText (p :: us) = spanText us := by
  rw [spanText_eq, spanText_eq, bareSpan_eq_strip, bareSpan_eq_strip, Text.strip_cons_of_pos hp]

theorem spanText_cons_of_not {p : Piece} (hp : p.isComment = false) (us : List Piece) :
    spanText (p :: us) = p.raw ++ sourceOf (us.rdropWhile Piece.isComment) := by
  rw [spanText_eq, bareSpan_eq_strip, Text.strip_cons_of_neg hp, closeGap, sourceOf_cons]
  rfl

theorem length_spanText_lt_concat {p : Piece} (hp : p.isComment = false) (hraw : p.raw ≠ [])
    (us : List Piece) : (spanText us).length < (spanText (us ++ [p])).length := by
  obtain ⟨right, hright⟩ := List.rdropWhile_prefix Piece.isComment (us.dropWhile Piece.isComment)
  have hle := length_sourceOf_closeGap_append (bareSpan us) right
  have hlt := length_sourceOf_closeGap_concat (us.dropWhile Piece.isComment) hraw
  rw [bareSpan_eq_strip, Text.strip_eq_rdropWhile, hright] at hle
  rw [spanText_concat_of_not hp, spanText_eq, bareSpan_eq_strip, Text.strip_eq_rdropWhile]
  exact Nat.lt_of_le_of_lt hle hlt

theorem length_spanText_le_concat (us : List Piece) {p : Piece} (hraw : p.raw ≠ []) :
    (spanText us).length ≤ (spanText (us ++ [p])).length := by
  cases hp : p.isComment with
  | true => rw [spanText_concat_of_isComment hp]
  | false => exact Nat.le_of_lt (length_spanText_lt_concat hp hraw us)

theorem length_spanText_lt_cons {p : Piece} (hp : p.isComment = false) (hraw : p.raw ≠ [])
    (us : List Piece) : (spanText us).length < (spanText (p :: us)).length := by
  have hpos : 0 < p.raw.length := List.length_pos_iff.mpr hraw
  have hgap := length_sourceOf_closeGap_le (bareSpan us)
  have hle := ((Text.strip_sublist_rdropWhile Piece.isComment us).flatMap
    fun p ↦ p.gap ++ p.raw).length_le
  rw [← bareSpan_eq_strip] at hle
  rw [spanText_cons_of_not hp, spanText_eq, List.length_append]
  rw [sourceOf, sourceOf] at *
  omega

theorem length_spanText_le_append (us vs : List Piece) (hraw : ∀ p ∈ us, p.raw ≠ []) :
    (spanText vs).length ≤ (spanText (us ++ vs)).length := by
  induction us with
  | nil => exact Nat.le_refl _
  | cons p us ih =>
    obtain ⟨hp, hus⟩ := List.forall_mem_cons.mp hraw
    refine (ih hus).trans ?_
    rw [List.cons_append]
    cases hcomment : p.isComment with
    | true => rw [spanText_cons_of_isComment hcomment]
    | false => exact Nat.le_of_lt (length_spanText_lt_cons hcomment hp _)

theorem length_spanText_cut (us : List Piece) {p : Piece} (hp : p.isComment = false)
    {w b : List Char} (hraw : p.raw = w ++ b) :
    (spanText (us ++ [p])).length = (spanText (us ++ [p.cut w])).length + b.length := by
  rw [spanText_concat_of_not hp, spanText_concat_of_not ((p.isComment_cut w).trans hp)]
  cases us.dropWhile Piece.isComment with
  | nil => simp [closeGap, Piece.cut, hraw]
  | cons q us => simp [closeGap, Piece.cut, hraw]; omega

theorem length_spanText_cut_le (us : List Piece) {p : Piece} {w b : List Char}
    (hraw : p.raw = w ++ b) :
    (spanText (us ++ [p.cut w])).length ≤ (spanText (us ++ [p])).length := by
  cases hp : p.isComment with
  | true =>
    rw [spanText_concat_of_isComment hp,
      spanText_concat_of_isComment ((p.isComment_cut w).trans hp)]
  | false =>
    rw [length_spanText_cut us hp hraw]
    exact Nat.le_add_right _ _

/-! ## Trimmed spans -/

theorem Trimmed.separator? {us vs : List Piece} (h : Trimmed us vs)
    (hus : ∀ p ∈ us, p.separator? = none) : ∀ p ∈ vs, p.separator? = none := by
  induction h with
  | nil => exact hus
  | drop _ _ ih => exact ih fun p hp ↦ hus p (List.mem_append_left _ hp)
  | @cut us p w =>
    intro q hq
    rcases List.mem_append.mp hq with hq | hq
    · exact hus q (List.mem_append_left _ hq)
    · rw [List.mem_singleton.mp hq, p.separator?_cut]
      exact hus p (by simp)

theorem Trimmed.length_spanText_le {us vs : List Piece} (h : Trimmed us vs)
    (hraw : ∀ p ∈ us, p.raw ≠ []) : (spanText vs).length ≤ (spanText us).length := by
  induction h with
  | nil => exact Nat.le_refl _
  | drop _ _ ih =>
    exact (ih fun p hp ↦ hraw p (List.mem_append_left _ hp)).trans
      (length_spanText_le_concat _ (hraw _ (by simp)))
  | cut hcut => exact length_spanText_cut_le _ hcut

/-- Of the pieces in front of the first separator, trimming takes away from the end or nothing. -/
theorem Trimmed.opening {us vs : List Piece} (h : Trimmed us vs) :
    Trimmed (Line.opening us) (Line.opening vs) ∨ Line.opening us = Line.opening vs := by
  induction h with
  | nil => exact Or.inl .nil
  | @drop us vs p hp h ih =>
    by_cases hus : ∀ q ∈ us, q.separator? = none
    · rw [opening_of_forall (h.separator? hus)]
      cases hsep : p.separator? with
      | none =>
        have hall : ∀ q ∈ us ++ [p], q.separator? = none := by
          simpa [or_imp, forall_and, hsep] using hus
        rw [opening_of_forall hall]
        exact Or.inl (.drop hp h)
      | some s =>
        rw [opening_concat_of_separator? hus hsep]
        exact Or.inl h
    · rwa [opening_append_of_not hus]
  | @cut us p w b hraw hw hlast hb =>
    by_cases hus : ∀ q ∈ us, q.separator? = none
    · have hcut := p.separator?_cut w
      cases hsep : p.separator? with
      | none =>
        have hall : ∀ q, q.separator? = none → ∀ q' ∈ us ++ [q], q'.separator? = none := by
          intro q hq
          simpa [or_imp, forall_and, hq] using hus
        rw [opening_of_forall (hall p hsep), opening_of_forall (hall _ (hcut.trans hsep))]
        exact Or.inl (.cut hraw hw hlast hb)
      | some s =>
        rw [opening_concat_of_separator? hus hsep,
          opening_concat_of_separator? hus (hcut.trans hsep)]
        exact Or.inr rfl
    · rw [opening_append_of_not hus, opening_append_of_not hus]
      exact Or.inr rfl

theorem Trimmed.length_spanText_opening_le {us vs : List Piece} (h : Trimmed us vs)
    (hraw : ∀ p ∈ us, p.raw ≠ []) :
    (spanText (Line.opening vs)).length ≤ (spanText (Line.opening us)).length := by
  rcases h.opening with h | h
  · exact h.length_spanText_le fun p hp ↦ hraw p ((List.takeWhile_sublist _).mem hp)
  · rw [h]

/-- Trimming makes the span shorter when the last piece is a word that ends in a blank. -/
theorem Trimmed.length_spanText_lt {us vs : List Piece} {p : Piece} (h : Trimmed (us ++ [p]) vs)
    (hraw : ∀ q ∈ us ++ [p], q.raw ≠ []) (hp : p.isComment = false)
    (hblank : ∃ c ∈ p.raw.getLast?, isBlank c = true) :
    (spanText vs).length < (spanText (us ++ [p])).length := by
  rcases h.concat with ⟨-, hdrop⟩ | ⟨w, b, hcut, hw, hlast, hb, rfl⟩
  · exact Nat.lt_of_le_of_lt (hdrop.length_spanText_le fun q hq ↦ hraw q (by simp [hq]))
      (length_spanText_lt_concat hp (hraw p (by simp)) us)
  · have hpos : 0 < b.length := by
      rw [List.length_pos_iff]
      rintro rfl
      obtain ⟨c, hc, hc'⟩ := hblank
      rw [hcut, List.append_nil] at hc
      rw [hlast c hc] at hc'
      cases hc'
    rw [length_spanText_cut us hp hcut]
    omega

end ShellEngine.Line
