import ShellEngine.Proofs.Line.Trimming

/-!
# The text of a plan as a line of its own

A plan carries its line without the blanks at both ends, and a plan that is handed to another
instance is handed over as that text. The text makes the same plan when trimming takes nothing from
the line but gaps and the ends of comments, and exactly then, save for a redirection that no command
follows: `Trimmable` is the condition, `parse_plan_text_iff` the statement.

The condition is not always met. Trimming knows every blank that Unicode does, and a bare word may
begin or end with one that is no gap.

## How the plans are told apart

Where the condition fails, the text of one stage is too short to be the same: that of the last stage
when the last word loses its end, and that of the first one when the first word loses its start. The
second case needs some care, since losing its start may turn the word into an operator. All that is
used of it is the first character of the stage's text, unless the trimmed line begins with a
comment.
-/

namespace ShellEngine.Line

open Text (isBlank)

/-- What trimming takes from the end of a last fragment does not count: its last piece does not end
with a blank, or is a comment, or is the target of a redirection that no command follows and not
blank altogether. -/
def EndKept (us : List Piece) : Prop :=
  ∀ p ∈ us.getLast?, (∀ c ∈ p.raw.getLast?, isBlank c = false) ∨ p.isComment = true ∨
    Fragment.isVacant { pieces := us, closer := none } = .ok true ∧ ∃ c ∈ p.raw, isBlank c = false

/-- What trimming takes from a line does not count for its plan. -/
structure Trimmable (ps : List Piece) : Prop where
  /-- The first piece does not begin with a blank. -/
  first : ∀ p ∈ ps.head?, ∀ c ∈ p.raw.head?, isBlank c = false
  last : ∀ f ∈ (fragments ps).getLast?, EndKept f.pieces

/-! ## The last fragment -/

theorem Draft.add_cut {p : Piece} (hp : ∀ quoting text, p.token ≠ .word quoting text) (d : Draft)
    (w : List Char) : d.add (p.cut w) = d.add p := by
  obtain ⟨gap, raw, token⟩ := p
  cases token with
  | word quoting text => exact absurd rfl (hp quoting text)
  | _ => rfl

theorem EndKept.exists_not_blank {us : List Piece} {p : Piece} {rest : List Char}
    (h : EndKept (us ++ [p])) (hstands : Stands p.raw p.token rest) :
    ∃ c ∈ p.raw, isBlank c = false := by
  rcases h p (by simp) with hend | hcomment | ⟨-, hkept⟩
  · obtain ⟨c, cs, hraw, -⟩ := hstands.exists_cons
    have hne : p.raw ≠ [] := by simp [hraw]
    exact ⟨_, List.getLast_mem hne, hend _ (List.getLast?_eq_some_getLast hne)⟩
  · refine hstands.exists_not_blank fun htoken ↦ ?_
    simp [Piece.isComment, htoken] at hcomment
  · exact hkept

theorem EndKept.cases {us : List Piece} {p : Piece} {rest : List Char}
    (h : EndKept (us ++ [p])) (hstands : Stands p.raw p.token rest) :
    (∀ c ∈ p.raw.getLast?, isBlank c = false) ∨ p.isComment = true ∨
      p.token = .word .bare p.raw ∧
        Fragment.isVacant { pieces := us ++ [p], closer := none } = .ok true := by
  rcases h p (by simp) with hend | hcomment | ⟨hvacant, -⟩
  · exact Or.inl hend
  · exact Or.inr (Or.inl hcomment)
  · rcases hstands.eq_or_of_blank with hbare | hcomment | hend
    · exact Or.inr (Or.inr ⟨hbare, hvacant⟩)
    · exact Or.inr (Or.inl (by simp [Piece.isComment, hcomment]))
    · exact Or.inl hend

/-- Where trimming takes nothing that counts, linking does not tell the difference. -/
theorem Trimmed.alike {us vs : List Piece} {tail : List Char} (h : Trimmed us vs)
    (hstanding : Standing us tail) (hlast : EndKept us) :
    Fragment.Alike { pieces := us, closer := none } { pieces := vs, closer := none } := by
  rcases List.eq_nil_or_concat us with rfl | ⟨us, p, rfl⟩
  · rw [h.eq_nil]
    exact .refl _
  rw [List.concat_eq_append] at *
  obtain ⟨-, -, hstands, -⟩ := standing_append.mp hstanding
  rcases h.concat with ⟨hblank, -⟩ | ⟨w, b, hcut, hw, hwlast, hb, rfl⟩
  · obtain ⟨c, hc, hc'⟩ := hlast.exists_not_blank hstands
    rw [hblank c hc] at hc'
    cases hc'
  rcases hlast.cases hstands with hend | hcomment | ⟨hbare, hvacant⟩
  · rw [Piece.cut_eq_self hstands hcut hb hend]
    exact .refl _
  · refine Fragment.alike_of_bareSpan ?_ none
    rw [bareSpan_eq_strip, bareSpan_eq_strip, Text.strip_concat_of_pos hcomment,
      Text.strip_concat_of_pos ((p.isComment_cut w).trans hcomment)]
  · have hvacant' := hvacant
    rw [Fragment.isVacant_eq_map] at hvacant'
    obtain ⟨d, r, hd, hargv, hpending⟩ := Draft.exists_pending_of_isVacant hbare hvacant'
    have hword : (p.cut w).token = .word .bare w := by rw [Piece.cut, hbare]; rfl
    refine ⟨rfl, ?_, Or.inr ⟨rfl, hvacant⟩⟩
    rw [hvacant, Fragment.isVacant_eq_map]
    exact (Draft.isVacant_concat_of_pending hword hd hargv hpending).symm

/-- A word that is blank altogether leaves its operator without a target. -/
theorem Trimmed.isVacant_ne {us vs : List Piece} {p : Piece} {tail : List Char}
    (h : Trimmed (us ++ [p]) vs) (hstanding : Standing (us ++ [p]) tail)
    (hbare : p.token = .word .bare p.raw) (hblank : ∀ c ∈ p.raw, isBlank c = true)
    (hvacant : Fragment.isVacant { pieces := us ++ [p], closer := none } = .ok true) :
    Fragment.isVacant { pieces := vs, closer := none } ≠ .ok true := by
  rw [Fragment.isVacant_eq_map] at hvacant
  obtain ⟨d, r, hd, -, hpending⟩ := Draft.exists_pending_of_isVacant hbare hvacant
  have hdrop : Trimmed us vs := by
    rcases h.concat with ⟨-, hdrop⟩ | ⟨w, b, hcut, hw, hlast, -⟩
    · exact hdrop
    · have hend := hlast _ (List.getLast?_eq_some_getLast hw)
      rw [hblank _ (hcut ▸ List.mem_append_left b (List.getLast_mem hw))] at hend
      cases hend
  have hvs : Draft.ofPieces vs = .ok d := by
    rcases List.eq_nil_or_concat us with rfl | ⟨us, q, rfl⟩
    · rw [← Except.ok.inj hd] at hpending
      cases hpending
    rw [List.concat_eq_append] at *
    obtain ⟨-, -, hstands, -⟩ := standing_append.mp (standing_append.mp hstanding).1
    -- the piece before is no word, since an operator is still pending behind it
    have hword : ∀ quoting text, q.token ≠ .word quoting text := by
      intro quoting text hq
      rw [Draft.ofPieces_concat] at hd
      obtain ⟨d₀, -, hadd⟩ := bind_eq_ok_iff.mp hd
      rw [Draft.add_of_word hq] at hadd
      rw [← Except.ok.inj hadd, Draft.pending_addWord] at hpending
      cases hpending
    rcases hdrop.concat with ⟨hq, -⟩ | ⟨w, b, -, -, -, -, rfl⟩
    · obtain ⟨c, hc, hc'⟩ := hstands.exists_not_blank (hword _ _)
      rw [hq c hc] at hc'
      cases hc'
    · rw [← hd, Draft.ofPieces_concat, Draft.ofPieces_concat]
      simp only [Draft.add_cut hword]
  rw [Fragment.isVacant_eq_map, hvs]
  simp [Except.map, Draft.isVacant, hpending]

/-- Where trimming takes something that counts, the last stage gets another text, or none, or there
is one where there was none. -/
theorem Trimmed.text?_ne {us vs : List Piece} {p : Piece} {tail : List Char}
    (h : Trimmed (us ++ [p]) vs) (hstanding : Standing (us ++ [p]) tail)
    (hcomment : p.isComment = false) (hend : ∃ c ∈ p.raw.getLast?, isBlank c = true)
    (hvacant : Fragment.isVacant { pieces := us ++ [p], closer := none } = .ok true →
      ∀ c ∈ p.raw, isBlank c = true) :
    Fragment.text? { pieces := us ++ [p], closer := none }
      ≠ Fragment.text? { pieces := vs, closer := none } := by
  obtain ⟨-, -, hstands, -⟩ := standing_append.mp hstanding
  have hlt := h.length_spanText_lt (raw_ne_nil_of_standing hstanding) hcomment hend
  have hbare : p.token = .word .bare p.raw := by
    obtain ⟨c, hc, hblank⟩ := hend
    rcases hstands.eq_or_of_blank with hbare | htoken | hlast
    · exact hbare
    · simp [Piece.isComment, htoken] at hcomment
    · rw [hlast c hc] at hblank
      cases hblank
  intro htext
  by_cases hv : Fragment.isVacant { pieces := us ++ [p], closer := none } = .ok true
  · have hv' := h.isVacant_ne hstanding hbare (hvacant hv) hv
    simp [Fragment.text?, hv, hv'] at htext
  · by_cases hv' : Fragment.isVacant { pieces := vs, closer := none } = .ok true
    · simp [Fragment.text?, hv, hv'] at htext
    · simp only [Fragment.text?, hv, hv', and_false, if_false, Option.some.injEq] at htext
      rw [htext] at hlt
      exact Nat.lt_irrefl _ hlt

/-- Trimming the end of a line leaves its stages as they are exactly when it takes nothing from the
last fragment that counts. -/
theorem link_trimmed_iff {qs us vs : List Piece} {fs : List Fragment} {stages : List Stage}
    {tail : List Char} (hus : ∀ p ∈ us, p.separator? = none)
    (hfragments : ∀ ws, (∀ p ∈ ws, p.separator? = none) →
      fragments (qs ++ ws) = fs ++ [{ pieces := ws, closer := none }])
    (hstanding : Standing us tail) (htrimmed : Trimmed us vs)
    (hlink : link [] none (fragments (qs ++ us)) = .ok stages) :
    link [] none (fragments (qs ++ vs)) = .ok stages ↔ EndKept us := by
  have hvs := htrimmed.separator? hus
  constructor
  · intro hsame
    have htexts := (link_texts hlink).symm.trans (link_texts hsame)
    rw [hfragments us hus, hfragments vs hvs, List.append_cancel_left_eq, List.filterMap_append,
      List.filterMap_append, List.append_cancel_left_eq] at htexts
    have htext : Fragment.text? { pieces := us, closer := none }
        = Fragment.text? { pieces := vs, closer := none } := by
      cases hu : Fragment.text? { pieces := us, closer := none } <;>
        cases hv : Fragment.text? { pieces := vs, closer := none } <;> simp_all
    intro p hp
    obtain ⟨us, rfl⟩ := List.getLast?_eq_some_iff.mp hp
    by_contra hcond
    rw [not_or, not_or] at hcond
    obtain ⟨hend, hcomment, hvacant⟩ := hcond
    refine htrimmed.text?_ne hstanding (by simpa using hcomment) (by simpa using hend) ?_ htext
    intro hv
    simpa [hv] using hvacant
  · intro hlast
    rw [← hlink, hfragments us hus, hfragments vs hvs]
    refine (link_congr ?_ [] none).symm
    exact List.rel_append (List.forall₂_same.mpr fun f _ ↦ .refl f)
      (.cons (htrimmed.alike hstanding hlast) .nil)

/-! ## The first fragment -/

theorem text_of_link_cons {ps : List Piece} {s : Stage} {stages : List Stage}
    (h : link [] none (fragments ps) = .ok (s :: stages)) :
    s.text.toList = spanText (opening ps) := by
  obtain ⟨closer, fs, hfragments, hlast⟩ := fragments_eq_cons ps
  have htexts := link_texts h
  rw [hfragments, List.reverse_nil, List.map_nil, List.nil_append, List.map_cons] at htexts
  by_cases hvacant : closer = none ∧
      Fragment.isVacant { pieces := opening ps, closer } = .ok true
  · have htext : Fragment.text? { pieces := opening ps, closer } = none := if_pos hvacant
    rw [List.filterMap_cons_none htext, hlast hvacant.1] at htexts
    cases htexts
  · have htext : Fragment.text? { pieces := opening ps, closer } = some (spanText (opening ps)) :=
      if_neg hvacant
    rw [List.filterMap_cons_some htext] at htexts
    exact (List.cons.inj htexts).1

theorem exists_cons_of_link {p : Piece} {ps : List Piece} {quoting : Quoting} {text : List Char}
    (hp : p.token = .word quoting text) {stages : List Stage}
    (h : link [] none (fragments (p :: ps)) = .ok stages) : ∃ s ss, stages = s :: ss := by
  obtain ⟨closer, fs, hfragments, -⟩ := fragments_eq_cons (p :: ps)
  have hopening : opening (p :: ps) = p :: opening ps :=
    List.takeWhile_cons_of_pos (by simp [Piece.separator?, hp])
  have hvacant : Fragment.isVacant { pieces := opening (p :: ps), closer } ≠ .ok true := by
    rw [Fragment.isVacant_eq_map, hopening]
    exact Draft.isVacant_ne_of_word hp _
  have htext : Fragment.text? { pieces := opening (p :: ps), closer }
      = some (spanText (opening (p :: ps))) := if_neg fun h ↦ hvacant h.2
  have htexts := link_texts h
  rw [hfragments, List.filterMap_cons_some htext] at htexts
  cases stages with
  | nil => cases htexts
  | cons s ss => exact ⟨s, ss, rfl⟩

theorem exists_append_of_not_mem {α : Type} {a : α} {xs ys left rest : List α} (ha : a ∉ xs)
    (h : xs ++ ys = left ++ a :: rest) :
    ∃ after, left = xs ++ after ∧ ys = after ++ a :: rest := by
  rcases List.append_eq_append_iff.mp h with ⟨after, hleft, hys⟩ | ⟨between, hxs, hrest⟩
  · exact ⟨after, hleft, hys⟩
  · cases between with
    | nil => exact ⟨[], by simpa using hxs.symm, by simpa using hrest.symm⟩
    | cons b between =>
      obtain ⟨rfl, -⟩ := List.cons.inj hrest
      exact absurd (by simp [hxs]) ha

/-- Only blank words and gaps can stand between the start of a line and the comment that its trimmed
text begins with. -/
theorem exists_comment_of_blank {ps : List Piece} {left rest tail : List Char}
    (hstanding : Standing ps tail) (htail : ∀ c ∈ tail, isGap c = true)
    (hsource : sourceOf ps ++ tail = left ++ '#' :: rest) (hleft : ∀ c ∈ left, isBlank c = true) :
    ∃ us q qs, ps = us ++ q :: qs ∧ (∀ c ∈ sourceOf us, isBlank c = true) ∧
      (∀ p ∈ us, p.separator? = none) ∧ q.isComment = true := by
  induction ps generalizing left with
  | nil =>
    have hhash : '#' ∈ tail := by
      rw [sourceOf_nil, List.nil_append] at hsource
      simp [hsource]
    exact absurd (htail '#' hhash) (by decide)
  | cons p ps ih =>
    obtain ⟨hgap, hstands, hps⟩ := hstanding
    have hhash : '#' ∉ p.gap := fun h ↦ absurd (hgap '#' h) (by decide)
    rw [sourceOf_cons, List.append_assoc, List.append_assoc] at hsource
    obtain ⟨left, rfl, hraw⟩ := exists_append_of_not_mem hhash hsource
    obtain ⟨c, cs, hcs, -⟩ := hstands.exists_cons
    cases left with
    | nil =>
      rw [hcs] at hraw
      obtain ⟨rfl, -⟩ := List.cons.inj hraw
      refine ⟨[], p, ps, rfl, by simp, by simp, ?_⟩
      rw [hcs] at hstands
      simp [Piece.isComment, hstands.of_hash_head]
    | cons d left =>
      have hd : c = d := by
        rw [hcs] at hraw
        exact (List.cons.inj hraw).1
      rw [hcs] at hstands
      obtain ⟨htoken, hword⟩ := hstands.of_blank_head (hleft c (by simp [hd]))
      rw [← hcs] at htoken hword
      have hhash' : '#' ∉ p.raw := fun h ↦ absurd (hword '#' h) (by decide)
      obtain ⟨left', hleft', hrest⟩ := exists_append_of_not_mem hhash' hraw
      rw [hleft'] at hleft
      obtain ⟨us, q, qs, rfl, hus, hseparator, hq⟩ :=
        ih hps hrest fun e he ↦ hleft e (by simp [he])
      refine ⟨p :: us, q, qs, rfl, ?_, ?_, hq⟩
      · intro e he
        rw [sourceOf_cons, List.mem_append, List.mem_append] at he
        rcases he with he | he | he
        · exact hleft e (by simp [he])
        · exact hleft e (by simp [he])
        · exact hus e he
      · exact List.forall_mem_cons.mpr ⟨by simp [Piece.separator?, htoken], hseparator⟩

theorem exists_append_of_pieces_trim {line : List Char} {x : Piece} {xs : List Piece}
    (h : pieces (Text.trim line) = .ok (x :: xs)) :
    (∃ rest, Text.trim line = x.raw ++ rest) ∧ ∀ c ∈ x.raw.head?, isBlank c = false := by
  obtain ⟨tail, hsource, ⟨hgap, hstands, -⟩, -⟩ := pieces_eq_ok_iff.mp h
  obtain ⟨-, -, -, -, -, hhead, -⟩ := Text.exists_strip isBlank line
  rw [← Text.trim_eq_strip, hsource, sourceOf_cons] at hhead
  have hclosed : x.gap = [] := by
    cases hx : x.gap with
    | nil => rfl
    | cons c cs =>
      have hc := isBlank_of_isGap (hgap c (by simp [hx]))
      rw [hhead c (by simp [hx])] at hc
      cases hc
  refine ⟨⟨sourceOf xs ++ tail, ?_⟩, ?_⟩
  · rw [hsource, sourceOf_cons, hclosed, List.nil_append, List.append_assoc]
  · intro c hc
    refine hhead c ?_
    obtain ⟨cs, hcs⟩ := List.head?_eq_some_iff.mp hc
    simp [hclosed, hcs]

/-- A blank word at the start is lost with the gap when a comment follows, and what is left of the
first stage is shorter. -/
theorem exists_span_lt_of_comment {p : Piece} {ps xs : List Piece} {rest tail : List Char}
    (hstanding : Standing (p :: ps) tail) (htail : ∀ c ∈ tail, isGap c = true)
    (hp : p.isComment = false) (htrim : Text.trim (sourceOf (p :: ps) ++ tail) = '#' :: rest)
    (hxs : pieces (Text.trim (sourceOf (p :: ps) ++ tail)) = .ok xs) :
    ∃ vs, xs = closeGap vs ∧
      (spanText (opening vs)).length < (spanText (opening (p :: ps))).length := by
  obtain ⟨left, right, hline, hleft, -, -, -⟩ :=
    Text.exists_strip isBlank (sourceOf (p :: ps) ++ tail)
  rw [← Text.trim_eq_strip, htrim, List.append_assoc, List.cons_append] at hline
  obtain ⟨us, q, qs, hps, hus, hseparator, hq⟩ :=
    exists_comment_of_blank hstanding htail hline hleft
  cases us with
  | nil =>
    obtain ⟨rfl, -⟩ := List.cons.inj hps
    rw [hq] at hp
    cases hp
  | cons p' us =>
    obtain ⟨rfl, -⟩ := List.cons.inj hps
    rw [hps] at hstanding hxs ⊢
    have hraw := raw_ne_nil_of_standing hstanding
    obtain ⟨-, hqs⟩ := standing_append.mp hstanding
    obtain ⟨vs, hvs⟩ := exists_trimmed (q :: qs)
    have hfirst : ∀ p ∈ (q :: qs).head?, ∀ c ∈ p.raw.head?, isBlank c = false := by
      obtain ⟨body, hbody⟩ := Piece.exists_raw_of_isComment hqs.2.1 hq
      intro r hr c hc
      cases hr
      rw [hbody] at hc
      cases hc
      decide
    obtain ⟨hsource, hpieces⟩ := hvs.trim hqs (fun c hc ↦ isBlank_of_isGap (htail c hc)) hfirst
    have hsame : Text.trim (sourceOf ((p :: us) ++ q :: qs) ++ tail) = sourceOf (closeGap vs) := by
      rw [sourceOf_append, List.append_assoc, Text.trim_eq_strip, Text.strip_append_of_pos hus,
        ← Text.trim_eq_strip, hsource]
    rw [hsame, hpieces] at hxs
    refine ⟨vs, (Except.ok.inj hxs).symm, ?_⟩
    have hle := hvs.length_spanText_opening_le fun r hr ↦ hraw r (List.mem_append_right _ hr)
    have hmid := length_spanText_le_append us (opening (q :: qs))
      fun r hr ↦ hraw r (by simp [hr])
    have hlt := length_spanText_lt_cons hp (hraw p (by simp)) (us ++ opening (q :: qs))
    rw [opening_append hseparator, List.cons_append]
    omega

/-- **The first word keeps its start**, or the first stage gets another text. -/
theorem first_of_link_trim {ps xs : List Piece} {stages : List Stage} {tail : List Char}
    (hstanding : Standing ps tail) (htail : ∀ c ∈ tail, isGap c = true)
    (hlink : link [] none (fragments ps) = .ok stages)
    (hxs : pieces (Text.trim (sourceOf ps ++ tail)) = .ok xs)
    (hsame : link [] none (fragments xs) = .ok stages) :
    ∀ p ∈ ps.head?, ∀ c ∈ p.raw.head?, isBlank c = false := by
  intro p hp c hc
  obtain ⟨ps, rfl⟩ := List.head?_eq_some_iff.mp hp
  obtain ⟨cs, hcs⟩ := List.head?_eq_some_iff.mp hc
  by_contra hblank
  rw [Bool.not_eq_false] at hblank
  have hstands := hstanding.2.1
  rw [hcs] at hstands
  obtain ⟨htoken, -⟩ := hstands.of_blank_head hblank
  have hcomment : p.isComment = false := by simp [Piece.isComment, htoken]
  obtain ⟨s, ss, rfl⟩ := exists_cons_of_link htoken hlink
  have hspan := (text_of_link_cons hsame).symm.trans (text_of_link_cons hlink)
  have hhead : (spanText (opening (p :: ps))).head? = some c := by
    rw [opening, List.takeWhile_cons_of_pos (by simp [Piece.separator?, htoken]),
      spanText_cons_of_not hcomment, hcs]
    rfl
  cases xs with
  | nil =>
    rw [← hspan] at hhead
    cases hhead
  | cons x xs =>
    obtain ⟨⟨rest, htrim⟩, hfirst⟩ := exists_append_of_pieces_trim hxs
    obtain ⟨_, _, ⟨_, hx, _⟩, _⟩ := pieces_eq_ok_iff.mp hxs
    cases hxcomment : x.isComment with
    | true =>
      obtain ⟨body, hbody⟩ := Piece.exists_raw_of_isComment hx hxcomment
      rw [hbody, List.cons_append] at htrim
      obtain ⟨vs, hvs, hlt⟩ :=
        exists_span_lt_of_comment hstanding htail hcomment htrim hxs
      rw [hvs, link_closeGap] at hsame
      rw [← text_of_link_cons hsame, text_of_link_cons hlink] at hlt
      exact Nat.lt_irrefl _ hlt
    | false =>
      cases hxseparator : x.separator? with
      | some sep =>
        rw [← hspan, opening, List.takeWhile_cons_of_neg (by simp [hxseparator])] at hhead
        cases hhead
      | none =>
        obtain ⟨d, ds, hraw, -⟩ := hx.exists_cons
        rw [← hspan, opening, List.takeWhile_cons_of_pos (by simp [hxseparator]),
          spanText_cons_of_not hxcomment, hraw] at hhead
        cases hhead
        rw [hfirst c (by simp [hraw])] at hblank
        cases hblank

/-! ## Plans and their texts -/

theorem parse_trim_iff {text : List Char} {vs : List Piece} {stages : List Stage}
    (htrim : Text.trim text = text) (hpieces : pieces text = .ok vs) :
    parse (String.ofList text) = .ok (Plan.ofStages (String.ofList text) stages) ↔
      link [] none (fragments vs) = .ok stages := by
  rw [parse_ofList hpieces, htrim]
  cases link [] none (fragments vs) with
  | error e => simp [Except.map]
  | ok found =>
    rw [Except.map, Except.ok.injEq, Except.ok.injEq]
    exact ⟨fun h ↦ congrArg Plan.stages h, fun h ↦ congrArg _ h⟩

theorem trimmable_iff {ps us : List Piece} {fs : List Fragment}
    (hfragments : fragments ps = fs ++ [{ pieces := us, closer := none }])
    (hfirst : ∀ p ∈ ps.head?, ∀ c ∈ p.raw.head?, isBlank c = false) :
    Trimmable ps ↔ EndKept us := by
  have hlast : (fragments ps).getLast? = some { pieces := us, closer := none } := by
    rw [hfragments, List.getLast?_concat]
  constructor
  · intro h
    exact h.last _ hlast
  · intro h
    refine ⟨hfirst, fun f hf ↦ ?_⟩
    rw [hlast, Option.mem_some_iff] at hf
    rwa [← hf]

/-- **The text of a plan makes the plan** exactly when trimming takes nothing from the line that
counts for it. -/
theorem parse_plan_text_iff {line : String} {plan : Plan} {ps : List Piece}
    (h : parse line = .ok plan) (hps : pieces line.toList = .ok ps) :
    parse plan.text = .ok plan ↔ Trimmable ps := by
  obtain ⟨ps', stages, hps', hlink, rfl⟩ := parse_eq_ok_iff.mp h
  obtain rfl : ps' = ps := Except.ok.inj (hps'.symm.trans hps)
  obtain ⟨tail, hline, hstanding, htail⟩ := pieces_eq_ok_iff.mp hps
  have htrim : Text.trim (Text.trim line.toList) = Text.trim line.toList :=
    Text.strip_strip isBlank line.toList
  -- with its start in place, the line loses something from its last fragment or nothing
  have hlast (hfirst : ∀ p ∈ ps'.head?, ∀ c ∈ p.raw.head?, isBlank c = false) :
      parse (String.ofList (Text.trim line.toList))
          = .ok (Plan.ofStages (String.ofList (Text.trim line.toList)) stages) ↔
        Trimmable ps' := by
    obtain ⟨qs, us, fs, rfl, hus, hqs, hfragments⟩ := exists_fragments_append ps'
    obtain ⟨vs, hvs⟩ := exists_trimmed us
    obtain ⟨hstandqs, hstandus⟩ := standing_append.mp hstanding
    obtain ⟨hsource, hpieces⟩ := (hvs.append (trimmed_self hstandqs hqs)).trim hstanding
      (fun c hc ↦ isBlank_of_isGap (htail c hc)) hfirst
    rw [← hline] at hsource
    rw [← hsource] at hpieces
    rw [parse_trim_iff htrim hpieces, link_closeGap,
      link_trimmed_iff hus hfragments hstandus hvs hlink,
      trimmable_iff (hfragments us hus) hfirst]
  constructor
  · intro hsame
    obtain ⟨xs, stages', hxs, hlink', hplan⟩ := parse_eq_ok_iff.mp hsame
    obtain rfl : stages = stages' := congrArg Plan.stages hplan
    have hxs' : pieces (Text.trim (sourceOf ps' ++ tail)) = .ok xs := by
      rw [← hline, ← hxs]
      exact congrArg pieces String.toList_ofList.symm
    exact (hlast (first_of_link_trim hstanding htail hlink hxs' hlink')).mp hsame
  · intro htrimmable
    exact (hlast htrimmable.first).mpr htrimmable

/-- A gap in front and blanks at the end of a comment are lost without harm. -/
theorem parse_plan_text_of_comment :
    parse "\tls; # all\u00a0" = .ok (Plan.ofStages "ls; # all" [{ argv := ["ls"], text := "ls" }]) ∧
    parse "ls; # all" = .ok (Plan.ofStages "ls; # all" [{ argv := ["ls"], text := "ls" }]) := by
  have hplan : parse "\tls; # all\u00a0"
      = .ok (Plan.ofStages "ls; # all" [{ argv := ["ls"], text := "ls" }]) := by
    decide +kernel
  have hpieces : pieces "\tls; # all\u00a0".toList = .ok
      [{ gap := ['\t'], raw := ['l', 's'], token := .word .bare ['l', 's'] },
        { gap := [], raw := [';'], token := .separator .semi },
        { gap := [' '], raw := "# all\u00a0".toList, token := .comment "# all\u00a0".toList }] := by
    decide +kernel
  refine ⟨hplan, (parse_plan_text_iff hplan hpieces).mpr ⟨?_, ?_⟩⟩
  · rintro p ⟨⟩ c ⟨⟩
    rfl
  · rintro f ⟨⟩ p ⟨⟩
    exact Or.inr (Or.inl rfl)

/-- The start of a word that begins with a blank is lost from the text, and with it the command is
another one. -/
theorem parse_plan_text_of_blank_start :
    parse "\u00a0ls &" = .ok (Plan.ofStages "ls &"
      [{ argv := ["\u00a0ls"], text := "\u00a0ls", next := .concurrent, waits := false
         graceful := true }]) ∧
    parse "ls &" = .ok (Plan.ofStages "ls &"
      [{ argv := ["ls"], text := "ls", next := .concurrent, waits := false
         graceful := true }]) := by
  constructor <;> decide +kernel

end ShellEngine.Line
