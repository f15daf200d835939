import ShellEngine.Proofs.Line.Drafts

/-!
# Fragments and their stages

What the plan builder makes of pieces, in the form that the round trips need: a fragment ends at the
first separator, and comments at its ends and the gap in front of it make no difference to its
stage.

Comments inside a fragment are another matter: a comment keeps the pieces around it apart, but so
does the gap that must follow it. Only at the ends can comments be left out.
-/

namespace ShellEngine.Line

/-! ## Cutting at separators -/

theorem fragments_go_of_separator? {p : Piece} {s : Separator} (h : p.separator? = some s)
    (found : List Fragment) (current ps : List Piece) :
    fragments.go found current (p :: ps)
      = fragments.go ({ pieces := current.reverse, closer := some s } :: found) [] ps := by
  obtain ⟨gap, raw, token⟩ := p
  cases token <;> simp_all [Piece.separator?, fragments.go]

theorem fragments_go_of_not_separator {p : Piece} (h : p.separator? = none)
    (found : List Fragment) (current ps : List Piece) :
    fragments.go found current (p :: ps) = fragments.go found (p :: current) ps := by
  obtain ⟨gap, raw, token⟩ := p
  cases token <;> simp_all [Piece.separator?, fragments.go]

theorem fragments_go_append {us : List Piece} (h : ∀ p ∈ us, p.separator? = none)
    (found : List Fragment) (current ps : List Piece) :
    fragments.go found current (us ++ ps) = fragments.go found (us.reverse ++ current) ps := by
  induction us generalizing current with
  | nil => rfl
  | cons p us ih =>
    rw [List.cons_append, fragments_go_of_not_separator (h p List.mem_cons_self),
      ih fun q hq ↦ h q (List.mem_cons_of_mem _ hq), List.reverse_cons, List.append_assoc]
    rfl

theorem fragments_go_found (found : List Fragment) (current ps : List Piece) :
    fragments.go found current ps = found.reverse ++ fragments.go [] current ps := by
  induction ps generalizing found current with
  | nil => simp [fragments.go]
  | cons p ps ih =>
    cases hp : p.separator? with
    | none =>
      rw [fragments_go_of_not_separator hp, fragments_go_of_not_separator hp, ih]
    | some s =>
      rw [fragments_go_of_separator? hp, fragments_go_of_separator? hp, ih (_ :: found), ih [_]]
      simp

/-- Pieces without a separator are one fragment, which the end of the line closes. -/
theorem fragments_of_forall {us : List Piece} (h : ∀ p ∈ us, p.separator? = none) :
    fragments us = [{ pieces := us, closer := none }] := by
  have hgo := fragments_go_append h [] [] []
  rw [List.append_nil] at hgo
  rw [fragments, hgo]
  simp [fragments.go]

theorem fragments_append_cons {us : List Piece} {p : Piece} {s : Separator}
    (h : ∀ q ∈ us, q.separator? = none) (hp : p.separator? = some s) (ps : List Piece) :
    fragments (us ++ p :: ps) = { pieces := us, closer := some s } :: fragments ps := by
  rw [fragments, fragments_go_append h, fragments_go_of_separator? hp, fragments_go_found]
  simp [fragments]

theorem fragments_cons {p : Piece} {s : Separator} (hp : p.separator? = some s) (ps : List Piece) :
    fragments (p :: ps) = { pieces := [], closer := some s } :: fragments ps :=
  @fragments_append_cons [] p s (by simp) hp ps

theorem fragments_induction {motive : List Piece → Prop}
    (last : ∀ us, (∀ p ∈ us, p.separator? = none) → motive us)
    (cons : ∀ us p s ps, (∀ q ∈ us, q.separator? = none) → p.separator? = some s → motive ps →
      motive (us ++ p :: ps)) (ps : List Piece) : motive ps := by
  suffices h : ∀ us, (∀ p ∈ us, p.separator? = none) → motive (us ++ ps) from h [] (by simp)
  induction ps with
  | nil =>
    intro us hus
    rw [List.append_nil]
    exact last us hus
  | cons p ps ih =>
    intro us hus
    cases hp : p.separator? with
    | some s => exact cons us p s ps hus hp (ih [] (by simp))
    | none =>
      have h := ih (us ++ [p]) fun q hq ↦ by
        rcases List.mem_append.mp hq with hq | hq
        · exact hus q hq
        · rwa [List.mem_singleton.mp hq]
      rwa [List.append_assoc] at h

def opening (ps : List Piece) : List Piece := ps.takeWhile (·.separator?.isNone)

theorem opening_of_forall {us : List Piece} (h : ∀ p ∈ us, p.separator? = none) :
    opening us = us :=
  List.takeWhile_eq_self_iff.mpr fun p hp ↦ by simp [h p hp]

theorem opening_append {us : List Piece} (h : ∀ p ∈ us, p.separator? = none) (vs : List Piece) :
    opening (us ++ vs) = us ++ opening vs :=
  List.takeWhile_append_of_pos fun p hp ↦ by simp [h p hp]

theorem opening_append_of_not {us : List Piece} (h : ¬∀ p ∈ us, p.separator? = none)
    (vs : List Piece) : opening (us ++ vs) = opening us := by
  rw [opening, List.takeWhile_append, if_neg, ← opening]
  intro hlength
  refine h fun p hp ↦ ?_
  have hself := (List.takeWhile_prefix fun p : Piece ↦ p.separator?.isNone).eq_of_length hlength
  simpa using List.takeWhile_eq_self_iff.mp hself p hp

theorem opening_concat_of_separator? {us : List Piece} (h : ∀ p ∈ us, p.separator? = none)
    {p : Piece} {s : Separator} (hp : p.separator? = some s) : opening (us ++ [p]) = us := by
  rw [opening_append h, opening, List.takeWhile_cons_of_neg (by simp [hp]), List.append_nil]

theorem fragments_eq_cons (ps : List Piece) :
    ∃ closer fs, fragments ps = { pieces := opening ps, closer } :: fs ∧
      (closer = none → fs = []) := by
  induction ps using fragments_induction with
  | last us hus =>
    rw [fragments_of_forall hus, opening_of_forall hus]
    exact ⟨none, [], rfl, fun _ ↦ rfl⟩
  | cons us p s ps hus hp _ =>
    have hopening : opening (us ++ p :: ps) = us := by
      rw [opening_append hus, opening, List.takeWhile_cons_of_neg (by simp [hp]), List.append_nil]
    rw [fragments_append_cons hus hp, hopening]
    exact ⟨some s, fragments ps, rfl, by simp⟩

/-- The last fragment can be exchanged without a change to the ones before it. -/
theorem exists_fragments_append (ps : List Piece) :
    ∃ qs us fs, ps = qs ++ us ∧ (∀ p ∈ us, p.separator? = none) ∧
      (∀ p ∈ qs.getLast?, p.separator? ≠ none) ∧
      ∀ vs, (∀ p ∈ vs, p.separator? = none) →
        fragments (qs ++ vs) = fs ++ [{ pieces := vs, closer := none }] := by
  induction ps using fragments_induction with
  | last us hus => exact ⟨[], us, [], rfl, hus, by simp, fun vs ↦ fragments_of_forall⟩
  | cons us p s ps hus hp ih =>
    obtain ⟨qs, vs, fs, rfl, hvs, hqs, hfragments⟩ := ih
    refine ⟨us ++ p :: qs, vs, { pieces := us, closer := some s } :: fs, by simp, hvs, ?_, ?_⟩
    · intro q hq
      rw [List.getLast?_append, List.getLast?_cons, Option.some_or, Option.mem_some_iff] at hq
      cases hlast : qs.getLast? with
      | none => simp_all
      | some q' => simp_all
    · intro ws hws
      rw [List.append_assoc, List.cons_append, fragments_append_cons hus hp, hfragments ws hws,
        List.cons_append]

/-- A fragment is a stretch of the pieces without a separator in it. -/
theorem exists_append_of_mem_fragments {ps : List Piece} {f : Fragment} (h : f ∈ fragments ps) :
    (∃ before after, ps = before ++ f.pieces ++ after) ∧ ∀ p ∈ f.pieces, p.separator? = none := by
  induction ps using fragments_induction with
  | last us hus =>
    rw [fragments_of_forall hus, List.mem_singleton] at h
    subst h
    exact ⟨⟨[], [], by simp⟩, hus⟩
  | cons us p s ps hus hp ih =>
    rw [fragments_append_cons hus hp, List.mem_cons] at h
    rcases h with rfl | h
    · exact ⟨⟨[], p :: ps, by simp⟩, hus⟩
    · obtain ⟨⟨before, after, rfl⟩, hf⟩ := ih h
      exact ⟨⟨us ++ p :: before, after, by simp⟩, hf⟩

/-! ## Comments at the ends -/

theorem bareSpan_eq_strip (ps : List Piece) : bareSpan ps = Text.strip Piece.isComment ps := rfl

/-- Leaving out comments and closing the gap can be done in any order. -/
theorem closeGap_bareSpan_closeGap (ps : List Piece) :
    closeGap (bareSpan (closeGap ps)) = closeGap (bareSpan ps) := by
  cases ps with
  | nil => rfl
  | cons p ps =>
    have hsame : Piece.isComment { p with gap := [] } = p.isComment := rfl
    rw [closeGap, bareSpan_eq_strip, bareSpan_eq_strip]
    cases hp : p.isComment with
    | true => rw [Text.strip_cons_of_pos hp, Text.strip_cons_of_pos (hsame.trans hp)]
    | false =>
      rw [Text.strip_cons_of_neg hp, Text.strip_cons_of_neg (hsame.trans hp)]
      rfl

theorem spanText_eq (ps : List Piece) : spanText ps = sourceOf (closeGap (bareSpan ps)) := by
  rw [spanText]
  cases bareSpan ps with
  | nil => rfl
  | cons p ps =>
    rw [closeGap, sourceOf_cons]
    rfl

theorem ofPieces_eq_bareSpan (ps : List Piece) :
    ∃ g : Draft → Bool,
      Draft.ofPieces ps = (Draft.ofPieces (bareSpan ps)).map fun d ↦ { d with growing := g d } := by
  obtain ⟨before, after, hps, hbefore, hafter, -⟩ := Text.exists_strip Piece.isComment ps
  rw [← bareSpan_eq_strip] at hps
  refine ⟨fun d ↦ d.growing && after.isEmpty, ?_⟩
  have hstart : Draft.ofPieces (before ++ bareSpan ps) = Draft.ofPieces (bareSpan ps) := by
    rw [Draft.ofPieces_append, Draft.ofPieces_of_forall_isComment hbefore]
    rfl
  have hwhole : Draft.ofPieces ps
      = (Draft.ofPieces (bareSpan ps)).bind fun d ↦ after.foldlM Draft.add d := by
    rw [← hstart, ← Draft.ofPieces_append, ← hps]
  rw [hwhole]
  cases Draft.ofPieces (bareSpan ps) with
  | error e => rfl
  | ok d => exact Draft.foldlM_of_forall_isComment hafter d

theorem Fragment.stage_eq (f : Fragment) :
    f.stage = (Draft.ofPieces (bareSpan f.pieces)).bind fun d ↦
      d.stage f.closer (spanText f.pieces) := by
  obtain ⟨g, hg⟩ := ofPieces_eq_bareSpan f.pieces
  have hstage : f.stage = (Draft.ofPieces f.pieces).bind fun d ↦
      d.stage f.closer (spanText f.pieces) := rfl
  rw [hstage, hg]
  cases Draft.ofPieces (bareSpan f.pieces) <;> rfl

theorem Fragment.isVacant_eq_map (f : Fragment) :
    f.isVacant = (Draft.ofPieces f.pieces).map Draft.isVacant := by
  rw [Fragment.isVacant]
  cases Draft.ofPieces f.pieces <;> rfl

theorem Fragment.isVacant_eq (f : Fragment) :
    f.isVacant = (Draft.ofPieces (bareSpan f.pieces)).map Draft.isVacant := by
  obtain ⟨g, hg⟩ := ofPieces_eq_bareSpan f.pieces
  rw [f.isVacant_eq_map, hg]
  cases Draft.ofPieces (bareSpan f.pieces) <;> rfl

end ShellEngine.Line
