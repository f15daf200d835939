import ShellEngine.Proofs.Line.Fragments
import Mathlib.Data.List.Forall2

/-!
# From fragments to stages

Linking goes through the fragments of a line and makes one stage of each, except that a last
fragment without a command may be left out. What a later module needs of it is said in three ways:
which stages come out (`exists_fragment_of_mem_link`), which texts they carry (`link_texts`), and
that fragments which differ in nothing that counts come out alike (`link_congr`).
-/

namespace ShellEngine.Line

theorem parse_eq_ok_iff {line : String} {plan : Plan} :
    parse line = .ok plan ↔ ∃ ps stages, pieces line.toList = .ok ps ∧
      link [] none (fragments ps) = .ok stages ∧
      plan = Plan.ofStages (String.ofList (Text.trim line.toList)) stages := by
  simp only [parse, bind_eq_ok_iff, pure, Except.pure, Except.ok.injEq]
  constructor
  · rintro ⟨ps, hps, stages, hstages, rfl⟩
    exact ⟨ps, stages, hps, hstages, rfl⟩
  · rintro ⟨ps, stages, hps, hstages, rfl⟩
    exact ⟨ps, hps, stages, hstages, rfl⟩

theorem parse_ofList {line : List Char} {ps : List Piece} (h : pieces line = .ok ps) :
    parse (String.ofList line) = (link [] none (fragments ps)).map
      (Plan.ofStages (String.ofList (Text.trim line))) := by
  simp only [parse, String.toList_ofList, h, bind, Except.bind]
  cases link [] none (fragments ps) <;> rfl

/-! ## Where the stages come from -/

/-- `linked` is `stage` with some links to what stands before and after it. -/
inductive Links (stage : Stage) : Stage → Prop
  | last (piped : Bool) : Links stage (linkBefore piped stage)
  | closed (piped : Bool) (closer : Separator) :
      Links stage (linkAfter closer (linkBefore piped stage))

theorem linkBefore_text (piped : Bool) (s : Stage) : (linkBefore piped s).text = s.text := by
  unfold linkBefore
  split
  · rfl
  · rfl

theorem Links.text_eq {stage s : Stage} (h : Links stage s) : s.text = stage.text := by
  cases h with
  | last piped => exact linkBefore_text piped stage
  | closed piped closer =>
    rw [← linkBefore_text piped stage]
    cases closer <;> rfl

/-- Each stage of a plan is that of a fragment, with its links. -/
theorem exists_fragment_of_mem_link {fs : List Fragment} {before : Closer}
    {found stages : List Stage} {s : Stage} (h : link found before fs = .ok stages)
    (hs : s ∈ stages) :
    s ∈ found ∨ ∃ f ∈ fs, ∃ stage, f.stage = .ok stage ∧ Links stage s := by
  induction fs generalizing before found with
  | nil =>
    rw [link, Except.ok.injEq] at h
    rw [← h, List.mem_reverse] at hs
    exact Or.inl hs
  | cons f fs ih =>
    -- a stage that is found here is that of `f`, and the others come from further on
    have hstep : ∀ {closer : Closer} {stage linked : Stage}, f.stage = .ok stage →
        Links stage linked → link (linked :: found) closer fs = .ok stages →
        s ∈ found ∨ ∃ f' ∈ f :: fs, ∃ stage, f'.stage = .ok stage ∧ Links stage s := by
      intro closer stage linked hstage hlinks hrest
      rcases ih hrest with hfound | ⟨f', hf', hf'stage⟩
      · rcases List.mem_cons.mp hfound with rfl | hfound
        · exact Or.inr ⟨f, List.mem_cons_self, stage, hstage, hlinks⟩
        · exact Or.inl hfound
      · exact Or.inr ⟨f', List.mem_cons_of_mem _ hf', hf'stage⟩
    rw [link] at h
    split at h
    · obtain ⟨stage, hstage, hrest⟩ := bind_eq_ok_iff.mp h
      exact hstep hstage (.closed _ _) hrest
    · obtain ⟨vacant, -, hrest⟩ := bind_eq_ok_iff.mp h
      cases vacant with
      | true =>
        simp only [if_true] at hrest
        split at hrest
        · simp at hrest
        · rw [Except.ok.injEq] at hrest
          rw [← hrest, List.mem_reverse] at hs
          exact Or.inl hs
      | false =>
        simp only [Bool.false_eq_true, if_false] at hrest
        obtain ⟨stage, hstage, hrest⟩ := bind_eq_ok_iff.mp hrest
        exact hstep hstage (.last _) hrest

/-! ## Fragments that come out alike -/

/-- Two fragments that linking does not tell apart: both are left out at the end of a line, or both
have the same stage. -/
structure Fragment.Alike (f g : Fragment) : Prop where
  closer : f.closer = g.closer
  vacant : f.isVacant = g.isVacant
  stage : f.stage = g.stage ∨ f.closer = none ∧ f.isVacant = .ok true

theorem Fragment.Alike.refl (f : Fragment) : f.Alike f := ⟨rfl, rfl, Or.inl rfl⟩

theorem link_congr {fs gs : List Fragment} (h : List.Forall₂ Fragment.Alike fs gs)
    (found : List Stage) (before : Closer) : link found before fs = link found before gs := by
  induction h generalizing found before with
  | nil => rfl
  | @cons f g fs gs hfg _ ih =>
    rw [link, link, ← hfg.closer, ← hfg.vacant]
    rcases hfg.stage with hstage | ⟨hcloser, hvacant⟩
    · simp only [hstage, ih]
    · rw [hcloser, hvacant]
      rfl

theorem Fragment.alike_of_bareSpan {us vs : List Piece} (h : bareSpan us = bareSpan vs)
    (closer : Closer) : Fragment.Alike { pieces := us, closer } { pieces := vs, closer } := by
  refine ⟨rfl, ?_, Or.inl ?_⟩
  · rw [Fragment.isVacant_eq, Fragment.isVacant_eq, h]
  · rw [Fragment.stage_eq, Fragment.stage_eq, spanText_eq, spanText_eq, h]

theorem Fragment.alike_closeGap (us : List Piece) (closer : Closer) :
    Fragment.Alike { pieces := closeGap us, closer } { pieces := us, closer } := by
  have hdraft : Draft.ofPieces (bareSpan (closeGap us)) = Draft.ofPieces (bareSpan us) := by
    rw [← Draft.ofPieces_closeGap, closeGap_bareSpan_closeGap, Draft.ofPieces_closeGap]
  refine ⟨rfl, ?_, Or.inl ?_⟩
  · rw [Fragment.isVacant_eq, Fragment.isVacant_eq, hdraft]
  · rw [Fragment.stage_eq, Fragment.stage_eq, hdraft, spanText_eq, spanText_eq,
      closeGap_bareSpan_closeGap]

theorem link_closeGap (ps : List Piece) (found : List Stage) (before : Closer) :
    link found before (fragments (closeGap ps)) = link found before (fragments ps) := by
  refine link_congr ?_ found before
  have hrefl (fs : List Fragment) : List.Forall₂ Fragment.Alike fs fs :=
    List.forall₂_same.mpr fun f _ ↦ .refl f
  induction ps using fragments_induction with
  | last us hus =>
    rw [fragments_of_forall hus, fragments_of_forall (separator?_closeGap hus)]
    exact .cons (Fragment.alike_closeGap us none) .nil
  | cons us p s ps hus hp _ =>
    cases us with
    | nil =>
      have hclosed : Piece.separator? { p with gap := [] } = some s := hp
      rw [List.nil_append, closeGap, fragments_cons hp, fragments_cons hclosed]
      exact hrefl _
    | cons q us =>
      rw [closeGap_append (by simp), fragments_append_cons hus hp,
        fragments_append_cons (separator?_closeGap hus) hp]
      exact .cons (Fragment.alike_closeGap _ _) (hrefl _)

/-! ## The texts of the stages -/

/-- The text of the stage that a fragment makes, if it makes one. -/
def Fragment.text? (f : Fragment) : Option (List Char) :=
  if f.closer = none ∧ f.isVacant = .ok true then none else some (spanText f.pieces)

theorem Fragment.text_of_stage {f : Fragment} {stage : Stage} (h : f.stage = .ok stage) :
    stage.text.toList = spanText f.pieces := by
  rw [f.stage_eq] at h
  obtain ⟨d, -, hd⟩ := bind_eq_ok_iff.mp h
  obtain ⟨-, -, rfl⟩ := Draft.stage_eq_ok_iff.mp hd
  exact String.toList_ofList

/-- The texts that linking carries over are those of the fragments that make a stage. -/
theorem link_texts {ps : List Piece} {found stages : List Stage} {before : Closer}
    (h : link found before (fragments ps) = .ok stages) :
    stages.map (·.text.toList) = found.reverse.map (·.text.toList)
      ++ (fragments ps).filterMap Fragment.text? := by
  induction ps using fragments_induction generalizing found before with
  | last us hus =>
    rw [fragments_of_forall hus] at h ⊢
    rw [link] at h
    obtain ⟨vacant, hvacant, hrest⟩ := bind_eq_ok_iff.mp h
    cases vacant with
    | true =>
      have htext : Fragment.text? { pieces := us, closer := none } = none := by
        simp [Fragment.text?, hvacant]
      simp only [if_true] at hrest
      split at hrest
      · simp at hrest
      · rw [← Except.ok.inj hrest, List.filterMap_cons_none htext, List.filterMap_nil,
          List.append_nil]
    | false =>
      have htext : Fragment.text? { pieces := us, closer := none } = some (spanText us) := by
        simp [Fragment.text?, hvacant]
      obtain ⟨stage, hstage, hlink⟩ := bind_eq_ok_iff.mp hrest
      rw [link, Except.ok.injEq] at hlink
      rw [← hlink, List.filterMap_cons_some htext, List.filterMap_nil, List.reverse_cons,
        List.map_append, List.map_singleton, (Links.last _).text_eq, Fragment.text_of_stage hstage]
  | cons us p s ps hus hp ih =>
    rw [fragments_append_cons hus hp] at h ⊢
    obtain ⟨stage, hstage, hlink⟩ := bind_eq_ok_iff.mp h
    have htext : Fragment.text? { pieces := us, closer := some s } = some (spanText us) := by
      simp [Fragment.text?]
    rw [ih hlink, List.filterMap_cons_some htext, List.reverse_cons, List.map_append,
      List.map_singleton, (Links.closed _ _).text_eq, Fragment.text_of_stage hstage,
      List.append_assoc]
    rfl

end ShellEngine.Line
