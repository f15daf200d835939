import ShellEngine.Proofs.Line.Linking

/-!
# The grammar of command lines

Which lines make a plan, said of their tokens alone and without the order in which they are read.
Comments are left out, and the separators cut the tokens into *phrases*. In a phrase, the target of
a redirection operator is the first token behind it that is not `2>&1`, and that must be a word; a
word that is no target belongs to the command.

A line makes a plan when every operator has its target and every phrase has a command, except that
the last one needs none where nothing promised it (`exists_parse_eq_ok_iff`). The two sides meet in
a draft: an operator waits in it exactly when the tokens read so far end with an operator and
`2>&1`s, and it has an argument exactly when one of them was a word of the command
(`Draft.state_of_ofPieces`).
-/

namespace ShellEngine.Line

/-! ## Tokens -/

def Token.separator? : Token → Option Separator
  | .separator s => some s
  | _ => none

/-- Whether a token is an operator that takes a target. -/
def Token.isRedirection : Token → Bool
  | .redirection _ => true
  | _ => false

def tokensOf (ps : List Piece) : List Token := (ps.filter (!·.isComment)).map Piece.token

@[simp] theorem tokensOf_nil : tokensOf [] = [] := rfl

theorem tokensOf_append (ps qs : List Piece) : tokensOf (ps ++ qs) = tokensOf ps ++ tokensOf qs := by
  rw [tokensOf, List.filter_append, List.map_append]
  rfl

theorem tokensOf_cons_of_isComment {p : Piece} (hp : p.isComment = true) (ps : List Piece) :
    tokensOf (p :: ps) = tokensOf ps := by
  rw [tokensOf, List.filter_cons_of_neg (by simp [hp]), ← tokensOf]

theorem tokensOf_cons_of_not {p : Piece} (hp : p.isComment = false) (ps : List Piece) :
    tokensOf (p :: ps) = p.token :: tokensOf ps := by
  rw [tokensOf, List.filter_cons_of_pos (by simp [hp]), List.map_cons, ← tokensOf]

def separatorsOf (ts : List Token) : List Separator := ts.filterMap Token.separator?

/-- The tokens between the separators. There is one phrase more than there are separators. -/
def phrases (ts : List Token) : List (List Token) := ts.splitOnP (·.separator?.isSome)

/-! ## Targets and commands -/

/-- Whether tokens begin with a target: behind some `2>&1`s comes a word. -/
def beginsWithTarget (ts : List Token) : Bool :=
  (ts.dropWhile (· == .errToOut)).head?.any Token.isWord

/-- Whether tokens end with an operator that has no target yet: nothing but `2>&1`s is behind it. -/
def awaitsTarget (ts : List Token) : Bool :=
  (ts.reverse.dropWhile (· == .errToOut)).head?.any Token.isRedirection

/-- Every operator of a phrase has its target in the phrase. -/
def Targeted (ts : List Token) : Prop :=
  ∀ i : Fin ts.length, ts[i].isRedirection = true → beginsWithTarget (ts.drop (i + 1)) = true

/-- A phrase has a word that is no target. -/
def HasCommand (ts : List Token) : Prop :=
  ∃ i : Fin ts.length, ts[i].isWord = true ∧ awaitsTarget (ts.take i) = false

instance : DecidablePred Targeted := fun ts ↦ by unfold Targeted; infer_instance

instance : DecidablePred HasCommand := fun ts ↦ by unfold HasCommand; infer_instance

/-! ### By recursion -/

theorem beginsWithTarget_cons (t : Token) (ts : List Token) :
    beginsWithTarget (t :: ts) = if t = .errToOut then beginsWithTarget ts else t.isWord := by
  rw [beginsWithTarget, List.dropWhile_cons]
  split
  · rename_i ht
    rw [if_pos (by simpa using ht), beginsWithTarget]
  · rename_i ht
    rw [if_neg (by simpa using ht)]
    rfl

theorem awaitsTarget_concat (ts : List Token) (t : Token) :
    awaitsTarget (ts ++ [t]) = if t = .errToOut then awaitsTarget ts else t.isRedirection := by
  rw [awaitsTarget, List.reverse_append, List.reverse_singleton, List.singleton_append,
    List.dropWhile_cons]
  split
  · rename_i ht
    rw [if_pos (by simpa using ht), awaitsTarget]
  · rename_i ht
    rw [if_neg (by simpa using ht)]
    rfl

theorem targeted_cons (t : Token) (ts : List Token) :
    Targeted (t :: ts) ↔
      (t.isRedirection = true → beginsWithTarget ts = true) ∧ Targeted ts :=
  Fin.forall_fin_succ

theorem hasCommand_iff {ts : List Token} :
    HasCommand ts ↔
      ∃ before t after, ts = before ++ t :: after ∧ t.isWord = true ∧
        awaitsTarget before = false := by
  constructor
  · rintro ⟨i, hword, hfree⟩
    exact ⟨ts.take i, ts[i], ts.drop (i + 1), by simp, hword, hfree⟩
  · rintro ⟨before, t, after, rfl, hword, hfree⟩
    exact ⟨⟨before.length, by simp⟩, by simpa using hword, by simpa using hfree⟩

theorem hasCommand_concat (ts : List Token) (t : Token) :
    HasCommand (ts ++ [t]) ↔ HasCommand ts ∨ t.isWord = true ∧ awaitsTarget ts = false := by
  rw [hasCommand_iff, hasCommand_iff]
  constructor
  · rintro ⟨before, u, after, hts, hword, hfree⟩
    rcases List.eq_nil_or_concat after with rfl | ⟨after, v, rfl⟩
    · obtain ⟨rfl, hu⟩ := List.append_inj' hts rfl
      obtain rfl := List.singleton_inj.mp hu
      exact Or.inr ⟨hword, hfree⟩
    · rw [List.concat_eq_append, ← List.cons_append, ← List.append_assoc] at hts
      obtain ⟨rfl, -⟩ := List.append_inj' hts rfl
      exact Or.inl ⟨before, u, after, rfl, hword, hfree⟩
  · rintro (⟨before, u, after, rfl, hword, hfree⟩ | ⟨hword, hfree⟩)
    · exact ⟨before, u, after ++ [t], by simp, hword, hfree⟩
    · exact ⟨ts, t, [], rfl, hword, hfree⟩

/-! ## What a draft knows of its tokens -/

namespace Draft

/-- The tokens of a draft's pieces tell whether an operator waits in it and whether it has an
argument. -/
theorem state_of_ofPieces {us : List Piece} {d : Draft} (hus : ∀ p ∈ us, p.separator? = none)
    (h : ofPieces us = .ok d) :
    d.pending.isSome = awaitsTarget (tokensOf us) ∧
      (d.argv ≠ [] ↔ HasCommand (tokensOf us)) := by
  induction us using List.reverseRecOn generalizing d with
  | nil =>
    obtain rfl := Except.ok.inj h
    exact ⟨rfl, by simp [HasCommand]⟩
  | append_singleton us p ih =>
    rw [ofPieces_concat] at h
    obtain ⟨d₀, hd₀, hadd⟩ := bind_eq_ok_iff.mp h
    obtain ⟨hpending, hargv⟩ := ih (fun q hq ↦ hus q (List.mem_append_left _ hq)) hd₀
    have htoken : p.isComment = false → tokensOf (us ++ [p]) = tokensOf us ++ [p.token] := by
      intro hp
      rw [tokensOf_append, tokensOf_cons_of_not hp, tokensOf_nil]
    rcases add_cases hadd with ⟨quoting, text, hp, rfl⟩ | ⟨r, hp, hnone, rfl⟩ | ⟨hp, rfl⟩ |
      ⟨hp, rfl⟩
    · rw [htoken (by simp [Piece.isComment, hp]), awaitsTarget_concat, hasCommand_concat, hp,
        pending_addWord, ← hargv, ← hpending]
      refine ⟨rfl, ?_⟩
      rcases d₀.addWord_cases (String.ofList text) p.gap.isEmpty with
        ⟨r, hr, hword⟩ | ⟨hnone, argv, hne, hword⟩
      · simp [hword, redirect_argv, hr]
      · simp [hword, hne, hnone, Token.isWord]
    · rw [htoken (by simp [Piece.isComment, hp]), awaitsTarget_concat, hasCommand_concat, hp,
        ← hargv]
      exact ⟨rfl, by simp [Token.isWord]⟩
    · rw [htoken (by simp [Piece.isComment, hp]), awaitsTarget_concat, hasCommand_concat, hp,
        ← hargv, ← hpending]
      exact ⟨rfl, by simp [Token.isWord]⟩
    · rcases hp with hcomment | hseparator
      · rw [tokensOf_append, tokensOf_cons_of_isComment hcomment, tokensOf_nil, List.append_nil]
        exact ⟨hpending, hargv⟩
      · exact absurd (hus p (by simp)) hseparator

/-- A draft takes in pieces without an operator left waiting exactly when every operator has its
target, one that waits already included. -/
theorem exists_foldlM_add_iff {us : List Piece} (hus : ∀ p ∈ us, p.separator? = none) (d : Draft) :
    (∃ d', us.foldlM add d = .ok d' ∧ d'.pending = none) ↔
      (d.pending.isSome = true → beginsWithTarget (tokensOf us) = true) ∧
        Targeted (tokensOf us) := by
  induction us generalizing d with
  | nil =>
    have hnil : beginsWithTarget [] = false := rfl
    simp [pure, Except.pure, Targeted, hnil]
  | cons p us ih =>
    have hrest := fun d ↦ ih (fun q hq ↦ hus q (List.mem_cons_of_mem _ hq)) d
    have hstep {d₁ : Draft} (h : d.add p = .ok d₁) : (p :: us).foldlM add d = us.foldlM add d₁ := by
      rw [List.foldlM_cons, h]
      rfl
    obtain ⟨gap, raw, token⟩ := p
    cases token with
    | word quoting text =>
      rw [hstep rfl, hrest, pending_addWord, tokensOf_cons_of_not rfl, targeted_cons,
        beginsWithTarget_cons]
      simp [Token.isWord, Token.isRedirection]
    | redirection r =>
      rw [tokensOf_cons_of_not rfl, targeted_cons, beginsWithTarget_cons]
      cases hpending : d.pending with
      | some earlier => simp [List.foldlM_cons, add, hpending, bind, Except.bind, Token.isWord]
      | none =>
        rw [hstep (by rw [add, hpending]), hrest]
        simp [Token.isRedirection]
    | errToOut =>
      rw [hstep rfl, hrest, tokensOf_cons_of_not rfl, targeted_cons, beginsWithTarget_cons]
      simp [Token.isRedirection]
    | comment text => rw [hstep rfl, hrest, tokensOf_cons_of_isComment rfl]
    | separator s => exact absurd (hus _ List.mem_cons_self) (by simp [Piece.separator?])

theorem exists_ofPieces_iff {us : List Piece} (hus : ∀ p ∈ us, p.separator? = none) :
    (∃ d, ofPieces us = .ok d ∧ d.pending = none) ↔ Targeted (tokensOf us) := by
  rw [ofPieces, exists_foldlM_add_iff hus]
  simp

end Draft

/-! ## What fragments make -/

/-- A fragment makes a stage when its tokens are a phrase with a command. -/
theorem Fragment.exists_stage_iff {us : List Piece} (hus : ∀ p ∈ us, p.separator? = none)
    (closer : Closer) :
    (∃ s, Fragment.stage { pieces := us, closer } = .ok s) ↔
      Targeted (tokensOf us) ∧ HasCommand (tokensOf us) := by
  have hstage : Fragment.stage { pieces := us, closer }
      = (Draft.ofPieces us).bind fun d ↦ d.stage closer (spanText us) := rfl
  rw [hstage, ← Draft.exists_ofPieces_iff hus]
  constructor
  · rintro ⟨s, hs⟩
    obtain ⟨d, hd, hs⟩ := bind_eq_ok_iff.mp hs
    obtain ⟨hpending, hargv, -⟩ := Draft.stage_eq_ok_iff.mp hs
    exact ⟨⟨d, hd, hpending⟩, (Draft.state_of_ofPieces hus hd).2.mp hargv⟩
  · rintro ⟨⟨d, hd, hpending⟩, hcommand⟩
    have hargv := (Draft.state_of_ofPieces hus hd).2.mpr hcommand
    exact ⟨_, bind_eq_ok_iff.mpr ⟨d, hd, Draft.stage_eq_ok_iff.mpr ⟨hpending, hargv, rfl⟩⟩⟩

/-- A fragment may be left out when its tokens are a phrase without a command. -/
theorem Fragment.isVacant_iff {us : List Piece} (hus : ∀ p ∈ us, p.separator? = none)
    (closer : Closer) :
    Fragment.isVacant { pieces := us, closer } = .ok true ↔
      Targeted (tokensOf us) ∧ ¬HasCommand (tokensOf us) := by
  rw [Fragment.isVacant_eq_map, ← Draft.exists_ofPieces_iff hus]
  constructor
  · intro h
    cases hd : Draft.ofPieces us with
    | error e => simp [hd, Except.map] at h
    | ok d =>
      have hvacant : d.argv = [] ∧ d.pending = none := by
        simpa [hd, Except.map, Draft.isVacant] using h
      rw [← (Draft.state_of_ofPieces hus hd).2]
      exact ⟨⟨d, rfl, hvacant.2⟩, by simp [hvacant.1]⟩
  · rintro ⟨⟨d, hd, hpending⟩, hcommand⟩
    rw [← (Draft.state_of_ofPieces hus hd).2] at hcommand
    simp [hd, Except.map, Draft.isVacant, hpending, not_not.mp hcommand]

/-- What becomes of the last fragment: it makes a stage, or it is left out where nothing promised
a command. -/
theorem link_last_eq_ok_iff {us : List Piece} {found stages : List Stage} {before : Closer} :
    link found before [{ pieces := us, closer := none }] = .ok stages ↔
      (∃ s, Fragment.stage { pieces := us, closer := none } = .ok s ∧
        stages = found.reverse ++ [linkBefore (before == some .pipe) s]) ∨
      Fragment.isVacant { pieces := us, closer := none } = .ok true ∧
        promisesCommand before = false ∧ stages = found.reverse := by
  have hstage : Fragment.stage { pieces := us, closer := none }
      = (Draft.ofPieces us).bind fun d ↦ d.stage none (spanText us) := rfl
  rw [link, Fragment.isVacant_eq_map, hstage]
  cases Draft.ofPieces us with
  | error e => simp [Except.map, Except.bind, bind]
  | ok d =>
    by_cases hvacant : d.isVacant = true
    · have hnone (s : Stage) : d.stage none (spanText us) ≠ .ok s := by
        rw [Draft.isVacant, Bool.and_eq_true, List.isEmpty_iff] at hvacant
        exact fun hs ↦ (Draft.stage_eq_ok_iff.mp hs).2.1 hvacant.1
      cases promisesCommand before <;>
        simp [Except.map, Except.bind, bind, hvacant, hnone, eq_comm (b := stages)]
    · simp only [Except.map, Except.bind, bind, hvacant, Bool.false_eq_true, if_false]
      cases d.stage none (spanText us) with
      | error e => simp
      | ok s => simp only [link, Except.ok.injEq, List.reverse_cons]; simp [eq_comm (a := stages)]

theorem link_closed_eq_ok_iff {us : List Piece} {sep : Separator} {fs : List Fragment}
    {found stages : List Stage} {before : Closer} :
    link found before ({ pieces := us, closer := some sep } :: fs) = .ok stages ↔
      ∃ s, Fragment.stage { pieces := us, closer := some sep } = .ok s ∧
        link (linkAfter sep (linkBefore (before == some .pipe) s) :: found) (some sep) fs
          = .ok stages := by
  rw [link]
  exact bind_eq_ok_iff

/-! ## Sentences -/

theorem tokensOf_append_cons (us : List Piece) {p : Piece} {sep : Separator}
    (hp : p.separator? = some sep) (ps : List Piece) :
    tokensOf (us ++ p :: ps) = tokensOf us ++ .separator sep :: tokensOf ps := by
  obtain ⟨gap, raw, token⟩ := p
  cases token with
  | separator s =>
    obtain rfl : s = sep := Option.some.inj hp
    rw [tokensOf_append, tokensOf_cons_of_not rfl]
  | _ => simp [Piece.separator?] at hp

theorem separator?_of_mem_tokensOf {us : List Piece} (hus : ∀ p ∈ us, p.separator? = none) :
    ∀ t ∈ tokensOf us, t.separator? = none := by
  intro t ht
  obtain ⟨p, hp, rfl⟩ := List.mem_map.mp ht
  exact hus p (List.mem_filter.mp hp).1

theorem phrases_of_forall {us : List Piece} (hus : ∀ p ∈ us, p.separator? = none) :
    phrases (tokensOf us) = [tokensOf us] :=
  List.splitOnP_eq_singleton fun t ht ↦ by simp [separator?_of_mem_tokensOf hus t ht]

theorem phrases_append_cons {us : List Piece} (hus : ∀ p ∈ us, p.separator? = none)
    (sep : Separator) (ts : List Token) :
    phrases (tokensOf us ++ .separator sep :: ts) = tokensOf us :: phrases ts :=
  List.splitOnP_append_cons_of_forall_mem
    (fun t ht ↦ by simp [separator?_of_mem_tokensOf hus t ht]) _ rfl ts

theorem separatorsOf_of_forall {us : List Piece} (hus : ∀ p ∈ us, p.separator? = none) :
    separatorsOf (tokensOf us) = [] :=
  List.filterMap_eq_nil_iff.mpr (separator?_of_mem_tokensOf hus)

theorem separatorsOf_append_cons {us : List Piece} (hus : ∀ p ∈ us, p.separator? = none)
    (sep : Separator) (ts : List Token) :
    separatorsOf (tokensOf us ++ .separator sep :: ts) = sep :: separatorsOf ts := by
  rw [separatorsOf, List.filterMap_append, ← separatorsOf, separatorsOf_of_forall hus,
    List.nil_append]
  rfl

/-- Tokens of which stages can be made behind `before`: every operator has its target, and every
phrase its command, except for a last one that was not promised. -/
structure Sentence (before : Closer) (ts : List Token) : Prop where
  targets : ∀ phrase ∈ phrases ts, Targeted phrase
  commands : ∀ phrase ∈ (phrases ts).dropLast, HasCommand phrase
  last : ∀ phrase ∈ (phrases ts).getLast?,
    HasCommand phrase ∨ promisesCommand ((separatorsOf ts).getLast?.or before) = false

theorem sentence_of_forall {us : List Piece} (hus : ∀ p ∈ us, p.separator? = none)
    (before : Closer) :
    Sentence before (tokensOf us) ↔
      Targeted (tokensOf us) ∧ (HasCommand (tokensOf us) ∨ promisesCommand before = false) := by
  have hphrases := phrases_of_forall hus
  have hseparators := separatorsOf_of_forall hus
  constructor
  · rintro ⟨htargets, -, hlast⟩
    rw [hphrases] at htargets hlast
    rw [hseparators] at hlast
    exact ⟨htargets _ (by simp), hlast _ rfl⟩
  · rintro ⟨htarget, hlast⟩
    refine ⟨?_, ?_, ?_⟩ <;> rw [hphrases]
    · simpa using htarget
    · simp
    · rw [hseparators]
      simpa using hlast

theorem sentence_append_cons {us : List Piece} (hus : ∀ p ∈ us, p.separator? = none)
    (before : Closer) (sep : Separator) (ts : List Token) :
    Sentence before (tokensOf us ++ .separator sep :: ts) ↔
      (Targeted (tokensOf us) ∧ HasCommand (tokensOf us)) ∧ Sentence (some sep) ts := by
  have hphrases := phrases_append_cons hus sep ts
  have hne : phrases ts ≠ [] := List.splitOnP_ne_nil _ _
  have hlast : (phrases (tokensOf us ++ .separator sep :: ts)).getLast? = (phrases ts).getLast? := by
    obtain ⟨phrase, rest, hcons⟩ := List.exists_cons_of_ne_nil hne
    rw [hphrases, hcons, List.getLast?_cons_cons]
  have hseparator : (separatorsOf (tokensOf us ++ .separator sep :: ts)).getLast?.or before
      = (separatorsOf ts).getLast?.or (some sep) := by
    rw [separatorsOf_append_cons hus, List.getLast?_cons]
    cases (separatorsOf ts).getLast? <;> rfl
  constructor
  · rintro ⟨htargets, hcommands, hend⟩
    rw [hphrases] at htargets hcommands
    rw [hlast, hseparator] at hend
    rw [List.dropLast_cons_of_ne_nil hne] at hcommands
    exact ⟨⟨htargets _ List.mem_cons_self, hcommands _ List.mem_cons_self⟩,
      fun phrase h ↦ htargets phrase (List.mem_cons_of_mem _ h),
      fun phrase h ↦ hcommands phrase (List.mem_cons_of_mem _ h), hend⟩
  · rintro ⟨⟨htarget, hcommand⟩, htargets, hcommands, hend⟩
    refine ⟨?_, ?_, ?_⟩
    · rw [hphrases]
      exact List.forall_mem_cons.mpr ⟨htarget, htargets⟩
    · rw [hphrases, List.dropLast_cons_of_ne_nil hne]
      exact List.forall_mem_cons.mpr ⟨hcommand, hcommands⟩
    · rwa [hlast, hseparator]

/-- Stages can be made of pieces exactly when their tokens are a sentence. -/
theorem exists_link_iff (ps : List Piece) (found : List Stage) (before : Closer) :
    (∃ stages, link found before (fragments ps) = .ok stages) ↔
      Sentence before (tokensOf ps) := by
  induction ps using fragments_induction generalizing found before with
  | last us hus =>
    rw [fragments_of_forall hus, sentence_of_forall hus]
    constructor
    · rintro ⟨stages, hlink⟩
      rcases link_last_eq_ok_iff.mp hlink with ⟨s, hs, -⟩ | ⟨hvacant, hpromise, -⟩
      · obtain ⟨htarget, hcommand⟩ := (Fragment.exists_stage_iff hus none).mp ⟨s, hs⟩
        exact ⟨htarget, Or.inl hcommand⟩
      · exact ⟨((Fragment.isVacant_iff hus none).mp hvacant).1, Or.inr hpromise⟩
    · rintro ⟨htarget, hlast⟩
      by_cases hcommand : HasCommand (tokensOf us)
      · obtain ⟨s, hs⟩ := (Fragment.exists_stage_iff hus none).mpr ⟨htarget, hcommand⟩
        exact ⟨_, link_last_eq_ok_iff.mpr (Or.inl ⟨s, hs, rfl⟩)⟩
      · have hvacant := (Fragment.isVacant_iff hus none).mpr ⟨htarget, hcommand⟩
        exact ⟨_, link_last_eq_ok_iff.mpr
          (Or.inr ⟨hvacant, hlast.resolve_left hcommand, rfl⟩)⟩
  | cons us p sep ps hus hp ih =>
    rw [fragments_append_cons hus hp, tokensOf_append_cons us hp, sentence_append_cons hus,
      ← Fragment.exists_stage_iff hus (some sep)]
    constructor
    · rintro ⟨stages, hlink⟩
      obtain ⟨s, hs, hrest⟩ := link_closed_eq_ok_iff.mp hlink
      exact ⟨⟨s, hs⟩, (ih _ _).mp ⟨stages, hrest⟩⟩
    · rintro ⟨⟨s, hs⟩, hrest⟩
      obtain ⟨stages, hlink⟩ := (ih _ (some sep)).mpr hrest
      exact ⟨stages, link_closed_eq_ok_iff.mpr ⟨s, hs, hlink⟩⟩

theorem length_of_link {ps : List Piece} {found stages : List Stage} {before : Closer}
    (h : link found before (fragments ps) = .ok stages) :
    stages.length
      = found.length + (phrases (tokensOf ps)).countP fun phrase ↦ HasCommand phrase := by
  induction ps using fragments_induction generalizing found before with
  | last us hus =>
    rw [fragments_of_forall hus] at h
    rw [phrases_of_forall hus, List.countP_singleton]
    rcases link_last_eq_ok_iff.mp h with ⟨s, hs, rfl⟩ | ⟨hvacant, -, rfl⟩
    · simp [((Fragment.exists_stage_iff hus none).mp ⟨s, hs⟩).2]
    · simp [((Fragment.isVacant_iff hus none).mp hvacant).2]
  | cons us p sep ps hus hp ih =>
    rw [fragments_append_cons hus hp] at h
    obtain ⟨s, hs, hrest⟩ := link_closed_eq_ok_iff.mp h
    have hcommand := ((Fragment.exists_stage_iff hus (some sep)).mp ⟨s, hs⟩).2
    rw [tokensOf_append_cons us hp, phrases_append_cons hus, List.countP_cons_of_pos (by simpa),
      ih hrest, List.length_cons]
    omega

/-! ## Lines -/

/-- The tokens of a line, without the comments and without what is no token. -/
def tokens (line : String) : List Token := tokensOf ((lex line.toList).filterMap Lexeme.piece?)

/-- The lines that make a plan: nothing in them is no token, every operator has its target in its
phrase, every phrase that a separator ends has a command, and so has the last one, unless no
separator or one that promises nothing stands in front of it. -/
structure Grammatical (line : String) : Prop where
  lexes : ∀ l ∈ lex line.toList, l.error? = none
  targets : ∀ phrase ∈ phrases (tokens line), Targeted phrase
  commands : ∀ phrase ∈ (phrases (tokens line)).dropLast, HasCommand phrase
  last : ∀ phrase ∈ (phrases (tokens line)).getLast?, HasCommand phrase ∨
    ∀ sep ∈ (separatorsOf (tokens line)).getLast?, sep = .semi ∨ sep = .background

theorem tokens_of_pieces {line : String} {ps : List Piece} (h : pieces line.toList = .ok ps) :
    tokens line = tokensOf ps := by
  rw [tokens, pieces_eq_ok_iff_lex.mp h, filterMap_piece?_map_lexeme]

theorem promisesCommand_eq_false_iff {before : Closer} :
    promisesCommand before = false ↔ ∀ sep ∈ before, sep = .semi ∨ sep = .background := by
  rcases before with _ | (_ | _ | _ | _ | _) <;> simp [promisesCommand]

theorem grammatical_iff {line : String} :
    Grammatical line ↔ ∃ ps, pieces line.toList = .ok ps ∧ Sentence none (tokensOf ps) := by
  constructor
  · rintro ⟨hlexes, htargets, hcommands, hlast⟩
    have herror := List.filterMap_eq_nil_iff.mpr hlexes
    refine ⟨_, pieces_eq_ok_iff_lex.mpr (map_lexeme_filterMap_piece? herror).symm, htargets,
      hcommands, fun phrase hphrase ↦ ?_⟩
    rw [Option.or_none, promisesCommand_eq_false_iff]
    exact hlast phrase hphrase
  · rintro ⟨ps, hps, htargets, hcommands, hlast⟩
    rw [← tokens_of_pieces hps] at htargets hcommands hlast
    refine ⟨?_, htargets, hcommands, fun phrase hphrase ↦ ?_⟩
    · rw [pieces_eq_ok_iff_lex.mp hps]
      exact List.filterMap_eq_nil_iff.mp (filterMap_error?_map_lexeme ps)
    · have h := hlast phrase hphrase
      rwa [Option.or_none, promisesCommand_eq_false_iff] at h

/-- **Grammar of lines.** A line makes a plan exactly when it is grammatical, and the plan has a
stage for each phrase with a command. -/
theorem exists_parse_eq_ok_iff (line : String) (n : Nat) :
    (∃ plan, parse line = .ok plan ∧ plan.stages.length = n) ↔
      Grammatical line ∧ (phrases (tokens line)).countP (fun phrase ↦ HasCommand phrase) = n := by
  rw [grammatical_iff]
  constructor
  · rintro ⟨plan, hplan, hlength⟩
    obtain ⟨ps, stages, hps, hlink, rfl⟩ := parse_eq_ok_iff.mp hplan
    have hcount : stages.length = _ := length_of_link hlink
    rw [List.length_nil, Nat.zero_add] at hcount
    rw [tokens_of_pieces hps, ← hcount]
    exact ⟨⟨ps, hps, (exists_link_iff ps [] none).mp ⟨stages, hlink⟩⟩, hlength⟩
  · rintro ⟨⟨ps, hps, hsentence⟩, hcount⟩
    obtain ⟨stages, hlink⟩ := (exists_link_iff ps [] none).mpr hsentence
    refine ⟨_, parse_eq_ok_iff.mpr ⟨ps, stages, hps, hlink, rfl⟩, ?_⟩
    rw [tokens_of_pieces hps] at hcount
    have hlength : stages.length = _ := length_of_link hlink
    rwa [List.length_nil, Nat.zero_add, hcount] at hlength

instance : DecidablePred Grammatical := fun line ↦
  decidable_of_iff
    ((∀ l ∈ lex line.toList, l.error? = none) ∧
      (∀ phrase ∈ phrases (tokens line), Targeted phrase) ∧
      (∀ phrase ∈ (phrases (tokens line)).dropLast, HasCommand phrase) ∧
      ∀ phrase ∈ (phrases (tokens line)).getLast?, HasCommand phrase ∨
        ∀ sep ∈ (separatorsOf (tokens line)).getLast?, sep = .semi ∨ sep = .background)
    ⟨fun ⟨hlexes, htargets, hcommands, hlast⟩ ↦ ⟨hlexes, htargets, hcommands, hlast⟩,
      fun h ↦ ⟨h.lexes, h.targets, h.commands, h.last⟩⟩

/-- A last phrase needs no command, and then its redirections come to nothing. -/
example : Grammatical "cc a.c 2> 2>&1 log; > out # done" ∧ ¬Grammatical "> out; cc a.c" ∧
    ¬Grammatical "cc a.c > 2>&1 && ls" ∧ ¬Grammatical "ls && > out" := by
  decide +kernel

end ShellEngine.Line
