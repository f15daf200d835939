import ShellEngine.Proofs.Line.Grammar
import ShellEngine.Proofs.Line.Losses
import ShellEngine.Proofs.Line.Printing

/-!
# What becomes of the pieces of a line

The stages of a plan lie over the pieces of its line, each over a stretch without a separator
(`Laid`). A stage answers for its stretch as a whole: it carries the text, its arguments hold every
word that is no target, and each of its streams is what the last redirection of it says
(`AnswersFor`). Between the stretches lie comments and separators.

## What is left over

There is one place where pieces come to no stage without being missed. The last fragment may do
without a command, and then its redirections are read, found complete, and left out with it
(`leftover`). A fragment of the same tokens in front of a separator is refused. So nothing is
dropped exactly when no redirection stands alone at the end of the line (`laid_iff_of_parse`): a
line has more phrases than stages otherwise, and no stretch reaches into two of them.
-/

namespace ShellEngine.Line

/-! ## What tokens ask for -/

/-- What tokens ask for, `pending` being the operator that waits for its target. -/
def itemsFrom : Option Redirection → List Token → List Item
  | _, [] => []
  | none, .word _ text :: ts => .word (String.ofList text) :: itemsFrom none ts
  | some r, .word _ text :: ts => .redirect r (String.ofList text) :: itemsFrom none ts
  | _, .redirection r :: ts => itemsFrom (some r) ts
  | pending, .errToOut :: ts => .errToOut :: itemsFrom pending ts
  | pending, _ :: ts => itemsFrom pending ts

def itemsOf (us : List Piece) : List Item := itemsFrom none (tokensOf us)

namespace Draft

theorem streams_redirect (d : Draft) (r : Redirection) (path : String) :
    (d.redirect r path).stdin = (Item.redirect r path).input?.or d.stdin ∧
      (d.redirect r path).stdout = (Item.redirect r path).output?.or d.stdout ∧
      (d.redirect r path).stderr = (Item.redirect r path).error?.or d.stderr := by
  cases r <;> exact ⟨rfl, rfl, rfl⟩

structure Holds (d d' : Draft) (items : List Item) : Prop where
  words : d'.written = d.written ++ (items.filterMap Item.word?).flatMap String.toList
  stdin : d'.stdin = (items.filterMap Item.input?).getLast?.or d.stdin
  stdout : d'.stdout = (items.filterMap Item.output?).getLast?.or d.stdout
  stderr : d'.stderr = (items.filterMap Item.error?).getLast?.or d.stderr

theorem Holds.cons {d d₁ d' : Draft} {i : Item} {items : List Item} (h : Holds d₁ d' items)
    (hwords : d₁.written = d.written ++ i.word?.toList.flatMap String.toList)
    (hstdin : d₁.stdin = i.input?.or d.stdin) (hstdout : d₁.stdout = i.output?.or d.stdout)
    (hstderr : d₁.stderr = i.error?.or d.stderr) : Holds d d' (i :: items) := by
  refine ⟨?_, ?_, ?_, ?_⟩
  · rw [h.words, hwords]
    cases hword : i.word? <;> simp [hword]
  · rw [h.stdin, hstdin, getLast?_filterMap_cons_or]
  · rw [h.stdout, hstdout, getLast?_filterMap_cons_or]
  · rw [h.stderr, hstderr, getLast?_filterMap_cons_or]

/-- A draft takes in all that its pieces ask for. -/
theorem holds_of_foldlM {us : List Piece} (hus : ∀ p ∈ us, p.separator? = none) {d d' : Draft}
    (h : us.foldlM add d = .ok d') : Holds d d' (itemsFrom d.pending (tokensOf us)) := by
  induction us generalizing d with
  | nil =>
    obtain rfl := Except.ok.inj h
    exact ⟨by simp [itemsFrom], rfl, rfl, rfl⟩
  | cons p us ih =>
    rw [List.foldlM_cons] at h
    obtain ⟨d₁, hadd, hrest⟩ := bind_eq_ok_iff.mp h
    have hholds := ih (fun q hq ↦ hus q (List.mem_cons_of_mem _ hq)) hrest
    rcases add_cases hadd with ⟨quoting, text, hp, rfl⟩ | ⟨r, hp, hnone, rfl⟩ | ⟨hp, rfl⟩ |
      ⟨hp, rfl⟩
    · rw [tokensOf_cons_of_not (by simp [Piece.isComment, hp]), hp]
      rw [pending_addWord] at hholds
      rcases d.addWord_cases (String.ofList text) p.gap.isEmpty with
        ⟨r, hr, hword⟩ | ⟨hnone, argv, -, hword⟩
      · obtain ⟨hstdin, hstdout, hstderr⟩ := d.streams_redirect r (String.ofList text)
        rw [hr]
        rw [hword] at hholds
        refine hholds.cons ?_ hstdin hstdout hstderr
        simp [written, redirect_argv, Item.word?]
      · rw [hnone]
        refine hholds.cons ?_ ?_ ?_ ?_
        · simp [written_addWord hnone, Item.word?]
        all_goals rw [hword]; rfl
    · rw [tokensOf_cons_of_not (by simp [Piece.isComment, hp]), hp, hnone]
      exact ⟨hholds.words, hholds.stdin, hholds.stdout, hholds.stderr⟩
    · have hitems : itemsFrom d.pending (.errToOut :: tokensOf us)
          = .errToOut :: itemsFrom d.pending (tokensOf us) := by
        cases d.pending <;> rfl
      rw [tokensOf_cons_of_not (by simp [Piece.isComment, hp]), hp, hitems]
      exact hholds.cons (by simp [written, Item.word?]) rfl rfl rfl
    · rcases hp with hcomment | hseparator
      · rw [tokensOf_cons_of_isComment hcomment]
        exact ⟨hholds.words, hholds.stdin, hholds.stdout, hholds.stderr⟩
      · exact absurd (hus p List.mem_cons_self) hseparator

end Draft

/-! ## What a stage answers for -/

/-- The stage is made of the pieces, and of all of them. -/
structure AnswersFor (s : Stage) (us : List Piece) : Prop where
  separator : ∀ p ∈ us, p.separator? = none
  head : ∀ p ∈ us.head?, p.isComment = false
  last : ∀ p ∈ us.getLast?, p.isComment = false
  text : s.text.toList = sourceOf (closeGap us)
  /-- The words that are no targets come to the arguments. -/
  words : s.argv.flatMap String.toList
    = ((itemsOf us).filterMap Item.word?).flatMap String.toList
  /-- Of the redirections of one stream, the last one counts. -/
  stdin : ∀ i ∈ ((itemsOf us).filterMap Item.input?).getLast?, s.stdin = i
  stdout : ∀ o ∈ ((itemsOf us).filterMap Item.output?).getLast?, s.stdout = o
  stderr : ∀ o ∈ ((itemsOf us).filterMap Item.error?).getLast?, s.stderr = o

/-- The stage of a fragment answers for its pieces, without the comments at its ends. -/
theorem Fragment.answersFor_bareSpan {us : List Piece} (hus : ∀ p ∈ us, p.separator? = none)
    {closer : Closer} {stage : Stage} (h : Fragment.stage { pieces := us, closer } = .ok stage) :
    AnswersFor stage (bareSpan us) := by
  obtain ⟨left, right, hstrip, -, -, hhead, hlast⟩ := Text.exists_strip Piece.isComment us
  rw [← bareSpan_eq_strip] at hstrip hhead hlast
  have hseparator : ∀ p ∈ bareSpan us, p.separator? = none := by
    intro p hp
    refine hus p ?_
    rw [hstrip]
    exact List.mem_append_left _ (List.mem_append_right _ hp)
  rw [Fragment.stage_eq] at h
  obtain ⟨d, hd, hstage⟩ := bind_eq_ok_iff.mp h
  have hholds := Draft.holds_of_foldlM hseparator hd
  obtain ⟨-, -, rfl⟩ := Draft.stage_eq_ok_iff.mp hstage
  refine ⟨hseparator, hhead, hlast, ?_, hholds.words, ?_, ?_, ?_⟩
  · rw [String.toList_ofList, spanText_eq]
  · intro i hi
    simp only [hholds.stdin, itemsOf] at hi ⊢
    rw [Option.mem_def.mp hi]
    rfl
  · intro o ho
    simp only [hholds.stdout, itemsOf] at ho ⊢
    rw [Option.mem_def.mp ho]
    rfl
  · intro o ho
    simp only [hholds.stderr, itemsOf] at ho ⊢
    rw [Option.mem_def.mp ho]
    rfl

theorem Links.keeps {stage s : Stage} (h : Links stage s) :
    s.argv = stage.argv ∧ s.stderr = stage.stderr ∧
      (stage.stdin ≠ .inherit → s.stdin = stage.stdin) ∧
      (stage.stdout ≠ .inherit → s.stdout = stage.stdout) := by
  have hbefore (piped : Bool) :
      (linkBefore piped stage).argv = stage.argv ∧
        (linkBefore piped stage).stderr = stage.stderr ∧
        (stage.stdin ≠ .inherit → (linkBefore piped stage).stdin = stage.stdin) ∧
        (linkBefore piped stage).stdout = stage.stdout := by
    unfold linkBefore
    split <;> simp_all
  cases h with
  | last piped =>
    obtain ⟨hargv, hstderr, hstdin, hstdout⟩ := hbefore piped
    exact ⟨hargv, hstderr, hstdin, fun _ ↦ hstdout⟩
  | closed piped closer =>
    obtain ⟨hargv, hstderr, hstdin, hstdout⟩ := hbefore piped
    cases closer with
    | pipe =>
      refine ⟨hargv, hstderr, hstdin, fun hopen ↦ ?_⟩
      rw [← hstdout] at hopen ⊢
      simp [linkAfter, hopen]
    | _ => exact ⟨hargv, hstderr, hstdin, fun _ ↦ hstdout⟩

theorem Links.stdin_eq {stage s : Stage} (h : Links stage s) {items : List Item}
    (hstdin : ∀ i ∈ (items.filterMap Item.input?).getLast?, stage.stdin = i) :
    ∀ i ∈ (items.filterMap Item.input?).getLast?, s.stdin = i := by
  intro i hi
  obtain ⟨item, -, hitem⟩ := List.mem_filterMap.mp (List.mem_of_getLast? hi)
  have heq := hstdin i hi
  rw [h.keeps.2.2.1, heq]
  rw [heq]
  rintro rfl
  exact item.input?_ne_inherit hitem

theorem Links.stdout_eq {stage s : Stage} (h : Links stage s) {items : List Item}
    (hstdout : ∀ o ∈ (items.filterMap Item.output?).getLast?, stage.stdout = o) :
    ∀ o ∈ (items.filterMap Item.output?).getLast?, s.stdout = o := by
  intro o ho
  obtain ⟨item, -, hitem⟩ := List.mem_filterMap.mp (List.mem_of_getLast? ho)
  have heq := hstdout o ho
  rw [h.keeps.2.2.2, heq]
  rw [heq]
  rintro rfl
  exact item.output?_ne_inherit hitem

theorem AnswersFor.of_links {stage s : Stage} {us : List Piece} (h : AnswersFor stage us)
    (hlinks : Links stage s) : AnswersFor s us := by
  obtain ⟨hargv, hstderr, -, -⟩ := hlinks.keeps
  refine ⟨h.separator, h.head, h.last, ?_, ?_, hlinks.stdin_eq h.stdin, hlinks.stdout_eq h.stdout,
    ?_⟩
  · rw [hlinks.text_eq, h.text]
  · rw [hargv, h.words]
  · intro o ho
    rw [hstderr, h.stderr o ho]

/-! ## Stages over pieces -/

/-- Whether a piece belongs to no command. -/
def Piece.isLoose (p : Piece) : Bool := p.isComment || p.separator?.isSome

/-- Stages lie over pieces, in order: each answers for a stretch of them, and what is between the
stretches is loose. -/
inductive Laid : List Piece → List Stage → Prop
  | nil : Laid [] []
  | loose {p : Piece} {ps : List Piece} {stages : List Stage} (h : p.isLoose = true)
      (rest : Laid ps stages) : Laid (p :: ps) stages
  | stage {us ps : List Piece} {s : Stage} {stages : List Stage} (h : AnswersFor s us)
      (rest : Laid ps stages) : Laid (us ++ ps) (s :: stages)

namespace Laid

variable {us ps : List Piece} {stages : List Stage} {s : Stage}

theorem append_left (hus : ∀ p ∈ us, p.isLoose = true) (h : Laid ps stages) :
    Laid (us ++ ps) stages := by
  induction us with
  | nil => exact h
  | cons p us ih =>
    obtain ⟨hp, hus⟩ := List.forall_mem_cons.mp hus
    exact .loose hp (ih hus)

theorem append_right (hus : ∀ p ∈ us, p.isLoose = true) (h : Laid ps stages) :
    Laid (ps ++ us) stages := by
  induction h with
  | nil =>
    have hnil := append_left hus .nil
    rwa [List.append_nil] at hnil
  | loose hp _ ih => exact .loose hp ih
  | stage hs _ ih =>
    rw [List.append_assoc]
    exact .stage hs ih

/-- The stage of a fragment answers for it up to the comments at its ends. -/
theorem fragment (hus : ∀ p ∈ us, p.separator? = none) {closer : Closer} {stage : Stage}
    (hstage : Fragment.stage { pieces := us, closer } = .ok stage) (hlinks : Links stage s)
    (h : Laid ps stages) : Laid (us ++ ps) (s :: stages) := by
  obtain ⟨left, right, hstrip, hleft, hright, -, -⟩ := Text.exists_strip Piece.isComment us
  rw [← bareSpan_eq_strip] at hstrip
  have hloose {vs : List Piece} (hvs : ∀ p ∈ vs, p.isComment = true) :
      ∀ p ∈ vs, p.isLoose = true := fun p hp ↦ by simp [Piece.isLoose, hvs p hp]
  rw [hstrip, List.append_assoc, List.append_assoc]
  exact append_left (hloose hleft) (.stage ((Fragment.answersFor_bareSpan hus hstage).of_links
    hlinks) (append_left (hloose hright) h))

end Laid

/-! ## What is left over -/

/-- The pieces behind the last separator, if no command is among them. -/
def leftover (ps : List Piece) : List Piece :=
  let rest := ps.rtakeWhile (·.separator?.isNone)
  if HasCommand (tokensOf rest) then [] else rest

theorem rtakeWhile_append_cons (us : List Piece) {p : Piece} {sep : Separator}
    (hp : p.separator? = some sep) (ps : List Piece) :
    (us ++ p :: ps).rtakeWhile (·.separator?.isNone) = ps.rtakeWhile (·.separator?.isNone) := by
  have hcons : (p :: us.reverse).takeWhile (·.separator?.isNone) = [] :=
    List.takeWhile_cons_of_neg (by simp [hp])
  rw [List.rtakeWhile, List.rtakeWhile, List.reverse_append, List.reverse_cons, List.append_assoc,
    List.singleton_append, List.takeWhile_append, hcons, List.append_nil]
  split
  · rename_i hall
    rw [(List.takeWhile_prefix _).eq_of_length hall]
  · rfl

theorem rtakeWhile_of_forall {us : List Piece} (hus : ∀ p ∈ us, p.separator? = none) :
    us.rtakeWhile (·.separator?.isNone) = us :=
  List.rtakeWhile_eq_self_iff.mpr fun p hp ↦ by simp [hus p hp]

/-- Linking lays its stages over all pieces but those that are left over. -/
theorem exists_laid_of_link {ps : List Piece} {found stages : List Stage} {before : Closer}
    (h : link found before (fragments ps) = .ok stages) :
    ∃ front linked, ps = front ++ leftover ps ∧ stages = found.reverse ++ linked ∧
      Laid front linked := by
  induction ps using fragments_induction generalizing found before with
  | last us hus =>
    rw [fragments_of_forall hus] at h
    rw [leftover, rtakeWhile_of_forall hus]
    rcases link_last_eq_ok_iff.mp h with ⟨s, hs, rfl⟩ | ⟨hvacant, -, rfl⟩
    · rw [if_pos ((Fragment.exists_stage_iff hus none).mp ⟨s, hs⟩).2]
      refine ⟨us ++ [], [_], by simp, rfl, .fragment hus hs (.last _) .nil⟩
    · rw [if_neg ((Fragment.isVacant_iff hus none).mp hvacant).2]
      exact ⟨[], [], rfl, by simp, .nil⟩
  | cons us p sep ps hus hp ih =>
    rw [fragments_append_cons hus hp] at h
    obtain ⟨s, hs, hrest⟩ := link_closed_eq_ok_iff.mp h
    obtain ⟨front, linked, hps, rfl, hlaid⟩ := ih hrest
    have hloose : p.isLoose = true := by simp [Piece.isLoose, hp]
    rw [leftover, rtakeWhile_append_cons us hp, ← leftover]
    refine ⟨us ++ p :: front, linkAfter sep (linkBefore (before == some .pipe) s) :: linked, ?_, ?_,
      .fragment hus hs (.closed _ sep) (.loose hloose hlaid)⟩
    · rw [List.append_assoc, List.cons_append, ← hps]
    · rw [List.reverse_cons, List.append_assoc]
      rfl

/-! ## Phrases and stretches -/

theorem getLast?_phrases (ps : List Piece) :
    (phrases (tokensOf ps)).getLast?
      = some (tokensOf (ps.rtakeWhile (·.separator?.isNone))) := by
  induction ps using fragments_induction with
  | last us hus => rw [phrases_of_forall hus, rtakeWhile_of_forall hus, List.getLast?_singleton]
  | cons us p sep ps hus hp ih =>
    have hne : phrases (tokensOf ps) ≠ [] := List.splitOnP_ne_nil _ _
    obtain ⟨phrase, rest, hcons⟩ := List.exists_cons_of_ne_nil hne
    rw [tokensOf_append_cons us hp, phrases_append_cons hus, rtakeWhile_append_cons us hp, ← ih,
      hcons, List.getLast?_cons_cons]

theorem phrases_append {us : List Piece} (hus : ∀ p ∈ us, p.separator? = none) {ts : List Token}
    {phrase : List Token} {rest : List (List Token)} (h : phrases ts = phrase :: rest) :
    phrases (tokensOf us ++ ts) = (tokensOf us ++ phrase) :: rest := by
  have hnone := separator?_of_mem_tokensOf hus
  generalize tokensOf us = ts' at hnone
  induction ts' with
  | nil => exact h
  | cons t ts' ih =>
    obtain ⟨ht, hts'⟩ := List.forall_mem_cons.mp hnone
    rw [List.cons_append, phrases, List.splitOnP_cons_eq_if_modifyHead, if_neg (by simp [ht]),
      ← phrases, ih hts']
    rfl

/-- No stretch reaches into two phrases, so each phrase with a token needs a stage of its own. -/
theorem Laid.countP_phrases_le {ps : List Piece} {stages : List Stage} (h : Laid ps stages) :
    (phrases (tokensOf ps)).countP (· ≠ []) ≤ stages.length := by
  induction h with
  | nil => decide
  | @loose p ps stages hp _ ih =>
    rw [Piece.isLoose, Bool.or_eq_true, Option.isSome_iff_exists] at hp
    rcases hp with hcomment | ⟨sep, hsep⟩
    · rwa [tokensOf_cons_of_isComment hcomment]
    · have htokens : tokensOf (p :: ps) = tokensOf [] ++ .separator sep :: tokensOf ps :=
        tokensOf_append_cons [] hsep ps
      rw [htokens, phrases_append_cons (by simp), List.countP_cons_of_neg (by simp)]
      exact ih
  | @stage us ps s stages hs _ ih =>
    have hne : phrases (tokensOf ps) ≠ [] := List.splitOnP_ne_nil _ _
    obtain ⟨phrase, rest, hcons⟩ := List.exists_cons_of_ne_nil hne
    rw [hcons, List.countP_cons] at ih
    rw [tokensOf_append, phrases_append hs.separator hcons, List.countP_cons, List.length_cons]
    split <;> omega

theorem HasCommand.ne_nil {ts : List Token} (h : HasCommand ts) : ts ≠ [] := by
  rintro rfl
  obtain ⟨i, -⟩ := h
  exact i.elim0

theorem tokensOf_eq_nil_iff {ps : List Piece} :
    tokensOf ps = [] ↔ ∀ p ∈ ps, p.isComment = true := by
  rw [tokensOf, List.map_eq_nil_iff, List.filter_eq_nil_iff]
  simp

/-- Where as many stages as phrases with a command lie over all pieces, nothing is left over but
comments. -/
theorem Laid.isComment_of_mem_leftover {ps : List Piece} {stages : List Stage}
    (h : Laid ps stages)
    (hlength : stages.length = (phrases (tokensOf ps)).countP fun phrase ↦ HasCommand phrase) :
    ∀ p ∈ leftover ps, p.isComment = true := by
  rw [leftover]
  split
  · simp
  · rename_i hcommand
    rw [← tokensOf_eq_nil_iff]
    by_contra hne
    -- the last phrase has tokens and no command, so there are more phrases with tokens than stages
    have hlast := List.dropLast_append_getLast? _ (getLast?_phrases ps)
    have hle := h.countP_phrases_le
    have hmono : (phrases (tokensOf ps)).dropLast.countP (fun phrase ↦ HasCommand phrase)
        ≤ (phrases (tokensOf ps)).dropLast.countP (· ≠ []) :=
      List.countP_mono_left fun phrase _ hphrase ↦ by
        simpa using (of_decide_eq_true hphrase).ne_nil
    rw [hlength, ← hlast, List.countP_append, List.countP_append, List.countP_singleton,
      List.countP_singleton, if_pos (by simpa using hne), if_neg (by simpa using hcommand)] at hle
    omega

/-- **Nothing else is dropped.** The stages of a plan lie over all pieces of its line but those of a
last fragment without a command, and over these as well exactly when they are comments. -/
theorem laid_iff_of_parse {line : String} {plan : Plan} {ps : List Piece}
    (h : parse line = .ok plan) (hps : pieces line.toList = .ok ps) :
    (∃ front, ps = front ++ leftover ps ∧ Laid front plan.stages) ∧
      (Laid ps plan.stages ↔ ∀ p ∈ leftover ps, p.isComment = true) := by
  obtain ⟨ps', stages, hps', hlink, rfl⟩ := parse_eq_ok_iff.mp h
  obtain rfl : ps' = ps := Except.ok.inj (hps'.symm.trans hps)
  obtain ⟨front, linked, hfront, hlinked, hlaid⟩ := exists_laid_of_link hlink
  obtain rfl : stages = linked := hlinked
  have hlength : stages.length = _ := length_of_link hlink
  rw [List.length_nil, Nat.zero_add] at hlength
  refine ⟨⟨front, hfront, hlaid⟩, fun hall ↦ hall.isComment_of_mem_leftover hlength,
    fun hcomments ↦ ?_⟩
  have hwhole : Laid (front ++ leftover ps') stages :=
    hlaid.append_right fun p hp ↦ by simp [Piece.isLoose, hcomments p hp]
  rwa [← hfront] at hwhole

/-- A comment behind the last separator is all that is left over, and it is not missed. -/
theorem laid_of_parse_before_comment :
    parse "wc < a; # end" = .ok (Plan.ofStages "wc < a; # end"
      [{ argv := ["wc"], text := "wc < a", stdin := .file "a" }]) ∧
    ∃ ps, pieces "wc < a; # end".toList = .ok ps ∧ ps.length = 5 ∧
      Laid ps [{ argv := ["wc"], text := "wc < a", stdin := .file "a" }] := by
  have hplan : parse "wc < a; # end" = .ok (Plan.ofStages "wc < a; # end"
      [{ argv := ["wc"], text := "wc < a", stdin := .file "a" }]) := by
    decide +kernel
  have hps : pieces "wc < a; # end".toList = .ok
      [{ gap := [], raw := ['w', 'c'], token := .word .bare ['w', 'c'] },
        { gap := [' '], raw := ['<'], token := .redirection .input },
        { gap := [' '], raw := ['a'], token := .word .bare ['a'] },
        { gap := [], raw := [';'], token := .separator .semi },
        { gap := [' '], raw := "# end".toList, token := .comment "# end".toList }] := by
    decide +kernel
  exact ⟨hplan, _, hps, rfl, (laid_iff_of_parse hplan hps).2.mpr (by decide)⟩

/-- A redirection alone behind the last separator comes to no stage, and the line is accepted. -/
theorem not_laid_of_parse_lone_redirection :
    parse "ls; > out" = .ok (Plan.ofStages "ls; > out" [{ argv := ["ls"], text := "ls" }]) ∧
    ∃ ps, pieces "ls; > out".toList = .ok ps ∧ ¬Laid ps [{ argv := ["ls"], text := "ls" }] := by
  have hps : pieces "ls; > out".toList = .ok
      [{ gap := [], raw := ['l', 's'], token := .word .bare ['l', 's'] },
        { gap := [], raw := [';'], token := .separator .semi },
        { gap := [' '], raw := ['>'], token := .redirection .overwrite },
        { gap := [' '], raw := ['o', 'u', 't'], token := .word .bare ['o', 'u', 't'] }] := by
    decide +kernel
  refine ⟨by decide +kernel, _, hps, fun h ↦ ?_⟩
  exact absurd h.countP_phrases_le (by decide)

end ShellEngine.Line
