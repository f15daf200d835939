import ShellEngine.Proofs.Line.Losses
import ShellEngine.Proofs.Line.Printing
import ShellEngine.Proofs.Line.Trimming

/-!
# Arguments as a line of their own

A stage that is made of arguments, and was not read from a line, gets a text in which each argument
is quoted where that seems necessary, for a new instance to read. The text is read as the same stage
unless an argument holds a single quote, or a hash sign without anything that makes it be quoted
(`ReadsBack`), and only then: `parse_ofArgv_iff`.

The two exceptions are places where quoting and reading disagree. A single quote is written as
`'\''`, which takes a backslash outside of quotes for an escape; to the lexer it is a character like
any other, and the quotes pair up differently from there on. A hash sign is no reason to quote, and
begins a comment even inside of a word.

## How the text fails

What is read in place of a faulty argument may be anything, since a line feed in a later argument
ends a comment and other quotes may close an open one. The proof does not follow it. Quoting adds no
character that a comment, an operator or a double-quoted word would have to take from the text, so a
text that gives its arguments back is made of single-quoted and bare words alone
(`isWhole_of_argv_eq`). Then the backslashes that quoting added are still there, and the first bare
hash sign still begins a comment.
-/

namespace ShellEngine.Line

/-! ## Quoted arguments -/

def isQuoted (arg : String) : Bool := arg.toList.isEmpty || arg.toList.any needsQuotes

/-- A text as it is written between single quotes, each single quote outside of them. -/
def shield (text : List Char) : List Char :=
  text.flatMap fun c ↦ if c == '\'' then ['\'', '\\', '\'', '\''] else [c]

theorem toList_quoteArgument (arg : String) :
    (quoteArgument arg).toList
      = if isQuoted arg then '\'' :: shield arg.toList ++ ['\''] else arg.toList := by
  have hplain : (!arg.toList.isEmpty && !arg.toList.any needsQuotes) = !isQuoted arg :=
    (Bool.not_or _ _).symm
  rw [quoteArgument, hplain]
  cases isQuoted arg with
  | true => exact String.toList_ofList
  | false => rfl

theorem shield_of_not_mem {text : List Char} (h : '\'' ∉ text) : shield text = text := by
  induction text with
  | nil => rfl
  | cons c text ih =>
    obtain ⟨hc, htext⟩ := not_or.mp (List.mem_cons.not.mp h)
    rw [shield, List.flatMap_cons, ← shield, ih htext]
    simp [Ne.symm hc]

/-- A character is kept as it is in an argument that is not quoted, and ends no word there unless it
is the hash sign. -/
theorem endsWord_of_not_isQuoted {arg : String} (h : isQuoted arg = false) {c : Char}
    (hc : c ∈ arg.toList) : Text.isBlank c = false ∧ (c ≠ '#' → endsWord c = false) := by
  obtain ⟨-, hneeds⟩ := Bool.or_eq_false_iff.mp h
  have hplain : needsQuotes c = false := by simpa using List.any_eq_false.mp hneeds c hc
  obtain ⟨hblank, hspecial⟩ := Bool.or_eq_false_iff.mp hplain
  refine ⟨hblank, fun hhash ↦ ?_⟩
  have hgap : isGap c = false := by
    rw [← Bool.not_eq_true]
    intro hgap
    rw [isBlank_of_isGap hgap] at hblank
    cases hblank
  simp_all [endsWord]

/-- An argument that is read as it was written: it holds no single quote, and no hash sign unless
something makes it be quoted. -/
structure ReadsBack (arg : String) : Prop where
  noQuote : '\'' ∉ arg.toList
  hash : '#' ∈ arg.toList → isQuoted arg = true

theorem readsBack_iff {arg : String} :
    ReadsBack arg ↔ '\'' ∉ arg.toList ∧ ('#' ∈ arg.toList → isQuoted arg = true) :=
  ⟨fun h ↦ ⟨h.noQuote, h.hash⟩, fun h ↦ ⟨h.1, h.2⟩⟩

instance (arg : String) : Decidable (ReadsBack arg) := decidable_of_iff' _ readsBack_iff

def argumentPiece (arg : String) : Piece :=
  .spaced (quoteArgument arg) (.word (if isQuoted arg then .single else .bare) arg.toList)

theorem spaced_argumentPiece {arg : String} (h : ReadsBack arg) : (argumentPiece arg).Spaced := by
  rw [argumentPiece, Piece.spaced, toList_quoteArgument]
  cases hquoted : isQuoted arg with
  | true =>
    rw [if_pos rfl, if_pos rfl, shield_of_not_mem h.noQuote]
    refine ⟨rfl, fun rest _ ↦ .single (fun d hd ↦ ?_) rest, ?_, ?_⟩
    · rintro rfl
      exact h.noQuote hd
    · rintro c ⟨⟩
      rfl
    · rw [List.getLast?_concat]
      rintro c ⟨⟩
      rfl
  | false =>
    simp only [Bool.false_eq_true, if_false]
    have hword : ∀ d ∈ arg.toList, endsWord d = false := fun d hd ↦
      (endsWord_of_not_isQuoted hquoted hd).2 fun hhash ↦ by
        rw [hhash] at hd
        rw [h.hash hd] at hquoted
        cases hquoted
    have hblank : ∀ d ∈ arg.toList, Text.isBlank d = false := fun d hd ↦
      (endsWord_of_not_isQuoted hquoted hd).1
    refine ⟨rfl, fun rest hrest ↦ ?_, ?_, ?_⟩
    · obtain ⟨hne, -⟩ := Bool.or_eq_false_iff.mp hquoted
      obtain ⟨c, cs, hcs⟩ := List.exists_cons_of_ne_nil (List.isEmpty_eq_false_iff.mp hne)
      rw [hcs] at hword ⊢
      refine .bare hword (fun d hd ↦ ?_) fun _ ↦ head?_ne_of_space hrest (by decide)
      rw [hrest d hd]
      rfl
    · exact fun d hd ↦ hblank d (List.mem_of_mem_head? hd)
    · exact fun d hd ↦ hblank d (List.mem_of_getLast? hd)

/-! ## Reading arguments that read back -/

/-- Words with gaps between them are an argument each. -/
theorem Draft.foldlM_of_words {ps : List Piece}
    (h : ∀ p ∈ ps, p.gap ≠ [] ∧ ∃ quoting text, p.token = .word quoting text) {d : Draft}
    (hd : d.pending = none) :
    ∃ growing, ps.foldlM Draft.add d = .ok
      { d with
        argv := (ps.filterMap fun p ↦ p.token.value?.map String.ofList).reverse ++ d.argv
        growing } := by
  induction ps generalizing d with
  | nil => exact ⟨d.growing, rfl⟩
  | cons p ps ih =>
    obtain ⟨⟨hgap, quoting, text, hp⟩, hps⟩ := List.forall_mem_cons.mp h
    have hadd : d.add p = .ok { d with argv := String.ofList text :: d.argv, growing := true } := by
      rw [Draft.add_of_word hp, Draft.addWord, hd]
      simp [hgap]
    obtain ⟨growing, hrest⟩ := ih hps
      (d := { d with argv := String.ofList text :: d.argv, growing := true }) hd
    refine ⟨growing, ?_⟩
    rw [List.foldlM_cons, hadd]
    refine hrest.trans ?_
    simp [hp, Token.value?]

theorem text_ofArgv {argv : List String} (h : ∀ arg ∈ argv, ReadsBack arg) :
    (Stage.ofArgv argv).text = String.ofList (sourceOf (closeGap (argv.map argumentPiece))) := by
  refine intercalate_eq (fun p hp ↦ ?_) ?_
  · obtain ⟨arg, harg, rfl⟩ := List.mem_map.mp hp
    exact spaced_argumentPiece (h arg harg)
  · rw [List.map_map, List.map_map]
    rfl

/-- The text of arguments that read back makes a plan of their stage. -/
theorem parse_ofArgv {argv : List String} (hne : argv ≠ []) (h : ∀ arg ∈ argv, ReadsBack arg) :
    parse (Stage.ofArgv argv).text = .ok (Plan.single (Stage.ofArgv argv)) := by
  have hspaced : ∀ p ∈ argv.map argumentPiece, p.Spaced := fun p hp ↦ by
    obtain ⟨arg, harg, rfl⟩ := List.mem_map.mp hp
    exact spaced_argumentPiece (h arg harg)
  have hword : ∀ p ∈ argv.map argumentPiece, p.separator? = none ∧ p.isComment = false :=
    fun p hp ↦ by
      obtain ⟨arg, -, rfl⟩ := List.mem_map.mp hp
      exact ⟨rfl, rfl⟩
  have hstretch : Stretch (argv.map argumentPiece) [] :=
    ⟨standing_of_spaced hspaced, fun p hp ↦ (hword p hp).1,
      fun p hp ↦ (hword p (List.mem_of_mem_head? hp)).2,
      fun p hp ↦ (hword p (List.mem_of_getLast? hp)).2⟩
  have hwords : ∀ p ∈ argv.map argumentPiece,
      p.gap ≠ [] ∧ ∃ quoting text, p.token = .word quoting text := fun p hp ↦ by
    obtain ⟨arg, -, rfl⟩ := List.mem_map.mp hp
    exact ⟨List.cons_ne_nil _ _, _, _, rfl⟩
  obtain ⟨growing, hd⟩ := Draft.foldlM_of_words hwords (d := {}) rfl
  have hvalues : (argv.map argumentPiece).filterMap (fun p ↦ p.token.value?.map String.ofList)
      = argv := by
    rw [List.filterMap_map]
    simp [argumentPiece, Piece.spaced, Token.value?, Function.comp_def]
  rw [hvalues, List.append_nil] at hd
  have hstage : Draft.stage { argv := argv.reverse, growing } none
      (sourceOf (closeGap (argv.map argumentPiece))) = .ok (Stage.ofArgv argv) := by
    refine Draft.stage_eq_ok_iff.mpr ⟨rfl, by simpa using hne, ?_⟩
    rw [List.reverse_reverse, ← text_ofArgv h]
    rfl
  have htrim : Text.trim (Stage.ofArgv argv).text.toList = (Stage.ofArgv argv).text.toList := by
    rw [text_ofArgv h, String.toList_ofList]
    exact trim_of_spaced hspaced
  rw [hstretch.parse_eq_ok hd hstage, htrim, String.ofList_toList]
  rfl

/-! ## The characters of a text -/

theorem countP_shield {q : Char → Bool} (hq : q '\'' = false) (text : List Char) :
    (shield text).countP q = text.countP q + if q '\\' then text.count '\'' else 0 := by
  induction text with
  | nil => simp [shield]
  | cons c text ih =>
    rw [shield, List.flatMap_cons, ← shield, List.countP_append, ih, List.countP_cons,
      List.count_cons]
    by_cases hc : c = '\''
    · subst hc
      cases hb : q '\\' <;> simp [hq, hb]
      omega
    · simp [hc]
      omega

theorem not_mem_of_not_isQuoted {arg : String} (h : isQuoted arg = false) :
    '\'' ∉ arg.toList := by
  intro hmem
  have hends := (endsWord_of_not_isQuoted h hmem).2 (by decide)
  exact absurd hends (by decide)

theorem countP_quoteArgument {q : Char → Bool} (hq : q '\'' = false) (arg : String) :
    (quoteArgument arg).toList.countP q
      = arg.toList.countP q + if q '\\' then arg.toList.count '\'' else 0 := by
  rw [toList_quoteArgument]
  cases hquoted : isQuoted arg with
  | true =>
    rw [if_pos rfl, List.cons_append, List.countP_cons_of_neg (by simp [hq]), List.countP_append,
      List.countP_cons_of_neg (by simp [hq]), List.countP_nil, countP_shield hq, Nat.add_zero]
  | false => simp [List.count_eq_zero.mpr (not_mem_of_not_isQuoted hquoted)]

theorem countP_intercalate {q : Char → Bool} {c : Char} (hc : q c = false)
    (ls : List (List Char)) : ([c].intercalate ls).countP q = ls.flatten.countP q := by
  induction ls with
  | nil => rfl
  | cons l ls ih =>
    cases ls with
    | nil => simp [List.intercalate]
    | cons l' ls =>
      rw [List.intercalate_cons_cons, List.countP_append, List.countP_append, ih,
        List.countP_cons_of_neg (by simp [hc]), List.countP_nil, Nat.add_zero,
        List.flatten_cons (l := l), List.countP_append]

def argumentsText (argv : List String) : List Char :=
  [' '].intercalate (argv.map fun arg ↦ (quoteArgument arg).toList)

theorem toList_text_ofArgv (argv : List String) :
    (Stage.ofArgv argv).text.toList = argumentsText argv := by
  rw [Stage.ofArgv, String.toList_intercalate, List.map_map]
  rfl

theorem countP_argumentsText {q : Char → Bool} (hq : q '\'' = false) (hspace : q ' ' = false)
    (argv : List String) :
    (argumentsText argv).countP q = (argv.flatMap String.toList).countP q
      + if q '\\' then (argv.flatMap String.toList).count '\'' else 0 := by
  rw [argumentsText, countP_intercalate hspace]
  induction argv with
  | nil => simp
  | cons arg argv ih =>
    rw [List.map_cons, List.flatten_cons, List.countP_append, ih, countP_quoteArgument hq,
      List.flatMap_cons, List.countP_append, List.count_append]
    cases q '\\' <;> simp
    omega

/-! ## Texts that give their arguments back -/

theorem forall_isGap {q : Char → Bool}
    (h : [' ', '\t', '\r', '\n', '\x0c'].all (fun c ↦ !q c) = true) :
    ∀ c, isGap c = true → q c = false := by
  intro c hc
  simp only [isGap, Bool.or_eq_true, beq_iff_eq] at hc
  rcases hc with (((rfl | rfl) | rfl) | rfl) | rfl
  all_goals simpa using List.all_eq_true.mp h _ (by simp)

theorem isWhole_of_argv_eq {argv : List String} {ps : List Piece} {tail : List Char} {s : Stage}
    (hsource : argumentsText argv = sourceOf ps ++ tail) (hps : Standing ps tail)
    (htail : ∀ c ∈ tail, isGap c = true) (hlink : link [] none (fragments ps) = .ok [s])
    (hargv : s.argv = argv) : ∀ p ∈ ps, p.token.isWhole = true := by
  have hgap : ∀ c, isGap c = true → isConsumed c = false := forall_isGap (by decide)
  have hnone : tail.countP isConsumed = 0 :=
    List.countP_eq_zero.mpr fun c hc ↦ by simp [hgap c (htail c hc)]
  have htext := countP_argumentsText (q := isConsumed) (by decide) (by decide) argv
  rw [hsource, List.countP_append, hnone, if_neg (by decide)] at htext
  -- From the text to the words, and from these to the arguments, it only gets less.
  have hread := countP_flatMap_wordText_le hps
  have hkept := (flatMap_argv_sublist hlink).countP_le (p := isConsumed)
  rw [hargv] at hkept
  have hlost : ps.countP (!·.token.isWhole) = 0 := by omega
  intro p hp
  simpa using List.countP_eq_zero.mp hlost p hp

theorem noQuote_of_argv_eq {argv : List String} {ps : List Piece} {tail : List Char} {s : Stage}
    (hsource : argumentsText argv = sourceOf ps ++ tail) (hps : Standing ps tail)
    (htail : ∀ c ∈ tail, isGap c = true) (hlink : link [] none (fragments ps) = .ok [s])
    (hargv : s.argv = argv) : '\'' ∉ argv.flatMap String.toList := by
  have hwhole := isWhole_of_argv_eq hsource hps htail hlink hargv
  have hgap : ∀ c, isGap c = true → (c == '\\') = false := forall_isGap (by decide)
  have hnone : tail.countP (· == '\\') = 0 :=
    List.countP_eq_zero.mpr fun c hc ↦ by simp [hgap c (htail c hc)]
  have htext := countP_argumentsText (q := (· == '\\')) (by decide) (by decide) argv
  rw [hsource, List.countP_append, hnone, if_pos (by decide),
    countP_of_forall_isWhole hps hwhole (by decide) hgap,
    ← flatMap_argv_of_forall_isWhole hlink hwhole, hargv] at htext
  exact List.count_eq_zero.mp (by omega)

theorem head?_ne_hash_of_isWhole {ps : List Piece} {tail : List Char} (hps : Standing ps tail)
    (htail : ∀ c ∈ tail, isGap c = true) (hwhole : ∀ p ∈ ps, p.token.isWhole = true) :
    (sourceOf ps ++ tail).head? ≠ some '#' := by
  intro hhash
  have hgap : isGap '#' = false := by decide
  cases ps with
  | nil =>
    rw [htail '#' (List.mem_of_mem_head? hhash)] at hgap
    cases hgap
  | cons p ps =>
    obtain ⟨hgaps, hstands, -⟩ := hps
    obtain ⟨c, cs, hraw, -⟩ := hstands.exists_cons
    cases hp : p.gap with
    | cons d ds =>
      simp only [sourceOf_cons, hp, List.cons_append, List.head?_cons, Option.some.injEq] at hhash
      rw [← hhash, hgaps d (by simp [hp])] at hgap
      cases hgap
    | nil =>
      simp only [sourceOf_cons, hp, hraw, List.nil_append, List.cons_append, List.head?_cons,
        Option.some.injEq] at hhash
      subst hhash
      rw [hraw] at hstands
      have hcomment := hwhole p List.mem_cons_self
      rw [hstands.of_hash_head] at hcomment
      cases hcomment

/-- The first word of a text without single quotes is its first argument, and no bare hash sign is
in it. -/
theorem readsBack_of_isWhole {arg : String} {p : Piece} {ps : List Piece}
    {after tail : List Char} (hquote : '\'' ∉ arg.toList)
    (hsource : p.raw ++ (sourceOf ps ++ tail) = (quoteArgument arg).toList ++ after)
    (hps : Standing (p :: ps) tail) (hafter : ∀ c ∈ after.head?, c = ' ')
    (htail : ∀ c ∈ tail, isGap c = true) (hwhole : ∀ q ∈ p :: ps, q.token.isWhole = true) :
    ReadsBack arg ∧ sourceOf ps ++ tail = after := by
  obtain ⟨-, hstands, hrest⟩ := hps
  have hback : ReadsBack arg := by
    refine ⟨hquote, fun hhash ↦ ?_⟩
    by_contra hquoted
    rw [Bool.not_eq_true] at hquoted
    rw [toList_quoteArgument, hquoted] at hsource
    obtain ⟨before, behind, harg, hbefore⟩ := List.eq_append_cons_of_mem hhash
    rw [if_neg (by simp), harg, List.append_assoc] at hsource
    cases before with
    | nil =>
      have hbare : Standing ({ p with gap := [] } :: ps) tail := ⟨by simp, hstands, hrest⟩
      have hhead := head?_ne_hash_of_isWhole hbare htail
        (List.forall_mem_cons.mpr (List.forall_mem_cons.mp hwhole))
      rw [sourceOf_cons, List.nil_append, List.append_assoc, hsource] at hhead
      exact hhead rfl
    | cons c cs =>
      have hword : Stands (c :: cs) (.word .bare (c :: cs)) ('#' :: behind ++ after) := by
        refine .bare (fun d hd ↦ ?_) (fun d hd ↦ ?_) (fun _ ↦ by simp)
        · have hmem : d ∈ arg.toList := by
            rw [harg]
            exact List.mem_append_left _ hd
          refine (endsWord_of_not_isQuoted hquoted hmem).2 ?_
          rintro rfl
          exact hbefore hd
        · cases hd
          rfl
      obtain ⟨-, -, hbehind⟩ := hstands.unique hword hsource
      have hhead := head?_ne_hash_of_isWhole hrest htail (List.forall_mem_cons.mp hwhole).2
      rw [hbehind] at hhead
      exact hhead rfl
  have hread := (spaced_argumentPiece hback).stands after hafter
  exact ⟨hback, (hstands.unique hread hsource).2.2⟩

theorem quoteArgument_head (arg : String) :
    ∃ c cs, (quoteArgument arg).toList = c :: cs ∧ isGap c = false := by
  rw [toList_quoteArgument]
  cases hquoted : isQuoted arg with
  | true => exact ⟨'\'', _, rfl, rfl⟩
  | false =>
    obtain ⟨hne, -⟩ := Bool.or_eq_false_iff.mp hquoted
    obtain ⟨c, cs, hcs⟩ := List.exists_cons_of_ne_nil (List.isEmpty_eq_false_iff.mp hne)
    refine ⟨c, cs, hcs, ?_⟩
    rw [← Bool.not_eq_true]
    intro hgap
    have hblank := (endsWord_of_not_isQuoted hquoted (hcs ▸ List.mem_cons_self)).1
    rw [isBlank_of_isGap hgap] at hblank
    cases hblank

theorem argumentsText_cons (arg : String) (argv : List String) :
    ∃ after, argumentsText (arg :: argv) = (quoteArgument arg).toList ++ after ∧
      (∀ c ∈ after.head?, c = ' ') ∧ (argv ≠ [] → after = [' '] ++ argumentsText argv) := by
  cases argv with
  | nil => exact ⟨[], by simp [argumentsText, List.intercalate], by simp, fun h ↦ absurd rfl h⟩
  | cons arg' argv =>
    refine ⟨[' '] ++ argumentsText (arg' :: argv), ?_, by simp, fun _ ↦ rfl⟩
    rw [argumentsText, List.map_cons, List.map_cons, List.intercalate_cons_cons, List.append_assoc]
    rfl

/-- Two ways to part a text into gaps and something that begins otherwise are one. -/
theorem gap_unique {gap gap' text text' : List Char} (hgap : ∀ c ∈ gap, isGap c = true)
    (hgap' : ∀ c ∈ gap', isGap c = true) (htext : ∀ c ∈ text.head?, isGap c = false)
    (htext' : ∀ c ∈ text'.head?, isGap c = false) (h : gap ++ text = gap' ++ text') :
    text = text' := by
  rw [← (Text.takeWhile_append_of_head? hgap htext).2, h,
    (Text.takeWhile_append_of_head? hgap' htext').2]

/-- Whole words that spell arguments without single quotes spell arguments that read back. -/
theorem readsBack_of_forall_isWhole {argv : List String} {ps : List Piece}
    {blanks tail : List Char} (hblanks : ∀ c ∈ blanks, isGap c = true)
    (hsource : blanks ++ argumentsText argv = sourceOf ps ++ tail) (hps : Standing ps tail)
    (htail : ∀ c ∈ tail, isGap c = true) (hwhole : ∀ p ∈ ps, p.token.isWhole = true)
    (hquote : ∀ arg ∈ argv, '\'' ∉ arg.toList) : ∀ arg ∈ argv, ReadsBack arg := by
  induction argv generalizing ps blanks with
  | nil => simp
  | cons arg argv ih =>
    obtain ⟨hargquote, hargvquote⟩ := List.forall_mem_cons.mp hquote
    obtain ⟨after, htext, hafter, hrest⟩ := argumentsText_cons arg argv
    obtain ⟨c, cs, hhead, hc⟩ := quoteArgument_head arg
    rw [htext] at hsource
    cases ps with
    | nil =>
      rw [sourceOf_nil, List.nil_append] at hsource
      rw [htail c (by rw [← hsource]; simp [hhead])] at hc
      cases hc
    | cons p ps =>
      obtain ⟨d, ds, hraw, hd⟩ := hps.2.1.exists_cons
      rw [sourceOf_cons, List.append_assoc, List.append_assoc] at hsource
      have hword := gap_unique hps.1 hblanks (by simpa [hraw] using hd) (by simpa [hhead] using hc)
        hsource.symm
      obtain ⟨hback, hbehind⟩ := readsBack_of_isWhole hargquote hword hps hafter htail hwhole
      refine List.forall_mem_cons.mpr ⟨hback, ?_⟩
      by_cases hnil : argv = []
      · simp [hnil]
      · have hspace : ∀ c ∈ [' '], isGap c = true := by simp [isGap]
        exact ih hspace (by rw [hbehind, hrest hnil]) hps.2.2 (List.forall_mem_cons.mp hwhole).2
          hargvquote

/-- **Arguments read back exactly when quoting and reading agree.** The text of a stage that is made
of arguments is read as one stage with these arguments when each of them reads back, and then as
that stage itself. -/
theorem parse_ofArgv_iff {argv : List String} (hne : argv ≠ []) :
    ((∃ plan s, parse (Stage.ofArgv argv).text = .ok plan ∧ plan.stages = [s] ∧ s.argv = argv) ↔
        ∀ arg ∈ argv, ReadsBack arg) ∧
      ((∀ arg ∈ argv, ReadsBack arg) →
        parse (Stage.ofArgv argv).text = .ok (Plan.single (Stage.ofArgv argv))) := by
  refine ⟨⟨?_, fun h ↦ ⟨_, _, parse_ofArgv hne h, rfl, rfl⟩⟩, parse_ofArgv hne⟩
  rintro ⟨plan, s, hparse, hstages, hargv⟩
  obtain ⟨ps, stages, hpieces, hlink, rfl⟩ := parse_eq_ok_iff.mp hparse
  obtain rfl : stages = [s] := hstages
  obtain ⟨tail, hsource, hps, htail⟩ := pieces_eq_ok_iff.mp hpieces
  rw [toList_text_ofArgv] at hsource
  have hquote := noQuote_of_argv_eq hsource hps htail hlink hargv
  exact readsBack_of_forall_isWhole (List.forall_mem_nil _) hsource hps htail
    (isWhole_of_argv_eq hsource hps htail hlink hargv)
    fun arg harg hmem ↦ hquote (List.mem_flatMap.mpr ⟨arg, harg, hmem⟩)

/-- Blanks, operators and a hash sign with a blank beside it are quoted and read back. -/
theorem parse_ofArgv_of_blanks :
    ["echo", "two words", "", "# &", "2>\n"] ≠ [] ∧
      parse "echo 'two words' '' '# &' '2>\n'"
        = .ok (Plan.single (Stage.ofArgv ["echo", "two words", "", "# &", "2>\n"])) := by
  have hback : ∀ arg ∈ ["echo", "two words", "", "# &", "2>\n"], ReadsBack arg := by
    decide +kernel
  have htext : (Stage.ofArgv ["echo", "two words", "", "# &", "2>\n"]).text
      = "echo 'two words' '' '# &' '2>\n'" := by
    decide +kernel
  rw [← htext]
  exact ⟨by simp, (parse_ofArgv_iff (by simp)).2 hback⟩

/-- A single quote in an argument leaves the text with a quote that nothing closes. -/
theorem parse_ofArgv_of_quote :
    (Stage.ofArgv ["echo", "two words", "it's"]).text = "echo 'two words' 'it'\\''s'" ∧
      parse "echo 'two words' 'it'\\''s'" = .error (.tokens [.unterminated]) ∧
      parse (Stage.ofArgv ["echo", "#x"]).text
        = .ok (Plan.ofStages "echo #x" [{ argv := ["echo"], text := "echo" }]) := by
  refine ⟨?_, ?_, ?_⟩ <;> decide +kernel

end ShellEngine.Line
