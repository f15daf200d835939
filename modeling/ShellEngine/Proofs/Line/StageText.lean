import ShellEngine.Proofs.Line.Linking

/-!
# The text of a stage as a line of its own

A stage carries the stretch of the line that it was read from, and a stage that is handed to another
instance is handed over as that text. Read as a line, the text gives the stage back, without its
links to the stages around it: the stretch is cut out between tokens, and each token of it still
stands where it stood (`Standing.of_isPrefix`).

## The exception

The text of a stage may end in what is left of `2>&1`, a word in front of an ampersand. The stretch
does not contain the ampersand, so there the word is an operator, and its target is missing. A text
ends that way exactly when its last character is `>`: the other tokens that end so are operators,
and no stage ends with an operator.
-/

namespace ShellEngine

/-- A stage without its links to the stages around it. -/
def Stage.alone (s : Stage) : Stage :=
  { s with
    stdin := if s.stdin = .pipe then .inherit else s.stdin
    stdout := if s.stdout = .pipe then .inherit else s.stdout
    next := .unconditional
    waits := true
    graceful := false }

namespace Line

/-! ## The streams of a draft -/

namespace Draft

/-- No stream of the draft is a pipe: only links make pipes. -/
structure Unpiped (d : Draft) : Prop where
  stdin : d.stdin ≠ some .pipe
  stdout : d.stdout ≠ some .pipe

theorem Unpiped.redirect {d : Draft} (h : d.Unpiped) (r : Redirection) (path : String) :
    (d.redirect r path).Unpiped := by
  cases r with
  | input =>
    refine ⟨?_, h.stdout⟩
    rcases inputOf_eq path with hpath | hpath <;> simp [Draft.redirect, hpath]
  | overwrite =>
    refine ⟨h.stdin, ?_⟩
    rcases overwriteOf_eq path with hpath | hpath <;> simp [Draft.redirect, hpath]
  | append =>
    refine ⟨h.stdin, ?_⟩
    rcases appendOf_eq path with hpath | hpath <;> simp [Draft.redirect, hpath]
  | errOverwrite => exact ⟨h.stdin, h.stdout⟩
  | errAppend => exact ⟨h.stdin, h.stdout⟩

theorem unpiped_of_ofPieces {ps : List Piece} {d : Draft} (h : ofPieces ps = .ok d) : d.Unpiped :=
  invariant_of_ofPieces ⟨by simp, by simp⟩ (fun _ _ _ _ hd ↦ ⟨hd.stdin, hd.stdout⟩)
    (fun _ r path hd ↦ hd.redirect r path) (fun _ hd ↦ ⟨hd.stdin, hd.stdout⟩) h

theorem alone_of_stage {d : Draft} {closer : Closer} {text : List Char} {stage : Stage}
    (hd : d.Unpiped) (h : d.stage closer text = .ok stage) : stage.alone = stage := by
  obtain ⟨-, -, rfl⟩ := stage_eq_ok_iff.mp h
  have hstdin : d.stdin.getD .inherit ≠ .pipe := by
    intro hpipe
    exact hd.stdin ((Option.getD_eq_iff.mp hpipe).resolve_right (by simp))
  have hstdout : d.stdout.getD .inherit ≠ .pipe := by
    intro hpipe
    exact hd.stdout ((Option.getD_eq_iff.mp hpipe).resolve_right (by simp))
  simp only [Stage.alone, hstdin, hstdout, if_false]

end Draft

theorem linkBefore_alone (piped : Bool) (s : Stage) : (linkBefore piped s).alone = s.alone := by
  unfold linkBefore
  split
  · simp_all [Stage.alone]
  · rfl

theorem linkAfter_alone (closer : Separator) (s : Stage) :
    (linkAfter closer s).alone = s.alone := by
  cases closer with
  | pipe =>
    rw [linkAfter, Stage.alone, Stage.alone]
    by_cases hout : s.stdout = .inherit <;> simp [hout]
  | _ => rfl

theorem Links.alone_eq {stage s : Stage} (h : Links stage s) : s.alone = stage.alone := by
  cases h with
  | last piped => exact linkBefore_alone piped stage
  | closed piped closer => rw [linkAfter_alone, linkBefore_alone]

/-! ## One command read as a line -/

/-- The pieces of one command in front of `rest`: no separator among them and no comment at their
ends. -/
structure Stretch (us : List Piece) (rest : List Char) : Prop where
  standing : Standing us rest
  separator : ∀ p ∈ us, p.separator? = none
  head : ∀ p ∈ us.head?, p.isComment = false
  last : ∀ p ∈ us.getLast?, p.isComment = false

/-- Each stage of a plan is that of a stretch of its line. -/
theorem exists_stretch {line : String} {plan : Plan} {s : Stage} (h : parse line = .ok plan)
    (hs : s ∈ plan.stages) :
    ∃ us rest d closer stage, Stretch us rest ∧ Draft.ofPieces us = .ok d ∧
      d.stage closer (sourceOf (closeGap us)) = .ok stage ∧ Links stage s := by
  obtain ⟨ps, stages, hps, hlink, rfl⟩ := parse_eq_ok_iff.mp h
  obtain ⟨tail, -, hstanding, -⟩ := pieces_eq_ok_iff.mp hps
  obtain ⟨f, hf, stage, hstage, hlinks⟩ := (exists_fragment_of_mem_link hlink hs).resolve_left
    (by simp)
  obtain ⟨⟨before, after, hcut⟩, hseparator⟩ := exists_append_of_mem_fragments hf
  obtain ⟨left, right, hstrip, -, -, hhead, hlast⟩ := Text.exists_strip Piece.isComment f.pieces
  rw [← bareSpan_eq_strip] at hstrip hhead hlast
  rw [f.stage_eq, spanText_eq] at hstage
  obtain ⟨d, hd, hstage⟩ := bind_eq_ok_iff.mp hstage
  have hfragment : Standing f.pieces (sourceOf after ++ tail) := by
    rw [hcut] at hstanding
    exact (standing_append.mp (standing_append.mp hstanding).1).2
  have hspan : Standing (bareSpan f.pieces) (sourceOf right ++ (sourceOf after ++ tail)) := by
    rw [hstrip] at hfragment
    exact (standing_append.mp (standing_append.mp hfragment).1).2
  refine ⟨bareSpan f.pieces, _, d, f.closer, stage, ⟨hspan, ?_, hhead, hlast⟩, hd, hstage, hlinks⟩
  intro p hp
  refine hseparator p ?_
  rw [hstrip]
  exact List.mem_append_left _ (List.mem_append_right _ hp)

theorem stretch_closeGap {us : List Piece} {rest : List Char} (h : Stretch us rest) :
    Stretch (closeGap us) rest := by
  cases us with
  | nil => exact h
  | cons p us =>
    refine ⟨standing_closeGap h.standing, separator?_closeGap h.separator, ?_, ?_⟩
    · intro q hq
      cases hq
      exact h.head p rfl
    · cases us with
      | nil =>
        intro q hq
        cases hq
        exact h.last p rfl
      | cons p' us => exact h.last

/-- A line that is one command makes a plan of one stage, if any. -/
theorem Stretch.parse_eq {us : List Piece} (h : Stretch us []) {text : List Char}
    (htext : text = sourceOf (closeGap us)) :
    parse (String.ofList text) = (Draft.ofPieces us).bind fun d ↦
      if d.isVacant then .ok (Plan.ofStages (String.ofList (Text.trim text)) [])
      else (d.stage none text).map fun s ↦ Plan.ofStages (String.ofList (Text.trim text)) [s] := by
  have hspan : bareSpan (closeGap us) = closeGap us :=
    Text.strip_of_ends (stretch_closeGap h).head (stretch_closeGap h).last
  have hpieces : pieces text = .ok (closeGap us) :=
    pieces_eq_ok_iff.mpr ⟨[], by simp [htext], (stretch_closeGap h).standing, by simp⟩
  have hstage := Fragment.stage_eq { pieces := closeGap us, closer := none }
  have hvacant := Fragment.isVacant_eq { pieces := closeGap us, closer := none }
  rw [spanText_eq, hspan, closeGap_closeGap, Draft.ofPieces_closeGap, ← htext] at hstage
  rw [hspan, Draft.ofPieces_closeGap] at hvacant
  rw [parse_ofList hpieces, fragments_of_forall (stretch_closeGap h).separator, link, hstage,
    hvacant]
  cases Draft.ofPieces us with
  | error e => rfl
  | ok d =>
    simp only [Except.map, Except.bind, bind]
    cases d.isVacant with
    | true => rfl
    | false => cases d.stage none text <;> rfl

/-- Left alone, a command makes the stage that it makes in a line. -/
theorem Stretch.parse_eq_ok {us : List Piece} (h : Stretch us []) {d : Draft} {closer : Closer}
    {s : Stage} (hd : Draft.ofPieces us = .ok d)
    (hs : d.stage closer (sourceOf (closeGap us)) = .ok s) :
    parse s.text = .ok (Plan.ofStages (String.ofList (Text.trim s.text.toList)) [s]) := by
  obtain ⟨hpending, hargv, hstage⟩ := Draft.stage_eq_ok_iff.mp hs
  have hvacant : d.isVacant = false := by simp [Draft.isVacant, hargv]
  have halone : d.stage none (sourceOf (closeGap us)) = .ok s :=
    Draft.stage_eq_ok_iff.mpr ⟨hpending, hargv, hstage⟩
  have htext : s.text = String.ofList (sourceOf (closeGap us)) := by rw [hstage]
  rw [htext, h.parse_eq rfl, hd, String.toList_ofList, Except.bind, hvacant, halone]
  rfl

/-! ## The last character -/

/-- Of the tokens that may end a command, one ends in `>`. -/
theorem Stands.getLast?_eq_iff {raw rest : List Char} {token : Token} (h : Stands raw token rest)
    (hcomment : ∀ text, token ≠ .comment text) (hseparator : ∀ s, token ≠ .separator s)
    (hoperator : ∀ r, token ≠ .redirection r) : raw.getLast? = some '>' ↔ token = .broken := by
  cases h with
  | errToOut => simp [Token.broken]
  | broken => simp
  | bare hword =>
    rename_i c cs
    constructor
    · intro hlast
      simpa [endsWord] using hword '>' (List.mem_of_getLast? hlast)
    · intro hbroken
      rw [Token.broken, Token.word.injEq] at hbroken
      simpa [endsWord] using hword '>' (by simp [hbroken.2])
  | single | double =>
    rw [List.getLast?_concat]
    simp [Token.broken]
  | comment => exact absurd rfl (hcomment _)
  | append | overwrite | input | errAppend | errOverwrite => exact absurd rfl (hoperator _)
  | _ => exact absurd rfl (hseparator _)

theorem Draft.add_ne_redirection {d d' : Draft} {p : Piece} (h : d.add p = .ok d')
    (hpending : d'.pending = none) (r : Redirection) : p.token ≠ .redirection r := by
  intro hr
  rcases add_cases h with ⟨_, _, hp, -⟩ | ⟨r', -, -, rfl⟩ | ⟨hp, -⟩ | ⟨hp | hp, -⟩
  · rw [hr] at hp
    cases hp
  · cases hpending
  · rw [hr] at hp
    cases hp
  · simp [Piece.isComment, hr] at hp
  · simp [Piece.separator?, hr] at hp

theorem Stretch.getLast?_eq_iff {us : List Piece} {p : Piece} {rest : List Char} {d : Draft}
    (h : Stretch (us ++ [p]) rest) (hd : Draft.ofPieces (us ++ [p]) = .ok d)
    (hpending : d.pending = none) :
    (sourceOf (closeGap (us ++ [p]))).getLast? = some '>' ↔ p.token = .broken := by
  obtain ⟨-, hstands, -⟩ := (standing_append.mp h.standing).2
  obtain ⟨c, cs, hraw, -⟩ := hstands.exists_cons
  rw [Draft.ofPieces_append] at hd
  obtain ⟨d₀, -, hadd⟩ := bind_eq_ok_iff.mp hd
  rw [List.foldlM_cons] at hadd
  obtain ⟨d₁, hadd, hnil⟩ := bind_eq_ok_iff.mp hadd
  rw [← Except.ok.inj hnil] at hpending
  have hcomment := h.last p (by simp)
  have hseparator := h.separator p (by simp)
  rw [getLast?_sourceOf_closeGap us (by simp [hraw])]
  refine hstands.getLast?_eq_iff ?_ ?_ (Draft.add_ne_redirection hadd hpending)
  · intro text htoken
    simp [Piece.isComment, htoken] at hcomment
  · intro s htoken
    simp [Piece.separator?, htoken] at hseparator

/-- A command that does not end in what is left of `2>&1` is whole. -/
theorem Stretch.of_ne_broken {us : List Piece} {rest : List Char} (h : Stretch us rest)
    (hlast : ∀ p ∈ us.getLast?, p.token ≠ .broken) : Stretch us [] :=
  ⟨h.standing.of_isPrefix List.nil_prefix fun _ ↦ hlast, h.separator, h.head, h.last⟩

/-- In front of nothing, what is left of `2>&1` is an operator. -/
def Piece.mended (p : Piece) : Piece := { p with token := .redirection .errOverwrite }

theorem Stretch.mended {us : List Piece} {p : Piece} {rest : List Char}
    (h : Stretch (us ++ [p]) rest) (hp : p.token = .broken) : Stretch (us ++ [p.mended]) [] := by
  obtain ⟨hus, hgap, hstands, -⟩ := standing_append.mp h.standing
  rw [hp] at hstands
  have hmended : Standing [p.mended] [] := by
    refine ⟨hgap, ?_, trivial⟩
    rw [Piece.mended, hstands.of_broken.1]
    exact .errOverwrite (by simp) (by simp)
  have hprefix : sourceOf [p.mended] ++ [] <+: sourceOf [p] ++ rest := by
    simp [Piece.mended]
  refine ⟨standing_append.mpr ⟨hus.of_isPrefix hprefix fun hnil ↦ ?_, hmended⟩, ?_, ?_, ?_⟩
  · rw [List.append_nil] at hnil
    exact absurd hnil (sourceOf_ne_nil_of_standing hmended)
  · intro q hq
    rcases List.mem_append.mp hq with hq | hq
    · exact h.separator q (List.mem_append_left _ hq)
    · rw [List.mem_singleton.mp hq]
      rfl
  · cases us with
    | nil =>
      intro q hq
      cases hq
      rfl
    | cons q us => exact h.head
  · intro q hq
    rw [List.getLast?_concat, Option.mem_some_iff] at hq
    rw [← hq]
    rfl

/-- Mended, the last piece of a command asks for a target that is not there. -/
theorem Draft.ofPieces_mended {us : List Piece} {p : Piece} {d : Draft}
    (h : Draft.ofPieces (us ++ [p]) = .ok d) :
    (∃ r, Draft.ofPieces (us ++ [p.mended]) = .error (.missingTarget r)) ∨
      ∃ d', Draft.ofPieces (us ++ [p.mended]) = .ok d' ∧ d'.pending = some .errOverwrite := by
  rw [Draft.ofPieces_append] at h ⊢
  obtain ⟨d₀, hd₀, -⟩ := bind_eq_ok_iff.mp h
  rw [hd₀]
  cases hpending : d₀.pending with
  | some r =>
    refine Or.inl ⟨r, ?_⟩
    simp [Except.bind, bind, Draft.add, Piece.mended, hpending]
  | none =>
    refine Or.inr ⟨{ d₀ with pending := some .errOverwrite, growing := false }, ?_, rfl⟩
    simp [Except.bind, bind, Draft.add, Piece.mended, hpending, pure, Except.pure]

theorem Stretch.parse_eq_error {us : List Piece} {p : Piece} {rest : List Char} {d : Draft}
    (h : Stretch (us ++ [p]) rest) (hp : p.token = .broken)
    (hd : Draft.ofPieces (us ++ [p]) = .ok d) :
    ∃ r, parse (String.ofList (sourceOf (closeGap (us ++ [p]))))
      = .error (.missingTarget r) := by
  have hsource : sourceOf (closeGap (us ++ [p])) = sourceOf (closeGap (us ++ [p.mended])) := by
    cases us <;> simp [closeGap, Piece.mended]
  have hparse := (h.mended hp).parse_eq hsource
  rw [hparse]
  rcases Draft.ofPieces_mended hd with ⟨r, hr⟩ | ⟨d', hd', hpending⟩
  · exact ⟨r, by rw [hr]; rfl⟩
  · refine ⟨.errOverwrite, ?_⟩
    have hvacant : d'.isVacant = false := by simp [Draft.isVacant, hpending]
    simp [hd', Except.bind, hvacant, Draft.stage, hpending, Except.map]

/-! ## Stages and their texts -/

/-- **The text of a stage makes the stage.** Read as a line it makes a plan of that stage alone,
unless it ends in `>`, and then it makes none. -/
theorem parse_stage_text {line : String} {plan : Plan} {s : Stage} (h : parse line = .ok plan)
    (hs : s ∈ plan.stages) :
    (s.text.toList.getLast? ≠ some '>' → parse s.text =
      .ok (Plan.ofStages (String.ofList (Text.trim s.text.toList)) [s.alone])) ∧
    (s.text.toList.getLast? = some '>' → ∃ r, parse s.text = .error (.missingTarget r)) := by
  obtain ⟨us, rest, d, closer, stage, hus, hd, hstage, hlinks⟩ := exists_stretch h hs
  obtain ⟨hpending, hargv, hbase⟩ := Draft.stage_eq_ok_iff.mp hstage
  have htext : s.text = String.ofList (sourceOf (closeGap us)) := by rw [hlinks.text_eq, hbase]
  have halone : s.alone = stage := by
    rw [hlinks.alone_eq, Draft.alone_of_stage (Draft.unpiped_of_ofPieces hd) hstage]
  rcases List.eq_nil_or_concat us with rfl | ⟨vs, p, rfl⟩
  · rw [← Except.ok.inj hd] at hargv
    exact absurd rfl hargv
  rw [List.concat_eq_append] at hus hd htext hstage
  have hiff := hus.getLast?_eq_iff hd hpending
  constructor
  · intro hlast
    rw [htext, String.toList_ofList, ne_eq, hiff] at hlast
    have hwhole : Stretch (vs ++ [p]) [] := hus.of_ne_broken (by simpa using hlast)
    have hsame : s.text = s.alone.text := rfl
    rw [hsame, halone]
    exact hwhole.parse_eq_ok hd hstage
  · intro hlast
    rw [htext, String.toList_ofList, hiff] at hlast
    rw [htext]
    exact hus.parse_eq_error hlast hd

/-- A stage behind a pipe keeps its own redirection and loses the pipe. -/
theorem parse_stage_text_behind_pipe :
    parse "ls # all\n | 'wc' -l > n" = .ok (Plan.ofStages "ls # all\n | 'wc' -l > n"
      [{ argv := ["ls"], text := "ls", stdout := .pipe, next := .concurrent, waits := false },
        { argv := ["wc", "-l"], text := "'wc' -l > n", stdin := .pipe
          stdout := .overwrite "n" }]) ∧
    parse "'wc' -l > n" = .ok (Plan.ofStages "'wc' -l > n"
      [{ argv := ["wc", "-l"], text := "'wc' -l > n", stdout := .overwrite "n" }]) := by
  have hplan : parse "ls # all\n | 'wc' -l > n" = .ok (Plan.ofStages "ls # all\n | 'wc' -l > n"
      [{ argv := ["ls"], text := "ls", stdout := .pipe, next := .concurrent, waits := false },
        { argv := ["wc", "-l"], text := "'wc' -l > n", stdin := .pipe,
          stdout := .overwrite "n" }]) := by
    decide +kernel
  exact ⟨hplan, (parse_stage_text hplan (List.mem_cons_of_mem _ List.mem_cons_self)).1 (by decide)⟩

/-- An ampersand behind `2>` makes it a word, and the text of the stage does not say so. -/
theorem parse_stage_text_of_broken :
    parse "make 2>&" = .ok (Plan.ofStages "make 2>&"
      [{ argv := ["make", "2>"], text := "make 2>", next := .concurrent, waits := false
         graceful := true }]) ∧
    parse "make 2>" = .error (.missingTarget .errOverwrite) := by
  constructor <;> decide +kernel

end Line

end ShellEngine
