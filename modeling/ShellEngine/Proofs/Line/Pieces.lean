import ShellEngine.Line.Parse
import ShellEngine.Proofs.Line.Stands

/-!
# The pieces of a line

A line determines its pieces, and pieces that stand in front of each other determine a line. Both
are said by `pieces_eq_ok_iff`: a line has certain pieces exactly when it is their source, with
blanks at the end, and each of them stands where it is.

The relation `Standing` takes any text behind the pieces, not only blanks, so that it holds of every
stretch of a line as well; `Standing.of_isPrefix` then cuts the stretch out of the line.
-/

namespace ShellEngine.Line

/-! ## Sources -/

/-- The text that pieces were read from. -/
def sourceOf (ps : List Piece) : List Char := ps.flatMap fun p ↦ p.gap ++ p.raw

@[simp] theorem sourceOf_nil : sourceOf [] = [] := rfl

@[simp] theorem sourceOf_cons (p : Piece) (ps : List Piece) :
    sourceOf (p :: ps) = p.gap ++ (p.raw ++ sourceOf ps) := by
  rw [sourceOf, List.flatMap_cons, ← sourceOf, List.append_assoc]

@[simp] theorem sourceOf_append (ps qs : List Piece) :
    sourceOf (ps ++ qs) = sourceOf ps ++ sourceOf qs := List.flatMap_append

/-- Each piece stands in front of the ones after it and of `rest`, with a gap before it. -/
def Standing : List Piece → List Char → Prop
  | [], _ => True
  | p :: ps, rest =>
    (∀ c ∈ p.gap, isGap c = true) ∧ Stands p.raw p.token (sourceOf ps ++ rest) ∧ Standing ps rest

theorem standing_append {ps qs : List Piece} {rest : List Char} :
    Standing (ps ++ qs) rest ↔ Standing ps (sourceOf qs ++ rest) ∧ Standing qs rest := by
  induction ps with
  | nil => simp [Standing]
  | cons p ps ih =>
    rw [List.cons_append, Standing, Standing, ih, sourceOf_append, List.append_assoc, and_assoc,
      and_assoc]

theorem sourceOf_ne_nil_of_standing {p : Piece} {ps : List Piece} {rest : List Char}
    (h : Standing (p :: ps) rest) : sourceOf (p :: ps) ≠ [] := by
  obtain ⟨c, cs, hraw, -⟩ := h.2.1.exists_cons
  simp [hraw]

theorem raw_ne_nil_of_standing {ps : List Piece} {rest : List Char} (h : Standing ps rest) :
    ∀ p ∈ ps, p.raw ≠ [] := by
  induction ps with
  | nil => simp
  | cons p ps ih =>
    obtain ⟨-, hstands, hps⟩ := h
    obtain ⟨c, cs, hraw, -⟩ := hstands.exists_cons
    exact List.forall_mem_cons.mpr ⟨by simp [hraw], ih hps⟩

/-- **Cutting out.** Pieces that stand in front of a text stand in front of any beginning of it.
Only at the end of a text must the last of them not be what is left of `2>&1`. -/
theorem Standing.of_isPrefix {ps : List Piece} {rest rest' : List Char} (h : Standing ps rest)
    (hp : rest' <+: rest) (hend : rest' = [] → ∀ p ∈ ps.getLast?, p.token ≠ .broken) :
    Standing ps rest' := by
  induction ps with
  | nil => trivial
  | cons p ps ih =>
    obtain ⟨hgap, hstands, hps⟩ := h
    refine ⟨hgap, hstands.of_isPrefix ((List.prefix_append_right_inj _).mpr hp) ?_, ih hps ?_⟩
    · intro hbroken hnil
      rw [List.append_eq_nil_iff] at hnil
      cases ps with
      | nil => exact hend hnil.2 p rfl hbroken
      | cons q ps => exact sourceOf_ne_nil_of_standing hps hnil.1
    · intro hnil q hq
      cases ps with
      | nil => simp at hq
      | cons p' ps => exact hend hnil q (by rwa [List.getLast?_cons_cons])

/-! ## What the lexer makes of a line -/

theorem lex_go_append (found before : List Lexeme) (cs : List Char) :
    lex.go (found ++ before) cs = before.reverse ++ lex.go found cs := by
  fun_induction lex.go found cs generalizing before with
  | case1 found cs h =>
    rw [lex.go]
    split <;> simp_all
  | case2 found cs c rest h read ih =>
    rw [← ih, lex.go]
    split
    · simp_all
    · rename_i h'
      obtain ⟨rfl, rfl⟩ := List.cons.inj (h.symm.trans h')
      rfl

theorem lex_of_dropWhile_nil {cs : List Char} (h : cs.dropWhile isGap = []) : lex cs = [] := by
  rw [lex, lex.go]
  split <;> simp_all

theorem lex_of_dropWhile_cons {cs rest : List Char} {c : Char}
    (h : cs.dropWhile isGap = c :: rest) :
    lex cs = { gap := cs.takeWhile isGap, raw := (scan c rest).1, token := (scan c rest).2.1 }
      :: lex (scan c rest).2.2 := by
  rw [lex, lex.go]
  split
  · simp_all
  · rename_i c' rest' h'
    obtain ⟨rfl, rfl⟩ := List.cons.inj (h.symm.trans h')
    exact lex_go_append [] _ _

def Piece.lexeme (p : Piece) : Lexeme := { gap := p.gap, raw := p.raw, token := .ok p.token }

def Lexeme.piece? (l : Lexeme) : Option Piece :=
  match l.token with
  | .ok token => some { gap := l.gap, raw := l.raw, token }
  | .error _ => none

def Lexeme.error? (l : Lexeme) : Option LexError :=
  match l.token with
  | .error e => some e
  | .ok _ => none

theorem map_lexeme_filterMap_piece? {ls : List Lexeme} (h : ls.filterMap Lexeme.error? = []) :
    (ls.filterMap Lexeme.piece?).map Piece.lexeme = ls := by
  induction ls with
  | nil => rfl
  | cons l ls ih =>
    obtain ⟨gap, raw, token⟩ := l
    cases token with
    | error e => simp [Lexeme.error?] at h
    | ok token =>
      rw [List.filterMap_cons_none rfl] at h
      have hpiece : Lexeme.piece? { gap, raw, token := .ok token } = some { gap, raw, token } := rfl
      rw [List.filterMap_cons_some hpiece, List.map_cons, ih h]
      rfl

theorem filterMap_error?_map_lexeme (ps : List Piece) :
    (ps.map Piece.lexeme).filterMap Lexeme.error? = [] := by
  rw [List.filterMap_eq_nil_iff]
  intro l hl
  obtain ⟨p, -, rfl⟩ := List.mem_map.mp hl
  rfl

theorem filterMap_piece?_map_lexeme (ps : List Piece) :
    (ps.map Piece.lexeme).filterMap Lexeme.piece? = ps := by
  rw [List.filterMap_map]
  exact List.filterMap_some

theorem pieces_eq_ok_iff_lex {line : List Char} {ps : List Piece} :
    pieces line = .ok ps ↔ lex line = ps.map Piece.lexeme := by
  unfold pieces
  dsimp only
  constructor
  · intro h
    split at h
    · rename_i herror
      rw [← Except.ok.inj h]
      exact (map_lexeme_filterMap_piece? herror).symm
    · cases h
  · intro h
    have herror : (lex line).filterMap Lexeme.error? = [] := by
      rw [h, filterMap_error?_map_lexeme]
    have hpiece : (lex line).filterMap Lexeme.piece? = ps := by
      rw [h, filterMap_piece?_map_lexeme]
    split
    · exact congrArg Except.ok hpiece
    · rename_i hne
      exact absurd herror hne

theorem lex_eq_nil_iff {line : List Char} : lex line = [] ↔ ∀ c ∈ line, isGap c = true := by
  constructor
  · intro h
    cases hline : line.dropWhile isGap with
    | nil => exact List.dropWhile_eq_nil_iff.mp hline
    | cons c rest => simp [lex_of_dropWhile_cons hline] at h
  · exact fun h ↦ lex_of_dropWhile_nil (List.dropWhile_eq_nil_iff.mpr h)

/-- A piece is read first exactly where it stands first. -/
theorem lex_eq_lexeme_cons_iff {line : List Char} {p : Piece} {ls : List Lexeme} :
    lex line = p.lexeme :: ls ↔ ∃ after, line = p.gap ++ (p.raw ++ after) ∧
      (∀ c ∈ p.gap, isGap c = true) ∧ Stands p.raw p.token after ∧ lex after = ls := by
  constructor
  · intro h
    cases hline : line.dropWhile isGap with
    | nil => simp [lex_of_dropWhile_nil hline] at h
    | cons c rest =>
      rw [lex_of_dropWhile_cons hline, List.cons.injEq, Piece.lexeme, Lexeme.mk.injEq] at h
      obtain ⟨⟨hgap, hraw, htoken⟩, hrest⟩ := h
      have hscan : scan c rest = (p.raw, .ok p.token, (scan c rest).2.2) := by
        rw [← hraw, ← htoken]
      obtain ⟨hstands, hsource⟩ := scan_eq_ok_iff.mp hscan
      refine ⟨_, ?_, ?_, hstands, hrest⟩
      · rw [← hsource, ← hline, ← hgap, List.takeWhile_append_dropWhile]
      · rw [← hgap]
        exact fun d hd ↦ List.mem_takeWhile_imp hd
  · rintro ⟨after, rfl, hgap, hstands, rfl⟩
    obtain ⟨c, cs, hraw, hc⟩ := hstands.exists_cons
    obtain ⟨htake, hdrop⟩ := Text.takeWhile_append_of_head? (p := isGap) (l := p.gap)
      (r := c :: (cs ++ after)) hgap (by simpa using hc)
    have hscan : scan c (cs ++ after) = (p.raw, .ok p.token, after) :=
      scan_of_stands hstands (by rw [hraw, List.cons_append])
    rw [hraw, List.cons_append, lex_of_dropWhile_cons hdrop, hscan, htake]
    rfl

/-- **Pieces and lines.** A line has these pieces exactly when they stand in it one behind the
other, with nothing but blanks at the end. -/
theorem pieces_eq_ok_iff {line : List Char} {ps : List Piece} :
    pieces line = .ok ps ↔
      ∃ tail, line = sourceOf ps ++ tail ∧ Standing ps tail ∧ ∀ c ∈ tail, isGap c = true := by
  rw [pieces_eq_ok_iff_lex]
  induction ps generalizing line with
  | nil =>
    rw [List.map_nil, lex_eq_nil_iff]
    constructor
    · exact fun h ↦ ⟨line, rfl, trivial, h⟩
    · rintro ⟨tail, rfl, -, htail⟩
      exact htail
  | cons p ps ih =>
    rw [List.map_cons, lex_eq_lexeme_cons_iff]
    constructor
    · rintro ⟨after, rfl, hgap, hstands, hafter⟩
      obtain ⟨tail, rfl, hps, htail⟩ := ih.mp hafter
      refine ⟨tail, ?_, ⟨hgap, hstands, hps⟩, htail⟩
      rw [sourceOf_cons, List.append_assoc, List.append_assoc]
    · rintro ⟨tail, rfl, ⟨hgap, hstands, hps⟩, htail⟩
      refine ⟨sourceOf ps ++ tail, ?_, hgap, hstands, ih.mpr ⟨tail, rfl, hps, htail⟩⟩
      rw [sourceOf_cons, List.append_assoc, List.append_assoc]

/-! ## Kinds of pieces -/

def Piece.separator? (p : Piece) : Option Separator :=
  match p.token with
  | .separator s => some s
  | _ => none

/-- Comments count for nothing in a command. -/
def Piece.isComment (p : Piece) : Bool :=
  match p.token with
  | .comment _ => true
  | _ => false

theorem Piece.exists_raw_of_isComment {p : Piece} {rest : List Char}
    (h : Stands p.raw p.token rest) (hp : p.isComment = true) : ∃ body, p.raw = '#' :: body := by
  unfold isComment at hp
  split at hp
  · rename_i text htoken
    rw [htoken] at h
    obtain ⟨body, hraw, -⟩ := h.exists_of_comment
    exact ⟨body, hraw⟩
  · cases hp

/-! ## The gap in front -/

/-- Pieces without the gap in front of the first one. -/
def closeGap : List Piece → List Piece
  | [] => []
  | p :: ps => { p with gap := [] } :: ps

theorem closeGap_append {us : List Piece} (hus : us ≠ []) (vs : List Piece) :
    closeGap (us ++ vs) = closeGap us ++ vs := by
  obtain ⟨p, us, rfl⟩ := List.exists_cons_of_ne_nil hus
  rfl

theorem getLast?_sourceOf_closeGap (us : List Piece) {p : Piece} (hp : p.raw ≠ []) :
    (sourceOf (closeGap (us ++ [p]))).getLast? = p.raw.getLast? := by
  have hlast := List.getLast?_eq_some_getLast hp
  cases us with
  | nil => simp [closeGap]
  | cons q us =>
    rw [closeGap_append (by simp), sourceOf_append, sourceOf_cons, sourceOf_nil, List.append_nil,
      List.getLast?_append, List.getLast?_append, hlast]
    rfl

theorem closeGap_closeGap (us : List Piece) : closeGap (closeGap us) = closeGap us := by
  cases us <;> rfl

theorem standing_closeGap {us : List Piece} {rest : List Char} (h : Standing us rest) :
    Standing (closeGap us) rest := by
  cases us with
  | nil => trivial
  | cons p us => exact ⟨by simp, h.2⟩

theorem separator?_closeGap {us : List Piece} (h : ∀ p ∈ us, p.separator? = none) :
    ∀ p ∈ closeGap us, p.separator? = none := by
  cases us with
  | nil => exact h
  | cons p us => exact List.forall_mem_cons.mpr (List.forall_mem_cons.mp h)

end ShellEngine.Line
