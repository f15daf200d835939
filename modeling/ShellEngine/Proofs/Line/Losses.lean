import ShellEngine.Proofs.Line.StageText

/-!
# What is lost in reading a line

Between a line and the arguments of its stage characters are lost: quotes, operators, comments, and
the targets of redirections. Here the losses are counted. A comment, an operator and a double-quoted
word each take a character that no token brings back (`Stands.countP_wordText_le`), so a line that
lost none of these characters is made of single-quoted and bare words alone; and where there are
only such words, all that they say comes to the arguments (`flatMap_argv_of_forall_isWhole`).

Counting takes the place of following the lexer: which tokens a line is made of can depend on a line
feed or a quote far behind.
-/

namespace ShellEngine.Line

/-! ## What tokens consume -/

/-- The characters of which comments, operators and double-quoted words each lose one. -/
def isConsumed (c : Char) : Bool := ['#', '"', '\x7b', '<', '>', '|', '&', ';'].contains c

/-- Whether a token is a word that keeps all but its quotes. -/
def Token.isWhole : Token → Bool
  | .word .bare _ | .word .single _ => true
  | _ => false

def Token.wordText : Token → List Char
  | .word _ text => text
  | _ => []

theorem countP_escaped_le (c : Char) :
    (escaped c).countP isConsumed ≤ ['\\', c].countP isConsumed := by
  unfold escaped
  split
  case h_12 => exact le_rfl
  all_goals decide

theorem countP_codePoint_le {offset : Nat} {cs rest : List Char} {c : Char}
    (h : codePoint offset cs = .ok (c, rest)) :
    [c].countP isConsumed + rest.countP isConsumed ≤ cs.countP isConsumed := by
  unfold codePoint at h
  split at h
  · rename_i tail
    dsimp only at h
    split at h
    · cases h
    · split at h
      · cases h
      · cases h
        have hrest : ((tail.dropWhile (· != '}')).drop 1).countP isConsumed
            ≤ tail.countP isConsumed :=
          ((List.drop_sublist _ _).trans (List.dropWhile_sublist _)).countP_le
        have hone : [c].countP isConsumed ≤ 1 := List.countP_le_length
        have hbrace : isConsumed '\x7b' = true := by decide
        rw [List.countP_cons_of_pos hbrace]
        omega
  · cases h

theorem countP_unescape_go_le {acc body text : List Char} {offset : Nat}
    (h : unescape.go acc offset body = .ok text) :
    text.countP isConsumed ≤ acc.countP isConsumed + body.countP isConsumed := by
  fun_induction unescape.go acc offset body with
  | case1 acc =>
    cases h
    simp
  | case2 => cases h
  | case3 => cases h
  -- the escapes of a code point, of any other character, and a character without one
  | case4 acc offset rest c after hcode ih =>
    have hafter := ih h
    have hrest := countP_codePoint_le hcode
    rw [List.countP_cons] at hafter hrest
    rw [List.countP_cons, List.countP_cons]
    simp only [List.countP_nil] at hrest
    omega
  | case5 acc offset c rest hu ih =>
    have hafter := ih h
    have hc := countP_escaped_le c
    rw [List.countP_append, List.countP_reverse] at hafter
    simp only [List.countP_cons, List.countP_nil] at hc ⊢
    omega
  | case6 acc offset c rest _ _ _ ih =>
    have hafter := ih h
    rw [List.countP_cons] at hafter ⊢
    omega

/-- Resolving escapes makes no such character out of nothing: the brace of a code point is one. -/
theorem countP_unescape_le {body text : List Char} (h : unescape body = .ok text) :
    text.countP isConsumed ≤ body.countP isConsumed := by
  simpa using countP_unescape_go_le h

/-- A token that is no single-quoted or bare word gives back less than it took. -/
theorem Stands.countP_wordText_le {raw rest : List Char} {token : Token}
    (h : Stands raw token rest) :
    token.wordText.countP isConsumed + (if token.isWhole then 0 else 1)
      ≤ raw.countP isConsumed := by
  cases h with
  | broken | bare => simp [Token.broken, Token.wordText, Token.isWhole]
  | comment =>
    rename_i body _ _
    have hhash : isConsumed '#' = true := by decide
    rw [List.countP_cons_of_pos hhash]
    simp [Token.wordText, Token.isWhole]
  | single =>
    rw [List.cons_append, List.countP_cons, List.countP_append]
    simp only [Token.wordText, Token.isWhole, if_true]
    omega
  -- The body may have lost some to its escapes, and the quotes are lost for certain.
  | double hbody htext =>
    have hle := countP_unescape_le htext
    have hquote : isConsumed '"' = true := by decide
    rw [List.cons_append, List.countP_cons_of_pos hquote, List.countP_append]
    simp only [Token.wordText, Token.isWhole, Bool.false_eq_true, if_false]
    omega
  | _ => decide

theorem countP_flatMap_wordText_le {ps : List Piece} {rest : List Char} (h : Standing ps rest) :
    (ps.flatMap (·.token.wordText)).countP isConsumed + ps.countP (!·.token.isWhole)
      ≤ (sourceOf ps).countP isConsumed := by
  induction ps with
  | nil => simp
  | cons p ps ih =>
    obtain ⟨-, hstands, hps⟩ := h
    have hp := hstands.countP_wordText_le
    have hrest := ih hps
    rw [List.flatMap_cons, List.countP_append, List.countP_cons, sourceOf_cons,
      List.countP_append, List.countP_append]
    cases hwhole : p.token.isWhole <;> simp only [hwhole, Bool.false_eq_true, if_true, if_false,
      Bool.not_true, Bool.not_false] at hp ⊢ <;> omega

theorem Stands.countP_of_isWhole {raw rest : List Char} {token : Token} (h : Stands raw token rest)
    (hwhole : token.isWhole = true) {q : Char → Bool} (hq : q '\'' = false) :
    raw.countP q = token.wordText.countP q := by
  cases h with
  | broken | bare => rfl
  | single =>
    rw [List.cons_append, List.countP_cons_of_neg (by simp [hq]), List.countP_append,
      List.countP_cons_of_neg (by simp [hq])]
    simp [Token.wordText]
  | _ => cases hwhole

theorem countP_of_forall_isWhole {ps : List Piece} {rest : List Char} (h : Standing ps rest)
    (hwhole : ∀ p ∈ ps, p.token.isWhole = true) {q : Char → Bool} (hq : q '\'' = false)
    (hgap : ∀ c, isGap c = true → q c = false) :
    (sourceOf ps).countP q = (ps.flatMap (·.token.wordText)).countP q := by
  induction ps with
  | nil => rfl
  | cons p ps ih =>
    obtain ⟨hgaps, hstands, hps⟩ := h
    obtain ⟨hp, hrest⟩ := List.forall_mem_cons.mp hwhole
    have hnone : p.gap.countP q = 0 :=
      List.countP_eq_zero.mpr fun c hc ↦ by simp [hgap c (hgaps c hc)]
    rw [sourceOf_cons, List.countP_append, List.countP_append, hnone,
      hstands.countP_of_isWhole hp hq, ih hps hrest, List.flatMap_cons, List.countP_append,
      Nat.zero_add]

/-! ## What comes to the arguments -/

namespace Draft

def written (d : Draft) : List Char := d.argv.reverse.flatMap String.toList

theorem written_addWord {d : Draft} (h : d.pending = none) (text : String) (touches : Bool) :
    (d.addWord text touches).written = d.written ++ text.toList := by
  unfold addWord
  rw [h]
  simp only
  split
  · rename_i last before _ hargv
    simp [written, hargv]
  · simp [written]

/-- Nothing but words comes to the arguments, and not all of these do. -/
theorem written_sublist_of_add {d d' : Draft} {p : Piece} (h : d.add p = .ok d') :
    d'.written.Sublist (d.written ++ p.token.wordText) := by
  rcases add_cases h with ⟨quoting, text, hp, rfl⟩ | ⟨r, -, -, rfl⟩ | ⟨-, rfl⟩ | ⟨-, rfl⟩
  · cases hpending : d.pending with
    | none =>
      rw [written_addWord hpending, hp, String.toList_ofList]
      exact .refl _
    | some r =>
      rw [addWord_of_pending hpending, written, redirect_argv]
      exact List.sublist_append_left _ _
  all_goals exact List.sublist_append_left _ _

theorem written_sublist_of_foldlM {ps : List Piece} {d d' : Draft}
    (h : ps.foldlM add d = .ok d') :
    d'.written.Sublist (d.written ++ ps.flatMap (·.token.wordText)) := by
  induction ps generalizing d with
  | nil =>
    rw [← Except.ok.inj h, List.flatMap_nil, List.append_nil]
  | cons p ps ih =>
    rw [List.foldlM_cons] at h
    obtain ⟨d₁, hadd, hrest⟩ := bind_eq_ok_iff.mp h
    rw [List.flatMap_cons, ← List.append_assoc]
    exact (ih hrest).trans ((written_sublist_of_add hadd).append_right _)

theorem written_of_forall_isWhole {ps : List Piece} (hwhole : ∀ p ∈ ps, p.token.isWhole = true)
    {d d' : Draft} (hd : d.pending = none) (h : ps.foldlM add d = .ok d') :
    d'.written = d.written ++ ps.flatMap (·.token.wordText) := by
  induction ps generalizing d with
  | nil => rw [← Except.ok.inj h, List.flatMap_nil, List.append_nil]
  | cons p ps ih =>
    obtain ⟨hp, hps⟩ := List.forall_mem_cons.mp hwhole
    rw [List.foldlM_cons] at h
    obtain ⟨d₁, hadd, hrest⟩ := bind_eq_ok_iff.mp h
    rcases add_cases hadd with ⟨quoting, text, htoken, rfl⟩ | ⟨r, hr, -⟩ | ⟨hr, -⟩ | ⟨hr, -⟩
    · rw [ih hps (pending_addWord _ _ _) hrest, written_addWord hd, List.flatMap_cons, htoken,
        String.toList_ofList, List.append_assoc]
      rfl
    · rw [hr] at hp
      cases hp
    · rw [hr] at hp
      cases hp
    · obtain ⟨gap, raw, token⟩ := p
      cases token <;> simp_all [Token.isWhole, Piece.isComment, Piece.separator?]

end Draft

/-- The arguments of the only stage of a line are those of a draft. -/
theorem exists_written_of_link {ps : List Piece} {s : Stage}
    (h : link [] none (fragments ps) = .ok [s]) :
    ∃ f ∈ fragments ps, ∃ d, Draft.ofPieces f.pieces = .ok d ∧
      d.written = s.argv.flatMap String.toList := by
  obtain ⟨f, hf, stage, hstage, hlinks⟩ :=
    (exists_fragment_of_mem_link h (List.mem_singleton_self s)).resolve_left (by simp)
  have hdraft : f.stage = (Draft.ofPieces f.pieces).bind fun d ↦
    d.stage f.closer (spanText f.pieces) := rfl
  rw [hdraft] at hstage
  obtain ⟨d, hd, hd'⟩ := bind_eq_ok_iff.mp hstage
  obtain ⟨-, -, rfl⟩ := Draft.stage_eq_ok_iff.mp hd'
  have hargv : s.alone.argv = d.argv.reverse := congrArg Stage.argv hlinks.alone_eq
  exact ⟨f, hf, d, hd, congrArg (List.flatMap String.toList) hargv.symm⟩

/-- The arguments of the only stage of a line come from words of the line. -/
theorem flatMap_argv_sublist {ps : List Piece} {s : Stage}
    (h : link [] none (fragments ps) = .ok [s]) :
    (s.argv.flatMap String.toList).Sublist (ps.flatMap (·.token.wordText)) := by
  obtain ⟨f, hf, d, hd, hwritten⟩ := exists_written_of_link h
  obtain ⟨⟨before, after, hps⟩, -⟩ := exists_append_of_mem_fragments hf
  have hsub := Draft.written_sublist_of_foldlM hd
  rw [← hwritten, hps, List.flatMap_append, List.flatMap_append]
  exact (hsub.trans (List.sublist_append_right _ _)).trans (List.sublist_append_left _ _)

theorem flatMap_argv_of_forall_isWhole {ps : List Piece} {s : Stage}
    (h : link [] none (fragments ps) = .ok [s]) (hwhole : ∀ p ∈ ps, p.token.isWhole = true) :
    s.argv.flatMap String.toList = ps.flatMap (·.token.wordText) := by
  have hseparator : ∀ p ∈ ps, p.separator? = none := fun p hp ↦ by
    have hp := hwhole p hp
    obtain ⟨gap, raw, token⟩ := p
    cases token <;> simp_all [Token.isWhole, Piece.separator?]
  obtain ⟨f, hf, d, hd, hwritten⟩ := exists_written_of_link h
  rw [fragments_of_forall hseparator] at hf
  obtain rfl := List.mem_singleton.mp hf
  rw [← hwritten, Draft.written_of_forall_isWhole hwhole rfl hd]
  rfl

end ShellEngine.Line
