import ShellEngine.Proofs.Line.Pieces

/-!
# Drafts

What the pieces of a fragment make of a draft. A piece can do four things: a word goes to the
operator that waits for a target or to the arguments, an operator waits, `2>&1` redirects, and the
rest only keeps words apart (`Draft.add_cases`). What all of these preserve, a whole fragment
preserves (`Draft.invariant_of_foldlM`).
-/

namespace ShellEngine.Line

theorem bind_eq_ok_iff {ε α β : Type} {x : Except ε α} {f : α → Except ε β} {b : β} :
    (x >>= f) = .ok b ↔ ∃ a, x = .ok a ∧ f a = .ok b := by
  cases x with
  | error e => simp [bind, Except.bind]
  | ok a => simp [bind, Except.bind]

namespace Draft

/-! ## What one piece does -/

theorem inputOf_eq (path : String) : inputOf path = .null ∨ inputOf path = .file path := by
  unfold inputOf
  split
  · exact Or.inl rfl
  · exact Or.inr rfl

theorem overwriteOf_eq (path : String) :
    overwriteOf path = .null ∨ overwriteOf path = .overwrite path := by
  unfold overwriteOf
  split
  · exact Or.inl rfl
  · exact Or.inr rfl

theorem appendOf_eq (path : String) : appendOf path = .null ∨ appendOf path = .append path := by
  unfold appendOf
  split
  · exact Or.inl rfl
  · exact Or.inr rfl

theorem redirect_argv (d : Draft) (r : Redirection) (path : String) :
    (d.redirect r path).argv = d.argv := by
  cases r <;> rfl

theorem redirect_pending (d : Draft) (r : Redirection) (path : String) :
    (d.redirect r path).pending = none := by
  cases r <;> rfl

/-- A word is a target when an operator waits for one, and else an argument or more of one. -/
theorem addWord_cases (d : Draft) (text : String) (touches : Bool) :
    (∃ r, d.pending = some r ∧ d.addWord text touches = d.redirect r text) ∨
      d.pending = none ∧
        ∃ argv, argv ≠ [] ∧ d.addWord text touches = { d with argv, growing := true } := by
  unfold addWord
  cases hpending : d.pending with
  | some r => exact Or.inl ⟨r, rfl, rfl⟩
  | none =>
    refine Or.inr ⟨rfl, ?_⟩
    simp only
    split
    · rename_i last before hjoins _
      rw [Bool.and_eq_true] at hjoins
      exact ⟨(last ++ text) :: before, by simp, by rw [← hjoins.1]⟩
    · exact ⟨text :: d.argv, by simp, rfl⟩

theorem addWord_of_pending {d : Draft} {r : Redirection} (h : d.pending = some r) (text : String)
    (touches : Bool) : d.addWord text touches = d.redirect r text := by
  rw [addWord, h]

theorem pending_addWord (d : Draft) (text : String) (touches : Bool) :
    (d.addWord text touches).pending = none := by
  rcases d.addWord_cases text touches with ⟨r, -, h⟩ | ⟨hpending, argv, -, h⟩
  · rw [h, redirect_pending]
  · rw [h, hpending]

theorem argv_addWord_of_pending_none {d : Draft} (h : d.pending = none) (text : String)
    (touches : Bool) : (d.addWord text touches).argv ≠ [] := by
  rcases d.addWord_cases text touches with ⟨r, hr, -⟩ | ⟨-, argv, hargv, hadd⟩
  · rw [h] at hr
    cases hr
  · rwa [hadd]

theorem add_of_word {p : Piece} {quoting : Quoting} {text : List Char}
    (h : p.token = .word quoting text) (d : Draft) :
    d.add p = .ok (d.addWord (String.ofList text) p.gap.isEmpty) := by
  rw [add, h]

theorem add_of_isComment {p : Piece} (hp : p.isComment = true) (d : Draft) :
    d.add p = .ok { d with growing := false } := by
  obtain ⟨gap, raw, token⟩ := p
  cases token <;> simp_all [Piece.isComment, add]

/-- Everything that a piece can do. -/
theorem add_cases {d d' : Draft} {p : Piece} (h : d.add p = .ok d') :
    (∃ quoting text, p.token = .word quoting text ∧
        d' = d.addWord (String.ofList text) p.gap.isEmpty) ∨
      (∃ r, p.token = .redirection r ∧ d.pending = none ∧
        d' = { d with pending := some r, growing := false }) ∨
      p.token = .errToOut ∧ d' = { d with stderr := some .same, growing := false } ∨
      (p.isComment = true ∨ p.separator? ≠ none) ∧ d' = { d with growing := false } := by
  obtain ⟨gap, raw, token⟩ := p
  cases token with
  | word quoting text => exact Or.inl ⟨quoting, text, rfl, (Except.ok.inj h).symm⟩
  | redirection r =>
    simp only [add] at h
    split at h
    · cases h
    · rename_i hpending
      exact Or.inr (Or.inl ⟨r, rfl, hpending, (Except.ok.inj h).symm⟩)
  | errToOut => exact Or.inr (Or.inr (Or.inl ⟨rfl, (Except.ok.inj h).symm⟩))
  | comment text =>
    exact Or.inr (Or.inr (Or.inr ⟨Or.inl rfl, (Except.ok.inj h).symm⟩))
  | separator s =>
    exact Or.inr (Or.inr (Or.inr ⟨Or.inr (by simp [Piece.separator?]), (Except.ok.inj h).symm⟩))

theorem argv_ne_nil_of_add {d d' : Draft} {p : Piece} (h : d.argv ≠ []) (hadd : d.add p = .ok d') :
    d'.argv ≠ [] := by
  rcases add_cases hadd with ⟨_, text, -, rfl⟩ | ⟨r, -, -, rfl⟩ | ⟨-, rfl⟩ | ⟨-, rfl⟩
  · rcases d.addWord_cases (String.ofList text) p.gap.isEmpty with
      ⟨r, -, hword⟩ | ⟨-, argv, hargv, hword⟩
    · rwa [hword, redirect_argv]
    · rwa [hword]
  · exact h
  · exact h
  · exact h

/-! ## What a fragment does -/

/-- What each piece preserves, all of them do. -/
theorem invariant_of_foldlM {motive : Draft → Prop}
    (hadd : ∀ d p d', motive d → add d p = .ok d' → motive d') {ps : List Piece} {d d' : Draft}
    (h : motive d) (hfold : ps.foldlM add d = .ok d') : motive d' := by
  induction ps generalizing d with
  | nil =>
    rw [← Except.ok.inj hfold]
    exact h
  | cons p ps ih =>
    rw [List.foldlM_cons] at hfold
    obtain ⟨d₁, hstep, hrest⟩ := bind_eq_ok_iff.mp hfold
    exact ih (hadd d p d₁ h hstep) hrest

/-- What each redirection preserves, a fragment does, if it is about the streams alone. -/
theorem invariant_of_ofPieces {motive : Draft → Prop} (hnil : motive {})
    (hbooks : ∀ d argv pending growing, motive d → motive { d with argv, pending, growing })
    (hredirect : ∀ d r path, motive d → motive (d.redirect r path))
    (hsame : ∀ d, motive d → motive { d with stderr := some .same }) {ps : List Piece} {d : Draft}
    (h : ofPieces ps = .ok d) : motive d := by
  refine invariant_of_foldlM (fun d p d' hd hadd ↦ ?_) hnil h
  rcases add_cases hadd with ⟨_, text, -, rfl⟩ | ⟨r, -, -, rfl⟩ | ⟨-, rfl⟩ | ⟨-, rfl⟩
  · rcases d.addWord_cases (String.ofList text) p.gap.isEmpty with
      ⟨r, -, hword⟩ | ⟨-, argv, -, hword⟩
    · rw [hword]
      exact hredirect d r _ hd
    · rw [hword]
      exact hbooks d argv d.pending true hd
  · exact hbooks d d.argv (some r) false hd
  · exact hbooks _ d.argv d.pending false (hsame d hd)
  · exact hbooks d d.argv d.pending false hd

theorem ofPieces_append (ps qs : List Piece) :
    ofPieces (ps ++ qs) = (ofPieces ps).bind fun d ↦ qs.foldlM add d := List.foldlM_append

theorem ofPieces_concat (us : List Piece) (p : Piece) :
    ofPieces (us ++ [p]) = (ofPieces us).bind fun d ↦ d.add p := by
  rw [ofPieces_append]
  cases ofPieces us with
  | error e => rfl
  | ok d =>
    simp only [Except.bind, List.foldlM_cons, List.foldlM_nil]
    cases d.add p <;> rfl

/-- The gap in front of the first piece does not count. -/
theorem ofPieces_closeGap (ps : List Piece) : ofPieces (closeGap ps) = ofPieces ps := by
  cases ps with
  | nil => rfl
  | cons p ps =>
    have hadd : add {} { p with gap := [] } = add {} p := by
      obtain ⟨gap, raw, token⟩ := p
      cases token <;> rfl
    rw [closeGap, ofPieces, ofPieces, List.foldlM_cons, List.foldlM_cons, hadd]

/-- Comments change no more than whether the next word may join the argument before it. -/
theorem foldlM_of_forall_isComment {ps : List Piece} (h : ∀ p ∈ ps, p.isComment = true)
    (d : Draft) : ps.foldlM add d = .ok { d with growing := d.growing && ps.isEmpty } := by
  induction ps generalizing d with
  | nil => simp [pure, Except.pure]
  | cons p ps ih =>
    rw [List.foldlM_cons, add_of_isComment (h p List.mem_cons_self)]
    exact (ih (fun q hq ↦ h q (List.mem_cons_of_mem _ hq)) _).trans (by simp)

theorem ofPieces_of_forall_isComment {ps : List Piece} (h : ∀ p ∈ ps, p.isComment = true) :
    ofPieces ps = .ok {} := by
  rw [ofPieces, foldlM_of_forall_isComment h]
  rfl

/-! ## The end of a fragment -/

/-- The stage of a complete draft, closed by `closer`, with the text it is quoted by. -/
def stage (d : Draft) (closer : Closer) (text : List Char) : Except ParseError Stage :=
  match d.pending with
  | some operator => .error (.missingTarget operator)
  | none =>
    if d.argv.isEmpty then .error (.missingCommand closer)
    else
      return {
        argv := d.argv.reverse
        text := String.ofList text
        stdin := d.stdin.getD .inherit
        stdout := d.stdout.getD .inherit
        stderr := d.stderr.getD .inherit }

theorem stage_eq_ok_iff {d : Draft} {closer : Closer} {text : List Char} {s : Stage} :
    d.stage closer text = .ok s ↔ d.pending = none ∧ d.argv ≠ [] ∧
      s = { argv := d.argv.reverse
            text := String.ofList text
            stdin := d.stdin.getD .inherit
            stdout := d.stdout.getD .inherit
            stderr := d.stderr.getD .inherit } := by
  unfold stage
  cases d.pending with
  | some r => simp
  | none =>
    cases d.argv with
    | nil => simp
    | cons word argv => simp [pure, Except.pure, eq_comm]

/-- Whether a draft holds neither an argument nor an operator without a target. -/
def isVacant (d : Draft) : Bool := d.argv.isEmpty && d.pending.isNone

theorem isVacant_ne_of_word {p : Piece} {quoting : Quoting} {text : List Char}
    (hp : p.token = .word quoting text) (ps : List Piece) :
    (ofPieces (p :: ps)).map isVacant ≠ .ok true := by
  intro h
  have hcons : ofPieces (p :: ps)
      = ps.foldlM add (addWord {} (String.ofList text) p.gap.isEmpty) := by
    rw [ofPieces, List.foldlM_cons, add_of_word hp]
    rfl
  rw [hcons] at h
  cases hd : ps.foldlM add (addWord {} (String.ofList text) p.gap.isEmpty) with
  | error e => simp [hd, Except.map] at h
  | ok d =>
    have hargv : d.argv ≠ [] := invariant_of_foldlM (motive := fun d ↦ d.argv ≠ [])
      (fun _ _ _ ↦ argv_ne_nil_of_add) (argv_addWord_of_pending_none rfl _ _) hd
    simp [hd, Except.map, isVacant, hargv] at h

/-- A draft that ends in a word and is vacant took the word as a target. -/
theorem exists_pending_of_isVacant {us : List Piece} {p : Piece} {quoting : Quoting}
    {text : List Char} (hp : p.token = .word quoting text)
    (h : (ofPieces (us ++ [p])).map isVacant = .ok true) :
    ∃ d r, ofPieces us = .ok d ∧ d.argv = [] ∧ d.pending = some r := by
  rw [ofPieces_concat] at h
  cases hd : ofPieces us with
  | error e => simp [hd, Except.bind, Except.map] at h
  | ok d =>
    simp only [hd, Except.bind, add_of_word hp, Except.map, Except.ok.injEq, isVacant,
      Bool.and_eq_true, List.isEmpty_iff] at h
    rcases d.addWord_cases (String.ofList text) p.gap.isEmpty with
      ⟨r, hr, hword⟩ | ⟨-, argv, hargv, hword⟩
    · rw [hword, redirect_argv] at h
      exact ⟨d, r, rfl, h.1, hr⟩
    · rw [hword] at h
      exact absurd h.1 hargv

theorem isVacant_concat_of_pending {us : List Piece} {p : Piece} {quoting : Quoting}
    {text : List Char} (hp : p.token = .word quoting text) {d : Draft} {r : Redirection}
    (hd : ofPieces us = .ok d) (hargv : d.argv = []) (hpending : d.pending = some r) :
    (ofPieces (us ++ [p])).map isVacant = .ok true := by
  rw [ofPieces_concat, hd]
  simp [Except.bind, add_of_word hp, Except.map, isVacant, addWord_of_pending hpending,
    redirect_argv, redirect_pending, hargv]

end Draft

end ShellEngine.Line
