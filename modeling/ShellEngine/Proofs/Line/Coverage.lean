import ShellEngine.Proofs.Line.Escapes
import ShellEngine.Proofs.Line.Pieces

/-!
# What the lexemes of a line cover

The language lists the texts that a lexeme may be read from (`Listed`): the operators, words, comments,
and quoted words, with or without the quote that closes them. At each place the lexer takes the longest
listed text (`Longest`), and every character but a blank begins one. So the lexemes of a line follow
each other with nothing but blanks between them (`lex_covers`), no character is ever unknown, and what
can be wrong with a lexeme is that a quote is not closed or that an escape cannot be resolved, for
another reason than that nothing follows its backslash.

`Stuck` says of the lexemes that are no tokens what `Stands` says of tokens.
-/

namespace ShellEngine.Line

/-! ## Listed texts -/

def operators : List (List Char) :=
  [['&', '&'], ['|', '|'], [';'], ['&'], ['|'], ['>', '>'], ['>'], ['<'], ['2', '>', '>'],
    ['2', '>'], ['2', '>', '&', '1']]

/-- The texts that a lexeme may be read from. -/
inductive Listed : List Char → Prop
  | operator {text : List Char} (h : text ∈ operators) : Listed text
  | bare {c : Char} {cs : List Char} (h : ∀ d ∈ c :: cs, endsWord d = false) : Listed (c :: cs)
  | double {body : List Char} (h : Quotable body) : Listed ('"' :: body ++ ['"'])
  | single {body : List Char} (h : ∀ d ∈ body, d ≠ '\'') : Listed ('\'' :: body ++ ['\''])
  | openDouble {body : List Char} (h : Quotable body) : Listed ('"' :: body)
  | openSingle {body : List Char} (h : ∀ d ∈ body, d ≠ '\'') : Listed ('\'' :: body)
  | comment {body : List Char} (h : ∀ d ∈ body, d ≠ '\n') : Listed ('#' :: body)

/-- What a listed text goes on with behind its first character. -/
def GoesOn : Char → List Char → Prop
  | '&', ds => ds = [] ∨ ds = ['&']
  | '|', ds => ds = [] ∨ ds = ['|']
  | ';', ds => ds = []
  | '>', ds => ds = [] ∨ ds = ['>']
  | '<', ds => ds = []
  | '"', ds => ∃ body, Quotable body ∧ (ds = body ∨ ds = body ++ ['"'])
  | '\'', ds => ∃ body, (∀ d ∈ body, d ≠ '\'') ∧ (ds = body ∨ ds = body ++ ['\''])
  | '#', ds => ∀ d ∈ ds, d ≠ '\n'
  | '2', ds => ds = ['>'] ∨ ds = ['>', '>'] ∨ ds = ['>', '&', '1'] ∨ ∀ d ∈ ds, endsWord d = false
  | _, ds => ∀ d ∈ ds, endsWord d = false

theorem goesOn_of_endsWord {c : Char} {ds : List Char} (hc : endsWord c = false)
    (hds : ∀ d ∈ ds, endsWord d = false) : GoesOn c ds := by
  unfold GoesOn
  split
  case h_9 => exact .inr (.inr (.inr hds))
  case h_10 => exact hds
  all_goals exact absurd hc (by decide)

theorem Listed.goesOn {c : Char} {ds : List Char} (h : Listed (c :: ds)) : GoesOn c ds := by
  generalize hraw : c :: ds = raw at h
  cases h with
  | operator h =>
    subst hraw
    simp only [operators, List.mem_cons, List.cons.injEq, List.not_mem_nil, or_false] at h
    rcases h with ⟨rfl, rfl⟩ | ⟨rfl, rfl⟩ | ⟨rfl, rfl⟩ | ⟨rfl, rfl⟩ | ⟨rfl, rfl⟩ | ⟨rfl, rfl⟩ |
      ⟨rfl, rfl⟩ | ⟨rfl, rfl⟩ | ⟨rfl, rfl⟩ | ⟨rfl, rfl⟩ | ⟨rfl, rfl⟩ <;> simp [GoesOn]
  | bare h =>
    obtain ⟨rfl, rfl⟩ := List.cons.inj hraw
    obtain ⟨hc, hds⟩ := List.forall_mem_cons.mp h
    exact goesOn_of_endsWord hc hds
  | double h =>
    obtain ⟨rfl, rfl⟩ := List.cons.inj hraw
    exact ⟨_, h, .inr rfl⟩
  | single h =>
    obtain ⟨rfl, rfl⟩ := List.cons.inj hraw
    exact ⟨_, h, .inr rfl⟩
  | openDouble h =>
    obtain ⟨rfl, rfl⟩ := List.cons.inj hraw
    exact ⟨_, h, .inl rfl⟩
  | openSingle h =>
    obtain ⟨rfl, rfl⟩ := List.cons.inj hraw
    exact ⟨_, h, .inl rfl⟩
  | comment h =>
    obtain ⟨rfl, rfl⟩ := List.cons.inj hraw
    exact h

theorem Listed.ne_nil {raw : List Char} (h : Listed raw) : raw ≠ [] := by
  rintro rfl
  generalize hnil : [] = raw at h
  cases h with
  | operator h =>
    subst hnil
    exact absurd h (by decide)
  | _ => cases hnil

/-! ## The longest listed text -/

/-- `raw` is the longest listed text that `raw ++ rest` begins with. -/
structure Longest (raw rest : List Char) : Prop where
  listed : Listed raw
  length_le : ∀ other, Listed other → other <+: raw ++ rest → other.length ≤ raw.length

/-- Texts that begin alike are compared behind their first character. -/
theorem longest_cons {c : Char} {cs rest : List Char} (hlisted : Listed (c :: cs))
    (h : ∀ ds, GoesOn c ds → ds <+: cs ++ rest → ds.length ≤ cs.length) :
    Longest (c :: cs) rest := by
  refine ⟨hlisted, ?_⟩
  intro other hother hfront
  obtain ⟨d, ds, rfl⟩ := List.exists_cons_of_ne_nil hother.ne_nil
  obtain ⟨rfl, hds⟩ := List.cons_prefix_cons.mp hfront
  exact Nat.succ_le_succ (h ds hother.goesOn hds)

/-- A run of characters of one kind ends where one of another kind follows. -/
theorem length_le_of_run {p : Char → Prop} {ds cs rest : List Char} (hds : ∀ d ∈ ds, p d)
    (hrest : ∀ d ∈ rest.head?, ¬ p d) (h : ds <+: cs ++ rest) : ds.length ≤ cs.length := by
  induction cs generalizing ds with
  | nil =>
    cases ds with
    | nil => exact Nat.le_refl _
    | cons d ds =>
      exact absurd (hds d List.mem_cons_self) (hrest d (mem_head?_of_isPrefix h d rfl))
  | cons c cs ih =>
    cases ds with
    | nil => exact Nat.zero_le _
    | cons d ds =>
      have hds' : ∀ d ∈ ds, p d := fun d hd ↦ hds d (List.mem_cons_of_mem _ hd)
      exact Nat.succ_le_succ (ih hds' (List.cons_prefix_cons.mp h).2)

/-! ### Between double quotes -/

theorem length_le_doubleBody (acc cs : List Char) :
    acc.length ≤ (doubleBody acc cs).1.length := by
  fun_induction doubleBody acc cs with
  | case1 | case2 | case3 | case4 => simp
  | case5 acc c rest hc ih => exact Nat.le_trans (by simp; omega) ih
  | case6 acc c rest hq hb hbc ih => exact Nat.le_trans (by simp) ih

/-- Quotable text goes no farther than what is read for it. -/
theorem Quotable.length_le {body ds cs after : List Char} (h : Quotable ds)
    (hread : doubleBody [] cs = (body, after)) (hfront : ds <+: cs) : ds.length ≤ body.length := by
  obtain ⟨tail, rfl⟩ := hfront
  have hle := length_le_doubleBody (ds.reverse ++ []) tail
  rw [← doubleBody_quotable_append h, hread] at hle
  simpa using hle

/-! ### Tokens -/

theorem longest_double {body : List Char} (h : Quotable body) (rest : List Char) :
    Longest ('"' :: body ++ ['"']) rest := by
  rw [List.cons_append]
  refine longest_cons (.double h) ?_
  rintro ds ⟨other, hother, hds⟩ hfront
  rw [List.append_assoc, List.singleton_append] at hfront
  rw [List.length_append, List.length_singleton]
  have hread := doubleBody_of_quotable h [] rest
  rcases hds with rfl | rfl
  · exact Nat.le_succ_of_le (hother.length_le hread hfront)
  · have hle := hother.length_le hread ((List.prefix_append _ _).trans hfront)
    rw [List.length_append, List.length_singleton]
    exact Nat.succ_le_succ hle

theorem longest_single {body : List Char} (h : ∀ d ∈ body, d ≠ '\'') (rest : List Char) :
    Longest ('\'' :: body ++ ['\'']) rest := by
  rw [List.cons_append]
  refine longest_cons (.single h) ?_
  rintro ds ⟨other, hother, hds⟩ hfront
  rw [List.append_assoc, List.singleton_append] at hfront
  rw [List.length_append, List.length_singleton]
  rcases hds with rfl | rfl
  · exact Nat.le_succ_of_le (length_le_of_run hother (by simp) hfront)
  · have hle := length_le_of_run hother (by simp) ((List.prefix_append _ _).trans hfront)
    rw [List.length_append, List.length_singleton]
    exact Nat.succ_le_succ hle

theorem longest_bare {c : Char} {cs rest : List Char} (hword : ∀ d ∈ c :: cs, endsWord d = false)
    (hrest : ∀ d ∈ rest.head?, endsWord d = true) (htwo : c :: cs = ['2'] → rest.head? ≠ some '>') :
    Longest (c :: cs) rest := by
  refine longest_cons (.bare hword) ?_
  intro ds hds hfront
  obtain ⟨hc, hcs⟩ := List.forall_mem_cons.mp hword
  -- a word that begins with 2 has no operator in front of it
  have hgt : c = '2' → ds.head? ≠ some '>' := by
    rintro rfl hhead
    have hhead' := mem_head?_of_isPrefix hfront '>' hhead
    cases cs with
    | nil => exact htwo rfl hhead'
    | cons d cs =>
      obtain rfl : d = '>' := Option.some.inj hhead'
      exact absurd (hcs '>' List.mem_cons_self) (by decide)
  have hrun : ∀ d ∈ ds, endsWord d = false := by
    unfold GoesOn at hds
    split at hds
    case h_9 =>
      rcases hds with rfl | rfl | rfl | hds
      · exact absurd rfl (hgt rfl)
      · exact absurd rfl (hgt rfl)
      · exact absurd rfl (hgt rfl)
      · exact hds
    case h_10 => exact hds
    all_goals exact absurd hc (by decide)
  exact length_le_of_run hrun (fun d hd ↦ by simp [hrest d hd]) hfront

/-- What may stand between a `2` and what follows it, where that is a `>`. -/
theorem GoesOn.of_two {ds tail : List Char} (h : GoesOn '2' ds) (hfront : ds <+: '>' :: tail) :
    ds = [] ∨ ds = ['>'] ∨ ds = ['>', '>'] ∨ ds = ['>', '&', '1'] := by
  rcases h with h | h | h | h
  · exact .inr (.inl h)
  · exact .inr (.inr (.inl h))
  · exact .inr (.inr (.inr h))
  · cases ds with
    | nil => exact .inl rfl
    | cons d ds =>
      obtain ⟨rfl, -⟩ := List.cons_prefix_cons.mp hfront
      exact absurd (h '>' List.mem_cons_self) (by decide)

/-- **Longest match.** Where a token stands, no listed text is longer. -/
theorem Stands.longest {raw rest : List Char} {token : Token} (h : Stands raw token rest) :
    Longest raw rest := by
  cases h with
  | bare hword hrest htwo => exact longest_bare hword hrest htwo
  | double hbody => exact longest_double hbody rest
  | single hbody => exact longest_single hbody rest
  | comment hbody hrest =>
    refine longest_cons (.comment hbody) fun ds hds hfront ↦ ?_
    exact length_le_of_run hds (fun d hd ↦ not_not.mpr (hrest d hd)) hfront
  | and | or | append =>
    refine longest_cons (.operator (by decide)) fun ds hds _ ↦ ?_
    rcases hds with rfl | rfl <;> decide
  | semi | input =>
    refine longest_cons (.operator (by decide)) fun ds hds _ ↦ ?_
    obtain rfl := hds
    decide
  | background hnext | pipe hnext | overwrite hnext =>
    refine longest_cons (.operator (by decide)) fun ds hds hfront ↦ ?_
    rcases hds with rfl | rfl
    · decide
    · exact absurd (mem_head?_of_isPrefix hfront _ rfl) hnext
  | errToOut =>
    refine longest_cons (.operator (by decide)) fun ds hds hfront ↦ ?_
    rcases hds.of_two hfront with rfl | rfl | rfl | rfl <;> decide
  | errAppend =>
    refine longest_cons (.operator (by decide)) fun ds hds hfront ↦ ?_
    rcases hds.of_two hfront with rfl | rfl | rfl | rfl
    · decide
    · decide
    · decide
    · simp at hfront
  | errOverwrite hamp hgt =>
    refine longest_cons (.operator (by decide)) fun ds hds hfront ↦ ?_
    rcases hds.of_two hfront with rfl | rfl | rfl | rfl
    · decide
    · decide
    · exact absurd (mem_head?_of_isPrefix (List.cons_prefix_cons.mp hfront).2 _ rfl) hgt
    · exact absurd (mem_head?_of_isPrefix (List.cons_prefix_cons.mp hfront).2 _ rfl) hamp
  | broken hone =>
    refine longest_cons (.operator (by decide)) fun ds hds hfront ↦ ?_
    rcases hds.of_two hfront with rfl | rfl | rfl | rfl
    · decide
    · decide
    · simp at hfront
    · have hafter := (List.cons_prefix_cons.mp (List.cons_prefix_cons.mp hfront).2).2
      exact absurd (mem_head?_of_isPrefix hafter _ rfl) hone

/-! ### Errors -/

/-- `raw` is no token for the reason `e`, and `rest` is what is left behind it. -/
inductive Stuck : List Char → LexError → List Char → Prop
  /-- No quote follows, and a backslash that does has nothing that it could be paired with. -/
  | openDouble {body rest : List Char} (hbody : Quotable body) (hrest : ∀ d ∈ rest.head?, d = '\\')
      (hpair : ∀ d after, rest = '\\' :: d :: after → d = '\n') :
      Stuck ('"' :: body) .unterminated rest
  | openSingle {body : List Char} (hbody : ∀ d ∈ body, d ≠ '\'') :
      Stuck ('\'' :: body) .unterminated []
  | escape {body : List Char} {e : EscapeError} (hbody : Quotable body)
      (he : unescape body = .error e) (rest : List Char) :
      Stuck ('"' :: body ++ ['"']) (.escape e) rest

theorem stuck_of_doubleQuoted {cs raw rest : List Char} {e : LexError}
    (h : doubleQuoted cs = (raw, .error e, rest)) : Stuck raw e rest := by
  unfold doubleQuoted at h
  split at h
  case h_1 body after hbody =>
    cases htext : unescape body with
    | ok text => simp [htext] at h
    | error e' =>
      simp only [htext, Prod.mk.injEq, Except.error.injEq] at h
      obtain ⟨rfl, rfl, rfl⟩ := h
      exact .escape (quotable_of_doubleBody hbody).1 htext _
  case h_2 body after hne hbody =>
    obtain ⟨hquotable, hrest⟩ := quotable_of_doubleBody hbody
    simp only [Prod.mk.injEq, Except.error.injEq] at h
    obtain ⟨rfl, rfl, rfl⟩ := h
    obtain ⟨hhead, hpair⟩ := hrest (head?_ne_of_forall hne)
    exact .openDouble hquotable hhead hpair

theorem stuck_of_singleQuoted {cs raw rest : List Char} {e : LexError}
    (h : singleQuoted cs = (raw, .error e, rest)) : Stuck raw e rest := by
  unfold singleQuoted at h
  split at h
  · simp at h
  · simp only [Prod.mk.injEq, Except.error.injEq] at h
    obtain ⟨rfl, rfl, rfl⟩ := h
    exact .openSingle fun d hd ↦ by simpa using List.mem_takeWhile_imp hd

/-- A character that is no blank begins a token or a quoted word. -/
theorem stuck_of_scan {c : Char} {cs raw rest : List Char} {e : LexError} (hc : isGap c = false)
    (h : scan c cs = (raw, .error e, rest)) : Stuck raw e rest := by
  unfold scan at h
  split at h
  case h_1 => exact stuck_of_doubleQuoted h
  case h_2 => exact stuck_of_singleQuoted h
  case h_16 =>
    -- every character that ends a word is a blank or begins one of the other kinds
    have hword : endsWord c = false := by simp_all [endsWord]
    simp [bareWord_of_not_endsWord hword] at h
  all_goals simp [operator] at h

theorem doubleBody_of_stop {rest : List Char} (hrest : ∀ d ∈ rest.head?, d = '\\')
    (hpair : ∀ d after, rest = '\\' :: d :: after → d = '\n') (acc : List Char) :
    doubleBody acc rest = (acc.reverse, rest) := by
  cases rest with
  | nil => rfl
  | cons d rest =>
    obtain rfl := hrest d rfl
    cases rest with
    | nil => rfl
    | cons d after =>
      obtain rfl := hpair d after rfl
      rfl

theorem longest_openDouble {body rest : List Char} (hbody : Quotable body)
    (hrest : ∀ d ∈ rest.head?, d = '\\')
    (hpair : ∀ d after, rest = '\\' :: d :: after → d = '\n') : Longest ('"' :: body) rest := by
  have hread : doubleBody [] (body ++ rest) = (body, rest) := by
    rw [doubleBody_quotable_append hbody, doubleBody_of_stop hrest hpair]
    simp
  refine longest_cons (.openDouble hbody) ?_
  rintro ds ⟨other, hother, rfl | rfl⟩ hfront
  · exact hother.length_le hread hfront
  · -- a quote that closes the text would have been found
    obtain ⟨tail, htail⟩ := hfront
    rw [List.append_assoc, List.singleton_append] at htail
    rw [← htail, doubleBody_of_quotable hother] at hread
    obtain ⟨-, rfl⟩ := Prod.mk.inj hread
    exact absurd (hrest '"' rfl) (by decide)

theorem Stuck.longest {raw rest : List Char} {e : LexError} (h : Stuck raw e rest) :
    Longest raw rest := by
  cases h with
  | escape hbody => exact longest_double hbody rest
  | openSingle hbody =>
    refine ⟨.openSingle hbody, fun other _ hfront ↦ ?_⟩
    rw [List.append_nil] at hfront
    exact hfront.length_le
  | openDouble hbody hrest hpair => exact longest_openDouble hbody hrest hpair

theorem Stuck.ne_unknown {raw rest : List Char} {e : LexError} (h : Stuck raw e rest) :
    e ≠ .unknown := by
  cases h <;> simp

theorem Stuck.ne_dangling {raw rest : List Char} {e : LexError} (h : Stuck raw e rest) (n : Nat) :
    e ≠ .escape (.dangling n) := by
  cases h with
  | openDouble => simp
  | openSingle => simp
  | escape hbody he =>
    rw [ne_eq, LexError.escape.injEq]
    rintro rfl
    exact unescape_ne_dangling hbody n he

/-! ## Whole lines -/

theorem lex_induction {p : List Char → List Lexeme → Prop}
    (hblank : ∀ cs, (∀ c ∈ cs, isGap c = true) → p cs [])
    (hlexeme : ∀ gap c cs, (∀ d ∈ gap, isGap d = true) → isGap c = false →
      p (scan c cs).2.2 (lex (scan c cs).2.2) →
      p (gap ++ c :: cs)
        ({ gap, raw := (scan c cs).1, token := (scan c cs).2.1 } :: lex (scan c cs).2.2))
    (line : List Char) : p line (lex line) := by
  induction hlength : line.length using Nat.strong_induction_on generalizing line with
  | _ n ih =>
    cases hline : line.dropWhile isGap with
    | nil =>
      rw [lex_of_dropWhile_nil hline]
      exact hblank line (List.dropWhile_eq_nil_iff.mp hline)
    | cons c cs =>
      have hc := Text.head?_dropWhile_of_not (p := isGap) (l := line)
      rw [hline] at hc
      have hsplit := List.takeWhile_append_dropWhile (p := isGap) (l := line)
      rw [hline] at hsplit
      have hshorter : (scan c cs).2.2.length < n := by
        have hle := scan_length c cs
        have hlength' := congrArg List.length hsplit
        rw [List.length_append, List.length_cons] at hlength'
        omega
      have hstep := hlexeme (line.takeWhile isGap) c cs (fun d hd ↦ List.mem_takeWhile_imp hd)
        (hc c rfl) (ih _ hshorter _ rfl)
      rw [hsplit] at hstep
      rw [lex_of_dropWhile_cons hline]
      exact hstep

/-- Lexemes that make up a text with the blanks between them, each of which is the longest that is
listed where it stands. -/
inductive Covers : List Lexeme → List Char → Prop
  | blank {cs : List Char} (h : ∀ c ∈ cs, isGap c = true) : Covers [] cs
  | cons {l : Lexeme} {ls : List Lexeme} {rest : List Char} (hgap : ∀ c ∈ l.gap, isGap c = true)
      (hraw : Longest l.raw rest) (h : Covers ls rest) :
      Covers (l :: ls) (l.gap ++ (l.raw ++ rest))

theorem scan_longest {c : Char} {cs : List Char} (hc : isGap c = false) :
    Longest (scan c cs).1 (scan c cs).2.2 := by
  rcases hscan : scan c cs with ⟨raw, token, rest⟩
  cases token with
  | ok token => exact (stands_of_scan hscan).longest
  | error e => exact (stuck_of_scan hc hscan).longest

theorem covers_lex (line : List Char) : Covers (lex line) line := by
  refine lex_induction (p := fun cs ls ↦ Covers ls cs) ?_ ?_ line
  · intro cs hcs
    exact .blank hcs
  · intro gap c cs hgap hc ih
    rw [← scan_source c cs]
    exact .cons hgap (scan_longest hc) ih

theorem exists_stuck_of_mem_lex (line : List Char) :
    ∀ l ∈ lex line, ∀ e, l.token = .error e → ∃ rest, Stuck l.raw e rest := by
  refine lex_induction (p := fun _ ls ↦ ∀ l ∈ ls, ∀ e, l.token = .error e →
    ∃ rest, Stuck l.raw e rest) ?_ ?_ line
  · simp
  · intro gap c cs _ hc ih
    refine List.forall_mem_cons.mpr ⟨?_, ih⟩
    intro e he
    exact ⟨(scan c cs).2.2, stuck_of_scan hc (Prod.ext rfl (Prod.ext he rfl))⟩

/-! ## Spans -/

def gapBytes : Bytes := [0x20, 0x09, 0x0D, 0x0A, 0x0C]

theorem mem_gapBytes {cs : List Char} (h : ∀ c ∈ cs, isGap c = true) :
    ∀ b ∈ Text.encode cs, b ∈ gapBytes := by
  intro b hb
  rw [Text.encode_eq_flatMap] at hb
  obtain ⟨c, hc, hb⟩ := List.mem_flatMap.mp hb
  have hgap := h c hc
  simp only [isGap, Bool.or_eq_true, beq_iff_eq] at hgap
  have hbytes : ∃ d ∈ gapBytes, String.utf8EncodeChar c = [d] := by
    rcases hgap with (((rfl | rfl) | rfl) | rfl) | rfl <;> exact ⟨_, by simp [gapBytes], rfl⟩
  obtain ⟨d, hd, hc'⟩ := hbytes
  rw [hc', List.mem_singleton] at hb
  exact hb ▸ hd

/-- Spans of bytes in a text that begins at the byte `offset`: none is empty, each one ends before
the next one begins, and the bytes in none of them are blanks. -/
structure Spanned (offset : Nat) (cs : List Char) (spans : List (Nat × Nat)) : Prop where
  nonempty : ∀ s ∈ spans, s.1 < s.2
  ordered : spans.Pairwise fun s t ↦ s.2 ≤ t.1
  within : ∀ s ∈ spans, offset ≤ s.1 ∧ s.2 ≤ offset + Text.width cs
  blank : ∀ i b, (Text.encode cs)[i]? = some b →
    (∀ s ∈ spans, ¬ (s.1 ≤ offset + i ∧ offset + i < s.2)) → b ∈ gapBytes

theorem spanned_nil {cs : List Char} (h : ∀ c ∈ cs, isGap c = true) (offset : Nat) :
    Spanned offset cs [] where
  nonempty := by simp
  ordered := List.Pairwise.nil
  within := by simp
  blank _ b hb _ := mem_gapBytes h b (List.mem_of_getElem? hb)

theorem Spanned.blanks_append {gap cs : List Char} {offset : Nat} {spans : List (Nat × Nat)}
    (hgap : ∀ c ∈ gap, isGap c = true) (h : Spanned (offset + Text.width gap) cs spans) :
    Spanned offset (gap ++ cs) spans where
  nonempty := h.nonempty
  ordered := h.ordered
  within s hs := by
    obtain ⟨hle, hge⟩ := h.within s hs
    rw [Text.width_append]
    omega
  blank i b hb hout := by
    rw [Text.encode_append] at hb
    by_cases hi : i < Text.width gap
    · rw [List.getElem?_append_left (by rwa [← Text.width_eq_length_encode])] at hb
      exact mem_gapBytes hgap b (List.mem_of_getElem? hb)
    · rw [List.getElem?_append_right (by rw [← Text.width_eq_length_encode]; omega),
        ← Text.width_eq_length_encode] at hb
      refine h.blank _ b hb fun s hs hin ↦ hout s hs ?_
      omega

theorem Spanned.cons {raw cs : List Char} {offset : Nat} {spans : List (Nat × Nat)}
    (hraw : raw ≠ []) (h : Spanned (offset + Text.width raw) cs spans) :
    Spanned offset (raw ++ cs) ((offset, offset + Text.width raw) :: spans) where
  nonempty := by
    have hpos := Text.width_pos hraw
    refine List.forall_mem_cons.mpr ⟨?_, h.nonempty⟩
    simpa using hpos
  ordered := List.pairwise_cons.mpr ⟨fun s hs ↦ (h.within s hs).1, h.ordered⟩
  within := by
    rw [Text.width_append]
    refine List.forall_mem_cons.mpr ⟨⟨Nat.le_refl _, by simp⟩, fun s hs ↦ ?_⟩
    obtain ⟨hle, hge⟩ := h.within s hs
    omega
  blank i b hb hout := by
    obtain ⟨hfirst, hout⟩ := List.forall_mem_cons.mp hout
    rw [Text.encode_append] at hb
    -- a byte of `raw` would be in the first span
    have hi : Text.width raw ≤ i := by omega
    rw [List.getElem?_append_right (by rwa [← Text.width_eq_length_encode]),
      ← Text.width_eq_length_encode] at hb
    refine h.blank _ b hb fun s hs hin ↦ hout s hs ?_
    omega

theorem Covers.spanned {ls : List Lexeme} {cs : List Char} (h : Covers ls cs) (offset : Nat) :
    Spanned offset cs (Lexeme.spans offset ls) := by
  induction h generalizing offset with
  | blank h => exact spanned_nil h offset
  | cons hgap hraw _ ih => exact .blanks_append hgap (.cons hraw.listed.ne_nil (ih _))

/-- **Coverage.** The lexemes of a line are the longest listed texts where they stand, their spans
follow each other, and the bytes in none of them are blanks. No character is unknown to the lexer, and
no escape of a double-quoted word lacks the character behind its backslash. -/
theorem lex_covers (line : List Char) :
    Covers (lex line) line ∧ Spanned 0 line (Lexeme.spans 0 (lex line)) ∧
      ∀ l ∈ lex line, l.token ≠ .error .unknown ∧ ∀ n, l.token ≠ .error (.escape (.dangling n)) := by
  have hcovers := covers_lex line
  refine ⟨hcovers, hcovers.spanned 0, ?_⟩
  intro l hl
  constructor
  · intro he
    obtain ⟨rest, hstuck⟩ := exists_stuck_of_mem_lex line l hl _ he
    exact hstuck.ne_unknown rfl
  · intro n he
    obtain ⟨rest, hstuck⟩ := exists_stuck_of_mem_lex line l hl _ he
    exact hstuck.ne_dangling n rfl

end ShellEngine.Line
