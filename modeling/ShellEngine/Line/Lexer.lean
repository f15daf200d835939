import ShellEngine.Line.Token

/-!
# Cutting a line into lexemes

At each place the longest token is taken. The first character settles which kinds are possible:
quotes and the hash sign open their own kinds, the operator characters theirs, and anything else
starts a bare word, except that a `2` right before a `>` belongs to the operator. Where `2>&1`
breaks off behind its ampersand, the two characters before that are a bare word. A character that
starts none of these would be an error of its own.

`next` reads one lexeme and returns a shorter rest; `lex` repeats it to the end.
-/

namespace ShellEngine.Line

/-- The characters that separate words. -/
def isGap (c : Char) : Bool :=
  c == ' ' || c == '\t' || c == '\r' || c == '\n' || c == '\x0c'

/-- The characters that end a bare word: blanks, operators, quotes and the hash sign. -/
def endsWord (c : Char) : Bool :=
  isGap c || c == '|' || c == '&' || c == ';' || c == '<' || c == '>' || c == '\'' || c == '"' ||
    c == '#'

/-- Splits the text after an opening double quote behind the items that a double-quoted word is
made of: any character but a quote or a backslash, or a backslash with a character that is no line
feed. `acc` holds the items so far, reversed. -/
def doubleBody (acc : List Char) : List Char → List Char × List Char
  | [] => (acc.reverse, [])
  | '"' :: rest => (acc.reverse, '"' :: rest)
  | '\\' :: [] => (acc.reverse, ['\\'])
  | '\\' :: c :: rest =>
    if c == '\n' then (acc.reverse, '\\' :: c :: rest) else doubleBody (c :: '\\' :: acc) rest
  | c :: rest => doubleBody (c :: acc) rest

theorem doubleBody_append (acc cs : List Char) :
    (doubleBody acc cs).1 ++ (doubleBody acc cs).2 = acc.reverse ++ cs := by
  fun_induction doubleBody acc cs <;> simp_all

/-- A double-quoted word, its opening quote already taken: the text it was read from, the token,
and the rest. Without a closing quote there is no word, and the stretch ends with its last item. -/
def doubleQuoted (cs : List Char) : List Char × Except LexError Token × List Char :=
  match doubleBody [] cs with
  | (body, '"' :: rest) =>
    let token := match unescape body with
      | .ok text => .ok (.word .double text)
      | .error e => .error (.escape e)
    ('"' :: body ++ ['"'], token, rest)
  | (body, rest) => ('"' :: body, .error .unterminated, rest)

/-- A single-quoted word, its opening quote already taken. -/
def singleQuoted (cs : List Char) : List Char × Except LexError Token × List Char :=
  let body := cs.takeWhile (· != '\'')
  match cs.dropWhile (· != '\'') with
  | _ :: rest => ('\'' :: body ++ ['\''], .ok (.word .single body), rest)
  | [] => ('\'' :: body, .error .unterminated, [])

/-- A bare word. A character that none can begin with is an error by itself. (Irreducible, so that
nothing tries to decide `endsWord` for a character that is not known.) -/
@[irreducible] def bareWord (c : Char) (cs : List Char) : List Char × Except LexError Token × List Char :=
  if endsWord c then ([c], .error .unknown, cs)
  else
    let text := c :: cs.takeWhile (!endsWord ·)
    (text, .ok (.word .bare text), cs.dropWhile (!endsWord ·))

/-- An operator token with the text it was read from. -/
def operator (raw : List Char) (token : Token) (rest : List Char) :
    List Char × Except LexError Token × List Char :=
  (raw, .ok token, rest)

/-- The lexeme that starts with the character `c`, which is no blank. -/
def scan (c : Char) (cs : List Char) : List Char × Except LexError Token × List Char :=
  match c, cs with
  | '"', _ => doubleQuoted cs
  | '\'', _ => singleQuoted cs
  | '#', _ =>
    let text := '#' :: cs.takeWhile (· != '\n')
    (text, .ok (.comment text), cs.dropWhile (· != '\n'))
  | '&', '&' :: rest => operator ['&', '&'] (.separator .and) rest
  | '&', _ => operator ['&'] (.separator .background) cs
  | '|', '|' :: rest => operator ['|', '|'] (.separator .or) rest
  | '|', _ => operator ['|'] (.separator .pipe) cs
  | ';', _ => operator [';'] (.separator .semi) cs
  | '>', '>' :: rest => operator ['>', '>'] (.redirection .append) rest
  | '>', _ => operator ['>'] (.redirection .overwrite) cs
  | '<', _ => operator ['<'] (.redirection .input) cs
  | '2', '>' :: '&' :: '1' :: rest => operator ['2', '>', '&', '1'] .errToOut rest
  | '2', '>' :: '&' :: rest => (['2', '>'], .ok (.word .bare ['2', '>']), '&' :: rest)
  | '2', '>' :: '>' :: rest => operator ['2', '>', '>'] (.redirection .errAppend) rest
  | '2', '>' :: rest => operator ['2', '>'] (.redirection .errOverwrite) rest
  | c, _ => bareWord c cs

theorem doubleQuoted_source (cs : List Char) :
    (doubleQuoted cs).1 ++ (doubleQuoted cs).2.2 = '"' :: cs := by
  have h := doubleBody_append [] cs
  unfold doubleQuoted
  split <;> rename_i heq <;> rw [heq] at h <;> simp_all

theorem singleQuoted_source (cs : List Char) :
    (singleQuoted cs).1 ++ (singleQuoted cs).2.2 = '\'' :: cs := by
  have h := List.takeWhile_append_dropWhile (p := (· != '\'')) (l := cs)
  unfold singleQuoted
  split
  · rename_i q rest heq
    have hq : q = '\'' := by
      have := List.head?_dropWhile_not (p := (· != '\'')) (l := cs)
      simp_all
    rw [heq] at h
    simp only [hq] at h
    simp [h]
  · rename_i heq
    rw [heq] at h
    simp_all

theorem bareWord_of_endsWord {c : Char} (h : endsWord c = true) (cs : List Char) :
    bareWord c cs = ([c], .error .unknown, cs) := by
  unfold bareWord
  exact if_pos h

theorem bareWord_of_not_endsWord {c : Char} (h : endsWord c = false) (cs : List Char) :
    bareWord c cs = (c :: cs.takeWhile (!endsWord ·),
      .ok (.word .bare (c :: cs.takeWhile (!endsWord ·))), cs.dropWhile (!endsWord ·)) := by
  unfold bareWord
  exact if_neg (by simp [h])

theorem bareWord_source (c : Char) (cs : List Char) :
    (bareWord c cs).1 ++ (bareWord c cs).2.2 = c :: cs := by
  by_cases h : endsWord c = true
  · simp [bareWord_of_endsWord h]
  · simp [bareWord_of_not_endsWord (Bool.eq_false_iff.mpr h)]

/-- A lexeme and the rest make up the text they were read from. -/
theorem scan_source (c : Char) (cs : List Char) : (scan c cs).1 ++ (scan c cs).2.2 = c :: cs := by
  unfold scan
  split <;> simp [doubleQuoted_source, singleQuoted_source, bareWord_source, operator]

/-- A lexeme takes at least one character. -/
theorem scan_ne_nil (c : Char) (cs : List Char) : (scan c cs).1 ≠ [] := by
  unfold scan
  split <;> try simp [operator]
  · unfold doubleQuoted; split <;> simp
  · unfold singleQuoted; split <;> simp
  · by_cases h : endsWord c = true
    · simp [bareWord_of_endsWord h]
    · simp [bareWord_of_not_endsWord (Bool.eq_false_iff.mpr h)]

theorem scan_length (c : Char) (cs : List Char) : (scan c cs).2.2.length ≤ cs.length := by
  have h := congrArg List.length (scan_source c cs)
  have hne := List.length_pos_iff.2 (scan_ne_nil c cs)
  simp only [List.length_append, List.length_cons] at h
  omega

/-- Cuts a line into lexemes; blanks after the last one belong to none. -/
def lex (line : List Char) : List Lexeme :=
  go [] line
where
  go (found : List Lexeme) (cs : List Char) : List Lexeme :=
    match _h : cs.dropWhile isGap with
    | [] => found.reverse
    | c :: rest =>
      let read := scan c rest
      go ({ gap := cs.takeWhile isGap, raw := read.1, token := read.2.1 } :: found) read.2.2
  termination_by cs.length
  decreasing_by
    have hs := (List.dropWhile_sublist (l := cs) (p := isGap)).length_le
    have hl := scan_length c rest
    rw [_h] at hs
    simp only [List.length_cons] at hs
    omega

end ShellEngine.Line
