import ShellEngine.Proofs.Line.Linking

/-!
# Printing commands and reading them back

A script is a list of commands with the separators between them. It is printed in the plainest way:
every word and every path in double quotes, with a backslash in front of each backslash and each
double quote, operators as they are, and one space between all pieces. Reading the printed line
makes one stage of each command, with its arguments and redirections, linked as the separators say
(`parse_print`). Nothing is asked of the words: they may be empty, hold line feeds, or spell
operators and quotes.

The items of a command come in any order, and a stream may be redirected more than once; the last
redirection of it counts.
-/

namespace ShellEngine.Line

/-! ## Quoting -/

/-- A text with a backslash in front of each backslash and each double quote. -/
def escape (text : List Char) : List Char :=
  text.flatMap fun c ↦ if c = '\\' ∨ c = '"' then ['\\', c] else [c]

def quote (text : String) : String := String.ofList ('"' :: escape text.toList ++ ['"'])

theorem escape_cons_of_plain {c : Char} (hb : c ≠ '\\') (hq : c ≠ '"') (cs : List Char) :
    escape (c :: cs) = c :: escape cs := by
  simp [escape, hb, hq]

theorem escape_backslash (cs : List Char) : escape ('\\' :: cs) = '\\' :: '\\' :: escape cs := rfl

theorem escape_quote (cs : List Char) : escape ('"' :: cs) = '\\' :: '"' :: escape cs := rfl

theorem quotable_escape (cs : List Char) : Quotable (escape cs) := by
  induction cs with
  | nil => exact .nil
  | cons c cs ih =>
    by_cases hb : c = '\\'
    · rw [hb, escape_backslash]
      exact .escape (by decide) ih
    · by_cases hq : c = '"'
      · rw [hq, escape_quote]
        exact .escape (by decide) ih
      · rw [escape_cons_of_plain hb hq]
        exact .plain hq hb ih

theorem unescape_go_escape (acc cs : List Char) (offset : Nat) :
    unescape.go acc offset (escape cs) = .ok (acc.reverse ++ cs) := by
  induction cs generalizing acc offset with
  | nil =>
    rw [escape, List.flatMap_nil, unescape.go, List.append_nil]
  | cons c cs ih =>
    by_cases hb : c = '\\'
    · subst hb
      rw [escape_backslash, unescape.go, ih]
      · simp [escaped]
      · simp
    · by_cases hq : c = '"'
      · subst hq
        rw [escape_quote, unescape.go, ih]
        · simp [escaped]
        · simp
      · rw [escape_cons_of_plain hb hq, unescape.go, ih]
        · simp
        · simp [hb]
        · simp [hb]
        · simp [hb]

theorem unescape_escape (cs : List Char) : unescape (escape cs) = .ok cs :=
  unescape_go_escape [] cs 0

theorem toList_quote (text : String) :
    (quote text).toList = '"' :: escape text.toList ++ ['"'] := String.toList_ofList

theorem stands_quote (text : String) (rest : List Char) :
    Stands ('"' :: escape text.toList ++ ['"']) (.word .double text.toList) rest :=
  .double (quotable_escape _) (unescape_escape _) rest

/-! ## Scripts -/

/-- What a command is made of. -/
inductive Item
  | word (text : String)
  | redirect (operator : Redirection) (path : String)
  /-- `2>&1` -/
  | errToOut
  deriving DecidableEq, Repr

namespace Item

def word? : Item → Option String
  | .word text => some text
  | _ => none

def input? : Item → Option Input
  | .redirect .input path => some (if path = "/dev/null" then .null else .file path)
  | _ => none

def output? : Item → Option Output
  | .redirect .overwrite path => some (if path = "/dev/null" then .null else .overwrite path)
  | .redirect .append path => some (if path = "/dev/null" then .null else .append path)
  | _ => none

def error? : Item → Option Output
  | .redirect .errOverwrite path => some (if path = "/dev/null" then .null else .overwrite path)
  | .redirect .errAppend path => some (if path = "/dev/null" then .null else .append path)
  | .errToOut => some .same
  | _ => none

/-- The words that the item is printed as. -/
def print : Item → List String
  | .word text => [quote text]
  | .redirect operator path => [operator.symbol, quote path]
  | .errToOut => ["2>&1"]

end Item

/-- A command with at least one word. -/
structure Command where
  items : List Item
  argv_ne_nil : items.filterMap Item.word? ≠ []

namespace Command

def argv (c : Command) : List String := c.items.filterMap Item.word?

def input? (c : Command) : Option Input := (c.items.filterMap Item.input?).getLast?

def output? (c : Command) : Option Output := (c.items.filterMap Item.output?).getLast?

def error? (c : Command) : Option Output := (c.items.filterMap Item.error?).getLast?

def print (c : Command) : List String := c.items.flatMap Item.print

end Command

/-- The rule that a closer links its stage to the next one by. -/
def Closer.rule : Closer → Continuation
  | some .pipe => .concurrent
  | some .and => .onSuccess
  | some .or => .onFailure
  | some .semi => .unconditional
  | some .background => .concurrent
  | none => .unconditional

/-- The stage of a command between two closers. -/
def Command.stage (c : Command) (before after : Closer) : Stage where
  argv := c.argv
  text := " ".intercalate c.print
  stdin := c.input?.getD (if before = some .pipe then .pipe else .inherit)
  stdout := c.output?.getD (if after = some .pipe then .pipe else .inherit)
  stderr := c.error?.getD .inherit
  next := after.rule
  waits := decide (after ≠ some .pipe ∧ after ≠ some .background)
  graceful := decide (after = some .background)

/-- Commands with the separators between them, and what closes the last one. -/
structure Script where
  closed : List (Command × Separator)
  last : Command
  closer : Closer
  /-- The line may end in a separator that promises no command. -/
  closer_open : promisesCommand closer = false

namespace Script

/-- The printed line, one space between all pieces. -/
def print (s : Script) : String :=
  " ".intercalate <| (s.closed.flatMap fun (c, sep) ↦ c.print ++ [sep.symbol])
    ++ s.last.print ++ s.closer.toList.map Separator.symbol

/-- The stages of the commands, the first one behind `before`. -/
def stagesFrom (before : Closer) (last : Command) (closer : Closer) :
    List (Command × Separator) → List Stage
  | [] => [last.stage before closer]
  | (c, sep) :: rest => c.stage before (some sep) :: stagesFrom (some sep) last closer rest

/-- One stage for each command. -/
def stages (s : Script) : List Stage := stagesFrom none s.last s.closer s.closed

end Script

/-! ## The pieces of a printed line -/

/-- A piece behind one space. -/
def Piece.spaced (raw : String) (token : Token) : Piece :=
  { gap := [' '], raw := raw.toList, token }

@[simp] theorem Piece.raw_spaced (raw : String) (token : Token) :
    (Piece.spaced raw token).raw = raw.toList := rfl

/-- A piece behind one space that stands in front of any other such piece, and at the end of a
line. -/
structure Piece.Spaced (p : Piece) : Prop where
  gap : p.gap = [' ']
  stands : ∀ rest : List Char, (∀ c ∈ rest.head?, c = ' ') → Stands p.raw p.token rest
  head : ∀ c ∈ p.raw.head?, Text.isBlank c = false
  last : ∀ c ∈ p.raw.getLast?, Text.isBlank c = false

theorem spaced_quote (text : String) :
    (Piece.spaced (quote text) (.word .double text.toList)).Spaced := by
  rw [Piece.spaced, toList_quote]
  refine ⟨rfl, fun rest _ ↦ stands_quote text rest, ?_, ?_⟩
  · rintro c ⟨⟩
    rfl
  · rw [List.getLast?_concat]
    rintro c ⟨⟩
    rfl

theorem head?_ne_of_space {rest : List Char} (h : ∀ c ∈ rest.head?, c = ' ') {d : Char}
    (hd : d ≠ ' ') : rest.head? ≠ some d := fun hhead ↦ hd (h d hhead)

theorem spaced_redirection (r : Redirection) :
    (Piece.spaced r.symbol (.redirection r)).Spaced := by
  refine ⟨rfl, fun rest hrest ↦ ?_, ?_, ?_⟩
  · cases r with
    | input => exact .input rest
    | overwrite => exact .overwrite (head?_ne_of_space hrest (by decide))
    | append => exact .append rest
    | errOverwrite =>
      exact .errOverwrite (head?_ne_of_space hrest (by decide))
        (head?_ne_of_space hrest (by decide))
    | errAppend => exact .errAppend rest
  · cases r <;> rintro c ⟨⟩ <;> rfl
  · cases r <;> rintro c ⟨⟩ <;> rfl

theorem spaced_separator (sep : Separator) :
    (Piece.spaced sep.symbol (.separator sep)).Spaced := by
  refine ⟨rfl, fun rest hrest ↦ ?_, ?_, ?_⟩
  · cases sep with
    | pipe => exact .pipe (head?_ne_of_space hrest (by decide))
    | and => exact .and rest
    | or => exact .or rest
    | semi => exact .semi rest
    | background => exact .background (head?_ne_of_space hrest (by decide))
  · cases sep <;> rintro c ⟨⟩ <;> rfl
  · cases sep <;> rintro c ⟨⟩ <;> rfl

theorem spaced_errToOut : (Piece.spaced "2>&1" .errToOut).Spaced := by
  refine ⟨rfl, fun rest _ ↦ .errToOut rest, ?_, ?_⟩
  · rintro c ⟨⟩
    rfl
  · rintro c ⟨⟩
    rfl

theorem standing_of_spaced {ps : List Piece} (h : ∀ p ∈ ps, p.Spaced) : Standing ps [] := by
  induction ps with
  | nil => trivial
  | cons p ps ih =>
    obtain ⟨hp, hps⟩ := List.forall_mem_cons.mp h
    refine ⟨by simp [hp.gap, isGap], hp.stands _ ?_, ih hps⟩
    cases ps with
    | nil => simp
    | cons q ps => simp [(hps q List.mem_cons_self).gap]

theorem sourceOf_closeGap_of_spaced {ps : List Piece} (h : ∀ p ∈ ps, p.Spaced) :
    sourceOf (closeGap ps) = [' '].intercalate (ps.map Piece.raw) := by
  induction ps with
  | nil => rfl
  | cons p ps ih =>
    obtain ⟨hp, hps⟩ := List.forall_mem_cons.mp h
    cases ps with
    | nil => simp [closeGap]
    | cons q ps =>
      have hrest := ih hps
      rw [closeGap, sourceOf_cons] at hrest
      rw [List.map_cons, List.map_cons, List.intercalate_cons_cons, ← List.map_cons, ← hrest,
        closeGap, sourceOf_cons, sourceOf_cons, (hps q List.mem_cons_self).gap]
      simp

theorem trim_of_spaced {ps : List Piece} (h : ∀ p ∈ ps, p.Spaced) :
    Text.trim (sourceOf (closeGap ps)) = sourceOf (closeGap ps) := by
  refine Text.strip_of_ends ?_ ?_
  · cases ps with
    | nil => simp [closeGap]
    | cons p ps =>
      obtain ⟨hp, -⟩ := List.forall_mem_cons.mp h
      obtain ⟨c, cs, hraw, -⟩ := (hp.stands [] (by simp)).exists_cons
      have hhead := hp.head
      rw [hraw] at hhead
      simpa [closeGap, hraw] using hhead
  · rcases List.eq_nil_or_concat ps with rfl | ⟨qs, p, rfl⟩
    · simp [closeGap]
    · rw [List.concat_eq_append] at h ⊢
      have hp := h p (by simp)
      obtain ⟨c, cs, hraw, -⟩ := (hp.stands [] (by simp)).exists_cons
      rw [getLast?_sourceOf_closeGap qs (by simp [hraw])]
      exact hp.last

def Item.pieces : Item → List Piece
  | .word text => [.spaced (quote text) (.word .double text.toList)]
  | .redirect operator path =>
    [.spaced operator.symbol (.redirection operator),
      .spaced (quote path) (.word .double path.toList)]
  | .errToOut => [.spaced "2>&1" .errToOut]

theorem Item.spaced_of_mem_pieces {i : Item} {p : Piece} (h : p ∈ i.pieces) : p.Spaced := by
  cases i with
  | word text =>
    rw [List.mem_singleton.mp h]
    exact spaced_quote text
  | redirect operator path =>
    rcases List.mem_pair.mp h with rfl | rfl
    · exact spaced_redirection operator
    · exact spaced_quote path
  | errToOut =>
    rw [List.mem_singleton.mp h]
    exact spaced_errToOut

theorem Item.raw_pieces (i : Item) : i.pieces.map Piece.raw = i.print.map String.toList := by
  cases i <;> simp [pieces, print]

theorem Item.separator?_of_mem_pieces {i : Item} {p : Piece} (h : p ∈ i.pieces) :
    p.separator? = none ∧ p.isComment = false := by
  cases i with
  | word text =>
    rw [List.mem_singleton.mp h]
    exact ⟨rfl, rfl⟩
  | redirect operator path =>
    rcases List.mem_pair.mp h with rfl | rfl
    · exact ⟨rfl, rfl⟩
    · exact ⟨rfl, rfl⟩
  | errToOut =>
    rw [List.mem_singleton.mp h]
    exact ⟨rfl, rfl⟩

def Command.pieces (c : Command) : List Piece := c.items.flatMap Item.pieces

theorem Command.spaced_of_mem_pieces {c : Command} {p : Piece} (h : p ∈ c.pieces) : p.Spaced := by
  obtain ⟨i, -, hp⟩ := List.mem_flatMap.mp h
  exact Item.spaced_of_mem_pieces hp

theorem Command.raw_pieces (c : Command) : c.pieces.map Piece.raw = c.print.map String.toList := by
  rw [pieces, print, List.map_flatMap, List.map_flatMap]
  exact congrArg (c.items.flatMap ·) (funext Item.raw_pieces)

/-- The pieces of a list of commands with their separators, and of the last command. -/
def piecesFrom (last : Command) (closer : Closer) (closed : List (Command × Separator)) :
    List Piece :=
  (closed.flatMap fun (c, sep) ↦ c.pieces ++ [.spaced sep.symbol (.separator sep)])
    ++ last.pieces ++ closer.toList.map fun sep ↦ .spaced sep.symbol (.separator sep)

theorem spaced_of_mem_piecesFrom {last : Command} {closer : Closer}
    {closed : List (Command × Separator)} {p : Piece} (h : p ∈ piecesFrom last closer closed) :
    p.Spaced := by
  rw [piecesFrom, List.mem_append, List.mem_append, List.mem_flatMap, List.mem_map] at h
  rcases h with (⟨⟨c, sep⟩, -, h⟩ | h) | ⟨sep, -, rfl⟩
  · rcases List.mem_append.mp h with h | h
    · exact Command.spaced_of_mem_pieces h
    · rw [List.mem_singleton.mp h]
      exact spaced_separator sep
  · exact Command.spaced_of_mem_pieces h
  · exact spaced_separator sep

theorem raw_piecesFrom (last : Command) (closer : Closer) (closed : List (Command × Separator)) :
    (piecesFrom last closer closed).map Piece.raw
      = ((closed.flatMap fun (c, sep) ↦ c.print ++ [sep.symbol])
        ++ last.print ++ closer.toList.map Separator.symbol).map String.toList := by
  simp only [piecesFrom, List.map_append, List.map_flatMap, Command.raw_pieces, List.map_map]
  rfl

theorem intercalate_eq {words : List String} {ps : List Piece} (h : ∀ p ∈ ps, p.Spaced)
    (hraw : ps.map Piece.raw = words.map String.toList) :
    " ".intercalate words = String.ofList (sourceOf (closeGap ps)) := by
  have hspace : " ".toList = [' '] := rfl
  rw [sourceOf_closeGap_of_spaced h, hraw, ← hspace, ← String.toList_intercalate,
    String.ofList_toList]

/-! ## The stage of a command -/

def Draft.take (d : Draft) (i : Item) : Draft where
  argv := i.word?.toList ++ d.argv
  stdin := i.input?.or d.stdin
  stdout := i.output?.or d.stdout
  stderr := i.error?.or d.stderr
  growing := i.word?.isSome

theorem Draft.foldlM_item {d : Draft} (h : d.pending = none) (i : Item) :
    i.pieces.foldlM Draft.add d = .ok (d.take i) := by
  obtain ⟨argv, stdin, stdout, stderr, pending, growing⟩ := d
  cases h
  cases i with
  | word text =>
    simp [Item.pieces, Piece.spaced, Draft.add, Draft.addWord, Draft.take, Item.word?, Item.input?,
      Item.output?, Item.error?, pure, Except.pure, bind, Except.bind]
  | redirect operator path =>
    cases operator <;>
      simp [Item.pieces, Piece.spaced, Draft.add, Draft.addWord, Draft.redirect, Draft.take,
        Item.word?, Item.input?, Item.output?, Item.error?, inputOf, overwriteOf, appendOf,
        nullDevice, pure, Except.pure, bind, Except.bind]
  | errToOut => rfl

theorem Draft.foldlM_items {d : Draft} (h : d.pending = none) (items : List Item) :
    (items.flatMap Item.pieces).foldlM Draft.add d = .ok (items.foldl Draft.take d) := by
  induction items generalizing d with
  | nil => rfl
  | cons i items ih =>
    rw [List.flatMap_cons, List.foldlM_append, Draft.foldlM_item h, List.foldl_cons]
    exact ih rfl

theorem getLast?_cons_or {α : Type} (a : α) (l : List α) (b : Option α) :
    (a :: l).getLast?.or b = l.getLast?.or (some a) := by
  cases h : l.getLast? <;> simp [List.getLast?_cons, h]

/-- A field that each item may set is left as the last one sets it. -/
theorem getLast?_filterMap_cons_or {α β : Type} (f : α → Option β) (a : α) (l : List α)
    (b : Option β) :
    ((a :: l).filterMap f).getLast?.or b = (l.filterMap f).getLast?.or ((f a).or b) := by
  cases h : f a with
  | none => rw [List.filterMap_cons_none h, Option.none_or]
  | some c => rw [List.filterMap_cons_some h, getLast?_cons_or, Option.some_or]

theorem Draft.foldl_take (items : List Item) (d : Draft) (h : d.pending = none) :
    ∃ growing, items.foldl Draft.take d =
      { argv := (items.filterMap Item.word?).reverse ++ d.argv
        stdin := (items.filterMap Item.input?).getLast?.or d.stdin
        stdout := (items.filterMap Item.output?).getLast?.or d.stdout
        stderr := (items.filterMap Item.error?).getLast?.or d.stderr
        growing := growing } := by
  induction items generalizing d with
  | nil =>
    obtain ⟨argv, stdin, stdout, stderr, pending, growing⟩ := d
    cases h
    exact ⟨growing, rfl⟩
  | cons i items ih =>
    obtain ⟨growing, hrest⟩ := ih (d.take i) rfl
    refine ⟨growing, ?_⟩
    have hwords : (items.filterMap Item.word?).reverse ++ (d.take i).argv
        = ((i :: items).filterMap Item.word?).reverse ++ d.argv := by
      rw [Draft.take]
      cases hw : i.word? with
      | none => rw [List.filterMap_cons_none hw]; rfl
      | some text => rw [List.filterMap_cons_some hw]; simp
    rw [List.foldl_cons, hrest, hwords, getLast?_filterMap_cons_or, getLast?_filterMap_cons_or,
      getLast?_filterMap_cons_or]
    rfl

theorem Command.ofPieces_eq (c : Command) :
    ∃ growing, Draft.ofPieces c.pieces = .ok
      { argv := c.argv.reverse
        stdin := c.input?
        stdout := c.output?
        stderr := c.error?
        growing := growing } := by
  obtain ⟨growing, hd⟩ := Draft.foldl_take c.items {} rfl
  refine ⟨growing, ?_⟩
  rw [Draft.ofPieces, Command.pieces, Draft.foldlM_items rfl, hd]
  simp only [List.append_nil, Option.or_none]
  rfl

theorem Command.separator?_of_mem_pieces {c : Command} : ∀ p ∈ c.pieces, p.separator? = none := by
  intro p hp
  obtain ⟨i, -, hp⟩ := List.mem_flatMap.mp hp
  exact (Item.separator?_of_mem_pieces hp).1

theorem Command.bareSpan_pieces (c : Command) : bareSpan c.pieces = c.pieces := by
  have hcomment : ∀ p ∈ c.pieces, p.isComment = false := by
    intro p hp
    obtain ⟨i, -, hp⟩ := List.mem_flatMap.mp hp
    exact (Item.separator?_of_mem_pieces hp).2
  exact Text.strip_of_ends (fun p hp ↦ hcomment p (List.mem_of_mem_head? hp))
    fun p hp ↦ hcomment p (List.mem_of_getLast? hp)

/-- Before it is linked, the stage is that of the command between no closers. -/
theorem Command.fragment_stage (c : Command) (closer : Closer) :
    Fragment.stage { pieces := c.pieces, closer } = .ok (c.stage none none) := by
  obtain ⟨growing, hd⟩ := c.ofPieces_eq
  have htext := intercalate_eq (fun p ↦ Command.spaced_of_mem_pieces) c.raw_pieces
  have hargv : c.argv.reverse ≠ [] := fun h ↦ c.argv_ne_nil (List.reverse_eq_nil_iff.mp h)
  rw [Fragment.stage_eq, c.bareSpan_pieces, hd, Except.bind, Draft.stage_eq_ok_iff]
  refine ⟨rfl, hargv, ?_⟩
  rw [spanText_eq, c.bareSpan_pieces, ← htext]
  simp [Command.stage, Closer.rule]

theorem Command.fragment_isVacant (c : Command) (closer : Closer) :
    Fragment.isVacant { pieces := c.pieces, closer } = .ok false := by
  obtain ⟨growing, hd⟩ := c.ofPieces_eq
  rw [Fragment.isVacant_eq, c.bareSpan_pieces, hd]
  have hargv : c.argv ≠ [] := c.argv_ne_nil
  simp [Except.map, Draft.isVacant, hargv]

theorem Item.input?_ne_inherit (i : Item) : i.input? ≠ some .inherit := by
  unfold input?
  split
  · split <;> simp
  · simp

theorem Item.output?_ne_inherit (i : Item) : i.output? ≠ some .inherit := by
  unfold output?
  split
  · split <;> simp
  · split <;> simp
  · simp

theorem Command.input?_ne_inherit (c : Command) : c.input? ≠ some .inherit := by
  intro h
  obtain ⟨i, -, hi⟩ := List.mem_filterMap.mp (List.mem_of_getLast? h)
  exact i.input?_ne_inherit hi

theorem Command.output?_ne_inherit (c : Command) : c.output? ≠ some .inherit := by
  intro h
  obtain ⟨i, -, hi⟩ := List.mem_filterMap.mp (List.mem_of_getLast? h)
  exact i.output?_ne_inherit hi

theorem Command.linkBefore_stage (c : Command) (before : Closer) :
    linkBefore (before == some .pipe) (c.stage none none) = c.stage before none := by
  have hinput := c.input?_ne_inherit
  by_cases hpipe : before = some .pipe
  · cases hin : c.input? <;> simp_all [linkBefore, Command.stage]
  · simp [linkBefore, Command.stage, hpipe]

theorem Command.linkAfter_stage (c : Command) (before : Closer) (sep : Separator) :
    linkAfter sep (c.stage before none) = c.stage before (some sep) := by
  have houtput := c.output?_ne_inherit
  cases sep with
  | pipe => cases hout : c.output? <;> simp_all [linkAfter, Command.stage, Closer.rule]
  | _ => simp [linkAfter, Command.stage, Closer.rule]

/-! ## Reading a script back -/

/-- Nothing behind a separator makes no stage, if the separator promises none. -/
theorem link_vacant {before : Closer} (h : promisesCommand before = false) (found : List Stage) :
    link found before [{ pieces := [], closer := none }] = .ok found.reverse := by
  have hvacant : Fragment.isVacant { pieces := [], closer := none } = .ok true := rfl
  rw [link, hvacant]
  simp [bind, Except.bind, h]

theorem link_piecesFrom (last : Command) {closer : Closer} (hopen : promisesCommand closer = false)
    (closed : List (Command × Separator)) (found : List Stage) (before : Closer) :
    link found before (fragments (piecesFrom last closer closed))
      = .ok (found.reverse ++ Script.stagesFrom before last closer closed) := by
  induction closed generalizing found before with
  | nil =>
    cases closer with
    | none =>
      have hpieces : piecesFrom last none [] = last.pieces := by simp [piecesFrom]
      rw [hpieces, fragments_of_forall last.separator?_of_mem_pieces, link,
        last.fragment_isVacant, last.fragment_stage]
      simp [bind, Except.bind, link, last.linkBefore_stage, Script.stagesFrom]
    | some sep =>
      have hpieces : piecesFrom last (some sep) []
          = last.pieces ++ .spaced sep.symbol (.separator sep) :: [] := by simp [piecesFrom]
      rw [hpieces, fragments_append_cons last.separator?_of_mem_pieces rfl,
        fragments_of_forall (List.forall_mem_nil _), link, last.fragment_stage]
      simp only [bind, Except.bind, last.linkBefore_stage, last.linkAfter_stage]
      rw [link_vacant hopen, List.reverse_cons, Script.stagesFrom]
  | cons head closed ih =>
    obtain ⟨c, sep⟩ := head
    have hpieces : piecesFrom last closer ((c, sep) :: closed)
        = c.pieces ++ .spaced sep.symbol (.separator sep) :: piecesFrom last closer closed := by
      simp [piecesFrom]
    rw [hpieces, fragments_append_cons c.separator?_of_mem_pieces rfl, link, c.fragment_stage]
    simp only [bind, Except.bind, c.linkBefore_stage, c.linkAfter_stage, ih]
    simp [Script.stagesFrom]

/-- **Reading undoes printing.** A printed script is read as one stage for each command, with its
arguments and redirections, linked as its separators say. -/
theorem parse_print (s : Script) : parse s.print = .ok (Plan.ofStages s.print s.stages) := by
  have hspaced : ∀ p ∈ piecesFrom s.last s.closer s.closed, p.Spaced :=
    fun p ↦ spaced_of_mem_piecesFrom
  have hprint : s.print
      = String.ofList (sourceOf (closeGap (piecesFrom s.last s.closer s.closed))) :=
    intercalate_eq hspaced (raw_piecesFrom _ _ _)
  have hpieces : pieces (sourceOf (closeGap (piecesFrom s.last s.closer s.closed)))
      = .ok (closeGap (piecesFrom s.last s.closer s.closed)) :=
    pieces_eq_ok_iff.mpr ⟨[], by simp, standing_closeGap (standing_of_spaced hspaced), by simp⟩
  rw [hprint, parse_ofList hpieces, link_closeGap, link_piecesFrom s.last s.closer_open,
    trim_of_spaced hspaced]
  rfl

/-- What is printed for a word that holds a quote, and for one that spells an operator. -/
example : Script.print
    { closed :=
        [({ items := [.word "a\"b", .redirect .append "x"], argv_ne_nil := by decide }, .pipe)]
      last := { items := [.word ">"], argv_ne_nil := by decide }
      closer := none
      closer_open := rfl } = "\"a\\\"b\" >> \"x\" | \">\"" := by
  decide +kernel

end ShellEngine.Line
