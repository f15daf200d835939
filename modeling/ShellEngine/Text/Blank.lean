/-!
# Blank characters

The characters that Unicode calls white space, and the trimming and splitting that rest on them.
The command language itself separates words by a narrower set (`Line.Lexer`); this one is used
wherever a whole text is trimmed or cut into fields.
-/

namespace ShellEngine.Text

/-- The characters with the Unicode property `White_Space`. -/
def isBlank (c : Char) : Bool :=
  let n := c.toNat
  (9 ≤ n && n ≤ 13) || n == 0x20 || n == 0x85 || n == 0xA0 || n == 0x1680 ||
    (0x2000 ≤ n && n ≤ 0x200A) || n == 0x2028 || n == 0x2029 || n == 0x202F || n == 0x205F ||
    n == 0x3000

theorem isBlank_of_isWhitespace {c : Char} (h : c.isWhitespace = true) : isBlank c = true := by
  simp only [Char.isWhitespace, Bool.or_eq_true, decide_eq_true_eq] at h
  rcases h with ((h | h) | h) | h <;> subst h <;> decide

/-- Drops the blanks at both ends. -/
def trim (cs : List Char) : List Char :=
  (((cs.dropWhile isBlank).reverse).dropWhile isBlank).reverse

/-- The maximal blank-free runs, in order. -/
def fields (cs : List Char) : List (List Char) :=
  go [] [] cs
where
  /-- `field` is the run being read, reversed; `found` the finished runs, reversed. -/
  go (found : List (List Char)) (field : List Char) : List Char → List (List Char)
    | [] => (close found field).reverse
    | c :: rest => if isBlank c then go (close found field) [] rest else go found (c :: field) rest
  close (found : List (List Char)) (field : List Char) : List (List Char) :=
    if field.isEmpty then found else field.reverse :: found

/-- Cuts a text at every line feed. A line feed at the end closes the last line and opens none; a
carriage return right before a line feed belongs to the break. -/
def lines (cs : List Char) : List (List Char) :=
  go [] [] cs
where
  go (found : List (List Char)) (line : List Char) : List Char → List (List Char)
    | [] => (if line.isEmpty then found else line.reverse :: found).reverse
    | '\n' :: rest => go ((dropReturn line).reverse :: found) [] rest
    | c :: rest => go found (c :: line) rest
  dropReturn : List Char → List Char
    | '\r' :: line => line
    | line => line

end ShellEngine.Text
