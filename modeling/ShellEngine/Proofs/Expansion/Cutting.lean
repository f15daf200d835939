import ShellEngine.Line.Substitution

/-!
# Where a line is cut

The first embedded command of a line is found by reading the line from its start. What has been read
up to it holds no opener, so it can be put in front of any other text without a change to what is
found there (`Passes`), with one exception: a text that ends with a dollar sign makes an opener with
a parenthesis behind it.

A command with its delimiters takes a dollar sign and a parenthesis from the line, or two
backquotes. Whatever is to come back has to come with an output.
-/

namespace ShellEngine.Line.Substitution

/-! ## The text of an embedded command -/

inductive Delimited (inner : List Char) : List Char → Prop
  | parentheses : Delimited inner ('$' :: '(' :: inner ++ [')'])
  | backquotes : Delimited inner (backquote :: inner ++ [backquote])

theorem closing_eq {acc text inner after : List Char} {depth : Nat}
    (h : closing acc depth text = some (inner, after)) :
    acc.reverse ++ text = inner ++ ')' :: after := by
  fun_induction closing acc depth text with
  | case1 => cases h
  | case2 acc depth rest ih => simpa using ih h
  | case3 acc rest =>
    obtain ⟨rfl, rfl⟩ := Prod.mk.inj (Option.some.inj h)
    rfl
  | case4 acc depth rest ih => simpa using ih h
  | case5 acc depth c rest _ _ _ ih => simpa using ih h

theorem closingQuote_eq {text inner after : List Char}
    (h : closingQuote text = some (inner, after)) : text = inner ++ backquote :: after := by
  unfold closingQuote at h
  split at h
  · rename_i quote rest hdrop
    obtain ⟨rfl, rfl⟩ := Prod.mk.inj (Option.some.inj h)
    have hhead := List.head?_dropWhile_not (p := (· != backquote)) (l := text)
    have hsplit := List.takeWhile_append_dropWhile (p := (· != backquote)) (l := text)
    rw [hdrop] at hhead hsplit
    have hquote : quote = backquote := by simpa using hhead
    rw [hquote] at hsplit
    exact hsplit.symm
  · cases h

/-! ## Reading over a text -/

def behind (front : List Char) (f : Substitution) : Substitution :=
  { f with before := front ++ f.before }

@[simp] theorem behind_before (front : List Char) (f : Substitution) :
    (f.behind front).before = front ++ f.before := rfl

@[simp] theorem behind_after (front : List Char) (f : Substitution) :
    (f.behind front).after = f.after := rfl

theorem behind_behind (front before : List Char) (f : Substitution) :
    (f.behind before).behind front = f.behind (front ++ before) := by
  simp [behind]

/-- Whether a character opens an embedded command in front of a text. -/
def Opens (c : Char) (rest : List Char) : Prop := c = backquote ∨ c = '$' ∧ rest.head? = some '('

theorem findFrom_of_not_opens {c : Char} {rest : List Char} (h : ¬Opens c rest)
    (passed : List Char) : findFrom passed (c :: rest) = findFrom (c :: passed) rest := by
  rw [Opens, not_or, not_and] at h
  rw [findFrom, if_neg h.1]
  rintro tail rfl rfl
  exact h.2 rfl rfl

theorem findFrom_backquote (passed rest : List Char) :
    findFrom passed (backquote :: rest) =
      (closingQuote rest).map fun (inner, after) ↦ { before := passed.reverse, inner, after } := by
  rw [findFrom, if_pos rfl]
  rintro tail hquote rfl
  cases hquote

theorem findFrom_dollar (passed rest : List Char) :
    findFrom passed ('$' :: '(' :: rest) =
      (closing [] 0 rest).map fun (inner, after) ↦ { before := passed.reverse, inner, after } := by
  rw [findFrom]

theorem findFrom_eq (passed line : List Char) :
    findFrom passed line = (find line).map (behind passed.reverse) := by
  induction line generalizing passed with
  | nil => rfl
  | cons c rest ih =>
    by_cases hopens : Opens c rest
    · rcases hopens with rfl | ⟨rfl, hhead⟩
      · rw [find, findFrom_backquote, findFrom_backquote, Option.map_map]
        congr 1
        funext cut
        simp [behind]
      · obtain ⟨tail, rfl⟩ : ∃ tail, rest = '(' :: tail := List.head?_eq_some_iff.mp hhead
        rw [find, findFrom_dollar, findFrom_dollar, Option.map_map]
        congr 1
        funext cut
        simp [behind]
    · rw [find, findFrom_of_not_opens hopens, findFrom_of_not_opens hopens, ih, ih [c],
        Option.map_map]
      congr 1
      funext f
      simp [behind]

theorem find_cons_of_not_opens {c : Char} {rest : List Char} (h : ¬Opens c rest) :
    find (c :: rest) = (find rest).map (behind [c]) := by
  rw [find, findFrom_of_not_opens h, findFrom_eq]
  rfl

theorem exists_of_find_of_opens {c : Char} {rest : List Char} {f : Substitution}
    (h : Opens c rest) (hf : find (c :: rest) = some f) :
    f.before = [] ∧ ∃ body, Delimited f.inner body ∧ c :: rest = body ++ f.after := by
  rcases h with rfl | ⟨rfl, hhead⟩
  · rw [find, findFrom_backquote, Option.map_eq_some_iff] at hf
    obtain ⟨⟨inner, after⟩, hclose, rfl⟩ := hf
    exact ⟨rfl, _, .backquotes, by simp [closingQuote_eq hclose]⟩
  · obtain ⟨tail, rfl⟩ : ∃ tail, rest = '(' :: tail := List.head?_eq_some_iff.mp hhead
    rw [find, findFrom_dollar, Option.map_eq_some_iff] at hf
    obtain ⟨⟨inner, after⟩, hclose, rfl⟩ := hf
    have htail : tail = inner ++ ')' :: after := closing_eq hclose
    exact ⟨rfl, _, .parentheses, by simp [htail]⟩

/-- A cut takes the command with its delimiters out of the line. -/
theorem exists_of_find {line : List Char} {f : Substitution} (hf : find line = some f) :
    ∃ body, Delimited f.inner body ∧ line = f.before ++ body ++ f.after := by
  induction line generalizing f with
  | nil => cases hf
  | cons c rest ih =>
    by_cases hopens : Opens c rest
    · obtain ⟨hbefore, body, hbody, hline⟩ := exists_of_find_of_opens hopens hf
      exact ⟨body, hbody, by rw [hbefore, hline, List.nil_append]⟩
    · rw [find_cons_of_not_opens hopens, Option.map_eq_some_iff] at hf
      obtain ⟨g, hg, rfl⟩ := hf
      obtain ⟨body, hbody, hrest⟩ := ih hg
      exact ⟨body, hbody, by simp [hrest]⟩

theorem length_after_lt {line : List Char} {f : Substitution} (hf : find line = some f) :
    f.after.length < line.length := by
  obtain ⟨body, hbody, rfl⟩ := exists_of_find hf
  have hpos : 0 < body.length := by cases hbody <;> simp
  simp only [List.length_append]
  omega

/-! ## Texts that are read over -/

/-- A text without an opener, also together with what comes behind it. -/
def Passes (front : List Char) : Prop := ∀ rest, find (front ++ rest) = (find rest).map (behind front)

theorem passes_nil : Passes [] := fun rest ↦ by
  cases h : find rest <;> simp [h, behind]

theorem Passes.append {front before : List Char} (h : Passes front) (h' : Passes before) :
    Passes (front ++ before) := fun rest ↦ by
  rw [List.append_assoc, h, h', Option.map_map]
  congr 1
  funext f
  exact behind_behind front before f

/-- A character of which no opener is made. -/
def isPlain (c : Char) : Bool := c != backquote && c != '$' && c != '('

theorem not_opens_of_isPlain {c : Char} (h : isPlain c = true) (rest : List Char) :
    ¬Opens c rest := by
  simp only [isPlain, Bool.and_eq_true, bne_iff_ne] at h
  rintro (hquote | ⟨hdollar, -⟩)
  · exact h.1.1 hquote
  · exact h.1.2 hdollar

theorem passes_of_forall_isPlain {text : List Char} (h : ∀ c ∈ text, isPlain c = true) :
    Passes text := by
  induction text with
  | nil => exact passes_nil
  | cons c text ih =>
    obtain ⟨hc, htext⟩ := List.forall_mem_cons.mp h
    have hsingle : Passes [c] := fun rest ↦ find_cons_of_not_opens (not_opens_of_isPlain hc rest)
    exact hsingle.append (ih htext)

/-- What was read up to a command is read over in front of any text that makes no opener with its
end. -/
theorem find_before_append {line : List Char} {f : Substitution} (hf : find line = some f)
    {rest : List Char} (hrest : f.before.getLast? = some '$' → rest.head? ≠ some '(') :
    find (f.before ++ rest) = (find rest).map (behind f.before) := by
  induction line generalizing f with
  | nil => cases hf
  | cons c tail ih =>
    by_cases hopens : Opens c tail
    · rw [(exists_of_find_of_opens hopens hf).1]
      exact passes_nil rest
    · rw [find_cons_of_not_opens hopens, Option.map_eq_some_iff] at hf
      obtain ⟨g, hg, rfl⟩ := hf
      obtain ⟨body, -, rfl⟩ := exists_of_find hg
      have hlast : g.before.getLast? = some '$' → rest.head? ≠ some '(' := by
        intro hdollar
        refine hrest ?_
        rw [behind_before, List.getLast?_append, hdollar]
        rfl
      have hnot : ¬Opens c (g.before ++ rest) := by
        rintro (hquote | ⟨rfl, hhead⟩)
        · exact hopens (Or.inl hquote)
        · cases hbefore : g.before with
          | nil =>
            rw [hbefore] at hhead
            exact hrest (by simp [hbefore]) hhead
          | cons d ds =>
            rw [hbefore] at hhead
            exact hopens (Or.inr ⟨rfl, by rw [hbefore]; exact hhead⟩)
      rw [behind_before, List.singleton_append, List.cons_append, find_cons_of_not_opens hnot,
        ih hg hlast, Option.map_map]
      rfl

/-- What was read up to a command passes together with a plain text in the place of the command,
unless nothing comes between a dollar sign and what follows. -/
theorem passes_before_append {line : List Char} {f : Substitution} (hf : find line = some f)
    {output : List Char} (hplain : ∀ c ∈ output, isPlain c = true)
    (hdollar : f.before.getLast? = some '$' → output ≠ []) : Passes (f.before ++ output) := by
  intro rest
  have hhead : f.before.getLast? = some '$' → (output ++ rest).head? ≠ some '(' := by
    intro hlast
    obtain ⟨c, cs, rfl⟩ := List.exists_cons_of_ne_nil (hdollar hlast)
    have hc := hplain c List.mem_cons_self
    rw [List.cons_append, List.head?_cons, ne_eq, Option.some.injEq]
    rintro rfl
    exact absurd hc (by decide)
  rw [List.append_assoc, find_before_append hf hhead, passes_of_forall_isPlain hplain,
    Option.map_map]
  congr 1
  funext g
  exact behind_behind f.before output g

end ShellEngine.Line.Substitution
