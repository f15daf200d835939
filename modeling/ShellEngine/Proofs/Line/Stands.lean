import ShellEngine.Line.Lexer
import ShellEngine.Proofs.Text.Strip

/-!
# Where a token stands

The lexer takes the longest token at each place. What that means is said here token by token, in a
relation that does not mention how the lexer scans: `Stands raw token rest` holds when `raw` spells
`token` and `rest` does not go on in a way that would make it longer. `scan_eq_ok_iff` is the
bridge.

Most tokens look at no more than the next character. The exception is `2>`, which in front of an
ampersand without a `1` is no operator but a word (`Stands.broken`): there the text that follows
decides what kind of token it is, and not only where it ends.
-/

namespace ShellEngine.Line

/-! ## Double-quoted text -/

/-- What may stand between double quotes: characters that are neither a quote nor a backslash, and
backslashes with the character after them, which is no line feed. -/
inductive Quotable : List Char → Prop
  | nil : Quotable []
  | plain {c : Char} {cs : List Char} (hq : c ≠ '"') (hb : c ≠ '\\') (h : Quotable cs) :
      Quotable (c :: cs)
  | escape {c : Char} {cs : List Char} (hn : c ≠ '\n') (h : Quotable cs) :
      Quotable ('\\' :: c :: cs)

theorem doubleBody_quotable_append {body : List Char} (h : Quotable body) (acc tail : List Char) :
    doubleBody acc (body ++ tail) = doubleBody (body.reverse ++ acc) tail := by
  induction h generalizing acc with
  | nil => rfl
  | plain hq hb h ih => simp [doubleBody, hb, ih]
  | escape hn h ih => simp [doubleBody, hn, ih]

theorem doubleBody_of_quotable {body : List Char} (h : Quotable body) (acc rest : List Char) :
    doubleBody acc (body ++ '"' :: rest) = (acc.reverse ++ body, '"' :: rest) := by
  rw [doubleBody_quotable_append h]
  simp [doubleBody]

/-- What is split off is quotable, and what is left begins with the closing quote, or else it is
nothing, or a backslash with no character that it could be paired with. -/
theorem exists_of_doubleBody {acc cs body rest : List Char} (h : doubleBody acc cs = (body, rest)) :
    ∃ own, Quotable own ∧ body = acc.reverse ++ own ∧
      (rest.head? ≠ some '"' → (∀ d ∈ rest.head?, d = '\\') ∧
        ∀ d after, rest = '\\' :: d :: after → d = '\n') := by
  fun_induction doubleBody acc cs with
  | case1 acc =>
    obtain ⟨rfl, rfl⟩ := Prod.mk.inj h
    exact ⟨[], .nil, by simp, by simp⟩
  | case2 acc after =>
    obtain ⟨rfl, rfl⟩ := Prod.mk.inj h
    exact ⟨[], .nil, by simp, by simp⟩
  | case3 acc =>
    obtain ⟨rfl, rfl⟩ := Prod.mk.inj h
    exact ⟨[], .nil, by simp, by simp⟩
  | case4 acc c after hc =>
    obtain ⟨rfl, rfl⟩ := Prod.mk.inj h
    have hc : c = '\n' := by simpa using hc
    exact ⟨[], .nil, by simp, by simp [hc]⟩
  | case5 acc c after hc ih =>
    obtain ⟨own, hown, hbody, hrest⟩ := ih h
    have hc : c ≠ '\n' := by simpa using hc
    exact ⟨'\\' :: c :: own, .escape hc hown, by simp [hbody], hrest⟩
  | case6 acc c after hq hb hbc ih =>
    obtain ⟨own, hown, hbody, hrest⟩ := ih h
    refine ⟨c :: own, .plain ?_ ?_ hown, by simp [hbody], hrest⟩
    · rintro rfl
      exact hq rfl
    · rintro rfl
      cases after with
      | nil => exact hb rfl rfl
      | cons d after => exact hbc d after rfl rfl

theorem quotable_of_doubleBody {cs body rest : List Char} (h : doubleBody [] cs = (body, rest)) :
    Quotable body ∧ (rest.head? ≠ some '"' → (∀ d ∈ rest.head?, d = '\\') ∧
      ∀ d after, rest = '\\' :: d :: after → d = '\n') := by
  obtain ⟨own, hown, hbody, hrest⟩ := exists_of_doubleBody h
  rw [List.reverse_nil, List.nil_append] at hbody
  exact hbody ▸ ⟨hown, hrest⟩

/-! ## The relation -/

/-- The word that is left of `2>&1` where it breaks off behind its ampersand. -/
def Token.broken : Token := .word .bare ['2', '>']

/-- `raw` spells `token`, and `rest` does not go on in a way that makes the token longer. -/
inductive Stands : List Char → Token → List Char → Prop
  | and (rest : List Char) : Stands ['&', '&'] (.separator .and) rest
  | background {rest : List Char} (h : rest.head? ≠ some '&') :
      Stands ['&'] (.separator .background) rest
  | or (rest : List Char) : Stands ['|', '|'] (.separator .or) rest
  | pipe {rest : List Char} (h : rest.head? ≠ some '|') : Stands ['|'] (.separator .pipe) rest
  | semi (rest : List Char) : Stands [';'] (.separator .semi) rest
  | append (rest : List Char) : Stands ['>', '>'] (.redirection .append) rest
  | overwrite {rest : List Char} (h : rest.head? ≠ some '>') :
      Stands ['>'] (.redirection .overwrite) rest
  | input (rest : List Char) : Stands ['<'] (.redirection .input) rest
  | errToOut (rest : List Char) : Stands ['2', '>', '&', '1'] .errToOut rest
  | errAppend (rest : List Char) : Stands ['2', '>', '>'] (.redirection .errAppend) rest
  | errOverwrite {rest : List Char} (hamp : rest.head? ≠ some '&') (hgt : rest.head? ≠ some '>') :
      Stands ['2', '>'] (.redirection .errOverwrite) rest
  /-- `2>&1` begun and not finished: the two characters in front of the ampersand are a word. -/
  | broken {rest : List Char} (h : rest.head? ≠ some '1') :
      Stands ['2', '>'] .broken ('&' :: rest)
  | bare {c : Char} {cs rest : List Char} (hword : ∀ d ∈ c :: cs, endsWord d = false)
      (hrest : ∀ d ∈ rest.head?, endsWord d = true)
      (htwo : c :: cs = ['2'] → rest.head? ≠ some '>') :
      Stands (c :: cs) (.word .bare (c :: cs)) rest
  | comment {body rest : List Char} (hbody : ∀ d ∈ body, d ≠ '\n')
      (hrest : ∀ d ∈ rest.head?, d = '\n') : Stands ('#' :: body) (.comment ('#' :: body)) rest
  | single {body : List Char} (hbody : ∀ d ∈ body, d ≠ '\'') (rest : List Char) :
      Stands ('\'' :: body ++ ['\'']) (.word .single body) rest
  | double {body text : List Char} (hbody : Quotable body) (htext : unescape body = .ok text)
      (rest : List Char) : Stands ('"' :: body ++ ['"']) (.word .double text) rest

/-! ## The lexer reads what stands -/

theorem scan_of_bare {c : Char} {cs : List Char} (hc : endsWord c = false)
    (htwo : c = '2' → cs.head? ≠ some '>') :
    scan c cs = (c :: cs.takeWhile (!endsWord ·),
      .ok (.word .bare (c :: cs.takeWhile (!endsWord ·))), cs.dropWhile (!endsWord ·)) := by
  unfold scan
  split
  case h_16 => exact bareWord_of_not_endsWord hc cs
  all_goals simp_all [endsWord]

theorem scan_of_head?_ne {c : Char} {token : Token}
    (hoperator : (c, token) ∈ [('&', .separator .background), ('|', .separator .pipe),
      ('>', .redirection .overwrite)])
    {rest : List Char} (h : rest.head? ≠ some c) : scan c rest = operator [c] token rest := by
  simp only [List.mem_cons, Prod.mk.injEq, List.not_mem_nil, or_false] at hoperator
  cases rest with
  | nil => rcases hoperator with ⟨rfl, rfl⟩ | ⟨rfl, rfl⟩ | ⟨rfl, rfl⟩ <;> rfl
  | cons d rest =>
    rw [List.head?_cons, ne_eq, Option.some_inj] at h
    rcases hoperator with ⟨rfl, rfl⟩ | ⟨rfl, rfl⟩ | ⟨rfl, rfl⟩ <;> simp [scan, h]

theorem scan_bare_append {c : Char} {cs rest : List Char} (hword : ∀ d ∈ c :: cs, endsWord d = false)
    (hrest : ∀ d ∈ rest.head?, endsWord d = true) (htwo : c :: cs = ['2'] → rest.head? ≠ some '>') :
    scan c (cs ++ rest) = (c :: cs, .ok (.word .bare (c :: cs)), rest) := by
  obtain ⟨htake, hdrop⟩ := Text.takeWhile_append_of_head? (p := (!endsWord ·)) (l := cs) (r := rest)
    (fun d hd ↦ by simp [hword d (List.mem_cons_of_mem _ hd)]) (fun d hd ↦ by simp [hrest d hd])
  rw [scan_of_bare (hword c List.mem_cons_self), htake, hdrop]
  rintro rfl
  cases cs with
  | nil => exact htwo rfl
  | cons d cs =>
    rw [List.cons_append, List.head?_cons, ne_eq, Option.some_inj]
    rintro rfl
    simpa [endsWord] using hword '>' (by simp)

theorem scan_of_stands {c : Char} {cs raw rest : List Char} {token : Token}
    (h : Stands raw token rest) (hsource : c :: cs = raw ++ rest) :
    scan c cs = (raw, .ok token, rest) := by
  cases h with
  | and | or | semi | append | input | errToOut | errAppend =>
    cases hsource
    rfl
  | background h | pipe h | overwrite h =>
    cases hsource
    exact scan_of_head?_ne (by simp) h
  | errOverwrite hamp hgt =>
    cases hsource
    cases rest with
    | nil => rfl
    | cons d rest => simp_all [scan, operator]
  | broken h =>
    cases hsource
    rename_i rest
    cases rest with
    | nil => rfl
    | cons d rest => simp_all [scan, Token.broken]
  | bare hword hrest htwo =>
    rw [List.cons_append, List.cons.injEq] at hsource
    obtain ⟨rfl, rfl⟩ := hsource
    exact scan_bare_append hword hrest htwo
  | comment hbody hrest =>
    cases hsource
    rename_i body
    obtain ⟨htake, hdrop⟩ := Text.takeWhile_append_of_head? (p := (· != '\n')) (l := body)
      (r := rest)
      (fun d hd ↦ by simp [hbody d hd]) (fun d hd ↦ by simp [hrest d hd])
    simp [scan, htake, hdrop]
  | single hbody =>
    rename_i body
    rw [List.cons_append, List.cons_append, List.append_assoc] at hsource
    cases hsource
    obtain ⟨htake, hdrop⟩ := Text.takeWhile_append_of_head? (p := (· != '\'')) (l := body)
      (r := '\'' :: rest) (fun d hd ↦ by simp [hbody d hd]) (by simp)
    simp [scan, singleQuoted, htake, hdrop]
  | double hbody htext =>
    rename_i body text
    rw [List.cons_append, List.cons_append, List.append_assoc] at hsource
    cases hsource
    simp [scan, doubleQuoted, doubleBody_of_quotable hbody, htext]

theorem head?_ne_of_forall {d : Char} {cs : List Char} (h : ∀ rest, cs = d :: rest → False) :
    cs.head? ≠ some d := by
  cases cs with
  | nil => simp
  | cons e cs =>
    rw [List.head?_cons, ne_eq, Option.some_inj]
    rintro rfl
    exact h cs rfl

theorem stands_of_doubleQuoted {cs raw rest : List Char} {token : Token}
    (h : doubleQuoted cs = (raw, .ok token, rest)) : Stands raw token rest := by
  unfold doubleQuoted at h
  split at h
  · rename_i body after hbody
    cases htext : unescape body with
    | error e => simp [htext] at h
    | ok text =>
      simp only [htext, Prod.mk.injEq, Except.ok.injEq] at h
      obtain ⟨rfl, rfl, rfl⟩ := h
      exact .double (quotable_of_doubleBody hbody).1 htext _
  · simp at h

theorem stands_of_singleQuoted {cs raw rest : List Char} {token : Token}
    (h : singleQuoted cs = (raw, .ok token, rest)) : Stands raw token rest := by
  unfold singleQuoted at h
  split at h
  · simp only [Prod.mk.injEq, Except.ok.injEq] at h
    obtain ⟨rfl, rfl, rfl⟩ := h
    exact .single (fun d hd ↦ by simpa using List.mem_takeWhile_imp hd) _
  · simp at h

theorem stands_of_bareWord {c : Char} {cs raw rest : List Char} {token : Token}
    (htwo : ∀ rest, c = '2' → cs = '>' :: rest → False)
    (h : bareWord c cs = (raw, .ok token, rest)) : Stands raw token rest := by
  by_cases hc : endsWord c = true
  · simp [bareWord_of_endsWord hc] at h
  · rw [bareWord_of_not_endsWord (Bool.eq_false_iff.mpr hc)] at h
    simp only [Prod.mk.injEq, Except.ok.injEq] at h
    obtain ⟨rfl, rfl, rfl⟩ := h
    refine .bare (fun d hd ↦ ?_) (fun d hd ↦ ?_) fun hword hhead ↦ ?_
    · rcases List.mem_cons.mp hd with rfl | hd
      · simpa using hc
      · simpa using List.mem_takeWhile_imp hd
    · simpa using Text.head?_dropWhile_of_not d hd
    · obtain ⟨rfl, htake⟩ := List.cons.inj hword
      obtain ⟨after, hdrop⟩ := List.head?_eq_some_iff.mp hhead
      refine htwo after rfl ?_
      rw [← List.takeWhile_append_dropWhile (p := (!endsWord ·)) (l := cs), htake, hdrop,
        List.nil_append]

theorem stands_of_scan {c : Char} {cs raw rest : List Char} {token : Token}
    (h : scan c cs = (raw, .ok token, rest)) : Stands raw token rest := by
  unfold scan at h
  split at h
  case h_1 => exact stands_of_doubleQuoted h
  case h_2 => exact stands_of_singleQuoted h
  case h_3 =>
    simp only [Prod.mk.injEq, Except.ok.injEq] at h
    obtain ⟨rfl, rfl, rfl⟩ := h
    refine .comment (fun d hd ↦ by simpa using List.mem_takeWhile_imp hd) fun d hd ↦ ?_
    simpa using Text.head?_dropWhile_of_not d hd
  case h_16 htwo => exact stands_of_bareWord htwo h
  all_goals
    simp only [operator, Prod.mk.injEq, Except.ok.injEq] at h
    obtain ⟨rfl, rfl, rfl⟩ := h
  case h_4 => exact .and _
  case h_5 hamp => exact .background (head?_ne_of_forall hamp)
  case h_6 => exact .or _
  case h_7 hbar => exact .pipe (head?_ne_of_forall hbar)
  case h_8 => exact .semi _
  case h_9 => exact .append _
  case h_10 hgt => exact .overwrite (head?_ne_of_forall hgt)
  case h_11 => exact .input _
  case h_12 => exact .errToOut _
  case h_13 hone => exact .broken (head?_ne_of_forall hone)
  case h_14 => exact .errAppend _
  case h_15 hamp hgt => exact .errOverwrite (head?_ne_of_forall hamp) (head?_ne_of_forall hgt)

/-- **The lexer reads what stands**, and nothing else. -/
theorem scan_eq_ok_iff {c : Char} {cs raw rest : List Char} {token : Token} :
    scan c cs = (raw, .ok token, rest) ↔ Stands raw token rest ∧ c :: cs = raw ++ rest := by
  refine ⟨fun h ↦ ⟨stands_of_scan h, ?_⟩, fun ⟨h, hsource⟩ ↦ scan_of_stands h hsource⟩
  have hsource := scan_source c cs
  rw [h] at hsource
  exact hsource.symm

/-! ## Facts about what stands -/

theorem isGap_of_endsWord {c : Char} (h : endsWord c = false) : isGap c = false := by
  simp_all [endsWord]

theorem Stands.exists_cons {raw rest : List Char} {token : Token} (h : Stands raw token rest) :
    ∃ c cs, raw = c :: cs ∧ isGap c = false := by
  cases h with
  | bare hword hrest htwo => exact ⟨_, _, rfl, isGap_of_endsWord (hword _ List.mem_cons_self)⟩
  | _ => exact ⟨_, _, rfl, rfl⟩

theorem Stands.unique {raw raw' rest rest' : List Char} {token token' : Token}
    (h : Stands raw token rest) (h' : Stands raw' token' rest')
    (heq : raw ++ rest = raw' ++ rest') : raw = raw' ∧ token = token' ∧ rest = rest' := by
  obtain ⟨c, cs, rfl, -⟩ := h.exists_cons
  have hread : scan c (cs ++ rest) = (c :: cs, .ok token, rest) := scan_of_stands h rfl
  rw [scan_of_stands h' (by rw [← heq, List.cons_append]), Prod.mk.injEq, Prod.mk.injEq,
    Except.ok.injEq] at hread
  exact ⟨hread.1.symm, hread.2.1.symm, hread.2.2.symm⟩

/-- What is left of `2>&1` stands in front of its ampersand and nowhere else. -/
theorem Stands.of_broken {raw rest : List Char} (h : Stands raw .broken rest) :
    raw = ['2', '>'] ∧ rest.head? = some '&' := by
  cases h with
  | broken => exact ⟨rfl, rfl⟩
  | bare hword => simpa [endsWord] using hword '>' (by simp)

theorem Stands.forall_of_bare {raw text rest : List Char} (h : Stands raw (.word .bare text) rest)
    (hrest : rest.head? ≠ some '&') : ∀ d ∈ raw, endsWord d = false := by
  cases h with
  | bare hword => exact hword
  | broken => exact absurd rfl hrest

theorem Stands.exists_of_comment {raw text rest : List Char}
    (h : Stands raw (.comment text) rest) : ∃ body, raw = '#' :: body ∧ ∀ d ∈ body, d ≠ '\n' := by
  cases h with
  | comment hbody => exact ⟨_, rfl, hbody⟩

theorem Stands.of_hash_head {cs rest : List Char} {token : Token}
    (h : Stands ('#' :: cs) token rest) : token = .comment ('#' :: cs) := by
  cases h with
  | bare hword => exact absurd (hword '#' (by simp)) (by decide)
  | comment => rfl

theorem mem_head?_of_isPrefix {cs ds : List Char} (h : cs <+: ds) :
    ∀ d ∈ cs.head?, d ∈ ds.head? := by
  obtain ⟨after, rfl⟩ := h
  intro d hd
  rw [List.head?_append, Option.mem_def.mp hd]
  rfl

/-- A token that stands in front of a text stands in front of any beginning of that text, down to
the empty one. What is left of `2>&1` is the exception: at the end of a text it would be an
operator. -/
theorem Stands.of_isPrefix {raw rest rest' : List Char} {token : Token} (h : Stands raw token rest)
    (hp : rest' <+: rest) (hend : token = .broken → rest' ≠ []) : Stands raw token rest' := by
  have hhead := mem_head?_of_isPrefix hp
  cases h with
  | and => exact .and _
  | background h => exact .background fun h' ↦ h (hhead _ h')
  | or => exact .or _
  | pipe h => exact .pipe fun h' ↦ h (hhead _ h')
  | semi => exact .semi _
  | append => exact .append _
  | overwrite h => exact .overwrite fun h' ↦ h (hhead _ h')
  | input => exact .input _
  | errToOut => exact .errToOut _
  | errAppend => exact .errAppend _
  | errOverwrite hamp hgt =>
    exact .errOverwrite (fun h' ↦ hamp (hhead _ h')) fun h' ↦ hgt (hhead _ h')
  | broken h =>
    rename_i rest
    obtain ⟨d, rest', rfl⟩ := List.exists_cons_of_ne_nil (hend rfl)
    obtain ⟨rfl, hafter⟩ := List.cons_prefix_cons.mp hp
    exact .broken fun h' ↦ h (mem_head?_of_isPrefix hafter _ h')
  | bare hword hrest htwo =>
    exact .bare hword (fun d hd ↦ hrest d (hhead d hd)) fun h h' ↦ htwo h (hhead _ h')
  | comment hbody hrest => exact .comment hbody fun d hd ↦ hrest d (hhead d hd)
  | single hbody => exact .single hbody _
  | double hbody htext => exact .double hbody htext _

end ShellEngine.Line
