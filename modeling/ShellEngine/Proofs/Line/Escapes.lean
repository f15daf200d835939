import ShellEngine.Proofs.Line.Stands
import ShellEngine.Proofs.Text.Encoding
import ShellEngine.Proofs.Text.Numerals

/-!
# What escapes stand for

Double-quoted text is a sequence of items, each of which is written in a way of its own and stands for
some characters. `unescape_eq_ok_iff` says that the texts whose escapes can be resolved are exactly
the sequences of items, and that resolving them puts together what the items stand for.

The number of a character is read more leniently than its braces suggest: a plus sign may stand
before the digits, and at the end of the text the closing brace may be missing. Items without these
liberties are called regular, and `unescape_of_open_brace` shows that they do not make up every text
that is resolved.

Between double quotes every backslash has a character behind it. An item takes no backslash that
belongs to what follows it, so what is left behind an item is paired in the same way, and no backslash
is ever found dangling (`unescape_ne_dangling`).
-/

namespace ShellEngine.Line

open Text (IsNumeral maybe)

/-! ## Items -/

/-- A stretch of double-quoted text that stands for characters of its own. -/
inductive EscapeItem
  /-- A character that is no backslash. -/
  | plain (c : Char) (h : c ≠ '\\')
  /-- A backslash and a character that is no `u`. -/
  | escape (c : Char) (h : c ≠ 'u')
  /-- `\u` and the number of a character in braces. A plus sign may stand before the digits, and the
  closing brace may be missing. -/
  | number (plus : Bool) (digits : List Char) (closed : Bool) (c : Char)
      (h : IsNumeral 16 digits c.toNat)

namespace EscapeItem

def source : EscapeItem → List Char
  | plain c _ => [c]
  | escape c _ => ['\\', c]
  | number plus digits closed _ _ =>
    '\\' :: 'u' :: '{' :: (maybe plus ['+'] ++ digits ++ maybe closed ['}'])

def text : EscapeItem → List Char
  | plain c _ => [c]
  | escape c _ => escaped c
  | number _ _ _ c _ => [c]

/-- Whether an item needs no more characters behind it. -/
def IsClosed : EscapeItem → Prop
  | number _ _ closed _ _ => closed = true
  | _ => True

/-- Whether an item is written without a plus sign and with all its braces. -/
def IsRegular : EscapeItem → Prop
  | number plus _ closed _ _ => plus = false ∧ closed = true
  | _ => True

theorem source_ne_nil (item : EscapeItem) : item.source ≠ [] := by
  cases item <;> exact List.cons_ne_nil _ _

end EscapeItem

/-! ## Numbers in braces -/

theorem scalar?_eq_some_iff {n : Nat} {c : Char} : scalar? n = some c ↔ c.toNat = n := by
  unfold scalar?
  constructor
  · intro h
    split at h
    case isTrue hvalid =>
      obtain rfl := Option.some.inj h
      exact Text.toNat_ofNat hvalid
    case isFalse => cases h
  · rintro rfl
    rw [if_pos (Text.isValidChar_toNat c), Char.ofNat_toNat]

/-- The text in the braces ends where a brace closes it, and else with the text. -/
theorem takeWhile_dropWhile_brace {body after : List Char} {closed : Bool} (hbody : '}' ∉ body)
    (hclosed : closed = false → after = []) :
    (body ++ (maybe closed ['}'] ++ after)).takeWhile (· != '}') = body ∧
      ((body ++ (maybe closed ['}'] ++ after)).dropWhile (· != '}')).drop 1 = after := by
  have hrun : ∀ d ∈ body, (d != '}') = true := by
    intro d hd
    have hbrace : d ≠ '}' := fun h ↦ hbody (h ▸ hd)
    simpa using hbrace
  have htail : ∀ d ∈ (maybe closed ['}'] ++ after).head?, (d != '}') = false := by
    cases closed with
    | false => simp [maybe, hclosed rfl]
    | true => simp [maybe]
  obtain ⟨htake, hdrop⟩ := Text.takeWhile_append_of_head? hrun htail
  refine ⟨htake, ?_⟩
  rw [hdrop]
  cases closed with
  | false => simp [maybe, hclosed rfl]
  | true => rfl

theorem codePoint_of_isNumeral {digits after : List Char} {plus closed : Bool} {c : Char}
    (hdigits : IsNumeral 16 digits c.toNat) (hclosed : closed = false → after = [])
    (offset : Nat) :
    codePoint offset ('{' :: (maybe plus ['+'] ++ digits ++ maybe closed ['}'] ++ after))
      = .ok (c, after) := by
  have hbody : '}' ∉ maybe plus ['+'] ++ digits := by
    rw [List.mem_append, not_or]
    refine ⟨?_, hdigits.not_mem rfl⟩
    cases plus <;> simp [maybe]
  obtain ⟨htake, hafter⟩ := takeWhile_dropWhile_brace hbody hclosed
  have hvalid : c.toNat ≤ 0xFFFFFFFF := Nat.le_of_lt_succ c.val.toNat_lt
  have hread : Text.readNat 16 0xFFFFFFFF (maybe plus ['+'] ++ digits) = .ok c.toNat :=
    (Text.readNat_eq_ok_iff (by decide)).mpr ⟨plus, digits, rfl, hdigits, hvalid⟩
  have hscalar : scalar? c.toNat = some c := scalar?_eq_some_iff.mpr rfl
  rw [List.append_assoc, codePoint]
  simp only [htake, hread, hscalar, hafter]

/-- What is read is the number of a character, perhaps with a plus sign, and with the closing brace or
up to the end. -/
theorem exists_of_codePoint {offset : Nat} {cs after : List Char} {c : Char}
    (h : codePoint offset cs = .ok (c, after)) :
    ∃ plus digits closed, IsNumeral 16 digits c.toNat ∧ (closed = false → after = []) ∧
      cs = '{' :: (maybe plus ['+'] ++ digits ++ maybe closed ['}'] ++ after) := by
  unfold codePoint at h
  split at h
  case h_2 => cases h
  case h_1 rest =>
    dsimp only at h
    split at h
    case h_1 => cases h
    case h_2 value hread =>
      split at h
      case h_1 => cases h
      case h_2 c' hscalar =>
        obtain ⟨rfl, rfl⟩ := Prod.mk.inj (Except.ok.inj h)
        obtain rfl := scalar?_eq_some_iff.mp hscalar
        obtain ⟨plus, digits, htake, hdigits, -⟩ := (Text.readNat_eq_ok_iff (by decide)).mp hread
        have hrest := List.takeWhile_append_dropWhile (p := (· != '}')) (l := rest)
        rw [htake] at hrest
        cases hdrop : rest.dropWhile (· != '}') with
        | nil =>
          rw [hdrop] at hrest
          exact ⟨plus, digits, false, hdigits, fun _ ↦ rfl, by simp [maybe, ← hrest]⟩
        | cons q after =>
          have hq := Text.head?_dropWhile_of_not (p := (· != '}')) (l := rest)
          rw [hdrop] at hq hrest
          obtain rfl : q = '}' := by simpa using hq q rfl
          exact ⟨plus, digits, true, hdigits, by simp, by simp [maybe, ← hrest]⟩

/-! ## Whole texts -/

/-! The equations of `unescape.go`, one for each kind of item. -/

theorem unescape_go_plain {c : Char} (hc : c ≠ '\\') (acc rest : List Char) (offset : Nat) :
    unescape.go acc offset (c :: rest) = unescape.go (c :: acc) (offset + c.utf8Size) rest := by
  rw [unescape.go] <;> simp [hc]

theorem unescape_go_backslash {c : Char} (hc : c ≠ 'u') (acc rest : List Char) (offset : Nat) :
    unescape.go acc offset ('\\' :: c :: rest)
      = unescape.go ((escaped c).reverse ++ acc) (offset + 1 + c.utf8Size) rest := by
  rw [unescape.go]
  exact hc

theorem unescape_go_number {acc rest after : List Char} {offset : Nat} {c : Char}
    (h : codePoint offset rest = .ok (c, after)) :
    unescape.go acc offset ('\\' :: 'u' :: rest)
      = unescape.go (c :: acc) (offset + 2 + unescape.spanWidth rest after) after := by
  rw [unescape.go]
  split
  · simp_all
  · rename_i h'
    rw [h, Except.ok.injEq, Prod.mk.injEq] at h'
    rw [h'.1, h'.2]

/-- Items of which only the last one may lack its closing brace. -/
def Sequence (items : List EscapeItem) : Prop := ∀ item ∈ items.dropLast, item.IsClosed

theorem sequence_cons {item : EscapeItem} {items : List EscapeItem} :
    Sequence (item :: items) ↔ (items ≠ [] → item.IsClosed) ∧ Sequence items := by
  by_cases hitems : items = []
  · subst hitems
    simp [Sequence]
  · rw [Sequence, List.dropLast_cons_of_ne_nil hitems, List.forall_mem_cons]
    exact and_congr_left fun _ ↦ ⟨fun h _ ↦ h, fun h ↦ h hitems⟩

theorem exists_items_of_unescape_go {acc cs text : List Char} {offset : Nat}
    (h : unescape.go acc offset cs = .ok text) :
    ∃ items, Sequence items ∧ cs = items.flatMap EscapeItem.source ∧
      text = acc.reverse ++ items.flatMap EscapeItem.text := by
  fun_induction unescape.go acc offset cs with
  | case1 acc offset => exact ⟨[], by simp [Sequence], rfl, by simpa using h.symm⟩
  | case2 => cases h
  | case3 => cases h
  | case4 acc offset rest c after hread ih =>
    obtain ⟨plus, digits, closed, hdigits, hclosed, rfl⟩ := exists_of_codePoint hread
    obtain ⟨items, hitems, rfl, rfl⟩ := ih h
    refine ⟨.number plus digits closed c hdigits :: items, sequence_cons.mpr ⟨?_, hitems⟩, ?_, ?_⟩
    · intro hne
      -- behind a brace that is missing nothing is left
      cases closed with
      | true => rfl
      | false =>
        obtain ⟨item, items, rfl⟩ := List.exists_cons_of_ne_nil hne
        exact absurd (List.append_eq_nil_iff.mp (hclosed rfl)).1 item.source_ne_nil
    · simp [EscapeItem.source]
    · simp [EscapeItem.text]
  | case5 acc offset c rest hu ih =>
    obtain ⟨items, hitems, rfl, rfl⟩ := ih h
    refine ⟨.escape c hu :: items, sequence_cons.mpr ⟨fun _ ↦ trivial, hitems⟩, rfl, ?_⟩
    simp [EscapeItem.text]
  | case6 acc offset c rest hlone hu hbc ih =>
    have hc : c ≠ '\\' := by
      rintro rfl
      cases rest with
      | nil => exact hlone rfl rfl
      | cons d rest => exact hbc d rest rfl rfl
    obtain ⟨items, hitems, rfl, rfl⟩ := ih h
    refine ⟨.plain c hc :: items, sequence_cons.mpr ⟨fun _ ↦ trivial, hitems⟩, rfl, ?_⟩
    simp [EscapeItem.text]

theorem unescape_go_flatMap_source {items : List EscapeItem} (hitems : Sequence items)
    (acc : List Char) (offset : Nat) :
    unescape.go acc offset (items.flatMap EscapeItem.source)
      = .ok (acc.reverse ++ items.flatMap EscapeItem.text) := by
  induction items generalizing acc offset with
  | nil => simp [unescape.go]
  | cons item items ih =>
    obtain ⟨hitem, hrest⟩ := sequence_cons.mp hitems
    rw [List.flatMap_cons, List.flatMap_cons]
    cases item with
    | plain c h =>
      rw [EscapeItem.source, List.singleton_append, unescape_go_plain h, ih hrest]
      simp [EscapeItem.text]
    | escape c h =>
      rw [EscapeItem.source, List.cons_append, List.singleton_append, unescape_go_backslash h,
        ih hrest]
      simp [EscapeItem.text]
    | number plus digits closed c h =>
      have hclosed : closed = false → items.flatMap EscapeItem.source = [] := by
        rintro rfl
        have hnil : items = [] := by
          by_contra hne
          exact absurd (hitem hne) Bool.false_ne_true
        rw [hnil, List.flatMap_nil]
      have hread : codePoint offset ('{' :: (maybe plus ['+'] ++ digits ++ maybe closed ['}'] ++
          items.flatMap EscapeItem.source)) = .ok (c, items.flatMap EscapeItem.source) :=
        codePoint_of_isNumeral h hclosed offset
      rw [EscapeItem.source, List.cons_append, List.cons_append, List.cons_append,
        unescape_go_number hread, ih hrest]
      simp [EscapeItem.text]

/-- **Escapes.** The texts that can be resolved are the sequences of items, and resolving them puts
together what the items stand for. -/
theorem unescape_eq_ok_iff {cs text : List Char} :
    unescape cs = .ok text ↔
      ∃ items, Sequence items ∧ cs = items.flatMap EscapeItem.source ∧
        text = items.flatMap EscapeItem.text := by
  constructor
  · intro h
    exact exists_items_of_unescape_go h
  · rintro ⟨items, hitems, rfl, rfl⟩
    exact unescape_go_flatMap_source hitems [] 0

/-- A brace that is never closed is as good as one that is. -/
theorem unescape_of_open_brace :
    unescape ['\\', 'u', '{', '4', '1'] = .ok ['A'] ∧
      ¬ ∃ items : List EscapeItem, (∀ item ∈ items, item.IsRegular) ∧
        ['\\', 'u', '{', '4', '1'] = items.flatMap EscapeItem.source := by
  refine ⟨by decide +kernel, ?_⟩
  rintro ⟨items, hitems, hsource⟩
  cases items with
  | nil => cases hsource
  | cons item items =>
    rw [List.flatMap_cons] at hsource
    cases item with
    | plain c h =>
      exact h (List.cons.inj hsource).1.symm
    | escape c h =>
      exact h (List.cons.inj (List.cons.inj hsource).2).1.symm
    | number plus digits closed c h =>
      obtain ⟨-, rfl⟩ := hitems _ List.mem_cons_self
      have hmem : '}' ∈ ['\\', 'u', '{', '4', '1'] := by
        rw [hsource]
        simp [EscapeItem.source, maybe]
      exact absurd hmem (by decide)

/-! ## Between double quotes -/

/-- What is left of quotable text behind characters that are no backslashes. -/
theorem Quotable.of_append {cs rest : List Char} (hcs : ∀ c ∈ cs, c ≠ '\\')
    (h : Quotable (cs ++ rest)) : Quotable rest := by
  induction cs with
  | nil => exact h
  | cons c cs ih =>
    obtain ⟨hc, hcs⟩ := List.forall_mem_cons.mp hcs
    rw [List.cons_append] at h
    refine ih hcs ?_
    generalize cs ++ rest = tail at h ⊢
    cases h with
    | plain _ _ h => exact h
    | escape _ h => exact absurd rfl hc

theorem Quotable.of_backslash {c : Char} {rest : List Char} (h : Quotable ('\\' :: c :: rest)) :
    Quotable rest := by
  cases h with
  | plain _ hb h => exact absurd rfl hb
  | escape _ h => exact h

theorem not_quotable_backslash : ¬ Quotable ['\\'] := by
  intro h
  cases h with
  | plain _ hb h => exact hb rfl

theorem Quotable.of_codePoint {offset : Nat} {cs after : List Char} {c : Char}
    (h : Quotable cs) (hread : codePoint offset cs = .ok (c, after)) : Quotable after := by
  obtain ⟨plus, digits, closed, hdigits, -, rfl⟩ := exists_of_codePoint hread
  rw [← List.cons_append] at h
  refine h.of_append fun d hd ↦ ?_
  rintro rfl
  have hmem : '\\' ∈ digits := by
    cases plus <;> cases closed <;> simpa [maybe] using hd
  exact hdigits.not_mem rfl hmem

theorem codePoint_ne_dangling {offset n : Nat} {cs : List Char} :
    codePoint offset cs ≠ .error (.dangling n) := by
  unfold codePoint
  split
  · dsimp only
    split
    · simp
    · split <;> simp
  · simp

theorem unescape_go_ne_dangling {acc cs : List Char} {offset : Nat} (h : Quotable cs) (n : Nat) :
    unescape.go acc offset cs ≠ .error (.dangling n) := by
  fun_induction unescape.go acc offset cs with
  | case1 => simp
  | case2 => exact absurd h not_quotable_backslash
  | case3 acc offset rest e hread =>
    rw [ne_eq, Except.error.injEq]
    rintro rfl
    exact codePoint_ne_dangling hread
  | case4 acc offset rest c after hread ih => exact ih (h.of_backslash.of_codePoint hread)
  | case5 acc offset c rest hu ih => exact ih h.of_backslash
  | case6 acc offset c rest hlone hu hbc ih =>
    cases h with
    | plain _ _ h => exact ih h
    | escape _ h => exact absurd rfl (hbc _ _ rfl)

theorem unescape_ne_dangling {cs : List Char} (h : Quotable cs) (n : Nat) :
    unescape cs ≠ .error (.dangling n) := unescape_go_ne_dangling h n

end ShellEngine.Line
