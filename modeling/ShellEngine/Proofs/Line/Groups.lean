import Mathlib.Data.List.SplitBy
import ShellEngine.Proofs.Line.Accounts

/-!
# Words that touch

Pieces of words without a gap between them are typed as one word, however each of them is quoted.
The pieces of a command are cut into such groups (`groups`), and a stage can be compared with what
the groups ask for when each of them is taken as one word (`Reads`).

As an argument a group is always one word. As a target it is not: an operator takes the first piece
alone, and what touches it is read as an argument (`severed`). So a stage is what its groups ask for
exactly when no target is made of several pieces (`reads_of_parse`).
-/

namespace ShellEngine.Line

/-! ## Groups -/

/-- Whether two pieces that follow each other are parts of one word. -/
def Piece.joins (p q : Piece) : Bool := p.token.isWord && q.token.isWord && q.gap.isEmpty

/-- The pieces of a command, with those of one word together. -/
def groups (us : List Piece) : List (List Piece) := us.splitBy Piece.joins

/-- The text that a piece gives to a word. -/
def Piece.word (p : Piece) : List Char :=
  match p.token with
  | .word _ text => text
  | _ => []

/-- A group as one token: that of its first piece, with the texts of all. -/
def unit : List Piece → Token
  | [] => .comment []
  | p :: g =>
    match p.token with
    | .word quoting text => .word quoting (text ++ g.flatMap Piece.word)
    | token => token

def asks (gs : List (List Piece)) : List Item := itemsFrom none (gs.map unit)

/-- A stage is what groups ask for: each word that is no target is one argument, and of the
redirections of one stream the last one counts. -/
structure Reads (s : Stage) (gs : List (List Piece)) : Prop where
  argv : s.argv = (asks gs).filterMap Item.word?
  stdin : ∀ i ∈ ((asks gs).filterMap Item.input?).getLast?, s.stdin = i
  stdout : ∀ o ∈ ((asks gs).filterMap Item.output?).getLast?, s.stdout = o
  stderr : ∀ o ∈ ((asks gs).filterMap Item.error?).getLast?, s.stderr = o

/-- A group as it is read: where an operator waits, its first piece is the target and the rest is a
word of its own. -/
def cut : Bool → List Piece → List (List Piece)
  | true, p :: q :: g => [[p], q :: g]
  | _, g => [g]

def severed (before : List Piece) : List (List Piece) → List (List Piece)
  | [] => []
  | g :: gs => cut (awaitsTarget (tokensOf before)) g ++ severed (before ++ g) gs

/-- Every target among groups behind `before` is a single piece. -/
def TargetsWhole (before : List Piece) (gs : List (List Piece)) : Prop :=
  ∀ i : Fin gs.length,
    awaitsTarget (tokensOf (before ++ (gs.take i).flatten)) = true → gs[i].length ≤ 1

instance (before : List Piece) : DecidablePred (TargetsWhole before) := fun gs ↦ by
  unfold TargetsWhole
  infer_instance

theorem cut_of_length_le {awaits : Bool} {g : List Piece} (h : awaits = true → g.length ≤ 1) :
    cut awaits g = [g] := by
  unfold cut
  split
  · exact absurd (h rfl) (by simp)
  · rfl

theorem targetsWhole_cons (before g : List Piece) (gs : List (List Piece)) :
    TargetsWhole before (g :: gs) ↔
      (awaitsTarget (tokensOf before) = true → g.length ≤ 1) ∧ TargetsWhole (before ++ g) gs := by
  refine Fin.forall_fin_succ.trans (and_congr (by simp) (forall_congr' fun i ↦ ?_))
  simp

theorem severed_of_targetsWhole {before : List Piece} {gs : List (List Piece)}
    (h : TargetsWhole before gs) : severed before gs = gs := by
  induction gs generalizing before with
  | nil => rfl
  | cons g gs ih =>
    obtain ⟨hg, hgs⟩ := (targetsWhole_cons before g gs).mp h
    rw [severed, ih hgs, cut_of_length_le hg]
    rfl

/-! ### What makes groups maximal -/

/-- Groups as they are cut: none is empty, the pieces of each join, and no two groups do. -/
structure Grouped (gs : List (List Piece)) : Prop where
  ne_nil : [] ∉ gs
  joined : ∀ g ∈ gs, g.IsChain fun p q ↦ p.joins q
  apart : gs.IsChain fun g h ↦ ∃ hg hh, Piece.joins (g.getLast hg) (h.head hh) = false

theorem grouped_groups (us : List Piece) : Grouped (groups us) :=
  ⟨List.nil_notMem_splitBy _ _, fun _ ↦ List.isChain_of_mem_splitBy,
    List.isChain_getLast_head_splitBy _ _⟩

theorem Grouped.of_cons {g : List Piece} {gs : List (List Piece)} (h : Grouped (g :: gs)) :
    Grouped gs :=
  ⟨fun hmem ↦ h.ne_nil (List.mem_cons_of_mem _ hmem),
    fun g hg ↦ h.joined g (List.mem_cons_of_mem _ hg), h.apart.of_cons⟩

section Joined

variable {p : Piece} {g : List Piece}

theorem eq_nil_of_not_isWord (hg : (p :: g).IsChain fun p q ↦ p.joins q)
    (hp : p.token.isWord = false) : g = [] := by
  match g with
  | [] => rfl
  | q :: g =>
    have hjoins : p.joins q = true := (List.isChain_cons_cons.mp hg).1
    simp [Piece.joins, hp] at hjoins

theorem isWord_of_lt_length (hg : (p :: g).IsChain fun p q ↦ p.joins q)
    (hlong : 1 < (p :: g).length) : p.token.isWord = true := by
  by_contra hnot
  rw [eq_nil_of_not_isWord hg (Bool.not_eq_true _ ▸ hnot)] at hlong
  exact Nat.lt_irrefl 1 hlong

theorem forall_isWord_of_isChain (hg : (p :: g).IsChain fun p q ↦ p.joins q)
    (hp : p.token.isWord = true) : ∀ q ∈ p :: g, q.token.isWord = true := by
  induction g generalizing p with
  | nil => simpa using hp
  | cons q g ih =>
    obtain ⟨hjoins, hg⟩ := List.isChain_cons_cons.mp hg
    have hq : q.token.isWord = true := by
      simp only [Piece.joins, Bool.and_eq_true] at hjoins
      exact hjoins.1.2
    exact List.forall_mem_cons.mpr ⟨hp, ih hg hq⟩

theorem exists_token_eq (hp : p.token.isWord = true) :
    ∃ quoting, p.token = .word quoting p.word := by
  obtain ⟨gap, raw, token⟩ := p
  cases token with
  | word quoting text => exact ⟨quoting, rfl⟩
  | _ => cases hp

theorem exists_unit_eq (hp : p.token.isWord = true) (g : List Piece) :
    ∃ quoting, unit (p :: g) = .word quoting ((p :: g).flatMap Piece.word) := by
  obtain ⟨quoting, htoken⟩ := exists_token_eq hp
  exact ⟨quoting, by simp [unit, htoken]⟩

theorem unit_of_not_isWord (hp : p.token.isWord = false) : unit [p] = p.token := by
  obtain ⟨gap, raw, token⟩ := p
  cases token with
  | word quoting text => cases hp
  | _ => rfl

theorem awaitsTarget_append_of_isWord (hg : ∀ q ∈ p :: g, q.token.isWord = true)
    (before : List Piece) : awaitsTarget (tokensOf (before ++ p :: g)) = false := by
  obtain ⟨front, q, hfront⟩ : ∃ front q, p :: g = front ++ [q] :=
    ⟨_, _, (List.dropLast_append_getLast (List.cons_ne_nil p g)).symm⟩
  have hq : q.token.isWord = true := hg q (by simp [hfront])
  obtain ⟨quoting, htoken⟩ := exists_token_eq hq
  rw [hfront, ← List.append_assoc, tokensOf_append,
    tokensOf_cons_of_not (by simp [Piece.isComment, htoken]), tokensOf_nil, awaitsTarget_concat,
    htoken]
  rfl

end Joined

/-! ### What is cut -/

/-- What a group that is not cut asks for, and the operator that waits behind it. -/
theorem exists_itemsFrom_unit {p : Piece} {g : List Piece} (hsep : p.separator? = none)
    (hg : (p :: g).IsChain fun p q ↦ p.joins q) {before : List Piece}
    {pending : Option Redirection} (h : pending.isSome = awaitsTarget (tokensOf before)) :
    ∃ items pending', pending'.isSome = awaitsTarget (tokensOf (before ++ p :: g)) ∧
      ∀ ts, itemsFrom pending (unit (p :: g) :: ts) = items ++ itemsFrom pending' ts := by
  cases hp : p.token.isWord with
  | true =>
    obtain ⟨quoting, hunit⟩ := exists_unit_eq hp g
    rw [awaitsTarget_append_of_isWord (forall_isWord_of_isChain hg hp), hunit]
    cases pending with
    | none => exact ⟨[.word _], none, rfl, fun ts ↦ rfl⟩
    | some r => exact ⟨[.redirect r _], none, rfl, fun ts ↦ rfl⟩
  | false =>
    obtain rfl := eq_nil_of_not_isWord hg hp
    rw [unit_of_not_isWord hp, tokensOf_append]
    obtain ⟨gap, raw, token⟩ := p
    cases token with
    | word quoting text => cases hp
    | redirection r =>
      rw [tokensOf_cons_of_not rfl, tokensOf_nil, awaitsTarget_concat]
      refine ⟨[], some r, rfl, fun ts ↦ ?_⟩
      cases pending <;> rfl
    | errToOut =>
      rw [tokensOf_cons_of_not rfl, tokensOf_nil, awaitsTarget_concat]
      refine ⟨[.errToOut], pending, h, fun ts ↦ ?_⟩
      cases pending <;> rfl
    | comment text =>
      rw [tokensOf_cons_of_isComment rfl, tokensOf_nil, List.append_nil]
      refine ⟨[], pending, h, fun ts ↦ ?_⟩
      cases pending <;> rfl
    | separator s => cases hsep

/-- The arguments that groups ask for, `pending` being the operator that waits for its target. -/
def argumentsFrom (pending : Option Redirection) (gs : List (List Piece)) : List String :=
  (itemsFrom pending (gs.map unit)).filterMap Item.word?

theorem argumentsFrom_target {p : Piece} (hp : p.token.isWord = true) (r : Redirection)
    (g : List Piece) (gs : List (List Piece)) :
    argumentsFrom (some r) ((p :: g) :: gs) = argumentsFrom none gs := by
  obtain ⟨quoting, hunit⟩ := exists_unit_eq hp g
  rw [argumentsFrom, List.map_cons, hunit]
  rfl

theorem argumentsFrom_word {p : Piece} (hp : p.token.isWord = true) (g : List Piece)
    (gs : List (List Piece)) :
    argumentsFrom none ((p :: g) :: gs)
      = String.ofList ((p :: g).flatMap Piece.word) :: argumentsFrom none gs := by
  obtain ⟨quoting, hunit⟩ := exists_unit_eq hp g
  rw [argumentsFrom, List.map_cons, hunit]
  rfl

/-- A target of more than one word is cut, which makes one more argument. -/
theorem length_argumentsFrom_cut {p : Piece} {g : List Piece}
    (hjoined : (p :: g).IsChain fun p q ↦ p.joins q) (hlong : 1 < (p :: g).length) (r : Redirection)
    {gs hs : List (List Piece)}
    (hle : (argumentsFrom none gs).length ≤ (argumentsFrom none hs).length) :
    (argumentsFrom (some r) ((p :: g) :: gs)).length
      < (argumentsFrom (some r) (cut true (p :: g) ++ hs)).length := by
  have hp := isWord_of_lt_length hjoined hlong
  have hwords := forall_isWord_of_isChain hjoined hp
  match g with
  | [] => exact absurd hlong (Nat.lt_irrefl 1)
  | q :: g =>
    -- as one word the group is a target, and cut it is a target and an argument
    rw [cut, List.cons_append, List.singleton_append, argumentsFrom_target hp,
      argumentsFrom_target hp, argumentsFrom_word (hwords q (by simp)), List.length_cons]
    exact Nat.lt_succ_of_le hle

/-- Each cut makes one more argument, so that only whole targets leave as many as are asked for. -/
theorem length_argumentsFrom_severed {gs : List (List Piece)} (hgs : Grouped gs)
    (hsep : ∀ p ∈ gs.flatten, p.separator? = none) {before : List Piece}
    {pending : Option Redirection} (h : pending.isSome = awaitsTarget (tokensOf before)) :
    (argumentsFrom pending gs).length ≤ (argumentsFrom pending (severed before gs)).length ∧
      ((argumentsFrom pending gs).length = (argumentsFrom pending (severed before gs)).length →
        TargetsWhole before gs) := by
  induction gs generalizing before pending with
  | nil => exact ⟨Nat.le_refl _, fun _ i ↦ i.elim0⟩
  | cons g gs ih =>
    match g with
    | [] => exact absurd List.mem_cons_self hgs.ne_nil
    | p :: g =>
      rw [List.flatten_cons] at hsep
      obtain ⟨hgroup, htail⟩ := List.forall_mem_append.mp hsep
      have hjoined := hgs.joined _ List.mem_cons_self
      rw [targetsWhole_cons, severed]
      by_cases hg : awaitsTarget (tokensOf before) = true → (p :: g).length ≤ 1
      · obtain ⟨items, pending', hpending', hitems⟩ :=
          exists_itemsFrom_unit (hgroup p List.mem_cons_self) hjoined h
        have hrest (hs : List (List Piece)) : argumentsFrom pending ((p :: g) :: hs)
            = items.filterMap Item.word? ++ argumentsFrom pending' hs := by
          rw [argumentsFrom, List.map_cons, hitems, List.filterMap_append, ← argumentsFrom]
        simp only [cut_of_length_le hg, List.singleton_append, hrest, List.length_append,
          Nat.add_le_add_iff_left, Nat.add_left_cancel_iff, and_iff_right hg]
        exact ih hgs.of_cons htail hpending'
      · obtain ⟨hawaits, hlong⟩ := Classical.not_imp.mp hg
        obtain ⟨r, rfl⟩ := Option.isSome_iff_exists.mp (h.trans hawaits)
        rw [Nat.not_le] at hlong
        have hwords := forall_isWord_of_isChain hjoined (isWord_of_lt_length hjoined hlong)
        have hnone : (none : Option Redirection).isSome
            = awaitsTarget (tokensOf (before ++ p :: g)) :=
          (awaitsTarget_append_of_isWord hwords before).symm
        have hlt := length_argumentsFrom_cut hjoined hlong r (ih hgs.of_cons htail hnone).1
        rw [hawaits]
        exact ⟨Nat.le_of_lt hlt, fun heq ↦ absurd heq (Nat.ne_of_lt hlt)⟩

/-! ## What a draft takes -/

namespace Draft

/-- A draft with what items ask for, an argument for each word. -/
structure Takes (d d' : Draft) (items : List Item) : Prop where
  argv : d'.argv = (items.filterMap Item.word?).reverse ++ d.argv
  stdin : d'.stdin = (items.filterMap Item.input?).getLast?.or d.stdin
  stdout : d'.stdout = (items.filterMap Item.output?).getLast?.or d.stdout
  stderr : d'.stderr = (items.filterMap Item.error?).getLast?.or d.stderr

theorem Takes.trans {d d₁ d' : Draft} {items items' : List Item} (h : Takes d d₁ items)
    (h' : Takes d₁ d' items') : Takes d d' (items ++ items') := by
  refine ⟨?_, ?_, ?_, ?_⟩
  · rw [h'.argv, h.argv, List.filterMap_append, List.reverse_append, List.append_assoc]
  · rw [h'.stdin, h.stdin, List.filterMap_append, List.getLast?_append, Option.or_assoc]
  · rw [h'.stdout, h.stdout, List.filterMap_append, List.getLast?_append, Option.or_assoc]
  · rw [h'.stderr, h.stderr, List.filterMap_append, List.getLast?_append, Option.or_assoc]

theorem takes_nil (d : Draft) (pending : Option Redirection) (growing : Bool) :
    Takes d { d with pending, growing } [] :=
  ⟨rfl, rfl, rfl, rfl⟩

theorem takes_redirect (d : Draft) (r : Redirection) (path : String) :
    Takes d (d.redirect r path) [.redirect r path] := by
  obtain ⟨hstdin, hstdout, hstderr⟩ := d.streams_redirect r path
  have hsingle {α : Type} (f : Item → Option α) (i : Item) :
      ([i].filterMap f).getLast? = f i := by
    cases hi : f i <;> simp [hi]
  refine ⟨d.redirect_argv r path, ?_, ?_, ?_⟩
  · rw [hsingle, hstdin]
  · rw [hsingle, hstdout]
  · rw [hsingle, hstderr]

theorem takes_addWord {d : Draft} (hd : d.pending = none) (text : String) {touches : Bool}
    (h : d.growing = true → touches = false) :
    Takes d (d.addWord text touches) [.word text] := by
  have hapart : (d.growing && touches) = false := by
    rw [← Bool.not_eq_true, Bool.and_eq_true]
    rintro ⟨hgrowing, htouches⟩
    rw [h hgrowing] at htouches
    cases htouches
  have hadd : d.addWord text touches = { d with argv := text :: d.argv, growing := true } := by
    rw [addWord, hd, hapart]
  rw [hadd]
  exact ⟨rfl, rfl, rfl, rfl⟩

/-! ### Groups -/

section Group

variable {p : Piece} {g : List Piece} {d d' : Draft}

theorem add_of_isWord (hp : p.token.isWord = true) (d : Draft) :
    d.add p = .ok (d.addWord (String.ofList p.word) p.gap.isEmpty) := by
  obtain ⟨quoting, htoken⟩ := exists_token_eq hp
  exact add_of_word htoken d

theorem addWord_addWord (hd : d.pending = none) (text more : String) (touches : Bool) :
    (d.addWord text touches).addWord more true = d.addWord (text ++ more) touches := by
  obtain ⟨argv, stdin, stdout, stderr, pending, growing⟩ := d
  obtain rfl : pending = none := hd
  cases h : growing && touches with
  | false => simp [addWord, h]
  | true =>
    obtain ⟨rfl, rfl⟩ := Bool.and_eq_true_iff.mp h
    cases argv with
    | nil => simp [addWord]
    | cons last argv => simp [addWord, String.append_assoc]

/-- Where no operator waits, a group is taken as one word. -/
theorem foldlM_group (hp : p.token.isWord = true) (hg : (p :: g).IsChain fun p q ↦ p.joins q)
    (hd : d.pending = none) :
    (p :: g).foldlM add d
      = .ok (d.addWord (String.ofList ((p :: g).flatMap Piece.word)) p.gap.isEmpty) := by
  induction g generalizing p d with
  | nil =>
    rw [List.foldlM_cons, add_of_isWord hp, List.flatMap_cons, List.flatMap_nil, List.append_nil]
    rfl
  | cons q g ih =>
    obtain ⟨hjoins, hg⟩ := List.isChain_cons_cons.mp hg
    simp only [Piece.joins, Bool.and_eq_true] at hjoins
    obtain ⟨⟨-, hq⟩, hgap⟩ := hjoins
    have hstep := ih hq hg (d.pending_addWord (String.ofList p.word) p.gap.isEmpty)
    rw [List.foldlM_cons, add_of_isWord hp]
    refine hstep.trans ?_
    rw [hgap, addWord_addWord hd, ← String.ofList_append]
    rfl

/-- What is left of a draft by a group of words, cut where an operator waits. -/
theorem takes_words (hp : p.token.isWord = true) (hg : (p :: g).IsChain fun p q ↦ p.joins q)
    (hgrow : d.growing = true → p.gap.isEmpty = false) (h : (p :: g).foldlM add d = .ok d')
    (rest : List Token) :
    ∃ items, Takes d d' items ∧
      itemsFrom d.pending ((cut d.pending.isSome (p :: g)).map unit ++ rest)
        = items ++ itemsFrom d'.pending rest := by
  cases hd : d.pending with
  | none =>
    obtain ⟨quoting, hunit⟩ := exists_unit_eq hp g
    rw [foldlM_group hp hg hd] at h
    obtain rfl := Except.ok.inj h
    refine ⟨_, takes_addWord hd _ hgrow, ?_⟩
    rw [pending_addWord, Option.isSome_none, cut_of_length_le (by simp), List.map_singleton, hunit]
    rfl
  | some r =>
    obtain ⟨quoting, hunit⟩ := exists_unit_eq hp []
    rw [List.flatMap_cons, List.flatMap_nil, List.append_nil] at hunit
    rw [List.foldlM_cons, add_of_isWord hp, addWord_of_pending hd] at h
    match g with
    | [] =>
      obtain rfl := Except.ok.inj h
      refine ⟨_, d.takes_redirect r _, ?_⟩
      rw [redirect_pending, cut_of_length_le (by simp), List.map_singleton, hunit]
      rfl
    | q :: g =>
      -- the target is taken, and what touches it begins an argument
      obtain ⟨hjoins, htail⟩ := List.isChain_cons_cons.mp hg
      have hq := forall_isWord_of_isChain hg hp q (by simp)
      obtain ⟨quoting', hrest⟩ := exists_unit_eq hq g
      have hnone := d.redirect_pending r (String.ofList p.word)
      have hfresh : (d.redirect r (String.ofList p.word)).growing = false := by cases r <;> rfl
      obtain rfl := Except.ok.inj ((foldlM_group hq htail hnone).symm.trans h)
      refine ⟨_, (d.takes_redirect r _).trans (takes_addWord hnone _ fun hgrowing ↦ ?_), ?_⟩
      · rw [hfresh] at hgrowing
        cases hgrowing
      · rw [pending_addWord, Option.isSome_some, cut, List.map_cons, List.map_singleton, hunit,
          hrest]
        rfl

theorem takes_single (hp : p.token.isWord = false) (hsep : p.separator? = none)
    (h : d.add p = .ok d') (rest : List Token) :
    (∃ items, Takes d d' items ∧
        itemsFrom d.pending (p.token :: rest) = items ++ itemsFrom d'.pending rest) ∧
      d'.growing = false := by
  rcases add_cases h with ⟨quoting, text, htoken, -⟩ | ⟨r, htoken, hnone, rfl⟩ |
    ⟨htoken, rfl⟩ | ⟨hcomment | hseparator, rfl⟩
  · rw [htoken] at hp
    cases hp
  · refine ⟨⟨[], takes_nil d _ _, ?_⟩, rfl⟩
    rw [htoken, hnone]
    rfl
  · refine ⟨⟨[.errToOut], ⟨rfl, rfl, rfl, rfl⟩, ?_⟩, rfl⟩
    rw [htoken]
    cases d.pending <;> rfl
  · refine ⟨⟨[], takes_nil d _ _, ?_⟩, rfl⟩
    obtain ⟨gap, raw, token⟩ := p
    cases token with
    | comment text => cases d.pending <;> rfl
    | _ => cases hcomment
  · exact absurd hsep hseparator

/-- What is left of a draft by a group. Behind it a word may grow only if it ends in one. -/
theorem takes_group (hsep : p.separator? = none) (hg : (p :: g).IsChain fun p q ↦ p.joins q)
    (hgrow : d.growing = true → p.token.isWord = true → p.gap.isEmpty = false)
    (h : (p :: g).foldlM add d = .ok d') (rest : List Token) :
    (∃ items, Takes d d' items ∧
        itemsFrom d.pending ((cut d.pending.isSome (p :: g)).map unit ++ rest)
          = items ++ itemsFrom d'.pending rest) ∧
      (d'.growing = true → p.token.isWord = true) := by
  by_cases hp : p.token.isWord = true
  · exact ⟨takes_words hp hg (fun hgrowing ↦ hgrow hgrowing hp) h rest, fun _ ↦ hp⟩
  · rw [Bool.not_eq_true] at hp
    obtain rfl := eq_nil_of_not_isWord hg hp
    obtain ⟨d₁, hadd, hpure⟩ := bind_eq_ok_iff.mp ((List.foldlM_cons ..).symm.trans h)
    obtain rfl := Except.ok.inj hpure
    obtain ⟨htakes, hgrowing⟩ := takes_single hp hsep hadd rest
    rw [cut_of_length_le (by simp), List.map_singleton, unit_of_not_isWord hp]
    exact ⟨htakes, fun hgrown ↦ absurd (hgrowing.symm.trans hgrown) Bool.false_ne_true⟩

end Group

/-- A draft takes what groups ask for, as far as they are not cut. -/
theorem takes_of_foldlM {gs : List (List Piece)} (hgs : Grouped gs)
    (hsep : ∀ p ∈ gs.flatten, p.separator? = none) {before : List Piece}
    (hbefore : ∀ p ∈ before, p.separator? = none) {d d' : Draft} (hd : ofPieces before = .ok d)
    (hgrow : d.growing = true →
      ∀ p ∈ gs.flatten.head?, p.token.isWord = true → p.gap.isEmpty = false)
    (h : gs.flatten.foldlM add d = .ok d') :
    Takes d d' (itemsFrom d.pending ((severed before gs).map unit)) := by
  induction gs generalizing before d with
  | nil =>
    obtain rfl := Except.ok.inj h
    exact takes_nil d d.pending d.growing
  | cons g gs ih =>
    match g with
    | [] => exact absurd List.mem_cons_self hgs.ne_nil
    | p :: g =>
      rw [List.flatten_cons] at h hgrow hsep
      obtain ⟨hsepg, hsep⟩ := List.forall_mem_append.mp hsep
      rw [List.foldlM_append] at h
      obtain ⟨d₁, hg, hrest⟩ := bind_eq_ok_iff.mp h
      have hjoined := hgs.joined _ List.mem_cons_self
      obtain ⟨⟨items, htakes, hitems⟩, hword⟩ := takes_group (hsepg p List.mem_cons_self) hjoined
        (fun hgrowing ↦ hgrow hgrowing p rfl) hg ((severed (before ++ p :: g) gs).map unit)
      have hd₁ : ofPieces (before ++ p :: g) = .ok d₁ := by
        rw [ofPieces_append, hd]
        exact hg
      have hfurther : ∀ q ∈ before ++ p :: g, q.separator? = none :=
        List.forall_mem_append.mpr ⟨hbefore, hsepg⟩
      have htail := ih hgs.of_cons hsep hfurther hd₁ (fun hgrowing q hq hisWord ↦ ?_) hrest
      · rw [(state_of_ofPieces hbefore hd).1] at hitems
        rw [severed, List.map_append, hitems]
        exact htakes.trans htail
      · -- the next group does not join this one, which ends in a word
        match gs with
        | [] => cases hq
        | [] :: _ => exact absurd (by simp) hgs.ne_nil
        | (q' :: h) :: gs =>
          obtain rfl : q' = q := Option.some.inj hq
          obtain ⟨⟨hlast, hhead, hapart⟩, -⟩ := List.isChain_cons_cons.mp hgs.apart
          have hend := forall_isWord_of_isChain hjoined (hword hgrowing) _
            (List.getLast_mem hlast)
          rw [List.head_cons, Piece.joins, hend, hisWord] at hapart
          simpa using hapart

end Draft

/-! ## What the stages of a line are -/

def commands (ps : List Piece) : List (List Piece) :=
  ((fragments ps).map Fragment.pieces).filter fun us ↦ HasCommand (tokensOf us)

/-- What holds of the stage of each fragment with its links holds along the stages of a line. -/
theorem forall₂_of_link {R : List Piece → Stage → Prop}
    (hR : ∀ us closer stage s, (∀ p ∈ us, p.separator? = none) →
      Fragment.stage { pieces := us, closer } = .ok stage → Links stage s → R us s)
    {ps : List Piece} {found stages : List Stage} {before : Closer}
    (h : link found before (fragments ps) = .ok stages) :
    ∃ linked, stages = found.reverse ++ linked ∧ List.Forall₂ R (commands ps) linked := by
  induction ps using fragments_induction generalizing found before with
  | last us hus =>
    rw [commands, fragments_of_forall hus, List.map_singleton]
    rw [fragments_of_forall hus] at h
    rcases link_last_eq_ok_iff.mp h with ⟨s, hs, rfl⟩ | ⟨hvacant, -, rfl⟩
    · have hcommand := ((Fragment.exists_stage_iff hus none).mp ⟨s, hs⟩).2
      rw [List.filter_cons_of_pos (by simpa using hcommand)]
      exact ⟨_, rfl, .cons (hR us none s _ hus hs (.last _)) .nil⟩
    · have hcommand := ((Fragment.isVacant_iff hus none).mp hvacant).2
      rw [List.filter_cons_of_neg (by simpa using hcommand)]
      exact ⟨[], by simp, .nil⟩
  | cons us p sep ps hus hp ih =>
    rw [fragments_append_cons hus hp] at h
    obtain ⟨s, hs, hrest⟩ := link_closed_eq_ok_iff.mp h
    obtain ⟨linked, rfl, hlinked⟩ := ih hrest
    have hcommand := ((Fragment.exists_stage_iff hus (some sep)).mp ⟨s, hs⟩).2
    rw [commands, fragments_append_cons hus hp, List.map_cons,
      List.filter_cons_of_pos (by simpa using hcommand), ← commands]
    exact ⟨linkAfter sep (linkBefore (before == some .pipe) s) :: linked, by simp,
      .cons (hR us (some sep) s _ hus hs (.closed _ sep)) hlinked⟩

section Command

variable {us : List Piece} (hus : ∀ p ∈ us, p.separator? = none)

include hus

/-- The stage of a fragment is what its groups ask for, as they are cut. -/
theorem Fragment.reads_severed {closer : Closer} {stage : Stage}
    (h : Fragment.stage { pieces := us, closer } = .ok stage) :
    Reads stage (severed [] (groups us)) := by
  have hflatten : (groups us).flatten = us := List.flatten_splitBy _ us
  obtain ⟨d, hd, hstage⟩ := bind_eq_ok_iff.mp h
  obtain ⟨-, -, rfl⟩ := Draft.stage_eq_ok_iff.mp hstage
  have htakes : Draft.Takes {} d (asks (severed [] (groups us))) := by
    refine Draft.takes_of_foldlM (grouped_groups us) ?_ (List.forall_mem_nil _) rfl ?_ ?_
    · rwa [hflatten]
    · rintro ⟨⟩
    · rwa [hflatten]
  refine ⟨?_, ?_, ?_, ?_⟩
  · simp [htakes.argv]
  · intro i hi
    simp only [htakes.stdin, Option.mem_def.mp hi]
    rfl
  · intro o ho
    simp only [htakes.stdout, Option.mem_def.mp ho]
    rfl
  · intro o ho
    simp only [htakes.stderr, Option.mem_def.mp ho]
    rfl

/-- Which stages a fragment of whole targets has is told by the number of arguments. -/
theorem reads_groups_iff {s : Stage} (h : Reads s (severed [] (groups us))) :
    Reads s (groups us) ↔ TargetsWhole [] (groups us) := by
  constructor
  · intro hreads
    have hsep : ∀ p ∈ (groups us).flatten, p.separator? = none := by
      rwa [groups, List.flatten_splitBy]
    have hnone : (none : Option Redirection).isSome = awaitsTarget (tokensOf []) := rfl
    refine (length_argumentsFrom_severed (grouped_groups us) hsep hnone).2 ?_
    exact congrArg List.length (hreads.argv.symm.trans h.argv)
  · intro hwhole
    rwa [severed_of_targetsWhole hwhole] at h

end Command

theorem Reads.of_links {stage s : Stage} {gs : List (List Piece)} (h : Reads stage gs)
    (hlinks : Links stage s) : Reads s gs :=
  ⟨hlinks.keeps.1.trans h.argv, hlinks.stdin_eq h.stdin, hlinks.stdout_eq h.stdout,
    fun o ho ↦ hlinks.keeps.2.1.trans (h.stderr o ho)⟩

/-- **Words that touch.** Each stage of a plan is what the groups of its command ask for, except
that a group is cut behind its first piece where it is a target. So its groups are all used as one
word exactly when no target is made of several pieces. -/
theorem reads_of_parse {line : String} {plan : Plan} {ps : List Piece}
    (h : parse line = .ok plan) (hps : pieces line.toList = .ok ps) :
    List.Forall₂ (fun us s ↦ Reads s (severed [] (groups us)) ∧
      (Reads s (groups us) ↔ TargetsWhole [] (groups us))) (commands ps) plan.stages := by
  obtain ⟨ps', stages, hps', hlink, rfl⟩ := parse_eq_ok_iff.mp h
  obtain rfl : ps' = ps := Except.ok.inj (hps'.symm.trans hps)
  suffices hfragment : ∀ us closer stage s, (∀ p ∈ us, p.separator? = none) →
      Fragment.stage { pieces := us, closer } = .ok stage → Links stage s →
      Reads s (severed [] (groups us)) ∧
        (Reads s (groups us) ↔ TargetsWhole [] (groups us)) by
    obtain ⟨linked, hlinked, hforall⟩ := forall₂_of_link hfragment hlink
    obtain rfl : stages = linked := hlinked
    exact hforall
  intro us closer stage s hus hstage hlinks
  have hreads := (Fragment.reads_severed hus hstage).of_links hlinks
  exact ⟨hreads, reads_groups_iff hus hreads⟩

/-- An argument of three pieces, and a target of one. -/
theorem reads_of_parse_joined :
    parse "cat a\"b\"'c' >out" = .ok (Plan.ofStages "cat a\"b\"'c' >out"
      [{ argv := ["cat", "abc"], text := "cat a\"b\"'c' >out", stdout := .overwrite "out" }]) ∧
    ∃ us, pieces "cat a\"b\"'c' >out".toList = .ok us ∧ (groups us).length = 4 ∧
      List.Forall₂ (fun us s ↦ Reads s (severed [] (groups us)) ∧
          (Reads s (groups us) ↔ TargetsWhole [] (groups us))) (commands us)
        [{ argv := ["cat", "abc"], text := "cat a\"b\"'c' >out", stdout := .overwrite "out" }] := by
  have hplan : parse "cat a\"b\"'c' >out" = .ok (Plan.ofStages "cat a\"b\"'c' >out"
      [{ argv := ["cat", "abc"], text := "cat a\"b\"'c' >out", stdout := .overwrite "out" }]) := by
    decide +kernel
  have hps : pieces "cat a\"b\"'c' >out".toList = .ok
      [{ gap := [], raw := "cat".toList, token := .word .bare "cat".toList },
        { gap := [' '], raw := ['a'], token := .word .bare ['a'] },
        { gap := [], raw := "\"b\"".toList, token := .word .double ['b'] },
        { gap := [], raw := "'c'".toList, token := .word .single ['c'] },
        { gap := [' '], raw := ['>'], token := .redirection .overwrite },
        { gap := [], raw := "out".toList, token := .word .bare "out".toList }] := by
    decide +kernel
  exact ⟨hplan, _, hps, by decide, reads_of_parse hplan hps⟩

/-- A target of two pieces: the second one becomes an argument. -/
theorem not_reads_of_split_target :
    parse "ls >a\"b\"" = .ok (Plan.ofStages "ls >a\"b\""
      [{ argv := ["ls", "b"], text := "ls >a\"b\"", stdout := .overwrite "a" }]) ∧
    ∃ us, pieces "ls >a\"b\"".toList = .ok us ∧ commands us = [us] ∧
      ¬Reads { argv := ["ls", "b"], text := "ls >a\"b\"", stdout := .overwrite "a" }
        (groups us) := by
  have hps : pieces "ls >a\"b\"".toList = .ok
      [{ gap := [], raw := ['l', 's'], token := .word .bare ['l', 's'] },
        { gap := [' '], raw := ['>'], token := .redirection .overwrite },
        { gap := [], raw := ['a'], token := .word .bare ['a'] },
        { gap := [], raw := "\"b\"".toList, token := .word .double ['b'] }] := by
    decide +kernel
  refine ⟨by decide +kernel, _, hps, by decide, ?_⟩
  intro hreads
  exact absurd hreads.argv (by decide)

end ShellEngine.Line
