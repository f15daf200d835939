import ShellEngine.Text.Blank
import Mathlib.Data.List.DropRight
import Mathlib.Data.List.TakeWhile

/-!
# Stripping both ends of a list

Trimming a text and leaving out the comments around a command are the same thing done to different
lists. It is characterised by what it takes away and where it stops.
-/

namespace ShellEngine.Text

variable {α : Type} {p : α → Bool}

/-- A list without the members with `p` at both ends. -/
def strip (p : α → Bool) (l : List α) : List α := ((l.dropWhile p).reverse.dropWhile p).reverse

theorem strip_eq_rdropWhile (p : α → Bool) (l : List α) :
    strip p l = (l.dropWhile p).rdropWhile p := rfl

theorem trim_eq_strip (cs : List Char) : trim cs = strip isBlank cs := rfl

theorem takeWhile_append_of_head? {l r : List α} (hl : ∀ a ∈ l, p a = true)
    (hr : ∀ a ∈ r.head?, p a = false) :
    (l ++ r).takeWhile p = l ∧ (l ++ r).dropWhile p = r := by
  rw [List.takeWhile_append_of_pos hl, List.dropWhile_append_of_pos hl]
  cases r with
  | nil => simp
  | cons a r =>
    have ha : p a = false := hr a rfl
    simp [ha]

theorem head?_dropWhile_of_not {l : List α} : ∀ a ∈ (l.dropWhile p).head?, p a = false := by
  intro a ha
  have h := List.head?_dropWhile_not (p := p) (l := l)
  rw [Option.mem_def.mp ha] at h
  exact h

theorem strip_cons_of_pos {a : α} (h : p a = true) (l : List α) : strip p (a :: l) = strip p l := by
  rw [strip, List.dropWhile_cons_of_pos h, ← strip]

theorem strip_cons_of_neg {a : α} (h : p a = false) (l : List α) :
    strip p (a :: l) = a :: l.rdropWhile p := by
  rw [strip, List.dropWhile_cons_of_neg (by simp [h]), List.reverse_cons, List.rdropWhile]
  cases hl : l.reverse.dropWhile p with
  | nil => simp [List.dropWhile_append, hl, h]
  | cons b r => simp [List.dropWhile_append, hl]

theorem strip_concat_of_pos {a : α} (h : p a = true) (l : List α) :
    strip p (l ++ [a]) = strip p l := by
  rw [strip_eq_rdropWhile, strip_eq_rdropWhile, List.dropWhile_append]
  cases hl : l.dropWhile p with
  | nil => simp [h]
  | cons b r => exact List.rdropWhile_concat_pos p _ a h

theorem strip_concat_of_neg {a : α} (h : p a = false) (l : List α) :
    strip p (l ++ [a]) = l.dropWhile p ++ [a] := by
  have ha : ¬p a = true := by simp [h]
  rw [strip_eq_rdropWhile, List.dropWhile_append]
  cases hl : l.dropWhile p with
  | nil => simp [h, List.rdropWhile_singleton]
  | cons b r => exact List.rdropWhile_concat_neg p _ a ha

theorem rdropWhile_append_of_getLast? {l r : List α} (hr : ∀ a ∈ r, p a = true)
    (hl : ∀ a ∈ l.getLast?, p a = false) : (l ++ r).rdropWhile p = l := by
  rw [List.rdropWhile, List.reverse_append,
    (takeWhile_append_of_head? (by simpa using hr) (by simpa using hl)).2, List.reverse_reverse]

theorem getLast?_rdropWhile_of_not {l : List α} :
    ∀ a ∈ (l.rdropWhile p).getLast?, p a = false := by
  intro a ha
  rw [List.rdropWhile, List.getLast?_reverse] at ha
  exact head?_dropWhile_of_not a ha

/-- What stripping leaves is known from where it stops. -/
theorem strip_eq {left middle right : List α} (hleft : ∀ a ∈ left, p a = true)
    (hright : ∀ a ∈ right, p a = true) (hhead : ∀ a ∈ middle.head?, p a = false)
    (hlast : ∀ a ∈ middle.getLast?, p a = false) : strip p (left ++ middle ++ right) = middle := by
  by_cases hmiddle : middle = []
  · have hall : ∀ a ∈ left ++ middle ++ right, p a = true := by
      intro a ha
      rw [hmiddle, List.append_nil, List.mem_append] at ha
      exact ha.elim (hleft a) (hright a)
    rw [strip_eq_rdropWhile, List.dropWhile_eq_nil_iff.mpr hall, hmiddle, List.rdropWhile_nil]
  · have hhead' : ∀ a ∈ (middle ++ right).head?, p a = false := by
      obtain ⟨b, middle, rfl⟩ := List.exists_cons_of_ne_nil hmiddle
      exact hhead
    rw [strip_eq_rdropWhile, List.append_assoc, (takeWhile_append_of_head? hleft hhead').2,
      rdropWhile_append_of_getLast? hright hlast]

theorem strip_of_ends {l : List α} (hhead : ∀ a ∈ l.head?, p a = false)
    (hlast : ∀ a ∈ l.getLast?, p a = false) : strip p l = l := by
  have hstrip := strip_eq (List.forall_mem_nil _) (List.forall_mem_nil _) hhead hlast
  rwa [List.nil_append, List.append_nil] at hstrip

/-- What stripping takes away, and where it stops. -/
theorem exists_strip (p : α → Bool) (l : List α) :
    ∃ left right, l = left ++ strip p l ++ right ∧ (∀ a ∈ left, p a = true) ∧
      (∀ a ∈ right, p a = true) ∧ (∀ a ∈ (strip p l).head?, p a = false) ∧
      ∀ a ∈ (strip p l).getLast?, p a = false := by
  have hright : strip p l ++ (l.dropWhile p).rtakeWhile p = l.dropWhile p :=
    List.rdropWhile_append_rtakeWhile
  refine ⟨l.takeWhile p, (l.dropWhile p).rtakeWhile p, ?_, ?_, ?_, ?_, ?_⟩
  · rw [List.append_assoc, hright, List.takeWhile_append_dropWhile]
  · exact fun a ha ↦ List.mem_takeWhile_imp ha
  · exact fun a ha ↦ List.mem_rtakeWhile_imp ha
  · intro a ha
    refine head?_dropWhile_of_not (l := l) a ?_
    rw [← hright, List.head?_append, Option.mem_def.mp ha]
    rfl
  · exact getLast?_rdropWhile_of_not

theorem strip_strip (p : α → Bool) (l : List α) : strip p (strip p l) = strip p l := by
  obtain ⟨-, -, -, -, -, hhead, hlast⟩ := exists_strip p l
  exact strip_of_ends hhead hlast

theorem strip_append_of_pos {left : List α} (h : ∀ a ∈ left, p a = true) (l : List α) :
    strip p (left ++ l) = strip p l := by
  rw [strip_eq_rdropWhile, strip_eq_rdropWhile, List.dropWhile_append_of_pos h]

/-- The end is stripped of the same members with the start and without it. -/
theorem exists_append_strip (p : α → Bool) (l : List α) :
    ∃ left, l.rdropWhile p = left ++ strip p l ∧ ∀ a ∈ left, p a = true := by
  obtain ⟨left, right, hl, hleft, hright, -, hlast⟩ := exists_strip p l
  by_cases hstrip : strip p l = []
  · have hall : ∀ a ∈ l, p a = true := by
      intro a ha
      rw [hl, hstrip, List.append_nil, List.mem_append] at ha
      exact ha.elim (hleft a) (hright a)
    exact ⟨[], by rw [hstrip, List.rdropWhile_eq_nil_iff.mpr hall]; rfl, by simp⟩
  · have hlast' : ∀ a ∈ (left ++ strip p l).getLast?, p a = false := by
      intro a ha
      refine hlast a ?_
      rwa [List.getLast?_append_of_ne_nil _ hstrip] at ha
    refine ⟨left, ?_, hleft⟩
    have hdrop := rdropWhile_append_of_getLast? hright hlast'
    rwa [← hl] at hdrop

/-- The two ends can be stripped in any order. -/
theorem strip_eq_dropWhile (p : α → Bool) (l : List α) :
    strip p l = (l.rdropWhile p).dropWhile p := by
  obtain ⟨left, hdrop, hleft⟩ := exists_append_strip p l
  obtain ⟨-, -, -, -, -, hhead, -⟩ := exists_strip p l
  rw [hdrop, (takeWhile_append_of_head? hleft hhead).2]

theorem strip_sublist_rdropWhile (p : α → Bool) (l : List α) :
    List.Sublist (strip p l) (l.rdropWhile p) := by
  rw [strip_eq_dropWhile]
  exact List.dropWhile_sublist p

end ShellEngine.Text
