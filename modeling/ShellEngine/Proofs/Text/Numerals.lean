import Mathlib.Data.Nat.Digits.Defs
import Mathlib.Tactic.Ring
import ShellEngine.Text.Numeral

/-!
# The numbers that numerals stand for

A numeral is read from its leading digit on, and the number read so far is compared with the bound
behind every digit. Since that number only grows, the bound is one on the whole numeral
(`readDigits_eq_ok_iff`). Which number that is, is said by `Nat.ofDigits`, which knows of no order of
reading and of no bound.
-/

namespace ShellEngine.Text

/-- Digits of a radix, the leading one first, that make the number `n`. -/
structure IsNumeral (radix : Nat) (cs : List Char) (n : Nat) : Prop where
  ne_nil : cs ≠ []
  exists_digits :
    ∃ ds : List Nat, cs.map (digit? radix) = ds.map some ∧ n = Nat.ofDigits radix ds.reverse

theorem IsNumeral.not_mem {radix n : Nat} {cs : List Char} (h : IsNumeral radix cs n) {c : Char}
    (hc : digit? radix c = none) : c ∉ cs := by
  intro hmem
  obtain ⟨ds, hds, -⟩ := h.exists_digits
  have hnone : none ∈ ds.map some := by
    rw [← hds, ← hc]
    exact List.mem_map_of_mem hmem
  simp at hnone

theorem digit?_plus (radix : Nat) : digit? radix '+' = none := rfl

theorem exists_map_digit?_cons {radix d : Nat} {c : Char} (hc : digit? radix c = some d)
    {cs : List Char} {p : List Nat → Prop} :
    (∃ ds, (c :: cs).map (digit? radix) = ds.map some ∧ p ds) ↔
      ∃ ds, cs.map (digit? radix) = ds.map some ∧ p (d :: ds) := by
  constructor
  · rintro ⟨ds, hds, hp⟩
    obtain ⟨d', ds', rfl, hd', hds'⟩ := List.map_eq_cons_iff.mp hds.symm
    obtain rfl : d' = d := Option.some.inj (hd'.trans hc)
    exact ⟨ds', hds'.symm, hp⟩
  · rintro ⟨ds, hds, hp⟩
    exact ⟨d :: ds, by rw [List.map_cons, List.map_cons, hc, hds], hp⟩

section Reading

variable {radix bound n : Nat} {overflow : NumeralError}

/-- A leading digit and the number behind it, put together. -/
theorem ofDigits_reverse_cons (acc d : Nat) (ds : List Nat) :
    Nat.ofDigits radix ((d :: ds).reverse ++ [acc])
      = Nat.ofDigits radix (ds.reverse ++ [acc * radix + d]) := by
  have htwo : Nat.ofDigits radix [d, acc] = acc * radix + d := by
    rw [Nat.ofDigits_cons, Nat.ofDigits_singleton]
    ring
  rw [List.reverse_cons, List.append_assoc, List.singleton_append, Nat.ofDigits_append, htwo,
    Nat.ofDigits_append, Nat.ofDigits_singleton]

theorem le_ofDigits_concat (hradix : 0 < radix) (acc : Nat) (ds : List Nat) :
    acc ≤ Nat.ofDigits radix (ds ++ [acc]) := by
  rw [Nat.ofDigits_append, Nat.ofDigits_singleton]
  calc acc ≤ radix ^ ds.length * acc := Nat.le_mul_of_pos_left _ (Nat.pow_pos hradix)
    _ ≤ Nat.ofDigits radix ds + radix ^ ds.length * acc := Nat.le_add_left _ _

/-- Reading digits behind a number `acc` gives the number of them all, if that is in bounds. -/
theorem readDigits_eq_ok_iff (hradix : 0 < radix) {acc : Nat} (hacc : acc ≤ bound)
    {cs : List Char} :
    readDigits radix bound overflow acc cs = .ok n ↔
      ∃ ds : List Nat, cs.map (digit? radix) = ds.map some ∧
        n = Nat.ofDigits radix (ds.reverse ++ [acc]) ∧ n ≤ bound := by
  induction cs generalizing acc with
  | nil =>
    rw [readDigits, Except.ok.injEq]
    constructor
    · rintro rfl
      exact ⟨[], rfl, (Nat.ofDigits_singleton).symm, hacc⟩
    · rintro ⟨ds, hds, rfl, -⟩
      obtain rfl := List.map_eq_nil_iff.mp hds.symm
      exact (Nat.ofDigits_singleton).symm
  | cons c cs ih =>
    cases hc : digit? radix c with
    | none =>
      simp only [readDigits, hc, reduceCtorEq, false_iff, not_exists, not_and]
      intro ds hds
      cases ds <;> simp [hc] at hds
    | some d =>
      simp only [exists_map_digit?_cons hc, ofDigits_reverse_cons, readDigits, hc]
      by_cases hvalue : acc * radix + d > bound
      · -- the digits to come make the number no smaller
        rw [if_pos hvalue]
        constructor
        · intro h
          cases h
        · rintro ⟨ds, -, rfl, hle⟩
          exact absurd (Nat.le_trans (le_ofDigits_concat hradix _ ds.reverse) hle)
            (Nat.not_le_of_gt hvalue)
      · rw [if_neg hvalue]
        exact ih (Nat.le_of_not_gt hvalue)

theorem readDigits_zero_eq_ok_iff (hradix : 0 < radix) {cs : List Char} (hcs : cs ≠ []) :
    readDigits radix bound overflow 0 cs = .ok n ↔ IsNumeral radix cs n ∧ n ≤ bound := by
  rw [readDigits_eq_ok_iff hradix (Nat.zero_le _)]
  constructor
  · rintro ⟨ds, hds, hn, hle⟩
    exact ⟨⟨hcs, ds, hds, hn.trans (Nat.ofDigits_append_zero _)⟩, hle⟩
  · rintro ⟨⟨-, ds, hds, hn⟩, hle⟩
    exact ⟨ds, hds, hn.trans (Nat.ofDigits_append_zero _).symm, hle⟩

end Reading

/-- A text that stands there or not. -/
def maybe (there : Bool) (text : List Char) : List Char := if there then text else []

/-- **Numerals.** What is read is a numeral in bounds, perhaps with a plus sign before it. -/
theorem readNat_eq_ok_iff {radix bound n : Nat} (hradix : 0 < radix) {cs : List Char} :
    readNat radix bound cs = .ok n ↔
      ∃ plus digits, cs = maybe plus ['+'] ++ digits ∧ IsNumeral radix digits n ∧ n ≤ bound := by
  constructor
  · intro h
    unfold readNat at h
    split at h
    case h_1 => cases h
    case h_2 => cases h
    case h_3 digits hdigits =>
      exact ⟨true, digits, rfl, (readDigits_zero_eq_ok_iff hradix fun hnil ↦ hdigits hnil).mp h⟩
    case h_4 hnil _ _ =>
      exact ⟨false, cs, rfl, (readDigits_zero_eq_ok_iff hradix fun hcs ↦ hnil hcs).mp h⟩
  · rintro ⟨plus, digits, rfl, hdigits, hle⟩
    have hread : readDigits radix bound .tooLarge 0 digits = .ok n :=
      (readDigits_zero_eq_ok_iff hradix hdigits.ne_nil).mpr ⟨hdigits, hle⟩
    have hplus := hdigits.not_mem (digit?_plus radix)
    obtain ⟨c, digits, rfl⟩ := List.exists_cons_of_ne_nil hdigits.ne_nil
    cases plus with
    | true => exact hread
    | false =>
      have hc : c ≠ '+' := fun hc ↦ hplus (hc ▸ List.mem_cons_self)
      simpa [maybe, readNat, hc] using hread

end ShellEngine.Text
