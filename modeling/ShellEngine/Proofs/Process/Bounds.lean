import ShellEngine.Process.Probe
import ShellEngine.Proofs.Text.Numerals

/-!
# The bounds in a line about a process

A `stat` line carries the name of the command, which the process chooses for itself: it may look
like the fields that are to follow. None of those has a parenthesis in it, though, so the last one
closes the name, whatever the name is (`afterName_append`), and the fields are those that were
written (`Spaced.fields_eq`), the first of them with the number 3.

Two of the fields tell where the environment lies. What a field says is a relation (`Says`), so that
there is nothing to be said for a field that is not there, holds no number, or holds one that takes
more than 64 bits.
-/

namespace ShellEngine

/-! ## Fields -/

namespace Text

/-- A text that consists of fields, with blanks around them. -/
inductive Spaced : List (List Char) → List Char → Prop
  | nil {gap : List Char} (hgap : ∀ c ∈ gap, isBlank c = true) : Spaced [] gap
  | cons {gap field rest : List Char} {fields : List (List Char)}
      (hgap : ∀ c ∈ gap, isBlank c = true)
      (hne : field ≠ []) (hfield : ∀ c ∈ field, isBlank c = false)
      (hnext : ∀ c ∈ rest.head?, isBlank c = true) (hrest : Spaced fields rest) :
      Spaced (field :: fields) (gap ++ field ++ rest)

theorem spaced_flatMap {fields : List (List Char)}
    (h : ∀ field ∈ fields, field ≠ [] ∧ field.all (!isBlank ·) = true) :
    Spaced fields (fields.flatMap (' ' :: ·)) := by
  induction fields with
  | nil => exact .nil nofun
  | cons field fields ih =>
    obtain ⟨⟨hne, hfield⟩, hfields⟩ := List.forall_mem_cons.mp h
    have hgap : ∀ c ∈ [' '], isBlank c = true := List.forall_mem_singleton.mpr rfl
    refine .cons hgap hne (by simpa using hfield) ?_ (ih hfields)
    cases fields with
    | nil => nofun
    | cons next fields =>
      rintro c ⟨⟩
      rfl

/-- What is neither blank nor in a field is not in the text. -/
theorem Spaced.not_mem {fields : List (List Char)} {text : List Char} (h : Spaced fields text)
    {c : Char} (hc : isBlank c = false) (hfields : ∀ field ∈ fields, c ∉ field) : c ∉ text := by
  have hnot {gap : List Char} (hgap : ∀ c ∈ gap, isBlank c = true) : c ∉ gap := fun hmem ↦ by
    simp [hgap c hmem] at hc
  induction h with
  | nil hgap => exact hnot hgap
  | cons hgap hne hfield hnext hrest ih =>
    obtain ⟨hfirst, hothers⟩ := List.forall_mem_cons.mp hfields
    simp only [List.mem_append, not_or]
    exact ⟨⟨hnot hgap, hfirst⟩, ih hothers⟩

theorem fields_go_gap {gap : List Char} (hgap : ∀ c ∈ gap, isBlank c = true)
    (found : List (List Char)) (rest : List Char) :
    fields.go found [] (gap ++ rest) = fields.go found [] rest := by
  induction gap with
  | nil => rfl
  | cons c gap ih =>
    obtain ⟨hc, hgap⟩ := List.forall_mem_cons.mp hgap
    rw [List.cons_append, fields.go, if_pos hc]
    exact ih hgap

theorem fields_go_field {field : List Char} (hfield : ∀ c ∈ field, isBlank c = false)
    (found : List (List Char)) (read rest : List Char) :
    fields.go found read (field ++ rest) = fields.go found (field.reverse ++ read) rest := by
  induction field generalizing read with
  | nil => rfl
  | cons c field ih =>
    obtain ⟨hc, hfield⟩ := List.forall_mem_cons.mp hfield
    rw [List.cons_append, fields.go, hc, if_neg Bool.false_ne_true, ih hfield, List.reverse_cons,
      List.append_assoc, List.singleton_append]

theorem fields_go_close {read rest : List Char} (hread : read ≠ [])
    (hnext : ∀ c ∈ rest.head?, isBlank c = true) (found : List (List Char)) :
    fields.go found read rest = fields.go (read.reverse :: found) [] rest := by
  have hclose : fields.close found read = read.reverse :: found := by simp [fields.close, hread]
  cases rest with
  | nil => rw [fields.go, fields.go, hclose]; rfl
  | cons c rest =>
    have hc : isBlank c = true := hnext c rfl
    rw [fields.go, fields.go, if_pos hc, if_pos hc, hclose]; rfl

theorem Spaced.fields_eq {fields : List (List Char)} {text : List Char} (h : Spaced fields text) :
    Text.fields text = fields := by
  suffices hgo : ∀ found, Text.fields.go found [] text = found.reverse ++ fields from hgo []
  induction h with
  | nil hgap =>
    intro found
    simpa [Text.fields.go, Text.fields.close] using fields_go_gap hgap found []
  | cons hgap hne hfield hnext hrest ih =>
    intro found
    rw [List.append_assoc, fields_go_gap hgap, fields_go_field hfield, List.append_nil,
      fields_go_close (mt List.reverse_eq_nil_iff.mp hne) hnext, List.reverse_reverse, ih]
    simp

end Text

namespace Probe

/-! ## The end of the name -/

theorem afterName_append {rest : List Char} (hrest : ')' ∉ rest) (before : List Char) :
    afterName (before ++ ')' :: rest) = some rest := by
  have hkept : (rest.reverse ++ ')' :: before.reverse).takeWhile (· != ')') = rest.reverse := by
    rw [List.takeWhile_append_of_pos]
    · simp
    · intro c hc
      have hne : c ≠ ')' := fun h ↦ hrest (h ▸ List.mem_reverse.mp hc)
      simpa using hne
  simp [afterName, hkept]

/-! ## The two fields -/

def Says (fields : List (List Char)) (number address : Nat) : Prop :=
  ∃ plus digits, fields[number - firstField]? = some (Text.maybe plus ['+'] ++ digits) ∧
    Text.IsNumeral 10 digits address ∧ address < 2 ^ 64

theorem address_eq_ok_iff {fields : List (List Char)} {number n : Nat} :
    address fields number = .ok n ↔ Says fields number n := by
  unfold address Says
  cases hfield : fields[number - firstField]? with
  | none => simp [address.unavailable]
  | some field =>
    have hbound : n ≤ 0xFFFFFFFFFFFFFFFF ↔ n < 2 ^ 64 := by omega
    simp only [Option.some.injEq, ← hbound]
    rw [← Text.readNat_eq_ok_iff (by decide)]
    cases Text.readNat 10 0xFFFFFFFFFFFFFFFF field <;> simp [address.unavailable]

theorem Says.unique {fields : List (List Char)} {number n m : Nat} (hn : Says fields number n)
    (hm : Says fields number m) : n = m :=
  Except.ok.inj ((address_eq_ok_iff.mpr hn).symm.trans (address_eq_ok_iff.mpr hm))

/-- The address is there, or the error names the field. -/
theorem address_eq_ok_or_unavailable (fields : List (List Char)) (number : Nat) :
    (∃ n, address fields number = .ok n)
      ∨ address fields number = address.unavailable number := by
  unfold address
  split
  · split
    · next n _ => exact .inl ⟨n, rfl⟩
    · exact .inr rfl
  · exact .inr rfl

theorem address_eq_unavailable {fields : List (List Char)} {number : Nat}
    (h : ∀ n, ¬ Says fields number n) :
    address fields number = address.unavailable number := by
  obtain ⟨n, hn⟩ | hnone := address_eq_ok_or_unavailable fields number
  · exact absurd (address_eq_ok_iff.mp hn) (h n)
  · exact hnone

/-! ## The bounds -/

section Line

variable {fields : List (List Char)} {line rest : List Char}
  (hline : afterName line = some rest) (hrest : Text.Spaced fields rest)

include hline hrest

/-- The second address is not looked at if there is no first one. -/
theorem bounds_eq_bind :
    bounds line = (address fields startField).bind fun start ↦
      (address fields endField).bind fun stop ↦
        if start = 0 || stop ≤ start then .error (.parameters "environment bounds withheld")
        else .ok (start, stop) := by
  rw [bounds, hline]
  simp only [hrest.fields_eq]
  rfl

theorem bounds_of_start_unavailable (hstart : ∀ n, ¬ Says fields startField n) :
    bounds line = .error (.parameters "stat field 50 unavailable") := by
  rw [bounds_eq_bind hline hrest, address_eq_unavailable hstart]
  rfl

theorem bounds_of_stop_unavailable {start : Nat} (hstart : Says fields startField start)
    (hstop : ∀ n, ¬ Says fields endField n) :
    bounds line = .error (.parameters "stat field 51 unavailable") := by
  rw [bounds_eq_bind hline hrest, address_eq_ok_iff.mpr hstart, address_eq_unavailable hstop]
  rfl

theorem bounds_of_says {start stop : Nat} (hstart : Says fields startField start)
    (hstop : Says fields endField stop) :
    bounds line =
      if 0 < start ∧ start < stop then .ok (start, stop)
      else .error (.parameters "environment bounds withheld") := by
  rw [bounds_eq_bind hline hrest, address_eq_ok_iff.mpr hstart, address_eq_ok_iff.mpr hstop,
    Except.bind, Except.bind]
  by_cases hbounds : 0 < start ∧ start < stop
  · rw [if_pos hbounds, if_neg]
    simp
    omega
  · rw [if_neg hbounds, if_pos]
    simp
    omega

end Line

/-- **The bounds of an environment.** Whatever the command calls itself, the fields 50 and 51 tell
where the environment lies, if they are two addresses in order and the first one is not zero. If
they are not, there is an error about them. -/
theorem bounds_of_line (pid comm : List Char) {fields : List (List Char)} {rest : List Char}
    (hrest : Text.Spaced fields rest) (hfields : ∀ field ∈ fields, ')' ∉ field) :
    let line := pid ++ ' ' :: '(' :: comm ++ ')' :: rest
    (∀ start stop, bounds line = .ok (start, stop) ↔
      Says fields 50 start ∧ Says fields 51 stop ∧ 0 < start ∧ start < stop) ∧
    ((¬ ∃ start stop, Says fields 50 start ∧ Says fields 51 stop ∧ 0 < start ∧ start < stop) →
      ∃ message, bounds line = .error (.parameters message)) := by
  have hline := afterName_append (hrest.not_mem rfl hfields) (pid ++ ' ' :: '(' :: comm)
  by_cases hstart : ∃ n, Says fields 50 n
  swap
  · have hbounds := bounds_of_start_unavailable hline hrest (not_exists.mp hstart)
    refine ⟨fun start stop ↦ ?_, fun _ ↦ ⟨_, hbounds⟩⟩
    rw [hbounds]
    exact ⟨nofun, fun h ↦ absurd ⟨start, h.1⟩ hstart⟩
  obtain ⟨start, hstart⟩ := hstart
  by_cases hstop : ∃ n, Says fields 51 n
  swap
  · have hbounds := bounds_of_stop_unavailable hline hrest hstart (not_exists.mp hstop)
    refine ⟨fun _ stop ↦ ?_, fun _ ↦ ⟨_, hbounds⟩⟩
    rw [hbounds]
    exact ⟨nofun, fun h ↦ absurd ⟨stop, h.2.1⟩ hstop⟩
  obtain ⟨stop, hstop⟩ := hstop
  have hbounds := bounds_of_says hline hrest hstart hstop
  by_cases hinside : 0 < start ∧ start < stop
  · rw [if_pos hinside] at hbounds
    refine ⟨fun start' stop' ↦ ?_, fun hnone ↦ absurd ⟨start, stop, hstart, hstop, hinside⟩ hnone⟩
    rw [hbounds]
    constructor
    · rintro ⟨⟩
      exact ⟨hstart, hstop, hinside⟩
    · rintro ⟨hstart', hstop', -⟩
      rw [hstart.unique hstart', hstop.unique hstop']
  · rw [if_neg hinside] at hbounds
    refine ⟨fun start' stop' ↦ ?_, fun _ ↦ ⟨_, hbounds⟩⟩
    rw [hbounds]
    refine ⟨nofun, fun ⟨hstart', hstop', hinside'⟩ ↦ absurd hinside' ?_⟩
    rwa [← hstart.unique hstart', ← hstop.unique hstop']

/-- A name that looks like fields does not move the bounds. -/
theorem bounds_of_line_of_odd_name :
    let fields := List.replicate 47 ['0'] ++ ["140000".toList, "140500".toList, ['0']]
    bounds ("1234 (we ird) (name\n7)".toList ++ fields.flatMap (' ' :: ·))
      = .ok (140000, 140500) := by
  intro fields
  have hrest : Text.Spaced fields (fields.flatMap (' ' :: ·)) := Text.spaced_flatMap (by decide)
  have hstart : Says fields 50 140000 := address_eq_ok_iff.mp (by decide)
  have hstop : Says fields 51 140500 := address_eq_ok_iff.mp (by decide)
  exact ((bounds_of_line "1234".toList "we ird) (name\n7".toList hrest (by decide)).1 _ _).mpr
    ⟨hstart, hstop, by decide, by decide⟩

end Probe

end ShellEngine
