import ShellEngine.Process.Buffer
import ShellEngine.Proofs.Text.Marks

/-!
# What pipes bring into a buffer

A buffer is followed from its beginning, with all pipes that were ever drained into it and what was
written to each of them and read from it (`Collection`). What the buffer knows are the pipes whose
pumps are at work (`Collection.Sound.drains`), and its contents are what was read, with the bytes of
each pipe in order (`Collection.Sound.contents`).

Whoever waits for the buffer looks at it, and then sleeps until the number of pumps at work has
changed (`Collection.wait`). No change is missed, so the wait ends at the first turn at which no
pump is at work.
-/

namespace ShellEngine

/-! ## Pipes with their past -/

/-- A pipe on which a pump was started. -/
structure Producer where
  name : String
  /-- All that was written to the pipe. -/
  written : Bytes := []
  /-- All that the pump has read. -/
  read : Bytes := []
  isOpen : Bool := true
  /-- Whether the pump has ended. -/
  hasEnded : Bool := false
  deriving DecidableEq

/-- A step in the life of a buffer. -/
inductive BufferStep
  | commence (name : String)
  | write (name : String) (bs : Bytes)
  | close (name : String)
  | pump (name : String) (count : Nat)
  | finish (name : String)
  | settle
  | clone
  | unclone
  deriving DecidableEq

namespace Producer

def unread (p : Producer) : Bytes := p.written.drop p.read.length

def isAt (p : Producer) (name : String) : Bool := p.name == name && !p.hasEnded

/-- Changes the first pipe that satisfies `cond`, if any. -/
def changeFirst (cond : Producer → Bool) (f : Producer → Producer) : List Producer → List Producer
  | [] => []
  | p :: ps => if cond p then f p :: ps else p :: changeFirst cond f ps

def settle (p : Producer) : Producer :=
  if p.hasEnded then p else { p with read := p.read ++ p.unread, hasEnded := !p.isOpen }

/-- What a step does to the pipes. -/
def afterStep (ps : List Producer) : BufferStep → List Producer
  | .commence name => ps ++ [{ name }]
  | .write name bs =>
    changeFirst (fun p ↦ p.isAt name && p.isOpen) (fun p ↦ { p with written := p.written ++ bs }) ps
  | .close name =>
    changeFirst (fun p ↦ p.isAt name && p.isOpen) (fun p ↦ { p with isOpen := false }) ps
  | .pump name count =>
    changeFirst (fun p ↦ p.isAt name)
      (fun p ↦ { p with read := p.read ++ p.unread.take (min count OutputBuffer.chunk) }) ps
  | .finish name =>
    changeFirst (fun p ↦ p.isAt name && !p.isOpen && p.unread.isEmpty)
      (fun p ↦ { p with hasEnded := true }) ps
  | .settle => ps.map settle
  | .clone | .unclone => ps

/-- The pipe, as the buffer knows it. -/
def drain (p : Producer) : Drain := { name := p.name, transit := p.unread, isOpen := p.isOpen }

def drains (ps : List Producer) : List Drain := (ps.filter fun p ↦ !p.hasEnded).map drain

def amount : List Producer → Nat
  | [] => 0
  | p :: ps => p.written.length + amount ps

/-- What is read was written, and a pump ends when its pipe is closed and read to the end. -/
structure Fits (p : Producer) : Prop where
  read : p.read <+: p.written
  ended : p.hasEnded = true → p.isOpen = false ∧ p.unread = []

variable {ps front back : List Producer} {p q : Producer}

@[simp]
theorem drains_append : drains (front ++ back) = drains front ++ drains back := by
  rw [drains, List.filter_append, List.map_append, drains, drains]

theorem drains_cons_of_working (h : p.hasEnded = false) :
    drains (p :: ps) = p.drain :: drains ps := by
  simp [drains, h]

theorem drains_cons_of_ended (h : p.hasEnded = true) : drains (p :: ps) = drains ps := by
  simp [drains, h]

theorem drains_eq_nil_iff : drains ps = [] ↔ ∀ p ∈ ps, p.hasEnded = true := by
  rw [drains, List.map_eq_nil_iff, List.filter_eq_nil_iff]
  simp

theorem amount_eq (ps : List Producer) : amount ps = (ps.map written).flatten.length := by
  induction ps with
  | nil => rfl
  | cons p ps ih => rw [amount, ih, List.map_cons, List.flatten_cons, List.length_append]

theorem hasEnded_of_isAt {name : String} (h : p.isAt name = true) : p.hasEnded = false := by
  rw [isAt, Bool.and_eq_true] at h
  simpa using h.2

theorem unread_eq {bs : Bytes} (h : p.written = p.read ++ bs) : p.unread = bs := by
  rw [unread, h, List.drop_left]

namespace Fits

theorem new (name : String) : Fits { name } := ⟨List.prefix_rfl, fun h ↦ nomatch h⟩

theorem of_working (hread : p.read <+: p.written) (hworking : p.hasEnded = false) : p.Fits :=
  ⟨hread, fun hended ↦ absurd (hworking.symm.trans hended) Bool.false_ne_true⟩

theorem read_append_unread (h : p.Fits) : p.read ++ p.unread = p.written :=
  List.prefix_iff_eq_append.mp h.read

theorem written_take (h : p.Fits) (count : Nat) :
    p.written = (p.read ++ p.unread.take count) ++ p.unread.drop count := by
  rw [List.append_assoc, List.take_append_drop, h.read_append_unread]

theorem unread_take (h : p.Fits) (count : Nat) :
    ({ p with read := p.read ++ p.unread.take count } : Producer).unread = p.unread.drop count :=
  unread_eq (h.written_take count)

theorem read_eq (h : p.Fits) (hunread : p.unread = []) : p.read = p.written := by
  rw [← h.read_append_unread, hunread, List.append_nil]

theorem unread_eq_nil (h : p.read = p.written) : p.unread = [] := by
  rw [unread, h, List.drop_length]

end Fits

/-! ## Changes of one pipe -/

/-- A change of pipes at work, what the buffer makes of it, and the bytes that it gets. -/
structure Lockstep (cond : Producer → Bool) (f : Producer → Producer) (pred : Drain → Bool)
    (change : Drain → List Drain) (got : Drain → Bytes) : Prop where
  cond_eq (p : Producer) : cond p = (pred p.drain && !p.hasEnded)
  drains_eq (p : Producer) : p.Fits → cond p = true → change p.drain = drains [f p]
  read_eq (p : Producer) : (f p).read = p.read ++ got p.drain
  fits (p : Producer) : p.Fits → cond p = true → (f p).Fits

theorem lockstep_write (name : String) (bs : Bytes) :
    Lockstep (fun p ↦ p.isAt name && p.isOpen) (fun p ↦ { p with written := p.written ++ bs })
      (fun d ↦ d.name == name && d.isOpen) (fun d ↦ [{ d with transit := d.transit ++ bs }])
      fun _ ↦ [] where
  cond_eq p := Bool.and_right_comm _ _ _
  drains_eq p hp hcond := by
    rw [drains_cons_of_working (by exact hasEnded_of_isAt (Bool.and_eq_true_iff.mp hcond).1), drain,
      drain, unread, unread, List.drop_append_of_le_length hp.read.length_le]
    rfl
  read_eq p := (List.append_nil _).symm
  fits p hp hcond := .of_working (hp.read.trans (List.prefix_append _ _))
    (hasEnded_of_isAt (Bool.and_eq_true_iff.mp hcond).1)

theorem lockstep_close (name : String) :
    Lockstep (fun p ↦ p.isAt name && p.isOpen) (fun p ↦ { p with isOpen := false })
      (fun d ↦ d.name == name && d.isOpen) (fun d ↦ [{ d with isOpen := false }]) fun _ ↦ [] where
  cond_eq p := Bool.and_right_comm _ _ _
  drains_eq p _ hcond := by
    rw [drains_cons_of_working (by exact hasEnded_of_isAt (Bool.and_eq_true_iff.mp hcond).1)]
    rfl
  read_eq p := (List.append_nil _).symm
  fits p hp hcond := .of_working hp.read (hasEnded_of_isAt (Bool.and_eq_true_iff.mp hcond).1)

theorem lockstep_pump (name : String) (count : Nat) :
    Lockstep (fun p ↦ p.isAt name) (fun p ↦ { p with read := p.read ++ p.unread.take count })
      (·.name == name) (fun d ↦ [{ d with transit := d.transit.drop count }])
      fun d ↦ d.transit.take count where
  cond_eq p := rfl
  drains_eq p hp hcond := by
    rw [drains_cons_of_working (by exact hasEnded_of_isAt hcond), drain, drain, hp.unread_take]
    rfl
  read_eq p := rfl
  fits p hp hcond := .of_working ⟨_, (hp.written_take count).symm⟩ (hasEnded_of_isAt hcond)

theorem lockstep_finish (name : String) :
    Lockstep (fun p ↦ p.isAt name && !p.isOpen && p.unread.isEmpty)
      (fun p ↦ { p with hasEnded := true })
      (fun d ↦ d.name == name && !d.isOpen && d.transit.isEmpty) (fun _ ↦ []) fun _ ↦ [] where
  cond_eq p := by simp only [isAt, drain, Bool.and_right_comm]
  drains_eq p _ _ := by
    rw [drains_cons_of_ended (by rfl)]
    rfl
  read_eq p := (List.append_nil _).symm
  fits p hp hcond := by
    obtain ⟨⟨-, hclosed⟩, hunread⟩ : (p.isAt name = true ∧ p.isOpen = false) ∧ p.unread = [] := by
      simpa using hcond
    exact ⟨hp.read, fun _ ↦ ⟨hclosed, hunread⟩⟩

/-- The first of the pipes at work is changed, and so is what the buffer knows of it. -/
theorem Lockstep.alter_drains {cond : Producer → Bool} {f : Producer → Producer}
    {pred : Drain → Bool} {change : Drain → List Drain} {got : Drain → Bytes}
    (h : Lockstep cond f pred change got) (hps : ∀ p ∈ ps, p.Fits) :
    (changeFirst cond f ps = ps ∧ OutputBuffer.alter pred change (drains ps) = none) ∨
    ∃ front p back, ps = front ++ p :: back ∧ cond p = true ∧
      changeFirst cond f ps = front ++ f p :: back ∧ (drains ps).find? pred = some p.drain ∧
      OutputBuffer.alter pred change (drains ps) = some (drains (changeFirst cond f ps)) := by
  induction ps with
  | nil => exact Or.inl ⟨rfl, rfl⟩
  | cons p ps ih =>
    replace ih := ih fun q hq ↦ hps q (List.mem_cons_of_mem p hq)
    have hcond := h.cond_eq p
    cases hended : p.hasEnded with
    | true =>
      have hother : ¬ cond p = true := by simp [hcond, hended]
      rw [drains_cons_of_ended hended, changeFirst, if_neg hother]
      rcases ih with ⟨hsame, halter⟩ | ⟨front, q, back, rfl, hq, hfirst, hfind, halter⟩
      · exact Or.inl ⟨by rw [hsame], halter⟩
      · refine Or.inr ⟨p :: front, q, back, rfl, hq, by rw [hfirst]; rfl, hfind, ?_⟩
        rw [halter, drains_cons_of_ended hended]
    | false =>
      rw [drains_cons_of_working hended, changeFirst, List.find?_cons, OutputBuffer.alter]
      cases hpred : pred p.drain with
      | true =>
        have hthis : cond p = true := by simp [hcond, hended, hpred]
        rw [if_pos hthis, if_pos rfl]
        refine Or.inr ⟨[], p, ps, rfl, hthis, rfl, rfl, ?_⟩
        rw [h.drains_eq p (hps p List.mem_cons_self) hthis, ← drains_append]
        rfl
      | false =>
        have hother : ¬ cond p = true := by simp [hcond, hpred]
        rw [if_neg hother, if_neg Bool.false_ne_true]
        rcases ih with ⟨hsame, halter⟩ | ⟨front, q, back, rfl, hq, hfirst, hfind, halter⟩
        · exact Or.inl ⟨by rw [hsame], by rw [halter, Option.map_none]⟩
        · refine Or.inr ⟨p :: front, q, back, rfl, hq, by rw [hfirst]; rfl, hfind, ?_⟩
          rw [halter, Option.map_some, drains_cons_of_working hended]

/-! ## All pipes at once -/

theorem Fits.read_settle (h : p.Fits) : p.settle.read = p.written := by
  unfold settle
  split
  · rename_i hended
    exact h.read_eq (h.ended hended).2
  · exact h.read_append_unread

theorem Fits.settle (h : p.Fits) : p.settle.Fits := by
  have hall := h.read_append_unread
  unfold Producer.settle
  split
  · exact h
  · exact ⟨⟨[], (List.append_nil _).trans hall⟩,
      fun hended ↦ ⟨by simpa using hended, unread_eq_nil hall⟩⟩

/-- Of the pipes at work, the buffer keeps the open ones, which are empty. -/
theorem drains_map_settle (h : ∀ p ∈ ps, p.Fits) :
    drains (ps.map settle) =
      ((drains ps).filter Drain.isOpen).map fun d ↦ { d with transit := [] } := by
  induction ps with
  | nil => rfl
  | cons p ps ih =>
    have hunread : ({ p with read := p.read ++ p.unread } : Producer).unread = [] :=
      Fits.unread_eq_nil (h p List.mem_cons_self).read_append_unread
    have hfirst : drains [p.settle] =
        ((drains [p]).filter Drain.isOpen).map fun d ↦ { d with transit := [] } := by
      cases hp : p.hasEnded with
      | true =>
        rw [settle, if_pos hp, drains_cons_of_ended hp]
        rfl
      | false =>
        rw [settle, if_neg (by simp [hp]), drains_cons_of_working hp]
        cases hopen : p.isOpen with
        | true => simpa [drains, drain, hopen, hp] using hunread
        | false => simp [drains, drain, hopen]
    rw [List.map_cons, ← List.singleton_append, drains_append, hfirst,
      ih fun q hq ↦ h q (List.mem_cons_of_mem p hq), ← List.map_append, ← List.filter_append,
      ← drains_append, List.singleton_append]

theorem flatMap_transit_drains (h : ∀ p ∈ ps, p.Fits) :
    (drains ps).flatMap Drain.transit = (ps.map unread).flatten := by
  induction ps with
  | nil => rfl
  | cons p ps ih =>
    have hrest := ih fun q hq ↦ h q (List.mem_cons_of_mem p hq)
    rw [List.map_cons, List.flatten_cons, ← hrest]
    cases hp : p.hasEnded with
    | true =>
      rw [drains_cons_of_ended hp, ((h p List.mem_cons_self).ended hp).2, List.nil_append]
    | false =>
      rw [drains_cons_of_working hp, List.flatMap_cons]
      rfl

end Producer

/-! ## A buffer with its past -/

/-- A buffer, and the pipes that were ever drained into it, the first one first. -/
structure Collection where
  buffer : OutputBuffer := {}
  producers : List Producer := []
  /-- How often the number of pumps at work has changed. -/
  changes : Nat := 0
  deriving DecidableEq

namespace Collection

def bufferAfter (b : OutputBuffer) : BufferStep → OutputBuffer
  | .commence name => b.commence name
  | .write name bs => (b.write name bs).2
  | .close name => (b.close name).2
  | .pump name count => b.pump name count
  | .finish name => b.finish name
  | .settle => b.settle
  | .clone => b.clone
  | .unclone => b.unclone.2

def step (t : Collection) (s : BufferStep) : Collection where
  buffer := bufferAfter t.buffer s
  producers := Producer.afterStep t.producers s
  changes :=
    if (bufferAfter t.buffer s).drains.length = t.buffer.drains.length then t.changes
    else t.changes + 1

def run (t : Collection) (steps : List BufferStep) : Collection := steps.foldl step t

/-- What was read from the pipe of a number. -/
def readFrom (ps : List Producer) (k : Nat) : Bytes := (ps.map Producer.read).getD k []

/-- What is known of a buffer and its pipes after any number of steps. -/
structure Sound (t : Collection) : Prop where
  drains : t.buffer.drains = Producer.drains t.producers
  fits : ∀ p ∈ t.producers, p.Fits
  contents : ∃ ns : Marked Nat, ns.bytes = t.buffer.contents ∧
    (∀ n ∈ ns, n.2 < t.producers.length) ∧ ∀ k, ns.bytesAt k = readFrom t.producers k

/-! ## Steps -/

section Steps

variable {t : Collection} {front back : List Producer} {p q : Producer} {b : OutputBuffer}
  {got : Bytes} {changes : Nat}

theorem sound_empty : ({} : Collection).Sound where
  drains := rfl
  fits _ hp := nomatch hp
  contents := ⟨[], rfl, fun _ hn ↦ (nomatch hn), fun _ ↦ rfl⟩

theorem readFrom_eq (ps : List Producer) (k : Nat) :
    readFrom ps k = (ps[k]?.map Producer.read).getD [] := by
  rw [readFrom, List.getD_eq_getElem?_getD, List.getElem?_map]

theorem readFrom_length (front back : List Producer) (p : Producer) :
    readFrom (front ++ p :: back) front.length = p.read := by
  simp [readFrom_eq]

theorem readFrom_of_ne {k : Nat} (h : k ≠ front.length) :
    readFrom (front ++ p :: back) k = readFrom (front ++ q :: back) k := by
  rw [readFrom_eq, readFrom_eq]
  rcases Nat.lt_or_gt_of_ne h with hlt | hgt
  · rw [List.getElem?_append_left hlt, List.getElem?_append_left hlt]
  · obtain ⟨j, hj⟩ : ∃ j, k - front.length = j + 1 := ⟨k - front.length - 1, by omega⟩
    rw [List.getElem?_append_right (Nat.le_of_lt hgt),
      List.getElem?_append_right (Nat.le_of_lt hgt), hj]
    rfl

/-- One pipe is changed, from which some bytes may go to the buffer. -/
theorem Sound.replace (h : t.Sound) (hps : t.producers = front ++ p :: back) (hq : q.Fits)
    (hread : q.read = p.read ++ got)
    (hdrains : b.drains = Producer.drains (front ++ q :: back))
    (hcontents : b.contents = t.buffer.contents ++ got) :
    Sound { buffer := b, producers := front ++ q :: back, changes } := by
  obtain ⟨ns, hbytes, hlt, hat⟩ := h.contents
  refine ⟨hdrains, fun r hr ↦ ?_, ns ++ .ofBytes got front.length, ?_, fun n hn ↦ ?_, fun k ↦ ?_⟩
  · have hold (hr : r ∈ front ∨ r ∈ back) : r.Fits :=
      h.fits r (by simpa [hps] using hr.imp_right Or.inr)
    rcases List.mem_append.mp hr with hr | hr
    · exact hold (Or.inl hr)
    · rcases List.mem_cons.mp hr with rfl | hr
      · exact hq
      · exact hold (Or.inr hr)
  · rw [Marked.bytes_append, Marked.bytes_ofBytes, hbytes, hcontents]
  · rcases List.mem_append.mp hn with hn | hn
    · simpa [hps] using hlt n hn
    · simp [Marked.mem_ofBytes hn]
  · rw [Marked.bytesAt_append, hat, hps]
    by_cases hk : k = front.length
    · rw [hk, Marked.bytesAt_ofBytes_self, readFrom_length, readFrom_length, hread]
    · rw [Marked.bytesAt_ofBytes_of_ne _ (Ne.symm hk), List.append_nil, readFrom_of_ne hk]

/-- The first of the pipes with some property is changed, if any, in the buffer as well. -/
theorem Sound.changeFirst {cond : Producer → Bool} {f : Producer → Producer} {pred : Drain → Bool}
    {change : Drain → List Drain} {got : Drain → Bytes} (h : t.Sound)
    (hstep : Producer.Lockstep cond f pred change got)
    (hnone : OutputBuffer.alter pred change t.buffer.drains = none → b = t.buffer)
    (hsome : ∀ d ds, t.buffer.drains.find? pred = some d →
      OutputBuffer.alter pred change t.buffer.drains = some ds →
      b.drains = ds ∧ b.contents = t.buffer.contents ++ got d) :
    Sound { buffer := b, producers := Producer.changeFirst cond f t.producers, changes } := by
  rw [h.drains] at hnone hsome
  rcases hstep.alter_drains h.fits with
    ⟨hsame, halter⟩ | ⟨front, p, back, hps, hcond, hfirst, hfind, halter⟩
  · rw [hsame, hnone halter]
    exact ⟨h.drains, h.fits, h.contents⟩
  · obtain ⟨hdrains, hcontents⟩ := hsome _ _ hfind halter
    have hp : p.Fits := h.fits p (by simp [hps])
    rw [hfirst] at hdrains ⊢
    exact h.replace hps (hstep.fits p hp hcond) (hstep.read_eq p) hdrains hcontents

theorem Sound.commence (h : t.Sound) (name : String) : (t.step (.commence name)).Sound := by
  obtain ⟨ns, hbytes, hlt, hat⟩ := h.contents
  refine ⟨?_, fun p hp ↦ ?_, ns, hbytes, fun n hn ↦ ?_, fun k ↦ ?_⟩
  · show t.buffer.drains ++ _ = Producer.drains (t.producers ++ [({ name } : Producer)])
    rw [h.drains, Producer.drains_append]
    rfl
  · rcases List.mem_append.mp hp with hp | hp
    · exact h.fits p hp
    · rw [List.mem_singleton.mp hp]
      exact .new name
  · exact Nat.lt_of_lt_of_le (hlt n hn) (by simp [step, Producer.afterStep])
  · -- From the new pipe, nothing was read.
    rw [hat, readFrom_eq, readFrom_eq]
    show _ = ((t.producers ++ [({ name } : Producer)])[k]?.map Producer.read).getD []
    rcases Nat.lt_trichotomy k t.producers.length with hlt | rfl | hgt
    · rw [List.getElem?_append_left hlt]
    · simp
    · rw [List.getElem?_eq_none (Nat.le_of_lt hgt), List.getElem?_eq_none]
      rw [List.length_append]
      exact hgt

theorem Sound.pump (h : t.Sound) (name : String) (count : Nat) :
    (t.step (.pump name count)).Sound := by
  refine h.changeFirst (Producer.lockstep_pump name _) (fun halter ↦ ?_) fun d ds hfind halter ↦ ?_
  · simp only [bufferAfter, OutputBuffer.pump, halter]
    split <;> rfl
  · simp only [bufferAfter, OutputBuffer.pump, hfind, halter, and_self]

theorem Sound.settle (h : t.Sound) : (t.step .settle).Sound := by
  obtain ⟨ns, hbytes, hlt, hat⟩ := h.contents
  refine ⟨?_, fun p hp ↦ ?_, ns ++ .ofParts 0 (t.producers.map Producer.unread), ?_,
    fun n hn ↦ ?_, fun k ↦ ?_⟩
  · show (t.buffer.drains.filter Drain.isOpen).map _ =
      Producer.drains (t.producers.map Producer.settle)
    rw [h.drains]
    exact (Producer.drains_map_settle h.fits).symm
  · obtain ⟨q, hq, rfl⟩ := List.mem_map.mp hp
    exact (h.fits q hq).settle
  · show _ = t.buffer.contents ++ t.buffer.drains.flatMap Drain.transit
    rw [Marked.bytes_append, Marked.bytes_ofParts, hbytes, h.drains,
      Producer.flatMap_transit_drains h.fits]
  · show n.2 < (t.producers.map Producer.settle).length
    rw [List.length_map]
    rcases List.mem_append.mp hn with hn | hn
    · exact hlt n hn
    · simpa using (Marked.le_of_mem_ofParts hn).2
  · show _ = readFrom (t.producers.map Producer.settle) k
    have hparts := Marked.bytesAt_ofParts 0 k (t.producers.map Producer.unread)
    rw [Nat.zero_add] at hparts
    rw [Marked.bytesAt_append, hparts, hat, readFrom_eq, readFrom_eq, List.getD_eq_getElem?_getD,
      List.getElem?_map, List.getElem?_map]
    cases hk : t.producers[k]? with
    | none => rfl
    | some p =>
      have hp := h.fits p (List.mem_of_getElem? hk)
      exact hp.read_append_unread.trans hp.read_settle.symm

theorem Sound.step (h : t.Sound) (s : BufferStep) : (t.step s).Sound := by
  cases s with
  | commence name => exact h.commence name
  | write name bs =>
    refine h.changeFirst (Producer.lockstep_write name bs) (fun halter ↦ ?_) fun d ds _ halter ↦ ?_
    · simp only [bufferAfter, OutputBuffer.write, halter]
    · simp only [bufferAfter, OutputBuffer.write, halter, List.append_nil, and_self]
  | close name =>
    refine h.changeFirst (Producer.lockstep_close name) (fun halter ↦ ?_) fun d ds _ halter ↦ ?_
    · simp only [bufferAfter, OutputBuffer.close, halter]
    · simp only [bufferAfter, OutputBuffer.close, halter, List.append_nil, and_self]
  | pump name count => exact h.pump name count
  | finish name =>
    refine h.changeFirst (Producer.lockstep_finish name) (fun halter ↦ ?_) fun d ds _ halter ↦ ?_
    · simp only [bufferAfter, OutputBuffer.finish, halter]
    · simp only [bufferAfter, OutputBuffer.finish, halter, List.append_nil, and_self]
  | settle => exact h.settle
  | clone => exact ⟨h.drains, h.fits, h.contents⟩
  | unclone =>
    have hsame : (bufferAfter t.buffer .unclone).drains = t.buffer.drains ∧
        (bufferAfter t.buffer .unclone).contents = t.buffer.contents := by
      show t.buffer.unclone.2.drains = _ ∧ t.buffer.unclone.2.contents = _
      unfold OutputBuffer.unclone
      split <;> exact ⟨rfl, rfl⟩
    obtain ⟨ns, hbytes, hns⟩ := h.contents
    exact ⟨hsame.1.trans h.drains, h.fits, ns, hbytes.trans hsame.2.symm, hns⟩

theorem Sound.run (h : t.Sound) (steps : List BufferStep) : (t.run steps).Sound := by
  induction steps generalizing t with
  | nil => exact h
  | cons s steps ih => exact ih (h.step s)

end Steps

/-! ## Nothing is lost -/

/-- No byte is lost on the way from the pipes to the buffer. -/
structure Conserved (t : Collection) : Prop where
  /-- The contents are what was read from the pipes, and the bytes of one pipe are in order. -/
  contents : ∃ ns : Marked Nat, ns.bytes = t.buffer.contents ∧
    ∀ k, ns.bytesAt k = readFrom t.producers k
  read : ∀ p ∈ t.producers, p.read <+: p.written
  isFinal_iff : t.buffer.isFinal = true ↔ ∀ p ∈ t.producers, p.hasEnded = true
  /-- Once the buffer is final, it has all that was written. -/
  complete : t.buffer.isFinal = true →
    (∀ p ∈ t.producers, p.isOpen = false ∧ p.read = p.written) ∧
      t.buffer.contents.length = Producer.amount t.producers

section Conserved

variable {t u : Collection}

theorem Sound.length_contents (h : t.Sound) :
    t.buffer.contents.length = (t.producers.map Producer.read).flatten.length := by
  obtain ⟨ns, hbytes, hlt, hat⟩ := h.contents
  have hparts : (List.range t.producers.length).map ns.bytesAt = t.producers.map Producer.read := by
    refine List.ext_getElem (by simp) fun k hk hk' ↦ ?_
    rw [List.getElem_map, List.getElem_map, List.getElem_range, hat, readFrom_eq,
      List.getElem?_eq_getElem (by simpa using hk'), Option.map_some, Option.getD_some]
  rw [← hbytes, Marked.length_bytes_eq hlt, hparts]

theorem Sound.conserved (h : t.Sound) : t.Conserved := by
  have hfinal : t.buffer.isFinal = true ↔ ∀ p ∈ t.producers, p.hasEnded = true := by
    rw [OutputBuffer.isFinal, List.isEmpty_iff, h.drains, Producer.drains_eq_nil_iff]
  obtain ⟨ns, hbytes, -, hat⟩ := h.contents
  refine ⟨⟨ns, hbytes, hat⟩, fun p hp ↦ (h.fits p hp).read, hfinal, fun hends ↦ ?_⟩
  have hall (p : Producer) (hp : p ∈ t.producers) : p.isOpen = false ∧ p.read = p.written := by
    obtain ⟨hclosed, hunread⟩ := (h.fits p hp).ended (hfinal.mp hends p hp)
    exact ⟨hclosed, (h.fits p hp).read_eq hunread⟩
  refine ⟨hall, ?_⟩
  rw [h.length_contents, List.map_congr_left fun p hp ↦ (hall p hp).2, Producer.amount_eq]

end Conserved

/-! ## Waiting -/

/-- What happens while somebody waits for a buffer. -/
inductive Moment
  | step (s : BufferStep)
  /-- Whoever waits gets a turn. -/
  | turn
  deriving DecidableEq

/-- The buffer after some moments. -/
def pass (t : Collection) : List Moment → Collection
  | [] => t
  | .step s :: rest => pass (t.step s) rest
  | .turn :: rest => pass t rest

/-- Waits until a buffer is final; `none` if that is not seen. What was seen last is the number of
changes; as long as there is no other, a turn goes by. -/
def wait (t : Collection) (seen : Option Nat) : List Moment → Option Collection
  | [] => none
  | .step s :: rest => wait (t.step s) seen rest
  | .turn :: rest =>
    if seen = some t.changes then wait t seen rest
    else if t.buffer.isFinal then some t
    else wait t (some t.changes) rest

section Waiting

variable {t u : Collection} {seen : Option Nat} {moments before after : List Moment}

theorem Sound.pass (h : t.Sound) (moments : List Moment) : (t.pass moments).Sound := by
  induction moments generalizing t with
  | nil => exact h
  | cons moment moments ih =>
    cases moment with
    | step s => exact ih (h.step s)
    | turn => exact ih h

theorem wait_eq_some (h : t.wait seen moments = some u) : u.buffer.isFinal = true ∧
    ∃ before after, moments = before ++ .turn :: after ∧ u = t.pass before := by
  induction moments generalizing t seen with
  | nil => cases h
  | cons moment moments ih =>
    have hlater {t' : Collection} {seen : Option Nat} (h : t'.wait seen moments = some u)
        (hpass : ∀ before, t'.pass before = t.pass (moment :: before)) :
        u.buffer.isFinal = true ∧ ∃ before after, moment :: moments = before ++ .turn :: after ∧
          u = t.pass before := by
      obtain ⟨hfinal, before, after, rfl, rfl⟩ := ih h
      exact ⟨hfinal, moment :: before, after, rfl, hpass before⟩
    cases moment with
    | step s => exact hlater h fun _ ↦ rfl
    | turn =>
      rw [wait] at h
      split at h
      · exact hlater h fun _ ↦ rfl
      · split at h
        · rename_i hfinal
          obtain rfl := Option.some.inj h
          exact ⟨hfinal, [], moments, rfl, rfl⟩
        · exact hlater h fun _ ↦ rfl

/-- Whoever saw pumps at work would see them still if there was no change since. -/
def Informed (t : Collection) (seen : Option Nat) : Prop :=
  ∀ n, seen = some n → n ≤ t.changes ∧ (n = t.changes → t.buffer.isFinal = false)

theorem Informed.step (h : t.Informed seen) (s : BufferStep) : (t.step s).Informed seen := by
  intro n hn
  obtain ⟨hle, hbusy⟩ := h n hn
  unfold Collection.step
  dsimp only
  split
  · rename_i hlength
    refine ⟨hle, fun heq ↦ ?_⟩
    have hbefore := hbusy heq
    rw [OutputBuffer.isFinal, List.isEmpty_eq_false_iff, ← List.length_pos_iff] at hbefore ⊢
    rwa [hlength]
  · exact ⟨Nat.le_succ_of_le hle, fun heq ↦ absurd heq (Nat.ne_of_lt (Nat.lt_succ_of_le hle))⟩

/-- No turn at which the buffer is final goes by. -/
theorem isSome_wait (h : t.Informed seen) (hfinal : (t.pass before).buffer.isFinal = true) :
    (t.wait seen (before ++ .turn :: after)).isSome = true := by
  induction before generalizing t seen with
  | nil =>
    have hseen : seen ≠ some t.changes := fun hseen ↦
      absurd (((h _ hseen).2 rfl).symm.trans hfinal) Bool.false_ne_true
    rw [List.nil_append, wait, if_neg hseen, if_pos (by exact hfinal)]
    rfl
  | cons moment before ih =>
    cases moment with
    | step s => exact ih (h.step s) hfinal
    | turn =>
      rw [List.cons_append, wait]
      split
      · exact ih h hfinal
      · split
        · rfl
        · rename_i hbusy
          refine ih (fun n hn ↦ ?_) hfinal
          obtain rfl := Option.some.inj hn
          exact ⟨Nat.le_refl _, fun _ ↦ Bool.eq_false_iff.mpr hbusy⟩

end Waiting

end Collection

end ShellEngine
