import ShellEngine.Console.Terminal
import ShellEngine.Proofs.Console.Gestures
import ShellEngine.Proofs.Text.Marks

/-!
# The whereabouts of typed bytes

Bytes are typed on a terminal that is watched, another reader takes some of them, and looks take
some into the lookahead, from where they are returned as typeahead or go as gestures (`Watched`).
Each byte is in one place all the time (`Watched.Accounts`), and none overtakes another on the way.

The proof marks what was typed with the places (`Watched.Laid`): what is queued is the end of it,
and before that what was returned comes before the lookahead.
-/

namespace ShellEngine

namespace Terminal

/-- A look takes bytes from the front of the queue to the end of the lookahead, if any. -/
theorem exists_peek (t : Terminal) :
    ∃ bs, t.queue = bs ++ t.peek.2.queue ∧ t.peek.2.lookahead = t.lookahead ++ bs := by
  unfold peek
  rcases t.unread.observe t.queue.length with ⟨ready, unread⟩
  cases ready with
  | false => exact ⟨[], rfl, (List.append_nil _).symm⟩
  | true => exact ⟨t.queue, (List.append_nil _).symm, rfl⟩

theorem keepTypeahead_peek (t : Terminal) : t.peek.2.keepTypeahead = t.keepTypeahead := by
  unfold peek
  rcases t.unread.observe t.queue.length with ⟨ready, unread⟩
  cases ready <;> rfl

end Terminal

/-! ## A terminal and what went through it -/

/-- What is done with a terminal. -/
inductive TerminalUse
  | type (bs : Bytes)
  /-- Another reader takes up to so many bytes. -/
  | read (count : Nat)
  | peek
  | discardGestures
  | takeTypeahead
  deriving DecidableEq

/-- A terminal, with the bytes that went through it so far. -/
structure Watched where
  terminal : Terminal
  typed : Bytes := []
  /-- What the other reader got. -/
  read : Bytes := []
  /-- What looks took off the queue. -/
  taken : Bytes := []
  /-- What was returned as typeahead. -/
  returned : Bytes := []

namespace Watched

variable {w : Watched}

def step (w : Watched) : TerminalUse → Watched
  | .type bs => { w with terminal := w.terminal.type bs, typed := w.typed ++ bs }
  | .read count =>
    let (got, terminal) := w.terminal.take count
    { w with terminal, read := w.read ++ got }
  | .peek =>
    let terminal := w.terminal.peek.2
    let gone := w.terminal.queue.length - terminal.queue.length
    { w with terminal, taken := w.taken ++ w.terminal.queue.take gone }
  | .discardGestures => { w with terminal := w.terminal.discardGestures }
  | .takeTypeahead =>
    let (typeahead, terminal) := w.terminal.takeTypeahead
    { w with terminal, returned := w.returned ++ typeahead }

def run (w : Watched) (uses : List TerminalUse) : Watched := uses.foldl step w

/-! ## Places -/

/-- Where a typed byte may be. -/
inductive Place
  | queue
  | reader
  | lookahead
  | returned
  /-- The byte was dropped with a gesture. -/
  | gesture (k : Nat)
  deriving DecidableEq

namespace Place

def isTaken : Place → Bool
  | .queue | .reader => false
  | .lookahead | .returned | .gesture _ => true

end Place

/-- All that was typed, marked with where it is. -/
structure Accounts (w : Watched) (ms : Marked Place) : Prop where
  typed : ms.bytes = w.typed
  queue : ms.bytesAt .queue = w.terminal.queue
  read : ms.bytesAt .reader = w.read
  lookahead : ms.bytesAt .lookahead = w.terminal.lookahead
  returned : ms.bytesAt .returned = w.returned
  gesture (k : Nat) : ms.bytesAt (.gesture k) = [] ∨ Console.IsGesture (ms.bytesAt (.gesture k))
  taken : ms.part Place.isTaken = w.taken

/-! ## Stripping -/

/-- Bytes from which gestures were taken out. The others are in the place `p` now, and the gestures
have numbers from `n` on, below `n'`. -/
structure Cut (p : Place) (n n' : Nat) (bs kept : Bytes) (cut : Marked Place) : Prop where
  bytes : cut.bytes = bs
  kept : cut.bytesAt p = kept
  place : ∀ c ∈ cut, c.2 = p ∨ ∃ k, n ≤ k ∧ k < n' ∧ c.2 = .gesture k
  gesture : ∀ k, n ≤ k → k < n' → Console.IsGesture (cut.bytesAt (.gesture k))

section Cut

variable {p : Place} {n n' : Nat} {g bs kept : Bytes} {cut : Marked Place}

theorem Cut.ne_gesture (h : Cut p n n' bs kept cut) (hp : ∀ k, p ≠ .gesture k) {k : Nat}
    (hk : k < n) {c : UInt8 × Place} (hc : c ∈ cut) : c.2 ≠ .gesture k := by
  rcases h.place c hc with heq | ⟨l, hl, -, heq⟩
  · rw [heq]
    exact hp k
  · rw [heq]
    exact fun heq' ↦ Nat.not_lt_of_le hl (Place.gesture.inj heq' ▸ hk)

/-- A gesture in front takes the number before those of the others. -/
theorem Cut.gesture_append (h : Cut p (n + 1) n' bs kept cut) (hp : ∀ k, p ≠ .gesture k)
    (hle : n + 1 ≤ n') (hg : Console.IsGesture g) :
    Cut p n n' (g ++ bs) kept (.ofBytes g (.gesture n) ++ cut) where
  bytes := by rw [Marked.bytes_append, Marked.bytes_ofBytes, h.bytes]
  kept := by
    rw [Marked.bytesAt_append, Marked.bytesAt_ofBytes_of_ne g (hp n).symm, h.kept, List.nil_append]
  place c hc := by
    rcases List.mem_append.mp hc with hc | hc
    · exact Or.inr ⟨n, Nat.le_refl n, hle, Marked.mem_ofBytes hc⟩
    · exact (h.place c hc).imp_right fun ⟨k, hk, hk'⟩ ↦ ⟨k, Nat.le_of_succ_le hk, hk'⟩
  gesture k hk hk' := by
    rw [Marked.bytesAt_append]
    rcases Nat.eq_or_lt_of_le hk with rfl | hlt
    · rw [Marked.bytesAt_ofBytes_self,
        Marked.bytesAt_eq_nil fun c hc ↦ h.ne_gesture hp (Nat.lt_succ_self n) hc, List.append_nil]
      exact hg
    · rw [Marked.bytesAt_ofBytes_of_ne g fun heq ↦ Nat.ne_of_lt hlt (Place.gesture.inj heq),
        List.nil_append]
      exact h.gesture k hlt hk'

theorem exists_cut (hp : ∀ k, p ≠ .gesture k) (n : Nat) (bs : Bytes) :
    ∃ n' cut, n ≤ n' ∧ Cut p n n' bs (Console.strip bs) cut := by
  fun_induction Console.strip bs generalizing n with
  | case1 =>
    refine ⟨n, [], Nat.le_refl n, rfl, rfl, fun c hc ↦ ?_, fun k hk hk' ↦ ?_⟩
    · cases hc
    · exact absurd hk (Nat.not_le_of_lt hk')
  | case2 b rest gained hmark ih =>
    obtain ⟨after, heq⟩ := Console.eq_of_focusMark? hmark
    obtain ⟨rfl, rfl⟩ := List.cons.inj heq
    obtain ⟨n', cut, hle, h⟩ := ih (n + 1)
    exact ⟨n', _, Nat.le_of_succ_le hle, h.gesture_append hp hle (Or.inr ⟨gained, rfl⟩)⟩
  | case3 b rest _ hchord ih =>
    obtain ⟨n', cut, hle, h⟩ := ih (n + 1)
    rw [beq_iff_eq.mp hchord]
    exact ⟨n', _, Nat.le_of_succ_le hle, h.gesture_append hp hle (Or.inl rfl)⟩
  | case4 b rest _ _ ih =>
    obtain ⟨n', cut, hle, h⟩ := ih n
    refine ⟨n', (b, p) :: cut, hle, ?_, ?_, ?_, fun k hk hk' ↦ ?_⟩
    · rw [Marked.bytes_cons, h.bytes]
    · rw [Marked.bytesAt_cons_self, h.kept]
    · exact List.forall_mem_cons.mpr ⟨Or.inl rfl, h.place⟩
    · rw [Marked.bytesAt_cons_of_ne (hp k)]
      exact h.gesture k hk hk'

end Cut

/-! ## The places of what was typed -/

/-- What was typed and is not queued any more, with its places. The gestures have the numbers below
`n`. -/
structure Placed (w : Watched) (ms : Marked Place) (n : Nat) : Prop where
  typed : ms.bytes ++ w.terminal.queue = w.typed
  queue : ∀ m ∈ ms, m.2 ≠ .queue
  read : ms.bytesAt .reader = w.read
  taken : ms.part Place.isTaken = w.taken
  gesture : ∀ k < n, Console.IsGesture (ms.bytesAt (.gesture k))
  below : ∀ m ∈ ms, ∀ k, m.2 = .gesture k → k < n

/-- The same in the order in which it was typed: what was returned comes before the lookahead. -/
structure Laid (w : Watched) (old new : Marked Place) (n : Nat) : Prop where
  placed : Placed w (old ++ new) n
  old_ne : ∀ m ∈ old, m.2 ≠ .lookahead
  new_ne : ∀ m ∈ new, m.2 ≠ .returned
  lookahead : new.bytesAt .lookahead = w.terminal.lookahead
  returned : old.bytesAt .returned = w.returned

section Laid

variable {w w' : Watched} {ms old new cut : Marked Place} {n n' : Nat} {p : Place} {bs kept : Bytes}

theorem Placed.append_ofBytes (h : Placed w ms n) (hp : p = .reader ∨ p = .lookahead)
    (hqueue : w.terminal.queue = bs ++ w'.terminal.queue) (htyped : w'.typed = w.typed)
    (hread : w'.read = w.read ++ (Marked.ofBytes bs p).bytesAt .reader)
    (htaken : w'.taken = w.taken ++ (Marked.ofBytes bs p).part Place.isTaken) :
    Placed w' (ms ++ .ofBytes bs p) n where
  typed := by
    rw [Marked.bytes_append, Marked.bytes_ofBytes, List.append_assoc, ← hqueue, h.typed, htyped]
  queue m hm := by
    rcases List.mem_append.mp hm with hm | hm
    · exact h.queue m hm
    · rw [Marked.mem_ofBytes hm]
      rcases hp with rfl | rfl <;> exact Place.noConfusion
  read := by rw [Marked.bytesAt_append, h.read, hread]
  taken := by rw [Marked.part_append, h.taken, htaken]
  gesture k hk := by
    have hne : p ≠ .gesture k := by rcases hp with rfl | rfl <;> exact Place.noConfusion
    rw [Marked.bytesAt_append, Marked.bytesAt_ofBytes_of_ne bs hne, List.append_nil]
    exact h.gesture k hk
  below m hm k hk := by
    rcases List.mem_append.mp hm with hm | hm
    · exact h.below m hm k hk
    · rw [Marked.mem_ofBytes hm] at hk
      rcases hp with rfl | rfl <;> cases hk

theorem Placed.remark (h : Placed w (old ++ new) n) (hp : p = .lookahead ∨ p = .returned)
    (hle : n ≤ n') (hcut : Cut p n n' (new.bytesAt .lookahead) kept cut) :
    Placed w (old ++ .remark .lookahead new cut) n' := by
  have hgesture (k : Nat) : p ≠ .gesture k := by
    rcases hp with rfl | rfl <;> exact Place.noConfusion
  have htaken (c : UInt8 × Place) (hc : c ∈ cut) : c.2.isTaken = true := by
    rcases hcut.place c hc with heq | ⟨k, -, -, heq⟩ <;> rw [heq]
    · rcases hp with rfl | rfl <;> rfl
    · rfl
  refine ⟨?_, fun m hm ↦ ?_, ?_, ?_, fun k hk ↦ ?_, fun m hm k hk ↦ ?_⟩
  · rw [Marked.bytes_append, Marked.bytes_remark, ← Marked.bytes_append, h.typed]
  · rcases List.mem_append.mp hm with hm | hm
    · exact h.queue m (List.mem_append_left _ hm)
    · rcases Marked.mem_remark hcut.bytes hm with ⟨hm, -⟩ | ⟨c, hc, heq⟩
      · exact h.queue m (List.mem_append_right _ hm)
      · rw [heq]
        exact fun heq' ↦ by simpa [heq', Place.isTaken] using htaken c hc
  · rw [Marked.bytesAt_append, Marked.bytesAt_remark_of_ne Place.noConfusion,
      ← Marked.bytesAt_append, h.read]
    exact fun c hc heq ↦ by simpa [heq, Place.isTaken] using htaken c hc
  · rw [Marked.part_append, Marked.part_remark htaken, ← Marked.part_append, h.taken]
  · rw [Marked.bytesAt_append]
    rcases Nat.lt_or_ge k n with hlt | hge
    · rw [Marked.bytesAt_remark_of_ne Place.noConfusion fun c hc ↦ hcut.ne_gesture hgesture hlt hc,
        ← Marked.bytesAt_append]
      exact h.gesture k hlt
    · -- No gesture had this number before.
      have hfresh (m : UInt8 × Place) (hm : m ∈ old ++ new) : m.2 ≠ .gesture k :=
        fun heq ↦ Nat.not_lt_of_le hge (h.below m hm k heq)
      rw [Marked.bytesAt_eq_nil fun m hm ↦ hfresh m (List.mem_append_left _ hm), List.nil_append,
        Marked.bytesAt_remark_of_eq hcut.bytes fun m hm heq ↦
          absurd heq (hfresh m (List.mem_append_right _ hm))]
      exact hcut.gesture k hge hk
  · rcases List.mem_append.mp hm with hm | hm
    · exact Nat.lt_of_lt_of_le (h.below m (List.mem_append_left _ hm) k hk) hle
    · rcases Marked.mem_remark hcut.bytes hm with ⟨hm, -⟩ | ⟨c, hc, heq⟩
      · exact Nat.lt_of_lt_of_le (h.below m (List.mem_append_right _ hm) k hk) hle
      · rcases hcut.place c hc with hc | ⟨l, -, hl, hc⟩
        · exact absurd (hc.symm.trans (heq.symm.trans hk)) (hgesture k)
        · exact Place.gesture.inj (hc.symm.trans (heq.symm.trans hk)) ▸ hl

theorem Laid.append_ofBytes (h : Laid w old new n) (hp : p = .reader ∨ p = .lookahead)
    (hqueue : w.terminal.queue = bs ++ w'.terminal.queue) (htyped : w'.typed = w.typed)
    (hread : w'.read = w.read ++ (Marked.ofBytes bs p).bytesAt .reader)
    (htaken : w'.taken = w.taken ++ (Marked.ofBytes bs p).part Place.isTaken)
    (hlookahead : w'.terminal.lookahead =
      w.terminal.lookahead ++ (Marked.ofBytes bs p).bytesAt .lookahead)
    (hreturned : w'.returned = w.returned) :
    Laid w' old (new ++ .ofBytes bs p) n where
  placed := List.append_assoc old new _ ▸ h.placed.append_ofBytes hp hqueue htyped hread htaken
  old_ne := h.old_ne
  new_ne m hm := by
    rcases List.mem_append.mp hm with hm | hm
    · exact h.new_ne m hm
    · rw [Marked.mem_ofBytes hm]
      rcases hp with rfl | rfl <;> exact Place.noConfusion
  lookahead := by rw [Marked.bytesAt_append, h.lookahead, hlookahead]
  returned := h.returned.trans hreturned.symm

theorem Laid.type (h : Laid w old new n) (bs : Bytes) : Laid (w.step (.type bs)) old new n where
  placed := {
    typed := by
      show (old ++ new).bytes ++ (w.terminal.queue ++ bs) = w.typed ++ bs
      rw [← List.append_assoc, h.placed.typed]
    queue := h.placed.queue
    read := h.placed.read
    taken := h.placed.taken
    gesture := h.placed.gesture
    below := h.placed.below }
  old_ne := h.old_ne
  new_ne := h.new_ne
  lookahead := h.lookahead
  returned := h.returned

theorem Laid.read (h : Laid w old new n) (count : Nat) :
    Laid (w.step (.read count)) old (new ++ .ofBytes (w.terminal.queue.take count) .reader) n := by
  refine h.append_ofBytes (Or.inl rfl) (List.take_append_drop count _).symm rfl ?_ ?_ ?_ rfl
  · rw [Marked.bytesAt_ofBytes_self]
    rfl
  · rw [Marked.part_ofBytes_of_neg _ rfl, List.append_nil]
    rfl
  · rw [Marked.bytesAt_ofBytes_of_ne _ Place.noConfusion, List.append_nil]
    rfl

theorem Laid.peek (h : Laid w old new n) : ∃ new', Laid (w.step .peek) old new' n := by
  obtain ⟨bs, hqueue, hlookahead⟩ := w.terminal.exists_peek
  have hgone : w.terminal.queue.take (w.terminal.queue.length - w.terminal.peek.2.queue.length) =
      bs := by
    rw [hqueue, List.length_append, Nat.add_sub_cancel, List.take_left]
  refine ⟨new ++ .ofBytes bs .lookahead, ?_⟩
  refine h.append_ofBytes (Or.inr rfl) hqueue rfl ?_ ?_ ?_ rfl
  · rw [Marked.bytesAt_ofBytes_of_ne _ Place.noConfusion, List.append_nil]
    rfl
  · rw [Marked.part_ofBytes_of_pos _ rfl]
    exact congrArg (w.taken ++ ·) hgone
  · rw [Marked.bytesAt_ofBytes_self]
    exact hlookahead

theorem Laid.discardGestures (h : Laid w old new n) :
    ∃ new' n', Laid (w.step .discardGestures) old new' n' := by
  obtain ⟨n', cut, hle, hcut⟩ :=
    exists_cut (p := .lookahead) (fun _ ↦ Place.noConfusion) n (new.bytesAt .lookahead)
  have hplaced := h.placed.remark (Or.inl rfl) hle hcut
  refine ⟨.remark .lookahead new cut, n', ⟨hplaced.typed, hplaced.queue, hplaced.read,
    hplaced.taken, hplaced.gesture, hplaced.below⟩, h.old_ne, fun m hm ↦ ?_, ?_, h.returned⟩
  · rcases Marked.mem_remark hcut.bytes hm with ⟨hm, -⟩ | ⟨c, hc, heq⟩
    · exact h.new_ne m hm
    · rw [heq]
      rcases hcut.place c hc with hc | ⟨k, -, -, hc⟩ <;> rw [hc] <;> exact Place.noConfusion
  · rw [Marked.bytesAt_remark_of_eq hcut.bytes fun _ _ heq ↦ heq, hcut.kept, h.lookahead]
    rfl

theorem Laid.takeTypeahead (h : Laid w old new n) (hkeep : w.terminal.keepTypeahead = true) :
    ∃ old' n', Laid (w.step .takeTypeahead) old' [] n' := by
  obtain ⟨n', cut, hle, hcut⟩ :=
    exists_cut (p := .returned) (fun _ ↦ Place.noConfusion) n (new.bytesAt .lookahead)
  have hplaced := h.placed.remark (Or.inr rfl) hle hcut
  rw [← List.append_nil (old ++ _)] at hplaced
  refine ⟨old ++ .remark .lookahead new cut, n', ⟨hplaced.typed, hplaced.queue, hplaced.read,
    hplaced.taken, hplaced.gesture, hplaced.below⟩, fun m hm ↦ ?_, fun m hm ↦ ?_, rfl, ?_⟩
  · rcases List.mem_append.mp hm with hm | hm
    · exact h.old_ne m hm
    · rcases Marked.mem_remark hcut.bytes hm with ⟨-, hne⟩ | ⟨c, hc, heq⟩
      · exact hne
      · rw [heq]
        rcases hcut.place c hc with hc | ⟨k, -, -, hc⟩ <;> rw [hc] <;> exact Place.noConfusion
  · cases hm
  · have htypeahead : (w.step .takeTypeahead).returned =
        w.returned ++ Console.strip w.terminal.lookahead := by
      simp only [step, Terminal.takeTypeahead, hkeep, if_true]
    rw [Marked.bytesAt_append, h.returned, htypeahead, Marked.bytesAt_remark_of_eq hcut.bytes
      fun m hm heq ↦ absurd heq (h.new_ne m hm), hcut.kept, h.lookahead]

theorem keepTypeahead_step (w : Watched) (u : TerminalUse) :
    (w.step u).terminal.keepTypeahead = w.terminal.keepTypeahead := by
  cases u with
  | peek => exact w.terminal.keepTypeahead_peek
  | type | read | discardGestures | takeTypeahead => rfl

theorem Laid.step (h : Laid w old new n) (hkeep : w.terminal.keepTypeahead = true)
    (u : TerminalUse) : ∃ old' new' n', Laid (w.step u) old' new' n' := by
  cases u with
  | type bs => exact ⟨old, new, n, h.type bs⟩
  | read count => exact ⟨old, _, n, h.read count⟩
  | peek =>
    obtain ⟨new', h'⟩ := h.peek
    exact ⟨old, new', n, h'⟩
  | discardGestures =>
    obtain ⟨new', n', h'⟩ := h.discardGestures
    exact ⟨old, new', n', h'⟩
  | takeTypeahead =>
    obtain ⟨old', n', h'⟩ := h.takeTypeahead hkeep
    exact ⟨old', [], n', h'⟩

theorem Laid.run (h : Laid w old new n) (hkeep : w.terminal.keepTypeahead = true)
    (uses : List TerminalUse) : ∃ old' new' n', Laid (w.run uses) old' new' n' := by
  induction uses generalizing w old new n with
  | nil => exact ⟨old, new, n, h⟩
  | cons u uses ih =>
    obtain ⟨old', new', n', h'⟩ := h.step hkeep u
    exact ih h' ((w.keepTypeahead_step u).trans hkeep)

/-- What is still queued comes last. -/
theorem Laid.accounts (h : Laid w old new n) :
    Accounts w (old ++ new ++ .ofBytes w.terminal.queue .queue) where
  typed := by rw [Marked.bytes_append, Marked.bytes_ofBytes, h.placed.typed]
  queue := by
    rw [Marked.bytesAt_append, Marked.bytesAt_eq_nil h.placed.queue, Marked.bytesAt_ofBytes_self,
      List.nil_append]
  read := by
    rw [Marked.bytesAt_append, h.placed.read, Marked.bytesAt_ofBytes_of_ne _ Place.noConfusion,
      List.append_nil]
  lookahead := by
    rw [Marked.bytesAt_append, Marked.bytesAt_append, Marked.bytesAt_eq_nil h.old_ne, h.lookahead,
      Marked.bytesAt_ofBytes_of_ne _ Place.noConfusion, List.nil_append, List.append_nil]
  returned := by
    rw [Marked.bytesAt_append, Marked.bytesAt_append, Marked.bytesAt_eq_nil h.new_ne, h.returned,
      Marked.bytesAt_ofBytes_of_ne _ Place.noConfusion, List.append_nil, List.append_nil]
  gesture k := by
    rw [Marked.bytesAt_append, Marked.bytesAt_ofBytes_of_ne _ Place.noConfusion, List.append_nil]
    rcases Nat.lt_or_ge k n with hlt | hge
    · exact Or.inr (h.placed.gesture k hlt)
    · exact Or.inl (Marked.bytesAt_eq_nil fun m hm heq ↦
        Nat.not_lt_of_le hge (h.placed.below m hm k heq))
  taken := by
    rw [Marked.part_append, h.placed.taken, Marked.part_ofBytes_of_neg _ rfl, List.append_nil]

/-- Whether a byte is with the engine still, or was returned by it. -/
def Place.isKept (p : Place) : Bool := p == .returned || p == .lookahead

theorem Laid.kept_sublist (h : Laid w old new n) :
    (w.returned ++ w.terminal.lookahead).Sublist w.taken := by
  have hold : old.part Place.isKept = w.returned := by
    rw [← h.returned]
    exact Marked.part_congr fun m hm ↦ by simp [Place.isKept, h.old_ne m hm]
  have hnew : new.part Place.isKept = w.terminal.lookahead := by
    rw [← h.lookahead]
    exact Marked.part_congr fun m hm ↦ by simp [Place.isKept, h.new_ne m hm]
  rw [← h.placed.taken, ← hold, ← hnew, ← Marked.part_append]
  refine Marked.part_sublist_part fun m _ hm ↦ ?_
  rcases Bool.or_eq_true_iff.mp hm with hm | hm <;> rw [beq_iff_eq.mp hm] <;> rfl

end Laid

/-- **Nothing that is typed is lost, doubled or reordered.** With typeahead to be kept, however a
terminal is used, there is one place for each byte that was typed, in which the bytes are in the
order in which they were typed. In particular looks take bytes off the queue in this order, the
other reader gets them in this order, and what is returned, and then what is in the lookahead, is in
the order of the looks. -/
theorem run_accounts {settings : MonitorSettings} (hkeep : settings.keepTypeahead = true)
    (indicator : Bool) (uses : List TerminalUse) :
    let w := run { terminal := .start settings indicator } uses
    (∃ ms, Accounts w ms) ∧ w.taken.Sublist w.typed ∧ w.read.Sublist w.typed ∧
      (w.returned ++ w.terminal.lookahead).Sublist w.taken := by
  have hstart : Laid { terminal := .start settings indicator } [] [] 0 := by
    refine ⟨⟨rfl, ?_, rfl, rfl, ?_, ?_⟩, ?_, ?_, rfl, rfl⟩
    · exact fun _ hm ↦ nomatch hm
    · exact fun _ hk ↦ nomatch hk
    · exact fun _ hm ↦ nomatch hm
    · exact fun _ hm ↦ nomatch hm
    · exact fun _ hm ↦ nomatch hm
  obtain ⟨old, new, n, h⟩ := hstart.run hkeep uses
  refine ⟨⟨_, h.accounts⟩, ?_, ?_, h.kept_sublist⟩
  · rw [← h.accounts.taken, ← h.accounts.typed]
    exact Marked.part_sublist_bytes _ _
  · rw [← h.accounts.read, ← h.accounts.typed]
    exact Marked.part_sublist_bytes _ _

/-- Another reader gets the first of four bytes. Looks take the other three, a detach chord among
them, and then a focus mark and a byte behind it. The gestures are dropped and the rest is returned;
of two more bytes the first is taken. -/
def mixedUses : List TerminalUse :=
  [.type [0x78, 0x61, Console.chordByte, 0x62], .read 1, .peek, .peek, .peek, .peek,
    .type (Console.focusMark true ++ [0x63]), .peek, .discardGestures, .peek, .peek, .peek,
    .takeTypeahead, .type [0x64], .peek, .peek, .peek, .peek, .type [0x65]]

def mixed : Watched := run { terminal := .start { keepTypeahead := true } false } mixedUses

theorem run_accounts_mixed :
    (mixed.read = [0x78] ∧ mixed.returned = [0x61, 0x62, 0x63] ∧
      mixed.terminal.lookahead = [0x64] ∧ mixed.terminal.queue = [0x65]) ∧
    (∃ ms, Accounts mixed ms) ∧ mixed.taken.Sublist mixed.typed ∧ mixed.read.Sublist mixed.typed ∧
      (mixed.returned ++ mixed.terminal.lookahead).Sublist mixed.taken :=
  ⟨by decide +kernel, @run_accounts { keepTypeahead := true } rfl false mixedUses⟩

end Watched

end ShellEngine
