import ShellEngine.Proofs.Engine.Cancelled
import ShellEngine.Proofs.Engine.Capturing
import ShellEngine.Proofs.Engine.Tidiness

/-!
# Builtins that crash

A variable cannot be set to a value with a NUL, and whoever tries crashes. Among the builtins only
two set variables. What `cd` sets them to is a path that the machine tells, which has no NUL if the
machine is tidy. `set` takes the value from its argument. It looks for NULs in the name but not in
the value, so that an argument may be lethal (`Builtin.Lethal`), and it comes to that argument if
none before it makes it fail (`Builtin.sets`). No builtin crashes on anything else
(`Builtin.crashes_run_iff`).

So a line whose stages all name builtins gives a level, unless the walk through its stages comes to
one that is *doomed* in this way, or an error on the way cannot be reported
(`Action.runLine_crashes_where_doomed`).
-/

namespace ShellEngine

open Machine PlanAction

/-! ## Actions that return -/

namespace Action

variable {α β : Type} {s : Session}

theorem outcome_bind_of_ok {x : Action α} {r : α} {t : Session} (h : x.outcome s = (.ok r, t))
    (f : α → Action β) : (x >>= f).outcome s = (f r).outcome t := by
  rw [outcome_bind, h]

/-- An action comes to its end. -/
def Returns (x : Action α) (s : Session) : Prop := ∃ r t, x.outcome s = (.ok r, t)

theorem returns_pure (r : α) (s : Session) : Returns (pure r) s := ⟨r, s, rfl⟩

theorem returns_get_bind {f : Session → Action β} (hf : Returns (f s) s) :
    Returns (get >>= f) s := by
  rwa [Returns, outcome_get_bind]

theorem returns_change_bind {g : Session → Session} {f : Unit → Action β}
    (hf : Returns (f ()) (g s)) : Returns (change g >>= f) s := by
  rwa [Returns, outcome_change_bind]

theorem returns_bind {x : Action α} {f : α → Action β} (hx : Returns x s)
    (hf : ∀ r t, Returns (f r) t) : Returns (x >>= f) s := by
  obtain ⟨r, t, hx⟩ := hx
  rw [Returns, outcome_bind_of_ok hx]
  exact hf r t

theorem Returns.ne_error {x : Action α} (h : Returns x s) (crash : Crash) :
    (x.outcome s).1 ≠ .error crash := by
  obtain ⟨r, t, h⟩ := h
  rw [h]
  exact nofun

end Action

/-! ## Builtins -/

namespace Builtin

open ShellEngine.Action

variable {s : Session} {crash : Crash}

theorem outcome_fail (b : Builtin) (message : String) (s : Session) :
    (b.fail message).outcome s = (.ok exitFailure,
      { s with host := s.host.say 2 (b.name ++ ": " ++ message ++ "\n") }) := rfl

theorem returns_fail (b : Builtin) (message : String) (s : Session) : Returns (b.fail message) s :=
  ⟨_, _, outcome_fail b message s⟩

theorem returns_print (b : Builtin) (text : String) {next : Action Int}
    (hnext : ∀ t, Returns next t) (s : Session) : Returns (b.print text next) s := by
  refine returns_get_bind ?_
  split
  · exact returns_change_bind (hnext _)
  · exact returns_fail b _ s

theorem returns_succeed (s : Session) : Returns succeed s := returns_pure _ s

theorem returns_runAlias (args : List String) (s : Session) : Returns (runAlias args) s := by
  have hgo (status : Int) (args : List String) (s : Session) :
      Returns (runAlias.go status args) s := by
    induction args generalizing status s with
    | nil => exact returns_pure _ s
    | cons arg rest ih =>
      unfold runAlias.go
      split
      · split
        · exact returns_fail _ _ s
        · exact returns_change_bind (ih _ _)
      · refine returns_get_bind ?_
        split
        · exact returns_print _ _ (ih _) s
        · exact ih _ s
  unfold runAlias
  split
  · exact returns_get_bind (returns_print _ _ returns_succeed s)
  · exact hgo _ _ s

theorem returns_runPwd (s : Session) : Returns runPwd s := by
  refine returns_get_bind ?_
  split
  · exact returns_print _ _ returns_succeed s
  · exact returns_fail _ _ s

theorem returns_runExit (args : List String) (s : Session) : Returns (runExit args) s := by
  unfold runExit
  dsimp only
  split
  · exact returns_get_bind (returns_change_bind (returns_pure _ _))
  · split
    · exact returns_change_bind (returns_pure _ _)
    · exact returns_fail _ _ s

theorem returns_runJobs (s : Session) : Returns runJobs s :=
  returns_bind ⟨_, _, outcome_ask _ s⟩ fun _ t ↦ returns_print _ _ returns_succeed t

/-! ### Setting variables -/

theorem outcome_setVariable {name value : String} (hname : Variables.validName name = true)
    (hvalue : '\x00' ∉ value.toList) (s : Session) :
    (setVariable name value).outcome s = (.ok (), { s with host := { s.host with
      environment := s.host.environment.put name value } }) := by
  have hvalid : Variables.validValue value = true := by simpa [Variables.validValue] using hvalue
  unfold setVariable
  rw [outcome_get_bind, Variables.set, hname, hvalid]
  rfl

/-- A directory is entered and told to the variables, since no path on a tidy machine has a NUL. -/
theorem returns_runCd (htidy : s.Tidy) (args : List String) : Returns (runCd args) s := by
  have hset {name : String} (hname : Variables.validName name = true) {path : Octets}
      (hpath : path.NulFree) (t : Session) : Returns (setVariable name path.toText) t :=
    ⟨_, _, outcome_setVariable hname (Octets.not_mem_toText hpath) t⟩
  unfold runCd
  refine returns_get_bind ?_
  dsimp only
  split
  · exact returns_fail _ _ s
  split
  · exact returns_fail _ _ s
  rename_i path hpath
  have hresolved : path.NulFree := by
    unfold resolve at hpath
    dsimp only [Bind.bind, Except.bind] at hpath
    split at hpath
    · cases hpath
    rename_i hhere
    split at hpath
    · cases hpath
      exact Host.nulFree_of_currentDirectory htidy hhere
    · exact Host.nulFree_of_canonicalPath htidy hpath
  split
  · exact returns_fail _ _ s
  refine returns_change_bind ?_
  have hlast (t : Session) : Returns (do
      setVariable "PWD" path.toText
      return exitSuccess) t :=
    returns_bind (hset (by decide) hresolved t) fun _ t ↦ returns_pure _ t
  split
  · rename_i previous hprevious
    have hleft := Host.nulFree_of_currentDirectory htidy hprevious
    exact returns_bind (hset (by decide) hleft _) fun _ t ↦ hlast t
  · exact hlast _

theorem name_of_ofName? {name : String} {b : Builtin} (h : ofName? name = some b) :
    name = b.name := by
  have hfound := List.find?_some h
  exact (beq_iff_eq.mp hfound).symm

/-- An argument of `set` that assigns a value with a NUL to a name without one. -/
structure Lethal (arg name value : String) : Prop where
  assigns : splitAssignment arg = some (name, value)
  name_ne : name.isEmpty = false
  not_mem : '\x00' ∉ name.toList
  nul_mem : '\x00' ∈ value.toList

theorem equals_not_mem_of_splitAssignment {arg name value : String}
    (h : splitAssignment arg = some (name, value)) : '=' ∉ name.toList := by
  unfold splitAssignment at h
  dsimp only at h
  split at h
  · obtain ⟨rfl, -⟩ := Prod.mk.inj (Option.some.inj h)
    rw [String.toList_ofList]
    intro hmem
    have hne := List.all_eq_true.mp (List.all_takeWhile) _ hmem
    exact absurd hne (by decide)
  · cases h

theorem value_subset_of_splitAssignment {arg name value : String}
    (h : splitAssignment arg = some (name, value)) : value.toList ⊆ arg.toList := by
  unfold splitAssignment at h
  dsimp only at h
  split at h
  · rename_i c rest hdrop
    obtain ⟨-, rfl⟩ := Prod.mk.inj (Option.some.inj h)
    rw [String.toList_ofList]
    intro d hd
    have hsuffix := List.dropWhile_suffix (l := arg.toList) (· != '=')
    rw [hdrop] at hsuffix
    exact hsuffix.subset (List.mem_cons_of_mem c hd)
  · cases h

theorem validName_of_splitAssignment {arg name value : String}
    (h : splitAssignment arg = some (name, value)) (hname : name.isEmpty = false)
    (hnul : '\x00' ∉ name.toList) : Variables.validName name = true := by
  simp [Variables.validName, hname, hnul, equals_not_mem_of_splitAssignment h]

theorem outcome_setVariable_of_lethal {arg name value : String} (h : Lethal arg name value)
    (s : Session) :
    (setVariable name value).outcome s = (.error (.variableValue name value), s) := by
  have hname := validName_of_splitAssignment h.assigns h.name_ne h.not_mem
  have hvalue : Variables.validValue value = false := by
    simpa [Variables.validValue] using h.nul_mem
  unfold setVariable
  rw [outcome_get_bind, Variables.set, hname, hvalue]
  rfl

/-- What `set` makes of one argument: it crashes, it fails and leaves the others alone, or it goes
on with them. It crashes on nothing but a lethal argument. -/
inductive Sets (arg : String) (s : Session) : Prop
  | crashes {name value : String} (hlethal : Lethal arg name value)
      (hgo : ∀ rest, (runSet.go (arg :: rest)).outcome s = (.error (.variableValue name value), s))
  | fails {t : Session} (hharmless : ∀ name value, ¬Lethal arg name value)
      (hgo : ∀ rest, (runSet.go (arg :: rest)).outcome s = (.ok exitFailure, t))
  | goesOn {t : Session} (hharmless : ∀ name value, ¬Lethal arg name value)
      (hgo : ∀ rest, (runSet.go (arg :: rest)).outcome s = (runSet.go rest).outcome t)

theorem outcome_print (b : Builtin) (text : String) (next : Action Int) (s : Session) :
    (b.print text next).outcome s =
      match s.host.print 1 text with
      | .ok host => next.outcome { s with host }
      | .error e => (b.fail e.message).outcome s := by
  unfold print
  rw [outcome_get_bind]
  cases s.host.print 1 text with
  | ok host => exact outcome_change_bind _ _ s
  | error e => rfl

theorem sets_of_none {arg : String} (hsplit : splitAssignment arg = none) (s : Session) :
    Sets arg s := by
  have hharmless (name value : String) : ¬Lethal arg name value := fun h ↦ by
    cases hsplit.symm.trans h.assigns
  cases hget : s.host.environment.get? arg with
  | none =>
    refine .fails (t := s) hharmless fun rest ↦ ?_
    rw [runSet.go, hsplit]
    dsimp only
    rw [outcome_get_bind, hget]
    rfl
  | some value =>
    have hgo (rest : List String) : (runSet.go (arg :: rest)).outcome s =
        (set.print (arg ++ "=" ++ value ++ "\n") (runSet.go rest)).outcome s := by
      rw [runSet.go, hsplit]
      dsimp only
      rw [outcome_get_bind, hget]
    cases hprint : s.host.print 1 (arg ++ "=" ++ value ++ "\n") with
    | error e =>
      have hfails (rest : List String) :
          (runSet.go (arg :: rest)).outcome s = (set.fail e.message).outcome s := by
        rw [hgo, outcome_print, hprint]
      exact .fails hharmless fun rest ↦ (hfails rest).trans (outcome_fail _ _ s)
    | ok host =>
      refine .goesOn (t := { s with host }) hharmless fun rest ↦ ?_
      rw [hgo, outcome_print, hprint]

section Assigning

variable {arg name value : String}

theorem Lethal.of_splitAssignment (hsplit : splitAssignment arg = some (name, value))
    {name' value' : String} (h : Lethal arg name' value') : Lethal arg name value := by
  have hassigns := h.assigns
  rw [hsplit] at hassigns
  cases hassigns
  exact h

theorem sets_of_refused (hsplit : splitAssignment arg = some (name, value))
    (hrefused : (name.isEmpty || name.toList.contains '\x00') = true) (s : Session) :
    Sets arg s := by
  have hharmless (name' value' : String) : ¬Lethal arg name' value' := fun h ↦ by
    have hlethal := h.of_splitAssignment hsplit
    simp [hlethal.name_ne, hlethal.not_mem] at hrefused
  have hfails (rest : List String) : (runSet.go (arg :: rest)).outcome s =
      (set.fail (arg ++ ": invalid variable name")).outcome s := by
    rw [runSet.go, hsplit]
    dsimp only
    rw [if_pos hrefused]
  exact .fails hharmless fun rest ↦ (hfails rest).trans (outcome_fail _ _ s)

theorem sets_of_some (hsplit : splitAssignment arg = some (name, value)) (s : Session) :
    Sets arg s := by
  by_cases hrefused : (name.isEmpty || name.toList.contains '\x00') = true
  · exact sets_of_refused hsplit hrefused s
  have hname : name.isEmpty = false ∧ '\x00' ∉ name.toList := by simpa using hrefused
  have hvalid := validName_of_splitAssignment hsplit hname.1 hname.2
  have hgo (rest : List String) : (runSet.go (arg :: rest)).outcome s =
      (if value.isEmpty then do
          let environment ← orCrash ((← get).host.environment.remove name)
          change fun s ↦ { s with host := { s.host with environment } }
          runSet.go rest
        else do
          setVariable name value
          runSet.go rest).outcome s := by
    rw [runSet.go, hsplit]
    dsimp only
    rw [if_neg hrefused]
  by_cases hempty : value.isEmpty = true
  · have hharmless (name' value' : String) : ¬Lethal arg name' value' := fun h ↦ by
      have hnul := (h.of_splitAssignment hsplit).nul_mem
      rw [String.isEmpty_iff.mp hempty] at hnul
      cases hnul
    refine .goesOn (t := { s with host := { s.host with
      environment := s.host.environment.drop name } }) hharmless fun rest ↦ ?_
    rw [hgo, if_pos hempty, outcome_get_bind, Variables.remove, hvalid]
    rfl
  by_cases hnul : '\x00' ∈ value.toList
  · have hlethal : Lethal arg name value := ⟨hsplit, hname.1, hname.2, hnul⟩
    refine .crashes hlethal fun rest ↦ ?_
    rw [hgo, if_neg hempty, Action.outcome_bind, outcome_setVariable_of_lethal hlethal]
  · refine .goesOn (t := { s with host := { s.host with
      environment := s.host.environment.put name value } })
      (fun _ _ h ↦ hnul (h.of_splitAssignment hsplit).nul_mem) fun rest ↦ ?_
    rw [hgo, if_neg hempty, Action.outcome_bind, outcome_setVariable hvalid hnul]

end Assigning

theorem sets (arg : String) (s : Session) : Sets arg s := by
  cases hsplit : splitAssignment arg with
  | none => exact sets_of_none hsplit s
  | some assignment => exact sets_of_some hsplit s

/-- One of the arguments is lethal, and `set` gets through with those before it. The crash is that
of its value. -/
def Kills (args : List String) (s : Session) (crash : Crash) : Prop :=
  ∃ before arg after name value, args = before ++ arg :: after ∧
    ((runSet.go before).outcome s).1 = .ok exitSuccess ∧ Lethal arg name value ∧
    crash = .variableValue name value

theorem not_kills_nil : ¬Kills [] s crash := by
  rintro ⟨before, arg, after, name, value, hargs, -⟩
  exact List.cons_ne_nil _ _ (List.append_eq_nil_iff.mp hargs.symm).2

theorem kills_cons_iff {arg : String} {rest : List String} :
    Kills (arg :: rest) s crash ↔
      (∃ name value, Lethal arg name value ∧ crash = .variableValue name value) ∨
        ∃ before arg' after name value, rest = before ++ arg' :: after ∧
          ((runSet.go (arg :: before)).outcome s).1 = .ok exitSuccess ∧ Lethal arg' name value ∧
          crash = .variableValue name value := by
  constructor
  · rintro ⟨before, arg', after, name, value, hargs, hbefore, hlethal, hcrash⟩
    rcases List.cons_eq_append_iff.mp hargs with ⟨rfl, hcons⟩ | ⟨before, rfl, hrest⟩
    · obtain ⟨rfl, -⟩ := List.cons.inj hcons
      exact Or.inl ⟨name, value, hlethal, hcrash⟩
    · exact Or.inr ⟨before, arg', after, name, value, hrest, hbefore, hlethal, hcrash⟩
  · rintro (⟨name, value, hlethal, hcrash⟩ |
      ⟨before, arg', after, name, value, rfl, hbefore, hlethal, hcrash⟩)
    · exact ⟨[], arg, rest, name, value, rfl, rfl, hlethal, hcrash⟩
    · exact ⟨arg :: before, arg', after, name, value, rfl, hbefore, hlethal, hcrash⟩

/-- `set` crashes on the first lethal argument, if nothing fails before it. The induction is on the
arguments. -/
theorem crashes_go_iff (args : List String) (s : Session) (crash : Crash) :
    ((runSet.go args).outcome s).1 = .error crash ↔ Kills args s crash := by
  induction args generalizing s with
  | nil => exact iff_of_false nofun not_kills_nil
  | cons arg rest ih =>
    rw [kills_cons_iff]
    cases sets arg s with
    | @crashes name value hlethal hgo =>
      rw [hgo rest]
      constructor
      · intro h
        exact Or.inl ⟨name, value, hlethal, (Except.error.inj h).symm⟩
      · rintro (⟨name', value', hlethal', rfl⟩ | ⟨before, _, _, _, _, -, hbefore, -⟩)
        · cases hlethal.assigns.symm.trans hlethal'.assigns
          rfl
        · rw [hgo before] at hbefore
          cases hbefore
    | fails hharmless hgo =>
      rw [hgo rest]
      refine iff_of_false nofun ?_
      rintro (⟨name, value, hlethal, -⟩ | ⟨before, _, _, _, _, -, hbefore, -⟩)
      · exact hharmless name value hlethal
      · rw [hgo before] at hbefore
        cases hbefore
    | goesOn hharmless hgo =>
      rw [hgo rest, ih]
      simp only [hgo]
      exact (or_iff_right fun ⟨name, value, hlethal, _⟩ ↦ hharmless name value hlethal).symm

theorem crashes_runSet_iff (args : List String) (s : Session) (crash : Crash) :
    ((runSet args).outcome s).1 = .error crash ↔ Kills args s crash := by
  unfold runSet
  split
  · rename_i hnil
    have hreturns : Returns (do
        let lines := (← get).host.environment.entries.map fun e ↦ e.1 ++ "=" ++ e.2 ++ "\n"
        set.print (String.join (lines.mergeSort fun a b ↦ !(b < a))) succeed) s :=
      returns_get_bind (returns_print _ _ returns_succeed s)
    rw [List.isEmpty_iff.mp hnil, ← crashes_go_iff]
    exact ⟨fun h ↦ absurd h (hreturns.ne_error crash), fun h ↦ by cases h⟩
  · exact crashes_go_iff args s crash

/-- **Builtins that crash.** On a tidy machine none does but `set`, when it comes to a lethal
argument. -/
theorem crashes_run_iff (htidy : s.Tidy) (cmd : Builtin) (args : List String) :
    ((cmd.run args).outcome s).1 = .error crash ↔ cmd = .set ∧ Kills args s crash := by
  have hreturns {x : Action Int} (hx : Returns x s) (hne : cmd ≠ .set) :
      (x.outcome s).1 = .error crash ↔ cmd = .set ∧ Kills args s crash :=
    ⟨fun h ↦ absurd h (hx.ne_error crash), fun h ↦ absurd h.1 hne⟩
  cases cmd with
  | «alias» => exact hreturns (returns_runAlias args s) nofun
  | cd => exact hreturns (returns_runCd htidy args) nofun
  | exit => exact hreturns (returns_runExit args s) nofun
  | jobs => exact hreturns (returns_runJobs s) nofun
  | pwd => exact hreturns (returns_runPwd s) nofun
  | set => exact (crashes_runSet_iff args s crash).trans (by simp)

end Builtin

/-! ## Stages -/

/-- The stage that is due names `set`, gets its streams, and has a lethal argument to which `set`
comes. -/
def Situation.Dooms (a : Situation) (due : Nat) (crash : Crash) : Prop :=
  ∃ r t, a.1.plan.stages[due]? = some r ∧ r.stage.program = "set" ∧ a.2.Readied r t ∧
    Builtin.Kills r.stage.arguments t crash

namespace PlanAction

variable {α β : Type} {a : Situation} {index : Nat} {r : RunningStage} {crash : Crash} {t : Session}

theorem crashes_bind_iff {x : PlanAction α} {f : α → PlanAction β} :
    (x >>= f).Crashes a crash t ↔
      x.Crashes a crash t ∨ ∃ r b, x.Gives a r b ∧ (f r).Crashes b crash t := by
  rcases gives_or_crashes x a with ⟨r, b, hx⟩ | ⟨crash', t', hx⟩
  · rw [hx.crashes_bind_iff]
    constructor
    · exact fun hf ↦ Or.inr ⟨r, b, hx, hf⟩
    · rintro (hcrashes | ⟨r', b', hx', hf⟩)
      · rw [Crashes, hx] at hcrashes
        cases (Prod.mk.inj hcrashes).1
      · obtain ⟨rfl, rfl⟩ := hx.unique hx'
        exact hf
  · have hbind := hx.bind f
    constructor
    · intro h
      obtain ⟨herror, rfl⟩ := Prod.mk.inj (hbind.symm.trans h)
      cases herror
      exact Or.inl hx
    · rintro (hcrashes | ⟨r', b', hx', -⟩)
      · exact hcrashes.bind f
      · rw [Gives, hx] at hx'
        cases (Prod.mk.inj hx').1

theorem crashes_liftM_iff {x : Action α} :
    (liftM x : PlanAction α).Crashes a crash t ↔ x.outcome a.2 = (.error crash, t) := by
  have hlift : (liftM x : PlanAction α).outcome a = (x >>= fun r ↦ pure (r, a.1)).outcome a.2 := rfl
  rw [Crashes, hlift, Action.outcome_bind]
  rcases x.outcome a.2 with ⟨e | r', u⟩
  · simp
  · simp [Action.outcome_pure]

theorem exists_gives_handOff (index : Nat) (reader : Option Nat) (a : Situation) :
    ∃ b, (handOff index reader).Gives a () b := by
  unfold handOff
  cases reader with
  | none => exact ⟨a, gives_pure () a⟩
  | some reader =>
    simp only [(gives_stage? (index + 1) a).bind_iff]
    cases a.1.plan.stages[index + 1]? with
    | none => exact ⟨_, gives_change _ a⟩
    | some next =>
      dsimp only
      cases next.pipedInput with
      | none => exact ⟨_, gives_setStage _ _ a⟩
      | some old => exact ⟨_, (gives_change _ a).bind (gives_setStage _ _ _)⟩

/-- What becomes of a builtin once it has its code. -/
theorem exists_gives_afterwards (index : Nat) (a : Situation) (f : Session → Session)
    (held : Option Nat) (code : Int) : ∃ result b,
      (do change f
          match held with
          | none => return .ok (.status code)
          | some held =>
            match ← ask fun s ↦ s.replay held with
            | .error e => return .error e
            | .ok reader =>
              handOff index (some reader)
              return .ok (.status code) : PlanAction (Except EngineError StageResult)).Gives
        a result b := by
  simp only [(gives_change f a).bind_iff]
  cases held with
  | none => exact ⟨_, _, gives_pure _ _⟩
  | some held =>
    simp only [(gives_ask (fun s ↦ s.replay held) (a.1, f a.2)).bind_iff]
    cases ((f a.2).replay held).1 with
    | error e => exact ⟨_, _, gives_pure _ _⟩
    | ok reader =>
      obtain ⟨b, hhand⟩ := exists_gives_handOff index (some reader) (a.1, ((f a.2).replay held).2)
      exact ⟨_, b, hhand.bind (gives_pure _ b)⟩

/-- A builtin crashes as a stage if its streams are in place and it crashes by itself. -/
theorem crashes_runBuiltin_iff {cmd : Builtin} :
    (runBuiltin index r cmd).Crashes a crash t ↔
      ∃ ready, a.2.Readied r ready ∧
        (cmd.run r.stage.arguments).outcome ready = (.error crash, t) := by
  have hstage := a.2.stage_redirect r true
  unfold runBuiltin
  rw [(gives_redirect index r true a).crashes_bind_iff]
  rcases hplaced : a.2.redirect r true with ⟨e | snapshot, placed, s⟩ <;> rw [hplaced] at hstage
  · constructor
    · intro h
      cases (Prod.mk.inj h).1
    · rintro ⟨ready, hready, -⟩
      cases hready with
      | intro hplaced' => rw [hplaced] at hplaced'; cases (Prod.mk.inj hplaced').1
  · dsimp only [Except.map, Snapshot.takeNextInput] at hstage ⊢
    have harguments : ((s.hold snapshot.nextInput).commenceDrains placed).1.stage.arguments
        = r.stage.arguments := congrArg Stage.arguments hstage
    rw [(gives_hold snapshot.nextInput _).crashes_bind_iff,
      (gives_commenceDrains index placed _).crashes_bind_iff, crashes_bind_iff, crashes_liftM_iff,
      harguments]
    constructor
    · rintro (hrun | ⟨code, b, -, hafterwards⟩)
      · exact ⟨_, .intro hplaced, hrun⟩
      · obtain ⟨result, c, hgives⟩ := exists_gives_afterwards index b _ _ code
        cases (Prod.mk.inj (hgives.symm.trans hafterwards)).1
    · rintro ⟨ready, hready, hrun⟩
      cases hready with
      | intro hplaced' =>
        rw [hplaced] at hplaced'
        cases hplaced'
        exact Or.inl hrun

/-- A stage of a plan of builtins crashes if it is doomed. -/
theorem crashes_runStage_iff {plan : Plan} (hproper : plan.Proper a) (hplan : plan.IsBuiltin) :
    (∃ t, (runStage index).Crashes a crash t) ↔ a.Dooms index crash := by
  have htidy {r : RunningStage} {ready : Session} (hready : a.2.Readied r ready) : ready.Tidy := by
    cases hready with
    | intro hplaced => exact Session.stint_tidy.ready hplaced hproper.tidy
  unfold runStage
  simp only [(gives_stage? index a).crashes_bind_iff]
  cases hr : a.1.plan.stages[index]? with
  | none =>
    constructor
    · rintro ⟨t, h⟩
      cases (Prod.mk.inj h).1
    · rintro ⟨r, ready, hr', -⟩
      rw [hr] at hr'
      cases hr'
  | some r =>
    obtain ⟨-, cmd, hcmd⟩ := hproper.exists_builtin hplan hr
    dsimp only
    rw [hcmd]
    dsimp only
    simp only [crashes_runBuiltin_iff]
    constructor
    · rintro ⟨t, ready, hready, hrun⟩
      have hcrash := congrArg Prod.fst hrun
      obtain ⟨rfl, hkills⟩ := (Builtin.crashes_run_iff (htidy hready) cmd _).mp hcrash
      exact ⟨r, ready, hr, Builtin.name_of_ofName? hcmd, hready, hkills⟩
    · rintro ⟨r', ready, hr', hname, hready, hkills⟩
      obtain rfl := Option.some.inj (hr.symm.trans hr')
      have hset : cmd = .set := by
        rw [hname] at hcmd
        exact Option.some.inj hcmd.symm
      have hcrash :=
        (Builtin.crashes_run_iff (htidy hready) cmd r.stage.arguments).mpr ⟨hset, hkills⟩
      exact ⟨_, ready, hready, Prod.ext hcrash rfl⟩

end PlanAction

/-! ## Plans -/

namespace Action

variable {plan : Plan} {s s₁ : Session} {line text : String}

/-- A plan of builtins that is run here comes to an end, or up to a doomed stage, on which it
crashes, or up to one whose error cannot be reported. -/
theorem execute_of_isBuiltin (hplan : plan.IsBuiltin) (htidy : s.Tidy) (hne : plan.stages ≠ [])
    (wantsOutput : Bool) (hhere : plan.isHandedOver wantsOutput s.isSubshell = false) :
    ∃ visits ending b, Trail (s.starting plan) visits b ∧
      Follows plan (walkFrom plan.rules · 0) s.level visits ending b ∧
      (∀ v ∈ visits, ∀ crash, ¬Situation.Dooms v.start v.stage crash) ∧ plan.Proper b ∧
      match ending with
      | .crashed due crash => b.Dooms due crash ∧
          ∃ t, (execute plan wantsOutput).outcome s = (.error crash, t)
      | .untold crash => (execute plan wantsOutput).outcome s = (.error crash, b.2)
      | _ => ∃ r t, (execute plan wantsOutput).outcome s = (.ok r, t) ∧ t.level = b.2.level := by
  obtain ⟨visits, ending, b, htrail, hfollows, hends⟩ := walks_starting (s := s) hne
  obtain ⟨hproper, hvisits⟩ := (Plan.Proper.starting htidy).trail hplan htrail
  refine ⟨visits, ending, b, htrail, hfollows, fun v hv crash hdooms ↦ ?_, hproper, ?_⟩
  · obtain ⟨hstart, hgives⟩ := hvisits v hv
    obtain ⟨t, hcrashes⟩ := (crashes_runStage_iff hstart hplan).mpr hdooms
    cases (Prod.mk.inj (hgives.symm.trans hcrashes)).1
  rw [outcome_execute_here hne hhere]
  cases ending with
  | crashed due crash =>
    obtain ⟨t, hrun, hdrive⟩ := hends
    refine ⟨(crashes_runStage_iff hproper hplan).mp ⟨t, hrun⟩, t, ?_⟩
    rw [crashes_runAll hdrive]
  | untold crash =>
    dsimp only
    rw [crashes_runAll hends]
  | finished | cancelled | refused =>
    obtain ⟨passage, hdrive⟩ := hends
    obtain ⟨buffer, c, hall, -, hsteady⟩ := exists_gives_runAll hdrive
    refine ⟨(buffer, c.1.plan), c.2, ?_, hsteady.level⟩
    rw [hall]

/-- A line that is parsed once it is expanded has its plan run, if there is anything to run. -/
theorem outcome_runLine (hexpand : (expand line).outcome s = (.ok text, s₁))
    (hparse : Line.parse text = .ok plan) :
    (runLine line).outcome s = (do
      if !plan.stages.isEmpty then
        let _ ← execute plan false
      return (← get).level : Action Int).outcome s₁ := by
  unfold runLine
  rw [outcome_bind_of_ok hexpand, hparse]

theorem outcome_runLine_of_nil (hexpand : (expand line).outcome s = (.ok text, s₁))
    (hparse : Line.parse text = .ok plan) (hnil : plan.stages = []) :
    (runLine line).outcome s = (.ok s₁.level, s₁) := by
  rw [outcome_runLine hexpand hparse, hnil]
  rfl

theorem outcome_runLine_of_ne (hexpand : (expand line).outcome s = (.ok text, s₁))
    (hparse : Line.parse text = .ok plan) (hne : plan.stages ≠ []) :
    (runLine line).outcome s =
      match (execute plan false).outcome s₁ with
      | (.ok _, t) => (.ok t.level, t)
      | (.error crash, t) => (.error crash, t) := by
  have hempty : plan.stages.isEmpty = false := by simpa using hne
  rw [outcome_runLine hexpand hparse, hempty]
  change (execute plan false >>= fun _ ↦ return (← get).level).outcome s₁ = _
  rw [outcome_bind]
  rcases (execute plan false).outcome s₁ with ⟨crash | r, t⟩ <;> rfl

/-- A plan of builtins without NULs among their arguments crashes on nothing but the standard
error. -/
theorem execute_of_nulFree (hplan : plan.IsBuiltin) (htidy : s.Tidy)
    (hnul : ∀ stage ∈ plan.stages, ∀ arg ∈ stage.arguments, '\x00' ∉ arg.toList)
    (wantsOutput : Bool) :
    Returns (execute plan wantsOutput) s ∨
      ∃ cause t, (execute plan wantsOutput).outcome s = (.error (.standardError cause), t) := by
  by_cases hnil : plan.stages = []
  · exact Or.inl ⟨_, _, outcome_execute_nil hnil⟩
  by_cases hover : plan.isHandedOver wantsOutput s.isSubshell = true
  · obtain ⟨result, t, hexecute, hhands⟩ := execute_of_isHandedOver hover
    cases hhands with
    | started | failed => exact Or.inl ⟨_, t, hexecute⟩
    | untold _ hsilence =>
      obtain ⟨cause, rfl⟩ := exists_of_silence? hsilence
      exact Or.inr ⟨cause, t, hexecute⟩
  obtain ⟨visits, ending, b, -, hfollows, -, hproper, hends⟩ :=
    execute_of_isBuiltin hplan htidy hnil wantsOutput (Bool.eq_false_iff.mpr hover)
  cases ending with
  | crashed due crash =>
    obtain ⟨⟨r, ready, hr, -, -, hkills⟩, -⟩ := hends
    obtain ⟨before, arg, after, name, value, harguments, -, hlethal, -⟩ := hkills
    obtain ⟨hstage, -⟩ := hproper.exists_builtin hplan hr
    have harg : arg ∈ r.stage.arguments := by
      rw [harguments]
      exact List.mem_append_right before List.mem_cons_self
    have hmem := Builtin.value_subset_of_splitAssignment hlethal.assigns hlethal.nul_mem
    exact absurd hmem (hnul _ (List.mem_of_getElem? hstage) arg harg)
  | untold crash =>
    obtain ⟨v, -, hfault⟩ := hfollows.untold crash rfl
    obtain ⟨cause, rfl⟩ := Visit.exists_of_fault? hfault
    exact Or.inr ⟨cause, _, hends⟩
  | finished | cancelled | refused =>
    obtain ⟨r, t, hexecute, -⟩ := hends
    exact Or.inl ⟨r, t, hexecute⟩

/-- **Where lines of builtins crash.** On a tidy machine, a line whose stages all name builtins gives
a level if it is empty, and what comes of handing it over if it goes to a new instance. Otherwise its
stages are walked, and none of those that are run is doomed. If the walk comes to a doomed stage,
which is `set` with a lethal argument, the line crashes there; if it comes to an error that cannot be
reported, it crashes over that; else it gives the level that the last stage left. -/
theorem runLine_crashes_where_doomed (hexpand : (expand line).outcome s = (.ok text, s₁))
    (hparse : Line.parse text = .ok plan) (hplan : plan.IsBuiltin) (htidy : s₁.Tidy) :
    (plan.stages = [] ∧ (runLine line).outcome s = (.ok s₁.level, s₁)) ∨
      (plan.isHandedOver false s₁.isSubshell = true ∧ ∃ result t, HandsOver plan s₁ result t ∧
        (runLine line).outcome s = (result.map fun _ ↦ t.level, t)) ∨
      ∃ visits ending b, Trail (s₁.starting plan) visits b ∧
        Follows plan (walkFrom plan.rules · 0) s₁.level visits ending b ∧
        (∀ v ∈ visits, ∀ crash, ¬Situation.Dooms v.start v.stage crash) ∧ plan.Proper b ∧
        match ending with
        | .crashed due crash => b.Dooms due crash ∧
            ∃ t, (runLine line).outcome s = (.error crash, t)
        | .untold crash => (runLine line).outcome s = (.error crash, b.2)
        | _ => ∃ t, (runLine line).outcome s = (.ok b.2.level, t) := by
  by_cases hnil : plan.stages = []
  · exact Or.inl ⟨hnil, outcome_runLine_of_nil hexpand hparse hnil⟩
  right
  rw [outcome_runLine_of_ne hexpand hparse hnil]
  by_cases hover : plan.isHandedOver false s₁.isSubshell = true
  · obtain ⟨result, t, hexecute, hhands⟩ := execute_of_isHandedOver hover
    refine Or.inl ⟨hover, result, t, hhands, ?_⟩
    rw [hexecute]
    cases result <;> rfl
  · right
    obtain ⟨visits, ending, b, htrail, hfollows, hvisits, hproper, hends⟩ :=
      execute_of_isBuiltin hplan htidy hnil false (Bool.eq_false_iff.mpr hover)
    refine ⟨visits, ending, b, htrail, hfollows, hvisits, hproper, ?_⟩
    cases ending with
    | crashed due crash =>
      obtain ⟨hdooms, t, hexecute⟩ := hends
      refine ⟨hdooms, t, ?_⟩
      rw [hexecute]
    | untold crash =>
      dsimp only at hends ⊢
      rw [hends]
    | finished | cancelled | refused =>
      obtain ⟨r, t, hexecute, hlevel⟩ := hends
      refine ⟨t, ?_⟩
      rw [hexecute, ← hlevel]

/-- The plan of a line that sets a variable to a value with a NUL. -/
def nulInValue : Plan :=
  .ofStages "set \"A=x\\0y\"" [{ argv := ["set", "A=x\x00y"], text := "set \"A=x\\0y\"" }]

theorem isBuiltin_nulInValue : nulInValue.IsBuiltin := by
  intro stage hstage
  obtain rfl := List.mem_singleton.mp hstage
  exact ⟨.set, by decide⟩

theorem parse_nulInValue : Line.parse "set \"A=x\\0y\"" = .ok nulInValue := by decide +kernel

theorem expand_nulInValue :
    (expand "set \"A=x\\0y\"").outcome calm = (.ok "set \"A=x\\0y\"", calm) :=
  outcome_expand_of_find_none (by decide) calm

theorem outcome_runLine_nulInValue : ∃ t, (runLine "set \"A=x\\0y\"").outcome calm
    = (.error (.variableValue "A" "x\x00y"), t) := by
  have hcrash : (match ((execute nulInValue false).outcome calm).1 with
      | .error crash => some crash
      | .ok _ => none) = some (.variableValue "A" "x\x00y") := by decide +kernel
  rw [outcome_runLine_of_ne expand_nulInValue parse_nulInValue (by decide)]
  rcases hexecute : (execute nulInValue false).outcome calm with ⟨crash | r, t⟩ <;>
    rw [hexecute] at hcrash
  · exact ⟨t, by rw [Option.some.inj hcrash]⟩
  · cases hcrash

/-- The escape makes a NUL, on which `set` crashes: not every line of builtins gives a level. -/
theorem runLine_crashes_of_nulInValue :
    Line.parse "set \"A=x\\0y\"" = .ok nulInValue ∧ nulInValue.IsBuiltin ∧ calm.Tidy ∧
      ¬∃ level t, (runLine "set \"A=x\\0y\"").outcome calm = (.ok level, t) := by
  refine ⟨parse_nulInValue, isBuiltin_nulInValue, FileTree.tidy_empty, ?_⟩
  obtain ⟨u, hcrashes⟩ := outcome_runLine_nulInValue
  rintro ⟨level, t, h⟩
  cases h.symm.trans hcrashes

/-- The only stage of that line is doomed. -/
theorem runLine_crashes_where_doomed_of_nulInValue :
    ∃ visits b due crash, Trail (calm.starting nulInValue) visits b ∧ b.Dooms due crash ∧
      ∃ t, (runLine "set \"A=x\\0y\"").outcome calm = (.error crash, t) := by
  obtain ⟨u, hcrashes⟩ := outcome_runLine_nulInValue
  rcases runLine_crashes_where_doomed expand_nulInValue parse_nulInValue isBuiltin_nulInValue
      FileTree.tidy_empty with ⟨hnil, -⟩ | ⟨hover, -⟩ | ⟨visits, ending, b, htrail, hfollows, -, -, h⟩
  · cases hnil
  · cases hover
  · cases ending with
    | crashed due crash =>
      obtain ⟨hdooms, hcrashed⟩ := h
      exact ⟨visits, b, due, crash, htrail, hdooms, hcrashed⟩
    | untold crash =>
      obtain ⟨v, -, hfault⟩ := hfollows.untold crash rfl
      obtain ⟨cause, rfl⟩ := Visit.exists_of_fault? hfault
      cases h.symm.trans hcrashes
    | finished | cancelled | refused =>
      obtain ⟨t, h⟩ := h
      cases h.symm.trans hcrashes

end Action

end ShellEngine
