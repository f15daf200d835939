import ShellEngine.Machine.Script.Jobs

/-!
# Commands for settings

The commands of the interpreter that change what it keeps in mind: its options and arguments, the
marks of variables, aliases, the mask of new files, and the limits of programs.

A command gets its name, since some of them go by more than one, and its arguments.
-/

namespace ShellEngine.Machine.Script

/-- A command that the interpreter runs itself. -/
abbrev Builtin := Octets → List Octets → Act Nat

namespace Builtin

open Act

/-! ## Options and arguments -/

/-- Gives values to the positional parameters. -/
def setArguments (args : List Octets) : Act Unit :=
  modify fun s ↦ { s with positional := args, optionIndex := 1, optionOffset := none }

/-- Lists the options, to be read or to be run again. Where the interpreter is started, all of them
still count as on. -/
def listOptions (isStart isReadable : Bool) : Act Unit := do
  let on := (← get).options
  if isReadable then print "Current option settings\n".toList
  for (name, _) in optionNames do
    let isOn := isStart || on.contains name
    if isReadable then
      print (name.toList ++ List.replicate (16 - name.length) ' ' ++
        (if isOn then "on\n" else "off\n").toList)
    else print (("set " ++ (if isOn then "-o " else "+o ") ++ name ++ "\n").toList)

def chooseByName (name : Octets) (on : Bool) : Act Unit := do
  match optionNames.find? fun o ↦ o.1.toList == name with
  | some (name, _) => setOption name on
  | none => fail ("Illegal option -o ".toList ++ name)

/-- Turns an option on or off by its letter. The two ways of editing exclude each other. -/
def chooseByLetter (c : Char) (on : Bool) : Act Unit := do
  match optionNames.find? fun o ↦ o.2 == some c with
  | some (name, _) =>
    setOption name on
    if on && name = "vi" then setOption "emacs" false
    if on && name = "emacs" then setOption "vi" false
  | none => fail ("Illegal option -".toList ++ [c])

/-- What options in front of arguments came to. -/
structure Chosen where
  rest : List Octets
  /-- The letters that have a meaning only where the interpreter is started. -/
  letters : List Char := []

/-- Does what the letters behind a sign say; `rest` are the arguments behind them. -/
def chooseLetters (isStart on : Bool) (rest : List Octets) : Octets → Act Chosen
  | [] => return { rest }
  | c :: cs => do
    if isStart && (c == 'c' || c == 'l') then
      let chosen ← chooseLetters isStart on rest cs
      return { chosen with letters := c :: chosen.letters }
    else if c == 'o' then
      match rest with
      | [] => listOptions isStart on
      | name :: _ => chooseByName name on
      chooseLetters isStart on (rest.drop 1) cs
    else
      chooseByLetter c on
      chooseLetters isStart on rest cs

/-- Does what options in front of arguments say. -/
def choose (isStart : Bool) : Nat → List Octets → Act Chosen
  | 0, args => return { rest := args }
  | fuel + 1, args => do
    let word (on : Bool) (cs : Octets) (rest : List Octets) : Act Chosen := do
      let here ← chooseLetters isStart on rest cs
      let more ← choose isStart fuel here.rest
      return { more with letters := here.letters ++ more.letters }
    match args with
    | ['-'] :: rest =>
      if !isStart then
        setOption "xtrace" false
        setOption "verbose" false
      return { rest }
    | ['-', '-'] :: rest =>
      if !isStart && rest.isEmpty then setArguments []
      return { rest }
    | ('-' :: cs) :: rest => word true cs rest
    | ('+' :: cs) :: rest => word false cs rest
    | args => return { rest := args }

/-- Jobs are not controlled where there is no terminal. -/
def settleOptions : Act Unit := do
  if (← hasOption "monitor") && !(← get).isPart then
    warn "can't access tty; job control turned off".toList
    setOption "monitor" false

def set_ : Builtin := fun _ args ↦ do
  if args.isEmpty then
    printVariables [] fun v ↦ v.value.isSome
  else
    let chosen ← choose false (args.length + 1) args
    settleOptions
    if !chosen.rest.isEmpty then setArguments chosen.rest
  return 0

def shift : Builtin := fun _ args ↦ do
  let n ←
    match args.head? with
    | some os => number os
    | none => pure 1
  let args := (← get).positional
  if args.length < n then fail "can't shift that many".toList
  setArguments (args.drop n)
  return 0

/-! ## Options of a script -/

/-- What `getopts` found. -/
structure FoundOption where
  letter : Char
  /-- The next argument to look at, counted from one. -/
  index : Nat
  /-- Where in the argument before that the next letter is. -/
  offset : Option Nat := none
  isOver : Bool := false

/-- Looks for the next option among arguments, and sets the variable for its value. -/
def nextOption (allowed : Octets) (args : Array Octets) (index : Nat) (offset : Option Nat) :
    Act FoundOption := do
  let silent := allowed.head? = some ':'
  let setValue (os : Octets) : Act Unit := assign "OPTARG".toList (some os)
  let inside :=
    match offset with
    | some offset =>
      if index ≤ 1 then [] else ((args[index - 2]?).getD []).drop offset
    | none => []
  -- the letters to look at, and the argument behind them
  let (letters, next) : Octets × Nat :=
    if !inside.isEmpty then (inside, index)
    else
      match args[index - 1]? with
      | some ('-' :: c :: cs) => (c :: cs, index + 1)
      | _ => ([], index)
  match letters with
  | [] => return { letter := '?', index := next, isOver := true }
  | c :: cs =>
    if inside.isEmpty && letters = ['-'] then
      return { letter := '?', index := next, isOver := true }
    let complain (what : String) : Act Unit := put 2 (what.toList ++ [c])
    match found allowed c with
    | none =>
      if silent then setValue [c]
      else
        complain "Illegal option -"
        put 2 ['\n']
        assign "OPTARG".toList none
      return { letter := '?', index := next, offset := offsetOf args next cs }
    | some false =>
      setValue []
      return { letter := c, index := next, offset := offsetOf args next cs }
    | some true =>
      match cs, args[next - 1]? with
      | [], none =>
        if silent then
          setValue [c]
          return { letter := ':', index := next }
        complain "No arg for -"
        put 2 " option\n".toList
        assign "OPTARG".toList none
        return { letter := '?', index := next }
      | [], some value =>
        setValue value
        return { letter := c, index := next + 1 }
      | cs, _ =>
        setValue cs
        return { letter := c, index := next }
where
  /-- Whether a letter is an option, and if so whether it has a value. -/
  found (allowed : Octets) (c : Char) : Option Bool :=
    match allowed with
    | [] => none
    | q :: rest =>
      if q == c then some (rest.head? = some ':')
      else
        match rest with
        | ':' :: rest => found rest c
        | rest => found rest c
  /-- Where the letters that are left begin in the argument before the next one. -/
  offsetOf (args : Array Octets) (next : Nat) (left : Octets) : Option Nat :=
    some (((args[next - 2]?).getD []).length - left.length)

def getopts : Builtin := fun _ args ↦ do
  match args with
  | allowed :: name :: given =>
    let s ← get
    let args := (if given.isEmpty then s.positional else given).toArray
    let isPast := decide (args.size + 1 < s.optionIndex)
    let index := if isPast then 1 else s.optionIndex
    let offset := if isPast then none else s.optionOffset
    let found ← nextOption allowed args index offset
    assign "OPTIND".toList (some (Octets.ofNat found.index))
    assign name (some [found.letter])
    modify fun s ↦ { s with optionIndex := found.index, optionOffset := found.offset }
    return if found.isOver then 1 else 0
  | _ => fail "Usage: getopts optstring var [arg...]".toList

/-! ## Variables -/

/-- Sets a mark of variables, or lists those that have it. -/
def mark (marks : Marks) (has : Variable → Bool) : Builtin := fun name args ↦ do
  let all (args : List Octets) : Act Nat := do
    if args.isEmpty then printVariables name has
    for arg in args do
      match splitAssignment arg with
      | (name, some value) => assign name (some value) marks
      | (name, none) =>
        match ← known? name with
        | some old =>
          putVariable name
            { old with exported := old.exported || marks.exported
                       readOnly := old.readOnly || marks.readOnly }
        | none => assign name none marks
    return 0
  match args with
  | ['-', '-'] :: rest => all rest
  | ('-' :: c :: _) :: _ =>
    if c != 'p' then fail ("Illegal option -".toList ++ [c])
    all []
  | args => all args

def export_ : Builtin := mark { exported := true } Variable.exported

def readonly : Builtin := mark { readOnly := true } Variable.readOnly

def local_ : Builtin := fun _ args ↦ do
  if (← get).hidden.isEmpty then fail "not in a function".toList
  let (_, args) ← letters "" args
  args.forM (hide ·)
  return 0

def unset : Builtin := fun _ args ↦ do
  let (found, names) ← letters "vf" args
  let isFunction := (found.getLast?.map (·.1)) = some 'f'
  for name in names do
    if isFunction then
      modify fun s ↦ { s with functions := s.functions.filter (·.1 != name) }
    else assign name none
  return 0

/-! ## Aliases -/

def shownAlias (name text : Octets) : Octets := name ++ '=' :: quotedValue text ++ ['\n']

def alias_ : Builtin := fun command args ↦ do
  let s ← get
  if args.isEmpty then
    for (name, text) in s.aliases.mergeSort fun a b ↦ group 39 a.1 ≤ group 39 b.1 do
      print (shownAlias name text)
    return 0
  let mut status := 0
  for arg in args do
    let name := arg.take 1 ++ (arg.drop 1).takeWhile (· != '=')
    let aliases := (← get).aliases
    if name.length < arg.length then
      let text := arg.drop (name.length + 1)
      let changed :=
        if aliases.any (·.1 == name) then
          aliases.map fun e ↦ if e.1 == name then (name, text) else e
        else aliases ++ [(name, text)]
      modify fun s ↦ { s with aliases := changed }
    else
      match aliases.lookup arg with
      | some text => print (shownAlias arg text)
      | none =>
        put 2 (command ++ ": ".toList ++ arg ++ " not found\n".toList)
        status := 1
  return status

def unalias : Builtin := fun command args ↦ do
  let (found, names) ← letters "a" args
  if !found.isEmpty then
    modify fun s ↦ { s with aliases := [] }
    return 0
  let mut status := 0
  for name in names do
    let aliases := (← get).aliases
    if aliases.any (·.1 == name) then
      modify fun s ↦ { s with aliases := aliases.filter (·.1 != name) }
    else
      put 2 (command ++ ": ".toList ++ name ++ " not found\n".toList)
      status := 1
  return status

/-! ## The mask of new files -/

/-- All permissions. -/
def allPermissions : Nat := 0o777

/-- The permissions that changes like `u=rw,go-w` make of others; none if they are no such changes.
`who` are those that the next change is about. -/
def permitted (before : Nat) : Nat → (who now : Nat) → Octets → Option Nat
  | 0, _, now, _ => some now
  | fuel + 1, who, now, os =>
    let named := os.takeWhile fun c ↦ "augo".toList.contains c
    let who := named.foldl (fun n c ↦ n ||| scope c) who
    let who := if who = 0 then 0o111 else who
    match os.drop named.length with
    | [] => some now
    | sign :: rest =>
      if !"=+-".toList.contains sign then none
      else
        let letters := rest.takeWhile fun c ↦ "rwxugoXs".toList.contains c
        let bits := (letters.foldl (fun n c ↦ n ||| bitsOf c) 0 &&& 7) * who
        let now :=
          if sign == '+' then now ||| bits
          else if sign == '-' then now &&& (allPermissions ^^^ bits)
          else bits ||| (now &&& (allPermissions ^^^ (who * 7)))
        match rest.drop letters.length with
        | [] => some now
        | ',' :: more => permitted before fuel 0 now more
        | c :: more =>
          if "=+-".toList.contains c then permitted before fuel who now (c :: more) else none
where
  scope (c : Char) : Nat :=
    match c with
    | 'u' => 0o100
    | 'g' => 0o010
    | 'o' => 0o001
    | _ => 0o111
  bitsOf (c : Char) : Nat :=
    match c with
    | 'r' => 4
    | 'w' => 2
    | 'x' => 1
    | 'u' => before >>> 6
    | 'g' => before >>> 3
    | 'o' => before
    | 'X' => if before &&& 0o111 != 0 then 1 else 0
    | _ => 0

/-- Permissions as they are given by letters. -/
def shownPermissions (permissions : Nat) : Octets :=
  let one (shift : Nat) : Octets :=
    let n := permissions >>> shift
    (if n &&& 4 != 0 then ['r'] else []) ++ (if n &&& 2 != 0 then ['w'] else []) ++
      if n &&& 1 != 0 then ['x'] else []
  "u=".toList ++ one 6 ++ ",g=".toList ++ one 3 ++ ",o=".toList ++ one 0

def umask : Builtin := fun _ args ↦ do
  let (found, args) ← letters "S" args
  let mask := (← doing Doing.task).umask &&& allPermissions
  match args.head? with
  | none =>
    if found.isEmpty then
      let digits := Nat.toDigits 8 mask
      print (List.replicate (4 - digits.length) '0' ++ digits ++ ['\n'])
    else print (shownPermissions (allPermissions ^^^ mask) ++ ['\n'])
  | some os =>
    let new ←
      if (os.head?.map Char.isDigit).getD false then
        if os.all fun c ↦ '0' ≤ c && c ≤ '7' then
          pure (os.foldl (fun n c ↦ n * 8 + (c.toNat - '0'.toNat)) 0 &&& allPermissions)
        else badNumber os
      else
        let permissions := allPermissions ^^^ mask
        match permitted permissions (os.length + 1) 0 permissions os with
        | some n => pure (allPermissions ^^^ (n &&& allPermissions))
        | none => fail ("Illegal mode: ".toList ++ os)
    doing <| Doing.modifyTask fun t ↦ { t with umask := new }
  return 0

/-! ## Limits and times -/

/-- What is limited: the letter, the name, and the size of the units. -/
def limitNames : List (Char × String × Nat) :=
  [('t', "time(seconds)", 1), ('f', "file(blocks)", 512), ('d', "data(kbytes)", 1024),
   ('s', "stack(kbytes)", 1024), ('c', "coredump(blocks)", 512), ('m', "memory(kbytes)", 1024),
   ('l', "locked memory(kbytes)", 1024), ('p', "process", 1), ('n', "nofiles", 1),
   ('v', "vmemory(kbytes)", 1024), ('w', "locks", 1), ('r', "rtprio", 1)]

def shownLimit (n : Option Nat) : Octets :=
  match n with
  | some n => Octets.ofNat n
  | none => "unlimited".toList

def ulimit : Builtin := fun _ args ↦ do
  let (found, args) ← letters "HSatfdscmlpnvwr" args
  let sides := found.filter fun o ↦ o.1 == 'H' || o.1 == 'S'
  let isHard := (sides.getLast?.map (·.1)) = some 'H'
  let isSoft := (sides.getLast?.map (·.1)) = some 'S'
  let all := found.any (·.1 == 'a')
  let kinds := found.filter fun o ↦ !(['H', 'S', 'a'].contains o.1)
  let kind := (kinds.getLast?.map (·.1)).getD 'f'
  let limit (c : Char) : Act (Option Nat) := do
    let (soft, hard) := ((← get).limits.lookup c).getD (none, none)
    return if isHard then hard else soft
  match args with
  | [] =>
    if all then
      for (c, name, _) in limitNames do
        print (name.toList ++ List.replicate (20 - name.length) ' ' ++
          ' ' :: shownLimit (← limit c) ++ ['\n'])
    else print (shownLimit (← limit kind) ++ ['\n'])
  | os :: more =>
    if all || !more.isEmpty then fail "too many arguments".toList
    let n ←
      if os = "unlimited".toList then pure none
      else if os.all Char.isDigit then pure (some ((readDecimal? os).getD 0))
      else fail "bad number".toList
    modify fun s ↦
      { s with limits := s.limits.map fun (c, soft, hard) ↦
          if c == kind then (c, if isHard then soft else n, if isSoft then hard else n)
          else (c, soft, hard) }
  return 0

def times : Builtin := fun _ _ ↦ do
  let line := "0m0.000000s 0m0.000000s\n".toList
  print (line ++ line)
  return 0

end Builtin

end ShellEngine.Machine.Script
