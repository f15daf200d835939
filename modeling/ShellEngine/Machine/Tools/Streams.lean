import ShellEngine.Machine.Tools.Options
import ShellEngine.Machine.Tools.Pause

/-!
# Tools that pass on what they read

Whole files one after the other (`cat`), their first parts (`head`), their last parts (`tail`), and
a line over and over (`yes`).
-/

namespace ShellEngine.Machine.Tools

/-- Does something with the descriptor of an input: a dash is the standard input. -/
def withInput {α : Type} (path : Octets) (act : Except Errno Nat → Doing α) : Doing α := do
  if path = ['-'] then act (.ok 0)
  else
    match ← Doing.openFree path .input with
    | .error e => act (.error e)
    | .ok fd =>
      let result ← act (.ok fd)
      Doing.close fd
      return result

/-- The operands, or the standard input if there are none. -/
def inputsOf (operands : List Octets) : List Octets :=
  if operands.isEmpty then [['-']] else operands

/-- The names in a list in which each ends with a zero byte. -/
def namesIn (os : Octets) : List Octets :=
  let names := Octets.splitOn '\x00' os
  if names.getLast? = some [] then names.dropLast else names

/-- Refuses operands beside a file that lists names. -/
def refuseOperand (i : Invocation) (operand : Octets) (code : Nat) : Doing Nat := do
  i.complain ("extra operand ".toList ++ i.quoted operand)
  Doing.put 2 "file operands cannot be combined with --files0-from\n".toList
  i.seeHelp code

/-- Does something to each of some things; false if that failed for one of them. -/
def forAll {α : Type} (act : α → Doing Bool) : List α → Doing Bool
  | [] => return true
  | a :: rest => do
    let ok ← act a
    return (← forAll act rest) && ok

/-- The status of a tool that did its work well, or not so well. -/
def status (ok : Bool) : Nat := if ok then 0 else 1

/-! ## Whole files -/

/-- How files are shown. -/
structure CatStyle where
  numbers : Bool := false
  skipsBlank : Bool := false
  squeezes : Bool := false
  ends : Bool := false
  tabs : Bool := false
  others : Bool := false

namespace CatStyle

def ofOptions (a : Arguments) : CatStyle :=
  a.options.foldl (fun s o ↦
    match o.1 with
    | "number" => { s with numbers := true }
    | "number-nonblank" => { s with numbers := true, skipsBlank := true }
    | "squeeze-blank" => { s with squeezes := true }
    | "show-nonprinting" => { s with others := true }
    | "show-ends" => { s with ends := true }
    | "show-tabs" => { s with tabs := true }
    | "e" => { s with ends := true, others := true }
    | "t" => { s with tabs := true, others := true }
    | "show-all" => { s with ends := true, tabs := true, others := true }
    | _ => s) {}

/-- Whether files are passed on as they are. -/
def isPlain (s : CatStyle) : Bool :=
  !(s.numbers || s.squeezes || s.ends || s.tabs || s.others)

/-- A byte as it is shown: control characters behind a caret, bytes beyond ASCII behind `M-`. -/
def visible (s : CatStyle) (c : Char) : Octets :=
  let n := c.toNat
  if c == '\t' then (if s.tabs then ['^', 'I'] else ['\t'])
  else if !s.others then [c]
  else if n < 32 then ['^', Char.ofNat (n + 64)]
  else if n < 127 then [c]
  else if n = 127 then ['^', '?']
  else if n < 160 then "M-^".toList ++ [Char.ofNat (n - 64)]
  else if n < 255 then "M-".toList ++ [Char.ofNat (n - 128)]
  else "M-^?".toList

end CatStyle

/-- How far the showing of files has come. -/
structure CatState where
  /-- How many line feeds were the last bytes, less one, and at most two; -1 inside a line. -/
  feeds : Int := 0
  line : Nat := 0
  /-- Whether a carriage return is held back. -/
  carriage : Bool := false
  /-- What is to be written, the last byte first. -/
  shown : Octets := []

namespace CatState

def put (s : CatState) (os : Octets) : CatState := { s with shown := os.reverse ++ s.shown }

/-- Numbers a line. -/
def number (s : CatState) : CatState :=
  let line := s.line + 1
  let digits := Octets.ofNat line
  { s with line }.put (List.replicate (6 - digits.length) ' ' ++ digits ++ ['\t'])

/-- Shows a byte. -/
def step (style : CatStyle) (s : CatState) (c : Char) : CatState :=
  if c == '\n' then
    let feeds := min (s.feeds + 1) 2
    let s := { s with feeds }
    if 2 ≤ feeds && style.squeezes then s
    else
      let s := if 0 < feeds && style.numbers && !style.skipsBlank then s.number else s
      let s :=
        if style.ends then
          { s with carriage := false }.put ((if s.carriage then ['^', 'M'] else []) ++ ['$'])
        else s
      s.put ['\n']
  else
    let s := if s.carriage then { s with carriage := false }.put ['\r'] else s
    let s := if 0 ≤ s.feeds && style.numbers then s.number else s
    let s := { s with feeds := -1 }
    if c == '\r' && style.ends && !style.others then { s with carriage := true }
    else s.put (style.visible c)

end CatState

/-- Whether a file to be read is the one that is written to, and would never end. -/
def feedsItself (fd : Nat) (w : World) : Bool :=
  match w.current.streams.lookup fd, w.current.streams.lookup 1 with
  | some f, some g =>
    let input := w.file f
    let output := w.file g
    match input.target, output.target with
    | .node m, .node n =>
      match w.tree.content n with
      | .file contents =>
        let position := if output.appends then contents.length else output.offset
        m = n && input.offset < position
      | _ => false
    | _, _ => false
  | _, _ => false

/-- Passes on blocks up to the end of an input. -/
def passOn (fd : Nat) (show_ : CatState → Octets → CatState) :
    Nat → CatState → Doing (Except Errno Unit × CatState)
  | 0, s => return (.ok (), s)
  | fuel + 1, s => do
    match ← Doing.read fd Doing.blockSize with
    | .error e => return (.error e, s)
    | .ok [] => return (.ok (), s)
    | .ok block =>
      let s := show_ s block
      Doing.out s.shown.reverse
      if (← Doing.task).unwritten.isSome then return (.ok (), s)
      passOn fd show_ fuel { s with shown := [] }

def catOptions : List OptionSpec :=
  [.flag "number-nonblank" "b", { key := "e", letters := ['e'] }, .flag "number" "n",
   .flag "squeeze-blank" "s", { key := "t", letters := ['t'] },
   { key := "u", letters := ['u'] }, .flag "show-nonprinting" "v", .flag "show-ends" "E",
   .flag "show-tabs" "T", .flag "show-all" "A"]

def cat (i : Invocation) : Doing Nat :=
  let a := i.arguments catOptions
  let style := CatStyle.ofOptions a
  i.closing 1 <| i.withArguments a 1 do
    let show_ (s : CatState) (block : Octets) : CatState :=
      if style.isPlain then { s with shown := block.reverse } else block.foldl (·.step style) s
    let one (path : Octets) (s : CatState) : Doing (Bool × CatState) :=
      withInput path fun
        | .error e => do
          i.failWith (i.nameOf path) e
          return (false, s)
        | .ok fd => do
          if ← Doing.look (feedsItself fd) then
            i.complain (i.nameOf path ++ ": input file is output file".toList)
            return (false, s)
          let (result, s) ← passOn fd show_ Doing.maxSteps s
          match result with
          | .ok () => return (true, s)
          | .error e =>
            i.failWith (i.nameOf path) e
            return (false, s)
    let rec all (ok : Bool) (s : CatState) : List Octets → Doing Nat
      | [] => do
        if s.carriage then Doing.out ['\r']
        return status ok
      | path :: rest => do
        let (good, s) ← one path s
        if (← Doing.task).unwritten.isSome then return 1
        all (ok && good) s rest
    let code ← all true {} (inputsOf a.operands)
    let lost := (← Doing.stream? 0).isNone && (inputsOf a.operands).contains ['-']
    if lost then
      i.failWith "closing standard input".toList .badDescriptor
      return 1
    return code

/-! ## Parts of files -/

/-- Which part of a file is wanted: by lines or by bytes, and how many of them. -/
structure Extent where
  byLines : Bool := true
  count : Nat := 10
  /-- For the first part, all but the last `count`; for the last part, from number `count` on. -/
  inverted : Bool := false

/-- The settings of `head` and `tail`. -/
structure PartStyle where
  extent : Extent := {}
  /-- Whether each part has a heading; by default, if there are several. -/
  headings : Option Bool := none
  lineEnd : Char := '\n'
  follows : Bool := false

/-- The name of an input in a heading or a message. -/
def inputName (path : Octets) : Octets := if path = ['-'] then "standard input".toList else path

/-- The heading of a part. -/
def heading (isFirst : Bool) (path : Octets) : Octets :=
  (if isFirst then [] else ['\n']) ++ "==> ".toList ++ inputName path ++ " <==\n".toList

/-- Cuts behind each end of a line; the last line may lack it. -/
def linesBy (lineEnd : Char) (os : Octets) : List Octets :=
  go [] [] os
where
  go (found : List Octets) (line : Octets) : Octets → List Octets
    | [] => (if line.isEmpty then found else line.reverse :: found).reverse
    | c :: rest =>
      if c = lineEnd then go ((c :: line).reverse :: found) [] rest else go found (c :: line) rest

/-- How many bytes the first lines take, as far as they are there, and how many lines are
missing. -/
def lengthOfLines (lineEnd : Char) : Nat → Octets → Nat × Nat
  | 0, _ => (0, 0)
  | count, [] => (0, count)
  | count + 1, c :: rest =>
    let (n, missing) := lengthOfLines lineEnd (if c = lineEnd then count else count + 1) rest
    (n + 1, missing)

/-- The units of an extent. -/
def unitsOf (s : PartStyle) (os : Octets) : List Octets :=
  if s.extent.byLines then linesBy s.lineEnd os else os.map ([·])

/-- All but the last units. -/
def withoutLast (s : PartStyle) (os : Octets) : Octets :=
  let units := unitsOf s os
  (units.take (units.length - s.extent.count)).flatten

/-- The last units, or those from a number on. -/
def lastPart (s : PartStyle) (os : Octets) : Octets :=
  let units := unitsOf s os
  let skipped := if s.extent.inverted then s.extent.count else units.length - s.extent.count
  (units.drop skipped).flatten

/-- The size of the blocks in which a first part is read. -/
def headBlock : Nat := 8192

/-- Passes on the first units. What was read beyond them is given back where that can be done. -/
def passFirst (s : PartStyle) (fd : Nat) : Nat → Nat → Doing (Except Errno Unit)
  | 0, _ | _, 0 => return .ok ()
  | fuel + 1, count => do
    let wanted := if s.extent.byLines then headBlock else min headBlock count
    match ← Doing.read fd wanted with
    | .error e => return .error e
    | .ok [] => return .ok ()
    | .ok block =>
      let (length, missing) :=
        if s.extent.byLines then lengthOfLines s.lineEnd count block
        else (block.length, count - block.length)
      Doing.out (block.take length)
      if length < block.length then
        match ← Doing.stream? fd with
        | some f =>
          Doing.alter fun w ↦
            if w.isSeekable f then w.setOffset f ((w.file f).offset - (block.length - length))
            else w
        | none => pure ()
      passFirst s fd fuel missing

/-- Tells that an input cannot be opened, or read. -/
def cannotOpen (i : Invocation) (path : Octets) (e : Errno) : Doing Unit :=
  i.failWith ("cannot open ".toList ++ i.quoted (inputName path) ++ " for reading".toList) e

def cannotRead (i : Invocation) (path : Octets) (e : Errno) : Doing Unit :=
  i.failWith ("error reading ".toList ++ i.quoted (inputName path)) e

/-- Passes on a part of each input. -/
def passParts (i : Invocation) (s : PartStyle) (operands : List Octets)
    (pass : Nat → Doing (Except Errno Unit)) : Doing Nat := do
  let headed := s.headings.getD (1 < operands.length)
  let rec all (ok isFirst : Bool) : List Octets → Doing Nat
    | [] => return status ok
    | path :: rest => do
      let (good, opened) ← withInput path fun
        | .error e => do
          cannotOpen i path e
          return (false, false)
        | .ok fd => do
          if headed then Doing.out (heading isFirst path)
          match ← pass fd with
          | .ok () => return (true, true)
          | .error e =>
            cannotRead i path e
            return (false, true)
      all (ok && good) (isFirst && !opened) rest
  all true true (inputsOf operands)

/-- The digits, which are options only in their place. -/
def strayDigits : List OptionSpec :=
  "0123456789".toList.map fun c ↦ { key := c.toString, letters := [c] }

/-- Splits options before the first digit that is out of place. -/
def beforeDigit (options : List (String × Option Octets)) :
    List (String × Option Octets) × Option String :=
  let isDigit (o : String × Option Octets) : Bool := o.1.all Char.isDigit
  (options.takeWhile (!isDigit ·), (options.find? isDigit).map (·.1))

def headOptions : List OptionSpec :=
  [.valued "bytes" "c", .valued "lines" "n", .flag "quiet" "q",
   { key := "quiet", words := ["silent"] }, .flag "verbose" "v", .flag "zero-terminated" "z"] ++
    strayDigits

/-- The settings that the old form of the first argument stands for, and the other arguments: a
number behind a dash, with letters behind it. -/
def oldHead (i : Invocation) (s : PartStyle) :
    List Octets → Doing (Except Nat (PartStyle × List Octets))
  | ('-' :: d :: ds) :: rest => do
    if !d.isDigit then return .ok (s, ('-' :: d :: ds) :: rest)
    let digits := (d :: ds).takeWhile Char.isDigit
    let rec marks (s : PartStyle) (unit : Octets) :
        Octets → Doing (Except Nat (PartStyle × Octets))
      | [] => return .ok (s, unit)
      | c :: cs => do
        let byBytes := { s with extent := { s.extent with byLines := false } }
        match c with
        | 'c' => marks byBytes [] cs
        | 'b' | 'k' | 'm' => marks byBytes [c] cs
        | 'l' => marks { s with extent := { s.extent with byLines := true } } unit cs
        | 'q' => marks { s with headings := some false } unit cs
        | 'v' => marks { s with headings := some true } unit cs
        | 'z' => marks { s with lineEnd := '\x00' } unit cs
        | _ => return .error (← i.misuse ("invalid trailing option -- ".toList ++ [c]) 1)
    match ← marks s [] ((d :: ds).drop digits.length) with
    | .error code => return .error code
    | .ok (s, unit) =>
      let complaint := "invalid number of " ++ if s.extent.byLines then "lines" else "bytes"
      match ← i.readSize Size.countLetters complaint (digits ++ unit) with
      | some count => return .ok ({ s with extent := { s.extent with count } }, rest)
      | none => return .error 1
  | args => return .ok (s, args)

/-- Takes the settings of a first or last part from options; gives a status if one of them is
faulty. `mark` is the sign before a number that inverts its meaning. -/
def partStyle (i : Invocation) (mark : Char) (s : PartStyle) :
    List (String × Option Octets) → Doing (Except Nat PartStyle)
  | [] => return .ok s
  | (key, value) :: rest => do
    let value := value.getD []
    match key with
    | "bytes" | "lines" =>
      let byLines := key == "lines"
      let inverted := value.head? = some mark
      let skipped := if value.head? = some '-' then 1 else 0
      let complaint := "invalid number of " ++ if byLines then "lines" else "bytes"
      match ← i.readSize Size.countLetters complaint (value.drop skipped) with
      | none => return .error 1
      | some count =>
        let inverted := inverted || (mark = '+' && s.extent.inverted)
        partStyle i mark { s with extent := { byLines, count, inverted } } rest
    | "quiet" => partStyle i mark { s with headings := some false } rest
    | "verbose" => partStyle i mark { s with headings := some true } rest
    | "zero-terminated" => partStyle i mark { s with lineEnd := '\x00' } rest
    | "follow" => partStyle i mark { s with follows := true } rest
    | "sleep-interval" =>
      if (leadingTime? value).any (·.rest.isEmpty) then partStyle i mark s rest
      else
        i.complain ("invalid number of seconds: ".toList ++ i.shown value)
        return .error 1
    | "pid" =>
      match ← i.readSize "" "invalid PID" value with
      | some _ => partStyle i mark s rest
      | none => return .error 1
    | "max-unchanged-stats" =>
      match ← i.readSize "" "invalid maximum number of unchanged stats between opens" value with
      | some _ => partStyle i mark s rest
      | none => return .error 1
    | _ => partStyle i mark s rest

def head (i : Invocation) : Doing Nat :=
  i.closing 1 do
    match ← oldHead i {} i.args with
    | .error code => return code
    | .ok (s, args) =>
      let a := { i with args }.arguments headOptions
      let (options, stray) := beforeDigit a.options
      match ← partStyle i '-' s options with
      | .error code => return code
      | .ok s =>
        if let some digit := stray then
          return ← i.misuse ("invalid trailing option -- " ++ digit).toList 1
        i.withArguments a 1 <| passParts i s a.operands fun fd ↦ do
          if s.extent.inverted then
            match ← Doing.readAll fd with
            | .error e => return .error e
            | .ok os =>
              Doing.out (withoutLast s os)
              return .ok ()
          else passFirst s fd Doing.maxSteps s.extent.count

def tailOptions : List OptionSpec :=
  [.valued "bytes" "c", .perhaps "follow", { key := "follow", letters := ['f', 'F'] },
   .valued "lines" "n", .valued "max-unchanged-stats", .valued "pid", .flag "quiet" "q",
   { key := "quiet", words := ["silent"] }, .flag "retry", .valued "sleep-interval" "s",
   .flag "verbose" "v", .flag "zero-terminated" "z"] ++ strayDigits

/-- The settings that the old form of the only option stands for: a sign, a number, a unit and a
mark for following. -/
def oldTail? (args : List Octets) : Option (PartStyle × List Octets) :=
  match args with
  | [] => none
  | first :: rest =>
    let fits :=
      match rest with
      | [] => true
      | ['-', '-'] :: more => more.length ≤ 1
      | [operand] => !(operand.head? = some '-' && 1 < operand.length)
      | _ => false
    let sign := first.take 1
    let body := first.drop 1
    let clear := sign = ['+'] || (sign = ['-'] && !body.isEmpty && body != ['c'])
    let digits := body.takeWhile Char.isDigit
    let (unit, follow) := (body.drop digits.length).span fun c ↦ c == 'b' || c == 'c' || c == 'l'
    if !fits || !clear || 1 < unit.length || !(follow.isEmpty || follow = ['f']) then none
    else
      let count := ((readDecimal? digits).getD 10) * if unit = ['b'] then 512 else 1
      let byLines := unit.isEmpty || unit = ['l']
      let extent := { byLines, count, inverted := sign = ['+'] }
      some ({ extent, follows := !follow.isEmpty }, rest)

/-- How many bytes of a file were there when it was last looked at, for each of some descriptors. -/
abbrev Followed := List (Octets × Nat)

/-- Passes on what is added to files, for ever. -/
def follow (several : Bool) (last : Octets) (files : Followed) : Nat → Doing Unit
  | 0 => return
  | fuel + 1 => do
    let grown (w : World) : Option (Octets × Nat) :=
      files.find? fun e ↦
        match (w.current.streams.lookup e.2).map fun f ↦ w.file f with
        | some file =>
          match file.target with
          | .node n =>
            match w.tree.content n with
            | .file contents => file.offset < contents.length
            | _ => false
          | .channel _ => false
        | none => false
    let self ← Doing.self
    Doing.await (fun w ↦ (grown { w with self }).isSome) none
    match ← Doing.look grown with
    | none => return
    | some (path, fd) =>
      match ← Doing.readAll fd with
      | .error _ => return
      | .ok os =>
        if several && path != last then Doing.out (heading false path)
        Doing.out os
        follow several path files fuel

def tail (i : Invocation) : Doing Nat :=
  i.closing 1 do
    let (s, args) := (oldTail? i.args).getD ({}, i.args)
    let a := { i with args }.arguments tailOptions
    let (options, stray) := beforeDigit a.options
    match ← partStyle i '+' s options with
    | .error code => return code
    | .ok s =>
      if let some digit := stray then
        i.complain ("option used in invalid context -- " ++ digit).toList
        return 1
      i.withArguments a 1 do
        if !s.follows then
          if a.has "retry" then
            i.complain "warning: --retry ignored; --retry is useful only when following".toList
          if a.has "pid" then
            i.complain "warning: PID ignored; --pid=PID is useful only when following".toList
        let count := s.extent.count
        let s :=
          if s.extent.inverted then { s with extent := { s.extent with count := count - 1 } } else s
        if count = 0 && !s.extent.inverted && !s.follows then return 0
        let code ← passParts i s a.operands fun fd ↦ do
          match ← Doing.readAll fd with
          | .error e => return .error e
          | .ok os =>
            Doing.out (lastPart s os)
            return .ok ()
        if s.follows then
          let rec openAll : List Octets → Doing Followed
            | [] => return []
            | path :: rest => do
              match ← Doing.openFree path .input with
              | .error _ => openAll rest
              | .ok fd =>
                match ← Doing.readAll fd with
                | .ok _ | .error _ => return (path, fd) :: (← openAll rest)
          let files ← openAll a.operands
          if files.isEmpty then return code
          follow (1 < a.operands.length) (a.operands.getLastD []) files Doing.maxSteps
        return code

/-! ## A line over and over -/

/-- Writes something for ever. -/
def writeForEver (os : Octets) : Nat → Doing Unit
  | 0 => return
  | fuel + 1 => do
    Doing.spend 20
    Doing.out os
    if (← Doing.task).unwritten.isNone then writeForEver os fuel

def yes (i : Invocation) : Doing Nat :=
  let a := i.arguments [] true
  i.withArguments a 1 do
    let words := if a.operands.isEmpty then [['y']] else a.operands
    let line := (List.intersperse [' '] words).flatten ++ ['\n']
    if ← Doing.writeEndlessly 1 line then return 0
    let times := 8192 / line.length + 1
    writeForEver (List.replicate times line).flatten Doing.maxSteps
    match (← Doing.task).unwritten with
    | some e => i.failWith "standard output".toList e
    | none => pure ()
    return 1

end ShellEngine.Machine.Tools
