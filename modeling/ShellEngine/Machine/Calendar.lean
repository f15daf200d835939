import ShellEngine.Text.Floating

/-!
# Dates

The calendar as programs write it, in microseconds since the beginning of 1970, all in one time
zone. A date is given by its parts, in a row of digits (`compact?`), or in the words of everyday
language (`described?`).
-/

namespace ShellEngine.Machine.Calendar

def second : Int := 1000000
def day : Int := 86400 * second

/-- A date by its parts. -/
structure Date where
  year : Int
  month : Int
  dayOfMonth : Int
  deriving DecidableEq

/-- The number of a day. -/
def Date.dayNumber (d : Date) : Int :=
  let months := d.year * 12 + (d.month - 1)
  let year := months.fdiv 12
  let month := months.fmod 12 + 1
  -- years begin in March here, so that the day that may be missing is the last one
  let y := if month ≤ 2 then year - 1 else year
  let m := if month ≤ 2 then month + 9 else month - 3
  y * 365 + y.fdiv 4 - y.fdiv 100 + y.fdiv 400 + (m * 153 + 2).fdiv 5 + d.dayOfMonth - 719469

/-- The date of a day of a number. -/
def dateOf (n : Int) : Date :=
  let z := n + 719468
  let era := z.fdiv 146097
  let doe := z.fmod 146097
  let yoe := (doe - doe / 1460 + doe / 36524 - doe / 146096) / 365
  let doy := doe - (365 * yoe + yoe / 4 - yoe / 100)
  let mp := (5 * doy + 2) / 153
  let month := if mp < 10 then mp + 3 else mp - 9
  { year := yoe + era * 400 + if month ≤ 2 then 1 else 0
    month, dayOfMonth := doy - (153 * mp + 2) / 5 + 1 }

def isLeap (year : Int) : Bool :=
  year.fmod 4 = 0 && (year.fmod 100 != 0 || year.fmod 400 = 0)

/-- The number of days of a month. -/
def daysIn (year month : Int) : Int :=
  if month = 2 then (if isLeap year then 29 else 28)
  else if month = 4 || month = 6 || month = 9 || month = 11 then 30 else 31

/-- Whether there is such a date. -/
def Date.isValid (d : Date) : Bool :=
  1 ≤ d.month && d.month ≤ 12 && 1 ≤ d.dayOfMonth && d.dayOfMonth ≤ daysIn d.year d.month

/-- The number that digits denote. -/
def numberOf (digits : List Char) : Int :=
  digits.foldl (fun n c ↦ n * 10 + (c.toNat - '0'.toNat : Nat)) 0

def isNumber (cs : List Char) : Bool := !cs.isEmpty && cs.all Char.isDigit

/-- The time that a row of digits denotes: perhaps a year, in two or four digits, then month, day,
hour and minute, and perhaps the seconds behind a point. -/
def compact? (now : Int) (os : Octets) : Option Int := do
  let digits := os.takeWhile (· != '.')
  let seconds ←
    match os.drop digits.length with
    | [] => some 0
    | _ :: s => if s.length = 2 && isNumber s then some (numberOf s) else none
  if !isNumber digits then none
  let size := digits.length
  if size != 8 && size != 10 && size != 12 then none
  let year :=
    if size = 8 then (dateOf (now.fdiv day)).year
    else if size = 12 then numberOf (digits.take 4)
    else
      let n := numberOf (digits.take 2)
      if n ≤ 68 then 2000 + n else 1900 + n
  let part (k : Nat) : Int := numberOf ((digits.drop (size - 8 + 2 * k)).take 2)
  let date : Date := { year, month := part 0, dayOfMonth := part 1 }
  if !date.isValid || 23 < part 2 || 59 < part 3 || 60 < seconds then none
  return date.dayNumber * day + (part 2 * 3600 + part 3 * 60 + seconds) * second

/-! ## Words -/

def monthNames : List String :=
  ["january", "february", "march", "april", "may", "june", "july", "august", "september",
   "october", "november", "december"]

def weekdayNames : List String :=
  ["sunday", "monday", "tuesday", "wednesday", "thursday", "friday", "saturday"]

/-- The place of a word among names, of which three letters are enough. -/
def placeOf? (names : List String) (word : String) : Option Nat :=
  names.findIdx? fun name ↦
    name == word || (name.take 3).toString == word

/-- Units of time, in months or in microseconds. -/
def unit? (word : String) : Option (Sum Int Int) :=
  let singular :=
    if word.endsWith "s" && 1 < word.length then (word.dropEnd 1).toString else word
  match singular with
  | "year" => some (.inl 12)
  | "month" => some (.inl 1)
  | "fortnight" => some (.inr (14 * day))
  | "week" => some (.inr (7 * day))
  | "day" => some (.inr day)
  | "hour" => some (.inr (3600 * second))
  | "minute" | "min" => some (.inr (60 * second))
  | "second" | "sec" => some (.inr second)
  | _ => none

/-- A date in the making. -/
structure Draft where
  date : Option Date := none
  /-- The time of the day, in microseconds. -/
  time : Option Int := none
  zone : Int := 0
  months : Int := 0
  shift : Int := 0
  weekday : Option Nat := none

/-- Cuts a text into words, numbers and signs. -/
def tokens : Nat → List Char → List (List Char)
  | 0, _ => []
  | fuel + 1, cs =>
    match cs with
    | [] => []
    | c :: rest =>
      if c == ' ' || c == '\t' || c == '\n' || c == ',' then tokens fuel rest
      else if c.isDigit then
        cs.takeWhile Char.isDigit :: tokens fuel (cs.dropWhile Char.isDigit)
      else if c.isAlpha then
        (cs.takeWhile Char.isAlpha).map Char.toLower :: tokens fuel (cs.dropWhile Char.isAlpha)
      else [c] :: tokens fuel rest

namespace Draft

/-- Adds a number of units. -/
def addUnits (d : Draft) (n : Int) : Sum Int Int → Draft
  | .inl months => { d with months := d.months + n * months }
  | .inr shift => { d with shift := d.shift + n * shift }

/-- Sets the date, which may be set once. -/
def setDate (d : Draft) (year month dayOfMonth : Int) : Option Draft :=
  let date : Date := { year, month, dayOfMonth }
  if d.date.isSome || !date.isValid then none else some { d with date := some date }

/-- Sets the time of the day, which may be set once. -/
def setTime (d : Draft) (hour minute second_ : Int) : Option Draft :=
  if d.time.isSome || 23 < hour || 59 < minute || 60 < second_ then none
  else some { d with time := some ((hour * 3600 + minute * 60 + second_) * second) }

/-- A year of which only two digits are given. -/
def fullYear (digits : List Char) : Int :=
  let n := numberOf digits
  if digits.length ≤ 2 then (if n ≤ 68 then 2000 + n else 1900 + n) else n

/-- Reads a date in words. -/
def read (now : Int) : Nat → Draft → List (List Char) → Option Draft
  | 0, _, _ => none
  | fuel + 1, d, ts =>
    let go := read now fuel
    let thisYear := (dateOf (now.fdiv day)).year
    let isN (t : List Char) : Bool := isNumber t
    let n (t : List Char) : Int := numberOf t
    match ts with
    | [] => some d
    | y :: ['-'] :: m :: ['-'] :: a :: rest =>
      if isN y && isN m && isN a then (d.setDate (fullYear y) (n m) (n a)).bind (go · rest)
      else none
    | m :: ['/'] :: a :: ['/'] :: y :: rest =>
      if isN y && isN m && isN a then
        if 4 ≤ m.length then (d.setDate (n m) (n a) (n y)).bind (go · rest)
        else (d.setDate (fullYear y) (n m) (n a)).bind (go · rest)
      else none
    | m :: ['/'] :: a :: rest =>
      if isN m && isN a then (d.setDate thisYear (n m) (n a)).bind (go · rest) else none
    | h :: [':'] :: m :: [':'] :: s :: ['.'] :: f :: rest =>
      if isN h && isN m && isN s && isN f then (d.setTime (n h) (n m) (n s)).bind (go · rest)
      else none
    | h :: [':'] :: m :: [':'] :: s :: rest =>
      if isN h && isN m && isN s then (d.setTime (n h) (n m) (n s)).bind (go · rest) else none
    | h :: [':'] :: m :: rest =>
      if isN h && isN m then (d.setTime (n h) (n m) 0).bind (go · rest) else none
    | sign :: x :: word :: rest =>
      if (sign = ['+'] || sign = ['-']) && isN x then
        let k := if sign = ['-'] then -(n x) else n x
        match unit? (String.ofList word) with
        | some u => go (d.addUnits k u) rest
        | none =>
          if d.time.isSome && x.length = 4 then
            go { d with zone := d.zone - (if sign = ['-'] then -1 else 1) *
              ((n x).fdiv 100 * 3600 + (n x).fmod 100 * 60) * second } (word :: rest)
          else none
      else if isN sign then
        match unit? (String.ofList x), word with
        | some u, ['a', 'g', 'o'] => go (d.addUnits (-(n sign)) u) rest
        | some u, _ => go (d.addUnits (n sign) u) (word :: rest)
        | none, _ =>
          match placeOf? monthNames (String.ofList x) with
          | some m =>
            if isN word then (d.setDate (fullYear word) (m + 1) (n sign)).bind (go · rest)
            else (d.setDate thisYear (m + 1) (n sign)).bind (go · (word :: rest))
          | none =>
            if sign.length = 8 then
              (d.setDate (n (sign.take 4)) (n ((sign.drop 4).take 2)) (n (sign.drop 6))).bind
                (go · (x :: word :: rest))
            else none
      else
        match placeOf? monthNames (String.ofList sign) with
        | some m =>
          if isN x && isN word && rest.head? != some [':'] then
            (d.setDate (fullYear word) (m + 1) (n x)).bind (go · rest)
          else if isN x then (d.setDate thisYear (m + 1) (n x)).bind (go · (word :: rest))
          else none
        | none => single d go sign (x :: word :: rest)
    | [t, x] =>
      if t = ['@'] && isN x then none
      else if isN t then
        match unit? (String.ofList x) with
        | some u => some (d.addUnits (n t) u)
        | none =>
          match placeOf? monthNames (String.ofList x) with
          | some m => d.setDate thisYear (m + 1) (n t)
          | none => if t.length = 8 then digits d t |>.bind (go · [x]) else none
      else
        match placeOf? monthNames (String.ofList t) with
        | some m => if isN x then d.setDate thisYear (m + 1) (n x) else none
        | none => single d go t [x]
    | [t] => if isN t then digits d t else single d go t []
where
  digits (d : Draft) (t : List Char) : Option Draft :=
    if t.length = 8 then
      d.setDate (numberOf (t.take 4)) (numberOf ((t.drop 4).take 2)) (numberOf (t.drop 6))
    else if t.length = 4 then d.setTime (numberOf (t.take 2)) (numberOf (t.drop 2)) 0
    else if t.length ≤ 2 then d.setTime (numberOf t) 0 0
    else none
  single (d : Draft) (go : Draft → List (List Char) → Option Draft) (t : List Char)
      (rest : List (List Char)) : Option Draft :=
    match String.ofList t with
    | "now" | "today" | "utc" | "gmt" | "z" | "t" => go d rest
    | "yesterday" => go { d with shift := d.shift - day } rest
    | "tomorrow" => go { d with shift := d.shift + day } rest
    | "noon" => (d.setTime 12 0 0).bind (go · rest)
    | "midnight" => (d.setTime 0 0 0).bind (go · rest)
    | "next" | "last" =>
      let sign : Int := if t = "next".toList then 1 else -1
      match rest with
      | word :: rest => (unit? (String.ofList word)).bind fun u ↦ go (d.addUnits sign u) rest
      | [] => none
    | word =>
      match unit? word, placeOf? weekdayNames word with
      | some u, _ => go (d.addUnits (if rest.head? = some "ago".toList then -1 else 1) u)
          (if rest.head? = some "ago".toList then rest.drop 1 else rest)
      | none, some w => go { d with weekday := some w } rest
      | none, none => none

/-- The time that is meant. A date without a time of the day begins that day. -/
def settle (now : Int) (d : Draft) : Int :=
  let today := dateOf (now.fdiv day)
  let date := d.date.getD today
  let dayNumber := { date with month := date.month + d.months }.dayNumber
  let dayNumber :=
    match d.weekday with
    | some w => dayNumber + ((w : Int) - (dayNumber + 4)).fmod 7
    | none => dayNumber
  let time :=
    match d.time with
    | some time => time
    | none => if d.date.isSome || d.weekday.isSome then 0 else now.fmod day
  dayNumber * day + time + d.zone + d.shift

end Draft

/-- The time that words denote, or a number of seconds behind `@`. -/
def described? (now : Int) (os : Octets) : Option Int :=
  match os.dropWhile (· == ' ') with
  | '@' :: rest =>
    let (negative, rest) := if rest.head? = some '-' then (true, rest.drop 1) else (false, rest)
    let whole := rest.takeWhile Char.isDigit
    let fraction? : Option (List Char) :=
      match rest.drop whole.length with
      | [] => some []
      | '.' :: more => if isNumber more then some more else none
      | _ => none
    if whole.isEmpty then none
    else
      fraction?.map fun fraction ↦
        let micro := numberOf ((fraction ++ List.replicate 6 '0').take 6)
        let size := numberOf whole * second + micro
        if negative then -size else size
  | os => ((Draft.read now (os.length + 2) {} (tokens (os.length + 1) os)).map (Draft.settle now))

end ShellEngine.Machine.Calendar
