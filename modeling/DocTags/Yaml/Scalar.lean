import DocTags.Moment
import DocTags.Number.Numeral
import DocTags.Value.Basic

/-!
# Scalars of schema files

Schema files are written in YAML.  A plain scalar is null, a truth value, a number or a date if it
looks like one, and a text otherwise.  What a scalar looks like is decided by its spelling alone; a
scalar that looks like a number or a date and denotes none is an error of its own, beside the
malformed files.
-/

namespace DocTags.Yaml

/-- What is wrong with a file. -/
inductive Fault where
  /-- The text is no document. -/
  | malformed
  /-- The text is a document with a part that has no value. -/
  | valueless (error : Error)
  deriving DecidableEq, Repr

/-! ## Numbers -/

/-- `true` on the characters of a run of digits, in which underscores may group them. -/
def isGrouped (c : Char) : Bool :=
  c.isDigit || c == '_'

/-- The digits of a numeral without the underscores that group them. -/
def ungrouped (cs : List Char) : List Char :=
  cs.filter (· != '_')

/-- The value of a digit in a base up to sixteen. -/
def digit? (base : Nat) (c : Char) : Option Nat :=
  let n :=
    if c.isDigit then c.toNat - '0'.toNat
    else if 'a' ≤ c ∧ c ≤ 'f' then c.toNat - 'a'.toNat + 10
    else if 'A' ≤ c ∧ c ≤ 'F' then c.toNat - 'A'.toNat + 10
    else base
  if n < base then some n else none

/-- The number that digits denote in a base. -/
def ofBase? (base : Nat) (ds : List Char) : Option Nat :=
  (ds.mapM (digit? base)).map fun ns => ns.foldl (fun n d => base * n + d) 0

/-- The base of an integer and its digits, by the letter behind a leading zero. -/
def baseOf : List Char → Nat × List Char
  | '0' :: 'b' :: ds => (2, ds)
  | '0' :: 'o' :: ds => (8, ds)
  | '0' :: 'x' :: ds => (16, ds)
  | ds => (10, ds)

/-- The integer that a plain scalar looks like: it begins with a digit or a sign, and has digits of
its base and underscores behind it.  There must be a digit, and in base ten not too many of them. -/
def integer? (cs : List Char) : Option (Except Illegible Int) :=
  let (negative, ds) := Numeral.readSign cs
  let (base, ds) := baseOf ds
  if cs.head? == some '_' || ds.isEmpty then none
  else
    let ds := ungrouped ds
    (ofBase? base ds).map fun n =>
      if ds.isEmpty then .error (.integer base "")
      else if base == 10 && Numeral.maxDigits < ds.length then .error (.tooManyDigits ds.length)
      else .ok (if negative then -(n : Int) else n)

/-- `true` on the exponent of a floating point number, or on nothing; a number that begins with its
point needs a sign in its exponent. -/
def isExponent (signed : Bool) : List Char → Bool
  | [] => true
  | c :: cs =>
    let ds := (Numeral.readSign cs).2
    (c == 'e' || c == 'E') && Numeral.isDigits ds && !(signed && ds.length == cs.length)

/-- `true` on the spelling of a finite floating point number, behind its sign. -/
def isFinite : List Char → Bool
  | '.' :: cs => cs.head?.any isGrouped && isExponent true (cs.dropWhile isGrouped)
  | cs =>
    cs.head?.any Char.isDigit &&
      match cs.dropWhile isGrouped with
      | [] => false
      | '.' :: cs => isExponent false (cs.dropWhile isGrouped)
      | cs => isExponent false cs

/-- The number that is none: quiet, with its sign set. -/
def notANumber : Binary64 := .ofMagnitude true (Binary64.infinityBits + Nat.pow 2 51)

/-- The floating point number that a plain scalar looks like. -/
def float? (cs : List Char) : Option (Except Illegible Binary64) :=
  let (negative, ds) := Numeral.readSign cs
  if [".inf", ".Inf", ".INF"].contains (String.ofList ds) then
    some (.ok (.ofMagnitude negative Binary64.infinityBits))
  else if [".nan", ".NaN", ".NAN"].contains (String.ofList cs) then some (.ok notANumber)
  else if isFinite ds then
    match Numeral.read? (ungrouped cs) with
    | some n => some (.ok n.toBinary64)
    | none => some (.error (.float (String.ofList ((ungrouped ds).map Char.toLower))))
  else none

/-! ## Dates -/

/-- Reads a number of at least `low` and at most `high` digits. -/
def takeNumber? (low high : Nat) (cs : List Char) : Option (Nat × List Char) :=
  let ds := (cs.take high).takeWhile Char.isDigit
  if ds.length < low then none else some (Numeral.ofDigits ds, cs.drop ds.length)

/-- Reads a given character. -/
def takeChar? (c : Char) : List Char → Option (List Char)
  | [] => none
  | d :: cs => if c == d then some cs else none

/-- A space or a tab. -/
def isBlank (c : Char) : Bool :=
  c == ' ' || c == '\t'

/-- Reads what divides a date from a time: the letter `T`, or blanks. -/
def takeDivision? : List Char → Option (List Char)
  | [] => none
  | c :: cs =>
    if c == 'T' || c == 't' then some cs
    else if isBlank c then some (cs.dropWhile isBlank)
    else none

/-- The digits of a fraction of a second as millionths, rounded, and the digits behind them. -/
def takeFraction : List Char → Nat × List Char
  | '.' :: cs =>
    let ds := cs.takeWhile Char.isDigit
    let kept := ds.take 6
    let micro := Numeral.ofDigits (kept ++ List.replicate (6 - kept.length) '0')
    let up := ds[6]?.any fun d => '5' ≤ d
    (if up then micro + 1 else micro, cs.dropWhile Char.isDigit)
  | cs => (0, cs)

/-- Reads an offset up to the end of the text, in seconds; none is written for local times.  A time
that was rounded up to a full second is told by `carry`, which counts as part of the offset. -/
def offset? (carry : Bool) (cs : List Char) : Option Int :=
  let second : Int := if carry then 1 else 0
  match cs.dropWhile isBlank with
  | [] => if cs.isEmpty then some (-second) else none
  | ['Z'] => some (-second)
  | sign :: cs =>
    if sign != '+' && sign != '-' then none
    else do
      let (hours, cs) ← takeNumber? 1 2 cs
      let (minutes, cs) ← match cs with
        | ':' :: cs => takeNumber? 2 2 cs
        | cs => some (0, cs)
      if !cs.isEmpty then none
      else
        let total : Int := 3600 * hours + 60 * minutes + second
        some (if sign == '-' then -total else total)

/-- The moment that a plain scalar looks like. -/
def moment? (cs : List Char) : Option (Except Error Moment) := do
  let (year, cs) ← takeNumber? 4 4 cs
  let cs ← takeChar? '-' cs
  let (month, afterMonth) ← takeNumber? 1 2 cs
  let cs' ← takeChar? '-' afterMonth
  let (day, afterDay) ← takeNumber? 1 2 cs'
  if afterDay.isEmpty then
    if cs.length == 5 && cs'.length == 2 then some (Moment.date year month day) else none
  else
    let cs ← takeDivision? afterDay
    let (hour, cs) ← takeNumber? 1 2 cs
    let (minute, cs) ← takeNumber? 2 2 (← takeChar? ':' cs)
    let (second, cs) ← takeNumber? 2 2 (← takeChar? ':' cs)
    let (micro, cs) := takeFraction cs
    let carry := micro == 1000000
    let offset ← offset? carry cs
    let time : TimeOfDay := { hour, minute, second, micro := if carry then 0 else micro }
    some do (← Moment.dateTime year month day time).back offset

/-! ## Plain scalars -/

/-- The value of a plain scalar.  The marks of merging and of a default value have none. -/
def ofPlain (cs : List Char) : Except Fault Value :=
  let text := String.ofList cs
  let valued {α : Type} (make : α → Value) (v : Except Error α) : Except Fault Value :=
    (v.map make).mapError .valueless
  if ["", "~", "null", "Null", "NULL"].contains text then .ok .null
  else if ["true", "True", "TRUE"].contains text then .ok (.bool true)
  else if ["false", "False", "FALSE"].contains text then .ok (.bool false)
  else if text == "<<" || text == "=" then .error .malformed
  else
    match float? cs, integer? cs, moment? cs with
    | some x, _, _ => valued (fun x => .float x 0) (x.mapError .illegible)
    | none, some n, _ => valued .int (n.mapError .illegible)
    | none, none, some m => valued .moment m
    | none, none, none => .ok (.str text)

end DocTags.Yaml
