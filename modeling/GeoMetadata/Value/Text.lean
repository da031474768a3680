import GeoMetadata.Value
import GeoMetadata.Number.DecimalText
import GeoMetadata.Number.Integer
import GeoMetadata.Text.Quoted

/-!
# The text of a value

`display` is the text that a value has within other text, and `literal` the text that it has
as an item of a list or a map: there texts are quoted and dates name their parts.  Only an
integer beyond the limit of digits has no text.
-/

namespace GeoMetadata

open Number (IntegerFault integerText)

namespace Time

open Text

/-- A date with hyphens. -/
def Date.display (d : Date) : List Char :=
  padded 4 d.year ++ '-' :: padded 2 d.month ++ '-' :: padded 2 d.day

/-- A time of day with colons, and its microseconds if there are any. -/
def TimeOfDay.display (t : TimeOfDay) : List Char :=
  padded 2 t.hour ++ ':' :: padded 2 t.minute ++ ':' :: padded 2 t.second
    ++ (if t.microsecond = 0 then [] else '.' :: padded 6 t.microsecond)

/-- An offset with its sign, and its seconds if there are any. -/
def Offset.display (z : Offset) : List Char :=
  let n := z.seconds.natAbs
  (if z.seconds < 0 then '-' else '+') :: padded 2 (n / 3600) ++ ':' :: padded 2 (n / 60 % 60)
    ++ (if n % 60 = 0 then [] else ':' :: padded 2 (n % 60))

/-- A date and time with a space between the two. -/
def DateTime.display (t : DateTime) : List Char :=
  t.date.display ++ ' ' :: t.time.display ++ (t.offset.elim [] Offset.display)

/-- Numbers separated by commas. -/
def numberList (numbers : List Nat) : String :=
  String.intercalate ", " (numbers.map toString)

/-- A date as a literal. -/
def Date.literal (d : Date) : String :=
  "datetime.date(" ++ numberList [d.year, d.month, d.day] ++ ")"

/-- An offset as a literal: UTC by name, others in days and seconds. -/
def Offset.literal (z : Offset) : String :=
  if z.seconds = 0 then "datetime.timezone.utc"
  else
    let days := if z.seconds < 0 then "days=-1, " else ""
    let seconds := (z.seconds % secondsPerDay).toNat
    "datetime.timezone(datetime.timedelta(" ++ days ++ "seconds=" ++ toString seconds ++ "))"

/-- A date and time as a literal. The seconds and microseconds stand only as far as they are
not zero. -/
def DateTime.literal (t : DateTime) : String :=
  let clock := t.time
  let seconds := if clock.second = 0 ∧ clock.microsecond = 0 then [] else [clock.second]
  let micros := if clock.microsecond = 0 then [] else [clock.microsecond]
  let numbers := [t.date.year, t.date.month, t.date.day, clock.hour, clock.minute]
    ++ seconds ++ micros
  let zone := t.offset.elim "" fun z => ", tzinfo=" ++ z.literal
  "datetime.datetime(" ++ numberList numbers ++ zone ++ ")"

end Time

namespace Value

mutual

/-- The text of a value as an item of a list or a map. -/
def literal : Value → Except IntegerFault String
  | null => .ok "None"
  | bool true => .ok "True"
  | bool false => .ok "False"
  | int n => integerText n
  | float x => .ok (String.ofList (Number.shortText x))
  | text s => .ok (Text.quoted s)
  | date d => .ok d.literal
  | moment t => .ok t.literal
  | list items => do .ok ("[" ++ String.intercalate ", " (← itemLiterals items) ++ "]")
  | map entries => do .ok ("\x7b" ++ String.intercalate ", " (← entryLiterals entries) ++ "\x7d")

/-- The literals of some values. -/
def itemLiterals : List Value → Except IntegerFault (List String)
  | [] => .ok []
  | item :: rest => do .ok ((← literal item) :: (← itemLiterals rest))

/-- The literals of the entries of a map. -/
def entryLiterals : List (Value × Value) → Except IntegerFault (List String)
  | [] => .ok []
  | (key, value) :: rest => do
    .ok (((← literal key) ++ ": " ++ (← literal value)) :: (← entryLiterals rest))

end

/-- The text of a value within other text. -/
def display : Value → Except IntegerFault String
  | text s => .ok s
  | date d => .ok (String.ofList d.display)
  | moment t => .ok (String.ofList t.display)
  | value => value.literal

end Value

end GeoMetadata
