import GeoMetadata.Number.Binary64
import GeoMetadata.Time.Calendar

/-!
# Values

The values that records, settings and structured files hold.  Texts, numbers, dates and
moments are told apart: what reads them looks for one kind and passes over the others.
-/

namespace GeoMetadata

/-- A value of a record or of a structured file. The keys of a map are values too, in the
order in which they were given. -/
inductive Value where
  | null
  | bool (b : Bool)
  | int (n : Int)
  | float (x : Number.Binary64)
  | text (s : String)
  | date (d : Time.Date)
  | moment (t : Time.DateTime)
  | list (items : List Value)
  | map (entries : List (Value × Value))
  deriving Inhabited

namespace Value

/-- The value is there. -/
def isNull : Value → Bool
  | null => true
  | _ => false

/-- The value counts as nothing: null, false, zero, or an empty text, list or map. -/
def isEmpty : Value → Bool
  | null => true
  | bool b => !b
  | int n => n = 0
  | float x => x.same (Number.Binary64.zero false)
  | text s => s = ""
  | date _ => false
  | moment _ => false
  | list items => items.isEmpty
  | map entries => entries.isEmpty

/-- The text of a value that is one. -/
def text? : Value → Option String
  | text s => some s
  | _ => none

/-- The moment of a value that is one. -/
def moment? : Value → Option Time.DateTime
  | moment t => some t
  | _ => none

/-- The number on the line that a key stands for: whole numbers, floating-point numbers and
truth values of the same size are one key. -/
def keyNumber? : Value → Option Number.Binary64
  | bool b => some (.ofRatio false b.toNat 1)
  | int n => Number.Binary64.ofInt? n
  | float x => some x
  | _ => none

/-- The two values are one key of a map. -/
def sameKey : Value → Value → Bool
  | null, null => true
  | text s, text t => s == t
  | date d, date e => d == e
  | moment t, moment u =>
    if t.offset.isNone == u.offset.isNone then t.instant == u.instant else false
  | int m, int n => m == n
  | x, y => match x.keyNumber?, y.keyNumber? with
    | some a, some b => a.same b
    | _, _ => false

/-- The value under a text in the entries of a map. -/
def field? (entries : List (Value × Value)) (name : String) : Option Value :=
  entries.findSome? fun (key, value) => if key.text? = some name then some value else none

/-- The entries with a value under a key: in its place if it is there, else at the end. -/
def setEntry (key value : Value) : List (Value × Value) → List (Value × Value)
  | [] => [(key, value)]
  | entry :: rest =>
    if entry.1.sameKey key then (entry.1, value) :: rest else entry :: setEntry key value rest

/-- The map of some entries; of two entries with one key the later gives the value. -/
def ofEntries (entries : List (Value × Value)) : Value :=
  .map (entries.foldl (fun done (key, value) => setEntry key value done) [])

end Value

end GeoMetadata
