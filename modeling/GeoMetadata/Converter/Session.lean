import GeoMetadata.Converter

/-!
# Sessions

A converter is kept and called again and again: properties are applied to it, its security mapping
and the name of its source system are set, and records are converted, in any order.  A call changes
the converter step by step.  One that fails leaves it as it is at this point.
-/

namespace GeoMetadata.Converter

/-- Properties whose name of the source system, if they have one, is a text or null. -/
structure Properties where
  entries : List (Value × Value)
  /-- There is no name of another kind. -/
  name_isText : ∀ value, Value.field? entries systemProperty = some value →
    value.isNull ∨ value.text?.isSome

/-- Why a call failed. -/
inductive CallFault where
  | property (fault : PropertyFault)
  | conversion (fault : Fault)

/-- A step of a call, which reads and changes the converter. -/
abbrev Step := EStateM CallFault Converter

/-- Goes on with what was computed, or fails with its fault. -/
def attempt {ε α : Type} (wrap : ε → CallFault) : Except ε α → Step α
  | .ok a => pure a
  | .error fault => throw (wrap fault)

/-- A call of a converter. -/
inductive Call where
  /-- Applies properties. -/
  | refresh (properties : Properties)
  /-- Sets the security mapping from entries, of which some may be no texts. -/
  | setMapping (entries : List Value)
  /-- Sets the name of the source system. -/
  | setSystemName (name : Option String)
  /-- Converts a record at some time, with some ids. -/
  | convert (now : Time.DateTime) (gmlId : Nat → String) (record : Record)

namespace Call

/-- The steps of a call, which gives the assignments of a record if it converts one. Properties are
written as a text first, and their mapping is set before the name of their source system. -/
def perform : Call → Step (Option Assignments)
  | refresh properties => do
    let _ ← attempt .property (propertiesText properties.entries)
    let mapping := (Value.field? properties.entries mappingProperty).getD .null
    unless mapping.isEmpty do
      let entries ← attempt .property (mappingEntries mapping)
      modify (·.withMapping entries)
    modify (·.withSystemName
      ((Value.field? properties.entries systemProperty).bind Value.text?))
    pure none
  | setMapping values => do
    let entries ← attempt (fun fault => .property (.entry fault))
      (SecurityMapping.entriesOf values)
    modify (·.withMapping entries)
    pure none
  | setSystemName name => do
    modify (·.withSystemName name)
    pure none
  | convert now gmlId record => do
    let converter ← get
    let found ← attempt .conversion (assignments (converter.source now gmlId record))
    pure (some found)

/-- What a call gives. -/
def outcome (call : Call) (converter : Converter) : Except CallFault (Option Assignments) :=
  match call.perform converter with
  | .ok found _ => .ok found
  | .error fault _ => .error fault

/-- The converter after a call, even if it failed. -/
def next (call : Call) (converter : Converter) : Converter :=
  match call.perform converter with
  | .ok _ reached => reached
  | .error _ reached => reached

end Call

/-- The converter after some calls. -/
def afterCalls (converter : Converter) (calls : List Call) : Converter :=
  calls.foldl (fun reached call => call.next reached) converter

end GeoMetadata.Converter
