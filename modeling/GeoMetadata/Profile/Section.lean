import GeoMetadata.Assignments
import GeoMetadata.Profile.Derivation
import GeoMetadata.Profile.Layout
import GeoMetadata.Settings

/-!
# The sections of a document

A document of the profile is made up of sections, each of which assigns values to paths from
what it finds in the record.  Geographic elements and ids are numbered through the document,
so a section is told the numbers reached before it and gives those reached after it.  All
other numbers start anew in every section.
-/

namespace GeoMetadata.Profile

open GeoMetadata.Path (Template)

/-- What a document is made from: the settings, the security mapping and the name of the
source system, the record, the present time, and the ids, counted from 1. -/
structure Source where
  settings : Settings
  mapping : SecurityMapping
  systemName : Option String
  record : Record
  now : Time.DateTime
  gmlId : Nat → String

/-- The numbers that run through a document. -/
structure Progress where
  /-- The geographic elements written. -/
  geographic : Nat
  /-- The ids taken. -/
  ids : Nat
  deriving DecidableEq, Repr

/-- A remark on something that a section passed over. -/
inductive Remark where
  /-- The location is not well-known text. -/
  | unreadableLocation (text : String)
  /-- The temporal extents have different numbers of starts and ends. -/
  | unpairedExtents (starts ends : Nat)
  deriving DecidableEq, Repr

/-- A value at an occurrence of a template. -/
structure Write where
  template : Template
  index : Nat
  value : String
  deriving DecidableEq, Repr

/-- The value at a template that has one occurrence. -/
def Write.only (template : Template) (value : String) : Write := ⟨template, 1, value⟩

/-- The path and the value of a write: the index is put into the text of the template. -/
def Write.assignment (write : Write) : Except Path.IndexFault (String × String) := do
  .ok (← Path.fill write.template.text write.index, write.value)

/-- What a section gives. -/
structure Contribution where
  writes : List Write
  progress : Progress
  remarks : List Remark
  deriving DecidableEq, Repr

/-- A part of a document. -/
structure Section where
  name : String
  contribute : Source → Progress → Except ConversionFault Contribution

/-! ## Writes -/

/-- Each value at the next occurrence of a template, from a first one on. -/
def eachFrom (first : Nat) (template : Template) (values : List String) : List Write :=
  (values.zipIdx first).map fun (value, index) => ⟨template, index, value⟩

/-- Each value at the next occurrence of a template. -/
def each (template : Template) (values : List String) : List Write := eachFrom 1 template values

/-- The value at a template, if there is one. -/
def optional (template : Template) (value : Option String) : List Write :=
  value.toList.map (.only template)

/-- A code and its text at an occurrence of a code. -/
def codeWrites (places : Layout.CodePlaces) (index : Nat) (code : ClassificationCode) :
    List Write :=
  [⟨places.codeList, index, code.codeList⟩, ⟨places.codeListValue, index, code.value⟩,
    ⟨places.text, index, code.label⟩]

/-- A code and its code space at an occurrence of an identifier. -/
def identifierWrites (places : Layout.IdentifierPlaces) (index : Nat) (code codeSpace : String) :
    List Write :=
  [⟨places.code, index, code⟩, ⟨places.codeSpace, index, codeSpace⟩]

/-! ## Sections that number nothing through -/

namespace Section

/-- The section that always succeeds with some writes. -/
def plain (name : String) (writes : Source → List Write) : Section where
  name := name
  contribute source progress := .ok ⟨writes source, progress, []⟩

/-- The section that succeeds with some writes unless there is a fault. -/
def checked (name : String) (writes : Source → Except ConversionFault (List Write)) : Section where
  name := name
  contribute source progress := (writes source).map fun writes => ⟨writes, progress, []⟩

end Section

end GeoMetadata.Profile
