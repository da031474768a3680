import GeoMetadata.Record
import GeoMetadata.Record.Attribute
import GeoMetadata.Security.Mapping
import GeoMetadata.Text.Case

/-!
# Classifications

There are two vocabularies of classification codes, a fine one and the coarser one of the
government.  Each classification of a document is resolved from a record in two ways, of
which the first that finds a code wins: from an attribute of its own, or from the overall
classification, whose fine code is turned into the government's where that is asked for.
-/

namespace GeoMetadata

/-- A code of a vocabulary: the vocabulary, the code and its label. -/
structure ClassificationCode where
  codeList : String
  value : String
  label : String
  deriving DecidableEq, Repr

namespace Classification

/-- The place where the vocabularies are published. -/
def codeListBase : String := "http://mod.uk/spatial/codelist/mgmp/2.0/"

/-- The vocabulary of the government. -/
def governmentList : String := codeListBase ++ "MGMP_ClassificationUK_GovCode"

/-- The fine vocabulary. -/
def fineList : String := codeListBase ++ "MGMP_ClassificationCode"

/-- The codes of the government and their labels. -/
def governmentLabels : List (String × String) :=
  [("secret", "Secret"), ("official", "Official"), ("officialSensitive", "Official Sensitive"),
    ("topSecret", "Top Secret")]

/-- The fine codes and their labels. -/
def fineLabels : List (String × String) :=
  [("unclassified", "Unclassified"), ("restricted", "Restricted"),
    ("confidential", "Confidential"), ("secret", "Secret"), ("topSecret", "Top Secret")]

/-- The codes of the government that fine codes turn into. -/
def governmentOfFine : List (String × String) :=
  [("unclassified", "official"), ("restricted", "officialSensitive"), ("topSecret", "topSecret"),
    ("secret", "secret")]

/-- The first entry whose key is the text but for case. -/
def findIgnoringCase? (table : List (String × String)) (text : String) :
    Option (String × String) :=
  table.find? fun entry => Text.foldEq text entry.1

/-- The government's code of this exact spelling. -/
def governmentCode? (code : String) : Option ClassificationCode :=
  (entryValue? code governmentLabels).map fun label => ⟨governmentList, code, label⟩

/-- The fine code of this spelling but for case. -/
def fineCode? (text : String) : Option ClassificationCode :=
  (findIgnoringCase? fineLabels text).map fun (code, label) => ⟨fineList, code, label⟩

/-- The government's code that an attribute has by a mapping. -/
def governmentFrom? (attr : String) (mapping : SecurityMapping) (record : Record) :
    Option ClassificationCode :=
  ((record.string? attr).bind mapping.codeOf?).bind governmentCode?

/-- The government's code that the overall classification turns into. -/
def governmentOverall? (record : Record) : Option ClassificationCode :=
  ((record.string? Attribute.classification).bind (findIgnoringCase? governmentOfFine)).bind
    fun (_, code) => governmentCode? code

/-- The fine code of an attribute. -/
def fineFrom? (attr : String) (record : Record) : Option ClassificationCode :=
  (record.string? attr).bind fineCode?

/-- The fine code of the overall classification. -/
def fineOverall? (record : Record) : Option ClassificationCode :=
  fineFrom? Attribute.classification record

/-! ## Chains -/

/-- A way to find the code of a record. -/
abbrev Resolver := Record → Option ClassificationCode

/-- The code that the first successful one of some resolvers finds. -/
def firstResolved? (resolvers : List Resolver) (record : Record) : Option ClassificationCode :=
  resolvers.findSome? fun resolve => resolve record

/-- An attribute first, and then the overall classification, both for the government. -/
def governmentChain (attr : String) (mapping : SecurityMapping) : List Resolver :=
  [governmentFrom? attr mapping, governmentOverall?]

/-- An attribute first, and then the overall classification, both in the fine vocabulary. -/
def fineChain (attr : String) : List Resolver := [fineFrom? attr, fineOverall?]

/-- The government's code of an attribute, or else of the overall classification. -/
def government? (attr : String) (mapping : SecurityMapping) (record : Record) :
    Option ClassificationCode :=
  firstResolved? (governmentChain attr mapping) record

/-- The fine code of an attribute, or else of the overall classification. -/
def fine? (attr : String) (record : Record) : Option ClassificationCode :=
  firstResolved? (fineChain attr) record

end Classification

end GeoMetadata
