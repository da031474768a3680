import GeoMetadata.Security.Classification

/-!
# Fixed values of the profile

The namespaces, code lists and texts that every document of the profile has.
-/

namespace GeoMetadata.Profile

/-- The namespaces that the root declares, by the names of the declaring attributes. -/
def namespaces : List (String × String) :=
  [("xmlns", "http://www.isotc211.org/2005/gmd"),
    ("xmlns:gco", "http://www.isotc211.org/2005/gco"),
    ("xmlns:mgmp", "http://mod.uk/spatial/ns/mgmp/2.0"),
    ("xmlns:gml", "http://www.opengis.net/gml/3.2"),
    ("xmlns:xlink", "http://www.w3.org/1999/xlink")]

/-- The code list of a name. -/
def codeList (name : String) : String := Classification.codeListBase ++ name

def languageList : String := codeList "MGMP_LanguageCode"
def characterSetList : String := codeList "MGMP_CharacterSetCode"
def scopeList : String := codeList "MGMP_ScopeCode"
def roleList : String := codeList "MGMP_RoleCode"
def dateTypeList : String := codeList "MGMP_DateTypeCode"
def progressList : String := codeList "MGMP_ProgressCode"
def associationTypeList : String := codeList "MGMP_AssociationTypeCode"
def contentTypeList : String := codeList "MGMP_CoverageContentTypeCode"

def standardName : String := "MOD Geospatial Metadata Profile"
def standardVersion : String := "2.0"

/-- The status of a resource of which none is given. -/
def defaultStatus : String := "onGoing"

def useLimitation : String := "No known limitations; see Legal and Security Constraints."

def otherConstraints : String :=
  "No known Legal Constraints, please refer to Security Constraints."

def countryCodeSpace : String := "ISO3166-1-a3"
def relatedCodeSpace : String := "UUIDCollectiveProduct"
def verticalCrsHref : String := "http://www.opengis.net/def/crs/EPSG/0/5701"
def verticalCrsTitle : String := "Newlyn Height"
def imageryScale : String := "NIIRS"

/-- The decimals of a bound. -/
def boundDecimals : Nat := 15

/-- The greatest cloud cover, in percent. -/
def greatestCloudCover : Int := 100

/-- The English names of languages by their codes of two and three letters. -/
def languageNames : List (String × String) :=
  [("ar", "Arabic"), ("ara", "Arabic"), ("cy", "Welsh"), ("cym", "Welsh"), ("wel", "Welsh"),
    ("da", "Danish"), ("dan", "Danish"), ("de", "German"), ("deu", "German"), ("ger", "German"),
    ("en", "English"), ("eng", "English"), ("es", "Spanish"), ("spa", "Spanish"),
    ("fa", "Persian"), ("fas", "Persian"), ("per", "Persian"), ("fr", "French"),
    ("fra", "French"), ("fre", "French"), ("ga", "Irish"), ("gle", "Irish"),
    ("gd", "Scottish Gaelic"), ("gla", "Scottish Gaelic"), ("it", "Italian"), ("ita", "Italian"),
    ("ja", "Japanese"), ("jpn", "Japanese"), ("ko", "Korean"), ("kor", "Korean"),
    ("nl", "Dutch"), ("nld", "Dutch"), ("dut", "Dutch"), ("no", "Norwegian"),
    ("nor", "Norwegian"), ("pl", "Polish"), ("pol", "Polish"), ("ps", "Pashto"),
    ("pus", "Pashto"), ("pt", "Portuguese"), ("por", "Portuguese"), ("ru", "Russian"),
    ("rus", "Russian"), ("sv", "Swedish"), ("swe", "Swedish"), ("tr", "Turkish"),
    ("tur", "Turkish"), ("uk", "Ukrainian"), ("ukr", "Ukrainian"), ("ur", "Urdu"),
    ("urd", "Urdu"), ("zh", "Chinese"), ("zho", "Chinese"), ("chi", "Chinese")]

end GeoMetadata.Profile
