/-!
# The attributes of records

The names of the attributes that a conversion reads.
-/

namespace GeoMetadata.Attribute

def id : String := "id"
def title : String := "title"
def description : String := "description"
def created : String := "created"
def modified : String := "modified"
def expiration : String := "expiration"
def language : String := "language"
def location : String := "location"
def downloadUrl : String := "resource-download-url"
def metacardCreated : String := "metacard.created"
def metacardModified : String := "metacard.modified"
def metacardRelated : String := "metacard.associations.related"
def resourceStatus : String := "ext.resource-status"
def publishedDate : String := "ext.date-published"
def altitude : String := "location.altitude-meters"
def countryCode : String := "location.country-code"
def crsCode : String := "location.crs-code"
def start : String := "datetime.start"
def «end» : String := "datetime.end"
def topicCategory : String := "topic.category"
def keyword : String := "topic.keyword"
def mediaFormat : String := "media.format"
def mediaFormatVersion : String := "media.format-version"
def cloudCover : String := "isr.cloud-cover"
def comments : String := "isr.comments"
def imageryRating : String := "isr.niirs"
def classification : String := "security.classification"

/-- The attributes of a party that can be contacted. -/
structure Party where
  name : String
  phone : String
  address : String
  email : String

/-- The publisher of the record. -/
def publisher : Party where
  name := "contact.publisher-name"
  phone := "contact.publisher-phone"
  address := "contact.publisher-address"
  email := "contact.publisher-email"

/-- The point of contact of the resource. -/
def pointOfContact : Party where
  name := "contact.point-of-contact-name"
  phone := "contact.point-of-contact-phone"
  address := "contact.point-of-contact-address"
  email := "contact.point-of-contact-email"

/-- The attributes that protect a resource or its metadata. -/
structure Protection where
  classification : String
  originatorClassification : String
  dissemination : String
  releasability : String

/-- The protection of the resource. -/
def resourceProtection : Protection where
  classification := "ext.security.resource-classification"
  originatorClassification := "ext.security.resource-originator-classification"
  dissemination := "ext.security.resource-dissemination-controls"
  releasability := "ext.security.resource-releasability"

/-- The protection of the metadata. -/
def metadataProtection : Protection where
  classification := "ext.security.metadata-classification"
  originatorClassification := "ext.security.metadata-originator-classification"
  dissemination := "ext.security.metadata-dissemination-controls"
  releasability := "ext.security.metadata-releasability"

/-- The attributes whose values are dates: their texts are read as such. -/
def dated : List String :=
  [created, modified, expiration, metacardCreated, metacardModified, start, «end», publishedDate]

end GeoMetadata.Attribute
