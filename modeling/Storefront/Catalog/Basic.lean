import Storefront.Schema.Basic

namespace Storefront

structure Catalog where
  schemas : List Schema
  choices : List Choice

namespace Catalog

def registry (c : Catalog) : Registry :=
  c.choices.foldl Registry.addChoice (c.schemas.foldl Registry.addSchema .empty)

def schema? (c : Catalog) (name : String) : Option Schema :=
  c.schemas.find? fun s ↦ s.name = name

end Catalog

/-! Members by what they hold; the two names are those on the wire and in a record. -/

namespace Field

def text (wire localName : String) : Row × Shape :=
  (⟨wire, localName, .primitive .string⟩, .text)

def nullableText (wire localName : String) : Row × Shape :=
  (⟨wire, localName, .nullable (.primitive .string)⟩, .text)

def count (wire localName : String) : Row × Shape :=
  (⟨wire, localName, .primitive .number⟩, .integer)

def amount (wire localName : String) : Row × Shape :=
  (⟨wire, localName, .primitive .number⟩, .double)

def flag (wire localName : String) : Row × Shape :=
  (⟨wire, localName, .primitive .boolean⟩, .flag)

def date (wire localName : String) : Row × Shape :=
  (⟨wire, localName, .date⟩, .instant)

def nullableDate (wire localName : String) : Row × Shape :=
  (⟨wire, localName, .nullable .date⟩, .instant)

def optionalDate (wire localName : String) : Row × Shape :=
  (⟨wire, localName, .optional .date⟩, .instant)

def anything (wire localName : String) : Row × Shape :=
  (⟨wire, localName, .primitive .any⟩, .anything)

def nullableAnything (wire localName : String) : Row × Shape :=
  (⟨wire, localName, .nullable (.primitive .any)⟩, .anything)

def anythings (wire localName : String) : Row × Shape :=
  (⟨wire, localName, .array (.primitive .any)⟩, .list .anything)

def members (wire localName : String) : Row × Shape :=
  (⟨wire, localName, .map (.primitive .any)⟩, .members)

def choice (wire localName : String) (c : Choice) : Row × Shape :=
  (⟨wire, localName, .named c.name⟩, .choice c)

def record (wire localName : String) (s : Schema) : Row × Shape :=
  (⟨wire, localName, .named s.name⟩, s.shape)

def records (wire localName : String) (s : Schema) : Row × Shape :=
  (⟨wire, localName, .array (.named s.name)⟩, .list s.shape)

end Field

namespace Schema

def make (name : String) (fields : List (Row × Shape)) : Schema :=
  ⟨name, name, none, .ofList fields⟩

end Schema

end Storefront
