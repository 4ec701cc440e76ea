import Storefront.Instant.Basic
import Storefront.Json.Basic
import Storefront.Number.Double
import Storefront.Registry

namespace Storefront

structure Choice where
  name : String
  literals : List String
  deriving Repr, DecidableEq

mutual

inductive Shape where
  | text
  | integer
  | double
  | flag
  | instant
  | anything
  | members
  | choice (c : Choice)
  | list (item : Shape)
  | record (label : String) (fields : Fields)

/-- The members of a record, in order, with the rows that register them. -/
inductive Fields where
  | nil
  | cons (row : Row) (shape : Shape) (rest : Fields)

end

mutual

def Shape.Value : Shape → Type
  | .text => String
  | .integer => Int64
  | .double => Number.Double
  | .flag => Bool
  | .instant => Instant
  | .anything => Json
  | .members => List (String × Json)
  | .choice c => { s : String // s ∈ c.literals }
  | .list item => List item.Value
  | .record _ fields => fields.Record

def Fields.Record : Fields → Type
  | .nil => Unit
  | .cons _ shape rest => Option shape.Value × rest.Record

end

namespace Fields

def ofList (fields : List (Row × Shape)) : Fields :=
  fields.foldr (fun f rest ↦ .cons f.1 f.2 rest) .nil

def rows : Fields → List Row
  | .nil => []
  | .cons row _ rest => row :: rest.rows

def blank : (f : Fields) → f.Record
  | .nil => ()
  | .cons _ _ rest => (none, rest.blank)

end Fields

/-- A typed model: the name under which it is registered, the label that messages use, and its
members. -/
structure Schema where
  name : String
  label : String
  discriminator : Option String
  fields : Fields

namespace Schema

abbrev Record (s : Schema) : Type :=
  s.fields.Record

def shape (s : Schema) : Shape :=
  .record s.label s.fields

def table (s : Schema) : Table :=
  ⟨s.discriminator, s.fields.rows⟩

end Schema

namespace Registry

def addSchema (r : Registry) (s : Schema) : Registry :=
  r.addTable s.name s.table

def addChoice (r : Registry) (c : Choice) : Registry :=
  r.addChoices c.name c.literals

end Registry

end Storefront
