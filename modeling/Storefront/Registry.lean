import Storefront.Descriptor.Text
import Storefront.Entries

namespace Storefront

structure Row where
  wire : String
  localName : String
  type : Descriptor
  deriving Repr, DecidableEq

/-- A composite type. The discriminator names the wire member that may choose another type. -/
structure Table where
  discriminator : Option String
  rows : List Row
  deriving Repr, DecidableEq

namespace Table

def rowByWire? (t : Table) (name : String) : Option Row :=
  t.rows.find? fun row ↦ row.wire = name

def rowByLocal? (t : Table) (name : String) : Option Row :=
  t.rows.find? fun row ↦ row.localName = name

end Table

structure Registry where
  tables : List (String × Table)
  choices : List (String × List String)
  nodup_tables : (Entries.keys tables).Nodup
  nodup_choices : (Entries.keys choices).Nodup

namespace Registry

def empty : Registry :=
  ⟨[], [], by simp [Entries.keys], by simp [Entries.keys]⟩

instance : Inhabited Registry := ⟨empty⟩

def table? (r : Registry) (name : String) : Option Table :=
  Entries.find? name r.tables

def contains (r : Registry) (name : String) : Bool :=
  (r.table? name).isSome

def choices? (r : Registry) (name : String) : Option (List String) :=
  Entries.find? name r.choices

def isChoice (r : Registry) (name : String) : Bool :=
  (r.choices? name).isSome

def isLegal (r : Registry) (name value : String) : Bool :=
  match r.choices? name with
  | some values => values.contains value
  | none => false

def names (r : Registry) : List String :=
  Entries.keys r.tables

def size (r : Registry) : Nat :=
  r.tables.length

def isEmpty (r : Registry) : Bool :=
  r.tables.isEmpty

def addTable (r : Registry) (name : String) (table : Table) : Registry :=
  { r with
    tables := Entries.put name table r.tables
    nodup_tables := Entries.nodup_keys_put name table r.nodup_tables }

def addChoices (r : Registry) (name : String) (values : List String) : Registry :=
  { r with
    choices := Entries.put name values r.choices
    nodup_choices := Entries.nodup_keys_put name values r.nodup_choices }

/-- The type that stands for a declared one: a table with a discriminator gives way to the
registered type that the data names in that member. -/
def resolve (r : Registry) (tag? : String → Option String) (declared : String) : String :=
  if (Primitive.ofName? declared).isSome || declared = "Date" || r.isChoice declared then declared
  else match r.table? declared with
  | none => declared
  | some table =>
    match table.discriminator.bind tag? with
    | none => declared
    | some value => if value ≠ "" && r.contains value then value else declared

end Registry

/-- A step in building a registry. Field shapes are given as text. -/
inductive Registration where
  | table (name : String) (discriminator : Option String) (fields : List (String × String × String))
  | choices (name : String) (values : List String)
  deriving Repr

namespace Registry

def register (r : Registry) : Registration → Registry
  | .table name discriminator fields =>
    r.addTable name ⟨discriminator, fields.map fun f ↦ ⟨f.1, f.2.1, Descriptor.parse f.2.2⟩⟩
  | .choices name values => r.addChoices name values

def ofRegistrations (steps : List Registration) : Registry :=
  steps.foldl register empty

end Registry

end Storefront
