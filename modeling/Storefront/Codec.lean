import Storefront.Instant.Reader
import Storefront.Model
import Storefront.Registry

namespace Storefront

namespace Json

def tag? (v : Json) (member : String) : Option String :=
  (v.get? member).bind asString?

end Json

namespace Model

def tag? (m : Model) (member : String) : Option String :=
  (m.get? member).bind asString?

/-- A wire text where a date is declared; one that cannot be read stays a string. -/
def ofDateText (s : String) : Model :=
  match Instant.parse? s with
  | some i => .date i
  | none => .string s

def wireDateText (s : String) : String :=
  match Instant.parse? s with
  | some i => i.text
  | none => s

end Model

namespace Registry

def wireTable? (r : Registry) (v : Json) (declared : String) : Option Table :=
  let actual := r.resolve v.tag? declared
  if r.isChoice actual then none else r.table? actual

def modelTable? (r : Registry) (m : Model) (declared : String) : Option Table :=
  if r.isChoice declared || !r.contains declared then none
  else r.table? (r.resolve m.tag? declared)

mutual

/-- Read a wire value. What does not have the declared shape is kept as it is. The descriptor of a
member is known only once a table is chosen, so the parts of a value wait for theirs. -/
def toModel (r : Registry) : Json → Descriptor → Model
  | .null, _ => .null
  | .boolean b, _ => .boolean b
  | .number lexeme, _ => .number lexeme
  | .string s, d =>
    match d.bare with
    | .date => .ofDateText s
    | _ => .string s
  | .array items, d =>
    match d.bare with
    | .array e => .array ((itemReaders r items).map fun read ↦ read e)
    | _ => .ofJson (.array items)
  | .object members, d =>
    match d.bare with
    | .map e => .object ((memberReaders r members).map fun (k, read) ↦ (k, read e))
    | .named name =>
      match r.wireTable? (.object members) name with
      | some table => .object (table.rows.filterMap fun row ↦
          (Entries.find? row.wire (memberReaders r members)).map fun read ↦
            (row.localName, read row.type))
      | none => .ofJson (.object members)
    | _ => .ofJson (.object members)

def itemReaders (r : Registry) : List Json → List (Descriptor → Model)
  | [] => []
  | v :: vs => (fun d ↦ toModel r v d) :: itemReaders r vs

def memberReaders (r : Registry) : List (String × Json) → List (String × (Descriptor → Model))
  | [] => []
  | (k, v) :: ms => (k, fun d ↦ toModel r v d) :: memberReaders r ms

end

mutual

def toWire (r : Registry) : Model → Descriptor → Json
  | .null, _ => .null
  | .boolean b, _ => .boolean b
  | .number lexeme, _ => .number lexeme
  | .string s, d =>
    match d.bare with
    | .date => .string (Model.wireDateText s)
    | _ => .string s
  | .date i, _ => .string i.text
  | .array items, d =>
    match d.bare with
    | .array e => .array ((itemWriters r items).map fun write ↦ write e)
    | _ => (Model.array items).toJson
  | .object members, d =>
    match d.bare with
    | .map e =>
      .object (Entries.ofList ((memberWriters r members).map fun (k, write) ↦ (k, write e)))
    | .named name =>
      match r.modelTable? (.object members) name with
      | some table => .object (Entries.ofList (table.rows.filterMap fun row ↦
          (Entries.find? row.localName (memberWriters r members)).map fun write ↦
            (row.wire, write row.type)))
      | none => (Model.object members).toJson
    | _ => (Model.object members).toJson

def itemWriters (r : Registry) : List Model → List (Descriptor → Json)
  | [] => []
  | v :: vs => (fun d ↦ toWire r v d) :: itemWriters r vs

def memberWriters (r : Registry) : List (String × Model) → List (String × (Descriptor → Json))
  | [] => []
  | (k, v) :: ms => (k, fun d ↦ toWire r v d) :: memberWriters r ms

end

end Registry

end Storefront
