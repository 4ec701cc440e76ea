namespace Storefront

inductive Primitive where
  | string
  | boolean
  | double
  | integer
  | long
  | float
  | number
  | any
  deriving Repr, DecidableEq

namespace Primitive

def all : List Primitive :=
  [.string, .boolean, .double, .integer, .long, .float, .number, .any]

def name : Primitive → String
  | .string => "string"
  | .boolean => "boolean"
  | .double => "double"
  | .integer => "integer"
  | .long => "long"
  | .float => "float"
  | .number => "number"
  | .any => "any"

def ofChars? (cs : List Char) : Option Primitive :=
  all.find? fun p ↦ p.name.toList = cs.map Char.toLower

def ofName? (s : String) : Option Primitive :=
  ofChars? s.toList

end Primitive

/-- The shape of a field: what its text in the schema says. -/
inductive Descriptor where
  | primitive (p : Primitive)
  | date
  | nullable (inner : Descriptor)
  | optional (inner : Descriptor)
  | array (inner : Descriptor)
  | map (inner : Descriptor)
  | named (name : String)
  deriving Repr, DecidableEq

namespace Descriptor

def asNamed? : Descriptor → Option String
  | .named name => some name
  | _ => none

def innermostName? : Descriptor → Option String
  | .named name => some name
  | .nullable d | .optional d | .array d | .map d => d.innermostName?
  | .primitive _ | .date => none

/-- The descriptor under the nullable and optional wrappers around it. -/
def bare : Descriptor → Descriptor
  | .nullable d | .optional d => d.bare
  | d => d

def EveryName (p : String → Prop) : Descriptor → Prop
  | .named name => p name
  | .nullable d | .optional d | .array d | .map d => d.EveryName p
  | .primitive _ | .date => True

instance decidableEveryName (p : String → Prop) [DecidablePred p] :
    (d : Descriptor) → Decidable (d.EveryName p)
  | .named name => inferInstanceAs (Decidable (p name))
  | .nullable d | .optional d | .array d | .map d => decidableEveryName p d
  | .primitive _ | .date => inferInstanceAs (Decidable True)

variable {p : String → Prop} {d : Descriptor}

theorem EveryName.of_bare {e : Descriptor} (h : d.EveryName p) (he : d.bare = e) :
    e.EveryName p := by
  subst he
  induction d with
  | nullable d ih | optional d ih => exact ih h
  | primitive | date | array | map | named => exact h

theorem everyName_of_forall (h : ∀ name, p name) (d : Descriptor) : d.EveryName p := by
  induction d with
  | named name => exact h name
  | nullable d ih | optional d ih | array d ih | map d ih => exact ih
  | primitive | date => trivial

end Descriptor

end Storefront
