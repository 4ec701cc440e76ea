import Storefront.Proofs.Codec.WellFormed
import Storefront.Schema.Codec

namespace Storefront

namespace Descriptor

def isPrimitive : Descriptor → Bool
  | .primitive _ => true
  | _ => false

theorem isPrimitive_iff {d : Descriptor} : d.isPrimitive ↔ ∃ p, d = .primitive p := by
  cases d <;> simp [isPrimitive]

end Descriptor

mutual

/-- What is written for a value of the shape is converted under the descriptor part by part, as the
shape has it, and only instants meet a date. -/
def Shape.fits (r : Registry) : Shape → Descriptor → Bool
  | .text, d => d.bare ≠ .date
  | .integer, _ => true
  | .double, _ => true
  | .flag, _ => true
  | .instant, d => d.bare = .date
  | .anything, d => d.bare.isPrimitive
  | .members, d =>
    match d.bare with
    | .map e => e.bare.isPrimitive
    | _ => false
  | .choice _, d => d.bare ≠ .date
  | .list item, d =>
    match d.bare with
    | .array e => item.fits r e
    | _ => false
  | .record _ fields, d =>
    match d.bare with
    | .named name => r.table? name = some ⟨none, fields.rows⟩ && fields.fits r
    | _ => false

def Fields.fits (r : Registry) : Fields → Bool
  | .nil => true
  | .cons row shape rest => shape.fits r row.type && rest.fits r

end

section Fits

variable {r : Registry} {d : Descriptor}

theorem fits_anything_iff : Shape.anything.fits r d ↔ ∃ p, d.bare = .primitive p :=
  Descriptor.isPrimitive_iff

theorem fits_members_iff :
    Shape.members.fits r d ↔ ∃ e p, d.bare = .map e ∧ e.bare = .primitive p := by
  rw [Shape.fits]
  cases d.bare <;> simp [Descriptor.isPrimitive_iff]

theorem fits_list_iff {item : Shape} :
    (Shape.list item).fits r d ↔ ∃ e, d.bare = .array e ∧ item.fits r e := by
  rw [Shape.fits]
  cases d.bare <;> simp

theorem fits_record_iff {label : String} {fields : Fields} :
    (Shape.record label fields).fits r d ↔
      ∃ name, d.bare = .named name ∧ r.table? name = some ⟨none, fields.rows⟩ ∧ fields.fits r := by
  rw [Shape.fits]
  cases d.bare <;> simp

end Fits

theorem Registry.encode_eq {r : Registry} {s : Schema} (hs : s.shape.fits r (.named s.name))
    (x : s.Record) :
    r.encode s x = .ok (r.toWire (.ofJson (s.toJson x)) (.named s.name)) := by
  obtain ⟨name, ⟨⟩, ht, -⟩ := fits_record_iff.1 hs
  exact if_pos (by rw [Registry.contains, ht]; rfl)

theorem Registry.decode_eq {r : Registry} {s : Schema} (hs : s.shape.fits r (.named s.name))
    (w : Json) : r.decode s w =
      (s.ofJson (r.toModel w (.named s.name)).toJson).mapError .mismatch := by
  obtain ⟨name, ⟨⟩, ht, -⟩ := fits_record_iff.1 hs
  exact if_pos (by rw [Registry.contains, ht]; rfl)

namespace Catalog

def interfaces : List Catalog :=
  [Checkout.catalog, Headless.catalog]

variable {c : Catalog}

theorem wellFormed_of_mem_interfaces (hc : c ∈ interfaces) : c.registry.WellFormed := by
  rcases List.mem_pair.1 hc with rfl | rfl
  · exact Registry.wellFormed_checkout
  · exact Registry.wellFormed_headless

theorem fits_of_mem_interfaces (hc : c ∈ interfaces) :
    ∀ s ∈ c.schemas, s.shape.fits c.registry (.named s.name) := by
  rcases List.mem_pair.1 hc with rfl | rfl <;> decide +kernel

example : (interfaces.flatMap schemas).length = 29 := rfl

end Catalog

end Storefront
