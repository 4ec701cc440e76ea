import Storefront.Json.Basic

namespace Storefront.Json

/-- Induction over the items and members of a value. -/
@[elab_as_elim]
theorem induct {motive : Json → Prop} (null : motive .null)
    (boolean : ∀ b, motive (.boolean b)) (number : ∀ lexeme, motive (.number lexeme))
    (string : ∀ s, motive (.string s))
    (array : ∀ items, (∀ v ∈ items, motive v) → motive (.array items))
    (object : ∀ members, (∀ e ∈ members, motive e.2) → motive (.object members))
    (v : Json) : motive v := by
  refine @Json.rec motive (fun items ↦ ∀ v ∈ items, motive v)
    (fun members ↦ ∀ e ∈ members, motive e.2) (fun e ↦ motive e.2) null boolean number string
    array object ?_ ?_ ?_ ?_ (fun _ _ h ↦ h) v
  · exact fun _ h ↦ nomatch h
  · exact fun v vs hv hvs ↦ List.forall_mem_cons.2 ⟨hv, hvs⟩
  · exact fun _ h ↦ nomatch h
  · exact fun e es he hes ↦ List.forall_mem_cons.2 ⟨he, hes⟩

/-- A value occurs in another, at any depth; every value occurs in itself. -/
inductive Within : Json → Json → Prop
  | refl (v : Json) : Within v v
  | item {v w : Json} {items : List Json} : w ∈ items → Within v w → Within v (.array items)
  | member {v : Json} {e : String × Json} {members : List (String × Json)} :
      e ∈ members → Within v e.2 → Within v (.object members)

theorem within_array_iff {v : Json} {items : List Json} :
    Within v (.array items) ↔ v = .array items ∨ ∃ w ∈ items, Within v w := by
  constructor
  · intro h
    cases h with
    | refl => exact .inl rfl
    | item hw h => exact .inr ⟨_, hw, h⟩
  · intro h
    rcases h with rfl | ⟨w, hw, h⟩
    · exact .refl _
    · exact .item hw h

theorem within_object_iff {v : Json} {members : List (String × Json)} :
    Within v (.object members) ↔ v = .object members ∨ ∃ e ∈ members, Within v e.2 := by
  constructor
  · intro h
    cases h with
    | refl => exact .inl rfl
    | member he h => exact .inr ⟨_, he, h⟩
  · intro h
    rcases h with rfl | ⟨e, he, h⟩
    · exact .refl _
    · exact .member he h

section Parts

variable {α : Type} {part : α → Json} {p : α → Prop}

theorem forall_within_array_iff {items : List Json} (h : ∀ a, part a ≠ .array items) :
    (∀ a, Within (part a) (.array items) → p a) ↔ ∀ v ∈ items, ∀ a, Within (part a) v → p a := by
  constructor
  · exact fun hp v hv a hw ↦ hp a (.item hv hw)
  · intro hp a hw
    rcases within_array_iff.1 hw with hw | ⟨v, hv, hw⟩
    · exact absurd hw (h a)
    · exact hp v hv a hw

theorem forall_within_object_iff {members : List (String × Json)}
    (h : ∀ a, part a ≠ .object members) : (∀ a, Within (part a) (.object members) → p a) ↔
      ∀ e ∈ members, ∀ a, Within (part a) e.2 → p a := by
  constructor
  · exact fun hp e he a hw ↦ hp a (.member he hw)
  · intro hp a hw
    rcases within_object_iff.1 hw with hw | ⟨e, he, hw⟩
    · exact absurd hw (h a)
    · exact hp e he a hw

end Parts

def EveryObject (p : List (String × Json) → Prop) (v : Json) : Prop :=
  ∀ members, Within (.object members) v → p members

section EveryObject

variable {p : List (String × Json) → Prop}

theorem everyObject_array {items : List Json} :
    EveryObject p (.array items) ↔ ∀ v ∈ items, EveryObject p v :=
  forall_within_array_iff fun _ h ↦ nomatch h

theorem everyObject_object {members : List (String × Json)} :
    EveryObject p (.object members) ↔ p members ∧ ∀ e ∈ members, EveryObject p e.2 := by
  constructor
  · exact fun h ↦ ⟨h members (.refl _), fun e he inner hw ↦ h inner (.member he hw)⟩
  · intro h inner hw
    obtain ⟨hn, h⟩ := h
    rcases within_object_iff.1 hw with hw | ⟨e, he, hw⟩
    · cases hw
      exact hn
    · exact h e he inner hw

end EveryObject

/-- No object in the value repeats a key. -/
def NoRepeats (v : Json) : Prop :=
  ∀ members, Within (.object members) v → (Entries.keys members).Nodup

@[simp] theorem noRepeats_null : NoRepeats .null :=
  fun _ h ↦ nomatch h

@[simp] theorem noRepeats_boolean (b : Bool) : NoRepeats (.boolean b) :=
  fun _ h ↦ nomatch h

@[simp] theorem noRepeats_number (lexeme : String) : NoRepeats (.number lexeme) :=
  fun _ h ↦ nomatch h

@[simp] theorem noRepeats_string (s : String) : NoRepeats (.string s) :=
  fun _ h ↦ nomatch h

@[simp] theorem noRepeats_array {items : List Json} :
    NoRepeats (.array items) ↔ ∀ v ∈ items, NoRepeats v :=
  everyObject_array

@[simp] theorem noRepeats_object {members : List (String × Json)} :
    NoRepeats (.object members) ↔ (Entries.keys members).Nodup ∧ ∀ e ∈ members, NoRepeats e.2 :=
  everyObject_object

def NoMarks (v : Json) : Prop :=
  v.EveryObject fun members ↦ isMarked members = false

@[simp] theorem noMarks_null : NoMarks .null :=
  fun _ h ↦ nomatch h

@[simp] theorem noMarks_boolean (b : Bool) : NoMarks (.boolean b) :=
  fun _ h ↦ nomatch h

@[simp] theorem noMarks_number (lexeme : String) : NoMarks (.number lexeme) :=
  fun _ h ↦ nomatch h

@[simp] theorem noMarks_string (s : String) : NoMarks (.string s) :=
  fun _ h ↦ nomatch h

@[simp] theorem noMarks_array {items : List Json} :
    NoMarks (.array items) ↔ ∀ v ∈ items, NoMarks v :=
  everyObject_array

@[simp] theorem noMarks_object {members : List (String × Json)} :
    NoMarks (.object members) ↔ isMarked members = false ∧ ∀ e ∈ members, NoMarks e.2 :=
  everyObject_object

def EveryNumber (p : String → Prop) (v : Json) : Prop :=
  ∀ lexeme, Within (.number lexeme) v → p lexeme

section EveryNumber

variable {p : String → Prop}

@[simp] theorem everyNumber_null : EveryNumber p .null :=
  fun _ h ↦ nomatch h

@[simp] theorem everyNumber_boolean (b : Bool) : EveryNumber p (.boolean b) :=
  fun _ h ↦ nomatch h

@[simp] theorem everyNumber_string (s : String) : EveryNumber p (.string s) :=
  fun _ h ↦ nomatch h

@[simp] theorem everyNumber_number {lexeme : String} : EveryNumber p (.number lexeme) ↔ p lexeme := by
  constructor
  · exact fun h ↦ h lexeme (.refl _)
  · intro h other hw
    cases hw
    exact h

@[simp] theorem everyNumber_array {items : List Json} :
    EveryNumber p (.array items) ↔ ∀ v ∈ items, EveryNumber p v :=
  forall_within_array_iff fun _ h ↦ nomatch h

@[simp] theorem everyNumber_object {members : List (String × Json)} :
    EveryNumber p (.object members) ↔ ∀ e ∈ members, EveryNumber p e.2 :=
  forall_within_object_iff fun _ h ↦ nomatch h

end EveryNumber

/-- Every string in the value satisfies a condition; keys do not count. -/
def EveryString (p : String → Prop) (v : Json) : Prop :=
  ∀ s, Within (.string s) v → p s

section EveryString

variable {p : String → Prop}

@[simp] theorem everyString_null : EveryString p .null :=
  fun _ h ↦ nomatch h

@[simp] theorem everyString_boolean (b : Bool) : EveryString p (.boolean b) :=
  fun _ h ↦ nomatch h

@[simp] theorem everyString_number (lexeme : String) : EveryString p (.number lexeme) :=
  fun _ h ↦ nomatch h

@[simp] theorem everyString_string {s : String} : EveryString p (.string s) ↔ p s := by
  constructor
  · exact fun h ↦ h s (.refl _)
  · intro h other hw
    cases hw
    exact h

@[simp] theorem everyString_array {items : List Json} :
    EveryString p (.array items) ↔ ∀ v ∈ items, EveryString p v :=
  forall_within_array_iff fun _ h ↦ nomatch h

@[simp] theorem everyString_object {members : List (String × Json)} :
    EveryString p (.object members) ↔ ∀ e ∈ members, EveryString p e.2 :=
  forall_within_object_iff fun _ h ↦ nomatch h

end EveryString

end Storefront.Json
