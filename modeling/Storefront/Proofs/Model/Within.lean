import Storefront.Model
import Storefront.Proofs.Entries
import Storefront.Proofs.Json.Within

namespace Storefront.Model

/-- Induction over the items and members of a value. -/
@[elab_as_elim]
theorem induct {motive : Model → Prop} (null : motive .null)
    (boolean : ∀ b, motive (.boolean b)) (number : ∀ lexeme, motive (.number lexeme))
    (string : ∀ s, motive (.string s)) (date : ∀ i, motive (.date i))
    (array : ∀ items, (∀ m ∈ items, motive m) → motive (.array items))
    (object : ∀ members, (∀ e ∈ members, motive e.2) → motive (.object members))
    (m : Model) : motive m := by
  refine @Model.rec motive (fun items ↦ ∀ m ∈ items, motive m)
    (fun members ↦ ∀ e ∈ members, motive e.2) (fun e ↦ motive e.2) null boolean number string date
    array object ?_ ?_ ?_ ?_ (fun _ _ h ↦ h) m
  · exact fun _ h ↦ nomatch h
  · exact fun m ms hm hms ↦ List.forall_mem_cons.2 ⟨hm, hms⟩
  · exact fun _ h ↦ nomatch h
  · exact fun e es he hes ↦ List.forall_mem_cons.2 ⟨he, hes⟩

inductive Within : Model → Model → Prop
  | refl (m : Model) : Within m m
  | item {m n : Model} {items : List Model} : n ∈ items → Within m n → Within m (.array items)
  | member {m : Model} {e : String × Model} {members : List (String × Model)} :
      e ∈ members → Within m e.2 → Within m (.object members)

theorem within_array_iff {m : Model} {items : List Model} :
    Within m (.array items) ↔ m = .array items ∨ ∃ n ∈ items, Within m n := by
  constructor
  · intro h
    cases h with
    | refl => exact .inl rfl
    | item hn h => exact .inr ⟨_, hn, h⟩
  · intro h
    rcases h with rfl | ⟨n, hn, h⟩
    · exact .refl _
    · exact .item hn h

theorem within_object_iff {m : Model} {members : List (String × Model)} :
    Within m (.object members) ↔ m = .object members ∨ ∃ e ∈ members, Within m e.2 := by
  constructor
  · intro h
    cases h with
    | refl => exact .inl rfl
    | member he h => exact .inr ⟨_, he, h⟩
  · intro h
    rcases h with rfl | ⟨e, he, h⟩
    · exact .refl _
    · exact .member he h

section Parts

variable {α : Type} {part : α → Model} {p : α → Prop}

theorem forall_within_array_iff {items : List Model} (h : ∀ a, part a ≠ .array items) :
    (∀ a, Within (part a) (.array items) → p a) ↔ ∀ m ∈ items, ∀ a, Within (part a) m → p a := by
  constructor
  · exact fun hp m hm a hw ↦ hp a (.item hm hw)
  · intro hp a hw
    rcases within_array_iff.1 hw with hw | ⟨m, hm, hw⟩
    · exact absurd hw (h a)
    · exact hp m hm a hw

theorem forall_within_object_iff {members : List (String × Model)}
    (h : ∀ a, part a ≠ .object members) : (∀ a, Within (part a) (.object members) → p a) ↔
      ∀ e ∈ members, ∀ a, Within (part a) e.2 → p a := by
  constructor
  · exact fun hp e he a hw ↦ hp a (.member he hw)
  · intro hp a hw
    rcases within_object_iff.1 hw with hw | ⟨e, he, hw⟩
    · exact absurd hw (h a)
    · exact hp e he a hw

end Parts

def EveryDate (p : Instant → Prop) (m : Model) : Prop :=
  ∀ i, Within (.date i) m → p i

def NoDates (m : Model) : Prop :=
  EveryDate (fun _ ↦ False) m

def NoRepeats (m : Model) : Prop :=
  ∀ members, Within (.object members) m → (Entries.keys members).Nodup

section EveryDate

variable {p : Instant → Prop}

@[simp] theorem everyDate_null : EveryDate p .null :=
  fun _ h ↦ nomatch h

@[simp] theorem everyDate_boolean (b : Bool) : EveryDate p (.boolean b) :=
  fun _ h ↦ nomatch h

@[simp] theorem everyDate_number (lexeme : String) : EveryDate p (.number lexeme) :=
  fun _ h ↦ nomatch h

@[simp] theorem everyDate_string (s : String) : EveryDate p (.string s) :=
  fun _ h ↦ nomatch h

@[simp] theorem everyDate_date {i : Instant} : EveryDate p (.date i) ↔ p i := by
  constructor
  · exact fun h ↦ h i (.refl _)
  · intro h j hj
    cases hj
    exact h

@[simp] theorem everyDate_array {items : List Model} :
    EveryDate p (.array items) ↔ ∀ m ∈ items, EveryDate p m :=
  forall_within_array_iff fun _ h ↦ nomatch h

@[simp] theorem everyDate_object {members : List (String × Model)} :
    EveryDate p (.object members) ↔ ∀ e ∈ members, EveryDate p e.2 :=
  forall_within_object_iff fun _ h ↦ nomatch h

end EveryDate

/-- Every string in the value satisfies a condition; keys and dates do not count. -/
def EveryString (p : String → Prop) (m : Model) : Prop :=
  ∀ s, Within (.string s) m → p s

section EveryString

variable {p : String → Prop}

@[simp] theorem everyString_null : EveryString p .null :=
  fun _ h ↦ nomatch h

@[simp] theorem everyString_boolean (b : Bool) : EveryString p (.boolean b) :=
  fun _ h ↦ nomatch h

@[simp] theorem everyString_number (lexeme : String) : EveryString p (.number lexeme) :=
  fun _ h ↦ nomatch h

@[simp] theorem everyString_date (i : Instant) : EveryString p (.date i) :=
  fun _ h ↦ nomatch h

@[simp] theorem everyString_string {s : String} : EveryString p (.string s) ↔ p s := by
  constructor
  · exact fun h ↦ h s (.refl _)
  · intro h other hw
    cases hw
    exact h

@[simp] theorem everyString_array {items : List Model} :
    EveryString p (.array items) ↔ ∀ m ∈ items, EveryString p m :=
  forall_within_array_iff fun _ h ↦ nomatch h

@[simp] theorem everyString_object {members : List (String × Model)} :
    EveryString p (.object members) ↔ ∀ e ∈ members, EveryString p e.2 :=
  forall_within_object_iff fun _ h ↦ nomatch h

end EveryString

@[simp] theorem noRepeats_string (s : String) : NoRepeats (.string s) :=
  fun _ h ↦ nomatch h

@[simp] theorem noRepeats_array {items : List Model} :
    NoRepeats (.array items) ↔ ∀ m ∈ items, NoRepeats m :=
  forall_within_array_iff fun _ h ↦ nomatch h

@[simp] theorem noRepeats_object {members : List (String × Model)} :
    NoRepeats (.object members) ↔
      (Entries.keys members).Nodup ∧ ∀ e ∈ members, NoRepeats e.2 := by
  constructor
  · exact fun h ↦ ⟨h members (.refl _), fun e he inner hw ↦ h inner (.member he hw)⟩
  · intro h inner hw
    obtain ⟨hn, h⟩ := h
    rcases within_object_iff.1 hw with hw | ⟨e, he, hw⟩
    · cases hw
      exact hn
    · exact h e he inner hw

end Storefront.Model
