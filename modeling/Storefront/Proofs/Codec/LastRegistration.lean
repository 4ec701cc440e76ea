import Mathlib.Data.Finset.Card
import Storefront.Proofs.Codec.Registration

namespace Storefront

/-- What a registration writes to: a name among the tables, or a name among the choices. -/
inductive Slot where
  | table (name : String)
  | choices (name : String)
  deriving Repr, DecidableEq

namespace Registration

def slot : Registration → Slot
  | .table name _ _ => .table name
  | .choices name _ => .choices name

def table? : Registration → Option Table
  | .table _ discriminator fields =>
    some ⟨discriminator, fields.map fun f ↦ ⟨f.1, f.2.1, .parse f.2.2⟩⟩
  | .choices _ _ => none

def values? : Registration → Option (List String)
  | .table _ _ _ => none
  | .choices _ values => some values

def tableName? : Registration → Option String
  | .table name _ _ => some name
  | .choices _ _ => none

def ofSlot (slot : Slot) (steps : List Registration) : List Registration :=
  steps.filter fun step ↦ step.slot = slot

theorem ofSlot_cons (slot : Slot) (step : Registration) (steps : List Registration) :
    ofSlot slot (step :: steps) =
      if step.slot = slot then step :: ofSlot slot steps else ofSlot slot steps := by
  simp only [ofSlot, List.filter_cons, decide_eq_true_eq]

def last? (slot : Slot) (steps : List Registration) : Option Registration :=
  (ofSlot slot steps).getLast?

theorem last?_append_singleton (slot : Slot) (steps : List Registration) (step : Registration) :
    last? slot (steps ++ [step]) = if step.slot = slot then some step else last? slot steps := by
  rw [last?, ofSlot, List.filter_append]
  by_cases h : step.slot = slot
  · simp [h]
  · simp [h, last?, ofSlot]

/-- The same steps in another order, in which those of one slot follow each other as before. -/
def Reordered (steps steps' : List Registration) : Prop :=
  ∀ slot, ofSlot slot steps = ofSlot slot steps'

namespace Reordered

variable {steps steps' : List Registration}

theorem trans {steps'' : List Registration} (h : Reordered steps steps')
    (h' : Reordered steps' steps'') : Reordered steps steps'' :=
  fun slot ↦ (h slot).trans (h' slot)

theorem cons (step : Registration) (h : Reordered steps steps') :
    Reordered (step :: steps) (step :: steps') := by
  intro slot
  rw [ofSlot_cons, ofSlot_cons, h slot]

/-- Neighbours that write to different slots may change places. -/
theorem swap {a b : Registration} (h : a.slot ≠ b.slot) (steps : List Registration) :
    Reordered (a :: b :: steps) (b :: a :: steps) := by
  intro slot
  simp only [ofSlot_cons]
  by_cases ha : a.slot = slot
  · have hb : b.slot ≠ slot := fun hb ↦ h (ha.trans hb.symm)
    rw [if_pos ha, if_neg hb, if_neg hb, if_pos ha]
  · rw [if_neg ha, if_neg ha]

end Reordered

end Registration

namespace Registry

open Registration

section Names

variable {r : Registry}

theorem nodup_names (r : Registry) : r.names.Nodup :=
  r.nodup_tables

theorem length_names (r : Registry) : r.names.length = r.size :=
  List.length_map ..

theorem mem_names_iff {name : String} : name ∈ r.names ↔ r.contains name := by
  constructor
  · intro h
    obtain ⟨e, he, rfl⟩ := List.mem_map.1 h
    exact Option.isSome_of_eq_some (Entries.find?_of_mem r.nodup_tables he)
  · intro h
    obtain ⟨t, ht⟩ := Option.isSome_iff_exists.1 h
    exact List.mem_map_of_mem (mem_tables ht)

theorem mem_names_register {step : Registration} {name : String} :
    name ∈ (r.register step).names ↔ name ∈ r.names ∨ step.tableName? = some name := by
  cases step with
  | table other discriminator fields =>
    rw [tableName?, Option.some.injEq, or_comm, eq_comm]
    exact Entries.mem_keys_put
  | choices other values =>
    rw [tableName?, or_iff_left (Option.some_ne_none name).symm]
    exact Iff.rfl

end Names

theorem table?_register (r : Registry) (step : Registration) (name : String) :
    (r.register step).table? name =
      if step.slot = .table name then step.table? else r.table? name := by
  cases step with
  | table other discriminator fields =>
    simp only [slot, Slot.table.injEq]
    exact Entries.find?_put other name _ r.tables
  | choices other values => rfl

theorem choices?_register (r : Registry) (step : Registration) (name : String) :
    (r.register step).choices? name =
      if step.slot = .choices name then step.values? else r.choices? name := by
  cases step with
  | table other discriminator fields => rfl
  | choices other values =>
    simp only [slot, Slot.choices.injEq]
    exact Entries.find?_put other name values r.choices

theorem ofRegistrations_append_singleton (steps : List Registration) (step : Registration) :
    ofRegistrations (steps ++ [step]) = (ofRegistrations steps).register step :=
  List.foldl_append

/-- A question about one slot is answered by the last step that writes to it. -/
theorem answer_ofRegistrations {β : Type} (answer? : Registry → Option β) {slot : Slot}
    {value? : Registration → Option β} (hempty : answer? empty = none)
    (hstep : ∀ r step,
      answer? (register r step) = if step.slot = slot then value? step else answer? r)
    (steps : List Registration) :
    answer? (ofRegistrations steps) = (last? slot steps).bind value? := by
  -- the last step is taken off, since what it writes hides all that came before it
  induction steps using List.reverseRecOn with
  | nil => exact hempty
  | append_singleton steps step ih =>
    rw [ofRegistrations_append_singleton, hstep, last?_append_singleton, ih]
    split <;> rfl

theorem table?_ofRegistrations (steps : List Registration) (name : String) :
    (ofRegistrations steps).table? name = (last? (.table name) steps).bind Registration.table? :=
  answer_ofRegistrations (·.table? name) rfl (fun r step ↦ table?_register r step name) steps

theorem choices?_ofRegistrations (steps : List Registration) (name : String) :
    (ofRegistrations steps).choices? name = (last? (.choices name) steps).bind values? :=
  answer_ofRegistrations (·.choices? name) rfl (fun r step ↦ choices?_register r step name) steps

theorem mem_names_ofRegistrations {steps : List Registration} {name : String} :
    name ∈ (ofRegistrations steps).names ↔ name ∈ steps.filterMap tableName? := by
  induction steps using List.reverseRecOn with
  | nil => exact Iff.rfl
  | append_singleton steps step ih =>
    rw [ofRegistrations_append_singleton, mem_names_register, ih, List.filterMap_append,
      List.mem_append]
    simp

theorem size_ofRegistrations (steps : List Registration) :
    (ofRegistrations steps).size = (steps.filterMap tableName?).toFinset.card := by
  have hnames : (ofRegistrations steps).names.toFinset = (steps.filterMap tableName?).toFinset := by
    ext name
    rw [List.mem_toFinset, List.mem_toFinset, mem_names_ofRegistrations]
  rw [← hnames, List.toFinset_card_of_nodup (nodup_names _), length_names]

/-- Two registries answer every question alike. Nothing is said about the order of their names. -/
structure SameAnswers (r r' : Registry) : Prop where
  table?_eq : ∀ name, r.table? name = r'.table? name
  contains_eq : ∀ name, r.contains name = r'.contains name
  isChoice_eq : ∀ name, r.isChoice name = r'.isChoice name
  choices?_eq : ∀ name, r.choices? name = r'.choices? name
  isLegal_eq : ∀ name value, r.isLegal name value = r'.isLegal name value
  size_eq : r.size = r'.size
  isEmpty_eq : r.isEmpty = r'.isEmpty
  names_perm : r.names.Perm r'.names
  resolve_eq : ∀ tag? declared, r.resolve tag? declared = r'.resolve tag? declared
  toModel_eq : ∀ v d, r.toModel v d = r'.toModel v d
  toWire_eq : ∀ m d, r.toWire m d = r'.toWire m d

/-- All answers are drawn from the two look-ups. -/
theorem sameAnswers_of_lookups {r r' : Registry} (ht : ∀ name, r.table? name = r'.table? name)
    (hc : ∀ name, r.choices? name = r'.choices? name) : SameAnswers r r' := by
  have hcontains : ∀ name, r.contains name = r'.contains name :=
    fun name ↦ congrArg Option.isSome (ht name)
  have hchoice : ∀ name, r.isChoice name = r'.isChoice name :=
    fun name ↦ congrArg Option.isSome (hc name)
  have hnames : r.names.Perm r'.names := by
    rw [List.perm_ext_iff_of_nodup (nodup_names r) (nodup_names r')]
    intro name
    rw [mem_names_iff, mem_names_iff, hcontains name]
  have hsize : r.size = r'.size := by
    rw [← length_names, ← length_names, hnames.length_eq]
  have h : AgreeOn (fun _ ↦ True) r' r := ⟨fun name _ ↦ ht name, fun name _ ↦ hchoice name⟩
  have htables : r'.EveryTypeName fun _ ↦ True :=
    fun _ _ row _ ↦ row.type.everyName_of_forall fun _ ↦ trivial
  exact {
    table?_eq := ht
    contains_eq := hcontains
    isChoice_eq := hchoice
    choices?_eq := hc
    isLegal_eq := fun name value ↦ by rw [isLegal, hc name, isLegal]
    size_eq := hsize
    isEmpty_eq := by
      rw [Bool.eq_iff_iff, isEmpty, isEmpty, List.isEmpty_iff_length_eq_zero,
        List.isEmpty_iff_length_eq_zero, ← size, ← size, hsize]
    names_perm := hnames
    resolve_eq := fun _ _ ↦ h.resolve_eq trivial fun _ _ _ ↦ trivial
    toModel_eq := fun _ d ↦
      h.toModel_eq htables (fun _ _ ↦ trivial) (d.everyName_of_forall fun _ ↦ trivial)
    toWire_eq := fun _ d ↦
      h.toWire_eq htables (fun _ _ ↦ trivial) (d.everyName_of_forall fun _ ↦ trivial) }

/-- Registrations whose last steps are the same, slot by slot, build the same answers. -/
theorem sameAnswers_of_last {steps steps' : List Registration}
    (h : ∀ slot, last? slot steps = last? slot steps') :
    SameAnswers (ofRegistrations steps) (ofRegistrations steps') := by
  apply sameAnswers_of_lookups
  · intro name
    rw [table?_ofRegistrations, table?_ofRegistrations, h]
  · intro name
    rw [choices?_ofRegistrations, choices?_ofRegistrations, h]

/-- Only the last registration of each name counts, among the tables and among the choices. So steps
that write to different slots may come in any order. -/
theorem answers_of_last_registrations (steps : List Registration) :
    (∀ name, (ofRegistrations steps).table? name =
      (last? (.table name) steps).bind Registration.table?) ∧
    (∀ name, (ofRegistrations steps).choices? name = (last? (.choices name) steps).bind values?) ∧
    (ofRegistrations steps).size = (steps.filterMap tableName?).toFinset.card ∧
    ∀ steps', Reordered steps steps' →
      SameAnswers (ofRegistrations steps) (ofRegistrations steps') := by
  refine ⟨table?_ofRegistrations steps, choices?_ofRegistrations steps, size_ofRegistrations steps,
    fun steps' h ↦ sameAnswers_of_last fun slot ↦ ?_⟩
  rw [last?, last?, h slot]

def rewritten : List Registration :=
  [.table "Node" none [("id", "id", "string")], .choices "Node" ["old"],
    .table "Node" (some "kind") [("kind", "kind", "string"), ("next_node", "next", "Node | null")],
    .choices "Node" ["new"], .table "Leaf" none [("kind", "kind", "string")]]

def rewrittenLater : List Registration :=
  [.choices "Node" ["old"], .table "Node" none [("id", "id", "string")],
    .table "Node" (some "kind") [("kind", "kind", "string"), ("next_node", "next", "Node | null")],
    .table "Leaf" none [("kind", "kind", "string")], .choices "Node" ["new"]]

theorem answers_of_last_registrations_rewritten :
    Reordered rewritten rewrittenLater ∧
    SameAnswers (ofRegistrations rewritten) (ofRegistrations rewrittenLater) ∧
    (ofRegistrations rewritten).choices? "Node" = some ["new"] ∧
    (ofRegistrations rewritten).size = 2 := by
  have horder : Reordered rewritten rewrittenLater :=
    (Reordered.swap (by decide) _).trans
      (.cons _ (.cons _ (.cons _ (.swap (by decide) []))))
  obtain ⟨-, hchoices, hsize, hsame⟩ := answers_of_last_registrations rewritten
  exact ⟨horder, hsame rewrittenLater horder, (hchoices "Node").trans (by decide),
    hsize.trans (by decide)⟩

end Registry

end Storefront
