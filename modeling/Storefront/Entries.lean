namespace Storefront.Entries

variable {α β : Type}

def find? (key : String) : List (String × α) → Option α
  | [] => none
  | (k, v) :: rest => if k = key then some v else find? key rest

/-- Write an entry: a key that is present keeps its place and takes the new value, a new key goes
to the end. -/
def put (key : String) (value : α) : List (String × α) → List (String × α)
  | [] => [(key, value)]
  | (k, v) :: rest => if k = key then (k, value) :: rest else (k, v) :: put key value rest

def ofList (entries : List (String × α)) : List (String × α) :=
  entries.foldl (fun acc e ↦ put e.1 e.2 acc) []

def keys (entries : List (String × α)) : List String :=
  entries.map Prod.fst

theorem find?_put_self (key : String) (value : α) (entries : List (String × α)) :
    find? key (put key value entries) = some value := by
  induction entries with
  | nil => simp [put, find?]
  | cons e rest ih =>
    obtain ⟨k, v⟩ := e
    by_cases h : k = key <;> simp [put, find?, h, ih]

theorem find?_put_of_ne {key other : String} (h : key ≠ other) (value : α)
    (entries : List (String × α)) : find? other (put key value entries) = find? other entries := by
  induction entries with
  | nil => simp [put, find?, h]
  | cons e rest ih =>
    obtain ⟨k, v⟩ := e
    by_cases hk : k = key
    · subst hk
      simp [put, find?, h]
    · simp only [put, hk, if_false, find?, ih]

theorem mem_keys_put {key other : String} {value : α} {entries : List (String × α)} :
    other ∈ keys (put key value entries) ↔ other = key ∨ other ∈ keys entries := by
  induction entries with
  | nil => simp [put, keys]
  | cons e rest ih =>
    obtain ⟨k, v⟩ := e
    by_cases h : k = key
    · subst h
      simp [put, keys]
    · simp only [put, h, if_false, keys, List.map_cons, List.mem_cons] at ih ⊢
      rw [ih, or_left_comm]

theorem nodup_keys_put (key : String) (value : α) {entries : List (String × α)}
    (h : (keys entries).Nodup) : (keys (put key value entries)).Nodup := by
  induction entries with
  | nil => simp [put, keys]
  | cons e rest ih =>
    obtain ⟨k, v⟩ := e
    simp only [keys, List.map_cons, List.nodup_cons] at h
    by_cases hk : k = key
    · simpa [put, keys, hk] using h
    · simp only [put, hk, if_false, keys, List.map_cons, List.nodup_cons]
      refine ⟨fun hmem ↦ ?_, ih h.2⟩
      rcases mem_keys_put.1 hmem with h' | h'
      · exact hk h'
      · exact h.1 h'

end Storefront.Entries
