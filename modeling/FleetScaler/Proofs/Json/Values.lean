import FleetScaler.Json.Basic

/-!
# What holds throughout a value

`Every p v` says that `p` holds of the value `v` and of all values nested in it. Numbers that a
reader hands on are held in 64 bits, which `Fits` says of a single value.
-/

namespace FleetScaler.Json

mutual

/-- The predicate holds of the value and of everything in it. -/
def Every (p : Json → Prop) : Json → Prop
  | .array items => p (.array items) ∧ EveryItem p items
  | .object fields => p (.object fields) ∧ EveryField p fields
  | v => p v

/-- The predicate holds of the items and of everything in them. -/
def EveryItem (p : Json → Prop) : List Json → Prop
  | [] => True
  | v :: rest => Every p v ∧ EveryItem p rest

/-- The predicate holds of the values of the fields and of everything in them. -/
def EveryField (p : Json → Prop) : List (String × Json) → Prop
  | [] => True
  | (_, v) :: rest => Every p v ∧ EveryField p rest

end

variable {p : Json → Prop}

theorem Every.self {v : Json} (h : v.Every p) : p v := by
  cases v with
  | array items => exact (show _ ∧ _ from h).1
  | object fields => exact (show _ ∧ _ from h).1
  | _ => exact h

theorem everyItem_iff {items : List Json} : EveryItem p items ↔ ∀ v ∈ items, v.Every p := by
  induction items with
  | nil => simp [EveryItem]
  | cons v rest ih => simp [EveryItem, ih]

theorem everyField_iff {fields : List (String × Json)} :
    EveryField p fields ↔ ∀ field ∈ fields, field.2.Every p := by
  induction fields with
  | nil => simp [EveryField]
  | cons field rest ih => simp [EveryField, ih]

theorem mem_of_lookup {key : String} {fields : List (String × Json)} {v : Json}
    (h : lookup key fields = some v) : (key, v) ∈ fields := by
  induction fields with
  | nil => exact absurd h (by simp)
  | cons field rest ih =>
      obtain ⟨k, w⟩ := field
      rw [lookup] at h
      split at h
      · rename_i x hx
        obtain rfl := Option.some.inj h
        exact List.mem_cons_of_mem _ (ih hx)
      · split at h
        · rename_i hk
          obtain rfl := Option.some.inj h
          rw [hk]
          exact List.mem_cons_self
        · exact absurd h (by simp)

theorem lookup_map (f : Json → Json) (key : String) (fields : List (String × Json)) :
    lookup key (fields.map fun field => (field.1, f field.2)) = (lookup key fields).map f := by
  induction fields with
  | nil => rfl
  | cons field rest ih =>
      obtain ⟨k, v⟩ := field
      simp only [List.map_cons, lookup, ih]
      cases lookup key rest with
      | none => by_cases hk : k = key <;> simp [hk]
      | some w => rfl

/-- What is found under a key is in the value. -/
theorem Every.get? {v w : Json} {key : String} (h : v.Every p) (hw : v.get? key = some w) :
    w.Every p := by
  cases v with
  | object fields => exact everyField_iff.mp (show _ ∧ _ from h).2 _ (mem_of_lookup hw)
  | _ => exact absurd hw (by simp [Json.get?])

theorem Every.item {items : List Json} {v : Json} (h : (Json.array items).Every p)
    (hv : v ∈ items) : v.Every p :=
  everyItem_iff.mp (show _ ∧ _ from h).2 v hv

/-! ## Numbers -/

/-- A whole number fits the 64 bits in which it is held. -/
def Fits : Json → Prop
  | .unsigned n => n < 18446744073709551616
  | .signed i => -9223372036854775808 ≤ i ∧ i < 9223372036854775808
  | _ => True

end FleetScaler.Json
