namespace RegisterBridge

/-- A map that remembers the order in which its keys first came. Giving a key a new value leaves
it at its place. -/
structure OrderedMap (κ : Type) (α : Type) where
  entries : List (κ × α)
  distinct : (entries.map Prod.fst).Nodup
deriving DecidableEq

namespace OrderedMap

variable {κ α : Type} [DecidableEq κ]

def replace : List (κ × α) → κ → α → List (κ × α)
  | [], key, value => [(key, value)]
  | (k, v) :: rest, key, value =>
    if k = key then (k, value) :: rest else (k, v) :: replace rest key value

theorem mem_keys_replace {entries : List (κ × α)} {key k : κ} {value : α} :
    k ∈ (replace entries key value).map Prod.fst ↔ k ∈ entries.map Prod.fst ∨ k = key := by
  induction entries with
  | nil => simp [replace]
  | cons entry rest ih =>
    unfold replace
    split <;> simp_all [or_assoc]
    grind

theorem nodup_replace {entries : List (κ × α)} (h : (entries.map Prod.fst).Nodup) (key : κ)
    (value : α) : ((replace entries key value).map Prod.fst).Nodup := by
  induction entries with
  | nil => simp [replace]
  | cons entry rest ih =>
    obtain ⟨k, v⟩ := entry
    simp only [List.map_cons, List.nodup_cons] at h
    unfold replace
    split
    · simpa using h
    · rename_i different
      simp only [List.map_cons, List.nodup_cons]
      refine ⟨fun member => ?_, ih h.2⟩
      rcases mem_keys_replace.1 member with old | new
      · exact h.1 old
      · exact different new

def empty : OrderedMap κ α := ⟨[], List.nodup_nil⟩

instance : Inhabited (OrderedMap κ α) := ⟨empty⟩

def get? (map : OrderedMap κ α) (key : κ) : Option α :=
  map.entries.lookup key

def insert (map : OrderedMap κ α) (key : κ) (value : α) : OrderedMap κ α :=
  ⟨replace map.entries key value, nodup_replace map.distinct key value⟩

def erase (map : OrderedMap κ α) (key : κ) : OrderedMap κ α :=
  ⟨map.entries.filter (·.1 ≠ key), (List.filter_sublist.map Prod.fst).nodup map.distinct⟩

def contains (map : OrderedMap κ α) (key : κ) : Bool :=
  (map.get? key).isSome

def ofList (entries : List (κ × α)) : OrderedMap κ α :=
  entries.foldl (fun map entry => map.insert entry.1 entry.2) empty

def keys (map : OrderedMap κ α) : List κ :=
  map.entries.map Prod.fst

def size (map : OrderedMap κ α) : Nat :=
  map.entries.length

def isEmpty (map : OrderedMap κ α) : Bool :=
  map.entries.isEmpty

@[simp] theorem get?_empty (key : κ) : (empty : OrderedMap κ α).get? key = none := rfl

theorem lookup_replace (entries : List (κ × α)) (key k : κ) (value : α) :
    (replace entries key value).lookup k = if k = key then some value else entries.lookup k := by
  induction entries with
  | nil => simp only [replace, List.lookup_cons, List.lookup_nil]; grind
  | cons entry rest ih =>
    obtain ⟨first, v⟩ := entry
    unfold replace
    split <;> simp only [List.lookup_cons] <;> grind

@[simp] theorem get?_insert (map : OrderedMap κ α) (key k : κ) (value : α) :
    (map.insert key value).get? k = if k = key then some value else map.get? k :=
  lookup_replace map.entries key k value

end OrderedMap

end RegisterBridge
