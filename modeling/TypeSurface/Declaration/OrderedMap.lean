/-!
# Ordered maps

A map that remembers the order in which its keys came.  A new key goes to the end; a new value for
a known key takes the place of the old one.
-/

namespace TypeSurface

structure OrderedMap (κ ν : Type) where
  entries : List (κ × ν)
  nodup : (entries.map Prod.fst).Nodup
deriving DecidableEq

namespace OrderedMap

variable {κ ν : Type}

def empty : OrderedMap κ ν := ⟨[], by simp⟩

instance : Inhabited (OrderedMap κ ν) := ⟨empty⟩

def keys (m : OrderedMap κ ν) : List κ := m.entries.map Prod.fst

def values (m : OrderedMap κ ν) : List ν := m.entries.map Prod.snd

def size (m : OrderedMap κ ν) : Nat := m.entries.length

def isEmpty (m : OrderedMap κ ν) : Bool := m.entries.isEmpty

variable [DecidableEq κ]

def get? (m : OrderedMap κ ν) (k : κ) : Option ν :=
  (m.entries.find? (·.1 = k)).map Prod.snd

def contains (m : OrderedMap κ ν) (k : κ) : Bool := m.keys.contains k

/-- The entries with the value of `k` replaced. -/
def replaceEntry (k : κ) (v : ν) (entries : List (κ × ν)) : List (κ × ν) :=
  entries.map fun e ↦ if e.1 = k then (k, v) else e

@[simp] theorem map_fst_replaceEntry (k : κ) (v : ν) (entries : List (κ × ν)) :
    (replaceEntry k v entries).map Prod.fst = entries.map Prod.fst := by
  simp only [replaceEntry, List.map_map]
  apply List.map_congr_left
  intro e _
  by_cases h : e.1 = k <;> simp [h]

def insert (m : OrderedMap κ ν) (k : κ) (v : ν) : OrderedMap κ ν :=
  if h : k ∈ m.entries.map Prod.fst then
    ⟨replaceEntry k v m.entries, by rw [map_fst_replaceEntry]; exact m.nodup⟩
  else
    ⟨m.entries ++ [(k, v)], by
      rw [List.map_append, List.nodup_append]
      refine ⟨m.nodup, by simp, ?_⟩
      intro a ha b hb same
      simp only [List.map_cons, List.map_nil, List.mem_singleton] at hb
      subst hb same
      exact h ha⟩

/-- The map that the entries make one after the other. -/
def ofList (entries : List (κ × ν)) : OrderedMap κ ν :=
  entries.foldl (fun m (k, v) ↦ m.insert k v) empty

def singleton (k : κ) (v : ν) : OrderedMap κ ν := ⟨[(k, v)], by simp⟩

theorem keys_insert (m : OrderedMap κ ν) (k : κ) (v : ν) :
    (m.insert k v).keys = if k ∈ m.keys then m.keys else m.keys ++ [k] := by
  unfold insert
  by_cases h : k ∈ m.entries.map Prod.fst
  · have known : k ∈ m.keys := h
    rw [dif_pos h, if_pos known]
    exact map_fst_replaceEntry ..
  · have fresh : k ∉ m.keys := h
    rw [dif_neg h, if_neg fresh]
    simp [keys]

theorem find?_replaceEntry_self {k : κ} {v : ν} {entries : List (κ × ν)}
    (h : k ∈ entries.map Prod.fst) :
    (replaceEntry k v entries).find? (·.1 = k) = some (k, v) := by
  induction entries with
  | nil => simp at h
  | cons e es ih =>
    by_cases same : e.1 = k
    · simp [replaceEntry, same]
    · have tail : k ∈ es.map Prod.fst := by
        rcases List.mem_cons.1 h with rfl | tail
        · exact absurd rfl same
        · exact tail
      simpa [replaceEntry, same] using ih tail

theorem find?_replaceEntry_of_ne {j k : κ} (v : ν) (entries : List (κ × ν)) (h : j ≠ k) :
    (replaceEntry k v entries).find? (·.1 = j) = entries.find? (·.1 = j) := by
  induction entries with
  | nil => rfl
  | cons e es ih =>
    have ih' : (es.map fun e ↦ if e.1 = k then (k, v) else e).find? (·.1 = j) =
        es.find? (·.1 = j) := ih
    by_cases same : e.1 = k
    · have : ¬e.1 = j := fun hj ↦ h (hj ▸ same)
      simp [replaceEntry, same, Ne.symm h, ih']
    · by_cases hj : e.1 = j
      · simp [replaceEntry, hj, h]
      · simp [replaceEntry, same, hj, ih']

@[simp] theorem get?_insert_self (m : OrderedMap κ ν) (k : κ) (v : ν) :
    (m.insert k v).get? k = some v := by
  unfold insert get?
  by_cases h : k ∈ m.entries.map Prod.fst
  · rw [dif_pos h, find?_replaceEntry_self h]
    rfl
  · rw [dif_neg h]
    have none : m.entries.find? (·.1 = k) = none := by
      rw [List.find?_eq_none]
      intro e he
      simp only [decide_eq_true_eq]
      rintro rfl
      exact h (List.mem_map_of_mem he)
    rw [List.find?_append, none]
    simp

theorem get?_insert_of_ne (m : OrderedMap κ ν) {j k : κ} (v : ν) (h : j ≠ k) :
    (m.insert k v).get? j = m.get? j := by
  unfold insert get?
  by_cases hk : k ∈ m.entries.map Prod.fst
  · rw [dif_pos hk, find?_replaceEntry_of_ne v m.entries h]
  · rw [dif_neg hk, List.find?_append]
    simp [Ne.symm h]

end OrderedMap
end TypeSurface
