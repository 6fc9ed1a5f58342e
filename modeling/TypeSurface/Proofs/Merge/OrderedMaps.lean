import Mathlib.Data.List.Nodup
import TypeSurface.Merge.Basic

/-!
# Ordered maps under merging

An ordered map is known by its keys in their order and by what it holds under each of them.  Both
are given here for a row of insertions and for two maps that are merged entry by entry.
-/

namespace TypeSurface
namespace OrderedMap

variable {κ ν : Type}

@[simp] theorem entries_empty : (empty : OrderedMap κ ν).entries = [] := rfl

@[simp] theorem keys_empty : (empty : OrderedMap κ ν).keys = [] := rfl

/-- Two entries of one key are the same entry. -/
theorem eq_of_mem_entries {m : OrderedMap κ ν} {k : κ} {v w : ν} (hv : (k, v) ∈ m.entries)
    (hw : (k, w) ∈ m.entries) : v = w := by
  have hsame := List.inj_on_of_nodup_map m.nodup hv hw rfl
  exact congrArg Prod.snd hsame

variable [DecidableEq κ]

theorem get?_eq_some_iff {m : OrderedMap κ ν} {k : κ} {v : ν} :
    m.get? k = some v ↔ (k, v) ∈ m.entries := by
  constructor
  · intro h
    obtain ⟨⟨j, w⟩, found, rfl⟩ := Option.map_eq_some_iff.1 h
    have same : j = k := by simpa using List.find?_some found
    exact same ▸ List.mem_of_find?_eq_some found
  · intro h
    cases found : m.entries.find? (·.1 = k) with
    | none =>
      have hno := List.find?_eq_none.1 found _ h
      simp at hno
    | some e =>
      obtain ⟨j, w⟩ := e
      have same : j = k := by simpa using List.find?_some found
      subst same
      have hw := eq_of_mem_entries (List.mem_of_find?_eq_some found) h
      simp [get?, found, hw]

theorem get?_eq_none_iff {m : OrderedMap κ ν} {k : κ} : m.get? k = none ↔ k ∉ m.keys := by
  simp only [get?, Option.map_eq_none_iff, List.find?_eq_none, decide_eq_true_eq, keys,
    List.mem_map, not_exists, not_and]

theorem mem_keys_iff {m : OrderedMap κ ν} {k : κ} : k ∈ m.keys ↔ ∃ v, m.get? k = some v := by
  rw [← Option.isSome_iff_exists, ← Option.ne_none_iff_isSome, ne_eq, get?_eq_none_iff, not_not]

theorem mem_values_iff {m : OrderedMap κ ν} {v : ν} : v ∈ m.values ↔ ∃ k, m.get? k = some v := by
  simp [values, get?_eq_some_iff]

@[simp] theorem get?_empty (k : κ) : (empty : OrderedMap κ ν).get? k = none := rfl

theorem get?_singleton (j k : κ) (v : ν) :
    (singleton j v).get? k = if j = k then some v else none := by
  by_cases h : j = k <;> simp [get?, singleton, h]

theorem entries_insert_of_notMem {m : OrderedMap κ ν} {k : κ} (h : k ∉ m.keys) (v : ν) :
    (m.insert k v).entries = m.entries ++ [(k, v)] := by
  unfold insert
  rw [dif_neg (show k ∉ m.entries.map Prod.fst from h)]

/-- A row of insertions with distinct keys: the new keys follow the old ones. -/
theorem keys_foldl_insert {α : Type} (key : α → κ) (value : α → ν) (l : List α)
    (m : OrderedMap κ ν) (hl : (l.map key).Nodup) :
    (l.foldl (fun m a ↦ m.insert (key a) (value a)) m).keys =
      m.keys ++ (l.map key).filter (· ∉ m.keys) := by
  induction l generalizing m with
  | nil => simp
  | cons a l ih =>
    obtain ⟨ha, hl⟩ := List.nodup_cons.1 hl
    rw [List.foldl_cons, ih _ hl, keys_insert, List.map_cons, List.filter_cons]
    by_cases hk : key a ∈ m.keys
    · simp [hk]
    · have hsame : (l.map key).filter (· ∉ m.keys ++ [key a]) =
          (l.map key).filter (· ∉ m.keys) := by
        apply List.filter_congr
        intro k hkl
        have hne : k ≠ key a := fun h ↦ ha (h ▸ hkl)
        simp [hne]
      rw [if_neg hk, hsame, if_pos (by simpa using hk), List.append_assoc]
      rfl

theorem get?_foldl_insert_of_notMem {α : Type} (key : α → κ) (value : α → ν) (l : List α)
    (m : OrderedMap κ ν) {k : κ} (hk : k ∉ l.map key) :
    (l.foldl (fun m a ↦ m.insert (key a) (value a)) m).get? k = m.get? k := by
  induction l generalizing m with
  | nil => rfl
  | cons a l ih =>
    obtain ⟨hne, hl⟩ := not_or.1 (fun h ↦ hk (List.mem_cons.2 h))
    rw [List.foldl_cons, ih _ hl, get?_insert_of_ne _ _ hne]

theorem get?_foldl_insert_of_mem {α : Type} (key : α → κ) (value : α → ν) (l : List α)
    (m : OrderedMap κ ν) (hl : (l.map key).Nodup) {a : α} (ha : a ∈ l) :
    (l.foldl (fun m a ↦ m.insert (key a) (value a)) m).get? (key a) = some (value a) := by
  induction l generalizing m with
  | nil => cases ha
  | cons b l ih =>
    obtain ⟨hb, hl⟩ := List.nodup_cons.1 hl
    rcases List.mem_cons.1 ha with rfl | ha
    · rw [List.foldl_cons, get?_foldl_insert_of_notMem key value l _ hb, get?_insert_self]
    · rw [List.foldl_cons]
      exact ih _ hl ha

end OrderedMap

namespace Merge

variable {κ ν : Type} [DecidableEq κ]

/-- What the two maps have under one key; the entry of one map alone stays. -/
def metValue (f : κ → ν → ν → Merged ν) (base : OrderedMap κ ν) (e : κ × ν) : Merged ν :=
  match base.get? e.1 with
  | none => .clean e.2
  | some b => f e.1 b e.2

/-- The conflicts over one entry of the extension; an entry that the base lacks has none. -/
def metConflicts (f : κ → ν → ν → Merged ν) (base : OrderedMap κ ν) (e : κ × ν) :
    List Diagnostic :=
  match base.get? e.1 with
  | none => []
  | some b => (f e.1 b e.2).conflicts

theorem mapsWith_value (f : κ → ν → ν → Merged ν) (base extension : OrderedMap κ ν) :
    (mapsWith f base extension).value =
      extension.entries.foldl (fun m e ↦ m.insert e.1 (metValue f base e).value) base := by
  simp only [mapsWith, List.foldl_map]
  rfl

theorem mapsWith_conflicts (f : κ → ν → ν → Merged ν) (base extension : OrderedMap κ ν) :
    (mapsWith f base extension).conflicts = extension.entries.flatMap (metConflicts f base) := by
  simp only [mapsWith, List.flatMap_map]
  congr 1
  funext e
  unfold metConflicts
  cases base.get? e.1 <;> simp [Merged.clean]

/-- How two maps have been brought together: the keys of the base come first, then those that only
the extension has; an entry of one side stays, and where both have one, `meet` relates the two to
the entry that they make. -/
structure Joins (meet : κ → ν → ν → ν → Prop) (base extension joined : OrderedMap κ ν) : Prop where
  keys : joined.keys = base.keys ++ extension.keys.filter (· ∉ base.keys)
  base_only : ∀ k, extension.get? k = none → joined.get? k = base.get? k
  extension_only : ∀ k, base.get? k = none → joined.get? k = extension.get? k
  both : ∀ k b e, base.get? k = some b → extension.get? k = some e →
    ∃ m, joined.get? k = some m ∧ meet k b e m

/-- A map that is joined holds no key that neither side has. -/
theorem Joins.mem_keys {meet : κ → ν → ν → ν → Prop} {base extension joined : OrderedMap κ ν}
    (h : Joins meet base extension joined) {k : κ} (hk : k ∈ joined.keys) :
    k ∈ base.keys ∨ k ∈ extension.keys := by
  rw [h.keys, List.mem_append] at hk
  exact hk.imp_right fun hk ↦ (List.mem_filter.1 hk).1

theorem get?_mapsWith_of_none {f : κ → ν → ν → Merged ν} {base extension : OrderedMap κ ν} {k : κ}
    (h : extension.get? k = none) :
    (mapsWith f base extension).value.get? k = base.get? k := by
  rw [mapsWith_value]
  exact OrderedMap.get?_foldl_insert_of_notMem Prod.fst _ _ _ (OrderedMap.get?_eq_none_iff.1 h)

theorem get?_mapsWith_of_some {f : κ → ν → ν → Merged ν} {base extension : OrderedMap κ ν} {k : κ}
    {e : ν} (h : extension.get? k = some e) :
    (mapsWith f base extension).value.get? k = some (metValue f base (k, e)).value := by
  rw [mapsWith_value]
  exact OrderedMap.get?_foldl_insert_of_mem Prod.fst (fun e ↦ (metValue f base e).value) _ _
    extension.nodup (OrderedMap.get?_eq_some_iff.1 h)

theorem mapsWith_joins {f : κ → ν → ν → Merged ν} {meet : κ → ν → ν → ν → Prop}
    (hf : ∀ k b e, meet k b e (f k b e).value) (base extension : OrderedMap κ ν) :
    Joins meet base extension (mapsWith f base extension).value where
  keys := by
    rw [mapsWith_value]
    exact OrderedMap.keys_foldl_insert Prod.fst _ _ _ extension.nodup
  base_only _ h := get?_mapsWith_of_none h
  extension_only k h := by
    cases he : extension.get? k with
    | none => rw [get?_mapsWith_of_none he, h]
    | some e =>
      rw [get?_mapsWith_of_some he]
      simp [metValue, h, Merged.clean]
  both k b e hb he := by
    refine ⟨_, get?_mapsWith_of_some he, ?_⟩
    simpa [metValue, hb] using hf k b e

/-- What holds of the entries of both maps, and of what two such entries make, holds of all entries
of the merged map. -/
theorem mapsWith_forall {f : κ → ν → ν → Merged ν} {P : κ → ν → Prop}
    {base extension : OrderedMap κ ν} (hb : ∀ k b, base.get? k = some b → P k b)
    (he : ∀ k e, extension.get? k = some e → P k e)
    (hf : ∀ k b e, P k b → P k e → P k (f k b e).value) :
    ∀ k v, (mapsWith f base extension).value.get? k = some v → P k v := by
  intro k v hv
  cases hE : extension.get? k with
  | none =>
    rw [get?_mapsWith_of_none hE] at hv
    exact hb k v hv
  | some e =>
    rw [get?_mapsWith_of_some hE, Option.some.injEq] at hv
    subst hv
    cases hB : base.get? k with
    | none => simpa [metValue, hB, Merged.clean] using he k e hE
    | some b => simpa [metValue, hB] using hf k b e (hb k b hB) (he k e hE)

/-- The items of the extension that are new to the base, each once, behind those of the base. -/
theorem appendNew_eq {α : Type} [DecidableEq α] (base extension : List α) :
    appendNew base extension =
      base ++ (extension.filter (· ∉ base)).eraseDups := by
  induction extension generalizing base with
  | nil => simp
  | cons a as ih =>
    have hstep : appendNew base (a :: as) =
        appendNew (if a ∈ base then base else base ++ [a]) as := rfl
    by_cases ha : a ∈ base
    · simp [hstep, ha, ih]
    · have hfilter : as.filter (· ∉ base ++ [a]) =
          (as.filter (· ∉ base)).filter (fun b ↦ !b == a) := by
        rw [List.filter_filter]
        apply List.filter_congr
        intro b _
        by_cases hb : b = a <;> simp [hb, ha]
      rw [hstep, if_neg ha, ih, hfilter, List.filter_cons_of_pos (by simpa using ha),
        List.eraseDups_cons]
      simp

theorem mem_appendNew {α : Type} [DecidableEq α] {base extension : List α} {a : α} :
    a ∈ appendNew base extension ↔ a ∈ base ∨ a ∈ extension := by
  rw [appendNew_eq, List.mem_append, List.mem_eraseDups, List.mem_filter]
  by_cases ha : a ∈ base <;> simp [ha]

theorem nodup_appendNew {α : Type} [DecidableEq α] {base : List α} (extension : List α)
    (h : base.Nodup) : (appendNew base extension).Nodup := by
  induction extension generalizing base with
  | nil => exact h
  | cons a extension ih =>
    have hstep : (if a ∈ base then base else base ++ [a]).Nodup := by
      split
      · exact h
      · next ha => exact h.append (List.nodup_singleton a) (List.disjoint_singleton.2 ha)
    exact ih hstep

end Merge
end TypeSurface
