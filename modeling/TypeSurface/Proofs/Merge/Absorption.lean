import TypeSurface.Proofs.Declaration.Unplaced
import TypeSurface.Proofs.Merge.Clash
import TypeSurface.Proofs.Merge.Members
import TypeSurface.Proofs.Relation.Reflexivity

/-!
# Merging once more

After a merge without conflicts, whatever both sides declare stands as the extension declares it or
agrees with it.  So the same extension finds nothing to change when it is merged once more, whatever
aliases the types are related under by then.
-/

namespace TypeSurface
namespace OrderedMap

variable {κ ν : Type} [DecidableEq κ]

theorem insert_eq_self {m : OrderedMap κ ν} {k : κ} {v : ν} (h : m.get? k = some v) :
    m.insert k v = m := by
  have hentry := get?_eq_some_iff.1 h
  have hknown : k ∈ m.entries.map Prod.fst := List.mem_map_of_mem hentry
  apply ext_entries
  unfold insert
  rw [dif_pos hknown]
  refine (List.map_congr_left fun e he ↦ ?_).trans (List.map_id m.entries)
  split
  · next hk => exact Prod.ext hk.symm (eq_of_mem_entries hentry (hk ▸ he))
  · rfl

theorem foldl_insert_eq_self {α : Type} {key : α → κ} {value : α → ν} {l : List α}
    {m : OrderedMap κ ν} (h : ∀ a ∈ l, m.get? (key a) = some (value a)) :
    l.foldl (fun m a ↦ m.insert (key a) (value a)) m = m := by
  induction l with
  | nil => rfl
  | cons a l ih =>
    rw [List.forall_mem_cons] at h
    rw [List.foldl_cons, insert_eq_self h.1]
    exact ih h.2

theorem entries_foldl_insert {l : List (κ × ν)} {m : OrderedMap κ ν}
    (h : (m.keys ++ l.map Prod.fst).Nodup) :
    (l.foldl (fun m e ↦ m.insert e.1 e.2) m).entries = m.entries ++ l := by
  induction l generalizing m with
  | nil => simp
  | cons e l ih =>
    have hfresh : e.1 ∉ m.keys := fun hmem ↦
      List.disjoint_of_nodup_append h hmem List.mem_cons_self
    have hkeys : (m.insert e.1 e.2).keys = m.keys ++ [e.1] := by rw [keys_insert, if_neg hfresh]
    rw [List.foldl_cons, ih, entries_insert_of_notMem hfresh]
    · simp
    · rw [hkeys]
      simpa using h

end OrderedMap

theorem Merged.eq_clean {α : Type} {m : Merged α} {value : α} (hvalue : m.value = value)
    (hconflicts : m.conflicts = []) : m = .clean value := by
  cases m
  cases hvalue
  cases hconflicts
  rfl

namespace Merge

/-! ### Entry by entry -/

section Maps

variable {κ ν : Type} [DecidableEq κ] {f g : κ → ν → ν → Merged ν}
  {base extension : OrderedMap κ ν}

/-- An extension all of whose entries are there already, and go together with what is there, changes
nothing. -/
theorem mapsWith_eq_clean (h : ∀ k e, extension.get? k = some e →
    ∃ b, base.get? k = some b ∧ f k b e = .clean b) :
    mapsWith f base extension = .clean base := by
  have hmet : ∀ e ∈ extension.entries,
      ∃ b, base.get? e.1 = some b ∧ f e.1 b e.2 = .clean b := fun e he ↦
    h e.1 e.2 (OrderedMap.get?_eq_some_iff.2 he)
  have hvalue : (mapsWith f base extension).value = base := by
    rw [mapsWith_value]
    apply OrderedMap.foldl_insert_eq_self
    intro e he
    obtain ⟨b, hb, hf⟩ := hmet e he
    simp [metValue, hb, hf, Merged.clean]
  have hconflicts : (mapsWith f base extension).conflicts = [] := by
    rw [mapsWith_conflicts, List.flatMap_eq_nil_iff]
    intro e he
    obtain ⟨b, hb, hf⟩ := hmet e he
    simp [metConflicts, hb, hf, Merged.clean]
  exact Merged.eq_clean hvalue hconflicts

theorem mapsWith_self (hself : ∀ k v, f k v v = .clean v) (m : OrderedMap κ ν) :
    mapsWith f m m = .clean m :=
  mapsWith_eq_clean fun k e he ↦ ⟨e, he, hself k e⟩

theorem mapsWith_empty_left (f : κ → ν → ν → Merged ν) (m : OrderedMap κ ν) :
    mapsWith f .empty m = .clean m := by
  have hvalue : (mapsWith f .empty m).value = m := by
    apply OrderedMap.ext_entries
    rw [mapsWith_value]
    exact OrderedMap.entries_foldl_insert m.nodup
  have hconflicts : (mapsWith f .empty m).conflicts = [] := by
    rw [mapsWith_conflicts, List.flatMap_eq_nil_iff]
    exact fun _ _ ↦ rfl
  exact Merged.eq_clean hvalue hconflicts

/-- If what two entries make takes the second of them in again, the merged map takes in the
extension. -/
theorem mapsWith_again (hself : ∀ k v, g k v v = .clean v)
    (hagain : ∀ k b e, (f k b e).conflicts = [] →
      g k (f k b e).value e = .clean (f k b e).value)
    (h : (mapsWith f base extension).conflicts = []) :
    mapsWith g (mapsWith f base extension).value extension =
      .clean (mapsWith f base extension).value := by
  rw [mapsWith_conflicts, List.flatMap_eq_nil_iff] at h
  apply mapsWith_eq_clean
  intro k e he
  have hclean := h (k, e) (OrderedMap.get?_eq_some_iff.1 he)
  refine ⟨_, get?_mapsWith_of_some he, ?_⟩
  cases hb : base.get? k with
  | none =>
    have hvalue : (metValue f base (k, e)).value = e := by simp [metValue, hb, Merged.clean]
    rw [hvalue]
    exact hself k e
  | some b =>
    have hvalue : (metValue f base (k, e)).value = (f k b e).value := by simp [metValue, hb]
    rw [hvalue]
    apply hagain
    simpa [metConflicts, hb] using hclean

theorem appendNew_eq_self {α : Type} [DecidableEq α] {base extension : List α}
    (h : ∀ a ∈ extension, a ∈ base) : appendNew base extension = base := by
  rw [appendNew_eq, List.filter_eq_nil_iff.2 fun a ha ↦ by simp [h a ha]]
  simp

end Maps

/-! ### Declarations -/

section Declarations

variable {table table' : OrderedMap String TypeEntry}

theorem members_self (table : OrderedMap String TypeEntry) (owner : String) (key : MemberKey)
    (m : Member) : members table .replace owner key m m = .clean m := by
  simp [members, member?]

theorem members_again (table table' : OrderedMap String TypeEntry) (owner : String)
    (key : MemberKey) (base extension : Member)
    (h : (members table .replace owner key base extension).conflicts = []) :
    members table' .replace owner key (members table .replace owner key base extension).value
      extension = .clean (members table .replace owner key base extension).value := by
  have hvalue : (members table .replace owner key base extension).value = extension := by
    unfold members at h ⊢
    cases hm : member? table .replace base extension with
    | none => simp [hm] at h
    | some m => exact (makesMember_of_member? hm).eq_extension
  rw [hvalue]
  exact members_self table' owner key extension

theorem interfaces_self (i : Interface) : interfaces table .replace i i = .clean i := by
  have hmembers := mapsWith_self (members_self table i.name) i.members
  have hheritage : appendNew i.heritage i.heritage = i.heritage := appendNew_eq_self fun _ ↦ id
  have hparams : haveSameParams i i = true := haveSameParams_iff.2 rfl
  simp [interfaces, hmembers, hheritage, hparams, Merged.clean]

theorem interfaces_again (table table' : OrderedMap String TypeEntry) (base extension : Interface)
    (h : (interfaces table .replace base extension).conflicts = []) :
    interfaces table' .replace (interfaces table .replace base extension).value extension =
      .clean (interfaces table .replace base extension).value := by
  obtain ⟨hparams, hmembers⟩ := List.append_eq_nil_iff.1 h
  have hagain := mapsWith_again (members_self table' base.name)
    (members_again table table' base.name) hmembers
  have hheritage : appendNew (appendNew base.heritage extension.heritage) extension.heritage =
      appendNew base.heritage extension.heritage :=
    appendNew_eq_self fun _ ht ↦ mem_appendNew.2 (Or.inr ht)
  have hsame : haveSameParams (interfaces table .replace base extension).value extension =
      true := by
    change haveSameParams base extension = true
    by_contra hne
    simp [hne] at hparams
  unfold interfaces at hagain hsame ⊢
  simp [hagain, hheritage, hsame, Merged.clean]

theorem typeEntries_self (name : String) (entry : TypeEntry) :
    typeEntries table .replace name entry entry = .clean entry := by
  cases entry with
  | interface i => simp [typeEntries, interfaces_self, Merged.clean]
  | typeAlias a => simp [typeEntries, Merged.clean]

theorem typeEntries_again (name : String) (base extension : TypeEntry)
    (h : (typeEntries table .replace name base extension).conflicts = []) :
    typeEntries table' .replace name (typeEntries table .replace name base extension).value
      extension = .clean (typeEntries table .replace name base extension).value := by
  cases base with
  | interface b =>
    cases extension with
    | interface e =>
      have hagain := interfaces_again table table' b e h
      simp [typeEntries, hagain, Merged.clean]
    | typeAlias e => simp [typeEntries] at h
  | typeAlias b =>
    cases extension with
    | interface e => simp [typeEntries] at h
    | typeAlias e =>
      have hsame : b.typeParams = e.typeParams ∧ b.type = e.type := by
        by_contra hne
        simp [typeEntries, hne] at h
      simp [typeEntries, hsame, Merged.clean]

theorem functionEntries_self (name : String) (f : Function) :
    functionEntries table .replace name f f = .clean (.function f) := by
  have hcovers := Relation.overloadsCover_self (Relation.isAssignable_self table) f.overloads
  simp [functionEntries, overloads?, hcovers]

theorem functionEntries_again (name : String) (base extension : Function)
    (h : (functionEntries table .replace name base extension).conflicts = []) :
    (functionEntries table .replace name base extension).value = .function extension := by
  unfold functionEntries overloads? at h ⊢
  by_cases hcovers : Relation.overloadsCover (Relation.isAssignable table) extension.overloads
      base.overloads = true
  · simp [hcovers, Merged.clean]
  · simp [hcovers] at h

theorem variableEntries_again (name : String) (base extension : Variable)
    (h : (variableEntries name base extension).conflicts = []) :
    variableEntries name base extension = .clean (.variable base) :=
  congrArg (Merged.mk (ValueEntry.variable base)) h

theorem valueEntries_self (name : String) (entry : ValueEntry) :
    valueEntries table .replace name entry entry = .clean entry := by
  rcases entry with v | f
  · simp [valueEntries, variableEntries, Merged.clean]
  · exact functionEntries_self name f

theorem valueEntries_again (name : String) (base extension : ValueEntry)
    (h : (valueEntries table .replace name base extension).conflicts = []) :
    valueEntries table' .replace name (valueEntries table .replace name base extension).value
      extension = .clean (valueEntries table .replace name base extension).value := by
  rcases base with b | b
  · rcases extension with e | e
    · exact variableEntries_again name b e h
    · simp [valueEntries] at h
  · rcases extension with e | e
    · simp [valueEntries] at h
    · have hvalue : (valueEntries table .replace name (.function b) (.function e)).value =
          .function e := functionEntries_again name b e h
      rw [hvalue]
      exact functionEntries_self name e

theorem declarations_eq_clean {base extension : Declarations}
    (htypes : mapsWith (typeEntries (aliases base.types extension.types) .replace) base.types
      extension.types = .clean base.types)
    (hvalues : mapsWith (valueEntries (aliases base.types extension.types) .replace) base.values
      extension.values = .clean base.values) :
    declarations .replace base extension = .clean base := by
  unfold declarations
  simp [htypes, hvalues, Merged.clean]

theorem declarations_self (d : Declarations) : declarations .replace d d = .clean d :=
  declarations_eq_clean (mapsWith_self typeEntries_self d.types)
    (mapsWith_self valueEntries_self d.values)

theorem declarations_again (base extension : Declarations)
    (h : (declarations .replace base extension).conflicts = []) :
    declarations .replace (declarations .replace base extension).value extension =
      .clean (declarations .replace base extension).value := by
  obtain ⟨htypes, hvalues⟩ := List.append_eq_nil_iff.1 h
  -- The merged side has a table of aliases of its own, but nothing is compared under it that is not
  -- the same on both sides.
  apply declarations_eq_clean
  · exact mapsWith_again typeEntries_self typeEntries_again htypes
  · exact mapsWith_again valueEntries_self valueEntries_again hvalues

theorem declarations_empty_left (d : Declarations) : declarations .replace .empty d = .clean d := by
  unfold declarations
  simp [Declarations.empty, mapsWith_empty_left, Merged.clean]

theorem declarations_empty_right (d : Declarations) : declarations .replace d .empty = .clean d :=
  declarations_eq_clean (mapsWith_empty _ d.types) (mapsWith_empty _ d.values)

/-- An extension that has been merged without conflicts is absorbed when it comes again, and so is a
set that meets itself.  Whether anything is well formed does not matter. -/
theorem merging_again_changes_nothing :
    (∀ base extension, (declarations .replace base extension).conflicts = [] →
      declarations .replace (declarations .replace base extension).value extension =
        .clean (declarations .replace base extension).value) ∧
      (∀ d, declarations .replace d d = .clean d) ∧
      ∀ d, declarations .replace .empty d = .clean d ∧ declarations .replace d .empty = .clean d :=
  ⟨declarations_again, declarations_self,
    fun d ↦ ⟨declarations_empty_left d, declarations_empty_right d⟩⟩

/-- An interface `Box` with the heritage, a property `size` and a method `at`. -/
def box (heritage : List TypeExpr) (size : TypeExpr) (place : Signature) : Declarations :=
  let origin : Origin := ⟨"box", "box.d.ts", ⟨0, 0⟩⟩
  let sizeMember : Member := ⟨.named "size", none, .property size, false, false, origin⟩
  let placeMember : Member := ⟨.named "at", none, .method [place], false, false, origin⟩
  ⟨.singleton "Box" (.interface ⟨"Box", [], heritage,
    .ofList [(sizeMember.key, sizeMember), (placeMember.key, placeMember)], origin⟩), .empty⟩

/-- `interface Box { size: int | string; at(place: int): int; }` -/
def openBox : Declarations :=
  box [] (.union [Index.type, .keyword .string])
    ⟨[], [⟨"place", Index.type, false, false⟩], Index.type⟩

/-- `interface Box extends Sized { size: number; at(place: int, end?: int): 1; }` -/
def sizedBox : Declarations :=
  box [.named "Sized"] (.keyword .number)
    ⟨[], [⟨"place", Index.type, false, false⟩, ⟨"end", Index.type, true, false⟩],
      .literal (.number "1")⟩

theorem merging_again_changes_nothing_sized :
    (declarations .replace openBox sizedBox).conflicts = [] ∧
      declarations .replace (declarations .replace openBox sizedBox).value sizedBox =
        .clean (declarations .replace openBox sizedBox).value := by
  have hclean : (declarations .replace openBox sizedBox).conflicts = [] := by
    decide +kernel
  exact ⟨hclean, merging_again_changes_nothing.1 _ _ hclean⟩

end Declarations

end Merge
end TypeSurface
