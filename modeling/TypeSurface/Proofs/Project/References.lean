import Mathlib.Data.List.Chain
import Mathlib.Logic.Relation
import TypeSurface.FileTree.Writing
import TypeSurface.Proofs.Catalog.Ids
import TypeSurface.Proofs.FileTree.Reading
import TypeSurface.Proofs.Project.Loading

/-!
# Sets behind their references

If nothing goes wrong and no chain of references is too long, what is installed are the sets that
are asked for and all that they refer to, each behind those that it refers to itself.
-/

namespace TypeSurface

/-! ### References -/

/-- The set `i` refers to the set `j`. -/
def Refers (sets : List DeclarationSet) (i j : String) : Prop :=
  ∃ S ∈ sets, S.id = i ∧ j ∈ S.references

/-- No more references follow one another than are followed. -/
def IsShallow (sets : List DeclarationSet) : Prop :=
  ∀ ids : List String, ids.IsChain (Refers sets) → ids.length ≤ maxReferenceDepth + 1

/-- Each set stands behind those that it refers to. -/
def IsOrdered (sets : List DeclarationSet) : Prop :=
  ∀ front S back, sets = front ++ S :: back → ∀ id ∈ S.references, id ∈ front.map (·.id)

theorem isOrdered_nil : IsOrdered [] := by
  intro front S back h
  simp at h

theorem IsOrdered.append {sets : List DeclarationSet} {S : DeclarationSet} (h : IsOrdered sets)
    (hS : ∀ id ∈ S.references, id ∈ sets.map (·.id)) : IsOrdered (sets ++ [S]) := by
  intro front T back hsplit
  rcases List.eq_nil_or_concat back with rfl | ⟨back, U, rfl⟩
  · obtain ⟨rfl, hlast⟩ := List.append_inj' hsplit rfl
    cases hlast
    exact hS
  · have hsplit' : sets ++ [S] = (front ++ T :: back) ++ [U] := by
      rw [hsplit]
      simp
    exact h front T back (List.append_inj' hsplit' rfl).1

/-- Around a cycle one can walk as far as one likes. -/
theorem exists_isChain_of_cycle {α : Type} {r : α → α → Prop} {a : α} (h : Relation.TransGen r a a)
    (n : Nat) : ∃ b l, l.length = n ∧ (b :: l).IsChain r ∧ Relation.TransGen r b b := by
  induction n with
  | zero => exact ⟨a, [], rfl, List.isChain_singleton a, h⟩
  | succ n ih =>
    obtain ⟨b, l, hlength, hchain, hcycle⟩ := ih
    obtain ⟨c, hbc, hcb⟩ := Relation.TransGen.tail'_iff.1 hcycle
    exact ⟨c, b :: l, by simp [hlength], hchain.cons_cons hcb, Relation.TransGen.head' hcb hbc⟩

theorem IsShallow.not_transGen_self {sets : List DeclarationSet} (h : IsShallow sets) (id : String) :
    ¬Relation.TransGen (Refers sets) id id := by
  intro hcycle
  obtain ⟨first, ids, hlength, hchain, -⟩ := exists_isChain_of_cycle hcycle (maxReferenceDepth + 1)
  have hle := h _ hchain
  rw [List.length_cons, hlength] at hle
  omega

/-- No set is among those that lead to it. -/
theorem IsShallow.not_mem_of_isChain {sets : List DeclarationSet} (h : IsShallow sets) {id : String}
    {ids : List String} (hchain : (id :: ids).IsChain fun i j ↦ Refers sets j i) : id ∉ ids := by
  intro hmem
  have : Trans (fun i j ↦ Relation.TransGen (Refers sets) j i)
      (fun i j ↦ Relation.TransGen (Refers sets) j i)
      (fun i j ↦ Relation.TransGen (Refers sets) j i) := ⟨fun hij hjk ↦ hjk.trans hij⟩
  have htrans : (id :: ids).IsChain fun i j ↦ Relation.TransGen (Refers sets) j i :=
    hchain.imp fun _ _ href ↦ Relation.TransGen.single href
  exact h.not_transGen_self id (List.rel_of_pairwise_cons htrans.pairwise hmem)

theorem IsShallow.length_le {sets : List DeclarationSet} (h : IsShallow sets) {ids : List String}
    (hchain : ids.IsChain fun i j ↦ Refers sets j i) : ids.length ≤ maxReferenceDepth + 1 := by
  have hreverse := h ids.reverse (List.isChain_reverse.2 hchain)
  rwa [List.length_reverse] at hreverse

/-! ### What a source stands for -/

/-- The file declares a set with the id. -/
def Declares (t : FileTree) (p : Path) (id : String) : Prop :=
  ∃ text S, t.read p = .ok text ∧ DeclarationSet.parse p.text text = .ok S ∧ S.id = id

def SetSource.StandsFor (t : FileTree) : SetSource → String → Prop
  | .byId id, id' => id' = id
  | .byFile p, id => Declares t p id

def SetSource.IsAnchored : SetSource → Prop
  | .byId _ => True
  | .byFile p => p.isAbsolute = true

/-- Each file provides the id that its name says, and declares no other under any spelling. -/
structure SetIndex.IsFaithful (t : FileTree) (index : SetIndex) : Prop where
  named : ∀ {id p}, index.get? id = some p → p.name?.bind idOf? = some id
  declares : ∀ {id p q id'}, index.get? id = some p → p.sameAs q = true → Declares t q id' → id' = id

/-- Two spellings of a path declare one set. -/
theorem Declares.eq_of_sameAs {t : FileTree} {p q : Path} {id id' : String}
    (hsame : p.sameAs q = true) (hp : Declares t p id) (hq : Declares t q id') : id = id' := by
  obtain ⟨text, S, hread, hparse, rfl⟩ := hp
  obtain ⟨text', S', hread', hparse', rfl⟩ := hq
  obtain rfl := FileTree.read_eq_of_sameAs hsame hread hread'
  exact DeclarationSet.id_eq_of_parse hparse hparse'

theorem Declares.isAbsolute {t : FileTree} {p : Path} {id : String} (h : Declares t p id) :
    p.isAbsolute = true := by
  obtain ⟨text, S, hread, -⟩ := h
  exact FileTree.isAbsolute_of_read hread

namespace Catalog

theorem mem_of_get? {id : String} {e : EmbeddedSet} (h : get? id = some e) :
    e ∈ all ∧ e.id = id :=
  ⟨List.mem_of_find?_eq_some h, by simpa using List.find?_some h⟩

/-- The name of a file in the catalog gives the id of its set, and no other file is spelled so. -/
theorem spelling {e : EmbeddedSet} (he : e ∈ all) :
    (Path.mk e.file).isAbsolute = false ∧
      (Path.mk e.file).name?.bind SetIndex.idOf? = some e.id := by
  have hall : (all.all fun e ↦ !(Path.mk e.file).isAbsolute &&
      (Path.mk e.file).name?.bind SetIndex.idOf? == some e.id) = true := by
    decide +kernel
  have he := List.all_eq_true.1 hall e he
  simpa using he

end Catalog

namespace Loading

variable {t : FileTree} {index : SetIndex} {source : SetSource} {l : Loading}

/-- The set of a file that has been seen: it was read, or it is from the catalog. -/
def Holds (t : FileTree) (p : Path) (id : String) : Prop :=
  Declares t p id ∨ ∃ e ∈ Catalog.all, p = ⟨e.file⟩ ∧ e.id = id

theorem Offers.holds {p : Path} {text : String} {S : DeclarationSet}
    (h : Offers t index source p text) (hparse : DeclarationSet.parse p.text text = .ok S) :
    Holds t p S.id := by
  cases h with
  | file hread => exact Or.inl ⟨text, S, hread, hparse, rfl⟩
  | root _ hread => exact Or.inl ⟨text, S, hread, hparse, rfl⟩
  | catalog _ he =>
    have hmem := (Catalog.mem_of_get? he).1
    exact Or.inr ⟨_, hmem, rfl, (Catalog.id_of_parse hmem hparse).symm⟩

/-- What is found for a source declares the set that the source stands for. -/
theorem Offers.standsFor_iff (hindex : index.IsFaithful t) {p : Path} {text id : String}
    {S : DeclarationSet} (h : Offers t index source p text)
    (hparse : DeclarationSet.parse p.text text = .ok S) :
    source.StandsFor t id ↔ id = S.id := by
  cases h with
  | file hread =>
    have hdeclares : Declares t p S.id := ⟨text, S, hread, hparse, rfl⟩
    refine ⟨fun h ↦ h.eq_of_sameAs (Path.sameAs_refl p) hdeclares, ?_⟩
    rintro rfl
    exact hdeclares
  | root hroot hread =>
    have hdeclares : Declares t p S.id := ⟨text, S, hread, hparse, rfl⟩
    rw [hindex.declares hroot (Path.sameAs_refl p) hdeclares]
    exact Iff.rfl
  | catalog hroot he =>
    obtain ⟨hmem, rfl⟩ := Catalog.mem_of_get? he
    rw [Catalog.id_of_parse hmem hparse]
    exact Iff.rfl

/-! ### What is known while sets are loaded -/

/-- The sets of `pending` wait for those that they refer to.  All other sets that are provided are
installed behind theirs, and all are wanted. -/
structure IsSorted (t : FileTree) (Wanted : String → Prop) (pending : List String) (l : Loading) :
    Prop where
  provides : ∀ id, l.Provides id ↔ id ∈ pending ∨ id ∈ l.ids
  seen : ∀ p ∈ l.seen, ∃ id, Holds t p id ∧ l.Provides id
  ordered : IsOrdered l.sets
  wanted : ∀ id ∈ l.ids, Wanted id

variable {Wanted : String → Prop} {pending : List String}

/-- A file that has been seen holds what a source stands for that is looked up there. -/
theorem Holds.eq_of_looksIn (hindex : index.IsFaithful t) {p q : Path} {id id' : String}
    (hlooks : LooksIn index source p) (hsame : p.sameAs q = true) (hq : Holds t q id')
    (hanchored : source.IsAnchored) (hstands : source.StandsFor t id) : id' = id := by
  cases hlooks with
  | file =>
    rcases hq with hdeclares | ⟨e, he, rfl, -⟩
    · exact (hstands.eq_of_sameAs hsame hdeclares).symm
    · have habsolute := Path.isAbsolute_eq_of_sameAs hsame
      rw [(Catalog.spelling he).1] at habsolute
      rw [SetSource.IsAnchored, habsolute] at hanchored
      cases hanchored
  | root hroot =>
    cases hstands
    rcases hq with hdeclares | ⟨e, he, rfl, rfl⟩
    · exact hindex.declares hroot hsame hdeclares
    · have hnamed := hindex.named hroot
      rw [Path.name?_eq_of_sameAs hsame, (Catalog.spelling he).2] at hnamed
      exact Option.some.inj hnamed
  | @catalog _ e hroot he =>
    obtain ⟨hmem, hid⟩ := Catalog.mem_of_get? he
    cases hstands
    rcases hq with hdeclares | ⟨e', he', rfl, rfl⟩
    · have habsolute := Path.isAbsolute_eq_of_sameAs hsame
      rw [(Catalog.spelling hmem).1, hdeclares.isAbsolute] at habsolute
      cases habsolute
    · have hname := (Catalog.spelling hmem).2
      rw [Path.name?_eq_of_sameAs hsame, (Catalog.spelling he').2, hid] at hname
      exact Option.some.inj hname

theorem IsSorted.provides_of_isServed (h : IsSorted t Wanted pending l) (hindex : index.IsFaithful t)
    (hserved : l.IsServed index source) (hanchored : source.IsAnchored) {id : String}
    (hstands : source.StandsFor t id) : l.Provides id := by
  rcases hserved with ⟨id', rfl, hprovides⟩ | ⟨p, hlooks, hseen⟩
  · cases hstands
    exact hprovides
  · obtain ⟨q, hq, hsame⟩ := hasSeen_iff.1 hseen
    obtain ⟨id', hholds, hprovides⟩ := h.seen q hq
    rwa [hholds.eq_of_looksIn hindex hlooks hsame hanchored hstands] at hprovides

theorem isSorted_start : IsSorted t Wanted [] start where
  provides id := by simp [provides_iff, start, ids]
  seen p hp := by simp [start] at hp
  ordered := isOrdered_nil
  wanted id hid := by simp [ids, start] at hid

theorem IsSorted.provide (h : IsSorted t Wanted pending l) {p : Path} {text : String}
    {S : DeclarationSet} (hholds : Holds t p S.id) :
    IsSorted t Wanted (S.id :: pending) ((l.enter p text).provide S) where
  provides id := by
    rw [provides_provide, List.mem_cons, or_assoc]
    exact or_congr Iff.rfl (h.provides id)
  seen q hq := by
    rcases List.mem_cons.1 hq with rfl | hq
    · exact ⟨S.id, hholds, provides_provide.2 (Or.inl rfl)⟩
    · obtain ⟨id, hid, hprovides⟩ := h.seen q hq
      exact ⟨id, hid, provides_provide.2 (Or.inr hprovides)⟩
  ordered := h.ordered
  wanted := h.wanted

theorem IsSorted.add {S : DeclarationSet} (h : IsSorted t Wanted (S.id :: pending) l)
    (hfailure : l.failure? = none) (hS : ∀ id ∈ S.references, id ∈ l.ids) (hwanted : Wanted S.id) :
    IsSorted t Wanted pending (l.add S) := by
  have hadd : l.add S = { l with sets := l.sets ++ [S] } := by simp [Loading.add, hfailure]
  have hids := ids_add S hfailure
  refine ⟨fun id ↦ ?_, ?_, ?_, fun id hid ↦ ?_⟩
  · have hprovides : (l.add S).Provides id ↔ l.Provides id := by
      rw [hadd]
      exact Iff.rfl
    rw [hprovides, h.provides, hids, List.mem_append, List.mem_cons, List.mem_singleton]
    tauto
  · rw [hadd]
    exact h.seen
  · rw [hadd]
    exact h.ordered.append hS
  · rw [hids, List.mem_append, List.mem_singleton] at hid
    rcases hid with hid | rfl
    · exact h.wanted id hid
    · exact hwanted

/-! ### Runs -/

/-- The loading keeps all in order and installs what a source stands for, if nothing goes wrong up
to its end.  All sets that the run installs are among `sets`. -/
def Settles (t : FileTree) (Wanted : String → Prop) (sets : List DeclarationSet)
    (pending : List String) (source : SetSource) (l l' : Loading) : Prop :=
  IsSorted t Wanted pending l → l'.IsClean → l'.sets ⊆ sets →
    IsSorted t Wanted pending l' ∧ ∀ id, source.StandsFor t id → id ∈ l'.ids

variable {sets : List DeclarationSet}

theorem settles_loadAll {depth : Nat} {sources : List SetSource}
    (hstep : ∀ source ∈ sources, ∀ l,
      Settles t Wanted sets pending source l (load t index depth source l))
    (h : IsSorted t Wanted pending l) (hclean : (loadAll t index depth sources l).IsClean)
    (hsets : (loadAll t index depth sources l).sets ⊆ sets) :
    IsSorted t Wanted pending (loadAll t index depth sources l) ∧
      ∀ source ∈ sources, ∀ id, source.StandsFor t id →
        id ∈ (loadAll t index depth sources l).ids := by
  induction sources generalizing l with
  | nil => exact ⟨h, List.forall_mem_nil _⟩
  | cons source sources ih =>
    rw [List.forall_mem_cons] at hstep
    have hgrows := Grows.loadAll t index depth sources (load t index depth source l)
    obtain ⟨hfirst, hinstalled⟩ :=
      hstep.1 l h (hgrows.clean hclean) (List.Subset.trans hgrows.sets hsets)
    obtain ⟨hrest, hinstalled'⟩ := ih hstep.2 hfirst hclean hsets
    refine ⟨hrest, List.forall_mem_cons.2 ⟨fun id hid ↦ ?_, hinstalled'⟩⟩
    exact List.map_subset _ hgrows.sets (hinstalled id hid)

/-- The sets that wait refer to one another, the last one first. -/
theorem settles_load (hindex : index.IsFaithful t) (hshallow : IsShallow sets)
    (hWanted : ∀ i j, Wanted i → Refers sets i j → Wanted j) {depth : Nat}
    (hdepth : depth + pending.length = firstDepth) (hanchored : source.IsAnchored)
    (hsource : ∀ id, source.StandsFor t id →
      Wanted id ∧ (id :: pending).IsChain (fun i j ↦ Refers sets j i)) :
    Settles t Wanted sets pending source l (load t index depth source l) := by
  -- The sets that wait make up for the levels that are used up.
  induction depth generalizing source l pending with
  | zero =>
    -- Such a source ends a chain that is too long.
    intro h _ _
    refine ⟨h, fun id hid ↦ ?_⟩
    have hlength := hshallow.length_le (hsource id hid).2
    rw [List.length_cons] at hlength
    unfold firstDepth at hdepth
    omega
  | succ depth ih =>
    intro h hclean hsets
    generalize hresult : Loading.load t index (depth + 1) source l = l' at hclean hsets ⊢
    have houtcome : Outcome t index depth source l l' := hresult ▸ outcome_load t index depth source l
    cases houtcome with
    | idle hserved =>
      refine ⟨h, fun id hid ↦ ?_⟩
      have hprovides := h.provides_of_isServed hindex (hserved hclean.1) hanchored hid
      -- A set that waits for itself would close a chain into a cycle.
      have hfresh := hshallow.not_mem_of_isChain (hsource id hid).2
      exact ((h.provides id).1 hprovides).resolve_left hfresh
    | defective _ _ hdefect _ => exact absurd hclean hdefect
    | @installed p text S hoffer hseen hparse _ =>
      have hstands : ∀ id, source.StandsFor t id ↔ id = S.id :=
        fun id ↦ hoffer.standsFor_iff hindex hparse
      obtain ⟨hwanted, hchain⟩ := hsource S.id ((hstands S.id).2 rfl)
      generalize hloaded : loadAll t index depth (S.references.map .byId)
        ((l.enter p text).provide S) = l₂ at hclean hsets ⊢
      have hclean₂ : l₂.IsClean := (Grows.add l₂ S).clean hclean
      have hadd : (l₂.add S).sets = l₂.sets ++ [S] := by simp [Loading.add, hclean₂.1]
      rw [hadd, List.append_subset, List.cons_subset] at hsets
      obtain ⟨hsets₂, hmem, -⟩ := hsets
      -- While its references are loaded, the set waits at the head of the chain.
      have hstep : ∀ reference ∈ S.references.map SetSource.byId, ∀ l, Settles t Wanted sets
          (S.id :: pending) reference l (load t index depth reference l) := by
        intro reference hreference l
        obtain ⟨id, hid, rfl⟩ := List.mem_map.1 hreference
        have hrefers : Refers sets S.id id := ⟨S, hmem, rfl, hid⟩
        refine ih (by rw [List.length_cons]; omega) trivial ?_
        rintro _ rfl
        exact ⟨hWanted _ _ hwanted hrefers, hchain.cons_cons hrefers⟩
      obtain ⟨hsorted, hinstalled⟩ := settles_loadAll hstep (h.provide (hoffer.holds hparse))
        (hloaded ▸ hclean₂) (hloaded ▸ hsets₂)
      rw [hloaded] at hsorted hinstalled
      have hreferences : ∀ id ∈ S.references, id ∈ l₂.ids :=
        fun id hid ↦ hinstalled (.byId id) (List.mem_map_of_mem hid) id rfl
      refine ⟨hsorted.add hclean₂.1 hreferences hwanted, fun id hid ↦ ?_⟩
      rw [ids_add S hclean₂.1, (hstands id).1 hid]
      exact List.mem_append_right _ (List.mem_singleton_self _)

/-- The loading of the sets that are asked for has gone well. -/
structure IsRegular (t : FileTree) (index : SetIndex) (requested : List SetSource) (l : Loading) :
    Prop where
  clean : l.IsClean
  anchored : ∀ source ∈ requested, source.IsAnchored
  faithful : index.IsFaithful t
  shallow : IsShallow l.sets

/-- The ids that are asked for and those that they lead to. -/
def IsWanted (t : FileTree) (requested : List SetSource) (sets : List DeclarationSet)
    (id : String) : Prop :=
  ∃ source ∈ requested, ∃ first, source.StandsFor t first ∧
    Relation.ReflTransGen (Refers sets) first id

theorem isSorted_run {requested : List SetSource}
    (h : IsRegular t index requested (run t index requested)) :
    IsSorted t (IsWanted t requested (run t index requested).sets) [] (run t index requested) ∧
      ∀ source ∈ requested, ∀ id, source.StandsFor t id → id ∈ (run t index requested).ids := by
  refine settles_loadAll (fun source hsource l ↦ ?_) isSorted_start h.clean (List.Subset.refl _)
  refine settles_load h.faithful h.shallow ?_ rfl (h.anchored source hsource) fun id hid ↦ ?_
  · rintro i j ⟨source, hsource, first, hfirst, hreaches⟩ hij
    exact ⟨source, hsource, first, hfirst, hreaches.tail hij⟩
  · exact ⟨⟨source, hsource, id, hid, .refl⟩, List.isChain_singleton id⟩

theorem mem_ids_of_refers {l : Loading} (h : IsOrdered l.sets) {i j : String}
    (hij : Refers l.sets i j) : j ∈ l.ids := by
  obtain ⟨S, hS, rfl, hj⟩ := hij
  obtain ⟨front, back, hsplit⟩ := List.append_of_mem hS
  obtain ⟨T, hT, rfl⟩ := List.mem_map.1 (h front S back hsplit j hj)
  refine List.mem_map_of_mem ?_
  rw [hsplit]
  exact List.mem_append_left _ hT

/-- No two installed sets have one id, and no two parsed files have paths that are spelled alike.  If
all goes well, the installed sets are those that are asked for and those that they lead to, each
behind all that it refers to. -/
theorem run_installs_each_once (t : FileTree) (index : SetIndex) (requested : List SetSource) :
    let l := run t index requested
    l.ids.Nodup ∧
      l.sources.Pairwise (fun a b ↦ (Path.mk a.file).sameAs ⟨b.file⟩ = false) ∧
      (IsRegular t index requested l →
        (∀ id, id ∈ l.ids ↔ IsWanted t requested l.sets id) ∧ IsOrdered l.sets) := by
  intro l
  have honce : IsOnce [] l := IsOnce.run requested
  refine ⟨honce.nodup, ?_, fun hregular ↦ ?_⟩
  · have hpaths : (l.sources.map fun s ↦ Path.mk s.file).Pairwise
        fun p q ↦ p.sameAs q = false := by
      rw [honce.sources, List.pairwise_reverse]
      exact honce.seen.imp fun hpq ↦ (Path.sameAs_comm _ _).trans hpq
    exact List.pairwise_map.1 hpaths
  · obtain ⟨hsorted, hinstalled⟩ := isSorted_run hregular
    refine ⟨fun id ↦ ⟨hsorted.wanted id, ?_⟩, hsorted.ordered⟩
    rintro ⟨source, hsource, first, hfirst, hreaches⟩
    induction hreaches with
    | refl => exact hinstalled source hsource first hfirst
    | tail _ hij _ => exact mem_ids_of_refers hsorted.ordered hij

/-- A set in a root refers to another one there. -/
def rootTree : FileTree :=
  (FileTree.empty.addFile ["r", "a.d.ts"] "/// <set id=\"a\" />\n/// <reference set=\"b\" />\n").addFile
    ["r", "b.d.ts"] "/// <set id=\"b\" />\n"

def rootIndex : SetIndex := OrderedMap.empty.insert "b" ⟨"/r/b.d.ts"⟩

theorem eq_of_get?_rootIndex {id : String} {p : Path} (h : rootIndex.get? id = some p) :
    id = "b" ∧ p = ⟨"/r/b.d.ts"⟩ := by
  by_cases hid : id = "b"
  · subst hid
    exact ⟨rfl, (Option.some.inj h).symm⟩
  · rw [rootIndex, OrderedMap.get?_insert_of_ne _ _ hid] at h
    cases h

theorem isFaithful_rootIndex : rootIndex.IsFaithful rootTree where
  named {id p} h := by
    obtain ⟨rfl, rfl⟩ := eq_of_get?_rootIndex h
    decide +kernel
  declares {id p q id'} h hsame hdeclares := by
    obtain ⟨rfl, rfl⟩ := eq_of_get?_rootIndex h
    have hparsed : (DeclarationSet.parse "/r/b.d.ts" "/// <set id=\"b\" />\n").toOption.map (·.id) =
        some "b" := by
      decide +kernel
    cases hparse : DeclarationSet.parse "/r/b.d.ts" "/// <set id=\"b\" />\n" with
    | error defects =>
      rw [hparse] at hparsed
      cases hparsed
    | ok S =>
      rw [hparse] at hparsed
      have hb : Declares rootTree ⟨"/r/b.d.ts"⟩ "b" :=
        ⟨"/// <set id=\"b\" />\n", S, by decide +kernel, hparse, Option.some.inj hparsed⟩
      exact (hb.eq_of_sameAs hsame hdeclares).symm

theorem isRegular_root :
    IsRegular rootTree rootIndex [.byFile ⟨"/r/a.d.ts"⟩]
      (run rootTree rootIndex [.byFile ⟨"/r/a.d.ts"⟩]) where
  clean := ⟨by decide +kernel, error?_eq_none_iff.2 (by decide +kernel)⟩
  anchored source h := by
    obtain rfl := List.mem_singleton.1 h
    exact (by decide +kernel : (Path.mk "/r/a.d.ts").isAbsolute = true)
  faithful := isFaithful_rootIndex
  shallow := by
    have hsets : (run rootTree rootIndex [.byFile ⟨"/r/a.d.ts"⟩]).sets.map
        (fun S ↦ (S.id, S.references)) = [("b", []), ("a", ["b"])] := by
      decide +kernel
    have hrefers : ∀ i j, Refers (run rootTree rootIndex [.byFile ⟨"/r/a.d.ts"⟩]).sets i j →
        i = "a" ∧ j = "b" := by
      rintro i j ⟨S, hS, rfl, hj⟩
      have hmem : (S.id, S.references) ∈ [("b", []), ("a", ["b"])] :=
        hsets ▸ List.mem_map_of_mem hS
      simp only [List.mem_cons, Prod.mk.injEq, List.not_mem_nil, or_false] at hmem
      rcases hmem with ⟨-, hnone⟩ | ⟨hid, hone⟩
      · simp [hnone] at hj
      · rw [hone] at hj
        exact ⟨hid, List.mem_singleton.1 hj⟩
    intro ids hchain
    cases hchain with
    | nil => simp
    | singleton => simp
    | cons_cons hij hrest =>
      cases hrest with
      | singleton => simp [maxReferenceDepth]
      | cons_cons hjk _ =>
        have := (hrefers _ _ hij).2
        have := (hrefers _ _ hjk).1
        simp_all

theorem run_installs_each_once_root :
    let l := run rootTree rootIndex [.byFile ⟨"/r/a.d.ts"⟩]
    (∀ id, id ∈ l.ids ↔ IsWanted rootTree [.byFile ⟨"/r/a.d.ts"⟩] l.sets id) ∧ IsOrdered l.sets :=
  (run_installs_each_once rootTree rootIndex [.byFile ⟨"/r/a.d.ts"⟩]).2.2 isRegular_root

/-- A directory with a set beside an empty one. -/
def detourTree : FileTree :=
  (FileTree.empty.addFile ["w", "x.d.ts"] "/// <set id=\"x\" />\n").set ["w", "d"] .directory

def detour : List SetSource := [.byFile ⟨"/w/x.d.ts"⟩, .byFile ⟨"/w/d/../x.d.ts"⟩]

/-- A file that is asked for once directly and once by way of another directory is parsed twice. -/
theorem not_parses_each_file_once :
    ¬((run detourTree .empty detour).sources.map fun s ↦ detourTree.locate ⟨s.file⟩).Nodup := by
  decide +kernel

end Loading
end TypeSurface
