import Mathlib.Data.List.Perm.Subperm
import TypeSurface.Proofs.Config.Anchoring

/-!
# Chains of configurations

A configuration file and the files that it extends, one after the other, form a chain.  If it ends,
what is loaded can be read off its files; if it comes back to one of them, nothing is loaded.
-/

namespace TypeSurface
namespace Config

/-! ### Added names -/

theorem addNames_append (names added more : List String) :
    addNames names (added ++ more) = addNames (addNames names added) more :=
  List.foldl_append

/-- The names that are not there are added, each of them once. -/
theorem addNames_eq (names added : List String) :
    addNames names added = names ++ (added.filter (· ∉ names)).eraseDups := by
  induction added generalizing names with
  | nil => simp [addNames]
  | cons name added ih =>
    have hstep : addNames names (name :: added) =
        addNames (if name ∈ names then names else names ++ [name]) added := rfl
    rw [hstep, ih]
    by_cases hname : name ∈ names
    · rw [if_pos hname, List.filter_cons_of_neg (by simpa using hname)]
    · rw [if_neg hname, List.filter_cons_of_pos (by simpa using hname), List.eraseDups_cons,
        List.filter_filter, List.append_assoc]
      have hfilter : (added.filter fun other ↦ decide (other ∉ names ++ [name])) =
          added.filter fun other ↦ !other == name && decide (other ∉ names) :=
        List.filter_congr fun other _ ↦ by simp [and_comm, beq_eq_decide]
      rw [hfilter]
      rfl

/-! ### Chains -/

/-- A configuration file, by its path and where that leads, with what the file says. -/
structure Link where
  path : Path
  location : Location
  config : Config

namespace Link

/-- Whether the file can be read and is well formed. -/
def IsIn (t : FileTree) (l : Link) : Prop :=
  ∃ text, t.readAt l.path = .ok (l.location, text) ∧ ofText text = .ok l.config

/-- The sets that the file names, where their paths are joined to the directory of the file. -/
def sets (l : Link) : Option (List String) :=
  l.config.sets.map fun texts ↦ texts.map (SetSource.anchorText l.path.directory)

/-- The set roots that the file names, joined to the directory of the file. -/
def roots (l : Link) : Option (List String) :=
  l.config.roots.map fun roots ↦ roots.map fun root ↦ (l.path.directory.join ⟨root⟩).text

/-- What the file says, without the one that it extends. -/
def anchored (l : Link) : Config :=
  { l.config with base := none, sets := l.sets, roots := l.roots }

theorem anchor_eq (l : Link) : l.config.anchor l.path.directory = l.anchored := by
  simp only [anchor, anchored, sets, roots, Config.mk.injEq, true_and, and_true]
  refine Option.map_congr fun texts _ ↦ List.map_congr_left fun text _ ↦ ?_
  rw [SetSource.anchorText, SetSource.ofText_eq]
  by_cases hpath : SetSource.isPath (Text.trimmed text) = true
  · rw [if_pos hpath, if_pos hpath]
  · rw [if_neg hpath, if_neg hpath]

end Link

/-- The files that are read from a path on, each extended by the one before it: all of them, or those
before the path of the next one. -/
inductive Chain (t : FileTree) : Path → List Link → Option Path → Prop
  | stop {path : Path} : Chain t path [] (some path)
  | last {l : Link} (hl : l.IsIn t) (hbase : l.config.base = none) : Chain t l.path [l] none
  | cons {l : Link} {base : String} {ls : List Link} {next : Option Path} (hl : l.IsIn t)
    (hbase : l.config.base = some base) (hrest : Chain t (basePath l.path base) ls next) :
    Chain t l.path (l :: ls) next

/-- Why the file at a path is not read behind others. -/
inductive Fails (t : FileTree) (visited : List Location) (path : Path) : Failure → Prop
  | unreadable {fault : FileFault} (h : t.readAt path = .error fault) :
    Fails t visited path (.unreadableConfig path fault)
  | cyclic {location : Location} {text : String} (h : t.readAt path = .ok (location, text))
    (hold : location ∈ visited) : Fails t visited path (.cyclicConfig location.path)
  | malformed {location : Location} {text : String} {fault : Json.Fault}
    (h : t.readAt path = .ok (location, text)) (hnew : location ∉ visited)
    (htext : ofText text = .error fault) : Fails t visited path (.malformedConfig path fault)

/-- The exclusions of a chain, from its end on: those of the first file that has any, then those of
the others that are not there yet. -/
def exclusionsOf (ls : List Link) : Option (List String) :=
  match ls.reverse.filterMap (·.config.exclusions) with
  | [] => none
  | first :: others => some (first ++ (others.flatten.filter (· ∉ first)).eraseDups)

/-- What the files of a chain say together: the first that says something decides. -/
def merged (ls : List Link) : Config where
  base := none
  mode := ls.findSome? (·.config.mode)
  sets := ls.findSome? (·.sets)
  roots := ls.findSome? (·.roots)
  exclusions := exclusionsOf ls
  hasIndexAudit := ls.findSome? (·.config.hasIndexAudit)

variable {t : FileTree} {path : Path} {l m : Link} {ls : List Link} {next : Option Path}
  {visited : List Location}

theorem exclusionsOf_cons (l : Link) (ls : List Link) :
    exclusionsOf (l :: ls) =
      match exclusionsOf ls, l.config.exclusions with
      | some names, some added => some (addNames names added)
      | names, added => added.or names := by
  unfold exclusionsOf
  rw [List.reverse_cons, List.filterMap_append]
  cases hadded : l.config.exclusions with
  | none => cases hlists : ls.reverse.filterMap (·.config.exclusions) <;> simp [hadded]
  | some added =>
    cases hlists : ls.reverse.filterMap (·.config.exclusions) with
    | nil => simp [hadded]
    | cons first others =>
      simp only [List.filterMap_cons, List.filterMap_nil, hadded, List.cons_append,
        List.flatten_append, List.flatten_singleton]
      rw [← addNames_eq, ← addNames_eq, addNames_append]

theorem findSome?_cons_or {α β : Type} (f : α → Option β) (a : α) (as : List α) :
    (a :: as).findSome? f = (f a).or (as.findSome? f) := by
  rw [List.findSome?_cons]
  cases f a <;> rfl

theorem merged_cons (l : Link) (ls : List Link) :
    merged (l :: ls) = l.anchored.inherit (merged ls) := by
  have hexclusions : exclusionsOf (l :: ls) = (l.anchored.inherit (merged ls)).exclusions :=
    exclusionsOf_cons l ls
  rw [merged, hexclusions]
  simp only [findSome?_cons_or]
  rfl

theorem merged_singleton (l : Link) : merged [l] = l.anchored := by
  rw [merged_cons]
  cases hadded : l.config.exclusions <;> simp [inherit, merged, exclusionsOf, Link.anchored, hadded]

/-! ### Reading a chain -/

/-- What is read at a path behind others is a file that has not been visited, or nothing. -/
theorem isIn_or_fails (t : FileTree) (visited : List Location) (path : Path) :
    (∃ l : Link, l.path = path ∧ l.IsIn t ∧ l.location ∉ visited) ∨
      ∃ failure, Fails t visited path failure := by
  cases hread : t.readAt path with
  | error fault => exact Or.inr ⟨_, .unreadable hread⟩
  | ok found =>
    obtain ⟨location, text⟩ := found
    by_cases hold : location ∈ visited
    · exact Or.inr ⟨_, .cyclic hread hold⟩
    · cases htext : ofText text with
      | error fault => exact Or.inr ⟨_, .malformed hread hold htext⟩
      | ok c => exact Or.inl ⟨⟨path, location, c⟩, rfl, ⟨text, hread, htext⟩, hold⟩

theorem loadFrom_of_readAt {location : Location} {text : String}
    (hread : t.readAt path = .ok (location, text)) :
    loadFrom t visited path =
      if location ∈ visited then .error (.cyclicConfig location.path)
      else
        match ofText text with
        | .error fault => .error (.malformedConfig path fault)
        | .ok c =>
          match c.base with
          | none => .ok (c.anchor path.directory)
          | some base =>
            (loadFrom t (location :: visited) (basePath path base)).map
              (c.anchor path.directory).inherit := by
  rw [loadFrom]
  split
  · next hfault =>
    rw [hread] at hfault
    cases hfault
  · next hfound =>
    rw [hread] at hfound
    cases hfound
    split
    · rfl
    · cases ofText text with
      | error fault => rfl
      | ok c =>
        cases hbase : c.base with
        | none => simp only [hbase]
        | some base =>
          simp only [hbase]
          cases loadFrom t (location :: visited) (basePath path base) <;> rfl

theorem loadFrom_of_fails {failure : Failure} (h : Fails t visited path failure) :
    loadFrom t visited path = .error failure := by
  cases h with
  | unreadable hread =>
    rw [loadFrom]
    split
    · next hfault =>
      rw [hread] at hfault
      cases hfault
      rfl
    · next hfound =>
      rw [hread] at hfound
      cases hfound
  | cyclic hread hold => rw [loadFrom_of_readAt hread, if_pos hold]
  | malformed hread hnew htext => rw [loadFrom_of_readAt hread, if_neg hnew, htext]

/-- A file is read, and then the one that it extends. -/
theorem loadFrom_of_isIn (hl : l.IsIn t) (hnew : l.location ∉ visited) :
    loadFrom t visited l.path =
      match l.config.base with
      | none => .ok l.anchored
      | some base =>
        (loadFrom t (l.location :: visited) (basePath l.path base)).map l.anchored.inherit := by
  obtain ⟨text, hread, htext⟩ := hl
  rw [loadFrom_of_readAt hread, if_neg hnew, htext, ← l.anchor_eq]

theorem Fails.congr {visited' : List Location} {failure : Failure} (h : Fails t visited path failure)
    (hsame : ∀ location, location ∈ visited ↔ location ∈ visited') :
    Fails t visited' path failure := by
  cases h with
  | unreadable hread => exact .unreadable hread
  | cyclic hread hold => exact .cyclic hread ((hsame _).1 hold)
  | malformed hread hnew htext => exact .malformed hread (fun hold ↦ hnew ((hsame _).2 hold)) htext

theorem mem_locations_append_cons {location : Location} :
    location ∈ ls.map (·.location) ++ l.location :: visited ↔
      location ∈ (l :: ls).map (·.location) ++ visited :=
  List.perm_middle.mem_iff

/-- A chain is loaded if it ends, and refused for what is wrong with its next file. -/
theorem loadFrom_of_chain (h : Chain t path ls next) (hnew : ∀ l ∈ ls, l.location ∉ visited)
    (hnodup : (ls.map (·.location)).Nodup) :
    (next = none → loadFrom t visited path = .ok (merged ls)) ∧
      ∀ p ∈ next, ∀ failure, Fails t (ls.map (·.location) ++ visited) p failure →
        loadFrom t visited path = .error failure := by
  induction h generalizing visited with
  | stop =>
    refine ⟨nofun, ?_⟩
    rintro p ⟨⟩ failure hfails
    exact loadFrom_of_fails hfails
  | @last l hl hbase =>
    refine ⟨fun _ ↦ ?_, nofun⟩
    rw [loadFrom_of_isIn hl (hnew l (List.mem_singleton_self l)), hbase, merged_singleton]
  | @cons l base ls next hl hbase hrest ih =>
    rw [List.map_cons, List.nodup_cons] at hnodup
    have hrest' : ∀ m ∈ ls, m.location ∉ l.location :: visited := fun m hm ↦ by
      rw [List.mem_cons, not_or]
      exact ⟨fun heq ↦ hnodup.1 (heq ▸ List.mem_map_of_mem hm), hnew m (List.mem_cons_of_mem l hm)⟩
    obtain ⟨hends, hstops⟩ := ih hrest' hnodup.2
    rw [loadFrom_of_isIn hl (hnew l (List.mem_cons_self ..)), hbase]
    refine ⟨fun hnone ↦ ?_, fun p hp failure hfails ↦ ?_⟩
    · simp only [hends hnone, merged_cons, Except.map]
    · simp only [hstops p hp failure (hfails.congr fun _ ↦ mem_locations_append_cons.symm), Except.map]

/-- A chain goes on until it ends or meets a file that is not read behind the others. -/
theorem exists_chain (t : FileTree) (visited : List Location) (path : Path) :
    ∃ ls next, Chain t path ls next ∧ (ls.map (·.location)).Nodup ∧
      (∀ l ∈ ls, l.location ∉ visited) ∧
      ∀ p ∈ next, ∃ failure, Fails t (ls.map (·.location) ++ visited) p failure := by
  induction hn : (unvisited t visited).length using Nat.strong_induction_on
    generalizing visited path with
  | _ n ih =>
    rcases isIn_or_fails t visited path with ⟨l, rfl, hl, hnew⟩ | ⟨failure, hfails⟩
    · cases hbase : l.config.base with
      | none => exact ⟨[l], none, .last hl hbase, by simp, by simpa using hnew, nofun⟩
      | some base =>
        have hfile : l.location ∈ t.files := by
          obtain ⟨text, hread, -⟩ := hl
          exact FileTree.mem_files_of_readAt hread
        obtain ⟨ls, next, hrest, hnodup, hfresh, hstop⟩ :=
          ih _ (hn ▸ length_unvisited_cons_lt hfile hnew) (l.location :: visited)
            (basePath l.path base) rfl
        simp only [List.mem_cons, not_or] at hfresh
        refine ⟨l :: ls, next, .cons hl hbase hrest, ?_, ?_, fun p hp ↦ ?_⟩
        · rw [List.map_cons, List.nodup_cons]
          refine ⟨fun hmem ↦ ?_, hnodup⟩
          obtain ⟨m, hm, hsame⟩ := List.mem_map.1 hmem
          exact (hfresh m hm).1 hsame
        · exact List.forall_mem_cons.2 ⟨hnew, fun m hm ↦ (hfresh m hm).2⟩
        · obtain ⟨failure, hfails⟩ := hstop p hp
          exact ⟨failure, hfails.congr fun _ ↦ mem_locations_append_cons⟩
    · refine ⟨[], some path, .stop, List.nodup_nil, nofun, ?_⟩
      rintro p ⟨⟩
      exact ⟨failure, hfails⟩

/-- A chain that comes back to one of its files is refused. -/
theorem loadFrom_of_comesBack {p : Path} {location : Location} {text : String}
    (h : Chain t path ls next) (hp : p ∈ next) (hread : t.readAt p = .ok (location, text))
    (hback : location ∈ ls.map (·.location) ++ visited) :
    ∃ r ∈ ls.map (·.location) ++ visited, loadFrom t visited path = .error (.cyclicConfig r.path) := by
  induction h generalizing visited with
  | stop =>
    cases hp
    exact ⟨location, hback, loadFrom_of_fails (.cyclic hread hback)⟩
  | last => cases hp
  | @cons l base ls next hl hbase hrest ih =>
    by_cases hold : l.location ∈ visited
    · obtain ⟨text, hlread, -⟩ := hl
      exact ⟨l.location, List.mem_append_right _ hold, loadFrom_of_fails (.cyclic hlread hold)⟩
    · obtain ⟨r, hr, hload⟩ := ih hp (mem_locations_append_cons.2 hback)
      refine ⟨r, mem_locations_append_cons.1 hr, ?_⟩
      rw [loadFrom_of_isIn hl hold, hbase]
      simp only [hload, Except.map]

/-! ### Chains that end -/

theorem Link.IsIn.exists_file (hl : l.IsIn t) :
    ∃ text, t.locate l.path = .ok l.location ∧ t.get? l.location = some (.file text) ∧
      ofText text = .ok l.config := by
  obtain ⟨text, hread, htext⟩ := hl
  unfold FileTree.readAt at hread
  split at hread
  · cases hread
  · next hlocate =>
    split at hread
    · next hfile =>
      cases hread
      exact ⟨text, hlocate, hfile, htext⟩
    · cases hread
    · cases hread

/-- A file says the same under every path. -/
theorem Link.IsIn.config_eq (hl : l.IsIn t) (hm : m.IsIn t) (h : l.location = m.location) :
    l.config = m.config := by
  obtain ⟨text, -, hfile, htext⟩ := hl.exists_file
  obtain ⟨text', -, hfile', htext'⟩ := hm.exists_file
  rw [h, hfile', Option.some_inj, FileEntry.file.injEq] at hfile
  rw [← hfile, htext', Except.ok.injEq] at htext
  exact htext.symm

theorem Chain.exists_cons (h : Chain t path ls none) :
    ∃ l rest, ls = l :: rest ∧ l.path = path ∧ l.IsIn t := by
  generalize hnext : none = next at h
  cases h with
  | stop => cases hnext
  | last hl => exact ⟨_, _, rfl, rfl, hl⟩
  | cons hl => exact ⟨_, _, rfl, rfl, hl⟩

/-- From one file on, two chains go the same way, however the file is spelled. -/
theorem Chain.locations_eq {q : Path} {ms : List Link} (hls : Chain t path (l :: ls) none)
    (hms : Chain t q (m :: ms) none) (h : l.location = m.location) :
    ls.map (·.location) = ms.map (·.location) := by
  generalize hlls : l :: ls = lls at hls
  generalize hnext : none = next at hls
  induction hls generalizing l ls m ms q with
  | stop => cases hnext
  | last hl hbase =>
    cases hlls
    cases hms with
    | last => rfl
    | cons hm hbase' =>
      rw [hl.config_eq hm h, hbase'] at hbase
      cases hbase
  | cons hl hbase hrest ih =>
    cases hlls
    subst hnext
    cases hms with
    | last hm hbase' =>
      rw [hl.config_eq hm h, hbase'] at hbase
      cases hbase
    | cons hm hbase' hrest' =>
      rw [hl.config_eq hm h, hbase'] at hbase
      cases hbase
      obtain ⟨l', ls', rfl, hpath, hl'⟩ := hrest.exists_cons
      obtain ⟨m', ms', rfl, hpath', hm'⟩ := hrest'.exists_cons
      have hlocation : l'.location = m'.location := by
        obtain ⟨-, hlocate, -⟩ := hl'.exists_file
        obtain ⟨-, hlocate', -⟩ := hm'.exists_file
        obtain ⟨-, hfrom, -⟩ := hl.exists_file
        obtain ⟨text, hfrom', hfile, -⟩ := hm.exists_file
        rw [h] at hfrom
        rw [hpath] at hlocate
        rw [hpath'] at hlocate'
        exact FileTree.eq_of_locate_join hfrom hfrom' hfile hlocate hlocate'
      rw [List.map_cons, List.map_cons, hlocation, ih hrest' hlocation rfl rfl]

theorem Chain.exists_suffix (h : Chain t path ls none) (hm : m ∈ ls) :
    ∃ rest, Chain t m.path (m :: rest) none ∧ (m :: rest) <:+ ls := by
  generalize hnext : none = next at h
  induction h with
  | stop => cases hm
  | last hl hbase =>
    obtain rfl := List.mem_singleton.1 hm
    exact ⟨[], .last hl hbase, List.suffix_rfl⟩
  | cons hl hbase hrest ih =>
    subst hnext
    rcases List.mem_cons.1 hm with rfl | hm
    · exact ⟨_, .cons hl hbase hrest, List.suffix_rfl⟩
    · obtain ⟨rest, hchain, hsuffix⟩ := ih hm rfl
      exact ⟨rest, hchain, hsuffix.trans (List.suffix_cons ..)⟩

/-- A chain that ends does not come back to any of its files: from there it would not end. -/
theorem Chain.nodup (h : Chain t path ls none) : (ls.map (·.location)).Nodup := by
  generalize hnext : none = next at h
  induction h with
  | stop => cases hnext
  | last => simp
  | @cons l base ls next hl hbase hrest ih =>
    subst hnext
    rw [List.map_cons, List.nodup_cons]
    refine ⟨fun hmem ↦ ?_, ih rfl⟩
    obtain ⟨m, hm, hsame⟩ := List.mem_map.1 hmem
    obtain ⟨rest, hchain, hsuffix⟩ := hrest.exists_suffix hm
    have hlocations := (Chain.cons hl hbase hrest).locations_eq hchain hsame.symm
    have hlength := congrArg List.length hlocations
    have hle := hsuffix.length_le
    simp only [List.length_map, List.length_cons] at hlength hle
    omega

/-! ### Loaded configurations -/

theorem Chain.isIn (h : Chain t path ls next) : ∀ l ∈ ls, l.IsIn t := by
  induction h with
  | stop => exact nofun
  | last hl => simpa using hl
  | cons hl _ _ ih => exact List.forall_mem_cons.2 ⟨hl, ih⟩

theorem exists_of_mem_findSome? {f : Link → Option (List String)} {text : String}
    (h : text ∈ (ls.findSome? f).getD []) : ∃ l ∈ ls, ∃ texts ∈ f l, text ∈ texts := by
  cases hfound : ls.findSome? f with
  | none =>
    rw [hfound] at h
    cases h
  | some texts =>
    obtain ⟨l, hl, htexts⟩ := List.exists_of_findSome?_eq_some hfound
    rw [hfound] at h
    exact ⟨l, hl, texts, htexts, h⟩

theorem isAnchored_merged (h : ∀ l ∈ ls, l.IsIn t) : (merged ls).IsAnchored := by
  have habsolute : ∀ l ∈ ls, l.path.directory.isAbsolute = true := fun l hl ↦ by
    obtain ⟨-, hlocate, -⟩ := (h l hl).exists_file
    exact Path.isAbsolute_directory (FileTree.isAbsolute_of_locate hlocate)
  constructor
  · intro text htext hpath
    obtain ⟨l, hl, texts, htexts, hmem⟩ := exists_of_mem_findSome? htext
    obtain ⟨given, -, rfl⟩ := Option.map_eq_some_iff.1 htexts
    obtain ⟨text, -, rfl⟩ := List.mem_map.1 hmem
    by_cases hgiven : SetSource.isPath (Text.trimmed text) = true
    · exact SetSource.trimmed_anchorText (habsolute l hl) hgiven
    · rw [SetSource.anchorText, if_neg hgiven] at hpath
      exact absurd hpath hgiven
  · intro root hroot
    obtain ⟨l, hl, roots, hroots, hmem⟩ := exists_of_mem_findSome? hroot
    obtain ⟨given, -, rfl⟩ := Option.map_eq_some_iff.1 hroots
    obtain ⟨root, -, rfl⟩ := List.mem_map.1 hmem
    exact Path.isAbsolute_join (habsolute l hl) ⟨root⟩

/-- Loading follows a chain of distinct files, no more than there are, and fails for what is wrong
with the next one, if there is one.  A chain that comes back is refused.  Of a chain that ends, what
is loaded is what its files say together, and the settings are the same in every directory. -/
theorem load_of_chain (t : FileTree) (path : Path) :
    (∃ ls next, Chain t path ls next ∧ (ls.map (·.location)).Nodup ∧ ls.length ≤ t.files.length ∧
        ∀ p ∈ next, ∃ failure, Fails t (ls.map (·.location)) p failure ∧
          load t path = .error failure) ∧
      (∀ ls p location text, Chain t path ls (some p) → t.readAt p = .ok (location, text) →
        location ∈ ls.map (·.location) →
        ∃ l ∈ ls, load t path = .error (.cyclicConfig l.location.path)) ∧
      ∀ ls, Chain t path ls none →
        load t path = .ok (merged ls) ∧
          ∀ directory, (merged ls).settings directory =
            ((merged ls).mode.elim (.ok Settings.default.mode) Mode.ofTextOrFail).map
              (merged ls).settled := by
  refine ⟨?_, fun ls p location text hchain hread hback ↦ ?_, fun ls hchain ↦ ⟨?_, ?_⟩⟩
  · obtain ⟨ls, next, hchain, hnodup, hnew, hstop⟩ := exists_chain t [] path
    have hfiles : ls.map (·.location) ⊆ t.files := fun location hmem ↦ by
      obtain ⟨l, hl, rfl⟩ := List.mem_map.1 hmem
      obtain ⟨text, hread, -⟩ := hchain.isIn l hl
      exact FileTree.mem_files_of_readAt hread
    have hlength := (hnodup.subperm hfiles).length_le
    rw [List.length_map] at hlength
    refine ⟨ls, next, hchain, hnodup, hlength, fun p hp ↦ ?_⟩
    obtain ⟨failure, hfails⟩ := hstop p hp
    have hload := (loadFrom_of_chain hchain hnew hnodup).2 p hp failure hfails
    rw [List.append_nil] at hfails
    exact ⟨failure, hfails, hload⟩
  · have hback' : location ∈ ls.map (·.location) ++ [] := by rwa [List.append_nil]
    obtain ⟨r, hr, hload⟩ := loadFrom_of_comesBack hchain rfl hread hback'
    rw [List.append_nil] at hr
    obtain ⟨l, hl, rfl⟩ := List.mem_map.1 hr
    exact ⟨l, hl, hload⟩
  · exact (loadFrom_of_chain hchain (fun _ _ ↦ List.not_mem_nil) hchain.nodup).1 rfl
  · exact (isAnchored_merged hchain.isIn).settings

/-- A configuration that excludes a name twice, and extends no file. -/
def repeatedText : String := "\x7b \"additionalExclusions\": [\"eval\", \"eval\"] \x7d"

def repeatedTree : FileTree := FileTree.empty.set [fileName] (.file repeatedText)

/-- The exclusions at the end of a chain are taken as they are, with the names that they repeat. -/
theorem load_repeatedTree :
    ∃ ls c, Chain repeatedTree ⟨"/jsmconfig.json"⟩ ls none ∧
      load repeatedTree ⟨"/jsmconfig.json"⟩ = .ok c ∧
      c.exclusions ≠ some ((ls.reverse.filterMap (·.config.exclusions)).foldl addNames []) := by
  have hl : Link.IsIn repeatedTree ⟨⟨"/jsmconfig.json"⟩, [fileName],
      { blank with exclusions := some ["eval", "eval"] }⟩ :=
    ⟨repeatedText, by decide +kernel, by decide +kernel⟩
  have hchain := Chain.last hl rfl
  have hload := (loadFrom_of_chain hchain (fun _ _ ↦ List.not_mem_nil) hchain.nodup).1 rfl
  exact ⟨_, _, hchain, hload, by decide⟩

end Config
end TypeSurface
