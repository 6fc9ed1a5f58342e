import TypeSurface.Proofs.Declaration.WellFormed
import TypeSurface.Proofs.Surface.Outcome

/-!
# Names of members

The name of a member is the name of its interface in front of the text of its key.  An interface is
named by a word, so the name of a member can be taken apart again; what cannot be told apart are two
keys of one interface that have the same text.
-/

namespace TypeSurface

/-! ### Declared names -/

/-- Whether everything is declared under a word. -/
structure Declarations.IsNamed (d : Declarations) : Prop where
  types : ∀ name ∈ d.types.keys, Lexeme.isWord name.toList = true
  values : ∀ name ∈ d.values.keys, Lexeme.isWord name.toList = true

theorem TypeEntry.IsBound.isWord {isQuiet : Bool} {name : String} {entry : TypeEntry}
    (h : entry.IsBound isQuiet name) : Lexeme.isWord name.toList = true := by
  cases entry with
  | interface i =>
    have hwritten := h.head.written
    simp only [StatementForm.isWritten, Bool.and_eq_true] at hwritten
    exact h.name ▸ hwritten.1.1.1
  | typeAlias a =>
    obtain ⟨hname, hwritten, -⟩ := h
    simp only [StatementForm.isWritten, Bool.and_eq_true] at hwritten
    exact hname ▸ hwritten.1.1

theorem ValueEntry.IsBound.isWord {isQuiet : Bool} {name : String} {entry : ValueEntry}
    (h : entry.IsBound isQuiet name) : Lexeme.isWord name.toList = true := by
  obtain ⟨f, hf⟩ := List.exists_mem_of_ne_nil _ h.printed
  have hwritten := (h.found f hf).written
  have hname := h.name
  rcases entry with v | g
  · obtain rfl := List.mem_singleton.1 hf
    exact hname ▸ (Bool.and_eq_true_iff.1 hwritten).1
  · obtain ⟨s, -, rfl⟩ := List.mem_map.1 hf
    exact hname ▸ (Bool.and_eq_true_iff.1 hwritten).1

theorem Declarations.IsBound.isNamed {isQuiet : Bool} {d : Declarations} (h : d.IsBound isQuiet) :
    d.IsNamed where
  types name hname := by
    obtain ⟨entry, hentry⟩ := OrderedMap.mem_keys_iff.1 hname
    exact (h.types name entry hentry).isWord
  values name hname := by
    obtain ⟨entry, hentry⟩ := OrderedMap.mem_keys_iff.1 hname
    exact (h.values name entry hentry).isWord

theorem Declarations.IsNamed.declarations {base extension : Declarations} (hbase : base.IsNamed)
    (hextension : extension.IsNamed) :
    (Merge.declarations .replace base extension).value.IsNamed where
  types name hname := by
    have haccounted := Merge.declarations_isAccounted base extension
    exact (haccounted.types.mem_keys hname).elim (hbase.types name) (hextension.types name)
  values name hname := by
    have haccounted := Merge.declarations_isAccounted base extension
    exact (haccounted.values.mem_keys hname).elim (hbase.values name) (hextension.values name)

namespace Surface

/-! ### Taking a name apart -/

/-- What stands between the name of an interface and the text of a key. -/
def joint : MemberKey → List Char
  | .named _ | .construct => ['.']
  | .index _ | .call => []

theorem toList_memberName (owner : String) (key : MemberKey) :
    (memberName owner key).toList = owner.toList ++ (joint key ++ key.text.toList) := by
  cases key <;> simp [memberName, joint, String.toList_append]

/-- Behind the name of the interface there is a dot in front of the key, or a bracket that belongs
to the key. -/
theorem joint_append_text (key : MemberKey) :
    (joint key = ['.'] ∨ joint key = [] ∧ ∃ c cs, key.text.toList = c :: cs ∧ c ≠ '.') ∧
      ∃ c cs, joint key ++ key.text.toList = c :: cs ∧ endsInterfaceName c = true := by
  cases key with
  | named name => exact ⟨Or.inl rfl, '.', name.toList, rfl, rfl⟩
  | index key =>
    have htext : (MemberKey.index key).text.toList = '[' :: (key.text.toList ++ [']']) := by
      simp [MemberKey.text, String.toList_append]
    refine ⟨Or.inr ⟨rfl, '[', _, htext, by decide⟩, '[', _, htext, rfl⟩
  | call => exact ⟨Or.inr ⟨rfl, '(', [')'], rfl, by decide⟩, '(', [')'], rfl, rfl⟩
  | construct => exact ⟨Or.inl rfl, '.', "new()".toList, rfl, rfl⟩

theorem takeWhile_memberName {owner : String} (h : Lexeme.isWord owner.toList = true)
    (key : MemberKey) :
    (memberName owner key).toList.takeWhile (!endsInterfaceName ·) = owner.toList := by
  have hinside : ∀ c ∈ owner.toList, (!endsInterfaceName c) = true := by
    intro c hc
    have hpart := Lexeme.isIdentifierPart_of_mem_word h hc
    have hne : ∀ d, CharClass.isIdentifierPart d = false → c ≠ d := by
      rintro d hd rfl
      rw [hd] at hpart
      cases hpart
    simp [endsInterfaceName, hne '.' (by decide), hne '[' (by decide), hne '(' (by decide)]
  obtain ⟨-, c, cs, htext, hc⟩ := joint_append_text key
  rw [toList_memberName, htext]
  refine Text.takeWhile_append_of_head? hinside fun d hd ↦ ?_
  obtain rfl := Option.some.inj hd
  rw [hc]
  rfl

/-- The name of a member is looked up as the name of an interface and the text of a key. -/
theorem resolveMember?_memberName (s : Surface) {owner : String}
    (h : Lexeme.isWord owner.toList = true) (key : MemberKey) :
    s.resolveMember? (memberName owner key) = (s.interface? owner).bind fun i ↦
      (i.members.entries.find? (·.1.text == key.text)).map fun e ↦ (i, e.2) := by
  unfold resolveMember?
  dsimp only
  rw [takeWhile_memberName h, toList_memberName, List.drop_left, String.ofList_toList]
  obtain ⟨hjoint | ⟨hjoint, c, cs, htext, hdot⟩, -⟩ := joint_append_text key
  · rw [hjoint]
    cases s.interface? owner <;> simp
  · have hchars : String.ofList (c :: cs) = key.text := by rw [← htext, String.ofList_toList]
    rw [hjoint, List.nil_append, htext]
    cases s.interface? owner <;> simp [hdot, hchars]

/-- Names of members are alike only for keys with the same text in one interface. -/
theorem eq_of_memberName_eq {owner owner' : String} {key key' : MemberKey}
    (h : Lexeme.isWord owner.toList = true) (h' : Lexeme.isWord owner'.toList = true)
    (hname : memberName owner key = memberName owner' key') :
    owner = owner' ∧ key.text = key'.text := by
  have howner : owner = owner' := by
    apply String.toList_inj.1
    rw [← takeWhile_memberName h key, hname, takeWhile_memberName h']
  subst howner
  have htail := congrArg String.toList hname
  rw [toList_memberName, toList_memberName, List.append_cancel_left_eq] at htail
  refine ⟨rfl, String.toList_inj.1 ?_⟩
  obtain ⟨hjoint | ⟨hjoint, c, cs, htext, hdot⟩, -⟩ := joint_append_text key <;>
    obtain ⟨hjoint' | ⟨hjoint', d, ds, htext', hdot'⟩, -⟩ := joint_append_text key' <;>
      rw [hjoint, hjoint'] at htail
  · exact (List.cons.inj htail).2
  · rw [htext'] at htail
    exact absurd (List.cons.inj htail).1.symm hdot'
  · rw [htext] at htail
    exact absurd (List.cons.inj htail).1 hdot
  · exact htail

/-- No name of a member is a word. -/
theorem not_isWord_memberName (owner : String) (key : MemberKey) :
    Lexeme.isWord (memberName owner key).toList = false := by
  obtain ⟨-, c, cs, htext, hc⟩ := joint_append_text key
  refine Bool.eq_false_iff.2 fun hword ↦ ?_
  have hmem : c ∈ (memberName owner key).toList := by
    rw [toList_memberName, htext]
    exact List.mem_append_right _ List.mem_cons_self
  have hpart := Lexeme.isIdentifierPart_of_mem_word hword hmem
  simp only [endsInterfaceName, Bool.or_eq_true, beq_iff_eq] at hc
  rcases hc with (rfl | rfl) | rfl <;> exact absurd hpart (by decide)

/-! ### Names and look-up -/

/-- The names of the members that a type has. -/
def entryNames : TypeEntry → List String
  | .interface i => i.members.keys.map (memberName i.name)
  | .typeAlias _ => []

theorem memberNames_eq (s : Surface) :
    s.memberNames =
      s.declarations.types.entries.flatMap (fun e ↦ entryNames e.2) ++
        s.declarations.values.keys := by
  unfold memberNames
  rw [OrderedMap.values, List.flatMap_map]
  congr 2

/-- Whether the texts of the keys of an interface are pairwise distinct. -/
def HasDistinctTexts (i : Interface) : Prop := (i.members.keys.map MemberKey.text).Nodup

/-- In an interface with distinct texts a member is found by the text of its key. -/
theorem find?_text {i : Interface} (h : HasDistinctTexts i) {k : MemberKey} {m : Member}
    (hm : (k, m) ∈ i.members.entries) :
    i.members.entries.find? (·.1.text == k.text) = some (k, m) := by
  unfold HasDistinctTexts OrderedMap.keys at h
  rw [List.map_map] at h
  cases hfind : i.members.entries.find? (·.1.text == k.text) with
  | none => simpa using List.find?_eq_none.1 hfind _ hm
  | some e =>
    have htext : e.1.text = k.text := by simpa using List.find?_some hfind
    have hsame : e = (k, m) :=
      List.inj_on_of_nodup_map h (List.mem_of_find?_eq_some hfind) hm htext
    rw [hsame]

section

variable {s : Surface} (hformed : s.declarations.IsWellFormed) (hnamed : s.declarations.IsNamed)

include hformed hnamed

theorem isWord_of_get? {name : String} {i : Interface}
    (h : s.declarations.types.get? name = some (.interface i)) :
    i.name = name ∧ Lexeme.isWord i.name.toList = true := by
  have hname : i.name = name := (hformed.types name _ h).name
  exact ⟨hname, hname ▸ hnamed.types _ (OrderedMap.mem_keys_iff.2 ⟨_, h⟩)⟩

theorem resolveMember?_eq {name : String} {i : Interface}
    (h : s.declarations.types.get? name = some (.interface i)) (key : MemberKey) :
    s.resolveMember? (memberName i.name key) =
      (i.members.entries.find? (·.1.text == key.text)).map fun e ↦ (i, e.2) := by
  obtain ⟨rfl, hword⟩ := isWord_of_get? hformed hnamed h
  have hi : s.interface? i.name = some i := by
    rw [interface?, Declarations.interface?, h]
    rfl
  rw [resolveMember?_memberName s hword, hi]
  rfl

theorem hasDistinctTexts_of_resolves {name : String} {i : Interface}
    (h : s.declarations.types.get? name = some (.interface i))
    (hresolves : ∀ k m, i.members.get? k = some m →
      s.resolveMember? (memberName i.name k) = some (i, m)) : HasDistinctTexts i := by
  refine List.pairwise_map.2 (i.members.nodup.imp_of_mem ?_)
  intro k l hk hl hne htext
  obtain ⟨m, hm⟩ := OrderedMap.mem_keys_iff.1 hk
  obtain ⟨n, hn⟩ := OrderedMap.mem_keys_iff.1 hl
  -- The two names are looked up alike, so the members are the same, and so are their keys.
  have hsame : some (i, m) = some (i, n) := by
    rw [← hresolves k m hm, ← hresolves l n hn, resolveMember?_eq hformed hnamed h,
      resolveMember?_eq hformed hnamed h, htext]
  obtain rfl := (Prod.mk.inj (Option.some.inj hsame)).2
  have hinterface : i.IsWellFormed name := hformed.types name _ h
  exact hne ((hinterface.members k m hm).key.symm.trans (hinterface.members l m hn).key)

theorem memberNames_nodup
    (hdistinct : ∀ i, .interface i ∈ s.declarations.types.values → HasDistinctTexts i) :
    s.memberNames.Nodup := by
  have hentry : ∀ e ∈ s.declarations.types.entries, ∀ name ∈ entryNames e.2,
      ∃ key, name = memberName e.1 key ∧ Lexeme.isWord e.1.toList = true := by
    rintro ⟨owner, entry⟩ he name hname
    rcases entry with i | a
    · obtain ⟨rfl, hword⟩ := isWord_of_get? hformed hnamed (OrderedMap.get?_eq_some_iff.2 he)
      obtain ⟨key, -, rfl⟩ := List.mem_map.1 hname
      exact ⟨key, rfl, hword⟩
    · cases hname
  rw [memberNames_eq]
  refine List.nodup_append.2 ⟨List.nodup_flatMap.2 ⟨fun e he ↦ ?_, ?_⟩,
    s.declarations.values.nodup, ?_⟩
  · obtain ⟨owner, entry⟩ := e
    rcases entry with i | a
    · obtain ⟨-, hword⟩ := isWord_of_get? hformed hnamed (OrderedMap.get?_eq_some_iff.2 he)
      have htexts := List.pairwise_map.1 (hdistinct i (List.mem_map_of_mem he))
      exact List.pairwise_map.2 <|
        htexts.imp fun hne hname ↦ hne (eq_of_memberName_eq hword hword hname).2
    · exact List.nodup_nil
  · refine (List.pairwise_map.1 s.declarations.types.nodup).imp_of_mem ?_
    intro a b ha hb hne
    refine List.disjoint_left.2 fun name hname hname' ↦ ?_
    obtain ⟨key, rfl, hword⟩ := hentry a ha name hname
    obtain ⟨key', hsame, hword'⟩ := hentry b hb _ hname'
    exact hne (eq_of_memberName_eq hword hword' hsame).1
  · rintro name hname value hvalue rfl
    obtain ⟨e, he, hname⟩ := List.mem_flatMap.1 hname
    obtain ⟨key, rfl, -⟩ := hentry e he name hname
    have hword := hnamed.values _ hvalue
    rw [not_isWord_memberName] at hword
    cases hword

end

/-! ### Surfaces of parsed sets -/

theorem isNamed_of_build_eq_ok {mode : Mode} {installed : List DeclarationSet} {p : Profile}
    {options : ValidationOptions} {v : ValidatedSurface}
    (h : build mode installed p options = .ok v) (hparsed : ∀ S ∈ installed, S.IsParsed) :
    v.surface.declarations.IsWellFormed ∧ v.surface.declarations.IsNamed := by
  obtain ⟨base, extension, hs, -, -, hv⟩ := isSelected_of_build_eq_ok h
  have hmem : base ∈ installed ∧ extension ∈ installed := by
    have hb : base ∈ installed.filter (·.isBase) := hs.bases ▸ List.mem_singleton_self base
    have he : extension ∈ installed.filter (!·.isBase) :=
      hs.extensions ▸ List.mem_singleton_self extension
    exact ⟨List.mem_of_mem_filter hb, List.mem_of_mem_filter he⟩
  obtain ⟨file, source, hbase⟩ := hparsed base hmem.1
  obtain ⟨file', source', hextension⟩ := hparsed extension hmem.2
  rw [hv, merged_eq]
  exact ⟨(Binding.isWellFormed_of_parse hbase).declarations
      (Binding.isWellFormed_of_parse hextension),
    (DeclarationSet.isBound_of_parse hbase).isNamed.declarations
      (DeclarationSet.isBound_of_parse hextension).isNamed⟩

/-- Each name of a member is there once and denotes that member, exactly when no interface has two
members whose keys have the same text. -/
theorem memberNames_resolve_iff {mode : Mode} {installed : List DeclarationSet} {p : Profile}
    {options : ValidationOptions} {v : ValidatedSurface}
    (h : build mode installed p options = .ok v) (hparsed : ∀ S ∈ installed, S.IsParsed) :
    (v.surface.memberNames.Nodup ∧
        ∀ i, .interface i ∈ v.surface.declarations.types.values →
          ∀ k m, i.members.get? k = some m →
            v.surface.resolveMember? (memberName i.name k) = some (i, m)) ↔
      ∀ i, .interface i ∈ v.surface.declarations.types.values → HasDistinctTexts i := by
  obtain ⟨hformed, hnamed⟩ := isNamed_of_build_eq_ok h hparsed
  constructor
  · rintro ⟨-, hresolves⟩ i hi
    obtain ⟨name, hget⟩ := OrderedMap.mem_values_iff.1 hi
    exact hasDistinctTexts_of_resolves hformed hnamed hget (hresolves i hi)
  · intro hdistinct
    refine ⟨memberNames_nodup hformed hnamed hdistinct, fun i hi k m hm ↦ ?_⟩
    obtain ⟨name, hget⟩ := OrderedMap.mem_values_iff.1 hi
    rw [resolveMember?_eq hformed hnamed hget,
      find?_text (hdistinct i hi) (OrderedMap.get?_eq_some_iff.1 hm)]
    rfl

/-- An interface with a name that is spelt like the key of its construct signature. -/
def constructibleSource : String :=
  "/// <set id=\"base\" />\ninterface Box \x7b \"new()\": string; new(): Box; at(i: int): Box \x7d"

/-- An interface whose index signature stands beside the name `number`. -/
def indexedSource : String :=
  "/// <set id=\"js\" mode=\"js\" />\ninterface Row \x7b number: Box; [i: number]: Box \x7d"

theorem memberNames_resolve_iff_constructible :
    ∃ S T v, DeclarationSet.parse "base.d.ts" constructibleSource = .ok S ∧
      DeclarationSet.parse "js.d.ts" indexedSource = .ok T ∧
      build .js [S, T] (.ofMode .js) ⟨false, []⟩ = .ok v ∧
      v.surface.memberNames =
        ["Box.new()", "Box.new()", "Box.at", "Row.number", "Row[number]"] ∧
      ((v.surface.memberNames.Nodup ∧
          ∀ i, .interface i ∈ v.surface.declarations.types.values →
            ∀ k m, i.members.get? k = some m →
              v.surface.resolveMember? (memberName i.name k) = some (i, m)) ↔
        ∀ i, .interface i ∈ v.surface.declarations.types.values → HasDistinctTexts i) := by
  have hrun : ((DeclarationSet.parse "base.d.ts" constructibleSource).toOption.bind fun S ↦
      (DeclarationSet.parse "js.d.ts" indexedSource).toOption.bind fun T ↦
        (build .js [S, T] (.ofMode .js) ⟨false, []⟩).toOption.map (·.surface.memberNames)) =
      some ["Box.new()", "Box.new()", "Box.at", "Row.number", "Row[number]"] := by decide +kernel
  obtain ⟨S, hS, hrun⟩ := Option.bind_eq_some_iff.1 hrun
  obtain ⟨T, hT, hrun⟩ := Option.bind_eq_some_iff.1 hrun
  obtain ⟨v, hv, hnames⟩ := Option.map_eq_some_iff.1 hrun
  have hbase := DeclarationSet.eq_ok_of_toOption hS
  have hextension := DeclarationSet.eq_ok_of_toOption hT
  have hbuild := DeclarationSet.eq_ok_of_toOption hv
  refine ⟨S, T, v, hbase, hextension, hbuild, hnames, memberNames_resolve_iff hbuild ?_⟩
  rw [List.forall_mem_cons, List.forall_mem_singleton]
  exact ⟨⟨_, _, hbase⟩, ⟨_, _, hextension⟩⟩

end Surface
end TypeSurface
