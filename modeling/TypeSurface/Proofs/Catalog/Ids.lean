import TypeSurface.Catalog.Basic
import TypeSurface.Proofs.Syntax.Parser.Directives

/-!
# Ids in the catalog

Each text of the catalog declares the set that it is listed as.
-/

namespace TypeSurface

namespace Directive

theorem head?_of_readTag? {cs : List Char} {tag : List Char × List (List Char × List Char)}
    (h : readTag? cs = some tag) : cs.head? = some '<' := by
  unfold readTag? at h
  split at h
  · rfl
  · cases h

/-- The id in a tag that names a set and starts with its id. -/
def idOfTag? : List Char × List (List Char × List Char) → Option (List Char)
  | (name, (key, id) :: _) => if name = "set".toList ∧ key = "id".toList then some id else none
  | _ => none

/-- The id that a text gives which is one line of three slashes. -/
def idOfLine? : List Char → Option (List Char)
  | '/' :: '/' :: '/' :: cs =>
    if cs.dropWhile (!Text.isLineBreak ·) = ['\n'] then
      (readTag? (Text.trim (cs.takeWhile (!Text.isLineBreak ·)))).bind idOfTag?
    else none
  | _ => none

theorem eq_of_idOfTag? {tag : List Char × List (List Char × List Char)} {id : List Char}
    (h : idOfTag? tag = some id) :
    ∃ attributes, tag = ("set".toList, ("id".toList, id) :: attributes) := by
  unfold idOfTag? at h
  split at h
  · split at h
    · next hwords =>
      obtain ⟨rfl, rfl⟩ := hwords
      cases h
      exact ⟨_, rfl⟩
    · cases h
  · cases h

end Directive

/-- A text whose first line names a set declares that set. -/
theorem DeclarationSet.id_of_line {file header body : String} {id : List Char} {S : DeclarationSet}
    (h : parse file (header ++ body) = .ok S)
    (hid : Directive.idOfLine? header.toList = some id) : S.id = String.ofList id := by
  generalize hcs : header.toList = cs at hid
  unfold Directive.idOfLine? at hid
  split at hid
  next line =>
    split at hid
    · next hend =>
      obtain ⟨tag, htag, hid⟩ := Option.bind_eq_some_iff.1 hid
      obtain ⟨attributes, rfl⟩ := Directive.eq_of_idOfTag? hid
      have hsource : (header ++ body).toList = '/' :: '/' :: '/' ::
          (line.takeWhile (!Text.isLineBreak ·) ++ '\n' :: body.toList) := by
        have hline : line.takeWhile (!Text.isLineBreak ·) ++ ['\n'] = line :=
          hend ▸ List.takeWhile_append_dropWhile
        rw [String.toList_append, hcs]
        simp only [List.cons_append, List.cons.injEq, true_and]
        rw [List.append_cons, hline]
      have hbreaks : ∀ c ∈ line.takeWhile (!Text.isLineBreak ·), (!Text.isLineBreak c) = true :=
        fun c hc ↦ @List.mem_takeWhile_imp _ (!Text.isLineBreak ·) _ _ hc
      obtain ⟨span, afterLineBreak, hscan⟩ := scan_line file hsource hbreaks
      have hkind : (Scanner.ofSource file (header ++ body)).scan.token.kind = .directive := by
        rw [hscan]
      obtain ⟨first, hfirst, hname, hattribute⟩ :
          ∃ d, (Scanner.ofSource file (header ++ body)).scan.token.directive? = some d ∧
            d.name = "set" ∧ d.attribute? "id" = some (String.ofList id) := by
        rw [hscan]
        simp only [Token.directive?, Directive.ofText?, String.toList_ofList, htag,
          Directive.head?_of_readTag? htag, if_true, Option.map_some]
        exact ⟨_, rfl, rfl, rfl⟩
      obtain ⟨d, hd, hid⟩ := id_of_parse h
      rw [Scanner.directives_of_kind hkind, hfirst, Option.toList_some, List.cons_append,
        List.find?_cons_of_pos (by simp [hname])] at hd
      obtain rfl := Option.some.inj hd
      exact Option.some.inj (hid.symm.trans hattribute)
    · cases hid
  · cases hid

namespace Catalog

theorem id_of_parse {e : EmbeddedSet} (he : e ∈ all) {file : String} {S : DeclarationSet}
    (h : DeclarationSet.parse file e.text = .ok S) : S.id = e.id := by
  simp only [all, List.mem_cons, List.not_mem_nil, or_false] at he
  rcases he with rfl | rfl | rfl | rfl
  · exact DeclarationSet.id_of_line h (by decide +kernel : _ = some "base".toList)
  · exact DeclarationSet.id_of_line h (by decide +kernel : _ = some "js".toList)
  · exact DeclarationSet.id_of_line h (by decide +kernel : _ = some "js.legacy".toList)
  · exact DeclarationSet.id_of_line h (by decide +kernel : _ = some "host-native".toList)

end Catalog
end TypeSurface
