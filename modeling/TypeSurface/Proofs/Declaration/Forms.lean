import TypeSurface.Proofs.Merge.OrderedMaps
import TypeSurface.Proofs.Syntax.Statement

/-!
# Declarations as statements

The statements that declarations are printed as, and declarations without the places they come from.
-/

namespace TypeSurface

/-! ### Forms -/

/-- How the overloads of a member are written. -/
inductive Overloading where
  | method
  | call
  | construct

namespace Overloading

def body : Overloading → List Signature → MemberBody
  | method => .method
  | call => .call
  | construct => .construct

end Overloading

namespace Member

def writtenName (m : Member) : PropertyName := m.name.getD (.identifier m.key.text)

/-- An overload of a member. -/
def overload (m : Member) : Overloading → Signature → MemberForm
  | .method => .method m.writtenName m.isOptional
  | .call => .call
  | .construct => .construct

/-- The members of a block that a member is printed as. -/
def forms (m : Member) : List MemberForm :=
  match m.body with
  | .property type => [.property m.writtenName m.isReadonly m.isOptional type]
  | .index keyName keyType type => [.index m.isReadonly keyName keyType type]
  | .method overloads => overloads.map (m.overload .method)
  | .call overloads => overloads.map (m.overload .call)
  | .construct overloads => overloads.map (m.overload .construct)

theorem forms_of_body {m : Member} {k : Overloading} {overloads : List Signature}
    (h : m.body = k.body overloads) : m.forms = overloads.map (m.overload k) := by
  unfold forms
  rw [h]
  cases k <;> rfl

theorem nameText_eq (m : Member) : m.nameText = m.writtenName.text := by
  unfold nameText writtenName
  cases m.name <;> rfl

theorem lines_eq (m : Member) : m.lines = m.forms.map fun f ↦ f.text ++ ";" := by
  unfold lines forms
  cases m.body with
  | property type =>
    simp only [nameText_eq, List.map_cons, List.map_nil, MemberForm.text]
    rfl
  | index keyName keyType type =>
    simp only [List.map_cons, List.map_nil, MemberForm.text]
    rfl
  | method overloads =>
    simp only [nameText_eq, List.map_map]
    refine List.map_congr_left fun s _ ↦ ?_
    simp only [Function.comp, overload, MemberForm.text]
    rfl
  | call overloads =>
    simp only [List.map_map]
    refine List.map_congr_left fun s _ ↦ ?_
    simp only [Function.comp, overload, MemberForm.text]
    rfl
  | construct overloads =>
    simp only [List.map_map]
    refine List.map_congr_left fun s _ ↦ ?_
    simp only [Function.comp, overload, MemberForm.text]
    rfl

end Member

def Interface.form (i : Interface) : StatementForm :=
  .interface i.name i.typeParams i.heritage (i.members.values.flatMap Member.forms)

def TypeEntry.form : TypeEntry → StatementForm
  | interface i => i.form
  | typeAlias a => .typeAlias a.name a.typeParams a.type

def ValueEntry.forms : ValueEntry → List StatementForm
  | .variable v => [.var v.name v.kind v.type]
  | .function f => f.overloads.map (.function f.name)

/-- The statements that declarations are printed as. -/
def Declarations.forms (d : Declarations) : List StatementForm :=
  d.types.values.map TypeEntry.form ++ d.values.values.flatMap ValueEntry.forms

/-! ### Texts -/

/-- Whether every member of an interface is printed. -/
def Interface.IsPrinted (i : Interface) : Prop := ∀ m ∈ i.members.values, m.forms ≠ []

theorem StatementForm.text_interface {name : String} {typeParams : List TypeParam}
    {heritage : List TypeExpr} {members : List MemberForm} (h : members ≠ []) :
    (StatementForm.interface name typeParams heritage members).text =
      lineOf (lineOf (headText name typeParams heritage ++ " \x7b") ++
        String.join (members.map fun m ↦ lineOf (Member.indent ++ (m.text ++ ";"))) ++
        lineOf "\x7d") := by
  obtain ⟨m, members, rfl⟩ := List.exists_cons_of_ne_nil h
  rfl

theorem Interface.text_eq {i : Interface} (h : i.IsPrinted) : lineOf i.text = i.form.text := by
  unfold text form
  cases hempty : i.members.isEmpty with
  | true =>
    have hvalues : i.members.values = [] := by
      rw [OrderedMap.values, List.isEmpty_iff.1 hempty, List.map_nil]
    rw [hvalues]
    rfl
  | false =>
    obtain ⟨m, members, hvalues⟩ : ∃ m members, i.members.values = m :: members := by
      refine List.exists_cons_of_ne_nil fun hnil ↦ ?_
      rw [OrderedMap.isEmpty, List.map_eq_nil_iff.1 hnil] at hempty
      cases hempty
    have hforms : i.members.values.flatMap Member.forms ≠ [] := by
      intro hnil
      have hm : m ∈ i.members.values := hvalues ▸ List.mem_cons_self
      exact h m hm (List.flatMap_eq_nil_iff.1 hnil m hm)
    have hlines : (i.members.values.flatMap Member.lines).map (lineOf <| Member.indent ++ ·) =
        (i.members.values.flatMap Member.forms).map fun f ↦
          lineOf (Member.indent ++ (f.text ++ ";")) := by
      rw [List.map_flatMap, List.map_flatMap]
      refine List.flatMap_congr fun n _ ↦ ?_
      rw [Member.lines_eq, List.map_map]
      rfl
    rw [StatementForm.text_interface hforms, if_neg (by simp), hlines]
    rfl

theorem ValueEntry.text_eq (entry : ValueEntry) :
    entry.text = String.join (entry.forms.map StatementForm.text) := by
  match entry with
  | .variable v =>
    rw [forms, List.map_cons, List.map_nil, String.join_cons, String.join_nil, String.append_empty]
    rfl
  | .function f =>
    rw [forms, List.map_map]
    rfl

/-- Declarations are printed as their statements, one behind the other. -/
theorem Declarations.text_eq {d : Declarations}
    (h : ∀ i, .interface i ∈ d.types.values → i.IsPrinted) :
    d.text = String.join (d.forms.map StatementForm.text) := by
  have htypes : d.types.values.map TypeEntry.text =
      (d.types.values.map TypeEntry.form).map StatementForm.text := by
    rw [List.map_map]
    refine List.map_congr_left fun entry hentry ↦ ?_
    cases entry with
    | interface i => exact Interface.text_eq (h i hentry)
    | typeAlias a => rfl
  have hvalues : String.join (d.values.values.map ValueEntry.text) =
      String.join ((d.values.values.flatMap ValueEntry.forms).map StatementForm.text) := by
    induction d.values.values with
    | nil => rfl
    | cons entry entries ih =>
      rw [List.map_cons, String.join_cons, ih, List.flatMap_cons, List.map_append,
        String.join_append, ValueEntry.text_eq]
  rw [text, forms, List.map_append, String.join_append, htypes, hvalues]

end TypeSurface
