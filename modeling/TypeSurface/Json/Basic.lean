/-!
# JSON values

The fields of an object keep their order, and a name may stand there twice: what is written shows
every entry of a declaration, also of two whose names have one text.
-/

namespace TypeSurface

inductive Json where
  | null
  | bool (value : Bool)
  | number (value : Int)
  | string (value : String)
  | array (items : List Json)
  | object (fields : List (String × Json))
deriving Inhabited

namespace Json

instance : Coe String Json := ⟨string⟩
instance : Coe Bool Json := ⟨bool⟩
instance : Coe Nat Json := ⟨fun n ↦ number n⟩

def ofOption {α : Type} (encode : α → Json) : Option α → Json
  | none => null
  | some a => encode a

def ofList {α : Type} (encode : α → Json) (items : List α) : Json :=
  array (items.map encode)

def strings (items : List String) : Json := ofList string items

/-- A value under the name of its variant. -/
def tagged (tag : String) (value : Json) : Json := object [(tag, value)]

end Json
end TypeSurface
