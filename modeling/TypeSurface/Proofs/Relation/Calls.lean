import TypeSurface.Proofs.Relation.Renaming
import TypeSurface.Proofs.Relation.Rules

/-!
# Signatures as their callers see them

A call gives a number of arguments that a signature admits, and the signature gives each argument a
type: that of the parameter at its place, or what the last parameter collects.  A signature that
covers another admits every call of it.  The types of an argument are compared at the places of the
parameters that the covered signature names; a rest parameter of it collects arguments at further
places, where the covering signature may still name parameters of its own.
-/

namespace TypeSurface

namespace Signature

/-- A call may give `n` arguments. -/
def Admits (s : Signature) (n : Nat) : Prop := s.minArity ≤ n ∧ ∀ m ∈ s.maxArity, n ≤ m

instance (s : Signature) (n : Nat) : Decidable (s.Admits n) :=
  inferInstanceAs (Decidable (_ ∧ _))

/-- The type of the argument at a place. -/
def argument? (s : Signature) (i : Nat) : Option TypeExpr :=
  (Relation.paramAt? s.valueParams i).map fun p ↦ Relation.argumentType p.isRest p.type

/-- Only the last parameter may collect what is left. -/
def IsRestLast (s : Signature) : Prop := ∀ p ∈ s.valueParams.dropLast, p.isRest = false

instance (s : Signature) : Decidable s.IsRestLast :=
  inferInstanceAs (Decidable (∀ _ ∈ _, _))

theorem minArity_le_length (s : Signature) : s.minArity ≤ s.valueParams.length :=
  List.countP_le_length

variable {s : Signature}

theorem maxArity_eq_none_iff : s.maxArity = none ↔ ∃ p ∈ s.valueParams, p.isRest = true := by
  unfold maxArity
  split
  · next h => simpa using h
  · next h => simpa using h

theorem eq_length_of_maxArity {m : Nat} (h : s.maxArity = some m) : m = s.valueParams.length := by
  unfold maxArity at h
  split at h
  · cases h
  · exact (Option.some.inj h).symm

theorem admits_minArity (s : Signature) : s.Admits s.minArity :=
  ⟨Nat.le_refl _, fun _ hm ↦ eq_length_of_maxArity hm ▸ s.minArity_le_length⟩

theorem admits_maxArity {m : Nat} (hm : s.maxArity = some m) : s.Admits m := by
  refine ⟨eq_length_of_maxArity hm ▸ s.minArity_le_length, fun k hk ↦ ?_⟩
  exact Nat.le_of_eq (Option.some.inj (hm.symm.trans hk))

theorem IsRestLast.getLast? (hs : s.IsRestLast) (hmax : s.maxArity = none) :
    ∃ p, s.valueParams.getLast? = some p ∧ p.isRest = true := by
  obtain ⟨p, hp, hrest⟩ := maxArity_eq_none_iff.1 hmax
  have hne := List.ne_nil_of_mem hp
  rw [← List.dropLast_concat_getLast hne, List.mem_append, List.mem_singleton] at hp
  rcases hp with hp | rfl
  · rw [hs p hp] at hrest
    cases hrest
  · exact ⟨_, List.getLast?_eq_some_getLast hne, hrest⟩

theorem IsRestLast.exists_argument? (hs : s.IsRestLast) {n i : Nat} (hn : s.Admits n)
    (hi : i < n) : ∃ t, s.argument? i = some t := by
  suffices ∃ p, Relation.paramAt? s.valueParams i = some p by
    obtain ⟨p, hp⟩ := this
    exact ⟨_, by rw [argument?, hp, Option.map_some]⟩
  unfold Relation.paramAt?
  cases hparam : s.valueParams[i]? with
  | some p => exact ⟨p, rfl⟩
  | none =>
    have hbehind : s.valueParams.length ≤ i := List.getElem?_eq_none_iff.1 hparam
    cases hmax : s.maxArity with
    | some m =>
      have hm := eq_length_of_maxArity hmax
      have hle := hn.2 m hmax
      omega
    | none =>
      obtain ⟨p, hlast, hrest⟩ := hs.getLast? hmax
      exact ⟨p, by simp [hlast, hrest]⟩

/-- Behind its parameters a signature gives every argument the type of the last place. -/
theorem IsRestLast.argument?_behind (hs : s.IsRestLast) {n i : Nat} (hn : s.Admits n) (hi : i < n)
    (hbehind : s.valueParams.length ≤ i) :
    0 < s.valueParams.length ∧ s.argument? i = s.argument? (s.valueParams.length - 1) := by
  cases hmax : s.maxArity with
  | some m =>
    have hm := eq_length_of_maxArity hmax
    have hle := hn.2 m hmax
    omega
  | none =>
    obtain ⟨p, hlast, hrest⟩ := hs.getLast? hmax
    have hplace : s.valueParams[s.valueParams.length - 1]? = some p := by
      rw [← List.getLast?_eq_getElem?, hlast]
    refine ⟨?_, ?_⟩
    · have := (List.getElem?_eq_some_iff.1 hplace).1
      omega
    · simp only [argument?, Relation.paramAt?, List.getElem?_eq_none hbehind, hplace, hlast,
        Option.filter_some, hrest, if_true]

end Signature

namespace Relation

theorem arityCovers_iff {o w : Signature} :
    arityCovers o w = true ↔ ∀ n, w.Admits n → o.Admits n := by
  unfold arityCovers
  rw [Bool.and_eq_true, decide_eq_true_eq]
  constructor
  · rintro ⟨hmin, hmax⟩ n ⟨hwmin, hwmax⟩
    refine ⟨Nat.le_trans hmin hwmin, fun m hm ↦ ?_⟩
    rw [hm] at hmax
    cases hw : w.maxArity with
    | none =>
      rw [hw] at hmax
      cases hmax
    | some k =>
      rw [hw] at hmax
      exact Nat.le_trans (hwmax k hw) (of_decide_eq_true hmax)
  · intro h
    refine ⟨(h _ w.admits_minArity).1, ?_⟩
    cases ho : o.maxArity with
    | none => rfl
    | some m =>
      cases hw : w.maxArity with
      | none =>
        -- A rest parameter takes one argument more than `o` does.
        have hn : w.Admits (w.minArity + m + 1) :=
          ⟨by omega, fun k hk ↦ by rw [hw] at hk; cases hk⟩
        have hle := (h _ hn).2 m ho
        omega
      | some k => exact decide_eq_true ((h k (Signature.admits_maxArity hw)).2 m ho)

section Covers

variable {r : TypeExpr → TypeExpr → Bool} {o w : Signature}

theorem argument?_of_lt {i : Nat} (hi : i < w.valueParams.length) :
    w.argument? i =
      some (argumentType w.valueParams[i].isRest w.valueParams[i].type) := by
  rw [Signature.argument?, paramAt?, List.getElem?_eq_getElem hi, Option.map_some]

/-- The parameters of two signatures relate if the types of each argument that the second names a
parameter for do. -/
theorem paramsRelate_iff_argument? : paramsRelate r o.valueParams w.valueParams = true ↔
    ∀ i < w.valueParams.length, ∀ a b, o.argument? i = some a → w.argument? i = some b →
      Meets r a b := by
  rw [paramsRelate_iff]
  constructor
  · intro h i hi a b ha hb
    obtain ⟨p, hp, rfl⟩ := Option.map_eq_some_iff.1 ha
    rw [argument?_of_lt hi] at hb
    cases hb
    exact h i _ p (List.getElem?_eq_getElem hi) hp
  · intro h i v p hv hp
    obtain ⟨hi, rfl⟩ := List.getElem?_eq_some_iff.1 hv
    exact h i hi _ _ (by rw [Signature.argument?, hp, Option.map_some]) (argument?_of_lt hi)

/-- Coverage, said of the calls of the covered signature. -/
theorem signatureCovers_iff : signatureCovers r o w = true ↔
    o.typeParams.length = w.typeParams.length ∧ (∀ n, w.Admits n → o.Admits n) ∧
      (∀ i < w.valueParams.length, ∀ a b, (namedFor o w).argument? i = some a →
        w.argument? i = some b → Meets r a b) ∧
      (w.result.isKeyword .void = true ∨ r (namedFor o w).result w.result = true) := by
  rw [signatureCovers_eq, arityCovers_namedFor]
  simp only [Bool.and_eq_true, beq_iff_eq, arityCovers_iff, paramsRelate_iff_argument?,
    resultRelates_iff, and_assoc]

theorem isRestLast_namedFor (ho : o.IsRestLast) (v : Signature) : (namedFor o v).IsRestLast := by
  unfold namedFor
  split
  · exact ho
  · intro p hp
    rw [valueParams_renameTypeParams, ← List.map_dropLast] at hp
    obtain ⟨q, hq, rfl⟩ := List.mem_map.1 hp
    rw [renameParam_eq]
    exact ho q hq

end Covers

/-- Coverage is sound for every call: the covering signature admits it, each argument has a type on
either side, and the results relate.  The two types of an argument relate where the covered
signature names a parameter, and at every further place where the covering signature gives the
argument the type that it gives the last of those. -/
theorem calls_of_signatureCovers {types : OrderedMap String TypeEntry} {depth : Nat}
    {o w : Signature} (ho : o.IsRestLast) (hw : w.IsRestLast)
    (h : signatureCovers (assignableWithin types depth) o w = true) :
    (∀ n, w.Admits n → o.Admits n ∧ ∀ i < n, ∃ a b,
      (namedFor o w).argument? i = some a ∧ w.argument? i = some b ∧
        ((i < w.valueParams.length ∨ (namedFor o w).argument? i =
            (namedFor o w).argument? (w.valueParams.length - 1)) →
          Meets (assignableWithin types depth) a b)) ∧
      (w.result.isKeyword .void = true ∨
        assignableWithin types depth (namedFor o w).result w.result = true) := by
  obtain ⟨-, hadmits, hmeets, hresult⟩ := signatureCovers_iff.1 h
  refine ⟨fun n hn ↦ ⟨hadmits n hn, fun i hi ↦ ?_⟩, hresult⟩
  have hn' : (namedFor o w).Admits n := by
    have := hadmits n hn
    simpa only [Signature.Admits, minArity_namedFor, maxArity_namedFor] using this
  obtain ⟨a, ha⟩ := (isRestLast_namedFor ho w).exists_argument? hn' hi
  obtain ⟨b, hb⟩ := hw.exists_argument? hn hi
  refine ⟨a, b, ha, hb, fun hplace ↦ ?_⟩
  by_cases hlt : i < w.valueParams.length
  · exact hmeets i hlt a b ha hb
  -- Behind its own parameters `w` gives every argument the type of the last place.
  have hlast := (hplace.resolve_left hlt).symm.trans ha
  obtain ⟨hpos, hsame⟩ := hw.argument?_behind hn hi (Nat.le_of_not_lt hlt)
  exact hmeets _ (Nat.sub_lt hpos Nat.one_pos) a b hlast (hsame.symm.trans hb)

/-- `(first?: number, ...others: string[]) => void` -/
def numberThenStrings : Signature :=
  ⟨[], [⟨"first", .keyword .number, true, false⟩,
    ⟨"others", .array (.keyword .string), false, true⟩], .keyword .void⟩

/-- `(...all: number[]) => void` -/
def anyNumbers : Signature :=
  ⟨[], [⟨"all", .array (.keyword .number), false, true⟩], .keyword .void⟩

/-- A signature that covers another may give the second of two arguments an unrelated type. -/
theorem not_meets_of_signatureCovers :
    ¬∀ (types : OrderedMap String TypeEntry) (o w : Signature), o.IsRestLast → w.IsRestLast →
      signatureCovers (isAssignable types) o w = true → ∀ n, w.Admits n → ∀ i < n, ∀ a b,
        (namedFor o w).argument? i = some a → w.argument? i = some b →
          Meets (isAssignable types) a b := by
  intro h
  have hcovers : signatureCovers (isAssignable .empty) numberThenStrings anyNumbers = true := by
    decide +kernel
  have hmeets := h .empty numberThenStrings anyNumbers (by decide +kernel) (by decide +kernel)
    hcovers 2 (by decide +kernel) 1 (by decide) (.keyword .string) (.keyword .number)
    (by decide +kernel) (by decide +kernel)
  have hnot : ¬Meets (isAssignable .empty) (.keyword .string) (.keyword .number) := by
    unfold Meets
    decide +kernel
  exact hnot hmeets

/-- `<V>(first: V, second?: V, ...others: V[]) => V` -/
def passThrough : Signature :=
  ⟨[⟨"V", none, none⟩], [⟨"first", .named "V", false, false⟩, ⟨"second", .named "V", true, false⟩,
    ⟨"others", .array (.named "V"), false, true⟩], .named "V"⟩

/-- `<T>(first: T, ...others: T[]) => T` -/
def firstOf : Signature :=
  ⟨[⟨"T", none, none⟩], [⟨"first", .named "T", false, false⟩,
    ⟨"others", .array (.named "T"), false, true⟩], .named "T"⟩

theorem namedFor_passThrough : namedFor passThrough firstOf =
    ⟨[⟨"T", none, none⟩], [⟨"first", .named "T", false, false⟩, ⟨"second", .named "T", true, false⟩,
      ⟨"others", .array (.named "T"), false, true⟩], .named "T"⟩ := by
  simp [namedFor, passThrough, firstOf, haveSameNames, renameTypeParams, renameParam, renameType,
    TypeExpr.named, Renaming.apply]

/-- Of five arguments the last one is behind the parameters of both. -/
theorem calls_of_signatureCovers_passThrough :
    passThrough.IsRestLast ∧ firstOf.IsRestLast ∧
      signatureCovers (assignableWithin .empty 1) passThrough firstOf = true ∧
      firstOf.Admits 5 ∧ passThrough.Admits 5 ∧
      Meets (assignableWithin .empty 1) (.named "T") (.named "T") := by
  have ho : passThrough.IsRestLast := by decide +kernel
  have hw : firstOf.IsRestLast := by decide +kernel
  have hn : firstOf.Admits 5 := by decide +kernel
  have hcovers : signatureCovers (assignableWithin .empty 1) passThrough firstOf = true := by
    rw [signatureCovers_eq, namedFor_passThrough]
    decide +kernel
  obtain ⟨hadmits, harguments⟩ := (calls_of_signatureCovers ho hw hcovers).1 5 hn
  obtain ⟨a, b, ha, hb, hmeets⟩ := harguments 4 (by decide)
  have hsame : (namedFor passThrough firstOf).argument? 4 =
      (namedFor passThrough firstOf).argument? 1 := by
    rw [namedFor_passThrough]
    decide +kernel
  have ha' : (namedFor passThrough firstOf).argument? 4 = some (.named "T") := by
    rw [namedFor_passThrough]
    decide +kernel
  have hb' : firstOf.argument? 4 = some (.named "T") := by decide +kernel
  cases ha.symm.trans ha'
  cases hb.symm.trans hb'
  exact ⟨ho, hw, hcovers, hn, hadmits, hmeets (.inr hsame)⟩

end Relation
end TypeSurface
