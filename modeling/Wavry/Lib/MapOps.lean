import Wavry.Lib.AssocMap

/-! A finite map seen only through the operations a program calls on it: the
empty map, lookup, insert and remove. Code written against these operations
runs unchanged on a hash map or an ordered tree map; what it computes depends
only on the three laws below, so two maps that both satisfy them give the same
answers. `AssocMap` and `Std.TreeMap` are the two maps provided. -/

universe u v w

/-- The operations on a map of type `M` from `K` to `V`. -/
structure MapOps (M : Type u) (K : Type v) (V : Type w) where
  empty : M
  get : M → K → Option V
  insert : M → K → V → M
  remove : M → K → M

namespace MapOps

variable {M : Type u} {K : Type v} {V : Type w} [DecidableEq K]

/-- Lookups see the last write to their key and nothing else. -/
structure Lawful (ops : MapOps M K V) : Prop where
  get_empty : ∀ key, ops.get ops.empty key = none
  get_insert : ∀ m key value other,
    ops.get (ops.insert m key value) other = if other = key then some value else ops.get m other
  get_remove : ∀ m key other,
    ops.get (ops.remove m key) other = if other = key then none else ops.get m other

variable {ops : MapOps M K V}

/-- Removing the keys of a list one after another. -/
theorem Lawful.get_foldl_remove (hLawful : ops.Lawful) (keys : List K) (m : M) (key : K) :
    ops.get (keys.foldl ops.remove m) key = if key ∈ keys then none else ops.get m key := by
  induction keys generalizing m with
  | nil => simp
  | cons first rest ih =>
      rw [List.foldl_cons, ih, hLawful.get_remove]
      by_cases hRest : key ∈ rest
      · simp [hRest]
      · by_cases hFirst : key = first <;> simp [hRest, hFirst]

end MapOps

namespace AssocMap

variable {K : Type u} {V : Type v} [DecidableEq K]

/-- An association map through the map operations, as a `HashMap`. -/
def mapOps : MapOps (AssocMap K V) K V := ⟨empty, get, insert, erase⟩

theorem lawful_mapOps : (mapOps : MapOps (AssocMap K V) K V).Lawful where
  get_empty := get_empty
  get_insert m key value other := get_insert m key other value
  get_remove m key other := get_erase m key other

end AssocMap

namespace Std.TreeMap

variable {K : Type u} {V : Type v} [Ord K]

/-- An ordered tree map through the map operations, as a `BTreeMap`. -/
def mapOps : MapOps (Std.TreeMap K V compare) K V :=
  ⟨∅, fun m key => m[key]?, fun m key value => m.insert key value, fun m key => m.erase key⟩

theorem lawful_mapOps [DecidableEq K] [Std.TransOrd K] [Std.LawfulEqOrd K] :
    (mapOps : MapOps (Std.TreeMap K V compare) K V).Lawful where
  get_empty _ := getElem?_emptyc
  get_insert m key value other := by
    change (m.insert key value)[other]? = _
    rw [getElem?_insert]
    by_cases h : other = key
    · simp [h]
    · simp [h, Ne.symm h, mapOps]
  get_remove m key other := by
    change (m.erase key)[other]? = _
    rw [getElem?_erase]
    by_cases h : other = key
    · simp [h]
    · simp [h, Ne.symm h, mapOps]

end Std.TreeMap
