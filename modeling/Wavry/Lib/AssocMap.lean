import Mathlib

/-! Finite maps as association lists with distinct keys: the observable content
of a hash map. Buckets, hashing and capacity are absent; what a program can see
is which keys are present, the value under each and how many entries there are.
The invariant that keys are distinct is a field, so every map built by the
operations below has it. -/

universe u v

/-- A finite map: one entry per key. -/
structure AssocMap (K : Type u) (V : Type v) where
  entries : List (K × V)
  nodup : (entries.map Prod.fst).Nodup

namespace AssocMap

variable {K : Type u} {V : Type v}

/-- The map with no entry. -/
def empty : AssocMap K V := ⟨[], List.nodup_nil⟩

/-- The number of entries. -/
def size (m : AssocMap K V) : Nat := m.entries.length

/-- The keys present. -/
def keys (m : AssocMap K V) : List K := m.entries.map Prod.fst

theorem nodup_map_fst_filter (entries : List (K × V)) (p : K × V → Bool)
    (h : (entries.map Prod.fst).Nodup) : ((entries.filter p).map Prod.fst).Nodup :=
  List.Nodup.sublist (List.Sublist.map _ (List.filter_sublist)) h

/-- Keep the entries that satisfy `keep`, as `HashMap::retain`. -/
def retain (m : AssocMap K V) (keep : K → V → Bool) : AssocMap K V :=
  ⟨m.entries.filter (fun entry => keep entry.1 entry.2),
    nodup_map_fst_filter _ _ m.nodup⟩

theorem size_retain_le (m : AssocMap K V) (keep : K → V → Bool) : (m.retain keep).size ≤ m.size :=
  List.length_filter_le _ _

/-- Change every value in place, as `values_mut` does: the keys and their
order stay. -/
def mapVal (m : AssocMap K V) (f : K → V → V) : AssocMap K V :=
  ⟨m.entries.map fun entry => (entry.1, f entry.1 entry.2), by
    simpa [Function.comp_def] using m.nodup⟩

variable [DecidableEq K]

/-- The value stored under `key`, if any. -/
def get (m : AssocMap K V) (key : K) : Option V :=
  (m.entries.find? fun entry => entry.1 = key).map Prod.snd

/-- Remove the entry under `key`, as `HashMap::remove`. -/
def erase (m : AssocMap K V) (key : K) : AssocMap K V :=
  m.retain fun k _ => k ≠ key

theorem not_mem_keys_erase (m : AssocMap K V) (key : K) : key ∉ (m.erase key).keys := by
  simp [keys, erase, retain]

/-- Store `value` under `key`, replacing any earlier value, as `HashMap::insert`. -/
def insert (m : AssocMap K V) (key : K) (value : V) : AssocMap K V :=
  ⟨(key, value) :: (m.erase key).entries,
    List.nodup_cons.mpr ⟨m.not_mem_keys_erase key, (m.erase key).nodup⟩⟩

/-! ## Lookup -/

@[simp] theorem get_empty (key : K) : (empty : AssocMap K V).get key = none := rfl

theorem find?_eq_none_of_not_mem {entries : List (K × V)} {key : K}
    (h : key ∉ entries.map Prod.fst) : (entries.find? fun entry => entry.1 = key) = none := by
  rw [List.find?_eq_none]
  intro entry hEntry hKey
  exact h (List.mem_map.mpr ⟨entry, hEntry, of_decide_eq_true hKey⟩)

/-- Filtering the entries of a map commutes with lookup; distinct keys matter,
since a dropped entry could otherwise uncover a later one under its key. -/
theorem find?_filter (entries : List (K × V)) (keep : K → V → Bool) (key : K)
    (h : (entries.map Prod.fst).Nodup) :
    ((entries.filter fun entry => keep entry.1 entry.2).find? fun entry => entry.1 = key).map
        Prod.snd =
      ((entries.find? fun entry => entry.1 = key).map Prod.snd).filter (keep key) := by
  induction entries with
  | nil => rfl
  | cons entry entries ih =>
      obtain ⟨k, value⟩ := entry
      obtain ⟨hFresh, hTail⟩ := List.nodup_cons.mp h
      by_cases hKey : k = key
      · subst hKey
        have hNone : ((entries.filter fun entry => keep entry.1 entry.2).find? fun entry =>
            entry.1 = k) = none :=
          find?_eq_none_of_not_mem fun hMem =>
            hFresh (List.Sublist.subset (List.Sublist.map _ List.filter_sublist) hMem)
        by_cases hKeep : keep k value <;> simp [hKeep, hNone, Option.filter_some]
      · by_cases hKeep : keep k value <;>
          simpa [List.filter_cons, hKeep, hKey, List.find?_cons] using ih hTail

@[simp] theorem get_retain (m : AssocMap K V) (keep : K → V → Bool) (key : K) :
    (m.retain keep).get key = (m.get key).filter (keep key) :=
  find?_filter m.entries keep key m.nodup

@[simp] theorem get_erase (m : AssocMap K V) (key other : K) :
    (m.erase key).get other = if other = key then none else m.get other := by
  rw [erase, get_retain]
  by_cases h : other = key <;> cases m.get other <;> simp [h]

@[simp] theorem get_insert (m : AssocMap K V) (key other : K) (value : V) :
    (m.insert key value).get other = if other = key then some value else m.get other := by
  by_cases h : other = key
  · subst h
    simp [insert, get]
  · have hEntry : ((key, value) :: (m.erase key).entries).find? (fun entry => entry.1 = other) =
        (m.erase key).entries.find? (fun entry => entry.1 = other) := by
      simp [Ne.symm h]
    have hTail := get_erase m key other
    simp only [get] at hTail ⊢
    simp only [insert, hEntry, hTail, if_neg h]

/-- Change the value under `key` in place, as a write through `get_mut`
does; an absent key stays absent. -/
def update (m : AssocMap K V) (key : K) (f : V → V) : AssocMap K V :=
  m.mapVal fun k v => if k = key then f v else v

@[simp] theorem get_mapVal (m : AssocMap K V) (f : K → V → V) (key : K) :
    (m.mapVal f).get key = (m.get key).map (f key) := by
  simp only [get, mapVal, List.find?_map, Function.comp_def, Option.map_map]
  cases hFind : m.entries.find? (fun entry => entry.1 = key) with
  | none => rfl
  | some entry =>
      have hKey : entry.1 = key := by simpa using List.find?_some hFind
      simp [hKey]

@[simp] theorem get_update (m : AssocMap K V) (key other : K) (f : V → V) :
    (m.update key f).get other = if other = key then (m.get other).map f else m.get other := by
  by_cases h : other = key <;> simp [update, h]

/-- An entry is what lookup finds under its key: keys are distinct. -/
theorem get_eq_of_mem (m : AssocMap K V) {key : K} {value : V} (h : (key, value) ∈ m.entries) :
    m.get key = some value := by
  obtain ⟨found, hFind⟩ : ∃ found, m.entries.find? (fun entry => entry.1 = key) = some found := by
    cases hFind : m.entries.find? (fun entry => entry.1 = key) with
    | some found => exact ⟨found, rfl⟩
    | none => exact absurd (List.find?_eq_none.mp hFind _ h) (by simp)
  have hKey : found.1 = key := by simpa using List.find?_some hFind
  have hSame : found = (key, value) :=
    List.inj_on_of_nodup_map m.nodup (List.mem_of_find?_eq_some hFind) h hKey
  simp [get, hFind, hSame]

theorem mem_of_get_eq_some (m : AssocMap K V) {key : K} {value : V} (h : m.get key = some value) :
    (key, value) ∈ m.entries := by
  obtain ⟨entry, hFind, rfl⟩ := Option.map_eq_some_iff.mp h
  have hKey : entry.1 = key := by simpa using List.find?_some hFind
  rw [← hKey]
  exact List.mem_of_find?_eq_some hFind

/-- Inserting or updating under `key` leaves the other entries as they were. -/
theorem mem_of_mem_insert {m : AssocMap K V} {key : K} {value : V} {entry : K × V}
    (h : entry ∈ (m.insert key value).entries) (hNe : entry.1 ≠ key) : entry ∈ m.entries := by
  rcases List.mem_cons.mp h with rfl | hRest
  · exact absurd rfl hNe
  · exact (List.mem_filter.mp hRest).1

theorem mem_of_mem_update {m : AssocMap K V} {key : K} {f : V → V} {entry : K × V}
    (h : entry ∈ (m.update key f).entries) (hNe : entry.1 ≠ key) : entry ∈ m.entries := by
  obtain ⟨old, hOld, rfl⟩ := List.mem_map.mp h
  simp only [ne_eq] at hNe
  simpa [hNe] using hOld

/-- Removing an absent key removes nothing. -/
theorem entries_erase_of_get_eq_none (m : AssocMap K V) {key : K} (h : m.get key = none) :
    (m.erase key).entries = m.entries := by
  refine List.filter_eq_self.mpr fun entry hEntry => ?_
  have hFound := m.get_eq_of_mem hEntry
  simp only [ne_eq, decide_eq_true_eq]
  rintro hKey
  rw [hKey, h] at hFound
  cases hFound

theorem mem_keys_iff (m : AssocMap K V) (key : K) : key ∈ m.keys ↔ (m.get key).isSome := by
  simp [keys, get, List.find?_isSome]

/-- Inserting an absent key puts one entry in front of the others. -/
theorem entries_insert_of_get_eq_none (m : AssocMap K V) {key : K} (value : V)
    (h : m.get key = none) : (m.insert key value).entries = (key, value) :: m.entries := by
  show (key, value) :: (m.erase key).entries = _
  rw [entries_erase_of_get_eq_none m h]

/-- Removing a list of keys one after another keeps the entries under the
other keys. -/
theorem entries_foldl_erase (m : AssocMap K V) (ks : List K) :
    (ks.foldl erase m).entries = m.entries.filter fun entry => entry.1 ∉ ks := by
  induction ks generalizing m with
  | nil => simp
  | cons k ks ih =>
      rw [List.foldl_cons, ih, erase, retain, List.filter_filter]
      refine List.filter_congr fun entry _ => ?_
      simp only [List.mem_cons, not_or, ne_eq, Bool.decide_and, Bool.and_comm]

/-- Collecting the keys of the entries that satisfy `p` and then removing
them, as a loop over a collected key vector does, keeps exactly the entries
that fail `p`; distinct keys matter, since a removed key could otherwise also
name an entry that fails `p`. -/
theorem entries_foldl_erase_filter (m : AssocMap K V) (p : K × V → Bool) :
    (((m.entries.filter p).map Prod.fst).foldl erase m).entries =
      m.entries.filter fun entry => !p entry := by
  rw [entries_foldl_erase]
  refine List.filter_congr fun entry hEntry => ?_
  have hIff : entry.1 ∈ (m.entries.filter p).map Prod.fst ↔ p entry = true := by
    constructor
    · rintro hMem
      obtain ⟨other, hOther, hKey⟩ := List.mem_map.mp hMem
      have hSame : other = entry :=
        List.inj_on_of_nodup_map m.nodup (List.mem_filter.mp hOther).1 hEntry hKey
      exact hSame ▸ (List.mem_filter.mp hOther).2
    · exact fun hp => List.mem_map_of_mem (List.mem_filter.mpr ⟨hEntry, hp⟩)
  by_cases hp : p entry <;> simp [hIff, hp]

/-! ## Size -/

/-- Removing a present key drops an entry. -/
theorem size_erase_lt (m : AssocMap K V) {key : K} (h : key ∈ m.keys) :
    (m.erase key).size < m.size := by
  obtain ⟨value, hMem⟩ : ∃ value, (key, value) ∈ m.entries := by
    simpa [keys] using h
  exact List.length_filter_lt_length_iff_exists.mpr ⟨(key, value), hMem, by simp⟩

theorem size_insert (m : AssocMap K V) (key : K) (value : V) :
    (m.insert key value).size = (m.erase key).size + 1 := rfl

theorem size_insert_le (m : AssocMap K V) (key : K) (value : V) :
    (m.insert key value).size ≤ m.size + 1 := by
  simp only [size, insert, List.length_cons]
  have := size_retain_le m fun k _ => k ≠ key
  simp only [size, erase] at this ⊢
  omega

end AssocMap
