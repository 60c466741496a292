import Mathlib

/-! Text as a systems language's standard library handles it, with a string
seen as the list of its characters: trimming elements off both ends, the
length in UTF-8 bytes, the last component of a `/`-separated path, and
lowercase hexadecimal. -/
namespace Text

universe u

variable {α : Type u}

/-- `trim_matches`: the elements satisfying `p` dropped from both ends. -/
def trimMatches (p : α → Bool) (s : List α) : List α := (s.dropWhile p).rdropWhile p

section TrimMatches

variable {p : α → Bool} {s : List α}

theorem isInfix_trimMatches (p : α → Bool) (s : List α) : trimMatches p s <:+: s :=
  (List.rdropWhile_prefix p _).isInfix.trans (List.dropWhile_suffix p).isInfix

theorem length_trimMatches_le (p : α → Bool) (s : List α) :
    (trimMatches p s).length ≤ s.length :=
  (isInfix_trimMatches p s).length_le

theorem mem_of_mem_trimMatches {a : α} (h : a ∈ trimMatches p s) : a ∈ s :=
  (isInfix_trimMatches p s).subset h

/-- Trimming that removes nothing leaves the list as it is. -/
theorem trimMatches_eq_of_length (h : (trimMatches p s).length = s.length) :
    trimMatches p s = s :=
  (isInfix_trimMatches p s).eq_of_length h

theorem trimMatches_eq_self (hHead : ∀ a ∈ s.head?, p a = false)
    (hLast : ∀ a ∈ s.getLast?, p a = false) : trimMatches p s = s := by
  have hDrop : s.dropWhile p = s := by
    refine List.dropWhile_eq_self_iff.mpr fun hl => ?_
    simpa using hHead s[0] (by simp [List.head?_eq_getElem?])
  unfold trimMatches
  rw [hDrop]
  refine List.rdropWhile_eq_self_iff.mpr fun hl => ?_
  simpa using hLast (s.getLast hl) (List.getLast?_eq_some_getLast hl)

theorem head?_trimMatches {a : α} (h : a ∈ (trimMatches p s).head?) : p a = false := by
  obtain ⟨rest, hPrefix⟩ := List.rdropWhile_prefix p (s.dropWhile p)
  have hHead : (s.dropWhile p).head? = some a := by
    rw [← hPrefix, List.head?_append]
    unfold trimMatches at h
    simp [Option.mem_def.mp h]
  have hNot := List.head?_dropWhile_not p s
  rw [hHead] at hNot
  exact hNot

theorem getLast?_trimMatches {a : α} (h : a ∈ (trimMatches p s).getLast?) : p a = false := by
  have hNe : trimMatches p s ≠ [] := by
    rintro hNil
    simp [hNil] at h
  have hLast : (trimMatches p s).getLast hNe = a := by
    rw [List.getLast?_eq_some_getLast hNe] at h
    simpa using h
  rw [← hLast]
  exact Bool.eq_false_iff.mpr (List.rdropWhile_last_not p (s.dropWhile p) hNe)

end TrimMatches

/-- `char::is_whitespace`: the characters of Unicode's `White_Space`. -/
def isWhitespace (c : Char) : Bool :=
  let n := c.toNat
  (0x09 ≤ n && n ≤ 0x0D) || n == 0x20 || n == 0x85 || n == 0xA0 || n == 0x1680 ||
    (0x2000 ≤ n && n ≤ 0x200A) || n == 0x2028 || n == 0x2029 || n == 0x202F || n == 0x205F ||
    n == 0x3000

/-- `str::trim`. -/
def trim (s : List Char) : List Char := trimMatches isWhitespace s

/-- `str::len`: the length in UTF-8 bytes. -/
def utf8Len (s : List Char) : Nat := (s.map Char.utf8Size).sum

def IsAscii (c : Char) : Prop := c.toNat < 128

instance (c : Char) : Decidable (IsAscii c) := inferInstanceAs (Decidable (c.toNat < 128))

theorem isAscii_of_val_le {c d : Char} (h : c.val ≤ d.val) (hd : IsAscii d) : IsAscii c :=
  Nat.lt_of_le_of_lt (UInt32.le_iff_toNat_le.mp h) hd

theorem utf8Size_of_isAscii {c : Char} (h : IsAscii c) : c.utf8Size = 1 := by
  have h127 : c.val ≤ 127 := UInt32.le_iff_toNat_le.mpr (by simpa [IsAscii] using Nat.le_of_lt_succ h)
  simp [Char.utf8Size, h127]

/-- On ASCII text bytes and characters are the same count. -/
theorem utf8Len_of_isAscii {s : List Char} (h : ∀ c ∈ s, IsAscii c) : utf8Len s = s.length := by
  induction s with
  | nil => rfl
  | cons c rest ih =>
      have hRest : utf8Len rest = rest.length := ih fun d hd => h d (List.mem_cons_of_mem c hd)
      simp only [utf8Len, List.map_cons, List.sum_cons, List.length_cons] at hRest ⊢
      rw [utf8Size_of_isAscii (h c List.mem_cons_self), hRest]
      omega

/-- Every piece of a list cut at `sep` and joined back sits inside the whole. -/
theorem sublist_intercalate (sep : List α) :
    ∀ {L : List (List α)} {c : List α}, c ∈ L → List.Sublist c (sep.intercalate L)
  | [], _, h => by simp at h
  | [a], c, h => by
      rw [List.mem_singleton.mp h, List.intercalate_singleton]
  | a :: b :: rest, c, h => by
      rw [List.intercalate_cons_cons]
      rcases List.mem_cons.mp h with rfl | hRest
      · rw [List.append_assoc]
        exact List.sublist_append_left _ _
      · exact (sublist_intercalate sep hRest).trans (List.sublist_append_right _ _)

/-- The normal components of a Unix path: the pieces between separators,
without empty pieces and `.`. -/
def components (path : List Char) : List (List Char) :=
  (path.splitOn '/').filter fun c => !c.isEmpty && c != ['.']

/-- `Path::file_name` on Unix: the last component, unless it is `..` or there
is none. -/
def fileName (path : List Char) : Option (List Char) :=
  match (components path).getLast? with
  | some c => if c = ['.', '.'] then none else some c
  | none => none

theorem sublist_of_fileName {path c : List Char} (h : fileName path = some c) :
    List.Sublist c path := by
  unfold fileName at h
  split at h
  · next last hLast =>
      split_ifs at h
      cases h
      have hMem : c ∈ path.splitOn '/' :=
        (List.mem_filter.mp (List.mem_of_getLast? hLast)).1
      simpa [List.intercalate_splitOn] using sublist_intercalate ['/'] hMem
  · cases h

/-- A name without separators, other than `.`, is one component. -/
theorem components_self {name : List Char} (hSep : '/' ∉ name) (hNil : name ≠ [])
    (hDot : name ≠ ['.']) : components name = [name] := by
  simp [components, List.splitOn_eq_singleton hSep, hNil, hDot]

/-- A name without separators, other than `.` and `..`, is its own file name. -/
theorem fileName_self {name : List Char} (hSep : '/' ∉ name) (hNil : name ≠ [])
    (hDot : name ≠ ['.']) (hDotDot : name ≠ ['.', '.']) : fileName name = some name := by
  simp [fileName, components_self hSep hNil hDot, hDotDot]

@[simp] theorem components_nil : components [] = [] := rfl

/-- A separator between two paths joins their components. -/
theorem components_append_sep (front back : List Char) :
    components (front ++ '/' :: back) = components front ++ components back := by
  rw [components, List.splitOn_append_cons_self, List.filter_append]
  rfl

/-- `Path::join` on Unix: an absolute path replaces the base; otherwise one
separator goes between them unless the base is empty or already ends in one. -/
def joinPath (base path : List Char) : List Char :=
  if path.head? = some '/' then path
  else if base.isEmpty || base.getLast? == some '/' then base ++ path
  else base ++ '/' :: path

/-- Joining a name without separators, other than `.`, adds exactly that
component to the base. -/
theorem components_joinPath (base : List Char) {name : List Char} (hSep : '/' ∉ name)
    (hNil : name ≠ []) (hDot : name ≠ ['.']) :
    components (joinPath base name) = components base ++ [name] := by
  have hHead : name.head? ≠ some '/' := fun h => hSep (List.mem_of_mem_head? h)
  have hName := components_self hSep hNil hDot
  unfold joinPath
  rw [if_neg hHead]
  split
  · rename_i hEnd
    rcases List.eq_nil_or_concat base with rfl | ⟨init, last, rfl⟩
    · simp [hName]
    · have hLast : last = '/' := by simpa using hEnd
      subst hLast
      rw [List.concat_eq_append, List.append_assoc, List.singleton_append, components_append_sep,
        components_append_sep, hName, components_nil, List.append_nil]
  · rw [components_append_sep, hName]

/-- The lowercase digit of a value below sixteen. -/
def hexDigit (n : Nat) : Char := if n < 10 then Char.ofNat (48 + n) else Char.ofNat (87 + n)

/-- `hex::encode`: two lowercase digits a byte, high nibble first. -/
def hexEncode (bytes : List UInt8) : List Char :=
  bytes.flatMap fun b => [hexDigit (b.toNat / 16), hexDigit (b.toNat % 16)]

theorem hexDigit_spec :
    ∀ n < 16, (hexDigit n).isHexDigit = true ∧ (hexDigit n).toLower = hexDigit n ∧
      IsAscii (hexDigit n) := by
  decide

theorem length_hexEncode (bytes : List UInt8) : (hexEncode bytes).length = 2 * bytes.length := by
  induction bytes with
  | nil => rfl
  | cons b rest ih =>
      simp only [hexEncode, List.flatMap_cons, List.length_append, List.length_cons,
        List.length_nil] at ih ⊢
      omega

/-- Every character `hex::encode` writes is one of the sixteen digits. -/
theorem hexDigit_of_mem_hexEncode {bytes : List UInt8} {c : Char} (h : c ∈ hexEncode bytes) :
    ∃ n < 16, c = hexDigit n := by
  obtain ⟨b, -, hc⟩ := List.mem_flatMap.mp h
  rcases List.mem_pair.mp hc with rfl | rfl
  · exact ⟨b.toNat / 16, by have := b.toNat_lt; omega, rfl⟩
  · exact ⟨b.toNat % 16, Nat.mod_lt _ (by decide), rfl⟩

theorem isHexDigit_of_mem_hexEncode {bytes : List UInt8} {c : Char} (h : c ∈ hexEncode bytes) :
    c.isHexDigit = true := by
  obtain ⟨n, hn, rfl⟩ := hexDigit_of_mem_hexEncode h
  exact (hexDigit_spec n hn).1

theorem isAscii_of_mem_hexEncode {bytes : List UInt8} {c : Char} (h : c ∈ hexEncode bytes) :
    IsAscii c := by
  obtain ⟨n, hn, rfl⟩ := hexDigit_of_mem_hexEncode h
  exact (hexDigit_spec n hn).2.2

/-- `hex::encode` writes lowercase already. -/
theorem map_toLower_hexEncode (bytes : List UInt8) :
    (hexEncode bytes).map Char.toLower = hexEncode bytes := by
  calc (hexEncode bytes).map Char.toLower = (hexEncode bytes).map id :=
        List.map_congr_left fun c hc => by
          obtain ⟨n, hn, rfl⟩ := hexDigit_of_mem_hexEncode hc
          exact (hexDigit_spec n hn).2.1
    _ = hexEncode bytes := List.map_id _

end Text
