import Wavry.Lib.BigEndian
import Wavry.Lib.Text
import Wavry.Lib.Wire

/-! STUN binding responses (rift-core, stun.rs). `decode_address` checks the
20-byte header, then walks the attributes as type-length-value records padded
to 4 bytes, and returns the first IPv4 MAPPED-ADDRESS or XOR-MAPPED-ADDRESS.

Slice indexing that can fail is modelled as an `Except` whose failures include
an index outside the buffer, so "never indexes outside" is a statement about
the result. The walk is a `while` loop; it runs on a budget of rounds, and a
spent budget is a failure of its own that the code, having no budget, never
shows. `decodeAddress_spec` proves that `|b| / 4` rounds never run out. -/

namespace Wavry.RiftCore

open BigEndian

def stunMagicCookie : UInt32 := 0x2112A442

def bindingResponse : UInt16 := 0x0101

/-- The `anyhow!` errors of `decode_address`. -/
inductive StunError where
  | tooShort
  | notBindingResponse (msgType : UInt16)
  | invalidMagicCookie
  | invalidXorMappedAddressLength
  | invalidMappedAddressLength
  | noMappedAddress
  deriving DecidableEq, Repr

/-- The texts the errors display; `{:04x}` prints four lowercase hex digits. -/
def StunError.message : StunError → String
  | tooShort => "STUN message too short"
  | notBindingResponse msgType =>
      "Not a binding response: 0x" ++ String.ofList (Text.hexEncode (u16 msgType))
  | invalidMagicCookie => "Invalid magic cookie"
  | invalidXorMappedAddressLength => "Invalid XOR-MAPPED-ADDRESS length"
  | invalidMappedAddressLength => "Invalid MAPPED-ADDRESS length"
  | noMappedAddress => "No mapped address found in STUN response"

example : (StunError.notBindingResponse 0x0001).message = "Not a binding response: 0x0001" := by
  decide

/-- How `decode_address` can fail: an error it returns, a panic of slice
indexing, or, in the model only, a spent budget of loop rounds. -/
inductive DecodeFailure where
  | error (e : StunError)
  | indexOutOfBounds (index length : Nat)
  | roundsSpent
  deriving DecidableEq, Repr

structure Ipv4Addr where
  a : UInt8
  b : UInt8
  c : UInt8
  d : UInt8
  deriving DecidableEq, Repr

structure SocketAddrV4 where
  ip : Ipv4Addr
  port : UInt16
  deriving DecidableEq, Repr

/-! ## The decoder -/

/-- `buf[i]`, which panics outside the slice. -/
def byteAt (buf : List UInt8) (i : Nat) : Except DecodeFailure UInt8 :=
  match buf[i]? with
  | some byte => .ok byte
  | none => .error (.indexOutOfBounds i buf.length)

/-- `u16::from_be_bytes([buf[i], buf[i + 1]])`. -/
def u16At (buf : List UInt8) (i : Nat) : Except DecodeFailure UInt16 := do
  let hi ← byteAt buf i
  let lo ← byteAt buf (i + 1)
  pure (readU16 [hi, lo])

/-- `u32::from_be_bytes([buf[i], .., buf[i + 3]])`. -/
def u32At (buf : List UInt8) (i : Nat) : Except DecodeFailure UInt32 := do
  let b0 ← byteAt buf i
  let b1 ← byteAt buf (i + 1)
  let b2 ← byteAt buf (i + 2)
  let b3 ← byteAt buf (i + 3)
  pure (readU32 [b0, b1, b2, b3])

/-- The fields both address attributes read from the value at `pos`: the port
at `pos + 2`, the family at `pos + 1` and, for IPv4 (family 1), the octets at
`pos + 4`, each masked. `none` for another family. -/
def readAddress (buf : List UInt8) (pos : Nat) (portMask : UInt16) (ipMask : Ipv4Addr) :
    Except DecodeFailure (Option SocketAddrV4) := do
  let port := (← u16At buf (pos + 2)) ^^^ portMask
  let family ← byteAt buf (pos + 1)
  if family = 0x01 then
    let a := (← byteAt buf (pos + 4)) ^^^ ipMask.a
    let b := (← byteAt buf (pos + 5)) ^^^ ipMask.b
    let c := (← byteAt buf (pos + 6)) ^^^ ipMask.c
    let d := (← byteAt buf (pos + 7)) ^^^ ipMask.d
    pure (some ⟨⟨a, b, c, d⟩, port⟩)
  else pure none

/-- The XOR-MAPPED-ADDRESS branch: port and octets masked with the magic
cookie, as the source shifts and truncates it. -/
def xorMappedAddress (buf : List UInt8) (pos : Nat) : Except DecodeFailure (Option SocketAddrV4) :=
  readAddress buf pos (stunMagicCookie >>> 16).toUInt16
    ⟨(stunMagicCookie >>> 24).toUInt8, (stunMagicCookie >>> 16).toUInt8,
      (stunMagicCookie >>> 8).toUInt8, stunMagicCookie.toUInt8⟩

/-- The MAPPED-ADDRESS branch: the fields as they stand. -/
def mappedAddress (buf : List UInt8) (pos : Nat) : Except DecodeFailure (Option SocketAddrV4) :=
  readAddress buf pos 0 ⟨0, 0, 0, 0⟩

/-- `if pos % 4 != 0 { pos += 4 - (pos % 4) }`. -/
def align4 (pos : Nat) : Nat := if pos % 4 ≠ 0 then pos + (4 - pos % 4) else pos

/-- What one round of the walk does. -/
inductive AttrStep where
  | found (addr : SocketAddrV4)
  | next (pos : Nat)
  | stop
  deriving DecidableEq, Repr

/-- One round of the `while` loop, on the attribute at `pos`: an
XOR-MAPPED-ADDRESS (type 0x0020) is tried first, a MAPPED-ADDRESS (0x0001)
next, and an address of another family falls through from the one test to
the next. -/
def visitAttribute (buf : List UInt8) (pos : Nat) : Except DecodeFailure AttrStep := do
  let attrType ← u16At buf pos
  let attrLen := (← u16At buf (pos + 2)).toNat
  let start := pos + 4
  if start + attrLen > buf.length then
    pure .stop
  else
    let xorHit ← if attrType = 0x0020 then
        if attrLen < 8 then throw (.error .invalidXorMappedAddressLength)
        else xorMappedAddress buf start
      else pure none
    match xorHit with
    | some addr => pure (.found addr)
    | none =>
        let hit ← if attrType = 0x0001 then
            if attrLen < 8 then throw (.error .invalidMappedAddressLength)
            else mappedAddress buf start
          else pure none
        match hit with
        | some addr => pure (.found addr)
        | none => pure (.next (align4 (start + attrLen)))

/-- The loop `while pos + 4 <= end`, with at most `rounds` rounds. -/
def walk (buf : List UInt8) : Nat → Nat → Except DecodeFailure SocketAddrV4
  | 0, pos =>
      if pos + 4 ≤ buf.length then .error .roundsSpent else .error (.error .noMappedAddress)
  | rounds + 1, pos =>
      if pos + 4 ≤ buf.length then
        match visitAttribute buf pos with
        | .error failure => .error failure
        | .ok (.found addr) => .ok addr
        | .ok .stop => .error (.error .noMappedAddress)
        | .ok (.next pos) => walk buf rounds pos
      else .error (.error .noMappedAddress)

/-- `StunMessage::decode_address`, with `rounds` rounds for the attribute walk. -/
def decodeAddress (rounds : Nat) (buf : List UInt8) : Except DecodeFailure SocketAddrV4 := do
  if buf.length < 20 then throw (.error .tooShort)
  let msgType ← u16At buf 0
  if msgType ≠ bindingResponse then throw (.error (.notBindingResponse msgType))
  let cookie ← u32At buf 4
  if cookie ≠ stunMagicCookie then throw (.error .invalidMagicCookie)
  walk buf rounds 20

/-! ## The attribute layout

What a response's attributes are, read without failure: a 16-bit type and a
16-bit length at the start of each record, the value after them, and the next
record at the next multiple of 4. -/

def attrTypeAt (buf : List UInt8) (pos : Nat) : UInt16 :=
  readU16 [buf.getD pos 0, buf.getD (pos + 1) 0]

def attrLenAt (buf : List UInt8) (pos : Nat) : Nat :=
  (readU16 [buf.getD (pos + 2) 0, buf.getD (pos + 3) 0]).toNat

/-- The positions of the records the walk passes: the first after the header,
and after each record that fits, the next 4-byte boundary past its value. -/
inductive Reached (buf : List UInt8) : Nat → Prop where
  | header : Reached buf 20
  | next {pos : Nat} : Reached buf pos → pos + 4 + attrLenAt buf pos ≤ buf.length →
      Reached buf (4 * ((pos + 4 + attrLenAt buf pos + 3) / 4))

/-- The address fields of a value starting at `start`, unmasked. -/
def addressAt (buf : List UInt8) (start : Nat) : SocketAddrV4 :=
  ⟨⟨buf.getD (start + 4) 0, buf.getD (start + 5) 0, buf.getD (start + 6) 0,
      buf.getD (start + 7) 0⟩,
    readU16 [buf.getD (start + 2) 0, buf.getD (start + 3) 0]⟩

/-- XOR-MAPPED-ADDRESS encoding: the port masked with the cookie's high 16
bits and the IPv4 octets with its four bytes. -/
def SocketAddrV4.xorCookie (addr : SocketAddrV4) : SocketAddrV4 :=
  ⟨⟨addr.ip.a ^^^ 0x21, addr.ip.b ^^^ 0x12, addr.ip.c ^^^ 0xA4, addr.ip.d ^^^ 0x42⟩,
    addr.port ^^^ 0x2112⟩

/-- The record at `pos` is an IPv4 MAPPED-ADDRESS or XOR-MAPPED-ADDRESS with a
value of at least 8 bytes inside the buffer, carrying `addr`. -/
structure MappedAddressAt (buf : List UInt8) (pos : Nat) (addr : SocketAddrV4) : Prop where
  fits : pos + 4 + attrLenAt buf pos ≤ buf.length
  long : 8 ≤ attrLenAt buf pos
  ipv4 : buf.getD (pos + 5) 0 = 0x01
  decoded : (attrTypeAt buf pos = 0x0020 ∧ addr = (addressAt buf (pos + 4)).xorCookie) ∨
    (attrTypeAt buf pos = 0x0001 ∧ addr = addressAt buf (pos + 4))

theorem align4_eq (pos : Nat) : align4 pos = 4 * ((pos + 3) / 4) := by
  unfold align4
  split <;> omega

theorem Reached.mod_four {buf : List UInt8} {pos : Nat} (h : Reached buf pos) : pos % 4 = 0 := by
  cases h with
  | header => rfl
  | next => omega

/-! ## Reads inside the buffer -/

section Reads

variable {buf : List UInt8}

@[simp] theorem byteAt_of_lt {i : Nat} (h : i < buf.length) : byteAt buf i = .ok (buf.getD i 0) := by
  simp [byteAt, List.getElem?_eq_getElem h]

theorem u16At_of_lt {i : Nat} (h : i + 1 < buf.length) :
    u16At buf i = .ok (readU16 [buf.getD i 0, buf.getD (i + 1) 0]) := by
  simp only [u16At, byteAt_of_lt h, byteAt_of_lt (show i < buf.length by omega)]
  rfl

theorem u32At_of_lt {i : Nat} (h : i + 3 < buf.length) :
    u32At buf i = .ok (readU32 [buf.getD i 0, buf.getD (i + 1) 0, buf.getD (i + 2) 0,
      buf.getD (i + 3) 0]) := by
  simp only [u32At, byteAt_of_lt h, byteAt_of_lt (show i < buf.length by omega),
    byteAt_of_lt (show i + 1 < buf.length by omega), byteAt_of_lt (show i + 2 < buf.length by omega)]
  rfl

/-- A value of 8 bytes inside the buffer is read without a panic. -/
theorem readAddress_of_le {pos : Nat} (h : pos + 8 ≤ buf.length) (portMask : UInt16)
    (ipMask : Ipv4Addr) :
    readAddress buf pos portMask ipMask = .ok (if buf.getD (pos + 1) 0 = 0x01 then
      some ⟨⟨(addressAt buf pos).ip.a ^^^ ipMask.a, (addressAt buf pos).ip.b ^^^ ipMask.b,
        (addressAt buf pos).ip.c ^^^ ipMask.c, (addressAt buf pos).ip.d ^^^ ipMask.d⟩,
        (addressAt buf pos).port ^^^ portMask⟩
      else none) := by
  simp only [readAddress, u16At_of_lt (show pos + 2 + 1 < buf.length by omega),
    byteAt_of_lt (show pos + 1 < buf.length by omega), byteAt_of_lt (show pos + 4 < buf.length by omega),
    byteAt_of_lt (show pos + 5 < buf.length by omega), byteAt_of_lt (show pos + 6 < buf.length by omega),
    byteAt_of_lt (show pos + 7 < buf.length by omega), Wire.ok_bind, Wire.pure_eq_ok]
  rw [apply_ite (Except.ok (ε := DecodeFailure))]
  rfl

theorem xorMappedAddress_of_le {pos : Nat} (h : pos + 8 ≤ buf.length) :
    xorMappedAddress buf pos = .ok (if buf.getD (pos + 1) 0 = 0x01 then
      some (addressAt buf pos).xorCookie else none) := by
  rw [xorMappedAddress, readAddress_of_le h]
  rfl

theorem mappedAddress_of_le {pos : Nat} (h : pos + 8 ≤ buf.length) :
    mappedAddress buf pos = .ok (if buf.getD (pos + 1) 0 = 0x01 then
      some (addressAt buf pos) else none) := by
  simp only [mappedAddress, readAddress_of_le h, UInt8.xor_zero, UInt16.xor_zero]

end Reads

/-! ## One round of the walk -/

section Visit

variable {buf : List UInt8} {pos : Nat}

/-- Everything one round can do once the loop guard holds: stop at a record
that runs past the buffer, fail with an error (never a panic), return an
address it read from a record as `MappedAddressAt` describes, or go on to the
next 4-byte boundary past the value. -/
theorem visitAttribute_cases (hGuard : pos + 4 ≤ buf.length) :
    (buf.length < pos + 4 + attrLenAt buf pos ∧ visitAttribute buf pos = .ok .stop) ∨
    (∃ e, visitAttribute buf pos = .error (.error e)) ∨
    (∃ addr, visitAttribute buf pos = .ok (.found addr) ∧ MappedAddressAt buf pos addr) ∨
    (pos + 4 + attrLenAt buf pos ≤ buf.length ∧
      visitAttribute buf pos = .ok (.next (align4 (pos + 4 + attrLenAt buf pos)))) := by
  have hType : u16At buf pos = .ok (attrTypeAt buf pos) := u16At_of_lt (by omega)
  have hLen : u16At buf (pos + 2) = .ok (readU16 [buf.getD (pos + 2) 0, buf.getD (pos + 3) 0]) :=
    u16At_of_lt (by omega)
  have hLenAt : (readU16 [buf.getD (pos + 2) 0, buf.getD (pos + 3) 0]).toNat = attrLenAt buf pos :=
    rfl
  simp only [visitAttribute, hType, hLen, Wire.ok_bind, hLenAt]
  by_cases hFit : pos + 4 + attrLenAt buf pos > buf.length
  · exact .inl ⟨hFit, if_pos hFit⟩
  rw [if_neg hFit]
  have hFits : pos + 4 + attrLenAt buf pos ≤ buf.length := by omega
  by_cases hXor : attrTypeAt buf pos = 0x0020
  · by_cases hShort : attrLenAt buf pos < 8
    · exact .inr (.inl ⟨_, by simp only [hXor, hShort, if_true]; rfl⟩)
    have hValue : pos + 4 + 8 ≤ buf.length := by omega
    by_cases hFamily : buf.getD (pos + 4 + 1) 0 = 0x01
    · refine .inr (.inr (.inl ⟨_, ?_, ⟨hFits, by omega, hFamily, .inl ⟨hXor, rfl⟩⟩⟩))
      simp only [hXor, hShort, if_true, if_false, xorMappedAddress_of_le hValue, hFamily,
        Wire.ok_bind]
      rfl
    · refine .inr (.inr (.inr ⟨hFits, ?_⟩))
      simp only [hXor, hShort, if_true, if_false, xorMappedAddress_of_le hValue, hFamily,
        Wire.ok_bind, show (0x0020 : UInt16) ≠ 0x0001 by decide]
      rfl
  · by_cases hPlain : attrTypeAt buf pos = 0x0001
    · by_cases hShort : attrLenAt buf pos < 8
      · exact .inr (.inl ⟨_, by simp only [hPlain, hShort, if_true]; rfl⟩)
      have hValue : pos + 4 + 8 ≤ buf.length := by omega
      by_cases hFamily : buf.getD (pos + 4 + 1) 0 = 0x01
      · refine .inr (.inr (.inl ⟨_, ?_, ⟨hFits, by omega, hFamily, .inr ⟨hPlain, rfl⟩⟩⟩))
        simp only [hPlain, hShort, if_true, if_false, mappedAddress_of_le hValue, hFamily,
          Wire.ok_bind]
        rfl
      · refine .inr (.inr (.inr ⟨hFits, ?_⟩))
        simp only [hPlain, hShort, if_true, if_false, mappedAddress_of_le hValue, hFamily,
          Wire.ok_bind]
        rfl
    · refine .inr (.inr (.inr ⟨hFits, ?_⟩))
      simp only [hXor, hPlain, if_false]
      rfl

end Visit

/-! ## The walk -/

/-- What the walk's results satisfy: it fails only with an error of its own,
and an address comes from a record the walk reached. -/
structure WalkSound (buf : List UInt8) (result : Except DecodeFailure SocketAddrV4) : Prop where
  failure : ∀ failure, result = .error failure → ∃ e, failure = .error e
  found : ∀ addr, result = .ok addr → ∃ pos, Reached buf pos ∧ MappedAddressAt buf pos addr

theorem WalkSound.error (buf : List UInt8) (e : StunError) : WalkSound buf (.error (.error e)) :=
  ⟨fun _ h => ⟨e, by cases h; rfl⟩, fun _ h => by cases h⟩

theorem WalkSound.ok {buf : List UInt8} {pos : Nat} {addr : SocketAddrV4}
    (hReached : Reached buf pos) (hMapped : MappedAddressAt buf pos addr) :
    WalkSound buf (.ok addr) :=
  ⟨fun _ h => (by cases h), fun _ h => by cases h; exact ⟨pos, hReached, hMapped⟩⟩

section Walk

variable {buf : List UInt8}

/-- A position past the end of the budget's reach: the loop guard fails. -/
theorem walk_of_not_guard {rounds pos : Nat} (h : ¬pos + 4 ≤ buf.length) :
    walk buf rounds pos = .error (.error .noMappedAddress) := by
  cases rounds <;> simp [walk, h]

/-- The round that goes on moves at least one record header forward, to a
4-byte boundary the walk reaches. -/
theorem next_of_visitAttribute {pos : Nat} (hReached : Reached buf pos) :
    pos + 4 + attrLenAt buf pos ≤ buf.length →
      pos + 4 ≤ align4 (pos + 4 + attrLenAt buf pos) ∧
        Reached buf (align4 (pos + 4 + attrLenAt buf pos)) := by
  intro hFits
  refine ⟨by rw [align4_eq]; omega, ?_⟩
  rw [align4_eq]
  exact hReached.next hFits

/-- The budget invariant: `rounds + 1` rounds of at least 4 bytes each cover
what is left of the buffer. Under it the walk never runs out, and each round
keeps it. -/
theorem walk_sound {rounds pos : Nat} (hReached : Reached buf pos)
    (hBudget : buf.length < pos + 4 * (rounds + 1)) : WalkSound buf (walk buf rounds pos) := by
  induction rounds generalizing pos with
  | zero =>
      rw [walk_of_not_guard (by omega)]
      exact WalkSound.error buf _
  | succ rounds ih =>
      by_cases hGuard : pos + 4 ≤ buf.length
      · simp only [walk, hGuard, if_true]
        rcases visitAttribute_cases hGuard with ⟨-, hStop⟩ | ⟨e, hError⟩ |
            ⟨addr, hFound, hMapped⟩ | ⟨hFits, hNext⟩
        · rw [hStop]
          exact WalkSound.error buf _
        · rw [hError]
          exact WalkSound.error buf _
        · rw [hFound]
          exact WalkSound.ok hReached hMapped
        · rw [hNext]
          obtain ⟨hForward, hNextReached⟩ := next_of_visitAttribute hReached hFits
          exact ih hNextReached (by omega)
      · rw [walk_of_not_guard hGuard]
        exact WalkSound.error buf _

/-- Under the budget invariant more rounds change nothing: the walk has ended
within the rounds it was given. -/
theorem walk_of_le {rounds more pos : Nat} (hReached : Reached buf pos)
    (hBudget : buf.length < pos + 4 * (rounds + 1)) (hMore : rounds ≤ more) :
    walk buf more pos = walk buf rounds pos := by
  induction rounds generalizing pos more with
  | zero => rw [walk_of_not_guard (by omega), walk_of_not_guard (by omega)]
  | succ rounds ih =>
      obtain ⟨more, rfl⟩ : ∃ k, more = k + 1 := ⟨more - 1, by omega⟩
      by_cases hGuard : pos + 4 ≤ buf.length
      · simp only [walk, hGuard, if_true]
        rcases visitAttribute_cases hGuard with ⟨-, hStop⟩ | ⟨e, hError⟩ |
            ⟨addr, hFound, -⟩ | ⟨hFits, hNext⟩
        · rw [hStop]
        · rw [hError]
        · rw [hFound]
        · rw [hNext]
          obtain ⟨hForward, hNextReached⟩ := next_of_visitAttribute hReached hFits
          exact ih hNextReached (by omega) (by omega)
      · rw [walk_of_not_guard hGuard, walk_of_not_guard hGuard]

end Walk

/-! ## `decode_address` -/

/-- The header checks do not depend on the budget: they fail with an error, or
hand the buffer to the walk at offset 20. -/
theorem decodeAddress_cases (buf : List UInt8) :
    (∃ e, ∀ rounds, decodeAddress rounds buf = .error (.error e)) ∨
      ∀ rounds, decodeAddress rounds buf = walk buf rounds 20 := by
  by_cases hShort : buf.length < 20
  · exact .inl ⟨.tooShort, fun rounds => by
      simp only [decodeAddress, hShort, if_true, Wire.throw_eq_error, Wire.error_bind]⟩
  obtain ⟨msgType, hType⟩ : ∃ msgType, u16At buf 0 = .ok msgType := ⟨_, u16At_of_lt (by omega)⟩
  obtain ⟨cookie, hCookie⟩ : ∃ cookie, u32At buf 4 = .ok cookie := ⟨_, u32At_of_lt (by omega)⟩
  by_cases hResponse : msgType = bindingResponse
  · by_cases hMagic : cookie = stunMagicCookie
    · exact .inr fun rounds => by
        simp only [decodeAddress, hShort, hType, hResponse, hCookie, hMagic, ne_eq, not_true,
          if_false, Wire.ok_bind]
    · exact .inl ⟨.invalidMagicCookie, fun rounds => by
        simp only [decodeAddress, hShort, hType, hResponse, hCookie, hMagic, ne_eq, not_true,
          not_false_eq_true, if_true, if_false, Wire.ok_bind, Wire.throw_eq_error,
          Wire.error_bind]⟩
  · exact .inl ⟨.notBindingResponse msgType, fun rounds => by
      simp only [decodeAddress, hShort, hType, hResponse, ne_eq, not_false_eq_true, if_true,
        if_false, Wire.ok_bind, Wire.throw_eq_error, Wire.error_bind]⟩

theorem decodeAddress_spec (b : List UInt8) :
    (∀ rounds, b.length / 4 ≤ rounds → decodeAddress rounds b = decodeAddress (b.length / 4) b) ∧
    decodeAddress (b.length / 4) b ≠ .error .roundsSpent ∧
    (∀ index length, decodeAddress (b.length / 4) b ≠ .error (.indexOutOfBounds index length)) ∧
    ∀ addr, decodeAddress (b.length / 4) b = .ok addr →
      ∃ pos, Reached b pos ∧ pos % 4 = 0 ∧ MappedAddressAt b pos addr := by
  have hBudget : b.length < 20 + 4 * (b.length / 4 + 1) := by omega
  rcases decodeAddress_cases b with ⟨e, hError⟩ | hWalk
  · refine ⟨fun rounds _ => by rw [hError, hError], by simp [hError], fun index length => ?_,
      fun addr h => ?_⟩
    · simp [hError]
    · simp [hError] at h
  · simp only [hWalk]
    have hSound := walk_sound Reached.header hBudget
    refine ⟨fun rounds hMore => walk_of_le Reached.header hBudget hMore, fun h => ?_,
      fun index length h => ?_, fun addr h => ?_⟩
    · obtain ⟨e, he⟩ := hSound.failure _ h
      cases he
    · obtain ⟨e, he⟩ := hSound.failure _ h
      cases he
    · obtain ⟨pos, hReached, hMapped⟩ := hSound.found addr h
      exact ⟨pos, hReached, hReached.mod_four, hMapped⟩

/-- A binding response whose SOFTWARE attribute (type 0x8022, five bytes
padded to eight) comes before an XOR-MAPPED-ADDRESS of 192.0.2.1, port 4137. -/
def sampleBindingResponse : List UInt8 :=
  [0x01, 0x01, 0x00, 0x18, 0x21, 0x12, 0xA4, 0x42, 0, 0, 0, 0, 0, 0, 0, 0, 0, 0, 0, 0,
    0x80, 0x22, 0x00, 0x05, 0x77, 0x61, 0x76, 0x72, 0x79, 0, 0, 0,
    0x00, 0x20, 0x00, 0x08, 0x00, 0x01, 0x31, 0x3B, 0xE1, 0x12, 0xA6, 0x43]

theorem decodeAddress_spec_sample :
    decodeAddress (sampleBindingResponse.length / 4) sampleBindingResponse =
        .ok ⟨⟨192, 0, 2, 1⟩, 4137⟩ ∧
      ∃ pos, Reached sampleBindingResponse pos ∧ pos % 4 = 0 ∧
        MappedAddressAt sampleBindingResponse pos ⟨⟨192, 0, 2, 1⟩, 4137⟩ :=
  have hDecoded : decodeAddress (sampleBindingResponse.length / 4) sampleBindingResponse =
      .ok ⟨⟨192, 0, 2, 1⟩, 4137⟩ := rfl
  ⟨hDecoded, (decodeAddress_spec sampleBindingResponse).2.2.2 _ hDecoded⟩

end Wavry.RiftCore
