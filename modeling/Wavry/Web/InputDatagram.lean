import Wavry.Lib.LittleEndian
import Wavry.Lib.Wire

/-! The WebTransport input datagram of wavry-web (protocol.rs): a version
byte, a kind byte and the kind's fields, little-endian. The gateway forwards a
decoded datagram by encoding it again (web.rs, `on_input_datagram`). An `f32`
is kept as its bits, so datagrams compare bitwise; an `[i16; 4]` is a vector
of four. Every `get_*` of `bytes::Buf` panics when the buffer is too short;
here it fails with `Underflow`, and the decoder is shown never to reach one. -/

namespace Wavry.Web

open LittleEndian

def inputProtocolVersion : UInt8 := 1

inductive InputKind
  | mouseMove
  | scroll
  | analog
  | gamepad
  deriving DecidableEq, Repr

/-- `InputKind as u8`. -/
def InputKind.toU8 : InputKind → UInt8
  | mouseMove => 1
  | scroll => 2
  | analog => 3
  | gamepad => 4

@[simp] theorem InputKind.toU8_inj {a b : InputKind} : a.toU8 = b.toU8 ↔ a = b := by
  cases a <;> cases b <;> decide

/-- The four axes of a gamepad, one by one. -/
theorem eq_four (axes : Vector Int16 4) : #v[axes[0], axes[1], axes[2], axes[3]] = axes := by
  ext i hi
  interval_cases i <;> rfl

theorem toList_eq_four (axes : Vector Int16 4) : axes.toList = [axes[0], axes[1], axes[2], axes[3]] := by
  conv_lhs => rw [← eq_four axes]
  rfl

inductive InputDatagram
  | mouseMove (dx dy : Int16) (timestampUs : UInt64)
  | scroll (dx dy : Int16) (timestampUs : UInt64)
  | analog (axis : UInt8) (value : UInt32) (timestampUs : UInt64)
  | gamepad (gamepadId : UInt8) (buttons : UInt16) (axes : Vector Int16 4) (timestampUs : UInt64)
  deriving DecidableEq, Repr

namespace InputDatagram

def encode (d : InputDatagram) : List UInt8 :=
  u8.encode inputProtocolVersion ++
    match d with
    | .mouseMove dx dy timestampUs =>
        u8.encode InputKind.mouseMove.toU8 ++ u64.encode timestampUs ++ i16.encode dx ++
          i16.encode dy
    | .scroll dx dy timestampUs =>
        u8.encode InputKind.scroll.toU8 ++ u64.encode timestampUs ++ i16.encode dx ++
          i16.encode dy
    | .analog axis value timestampUs =>
        u8.encode InputKind.analog.toU8 ++ u64.encode timestampUs ++ u8.encode axis ++
          u32.encode value
    | .gamepad gamepadId buttons axes timestampUs =>
        u8.encode InputKind.gamepad.toU8 ++ u64.encode timestampUs ++ u8.encode gamepadId ++
          u16.encode buttons ++ axes.toList.flatMap i16.encode

/-- `InputDatagram::decode`; a gamepad's four axes are read one per round of
`for axis in axes.iter_mut()`. -/
def decode (bytes : List UInt8) : Except Underflow (Option InputDatagram) := do
  if bytes.length < 2 then return none
  let (version, bytes) ← get u8 bytes
  if version != inputProtocolVersion then return none
  let (kind, bytes) ← get u8 bytes
  if kind = InputKind.mouseMove.toU8 then
    if bytes.length < 12 then return none
    let (timestampUs, bytes) ← get u64 bytes
    let (dx, bytes) ← get i16 bytes
    let (dy, _) ← get i16 bytes
    return some (.mouseMove dx dy timestampUs)
  else if kind = InputKind.scroll.toU8 then
    if bytes.length < 12 then return none
    let (timestampUs, bytes) ← get u64 bytes
    let (dx, bytes) ← get i16 bytes
    let (dy, _) ← get i16 bytes
    return some (.scroll dx dy timestampUs)
  else if kind = InputKind.analog.toU8 then
    if bytes.length < 13 then return none
    let (timestampUs, bytes) ← get u64 bytes
    let (axis, bytes) ← get u8 bytes
    let (value, _) ← get u32 bytes
    return some (.analog axis value timestampUs)
  else if kind = InputKind.gamepad.toU8 then
    if bytes.length < 19 then return none
    let (timestampUs, bytes) ← get u64 bytes
    let (gamepadId, bytes) ← get u8 bytes
    let (buttons, bytes) ← get u16 bytes
    let (axis0, bytes) ← get i16 bytes
    let (axis1, bytes) ← get i16 bytes
    let (axis2, bytes) ← get i16 bytes
    let (axis3, _) ← get i16 bytes
    return some (.gamepad gamepadId buttons #v[axis0, axis1, axis2, axis3] timestampUs)
  else return none

/-- Every datagram reads back from its own encoding. -/
theorem decode_encode (d : InputDatagram) : decode (encode d) = .ok (some d) := by
  cases d <;>
    simp only [encode, decode, List.append_assoc, List.length_append, Field.length_encode,
      width_u8, width_u16, width_u32, width_u64, width_i16, get_encode_append, get_encode,
      Wire.ok_bind, Wire.pure_eq_ok, InputKind.toU8_inj, inputProtocolVersion, Nat.reduceAdd,
      Nat.reduceLT, bne_self_eq_false, Bool.false_eq_true, if_true, if_false, reduceCtorEq,
      toList_eq_four, List.flatMap_cons, List.flatMap_nil, List.append_nil, eq_four]

/-- The three reads of a mouse move or a scroll, on a body long enough for them. -/
theorem reads_motion (body : List UInt8) (h : 12 ≤ body.length) :
    ∃ timestampUs dx dy afterTs afterDx rest,
      get u64 body = .ok (timestampUs, afterTs) ∧ get i16 afterTs = .ok (dx, afterDx) ∧
        get i16 afterDx = .ok (dy, rest) ∧
        body = u64.encode timestampUs ++ i16.encode dx ++ i16.encode dy ++ rest := by
  obtain ⟨timestampUs, afterTs, hTs, hBody, hLength⟩ := exists_get_eq_ok u64 body (by simp; omega)
  obtain ⟨dx, afterDx, hDx, hAfterTs, hLength'⟩ :=
    exists_get_eq_ok i16 afterTs (by simp at hLength ⊢; omega)
  obtain ⟨dy, rest, hDy, hAfterDx, -⟩ :=
    exists_get_eq_ok i16 afterDx (by simp at hLength hLength' ⊢; omega)
  exact ⟨timestampUs, dx, dy, afterTs, afterDx, rest, hTs, hDx, hDy,
    by rw [hBody, hAfterTs, hAfterDx]; simp only [List.append_assoc]⟩

/-- The three reads of an analog sample, on a body long enough for them. -/
theorem reads_analog (body : List UInt8) (h : 13 ≤ body.length) :
    ∃ timestampUs axis value afterTs afterAxis rest,
      get u64 body = .ok (timestampUs, afterTs) ∧ get u8 afterTs = .ok (axis, afterAxis) ∧
        get u32 afterAxis = .ok (value, rest) ∧
        body = u64.encode timestampUs ++ u8.encode axis ++ u32.encode value ++ rest := by
  obtain ⟨timestampUs, afterTs, hTs, hBody, hLength⟩ := exists_get_eq_ok u64 body (by simp; omega)
  obtain ⟨axis, afterAxis, hAxis, hAfterTs, hLength'⟩ :=
    exists_get_eq_ok u8 afterTs (by simp at hLength ⊢; omega)
  obtain ⟨value, rest, hValue, hAfterAxis, -⟩ :=
    exists_get_eq_ok u32 afterAxis (by simp at hLength hLength' ⊢; omega)
  exact ⟨timestampUs, axis, value, afterTs, afterAxis, rest, hTs, hAxis, hValue,
    by rw [hBody, hAfterTs, hAfterAxis]; simp only [List.append_assoc]⟩

/-- The seven reads of a gamepad state, on a body long enough for them. -/
theorem reads_gamepad (body : List UInt8) (h : 19 ≤ body.length) :
    ∃ timestampUs gamepadId buttons axis0 axis1 axis2 axis3
      afterTs afterId afterButtons after0 after1 after2 rest,
      get u64 body = .ok (timestampUs, afterTs) ∧ get u8 afterTs = .ok (gamepadId, afterId) ∧
        get u16 afterId = .ok (buttons, afterButtons) ∧ get i16 afterButtons = .ok (axis0, after0) ∧
        get i16 after0 = .ok (axis1, after1) ∧ get i16 after1 = .ok (axis2, after2) ∧
        get i16 after2 = .ok (axis3, rest) ∧
        body = u64.encode timestampUs ++ u8.encode gamepadId ++ u16.encode buttons ++
          i16.encode axis0 ++ i16.encode axis1 ++ i16.encode axis2 ++ i16.encode axis3 ++ rest := by
  obtain ⟨timestampUs, afterTs, hTs, hBody, hLength⟩ := exists_get_eq_ok u64 body (by simp; omega)
  simp only [width_u64] at hLength
  obtain ⟨gamepadId, afterId, hId, hAfterTs, hLength⟩ :=
    exists_get_eq_ok u8 afterTs (by simp; omega)
  simp only [width_u8] at hLength
  obtain ⟨buttons, afterButtons, hButtons, hAfterId, hLength⟩ :=
    exists_get_eq_ok u16 afterId (by simp; omega)
  simp only [width_u16] at hLength
  obtain ⟨axis0, after0, hAxis0, hAfterButtons, hLength⟩ :=
    exists_get_eq_ok i16 afterButtons (by simp; omega)
  simp only [width_i16] at hLength
  obtain ⟨axis1, after1, hAxis1, hAfter0, hLength⟩ := exists_get_eq_ok i16 after0 (by simp; omega)
  simp only [width_i16] at hLength
  obtain ⟨axis2, after2, hAxis2, hAfter1, hLength⟩ := exists_get_eq_ok i16 after1 (by simp; omega)
  simp only [width_i16] at hLength
  obtain ⟨axis3, rest, hAxis3, hAfter2, -⟩ := exists_get_eq_ok i16 after2 (by simp; omega)
  exact ⟨timestampUs, gamepadId, buttons, axis0, axis1, axis2, axis3, afterTs, afterId,
    afterButtons, after0, after1, after2, rest, hTs, hId, hButtons, hAxis0, hAxis1, hAxis2, hAxis3,
    by rw [hBody, hAfterTs, hAfterId, hAfterButtons, hAfter0, hAfter1, hAfter2]
       simp only [List.append_assoc]⟩

/-- What the decoder does with any buffer: it gives up, or it reads a datagram
whose encoding is the front of the buffer. In neither case does a read run
past the end. -/
theorem decode_cases (bytes : List UInt8) :
    decode bytes = .ok none ∨ ∃ d rest, decode bytes = .ok (some d) ∧ bytes = encode d ++ rest := by
  match bytes with
  | [] => exact Or.inl rfl
  | [_] => exact Or.inl rfl
  | version :: kind :: body =>
      by_cases hVersion : version = inputProtocolVersion
      swap
      · left
        simp [decode, get_u8_cons, hVersion]
      subst hVersion
      by_cases hKnown : ∃ k, kind = InputKind.toU8 k
      swap
      · left
        simp only [not_exists] at hKnown
        simp [decode, get_u8_cons, hKnown]
      obtain ⟨k, rfl⟩ := hKnown
      cases k with
      | mouseMove =>
          by_cases hShort : body.length < 12
          · left
            simp [decode, get_u8_cons, hShort]
          · right
            obtain ⟨timestampUs, dx, dy, afterTs, afterDx, rest, hTs, hDx, hDy, hBody⟩ :=
              reads_motion body (by omega)
            refine ⟨.mouseMove dx dy timestampUs, rest, ?_, ?_⟩
            · simp [decode, get_u8_cons, hShort, hTs, hDx, hDy]
            · rw [hBody]
              simp [encode]
      | scroll =>
          by_cases hShort : body.length < 12
          · left
            simp [decode, get_u8_cons, hShort]
          · right
            obtain ⟨timestampUs, dx, dy, afterTs, afterDx, rest, hTs, hDx, hDy, hBody⟩ :=
              reads_motion body (by omega)
            refine ⟨.scroll dx dy timestampUs, rest, ?_, ?_⟩
            · simp [decode, get_u8_cons, hShort, hTs, hDx, hDy]
            · rw [hBody]
              simp [encode]
      | analog =>
          by_cases hShort : body.length < 13
          · left
            simp [decode, get_u8_cons, hShort]
          · right
            obtain ⟨timestampUs, axis, value, afterTs, afterAxis, rest, hTs, hAxis, hValue, hBody⟩ :=
              reads_analog body (by omega)
            refine ⟨.analog axis value timestampUs, rest, ?_, ?_⟩
            · simp [decode, get_u8_cons, hShort, hTs, hAxis, hValue]
            · rw [hBody]
              simp [encode]
      | gamepad =>
          by_cases hShort : body.length < 19
          · left
            simp [decode, get_u8_cons, hShort]
          · right
            obtain ⟨timestampUs, gamepadId, buttons, axis0, axis1, axis2, axis3, afterTs, afterId,
              afterButtons, after0, after1, after2, rest, hTs, hId, hButtons, hAxis0, hAxis1,
              hAxis2, hAxis3, hBody⟩ := reads_gamepad body (by omega)
            refine ⟨.gamepad gamepadId buttons #v[axis0, axis1, axis2, axis3] timestampUs, rest, ?_, ?_⟩
            · simp [decode, get_u8_cons, hShort, hTs, hId, hButtons, hAxis0, hAxis1, hAxis2, hAxis3]
            · rw [hBody]
              simp [encode]

/-- The codec: every datagram reads back from its encoding; no buffer makes
the decoder read past its end; and a datagram read from a buffer encodes to
the buffer's front, which is what the gateway forwards. -/
theorem inputDatagram_codec :
    (∀ d, decode (encode d) = .ok (some d)) ∧ (∀ bytes e, decode bytes ≠ .error e) ∧
      ∀ bytes d, decode bytes = .ok (some d) → encode d = bytes.take (encode d).length := by
  refine ⟨decode_encode, ?_, ?_⟩
  · intro bytes e hError
    rcases decode_cases bytes with hNone | ⟨d, rest, hSome, -⟩
    · rw [hNone] at hError
      cases hError
    · rw [hSome] at hError
      cases hError
  · intro bytes d hDecode
    rcases decode_cases bytes with hNone | ⟨read, rest, hSome, hBytes⟩
    · rw [hNone] at hDecode
      cases hDecode
    · rw [hSome] at hDecode
      cases hDecode
      rw [hBytes, List.take_left]

/-- A mouse move followed by one stray byte. -/
def sampleMouseMove : List UInt8 := encode (.mouseMove 3 (-4) 1000) ++ [0xFF]

theorem inputDatagram_codec_sample :
    decode sampleMouseMove = .ok (some (.mouseMove 3 (-4) 1000)) ∧
      encode (.mouseMove 3 (-4) 1000) =
        sampleMouseMove.take (encode (.mouseMove 3 (-4) 1000)).length := by
  have hDecode : decode sampleMouseMove = .ok (some (.mouseMove 3 (-4) 1000)) := rfl
  exact ⟨hDecode, inputDatagram_codec.2.2 sampleMouseMove _ hDecode⟩

end InputDatagram

end Wavry.Web
