import TmuxWorktree.Frames.Codec
import TmuxWorktree.Lib.Except
import TmuxWorktree.Strict.Complete
import TmuxWorktree.Strict.Unique
/-!
# RoundTrip — decoding undoes encoding (`codec.ts`)

The encoder checks a frame by its schema and its bytes; the decoder counts its keys, its values and its depth besides.  So
a frame comes back exactly when it is within the limits that the decoder has for it.
-/
namespace TmuxWorktree
namespace Frames

open Utf16 Grammar
open Strict (Limits Inspection Within inspectRelayV2Json parseRelayV2JsonObject inspect_iff parse_iff document_unique)

/-! ## Bytes -/

theorem stringifyFrame_paired (frame : Record) : loneSurrogates (stringifyFrame frame) = 0 := text_paired (.object frame)

theorem stringifyFrame_head (frame : Record) : ∃ rest, utf8 (stringifyFrame frame) = 0x7B :: rest := by
  refine ⟨utf8 (fieldsText frame ++ [0x7D]), ?_⟩
  show utf8 (0x7B :: (fieldsText frame ++ [0x7D])) = _
  rw [utf8, characters_cons rfl]
  rfl

theorem decode_stringifyFrame {σ : Type} (frame : Record) :
    decodeRelayV2StrictUtf8 (utf8 (stringifyFrame frame)) = (.ok (stringifyFrame frame) : Result σ Text) := by
  obtain ⟨rest, hrest⟩ := stringifyFrame_head frame
  have hmark : (utf8 (stringifyFrame frame)).take 3 ≠ [0xEF, 0xBB, 0xBF] := by
    rw [hrest]
    simp
  unfold decodeRelayV2StrictUtf8
  dsimp only
  rw [if_neg hmark, decode_utf8 (stringifyFrame_paired frame)]
  rfl

/-! ## The passes over the text of a frame -/

def frameTree (frame : Record) : Tree := .object (treeFields frame)

/-- The string under the key `type` of a frame. -/
def frameType (frame : Record) : Option Text := Strict.typeFields (treeFields frame) none

theorem stringifyFrame_document (frame : Record) : Document (stringifyFrame frame) (frameTree frame) :=
  text_document (.object frame)

theorem inspect_frame {frame : Record} {limits : Limits} {i : Inspection} :
    inspectRelayV2Json (stringifyFrame frame) limits = .ok i ↔ Within limits (frameTree frame) ∧
      i = ⟨true, frameType frame, (frameTree frame).keys, (frameTree frame).nodes⟩ := by
  rw [inspect_iff]
  constructor
  · rintro ⟨t, hdocument, hwithin, hi⟩
    cases document_unique (stringifyFrame_document frame) hdocument
    exact ⟨hwithin, hi⟩
  · rintro ⟨hwithin, hi⟩
    exact ⟨_, stringifyFrame_document frame, hwithin, hi⟩

theorem parse_frame {frame fields : Record} {limits : Limits} :
    parseRelayV2JsonObject (stringifyFrame frame) limits = .ok fields ↔
      Within limits (frameTree frame) ∧ fields = plainFields frame := by
  rw [parse_iff]
  constructor
  · rintro ⟨members, hdocument, hwithin, hfields⟩
    cases document_unique (stringifyFrame_document frame) hdocument
    rw [treeFields_value] at hfields
    exact ⟨hwithin, (Option.some.inj hfields).symm⟩
  · rintro ⟨hwithin, rfl⟩
    exact ⟨_, stringifyFrame_document frame, hwithin, treeFields_value frame⟩

/-! ## The limits for a frame -/

/-- **The limits that the decoder has for a frame**: a snapshot chunk may be larger than others. -/
def Channel.frameLimits (channel : Channel) (frame : Record) : Limits :=
  if channel = .public' ∧ frameType frame = some (ofString "state.snapshot.chunk") then snapshotLimits else standardLimits

/-- The frame is within the limits, and no zero in it has a sign. -/
structure Fits (limits : Limits) (frame : Record) : Prop where
  within : Within limits (frameTree frame)
  unsigned : plainFields frame = frame

theorem within_snapshot {t : Tree} (h : Within standardLimits t) : Within snapshotLimits t :=
  ⟨h.depth, Nat.le_trans h.keys (by decide), Nat.le_trans h.nodes (by decide), h.lawful⟩

theorem within_inspection {channel : Channel} {frame : Record} (h : Within (channel.frameLimits frame) (frameTree frame)) :
    Within channel.inspectionLimits (frameTree frame) := by
  unfold Channel.frameLimits at h
  cases channel with
  | public' =>
    split at h
    · exact h
    · exact within_snapshot h
  | carrier =>
    rw [if_neg (fun hc => by cases hc.1)] at h
    exact h

theorem limits_eq (channel : Channel) (frame : Record) (keys nodes : Nat) :
    channel.limits ⟨true, frameType frame, keys, nodes⟩ = channel.frameLimits frame := by
  unfold Channel.limits Channel.frameLimits
  simp only [Bool.and_true, Bool.and_eq_true, decide_eq_true_eq]

section

variable {σ ν : Type} {validate : Record → Except σ ν}

/-! ## Frames -/

theorem parse_encoded {channel : Channel} {frame fields : Record} (hbytes : (utf8 (stringifyFrame frame)).length ≤ channel.frameBytes) :
    parseWebSocketObject channel (utf8 (stringifyFrame frame)) {} = (.ok fields : Result σ Record) ↔
      Within (channel.frameLimits frame) (frameTree frame) ∧ fields = plainFields frame := by
  have hlimit : ¬channel.frameBytes < (utf8 (stringifyFrame frame)).length := Nat.not_lt.mpr hbytes
  unfold parseWebSocketObject
  rw [if_neg Bool.false_ne_true, if_neg Bool.false_ne_true, if_neg hlimit, decode_stringifyFrame]
  constructor
  · intro h
    obtain ⟨source, hsource, h⟩ := except_bind.mp h
    cases hsource
    obtain ⟨inspection, hinspect, h⟩ := except_bind.mp h
    obtain ⟨hwithin, rfl⟩ := inspect_frame.mp (except_mapError.mp hinspect)
    rw [limits_eq channel frame] at h
    dsimp only at h
    split at h
    · cases h
    · split at h
      · cases h
      · exact parse_frame.mp (except_mapError.mp h)
  · rintro ⟨hwithin, rfl⟩
    refine except_bind.mpr ⟨_, rfl, ?_⟩
    refine except_bind.mpr ⟨_, except_mapError.mpr (inspect_frame.mpr ⟨within_inspection hwithin, rfl⟩), ?_⟩
    rw [limits_eq channel frame, if_neg (Nat.not_lt.mpr hwithin.keys), if_neg (Nat.not_lt.mpr hwithin.nodes)]
    exact except_mapError.mpr (parse_frame.mpr ⟨hwithin, rfl⟩)

theorem encode_ok {channel : Channel} {frame : Record} {bytes : List UInt8} :
    encodeRelayV2WebSocketFrame validate channel frame = .ok bytes ↔
      (∃ normalized, validate frame = .ok normalized) ∧ (utf8 (stringifyFrame frame)).length ≤ channel.frameBytes ∧
        bytes = utf8 (stringifyFrame frame) := by
  unfold encodeRelayV2WebSocketFrame
  rw [except_bind]
  simp only [schema, except_mapError, encodeChecked, ← Nat.not_lt]
  constructor
  · rintro ⟨normalized, hvalid, h⟩
    split at h
    · cases h
    · next hlimit => exact ⟨⟨normalized, hvalid⟩, hlimit, (Except.ok.inj h).symm⟩
  · rintro ⟨⟨normalized, hvalid⟩, hlimit, rfl⟩
    exact ⟨normalized, hvalid, if_neg hlimit⟩

theorem decode_ok {channel : Channel} {bytes : List UInt8} {m : Decoded ν} :
    decodeRelayV2WebSocketFrame validate channel bytes {} = .ok m ↔
      parseWebSocketObject channel bytes {} = (.ok m.frame : Result σ Record) ∧ validate m.frame = .ok m.normalized ∧
        m.canonicalWire = stringifyFrame m.frame := by
  unfold decodeRelayV2WebSocketFrame
  rw [except_bind]
  constructor
  · rintro ⟨frame, hframe, h⟩
    obtain ⟨normalized, hvalid, h⟩ := except_bind.mp h
    cases h
    exact ⟨hframe, except_mapError.mp hvalid, rfl⟩
  · rintro ⟨hframe, hvalid, hwire⟩
    refine ⟨m.frame, hframe, except_bind.mpr ⟨m.normalized, except_mapError.mpr hvalid, ?_⟩⟩
    rw [← hwire]
    rfl

/-- **A frame that the encoder lets out comes back exactly when it is within the limits of the decoder.** -/
theorem decode_encode {channel : Channel} {frame : Record} {bytes : List UInt8}
    (h : encodeRelayV2WebSocketFrame validate channel frame = .ok bytes) :
    (∃ m, decodeRelayV2WebSocketFrame validate channel bytes {} = .ok m ∧ m.frame = frame ∧
        (.ok m.normalized : Except σ ν) = validate frame) ↔ Fits (channel.frameLimits frame) frame := by
  obtain ⟨⟨normalized, hvalid⟩, hbytes, rfl⟩ := encode_ok.mp h
  constructor
  · rintro ⟨m, hdecode, rfl, -⟩
    obtain ⟨hwithin, hplain⟩ := (parse_encoded hbytes).mp (decode_ok.mp hdecode).1
    exact ⟨hwithin, hplain.symm⟩
  · rintro ⟨hwithin, hplain⟩
    refine ⟨⟨frame, normalized, stringifyFrame frame⟩, decode_ok.mpr ⟨?_, hvalid, rfl⟩, rfl, hvalid.symm⟩
    exact (parse_encoded hbytes).mpr ⟨hwithin, hplain.symm⟩

/-- **A frame that was decoded is encoded again exactly when its text is within the byte limit.** -/
theorem encode_decode {channel : Channel} {bytes : List UInt8} {m : Decoded ν}
    (h : decodeRelayV2WebSocketFrame validate channel bytes {} = .ok m) :
    (∃ again, encodeRelayV2WebSocketFrame validate channel m.frame = .ok again) ↔
      (utf8 (stringifyFrame m.frame)).length ≤ channel.frameBytes := by
  have hvalid := (decode_ok.mp h).2.1
  constructor
  · rintro ⟨again, hagain⟩
    exact (encode_ok.mp hagain).2.1
  · exact fun hbytes => ⟨_, encode_ok.mpr ⟨⟨_, hvalid⟩, hbytes, rfl⟩⟩

/-! ## Bodies -/

theorem parse_encodedBody {body fields : Record} (hbytes : (utf8 (stringifyFrame body)).length ≤ httpBodyBytes) :
    parseHttpObject (utf8 (stringifyFrame body)) true = (.ok fields : Result σ Record) ↔
      Within httpLimits (frameTree body) ∧ fields = plainFields body := by
  have hlimit : ¬httpBodyBytes < (utf8 (stringifyFrame body)).length := Nat.not_lt.mpr hbytes
  unfold parseHttpObject
  rw [if_neg (by decide), if_neg hlimit, decode_stringifyFrame, ← parse_frame]
  exact except_mapError

theorem encodeBody_ok {body : Record} {bytes : List UInt8} :
    encodeRelayV2HttpsBody validate body = .ok bytes ↔
      (∃ normalized, validate body = .ok normalized) ∧ (utf8 (stringifyFrame body)).length ≤ httpBodyBytes ∧
        bytes = utf8 (stringifyFrame body) := by
  unfold encodeRelayV2HttpsBody
  rw [except_bind]
  simp only [schema, except_mapError, encodeChecked, ← Nat.not_lt]
  constructor
  · rintro ⟨normalized, hvalid, h⟩
    split at h
    · cases h
    · next hlimit => exact ⟨⟨normalized, hvalid⟩, hlimit, (Except.ok.inj h).symm⟩
  · rintro ⟨⟨normalized, hvalid⟩, hlimit, rfl⟩
    exact ⟨normalized, hvalid, if_neg hlimit⟩

theorem decodeBody_ok {bytes : List UInt8} {m : Decoded ν} :
    decodeRelayV2HttpsBody validate bytes true = .ok m ↔
      parseHttpObject bytes true = (.ok m.frame : Result σ Record) ∧ validate m.frame = .ok m.normalized ∧
        m.canonicalWire = stringifyFrame m.frame := by
  unfold decodeRelayV2HttpsBody
  rw [except_bind]
  constructor
  · rintro ⟨frame, hframe, h⟩
    obtain ⟨normalized, hvalid, h⟩ := except_bind.mp h
    cases h
    exact ⟨hframe, except_mapError.mp hvalid, rfl⟩
  · rintro ⟨hframe, hvalid, hwire⟩
    refine ⟨m.frame, hframe, except_bind.mpr ⟨m.normalized, except_mapError.mpr hvalid, ?_⟩⟩
    rw [← hwire]
    rfl

theorem decode_encodeBody {body : Record} {bytes : List UInt8} (h : encodeRelayV2HttpsBody validate body = .ok bytes) :
    (∃ m, decodeRelayV2HttpsBody validate bytes true = .ok m ∧ m.frame = body ∧
        (.ok m.normalized : Except σ ν) = validate body) ↔ Fits httpLimits body := by
  obtain ⟨⟨normalized, hvalid⟩, hbytes, rfl⟩ := encodeBody_ok.mp h
  constructor
  · rintro ⟨m, hdecode, rfl, -⟩
    obtain ⟨hwithin, hplain⟩ := (parse_encodedBody hbytes).mp (decodeBody_ok.mp hdecode).1
    exact ⟨hwithin, hplain.symm⟩
  · rintro ⟨hwithin, hplain⟩
    refine ⟨⟨body, normalized, stringifyFrame body⟩, decodeBody_ok.mpr ⟨?_, hvalid, rfl⟩, rfl, hvalid.symm⟩
    exact (parse_encodedBody hbytes).mpr ⟨hwithin, hplain.symm⟩

theorem encode_decodeBody {bytes : List UInt8} {m : Decoded ν} (h : decodeRelayV2HttpsBody validate bytes true = .ok m) :
    (∃ again, encodeRelayV2HttpsBody validate m.frame = .ok again) ↔
      (utf8 (stringifyFrame m.frame)).length ≤ httpBodyBytes := by
  have hvalid := (decodeBody_ok.mp h).2.1
  constructor
  · rintro ⟨again, hagain⟩
    exact (encodeBody_ok.mp hagain).2.1
  · exact fun hbytes => ⟨_, encodeBody_ok.mpr ⟨⟨_, hvalid⟩, hbytes, rfl⟩⟩

end

/-! ## Both ways -/

/-- **When decoding undoes encoding, and when what was decoded is encoded again**, whatever the validator. -/
theorem frames_round_trip {σ ν : Type} (validate : Record → Except σ ν) :
    (∀ (channel : Channel) (frame : Record) (bytes : List UInt8), encodeRelayV2WebSocketFrame validate channel frame = .ok bytes →
      ((∃ m, decodeRelayV2WebSocketFrame validate channel bytes {} = .ok m ∧ m.frame = frame ∧
          (.ok m.normalized : Except σ ν) = validate frame) ↔ Fits (channel.frameLimits frame) frame)) ∧
    (∀ (channel : Channel) (bytes : List UInt8) (m : Decoded ν),
      decodeRelayV2WebSocketFrame validate channel bytes {} = .ok m →
      ((∃ again, encodeRelayV2WebSocketFrame validate channel m.frame = .ok again) ↔
        (utf8 (stringifyFrame m.frame)).length ≤ channel.frameBytes)) ∧
    (∀ (body : Record) (bytes : List UInt8), encodeRelayV2HttpsBody validate body = .ok bytes →
      ((∃ m, decodeRelayV2HttpsBody validate bytes true = .ok m ∧ m.frame = body ∧
          (.ok m.normalized : Except σ ν) = validate body) ↔ Fits httpLimits body)) ∧
    (∀ (bytes : List UInt8) (m : Decoded ν), decodeRelayV2HttpsBody validate bytes true = .ok m →
      ((∃ again, encodeRelayV2HttpsBody validate m.frame = .ok again) ↔
        (utf8 (stringifyFrame m.frame)).length ≤ httpBodyBytes)) :=
  ⟨fun _ _ _ => decode_encode, fun _ _ _ => encode_decode, fun _ _ => decode_encodeBody, fun _ _ => encode_decodeBody⟩

end Frames
end TmuxWorktree
