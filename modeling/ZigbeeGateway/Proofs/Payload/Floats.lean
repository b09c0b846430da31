-- Floating point on the air. Every number is spelled by one pattern, and null by the quiet NaN,
-- though a reader takes any NaN for null.
import ZigbeeGateway.Proofs.Number.Conversion
import ZigbeeGateway.Proofs.Payload.Pieces
import ZigbeeGateway.Proofs.Payload.Spelling
namespace ZigbeeGateway

open LittleEndian

/-! ## Doubles -/

/-- JSON keeps every number, the infinities as texts. -/
theorem doubleOf?_asJson {x : Double} (h : x.isNaN = false) :
    doubleOf? (Value.float x).asJson = some x := by
  rw [Value.asJson, h, if_neg Bool.false_ne_true]
  by_cases hinf : x.isInfinite = true
  · have hmag : x.magnitude = FloatLayout.double.infinity := of_decide_eq_true hinf
    have hx := Double.ofMagnitude_magnitude x
    rw [hmag, ← Double.infinity_eq] at hx
    rw [if_pos hinf]
    cases hneg : x.isNegative
    · rw [hneg] at hx
      rw [if_neg Bool.false_ne_true, ← hx]
      rfl
    · rw [hneg] at hx
      rw [if_pos rfl, ← hx]
      rfl
  · rw [if_neg hinf]
    rfl

theorem writes_float {t : Datatype} {f : FloatLayout} {v : Value} {x : Double}
    (h : doubleOf? v = some x) : (writeFloat t f v).Writes (bytes f.width (f.encode x)) := by
  simp only [writeFloat, h]
  exact Writer.writes_number _ _

/-! ## Layouts -/

/-- A layout of numbers on the air: its sign bit is the highest bit of its bytes. -/
structure FloatLayout.OnAir (f : FloatLayout) : Prop extends f.Narrow where
  limit_width : limit f.width = 2 * f.signBit

namespace FloatLayout.OnAir

variable {f : FloatLayout}

theorem quietNaN_lt (hf : f.OnAir) : f.quietNaN < limit f.width := by
  have := FloatLayout.quietNaN_lt hf.toProper
  rw [hf.limit_width]
  omega

theorem isNaN_quietNaN (hf : f.OnAir) : f.infinity < f.magnitude f.quietNaN := by
  rw [magnitude_of_lt (FloatLayout.quietNaN_lt hf.toProper)]
  exact infinity_lt_quietNaN hf.toProper

theorem floatValue_nan (hf : f.OnAir) {raw : Nat} (h : f.infinity < f.magnitude raw) :
    floatValue f raw = .null := if_pos ((hf.isNaN_decode raw).mpr h)

theorem floatValue_number (hf : f.OnAir) {raw : Nat} (h : f.magnitude raw ≤ f.infinity) :
    floatValue f raw = .float (f.decode raw) := by
  apply if_neg
  rw [hf.isNaN_decode raw]
  omega

theorem reads (f : FloatLayout) {raw : Nat} (h : raw < limit f.width) (s : Bytes) :
    readFloat f (bytes f.width raw ++ s) = .ok (floatValue f raw, s) :=
  Reader.map_run (Reader.number_run h s)

/-- Null is spelled as the quiet NaN. -/
theorem spells_nan (hf : f.OnAir) (t : Datatype) :
    Spells (readFloat f) (writeFloat t f) False .null (bytes f.width f.quietNaN) := by
  refine .of_asJson rfl (fun s => ?_) ?_
  · rw [reads f hf.quietNaN_lt, hf.floatValue_nan hf.isNaN_quietNaN]
  · have hw : (writeFloat t f .null).Writes (bytes f.width (f.encode .nan)) := writes_float rfl
    rwa [encode_nan isNaN_nan] at hw

/-- A number is spelled as its pattern. -/
theorem spells (hf : f.OnAir) (t : Datatype) {raw : Nat} (hraw : raw < limit f.width)
    (h : f.magnitude raw ≤ f.infinity) :
    Spells (readFloat f) (writeFloat t f) False (floatValue f raw) (bytes f.width raw) := by
  have hnan : (f.decode raw).isNaN = false := by
    rw [← Bool.not_eq_true, hf.isNaN_decode]
    omega
  have hback : f.encode (f.decode raw) = raw := hf.encode_decode (hf.limit_width ▸ hraw) h
  have hv := hf.floatValue_number h
  refine ⟨fun s _ => reads f hraw s, ?_, ?_⟩
  · have hw : (writeFloat t f (.float (f.decode raw))).Writes _ := writes_float rfl
    rwa [hback, ← hv] at hw
  · have hw := writes_float (t := t) (f := f) (doubleOf?_asJson hnan)
    rwa [hback, ← hv] at hw

theorem accepts (hf : f.OnAir) (t : Datatype) {bs rest : Bytes} {v : Value}
    (h : readFloat f bs = .ok (v, rest)) : ∃ c, Reader.take f.width bs = .ok (c, rest) ∧
      Spells (readFloat f) (writeFloat t f) False v (Piece.quiet (.float f c)).bytes := by
  obtain ⟨raw, hnumber, rfl⟩ := Reader.map_eq_ok h
  obtain ⟨c, hc, rfl⟩ := Reader.map_eq_ok hnumber
  obtain ⟨rfl, hlen⟩ := Reader.take_eq_ok hc
  refine ⟨c, hc, ?_⟩
  by_cases hnan : f.infinity < f.magnitude (value c)
  · rw [hf.floatValue_nan hnan, Piece.quiet, if_pos hnan, Piece.bytes, hlen]
    exact hf.spells_nan t
  · rw [Piece.quiet, if_neg hnan, Piece.bytes]
    have hs := hf.spells t (hlen ▸ value_lt c) (Nat.not_lt.mp hnan)
    rwa [← hlen, bytes_value] at hs

theorem gives (hf : f.OnAir) (t : Datatype) {v : Value} {bs : Bytes}
    (h : (writeFloat t f v).Writes bs) :
    ∃ v', Spells (readFloat f) (writeFloat t f) False v' bs := by
  obtain ⟨x, -, rfl⟩ := written_float h
  rcases encode_cases f x with ⟨-, he⟩ | ⟨negative, m, hm, he⟩
  · rw [he]
    exact ⟨_, hf.spells_nan t⟩
  · have hsign := hm.trans_lt f.infinity_lt_signBit
    rw [he]
    refine ⟨_, hf.spells t (hf.limit_width ▸ withSign_lt negative hsign) ?_⟩
    rwa [magnitude_withSign negative hsign]

end FloatLayout.OnAir

theorem onAir_semi : FloatLayout.semi.OnAir := ⟨FloatLayout.narrow_semi, by decide⟩

theorem onAir_single : FloatLayout.single.OnAir := ⟨FloatLayout.narrow_single, by decide⟩

theorem onAir_double : FloatLayout.double.OnAir := ⟨FloatLayout.narrow_double, by decide⟩

end ZigbeeGateway
