import Resumption.Proofs.Reading.Lexeme

/-!
# Numbers in printed text

A finite number without a sign is written as a plain numeral, and a numeral never names a number
with a sign or no number at all: every way of making a number out of digits only ever puts positive
parts together.
-/

namespace Resumption

namespace Number

open Script Lexeme

/-- The shortest text of the number is read back as the number itself. -/
def ReadsBack (x : Float) : Prop := decimal? (text x).toList = some x

/-! ## Written digits -/

theorem all_isDigit_toDigits (n : Nat) : (Nat.toDigits 10 n).all Char.isDigit = true := by
  simp only [List.all_eq_true]
  exact fun c hc => Nat.isDigit_of_mem_toDigits (by decide) (by decide) hc

theorem isNumeral_toDigits (n : Nat) : IsNumeral (Nat.toDigits 10 n) :=
  ⟨_, Nat.toDigits_ne_nil, all_isDigit_toDigits n, .inl rfl⟩

theorem all_isDigit_zeros (n : Nat) : (List.replicate n '0').all Char.isDigit = true := by
  simp only [List.all_replicate]
  split <;> rfl

theorem isNumeral_layout (d : Decimal) : IsNumeral d.layout := by
  have hdigits := all_isDigit_toDigits d.digits
  have hpart : ∀ k, (List.take k (Nat.toDigits 10 d.digits)).all Char.isDigit = true ∧
      (List.drop k (Nat.toDigits 10 d.digits)).all Char.isDigit = true := by
    intro k
    rw [← List.take_append_drop k (Nat.toDigits 10 d.digits), List.all_append,
      Bool.and_eq_true] at hdigits
    exact hdigits
  unfold Decimal.layout
  dsimp only
  split_ifs
  · refine ⟨_, by simp [Nat.toDigits_ne_nil], ?_, .inl rfl⟩
    rw [List.all_append, hdigits, all_isDigit_zeros]
    rfl
  · refine ⟨_, ?_, (hpart _).1, .inr ⟨_, (hpart _).2, rfl⟩⟩
    have hlength : 0 < (Nat.toDigits 10 d.digits).length := Nat.length_toDigits_pos
    rw [ne_eq, List.take_eq_nil_iff]
    simp only [Nat.toDigits_ne_nil, or_false]
    omega
  · refine ⟨['0'], by simp, rfl, .inr ⟨List.replicate _ '0' ++ _, ?_, rfl⟩⟩
    rw [List.all_append, hdigits, all_isDigit_zeros]
    rfl

theorem ofFloat?_of_isFinite {x : Float} (hx : x.isFinite = true) :
    ∃ d, Dyadic.ofFloat? x = some d ∧ d.negative = isNegative x := by
  have hraised : ¬ x.toBits.toNat / 2 ^ 52 % 2 ^ 11 = 2 ^ 11 - 1 := by
    intro hall
    change Float.Model.UnpackedFloat.isFinite (Float.Model.unpack x.toModel) = true at hx
    have hexponent : @Float.Model.UnpackedFloat.unpackExponent
        Float.Model.Format.binary64 x.toModel.toBits.toBitVec = -1#11 := by
      apply BitVec.eq_of_toNat_eq
      rw [Float.Model.UnpackedFloat.unpackExponent, BitVec.toNat_cast, BitVec.extractLsb_toNat,
        Nat.shiftRight_eq_div_pow]
      exact hall
    delta Float.Model.unpack Float.Model.UnpackedFloat.unpack at hx
    dsimp only at hx
    rw [if_pos hexponent] at hx
    split at hx <;> cases hx
  unfold Dyadic.ofFloat?
  dsimp only
  rw [if_neg (by simpa using hraised)]
  split <;> exact ⟨_, rfl, rfl⟩

/-- A finite number without a sign is written with digits and at most one point. -/
theorem isNumeral_text {x : Float} (hx : x.isFinite = true) (hsign : isNegative x = false) :
    IsNumeral (text x).toList := by
  obtain ⟨d, hd, hneg⟩ := ofFloat?_of_isFinite hx
  rw [text, hd]
  simp only [hneg, hsign, Bool.false_eq_true, if_false]
  split_ifs
  · exact ⟨['0'], by simp, rfl, .inl rfl⟩
  · rw [String.toList_ofList]
    exact isNumeral_toDigits _
  · rw [String.toList_ofList]
    exact isNumeral_layout _

/-! ## Numbers without a sign -/

section Positive

open Float.Model UnpackedFloat

/-- The unpacked number carries no minus sign. -/
def Positive : UnpackedFloat → Prop
  | .infinity s => s = .positive
  | .zero s => s = .positive
  | .finite s _ _ _ => s = .positive
  | .notANumber => True

variable {f : Format} {a b : UnpackedFloat}

theorem holds_dite {P : UnpackedFloat → Prop} {c : Prop} [Decidable c] {x : c → UnpackedFloat}
    {y : ¬c → UnpackedFloat} (hx : ∀ h, P (x h)) (hy : ∀ h, P (y h)) : P (dite c x y) := by
  by_cases h : c
  · rw [dif_pos h]
    exact hx h
  · rw [dif_neg h]
    exact hy h

theorem positive_roundWithAccuracy (m : Nat) (e : Int) (acc : Accuracy) :
    Positive (roundWithAccuracy f .positive m e acc) := by
  unfold roundWithAccuracy
  exact holds_dite (P := Positive) (fun _ => rfl) fun _ => rfl

theorem positive_mul (ha : Positive a) (hb : Positive b) : Positive (mul f a b) := by
  cases a <;> cases ha <;> cases b <;> cases hb <;>
    first | trivial | exact positive_roundWithAccuracy _ _ _

theorem positive_div (ha : Positive a) (hb : Positive b) : Positive (div f a b) := by
  cases a <;> cases ha <;> cases b <;> cases hb <;>
    first | trivial | exact positive_roundWithAccuracy _ _ _

theorem positive_ofScientific (m : Nat) (e : Int) : Positive (UnpackedFloat.ofScientific f m e) := by
  unfold UnpackedFloat.ofScientific
  refine holds_dite (fun _ => rfl) fun _ => iteInduction (fun _ => rfl) fun _ =>
    iteInduction (fun _ => rfl) fun _ => iteInduction (fun _ => ?_) fun _ => ?_
  · exact positive_mul rfl rfl
  · exact positive_div rfl rfl

theorem positive_ofUInt64 (n : UInt64) : Positive (UnpackedFloat.ofUInt64 f n) := by
  unfold UnpackedFloat.ofUInt64 UnpackedFloat.ofNat UnpackedFloat.ofInt UnpackedFloat.normalize
  split
  · rename_i hlt
    rw [Int.compare_eq_lt] at hlt
    omega
  · rfl
  · exact positive_roundWithAccuracy _ _ _

theorem msb_packComponents (e : BitVec 11) (m : BitVec 52) :
    (packComponents Format.binary64 .positive e m).msb = false := by
  rw [packComponents, BitVec.msb_append, BitVec.msb_append]
  rfl

theorem msb_pack (ha : Positive a) : (UnpackedFloat.pack Format.binary64 a).msb = false := by
  cases a <;> cases ha
  · exact msb_packComponents _ _
  · exact msb_packComponents _ _
  · exact msb_packComponents _ _
  · unfold UnpackedFloat.pack
    dsimp only
    split_ifs <;> exact msb_packComponents _ _

theorem isNegative_pack (ha : Positive a) :
    isNegative (Float.ofModel (Float.Model.pack a)) = false := by
  have hbits : 2 * (UnpackedFloat.pack Format.binary64 a).toNat < 2 ^ 64 :=
    BitVec.msb_eq_false_iff_two_mul_lt.1 (msb_pack ha)
  rw [isNegative, beq_eq_false_iff_ne]
  change (UnpackedFloat.pack Format.binary64 a).toNat / 2 ^ 63 ≠ 1
  rw [Nat.div_eq_of_lt (by omega)]
  decide

/-- Sixty-four bits without a sign unpack to a number without one. -/
theorem positive_unpack {x : Float} (hx : isNegative x = false) :
    Positive (Float.Model.unpack x.toModel) := by
  have hmsb : @unpackSign Format.binary64 x.toModel.toBits.toBitVec = 0#1 := by
    apply BitVec.eq_of_toNat_eq
    delta unpackSign
    rw [BitVec.toNat_cast, BitVec.extractLsb_toNat, Nat.shiftRight_eq_div_pow]
    change x.toBits.toNat / 2 ^ 63 % 2 = 0
    have hlt : x.toBits.toNat < 2 ^ 64 := x.toBits.toNat_lt
    rw [isNegative, beq_eq_false_iff_ne] at hx
    omega
  delta Float.Model.unpack UnpackedFloat.unpack
  rw [hmsb]
  refine iteInduction (fun _ => ?_) fun _ => iteInduction (fun _ => ?_) fun _ => rfl
  · exact iteInduction (fun _ => rfl) fun _ => trivial
  · exact holds_dite (fun _ => rfl) fun _ => rfl

theorem isNegative_mul {x y : Float} (hx : isNegative x = false) (hy : isNegative y = false) :
    isNegative (x * y) = false :=
  isNegative_pack (positive_mul (positive_unpack hx) (positive_unpack hy))

theorem isNegative_div {x y : Float} (hx : isNegative x = false) (hy : isNegative y = false) :
    isNegative (x / y) = false :=
  isNegative_pack (positive_div (positive_unpack hx) (positive_unpack hy))

theorem isNegative_power : ∀ e (h : e < Float.exactlyRepresentablePowersOfTen.size),
    isNegative Float.exactlyRepresentablePowersOfTen[e] = false := by
  decide

theorem isNegative_ofScientific (m : Nat) (s : Bool) (e : Nat) :
    isNegative (Float.ofScientific m s e) = false := by
  unfold Float.ofScientific
  split_ifs with h
  · exact isNegative_div (isNegative_pack (positive_ofUInt64 _)) (isNegative_power e _)
  · exact isNegative_mul (isNegative_pack (positive_ofUInt64 _)) (isNegative_power e _)
  all_goals exact isNegative_pack (positive_ofScientific _ _)

end Positive

/-! ## Numbers that are numbers -/

section Actual

open Float.Model UnpackedFloat

variable {f : Format} {a b : UnpackedFloat}

/-- A number that is neither a zero nor an infinity. -/
def isOrdinary : UnpackedFloat → Bool
  | .finite .. => true
  | _ => false

/-- The unpacked number is a number. -/
def IsActual (a : UnpackedFloat) : Prop := a.isNaN = false

theorem isActual_roundWithAccuracy (s : Sign) (m : Nat) (e : Int) (acc : Accuracy) :
    IsActual (roundWithAccuracy f s m e acc) := by
  unfold roundWithAccuracy
  exact holds_dite (fun _ => rfl) fun _ => rfl

theorem isActual_mul (ha : IsActual a) (hb : isOrdinary b = true) : IsActual (mul f a b) := by
  cases b <;> cases hb
  cases a with
  | notANumber => cases ha
  | infinity | zero => rfl
  | finite => exact isActual_roundWithAccuracy _ _ _ _

theorem isActual_div (ha : IsActual a) (hb : isOrdinary b = true) : IsActual (div f a b) := by
  cases b <;> cases hb
  cases a with
  | notANumber => cases ha
  | infinity | zero => rfl
  | finite => exact isActual_roundWithAccuracy _ _ _ _

theorem isActual_ofScientific (m : Nat) (e : Int) : IsActual (UnpackedFloat.ofScientific f m e) := by
  unfold UnpackedFloat.ofScientific
  refine holds_dite (fun _ => rfl) fun _ => iteInduction (fun _ => rfl) fun _ =>
    iteInduction (fun _ => rfl) fun _ => iteInduction (fun _ => ?_) fun _ => ?_
  · exact isActual_mul rfl rfl
  · exact isActual_div rfl rfl

theorem isActual_ofUInt64 (n : UInt64) : IsActual (UnpackedFloat.ofUInt64 f n) := by
  unfold UnpackedFloat.ofUInt64 UnpackedFloat.ofNat UnpackedFloat.ofInt UnpackedFloat.normalize
  split
  · exact isActual_roundWithAccuracy _ _ _ _
  · rfl
  · exact isActual_roundWithAccuracy _ _ _ _

/-- Only the highest exponent stands for what is no number. -/
theorem isActual_unpack_packComponents {s : Sign} {e : BitVec f.exponentBits}
    {m : BitVec f.mantissaBitsWithoutImplicit} (h : e = -1#_ → m = 0#_) :
    IsActual (UnpackedFloat.unpack f (packComponents f s e m)) := by
  delta UnpackedFloat.unpack
  refine iteInduction (fun he => ?_) fun _ => iteInduction (fun _ => ?_) fun _ => rfl
  · rw [unpackExponent_packComponents] at he
    rw [if_pos (unpackMantissa_packComponents.trans (h he))]
    rfl
  · exact holds_dite (fun _ => rfl) fun _ => rfl

theorem isNaN_pack (ha : IsActual a) : (Float.ofModel (Float.Model.pack a)).isNaN = false := by
  change IsActual (UnpackedFloat.unpack Format.binary64 (UnpackedFloat.pack Format.binary64 a))
  cases a with
  | notANumber => cases ha
  | infinity => exact isActual_unpack_packComponents fun _ => rfl
  | zero => exact isActual_unpack_packComponents fun he => absurd he (by decide)
  | finite s m e hm =>
      unfold UnpackedFloat.pack
      dsimp only
      split
      · exact isActual_unpack_packComponents fun _ => rfl
      · rename_i hfits
        split
        · refine isActual_unpack_packComponents fun he => ?_
          have hraised := congrArg BitVec.toNat he
          rw [BitVec.toNat_ofNat] at hraised
          change _ % 2 ^ 11 = 2 ^ 11 - 1 at hraised
          change ¬ 2 ^ 11 ≤ _ at hfits
          rw [Nat.mod_eq_of_lt (by omega)] at hraised
          omega
        · exact isActual_unpack_packComponents fun he => absurd he (by decide)

theorem isOrdinary_power : ∀ e (h : e < Float.exactlyRepresentablePowersOfTen.size),
    isOrdinary (Float.Model.unpack Float.exactlyRepresentablePowersOfTen[e].toModel) = true := by
  decide

theorem isNaN_ofScientific (m : Nat) (s : Bool) (e : Nat) :
    (Float.ofScientific m s e).isNaN = false := by
  unfold Float.ofScientific
  split_ifs with h
  · exact isNaN_pack (isActual_div (isNaN_pack (isActual_ofUInt64 _)) (isOrdinary_power e _))
  · exact isNaN_pack (isActual_mul (isNaN_pack (isActual_ofUInt64 _)) (isOrdinary_power e _))
  all_goals exact isNaN_pack (isActual_ofScientific _ _)

end Actual

/-- A number that has no sign. -/
def Plain (x : Float) : Prop := x.isNaN = false ∧ isNegative x = false

theorem plain_ofScientific (m : Nat) (s : Bool) (e : Nat) : Plain (Float.ofScientific m s e) :=
  ⟨isNaN_ofScientific m s e, isNegative_ofScientific m s e⟩

theorem plain_ofDecimal (digits : Nat) (exponent : Int) : Plain (ofDecimal digits exponent) := by
  unfold ofDecimal
  dsimp only
  split_ifs
  · exact ⟨by decide, by decide⟩
  · exact ⟨by decide, by decide⟩
  · exact ⟨by decide, by decide⟩
  · exact plain_ofScientific _ _ _

theorem plain_of_unsigned? {s : List Char} {x : Float} (h : unsigned? s = some x) : Plain x := by
  unfold unsigned? at h
  dsimp only at h
  split at h
  · cases h
    exact plain_ofDecimal _ _
  · cases h

end Number

end Resumption
