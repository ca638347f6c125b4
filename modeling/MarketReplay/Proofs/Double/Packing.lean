import Mathlib
import MarketReplay.Proofs.Double

/-!
# Packing doubles

Between two operations a double stands packed in its format. Nothing is lost by that: **a double is
what it unpacks to, packed again** (`Double.pack_unpack`), so it is known by its unpacked form. The
one law of arithmetic that follows at once is that adding zero changes nothing but the sign of a
zero (`Double.same_add_zero`). What else holds of sums and quotients takes a look at how they are
rounded, and has modules of its own.

The library is imported whole here and nowhere else. Its lemmas on the bits of a float stand in a
part of it that no smaller import reaches.
-/

set_option autoImplicit false

namespace MarketReplay.Double

open Float.Model Float.Model.UnpackedFloat

/-- The two are one double, up to the sign of a zero. Sums that start at zero lose such a sign, and
no comparison tells it. -/
def Same (x y : Float) : Prop := x = y ∨ (x == y) = true

theorem Same.refl (x : Float) : Same x x := .inl rfl

theorem pack_unpack (x : Float) : Float.Model.pack x.toModel.unpack = x.toModel := by
  have hbits : (x.toModel.unpack).pack Format.binary64 = x.toModel.toBits.toBitVec :=
    pack_unpack_of_valid x.toModel.valid
  unfold Float.Model.pack
  simp only [hbits]

theorem eq_of_unpack_eq {x y : Float} (h : x.toModel.unpack = y.toModel.unpack) : x = y := by
  have hmodel : x.toModel = y.toModel := by rw [← pack_unpack x, h, pack_unpack y]
  exact congrArg Float.ofModel hmodel

theorem unpacked_add_zero (spec : Format) (a : UnpackedFloat) :
    UnpackedFloat.add spec a (.zero .positive) = a ∨
      ∃ s, a = .zero s ∧ UnpackedFloat.add spec a (.zero .positive) = .zero .positive := by
  rcases a with s | _ | (_ | _) | ⟨s, m, e, hm⟩
  · exact .inl rfl
  · exact .inl rfl
  · exact .inr ⟨_, rfl, rfl⟩
  · exact .inl rfl
  · exact .inl rfl

/-- Adding zero changes nothing but the sign of a zero. -/
theorem same_add_zero (x : Float) : Same (x + 0) x := by
  have hadd : x + 0 = .ofModel (Float.Model.pack
      (UnpackedFloat.add Format.binary64 x.toModel.unpack (.zero .positive))) := rfl
  rcases unpacked_add_zero Format.binary64 x.toModel.unpack with h | ⟨s, hzero, h⟩
  · rw [h, pack_unpack] at hadd
    exact .inl hadd
  · refine .inr ?_
    show (x + 0).toModel.unpack.beq x.toModel.unpack = true
    rw [hadd, h, hzero, unpacked_beq_iff]
    exact ⟨_, rfl, _, rfl, rfl⟩

end MarketReplay.Double
