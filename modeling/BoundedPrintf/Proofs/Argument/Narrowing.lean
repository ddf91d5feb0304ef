import Mathlib
import BoundedPrintf.Argument

/-! What becomes of an integer on its way into a directive. An argument keeps the residue modulo
2^64, and the length class keeps a residue of that, so nothing is lost but what the class has no
room for. -/
namespace BoundedPrintf.Argument

/-- An integer as a caller has it, of a signed type or of an unsigned one, however wide. -/
inductive Supplied
  | signed (value : Int)
  | unsigned (value : Nat)
  deriving DecidableEq, Repr

namespace Supplied

def value : Supplied → Int
  | signed value => value
  | unsigned value => value

def argument : Supplied → Argument
  | signed value => .ofSigned value
  | unsigned value => .ofUnsigned value

theorem rawBits_argument (supplied : Supplied) :
    (supplied.argument.rawBits.toNat : Int) = supplied.value % ((2 ^ 64 : Nat) : Int) := by
  cases supplied with
  | signed value =>
      have nonneg : 0 ≤ value % ((2 ^ 64 : Nat) : Int) := Int.emod_nonneg _ (by decide)
      have bits : (Int64.ofInt value).toUInt64.toNat = (value % ((2 ^ 64 : Nat) : Int)).toNat := by
        rw [← Int64.toNat_toBitVec, Int64.toBitVec_ofInt, BitVec.toNat_ofInt]
      rw [argument, ofSigned, rawBits, bits, Int.toNat_of_nonneg nonneg, Supplied.value]
  | unsigned value =>
      rw [argument, ofUnsigned, rawBits, UInt64.toNat_ofNat', Supplied.value, Int.natCast_emod]

theorem class_dvd_word (length : LengthClass) :
    ((2 ^ length.bits : Nat) : Int) ∣ ((2 ^ 64 : Nat) : Int) := by
  refine Int.natCast_dvd_natCast.mpr (Nat.pow_dvd_pow 2 ?_)
  cases length <;> decide

theorem signed_argument (supplied : Supplied) (length : LengthClass) :
    Supply.signed (some supplied.argument) length =
      Int.bmod supplied.value (2 ^ length.bits) := by
  have bits := rawBits_argument supplied
  rw [Supply.signed, Supply.bits, Option.elim_some, bits, ← Int.emod_bmod,
    Int.emod_emod_of_dvd _ (class_dvd_word length), Int.emod_bmod]

theorem unsigned_argument (supplied : Supplied) (length : LengthClass) :
    (Supply.unsigned (some supplied.argument) length : Int) =
      supplied.value % ((2 ^ length.bits : Nat) : Int) := by
  have bits := rawBits_argument supplied
  rw [Supply.unsigned, Supply.bits, Option.elim_some, Int.natCast_emod, bits,
    Int.emod_emod_of_dvd _ (class_dvd_word length)]

/-- A 32-bit argument is read by a star as it is. -/
theorem star_argument (value : Int32) : Supply.star (some (.ofSigned value.toInt)) = value.toInt := by
  have kept := signed_argument (.signed value.toInt) .none
  have least := value.le_toInt
  have most := value.toInt_lt
  rw [Supply.star]
  refine kept.trans (Int.bmod_eq_of_le ?_ ?_)
  · simp only [Supplied.value, LengthClass.bits]
    omega
  · simp only [Supplied.value, LengthClass.bits]
    omega

end Supplied

/-- A number of so many bits, with a sign or without, that agrees with a value but for multiples of
the size of the class. -/
structure Represents (signed : Bool) (bits : Nat) (value number : Int) : Prop where
  least : (if signed then -((2 ^ (bits - 1) : Nat) : Int) else 0) ≤ number
  most : number < ((2 ^ (if signed then bits - 1 else bits) : Nat) : Int)
  congruent : number ≡ value [ZMOD ((2 ^ bits : Nat) : Int)]

/-- The residue that a class keeps of a value. -/
def kept (signed : Bool) (bits : Nat) (value : Int) : Int :=
  if signed then Int.bmod value (2 ^ bits) else value % ((2 ^ bits : Nat) : Int)

/-- There is exactly one such number. -/
theorem represents_iff {bits : Nat} (positive : 0 < bits) (signed : Bool) (value number : Int) :
    Represents signed bits value number ↔ number = kept signed bits value := by
  obtain ⟨half, rfl⟩ : ∃ half, bits = half + 1 := ⟨bits - 1, by omega⟩
  have size : 0 < 2 ^ (half + 1) := Nat.two_pow_pos _
  have double : 2 ^ (half + 1) = 2 * 2 ^ half := Nat.pow_succ'
  cases signed with
  | false =>
      constructor
      · rintro ⟨least, most, congruent⟩
        exact (Int.emod_eq_of_lt least most).symm.trans congruent
      · rintro rfl
        refine ⟨Int.emod_nonneg value ?_, Int.emod_lt_of_pos value ?_, Int.mod_modEq value _⟩
        · omega
        · omega
  | true =>
      constructor
      · rintro ⟨least, most, congruent⟩
        have same : Int.bmod number (2 ^ (half + 1)) = Int.bmod value (2 ^ (half + 1)) := by
          rw [← Int.emod_bmod, congruent, Int.emod_bmod]
        refine (Int.bmod_eq_of_le ?_ ?_).symm.trans same
        · simp only [if_true, Nat.add_sub_cancel] at least
          omega
        · simp only [if_true, Nat.add_sub_cancel] at most
          omega
      · rintro rfl
        have least := @Int.le_bmod value (2 ^ (half + 1)) size
        have most := @Int.bmod_lt value (2 ^ (half + 1)) size
        refine ⟨?_, ?_, Int.bmod_emod⟩
        · simp only [kept, if_true, Nat.add_sub_cancel]
          omega
        · simp only [kept, if_true, Nat.add_sub_cancel]
          omega

end BoundedPrintf.Argument
