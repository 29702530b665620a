import DclServer.Proofs.Completion.Numeral
import Mathlib.Algebra.Order.Field.Rat
import Mathlib.Tactic.Ring

namespace DclServer

namespace Double

variable {x : Double} {n : Int}

/-- The exact value of a finite number. -/
def value? : Double → Option ℚ
  | .finite negative m e => some ((if negative then -1 else 1) * (m * 2 ^ e))
  | _ => none

theorem power_two (e : Int) : (power 2 e : ℚ) = 2 ^ e.toNat := by
  simp [power]

theorem two_zpow (e : Int) : (2 : ℚ) ^ e * power 2 (-e) = power 2 e := by
  rw [power_two, power_two, ← zpow_natCast, ← zpow_natCast, ← zpow_add₀ (by norm_num)]
  congr 1
  omega

theorem mul_two_zpow {m : Nat} {e : Int} (hm : m % power 2 (-e) = 0) :
    (m : ℚ) * 2 ^ e = (m / power 2 (-e) * power 2 e : ℕ) := by
  have hdiv : m / power 2 (-e) * power 2 (-e) = m := Nat.div_mul_cancel (Nat.dvd_of_mod_eq_zero hm)
  calc (m : ℚ) * 2 ^ e = (m / power 2 (-e) * power 2 (-e) : ℕ) * 2 ^ e := by rw [hdiv]
    _ = (m / power 2 (-e) : ℕ) * (2 ^ e * power 2 (-e)) := by push_cast; ring
    _ = (m / power 2 (-e) * power 2 e : ℕ) := by rw [two_zpow]; push_cast; rfl

theorem value?_of_toInt? (h : x.toInt? = some n) : x.value? = some (n : ℚ) := by
  cases x with
  | nan | infinite => cases h
  | finite negative m e =>
    simp only [toInt?] at h
    split at h
    · rename_i hm
      cases h
      rw [value?, mul_two_zpow hm]
      generalize m / power 2 (-e) * power 2 e = k
      cases negative <;> simp
    · cases h

theorem mod_of_value? {negative : Bool} {m : Nat} {e : Int} (h : (finite negative m e).value? = some (n : ℚ)) :
    m % power 2 (-e) = 0 := by
  rcases le_or_gt 0 e with he | he
  · have hone : power 2 (-e) = 1 := by simp [power, he]
    rw [hone, Nat.mod_one]
  · -- a value with binary places is an integer only if the significand holds the missing powers of two
    have hone : power 2 e = 1 := by simp [power, he.le]
    have hval : (m : ℚ) * 2 ^ e = (if negative then -n else n : Int) := by
      have hv := Option.some.inj h
      cases negative
      · simpa using hv
      · simp only [↓reduceIte, neg_mul, one_mul] at hv
        simp [← hv]
    have hm : (m : ℚ) = (if negative then -n else n : Int) * power 2 (-e) := by
      rw [← hval, mul_assoc, two_zpow, hone, Nat.cast_one, mul_one]
    have hdvd : (power 2 (-e) : ℤ) ∣ m := ⟨if negative then -n else n, by rw [mul_comm]; exact_mod_cast hm⟩
    exact Nat.mod_eq_zero_of_dvd (Int.natCast_dvd_natCast.mp hdvd)

theorem toInt?_eq_some_iff : x.toInt? = some n ↔ x.value? = some (n : ℚ) := by
  refine ⟨value?_of_toInt?, fun h => ?_⟩
  cases x with
  | nan | infinite => cases h
  | finite negative m e =>
    obtain ⟨k, hk⟩ : ∃ k, (finite negative m e).toInt? = some k := by simp [toInt?, mod_of_value? h]
    have heq : (k : ℚ) = n := Option.some.inj ((value?_of_toInt? hk).symm.trans h)
    rw [hk, Int.cast_injective heq]

end Double

/-- The data of an item denotes an integer: as itself, as a number of that exact value or as a text that
writes it. -/
inductive Identifier.Denotes : Value → Int → Prop where
  | int (n : Int) : Denotes (.int n) n
  | float {x : Double} {n : Int} (hx : x.value? = some (n : ℚ)) : Denotes (.atom (.float x)) n
  | text {s : String} {n : Int} (hs : Numeral s.toList n) : Denotes (.text s) n

theorem Identifier.ofValue?_eq_some_iff {v : Value} {n : Int} : ofValue? v = some n ↔ Denotes v n := by
  constructor
  · intro h
    unfold ofValue? at h
    split at h
    · cases h
      exact .int n
    · exact .float (Double.toInt?_eq_some_iff.mp h)
    · exact .text (ofText?_eq_some_iff.mp h)
    · cases h
  · intro h
    cases h with
    | int => rfl
    | float hx => exact Double.toInt?_eq_some_iff.mpr hx
    | text hs => exact ofText?_eq_some_iff.mpr hs

end DclServer
