import DclServer.Proofs.Completion.Denotation

namespace DclServer.Identifier

variable {s t : String} {n unit : Int} {ds : List Nat} {c : Char}

def Unseparated (s : String) : Prop :=
  ∀ c ∈ s.toList, ¬ (0x1C ≤ c.toNat ∧ c.toNat ≤ 0x1F)

def Ascii (s : String) : Prop :=
  ∀ c ∈ s.toList, c.toNat < 0x80

/-- A space that may stand around a number: in an ASCII text one of U+0009 to U+000D and U+0020, in any other a
blank of any script. -/
structure Surrounds (s : String) (c : Char) : Prop where
  ascii : Ascii s → (0x09 ≤ c.toNat ∧ c.toNat ≤ 0x0D) ∨ c.toNat = 0x20
  other : ¬ Ascii s → Text.isBlank c = true

/-- A text is spelled by spaces, at most one sign, digits with these values, and spaces. -/
def Spells (s : String) (unit : Int) (ds : List Nat) : Prop :=
  ∃ before sign digits after, s.toList = before ++ (sign ++ digits) ++ after ∧
    (∀ c ∈ before ++ after, Surrounds s c) ∧ Sign sign unit ∧ Digits digits ds

theorem isBlank_of_ascii (h : (0x09 ≤ c.toNat ∧ c.toNat ≤ 0x0D) ∨ c.toNat = 0x20) : Text.isBlank c = true := by
  simp only [Text.isBlank, Bool.or_eq_true, Bool.and_eq_true, decide_eq_true_eq, beq_iff_eq]
  omega

theorem ascii_of_isBlank (h : Text.isBlank c = true) (ha : c.toNat < 0x80)
    (hc : ¬ (0x1C ≤ c.toNat ∧ c.toNat ≤ 0x1F)) : (0x09 ≤ c.toNat ∧ c.toNat ≤ 0x0D) ∨ c.toNat = 0x20 := by
  simp only [Text.isBlank, Bool.or_eq_true, Bool.and_eq_true, decide_eq_true_eq, beq_iff_eq] at h
  omega

theorem isMargin_iff : isMargin c = true ↔ Text.isBlank c = true ∧ ¬ (0x1C ≤ c.toNat ∧ c.toNat ≤ 0x1F) := by
  rw [isMargin, Bool.and_eq_true]
  apply and_congr_right
  intro _
  simp only [Bool.not_eq_true', Bool.and_eq_false_iff, decide_eq_false_iff_not]
  omega

theorem surrounds_iff (hs : Unseparated s) (hc : c ∈ s.toList) : Surrounds s c ↔ isMargin c = true := by
  rw [isMargin_iff]
  constructor
  · intro h
    refine ⟨?_, hs c hc⟩
    by_cases ha : Ascii s
    · exact isBlank_of_ascii (h.ascii ha)
    · exact h.other ha
  · rintro ⟨hb, hseparator⟩
    exact ⟨fun ha => ascii_of_isBlank hb (ha c hc) hseparator, fun _ => hb⟩

theorem numeral_iff_spells (hs : Unseparated s) : Numeral s.toList n ↔
    ∃ unit ds, Spells s unit ds ∧ ds.length ≤ Text.maxDigits ∧ n = unit * (Nat.ofDigits 10 ds.reverse : ℕ) := by
  constructor
  · intro h
    generalize hcs : s.toList = cs at h
    cases h with
    | @mk before sign digits after unit ds hb hsign hd hl ha =>
      refine ⟨unit, ds, ⟨before, sign, digits, after, hcs, fun c hc => ?_, hsign, hd⟩, hl, rfl⟩
      have hmem : c ∈ s.toList := by
        rw [hcs]
        simp only [List.mem_append] at hc ⊢
        tauto
      rw [surrounds_iff hs hmem]
      exact (List.mem_append.mp hc).elim (hb c) (ha c)
  · rintro ⟨unit, ds, ⟨before, sign, digits, after, hcs, hspaces, hsign, hd⟩, hl, rfl⟩
    have hmargin : ∀ c ∈ before ++ after, isMargin c = true := by
      intro c hc
      apply (surrounds_iff hs _).mp (hspaces c hc)
      rw [hcs]
      simp only [List.mem_append] at hc ⊢
      tauto
    rw [hcs]
    exact .mk (fun c hc => hmargin c (List.mem_append_left _ hc)) hsign hd hl
      fun c hc => hmargin c (List.mem_append_right _ hc)

theorem ofValue?_text_iff (hs : Unseparated s) : ofValue? (.text s) = some n ↔
    ∃ unit ds, Spells s unit ds ∧ ds.length ≤ 4300 ∧ n = unit * (Nat.ofDigits 10 ds.reverse : ℕ) :=
  ofText?_eq_some_iff.trans (numeral_iff_spells hs)

theorem ofDigits_leading_zeros (k : Nat) (ds : List Nat) :
    Nat.ofDigits 10 (List.replicate k 0 ++ ds).reverse = Nat.ofDigits 10 ds.reverse := by
  rw [List.reverse_append, List.reverse_replicate, Nat.ofDigits_append_replicate_zero]

theorem ofValue?_float_iff {x : Double} : ofValue? (.atom (.float x)) = some n ↔ x.value? = some (n : ℚ) :=
  Double.toInt?_eq_some_iff

/-- How an identifier is recovered. A text gives one exactly if it is spelled by the grammar in at most 4300
digits, and two spellings give the same if they have the same sign and, up to zeros in front, the same digits.
A number gives one exactly if its value is an integer. -/
structure Recovers : Prop where
  spelled : ∀ s, Unseparated s → ∀ n : Int, ofValue? (.text s) = some n ↔
    ∃ unit ds, Spells s unit ds ∧ ds.length ≤ 4300 ∧ n = unit * (Nat.ofDigits 10 ds.reverse : ℕ)
  respelled : ∀ s t unit ds k, Unseparated s → Unseparated t → Spells s unit ds →
    Spells t unit (List.replicate k 0 ++ ds) → k + ds.length ≤ 4300 →
    ofValue? (.text t) = ofValue? (.text s) ∧ (ofValue? (.text s)).isSome
  written : ∀ n : Int, (Nat.toDigits 10 n.natAbs).length ≤ 4300 → ofValue? (.text (decimal n)) = some n
  integral : ∀ (x : Double) (n : Int), x.value? = some (n : ℚ) → ofValue? (.atom (.float x)) = some n
  fractional : ∀ x : Double, (∀ n : Int, x.value? ≠ some (n : ℚ)) → ofValue? (.atom (.float x)) = none

theorem identifier_recovers : Recovers where
  spelled s hs n := ofValue?_text_iff hs
  respelled s t unit ds k hs ht hds hzeros hl := by
    have hsome : ofValue? (.text s) = some (unit * (Nat.ofDigits 10 ds.reverse : ℕ)) :=
      (ofValue?_text_iff hs).mpr ⟨unit, ds, hds, by omega, rfl⟩
    have hlength : (List.replicate k 0 ++ ds).length ≤ 4300 := by
      rw [List.length_append, List.length_replicate]
      exact hl
    have hsame : ofValue? (.text t) = some (unit * (Nat.ofDigits 10 ds.reverse : ℕ)) :=
      (ofValue?_text_iff ht).mpr ⟨unit, _, hzeros, hlength, by rw [ofDigits_leading_zeros]⟩
    rw [hsome, hsame]
    exact ⟨rfl, rfl⟩
  written n hn := ofValue?_eq_some_iff.mpr (.text (numeral_decimal hn))
  integral x n hx := ofValue?_float_iff.mpr hx
  fractional x hx := by
    cases hn : ofValue? (.atom (.float x)) with
    | none => rfl
    | some n => exact absurd (ofValue?_float_iff.mp hn) (hx n)

/-- Digits of two scripts, an underscore between digits, and spaces; then what is not spelled by the grammar. -/
example :
    ofValue? (.text " -\u06601_2\t") = some (-12) ∧ ofValue? (.text "\u00a0+7\u2003") = some 7 ∧
      ofValue? (.text "1__2") = none ∧ ofValue? (.text "_1") = none ∧ ofValue? (.text "+-1") = none ∧
      ofValue? (.text "1 2") = none ∧ ofValue? (.text "") = none := by decide +kernel

end DclServer.Identifier
