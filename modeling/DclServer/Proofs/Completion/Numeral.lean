import DclServer.Identifier
import DclServer.Value.Literal
import Mathlib.Data.List.Induction
import Mathlib.Data.Nat.Digits.Defs

namespace DclServer

namespace Text

variable {p : Char → Bool}

theorem trim_parts (p : Char → Bool) (cs : List Char) :
    ∃ before after, cs = before ++ trim p cs ++ after ∧ (∀ c ∈ before, p c = true) ∧ ∀ c ∈ after, p c = true := by
  have hfront := List.takeWhile_append_dropWhile (p := p) (l := cs)
  have hback := List.takeWhile_append_dropWhile (p := p) (l := (cs.dropWhile p).reverse)
  refine ⟨cs.takeWhile p, ((cs.dropWhile p).reverse.takeWhile p).reverse, ?_, ?_, ?_⟩
  · rw [trim, List.append_assoc, ← List.reverse_append, hback, List.reverse_reverse, hfront]
  · exact fun c hc => List.all_eq_true.mp List.all_takeWhile c hc
  · exact fun c hc => List.all_eq_true.mp List.all_takeWhile c (List.mem_reverse.mp hc)

theorem dropWhile_of_head {c : Char} {before cs : List Char} (hb : ∀ x ∈ before, p x = true) (hc : p c = false) :
    (before ++ c :: cs).dropWhile p = c :: cs := by
  rw [List.dropWhile_append_of_pos hb]
  simp [hc]

theorem trim_of_ends {c d : Char} {before cs ds after : List Char} (hb : ∀ x ∈ before, p x = true)
    (ha : ∀ x ∈ after, p x = true) (hc : p c = false) (hd : p d = false) (hcd : c :: cs = ds ++ [d]) :
    trim p (before ++ (c :: cs) ++ after) = c :: cs := by
  have ha' : ∀ x ∈ after.reverse, p x = true := fun x hx => ha x (List.mem_reverse.mp hx)
  rw [trim, List.append_assoc, List.cons_append, dropWhile_of_head hb hc, ← List.cons_append, hcd]
  simp only [List.reverse_append, List.reverse_cons, List.reverse_nil, List.nil_append, List.append_assoc]
  rw [List.singleton_append, dropWhile_of_head ha' hd]
  simp

def blanks : List Nat :=
  [0x09, 0x0A, 0x0B, 0x0C, 0x0D, 0x1C, 0x1D, 0x1E, 0x1F, 0x20, 0x85, 0xA0, 0x1680, 0x2000, 0x2001, 0x2002,
    0x2003, 0x2004, 0x2005, 0x2006, 0x2007, 0x2008, 0x2009, 0x200A, 0x2028, 0x2029, 0x202F, 0x205F, 0x3000]

theorem mem_blanks {c : Char} (h : isBlank c = true) : c.toNat ∈ blanks := by
  simp only [isBlank, Bool.or_eq_true, Bool.and_eq_true, decide_eq_true_eq, beq_iff_eq] at h
  simp only [blanks, List.mem_cons, List.not_mem_nil, or_false]
  omega

theorem digitValue?_of_blank {c : Char} (h : isBlank c = true) : digitValue? c = none := by
  have hnone : ∀ n ∈ blanks, (zeros.find? fun z => z ≤ n && n < z + 10) = none := by decide +kernel
  rw [digitValue?, hnone _ (mem_blanks h)]
  rfl

end Text

namespace Identifier

/-- Digits and their values. A single underscore may stand between two digits. -/
inductive Digits : List Char → List Nat → Prop where
  | last {c : Char} {d : Nat} (hc : Text.digitValue? c = some d) : Digits [c] [d]
  | next {c : Char} {d : Nat} {cs : List Char} {ds : List Nat} (hc : Text.digitValue? c = some d)
      (hs : Digits cs ds) : Digits (c :: cs) (d :: ds)
  | separated {c : Char} {d : Nat} {cs : List Char} {ds : List Nat} (hc : Text.digitValue? c = some d)
      (hs : Digits cs ds) : Digits (c :: '_' :: cs) (d :: ds)

inductive Sign : List Char → Int → Prop where
  | none : Sign [] 1
  | plus : Sign ['+'] 1
  | minus : Sign ['-'] (-1)

/-- A text that writes an integer: an optional sign and no more digits than are read, with margins. -/
inductive Numeral : List Char → Int → Prop where
  | mk {before sign digits after : List Char} {unit : Int} {ds : List Nat}
      (hb : ∀ c ∈ before, isMargin c = true) (hs : Sign sign unit) (hd : Digits digits ds)
      (hl : ds.length ≤ Text.maxDigits) (ha : ∀ c ∈ after, isMargin c = true) :
      Numeral (before ++ (sign ++ digits) ++ after) (unit * (Nat.ofDigits 10 ds.reverse : ℕ))

theorem Digits.head {cs : List Char} {ds : List Nat} (h : Digits cs ds) :
    ∃ c rest d, cs = c :: rest ∧ Text.digitValue? c = some d := by
  cases h with
  | last hc | next hc | separated hc => exact ⟨_, _, _, rfl, hc⟩

theorem Digits.getLast {cs : List Char} {ds : List Nat} (h : Digits cs ds) :
    ∃ front c d, cs = front ++ [c] ∧ Text.digitValue? c = some d := by
  induction h with
  | @last c d hc => exact ⟨[], c, d, rfl, hc⟩
  | @next c _ _ _ _ _ ih =>
    obtain ⟨front, l, d, rfl, hl⟩ := ih
    exact ⟨c :: front, l, d, rfl, hl⟩
  | @separated c _ _ _ _ _ ih =>
    obtain ⟨front, l, d, rfl, hl⟩ := ih
    exact ⟨c :: '_' :: front, l, d, rfl, hl⟩

theorem digits?_last {c : Char} {d : Nat} (hc : Text.digitValue? c = some d) : digits? [c] = some [d] := by
  simp [digits?, hc]

theorem digits?_separated {c : Char} {d : Nat} (hc : Text.digitValue? c = some d) (cs : List Char) :
    digits? (c :: '_' :: cs) = (digits? cs).map (d :: ·) := by
  simp only [digits?, hc, Option.bind_eq_bind, Option.bind_some]
  cases digits? cs <;> rfl

theorem digits?_next {c c' : Char} {d : Nat} (hc : Text.digitValue? c = some d) (hu : c' ≠ '_') (cs : List Char) :
    digits? (c :: c' :: cs) = (digits? (c' :: cs)).map (d :: ·) := by
  rw [digits?, hc, Option.bind_eq_bind, Option.bind_some]
  split
  · rename_i h
    cases h
  · rename_i h
    cases h
    exact absurd rfl hu
  · cases digits? (c' :: cs) <;> rfl

theorem Digits.sound {cs : List Char} {ds : List Nat} (h : Digits cs ds) : digits? cs = some ds := by
  induction h with
  | last hc => exact digits?_last hc
  | @next c d cs ds hc hs ih =>
    obtain ⟨c', rest, d', rfl, hc'⟩ := hs.head
    have hu : c' ≠ '_' := by
      rintro rfl
      have hnone : Text.digitValue? '_' = none := by decide +kernel
      cases hnone.symm.trans hc'
    rw [digits?_next hc hu, ih]
    rfl
  | separated hc hs ih =>
    rw [digits?_separated hc, ih]
    rfl

theorem Digits.of_digits? {cs : List Char} {ds : List Nat} (h : digits? cs = some ds) : Digits cs ds := by
  cases cs with
  | nil => cases h
  | cons c rest =>
    cases hc : Text.digitValue? c with
    | none => simp [digits?, hc] at h
    | some d =>
      cases rest with
      | nil =>
        cases (digits?_last hc).symm.trans h
        exact .last hc
      | cons c' rest =>
        by_cases hu : c' = '_'
        · subst hu
          rw [digits?_separated hc, Option.map_eq_some_iff] at h
          obtain ⟨ds, hds, rfl⟩ := h
          exact .separated hc (of_digits? hds)
        · rw [digits?_next hc hu, Option.map_eq_some_iff] at h
          obtain ⟨ds, hds, rfl⟩ := h
          exact .next hc (of_digits? hds)
termination_by cs.length

theorem digits?_eq_some_iff {cs : List Char} {ds : List Nat} : digits? cs = some ds ↔ Digits cs ds :=
  ⟨.of_digits?, Digits.sound⟩

theorem foldl_eq_ofDigits (ds : List Nat) : ds.foldl (fun n d => 10 * n + d) 0 = Nat.ofDigits 10 ds.reverse := by
  induction ds using List.reverseRecOn with
  | nil => rfl
  | append_singleton ds d ih =>
    rw [List.foldl_append, ih, List.reverse_append, List.reverse_singleton, List.singleton_append, Nat.ofDigits_cons]
    simp [Nat.add_comm]

theorem natural?_eq_some_iff {cs : List Char} {n : Nat} : natural? cs = some n ↔
    ∃ ds, Digits cs ds ∧ ds.length ≤ Text.maxDigits ∧ Nat.ofDigits 10 ds.reverse = n := by
  simp [natural?, Option.bind_eq_some_iff, digits?_eq_some_iff, foldl_eq_ofDigits, guard]

theorem isMargin_of_digit {c : Char} {d : Nat} (h : Text.digitValue? c = some d) : isMargin c = false := by
  by_contra hm
  have hb : Text.isBlank c = true := by
    rw [Bool.not_eq_false, isMargin, Bool.and_eq_true] at hm
    exact hm.1
  rw [Text.digitValue?_of_blank hb] at h
  cases h

/-- A signed number fills the text between the margins. -/
theorem trim_numeral {before sign digits after : List Char} {unit : Int} {ds : List Nat}
    (hb : ∀ c ∈ before, isMargin c = true) (hs : Sign sign unit) (hd : Digits digits ds)
    (ha : ∀ c ∈ after, isMargin c = true) :
    Text.trim isMargin (before ++ (sign ++ digits) ++ after) = sign ++ digits := by
  -- no margin reaches into the number, which begins with a sign or a digit and ends with a digit
  obtain ⟨c, rest, d, hcs, hc⟩ := hd.head
  obtain ⟨front, l, e, hls, hl⟩ := hd.getLast
  have hplus : isMargin '+' = false := by decide +kernel
  have hminus : isMargin '-' = false := by decide +kernel
  cases hs with
  | none =>
    rw [hcs] at hls
    rw [hcs, List.nil_append, Text.trim_of_ends hb ha (isMargin_of_digit hc) (isMargin_of_digit hl) hls]
  | plus =>
    have hend : '+' :: digits = ('+' :: front) ++ [l] := by rw [hls, List.cons_append]
    exact Text.trim_of_ends hb ha hplus (isMargin_of_digit hl) hend
  | minus =>
    have hend : '-' :: digits = ('-' :: front) ++ [l] := by rw [hls, List.cons_append]
    exact Text.trim_of_ends hb ha hminus (isMargin_of_digit hl) hend

def signed? : List Char → Option Int
  | '-' :: rest => (natural? rest).map fun n => -(n : Int)
  | '+' :: rest => (natural? rest).map fun n => (n : Int)
  | cs => (natural? cs).map fun n => (n : Int)

theorem ofText?_eq_signed? (s : String) : ofText? s = signed? (Text.trim isMargin s.toList) := rfl

theorem signed?_of_digit {c : Char} {d : Nat} (hc : Text.digitValue? c = some d) (cs : List Char) :
    signed? (c :: cs) = (natural? (c :: cs)).map fun n : Nat => (n : Int) := by
  have hminus : Text.digitValue? '-' = none := by decide +kernel
  have hplus : Text.digitValue? '+' = none := by decide +kernel
  unfold signed?
  split
  · rename_i h
    cases h
    cases hminus.symm.trans hc
  · rename_i h
    cases h
    cases hplus.symm.trans hc
  · cases natural? (c :: cs) <;> rfl

theorem signed?_eq_some_iff {cs : List Char} {n : Int} : signed? cs = some n ↔
    ∃ sign unit digits ds, cs = sign ++ digits ∧ Sign sign unit ∧ Digits digits ds ∧
      ds.length ≤ Text.maxDigits ∧ n = unit * (Nat.ofDigits 10 ds.reverse : ℕ) := by
  constructor
  · intro h
    unfold signed? at h
    split at h
    all_goals
      simp only [Option.map_eq_some_iff, Option.bind_eq_bind, Option.bind_eq_some_iff, Option.pure_def,
        Option.some.injEq, natural?_eq_some_iff] at h
      obtain ⟨_, ⟨_, ⟨ds, hd, hl, rfl⟩, rfl⟩, rfl⟩ := h
    · exact ⟨_, _, _, ds, rfl, .minus, hd, hl, by simp⟩
    · exact ⟨_, _, _, ds, rfl, .plus, hd, hl, by simp⟩
    · exact ⟨_, _, _, ds, rfl, .none, hd, hl, by simp⟩
  · rintro ⟨sign, unit, digits, ds, rfl, hs, hd, hl, rfl⟩
    have hn : natural? digits = some (Nat.ofDigits 10 ds.reverse) := natural?_eq_some_iff.mpr ⟨ds, hd, hl, rfl⟩
    cases hs with
    | none =>
      obtain ⟨c, rest, d, rfl, hc⟩ := hd.head
      rw [List.nil_append, signed?_of_digit hc, hn]
      simp
    | plus => simp [signed?, hn]
    | minus => simp [signed?, hn]

/-- A text is read as an integer exactly if it writes that integer. -/
theorem ofText?_eq_some_iff {s : String} {n : Int} : ofText? s = some n ↔ Numeral s.toList n := by
  rw [ofText?_eq_signed?, signed?_eq_some_iff]
  constructor
  · rintro ⟨sign, unit, digits, ds, hcs, hs, hd, hl, rfl⟩
    obtain ⟨before, after, hparts, hb, ha⟩ := Text.trim_parts isMargin s.toList
    rw [hparts, hcs]
    exact .mk hb hs hd hl ha
  · intro h
    generalize s.toList = cs at h
    cases h with
    | mk hb hs hd hl ha => exact ⟨_, _, _, _, trim_numeral hb hs hd ha, hs, hd, hl, rfl⟩

theorem digitValue?_digitChar {d : Nat} (h : d < 10) : Text.digitValue? d.digitChar = some d := by
  have hall : ∀ d < 10, Text.digitValue? d.digitChar = some d := by decide +kernel
  exact hall d h

theorem Digits.concat {cs : List Char} {ds : List Nat} {c : Char} {d : Nat} (h : Digits cs ds)
    (hc : Text.digitValue? c = some d) : Digits (cs ++ [c]) (ds ++ [d]) := by
  induction h with
  | last hl => exact .next hl (.last hc)
  | next hl _ ih => exact .next hl ih
  | separated hl _ ih => exact .separated hl ih

theorem digits_toDigits (n : Nat) : ∃ ds, Digits (Nat.toDigits 10 n) ds ∧
    ds.length = (Nat.toDigits 10 n).length ∧ Nat.ofDigits 10 ds.reverse = n := by
  induction n using Nat.strong_induction_on with
  | _ n ih =>
    by_cases hn : n < 10
    · refine ⟨[n], ?_, ?_, by simp⟩
      · rw [Nat.toDigits_of_lt_base hn]
        exact .last (digitValue?_digitChar hn)
      · rw [Nat.toDigits_of_lt_base hn]
        rfl
    · obtain ⟨ds, hd, hl, hv⟩ := ih (n / 10) (by omega)
      refine ⟨ds ++ [n % 10], ?_, ?_, ?_⟩
      · rw [Nat.toDigits_of_base_le (by omega) (by omega)]
        exact hd.concat (digitValue?_digitChar (by omega))
      · rw [Nat.toDigits_of_base_le (by omega) (by omega), List.length_append, List.length_append, hl]
        rfl
      · rw [List.reverse_append, List.reverse_singleton, List.singleton_append, Nat.ofDigits_cons, hv]
        omega

theorem numeral_decimal {n : Int} (h : (Nat.toDigits 10 n.natAbs).length ≤ Text.maxDigits) :
    Numeral (decimal n).toList n := by
  obtain ⟨ds, hd, hl, hv⟩ := digits_toDigits n.natAbs
  rw [decimal, String.toList_ofList]
  by_cases hn : n < 0
  · have hnum : Numeral ([] ++ (['-'] ++ Nat.toDigits 10 n.natAbs) ++ []) (-1 * (Nat.ofDigits 10 ds.reverse : ℕ)) :=
      .mk (by simp) .minus hd (hl ▸ h) (by simp)
    rw [hv, show (-1 : Int) * (n.natAbs : ℕ) = n by omega] at hnum
    simpa [hn] using hnum
  · have hnum : Numeral ([] ++ ([] ++ Nat.toDigits 10 n.natAbs) ++ []) (1 * (Nat.ofDigits 10 ds.reverse : ℕ)) :=
      .mk (by simp) .none hd (hl ▸ h) (by simp)
    rw [hv, show (1 : Int) * (n.natAbs : ℕ) = n by omega] at hnum
    simpa [hn] using hnum

end Identifier

end DclServer
