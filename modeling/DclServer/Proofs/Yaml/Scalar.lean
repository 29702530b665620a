import Mathlib.Data.List.TakeWhile
import Mathlib.Tactic.SplitIfs
import DclServer.Json.Writer
import DclServer.Yaml.Plain

namespace DclServer.Yaml

section Digits

variable {base n d : Nat} {c : Char}

theorem mem_toDigits (hb : 1 < base) (hc : c ∈ Nat.toDigits base n) : ∃ d < base, c = d.digitChar := by
  induction n using Nat.strongRecOn with
  | ind n ih =>
    by_cases hn : n < base
    · rw [Nat.toDigits_of_lt_base hn] at hc
      exact ⟨n, hn, List.mem_singleton.mp hc⟩
    · rw [Nat.toDigits_of_base_le hb (by omega), List.mem_append] at hc
      obtain hc | hc := hc
      · exact ih (n / base) (Nat.div_lt_self (by omega) hb) hc
      · exact ⟨n % base, Nat.mod_lt _ (by omega), List.mem_singleton.mp hc⟩

theorem hexValue?_digitChar (hd : d < 16) : Text.hexValue? d.digitChar = some d := by
  have hall : ∀ d < 16, Text.hexValue? d.digitChar = some d := by decide +kernel
  exact hall d hd

theorem ofDigits_toDigits (hb : 1 < base) (hb' : base ≤ 16) (n : Nat) :
    Plain.ofDigits base (Nat.toDigits base n) = n := by
  induction n using Nat.strongRecOn with
  | ind n ih =>
    by_cases hn : n < base
    · rw [Nat.toDigits_of_lt_base hn]
      simp [Plain.ofDigits, hexValue?_digitChar (Nat.lt_of_lt_of_le hn hb')]
    · have hmod : n % base < 16 := Nat.lt_of_lt_of_le (Nat.mod_lt n (by omega)) hb'
      have hrest := ih (n / base) (Nat.div_lt_self (by omega) hb)
      rw [Plain.ofDigits] at hrest
      rw [Nat.toDigits_of_base_le hb (by omega), Plain.ofDigits, List.foldl_append, hrest]
      simp [hexValue?_digitChar hmod, Nat.div_add_mod]

theorem toDigits_head (hn : 0 < n) : (Nat.toDigits 10 n).head? ≠ some '0' := by
  induction n using Nat.strongRecOn with
  | ind n ih =>
    by_cases h : n < 10
    · have hall : ∀ n < 10, 0 < n → (Nat.toDigits 10 n).head? ≠ some '0' := by decide +kernel
      exact hall n h hn
    · have hrest := ih (n / 10) (by omega) (by omega)
      obtain ⟨c, cs, hcs⟩ := List.exists_cons_of_ne_nil (Nat.toDigits_ne_nil (n := n / 10) (b := 10))
      rw [Nat.toDigits_of_base_le (by omega) (by omega), hcs]
      rw [hcs] at hrest
      exact hrest

end Digits

section Quoted

variable {c : Char} {ds rest : List Char}

theorem emit_emit (cs ds : List Char) (r : Option (List Char × List Char)) :
    emit cs (emit ds r) = emit (cs ++ ds) r := by
  cases r <;> simp [emit]

/-- The digits of a code point are read to the last and stand for its character. -/
theorem double_hex (hn : ds ≠ []) (hds : ∀ x ∈ ds, (Text.hexValue? x).isSome) {code : Nat}
    (hc : codePoint? (ds.foldl (fun n x => 16 * n + (Text.hexValue? x).getD 0) code) = some c) (rest : List Char) :
    double (.hex ds.length code) (ds ++ rest) = emit [c] (double (.text .empty) rest) := by
  induction ds generalizing code with
  | nil => exact absurd rfl hn
  | cons x ds ih =>
    obtain ⟨d, hd⟩ := Option.isSome_iff_exists.mp (hds x (by simp))
    rw [List.foldl_cons, hd, Option.getD_some] at hc
    cases ds with
    | nil =>
      rw [List.foldl_nil] at hc
      simp [double, hd, hc]
    | cons y ds =>
      have hrest := ih (List.cons_ne_nil y ds) (fun z hz => hds z (List.mem_cons_of_mem _ hz)) hc
      simpa [double, hd] using hrest

theorem codePoint?_toNat (c : Char) : codePoint? c.toNat = some c := by
  have hvalid : c.toNat.isValidChar := c.valid
  rw [codePoint?, if_pos hvalid, Char.ofNat_toNat]

theorem length_hexDigits {n : Nat} (hn : n < 0x10000) : (Text.hexDigits 4 n).length = 4 := by
  have hlength : (Nat.toDigits 16 n).length ≤ 4 := (Nat.length_toDigits_le_iff (by omega) (by omega)).mpr hn
  rw [Text.hexDigits, Text.padZeros, List.length_append, List.length_replicate]
  omega

theorem foldl_hexDigits (width n : Nat) :
    (Text.hexDigits width n).foldl (fun n x => 16 * n + (Text.hexValue? x).getD 0) 0 = n := by
  have hzeros (k : Nat) : (List.replicate k '0').foldl (fun n x => 16 * n + (Text.hexValue? x).getD 0) 0 = 0 := by
    induction k with
    | zero => rfl
    | succ k ih =>
      rw [List.replicate_succ, List.foldl_cons]
      exact ih
  rw [Text.hexDigits, Text.padZeros, List.foldl_append, hzeros]
  exact ofDigits_toDigits (by omega) (by omega) n

theorem mem_hexDigits {width n : Nat} {x : Char} (hx : x ∈ Text.hexDigits width n) : ∃ d < 16, x = d.digitChar := by
  rw [Text.hexDigits, Text.padZeros, List.mem_append] at hx
  obtain hx | hx := hx
  · exact ⟨0, by omega, List.eq_of_mem_replicate hx⟩
  · exact mem_toDigits (by omega) hx

theorem isBreak_of_visible (hl : 0x20 ≤ c.toNat) (hu : c.toNat < 0x7F) : isBreak c = false := by
  have hne {x : Char} (hx : x.toNat < 0x20 ∨ 0x7F ≤ x.toNat) : (c == x) = false := by
    rw [beq_eq_false_iff_ne]
    rintro rfl
    omega
  rw [isBreak, hne (by decide), hne (by decide), hne (by decide), hne (by decide)]
  rfl

theorem double_space (bs rest : List Char) :
    double (.text (.blanks bs)) (' ' :: rest) = double (.text (.blanks (bs ++ [' ']))) rest := by
  simp [double, Gap.blank]

/-- A character that is not a space is read back from the way it is written, with the spaces before it. -/
theorem double_charText (hc : c.toNat < 0x10000) (hs : c ≠ ' ') (bs rest : List Char) :
    double (.text (.blanks bs)) (Json.charText c ++ rest) = emit (bs ++ [c]) (double (.text .empty) rest) := by
  rw [Json.charText]
  split_ifs with hmark hvisible
  · -- the quote and the backslash stand for themselves behind a backslash
    obtain rfl | rfl := hmark <;> simp [double, hexWidth?, escape?, isBreak, Gap.text, emit_emit]
  · have hbreak := isBreak_of_visible hvisible.1 hvisible.2
    have htab : c ≠ '\t' := by
      rintro rfl
      exact absurd hvisible.1 (by decide)
    rw [not_or] at hmark
    simp [double, hmark.1, hmark.2, hs, htab, hbreak, Gap.text]
  · have hdigits : ∀ x ∈ Text.hexDigits 4 c.toNat, (Text.hexValue? x).isSome := by
      intro x hx
      obtain ⟨d, hd, rfl⟩ := mem_hexDigits hx
      rw [hexValue?_digitChar hd]
      rfl
    have hne : Text.hexDigits 4 c.toNat ≠ [] := List.ne_nil_of_length_pos (by rw [length_hexDigits hc]; omega)
    have hhex := double_hex hne hdigits (by rw [foldl_hexDigits]; exact codePoint?_toNat c) rest
    rw [length_hexDigits hc] at hhex
    simp [double, hexWidth?, isBreak, Gap.text, hhex, emit_emit]

theorem double_quoted {cs : List Char} (hcs : ∀ c ∈ cs, c.toNat < 0x10000) (bs rest : List Char) :
    double (.text (.blanks bs)) (cs.flatMap Json.charText ++ '"' :: rest) = some (bs ++ cs, rest) := by
  induction cs generalizing bs with
  | nil => simp [double, Gap.text]
  | cons c cs ih =>
    have hrest := ih fun x hx => hcs x (List.mem_cons_of_mem c hx)
    rw [List.flatMap_cons, List.append_assoc]
    by_cases hs : c = ' '
    · subst hs
      have hspace : Json.charText ' ' = [' '] := by decide
      rw [hspace, List.singleton_append, double_space, hrest, List.append_assoc]
      rfl
    · rw [double_charText (hcs c List.mem_cons_self) hs, Gap.empty, hrest]
      simp [emit]

end Quoted

section Plain

variable {c : Char} {w after rest : List Char}

/-- Letters, digits and the minus sign: plain scalars of these alone are read on one line. -/
def isWordChar (c : Char) : Bool := c.isAlphanum || c == '-'

theorem isWordChar_ne {x : Char} (hx : isWordChar x = false) (hc : isWordChar c = true) : c ≠ x := by
  rintro rfl
  cases hx.symm.trans hc

theorem isBreak_of_isWordChar (hc : isWordChar c = true) : isBreak c = false := by
  have hne {x : Char} (hx : isWordChar x = false) : (c == x) = false := beq_eq_false_iff_ne.mpr (isWordChar_ne hx hc)
  rw [isBreak, hne (by decide), hne (by decide), hne (by decide), hne (by decide)]
  rfl

theorem plain_cons (hc : isWordChar c = true) (indent column : Nat) (mark rest : List Char) :
    plain false indent .empty column mark (c :: rest) =
      (c :: (plain false indent .empty (column + 1) rest rest).1,
        (plain false indent .empty (column + 1) rest rest).2) := by
  have hspace : c ≠ ' ' := isWordChar_ne (by decide) hc
  have htab : c ≠ '\t' := isWordChar_ne (by decide) hc
  have hcolon : c ≠ ':' := isWordChar_ne (by decide) hc
  have hhash : c ≠ '#' := isWordChar_ne (by decide) hc
  simp [plain, hspace, isBreak_of_isWordChar hc, plainEnds, htab, hcolon, hhash, Gap.hasBreak, Gap.empty, Gap.text]

/-- A word is read up to where a plain scalar ends behind it. -/
theorem plain_word (hw : ∀ c ∈ w, isWordChar c = true) {indent : Nat}
    (hstop : ∀ column, plain false indent .empty column after after = ([], after)) (column : Nat) :
    plain false indent .empty column (w ++ after) (w ++ after) = (w, after) := by
  induction w generalizing column with
  | nil => exact hstop column
  | cons c w ih =>
    rw [List.cons_append, plain_cons (hw c List.mem_cons_self), ih fun x hx => hw x (List.mem_cons_of_mem c hx)]

theorem plain_colon (ha : ended after = true) (indent column : Nat) :
    plain false indent .empty column (':' :: after) (':' :: after) = ([], ':' :: after) := by
  simp [plain, isBreak, plainEnds, colonEnds, ha]

theorem plain_spaces (hs : c ≠ ' ') (hb : isBreak c = false) {indent column k : Nat} (hk : column + k < indent)
    (first : Char) (mark rest : List Char) :
    plain false indent (.folded first []) column mark (List.replicate k ' ' ++ c :: rest) = ([], mark) := by
  induction k generalizing column with
  | zero => simp [plain, hs, hb, plainEnds, Gap.hasBreak, show column < indent by omega]
  | succ k ih =>
    rw [List.replicate_succ, List.cons_append, plain, if_pos rfl]
    exact ih (by omega)

/-- A plain scalar ends before a line that is not indented enough. -/
theorem plain_newline (hs : c ≠ ' ') (hb : isBreak c = false) {indent k : Nat} (hk : k + 1 < indent) (column : Nat)
    (rest : List Char) :
    plain false indent .empty column ('\n' :: (List.replicate (k + 1) ' ' ++ c :: rest))
      ('\n' :: (List.replicate (k + 1) ' ' ++ c :: rest)) =
      ([], '\n' :: (List.replicate (k + 1) ' ' ++ c :: rest)) := by
  have hmarker : isMarker (List.replicate (k + 1) ' ' ++ c :: rest) = false := by
    simp [List.replicate_succ, isMarker]
  have hbreak : isBreak '\n' = true := by decide
  rw [plain, if_neg (by decide), if_pos hbreak, if_neg (by simp [hmarker])]
  exact plain_spaces hs hb (by omega) _ _ _

end Plain

section Decimal

open Plain

variable {ds : List Char}

theorem isDigit_ne {c x : Char} (hc : c.isDigit = true) (hx : x.isDigit = false) : c ≠ x := by
  rintro rfl
  cases hx.symm.trans hc

theorem sign_digits (hds : ∀ c ∈ ds, c.isDigit = true) : sign ds = (false, ds) := by
  unfold sign
  split
  · exact absurd rfl (isDigit_ne (hds '-' (by simp)) (by decide))
  · exact absurd rfl (isDigit_ne (hds '+' (by simp)) (by decide))
  · rfl

theorem digitRun?_digits (hds : ∀ c ∈ ds, c.isDigit = true) (hne : ds ≠ []) : digitRun? ds = some (ds, []) := by
  cases ds with
  | nil => exact absurd rfl hne
  | cons c ds =>
    have hrest : ∀ x ∈ ds, x.isDigit = true := fun x hx => hds x (List.mem_cons_of_mem c hx)
    have hline : ∀ x ∈ ds, isDigitOrLine x = true := fun x hx => by simp [isDigitOrLine, hrest x hx]
    have htake : ds.takeWhile isDigitOrLine = ds := List.takeWhile_eq_self_iff.mpr hline
    have hdrop : ds.dropWhile isDigitOrLine = [] := List.dropWhile_eq_nil_iff.mpr hline
    rw [digitRun?, if_pos (hds c List.mem_cons_self), htake, hdrop, List.filter_eq_self.mpr hrest]

theorem integerForm?_digits (hds : ∀ c ∈ ds, c.isDigit = true) (hne : ds ≠ [])
    (hzero : ds = ['0'] ∨ ds.head? ≠ some '0') : integerForm? ds = some (10, ds, []) := by
  unfold integerForm?
  split
  · rfl
  · exact absurd rfl (isDigit_ne (hds 'b' (by simp)) (by decide))
  · exact absurd rfl (isDigit_ne (hds 'x' (by simp)) (by decide))
  · rename_i hone _ _
    obtain h | h := hzero
    · exact absurd (List.cons.inj h).2 hone
    · exact absurd rfl h
  · rw [digitRun?_digits hds hne]
    rfl

theorem magnitude_toDigits {n : Nat} (hn : (Nat.toDigits 10 n).length ≤ Text.maxDigits) :
    magnitude 10 (Nat.toDigits 10 n) = .ok n := by
  have hshort : ¬ (10 = 10 ∧ Text.maxDigits < (Nat.toDigits 10 n).length) := by omega
  rw [magnitude, if_neg Nat.toDigits_ne_nil, if_neg hshort, ofDigits_toDigits (by omega) (by omega)]

theorem toDigits_zero_or (n : Nat) : Nat.toDigits 10 n = ['0'] ∨ (Nat.toDigits 10 n).head? ≠ some '0' := by
  cases n with
  | zero => exact .inl (by decide)
  | succ n => exact .inr (toDigits_head (by omega))

theorem isDigit_toDigits (n : Nat) : ∀ c ∈ Nat.toDigits 10 n, c.isDigit = true :=
  fun _ hc => Nat.isDigit_of_mem_toDigits (by omega) (by omega) hc

theorem sign_decimal (n : Int) : sign (decimal n).toList = (decide (n < 0), Nat.toDigits 10 n.natAbs) := by
  rw [decimal, String.toList_ofList]
  by_cases hn : n < 0
  · simp [hn, sign]
  · rw [if_neg hn, List.nil_append, sign_digits (isDigit_toDigits _), decide_eq_false hn]

theorem decimal_cases (n : Int) : ∃ d ds, d.isDigit = true ∧
    ((decimal n).toList = d :: ds ∨ (decimal n).toList = '-' :: d :: ds) := by
  obtain ⟨d, ds, hds⟩ := List.exists_cons_of_ne_nil (Nat.toDigits_ne_nil (n := n.natAbs) (b := 10))
  refine ⟨d, ds, isDigit_toDigits n.natAbs d (by rw [hds]; exact List.mem_cons_self), ?_⟩
  rw [decimal, String.toList_ofList, hds]
  by_cases hn : n < 0
  · exact .inr (by rw [if_pos hn]; rfl)
  · exact .inl (by rw [if_neg hn]; rfl)

theorem decimal_head (n : Int) : ∃ c rest, (decimal n).toList = c :: rest ∧ (c = '-' ∨ c.isDigit = true) := by
  obtain ⟨d, ds, hd, h | h⟩ := decimal_cases n
  · exact ⟨d, ds, h, .inr hd⟩
  · exact ⟨'-', d :: ds, h, .inl rfl⟩

theorem bool?_decimal (n : Int) : bool? (decimal n) = none := by
  -- truth values are words, which begin neither with a digit nor with a sign
  have hwords : ∀ p ∈ boolWords, ∀ t ∈ [p.1, p.1.capitalize, p.1.toUpper],
      (t.toList.head?.all fun c => c != '-' && !c.isDigit) = true := by decide +kernel
  obtain ⟨c, rest, hcs, hc⟩ := decimal_head n
  have hne {p : String × Bool} (hp : p ∈ boolWords) {t : String} (ht : t ∈ [p.1, p.1.capitalize, p.1.toUpper]) :
      decimal n ≠ t := by
    rintro rfl
    have hword := hwords p hp _ ht
    rw [hcs, List.head?_cons, Option.all_some] at hword
    obtain rfl | hdigit := hc
    · cases hword
    · rw [hdigit, Bool.not_true, Bool.and_false] at hword
      cases hword
  rw [bool?, List.findSome?_eq_none_iff]
  intro p hp
  exact if_neg (not_or.mpr ⟨hne hp (by simp), not_or.mpr ⟨hne hp (by simp), hne hp (by simp)⟩⟩)

theorem float?_decimal (n : Int) : float? (decimal n).toList = none := by
  obtain ⟨c, rest, hcs, hc⟩ := decimal_head n
  unfold float?
  split
  · rename_i d more hdot
    rw [hcs] at hdot
    cases hdot
    obtain hdot | hdot := hc <;> cases hdot
  · simp only [sign_decimal, digitRun?_digits (isDigit_toDigits _) Nat.toDigits_ne_nil]
    rfl

theorem signed_natAbs (n : Int) : (if decide (n < 0) = true then -(n.natAbs : Int) else n.natAbs) = n := by
  by_cases h : n < 0
  · rw [decide_eq_true h, if_pos rfl]
    omega
  · rw [decide_eq_false h, if_neg Bool.false_ne_true]
    omega

theorem integer?_decimal {n : Int} (hn : (Nat.toDigits 10 n.natAbs).length ≤ Text.maxDigits) :
    integer? (decimal n).toList = some (.ok n) := by
  rw [integer?, sign_decimal]
  simp only [integerForm?_digits (isDigit_toDigits _) Nat.toDigits_ne_nil (toDigits_zero_or _), Option.map_some,
    magnitude_toDigits hn, List.foldl_nil]
  exact congrArg (fun z => some (Except.ok z)) (signed_natAbs n)

/-- A plain scalar that is the decimal text of an integer stands for it, if it has no more digits than are read. -/
theorem resolve_decimal {n : Int} (hn : (Nat.toDigits 10 n.natAbs).length ≤ Text.maxDigits) :
    resolve (decimal n) = .ok (.int n) := by
  simp only [resolve, bool?_decimal, float?_decimal, integer?_decimal hn]
  rfl

theorem isWordChar_decimal (n : Int) : ∀ c ∈ (decimal n).toList, isWordChar c = true := by
  intro c hc
  rw [decimal, String.toList_ofList, List.mem_append] at hc
  obtain hc | hc := hc
  · split_ifs at hc
    · rw [List.mem_singleton.mp hc]
      decide
    · cases hc
  · simp [isWordChar, Char.isAlphanum, isDigit_toDigits _ c hc]

end Decimal

end DclServer.Yaml
