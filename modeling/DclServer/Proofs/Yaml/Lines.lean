import DclServer.Yaml.Token
import DclServer.Proofs.Yaml.Scalar

namespace DclServer.Yaml

/-- Characters that begin a token at the end of a gap. -/
def isText (c : Char) : Bool := !(isBreak c || c == ' ' || c == '#')

theorem skipGap_text {c : Char} (hc : isText c = true) (passed : Bool) (column : Nat) (rest : List Char) :
    skipGap false passed column (c :: rest) = (passed, column, c :: rest) := by
  simp only [isText, Bool.not_eq_true', Bool.or_eq_false_iff, beq_eq_false_iff_ne] at hc
  simp [skipGap, hc.1.1, hc.1.2, hc.2]

theorem skipGap_spaces {c : Char} (hc : isText c = true) (passed : Bool) (column n : Nat) (rest : List Char) :
    skipGap false passed column (List.replicate n ' ' ++ c :: rest) = (passed, column + n, c :: rest) := by
  induction n generalizing column with
  | zero => exact skipGap_text hc passed column rest
  | succ n ih =>
    have hspace : isBreak ' ' = false := by decide
    rw [List.replicate_succ, List.cons_append, skipGap, hspace]
    have hrest := ih (column + 1)
    rw [Nat.add_assoc, Nat.add_comm 1 n] at hrest
    simpa using hrest

/-- A line whose text stands at a column, or nothing but the end of the document at its margin. -/
def Indented (line : List Char) (n : Nat) (text : List Char) : Prop :=
  skipGap false true 0 line = (true, n, text)

theorem indented_text {c : Char} (hc : isText c = true) (n : Nat) (rest : List Char) :
    Indented (List.replicate n ' ' ++ c :: rest) n (c :: rest) := by
  rw [Indented, skipGap_spaces hc, Nat.zero_add]

theorem indented_end : Indented [] 0 [] := rfl

namespace Scanner

variable {column m n : Nat} {indents : List Nat} {ts us : List Token} {s t here next : Scanner} {line text rest : List Char}

/-- The scanner behind a key or a value on a line of a block. -/
def within (column : Nat) (indents : List Nat) (rest : List Char) : Scanner :=
  { rest, column, indents, depth := 0, keyAllowed := false }

def atText (column : Nat) (indents : List Nat) (rest : List Char) : Scanner :=
  { rest, column, indents, depth := 0, keyAllowed := true }

theorem scan_of_lexeme (hs : s.skip = (ts, here)) (hr : here.rest ≠ []) (hl : here.lexeme = some (us, next))
    (hlt : next.rest.length < s.rest.length) : s.scan = next.scan.map fun vs => ts ++ us ++ vs := by
  rw [scan]
  simp [hs, hr, hl, hlt]

/-- Two scanners that come to the same token differ in what they close before it. -/
theorem scan_of_skip (hr : s.rest = t.rest) (hs : s.skip = (us ++ ts, here)) (ht : t.skip = (ts, here)) :
    s.scan = t.scan.map (us ++ ·) := by
  rw [scan, scan.eq_def t, hs, ht, hr]
  dsimp only
  split
  · split <;> simp
  · split
    · rfl
    · split
      · simp [Function.comp_def]
      · rfl

theorem skip_line (h : Indented line n text) (column : Nat) (indents : List Nat) :
    (within column indents ('\n' :: line)).skip = ((unwind n indents).1, atText n (unwind n indents).2 text) := by
  have hbreak : isBreak '\n' = true := by decide
  have hgap : skipGap false false column ('\n' :: line) = (true, n, text) := by
    rw [skipGap, if_pos hbreak]
    exact h
  simp [skip, within, atText, hgap, flow]

theorem unwind_of_lt (h : n < m) (indents : List Nat) :
    unwind n (m :: indents) = (.close :: (unwind n indents).1, (unwind n indents).2) := by
  simp [unwind, h]

/-- A column is inside the innermost open collection. -/
def Inside (column : Nat) (indents : List Nat) : Prop := ∀ m ∈ indents.head?, m < column

theorem inside_cons : Inside column (m :: indents) ↔ m < column := by
  simp [Inside]

theorem unwind_inside (h : Inside column indents) : unwind column indents = ([], indents) := by
  cases indents with
  | nil => rfl
  | cons m indents =>
    have hlt := inside_cons.mp h
    rw [unwind, if_neg (by omega)]

theorem unwind_self (n : Nat) (indents : List Nat) : unwind n (n :: indents) = ([], n :: indents) := by
  simp [unwind]

theorem nests_iff : (atText column indents rest).nests = true ↔ Inside column indents := by
  cases indents with
  | nil => simp [nests, atText, Inside]
  | cons m indents =>
    rw [inside_cons]
    exact decide_eq_true_iff

/-- The tokens of a text are some tokens and those of another text, at which other collections may be open. -/
def Reads (indents : List Nat) (text : List Char) (ts : List Token) (indents' : List Nat) (text' : List Char) : Prop :=
  ∀ column, Inside column indents → ∃ column', Inside column' indents' ∧
    (within column indents text).scan = (within column' indents' text').scan.map (ts ++ ·)

theorem Reads.refl (indents : List Nat) (text : List Char) : Reads indents text [] indents text :=
  fun column h => ⟨column, h, by simp⟩

theorem Reads.trans {i j k : List Nat} {a b c : List Char} (h : Reads i a ts j b) (h' : Reads j b us k c) :
    Reads i a (ts ++ us) k c := by
  intro column hcolumn
  obtain ⟨column', hcolumn', hscan⟩ := h column hcolumn
  obtain ⟨column'', hcolumn'', hscan'⟩ := h' column' hcolumn'
  refine ⟨column'', hcolumn'', ?_⟩
  rw [hscan, hscan', Option.map_map]
  simp [Function.comp_def]

theorem exists_inside (indents : List Nat) : ∃ column, Inside column indents := by
  cases indents with
  | nil => exact ⟨0, by simp [Inside]⟩
  | cons m indents => exact ⟨m + 1, inside_cons.mpr (by omega)⟩

/-- A line ends here, and the next text stands no further to the right than a column. -/
def NextLine (m : Nat) (rest : List Char) : Prop := ∃ line n text, rest = '\n' :: line ∧ Indented line n text ∧ n ≤ m

theorem nextLine_end : NextLine 0 ['\n'] := ⟨[], 0, [], rfl, indented_end, Nat.le_refl 0⟩

theorem NextLine.mono (h : NextLine m rest) (hn : m ≤ n) : NextLine n rest := by
  obtain ⟨line, k, text, hrest, h, hk⟩ := h
  exact ⟨line, k, text, hrest, h, Nat.le_trans hk hn⟩

theorem NextLine.ended (h : NextLine m rest) : ended rest = true := by
  obtain ⟨line, n, text, rfl, -⟩ := h
  rfl

theorem NextLine.scan_eq (h : NextLine m rest) (column column' : Nat) (indents : List Nat) :
    (within column indents rest).scan = (within column' indents rest).scan := by
  obtain ⟨line, n, text, rfl, h, -⟩ := h
  have hskip : (within column indents ('\n' :: line)).scan =
      (within column' indents ('\n' :: line)).scan.map ([] ++ ·) :=
    scan_of_skip rfl (skip_line h column indents) (skip_line h column' indents)
  rwa [show (([] : List Token) ++ ·) = id from rfl, Option.map_id, id] at hskip

/-- A collection is closed before a line that is indented less. -/
theorem reads_close (h : NextLine n rest) (hn : n < m) (indents : List Nat) :
    Reads (m :: indents) rest [.close] indents rest := by
  intro column _
  obtain ⟨line, k, text, rfl, h, hk⟩ := h
  obtain ⟨column', hcolumn'⟩ := exists_inside indents
  have hskip := skip_line h column (m :: indents)
  rw [unwind_of_lt (by omega), ← List.singleton_append] at hskip
  exact ⟨column', hcolumn', scan_of_skip rfl hskip (skip_line h column' indents)⟩

section Tokens

variable {c : Char} {w : String} {after : List Char}

theorem columnAfter_eq {cs : List Char} (h : ∀ c ∈ cs, isBreak c = false ∧ c ≠ '\ufeff') (column : Nat) :
    columnAfter column cs = column + cs.length := by
  induction cs generalizing column with
  | nil => rfl
  | cons c cs ih =>
    have hc := h c List.mem_cons_self
    have hrest := ih (fun x hx => h x (List.mem_cons_of_mem c hx)) (column + 1)
    rw [columnAfter] at hrest
    rw [columnAfter, List.foldl_cons, hc.1, if_neg (by simp), if_neg hc.2, hrest, List.length_cons]
    omega

theorem advance_append {cs : List Char} (h : s.rest = cs ++ rest) :
    s.advance rest = { s with rest, column := columnAfter s.column cs } := by
  have htake : s.rest.take (s.rest.length - rest.length) = cs := by
    rw [h, List.length_append, Nat.add_sub_cancel]
    exact List.take_left
  rw [advance, htake]

theorem word_of_isIndicator (hc : isIndicator c = true) : c = '-' ∨ isWordChar c = false := by
  have hall {cs : List Char} (h : cs.all (fun c => c == '-' || !isWordChar c) = true) (hc : cs.contains c = true) :
      c = '-' ∨ isWordChar c = false := by
    simpa using List.all_eq_true.mp h c (List.contains_iff_mem.mp hc)
  exact hall (by decide) hc

theorem startsPlain_word (hc : isWordChar c = true) (he : ¬ (c = '-' ∧ ended rest = true)) (flow : Bool) :
    startsPlain flow c rest = true := by
  by_cases hm : c = '-'
  · have hrest : ended rest = false := by simpa [hm] using he
    simp [startsPlain, hm, hrest]
  · have hindicator : isIndicator c = false := by
      rw [Bool.eq_false_iff]
      intro hi
      obtain h | h := word_of_isIndicator hi
      · exact hm h
      · cases h.symm.trans hc
    have hspace : c ≠ ' ' := isWordChar_ne (by decide) hc
    have htab : c ≠ '\t' := isWordChar_ne (by decide) hc
    simp [startsPlain, hindicator, ended, hspace, htab, isBreak_of_isWordChar hc]

theorem lexeme_word (hr : s.rest = c :: rest) (hc : isWordChar c = true) (hm : isMarker s.rest = false)
    (he : ¬ (c = '-' ∧ ended rest = true)) {text after : List Char}
    (hp : plain s.flow s.plainIndent .empty s.column s.rest s.rest = (text, after)) :
    s.lexeme = s.atom (.plain (String.ofList text)) after := by
  have hne {x : Char} (hx : isWordChar x = false) {r : List Char} (h : s.rest = x :: r) : False := by
    rw [hr] at h
    cases h
    cases hx.symm.trans hc
  rw [lexeme, if_neg (by simp [hm])]
  split
  · rename_i h
    rw [hr] at h
    cases h
  all_goals rename_i h
  iterate 9 exact (hne (by decide) h).elim
  rw [hr] at h
  cases h
  rw [if_neg he, if_pos (startsPlain_word hc he _), hp]

/-- A word of letters that is short enough for a key. -/
structure IsKey (w : String) : Prop where
  ne_nil : w.toList ≠ []
  letters : ∀ c ∈ w.toList, c.isAlpha = true
  short : w.toList.length ≤ 1024

theorem IsKey.word (hw : IsKey w) : ∀ c ∈ w.toList, isWordChar c = true :=
  fun c hc => by simp [isWordChar, Char.isAlphanum, hw.letters c hc]

theorem IsKey.head (hw : IsKey w) : ∃ c cs, w.toList = c :: cs ∧ isWordChar c = true ∧ c ≠ '-' := by
  obtain ⟨c, cs, hcs⟩ := List.exists_cons_of_ne_nil hw.ne_nil
  have hc : c ∈ w.toList := by simp [hcs]
  refine ⟨c, cs, hcs, hw.word c hc, ?_⟩
  rintro rfl
  exact absurd (hw.letters '-' hc) (by decide)

theorem isText_word (hc : isWordChar c = true) : isText c = true := by
  have hspace : c ≠ ' ' := isWordChar_ne (by decide) hc
  have hhash : c ≠ '#' := isWordChar_ne (by decide) hc
  simp [isText, isBreak_of_isWordChar hc, hspace, hhash]

theorem isMarker_word (hc : isWordChar c = true) (hm : c ≠ '-') (rest : List Char) : isMarker (c :: rest) = false := by
  have hdot : c ≠ '.' := isWordChar_ne (by decide) hc
  simp [isMarker, hm, hdot]

theorem keyEnd?_key (hw : IsKey w) (ha : ended after = true) (n : Nat) (indents : List Nat) :
    (atText n indents (w.toList ++ ':' :: after)).keyEnd? (':' :: after) = some after := by
  have hused : (w.toList ++ ':' :: after).take ((w.toList ++ ':' :: after).length - (':' :: after).length) = w.toList := by
    rw [List.length_append, Nat.add_sub_cancel]
    exact List.take_left
  have hbreak : w.toList.any isBreak = false := by
    simpa using fun c hc => isBreak_of_isWordChar (hw.word c hc)
  have hcolon : (':' :: after).dropWhile (· == ' ') = ':' :: after := rfl
  have hall : (true && (false || ended after) && !w.toList.any isBreak && decide (w.toList.length ≤ 1024)) = true := by
    rw [ha, hbreak, decide_eq_true hw.short]
    rfl
  simp only [keyEnd?, atText, hcolon, hused, flow]
  exact if_pos hall

theorem advance_key (hw : IsKey w) (n : Nat) (indents : List Nat) (after : List Char) :
    (atText n indents (w.toList ++ ':' :: after)).advance after =
      { atText n indents after with column := n + (w.toList.length + 1) } := by
  have hplain : ∀ c ∈ w.toList ++ [':'], isBreak c = false ∧ c ≠ '\ufeff' := by
    intro c hc
    obtain hc | hc := List.mem_append.mp hc
    · exact ⟨isBreak_of_isWordChar (hw.word c hc), isWordChar_ne (by decide) (hw.word c hc)⟩
    · rw [List.mem_singleton.mp hc]
      decide
  have hrest : (atText n indents (w.toList ++ ':' :: after)).rest = (w.toList ++ [':']) ++ after := by simp [atText]
  rw [advance_append hrest, columnAfter_eq hplain, List.length_append]
  rfl

theorem lexeme_key (hw : IsKey w) (ha : ended after = true) (n : Nat) (indents : List Nat) :
    (atText n indents (w.toList ++ ':' :: after)).lexeme =
      (atText n indents (w.toList ++ ':' :: after)).atom (.plain w) (':' :: after) := by
  obtain ⟨c, cs, hcs, hc, hm⟩ := hw.head
  have hrest : (atText n indents (w.toList ++ ':' :: after)).rest = c :: (cs ++ ':' :: after) := by
    rw [hcs]
    rfl
  have hmarker : isMarker (atText n indents (w.toList ++ ':' :: after)).rest = false := by
    rw [hrest]
    exact isMarker_word hc hm _
  have hp := plain_word hw.word (plain_colon ha (atText n indents (w.toList ++ ':' :: after)).plainIndent) n
  have hlexeme := lexeme_word hrest hc hmarker (fun h => hm h.1) hp
  rwa [String.ofList_toList] at hlexeme

theorem lexeme_openMapping (hw : IsKey w) (ha : ended after = true) (hn : Inside n indents) :
    (atText n indents (w.toList ++ ':' :: after)).lexeme =
      some ([.openMapping, .key (.plain w)], within (n + (w.toList.length + 1)) (n :: indents) after) := by
  have hnests : (!(atText n indents (w.toList ++ ':' :: after)).flow &&
      (atText n indents (w.toList ++ ':' :: after)).nests) = true := by
    rw [nests_iff.mpr hn]
    rfl
  rw [lexeme_key hw ha]
  simp only [atom, keyEnd?_key hw ha, advance_key hw]
  exact if_pos hnests

theorem lexeme_nextKey (hw : IsKey w) (ha : ended after = true) (n : Nat) (indents : List Nat) :
    (atText n (n :: indents) (w.toList ++ ':' :: after)).lexeme =
      some ([.key (.plain w)], within (n + (w.toList.length + 1)) (n :: indents) after) := by
  have hnests : ¬ (!(atText n (n :: indents) (w.toList ++ ':' :: after)).flow &&
      (atText n (n :: indents) (w.toList ++ ':' :: after)).nests) = true := by
    rw [Bool.and_eq_true, nests_iff, inside_cons]
    omega
  rw [lexeme_key hw ha]
  simp only [atom, keyEnd?_key hw ha, advance_key hw]
  exact if_neg hnests

theorem entry_eq (n : Nat) (indents : List Nat) (body : List Char) :
    (atText n indents ('-' :: ' ' :: body)).lexeme = (atText n indents ('-' :: ' ' :: body)).entry (' ' :: body) := by
  have hmarker : isMarker ('-' :: ' ' :: body) = false := by simp [isMarker]
  simp [lexeme, atText, hmarker, ended]

theorem advance_entry (n : Nat) (indents : List Nat) (body : List Char) :
    (atText n indents ('-' :: ' ' :: body)).advance (' ' :: body) = atText (n + 1) indents (' ' :: body) := by
  have hrest : (atText n indents ('-' :: ' ' :: body)).rest = ['-'] ++ ' ' :: body := rfl
  have hplain : ∀ c ∈ ['-'], isBreak c = false ∧ c ≠ '\ufeff' := by
    intro c hc
    rw [List.mem_singleton.mp hc]
    decide
  rw [advance_append hrest, columnAfter_eq hplain]
  rfl

theorem lexeme_openSequence (hn : Inside n indents) (body : List Char) :
    (atText n indents ('-' :: ' ' :: body)).lexeme =
      some ([.openSequence, .entry], atText (n + 1) (n :: indents) (' ' :: body)) := by
  have hnests : (atText n indents ('-' :: ' ' :: body)).nests = true := nests_iff.mpr hn
  rw [entry_eq]
  simp only [entry, advance_entry, hnests]
  rfl

theorem lexeme_entry (n : Nat) (indents : List Nat) (body : List Char) :
    (atText n (n :: indents) ('-' :: ' ' :: body)).lexeme =
      some ([.entry], atText (n + 1) (n :: indents) (' ' :: body)) := by
  have hnests : (atText n (n :: indents) ('-' :: ' ' :: body)).nests = false := by
    rw [Bool.eq_false_iff, ne_eq, nests_iff, inside_cons]
    omega
  rw [entry_eq]
  simp only [entry, advance_entry, hnests]
  rfl

def keyLine (n : Nat) (w : String) (after : List Char) : List Char :=
  '\n' :: (List.replicate n ' ' ++ (w.toList ++ ':' :: after))

def entryLine (n : Nat) (body : List Char) : List Char :=
  '\n' :: (List.replicate n ' ' ++ '-' :: ' ' :: body)

theorem IsKey.indented (hw : IsKey w) (n : Nat) (after : List Char) :
    Indented (List.replicate n ' ' ++ (w.toList ++ ':' :: after)) n (w.toList ++ ':' :: after) := by
  obtain ⟨c, cs, hcs, hc, -⟩ := hw.head
  rw [hcs]
  exact indented_text (isText_word hc) n _

theorem indented_entry (n : Nat) (body : List Char) :
    Indented (List.replicate n ' ' ++ '-' :: ' ' :: body) n ('-' :: ' ' :: body) :=
  indented_text (by decide) n _

theorem nextLine_key (hw : IsKey w) (n : Nat) (after : List Char) : NextLine n (keyLine n w after) :=
  ⟨_, n, _, rfl, hw.indented n after, Nat.le_refl n⟩

theorem nextLine_entry (n : Nat) (body : List Char) : NextLine n (entryLine n body) :=
  ⟨_, n, _, rfl, indented_entry n body, Nat.le_refl n⟩

theorem scan_line (h : Indented line n text) (hne : text ≠ []) (hu : unwind n indents = ([], indents))
    (hl : (atText n indents text).lexeme = some (us, next)) (hlt : next.rest.length < line.length + 1) (column : Nat) :
    (within column indents ('\n' :: line)).scan = next.scan.map (us ++ ·) := by
  have hs := skip_line h column indents
  rw [hu] at hs
  exact scan_of_lexeme hs hne hl hlt

theorem scan_keyLine (hw : IsKey w) (ha : ended after = true) (column n : Nat) (indents : List Nat) :
    (within column (n :: indents) (keyLine n w after)).scan =
      (within (n + (w.toList.length + 1)) (n :: indents) after).scan.map ([.key (.plain w)] ++ ·) := by
  apply scan_line (hw.indented n after) (by simp) (unwind_self n indents) (lexeme_nextKey hw ha n indents)
  simp only [within, List.length_append, List.length_cons]
  omega

theorem scan_openMapping (hw : IsKey w) (ha : ended after = true) (hn : Inside n indents) (column : Nat) :
    (within column indents (keyLine n w after)).scan =
      (within (n + (w.toList.length + 1)) (n :: indents) after).scan.map
        ([.openMapping, .key (.plain w)] ++ ·) := by
  apply scan_line (hw.indented n after) (by simp) (unwind_inside hn) (lexeme_openMapping hw ha hn)
  simp only [within, List.length_append, List.length_cons]
  omega

theorem reads_key (hw : IsKey w) (ha : ended after = true) (n : Nat) (indents : List Nat) :
    Reads (n :: indents) (keyLine n w after) [.key (.plain w)] (n :: indents) after := by
  intro column _
  exact ⟨_, inside_cons.mpr (by omega), scan_keyLine hw ha column n indents⟩

theorem reads_openMapping (hw : IsKey w) (ha : ended after = true) (hn : Inside n indents) :
    Reads indents (keyLine n w after) [.openMapping] (n :: indents) (keyLine n w after) := by
  intro column _
  refine ⟨n + 1, inside_cons.mpr (by omega), ?_⟩
  rw [scan_openMapping hw ha hn, scan_keyLine hw ha, Option.map_map]
  rfl

theorem reads_openSequence (hn : Inside n indents) (body : List Char) :
    Reads indents (entryLine n body) [.openSequence] (n :: indents) (entryLine n body) := by
  intro column _
  have hlt : (atText (n + 1) (n :: indents) (' ' :: body)).rest.length <
      (List.replicate n ' ' ++ '-' :: ' ' :: body).length + 1 := by
    simp only [atText, List.length_append, List.length_cons]
    omega
  refine ⟨n + 1, inside_cons.mpr (by omega), ?_⟩
  rw [entryLine, scan_line (indented_entry n body) (by simp) (unwind_inside hn) (lexeme_openSequence hn body) hlt,
    scan_line (indented_entry n body) (by simp) (unwind_self n indents) (lexeme_entry n indents body) hlt, Option.map_map]
  rfl

/-- A key behind the mark of an entry is read like one on a line of its own. -/
theorem reads_entry (hw : IsKey w) (ha : ended after = true) (n : Nat) (indents : List Nat) :
    Reads (n :: indents) (entryLine n (w.toList ++ ':' :: after)) [.entry] (n :: indents) (keyLine (n + 2) w after) := by
  intro column _
  have hin : Inside (n + 2) (n :: indents) := inside_cons.mpr (by omega)
  have hskip : (atText (n + 1) (n :: indents) (' ' :: (w.toList ++ ':' :: after))).skip =
      ([], atText (n + 2) (n :: indents) (w.toList ++ ':' :: after)) := by
    obtain ⟨c, cs, hcs, hc, -⟩ := hw.head
    have hgap := skipGap_spaces (isText_word hc) false (n + 1) 1 (cs ++ ':' :: after)
    rw [List.replicate_one, List.singleton_append] at hgap
    simp [skip, atText, flow, hcs, hgap, unwind_inside hin]
  have hentry := scan_line (indented_entry n (w.toList ++ ':' :: after)) (by simp) (unwind_self n indents)
    (lexeme_entry n indents _) (by simp only [atText, List.length_append, List.length_cons]; omega) column
  have hkey := scan_of_lexeme hskip (by simp [atText]) (lexeme_openMapping hw ha hin)
    (by simp only [atText, within, List.length_append, List.length_cons]; omega)
  refine ⟨n + 1, inside_cons.mpr (by omega), ?_⟩
  rw [entryLine, hentry, hkey, scan_openMapping hw ha hin]
  rfl

theorem atom_scalar (hk : s.keyAllowed = false) (a : Atom) (rest : List Char) :
    s.atom a rest = some ([.scalar a], { s.advance rest with keyAllowed := false }) := by
  have hend : s.keyEnd? rest = none := by
    simp only [keyEnd?, hk, Bool.false_and]
    split <;> rfl
  simp [atom, hend, hk]

theorem Inside.succ (h : Inside column indents) : Inside (column + 1) indents :=
  fun m hm => Nat.lt_succ_of_lt (h m hm)

theorem skip_space (hc : isText c = true) (hn : Inside column indents) (rest : List Char) :
    (within column indents (' ' :: c :: rest)).skip = ([], within (column + 1) indents (c :: rest)) := by
  have hgap := skipGap_spaces hc false column 1 rest
  rw [List.replicate_one, List.singleton_append] at hgap
  simp [skip, within, flow, hgap, unwind_inside hn.succ]

theorem reads_scalar {value : List Char} {a : Atom} (hv : ∃ c v, value = c :: v ∧ isText c = true) (h : NextLine n rest)
    (hl : ∀ column, (within column indents (value ++ rest)).lexeme = (within column indents (value ++ rest)).atom a rest) :
    Reads indents (' ' :: (value ++ rest)) [.scalar a] indents rest := by
  intro column hcolumn
  obtain ⟨c, v, rfl, hc⟩ := hv
  have hlexeme := hl (column + 1)
  rw [atom_scalar rfl] at hlexeme
  have hscan := scan_of_lexeme (skip_space hc hcolumn _) (by simp [within]) hlexeme
    (by simp only [advance, within, List.append_eq, List.length_append, List.length_cons]; omega)
  refine ⟨column, hcolumn, ?_⟩
  rw [List.cons_append, ← List.append_eq, hscan, h.scan_eq column]
  rfl

theorem lexeme_quoted {q : String} (hq : ∀ c ∈ q.toList, c.toNat < 0x10000) (column : Nat) (indents : List Nat)
    (rest : List Char) :
    (within column indents ((Json.quote q).toList ++ rest)).lexeme =
      (within column indents ((Json.quote q).toList ++ rest)).atom (.quoted q) rest := by
  have hquote : (Json.quote q).toList ++ rest = '"' :: (q.toList.flatMap Json.charText ++ '"' :: rest) := by
    simp [Json.quote]
  have hmarker (rest : List Char) : isMarker ('"' :: rest) = false := by simp [isMarker]
  have hdouble := double_quoted hq [] rest
  rw [List.nil_append, ← Gap.empty] at hdouble
  rw [hquote]
  simp [lexeme, within, hmarker, hdouble]

theorem reads_quoted {q : String} (hq : ∀ c ∈ q.toList, c.toNat < 0x10000) (h : NextLine n rest) (indents : List Nat) :
    Reads indents (' ' :: ((Json.quote q).toList ++ rest)) [.scalar (.quoted q)] indents rest := by
  apply reads_scalar ?_ h (fun column => lexeme_quoted hq column indents rest)
  exact ⟨'"', q.toList.flatMap Json.charText ++ ['"'], by simp [Json.quote], by decide⟩

theorem isMarker_decimal (z : Int) (rest : List Char) : isMarker ((decimal z).toList ++ rest) = false := by
  obtain ⟨d, ds, hd, h | h⟩ := decimal_cases z
  · rw [h]
    exact isMarker_word (by simp [isWordChar, Char.isAlphanum, hd]) (isDigit_ne hd (by decide)) _
  · have hm : d ≠ '-' := isDigit_ne hd (by decide)
    simp [h, isMarker, hm]

theorem lexeme_decimal (z : Int) (hstop : ∀ column, plain false (m + 1) .empty column rest rest = ([], rest))
    (column : Nat) (indents : List Nat) :
    (within column (m :: indents) ((decimal z).toList ++ rest)).lexeme =
      (within column (m :: indents) ((decimal z).toList ++ rest)).atom (.plain (decimal z)) rest := by
  have hword := isWordChar_decimal z
  have hp := plain_word hword hstop column
  have hmarker := isMarker_decimal z rest
  have hplain {c : Char} {cs : List Char} (hcs : (decimal z).toList = c :: cs)
      (he : ¬ (c = '-' ∧ ended (cs ++ rest) = true)) :
      (within column (m :: indents) ((decimal z).toList ++ rest)).lexeme =
        (within column (m :: indents) ((decimal z).toList ++ rest)).atom (.plain (decimal z)) rest := by
    have hrest : (within column (m :: indents) ((decimal z).toList ++ rest)).rest = c :: (cs ++ rest) := by
      rw [hcs]
      rfl
    have hlexeme := lexeme_word hrest (hword c (by simp [hcs])) hmarker he hp
    rwa [String.ofList_toList] at hlexeme
  obtain ⟨d, ds, hd, h | h⟩ := decimal_cases z
  · exact hplain h fun hm => isDigit_ne hd (by decide) hm.1
  · -- a sign is not the mark of an entry, since a digit follows it
    have hended : ended (d :: (ds ++ rest)) = false := by
      simp [ended, isDigit_ne hd (by decide : ' '.isDigit = false), isDigit_ne hd (by decide : '\t'.isDigit = false),
        isBreak_of_isWordChar (hword d (by simp [h]))]
    exact hplain h fun hm => by cases hended.symm.trans hm.2

theorem reads_decimal (z : Int) (hw : IsKey w) {k : Nat} (hk : k + 1 ≤ m) (indents : List Nat) (after : List Char) :
    Reads (m :: indents) (' ' :: ((decimal z).toList ++ keyLine (k + 1) w after)) [.scalar (.plain (decimal z))]
      (m :: indents) (keyLine (k + 1) w after) := by
  obtain ⟨c, cs, hcs, hc, -⟩ := hw.head
  have hline : keyLine (k + 1) w after = '\n' :: (List.replicate (k + 1) ' ' ++ c :: (cs ++ ':' :: after)) := by
    rw [keyLine, hcs]
    rfl
  have hstop (column : Nat) : plain false (m + 1) .empty column (keyLine (k + 1) w after) (keyLine (k + 1) w after) =
      ([], keyLine (k + 1) w after) := by
    rw [hline]
    exact plain_newline (isWordChar_ne (by decide) hc) (isBreak_of_isWordChar hc) (Nat.lt_succ_of_le hk) column _
  apply reads_scalar ?_ (nextLine_key hw _ _) (fun column => lexeme_decimal z hstop column indents)
  obtain ⟨d, ds, hd, -⟩ := decimal_head z
  exact ⟨d, ds, hd, isText_word (isWordChar_decimal z d (by rw [hd]; exact List.mem_cons_self))⟩

theorem reads_emptyList (h : NextLine n rest) (indents : List Nat) :
    Reads indents (' ' :: '[' :: ']' :: rest) [.openList, .closeList] indents rest := by
  intro column hcolumn
  have hopen : (within (column + 1) indents ('[' :: ']' :: rest)).lexeme =
      some ([.openList], { atText (column + 2) indents (']' :: rest) with depth := 1 }) := by
    have hmarker : isMarker ('[' :: ']' :: rest) = false := by simp [isMarker]
    simp [lexeme, within, atText, hmarker, openFlow, flow, advance, columnAfter, isBreak]
  have hskip : ({ atText (column + 2) indents (']' :: rest) with depth := 1 } : Scanner).skip =
      ([], { atText (column + 2) indents (']' :: rest) with depth := 1 }) := by
    simp [skip, atText, flow, skipGap_text (by decide : isText ']' = true)]
  have hclose : ({ atText (column + 2) indents (']' :: rest) with depth := 1 } : Scanner).lexeme =
      some ([.closeList], within (column + 3) indents rest) := by
    have hmarker : isMarker (']' :: rest) = false := by simp [isMarker]
    simp [lexeme, within, atText, hmarker, closeFlow, flow, advance, columnAfter, isBreak]
  have hlist := scan_of_lexeme (skip_space (by decide : isText '[' = true) hcolumn _) (by simp [within]) hopen
    (by simp [within, atText])
  have hrest := scan_of_lexeme hskip (by simp [atText]) hclose (by simp [within, atText])
  refine ⟨column, hcolumn, ?_⟩
  rw [hlist, hrest, Option.map_map, h.scan_eq column]
  rfl

/-- A document that begins with a key is read as if a line ended before it. -/
theorem scan_start (hw : IsKey w) (ha : ended after = true) (column : Nat) :
    (atText 0 [] (w.toList ++ ':' :: after)).scan = (within column [] (keyLine 0 w after)).scan := by
  have hin : Inside 0 [] := by simp [Inside]
  have hskip : (atText 0 [] (w.toList ++ ':' :: after)).skip = ([], atText 0 [] (w.toList ++ ':' :: after)) := by
    obtain ⟨c, cs, hcs, hc, -⟩ := hw.head
    simp [skip, atText, flow, unwind, hcs, skipGap_text (isText_word hc)]
  rw [scan_openMapping hw ha hin, scan_of_lexeme hskip (by simp [atText]) (lexeme_openMapping hw ha hin)
    (by simp only [atText, within, List.length_append, List.length_cons]; omega)]
  rfl

end Tokens

theorem scan_end (column : Nat) : (within column [0] ['\n']).scan = some [.close] := by
  rw [scan, skip_line indented_end]
  simp [atText, flow, unwind]

end Scanner

section Document

variable {cs : List Char}

/-- Visible ASCII characters, spaces and newlines. -/
def isPrinted (c : Char) : Bool := c == '\n' || (0x20 ≤ c.toNat && c.toNat < 0x7F)

theorem isPrinted_iff {c : Char} : isPrinted c = true ↔ c = '\n' ∨ 0x20 ≤ c.toNat ∧ c.toNat < 0x7F := by
  simp [isPrinted]

theorem newlines_printed (h : ∀ c ∈ cs, isPrinted c = true) : newlines cs = cs := by
  induction cs with
  | nil => rfl
  | cons c cs ih =>
    have hc : c ≠ '\r' := by
      rintro rfl
      exact absurd (h '\r' List.mem_cons_self) (by decide)
    simp [newlines, hc, ih fun x hx => h x (List.mem_cons_of_mem c hx)]

theorem isReadable_of_isPrinted {c : Char} (h : isPrinted c = true) : isReadable c = true := by
  obtain rfl | ⟨hl, hu⟩ := isPrinted_iff.mp h
  · decide
  · simp [isReadable, hl, Nat.le_of_lt_succ hu]

theorem scan?_printed (h : ∀ c ∈ cs, isPrinted c = true) : Token.scan? cs = (Scanner.atText 0 [] cs).scan := by
  have hreadable : cs.all isReadable = true := List.all_eq_true.mpr fun c hc => isReadable_of_isPrinted (h c hc)
  rw [Token.scan?, if_pos hreadable]
  · rfl
  · rintro rest rfl
    exact absurd (h '\ufeff' List.mem_cons_self) (by decide)

theorem isPrinted_digitChar {d : Nat} (hd : d < 16) : isPrinted d.digitChar = true := by
  revert d
  decide

theorem all_escape (n : Nat) : ('\\' :: 'u' :: Text.hexDigits 4 n).all isPrinted = true := by
  have hdigits : (Text.hexDigits 4 n).all isPrinted = true := by
    rw [List.all_eq_true]
    intro c hc
    obtain ⟨d, hd, rfl⟩ := mem_hexDigits hc
    exact isPrinted_digitChar hd
  rw [List.all_cons, List.all_cons, hdigits]
  decide

theorem all_charText (c : Char) : (Json.charText c).all isPrinted = true := by
  unfold Json.charText
  split_ifs with hmark hvisible
  · obtain rfl | rfl := hmark <;> decide
  · simp [isPrinted_iff, hvisible]
  · exact all_escape _
  · rw [List.all_append, all_escape, all_escape]
    rfl

theorem all_quote (q : String) : (Json.quote q).toList.all isPrinted = true := by
  have hmark : isPrinted '"' = true := by decide
  rw [Json.quote, String.toList_ofList]
  simp [hmark, all_charText]

theorem all_decimal (z : Int) : (decimal z).toList.all isPrinted = true := by
  rw [decimal, String.toList_ofList, List.all_append, Bool.and_eq_true]
  constructor
  · split_ifs <;> decide
  · rw [List.all_eq_true]
    intro c hc
    obtain ⟨d, hd, rfl⟩ := mem_toDigits (by omega) hc
    exact isPrinted_digitChar (by omega)

/-- The tokens of a printed document whose lines are those of a mapping at the margin. -/
theorem scan?_document {w : String} {after : List Char} {ts : List Token} (hw : Scanner.IsKey w)
    (ha : ended after = true) (hp : ∀ c ∈ w.toList ++ ':' :: after, isPrinted c = true)
    (h : Scanner.Reads [0] (Scanner.keyLine 0 w after) ts [0] ['\n']) :
    Token.scan? (newlines (w.toList ++ ':' :: after)) = some (.openMapping :: (ts ++ [.close])) := by
  have hin : Scanner.Inside 0 [] := by simp [Scanner.Inside]
  obtain ⟨column, -, hscan⟩ := (Scanner.reads_openMapping hw ha hin).trans h 0 hin
  rw [newlines_printed hp, scan?_printed hp, Scanner.scan_start hw ha 0, hscan, Scanner.scan_end]
  rfl

end Document

end DclServer.Yaml
