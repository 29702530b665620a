import DclServer.Catalogue.Document
import DclServer.Catalogue.Layout
import DclServer.Proofs.Catalogue.Acceptance
import DclServer.Proofs.Completion.Numeral
import DclServer.Proofs.Yaml.Building
import DclServer.Proofs.Yaml.Lines

namespace DclServer.Catalogue

open Yaml Yaml.Scanner

variable {r : Record} {s lexicals commands : Section} {rest : List Char}

/-- The characters of a text are in the basic plane, where one escape writes each. -/
def InBasicPlane (s : String) : Prop := ∀ c ∈ s.toList, c.toNat < 0x10000

structure Unpadded (s : String) : Prop where
  first : ∀ c ∈ s.toList.head?, Text.isBlank c = false
  last : ∀ c ∈ s.toList.getLast?, Text.isBlank c = false

/-- A record that a file can hold. -/
structure Record.Storable (r : Record) : Prop where
  digits : (Nat.toDigits 10 r.identifier.natAbs).length ≤ 4300
  label : InBasicPlane r.label
  documentation : InBasicPlane r.documentation
  unpadded : Unpadded r.documentation

structure Section.Storable (s : Section) : Prop where
  detail : InBasicPlane s.detail
  records : ∀ r ∈ s.records, r.Storable

instance (s : String) : Decidable (InBasicPlane s) :=
  decidable_of_iff (s.toList.all (fun c => decide (c.toNat < 0x10000)) = true) (by simp [InBasicPlane])

instance (s : String) : Decidable (Unpadded s) :=
  decidable_of_iff (s.toList.head?.all (fun c => !Text.isBlank c) = true ∧
      s.toList.getLast?.all (fun c => !Text.isBlank c) = true)
    (by
      simp only [Option.all_eq_true, Bool.not_eq_true']
      exact ⟨fun h => ⟨h.1, h.2⟩, fun h => ⟨h.first, h.last⟩⟩)

instance (r : Record) : Decidable r.Storable :=
  decidable_of_iff ((Nat.toDigits 10 r.identifier.natAbs).length ≤ 4300 ∧ InBasicPlane r.label ∧
      InBasicPlane r.documentation ∧ Unpadded r.documentation)
    ⟨fun h => ⟨h.1, h.2.1, h.2.2.1, h.2.2.2⟩, fun h => ⟨h.digits, h.label, h.documentation, h.unpadded⟩⟩

instance (s : Section) : Decidable s.Storable :=
  decidable_of_iff (InBasicPlane s.detail ∧ ∀ r ∈ s.records, r.Storable)
    ⟨fun h => ⟨h.1, h.2⟩, fun h => ⟨h.detail, h.records⟩⟩

theorem Unpadded.strip_eq {s : String} (h : Unpadded s) : Text.strip s = s := by
  suffices htrim : Text.trim Text.isBlank s.toList = s.toList by rw [Text.strip, htrim, String.ofList_toList]
  obtain ⟨hfirst, hlast⟩ := h
  cases hs : s.toList with
  | nil => rfl
  | cons c cs =>
    have hne : c :: cs ≠ [] := List.cons_ne_nil c cs
    rw [hs] at hfirst hlast
    have hends : Text.trim Text.isBlank ([] ++ (c :: cs) ++ []) = c :: cs :=
      Text.trim_of_ends (by simp) (by simp) (hfirst c rfl) (hlast _ (List.getLast?_eq_some_getLast hne))
        (List.dropLast_append_getLast hne).symm
    rwa [List.nil_append, List.append_nil] at hends

def keys : List String := ["id", "label", "documentation", "detail", "items", "lexicals", "commands"]

theorem isKey_of_mem {k : String} (hk : k ∈ keys) : IsKey k := by
  have hkeys : ∀ k ∈ keys, k.toList ≠ [] ∧ k.toList.all Char.isAlpha = true ∧ k.toList.length ≤ 1024 := by
    decide +kernel
  obtain ⟨hne, hletters, hshort⟩ := hkeys k hk
  exact ⟨hne, List.all_eq_true.mp hletters, hshort⟩

theorem keyValue_of_mem {k : String} (hk : k ∈ keys) : (Atom.plain k).keyValue = .ok (.text k) := by
  revert k
  decide +kernel

theorem named_of_keys {fs : List (String × Block)} (hk : ∀ k ∈ fs.map Prod.fst, k ∈ keys)
    (hd : (fs.map Prod.fst).Nodup) : Block.Named fs :=
  ⟨fun f hf => keyValue_of_mem (hk f.1 (List.mem_map_of_mem hf)), hd⟩

def Record.block (r : Record) (h : r.Storable) : Block :=
  .mapping [("id", .scalar (.plain (decimal r.identifier)) (.int r.identifier) (resolve_decimal h.digits)),
    ("label", .scalar (.quoted r.label) (.text r.label) rfl),
    ("documentation", .scalar (.quoted r.documentation) (.text r.documentation) rfl)]
    (named_of_keys (by simp [keys]) (by simp))

/-- The lines of a record, each with the break before it. -/
def Record.lines (r : Record) (rest : List Char) : List Char :=
  entryLine 4 ("id".toList ++ ':' :: ' ' :: ((decimal r.identifier).toList ++
    keyLine 6 "label" (' ' :: (quotedChars r.label ++
    keyLine 6 "documentation" (' ' :: (quotedChars r.documentation ++ rest))))))

theorem Record.lines_eq (r : Record) (rest : List Char) : '\n' :: (r.toChars ++ rest) = r.lines ('\n' :: rest) := by
  have hid : "    - id: ".toList = List.replicate 4 ' ' ++ '-' :: ' ' :: ("id".toList ++ [':', ' ']) := by decide
  have hlabel : "\n      label: ".toList = '\n' :: (List.replicate 6 ' ' ++ ("label".toList ++ [':', ' '])) := by decide
  have hdocumentation : "\n      documentation: ".toList =
    '\n' :: (List.replicate 6 ' ' ++ ("documentation".toList ++ [':', ' '])) := by decide
  unfold Record.toChars Record.lines entryLine keyLine
  simp only [hid, hlabel, hdocumentation, List.append_assoc, List.cons_append, List.nil_append]

theorem Record.reads_lines (h : r.Storable) (hrest : NextLine 4 rest) :
    Reads [4, 2, 0] (r.lines rest) (.entry :: (r.block h).tokens) [4, 2, 0] rest := by
  have hid : IsKey "id" := isKey_of_mem (by decide)
  have hlabel : IsKey "label" := isKey_of_mem (by decide)
  have hdocumentation : IsKey "documentation" := isKey_of_mem (by decide)
  -- the first key stands behind the mark of the entry and opens the mapping at its own column
  exact (reads_entry hid rfl 4 [2, 0]).trans <| (reads_openMapping hid rfl (inside_cons.mpr (by omega))).trans <|
    (reads_key hid rfl 6 _).trans <| (reads_decimal r.identifier hlabel (by omega) _ _).trans <|
    (reads_key hlabel rfl 6 _).trans <| (reads_quoted h.label (nextLine_key hdocumentation 6 _) _).trans <|
    (reads_key hdocumentation rfl 6 _).trans <| (reads_quoted h.documentation hrest _).trans <|
    reads_close hrest (by omega) _

def itemLines (rs : List Record) (rest : List Char) : List Char :=
  if rs = [] then ' ' :: '[' :: ']' :: rest else rs.foldr Record.lines rest

theorem foldr_lines_eq (rs : List Record) (rest : List Char) :
    '\n' :: (rs.flatMap Record.toChars ++ rest) = rs.foldr Record.lines ('\n' :: rest) := by
  induction rs with
  | nil => rfl
  | cons r rs ih => rw [List.flatMap_cons, List.append_assoc, Record.lines_eq, ih, List.foldr_cons]

theorem itemLines_eq (rs : List Record) (rest : List Char) :
    (if rs = [] then " []\n".toList else '\n' :: rs.flatMap Record.toChars) ++ rest = itemLines rs ('\n' :: rest) := by
  unfold itemLines
  split_ifs with hrs
  · rfl
  · rw [List.cons_append, foldr_lines_eq]

def Section.lines (family : Family) (s : Section) (rest : List Char) : List Char :=
  keyLine 0 family.name (keyLine 2 "detail" (' ' :: (quotedChars s.detail ++
    keyLine 2 "items" (itemLines s.records rest))))

theorem Section.lines_eq (family : Family) (s : Section) (rest : List Char) :
    '\n' :: (s.toChars family ++ rest) = s.lines family ('\n' :: rest) := by
  have hdetail : ":\n  detail: ".toList = ':' :: '\n' :: (List.replicate 2 ' ' ++ ("detail".toList ++ [':', ' '])) := by
    decide
  have hitems : "\n  items:".toList = '\n' :: (List.replicate 2 ' ' ++ ("items".toList ++ [':'])) := by decide
  unfold Section.toChars Section.lines keyLine
  rw [← itemLines_eq]
  simp only [hdetail, hitems, List.replicate_zero, List.append_assoc, List.cons_append, List.nil_append]

theorem nextLine_foldr_lines (rs : List Record) (hrest : NextLine 4 rest) : NextLine 4 (rs.foldr Record.lines rest) := by
  cases rs with
  | nil => exact hrest
  | cons r rs => exact nextLine_entry 4 _

/-- Records are read one after the other, each as an entry of the open sequence. -/
theorem reads_foldr_lines {rs : List Record} (h : ∀ r ∈ rs, r.Storable) (hrest : NextLine 4 rest) :
    Reads [4, 2, 0] (rs.foldr Record.lines rest) (Block.itemTokens (rs.pmap Record.block h)) [4, 2, 0] rest := by
  induction rs with
  | nil => exact Reads.refl _ _
  | cons r rs ih =>
    have hr := h r List.mem_cons_self
    exact (Record.reads_lines hr (nextLine_foldr_lines rs hrest)).trans
      (ih fun x hx => h x (List.mem_cons_of_mem r hx))

def itemBlock (bs : List Block) : Block := if bs = [] then .emptyList else .sequence bs

theorem reads_itemLines {rs : List Record} (h : ∀ r ∈ rs, r.Storable) (hrest : NextLine 0 rest) :
    Reads [2, 0] (itemLines rs rest) (itemBlock (rs.pmap Record.block h)).tokens [2, 0] rest := by
  cases rs with
  | nil => exact reads_emptyList hrest [2, 0]
  | cons r rs =>
    have hopen : Reads [2, 0] ((r :: rs).foldr Record.lines rest) [.openSequence] [4, 2, 0]
        ((r :: rs).foldr Record.lines rest) := reads_openSequence (inside_cons.mpr (by omega)) _
    exact hopen.trans <| (reads_foldr_lines h (hrest.mono (by omega))).trans <| reads_close hrest (by omega) _

def Section.block (s : Section) (h : s.Storable) : Block :=
  .mapping [("detail", .scalar (.quoted s.detail) (.text s.detail) rfl),
    ("items", itemBlock (s.records.pmap Record.block h.records))] (named_of_keys (by simp [keys]) (by simp))

theorem isKey_name (family : Family) : IsKey family.name := by
  apply isKey_of_mem
  cases family <;> decide

theorem nextLine_section (family : Family) (s : Section) (rest : List Char) : NextLine 0 (s.lines family rest) :=
  nextLine_key (isKey_name family) 0 _

theorem ended_itemLines (rs : List Record) (hrest : NextLine 4 rest) : ended (itemLines rs rest) = true := by
  unfold itemLines
  split_ifs
  · rfl
  · exact (nextLine_foldr_lines rs hrest).ended

theorem Section.reads_lines (family : Family) (h : s.Storable) (hrest : NextLine 0 rest) :
    Reads [0] (s.lines family rest) (.key (.plain family.name) :: (s.block h).tokens) [0] rest := by
  have hdetail : IsKey "detail" := isKey_of_mem (by decide)
  have hitems : IsKey "items" := isKey_of_mem (by decide)
  have hended := ended_itemLines s.records (hrest.mono (by omega))
  have htokens : (s.block h).tokens = .openMapping :: .key (.plain "detail") :: .scalar (.quoted s.detail) ::
      .key (.plain "items") :: ((itemBlock (s.records.pmap Record.block h.records)).tokens ++ [.close]) := by
    simp [Section.block, Block.mapping, Block.fieldTokens, Block.scalar]
  rw [htokens]
  exact (reads_key (isKey_name family) rfl 0 []).trans <|
    (reads_openMapping hdetail rfl (inside_cons.mpr (by omega))).trans <| (reads_key hdetail rfl 2 _).trans <|
    (reads_quoted h.detail (nextLine_key hitems 2 _) _).trans <| (reads_key hitems hended 2 [0]).trans <|
    (reads_itemLines h.records hrest).trans <| reads_close hrest (by omega) _

def documentBlock (lexicals commands : Section) (hl : lexicals.Storable) (hc : commands.Storable) : Block :=
  .mapping [("lexicals", lexicals.block hl), ("commands", commands.block hc)]
    (named_of_keys (by simp [keys]) (by simp))

theorem Record.all_toChars (r : Record) : r.toChars.all isPrinted = true := by
  have hid : "    - id: ".toList.all isPrinted = true := by decide
  have hlabel : "\n      label: ".toList.all isPrinted = true := by decide
  have hdocumentation : "\n      documentation: ".toList.all isPrinted = true := by decide
  have hend : ['\n'].all isPrinted = true := by decide
  unfold Record.toChars
  simp only [List.all_append, hid, hlabel, hdocumentation, hend, quotedChars, all_quote, all_decimal, Bool.and_true]

theorem Section.all_toChars (family : Family) (s : Section) : (s.toChars family).all isPrinted = true := by
  have hname : family.name.toList.all isPrinted = true := by cases family <;> decide
  have hdetail : ":\n  detail: ".toList.all isPrinted = true := by decide
  have hitems : "\n  items:".toList.all isPrinted = true := by decide
  have hrecords : (if s.records = [] then " []\n".toList else '\n' :: s.records.flatMap Record.toChars).all
      isPrinted = true := by
    split_ifs
    · decide
    · simp [isPrinted, Record.all_toChars]
  unfold Section.toChars
  simp only [List.all_append, hname, hdetail, hitems, hrecords, quotedChars, all_quote, Bool.and_true]

theorem parse_render (hl : lexicals.Storable) (hc : commands.Storable) :
    parse (render lexicals commands) = .ok (documentBlock lexicals commands hl hc).value := by
  -- with a break before the text, every line of it begins with one
  have hcommands := commands.lines_eq .commands []
  rw [List.append_nil] at hcommands
  have hlines := lexicals.lines_eq .lexicals (commands.toChars .commands)
  rw [hcommands] at hlines
  have htext := (List.cons.inj hlines).2
  have hprinted : ∀ c ∈ lexicals.toChars .lexicals ++ commands.toChars .commands, isPrinted c = true := by
    rw [← List.all_eq_true, List.all_append, Section.all_toChars, Section.all_toChars]
    rfl
  rw [htext] at hprinted
  have hreads := (Section.reads_lines .lexicals hl (nextLine_section .commands commands ['\n'])).trans
    (Section.reads_lines .commands hc nextLine_end)
  have hscan := scan?_document (isKey_name .lexicals) rfl hprinted hreads
  apply Block.parse_eq
  rw [render, String.toList_ofList, htext]
  refine hscan.trans (congrArg some ?_)
  simp [documentBlock, Block.mapping, Block.fieldTokens, Family.name]

theorem shown_text (q : String) : shown (.text q) = .ok q := rfl

theorem readItem_block (family : Family) (detail : String) (h : r.Storable) :
    readItem family detail (r.block h).value = .ok (r.entry detail) := by
  have hid : (r.block h).value.field? "id" = some (.int r.identifier) := rfl
  have hlabel : (r.block h).value.field? "label" = some (.text r.label) := rfl
  have hdocumentation : (r.block h).value.field? "documentation" = some (.text r.documentation) := rfl
  simp only [readItem, hid, hlabel, hdocumentation, shown_text]
  exact congrArg (fun text => Except.ok (⟨r.identifier, r.label, detail, text⟩ : Entry)) h.unpadded.strip_eq

theorem itemBlock_value (bs : List Block) : (itemBlock bs).value = .list (bs.map (·.value)) := by
  cases bs <;> rfl

theorem members_list (vs : List Value) : members (.list vs) = .ok vs := by
  cases vs <;> rfl

theorem mapM_readItem (family : Family) (detail : String) {rs : List Record} (h : ∀ r ∈ rs, r.Storable) :
    ((rs.pmap Record.block h).map (·.value)).mapM (readItem family detail) = .ok (rs.map (Record.entry detail)) := by
  induction rs with
  | nil => rfl
  | cons r rs ih =>
    have hrest := ih fun x hx => h x (List.mem_cons_of_mem r hx)
    rw [List.pmap_cons, List.map_cons, List.mapM_cons, readItem_block, hrest]
    rfl

theorem readFamily_block {document : Value} {family : Family} (h : s.Storable)
    (hf : document.field? family.name = some (s.block h).value) : readFamily document family = .ok s.entries := by
  have htruthy : (s.block h).value.truthy = true := rfl
  have hitems : (s.block h).value.field? "items" = some (itemBlock (s.records.pmap Record.block h.records)).value := rfl
  have hsection : readSection family (s.block h).value =
      members (((s.block h).value.field? "items").getD .null) >>= fun items =>
        items.mapM (readItem family s.detail) := rfl
  simp only [readFamily, hf, htruthy, if_true]
  rw [hsection, hitems, Option.getD_some, itemBlock_value, members_list]
  exact mapM_readItem family s.detail h.records

theorem readEntries_documentBlock (hl : lexicals.Storable) (hc : commands.Storable) :
    readEntries (documentBlock lexicals commands hl hc).value = .ok (lexicals.entries ++ commands.entries) := by
  have hlexicals : readFamily (documentBlock lexicals commands hl hc).value .lexicals = .ok lexicals.entries :=
    readFamily_block hl rfl
  have hcommands : readFamily (documentBlock lexicals commands hl hc).value .commands = .ok commands.entries :=
    readFamily_block hc rfl
  have hobject : ∃ fields, (documentBlock lexicals commands hl hc).value = .object fields := ⟨_, rfl⟩
  obtain ⟨fields, hfields⟩ := hobject
  rw [hfields] at hlexicals hcommands ⊢
  rw [readEntries_object, hlexicals, hcommands]
  rfl

/-- A catalogue that is written to a file is loaded from it again, with the entries of the lexicals before those of
the commands. -/
theorem load_render (hl : lexicals.Storable) (hc : commands.Storable)
    (hd : Distinct (lexicals.entries ++ commands.entries)) :
    load (some (render lexicals commands)) =
      .ok ⟨lexicals.entries ++ commands.entries, (lexicals.entries ++ commands.entries).map row⟩ := by
  have hentries : ofEntries (lexicals.entries ++ commands.entries) =
      .ok ⟨lexicals.entries ++ commands.entries, (lexicals.entries ++ commands.entries).map row⟩ :=
    ofEntries_eq_ok_iff.mpr ⟨hd.1, hd.2, rfl⟩
  have hload : load (some (render lexicals commands)) = ofValue (documentBlock lexicals commands hl hc).value := by
    simp only [load, parse_render hl hc]
  rw [hload, ofValue, readEntries_documentBlock]
  exact hentries

/-- Texts that would be something else without their quotes. -/
def oddSection : Section :=
  ⟨"lexicals: # \"none\"", [⟨-12, "- id: 7", "a\\b\n\tc: é\u2028\ufeff…"⟩, ⟨0, " 0x1F ", ""⟩, ⟨7, "", "[]"⟩]⟩

theorem odd_texts_are_kept :
    (oddSection.Storable ∧ (⟨"", []⟩ : Section).Storable ∧ Distinct oddSection.entries) ∧
      load (some (render oddSection ⟨"", []⟩)) = .ok ⟨oddSection.entries, oddSection.entries.map row⟩ := by
  have hodd : oddSection.Storable := by decide +kernel
  have hempty : (⟨"", []⟩ : Section).Storable := by decide +kernel
  have hdistinct : Distinct (oddSection.entries ++ (⟨"", []⟩ : Section).entries) := by
    unfold Distinct
    decide +kernel
  exact ⟨⟨hodd, hempty, hdistinct⟩, load_render hodd hempty hdistinct⟩

example : render ⟨"Lexical", [⟨-1, "f$\"x\"", "é"⟩]⟩ ⟨"", []⟩ =
    "lexicals:\n  detail: \"Lexical\"\n  items:\n    - id: -1\n      label: \"f$\\\"x\\\"\"\n" ++
    "      documentation: \"\\u00e9\"\n" ++ "commands:\n  detail: \"\"\n  items: []\n" := by decide +kernel

end DclServer.Catalogue
