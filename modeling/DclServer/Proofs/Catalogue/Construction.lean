import Mathlib.Data.List.Nodup
import Mathlib.Data.Nat.Find
import DclServer.Proofs.Catalogue

namespace DclServer.Catalogue

variable {α : Type} {field : Entry → α} {entries seen ahead : List Entry} {e : Entry} {c : Catalogue} {i j : Nat}

def Repeats (field : Entry → α) (entries : List Entry) (i : Nat) : Prop :=
  ∃ j < i, ∃ e f, entries[i]? = some e ∧ entries[j]? = some f ∧ field f = field e

/-- The least index whose entry repeats an identifier or a label. -/
structure FirstRepeat (entries : List Entry) (i : Nat) : Prop where
  repeats : Repeats (·.identifier) entries i ∨ Repeats (·.label) entries i
  least : ∀ j < i, ¬ Repeats (·.identifier) entries j ∧ ¬ Repeats (·.label) entries j

theorem repeats_iff (he : entries[i]? = some e) :
    Repeats field entries i ↔ ∃ f ∈ entries.take i, field f = field e := by
  simp only [Repeats, he, List.mem_take_iff_getElem, List.getElem?_eq_some_iff]
  constructor
  · rintro ⟨j, hj, e', f, he', ⟨hlt, hf⟩, heq⟩
    cases he'
    exact ⟨f, ⟨j, by omega, hf⟩, heq⟩
  · rintro ⟨f, ⟨j, hj, hf⟩, heq⟩
    exact ⟨j, by omega, e, f, rfl, ⟨by omega, hf⟩, heq⟩

theorem nodup_map_iff : (entries.map field).Nodup ↔ ∀ i, ¬ Repeats field entries i := by
  rw [List.nodup_iff_getElem?_ne_getElem?]
  simp only [List.getElem?_map, List.length_map]
  constructor
  · rintro h i ⟨j, hj, e, f, he, hf, heq⟩
    have hlt : i < entries.length := (List.getElem?_eq_some_iff.mp he).1
    apply h j i hj hlt
    rw [he, hf, Option.map_some, Option.map_some, heq]
  · intro h j i hj hlt heq
    have he : entries[i]? = some entries[i] := List.getElem?_eq_getElem hlt
    have hf : entries[j]? = some entries[j] := List.getElem?_eq_getElem (by omega)
    rw [he, hf] at heq
    exact h i ⟨j, hj, _, _, he, hf, Option.some.inj heq⟩

theorem exists_firstRepeat (h : ¬ ((entries.map (·.identifier)).Nodup ∧ (entries.map (·.label)).Nodup)) :
    ∃ i, FirstRepeat entries i := by
  classical
  have hsome : ∃ i, Repeats (·.identifier) entries i ∨ Repeats (·.label) entries i := by
    by_contra hnone
    simp only [not_exists, not_or] at hnone
    exact h ⟨nodup_map_iff.mpr fun i => (hnone i).1, nodup_map_iff.mpr fun i => (hnone i).2⟩
  refine ⟨Nat.find hsome, Nat.find_spec hsome, fun j hj => ?_⟩
  exact not_or.mp (Nat.find_min hsome hj)

theorem firstDuplicate_append (h : firstDuplicate seen ahead = none) (rest : List Entry) :
    firstDuplicate seen (ahead ++ rest) = firstDuplicate (ahead.reverse ++ seen) rest := by
  induction ahead generalizing seen with
  | nil => rfl
  | cons e ahead ih =>
    rw [firstDuplicate] at h
    split_ifs at h with hid hlabel
    rw [List.cons_append, firstDuplicate, if_neg hid, if_neg hlabel, ih h, List.reverse_cons, List.append_assoc]
    rfl

theorem nodup_take (h : ∀ j < i, ¬ Repeats field entries j) : ((entries.take i).map field).Nodup := by
  rw [nodup_map_iff]
  rintro j ⟨k, hk, e, f, he, hf, heq⟩
  rw [List.getElem?_take] at he hf
  split_ifs at he with hj
  rw [if_pos (by omega)] at hf
  exact h j hj ⟨k, hk, e, f, he, hf, heq⟩

theorem FirstRepeat.firstDuplicate_take (h : FirstRepeat entries i) : firstDuplicate [] (entries.take i) = none :=
  (firstDuplicate_eq_none_iff [] _).mpr
    ⟨nodup_take fun j hj => (h.least j hj).1, nodup_take fun j hj => (h.least j hj).2, by simp⟩

/-- The search arrives at the first repetition with all that is before it. -/
theorem FirstRepeat.firstDuplicate_eq (h : FirstRepeat entries i) (he : entries[i]? = some e) :
    firstDuplicate [] entries =
      firstDuplicate (entries.take i).reverse (e :: entries.drop (i + 1)) := by
  have hsplit : entries = entries.take i ++ e :: entries.drop (i + 1) := by
    obtain ⟨hi, rfl⟩ := List.getElem?_eq_some_iff.mp he
    rw [← List.drop_eq_getElem_cons hi, List.take_append_drop]
  have happend := firstDuplicate_append h.firstDuplicate_take (e :: entries.drop (i + 1))
  rwa [← hsplit, List.append_nil] at happend

theorem FirstRepeat.identifier (h : FirstRepeat entries i) (he : entries[i]? = some e)
    (hid : Repeats (·.identifier) entries i) :
    firstDuplicate [] entries = some (.duplicateIdentifier e.identifier) := by
  have hany : (entries.take i).reverse.any (·.identifier == e.identifier) := by
    simpa using (repeats_iff he).mp hid
  rw [h.firstDuplicate_eq he, firstDuplicate, if_pos hany]

theorem FirstRepeat.label (h : FirstRepeat entries i) (he : entries[i]? = some e)
    (hid : ¬ Repeats (·.identifier) entries i) : firstDuplicate [] entries = some (.duplicateLabel e.label) := by
  have hno : ¬ (entries.take i).reverse.any (·.identifier == e.identifier) := by
    simpa using mt (repeats_iff he).mpr hid
  have hany : (entries.take i).reverse.any (·.label == e.label) := by
    simpa using (repeats_iff he).mp (h.repeats.resolve_left hid)
  rw [h.firstDuplicate_eq he, firstDuplicate, if_neg hno, if_pos hany]

theorem ofEntries_of_duplicate {d : CatalogueError} (h : firstDuplicate [] entries = some d) :
    ofEntries entries = .error d.reported := by
  rw [ofEntries, h]

theorem reported_identifier (n : Int) : (CatalogueError.duplicateIdentifier n).reported =
    if (Nat.toDigits 10 n.natAbs).length ≤ 4300 then .duplicateIdentifier n else .numberTooLong := by
  have hwritable : (CatalogueError.duplicateIdentifier n).writable =
      decide ((Nat.toDigits 10 n.natAbs).length ≤ 4300) := rfl
  simp only [CatalogueError.reported, hwritable, decide_eq_true_eq]

theorem FirstRepeat.ofEntries_identifier (h : FirstRepeat entries i) (he : entries[i]? = some e)
    (hid : Repeats (·.identifier) entries i) : ofEntries entries = .error
      (if (Nat.toDigits 10 e.identifier.natAbs).length ≤ 4300 then .duplicateIdentifier e.identifier
      else .numberTooLong) := by
  rw [ofEntries_of_duplicate (h.identifier he hid), reported_identifier]

theorem FirstRepeat.ofEntries_label (h : FirstRepeat entries i) (he : entries[i]? = some e)
    (hid : ¬ Repeats (·.identifier) entries i) : ofEntries entries = .error (.duplicateLabel e.label) :=
  ofEntries_of_duplicate (h.label he hid)

/-- What becomes of entries. They make a catalogue exactly if no identifier and no label is repeated; else the
first entry that repeats one is reported, by its identifier if that is repeated and by its label if not. An
identifier of more than 4300 digits cannot be written, and nothing is named then. -/
structure Constructs (entries : List Entry) : Prop where
  accepted : (∃ c, ofEntries entries = .ok c) ↔
    (entries.map (·.identifier)).Nodup ∧ (entries.map (·.label)).Nodup
  refused : (∃ d, ofEntries entries = .error d) → ∃ i, FirstRepeat entries i
  identifier : ∀ i e, FirstRepeat entries i → entries[i]? = some e → Repeats (·.identifier) entries i →
    ofEntries entries = .error
      (if (Nat.toDigits 10 e.identifier.natAbs).length ≤ 4300 then .duplicateIdentifier e.identifier
      else .numberTooLong)
  label : ∀ i e, FirstRepeat entries i → entries[i]? = some e → ¬ Repeats (·.identifier) entries i →
    ofEntries entries = .error (.duplicateLabel e.label)
  messages : ∀ e : Entry,
    (CatalogueError.duplicateIdentifier e.identifier).message =
        "Duplicate catalogue identifier: " ++ decimal e.identifier ∧
      (CatalogueError.duplicateLabel e.label).message = "Duplicate catalogue label: " ++ e.label
  kept : ∀ c, ofEntries entries = .ok c → c.entries = entries
  rows : ∀ c, ofEntries entries = .ok c →
    c.table = entries.map fun e => (e.identifier, ⟨e.detail, e.documentation⟩)
  found : ∀ c, ofEntries entries = .ok c → ∀ e ∈ entries,
    c.resolve? e.identifier = some ⟨e.detail, e.documentation⟩ ∧
      ∀ f ∈ entries, f.identifier = e.identifier → f = e
  absent : ∀ c, ofEntries entries = .ok c → ∀ n, (∀ e ∈ entries, e.identifier ≠ n) → c.resolve? n = none
  searched : ∀ c, ofEntries entries = .ok c → ∀ n,
    c.resolve? n = (entries.find? (·.identifier == n)).map fun e => ⟨e.detail, e.documentation⟩

theorem accepted_iff : (∃ c, ofEntries entries = .ok c) ↔
    (entries.map (·.identifier)).Nodup ∧ (entries.map (·.label)).Nodup := by
  simp only [ofEntries_eq_ok_iff]
  exact ⟨fun ⟨_, hi, hl, _⟩ => ⟨hi, hl⟩, fun ⟨hi, hl⟩ => ⟨_, hi, hl, rfl⟩⟩

theorem firstRepeat_of_error {d : CatalogueError} (h : ofEntries entries = .error d) : ∃ i, FirstRepeat entries i := by
  apply exists_firstRepeat
  intro hdistinct
  obtain ⟨c, hc⟩ := accepted_iff.mpr hdistinct
  cases h.symm.trans hc

theorem refused_iff : (∃ d, ofEntries entries = .error d) ↔
    ∃ i, Repeats (·.identifier) entries i ∨ Repeats (·.label) entries i := by
  constructor
  · rintro ⟨d, hd⟩
    obtain ⟨i, hi⟩ := firstRepeat_of_error hd
    exact ⟨i, hi.repeats⟩
  · rintro ⟨i, hi⟩
    cases hc : ofEntries entries with
    | error d => exact ⟨d, rfl⟩
    | ok c =>
      obtain ⟨hids, hlabels⟩ := accepted_iff.mp ⟨c, hc⟩
      exact (hi.elim (nodup_map_iff.mp hids i) (nodup_map_iff.mp hlabels i)).elim

theorem entries_make_catalogue (entries : List Entry) : Constructs entries where
  accepted := accepted_iff
  refused := fun ⟨_, hd⟩ => firstRepeat_of_error hd
  identifier i e h he hid := h.ofEntries_identifier he hid
  label i e h he hid := h.ofEntries_label he hid
  messages e := ⟨rfl, rfl⟩
  kept c hc := by rw [(ofEntries_eq_ok_iff.mp hc).2.2]
  rows c hc := by
    rw [(ofEntries_eq_ok_iff.mp hc).2.2]
    rfl
  found c hc e he := by
    refine ⟨resolve?_of_mem hc he, fun f hf heq => ?_⟩
    have hn := (ofEntries_eq_ok_iff.mp hc).1
    have hfind := find?_of_nodup hn hf
    rw [heq, find?_of_nodup hn he] at hfind
    exact (Option.some.inj hfind).symm
  absent c hc n hn := resolve?_of_absent hc hn
  searched c hc n := resolve?_eq_find? hc n

/-- An identifier of 4302 digits that is repeated is not named. -/
theorem long_identifier_is_not_named :
    let n : Int := Int.ofNat (Nat.pow 16 3572)
    let entries : List Entry := [⟨n, "a", "Lexical", "first"⟩, ⟨n, "b", "Lexical", "second"⟩]
    FirstRepeat entries 1 ∧ Repeats (·.identifier) entries 1 ∧ ofEntries entries = .error .numberTooLong := by
  intro n entries
  have hrepeats : Repeats (·.identifier) entries 1 := ⟨0, Nat.one_pos, _, _, rfl, rfl, rfl⟩
  have hfirst : FirstRepeat entries 1 := by
    refine ⟨.inl hrepeats, fun j hj => ?_⟩
    constructor <;> exact fun ⟨k, hk, _⟩ => by omega
  have hlong : ¬ (Nat.toDigits 10 n.natAbs).length ≤ 4300 := by
    decide +kernel
  have herror := hfirst.ofEntries_identifier rfl hrepeats
  rw [if_neg hlong] at herror
  exact ⟨hfirst, hrepeats, herror⟩

end DclServer.Catalogue
