import DclServer.Catalogue.Basic

namespace DclServer.Catalogue

variable {entries : List Entry} {c : Catalogue}

theorem firstDuplicate_eq_none_iff (seen entries : List Entry) : firstDuplicate seen entries = none ↔
    (entries.map (·.identifier)).Nodup ∧ (entries.map (·.label)).Nodup ∧
      ∀ e ∈ entries, ∀ s ∈ seen, s.identifier ≠ e.identifier ∧ s.label ≠ e.label := by
  induction entries generalizing seen with
  | nil => simp [firstDuplicate]
  | cons e rest ih =>
    unfold firstDuplicate
    split
    · rename_i h
      obtain ⟨s, hs, he⟩ := List.any_eq_true.mp h
      simp only [reduceCtorEq, false_iff]
      rintro ⟨-, -, hne⟩
      exact (hne e (by simp) s hs).1 (by simpa using he)
    · split
      · rename_i h
        obtain ⟨s, hs, he⟩ := List.any_eq_true.mp h
        simp only [reduceCtorEq, false_iff]
        rintro ⟨-, -, hne⟩
        exact (hne e (by simp) s hs).2 (by simpa using he)
      · rename_i hid hlabel
        have hid' : ∀ s ∈ seen, s.identifier ≠ e.identifier := by simpa using hid
        have hlabel' : ∀ s ∈ seen, s.label ≠ e.label := by simpa using hlabel
        rw [ih]
        simp only [List.map_cons, List.nodup_cons, List.mem_map, List.mem_cons]
        grind

theorem ofEntries_eq_ok_iff : ofEntries entries = .ok c ↔
    (entries.map (·.identifier)).Nodup ∧ (entries.map (·.label)).Nodup ∧ c = ⟨entries, entries.map row⟩ := by
  have hnone := firstDuplicate_eq_none_iff [] entries
  unfold ofEntries
  split
  · rename_i e he
    have hdup : ¬ ((entries.map (·.identifier)).Nodup ∧ (entries.map (·.label)).Nodup) := by
      rintro ⟨hi, hl⟩
      cases he.symm.trans (hnone.mpr ⟨hi, hl, by simp⟩)
    simp only [reduceCtorEq, false_iff]
    exact fun h => hdup ⟨h.1, h.2.1⟩
  · rename_i he
    obtain ⟨hi, hl, -⟩ := hnone.mp he
    simp [hi, hl, eq_comm]

theorem lookup_row (entries : List Entry) (n : Int) :
    (entries.map row).lookup n =
      (entries.find? (·.identifier == n)).map fun e => ⟨e.detail, e.documentation⟩ := by
  induction entries with
  | nil => rfl
  | cons e entries ih =>
    by_cases he : e.identifier = n
    · simp [row, he]
    · have he' : (n == e.identifier) = false := by simpa using Ne.symm he
      simp [row, List.lookup_cons, he, he', ih]

/-- The table of a catalogue finds what a search of its entries finds. -/
theorem resolve?_eq_find? (hc : ofEntries entries = .ok c) (n : Int) :
    c.resolve? n = (entries.find? (·.identifier == n)).map fun e => ⟨e.detail, e.documentation⟩ := by
  obtain ⟨-, -, rfl⟩ := ofEntries_eq_ok_iff.mp hc
  exact lookup_row entries n

theorem find?_of_nodup {e : Entry} (hn : (entries.map (·.identifier)).Nodup) (he : e ∈ entries) :
    entries.find? (·.identifier == e.identifier) = some e := by
  induction entries with
  | nil => cases he
  | cons f rest ih =>
    obtain ⟨hf, hn⟩ := List.nodup_cons.mp hn
    obtain rfl | he := List.mem_cons.mp he
    · simp
    · have hne : f.identifier ≠ e.identifier := fun heq => hf (List.mem_map.mpr ⟨e, he, heq.symm⟩)
      simp [hne, ih hn he]

theorem resolve?_of_mem {e : Entry} (hc : ofEntries entries = .ok c) (he : e ∈ entries) :
    c.resolve? e.identifier = some ⟨e.detail, e.documentation⟩ := by
  rw [resolve?_eq_find? hc, find?_of_nodup (ofEntries_eq_ok_iff.mp hc).1 he]
  rfl

theorem resolve?_of_absent {n : Int} (hc : ofEntries entries = .ok c) (hn : ∀ e ∈ entries, e.identifier ≠ n) :
    c.resolve? n = none := by
  have hnone : entries.find? (·.identifier == n) = none := by simpa using hn
  rw [resolve?_eq_find? hc, hnone]
  rfl

end DclServer.Catalogue
