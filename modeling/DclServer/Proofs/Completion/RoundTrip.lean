import DclServer.Completion.Registry
import DclServer.Proofs.Catalogue
import DclServer.Proofs.Completion.Denotation

namespace DclServer

open Identifier

variable {entries : List Entry} {c : Catalogue} {item : Item}

namespace Completer

theorem resolveKeyword_of_mem {e : Entry} (hc : Catalogue.ofEntries entries = .ok c) (he : e ∈ entries)
    (hd : Denotes item.data e.identifier) :
    resolveKeyword c item = { item with detail := some e.detail, documentation := some e.documentation } := by
  simp [resolveKeyword, ofValue?_eq_some_iff.mpr hd, Catalogue.resolve?_of_mem hc he]

theorem resolveKeyword_of_unknown (hc : Catalogue.ofEntries entries = .ok c)
    (hu : ∀ e ∈ entries, ¬ Denotes item.data e.identifier) : resolveKeyword c item = item := by
  cases hn : ofValue? item.data with
  | none => simp [resolveKeyword, hn]
  | some n =>
    have habsent : ∀ e ∈ entries, e.identifier ≠ n := by
      rintro e he rfl
      exact hu e he (ofValue?_eq_some_iff.mp hn)
    simp [resolveKeyword, hn, Catalogue.resolve?_of_absent hc habsent]

theorem resolveKeyword_frame (c : Catalogue) (item : Item) : ∃ detail documentation,
    resolveKeyword c item = { item with detail, documentation } := by
  unfold resolveKeyword
  split
  · exact ⟨_, _, rfl⟩
  · exact ⟨_, _, rfl⟩

theorem resolveKeyword_idem (c : Catalogue) (item : Item) :
    resolveKeyword c (resolveKeyword c item) = resolveKeyword c item := by
  cases hr : (ofValue? item.data).bind c.resolve? with
  | none => simp [resolveKeyword, hr]
  | some r => simp [resolveKeyword, hr]

end Completer

namespace Registry

theorem standard_complete (c : Catalogue) (p : Position) :
    (standard (some c)).complete p = .ok { items := c.entries.map Completer.keywordItem } := by
  have hall : completeAll p [.keyword (some c)] = .ok (c.entries.map Completer.keywordItem ++ []) := rfl
  rw [List.append_nil] at hall
  change (completeAll p [.keyword (some c)]).map _ = _
  rw [hall]
  rfl

theorem standard_resolve (c : Catalogue) (item : Item) :
    (standard (some c)).resolve item = ([], .ok (Completer.resolveKeyword c item)) := by
  simp [standard, resolve, completers, Capability.completer?, resolveAll, Completer.keyword, Completer.unchanged]

/-- Completion by a catalogue of these entries. Every entry is offered, in order and without its texts; an
item that comes back gets the texts of the entry that its data denotes, and stays as it is if there is
none; nothing else of it changes, and a second time changes nothing. -/
structure Completes (r : Registry) (entries : List Entry) : Prop where
  listed : ∀ p, r.complete p = .ok
    { isIncomplete := false
      items := entries.map fun e =>
        { label := e.label, kind := some 1, detail := none, documentation := none, data := .int e.identifier } }
  returned : ∀ (p : Position) (l : ItemList) (i : Nat) (e : Entry) (item : Item), r.complete p = .ok l →
    entries[i]? = some e → l.items[i]? = some item →
    r.resolve item = ([], .ok { item with detail := some e.detail, documentation := some e.documentation })
  resolved : ∀ e ∈ entries, ∀ item : Item, Denotes item.data e.identifier →
    r.resolve item = ([], .ok { item with detail := some e.detail, documentation := some e.documentation })
  written : ∀ e ∈ entries, (Nat.toDigits 10 e.identifier.natAbs).length ≤ 4300 →
    Denotes (.text (decimal e.identifier)) e.identifier
  unknown : ∀ item : Item, (∀ e ∈ entries, ¬ Denotes item.data e.identifier) → r.resolve item = ([], .ok item)
  framed : ∀ item : Item, ∃ detail documentation, r.resolve item = ([], .ok { item with detail, documentation })
  settled : ∀ item filled : Item, r.resolve item = ([], .ok filled) → r.resolve filled = ([], .ok filled)

theorem catalogue_completes (hc : Catalogue.ofEntries entries = .ok c) :
    (standard (some c)).Completes entries := by
  have hentries : c.entries = entries := by
    obtain ⟨-, -, rfl⟩ := Catalogue.ofEntries_eq_ok_iff.mp hc
    rfl
  have hlisted : ∀ p, (standard (some c)).complete p = .ok { items := entries.map Completer.keywordItem } := by
    intro p
    rw [standard_complete, hentries]
  refine ⟨hlisted, ?_, ?_, ?_, ?_, ?_, ?_⟩
  · intro p l i e item hl hi hitem
    cases (hlisted p).symm.trans hl
    have hkeyword : item = Completer.keywordItem e := by
      rw [List.getElem?_map, hi] at hitem
      exact (Option.some.inj hitem).symm
    rw [standard_resolve, hkeyword, Completer.resolveKeyword_of_mem hc (List.mem_of_getElem? hi) (.int _)]
  · intro e he item hd
    rw [standard_resolve, Completer.resolveKeyword_of_mem hc he hd]
  · exact fun e _ hn => .text (numeral_decimal hn)
  · intro item hu
    rw [standard_resolve, Completer.resolveKeyword_of_unknown hc hu]
  · intro item
    obtain ⟨detail, documentation, h⟩ := Completer.resolveKeyword_frame c item
    exact ⟨detail, documentation, by rw [standard_resolve, h]⟩
  · intro item filled h
    rw [standard_resolve] at h ⊢
    cases h
    rw [Completer.resolveKeyword_idem]

/-- Two keywords, of which the second comes back with its identifier as a double, as a text in other
digits, and not at all. -/
theorem keyword_comes_back :
    let entries : List Entry := [⟨5, "F$CVSI", "lexical", "Signed bits."⟩, ⟨12, "SHOW", "command", "Shows."⟩]
    let c : Catalogue := ⟨entries, entries.map Catalogue.row⟩
    let r := standard (some c)
    let item : Item := { label := "SHOW", kind := some 1 }
    let filled : Item := { item with detail := some "command", documentation := some "Shows." }
    Catalogue.ofEntries entries = .ok c ∧
      r.resolve { item with data := .atom (.float (.finite false 3 2)) } =
        ([], .ok { filled with data := .atom (.float (.finite false 3 2)) }) ∧
      r.resolve { item with data := .text " +०1_2 " } = ([], .ok { filled with data := .text " +०1_2 " }) ∧
      r.resolve { item with data := .bool true } = ([], .ok { item with data := .bool true }) := by
  intro entries c r item filled
  have hc : Catalogue.ofEntries entries = .ok c :=
    Catalogue.ofEntries_eq_ok_iff.mpr ⟨by decide +kernel, by decide +kernel, rfl⟩
  have h := catalogue_completes hc
  refine ⟨hc, ?_, ?_, ?_⟩
  · exact h.resolved ⟨12, "SHOW", "command", "Shows."⟩ (by simp [entries]) _
      (.float (by norm_num [Double.value?]))
  · exact h.resolved ⟨12, "SHOW", "command", "Shows."⟩ (by simp [entries]) _
      (.text (ofText?_eq_some_iff.mp (by decide +kernel)))
  · refine h.unknown _ fun e _ hd => ?_
    cases hd

end Registry

end DclServer
