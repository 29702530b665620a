import DclServer.Proofs.Catalogue.Acceptance
import DclServer.Proofs.Catalogue.Construction

namespace DclServer

def CatalogueError.isDuplicate : CatalogueError → Bool
  | .duplicateIdentifier _ => true
  | .duplicateLabel _ => true
  | _ => false

namespace Catalogue

variable {document : Value} {entries : List Entry} {e : CatalogueError} {r : Reading} {rs ahead behind : List Reading}

theorem reported_of_offence (ho : r.offence = some e) :
    r.wording = some (e.kind, e.message) ∧ e.isDuplicate = false := by
  cases r with
  | document misfit => cases misfit <;> cases ho; exact ⟨rfl, rfl⟩
  | block family misfit => cases misfit <;> cases ho; exact ⟨rfl, rfl⟩
  | detail family text => cases text <;> cases ho; exact ⟨rfl, rfl⟩
  | items family misfit => cases misfit <;> cases ho; exact ⟨rfl, rfl⟩
  | stray family v =>
    cases ho
    rw [Reading.wording]
    split <;> exact ⟨rfl, rfl⟩
  | item family detail identifier label documentation =>
    by_cases hn : ∃ n, identifier = .int n
    · obtain ⟨n, rfl⟩ := hn
      simp only [Reading.offence] at ho
      simp only [Reading.wording]
      split at ho <;> cases ho
      rename_i hlong
      rw [if_neg hlong]
      exact ⟨rfl, rfl⟩
    · have hnot : ∀ n, identifier ≠ .int n := fun n he => hn ⟨n, he⟩
      rw [Reading.offence_of_not_int hnot] at ho
      rw [Reading.wording_of_not_int hnot]
      cases ho
      split <;> exact ⟨rfl, rfl⟩

theorem ofValue_eq_verdict (document : Value) : ofValue document = verdict (readings document) >>= ofEntries := by
  rw [verdict_readings]
  rfl

theorem verdict_eq_error_iff : verdict rs = .error e ↔
    ∃ ahead r behind, rs = ahead ++ r :: behind ∧ r.offence = some e ∧ Sound ahead := by
  have hfirst : rs.findSome? Reading.offence = some e ↔
      ∃ ahead r behind, rs = ahead ++ r :: behind ∧ r.offence = some e ∧ Sound ahead := List.findSome?_eq_some_iff
  rw [← hfirst, verdict]
  cases rs.findSome? Reading.offence <;> simp

theorem ofValue_of_offence (h : readings document = ahead ++ r :: behind) (hs : Sound ahead)
    (ho : r.offence = some e) : ofValue document = .error e := by
  have hverdict : verdict (readings document) = .error e := verdict_eq_error_iff.mpr ⟨ahead, r, behind, h, ho, hs⟩
  rw [ofValue_eq_verdict, hverdict]
  rfl

theorem ofValue_of_sound (hs : Sound (readings document)) :
    ofValue document = ofEntries ((readings document).filterMap Reading.gives) := by
  have hverdict : verdict (readings document) = .ok ((readings document).filterMap Reading.gives) :=
    verdict_eq_ok_iff.mpr ⟨hs, rfl⟩
  rw [ofValue_eq_verdict, hverdict]
  rfl

theorem sound_of_isDuplicate (h : ofValue document = .error e) (hd : e.isDuplicate) : Sound (readings document) := by
  by_contra hs
  cases hv : verdict (readings document) with
  | ok entries => exact hs (verdict_eq_ok_iff.mp hv).1
  | error e' =>
    obtain ⟨ahead, r, behind, hsplit, ho, hahead⟩ := verdict_eq_error_iff.mp hv
    cases h.symm.trans (ofValue_of_offence hsplit hahead ho)
    rw [(reported_of_offence ho).2] at hd
    cases hd

theorem ofValue_of_entriesOf (hs : Sound (readings document)) (hentries : EntriesOf document entries) :
    ofValue document = ofEntries entries := by
  have hdescribes := describes_readings (sound_readings.mp hs).1
  rw [ofValue_of_sound hs, hentries.unique hdescribes]

/-- What is reported of a document, if it is refused. -/
structure ReportsFirst (document : Value) : Prop where
  /-- The first offence, as in every other document that reads alike up to it. -/
  offence : ∀ ahead r behind e, readings document = ahead ++ r :: behind → Sound ahead → r.offence = some e →
    ofValue document = .error e ∧ r.wording = some (e.kind, e.message) ∧
      ∀ other behind', readings other = ahead ++ r :: behind' → ofValue other = .error e
  sound : Sound (readings document) ↔ WellFormed document ∧ Writable document
  described : Sound (readings document) → ∃ entries, EntriesOf document entries
  /-- Without an offence a document is refused exactly if an identifier or a label is repeated. -/
  refused : Sound (readings document) → ∀ entries, EntriesOf document entries →
    ((∃ e, ofValue document = .error e) ↔
      ∃ i, Repeats (·.identifier) entries i ∨ Repeats (·.label) entries i)
  /-- The first entry that repeats one is reported, by its identifier if that is repeated. -/
  identifier : Sound (readings document) → ∀ entries i e, EntriesOf document entries → FirstRepeat entries i →
    entries[i]? = some e → Repeats (·.identifier) entries i → ofValue document = .error
      (if (Nat.toDigits 10 e.identifier.natAbs).length ≤ 4300 then .duplicateIdentifier e.identifier
      else .numberTooLong)
  label : Sound (readings document) → ∀ entries i e, EntriesOf document entries → FirstRepeat entries i →
    entries[i]? = some e → ¬ Repeats (·.identifier) entries i → ofValue document = .error (.duplicateLabel e.label)
  named : ∀ e : Entry,
    (CatalogueError.duplicateIdentifier e.identifier).kind = "CatalogueError" ∧
      (CatalogueError.duplicateIdentifier e.identifier).message =
        "Duplicate catalogue identifier: " ++ decimal e.identifier ∧
      (CatalogueError.duplicateLabel e.label).kind = "CatalogueError" ∧
      (CatalogueError.duplicateLabel e.label).message = "Duplicate catalogue label: " ++ e.label
  alike : ∀ other, readings other = readings document → ofValue other = ofValue document
  wellFormed : ∀ e, ofValue document = .error e → e.isDuplicate → WellFormed document

theorem first_offence_decides (document : Value) : ReportsFirst document where
  offence ahead r behind e h hs ho :=
    ⟨ofValue_of_offence h hs ho, (reported_of_offence ho).1, fun other behind' h' => ofValue_of_offence h' hs ho⟩
  sound := sound_readings
  described hs := ⟨_, describes_readings (sound_readings.mp hs).1⟩
  refused hs entries hentries := by
    rw [ofValue_of_entriesOf hs hentries]
    exact refused_iff
  identifier hs entries i e hentries hfirst he hid := by
    rw [ofValue_of_entriesOf hs hentries]
    exact hfirst.ofEntries_identifier he hid
  label hs entries i e hentries hfirst he hid := by
    rw [ofValue_of_entriesOf hs hentries]
    exact hfirst.ofEntries_label he hid
  named e := ⟨rfl, rfl, rfl, rfl⟩
  alike other h := by rw [ofValue_eq_verdict, h, ← ofValue_eq_verdict]
  wellFormed e he hd := (sound_readings.mp (sound_of_isDuplicate he hd)).1

/-- The second item has no number for an identifier. What follows it, a repeated item among it, and the other
section do not matter. -/
example :
    let good : Value := .ofFields [("id", .int 1), ("label", .text "a"), ("documentation", .text "")]
    let bad : Value := .ofFields [("id", .text "2"), ("label", .text "b"), ("documentation", .text "")]
    let lexicals (items : List Value) : Value := .ofFields [("detail", .text "Lexical"), ("items", .list items)]
    ofValue (.ofFields [("lexicals", lexicals [good, bad])]) = .error (.identifierNotInteger "b") ∧
      ofValue (.ofFields [("commands", .int 3), ("lexicals", lexicals [good, bad, good, .null])]) =
        .error (.identifierNotInteger "b") := ⟨rfl, rfl⟩

end Catalogue

end DclServer
