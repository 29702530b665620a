import Mathlib.Data.List.Forall2
import Mathlib.Data.List.Nodup
import DclServer.Proofs.Catalogue
import DclServer.Proofs.Catalogue.Reading

namespace DclServer.Catalogue

variable {family : Family} {detail : String} {item items block document : Value} {e : Entry} {entries : List Entry}

structure IsItem (item : Value) : Prop where
  identifier : ∃ n, item.field? "id" = some (.int n)
  label : ∃ v, item.field? "label" = some v
  documentation : ∃ v, item.field? "documentation" = some v

def AreItems (items : Value) : Prop :=
  items.truthy → ∃ vs, items = .list vs ∧ ∀ v ∈ vs, IsItem v

structure IsSection (block : Value) : Prop where
  detail : ∃ text, block.field? "detail" = some (.text text)
  items : ∀ v, block.field? "items" = some v → AreItems v

/-- A document is an object, if it is not empty. Each section is absent, empty or as it ought to be. -/
def WellFormed (document : Value) : Prop :=
  document.truthy → (∃ fields, document = .object fields) ∧
    ∀ (family : Family) block, document.field? family.name = some block → block.truthy → IsSection block

def itemsOf : Value → List Value
  | .list vs => vs
  | _ => []

def listedIn (block : Value) : List (String × Value) :=
  match block.field? "detail" with
  | some (.atom (.text detail)) => (itemsOf ((block.field? "items").getD .null)).map fun item => (detail, item)
  | _ => []

def listed (document : Value) (family : Family) : List (String × Value) :=
  match document.field? family.name with
  | some block => listedIn block
  | none => []

/-- The label and the documentation of an item can be written out. -/
def Legible (item : Value) : Prop :=
  ∀ key ∈ ["label", "documentation"], ∀ v, item.field? key = some v → v.writable

structure Describes (detail : String) (item : Value) (e : Entry) : Prop where
  identifier : item.field? "id" = some (.int e.identifier)
  label : ∃ v, item.field? "label" = some v ∧ e.label = v.display
  detail : e.detail = detail
  documentation : ∃ v, item.field? "documentation" = some v ∧ e.documentation = Text.strip v.display

/-- The entries that a document describes, one for each item, the lexicals first. -/
def EntriesOf (document : Value) (entries : List Entry) : Prop :=
  List.Forall₂ (fun p e => Describes p.1 p.2 e) (listed document .lexicals ++ listed document .commands) entries

def Distinct (entries : List Entry) : Prop :=
  (entries.map (·.identifier)).Nodup ∧ (entries.map (·.label)).Nodup

theorem Describes.unique {e' : Entry} (h : Describes detail item e) (h' : Describes detail item e') : e = e' := by
  obtain ⟨label, hl, hlabel⟩ := h.label
  obtain ⟨documentation, hd, hdocumentation⟩ := h.documentation
  obtain ⟨label', hl', hlabel'⟩ := h'.label
  obtain ⟨documentation', hd', hdocumentation'⟩ := h'.documentation
  cases hl.symm.trans hl'
  cases hd.symm.trans hd'
  have hid : e.identifier = e'.identifier := by simpa using h.identifier.symm.trans h'.identifier
  have hdetail : e.detail = e'.detail := h.detail.trans h'.detail.symm
  cases e
  cases e'
  simp_all

theorem EntriesOf.unique {entries' : List Entry} (h : EntriesOf document entries) (h' : EntriesOf document entries') :
    entries = entries' := by
  have hunique : Relator.RightUnique fun (p : String × Value) e => Describes p.1 p.2 e :=
    fun _ _ _ he he' => he.unique he'
  exact List.right_unique_forall₂' hunique h h'

theorem legible_iff {label documentation : Value} (hl : item.field? "label" = some label)
    (hd : item.field? "documentation" = some documentation) :
    Legible item ↔ label.writable ∧ documentation.writable := by
  simp [Legible, hl, hd]

theorem itemReading_offence : (itemReading family detail item).offence = none ↔ IsItem item ∧ Legible item := by
  constructor
  · intro h
    unfold itemReading at h
    split at h
    · rename_i identifier label documentation hi hl hd
      by_cases hn : ∃ n, identifier = .int n
      · obtain ⟨n, rfl⟩ := hn
        refine ⟨⟨⟨n, hi⟩, ⟨label, hl⟩, ⟨documentation, hd⟩⟩, (legible_iff hl hd).mpr ?_⟩
        simpa [Reading.offence] using h
      · rw [Reading.offence_of_not_int fun n he => hn ⟨n, he⟩] at h
        cases h
    · cases h
  · rintro ⟨hitem, hlegible⟩
    obtain ⟨n, hi⟩ := hitem.identifier
    obtain ⟨label, hl⟩ := hitem.label
    obtain ⟨documentation, hd⟩ := hitem.documentation
    obtain ⟨hlabel, hdocumentation⟩ := (legible_iff hl hd).mp hlegible
    rw [itemReading_eq_item hi hl hd]
    simp [Reading.offence, hlabel, hdocumentation]

theorem itemReading_entry (h : IsItem item) :
    ∃ e, (itemReading family detail item).gives = some e ∧ Describes detail item e := by
  obtain ⟨n, hi⟩ := h.identifier
  obtain ⟨label, hl⟩ := h.label
  obtain ⟨documentation, hd⟩ := h.documentation
  rw [itemReading_eq_item hi hl hd]
  exact ⟨_, rfl, hi, ⟨label, hl, rfl⟩, rfl, ⟨documentation, hd, rfl⟩⟩

theorem itemReadings_list (family : Family) (detail : String) (vs : List Value) :
    itemReadings family detail (.list vs) = .items family none :: vs.map (itemReading family detail) := rfl

theorem itemReadings_falsy (h : ¬ items.truthy) (family : Family) (detail : String) :
    itemReadings family detail items = [.items family none] := by
  rw [itemReadings, iterated_falsy h]
  rfl

theorem sound_map_itemReading {vs : List Value} : Sound (vs.map (itemReading family detail)) ↔
    (∀ v ∈ vs, IsItem v) ∧ ∀ v ∈ vs, Legible v := by
  simp only [Sound, List.forall_mem_map, itemReading_offence, forall_and]

/-- The members of what is no list, if it has any, are no objects. -/
theorem iterated_of_not_list (ht : items.truthy) (hl : ∀ vs, items ≠ .list vs) :
    (∃ kind, iterated items = .error kind) ∨ ∃ a rest, iterated items = .ok (.atom a :: rest) := by
  cases items with
  | list vs => exact absurd rfl (hl vs)
  | object fields =>
    cases fields with
    | nil => cases ht
    | cons f fs => exact .inr ⟨f.1, _, rfl⟩
  | atom a =>
    cases a with
    | text s =>
      cases hs : s.toList with
      | nil =>
        cases String.toList_eq_nil_iff.mp hs
        cases ht
      | cons c cs =>
        refine .inr ⟨.text (String.singleton c), cs.map fun c => .text (String.singleton c), ?_⟩
        exact congrArg (fun cs => Except.ok (cs.map fun c => Value.text (String.singleton c))) hs
    | null => cases ht
    | _ => exact .inl ⟨_, if_pos ht⟩

theorem not_sound_itemReadings (ht : items.truthy) (hl : ∀ vs, items ≠ .list vs) :
    ¬ Sound (itemReadings family detail items) := by
  intro h
  obtain ⟨kind, hm⟩ | ⟨a, rest, hm⟩ := iterated_of_not_list ht hl
  · rw [itemReadings, hm] at h
    cases h (.items family (some kind)) (by simp)
  · rw [itemReadings, hm] at h
    cases h (.stray family (.atom a)) (by simp [itemReading, Value.field?])

theorem itemsOf_falsy (h : ¬ items.truthy) : itemsOf items = [] := by
  cases items with
  | list vs =>
    cases vs with
    | nil => rfl
    | cons v vs => exact absurd rfl h
  | _ => rfl

theorem sound_itemReadings : Sound (itemReadings family detail items) ↔
    AreItems items ∧ ∀ v ∈ itemsOf items, Legible v := by
  by_cases ht : items.truthy
  · by_cases hl : ∃ vs, items = .list vs
    · obtain ⟨vs, rfl⟩ := hl
      rw [itemReadings_list, sound_cons, sound_map_itemReading]
      simp [AreItems, itemsOf, ht, Reading.offence]
    · have hnot : ¬ Sound (itemReadings family detail items) := not_sound_itemReadings ht fun vs he => hl ⟨vs, he⟩
      have hare : ¬ AreItems items := fun h => hl ((h ht).imp fun _ hv => hv.1)
      simp [hnot, hare]
  · rw [itemReadings_falsy ht, itemsOf_falsy ht]
    simp [Sound, AreItems, ht, Reading.offence]

theorem areItems_getD {v : Option Value} : AreItems (v.getD .null) ↔ ∀ items, v = some items → AreItems items := by
  cases v with
  | none => simp [AreItems, Value.truthy, Scalar.truthy]
  | some items => simp

theorem sound_detailReadings : Sound (detailReadings family block) ↔
    IsSection block ∧ ∀ p ∈ listedIn block, Legible p.2 := by
  by_cases hd : ∃ text, block.field? "detail" = some (.text text)
  · obtain ⟨text, hd⟩ := hd
    have hsection : IsSection block ↔ AreItems ((block.field? "items").getD .null) :=
      ⟨fun h => areItems_getD.mpr h.items, fun h => ⟨⟨text, hd⟩, areItems_getD.mp h⟩⟩
    have hlisted : listedIn block = (itemsOf ((block.field? "items").getD .null)).map fun v => (text, v) := by
      rw [listedIn, hd]
    rw [detailReadings_of_text hd, sound_cons, sound_itemReadings, hsection, hlisted, List.forall_mem_map]
    simp [Reading.offence]
  · have hsection : ¬ IsSection block := fun h => hd h.detail
    rw [detailReadings_of_no_text fun text ht => hd ⟨text, ht⟩]
    simp [Sound, hsection, Reading.offence]

theorem IsSection.object (h : IsSection block) : ∃ fields, block = .object fields := by
  obtain ⟨text, hd⟩ := h.detail
  cases block with
  | object fields => exact ⟨fields, rfl⟩
  | _ => cases hd

theorem sound_sectionReadings : Sound (sectionReadings family block) ↔
    IsSection block ∧ ∀ p ∈ listedIn block, Legible p.2 := by
  by_cases hb : ∃ fields, block = .object fields
  · obtain ⟨fields, rfl⟩ := hb
    rw [sectionReadings, sound_cons, sound_detailReadings]
    simp [Reading.offence]
  · have hsection : ¬ IsSection block := fun h => hb h.object
    have hreadings : sectionReadings family block = [.block family (some block.kindName)] := by
      cases block with
      | object fields => exact absurd ⟨fields, rfl⟩ hb
      | _ => rfl
    simp [hreadings, hsection, Sound, Reading.offence]

theorem field?_falsy {v : Value} (h : ¬ v.truthy) (key : String) : v.field? key = none := by
  cases v with
  | object fields =>
    cases fields with
    | nil => rfl
    | cons f fs => exact absurd rfl h
  | _ => rfl

theorem listedIn_falsy (h : ¬ block.truthy) : listedIn block = [] := by
  rw [listedIn, field?_falsy h]

theorem sound_familyReadings : Sound (familyReadings document family) ↔
    (∀ block, document.field? family.name = some block → block.truthy → IsSection block) ∧
      ∀ p ∈ listed document family, Legible p.2 := by
  unfold familyReadings listed
  cases document.field? family.name with
  | none => simp [Sound]
  | some block =>
    by_cases hb : block.truthy
    · simp only [hb, if_true, sound_sectionReadings]
      simp [hb]
    · simp [Sound, hb, listedIn_falsy hb]

def Writable (document : Value) : Prop :=
  ∀ (family : Family), ∀ p ∈ listed document family, Legible p.2

theorem forall_family {P : Family → Prop} : (∀ family, P family) ↔ P .lexicals ∧ P .commands := by
  refine ⟨fun h => ⟨h _, h _⟩, fun h family => ?_⟩
  cases family with
  | lexicals => exact h.1
  | commands => exact h.2

theorem listed_falsy (h : ¬ document.truthy) (family : Family) : listed document family = [] := by
  rw [listed, field?_falsy h]

/-- A document has no offence in it exactly if it is well-formed and can be written out. -/
theorem sound_readings : Sound (readings document) ↔ WellFormed document ∧ Writable document := by
  by_cases hd : document.truthy
  · unfold readings WellFormed Writable
    simp only [hd, if_true, forall_const]
    cases document with
    | object fields =>
      rw [sound_cons, sound_append, sound_familyReadings, sound_familyReadings, forall_family, forall_family]
      simp only [Reading.offence, Option.map_none, true_and, Value.object.injEq, exists_eq']
      exact and_and_and_comm
    | _ => simp [Sound, Reading.offence]
  · have hwritable : Writable document := fun family => by simp [listed_falsy hd]
    simp [readings_falsy hd, hwritable, Sound, WellFormed, hd]

theorem describes_map_itemReading {vs : List Value} (h : ∀ v ∈ vs, IsItem v) :
    List.Forall₂ (Describes detail) vs ((vs.map (itemReading family detail)).filterMap Reading.gives) := by
  induction vs with
  | nil => exact .nil
  | cons v vs ih =>
    obtain ⟨e, he, hdescribes⟩ := itemReading_entry (h v (by simp))
    rw [List.map_cons, List.filterMap_cons_some he]
    exact .cons hdescribes (ih fun w hw => h w (by simp [hw]))

theorem describes_itemReadings (h : AreItems items) :
    List.Forall₂ (Describes detail) (itemsOf items) ((itemReadings family detail items).filterMap Reading.gives) := by
  by_cases ht : items.truthy
  · obtain ⟨vs, rfl, hv⟩ := h ht
    rw [itemReadings_list]
    exact describes_map_itemReading hv
  · rw [itemReadings_falsy ht, itemsOf_falsy ht]
    exact .nil

theorem describes_sectionReadings (h : IsSection block) :
    List.Forall₂ (fun p e => Describes p.1 p.2 e) (listedIn block)
      ((sectionReadings family block).filterMap Reading.gives) := by
  obtain ⟨text, hd⟩ := h.detail
  obtain ⟨fields, rfl⟩ := h.object
  rw [sectionReadings, detailReadings_of_text hd, listedIn, hd, List.forall₂_map_left_iff]
  exact describes_itemReadings (areItems_getD.mpr h.items)

theorem describes_familyReadings
    (h : ∀ block, document.field? family.name = some block → block.truthy → IsSection block) :
    List.Forall₂ (fun p e => Describes p.1 p.2 e) (listed document family)
      ((familyReadings document family).filterMap Reading.gives) := by
  unfold familyReadings listed
  cases hf : document.field? family.name with
  | none => exact .nil
  | some block =>
    by_cases hb : block.truthy
    · simp only [hb, if_true]
      exact describes_sectionReadings (h block hf hb)
    · simp [hb, listedIn_falsy hb]

theorem describes_readings (h : WellFormed document) :
    EntriesOf document ((readings document).filterMap Reading.gives) := by
  unfold EntriesOf
  by_cases hd : document.truthy
  · obtain ⟨⟨fields, rfl⟩, hsections⟩ := h hd
    have hreadings : readings (.object fields) = .document none ::
        (familyReadings (.object fields) .lexicals ++ familyReadings (.object fields) .commands) := if_pos hd
    rw [hreadings, List.filterMap_cons_none rfl, List.filterMap_append]
    exact List.rel_append (describes_familyReadings (hsections .lexicals)) (describes_familyReadings (hsections .commands))
  · rw [listed_falsy hd, listed_falsy hd, readings_falsy hd]
    exact .nil

theorem readEntries_eq_ok_iff : readEntries document = .ok entries ↔
    WellFormed document ∧ Writable document ∧ EntriesOf document entries := by
  rw [← verdict_readings, verdict_eq_ok_iff, sound_readings, and_assoc]
  refine and_congr_right fun hw => and_congr_right fun _ => ?_
  have hdescribes := describes_readings hw
  exact ⟨fun h => h ▸ hdescribes, fun h => h.unique hdescribes⟩

theorem ofValue_eq_ok_iff {c : Catalogue} : ofValue document = .ok c ↔
    (WellFormed document ∧ Writable document ∧ EntriesOf document c.entries) ∧ Distinct c.entries ∧
      c.table = c.entries.map row := by
  rw [← readEntries_eq_ok_iff, ofValue]
  cases hread : readEntries document with
  | error e => simp [bind, Except.bind]
  | ok entries =>
    have hbind : (Except.ok entries >>= ofEntries) = ofEntries entries := rfl
    rw [hbind, ofEntries_eq_ok_iff, Except.ok.injEq]
    constructor
    · rintro ⟨hi, hl, rfl⟩
      exact ⟨rfl, ⟨hi, hl⟩, rfl⟩
    · rintro ⟨rfl, ⟨hi, hl⟩, htable⟩
      exact ⟨hi, hl, by rw [← htable]⟩

theorem readEntries_object (fields : List (Scalar × Value)) : readEntries (.object fields) = do
    let lexicals ← readFamily (.object fields) .lexicals
    let commands ← readFamily (.object fields) .commands
    return lexicals ++ commands := by
  cases fields <;> rfl

theorem ofValue_congr {fields fields' : List (Scalar × Value)}
    (h : ∀ family : Family, (Value.object fields).field? family.name = (Value.object fields').field? family.name) :
    ofValue (.object fields) = ofValue (.object fields') := by
  have hfamily (family : Family) : readFamily (.object fields) family = readFamily (.object fields') family := by
    rw [readFamily, readFamily, h]
  rw [ofValue, ofValue, readEntries_object, readEntries_object, hfamily, hfamily]

/-- A document is accepted exactly if it is well-formed, its labels and documentations can be written out, and
the entries it describes differ in identifiers and in labels. The catalogue has these entries, wherever the
sections stand in the document and whatever stands beside them. -/
theorem ofValue_accepts (document : Value) :
    ((∃ c, ofValue document = .ok c) ↔
      WellFormed document ∧ Writable document ∧ ∃ entries, EntriesOf document entries ∧ Distinct entries) ∧
      (∀ c, ofValue document = .ok c → EntriesOf document c.entries) ∧
      ∀ fields fields', document = .object fields →
        (∀ family : Family, document.field? family.name = (Value.object fields').field? family.name) →
        ofValue document = ofValue (.object fields') := by
  refine ⟨⟨?_, ?_⟩, fun c hc => (ofValue_eq_ok_iff.mp hc).1.2.2, ?_⟩
  · rintro ⟨c, hc⟩
    obtain ⟨⟨hw, hwritable, hentries⟩, hdistinct, -⟩ := ofValue_eq_ok_iff.mp hc
    exact ⟨hw, hwritable, c.entries, hentries, hdistinct⟩
  · rintro ⟨hw, hwritable, entries, hentries, hdistinct⟩
    exact ⟨⟨entries, entries.map row⟩, ofValue_eq_ok_iff.mpr ⟨⟨hw, hwritable, hentries⟩, hdistinct, rfl⟩⟩
  · rintro fields fields' rfl h
    exact ofValue_congr h

def labelled (label : Value) : Value :=
  .ofFields [("lexicals", .ofFields [("detail", .text "Lexical"),
    ("items", .list [.ofFields [("id", .int 1), ("label", label), ("documentation", .text "long")]])])]

theorem ofValue_labelled {label : Value} (h : ¬ label.writable) : ofValue (labelled label) = .error .numberTooLong := by
  have hreadings : readings (labelled label) = [.document none, .block .lexicals none,
      .detail .lexicals (some "Lexical"), .items .lexicals none,
      .item .lexicals "Lexical" (.int 1) label (.text "long")] := rfl
  have ho : (Reading.item .lexicals "Lexical" (.int 1) label (.text "long")).offence = some .numberTooLong := by
    simp [Reading.offence, h]
  rw [ofValue, ← verdict_readings, hreadings, verdict_cons rfl rfl, verdict_cons rfl rfl, verdict_cons rfl rfl,
    verdict_cons rfl rfl, verdict_of_offence ho]
  rfl

theorem wellFormed_labelled (label : Value) : WellFormed (labelled label) := by
  intro _
  refine ⟨⟨_, rfl⟩, fun family block hblock _ => ?_⟩
  cases family with
  | lexicals =>
    cases hblock
    refine ⟨⟨"Lexical", rfl⟩, fun items hitems _ => ?_⟩
    cases hitems
    refine ⟨_, rfl, fun item hitem => ?_⟩
    cases List.mem_singleton.mp hitem
    exact ⟨⟨1, rfl⟩, ⟨label, rfl⟩, ⟨.text "long", rfl⟩⟩
  | commands => cases hblock

theorem entriesOf_labelled (label : Value) :
    EntriesOf (labelled label) [⟨1, label.display, "Lexical", Text.strip "long"⟩] :=
  .cons ⟨rfl, ⟨label, rfl, rfl⟩, rfl, ⟨.text "long", rfl, rfl⟩⟩ .nil

/-- A label that is a number of 4302 digits is refused, although nothing else is wrong with the document. -/
theorem long_label_is_refused :
    let document := labelled (.int (Int.ofNat (Nat.pow 16 3572)))
    (WellFormed document ∧ ∃ entries, EntriesOf document entries ∧ Distinct entries) ∧
      ofValue document = .error .numberTooLong := by
  intro document
  have hlong : ¬ (Value.int (Int.ofNat (Nat.pow 16 3572))).writable := by
    rw [Value.writable, Scalar.writable, decide_eq_true_iff]
    decide +kernel
  have hdistinct : Distinct [⟨1, (Value.int (Int.ofNat (Nat.pow 16 3572))).display, "Lexical", Text.strip "long"⟩] :=
    ⟨List.nodup_singleton _, List.nodup_singleton _⟩
  exact ⟨⟨wellFormed_labelled _, _, entriesOf_labelled _, hdistinct⟩, ofValue_labelled hlong⟩

end DclServer.Catalogue
