import DclServer.Catalogue.Document

namespace DclServer.Catalogue

variable {family : Family} {detail : String} {item block : Value}

/-- What one look at a document tells: the kind of the document, of a section or of the items of a section
if it is the wrong one, the detail of a section if it is a text, the three fields of an item, or an item that
has not got all of them. -/
inductive Reading where
  | document (misfit : Option String)
  | block (family : Family) (misfit : Option String)
  | detail (family : Family) (text : Option String)
  | items (family : Family) (misfit : Option String)
  | item (family : Family) (detail : String) (identifier label documentation : Value)
  | stray (family : Family) (item : Value)

namespace Reading

def offence : Reading → Option CatalogueError
  | .document misfit => misfit.map .notAnObject
  | .block _ misfit => misfit.map .notAnObject
  | .detail family text => if text.isSome then none else some (.noDetail family)
  | .items _ misfit => misfit.map .itemsNotIterable
  | .item _ _ (.atom (.int _)) label documentation =>
    if label.writable && documentation.writable then none else some .numberTooLong
  | .item _ _ _ label _ => some (if label.writable then .identifierNotInteger label.display else .numberTooLong)
  | .stray family v => some (if v.writable then .malformedItem family v else .numberTooLong)

def tooLong : String × String :=
  ("ValueError", "Exceeds the limit (4300 digits) for integer string conversion; " ++
    "use sys.set_int_max_str_digits() to increase the limit")

/-- The class and the message that are reported of what was read. -/
def wording : Reading → Option (String × String)
  | .document misfit => misfit.map fun kind => ("AttributeError", "'" ++ kind ++ "' object has no attribute 'get'")
  | .block _ misfit => misfit.map fun kind => ("AttributeError", "'" ++ kind ++ "' object has no attribute 'get'")
  | .detail family none => some ("CatalogueError", "Family '" ++ family.name ++ "' has no detail string")
  | .detail _ (some _) => none
  | .items _ misfit => misfit.map fun kind => ("TypeError", "'" ++ kind ++ "' object is not iterable")
  | .item _ _ (.atom (.int _)) label documentation =>
    if label.writable && documentation.writable then none else some tooLong
  | .item _ _ _ label _ =>
    some (if label.writable then ("CatalogueError", "Identifier for '" ++ label.display ++ "' is not an integer")
      else tooLong)
  | .stray family v =>
    some (if v.writable then ("CatalogueError", "Malformed item in family '" ++ family.name ++ "': " ++ v.literal)
      else tooLong)

theorem offence_of_not_int {identifier : Value} (h : ∀ n, identifier ≠ .int n) (family : Family) (text : String)
    (label documentation : Value) : (Reading.item family text identifier label documentation).offence =
      some (if label.writable then .identifierNotInteger label.display else .numberTooLong) := by
  unfold offence
  split
  all_goals simp_all

theorem wording_of_not_int {identifier : Value} (h : ∀ n, identifier ≠ .int n) (family : Family) (text : String)
    (label documentation : Value) : (Reading.item family text identifier label documentation).wording =
      some (if label.writable then ("CatalogueError", "Identifier for '" ++ label.display ++ "' is not an integer")
        else tooLong) := by
  unfold wording
  split
  all_goals simp_all

def gives : Reading → Option Entry
  | .item _ text (.atom (.int n)) label documentation =>
    some ⟨n, label.display, text, Text.strip documentation.display⟩
  | _ => none

end Reading

def itemReading (family : Family) (detail : String) (item : Value) : Reading :=
  match item.field? "id", item.field? "label", item.field? "documentation" with
  | some identifier, some label, some documentation => .item family detail identifier label documentation
  | _, _, _ => .stray family item

def iterated : Value → Except String (List Value)
  | .list vs => .ok vs
  | .object fields => .ok (fields.map fun f => .atom f.1)
  | .atom (.text s) => .ok (s.toList.map fun c => .text (String.singleton c))
  | .atom a => if a.truthy then .error (Value.atom a).kindName else .ok []

def itemReadings (family : Family) (detail : String) (items : Value) : List Reading :=
  match iterated items with
  | .ok items => .items family none :: items.map (itemReading family detail)
  | .error kind => [.items family (some kind)]

def detailReadings (family : Family) (block : Value) : List Reading :=
  match block.field? "detail" with
  | some (.atom (.text detail)) =>
    .detail family (some detail) :: itemReadings family detail ((block.field? "items").getD .null)
  | _ => [.detail family none]

def sectionReadings (family : Family) (block : Value) : List Reading :=
  match block with
  | .object _ => .block family none :: detailReadings family block
  | _ => [.block family (some block.kindName)]

def familyReadings (document : Value) (family : Family) : List Reading :=
  match document.field? family.name with
  | some block => if block.truthy then sectionReadings family block else []
  | none => []

/-- All that there is to be read in a document, in the order of reading. -/
def readings (document : Value) : List Reading :=
  if document.truthy then
    match document with
    | .object _ => .document none :: (familyReadings document .lexicals ++ familyReadings document .commands)
    | _ => [.document (some document.kindName)]
  else []

/-- The first offence among readings, or else the entries in them. -/
def verdict (rs : List Reading) : Except CatalogueError (List Entry) :=
  match rs.findSome? Reading.offence with
  | some e => .error e
  | none => .ok (rs.filterMap Reading.gives)

theorem verdict_append (rs ss : List Reading) :
    verdict (rs ++ ss) = do
      let es ← verdict rs
      let fs ← verdict ss
      return es ++ fs := by
  rw [verdict, List.findSome?_append, List.filterMap_append, verdict, verdict]
  cases rs.findSome? Reading.offence with
  | some e => rfl
  | none => cases ss.findSome? Reading.offence <;> rfl

theorem verdict_cons {r : Reading} (ho : r.offence = none) (he : r.gives = none) (rs : List Reading) :
    verdict (r :: rs) = verdict rs := by
  rw [verdict, List.findSome?_cons_of_isNone (by rw [ho]; rfl), List.filterMap_cons_none he]
  rfl

theorem verdict_of_offence {r : Reading} {e : CatalogueError} (ho : r.offence = some e) (rs : List Reading) :
    verdict (r :: rs) = .error e := by
  rw [verdict, List.findSome?_cons, ho]

theorem itemReading_eq_item {identifier label documentation : Value} (hi : item.field? "id" = some identifier)
    (hl : item.field? "label" = some label) (hd : item.field? "documentation" = some documentation) :
    itemReading family detail item = .item family detail identifier label documentation := by
  rw [itemReading, hi, hl, hd]

theorem shown_of_writable {v : Value} (h : v.writable) : shown v = .ok v.display := if_pos h

theorem shown_of_not_writable {v : Value} (h : ¬ v.writable) : shown v = .error .numberTooLong := if_neg h

theorem itemReading_eq_stray (h : ∀ identifier label documentation, item.field? "id" = some identifier →
    item.field? "label" = some label → item.field? "documentation" = some documentation → False) :
    itemReading family detail item = .stray family item := by
  unfold itemReading
  split
  · rename_i hi hl hd
    exact (h _ _ _ hi hl hd).elim
  · rfl

theorem verdict_numbered (n : Int) (label documentation : Value) :
    verdict [.item family detail (.int n) label documentation] = do
      let label ← shown label
      let documentation ← shown documentation
      return [⟨n, label, detail, Text.strip documentation⟩] := by
  have ho : (Reading.item family detail (.int n) label documentation).offence =
      if label.writable && documentation.writable then none else some .numberTooLong := rfl
  by_cases hlabel : label.writable
  · by_cases hdoc : documentation.writable
    · rw [verdict, List.findSome?_cons, ho, shown_of_writable hlabel, shown_of_writable hdoc, hlabel, hdoc]
      rfl
    · rw [if_neg (by simp [hdoc])] at ho
      rw [verdict_of_offence ho, shown_of_writable hlabel, shown_of_not_writable hdoc]
      rfl
  · rw [if_neg (by simp [hlabel])] at ho
    rw [verdict_of_offence ho, shown_of_not_writable hlabel]
    rfl

theorem verdict_itemReading (family : Family) (detail : String) (item : Value) :
    verdict [itemReading family detail item] = (readItem family detail item).map fun e => [e] := by
  unfold readItem
  split
  · rename_i n label documentation hi hl hd
    rw [itemReading_eq_item hi hl hd, verdict_numbered]
    cases shown label with
    | error e => rfl
    | ok text => cases shown documentation <;> rfl
  · rename_i identifier label documentation hn hi hl hd
    rw [itemReading_eq_item hi hl hd, verdict_of_offence (Reading.offence_of_not_int hn family detail label _)]
    by_cases hlabel : label.writable
    · rw [if_pos hlabel, shown_of_writable hlabel]
      rfl
    · rw [if_neg hlabel, shown_of_not_writable hlabel]
      rfl
  · rename_i hs
    rw [itemReading_eq_stray hs, verdict_of_offence rfl]
    rfl

theorem verdict_map_itemReading (family : Family) (detail : String) (items : List Value) :
    verdict (items.map (itemReading family detail)) = items.mapM (readItem family detail) := by
  induction items with
  | nil => rfl
  | cons item items ih =>
    have hcons := verdict_append [itemReading family detail item] (items.map (itemReading family detail))
    rw [List.singleton_append, ih, verdict_itemReading] at hcons
    rw [List.map_cons, hcons, List.mapM_cons]
    cases readItem family detail item <;> rfl

theorem iterated_falsy {items : Value} (h : ¬ items.truthy) : iterated items = .ok [] := by
  cases items with
  | list vs => cases vs <;> simp_all [Value.truthy, iterated]
  | object fields => cases fields <;> simp_all [Value.truthy, iterated]
  | atom a => cases a <;> simp_all [Value.truthy, Scalar.truthy, iterated]

theorem members_of_truthy {items : Value} (ht : items.truthy) :
    members items = (iterated items).mapError .itemsNotIterable := by
  unfold members
  rw [if_pos ht]
  cases items with
  | atom a =>
    have ha : a.truthy = true := ht
    cases a with
    | text s => rfl
    | _ =>
      rw [iterated, if_pos ha]
      · rfl
      · exact fun s hs => by cases hs
  | _ => rfl

theorem members_eq_iterated (items : Value) : members items = (iterated items).mapError .itemsNotIterable := by
  by_cases ht : items.truthy
  · exact members_of_truthy ht
  · unfold members
    rw [if_neg ht, iterated_falsy ht]
    rfl

theorem verdict_itemReadings (family : Family) (detail : String) (items : Value) :
    verdict (itemReadings family detail items) = members items >>= List.mapM (readItem family detail) := by
  rw [members_eq_iterated]
  unfold itemReadings
  cases iterated items with
  | ok vs =>
    rw [verdict_cons rfl rfl, verdict_map_itemReading]
    rfl
  | error kind =>
    rw [verdict_of_offence (e := .itemsNotIterable kind) rfl]
    rfl

theorem detailReadings_of_text {text : String} (hd : block.field? "detail" = some (.text text)) :
    detailReadings family block =
      .detail family (some text) :: itemReadings family text ((block.field? "items").getD .null) := by
  rw [detailReadings, hd]

theorem detailReadings_of_no_text (hd : ∀ text, block.field? "detail" ≠ some (.text text)) :
    detailReadings family block = [.detail family none] := by
  unfold detailReadings
  split
  · rename_i text ht
    exact absurd ht (hd text)
  · rfl

theorem readSection_of_no_text {fields : List (Scalar × Value)}
    (hd : ∀ text, (Value.object fields).field? "detail" ≠ some (.text text)) :
    readSection family (.object fields) = .error (.noDetail family) := by
  unfold readSection
  dsimp only
  split
  · rename_i text ht
    exact absurd ht (hd text)
  · rfl

theorem verdict_detailReadings (family : Family) (fields : List (Scalar × Value)) :
    verdict (detailReadings family (.object fields)) = readSection family (.object fields) := by
  by_cases hd : ∃ text, (Value.object fields).field? "detail" = some (.text text)
  · obtain ⟨text, hd⟩ := hd
    rw [detailReadings_of_text hd, verdict_cons rfl rfl, verdict_itemReadings]
    simp only [readSection, hd]
  · have hno : ∀ text, (Value.object fields).field? "detail" ≠ some (.text text) := fun text ht => hd ⟨text, ht⟩
    rw [detailReadings_of_no_text hno, readSection_of_no_text hno]
    exact verdict_of_offence rfl []

theorem verdict_sectionReadings (family : Family) (block : Value) :
    verdict (sectionReadings family block) = readSection family block := by
  cases block with
  | object fields => rw [sectionReadings, verdict_cons rfl rfl, verdict_detailReadings]
  | _ => exact verdict_of_offence (r := .block family (some _)) rfl []

theorem verdict_familyReadings (document : Value) (family : Family) :
    verdict (familyReadings document family) = readFamily document family := by
  unfold familyReadings readFamily
  cases document.field? family.name with
  | none => rfl
  | some block =>
    by_cases hb : block.truthy
    · simp only [hb, if_true, verdict_sectionReadings]
    · simp only [hb]
      rfl

theorem readings_falsy {document : Value} (h : ¬ document.truthy) : readings document = [] := if_neg h

theorem verdict_readings (document : Value) : verdict (readings document) = readEntries document := by
  unfold readings readEntries
  by_cases hd : document.truthy
  · simp only [hd, if_true]
    cases document with
    | object fields => rw [verdict_cons rfl rfl, verdict_append, verdict_familyReadings, verdict_familyReadings]
    | _ => exact verdict_of_offence (r := .document (some _)) rfl []
  · simp only [hd]
    rfl

def Sound (rs : List Reading) : Prop := ∀ r ∈ rs, r.offence = none

theorem sound_cons {r : Reading} {rs : List Reading} : Sound (r :: rs) ↔ r.offence = none ∧ Sound rs :=
  List.forall_mem_cons

theorem sound_append {rs ss : List Reading} : Sound (rs ++ ss) ↔ Sound rs ∧ Sound ss :=
  List.forall_mem_append

theorem verdict_eq_ok_iff {rs : List Reading} {entries : List Entry} :
    verdict rs = .ok entries ↔ Sound rs ∧ entries = rs.filterMap Reading.gives := by
  unfold verdict
  split
  · rename_i e he
    have hoffended : ¬ Sound rs := fun hs => by
      rw [List.findSome?_eq_none_iff.mpr hs] at he
      cases he
    simp [hoffended]
  · rename_i hn
    have hs : Sound rs := List.findSome?_eq_none_iff.mp hn
    simp [hs, eq_comm]

end DclServer.Catalogue
