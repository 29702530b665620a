import Mathlib.Data.List.Infix
import DclServer.Negotiation

namespace DclServer

inductive Flag where
  | configuration
  | workspaceFolders
  | relatedInformation

def Flags.has (flags : Flags) : Flag → Bool
  | .configuration => flags.configuration
  | .workspaceFolders => flags.workspaceFolders
  | .relatedInformation => flags.relatedInformation

theorem Flags.ext_has {f g : Flags} (h : ∀ flag, f.has flag = g.has flag) : f = g := by
  cases f
  cases g
  congr
  · exact h .configuration
  · exact h .workspaceFolders
  · exact h .relatedInformation

def Flag.path : Negotiation.Spelling → Flag → List String
  | _, .configuration => ["workspace", "configuration"]
  | .snake, .workspaceFolders => ["workspace", "workspace_folders"]
  | .camel, .workspaceFolders => ["workspace", "workspaceFolders"]
  | .snake, .relatedInformation => ["text_document", "publish_diagnostics", "related_information"]
  | .camel, .relatedInformation => ["textDocument", "publishDiagnostics", "relatedInformation"]

namespace Negotiation

variable {path slots place : List String} {key name slot : String} {v w : Value}

/-- At the end of the path there is a node that is true, or an object, be it empty. -/
def DeclaredAt (path : List String) (v : Value) : Prop :=
  ∃ node, v.path? path = some node ∧ (node.truthy = true ∨ ∃ fields, node = .object fields)

def DeclaredAlong (path : List String) (v : Value) : Prop :=
  ∀ front, front <+: path → front ≠ [] → DeclaredAt front v

/-- The same nodes along the path count in both values, whatever is beside them. -/
def AgreeAlong (path : List String) (v w : Value) : Prop :=
  ∀ front, front <+: path → front ≠ [] → (DeclaredAt front v ↔ DeclaredAt front w)

theorem declared_iff : declared v = true ↔ v.truthy = true ∨ ∃ fields, v = .object fields := by
  cases v <;> simp [declared]

theorem declaredAt_nil : DeclaredAt [] v ↔ declared v = true := by
  rw [declared_iff]
  exact ⟨fun ⟨_, he, h⟩ => Option.some.inj he ▸ h, fun h => ⟨v, rfl, h⟩⟩

theorem declaredAt_cons : DeclaredAt (key :: path) v ↔ ∃ node, v.field? key = some node ∧ DeclaredAt path node := by
  simp only [DeclaredAt, Value.path?, Option.bind_eq_some_iff]
  constructor
  · rintro ⟨last, ⟨node, hf, hp⟩, h⟩
    exact ⟨node, hf, last, hp, h⟩
  · rintro ⟨node, hf, last, hp, h⟩
    exact ⟨last, ⟨node, hf, hp⟩, h⟩

theorem hasPath_cons : hasPath (key :: path) v = true ↔
    ∃ node, v.field? key = some node ∧ declared node = true ∧ hasPath path node = true := by
  rw [hasPath]
  cases v.field? key <;> simp

theorem declaredAlong_cons : DeclaredAlong (key :: path) v ↔
    ∃ node, v.field? key = some node ∧ declared node = true ∧ DeclaredAlong path node := by
  constructor
  · intro h
    obtain ⟨node, hf, hd⟩ := declaredAt_cons.mp (h [key] ⟨path, rfl⟩ (List.cons_ne_nil _ _))
    refine ⟨node, hf, declaredAt_nil.mp hd, fun front hfront _ => ?_⟩
    have hlonger : DeclaredAt (key :: front) v :=
      h _ (List.cons_prefix_cons.mpr ⟨rfl, hfront⟩) (List.cons_ne_nil _ _)
    obtain ⟨node', hf', hd'⟩ := declaredAt_cons.mp hlonger
    cases hf.symm.trans hf'
    exact hd'
  · rintro ⟨node, hf, hd, h⟩ front hfront hne
    obtain rfl | ⟨front, rfl, hrest⟩ := List.prefix_cons_iff.mp hfront
    · exact absurd rfl hne
    · refine declaredAt_cons.mpr ⟨node, hf, ?_⟩
      by_cases hnil : front = []
      · rw [hnil, declaredAt_nil]
        exact hd
      · exact h front hrest hnil

theorem hasPath_iff : hasPath path v = true ↔ DeclaredAlong path v := by
  induction path generalizing v with
  | nil => exact ⟨fun _ front hfront hne => absurd (List.prefix_nil.mp hfront) hne, fun _ => rfl⟩
  | cons key path ih =>
    rw [hasPath_cons, declaredAlong_cons]
    simp only [ih]

theorem has_negotiate (spelling : Spelling) (flag : Flag) (v : Value) :
    (negotiate spelling v).has flag = hasPath (Flag.path spelling flag) v := by
  cases flag <;> cases spelling <;> rfl

theorem has_negotiate_iff (spelling : Spelling) (flag : Flag) (v : Value) :
    (negotiate spelling v).has flag = true ↔ DeclaredAlong (Flag.path spelling flag) v := by
  rw [has_negotiate, hasPath_iff]

theorem AgreeAlong.declaredAlong_iff (h : AgreeAlong path v w) : DeclaredAlong path v ↔ DeclaredAlong path w :=
  forall_congr' fun front => forall_congr' fun hfront => forall_congr' fun hne => h front hfront hne

def slotsAlong? (slot? : List String → String → Option String) :
    List String → List String → Option (List String)
  | _, [] => some []
  | place, name :: path =>
    (slot? place name).bind fun slot => (slotsAlong? slot? (place ++ [name]) path).map (slot :: ·)

/-- The records that messages are read into. A record knows a name if it has a slot for it, which depends on the
place of the record in the message. No two names share a slot, and the names that declare the flags are known. -/
structure Schema where
  slot? : List String → String → Option String
  distinct : ∀ {place name other slot}, slot? place name = some slot → slot? place other = some slot → name = other
  known : ∀ flag, slotsAlong? slot? [] (Flag.path .camel flag) = some (Flag.path .snake flag)

namespace Schema

mutual

/-- A message read into records: what is known goes to its slot, what is unknown is passed over. -/
def record (schema : Schema) : List String → Value → Value
  | place, .object fields => .object (schema.recordFields place fields)
  | _, v => v

def recordFields (schema : Schema) : List String → List (Scalar × Value) → List (Scalar × Value)
  | _, [] => []
  | place, (.text name, v) :: fields =>
    match schema.slot? place name with
    | some slot => (.text slot, schema.record (place ++ [name]) v) :: schema.recordFields place fields
    | none => schema.recordFields place fields
  | place, _ :: fields => schema.recordFields place fields

end

def plain (schema : Schema) (v : Value) : Value :=
  schema.record [] v

variable {schema : Schema}

theorem lookup_cons_ne {sought key : Scalar} (h : sought ≠ key) (v : Value) (fields : List (Scalar × Value)) :
    List.lookup sought ((key, v) :: fields) = fields.lookup sought := by
  rw [List.lookup_cons, beq_false_of_ne h]

theorem lookup_recordFields (hslot : schema.slot? place name = some slot) (fields : List (Scalar × Value)) :
    (schema.recordFields place fields).lookup (.text slot) =
      (fields.lookup (.text name)).map (schema.record (place ++ [name])) := by
  induction fields with
  | nil => rfl
  | cons field fields ih =>
    obtain ⟨key, v⟩ := field
    by_cases he : Scalar.text name = key
    · subst he
      rw [recordFields, hslot, List.lookup_cons_self, List.lookup_cons_self]
      rfl
    · rw [lookup_cons_ne he, ← ih]
      cases key with
      | text other =>
        rw [recordFields]
        cases ho : schema.slot? place other with
        | none => rfl
        | some taken =>
          -- another name has another slot
          have hne : slot ≠ taken := by
            rintro rfl
            exact he (congrArg Scalar.text (schema.distinct hslot ho))
          exact lookup_cons_ne (fun h => hne (Scalar.text.inj h)) _ _
      | null => rfl
      | bool b => rfl
      | int n => rfl
      | float x => rfl

theorem field?_record (hslot : schema.slot? place name = some slot) (v : Value) :
    (schema.record place v).field? slot = (v.field? name).map (schema.record (place ++ [name])) := by
  cases v with
  | object fields => exact lookup_recordFields hslot fields
  | atom a => rfl
  | list items => rfl

theorem declared_record (v : Value) : declared (schema.record place v) = declared v := by
  cases v <;> rfl

theorem hasPath_record (h : slotsAlong? schema.slot? place path = some slots) (v : Value) :
    hasPath slots (schema.record place v) = hasPath path v := by
  induction path generalizing place slots v with
  | nil =>
    cases h
    rfl
  | cons name path ih =>
    simp only [slotsAlong?, Option.bind_eq_some_iff, Option.map_eq_some_iff] at h
    obtain ⟨slot, hslot, rest, hrest, rfl⟩ := h
    rw [hasPath, hasPath, field?_record hslot]
    cases v.field? name with
    | none => rfl
    | some node => simp only [Option.map_some, declared_record, ih hrest]

theorem negotiate_plain (schema : Schema) (v : Value) : negotiate .snake (schema.plain v) = negotiate .camel v := by
  apply Flags.ext_has
  intro flag
  rw [has_negotiate, has_negotiate]
  exact hasPath_record (schema.known flag) v

end Schema

def snakeChars : List Char → List Char
  | [] => []
  | c :: cs => if c.isUpper then '_' :: c.toLower :: snakeChars cs else c :: snakeChars cs

theorem val_toLower {c : Char} (h : c.isUpper = true) : c.toLower.val = c.val + 32 :=
  congrArg Char.val (dif_pos (of_decide_eq_true h))

theorem toLower_inj {c d : Char} (hc : c.isUpper = true) (hd : d.isUpper = true) (h : c.toLower = d.toLower) :
    c = d := by
  have hval : c.val + 32 = d.val + 32 := by rw [← val_toLower hc, ← val_toLower hd, h]
  apply Char.ext
  exact (UInt32.add_left_inj 32).mp hval

theorem snakeChars_eq_nil {cs : List Char} : snakeChars cs = [] ↔ cs = [] := by
  cases cs with
  | nil => exact Iff.rfl
  | cons c cs =>
    rw [snakeChars]
    split <;> simp

theorem snakeChars_inj {cs ds : List Char} (hc : '_' ∉ cs) (hd : '_' ∉ ds) (h : snakeChars cs = snakeChars ds) :
    cs = ds := by
  induction cs generalizing ds with
  | nil => exact (snakeChars_eq_nil.mp h.symm).symm
  | cons c cs ih =>
    cases ds with
    | nil => exact snakeChars_eq_nil.mp h
    | cons d ds =>
      rw [List.mem_cons, not_or] at hc hd
      rw [snakeChars, snakeChars] at h
      by_cases hcu : c.isUpper = true <;> by_cases hdu : d.isUpper = true
      · rw [if_pos hcu, if_pos hdu] at h
        injection h with _ h
        injection h with hl hr
        rw [toLower_inj hcu hdu hl, ih hc.2 hd.2 hr]
      · rw [if_pos hcu, if_neg hdu] at h
        injection h with hl _
        exact absurd hl hd.1
      · rw [if_neg hcu, if_pos hdu] at h
        injection h with hl _
        exact absurd hl.symm hc.1
      · rw [if_neg hcu, if_neg hdu] at h
        injection h with hl hr
        rw [hl, ih hc.2 hd.2 hr]

/-- Every name without an underscore is known, and kept under the same name in snake case. -/
def Schema.snakeCase : Schema where
  slot? _ name := if '_' ∈ name.toList then none else some (String.ofList (snakeChars name.toList))
  distinct {place name other slot} hn ho := by
    rw [Option.ite_none_left_eq_some] at hn ho
    obtain ⟨hname, hn⟩ := hn
    obtain ⟨hother, ho⟩ := ho
    apply String.toList_inj.mp
    apply snakeChars_inj hname hother
    apply String.ofList_injective
    exact Option.some.inj (hn.trans ho.symm)
  known flag := by
    cases flag <;> decide +kernel

/-- What negotiation reads, of every value there is. -/
structure ReadsPaths (v : Value) : Prop where
  declared : ∀ spelling flag, (negotiate spelling v).has flag = true ↔ DeclaredAlong (Flag.path spelling flag) v
  agreed : ∀ spelling flag w, AgreeAlong (Flag.path spelling flag) v w →
    (negotiate spelling w).has flag = (negotiate spelling v).has flag
  /-- A message gives the flags that the plain object with the same content gives. -/
  respelled : ∀ schema : Schema, negotiate .camel v = negotiate .snake (schema.plain v)

theorem flags_follow_paths (v : Value) : ReadsPaths v where
  declared spelling flag := has_negotiate_iff spelling flag v
  agreed spelling flag w h := by
    rw [Bool.eq_iff_iff, has_negotiate_iff, has_negotiate_iff]
    exact h.declaredAlong_iff.symm
  respelled schema := (schema.negotiate_plain v).symm

/-- Names that are a plain object's own mean nothing in a message, and a record that is empty counts, but does not
declare anything. -/
theorem foreign_names_are_passed_over :
    let workspace : Value := .ofFields [("workspace_folders", .bool true), ("configuration", .bool true),
      ("workspaceFolders", .null)]
    let message : Value := .ofFields [("workspace", workspace), ("text_document", .int 1),
      ("textDocument", .ofFields [("publishDiagnostics", .ofFields [])])]
    let other : Value := .ofFields [("workspace", .ofFields [("configuration", .text "on")]),
      ("textDocument", .list [])]
    negotiate .camel message = ⟨true, false, false⟩ ∧
      negotiate .snake (Schema.snakeCase.plain message) = ⟨true, false, false⟩ ∧
      DeclaredAlong ["textDocument", "publishDiagnostics"] message ∧
      ¬ DeclaredAlong (Flag.path .camel .relatedInformation) message ∧
      AgreeAlong (Flag.path .camel .configuration) message other ∧
      (negotiate .camel other).has .configuration = true := by
  intro workspace message other
  have hflags : negotiate .camel message = ⟨true, false, false⟩ := by decide +kernel
  have hmessage : DeclaredAlong (Flag.path .camel .configuration) message := hasPath_iff.mp (by decide +kernel)
  have hother : DeclaredAlong (Flag.path .camel .configuration) other := hasPath_iff.mp (by decide +kernel)
  have hagree : AgreeAlong (Flag.path .camel .configuration) message other :=
    fun front hfront hne => iff_of_true (hmessage front hfront hne) (hother front hfront hne)
  have hreads : ReadsPaths message := flags_follow_paths message
  refine ⟨hflags, (hreads.respelled .snakeCase).symm.trans hflags, hasPath_iff.mp (by decide +kernel), ?_, hagree, ?_⟩
  · rw [← hreads.declared, hflags]
    decide
  · rw [hreads.agreed .camel .configuration other hagree, hflags]
    rfl

end Negotiation

end DclServer
