import DclServer.Proofs.Cache.History
import DclServer.Proofs.Cache.Sharing

namespace DclServer

/-- The section that an answer holds. A client answers with a list of sections, and an empty answer
stands for no configuration. -/
inductive Provider.Finds : Provider → Value → Value → Prop where
  | whole {p : Provider} (hp : p ≠ .client) (v : Value) : Finds p v v
  | nothing {v : Value} (hv : v.truthy = false) : Finds .client v .null
  | first (v : Value) (more : List Value) : Finds .client (.list (v :: more)) v
  | letter (x : Char) (more : List Char) :
      Finds .client (.text (String.ofList (x :: more))) (.text (String.ofList [x]))

inductive Provider.Concludes (p : Provider) : Reply → Outcome → Prop where
  | settings {v w : Value} {s : Settings} (hw : p.Finds v w) (hs : Settings.ofValue w = .ok s) :
      Concludes p (.value v) (.settings s)
  | invalid {v w : Value} {e : SettingsError} (hw : p.Finds v w) (hs : Settings.ofValue w = .error e) :
      Concludes p (.value v) (.failed ⟨.value, Settings.errorMessage e⟩)
  | unindexed {a : Scalar} (hp : p = .client) (ha : a.truthy = true) (ht : ∀ s, a ≠ .text s) :
      Concludes p (.value (.atom a))
        (.failed ⟨.type, "'" ++ (Value.atom a).kindName ++ "' object is not subscriptable"⟩)
  | keyless {fields : List (Scalar × Value)} (hp : p = .client) (hf : fields ≠ []) :
      Concludes p (.value (.object fields)) (.failed ⟨.key, "0"⟩)
  | fault (f : Fault) : Concludes p (.fault f) (.failed f)
  | cancelled : Concludes p .cancelled .cancelled

namespace Provider

theorem Finds.concludes {p : Provider} {v w : Value} (h : p.Finds v w) :
    p.Concludes (.value v) (.ofSection w) := by
  unfold Outcome.ofSection
  split
  · rename_i s hs
    exact .settings h hs
  · rename_i e he
    exact .invalid h he

theorem firstSection_of_falsy {v : Value} (hv : v.truthy = false) : firstSection v = .ok .null := by
  simp [firstSection, hv]

theorem client_concludes (v : Value) : Concludes .client (.value v) (outcome .client (.value v)) := by
  cases hv : v.truthy with
  | false =>
    simp only [outcome, sectionOf, firstSection_of_falsy hv]
    exact (Finds.nothing hv).concludes
  | true =>
    cases v with
    | list items =>
      cases items with
      | nil => simp [Value.truthy] at hv
      | cons v more => exact (Finds.first v more).concludes
    | object fields =>
      have hf : fields ≠ [] := by simpa [Value.truthy] using hv
      simp only [outcome, sectionOf, firstSection, hv, ↓reduceIte]
      exact .keyless rfl hf
    | atom a =>
      cases a with
      | text s =>
        have hne : s.toList ≠ [] := by simpa [Value.truthy, Scalar.truthy] using hv
        obtain ⟨x, more, hs⟩ := List.exists_cons_of_ne_nil hne
        have hfirst : firstSection (.text s) = .ok (.text (String.ofList [x])) := by
          simp [firstSection, hv, hs]
        have hletter := (Finds.letter x more).concludes
        rw [← hs, String.ofList_toList] at hletter
        simp only [outcome, sectionOf, hfirst]
        exact hletter
      | null | bool | int | float =>
        simp only [outcome, sectionOf, firstSection, hv, ↓reduceIte]
        exact .unindexed rfl hv (by simp)

theorem outcome_concludes (p : Provider) (r : Reply) : p.Concludes r (p.outcome r) := by
  cases r with
  | fault f => exact .fault f
  | cancelled => exact .cancelled
  | value v =>
    cases p with
    | client => exact client_concludes v
    | direct | absent => exact (Finds.whole (by simp) v).concludes

end Provider

/-- A fetch and the reply it took last: it has none before it is told one, and ends as the reply says.
Where there is nobody to ask it may end without. -/
def Stage.Reflects (p : Provider) (answer : Option Reply) : Stage → Prop
  | .created | .asked => answer = none
  | .replied r => answer = some r
  | .ended o | .finished o =>
    (∃ r, answer = some r ∧ o = p.outcome r) ∨
      answer = none ∧ p = .absent ∧ o = p.outcome (.value .null)

namespace Cache

variable {c d : Cache} {id : FetchId} {answer : Option Reply}

def Answered (c : Cache) (id : FetchId) (answer : Option Reply) : Prop :=
  (c.stage? id).elim (answer = none) (Stage.Reflects c.provider answer)

theorem Answered.setStage {s t : Stage} {i : FetchId} (h : c.Answered id answer)
    (hs : c.stage? i = some s) (hp : d.provider = c.provider) (hd : d.stage? = (c.setStage i t).stage?)
    (ht : s.Reflects c.provider answer → t.Reflects c.provider answer) : d.Answered id answer := by
  unfold Answered at h ⊢
  rw [hp, hd]
  by_cases hid : id = i
  · subst hid
    rw [hs] at h
    rw [stage?_setStage_self t hs]
    exact ht h
  · rwa [stage?_setStage_of_ne t hid]

theorem Answered.concludes {o : Outcome} (h : c.Answered id answer) (ho : c.outcome? id = some o) :
    (∃ r, answer = some r ∧ c.provider.Concludes r o) ∨
      answer = none ∧ c.provider = .absent ∧ o = .settings default := by
  obtain ⟨s, hs, hso⟩ := Option.bind_eq_some_iff.mp ho
  unfold Answered at h
  rw [hs] at h
  cases s with
  | created | asked | replied => cases hso
  | ended p | finished p =>
    cases hso
    obtain ⟨r, hr, rfl⟩ | ⟨hn, hp, rfl⟩ := h
    · exact .inl ⟨r, hr, c.provider.outcome_concludes r⟩
    · exact .inr ⟨hn, hp, by rw [hp]; rfl⟩

/-- Whoever found a fetch ended found it successful. -/
def FoundWell (c : Cache) : Prop :=
  ∀ k ∈ c.callers, ∀ id, k.source = .ended id → ∃ s, c.stage? id = some (.finished (.settings s))

theorem Leads.finished {o : Outcome} (h : c.Leads d) (hs : c.stage? id = some (.finished o)) :
    d.stage? id = some (.finished o) := by
  obtain ⟨t, ht, hst⟩ := h id _ hs
  rw [ht, hst.finished]

theorem FoundWell.leads (h : c.FoundWell) (hl : c.Leads d)
    (hk : ∀ k ∈ d.callers, ∃ l ∈ c.callers, l.uri = k.uri ∧ l.source = k.source) : d.FoundWell := by
  intro k hkd id hid
  obtain ⟨l, hlc, -, hsource⟩ := hk k hkd
  obtain ⟨s, hs⟩ := h l hlc id (hsource.trans hid)
  exact ⟨s, hl.finished hs⟩

theorem perform_callers {a : Action} (hl : ∀ isOpen uri, a ≠ .lookup isOpen uri)
    (hc : ∀ uri serial, a ≠ .cancel uri serial) : (c.perform a).1.callers = c.callers := by
  cases a with
  | lookup isOpen uri => exact absurd rfl (hl isOpen uri)
  | cancel uri serial => exact absurd rfl (hc uri serial)
  | idle | close => rfl
  | reply =>
    simp only [perform, reply?]
    split <;> rfl
  | abort =>
    simp only [perform, abort?, reply?]
    split
    · rfl
    · split <;> rfl
    · rfl
    · rfl
  | configure =>
    simp only [perform, configure]
    split
    · rfl
    · cases pushed _ <;> rfl
  | next => exact c.next_advances.callers
  | settle => exact (c.turns_advances _).callers

theorem perform_sources {a : Action} (ha : ∀ isOpen uri, a ≠ .lookup isOpen uri) :
    ∀ k ∈ (c.perform a).1.callers, ∃ l ∈ c.callers, l.uri = k.uri ∧ l.source = k.source := by
  by_cases hc : ∃ uri serial, a = .cancel uri serial
  · obtain ⟨uri, serial, rfl⟩ := hc
    simp only [perform, cancel?]
    split
    · split
      · intro k hk
        obtain ⟨l, hl, rfl⟩ := List.mem_map.mp hk
        refine ⟨l, hl, ?_⟩
        split <;> exact ⟨rfl, rfl⟩
      · exact fun k hk => ⟨k, hk, rfl, rfl⟩
    · exact fun k hk => ⟨k, hk, rfl, rfl⟩
  · rw [perform_callers ha fun uri serial he => hc ⟨uri, serial, he⟩]
    exact fun k hk => ⟨k, hk, rfl, rfl⟩

end Cache

def Outcome.standing : Outcome → Standing
  | .cancelled => .cancelled
  | o => .done o

namespace Host

variable {h : Host} {es : List Event}

theorem Fresh.marked? (hf : h.Fresh) (mark : Stage → Option Outcome) (id : FetchId) :
    h.cache.marked? mark id = none := by
  rw [hf]
  rfl

end Host

end DclServer
