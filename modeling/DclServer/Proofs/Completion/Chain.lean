import DclServer.Proofs.Completion.Skipping

namespace DclServer

/-- The item that a completer leaves to the next: the one it returns or, if it raises, the one it was
given with what it has assigned to it. -/
def Completer.passOn (c : Completer) (item : Item) : Item :=
  match (c.resolve item).result with
  | .ok next => next
  | .error _ => (c.resolve item).left

structure Consultation where
  completer : Completer
  given : Item

namespace Consultation

variable {q : Consultation}

def attempt (q : Consultation) : Attempt := q.completer.resolve q.given

def passedOn (q : Consultation) : Item := q.completer.passOn q.given

/-- A chain ends with an item that has a documentation, and with a cancellation. -/
def Ends (q : Consultation) : Prop :=
  (∃ answer, q.attempt.result = .ok answer ∧ answer.documentation ≠ none) ∨ q.attempt.result = .error .cancelled

def report? (q : Consultation) : Option Log :=
  match q.attempt.result with
  | .error (.fault f) => some ⟨.error, "Completion resolve error in " ++ q.completer.name ++ ": " ++ f.text⟩
  | _ => none

theorem passedOn_of_ok {next : Item} (hr : q.attempt.result = .ok next) : q.passedOn = next := by
  rw [passedOn, Completer.passOn, ← attempt, hr]

theorem passedOn_of_error {raised : Raised} (hr : q.attempt.result = .error raised) :
    q.passedOn = q.attempt.left := by
  rw [passedOn, Completer.passOn, ← attempt, hr]

theorem cases_of_not_ends (h : ¬ q.Ends) :
    (∃ next, q.attempt.result = .ok next ∧ next.documentation = none) ∨
      ∃ f, q.attempt.result = .error (.fault f) := by
  cases hr : q.attempt.result with
  | ok next =>
    cases hd : next.documentation with
    | none => exact .inl ⟨next, rfl, hd⟩
    | some text => exact absurd (.inl ⟨next, hr, by simp [hd]⟩) h
  | error raised =>
    cases raised with
    | fault f => exact .inr ⟨f, rfl⟩
    | cancelled => exact absurd (.inr hr) h

end Consultation

namespace Registry

open Consultation

variable {r : Registry} {cs : List Completer} {item : Item} {ahead behind : List Consultation} {q : Consultation}

/-- The consultations of a chain that nobody ends. -/
def consultations : List Completer → Item → List Consultation
  | [], _ => []
  | c :: cs, item => ⟨c, item⟩ :: consultations cs (c.passOn item)

def threaded (cs : List Completer) (item : Item) : Item :=
  cs.foldl (fun item c => c.passOn item) item

theorem map_completer_consultations (cs : List Completer) (item : Item) :
    (consultations cs item).map (·.completer) = cs := by
  induction cs generalizing item with
  | nil => rfl
  | cons c cs ih => rw [consultations, List.map_cons, ih]

theorem consultations_split (h : consultations cs item = ahead ++ behind) :
    consultations (ahead.map (·.completer)) item = ahead ∧
      consultations (behind.map (·.completer)) (threaded (ahead.map (·.completer)) item) = behind := by
  induction ahead generalizing cs item with
  | nil =>
    have hb : behind.map (·.completer) = cs := by
      rw [← map_completer_consultations cs item, h, List.nil_append]
    exact ⟨rfl, hb ▸ h⟩
  | cons p ahead ih =>
    cases cs with
    | nil => cases h
    | cons c cs =>
      rw [consultations, List.cons_append, List.cons.injEq] at h
      obtain ⟨rfl, h⟩ := h
      obtain ⟨hahead, hbehind⟩ := ih h
      exact ⟨congrArg _ hahead, hbehind⟩

theorem given_eq_threaded (h : consultations cs item = ahead ++ q :: behind) :
    q.given = threaded (ahead.map (·.completer)) item := by
  have hq := (consultations_split h).2
  rw [List.map_cons, consultations, List.cons.injEq] at hq
  exact (congrArg Consultation.given hq.1).symm

theorem given_eq_passedOn {p : Consultation} (h : consultations cs item = ahead ++ p :: q :: behind) :
    q.given = p.passedOn := by
  have hsplit : consultations cs item = (ahead ++ [p]) ++ q :: behind := by rw [h, List.append_assoc]; rfl
  rw [given_eq_threaded hsplit, passedOn, given_eq_threaded h, List.map_append, threaded, List.foldl_append]
  rfl

theorem passes_consultations (h : ∀ p ∈ consultations cs item, ¬ p.Ends) :
    Passes cs item ((consultations cs item).filterMap report?) (threaded cs item) := by
  induction cs generalizing item with
  | nil => exact .nil item
  | cons c cs ih =>
    let q : Consultation := ⟨c, item⟩
    have hrest : Passes cs q.passedOn ((consultations cs q.passedOn).filterMap report?) (threaded (c :: cs) item) :=
      ih fun p hp => h p (List.mem_cons_of_mem _ hp)
    obtain ⟨next, hr, hd⟩ | ⟨f, hr⟩ := cases_of_not_ends (h q List.mem_cons_self)
    · have hlogs : (consultations (c :: cs) item).filterMap report? = (consultations cs q.passedOn).filterMap report? :=
        List.filterMap_cons_none (by rw [report?, hr])
      rw [hlogs]
      exact .returned hr hd (passedOn_of_ok hr ▸ hrest)
    · have hlogs : (consultations (c :: cs) item).filterMap report? =
          failure c f :: (consultations cs q.passedOn).filterMap report? :=
        List.filterMap_cons_some (by rw [report?, hr]; rfl)
      rw [hlogs]
      exact .failed hr (passedOn_of_error hr ▸ hrest)

theorem resolveAll_of_not_ends (h : ∀ p ∈ consultations cs item, ¬ p.Ends) :
    resolveAll cs item = ((consultations cs item).filterMap report?, .ok (threaded cs item)) := by
  have hp := (passes_consultations h).resolveAll []
  simpa [resolveAll] using hp

theorem resolveAll_cons_of_ends (hq : q.Ends) (others : List Completer) :
    resolveAll (q.completer :: others) q.given = ([], q.attempt.result) := by
  obtain ⟨answer, hr, hd⟩ | hr := hq
  · have hsome : answer.documentation.isSome := Option.isSome_iff_ne_none.mpr hd
    have hresult : (q.completer.resolve q.given).result = .ok answer := hr
    simp [resolveAll, hresult, hsome, hr]
  · have hresult : (q.completer.resolve q.given).result = .error .cancelled := hr
    simp [resolveAll, hresult, hr]

theorem resolveAll_of_ends (h : consultations cs item = ahead ++ q :: behind) (hp : ∀ p ∈ ahead, ¬ p.Ends)
    (hq : q.Ends) (others : List Completer) :
    resolveAll (ahead.map (·.completer) ++ q.completer :: others) item =
      (ahead.filterMap report?, q.attempt.result) := by
  have hchain := (consultations_split h).1
  have hquiet : ∀ p ∈ consultations (ahead.map (·.completer)) item, ¬ p.Ends := by rwa [hchain]
  have hpass := passes_consultations hquiet
  rw [hpass.resolveAll, hchain, ← given_eq_threaded h, resolveAll_cons_of_ends hq, List.append_nil]

theorem resolve_of_ends (h : consultations r.completers item = ahead ++ q :: behind)
    (hp : ∀ p ∈ ahead, ¬ p.Ends) (hq : q.Ends) :
    r.resolve item = (ahead.filterMap report?, q.attempt.result) := by
  have hcs : r.completers = ahead.map (·.completer) ++ q.completer :: behind.map (·.completer) := by
    rw [← map_completer_consultations r.completers item, h, List.map_append, List.map_cons]
  rw [resolve, hcs]
  exact resolveAll_of_ends h hp hq _

theorem resolveAll_error {raised : Raised} (h : (resolveAll cs item).2 = .error raised) : raised = .cancelled := by
  induction cs generalizing item with
  | nil => cases h
  | cons c cs ih =>
    cases hr : (c.resolve item).result with
    | ok next =>
      by_cases hd : next.documentation.isSome
      · simp [resolveAll, hr, hd] at h
      · have hnext : (resolveAll cs next).2 = .error raised := by simpa [resolveAll, hr, hd] using h
        exact ih hnext
    | error e =>
      cases e with
      | fault f =>
        have hnext : (resolveAll cs (c.resolve item).left).2 = .error raised := by simpa [resolveAll, hr] using h
        exact ih hnext
      | cancelled => simpa [resolveAll, hr, eq_comm] using h

/-- What comes of an item, told by the consultations of the chain that nobody ends. -/
structure Follows (r : Registry) (item : Item) (chain : List Consultation) : Prop where
  /-- Completers are consulted in the order of registration, other capabilities are not. -/
  order : Completers r.capabilities (chain.map (·.completer))
  started : ∀ q behind, chain = q :: behind → q.given = item
  returned : ∀ ahead p q behind next, chain = ahead ++ p :: q :: behind → p.attempt.result = .ok next →
    q.given = next
  raised : ∀ ahead p q behind e, chain = ahead ++ p :: q :: behind → p.attempt.result = .error e →
    q.given = p.attempt.left
  /-- What a failing completer has assigned to the item stays, what it has assigned to a new one is lost. -/
  assigned : ∀ ahead p q behind (s : Completer.Script) e, chain = ahead ++ p :: q :: behind →
    p.completer.resolve = s.run → s.raises = some e →
    q.given = if s.replacement.isSome then p.given else s.assignments.foldl Assignment.apply p.given
  answered : ∀ ahead q behind answer, chain = ahead ++ q :: behind → (∀ p ∈ ahead, ¬ p.Ends) →
    q.attempt.result = .ok answer → answer.documentation ≠ none →
    r.resolve item = (ahead.filterMap report?, .ok answer)
  cancelled : ∀ ahead q behind, chain = ahead ++ q :: behind → (∀ p ∈ ahead, ¬ p.Ends) →
    q.attempt.result = .error .cancelled → r.resolve item = (ahead.filterMap report?, .error .cancelled)
  unanswered : (∀ q ∈ chain, ¬ q.Ends) →
    r.resolve item = (chain.filterMap report?, .ok (threaded (chain.map (·.completer)) item))
  /-- Those behind the end are not consulted: there may be any others. -/
  ended : ∀ ahead q behind, chain = ahead ++ q :: behind → (∀ p ∈ ahead, ¬ p.Ends) → q.Ends →
    ∀ (other : Registry) others, Completers other.capabilities (ahead.map (·.completer) ++ q.completer :: others) →
    other.resolve item = r.resolve item
  escaped : ∀ e, (r.resolve item).2 = .error e → e = .cancelled

theorem resolve_follows_chain (r : Registry) (item : Item) :
    r.Follows item (consultations r.completers item) where
  order := by
    rw [map_completer_consultations]
    exact r.completers_spec
  started q behind h := by
    have hsplit : consultations r.completers item = [] ++ q :: behind := h
    exact given_eq_threaded hsplit
  returned ahead p q behind next h hr := by rw [given_eq_passedOn h, passedOn_of_ok hr]
  raised ahead p q behind e h hr := by rw [given_eq_passedOn h, passedOn_of_error hr]
  assigned ahead p q behind s e h hs he := by
    have hattempt : p.attempt = s.run p.given := by rw [attempt, hs]
    have hr : p.attempt.result = .error e := by rw [hattempt, Completer.Script.run, he]
    rw [given_eq_passedOn h, passedOn_of_error hr, hattempt, Completer.Script.run]
    cases s.replacement <;> rfl
  answered ahead q behind answer h hp hr hd := by rw [resolve_of_ends h hp (.inl ⟨answer, hr, hd⟩), hr]
  cancelled ahead q behind h hp hr := by rw [resolve_of_ends h hp (.inr hr), hr]
  unanswered h := by
    rw [map_completer_consultations]
    exact resolveAll_of_not_ends h
  ended ahead q behind h hp hq other others hcs := by
    rw [resolve_of_ends h hp hq, resolve, hcs.eq_completers]
    exact resolveAll_of_ends h hp hq others
  escaped e h := resolveAll_error h

/-- The second completer fails on the item of the first and leaves a detail on it, the third gives the answer,
and the fourth is not asked. -/
example :
    let replacing : Completer := .scripted "replacing" { replacement := some { label := "new" } }
    let failing : Completer := .scripted "failing"
      { assignments := [.detail (some "half")], raises := some (.fault ⟨.runtime, "broken"⟩) }
    let telling : Completer := .scripted "telling" { assignments := [.documentation (some "told")] }
    let cancelled : Completer := .scripted "cancelled" { raises := some .cancelled }
    resolve ⟨[("a", .completer replacing), ("b", .other "b" ""), ("c", .completer failing),
        ("d", .completer telling), ("e", .completer cancelled)]⟩ { label := "old" } =
      ([⟨.error, "Completion resolve error in failing: broken"⟩],
        .ok { label := "new", detail := some "half", documentation := some "told" }) := rfl

end Registry

end DclServer
