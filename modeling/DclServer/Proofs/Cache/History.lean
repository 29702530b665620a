import DclServer.Proofs.CloseHook
import DclServer.Proofs.Cache.Queue

namespace DclServer

namespace Stage

variable {mark : Stage → Option Outcome}

def told? : Stage → Option Outcome
  | .finished o => some o
  | _ => none

/-- The outcome that they have still to be told. -/
def untold? : Stage → Option Outcome
  | .ended o => some o
  | _ => none

def Final (mark : Stage → Option Outcome) : Prop :=
  ∀ s, s.outcome? = none → mark s = none

/-- A mark that a fetch never loses. -/
structure Lasting (mark : Stage → Option Outcome) : Prop where
  final : Final mark
  stays : ∀ {s t : Stage} {o : Outcome}, s.LeadsTo t → mark s = some o → mark t = some o

theorem untold?_final : Final untold? := by
  intro s h
  cases s with
  | ended => cases h
  | _ => rfl

end Stage

def Effect.warned? : Effect → Option Log
  | .report l => if l.severity = .warning then some l else none
  | .ask _ => none

namespace Cache

variable {c d : Cache} {id : FetchId} {o : Outcome} {mark : Stage → Option Outcome}

def marked? (c : Cache) (mark : Stage → Option Outcome) (id : FetchId) : Option Outcome :=
  (c.stage? id).bind mark

theorem Leads.marked? (h : c.Leads d) (hm : Stage.Lasting mark) (hc : c.marked? mark id = some o) :
    d.marked? mark id = some o := by
  obtain ⟨s, hs, hso⟩ := Option.bind_eq_some_iff.mp hc
  obtain ⟨t, ht, hst⟩ := h id s hs
  exact Option.bind_eq_some_iff.mpr ⟨t, ht, hm.stays hst hso⟩

/-- Between two moments these fetches got the mark, each once. -/
structure Records (mark : Stage → Option Outcome) (c d : Cache) (l : List (FetchId × Outcome)) : Prop where
  mem_iff : ∀ id o, (id, o) ∈ l ↔ c.marked? mark id = none ∧ d.marked? mark id = some o
  nodup : (l.map Prod.fst).Nodup
  stays : ∀ {id o}, c.marked? mark id = some o → d.marked? mark id = some o

theorem Records.nil (h : ∀ id, d.marked? mark id = c.marked? mark id) : Records mark c d [] where
  mem_iff := by
    intro id o
    rw [h]
    cases c.marked? mark id <;> simp
  nodup := .nil
  stays := fun hc => (h _).trans hc

theorem Records.append {e : Cache} {l l' : List (FetchId × Outcome)} (h : Records mark c d l)
    (h' : Records mark d e l') : Records mark c e (l ++ l') where
  mem_iff := by
    intro id o
    rw [List.mem_append, h.mem_iff, h'.mem_iff]
    constructor
    · rintro (⟨hc, hd⟩ | ⟨hd, he⟩)
      · exact ⟨hc, h'.stays hd⟩
      · refine ⟨?_, he⟩
        cases hc : c.marked? mark id with
        | none => rfl
        | some p =>
          rw [h.stays hc] at hd
          cases hd
    · rintro ⟨hc, he⟩
      cases hd : d.marked? mark id with
      | none => exact .inr ⟨rfl, he⟩
      | some p =>
        rw [h'.stays hd] at he
        exact .inl ⟨hc, he⟩
  nodup := by
    rw [List.map_append]
    refine List.nodup_append.mpr ⟨h.nodup, h'.nodup, ?_⟩
    rintro i hi j hj rfl
    obtain ⟨⟨_, p⟩, hp, rfl⟩ := List.mem_map.mp hi
    obtain ⟨⟨_, q⟩, hq, rfl⟩ := List.mem_map.mp hj
    have hd := ((h.mem_iff _ _).mp hp).2
    rw [((h'.mem_iff _ _).mp hq).1] at hd
    cases hd
  stays := fun hc => h'.stays (h.stays hc)

/-- The fetch that the next turn gives a mark to. -/
def reaches? (c : Cache) (mark : Stage → Option Outcome) : Option (FetchId × Outcome) :=
  c.queue.head?.bind fun id =>
    if (c.marked? mark id).isSome then none else (c.next.1.marked? mark id).map fun o => (id, o)

theorem reaches?_eq_some : c.reaches? mark = some (id, o) ↔
    c.queue.head? = some id ∧ c.marked? mark id = none ∧ c.next.1.marked? mark id = some o := by
  unfold reaches?
  rw [Option.bind_eq_some_iff]
  constructor
  · rintro ⟨i, hi, h⟩
    split at h
    · cases h
    · rename_i hn
      obtain ⟨p, hp, heq⟩ := Option.map_eq_some_iff.mp h
      cases heq
      exact ⟨hi, by simpa using hn, hp⟩
  · rintro ⟨hi, hn, hp⟩
    exact ⟨id, hi, by simp [hn, hp]⟩

def history (c : Cache) (mark : Stage → Option Outcome) : Nat → List (FetchId × Outcome)
  | 0 => []
  | n + 1 => (c.reaches? mark).toList ++ c.next.1.history mark n

theorem marked?_hear (hm : Stage.Final mark) {s : Stage} (hs : c.stage? id = some s) (hr : s.rank < 3)
    (r : Reply) (other : FetchId) : (c.hear id s r).marked? mark other = c.marked? mark other := by
  change ((c.setStage id (.replied r)).stage? other).bind mark = (c.stage? other).bind mark
  by_cases hid : other = id
  · subst other
    rw [stage?_setStage_self _ hs, hs]
    exact (hm _ rfl).trans (hm s (Stage.outcome?_of_rank hr)).symm
  · rw [stage?_setStage_of_ne _ hid]

theorem marked?_addFetch (hm : Stage.Final mark) (c : Cache) (uri : String) (id : FetchId) :
    (c.addFetch uri).marked? mark id = c.marked? mark id := by
  simp only [marked?, stage?_addFetch]
  cases c.stage? id with
  | some s => rfl
  | none =>
    split
    · exact hm _ rfl
    · rfl

def untold (c : Cache) : List (FetchId × Outcome) :=
  c.queue.filterMap fun id => (c.marked? Stage.untold? id).map fun o => (id, o)

theorem reaches?_of_head {rest : List FetchId} {s t : Stage} (hq : c.queue = id :: rest)
    (hs : c.stage? id = some s) (ht : c.next.1.stage? id = some t) :
    c.reaches? mark = if (mark s).isSome then none else (mark t).map fun o => (id, o) := by
  simp [reaches?, marked?, hq, hs, ht]

/-- What has ended is told before what ends now. -/
theorem Queued.next_untold (h : c.Queued) :
    c.untold ++ (c.reaches? Stage.outcome?).toList =
      (c.reaches? Stage.told?).toList ++ c.next.1.untold := by
  cases hq : c.queue with
  | nil => simp [next_of_queue_nil hq, reaches?, untold, hq]
  | cons id rest =>
    obtain ⟨hid, -⟩ := List.nodup_cons.mp (hq ▸ h.nodup)
    obtain ⟨s, t, hs, hst, hf, hd⟩ := h.next_head hq
    have ht : c.next.1.stage? id = some t := by rw [hf, stage?_setStage_self t hs]
    have hrest : (rest.filterMap fun i => (c.next.1.marked? Stage.untold? i).map fun o => (i, o)) =
        rest.filterMap fun i => (c.marked? Stage.untold? i).map fun o => (i, o) := by
      apply List.filterMap_congr
      intro other ho
      have hne : other ≠ id := fun he => hid (he ▸ ho)
      rw [marked?, marked?, hf, stage?_setStage_of_ne t hne]
    have hself : c.marked? Stage.untold? id = s.untold? := by simp [marked?, hs]
    have hself' : c.next.1.marked? Stage.untold? id = t.untold? := by simp [marked?, ht]
    rw [reaches?_of_head hq hs ht, reaches?_of_head hq hs ht]
    unfold untold
    rw [hq, hd, List.filterMap_cons, hself]
    cases hst with
    | ask => simp [Stage.waits, Stage.untold?, Stage.outcome?, Stage.told?, hrest]
    | conclude o hnone =>
      have hno : s.untold? = none ∧ s.told? = none := by
        cases s <;> simp_all [Stage.outcome?, Stage.untold?, Stage.told?]
      rw [hno.1, hno.2, hnone]
      simp [Stage.waits, Stage.told?, Stage.outcome?, hrest, hself', Stage.untold?]
    | tell o => simp [Stage.waits, Stage.untold?, Stage.outcome?, Stage.told?, hrest]

def warning? : FetchId × Outcome → Option Log
  | (_, .settings _) => none
  | (id, .failed f) =>
    some ⟨.warning, "Settings fetch for " ++ id.uri ++ " failed (" ++ (f.kind.name ++ ": " ++ f.text) ++ ")"⟩
  | (id, .cancelled) => some ⟨.warning, "Settings fetch for " ++ id.uri ++ " failed (" ++ "cancelled" ++ ")"⟩

theorem warning?_eq (id : FetchId) (o : Outcome) : warning? (id, o) = o.reason?.map (warning id) := by
  cases o <;> rfl

theorem finish_warned (c : Cache) (id : FetchId) (o : Outcome) :
    (c.finish id o).2.filterMap Effect.warned? = if c.reports then (warning? (id, o)).toList else [] := by
  rw [warning?_eq]
  unfold finish
  cases o.reason? with
  | none => simp
  | some reason =>
    change (if c.reports then _ else _ : List Effect).filterMap Effect.warned? = _
    cases c.reports <;> simp [Effect.warned?, warning]

theorem Queued.next_warned (h : c.Queued) : c.next.2.filterMap Effect.warned? =
    if c.reports then (c.reaches? Stage.told?).toList.filterMap warning? else [] := by
  have hm := h.next_moves
  generalize hr : c.next = r at hm
  cases hm with
  | idle hq => simp [reaches?, hq]
  | @ask id rest hq hs =>
    have ht : c.next.1.stage? id = some .asked := by
      rw [hr]
      exact stage?_setStage_self .asked hs
    simp [reaches?_of_head hq hs ht, Stage.told?, Effect.warned?]
  | @conclude id rest s o hq hs hnone =>
    have ht : c.next.1.stage? id = some (.ended o) := by
      rw [hr]
      exact stage?_setStage_self _ hs
    have hto : Stage.told? (.ended o) = none := rfl
    simp [reaches?_of_head hq hs ht, hto]
  | @tell id rest o hq hs =>
    have ht : c.next.1.stage? id = some (.finished o) := by
      rw [hr, finish_cache]
      exact stage?_setStage_self _ hs
    rw [finish_warned, reaches?_of_head hq hs ht]
    change (if c.reports then _ else _ : List Log) = _
    cases hw : warning? (id, o) <;> simp [Stage.told?, hw]

/-- From one moment to another, what ended is told in its order, and reported if it failed. -/
structure Accounts (c d : Cache) (es : List Effect) (ended told : List (FetchId × Outcome)) : Prop where
  order : c.untold ++ ended = told ++ d.untold
  reports : d.reports = c.reports
  warned : es.filterMap Effect.warned? = if c.reports then told.filterMap warning? else []

theorem Accounts.nil (hu : d.untold = c.untold) (hr : d.reports = c.reports) : Accounts c d [] [] [] where
  order := by simp [hu]
  reports := hr
  warned := by simp

theorem Accounts.append {e : Cache} {es fs : List Effect} {l l' m m' : List (FetchId × Outcome)}
    (h : Accounts c d es l m) (h' : Accounts d e fs l' m') : Accounts c e (es ++ fs) (l ++ l') (m ++ m') where
  order := by
    rw [← List.append_assoc, h.order, List.append_assoc, h'.order, List.append_assoc]
  reports := h'.reports.trans h.reports
  warned := by
    rw [List.filterMap_append, h.warned, h'.warned, h.reports]
    split
    · exact (List.filterMap_append ..).symm
    · rfl

theorem next_fixed (c : Cache) : c.next.1.reports = c.reports ∧ c.next.1.shared = c.shared := by
  unfold next
  split
  · exact ⟨rfl, rfl⟩
  · rename_i id rest _
    have ht := turn_turn { c with queue := rest } id
    generalize ({ c with queue := rest } : Cache).turn id = r at ht ⊢
    cases ht with
    | rest | ask | default | conclude => exact ⟨rfl, rfl⟩
    | tell =>
      rw [finish_cache]
      exact ⟨rfl, rfl⟩

theorem Queued.turns_accounts (h : c.Queued) (n : Nat) : Accounts c (c.turns n).1 (c.turns n).2
    (c.history Stage.outcome? n) (c.history Stage.told? n) := by
  induction n generalizing c with
  | zero => exact .nil rfl rfl
  | succ n ih => exact Accounts.append ⟨h.next_untold, c.next_fixed.1, h.next_warned⟩ (ih h.next)

theorem untold_congr (hm : ∀ id, d.marked? Stage.untold? id = c.marked? Stage.untold? id)
    {more : List FetchId} (hq : d.queue = c.queue ++ more)
    (hn : ∀ id ∈ more, c.marked? Stage.untold? id = none) : d.untold = c.untold := by
  simp only [untold, hm, hq, List.filterMap_append]
  have hmore : (more.filterMap fun id => (c.marked? Stage.untold? id).map fun o => (id, o)) = [] := by
    apply List.filterMap_eq_nil_iff.mpr
    intro id hid
    simp [hn id hid]
  rw [hmore, List.append_nil]

theorem Queued.perform_accounts (h : c.Queued) (hn : c.Numbered) (a : Action) :
    Accounts c (c.perform a).1 (c.perform a).2 (c.history Stage.outcome? (a.turns c))
      (c.history Stage.told? (a.turns c)) := by
  have hw := c.perform_works a
  generalize c.perform a = r at hw ⊢
  cases hw with
  | rest _ _ _ _ ht =>
    rw [ht]
    exact .nil rfl rfl
  | create uri _ _ ht =>
    rw [ht]
    refine .nil (untold_congr (c.marked?_addFetch Stage.untold?_final uri) rfl ?_) rfl
    intro id hid
    rw [List.mem_singleton.mp hid, marked?, (c.stage?_eq_none _).mpr (hn.newFetch_absent uri)]
    rfl
  | @hear id s r hs hr _ ht =>
    rw [ht]
    have hq : (c.hear id s r).queue = c.queue ++ if s.waits then [] else [id] := by
      simp only [Cache.hear]
      split <;> simp
    refine .nil (untold_congr (marked?_hear Stage.untold?_final hs hr r) hq ?_) rfl
    intro i hi
    have hid : i = id := by
      split at hi
      · cases hi
      · exact List.mem_singleton.mp hi
    simp [hid, marked?, hs, Stage.untold?_final s (Stage.outcome?_of_rank hr)]
  | turns => exact h.turns_accounts _

end Cache

namespace Host

variable {h : Host} {mark : Stage → Option Outcome}

theorem broadcastClose_warned (h : Host) (uri : String) :
    (h.broadcastClose uri).effects.filterMap Effect.warned? = [] := by
  simp only [broadcastClose, List.filterMap_map, List.filterMap_eq_nil_iff]
  intro l hl
  obtain ⟨x, f, rfl⟩ := broadcast_failure h.hooks l hl
  simp [Effect.warned?, CloseHook.failure]

theorem step_warned (h : Host) (e : Event) : (h.step e).effects.filterMap Effect.warned? =
    (h.cache.perform (h.action e)).2.filterMap Effect.warned? := by
  have hquiet : ∀ uri, (h.cache.perform (if h.hears then .close uri else .idle)).2 = [] := by
    intro uri
    split <;> rfl
  cases e with
  | didClose uri =>
    simp only [action, hquiet]
    exact (h.drop uri).broadcastClose_warned uri
  | broadcast uri =>
    simp only [action, hquiet]
    exact h.broadcastClose_warned uri
  | reply | abort | cancel | configure =>
    simp only [step]
    split <;> rfl
  | opened | dropped | hook | lookup | closed | turn | settle => rfl

def history (h : Host) (mark : Stage → Option Outcome) : List Event → List (FetchId × Outcome)
  | [] => []
  | e :: es => h.cache.history mark ((h.action e).turns h.cache) ++ (h.step e).host.history mark es

/-- The fetches whose work ends in a run, with their outcomes, in the order in which it ends. -/
def endings (h : Host) (es : List Event) : List (FetchId × Outcome) := h.history Stage.outcome? es

def tellings (h : Host) (es : List Event) : List (FetchId × Outcome) := h.history Stage.told? es

theorem run_accounts (hs : h.cache.Sound) (hq : h.cache.Queued) (es : List Event) :
    Cache.Accounts h.cache (h.after es).cache (h.run es).2 (h.endings es) (h.tellings es) := by
  induction es generalizing h with
  | nil => exact .nil rfl rfl
  | cons e es ih =>
    obtain ⟨ho, hr, hw⟩ := hq.perform_accounts hs.numbered (h.action e)
    have hq' := hq.perform hs.numbered (h.action e)
    rw [← (h.step_performs e).1] at ho hr hq'
    rw [← h.step_warned e] at hw
    exact Cache.Accounts.append ⟨ho, hr, hw⟩ (ih (hs.reacts (h.step_reacts e)) hq')

end Host

end DclServer
