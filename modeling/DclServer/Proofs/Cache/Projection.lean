import DclServer.Proofs.Cache.Outcome

namespace DclServer.Cache

variable {c : Cache} {u uri : String} {id : FetchId}

/-- What a cache holds of one document. -/
def only (u : String) (c : Cache) : Cache :=
  { c with
    entries := c.entries.filter (·.1 == u)
    fetches := c.fetches.filter (·.id.uri == u)
    queue := c.queue.filter (·.uri == u)
    calls := c.calls.filter (·.uri == u)
    callers := c.callers.filter (·.uri == u) }

theorem stage?_only (h : id.uri = u) : (c.only u).stage? id = c.stage? id := by
  have hp : (fun f : Fetch => decide ((f.id.uri == u) = true ∧ (f.id == id) = true)) = fun f => f.id == id := by
    funext f
    by_cases hf : f.id = id <;> simp [hf, h]
  simp only [stage?, only, List.find?_filter, hp]

theorem outcome?_only (h : id.uri = u) : (c.only u).outcome? id = c.outcome? id := by
  simp only [outcome?, stage?_only h]

theorem setStage_only (c : Cache) (u : String) (id : FetchId) (s : Stage) :
    (c.setStage id s).only u = (c.only u).setStage id s := by
  have hp : ((fun f : Fetch => f.id.uri == u) ∘ fun f => if f.id = id then { f with stage := s } else f) =
      fun f => f.id.uri == u := by
    funext f
    by_cases hf : f.id = id <;> simp [hf]
  simp only [only, setStage, List.filter_map, hp]

theorem setStage_only_of_ne (s : Stage) (h : id.uri ≠ u) : (c.setStage id s).only u = c.only u := by
  rw [setStage_only]
  have hf : ∀ f ∈ (c.only u).fetches, f.id ≠ id := by
    intro f hf he
    have hu : f.id.uri = u := by simpa using (List.mem_filter.mp hf).2
    exact h (he ▸ hu)
  have hmap : ((c.only u).fetches.map fun f => if f.id = id then { f with stage := s } else f) =
      (c.only u).fetches := by
    conv_rhs => rw [← List.map_id (c.only u).fetches]
    apply List.map_congr_left
    intro f hm
    simp [hf f hm]
  simp only [setStage, hmap]

theorem newFetch_only (c : Cache) (u : String) : (c.only u).newFetch u = c.newFetch u := by
  simp [newFetch, only, List.filter_filter]

theorem callerSerial_only (c : Cache) (u : String) : (c.only u).callerSerial u = c.callerSerial u := by
  simp [callerSerial, only, List.filter_filter]

theorem addCaller_only (c : Cache) (u : String) (source : Source) :
    (c.addCaller u source).only u = (c.only u).addCaller u source := by
  simp only [addCaller, callerSerial_only]
  simp [only]

theorem addCaller_only_of_ne (source : Source) (h : uri ≠ u) :
    (c.addCaller uri source).only u = c.only u := by
  simp [addCaller, only, h]

theorem addFetch_only (c : Cache) (u : String) : (c.addFetch u).only u = (c.only u).addFetch u := by
  simp only [addFetch, newFetch_only]
  simp [only, newFetch]

theorem addFetch_only_of_ne (h : uri ≠ u) : (c.addFetch uri).only u = c.only u := by
  simp [addFetch, only, newFetch, h]

theorem lookup_only_entries (entries : List (String × FetchId)) (u : String) :
    (entries.filter (·.1 == u)).lookup u = entries.lookup u := by
  induction entries with
  | nil => rfl
  | cons e entries ih =>
    obtain ⟨v, id⟩ := e
    by_cases hv : v = u
    · simp [hv]
    · have hv' : (u == v) = false := by simpa using Ne.symm hv
      simp [hv, List.lookup_cons, hv', ih]

theorem share_only (h : id.uri = u) : (c.only u).share id = c.share id := by
  simp only [share, outcome?_only h]

theorem lookup_only (hc : ∀ e ∈ c.entries, e.2.uri = e.1) (isOpen : Bool) (u : String) :
    (c.lookup isOpen u).only u = (c.only u).lookup isOpen u := by
  have hl : (c.only u).entries.lookup u = c.entries.lookup u := lookup_only_entries ..
  simp only [Cache.lookup, show (c.only u).pull = c.pull from rfl, hl, newFetch_only,
    show (c.only u).shared = c.shared from rfl]
  split
  · split
    · rename_i id hid
      rw [addCaller_only, share_only (hc _ (mem_of_lookup hid))]
    · rw [addCaller_only, ← addFetch_only, share_only (show (c.newFetch u).uri = u from rfl)]
  · exact addCaller_only ..

theorem lookup_only_of_ne (isOpen : Bool) (h : uri ≠ u) : (c.lookup isOpen uri).only u = c.only u := by
  unfold Cache.lookup
  split
  · split
    · exact addCaller_only_of_ne _ h
    · exact (addCaller_only_of_ne _ h).trans (addFetch_only_of_ne h)
  · exact addCaller_only_of_ne _ h

theorem reply?_only (r : Reply) (h : id.uri = u) :
    (c.only u).reply? id r = (c.reply? id r).map (only u) := by
  unfold reply?
  rw [stage?_only h]
  split
  · rw [← setStage_only]
    simp [only, h]
  · rfl

theorem reply?_only_of_ne (r : Reply) (h : id.uri ≠ u) : ((c.reply? id r).getD c).only u = c.only u := by
  unfold reply?
  split
  · rw [← setStage_only_of_ne (c := c) (.replied r) h]
    simp [only, h]
  · rfl

theorem abort?_only (h : id.uri = u) : (c.only u).abort? id = (c.abort? id).map (only u) := by
  unfold abort?
  rw [stage?_only h]
  split
  · rw [← setStage_only]
    rfl
  · exact reply?_only _ h
  · rw [← setStage_only]
    rfl
  · rfl

theorem abort?_only_of_ne (h : id.uri ≠ u) : ((c.abort? id).getD c).only u = c.only u := by
  unfold abort?
  split
  · exact setStage_only_of_ne _ h
  · exact reply?_only_of_ne _ h
  · exact setStage_only_of_ne _ h
  · rfl

theorem given?_only {source : Source} (h : ∀ id, source.fetch? = some id → id.uri = u) :
    (c.only u).given? source = c.given? source := by
  cases source with
  | known => rfl
  | shared id => simp only [given?, stage?_only (h id rfl)]
  | ended id => exact outcome?_only (h id rfl)

theorem standing_only {k : Caller} (h : ∀ id, k.source.fetch? = some id → id.uri = u) :
    (c.only u).standing k = c.standing k := by
  simp only [standing, given?_only h]

theorem close_only (c : Cache) (u uri : String) : (c.close uri).only u = (c.only u).close uri := by
  simp only [close, only, List.filter_filter, Bool.and_comm]

theorem close_only_self (h : uri ≠ u) : (c.only u).close uri = c.only u := by
  have hf : (c.only u).entries.filter (·.1 != uri) = (c.only u).entries := by
    apply List.filter_eq_self.mpr
    intro e he
    have hu : e.1 = u := by simpa using (List.mem_filter.mp he).2
    simpa [hu] using Ne.symm h
  simp only [close, hf]

theorem configure_only (c : Cache) (u : String) (payload : Value) :
    (c.only u).configure payload = (c.configure payload).map (only u) := by
  unfold configure
  rw [show (c.only u).pull = c.pull from rfl]
  split
  · rfl
  · cases pushed payload <;> rfl

def OwnSources (c : Cache) : Prop :=
  ∀ k ∈ c.callers, ∀ id, k.source.fetch? = some id → id.uri = k.uri

theorem OwnSources.addCaller {source : Source} (h : c.OwnSources)
    (hs : ∀ id, source.fetch? = some id → id.uri = uri) : (c.addCaller uri source).OwnSources := by
  intro k hk
  obtain hold | hnew := List.mem_append.mp hk
  · exact h k hold
  · cases List.mem_singleton.mp hnew
    exact hs

theorem OwnSources.lookup (h : c.OwnSources) (hs : c.Sound) (isOpen : Bool) (uri : String) :
    (c.lookup isOpen uri).OwnSources := by
  unfold Cache.lookup
  split
  · split
    · rename_i id hl
      refine h.addCaller fun i hi => ?_
      cases (c.share_fetch? id).symm.trans hi
      exact (hs.stores _ (mem_of_lookup hl)).1
    · refine OwnSources.addCaller h fun i hi => ?_
      cases (share_fetch? _ _).symm.trans hi
      rfl
  · exact h.addCaller nofun

theorem OwnSources.perform (h : c.OwnSources) (hs : c.Sound) (a : Action) : (c.perform a).1.OwnSources := by
  by_cases ha : ∃ isOpen uri, a = .lookup isOpen uri
  · obtain ⟨isOpen, uri, rfl⟩ := ha
    exact h.lookup hs isOpen uri
  · intro k hk id hid
    obtain ⟨l, hl, hu, hsource⟩ := perform_sources (fun isOpen uri he => ha ⟨isOpen, uri, he⟩) k hk
    rw [← hu]
    exact h l hl id (hsource ▸ hid)

def mark (uri : String) (serial : Nat) (k : Caller) : Caller :=
  if k.hasName uri serial then { k with cancelled := true } else k

theorem filter_map_mark (callers : List Caller) (u uri : String) (serial : Nat) :
    (callers.map (mark uri serial)).filter (·.uri == u) = (callers.filter (·.uri == u)).map (mark uri serial) := by
  have hf : ((fun k : Caller => k.uri == u) ∘ mark uri serial) = fun k => k.uri == u := by
    funext k
    simp only [Function.comp_apply, mark]
    split <;> rfl
  rw [List.filter_map, hf]

theorem cancel?_mark (c : Cache) (uri : String) (serial : Nat) :
    c.cancel? uri serial = (c.callers.find? (·.hasName uri serial)).bind fun k =>
      if c.standing k = .pending then some { c with callers := c.callers.map (mark uri serial) } else none := by
  unfold cancel?
  cases c.callers.find? (·.hasName uri serial) <;> rfl

theorem cancel?_only (hc : c.OwnSources) (u : String) (serial : Nat) :
    (c.only u).cancel? u serial = (c.cancel? u serial).map (only u) := by
  have hfind : (c.only u).callers.find? (·.hasName u serial) = c.callers.find? (·.hasName u serial) := by
    have hp : (fun k : Caller => decide ((k.uri == u) = true ∧ k.hasName u serial = true)) =
        fun k => k.hasName u serial := by
      funext k
      rw [Bool.eq_iff_iff]
      simp [Caller.hasName]
    simp only [only, List.find?_filter, hp]
  rw [cancel?_mark, cancel?_mark, hfind]
  cases hk : c.callers.find? (·.hasName u serial) with
  | none => rfl
  | some k =>
    have hn : k.hasName u serial = true := by simpa using List.find?_some hk
    have hu : k.uri = u := by simpa using (Bool.and_eq_true_iff.mp hn).1
    have hown : ∀ id, k.source.fetch? = some id → id.uri = u :=
      fun id hid => (hc k (List.mem_of_find?_eq_some hk) id hid).trans hu
    rw [Option.bind_some, Option.bind_some, standing_only hown]
    split
    · simp only [only, Option.map_some, filter_map_mark]
    · rfl

theorem cancel?_only_of_ne (serial : Nat) (h : uri ≠ u) :
    ((c.cancel? uri serial).getD c).only u = c.only u := by
  have hself : (c.callers.filter (·.uri == u)).map (mark uri serial) = c.callers.filter (·.uri == u) := by
    conv_rhs => rw [← List.map_id (c.callers.filter (·.uri == u))]
    apply List.map_congr_left
    intro k hk
    have hu : k.uri = u := by simpa using (List.mem_filter.mp hk).2
    simp [mark, Caller.hasName, hu, Ne.symm h]
  rw [cancel?_mark]
  cases c.callers.find? (·.hasName uri serial) with
  | none => rfl
  | some k =>
    rw [Option.bind_some]
    split
    · simp only [only, Option.getD_some, filter_map_mark, hself]
    · rfl

theorem conclude_only (o : Outcome) (h : id.uri = u) :
    (c.conclude id o).only u = (c.only u).conclude id o := by
  simp only [conclude, ← setStage_only]
  simp [only, h]

theorem conclude_only_of_ne (o : Outcome) (h : id.uri ≠ u) : (c.conclude id o).only u = c.only u := by
  rw [← setStage_only_of_ne (c := c) (.ended o) h]
  simp [conclude, only, h]

theorem finish_only (c : Cache) (u : String) (id : FetchId) (o : Outcome) :
    (c.only u).finish id o = ((c.finish id o).1.only u, (c.finish id o).2) := by
  unfold finish
  cases o.reason? with
  | none => simp only [setStage_only]
  | some reason =>
    refine Prod.ext ?_ rfl
    simp only [← setStage_only]
    simp only [only, setStage, List.filter_filter, Bool.and_comm]

theorem finish_only_of_ne (o : Outcome) (h : id.uri ≠ u) : (c.finish id o).1.only u = c.only u := by
  have hf : (c.entries.filter (· != (id.uri, id))).filter (·.1 == u) = c.entries.filter (·.1 == u) := by
    rw [List.filter_filter]
    apply List.filter_congr
    intro e _
    by_cases he : e = (id.uri, id) <;> simp [he, h]
  rw [finish_cache, ← setStage_only_of_ne (c := c) (.finished o) h]
  split
  · simp only [only, setStage, hf]
  · rfl

theorem turn_only (h : id.uri = u) :
    (c.only u).turn id = ((c.turn id).1.only u, (c.turn id).2) := by
  unfold turn
  rw [stage?_only h, show (c.only u).provider = c.provider from rfl]
  split
  · split
    · rw [conclude_only _ h]
    · simp only [← setStage_only]
      simp [only, h]
  · rw [conclude_only _ h]
  · exact finish_only ..
  · rfl

theorem turn_only_of_ne (h : id.uri ≠ u) : (c.turn id).1.only u = c.only u := by
  unfold turn
  split
  · split
    · exact conclude_only_of_ne _ h
    · rw [← setStage_only_of_ne (c := c) .asked h]
      simp [only, setStage, h]
  · exact conclude_only_of_ne _ h
  · exact finish_only_of_ne _ h
  · rfl

theorem next_only (h : c.queue.head?.any (·.uri == u) = true) : (c.only u).next.1 = c.next.1.only u := by
  cases hq : c.queue with
  | nil => simp [hq] at h
  | cons id rest =>
    have hid : id.uri = u := by simpa [hq] using h
    have hqo : (c.only u).queue = id :: rest.filter (·.uri == u) := by simp [only, hq, hid]
    have ht := turn_only (c := { c with queue := rest }) hid
    simp only [Cache.next, hq, hqo]
    exact congrArg Prod.fst ht

theorem next_only_of_not (h : ¬ c.queue.head?.any (·.uri == u) = true) : c.next.1.only u = c.only u := by
  cases hq : c.queue with
  | nil => rw [next_of_queue_nil hq]
  | cons id rest =>
    have hid : id.uri ≠ u := by simpa [hq] using h
    have ht := turn_only_of_ne (c := { c with queue := rest }) hid
    simp only [Cache.next, hq]
    rw [ht]
    simp [only, hq, hid]

theorem stage?_only_of_ne (h : id.uri ≠ u) : (c.only u).stage? id = none := by
  have hnone : (c.only u).fetches.find? (·.id == id) = none := by
    apply List.find?_eq_none.mpr
    intro f hf he
    have hu : f.id.uri = u := by simpa using (List.mem_filter.mp hf).2
    have hid : f.id = id := by simpa using he
    exact h (hid ▸ hu)
  rw [stage?, hnone]
  rfl

theorem Queued.only (h : c.Queued) (u : String) : (c.only u).Queued where
  nodup := h.nodup.filter _
  mem_iff := by
    intro id
    rw [show (c.only u).queue = c.queue.filter (·.uri == u) from rfl, List.mem_filter, h.mem_iff]
    by_cases hid : id.uri = u
    · simp [stage?_only hid, hid]
    · simp [stage?_only_of_ne hid, hid]

variable {mark : Stage → Option Outcome}

theorem reaches?_only (h : c.queue.head?.any (·.uri == u) = true) :
    (c.only u).reaches? mark = c.reaches? mark := by
  unfold reaches?
  rw [next_only h]
  cases hq : c.queue with
  | nil => simp [hq] at h
  | cons id rest =>
    have hid : id.uri = u := by simpa [hq] using h
    have hqo : (c.only u).queue = id :: rest.filter (·.uri == u) := by simp [only, hq, hid]
    simp [hqo, marked?, stage?_only hid]

theorem reaches?_filter (c : Cache) (u : String) : (c.reaches? mark).toList.filter (·.1.uri == u) =
    if c.queue.head?.any (·.uri == u) then (c.reaches? mark).toList else [] := by
  cases hr : c.reaches? mark with
  | none => simp
  | some x =>
    have hx := (reaches?_eq_some.mp hr).1
    by_cases hu : x.1.uri = u <;> simp [hx, hu]

/-- The turns that fall to one document are turns of what the cache holds of it. -/
theorem turns_only (c : Cache) (u : String) (n : Nat) : ∃ m, (c.turns n).1.only u = ((c.only u).turns m).1 ∧
    ∀ mark, (c.history mark n).filter (·.1.uri == u) = (c.only u).history mark m := by
  induction n generalizing c with
  | zero => exact ⟨0, rfl, fun _ => rfl⟩
  | succ n ih =>
    obtain ⟨m, ht, hh⟩ := ih c.next.1
    by_cases hu : c.queue.head?.any (·.uri == u) = true
    · rw [← next_only hu] at ht hh
      refine ⟨m + 1, ht, fun mark => ?_⟩
      simp only [history, List.filter_append, reaches?_filter, hu, reaches?_only hu, hh, ↓reduceIte]
    · -- the turn of another document is none of this one, so that fewer turns are left to count
      rw [next_only_of_not hu] at ht hh
      refine ⟨m, ht, fun mark => ?_⟩
      simp only [history, List.filter_append, reaches?_filter, hu, hh, Bool.false_eq_true, ↓reduceIte,
        List.nil_append]

theorem history_of_queue_nil (h : c.queue = []) (n : Nat) : c.history mark n = [] := by
  induction n with
  | zero => rfl
  | succ n ih => simp [history, reaches?, h, next_of_queue_nil h, ih]

theorem turns_le {m n : Nat} (h : (c.turns m).1.queue = []) (hn : m ≤ n) :
    (c.turns n).1 = (c.turns m).1 ∧ ∀ mark, c.history mark n = c.history mark m := by
  induction m generalizing c n with
  | zero =>
    change c.queue = [] at h
    exact ⟨congrArg Prod.fst (turns_of_queue_nil h n), fun _ => history_of_queue_nil h n⟩
  | succ m ih =>
    obtain ⟨n, rfl⟩ := Nat.exists_eq_add_of_le' hn
    obtain ⟨ht, hh⟩ := ih (c := c.next.1) (n := n + m) h (by omega)
    refine ⟨ht, fun mark => ?_⟩
    rw [← Nat.add_assoc, history, history, hh]

/-- However many turns it takes, the end is the same. -/
theorem turns_unique {m n : Nat} (hm : (c.turns m).1.queue = []) (hn : (c.turns n).1.queue = []) :
    (c.turns m).1 = (c.turns n).1 ∧ ∀ mark, c.history mark m = c.history mark n := by
  rcases Nat.le_total m n with hle | hle
  · obtain ⟨ht, hh⟩ := turns_le hm hle
    exact ⟨ht.symm, fun mark => (hh mark).symm⟩
  · exact turns_le hn hle

theorem Queued.settle_only (h : c.Queued) (u : String) : c.settle.1.only u = (c.only u).settle.1 ∧
    ∀ mark, (c.history mark (2 * c.queue.length)).filter (·.1.uri == u) =
      (c.only u).history mark (2 * (c.only u).queue.length) := by
  obtain ⟨m, ht, hh⟩ := c.turns_only u (2 * c.queue.length)
  have hm : ((c.only u).turns m).1.queue = [] := by
    rw [← ht]
    change (c.settle.1.queue.filter _) = []
    rw [h.settle_queue]
    rfl
  -- both have come to rest, though after different numbers of turns
  obtain ⟨heq, hist⟩ := turns_unique hm (h.only u).settle_queue
  exact ⟨ht.trans heq, fun mark => (hh mark).trans (hist mark)⟩

/-- Whether an action is about a document. A turn is about the document of the fetch that takes it. -/
def Action.about (c : Cache) (u : String) : Action → Bool
  | .idle => false
  | .lookup _ uri | .cancel uri _ | .close uri => uri == u
  | .reply id _ | .abort id => id.uri == u
  | .next => c.queue.head?.any (·.uri == u)
  | .configure _ | .settle => true

theorem perform_only {a : Action} (hs : c.Sound) (hq : c.Queued) (ho : c.OwnSources)
    (ha : a.about c u = true) :
    (c.perform a).1.only u = ((c.only u).perform a).1 ∧
      ∀ mark, (c.history mark (a.turns c)).filter (·.1.uri == u) =
        (c.only u).history mark (a.turns (c.only u)) := by
  cases a with
  | idle => cases ha
  | lookup isOpen uri =>
    have hu : uri = u := by simpa [Action.about] using ha
    subst hu
    exact ⟨lookup_only (fun e he => (hs.stores e he).1) isOpen uri, fun _ => rfl⟩
  | reply id r =>
    have hu : id.uri = u := by simpa [Action.about] using ha
    simp only [perform, reply?_only r hu]
    exact ⟨by cases c.reply? id r <;> rfl, fun _ => rfl⟩
  | abort id =>
    have hu : id.uri = u := by simpa [Action.about] using ha
    simp only [perform, abort?_only hu]
    exact ⟨by cases c.abort? id <;> rfl, fun _ => rfl⟩
  | cancel uri serial =>
    have hu : uri = u := by simpa [Action.about] using ha
    subst hu
    simp only [perform, cancel?_only ho]
    exact ⟨by cases c.cancel? uri serial <;> rfl, fun _ => rfl⟩
  | close uri => exact ⟨close_only .., fun _ => rfl⟩
  | configure payload =>
    simp only [perform, configure_only]
    exact ⟨by cases c.configure payload <;> rfl, fun _ => rfl⟩
  | next =>
    refine ⟨(next_only ha).symm, fun mark => ?_⟩
    have hu : c.queue.head?.any (·.uri == u) = true := ha
    simp only [Action.turns, history, List.append_nil, reaches?_filter, reaches?_only hu, hu, ↓reduceIte]
  | settle => exact hq.settle_only u

theorem perform_only_of_not {a : Action} (ha : ¬ a.about c u = true) :
    (c.perform a).1.only u = c.only u ∧
      ∀ mark, (c.history mark (a.turns c)).filter (·.1.uri == u) = [] := by
  cases a with
  | idle => exact ⟨rfl, fun _ => rfl⟩
  | lookup isOpen uri =>
    have hu : uri ≠ u := by simpa [Action.about] using ha
    exact ⟨lookup_only_of_ne isOpen hu, fun _ => rfl⟩
  | reply id r =>
    have hu : id.uri ≠ u := by simpa [Action.about] using ha
    exact ⟨reply?_only_of_ne r hu, fun _ => rfl⟩
  | abort id =>
    have hu : id.uri ≠ u := by simpa [Action.about] using ha
    exact ⟨abort?_only_of_ne hu, fun _ => rfl⟩
  | cancel uri serial =>
    have hu : uri ≠ u := by simpa [Action.about] using ha
    exact ⟨cancel?_only_of_ne serial hu, fun _ => rfl⟩
  | close uri =>
    have hu : uri ≠ u := by simpa [Action.about] using ha
    exact ⟨(close_only c u uri).trans (close_only_self hu), fun _ => rfl⟩
  | next =>
    refine ⟨next_only_of_not ha, fun mark => ?_⟩
    have hu : ¬ c.queue.head?.any (·.uri == u) = true := ha
    simp only [Action.turns, history, List.append_nil, reaches?_filter, hu, Bool.false_eq_true, ↓reduceIte]
  | configure | settle => simp [Action.about] at ha

end DclServer.Cache
