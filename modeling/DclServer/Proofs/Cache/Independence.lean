import DclServer.Proofs.Cache.Projection
import DclServer.Proofs.Cache.Representation
import DclServer.Proofs.CloseHook

namespace DclServer

/-- What is seen of one document in a run: whether it is open in the end, its entry, the stages of its
fetches, how those stand who looked it up, and the calls and the warnings for it. -/
structure DocumentView where
  isOpen : Bool
  entry : Option FetchId
  stages : List Stage
  standings : List Standing
  asked : List FetchId
  warned : List Log

namespace Host

variable {g h : Host} {u : String} {e : Event} {es : List Event}

def view (h : Host) (u : String) (es : List Event) : DocumentView where
  isOpen := (h.after es).isOpen u
  entry := (h.after es).cache.entries.lookup u
  stages := ((h.after es).cache.fetches.filter (·.id.uri == u)).map (·.stage)
  standings := ((h.after es).cache.callers.filter (·.uri == u)).map (h.after es).cache.standing
  asked := ((h.run es).2.filterMap Effect.asked?).filter (·.uri == u)
  warned := if h.cache.reports then ((h.tellings es).filter (·.1.uri == u)).filterMap Cache.warning? else []

/-- The events about a document, also under another name of it, and those about all documents. A turn
is about the document of the fetch that takes it. -/
def concerns (h : Host) (u : String) : Event → Bool
  | .opened uri | .dropped uri | .didClose uri => uri == u || h.naming uri == u
  | .lookup uri | .cancel uri _ | .closed uri | .broadcast uri => uri == u
  | .reply id _ | .abort id => id.uri == u
  | .turn => h.cache.queue.head?.any (·.uri == u)
  | .hook _ | .configure _ | .settle => true

def restrict (h : Host) (u : String) : List Event → List Event
  | [] => []
  | e :: es =>
    if h.concerns u e then e :: (h.step e).host.restrict u es else (h.step e).host.restrict u es

theorem restrict_append (h : Host) (u : String) (es fs : List Event) :
    h.restrict u (es ++ fs) = h.restrict u es ++ (h.after es).restrict u fs := by
  induction es generalizing h with
  | nil => rfl
  | cons e es ih =>
    simp only [List.cons_append, restrict, after_cons, ih]
    split <;> rfl

theorem step_hears (h : Host) (he : ∀ x, e ≠ .hook x) : (h.step e).host.hears = h.hears := by
  have hagain : ((broadcast (hooksAfter h.hooks)).ran.any (·.action)) = h.hears := by
    rw [Host.hears, Bool.eq_iff_iff]
    simp only [List.any_eq_true, mem_broadcast_hooksAfter]
  cases e with
  | didClose | broadcast => exact hagain
  | hook x => exact absurd rfl (he x)
  | reply | abort | cancel | configure =>
    simp only [step]
    split <;> rfl
  | opened | dropped | lookup | closed | turn | settle => rfl

structure Regular (h : Host) : Prop where
  sound : h.cache.Sound
  queued : h.cache.Queued
  own : h.cache.OwnSources

theorem Regular.step (hr : h.Regular) (e : Event) : (h.step e).host.Regular where
  sound := hr.sound.reacts (h.step_reacts e)
  queued := by
    rw [(h.step_performs e).1]
    exact hr.queued.perform hr.sound.numbered _
  own := by
    rw [(h.step_performs e).1]
    exact hr.own.perform hr.sound _

theorem Fresh.regular (hf : h.Fresh) : h.Regular where
  sound := hf.sound
  queued := after_queued hf []
  own := by
    rw [hf]
    nofun

/-- One host holds of a document what the other holds, and nothing of any other. -/
structure Agrees (u : String) (g h : Host) : Prop where
  cache : g.cache = h.cache.only u
  count : g.documents.count u = h.documents.count u
  tracksOpen : g.tracksOpen = h.tracksOpen
  naming : g.naming = h.naming
  hears : g.hears = h.hears

theorem Fresh.agrees (hf : h.Fresh) (u : String) : Agrees u h h where
  cache := by
    rw [hf]
    rfl
  count := rfl
  tracksOpen := rfl
  naming := rfl
  hears := rfl

theorem Agrees.isOpen (ha : Agrees u g h) : g.isOpen u = h.isOpen u := by
  have hmem : g.documents.contains u = h.documents.contains u := by
    rw [Bool.eq_iff_iff, List.contains_iff_mem, List.contains_iff_mem, ← List.count_pos_iff, ha.count, List.count_pos_iff]
  simp only [Host.isOpen, ha.tracksOpen, hmem]

theorem Agrees.standings (ha : Agrees u g h) (ho : h.cache.OwnSources) :
    (g.cache.callers.filter (·.uri == u)).map g.cache.standing =
      (h.cache.callers.filter (·.uri == u)).map h.cache.standing := by
  rw [ha.cache]
  simp only [Cache.only, List.filter_filter, Bool.and_self]
  apply List.map_congr_left
  intro k hk
  obtain ⟨hk, hu⟩ := List.mem_filter.mp hk
  exact Cache.standing_only fun id hid => (ho k hk id hid).trans (by simpa using hu)

theorem documentsAfter_count (hc : g.documents.count u = h.documents.count u) (hn : g.naming = h.naming)
    (e : Event) : (g.documentsAfter e).count u = (h.documentsAfter e).count u := by
  cases e <;> simp [documentsAfter, List.count_append, List.count_erase, hc, hn]

theorem documentsAfter_count_of_not (he : ¬ h.concerns u e = true) :
    (h.documentsAfter e).count u = h.documents.count u := by
  cases e with
  | opened uri | dropped uri | didClose uri =>
    have hu : h.naming uri ≠ u := fun hn => he (by simp [concerns, hn])
    simp [documentsAfter, List.count_append, List.count_erase, hu]
  | _ => rfl

theorem Agrees.action (ha : Agrees u g h) (he : h.concerns u e = true) : g.action e = h.action e := by
  cases e with
  | lookup uri =>
    have hu : uri = u := by simpa [concerns] using he
    simp only [Host.action, hu, ha.isOpen]
  | didClose | broadcast => simp only [Host.action, ha.hears]
  | _ => rfl

theorem action_only (hr : h.Regular) (he : h.concerns u e = true) :
    (h.cache.perform (h.action e)).1.only u = ((h.cache.only u).perform (h.action e)).1 ∧
      ∀ mark, (h.cache.history mark ((h.action e).turns h.cache)).filter (·.1.uri == u) =
        (h.cache.only u).history mark ((h.action e).turns (h.cache.only u)) := by
  cases e with
  | opened | dropped | hook => exact ⟨rfl, fun _ => rfl⟩
  | didClose uri | broadcast uri =>
    simp only [action]
    split
    · exact ⟨Cache.close_only .., fun _ => rfl⟩
    · exact ⟨rfl, fun _ => rfl⟩
  | _ => exact Cache.perform_only hr.sound hr.queued hr.own he

theorem not_about (he : ¬ h.concerns u e = true) : ¬ (h.action e).about h.cache u = true := by
  cases e with
  | opened | dropped => simp [action, Cache.Action.about]
  | hook => simp [concerns] at he
  | didClose uri =>
    have hu : uri ≠ u := fun hn => he (by simp [concerns, hn])
    cases hh : h.hears <;> simp [action, hh, Cache.Action.about, hu]
  | broadcast uri =>
    have hu : uri ≠ u := by simpa [concerns] using he
    cases hh : h.hears <;> simp [action, hh, Cache.Action.about, hu]
  | _ => exact he

theorem Agrees.step (ha : Agrees u g h) (hr : h.Regular) (hk : ∀ x, e ≠ .hook x)
    (he : h.concerns u e = true) : Agrees u (g.step e).host (h.step e).host := by
  obtain ⟨hgt, hgn, -⟩ := g.step_frame e
  obtain ⟨hht, hhn, -⟩ := h.step_frame e
  refine ⟨?_, ?_, ?_, ?_, ?_⟩
  · rw [(g.step_performs e).1, (h.step_performs e).1, ha.action he, ha.cache, (action_only hr he).1]
  · rw [step_documents, step_documents, documentsAfter_count ha.count ha.naming]
  · rw [hgt, hht, ha.tracksOpen]
  · rw [hgn, hhn, ha.naming]
  · rw [step_hears g hk, step_hears h hk, ha.hears]

theorem Agrees.skip (ha : Agrees u g h) (hk : ∀ x, e ≠ .hook x) (he : ¬ h.concerns u e = true) :
    Agrees u g (h.step e).host := by
  obtain ⟨hht, hhn, -⟩ := h.step_frame e
  refine ⟨?_, ?_, ?_, ?_, ?_⟩
  · rw [(h.step_performs e).1, (Cache.perform_only_of_not (not_about he)).1, ha.cache]
  · rw [step_documents, documentsAfter_count_of_not he, ha.count]
  · rw [hht, ha.tracksOpen]
  · rw [hhn, ha.naming]
  · rw [step_hears h hk, ha.hears]

theorem Agrees.run (ha : Agrees u g h) (hr : h.Regular) (hk : ∀ x, .hook x ∉ es) :
    Agrees u (g.after (h.restrict u es)) (h.after es) ∧
      ∀ mark, g.history mark (h.restrict u es) = (h.history mark es).filter (·.1.uri == u) := by
  induction es generalizing g h with
  | nil => exact ⟨ha, fun _ => rfl⟩
  | cons e es ih =>
    have hhook : ∀ x, e ≠ .hook x := fun x hx => hk x (by simp [hx])
    have hrest : ∀ x, .hook x ∉ es := fun x hx => hk x (by simp [hx])
    by_cases he : h.concerns u e = true
    · obtain ⟨hagree, hist⟩ := ih (ha.step hr hhook he) (hr.step e) hrest
      simp only [restrict, he, ↓reduceIte, after_cons]
      refine ⟨hagree, fun mark => ?_⟩
      simp only [history, List.filter_append, hist, (action_only hr he).2, ha.action he, ha.cache]
    · obtain ⟨hagree, hist⟩ := ih (ha.skip hhook he) (hr.step e) hrest
      simp only [restrict, he, Bool.false_eq_true, ↓reduceIte, after_cons]
      refine ⟨hagree, fun mark => ?_⟩
      simp only [history, List.filter_append, hist, (Cache.perform_only_of_not (not_about he)).2, List.nil_append]

theorem Fresh.asked (hf : h.Fresh) (es : List Event) :
    (h.run es).2.filterMap Effect.asked? = (h.after es).cache.calls := by
  rw [after_calls, hf]
  rfl

theorem Fresh.warned (hf : h.Fresh) (es : List Event) : (h.run es).2.filterMap Effect.warned? =
    if h.cache.reports then (h.tellings es).filterMap Cache.warning? else [] :=
  (run_accounts hf.sound (after_queued hf []) es).warned

theorem after_regular (hr : h.Regular) (es : List Event) : (h.after es).Regular :=
  after_preserves (P := Regular) (fun _ e hg => hg.step e) hr es

theorem restrict_view (hf : h.Fresh) (u : String) (hk : ∀ x, .hook x ∉ es) :
    h.view u (h.restrict u es) = h.view u es := by
  obtain ⟨ha, hist⟩ := (hf.agrees u).run hf.regular hk
  unfold view
  rw [ha.isOpen, ha.standings (after_regular hf.regular es).own, hf.asked, hf.asked, ha.cache]
  simp [Cache.only, List.filter_filter, Cache.lookup_only_entries, tellings, hist]

theorem restrict_effects (hf : h.Fresh) (u : String) (hk : ∀ x, .hook x ∉ es) :
    (h.run (h.restrict u es)).2.filterMap Effect.asked? = (h.view u es).asked ∧
      (h.run (h.restrict u es)).2.filterMap Effect.warned? = (h.view u es).warned := by
  obtain ⟨ha, hist⟩ := (hf.agrees u).run hf.regular hk
  constructor
  · simp only [view, hf.asked, ha.cache]
    rfl
  · simp only [view, hf.warned, tellings, hist]

theorem concerns_of_naming (hn : g.naming = h.naming) (he : e ≠ .turn) : g.concerns u e = h.concerns u e := by
  cases e with
  | turn => exact absurd rfl he
  | _ => simp only [concerns, hn]

theorem restrict_eq_filter (h : Host) (u : String) (ht : .turn ∉ es) :
    h.restrict u es = es.filter (h.concerns u) := by
  induction es generalizing h with
  | nil => rfl
  | cons e es ih =>
    have hrest : .turn ∉ es := fun hm => ht (by simp [hm])
    have hsame : es.filter ((h.step e).host.concerns u) = es.filter (h.concerns u) := by
      apply List.filter_congr
      intro f hf
      exact concerns_of_naming (h.step_frame e).2.1 fun he => hrest (he ▸ hf)
    rw [restrict, ih _ hrest, hsame, List.filter_cons]

theorem restrict_swap {f : Event} {before later : List Event} (ht : .turn ∉ e :: f :: later)
    (hu : ¬ (h.concerns u e = true ∧ h.concerns u f = true)) :
    h.restrict u (before ++ e :: f :: later) = h.restrict u (before ++ f :: e :: later) := by
  have ht' : .turn ∉ f :: e :: later := by simp_all
  have he : (h.after before).concerns u e = h.concerns u e :=
    concerns_of_naming (h.after_naming before) fun he => ht (by simp [he])
  have hf : (h.after before).concerns u f = h.concerns u f :=
    concerns_of_naming (h.after_naming before) fun hf => ht (by simp [hf])
  rw [restrict_append, restrict_append, restrict_eq_filter _ u ht, restrict_eq_filter _ u ht']
  -- at most one of the two is kept
  cases hce : h.concerns u e <;> cases hcf : h.concerns u f <;> simp_all

/-- Documents do not disturb each other: what is seen of one is the same, at every moment and over the
whole run, if all that is about others is left out; and neighbouring events about different documents
may change places. The warnings that are seen of one are its part of those that the run sends. (Hooks are registered before the run. A turn belongs to whoever waits longest, so the
change of places is seen when no single turns are taken after it.) -/
theorem documents_independent (hf : h.Fresh) (hk : ∀ x, .hook x ∉ es) :
    (∀ u before later, es = before ++ later →
      h.restrict u es = h.restrict u before ++ (h.after before).restrict u later ∧
        h.view u (h.restrict u before) = h.view u before) ∧
    (∀ u, (h.run (h.restrict u es)).2.filterMap Effect.asked? = (h.view u es).asked ∧
      (h.run (h.restrict u es)).2.filterMap Effect.warned? = (h.view u es).warned) ∧
    ((h.run es).2.filterMap Effect.warned? =
      if h.cache.reports then (h.tellings es).filterMap Cache.warning? else []) ∧
    ∀ before e f later, es = before ++ e :: f :: later → .turn ∉ e :: f :: later →
      (∀ u, ¬ (h.concerns u e = true ∧ h.concerns u f = true)) →
      ∀ u, h.view u (before ++ f :: e :: later) = h.view u es := by
  refine ⟨fun u before later hes => ?_, fun u => restrict_effects hf u hk, hf.warned es, ?_⟩
  · subst hes
    have hbefore : ∀ x, .hook x ∉ before := fun x hx => hk x (by simp [hx])
    exact ⟨restrict_append .., restrict_view hf u hbefore⟩
  · rintro before e f later rfl ht hu u
    have hk' : ∀ x, .hook x ∉ before ++ f :: e :: later := by
      intro x hx
      exact hk x (by simp at hx ⊢; tauto)
    rw [← restrict_view hf u hk, ← restrict_view hf u hk', restrict_swap ht (hu u)]

/-- One document is served while the fetch of another fails beside it. -/
theorem failure_beside_a_document :
    let h := pulling id ["a", "b"]
    let es : List Event := [.lookup "a", .lookup "b", .turn, .turn, .reply ⟨"b", 0⟩ (.fault ⟨.runtime, "boom"⟩),
      .turn, .didClose "b", .reply ⟨"a", 0⟩ (.value (.object [(.text "maxNumberOfProblems", .int 5)])), .settle]
    h.Fresh ∧ (∀ x, .hook x ∉ es) ∧ (h.restrict "a" es).length = 4 ∧
      h.view "a" (h.restrict "a" es) = h.view "a" es ∧ (h.view "a" es).standings = [.done (.settings ⟨5⟩)] ∧
      (h.run es).2.filterMap Effect.warned? = [⟨.warning, "Settings fetch for b failed (RuntimeError: boom)"⟩] ∧
      (h.run (h.restrict "a" es)).2.filterMap Effect.warned? = [] := by
  intro h es
  have hk : ∀ x, .hook x ∉ es := by simp [es]
  obtain ⟨hmoments, heffects, hwarned, -⟩ := documents_independent (h := h) rfl hk
  refine ⟨rfl, hk, by decide +kernel, ?_, by decide +kernel, ?_, ?_⟩
  · exact (hmoments "a" es [] (List.append_nil es).symm).2
  · rw [hwarned]
    decide +kernel
  · rw [(heffects "a").2]
    decide +kernel

end Host

end DclServer
