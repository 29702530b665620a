import DclServer.Proofs.Cache.Run

namespace DclServer.Host

theorem not_mem_of_invalidates {h : Host} {uri : String} {e : Event} (he : h.Invalidates uri e)
    (id : FetchId) : (uri, id) ∉ (h.step e).host.cache.entries := by
  rw [invalidates_iff] at he
  rw [(h.step_performs e).1]
  obtain ha | ⟨hp, payload, ha⟩ := he
  · simp [ha, Cache.perform, Cache.close]
  · simp [ha, Cache.perform, Cache.configure, hp, Except.toOption]

theorem entries_younger {h : Host} (hs : h.cache.Sound) {uri : String}
    (hn : ∀ id, (uri, id) ∉ h.cache.entries) (es : List Event) :
    ∀ id, (uri, id) ∈ (h.after es).cache.entries → id ∉ h.cache.ids := by
  refine (after_preserves (P := fun g => g.cache.Sound ∧ h.cache.Leads g.cache ∧
    ∀ id, (uri, id) ∈ g.cache.entries → id ∉ h.cache.ids) ?_ ⟨hs, .refl _, ?_⟩ es).2.2
  · rintro g e ⟨hg, hl, hy⟩
    have hr := g.step_reacts e
    refine ⟨hg.reacts hr, hl.trans hr.leads, fun id hid => ?_⟩
    obtain hold | ⟨-, hnew⟩ := hr.mem_entries hid
    · exact hy id hold
    · intro hc
      exact hg.numbered.newFetch_absent uri (hnew ▸ hl.mem_ids hc)
  · exact fun id hid => absurd hid (hn id)

theorem mem_ids_of_ask {h : Host} (hs : h.cache.Sound) {es : List Event} {id : FetchId}
    (ha : .ask id ∈ (h.run es).2) : id ∈ (h.after es).cache.ids := by
  have hm : id ∈ (h.run es).2.filterMap Effect.asked? := List.mem_filterMap.mpr ⟨_, ha, rfl⟩
  apply (after_sound hs es).asked
  rw [after_calls]
  exact List.mem_append_right _ hm

theorem given?_outcome? {c : Cache} {source : Source} {id : FetchId} {o : Outcome}
    (hs : source.fetch? = some id) (hg : c.given? source = some o) : c.outcome? id = some o := by
  cases source with
  | known => cases hs
  | ended => cases hs; exact hg
  | shared =>
    cases hs
    simp only [Cache.given?] at hg
    split at hg
    · rename_i p hp
      cases hg
      simp [Cache.outcome?, hp, Stage.outcome?]
    · cases hg

theorem given?_of_done {c : Cache} {k : Caller} {o : Outcome} (h : c.standing k = .done o) :
    c.given? k.source = some o := by
  cases hk : k.cancelled with
  | true => simp [Cache.standing, hk] at h
  | false =>
    cases hg : c.given? k.source with
    | none => simp [Cache.standing, hk, hg] at h
    | some p => cases p <;> simp_all [Cache.standing]

theorem given?_of_cancelled {c : Cache} {k : Caller} (h : c.standing k = .cancelled) (hk : ¬ k.cancelled) :
    c.given? k.source = some .cancelled := by
  cases hg : c.given? k.source with
  | none => simp [Cache.standing, hk, hg] at h
  | some p => cases p <;> simp_all [Cache.standing]

theorem lookup_caller {h : Host} (hs : h.cache.Sound) (hp : h.cache.pull = true) {uri : String}
    (ho : h.isOpen uri = true) :
    ∃ id source, id.uri = uri ∧ source.fetch? = some id ∧
      (uri, id) ∈ (h.step (.lookup uri)).host.cache.entries ∧
      (h.step (.lookup uri)).host.cache.callers =
        h.cache.callers ++ [{ uri, serial := h.cache.callerSerial uri, source }] ∧
      ((uri, id) ∈ h.cache.entries ∧ (h.step (.lookup uri)).host.cache.ids = h.cache.ids ∨
        id ∉ h.cache.ids) := by
  have hc : (h.step (.lookup uri)).host.cache = h.cache.lookup true uri := by
    simp [step, withCache, ho]
  rw [hc]
  exact hs.lookup_serves hp uri

/-- No stale settings: the fetch behind a lookup of an open document is created, and asks, after
every earlier change of configuration and close of the document, so that what the caller is given
answers a question that was put after these. -/
theorem lookup_outlives_no_invalidation {h : Host} (hf : h.Fresh) (hp : h.cache.pull = true)
    (before later : List Event) (uri : String) (ho : (h.after before).isOpen uri = true) :
    let t := h.after (before ++ .lookup uri :: later)
    ∃ id k, id.uri = uri ∧ t.cache.callers[(h.after before).cache.callers.length]? = some k ∧
      k.source.fetch? = some id ∧ id ∈ (h.after (before ++ [.lookup uri])).cache.ids ∧
      (∀ o, t.cache.given? k.source = some o → t.cache.outcome? id = some o) ∧
      (∀ o, t.cache.standing k = .done o → t.cache.outcome? id = some o) ∧
      (t.cache.standing k = .cancelled → k.cancelled = true ∨ t.cache.outcome? id = some .cancelled) ∧
      ∀ pre e mid, before = pre ++ e :: mid → (h.after pre).Invalidates uri e →
        id ∉ (h.after (pre ++ [e])).cache.ids ∧ .ask id ∉ (h.run (pre ++ [e])).2 ∧
        ∀ o, t.cache.outcome? id = some o →
          (∃ r, (∃ x ∈ mid ++ .lookup uri :: later, x.Answers id r) ∧ o = h.cache.provider.outcome r) ∨
            h.cache.provider = .absent ∧ o = h.cache.provider.outcome (.value .null) := by
  intro t
  have hb := after_sound hf.sound before
  obtain ⟨id, source, hu, hsrc, he, hk, hid⟩ := lookup_caller hb ((h.after_pull before).trans hp) ho
  have hplace : ((h.after before).step (.lookup uri)).host.cache.callers[(h.after before).cache.callers.length]? =
      some { uri, serial := (h.after before).cache.callerSerial uri, source } := by
    rw [hk]
    simp
  obtain ⟨b, hkey⟩ := after_caller hplace later
  have ht : t = ((h.after before).step (.lookup uri)).host.after later := h.after_append before _
  refine ⟨id, _, hu, ht ▸ hkey, hsrc, ?_, fun o => given?_outcome? hsrc, ?_, ?_, ?_⟩
  · rw [after_concat]
    exact (hb.reacts ((h.after before).step_reacts (.lookup uri))).created _ he
  · exact fun o ho => given?_outcome? hsrc (given?_of_done ho)
  · exact fun hc => or_iff_not_imp_left.mpr fun hk => given?_outcome? hsrc (given?_of_cancelled hc hk)
  intro pre e mid hsplit hinv
  have hmid : h.after before = (h.after (pre ++ [e])).after mid := by
    rw [← after_append, hsplit, List.append_assoc]
    rfl
  -- an entry that the lookup finds was made after `e`, which left none; a new fetch is newer still
  have hnew : id ∉ (h.after (pre ++ [e])).cache.ids := by
    obtain ⟨hold, -⟩ | habs := hid
    · refine entries_younger (after_sound hf.sound _) ?_ mid id (hmid ▸ hold)
      rw [after_concat]
      exact not_mem_of_invalidates hinv
    · intro hc
      exact habs (hmid ▸ (after_leads _ mid).mem_ids hc)
  refine ⟨hnew, fun ha => hnew (mem_ids_of_ask hf.sound ha), fun o hout => ?_⟩
  have hrest : t = (h.after (pre ++ [e])).after (mid ++ .lookup uri :: later) := by
    rw [← after_append, show t = h.after (before ++ .lookup uri :: later) from rfl, hsplit]
    simp
  rw [hrest] at hout
  rw [← h.after_provider (pre ++ [e])]
  exact outcome?_after hnew hout

/-- A question that is out when the configuration changes serves nobody who asks later, although its
reply comes first. -/
theorem late_reply_is_stale :
    let h := pulling id ["a"]
    let before : List Event := [.lookup "a", .turn, .configure .null]
    let later : List Event := [.turn, .reply ⟨"a", 0⟩ (.value .null), .settle]
    h.Fresh ∧ h.cache.pull = true ∧ (h.after before).isOpen "a" = true ∧
      .ask ⟨"a", 0⟩ ∈ (h.run before).2 ∧
      ((h.after (before ++ .lookup "a" :: later)).cache.outcome? ⟨"a", 0⟩).isSome = true ∧
      ∃ id k, (h.after (before ++ .lookup "a" :: later)).cache.callers[1]? = some k ∧
        k.source.fetch? = some id ∧ id ∉ (h.after before).cache.ids ∧ .ask id ∉ (h.run before).2 ∧
        (h.after (before ++ .lookup "a" :: later)).cache.given? k.source = none ∧
        (h.after (before ++ .lookup "a" :: later)).cache.standing k = .pending := by
  intro h before later
  obtain ⟨id, k, -, hk, hs, -, -, -, -, hinv⟩ :=
    lookup_outlives_no_invalidation (h := h) rfl rfl before later "a" (by decide)
  obtain ⟨hnew, hask, -⟩ := hinv [.lookup "a", .turn] (.configure .null) [] rfl rfl
  have hplace : (h.after before).cache.callers.length = 1 := by decide
  rw [hplace] at hk
  have hwaits : (h.after (before ++ .lookup "a" :: later)).cache.callers[1]?.bind
      ((h.after (before ++ .lookup "a" :: later)).cache.given? ·.source) = none := by decide
  have hstands : (h.after (before ++ .lookup "a" :: later)).cache.callers[1]?.map
      (h.after (before ++ .lookup "a" :: later)).cache.standing = some .pending := by decide
  rw [hk] at hstands
  refine ⟨rfl, rfl, by decide, by decide, by decide, id, k, hk, hs, hnew, hask, ?_, Option.some.inj hstands⟩
  exact Option.bind_eq_none_iff.mp hwaits k hk

end DclServer.Host
