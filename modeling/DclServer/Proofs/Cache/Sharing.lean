import DclServer.Proofs.Cache.Freshness

namespace DclServer.Host

/-- An event that parts a document from a fetch: the document is forgotten, or the failure of this
very fetch is told. -/
def Separates (h : Host) (uri : String) (id : FetchId) (e : Event) : Prop :=
  h.Invalidates uri e ∨ ¬ h.cache.Failed id ∧ (h.step e).host.cache.Failed id

theorem mem_entries_after {h : Host} {uri : String} {id : FetchId} {es : List Event}
    (he : (uri, id) ∈ h.cache.entries)
    (hs : ∀ b e b', es = b ++ e :: b' → ¬ (h.after b).Separates uri id e) :
    (uri, id) ∈ (h.after es).cache.entries := by
  induction es generalizing h with
  | nil => exact he
  | cons e es ih =>
    have hn := hs [] e es rfl
    refine ih ?_ fun b f b' hb => hs (e :: b) f b' (by rw [hb]; rfl)
    obtain hk | hf | hf := (h.step_reacts e).kept he
    · exact hk
    · exact absurd (.inl ((h.invalidates_iff uri e).mpr hf)) hn
    · exact absurd (.inr hf) hn

theorem lookup_creates {h : Host} {uri : String} {id : FetchId} (hold : id ∉ h.cache.ids)
    (hnew : id ∈ (h.step (.lookup uri)).host.cache.ids) :
    h.cache.entries.lookup uri = none ∧ (uri, id) ∈ (h.step (.lookup uri)).host.cache.entries := by
  obtain hc | ⟨ha, hp, hl, hid⟩ := (h.step_reacts (.lookup uri)).mem_ids hnew
  · exact absurd hc hold
  · obtain ⟨heq, ho⟩ := lookup_of_action ha
    cases heq
    have hc : (h.step (.lookup id.uri)).host.cache.entries =
        h.cache.entries ++ [(id.uri, h.cache.newFetch id.uri)] := by
      simp [step, withCache, Cache.lookup, hp, ho, hl, Cache.addCaller, Cache.addFetch]
    rw [hc, ← hid]
    exact ⟨hl, by simp⟩

theorem lookup_shares {h : Host} (hs : h.cache.Sound) (hp : h.cache.pull = true) {uri : String}
    (ho : h.isOpen uri = true) {id : FetchId} (he : (uri, id) ∈ h.cache.entries) :
    (h.step (.lookup uri)).host.cache = h.cache.addCaller uri (h.cache.share id) := by
  simp [step, withCache, Cache.lookup, hp, ho, hs.lookup he]

def servedBy (h : Host) (i : Nat) : Option FetchId :=
  (h.cache.callers[i]?).bind (·.source.fetch?)

theorem mem_entries_of_servedBy {h : Host} (hs : h.cache.Sound) {uri : String} {id : FetchId}
    (hid : (h.step (.lookup uri)).host.servedBy h.cache.callers.length = some id) :
    h.cache.pull = true ∧ h.isOpen uri = true ∧
      (uri, id) ∈ (h.step (.lookup uri)).host.cache.entries := by
  by_cases hpo : h.cache.pull = true ∧ h.isOpen uri = true
  · obtain ⟨i, source, -, hi, he, hk, -⟩ := lookup_caller hs hpo.1 hpo.2
    have hsame : i = id := by simpa [servedBy, hk, hi] using hid
    exact ⟨hpo.1, hpo.2, hsame ▸ he⟩
  · have hno : (h.cache.pull && h.isOpen uri) = false := by simpa using hpo
    simp [servedBy, step, withCache, Cache.lookup_known _ _ _ hno, Cache.addCaller, Source.fetch?] at hid

/-- One fetch for a document between invalidations. Two fetches of a document are parted by an
invalidation of the document or the failure of the first one; lookups with neither between them
share one fetch; and where there is nothing to fetch, a lookup stores nothing. -/
theorem fetches_separated {h : Host} (hf : h.Fresh) (uri : String) (a b : List Event) :
    (∀ f g, f ∉ (h.after a).cache.ids → f ∈ (h.after (a ++ [.lookup uri])).cache.ids →
      g ∉ (h.after (a ++ .lookup uri :: b)).cache.ids →
      g ∈ (h.after (a ++ .lookup uri :: b ++ [.lookup uri])).cache.ids →
      ∃ b₁ e b₂, b = b₁ ++ e :: b₂ ∧ (h.after (a ++ .lookup uri :: b₁)).Separates uri f e) ∧
    (∀ id, (h.after (a ++ [.lookup uri])).servedBy (h.after a).cache.callers.length = some id →
      (h.after (a ++ .lookup uri :: b)).isOpen uri = true →
      (∀ b₁ e b₂, b = b₁ ++ e :: b₂ → ¬ (h.after (a ++ .lookup uri :: b₁)).Separates uri id e) →
      (h.after (a ++ .lookup uri :: b ++ [.lookup uri])).servedBy
          (h.after (a ++ .lookup uri :: b)).cache.callers.length = some id ∧
        (h.after (a ++ .lookup uri :: b ++ [.lookup uri])).cache.ids =
          (h.after (a ++ .lookup uri :: b)).cache.ids) ∧
    ((h.cache.pull && (h.after a).isOpen uri) = false →
      (h.after (a ++ [.lookup uri])).cache =
        (h.after a).cache.addCaller uri (.known (h.after a).cache.shared)) := by
  have hsa := after_sound hf.sound a
  have hsb := after_sound hf.sound (a ++ .lookup uri :: b)
  have hpa := h.after_pull a
  have hmid : ∀ b', h.after (a ++ .lookup uri :: b') = ((h.after a).step (.lookup uri)).host.after b' :=
    fun b' => h.after_append a (.lookup uri :: b')
  simp only [after_concat]
  refine ⟨?_, ?_, ?_⟩
  · intro f g hf₀ hf₁ hg₀ hg₁
    obtain ⟨-, he⟩ := lookup_creates hf₀ hf₁
    obtain ⟨hl, -⟩ := lookup_creates hg₀ hg₁
    by_contra hno
    have hstay : (uri, f) ∈ (h.after (a ++ .lookup uri :: b)).cache.entries := by
      rw [hmid]
      refine mem_entries_after he fun b₁ e b₂ hb hsep => hno ⟨b₁, e, b₂, hb, ?_⟩
      rwa [hmid]
    rw [hsb.lookup hstay] at hl
    cases hl
  · intro id hid ho hno
    obtain ⟨hp, -, he⟩ := mem_entries_of_servedBy hsa hid
    have hstay : (uri, id) ∈ (h.after (a ++ .lookup uri :: b)).cache.entries := by
      rw [hmid]
      refine mem_entries_after he fun b₁ e b₂ hb hsep => hno b₁ e b₂ hb ?_
      rwa [hmid]
    have hpb := (h.after_pull (a ++ .lookup uri :: b)).trans (hpa.symm.trans hp)
    rw [servedBy, lookup_shares hsb hpb ho hstay]
    exact ⟨by simp [Cache.addCaller, Cache.share_fetch?], rfl⟩
  · intro hno
    rw [← hpa] at hno
    simp [step, withCache, Cache.lookup_known _ _ _ hno]

/-- The failure of a fetch that a change of configuration has replaced does not part the document from
the new fetch, as the change did from the old one. -/
theorem stale_failure_parts_nothing :
    let h := pulling id ["a"]
    let a : List Event := [.lookup "a", .turn, .configure .null]
    let b : List Event := [.turn, .reply ⟨"a", 0⟩ .cancelled, .settle]
    h.Fresh ∧ (h.after (a ++ .lookup "a" :: b)).cache.outcome? ⟨"a", 0⟩ = some .cancelled ∧
      (h.after (a ++ .lookup "a" :: b ++ [.lookup "a"])).servedBy 2 = some ⟨"a", 1⟩ ∧
      ∃ b₁ e b₂, [.turn, .configure .null] = b₁ ++ e :: b₂ ∧
        (h.after ([] ++ .lookup "a" :: b₁)).Separates "a" ⟨"a", 0⟩ e := by
  intro h a b
  have hruns : (h.after (a ++ .lookup "a" :: b)).cache.outcome? ⟨"a", 1⟩ = none := by decide
  have hno : ∀ b₁ e b₂, b = b₁ ++ e :: b₂ →
      ¬ (h.after (a ++ .lookup "a" :: b₁)).Separates "a" ⟨"a", 1⟩ e := by
    rintro b₁ e b₂ hb (hinv | ⟨-, hfail⟩)
    · have he : e ∈ b := by simp [hb]
      simp only [b, List.mem_cons, List.not_mem_nil, or_false] at he
      obtain rfl | rfl | rfl := he <;> exact hinv
    · obtain ⟨o, ho, -⟩ := (after_leads _ b₂).failed hfail
      have hsplit : a ++ .lookup "a" :: b = (a ++ .lookup "a" :: b₁) ++ e :: b₂ := by simp [hb]
      rw [hsplit, after_append, after_cons] at hruns
      simp [Cache.outcome?, ho, Stage.outcome?] at hruns
  obtain ⟨-, hshare, -⟩ := fetches_separated (h := h) rfl "a" a b
  obtain ⟨hpart, -⟩ := fetches_separated (h := h) rfl "a" [] [.turn, .configure .null]
  have hplace : (h.after (a ++ .lookup "a" :: b)).cache.callers.length = 2 := by decide
  rw [hplace] at hshare
  refine ⟨rfl, by decide, (hshare ⟨"a", 1⟩ (by decide) (by decide) hno).1, ?_⟩
  exact hpart ⟨"a", 0⟩ ⟨"a", 1⟩ (by decide) (by decide) (by decide) (by decide)

end DclServer.Host
