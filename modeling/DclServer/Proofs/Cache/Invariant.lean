import DclServer.Proofs.Cache.Action

namespace DclServer.Cache

variable {c : Cache} {a : Action} {r : Cache × List Effect}

theorem Reacts.pull (h : c.Reacts a r) : r.1.pull = c.pull := by
  cases h with
  | advance h => exact h.pull
  | call | mark | create | hear | forget | push => rfl

theorem Reacts.provider (h : c.Reacts a r) : r.1.provider = c.provider := by
  cases h with
  | advance h => exact h.provider
  | call | mark | create | hear | forget | push => rfl

theorem Reacts.leads (h : c.Reacts a r) : c.Leads r.1 := by
  cases h with
  | advance h => exact h.leads
  | create => exact c.addFetch_leads _
  | @hear id s _ _ hs hr =>
    have ho : s.outcome? = none := by cases s <;> simp_all [Stage.rank, Stage.outcome?]
    exact setStage_leads hs (.of_running (Nat.lt_succ_iff.mp hr) ho)
  | call | mark | forget | push => exact .refl c

theorem Reacts.mem_ids (h : c.Reacts a r) {id : FetchId} (hid : id ∈ r.1.ids) :
    id ∈ c.ids ∨ a = .lookup true id.uri ∧ c.pull = true ∧ c.entries.lookup id.uri = none ∧
      id = c.newFetch id.uri := by
  cases h with
  | advance h => exact .inl (h.ids ▸ hid)
  | @create uri _ ha hp hl =>
    have hn : id ∈ c.ids ++ [c.newFetch uri] := c.ids_addFetch uri ▸ hid
    obtain hc | hn := List.mem_append.mp hn
    · exact .inl hc
    · cases List.mem_singleton.mp hn
      exact .inr ⟨ha, hp, hl, rfl⟩
  | @hear i _ t => exact .inl (c.ids_setStage i (.replied t) ▸ hid)
  | call | mark | forget | push => exact .inl hid

theorem Reacts.mem_entries (h : c.Reacts a r) {e : String × FetchId} (he : e ∈ r.1.entries) :
    e ∈ c.entries ∨ a = .lookup true e.1 ∧ e.2 = c.newFetch e.1 := by
  cases h with
  | advance h => exact .inl (h.entries.subset he)
  | @create uri _ ha =>
    obtain hc | hn := List.mem_append.mp he
    · exact .inl hc
    · cases List.mem_singleton.mp hn
      exact .inr ⟨ha, rfl⟩
  | forget => exact .inl (List.mem_of_mem_filter he)
  | call | mark | hear | push => exact .inl he

/-- An entry goes only when its document is forgotten or the failure of its fetch is told. -/
theorem Reacts.kept (h : c.Reacts a r) {e : String × FetchId} (he : e ∈ c.entries) :
    e ∈ r.1.entries ∨ a.Forgets c.pull e.1 ∨ ¬ c.Failed e.2 ∧ r.1.Failed e.2 := by
  cases h with
  | advance h =>
    obtain hk | hf := h.kept e he
    · exact .inl hk
    · exact .inr (.inr hf)
  | create => exact .inl (List.mem_append_left _ he)
  | @forget p hp =>
    cases hpe : p e with
    | false => exact .inr (.inl (hp e hpe))
    | true => exact .inl (List.mem_filter.mpr ⟨he, hpe⟩)
  | call | mark | hear | push => exact .inl he

/-- A caller stays as it is, but that it may be cancelled for good. -/
theorem Reacts.caller (h : c.Reacts a r) {i : Nat} {k : Caller} (hk : c.callers[i]? = some k) :
    ∃ b, r.1.callers[i]? = some { k with cancelled := k.cancelled || b } := by
  have hsame : { k with cancelled := k.cancelled || false } = k := by simp
  cases h with
  | advance h => exact ⟨false, by rw [h.callers, hsame]; exact hk⟩
  | mark p =>
    refine ⟨p k, ?_⟩
    simp only [List.getElem?_map, hk, Option.map_some]
    cases p k <;> simp
  | call | create =>
    refine ⟨false, ?_⟩
    rw [hsame]
    exact (List.getElem?_append_left (List.getElem?_eq_some_iff.mp hk).1).trans hk
  | hear | forget | push => exact ⟨false, by rw [hsame]; exact hk⟩

theorem Reacts.calls (h : c.Reacts a r) : r.1.calls = c.calls ++ r.2.filterMap Effect.asked? := by
  cases h with
  | advance h => exact h.calls
  | call | mark | create | hear | forget | push => exact (List.append_nil _).symm

theorem Reacts.comesFrom (h : c.Reacts a r) {id : FetchId} {heard : Reply → Prop}
    (hc : ∀ s, c.stage? id = some s → s.ComesFrom c.provider heard)
    (ha : ∀ t, a.Hears id t → heard t) :
    ∀ s, r.1.stage? id = some s → s.ComesFrom c.provider heard := by
  cases h with
  | advance h => exact h.comesFrom id heard hc
  | @create uri =>
    intro s hs
    change (c.addFetch uri).stage? id = some s at hs
    rw [stage?_addFetch, Option.or_eq_some_iff] at hs
    obtain hs | ⟨-, hs⟩ := hs
    · exact hc s hs
    · split at hs
      · cases hs
        trivial
      · cases hs
  | hear _ _ _ hh =>
    apply setStage_stages hc
    rintro rfl
    exact ha _ hh
  | call | mark | forget | push => exact hc

structure Sound (c : Cache) : Prop where
  numbered : c.Numbered
  keys : (c.entries.map Prod.fst).Nodup
  created : ∀ e ∈ c.entries, e.2 ∈ c.ids
  stores : c.Stores
  asked : ∀ id ∈ c.calls, id ∈ c.ids
  unpulled : c.pull = false → c.entries = [] ∧ c.ids = []

theorem Sound.advances {d : Cache} {es : List Effect} (h : c.Sound) (ha : c.Advances d es) : d.Sound where
  numbered := h.numbered.of_ids ha.ids
  keys := h.keys.sublist (ha.entries.map _)
  created := fun e he => ha.ids ▸ h.created e (ha.entries.subset he)
  stores := ha.stores h.stores
  asked := by
    intro id hid
    rw [ha.ids]
    rw [ha.calls] at hid
    obtain hc | hn := List.mem_append.mp hid
    · exact h.asked id hc
    · obtain ⟨e, he, hi⟩ := List.mem_filterMap.mp hn
      cases e with
      | ask => cases hi; exact ha.asked id he
      | report => cases hi
  unpulled := by
    intro hp
    obtain ⟨hn, hi⟩ := h.unpulled (ha.pull ▸ hp)
    exact ⟨List.sublist_nil.mp (hn ▸ ha.entries), ha.ids.trans hi⟩

theorem Sound.hears {id : FetchId} {s t : Stage} (h : c.Sound) (hs : c.stage? id = some s)
    (ht : t.rank < 4) (q : List FetchId) : Sound { c.setStage id t with queue := q } where
  numbered := h.numbered.of_ids (c.ids_setStage id t)
  keys := h.keys
  created := fun e he => (c.ids_setStage id t).symm ▸ h.created e he
  stores := setStage_stores ht h.stores
  asked := fun i hi => (c.ids_setStage id t).symm ▸ h.asked i hi
  unpulled := by
    intro hp
    have hid := mem_ids_of_stage? hs
    simp [(h.unpulled hp).2] at hid

theorem mem_of_lookup {uri : String} {id : FetchId} (h : c.entries.lookup uri = some id) :
    (uri, id) ∈ c.entries := by
  obtain ⟨l, l', hl, -⟩ := List.lookup_eq_some_iff.mp h
  simp [hl]

theorem not_mem_of_lookup {uri : String} (h : c.entries.lookup uri = none) :
    uri ∉ c.entries.map Prod.fst := by
  intro hm
  obtain ⟨e, he, rfl⟩ := List.mem_map.mp hm
  simpa using List.lookup_eq_none_iff.mp h e he

theorem Sound.lookup {uri : String} {id : FetchId} (h : c.Sound) (he : (uri, id) ∈ c.entries) :
    c.entries.lookup uri = some id := by
  cases hl : c.entries.lookup uri with
  | none => exact absurd (List.mem_map_of_mem he) (not_mem_of_lookup hl)
  | some i => cases List.inj_on_of_nodup_map h.keys (mem_of_lookup hl) he rfl; rfl

theorem Sound.creates {uri : String} (h : c.Sound) (hp : c.pull = true)
    (hl : c.entries.lookup uri = none) : (c.addFetch uri).Sound where
  numbered := h.numbered.addFetch uri
  keys := by
    simp only [addFetch, List.map_append, List.map_cons, List.map_nil]
    refine List.nodup_append.mpr ⟨h.keys, by simp, ?_⟩
    rintro u hu v hv rfl
    cases List.mem_singleton.mp hv
    exact not_mem_of_lookup hl hu
  created := by
    intro e he
    rw [ids_addFetch]
    obtain hc | hn := List.mem_append.mp he
    · exact List.mem_append_left _ (h.created e hc)
    · cases List.mem_singleton.mp hn
      simp
  stores := by
    intro e he
    obtain hc | hn := List.mem_append.mp he
    · refine ⟨(h.stores e hc).1, ?_⟩
      rintro ⟨o, ho, hr⟩
      obtain ⟨s, hs⟩ := Option.isSome_iff_exists.mp ((c.stage?_isSome _).mpr (h.created e hc))
      rw [stage?_addFetch, hs, Option.some_or] at ho
      exact (h.stores e hc).2 ⟨o, hs.trans ho, hr⟩
    · cases List.mem_singleton.mp hn
      have hs : (c.addFetch uri).stage? (c.newFetch uri) = some .created := by
        simp [stage?_addFetch, (c.stage?_eq_none _).mpr (h.numbered.newFetch_absent uri)]
      exact ⟨rfl, not_failed_of_stage? hs (by simp [Stage.rank])⟩
  asked := by
    intro id hid
    rw [ids_addFetch]
    exact List.mem_append_left _ (h.asked id hid)
  unpulled := by
    intro hn
    cases hp.symm.trans hn

theorem Sound.reacts (h : c.Sound) (hr : c.Reacts a r) : r.1.Sound := by
  cases hr with
  | advance ha => exact h.advances ha
  | call | mark | push => exact ⟨h.numbered, h.keys, h.created, h.stores, h.asked, h.unpulled⟩
  | create _ _ hp hl =>
    obtain ⟨hn, hk, hc, hs, ha, hu⟩ := h.creates hp hl
    exact ⟨hn, hk, hc, hs, ha, hu⟩
  | hear q hs => exact h.hears hs (by simp [Stage.rank]) q
  | forget =>
    refine ⟨h.numbered, h.keys.sublist (List.filter_sublist.map _), ?_, ?_, h.asked, ?_⟩
    · exact fun e he => h.created e (List.mem_of_mem_filter he)
    · exact fun e he => h.stores e (List.mem_of_mem_filter he)
    · intro hp
      obtain ⟨hn, hi⟩ := h.unpulled hp
      exact ⟨by simp [hn], hi⟩

theorem share_fetch? (c : Cache) (id : FetchId) : (c.share id).fetch? = some id := by
  unfold share
  split <;> rfl

/-- The lookup of an open document serves its caller from the entry of the document, which is there
already or is created. -/
theorem Sound.lookup_serves (h : c.Sound) (hp : c.pull = true) (uri : String) :
    ∃ id source, id.uri = uri ∧ source.fetch? = some id ∧ (uri, id) ∈ (c.lookup true uri).entries ∧
      (c.lookup true uri).callers = c.callers ++ [{ uri, serial := c.callerSerial uri, source }] ∧
      ((uri, id) ∈ c.entries ∧ (c.lookup true uri).ids = c.ids ∨ id ∉ c.ids) := by
  cases hl : c.entries.lookup uri with
  | some id =>
    have he := mem_of_lookup hl
    refine ⟨id, c.share id, (h.stores _ he).1, c.share_fetch? id, ?_⟩
    simp only [Cache.lookup, hp, hl, Bool.and_self, ↓reduceIte]
    exact ⟨he, rfl, .inl ⟨he, rfl⟩⟩
  | none =>
    refine ⟨c.newFetch uri, (c.addFetch uri).share (c.newFetch uri), rfl, share_fetch? .., ?_⟩
    simp only [Cache.lookup, hp, hl, Bool.and_self, ↓reduceIte]
    exact ⟨by simp [addCaller, addFetch], rfl, .inr (h.numbered.newFetch_absent uri)⟩

theorem lookup_known (c : Cache) (isOpen : Bool) (uri : String) (h : (c.pull && isOpen) = false) :
    c.lookup isOpen uri = c.addCaller uri (.known c.shared) := by
  simp [Cache.lookup, h]

theorem sound_start (pull : Bool) (provider : Provider) (reports : Bool) :
    Sound { pull, provider, reports } where
  numbered := by simp [Numbered, ids]
  keys := .nil
  created := by simp
  stores := by simp [Stores]
  asked := by simp
  unpulled := by simp [ids]

end DclServer.Cache
