import DclServer.Proofs.Cache.Restore
import DclServer.Proofs.Cache.Run

namespace DclServer

namespace Cache

variable {c : Cache} {a : Action} {r : Cache × List Effect}

def names (c : Cache) : List (String × Nat) := c.callers.map Caller.name

/-- Each caller has a name of its own, below the next one of its document. -/
def Named (c : Cache) : Prop :=
  c.names.Nodup ∧ ∀ n ∈ c.names, n.2 < c.callerSerial n.1

theorem callerSerial_eq (c : Cache) (uri : String) :
    c.callerSerial uri = (c.names.filter (·.1 == uri)).length := by
  simp [callerSerial, names, List.filter_map, Function.comp_def, Caller.name]

theorem Reacts.names (h : c.Reacts a r) :
    r.1.names = c.names ∨ ∃ uri, r.1.names = c.names ++ [(uri, c.callerSerial uri)] := by
  cases h with
  | advance h => exact .inl (congrArg (List.map Caller.name) h.callers)
  | call uri => exact .inr ⟨uri, by simp [Cache.names, addCaller, Caller.name]⟩
  | @create uri => exact .inr ⟨uri, by simp [Cache.names, addCaller, addFetch, Caller.name, callerSerial]⟩
  | mark p =>
    left
    simp only [Cache.names, List.map_map]
    apply List.map_congr_left
    intro k _
    by_cases hp : p k <;> simp [hp, Caller.name]
  | hear | forget | push => exact .inl rfl

theorem Named.reacts (h : c.Named) (hr : c.Reacts a r) : r.1.Named := by
  obtain hn | ⟨uri, hn⟩ := hr.names
  · refine ⟨hn ▸ h.1, fun n hm => ?_⟩
    rw [callerSerial_eq, hn, ← callerSerial_eq]
    exact h.2 n (hn ▸ hm)
  · have hnew : (uri, c.callerSerial uri) ∉ c.names := fun hm => Nat.lt_irrefl _ (h.2 _ hm)
    refine ⟨?_, fun n hm => ?_⟩
    · rw [hn]
      refine List.nodup_append.mpr ⟨h.1, by simp, ?_⟩
      rintro x hx y hy rfl
      cases List.mem_singleton.mp hy
      exact hnew hx
    · rw [callerSerial_eq, hn, List.filter_append, List.length_append, ← callerSerial_eq]
      rw [hn] at hm
      obtain hc | hs := List.mem_append.mp hm
      · exact Nat.lt_of_lt_of_le (h.2 n hc) (Nat.le_add_right _ _)
      · cases List.mem_singleton.mp hs
        simp

theorem Named.place {i j : Nat} {k l : Caller} (h : c.Named) (hi : c.callers[i]? = some k)
    (hj : c.callers[j]? = some l) (hn : k.name = l.name) : i = j := by
  have hlen : i < c.names.length := by
    simpa [Cache.names] using (List.getElem?_eq_some_iff.mp hi).1
  have hsame : c.names[i]? = c.names[j]? := by simp [Cache.names, hi, hj, hn]
  exact (List.getElem?_inj hlen h.1).mp hsame

theorem Named.find? {i : Nat} {k : Caller} (h : c.Named) (hi : c.callers[i]? = some k) :
    c.callers.find? (·.hasName k.uri k.serial) = some k := by
  cases hf : c.callers.find? (·.hasName k.uri k.serial) with
  | none =>
    have hno := List.find?_eq_none.mp hf k (List.mem_of_getElem? hi)
    simp [Caller.hasName] at hno
  | some l =>
    obtain ⟨j, hj⟩ := List.mem_iff_getElem?.mp (List.mem_of_find?_eq_some hf)
    have hl : l.hasName k.uri k.serial = true := by simpa using List.find?_some hf
    have hij := h.place hi hj ((l.hasName_iff _ _).mp hl).symm
    rw [← hij, hi] at hj
    exact hj.symm

theorem Named.cancel?_eq_none {i : Nat} {k : Caller} (h : c.Named) (hi : c.callers[i]? = some k)
    (hk : c.standing k ≠ .pending) : c.cancel? k.uri k.serial = none := by
  simp [cancel?, h.find? hi, hk]

theorem standing_eq_pending {c : Cache} {k : Caller} :
    c.standing k = .pending ↔ k.cancelled = false ∧ c.given? k.source = none := by
  unfold standing
  split
  · simp_all
  · split <;> simp_all

theorem Named.cancel?_cancels {i : Nat} {k : Caller} (h : c.Named) (hi : c.callers[i]? = some k)
    (hk : c.given? k.source = none) :
    ((c.cancel? k.uri k.serial).getD c).callers[i]? = some { k with cancelled := true } := by
  cases hc : k.cancelled with
  | false =>
    have hp := standing_eq_pending.mpr ⟨hc, hk⟩
    have hself : k.hasName k.uri k.serial = true := (k.hasName_iff _ _).mpr rfl
    simp [cancel?, h.find? hi, hp, hi, hself]
  | true =>
    have hp : c.standing k ≠ .pending := by simp [standing_eq_pending, hc]
    rw [h.cancel?_eq_none hi hp, Option.getD_none, hi, ← hc]

end Cache

namespace Host

variable {who : List (String × Nat)} {h g : Host}

/-- The host as if none of the callers named had ever been cancelled. -/
def restore (who : List (String × Nat)) (h : Host) : Host := h.withCache (h.cache.restore who)

theorem broadcastClose_restore (h : Host) (who : List (String × Nat)) (uri : String) :
    ((h.restore who).broadcastClose uri).host = (h.broadcastClose uri).host.restore who ∧
      ((h.restore who).broadcastClose uri).effects = (h.broadcastClose uri).effects := by
  by_cases hh : (broadcast h.hooks).ran.any (·.action) = true <;>
    simp [broadcastClose, restore, withCache, hh, Cache.close_restore]

def Event.Cancels (who : List (String × Nat)) (e : Event) : Prop :=
  ∃ n ∈ who, e = .cancel n.1 n.2

/-- All but the cancellation of those named goes on as if they had never been cancelled. -/
theorem step_restore {e : Event} (he : ¬ e.Cancels who) :
    ((h.restore who).step e).host = (h.step e).host.restore who ∧
      ((h.restore who).step e).effects = (h.step e).effects := by
  cases e with
  | lookup uri => exact ⟨congrArg h.withCache (h.cache.lookup_restore who (h.isOpen uri) uri), rfl⟩
  | reply id r =>
    simp only [step, restore, withCache, Cache.reply?_restore]
    cases h.cache.reply? id r <;> exact ⟨rfl, rfl⟩
  | abort id =>
    simp only [step, restore, withCache, Cache.abort?_restore]
    cases h.cache.abort? id <;> exact ⟨rfl, rfl⟩
  | cancel uri serial =>
    have hn : (uri, serial) ∉ who := fun hm => he ⟨_, hm, rfl⟩
    simp only [step, restore, withCache, Cache.cancel?_restore hn]
    cases h.cache.cancel? uri serial <;> exact ⟨rfl, rfl⟩
  | configure payload =>
    simp only [step, restore, withCache, Cache.configure_restore]
    cases h.cache.configure payload <;> exact ⟨rfl, rfl⟩
  | didClose uri =>
    obtain ⟨hh, he⟩ := (h.drop uri).broadcastClose_restore who uri
    exact ⟨hh, congrArg (_ :: ·) he⟩
  | broadcast uri => exact h.broadcastClose_restore who uri
  | turn => simp [step, restore, withCache, Cache.next_restore]
  | settle => simp [step, restore, withCache, Cache.settle_restore]
  | opened | dropped | closed | hook => exact ⟨rfl, rfl⟩

theorem step_cancel (h : Host) (uri : String) (serial : Nat) :
    h.step (.cancel uri serial) = ⟨h.withCache ((h.cache.cancel? uri serial).getD h.cache), [],
      .flag (h.cache.cancel? uri serial).isSome⟩ := by
  simp only [step]
  cases h.cache.cancel? uri serial <;> rfl

theorem step_cancels {e : Event} (he : e.Cancels who) :
    (h.step e).host.restore who = h.restore who ∧ (h.step e).effects = [] := by
  obtain ⟨n, hn, rfl⟩ := he
  rw [step_cancel]
  exact ⟨congrArg h.withCache (Cache.cancel?_restore_of_mem hn), rfl⟩

theorem run_restore (hgh : g.restore who = h.restore who) (es : List Event) :
    (g.after es).restore who = (h.after es).restore who ∧ (g.run es).2 = (h.run es).2 := by
  induction es generalizing g h with
  | nil => exact ⟨hgh, rfl⟩
  | cons e es ih =>
    have hstep : (g.step e).host.restore who = (h.step e).host.restore who ∧
        (g.step e).effects = (h.step e).effects := by
      by_cases he : e.Cancels who
      · obtain ⟨hg, heg⟩ := step_cancels (h := g) he
        obtain ⟨hh, heh⟩ := step_cancels (h := h) he
        exact ⟨hg.trans (hgh.trans hh.symm), heg.trans heh.symm⟩
      · obtain ⟨hg, heg⟩ := step_restore (h := g) he
        obtain ⟨hh, heh⟩ := step_restore (h := h) he
        rw [hgh] at hg heg
        exact ⟨hg.symm.trans hh, heg.symm.trans heh⟩
    obtain ⟨ha, he⟩ := ih hstep.1
    simp only [after_cons, run, hstep.2, he]
    exact ⟨ha, trivial⟩

def cancels (h : Host) (places : List Nat) : List Event :=
  places.filterMap fun i => h.cache.callers[i]?.map fun k => .cancel k.uri k.serial

def waiting (h : Host) (places : List Nat) : List (String × Nat) :=
  places.filterMap fun i => (h.cache.callers[i]?.filter (h.cache.standing · = .pending)).map Caller.name

def standingAt? (h : Host) (i : Nat) : Option Standing := h.cache.callers[i]?.map h.cache.standing

theorem after_named {h : Host} (hf : h.Fresh) (es : List Event) : (h.after es).cache.Named := by
  refine after_preserves (P := fun g => g.cache.Named) (fun g e hg => hg.reacts (g.step_reacts e)) ?_ es
  rw [hf]
  exact ⟨List.nodup_nil, by simp [Cache.names]⟩

theorem standingAt?_eq_some {h : Host} {i : Nat} {k : Caller} (hk : h.cache.callers[i]? = some k) :
    h.standingAt? i = some (h.cache.standing k) := by
  simp [standingAt?, hk]

theorem mem_waiting {h : Host} {places : List Nat} {n : String × Nat} :
    n ∈ h.waiting places ↔
      ∃ i ∈ places, ∃ k, h.cache.callers[i]? = some k ∧ h.cache.standing k = .pending ∧ k.name = n := by
  simp [waiting, Option.filter_eq_some_iff, and_assoc]

theorem run_cancels {m : Host} (hm : m.cache.Named) {places : List Nat} {es : List Event}
    (he : es ⊆ m.cancels places) (hg : g.restore (m.waiting places) = m.restore (m.waiting places)) :
    (g.after es).restore (m.waiting places) = m.restore (m.waiting places) ∧ (g.run es).2 = [] := by
  induction es generalizing g with
  | nil => exact ⟨hg, rfl⟩
  | cons e es ih =>
    have hstep : (g.step e).host.restore (m.waiting places) = m.restore (m.waiting places) ∧
        (g.step e).effects = [] := by
      by_cases hc : e.Cancels (m.waiting places)
      · obtain ⟨hs, hn⟩ := step_cancels (h := g) hc
        exact ⟨hs.trans hg, hn⟩
      · obtain ⟨i, hi, k, hk, rfl⟩ : ∃ i ∈ places, ∃ k, m.cache.callers[i]? = some k ∧
            Event.cancel k.uri k.serial = e := by simpa [cancels] using he (List.mem_cons_self ..)
        -- the event does nothing to `m`, and to `g` what it does to `m`
        have hdone : m.cache.standing k ≠ .pending := fun hp =>
          hc ⟨k.name, mem_waiting.mpr ⟨i, hi, k, hk, hp, rfl⟩, rfl⟩
        have hstill : (m.step (.cancel k.uri k.serial)).host = m ∧
            (m.step (.cancel k.uri k.serial)).effects = [] := by
          simp [step, hm.cancel?_eq_none hk hdone]
        obtain ⟨hgs, hge⟩ := step_restore (h := g) hc
        obtain ⟨hms, hme⟩ := step_restore (h := m) hc
        rw [hg] at hgs hge
        rw [← hgs, ← hge, hms, hme, hstill.1, hstill.2]
        exact ⟨rfl, rfl⟩
    obtain ⟨ha, hn⟩ := ih (fun x hx => he (List.mem_cons_of_mem _ hx)) hstep.1
    simp only [after_cons, run, hstep.2, hn]
    exact ⟨ha, rfl⟩

theorem restore_caller {m : Host} {places : List Nat} {es : List Event} {i : Nat}
    (hn : (m.after es).cache.Named) (hi : i ∉ places ∨ m.standingAt? i ≠ some .pending) :
    ((m.after es).cache.restore (m.waiting places)).callers[i]? = (m.after es).cache.callers[i]? := by
  simp only [Cache.restore, List.getElem?_map]
  cases hk : (m.after es).cache.callers[i]? with
  | none => rfl
  | some k =>
    have hname : k.name ∉ m.waiting places := by
      intro hw
      obtain ⟨j, hj, l, hl, hp, hname⟩ := mem_waiting.mp hw
      obtain ⟨b, hb⟩ := after_caller hl es
      cases hn.place hk hb hname.symm
      obtain hout | hstood := hi
      · exact hout hj
      · exact hstood (standingAt?_eq_some hl ▸ congrArg some hp)
    exact congrArg some (Caller.restore_eq_self (.inl hname))

theorem cancels_standingAt? {m : Host} (hm : ∀ es, (m.after es).cache.Named) {places : List Nat} {i : Nat}
    (hi : i ∈ places) (hp : m.standingAt? i = some .pending) (later : List Event) :
    (m.after (m.cancels places ++ later)).standingAt? i = some .cancelled := by
  obtain ⟨k, hk, hpk⟩ := Option.map_eq_some_iff.mp hp
  have hmem : Event.cancel k.uri k.serial ∈ m.cancels places := by
    simp only [cancels, List.mem_filterMap]
    exact ⟨i, hi, by simp [hk]⟩
  obtain ⟨pre, post, hsplit⟩ := List.append_of_mem hmem
  have hsub : pre ⊆ m.cancels places := by simp [hsplit]
  have hpre := (run_cancels (g := m) (hm []) hsub rfl).1
  -- before its turn comes there are only cancellations, by which nobody is served
  have hgiven : (m.after pre).cache.given? k.source = none := by
    rw [(Cache.eq_of_restore_eq (congrArg Host.cache hpre)).2.2.1]
    exact (Cache.standing_eq_pending.mp hpk).2
  obtain ⟨b, hb⟩ := after_caller hk pre
  have hmarked := (hm pre).cancel?_cancels hb hgiven
  obtain ⟨b', hb'⟩ := after_caller (h := ((m.after pre).step (.cancel k.uri k.serial)).host)
    (by rw [step_cancel]; exact hmarked) (post ++ later)
  have hend : m.after (m.cancels places ++ later) =
      ((m.after pre).step (.cancel k.uri k.serial)).host.after (post ++ later) := by
    rw [hsplit, List.append_assoc, after_append]
    rfl
  rw [hend, standingAt?_eq_some hb']
  rfl

/-- A cancelled caller disturbs nobody: with any callers cancelled at any moment of a run, whether
they wait or not, the cache holds at every later moment what it would hold without, as much is asked
and reported, and all others stand as they would, as do those of the cancelled who were served
already. The rest of the cancelled stay so. -/
theorem cancellations_disturb_nobody {h : Host} (hf : h.Fresh) (before later : List Event)
    (places : List Nat) :
    let m := h.after before
    let t := h.after (before ++ later)
    let t' := h.after (before ++ m.cancels places ++ later)
    t'.cache.entries = t.cache.entries ∧ t'.cache.fetches = t.cache.fetches ∧
      (h.run (before ++ m.cancels places ++ later)).2 = (h.run (before ++ later)).2 ∧
      ∀ i, (i ∉ places ∨ m.standingAt? i ≠ some .pending → t'.standingAt? i = t.standingAt? i) ∧
        (i ∈ places → m.standingAt? i = some .pending → t'.standingAt? i = some .cancelled) := by
  intro m t t'
  obtain ⟨hcut, hquiet⟩ := run_cancels (after_named hf before) (List.Subset.refl (m.cancels places)) rfl
  obtain ⟨hend, heffects⟩ := run_restore hcut later
  have ht : t = m.after later := h.after_append before later
  have ht' : t' = m.after (m.cancels places ++ later) := by
    simp only [t', after_append, m]
  have hcache : t'.cache.restore (m.waiting places) = t.cache.restore (m.waiting places) := by
    rw [ht, ht', after_append]
    exact congrArg Host.cache hend
  obtain ⟨hentries, hfetches, -, hstanding⟩ := Cache.eq_of_restore_eq hcache
  refine ⟨hentries, hfetches, ?_, fun i => ⟨fun hi => ?_, fun hi hp => ?_⟩⟩
  · rw [run_append, run_append, run_append, after_append, hquiet, heffects, List.append_nil]
  · have hcallers : t'.cache.callers[i]? = t.cache.callers[i]? := by
      have hn : t.cache.Named := after_named hf (before ++ later)
      have hn' : t'.cache.Named := after_named hf (before ++ m.cancels places ++ later)
      rw [ht] at hn hcache ⊢
      rw [ht'] at hn' hcache ⊢
      rw [← restore_caller hn hi, ← restore_caller hn' hi, hcache]
    simp only [standingAt?, hcallers, hstanding]
  · rw [ht']
    refine cancels_standingAt? (fun es => ?_) hi hp later
    rw [← after_append]
    exact after_named hf (before ++ es)

/-- A fetch that all its callers have left goes on, and serves one who comes later. -/
theorem fetch_outlives_its_callers :
    let h := pulling id ["a"]
    let before : List Event := [.lookup "a", .lookup "a", .turn]
    let m := h.after before
    let t := h.after (before ++ m.cancels [0, 1] ++ [.reply ⟨"a", 0⟩ (.value .null), .settle, .lookup "a"])
    h.Fresh ∧ m.cache.callers.length = 2 ∧ m.standingAt? 0 = some .pending ∧
      m.standingAt? 1 = some .pending ∧ t.standingAt? 0 = some .cancelled ∧
      t.standingAt? 1 = some .cancelled ∧ t.standingAt? 2 = some (.done (.settings default)) := by
  intro h before m t
  obtain ⟨-, -, -, hall⟩ := cancellations_disturb_nobody (h := h) rfl before
    [.reply ⟨"a", 0⟩ (.value .null), .settle, .lookup "a"] [0, 1]
  refine ⟨rfl, by decide, by decide, by decide, (hall 0).2 (by simp) (by decide),
    (hall 1).2 (by simp) (by decide), ?_⟩
  exact ((hall 2).1 (.inl (by simp))).trans (by decide)

end Host

end DclServer
