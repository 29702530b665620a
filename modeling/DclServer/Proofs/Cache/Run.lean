import DclServer.Cache.Host
import DclServer.Proofs.Cache.Invariant

namespace DclServer.Host

def hears (h : Host) : Bool := (broadcast h.hooks).ran.any (·.action)

/-- What an event does to the cache. -/
def action (h : Host) : Event → Cache.Action
  | .opened _ | .dropped _ | .hook _ => .idle
  | .didClose uri | .broadcast uri => if h.hears then .close uri else .idle
  | .lookup uri => .lookup (h.isOpen uri) uri
  | .reply id r => .reply id r
  | .abort id => .abort id
  | .cancel uri serial => .cancel uri serial
  | .closed uri => .close uri
  | .configure payload => .configure payload
  | .turn => .next
  | .settle => .settle

theorem broadcastClose_performs (h : Host) (uri : String) :
    (h.broadcastClose uri).host.cache = (h.cache.perform (if h.hears then .close uri else .idle)).1 ∧
      (h.broadcastClose uri).effects.filterMap Effect.asked? =
        (h.cache.perform (if h.hears then .close uri else .idle)).2.filterMap Effect.asked? := by
  cases hh : h.hears <;>
    simp_all [broadcastClose, hears, Cache.perform, Effect.asked?]

theorem step_performs (h : Host) (e : Event) :
    (h.step e).host.cache = (h.cache.perform (h.action e)).1 ∧
      (h.step e).effects.filterMap Effect.asked? =
        (h.cache.perform (h.action e)).2.filterMap Effect.asked? := by
  cases e with
  | didClose uri => exact (h.drop uri).broadcastClose_performs uri
  | broadcast uri => exact h.broadcastClose_performs uri
  | reply id r =>
    simp only [step, action, Cache.perform]
    cases h.cache.reply? id r <;> exact ⟨rfl, rfl⟩
  | abort id =>
    simp only [step, action, Cache.perform]
    cases h.cache.abort? id <;> exact ⟨rfl, rfl⟩
  | cancel uri serial =>
    simp only [step, action, Cache.perform]
    cases h.cache.cancel? uri serial <;> exact ⟨rfl, rfl⟩
  | configure payload =>
    simp only [step, action, Cache.perform]
    cases h.cache.configure payload <;> exact ⟨rfl, rfl⟩
  | opened | dropped | hook | lookup | closed | turn | settle => exact ⟨rfl, rfl⟩

theorem step_reacts (h : Host) (e : Event) :
    h.cache.Reacts (h.action e) ((h.step e).host.cache, (h.cache.perform (h.action e)).2) := by
  rw [(h.step_performs e).1]
  exact h.cache.perform_reacts (h.action e)

theorem lookup_of_action {h : Host} {e : Event} {isOpen : Bool} {uri : String}
    (ha : h.action e = .lookup isOpen uri) : e = .lookup uri ∧ h.isOpen uri = isOpen := by
  cases e with
  | lookup =>
    cases ha
    exact ⟨rfl, rfl⟩
  | didClose | broadcast => cases hh : h.hears <;> simp [action, hh] at ha
  | _ => simp [action] at ha

def after (h : Host) (es : List Event) : Host := (h.run es).1

theorem after_cons (h : Host) (e : Event) (es : List Event) :
    h.after (e :: es) = (h.step e).host.after es := rfl

theorem run_append (h : Host) (es fs : List Event) :
    h.run (es ++ fs) = (((h.after es).run fs).1, (h.run es).2 ++ ((h.after es).run fs).2) := by
  induction es generalizing h with
  | nil => rfl
  | cons e es ih => simp only [List.cons_append, run, ih, after_cons, List.append_assoc]

theorem after_append (h : Host) (es fs : List Event) : h.after (es ++ fs) = (h.after es).after fs := by
  rw [after, run_append]
  rfl

theorem after_concat (h : Host) (es : List Event) (e : Event) :
    h.after (es ++ [e]) = ((h.after es).step e).host :=
  after_append h es [e]

theorem after_preserves {P : Host → Prop} (hs : ∀ h e, P h → P (h.step e).host) {h : Host}
    (hh : P h) (es : List Event) : P (h.after es) := by
  induction es generalizing h with
  | nil => exact hh
  | cons e es ih => exact ih (hs h e hh)

theorem after_sound {h : Host} (hs : h.cache.Sound) (es : List Event) : (h.after es).cache.Sound :=
  after_preserves (P := fun g => g.cache.Sound) (fun g e hg => hg.reacts (g.step_reacts e)) hs es

theorem after_leads (h : Host) (es : List Event) : h.cache.Leads (h.after es).cache :=
  after_preserves (P := fun g => h.cache.Leads g.cache)
    (fun g e hg => hg.trans (g.step_reacts e).leads) (.refl _) es

theorem after_pull (h : Host) (es : List Event) : (h.after es).cache.pull = h.cache.pull :=
  after_preserves (P := fun g => g.cache.pull = h.cache.pull)
    (fun g e hg => (g.step_reacts e).pull.trans hg) rfl es

theorem after_provider (h : Host) (es : List Event) : (h.after es).cache.provider = h.cache.provider :=
  after_preserves (P := fun g => g.cache.provider = h.cache.provider)
    (fun g e hg => (g.step_reacts e).provider.trans hg) rfl es

theorem after_caller {h : Host} {i : Nat} {k : Caller} (hk : h.cache.callers[i]? = some k)
    (es : List Event) :
    ∃ b, (h.after es).cache.callers[i]? = some { k with cancelled := k.cancelled || b } := by
  refine after_preserves (P := fun g => ∃ b, g.cache.callers[i]? = some { k with cancelled := k.cancelled || b })
    ?_ ⟨false, by simpa using hk⟩ es
  rintro g e ⟨b, hb⟩
  obtain ⟨b', hb'⟩ := (g.step_reacts e).caller hb
  exact ⟨b || b', by rw [← Bool.or_assoc]; exact hb'⟩

theorem after_calls (h : Host) (es : List Event) :
    (h.after es).cache.calls = h.cache.calls ++ (h.run es).2.filterMap Effect.asked? := by
  induction es generalizing h with
  | nil => exact (List.append_nil _).symm
  | cons e es ih =>
    rw [after_cons, ih, (h.step_reacts e).calls, ← (h.step_performs e).2, List.append_assoc, ← List.filterMap_append]
    rfl

def Event.Answers (id : FetchId) (r : Reply) (e : Event) : Prop :=
  e = .reply id r ∨ e = .abort id ∧ r = .cancelled

theorem answers_of_hears {h : Host} {e : Event} {id : FetchId} {r : Reply}
    (hr : (h.action e).Hears id r) : e.Answers id r := by
  cases e with
  | reply | abort => simpa [action, Cache.Action.Hears, Event.Answers] using hr
  | didClose | broadcast => cases hh : h.hears <;> simp [action, Cache.Action.Hears, hh] at hr
  | _ => simp [action, Cache.Action.Hears] at hr

theorem after_comesFrom {h : Host} {es : List Event} {id : FetchId} {heard : Reply → Prop}
    (hc : ∀ s, h.cache.stage? id = some s → s.ComesFrom h.cache.provider heard)
    (he : ∀ e ∈ es, ∀ r, e.Answers id r → heard r) :
    ∀ s, (h.after es).cache.stage? id = some s → s.ComesFrom h.cache.provider heard := by
  induction es generalizing h with
  | nil => exact hc
  | cons e es ih =>
    have hs := (h.step_reacts e).comesFrom hc fun r hr => he e (by simp) r (answers_of_hears hr)
    rw [← (h.step_reacts e).provider] at hs ⊢
    exact ih hs fun f hf => he f (by simp [hf])

theorem outcome?_after {h : Host} {es : List Event} {id : FetchId} {o : Outcome}
    (hid : id ∉ h.cache.ids) (ho : (h.after es).cache.outcome? id = some o) :
    (∃ r, (∃ e ∈ es, e.Answers id r) ∧ o = h.cache.provider.outcome r) ∨
      h.cache.provider = .absent ∧ o = h.cache.provider.outcome (.value .null) := by
  obtain ⟨s, hs, hso⟩ := Option.bind_eq_some_iff.mp ho
  have hc : s.ComesFrom h.cache.provider fun r => ∃ e ∈ es, e.Answers id r :=
    after_comesFrom (by simp [(h.cache.stage?_eq_none id).mpr hid]) (fun e he r hr => ⟨e, he, hr⟩) s hs
  exact hc.outcome hso

/-- An event on which the cache drops the entry of a document: configuration changed, or the cache is
told that the document is closed. -/
def Invalidates (h : Host) (uri : String) : Event → Prop
  | .configure _ => h.cache.pull = true
  | .closed u => u = uri
  | .didClose u | .broadcast u => u = uri ∧ h.hears = true
  | _ => False

theorem invalidates_iff (h : Host) (uri : String) (e : Event) :
    h.Invalidates uri e ↔ (h.action e).Forgets h.cache.pull uri := by
  cases e with
  | didClose | broadcast =>
    cases hh : h.hears <;> simp [Invalidates, action, Cache.Action.Forgets, hh]
  | _ => simp [Invalidates, action, Cache.Action.Forgets]

/-- The cache has served nobody yet. -/
def Fresh (h : Host) : Prop :=
  h.cache = { pull := h.cache.pull, provider := h.cache.provider, reports := h.cache.reports }

/-- A fresh cache that asks for settings, with its close hook in place. -/
def pulling (naming : String → String) (documents : List String) : Host where
  cache := { pull := true, provider := .direct, reports := true }
  tracksOpen := true
  hooks := [cacheHook]
  naming
  documents

theorem Fresh.sound {h : Host} (hf : h.Fresh) : h.cache.Sound := by
  rw [hf]
  exact Cache.sound_start ..

end DclServer.Host
