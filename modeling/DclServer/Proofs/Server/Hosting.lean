import DclServer.Proofs.Cache.Run
import DclServer.Server.Basic

namespace DclServer

namespace CloseHook

variable {α β : Type} (f : α → β)

def map : CloseHook α → CloseHook β
  | .mk name action raises none => .mk name (f action) raises none
  | .mk name action raises (some child) => .mk name (f action) raises (some child.map)

theorem map_action (h : CloseHook α) : (h.map f).action = f h.action := by
  obtain ⟨_, _, _, _ | _⟩ := h <;> rfl

theorem map_raises (h : CloseHook α) : (h.map f).raises = h.raises := by
  obtain ⟨_, _, _, _ | _⟩ := h <;> rfl

theorem map_failure (h : CloseHook α) (x : Fault) : (h.map f).failure x = h.failure x := by
  obtain ⟨_, _, _, _ | _⟩ := h <;> rfl

theorem map_child (h : CloseHook α) : (h.map f).child.toList = h.child.toList.map (map f) := by
  obtain ⟨_, _, _, _ | _⟩ := h <;> rfl

end CloseHook

/-- What the hooks do to whom does not matter for the course of a broadcast. -/
theorem broadcast_map {α β : Type} (f : α → β) (hooks : List (CloseHook α)) :
    broadcast (hooks.map (CloseHook.map f)) =
      { ran := (broadcast hooks).ran.map (CloseHook.map f)
        added := (broadcast hooks).added.map (CloseHook.map f)
        logs := (broadcast hooks).logs
        cancelled := (broadcast hooks).cancelled } := by
  induction hooks using broadcast.induct with
  | case1 => simp [broadcast]
  | case2 h rest hr =>
    simp [broadcast, CloseHook.map_raises, hr, CloseHook.map_child]
  | case3 h rest x hr ih =>
    rw [List.map_append] at ih
    simp [broadcast, CloseHook.map_raises, hr, CloseHook.map_child, CloseHook.map_failure, ih]
  | case4 h rest hr ih =>
    rw [List.map_append] at ih
    simp [broadcast, CloseHook.map_raises, hr, CloseHook.map_child, ih]

namespace Server

variable {s t u : Server} {i j : Nat} {h : Host}

/-- The host of the cache of some number: what there is around it in the server. -/
structure Hosts (s : Server) (i : Nat) (h : Host) : Prop where
  cache : s.caches[i]? = some h.cache
  documents : s.documents = some h.documents
  hooks : h.hooks = s.hooks.map (CloseHook.map (· == .forget i))
  tracks : h.tracksOpen = true
  naming : h.naming = Uri.decode

/-- From one state of the server to another the cache of some number goes through a run of its host
in which documents leave only by being closed. -/
def CacheRun (i : Nat) (s t : Server) : Prop :=
  ∀ h, s.Hosts i h → ∃ es, (∀ uri, .dropped uri ∉ es) ∧ t.Hosts i (h.after es)

theorem CacheRun.trans (hst : CacheRun i s t) (htu : CacheRun i t u) : CacheRun i s u := by
  intro h hs
  obtain ⟨es, hd, ht⟩ := hst h hs
  obtain ⟨fs, hd', hu⟩ := htu _ ht
  refine ⟨es ++ fs, by simp [hd, hd'], ?_⟩
  rw [Host.after_append]
  exact hu

theorem CacheRun.frame (hc : t.caches = s.caches) (hd : t.documents = s.documents)
    (hh : t.hooks = s.hooks) : CacheRun i s t := by
  intro h hs
  exact ⟨[], by simp, hc ▸ hs.cache, hd ▸ hs.documents, hh ▸ hs.hooks, hs.tracks, hs.naming⟩

theorem CacheRun.refl (i : Nat) (s : Server) : CacheRun i s s := .frame rfl rfl rfl

theorem CacheRun.setCache {c : Cache} {e : Host.Event}
    (he : ∀ h, s.Hosts j h → (h.step e).host = h.withCache c) (hd : ∀ uri, e ≠ .dropped uri) :
    CacheRun i s (s.setCache j c) := by
  intro h hs
  by_cases hij : i = j
  · subst hij
    refine ⟨[e], by simpa using fun uri heq => hd uri heq.symm, ?_⟩
    rw [Host.after_cons, he h hs]
    refine ⟨?_, hs.documents, hs.hooks, hs.tracks, hs.naming⟩
    exact List.getElem?_set_self (List.getElem?_eq_some_iff.mp hs.cache).1
  · refine ⟨[], by simp, ?_, hs.documents, hs.hooks, hs.tracks, hs.naming⟩
    exact (List.getElem?_set_ne (Ne.symm hij)).trans hs.cache

theorem perform_cacheRun (s : Server) (j : Nat) (es : List Effect) :
    CacheRun i s (s.perform j es).1 := by
  induction es generalizing s with
  | nil => exact .refl i s
  | cons e es ih =>
    cases e with
    | report => exact ih s
    | ask id =>
      have hask : CacheRun i s { s with requests := s.requests ++ [.configuration j id] } := .frame rfl rfl rfl
      exact hask.trans (ih _)

theorem settle_cacheRun (s : Server) (j : Nat) : CacheRun i s (s.settle j).1 := by
  unfold settle
  split
  · rename_i c hc
    refine .trans (.setCache (e := .settle) ?_ (by simp)) (perform_cacheRun _ _ _)
    intro h hs
    cases hc.symm.trans hs.cache
    rfl
  · exact .refl i s

theorem replyTo_cacheRun (s : Server) (j : Nat) (id : FetchId) (r : Reply) :
    CacheRun i s (s.replyTo j id r).1 := by
  unfold replyTo
  split
  · rename_i c hc
    refine .trans (.setCache (e := .reply id r) ?_ (by simp)) (settle_cacheRun _ _)
    intro h hs
    rw [hs.cache] at hc
    simp [Host.step, show h.cache.reply? id r = some c from hc]
  · exact .refl i s

theorem abandon_cacheRun (s : Server) (n : Nat) : CacheRun i s (s.abandon n).1 := by
  unfold abandon
  split
  · exact .frame rfl rfl rfl
  · exact replyTo_cacheRun s _ _ _
  · exact .refl i s

theorem abandonAll_cacheRun (s : Server) (ns : List Nat) : CacheRun i s (s.abandonAll ns).1 := by
  induction ns generalizing s with
  | nil => exact .refl i s
  | cons n ns ih => exact (abandon_cacheRun s n).trans (ih (s.abandon n).1)

theorem answer_cacheRun (s : Server) (n : Nat) (r : Reply) : CacheRun i s (s.answer n r).server := by
  unfold answer
  split
  · exact .refl i s
  · exact .frame rfl rfl rfl
  · exact replyTo_cacheRun s _ _ r

theorem configure_cacheRun (s : Server) (settings : Value) :
    CacheRun i s (s.configure settings).server := by
  unfold configure
  split
  · exact .refl i s
  · split
    · exact .refl i s
    · rename_i c hc
      split
      · rename_i d hd
        refine .setCache (e := .configure settings) ?_ (by simp)
        intro h hs
        cases hc.symm.trans hs.cache
        simp [Host.step, hd]
      · exact .refl i s

theorem lookup_cacheRun (s : Server) (uri : String) : CacheRun i s (s.lookup uri).server := by
  unfold lookup
  split
  · exact .refl i s
  · split
    · exact .refl i s
    · rename_i sess _ _ c hc
      have hlook : CacheRun i s (s.setCache sess.cache (c.lookup (s.documents.any (·.contains uri)) uri)) := by
        refine .setCache (e := .lookup uri) ?_ (by simp)
        intro h hs
        cases hc.symm.trans hs.cache
        simp [Host.step, Host.isOpen, hs.tracks, hs.documents]
      refine .trans ?_ (settle_cacheRun _ _)
      exact hlook.trans (.frame rfl rfl rfl)

theorem cancel_cacheRun (s : Server) (caller : Nat) : CacheRun i s (s.cancel caller).server := by
  unfold cancel
  split
  · split
    · rename_i ref _ _ c hc
      refine .setCache (e := .cancel ref.uri ref.serial) ?_ (by simp)
      intro h hs
      rw [hs.cache] at hc
      simp [Host.step, show h.cache.cancel? ref.uri ref.serial = some c from hc]
    · exact .refl i s
  · exact .refl i s

theorem close_close (c : Cache) (uri : String) : (c.close uri).close uri = c.close uri := by
  simp [Cache.close, List.filter_filter]

theorem getElem?_forget (uri : String) (ran : List (CloseHook CloseAction)) (caches : List Cache) :
    (ran.foldl (forget uri) caches)[i]? =
      caches[i]?.map fun c => if ran.any (·.action == .forget i) then c.close uri else c := by
  induction ran generalizing caches with
  | nil => simp
  | cons h ran ih =>
    rw [List.foldl_cons, ih]
    cases ha : h.action with
    | other => simp [forget, ha]
    | forget j =>
      by_cases hij : j = i
      · subst hij
        simp [forget, ha, Function.comp_def, close_close]
      · simp [forget, ha, hij]

theorem opened_cacheRun (s : Server) (uri : String) : CacheRun i s (s.opened uri).server := by
  intro h hs
  refine ⟨[.opened uri], by simp, ?_⟩
  simp only [opened, hs.documents]
  exact ⟨hs.cache, by simp [Host.after, Host.run, Host.step, hs.naming], hs.hooks, hs.tracks, hs.naming⟩

theorem closed_cacheRun (s : Server) (uri : String) : CacheRun i s (s.closed uri).server := by
  intro h hs
  refine ⟨[.didClose uri], by simp, ?_⟩
  -- the hooks of the host are those of the server, so that both broadcasts run alike
  have hb := broadcast_map (· == .forget i) s.hooks
  rw [← hs.hooks] at hb
  simp only [closed, hs.documents]
  refine ⟨?_, ?_, ?_, hs.tracks, hs.naming⟩
  · rw [getElem?_forget, hs.cache]
    simp [Host.after, Host.run, Host.step, Host.broadcastClose, Host.drop, hb, CloseHook.map_action]
  · simp [Host.after, Host.run, Host.step, Host.broadcastClose, Host.drop, hs.naming]
  · have hadded : (h.after [.didClose uri]).hooks = h.hooks ++ (broadcast h.hooks).added := rfl
    rw [hadded, hb, hs.hooks, List.map_append]

theorem hook_cacheRun (s : Server) (x : CloseHook CloseAction) :
    CacheRun i s { s with hooks := s.hooks ++ [x] } := by
  intro h hs
  refine ⟨[.hook (x.map (· == .forget i))], by simp, hs.cache, hs.documents, ?_, hs.tracks, hs.naming⟩
  simp [Host.after, Host.run, Host.step, hs.hooks]

/-- Whatever happens to a server short of a new session is to each of its caches a run of its host. -/
theorem handle_cacheRun (s : Server) {e : Event} (he : ∀ id caps, e ≠ .request id (.handshake caps)) :
    CacheRun i s (s.handle e).server := by
  cases e with
  | request id c =>
    cases c with
    | handshake caps => exact absurd rfl (he id caps)
    | shutdown =>
      have hstop : CacheRun i s { s with stopped := true } := .frame rfl rfl rfl
      exact hstop.trans (abandonAll_cacheRun _ _)
    | completion | resolve | unknown => exact .refl i s
  | initialized =>
    simp only [handle, initialized]
    split
    · split
      · exact .frame rfl rfl rfl
      · exact .refl i s
    · exact .refl i s
  | configure settings => exact configure_cacheRun s settings
  | folders added removed =>
    simp only [handle, folders]
    split
    · exact .refl i s
    · split <;> exact .refl i s
  | opened uri => exact opened_cacheRun s uri
  | changed uri =>
    simp only [handle, changed]
    split <;> exact .refl i s
  | closed uri => exact closed_cacheRun s uri
  | reply n result => exact answer_cacheRun s n _
  | fail n code message => exact answer_cacheRun s n _
  | lookup uri => exact lookup_cacheRun s uri
  | cancel caller => exact cancel_cacheRun s caller
  | abandon n => exact abandon_cacheRun s n
  | hook x => exact hook_cacheRun s x

theorem step_cacheRun (s : Server) {e : Event} (he : ∀ id caps, e ≠ .request id (.handshake caps)) :
    CacheRun i s (s.step e).server := by
  unfold step
  split
  · split
    · exact handle_cacheRun s he
    · exact handle_cacheRun s he
    · exact handle_cacheRun s he
    · exact handle_cacheRun s he
    · exact .refl i s
  · exact handle_cacheRun s he

theorem run_cacheRun (s : Server) {es : List Event}
    (he : ∀ id caps, .request id (.handshake caps) ∉ es) : CacheRun i s (s.run es).1 := by
  induction es generalizing s with
  | nil => exact .refl i s
  | cons e es ih =>
    have hstep : CacheRun i s (s.step e).server :=
      step_cacheRun s fun id caps heq => he id caps (by simp [heq])
    exact hstep.trans (ih _ fun id caps hm => he id caps (by simp [hm]))

/-- The host that a new session gives to its cache. -/
def sessionHost (s : Server) (capabilities : Value) : Host where
  cache := { pull := (Negotiation.negotiate .camel capabilities).configuration, provider := .client, reports := true }
  tracksOpen := true
  hooks := (s.hooks ++ [cacheHook s.caches.length]).map (CloseHook.map (· == .forget s.caches.length))
  naming := Uri.decode

theorem handshake_hosts (s : Server) (id : Scalar) (capabilities : Value) :
    (s.handshake id capabilities).server.Hosts s.caches.length (s.sessionHost capabilities) :=
  ⟨by simp [handshake, sessionHost], rfl, rfl, rfl, rfl⟩

end Server

end DclServer
