import DclServer.Proofs.Cache.Pushed
import DclServer.Proofs.Server.Hosting
import Mathlib.Data.List.Induction

namespace DclServer

theorem Cache.settle_unpulled {c : Cache} (hs : c.Sound) (hq : c.Queued) (hp : c.pull = false) :
    c.settle = (c, []) := by
  have hqueue : c.queue = [] := by
    apply List.eq_nil_iff_forall_not_mem.mpr
    intro id hid
    have hnone : c.stage? id = none := by
      rw [c.stage?_eq_none, (hs.unpulled hp).2]
      exact List.not_mem_nil
    simp [hq.mem_iff, hnone] at hid
  exact c.turns_of_queue_nil hqueue _

namespace Server

variable {s t u : Server} {i j : Nat} {h : Host} {e : Event} {es : List Event}

def after (s : Server) (es : List Event) : Server := (s.run es).1

theorem after_cons (s : Server) (e : Event) (es : List Event) :
    s.after (e :: es) = (s.step e).server.after es := rfl

theorem after_append (s : Server) (es fs : List Event) : s.after (es ++ fs) = (s.after es).after fs := by
  induction es generalizing s with
  | nil => rfl
  | cons e es ih => exact ih _

theorem after_concat (s : Server) (es : List Event) (e : Event) :
    s.after (es ++ [e]) = ((s.after es).step e).server :=
  s.after_append es [e]

def current? (s : Server) : Option Cache := s.session.bind s.cacheOf?

/-- An event that neither begins a session nor ends the server. -/
def Event.within : Event → Bool
  | .request _ (.handshake _) | .request _ .shutdown => false
  | _ => true

def Event.payload? : Event → Option Value
  | .configure v => some v
  | _ => none

structure Continues (s t : Server) : Prop where
  session : t.session.map (·.cache) = s.session.map (·.cache)
  stopped : t.stopped = s.stopped
  callers : s.callers <+: t.callers

/-- The session goes on, and no cache is given other settings. -/
structure Stays (s t : Server) : Prop extends Continues s t where
  shared : ∀ i : Nat, t.caches[i]?.map (·.shared) = s.caches[i]?.map (·.shared)

theorem Continues.trans (hst : Continues s t) (htu : Continues t u) : Continues s u :=
  ⟨htu.session.trans hst.session, htu.stopped.trans hst.stopped, hst.callers.trans htu.callers⟩

theorem Stays.trans (hst : Stays s t) (htu : Stays t u) : Stays s u :=
  ⟨hst.toContinues.trans htu.toContinues, fun i => (htu.shared i).trans (hst.shared i)⟩

theorem Continues.refl (s : Server) : Continues s s := ⟨rfl, rfl, List.prefix_rfl⟩

theorem Stays.refl (s : Server) : Stays s s := ⟨.refl s, fun _ => rfl⟩

theorem Continues.setCache (s : Server) (j : Nat) (c : Cache) : Continues s (s.setCache j c) :=
  ⟨rfl, rfl, List.prefix_rfl⟩

theorem Stays.setCache {c d : Cache} (hc : s.caches[j]? = some c) (hd : d.shared = c.shared) :
    Stays s (s.setCache j d) := by
  refine ⟨.setCache s j d, fun i => ?_⟩
  by_cases hij : j = i
  · subst hij
    have hlen := (List.getElem?_eq_some_iff.mp hc).1
    simp [Server.setCache, List.getElem?_set_self hlen, hc, hd]
  · simp [Server.setCache, List.getElem?_set_ne hij]

theorem perform_stays (s : Server) (j : Nat) (es : List Effect) : Stays s (s.perform j es).1 := by
  induction es generalizing s with
  | nil => exact .refl s
  | cons e es ih =>
    cases e with
    | report => exact ih s
    | ask id =>
      have hask : Stays s { s with requests := s.requests ++ [.configuration j id] } :=
        ⟨⟨rfl, rfl, List.prefix_rfl⟩, fun _ => rfl⟩
      exact hask.trans (ih _)

theorem settle_stays (s : Server) (j : Nat) : Stays s (s.settle j).1 := by
  unfold settle
  split
  · rename_i c hc
    exact (Stays.setCache hc c.settle_shared).trans (perform_stays ..)
  · exact .refl s

theorem replyTo_stays (s : Server) (j : Nat) (id : FetchId) (r : Reply) : Stays s (s.replyTo j id r).1 := by
  unfold replyTo
  split
  · rename_i d hd
    obtain ⟨c, hc, hr⟩ := Option.bind_eq_some_iff.mp hd
    exact (Stays.setCache hc (Cache.reply?_shared hr)).trans (settle_stays ..)
  · exact .refl s

theorem answer_stays (s : Server) (n : Nat) (r : Reply) : Stays s (s.answer n r).server := by
  unfold answer
  split
  · exact .refl s
  · exact ⟨⟨rfl, rfl, List.prefix_rfl⟩, fun _ => rfl⟩
  · exact replyTo_stays ..

theorem abandon_stays (s : Server) (n : Nat) : Stays s (s.abandon n).1 := by
  unfold abandon
  split
  · exact ⟨⟨rfl, rfl, List.prefix_rfl⟩, fun _ => rfl⟩
  · exact replyTo_stays ..
  · exact .refl s

theorem lookup_stays (s : Server) (uri : String) : Stays s (s.lookup uri).server := by
  unfold lookup
  split
  · exact .refl s
  · split
    · exact .refl s
    · rename_i sess _ _ c hc
      have hset := Stays.setCache hc (c.lookup_shared (s.documents.any (·.contains uri)) uri)
      refine .trans ?_ (settle_stays _ _)
      exact ⟨⟨hset.session, hset.stopped, List.prefix_append ..⟩, hset.shared⟩

theorem cancel_stays (s : Server) (caller : Nat) : Stays s (s.cancel caller).server := by
  unfold cancel
  split
  · split
    · rename_i ref _ _ d hd
      obtain ⟨c, hc, hk⟩ := Option.bind_eq_some_iff.mp hd
      exact Stays.setCache hc (Cache.cancel?_shared hk)
    · exact .refl s
  · exact .refl s

theorem closed_stays (s : Server) (uri : String) : Stays s (s.closed uri).server := by
  unfold closed
  split
  · refine ⟨⟨rfl, rfl, List.prefix_rfl⟩, fun i => ?_⟩
    rw [getElem?_forget, Option.map_map]
    congr 1
    funext c
    simp only [Function.comp_apply]
    split <;> rfl
  · exact .refl s

theorem initialized_stays (s : Server) : Stays s s.initialized.server := by
  unfold initialized
  split
  · rename_i sess hsess
    split
    · exact ⟨⟨by simp [hsess], rfl, List.prefix_rfl⟩, fun _ => rfl⟩
    · exact .refl s
  · exact .refl s

theorem handle_stays (s : Server) (hw : e.within = true) (hp : e.payload? = none) : Stays s (s.handle e).server := by
  cases e with
  | request id c =>
    cases c with
    | handshake | shutdown => cases hw
    | completion | resolve | unknown => exact .refl s
  | initialized => exact initialized_stays s
  | configure => cases hp
  | folders added removed =>
    simp only [handle, folders]
    split
    · exact .refl s
    · split <;> exact .refl s
  | opened uri =>
    simp only [handle, opened]
    split
    · exact ⟨⟨rfl, rfl, List.prefix_rfl⟩, fun _ => rfl⟩
    · exact .refl s
  | changed uri =>
    simp only [handle, changed]
    split <;> exact .refl s
  | closed uri => exact closed_stays s uri
  | reply | fail => exact answer_stays ..
  | lookup uri => exact lookup_stays s uri
  | cancel caller => exact cancel_stays s caller
  | abandon n => exact abandon_stays s n
  | hook => exact ⟨⟨rfl, rfl, List.prefix_rfl⟩, fun _ => rfl⟩

theorem configure_continues (s : Server) (v : Value) : Continues s (s.configure v).server := by
  unfold configure
  split
  · exact .refl s
  · split
    · exact .refl s
    · split
      · exact .setCache ..
      · exact .refl s

theorem handle_continues (s : Server) (hw : e.within = true) : Continues s (s.handle e).server := by
  cases hp : e.payload? with
  | none => exact (handle_stays s hw hp).toContinues
  | some v =>
    cases e with
    | configure v => exact configure_continues s v
    | _ => cases hp

/-- A running session, and the host of its cache. -/
structure InSession (s : Server) (i : Nat) (h : Host) : Prop where
  hosts : s.Hosts i h
  session : s.session.map (·.cache) = some i
  running : s.stopped = false

theorem handshake_inSession (hs : s.stopped = false) (id : Scalar) (capabilities : Value) :
    InSession (s.step (.request id (.handshake capabilities))).server s.caches.length
      (s.sessionHost capabilities) := by
  have hstep : s.step (.request id (.handshake capabilities)) = s.handshake id capabilities := by
    simp [step, hs, handle, call]
  rw [hstep]
  exact ⟨s.handshake_hosts id capabilities, rfl, hs⟩

theorem InSession.step_eq (hi : InSession s i h) (e : Event) : s.step e = s.handle e := by
  simp [Server.step, hi.running]

theorem InSession.session_eq (hi : InSession s i h) : ∃ sess, s.session = some sess ∧ sess.cache = i :=
  Option.map_eq_some_iff.mp hi.session

theorem InSession.current? (hi : InSession s i h) : s.current? = some h.cache := by
  obtain ⟨sess, hsess, rfl⟩ := hi.session_eq
  simp [Server.current?, hsess, cacheOf?, hi.hosts.cache]

theorem InSession.step (hi : InSession s i h) (hw : e.within = true) :
    ∃ fs, InSession (s.step e).server i (h.after fs) := by
  have hcont : Continues s (s.step e).server := by
    rw [hi.step_eq]
    exact handle_continues s hw
  have hnew : ∀ id capabilities, e ≠ .request id (.handshake capabilities) := by
    rintro id capabilities rfl
    cases hw
  obtain ⟨fs, -, hfs⟩ := step_cacheRun s hnew h hi.hosts
  exact ⟨fs, hfs, hcont.session.trans hi.session, hcont.stopped.trans hi.running⟩

theorem InSession.after (hi : InSession s i h) (hw : ∀ e ∈ es, e.within = true) :
    Continues s (s.after es) ∧ ∃ fs, InSession (s.after es) i (h.after fs) := by
  induction es generalizing s h with
  | nil => exact ⟨.refl s, [], hi⟩
  | cons e es ih =>
    have he := hw e (by simp)
    have hstep : Continues s (s.step e).server := by
      rw [hi.step_eq]
      exact handle_continues s he
    obtain ⟨fs, hfs⟩ := hi.step he
    obtain ⟨hcont, gs, hgs⟩ := ih hfs fun f hf => hw f (by simp [hf])
    refine ⟨hstep.trans hcont, fs ++ gs, ?_⟩
    rw [Host.after_append]
    exact hgs

theorem InSession.configure_ok (hi : InSession s i h) {v : Value} {c : Cache} (hc : h.cache.configure v = .ok c) :
    s.step (.configure v) = ⟨s.setCache i c, [], .nothing⟩ := by
  obtain ⟨sess, hsess, rfl⟩ := hi.session_eq
  rw [hi.step_eq]
  simp only [handle, configure, hsess, cacheOf?, hi.hosts.cache, hc]

theorem InSession.configure_error (hi : InSession s i h) {v : Value} {x : SettingsError}
    (hx : h.cache.configure v = .error x) : s.step (.configure v) =
      ⟨s, [.log ⟨.error, "Invalid settings ignored: " ++ Settings.errorMessage x⟩], .nothing⟩ := by
  obtain ⟨sess, hsess, rfl⟩ := hi.session_eq
  rw [hi.step_eq]
  simp only [handle, configure, hsess, cacheOf?, hi.hosts.cache, hx]
  rfl

theorem InSession.setCache (hi : InSession s i h) (c : Cache) : (s.setCache i c).current? = some c := by
  obtain ⟨sess, hsess, rfl⟩ := hi.session_eq
  have hlen := (List.getElem?_eq_some_iff.mp hi.hosts.cache).1
  simp [Server.current?, Server.setCache, hsess, cacheOf?, List.getElem?_set_self hlen]

theorem InSession.step_shared (hi : InSession s i h) (hw : e.within = true) (hp : e.payload? = none) {c : Cache}
    (hc : (s.step e).server.current? = some c) : c.shared = h.cache.shared := by
  obtain ⟨fs, hfs⟩ := hi.step hw
  cases hfs.current?.symm.trans hc
  have hstay : Stays s (s.step e).server := by
    rw [hi.step_eq]
    exact handle_stays s hw hp
  have hshared := hstay.shared i
  rw [hfs.hosts.cache, hi.hosts.cache] at hshared
  exact Option.some.inj hshared

theorem perform_frame (s : Server) (j : Nat) (es : List Effect) :
    (s.perform j es).1.caches = s.caches ∧ (s.perform j es).1.callers = s.callers := by
  induction es generalizing s with
  | nil => exact ⟨rfl, rfl⟩
  | cons e es ih =>
    cases e with
    | report => exact ih s
    | ask => exact ih _

theorem settle_eq {c : Cache} (hc : s.caches[j]? = some c) :
    s.settle j = (s.setCache j c.settle.1).perform j c.settle.2 := by
  simp [settle, hc]

/-- One who asks where nothing is fetched: the shared settings are known at once. -/
def knows (c : Cache) (uri : String) : Caller :=
  { uri, serial := c.callerSerial uri, source := .known c.shared }

theorem InSession.lookup_eq (hi : InSession s i h) {uri : String} (hk : (h.cache.pull && h.isOpen uri) = false) :
    s.step (.lookup uri) =
      let c := h.cache.addCaller uri (.known h.cache.shared)
      let asked : Server := { s.setCache i c with callers := s.callers ++ [⟨i, uri, h.cache.callerSerial uri⟩] }
      ⟨((asked.setCache i c.settle.1).perform i c.settle.2).1,
        ((asked.setCache i c.settle.1).perform i c.settle.2).2, .nothing⟩ := by
  obtain ⟨sess, hsess, rfl⟩ := hi.session_eq
  have hopen : s.documents.any (·.contains uri) = h.isOpen uri := by
    simp [Host.isOpen, hi.hosts.documents, hi.hosts.tracks]
  have hlast : (h.cache.addCaller uri (.known h.cache.shared)).callers.getLast? = some (knows h.cache uri) := by
    simp [Cache.addCaller, knows]
  have hlen := (List.getElem?_eq_some_iff.mp hi.hosts.cache).1
  rw [hi.step_eq]
  simp only [handle, lookup, hsess, cacheOf?, hi.hosts.cache, hopen, Cache.lookup_known _ _ _ hk, hlast,
    Option.map_some, Option.toList_some]
  rw [settle_eq (c := h.cache.addCaller uri (.known h.cache.shared)) (List.getElem?_set_self hlen)]
  rfl

theorem standings_known {c : Cache} {k : Caller} {n m : Nat} {v : Settings} (hc : s.caches[i]? = some c)
    (hn : c.Named) (hk : c.callers[n]? = some k) (hs : k.source = .known v) (hcancel : k.cancelled = false)
    (hr : s.callers[m]? = some ⟨i, k.uri, k.serial⟩) : s.standings[m]? = some (.done (.settings v)) := by
  have hfind : c.callers.find? (fun l => l.uri == k.uri && l.serial == k.serial) = some k := hn.find? hk
  have hdone : c.standing k = .done (.settings v) := by simp [Cache.standing, hcancel, hs, Cache.given?]
  simp [standings, hr, hc, hfind, hdone]

theorem InSession.lookup_placed (hi : InSession s i h) {uri : String}
    (hk : (h.cache.pull && h.isOpen uri) = false) :
    ∃ fs, InSession (s.step (.lookup uri)).server i (h.after fs) ∧
      (h.after fs).cache.callers[h.cache.callers.length]? = some (knows h.cache uri) ∧
      (s.step (.lookup uri)).server.callers[s.callers.length]? =
        some ⟨i, uri, h.cache.callerSerial uri⟩ := by
  have hlookup := hi.lookup_eq hk
  obtain ⟨fs, hfs⟩ := hi.step (e := .lookup uri) rfl
  -- the events of the host are not known, but its cache is the one in the server
  have hcache : (h.after fs).cache = (h.cache.addCaller uri (.known h.cache.shared)).settle.1 := by
    have hset := hfs.hosts.cache
    have hlen := (List.getElem?_eq_some_iff.mp hi.hosts.cache).1
    rw [hlookup] at hset
    simp only [(perform_frame _ _ _).1, Server.setCache, List.set_set, List.getElem?_set_self hlen] at hset
    exact (Option.some.inj hset).symm
  refine ⟨fs, hfs, ?_, ?_⟩
  · rw [hcache, show (Cache.settle _).1.callers = _ from (Cache.turns_advances _ _).callers]
    simp [Cache.addCaller, knows]
  · rw [hlookup]
    simp only [(perform_frame _ _ _).2]
    simp [Server.setCache]

theorem InSession.lookup_served (hi : InSession s i h) (hn : ∀ fs, (h.after fs).cache.Named) {uri : String}
    (hk : (h.cache.pull && h.isOpen uri) = false) (hw : ∀ e ∈ es, e.within = true) :
    (s.after (.lookup uri :: es)).standings[s.callers.length]? = some (.done (.settings h.cache.shared)) := by
  obtain ⟨fs, hfs, hcaller, href⟩ := hi.lookup_placed hk
  obtain ⟨hcont, gs, hgs⟩ := hfs.after hw
  have hn' : ((h.after fs).after gs).cache.Named := by
    rw [← Host.after_append]
    exact hn _
  have href' : (s.after (.lookup uri :: es)).callers[s.callers.length]? =
      some ⟨i, uri, h.cache.callerSerial uri⟩ := by
    obtain ⟨more, hmore⟩ := hcont.callers
    rw [after_cons, ← hmore, List.getElem?_append_left (List.getElem?_eq_some_iff.mp href).1, href]
  exact standings_known hgs.hosts.cache hn' (Host.after_known (hn fs) hcaller rfl gs) rfl rfl href'

theorem InSession.lookup_sent (hi : InSession s i h) (hs : h.cache.Sound) (hq : h.cache.Queued)
    (hp : h.cache.pull = false) (uri : String) : (s.step (.lookup uri)).sent = [] := by
  have hk : (h.cache.pull && h.isOpen uri) = false := by rw [hp, Bool.false_and]
  have hr := h.step_reacts (.lookup uri)
  have hlookup : (h.step (.lookup uri)).host.cache = h.cache.addCaller uri (.known h.cache.shared) :=
    h.cache.lookup_known _ _ hk
  have hsettle : (h.cache.addCaller uri (.known h.cache.shared)).settle =
      (h.cache.addCaller uri (.known h.cache.shared), []) := by
    rw [← hlookup]
    refine Cache.settle_unpulled (hs.reacts hr) ?_ (hr.pull.trans hp)
    rw [(h.step_performs _).1]
    exact hq.perform hs.numbered _
  rw [hi.lookup_eq hk]
  simp only [hsettle]
  rfl

/-- What holds after a run of a session to which configuration is pushed. The settings are those of the
last configuration that could be used. One more takes effect silently if it can be used, and is reported
and has no effect if not. A lookup is served at once with the settings of its time, for good. -/
structure KeepsLast (start : Server) (es : List Event) (c : Cache) : Prop where
  current : (start.after es).current? = some c
  last : Settings.LastPushed (es.filterMap Event.payload?) c.shared
  accepted : ∀ v t, Settings.Pushes v t → ∃ u, (start.after es).step (.configure v) = ⟨u, [], .nothing⟩ ∧
    u.current? = some { c with shared := t }
  refused : ∀ v, (∀ t, ¬ Settings.Pushes v t) → ∃ e, Cache.pushed v = .error e ∧
    (start.after es).step (.configure v) = ⟨start.after es,
      [.log ⟨.error, "Invalid settings ignored: " ++ Settings.errorMessage e⟩], .nothing⟩
  served : ∀ uri later, (∀ e ∈ later, e.within = true) → ((start.after es).step (.lookup uri)).sent = [] ∧
    (start.after (es ++ .lookup uri :: later)).standings[(start.after es).callers.length]? =
      some (.done (.settings c.shared))

/-- What holds after a run of a session that asks for configuration. The shared settings are the default,
and serve whoever looks up a document that is not open. Whatever is pushed only empties the cache. -/
structure KeepsDefault (start : Server) (es : List Event) (c : Cache) : Prop where
  current : (start.after es).current? = some c
  default : c.shared = default
  emptied : ∀ v, ∃ u, (start.after es).step (.configure v) = ⟨u, [], .nothing⟩ ∧
    u.current? = some { c with entries := [] }
  served : ∀ uri later, (∀ e ∈ later, e.within = true) → (start.after es).documents.any (·.contains uri) = false →
    (start.after (es ++ .lookup uri :: later)).standings[(start.after es).callers.length]? =
      some (.done (.settings c.shared))

theorem InSession.configure_unpulled (hi : InSession s i h) (hp : h.cache.pull = false) (v : Value) :
    (∃ t, Settings.Pushes v t ∧
        s.step (.configure v) = ⟨s.setCache i { h.cache with shared := t }, [], .nothing⟩) ∨
      (∀ t, ¬ Settings.Pushes v t) ∧ ∃ e, Cache.pushed v = .error e ∧ s.step (.configure v) =
        ⟨s, [.log ⟨.error, "Invalid settings ignored: " ++ Settings.errorMessage e⟩], .nothing⟩ := by
  cases hv : Cache.pushed v with
  | ok t =>
    have hok : h.cache.configure v = .ok { h.cache with shared := t } := by
      simp [Cache.configure, hp, hv, Except.map]
    exact .inl ⟨t, Settings.pushed_eq_ok_iff.mp hv, hi.configure_ok hok⟩
  | error x =>
    have herr : h.cache.configure v = .error x := by simp [Cache.configure, hp, hv, Except.map]
    exact .inr ⟨Settings.pushed_eq_error_iff.mp ⟨x, hv⟩, x, rfl, hi.configure_error herr⟩

theorem InSession.configure_pulled (hi : InSession s i h) (hp : h.cache.pull = true) (v : Value) :
    s.step (.configure v) = ⟨s.setCache i { h.cache with entries := [] }, [], .nothing⟩ :=
  hi.configure_ok (by simp [Cache.configure, hp])

/-- The shared settings are a fold over the configurations that are pushed. -/
theorem InSession.shared_fold {P : List Value → Settings → Prop} (hi : InSession s i h)
    (hstart : P [] h.cache.shared)
    (hpush : ∀ (c : Cache) vs v, c.pull = h.cache.pull → P vs c.shared →
      P (vs ++ [v]) ((c.configure v).toOption.getD c).shared)
    (hw : ∀ e ∈ es, e.within = true) :
    ∀ c, (s.after es).current? = some c → P (es.filterMap Event.payload?) c.shared := by
  induction es using List.reverseRecOn with
  | nil =>
    intro c hc
    cases hi.current?.symm.trans hc
    exact hstart
  | append_singleton es e ih =>
    have hbefore : ∀ f ∈ es, f.within = true := fun f hf => hw f (by simp [hf])
    obtain ⟨-, fs, hfs⟩ := hi.after hbefore
    have hlast := ih hbefore _ hfs.current?
    rw [after_concat, List.filterMap_append]
    intro c hc
    cases hv : e.payload? with
    | none =>
      rw [hfs.step_shared (hw e (by simp)) hv hc]
      simpa [hv] using hlast
    | some v =>
      cases e with
      | configure w =>
        -- a configuration that is refused leaves the cache as it was, which is the `getD` of `hpush`
        have hnext := hpush _ _ w (h.after_pull fs) hlast
        cases hconf : (h.after fs).cache.configure w with
        | ok d =>
          rw [hconf] at hnext
          rw [hfs.configure_ok hconf, hfs.setCache] at hc
          cases hc
          exact hnext
        | error =>
          rw [hconf] at hnext
          rw [hfs.configure_error hconf, hfs.current?] at hc
          cases hc
          exact hnext
      | _ => cases hv

theorem configure_lastPushed {c : Cache} (hp : c.pull = false) {vs : List Value} (v : Value)
    (hc : Settings.LastPushed vs c.shared) :
    Settings.LastPushed (vs ++ [v]) ((c.configure v).toOption.getD c).shared := by
  cases hv : Cache.pushed v with
  | ok t =>
    simp only [Cache.configure, hp, hv]
    exact .accept (Settings.pushed_eq_ok_iff.mp hv) vs
  | error x =>
    simp only [Cache.configure, hp, hv]
    exact hc.refuse (Settings.pushed_eq_error_iff.mp ⟨x, hv⟩)

theorem configure_shared {c : Cache} (hp : c.pull = true) (v : Value) :
    ((c.configure v).toOption.getD c).shared = c.shared := by
  simp [Cache.configure, hp, Except.toOption]

theorem named_after (hf : h.Fresh) (fs gs : List Host.Event) : ((h.after fs).after gs).cache.Named := by
  rw [← Host.after_append]
  exact Host.after_named hf _

theorem InSession.keepsDefault (hi : InSession s i h) (hf : h.Fresh) (hp : h.cache.pull = true)
    (hw : ∀ e ∈ es, e.within = true) : ∃ c, s.KeepsDefault es c := by
  obtain ⟨-, fs, hfs⟩ := hi.after hw
  have hpull := (h.after_pull fs).trans hp
  refine ⟨_, hfs.current?, ?_, fun v => ?_, fun uri later hl ho => ?_⟩
  · refine hi.shared_fold (P := fun _ t => t = default) (by rw [hf]) (fun c _ v hc hd => ?_) hw _ hfs.current?
    exact (configure_shared (hc.trans hp) v).trans hd
  · exact ⟨_, hfs.configure_pulled hpull v, hfs.setCache _⟩
  · have hclosed : (h.after fs).isOpen uri = false := by
      rw [hfs.hosts.documents] at ho
      simpa [Host.isOpen, hfs.hosts.tracks] using ho
    rw [after_append]
    exact hfs.lookup_served (named_after hf fs) (by rw [hclosed, Bool.and_false]) hl

theorem InSession.keepsLast (hi : InSession s i h) (hf : h.Fresh) (hp : h.cache.pull = false)
    (hw : ∀ e ∈ es, e.within = true) : ∃ c, s.KeepsLast es c := by
  obtain ⟨-, fs, hfs⟩ := hi.after hw
  have hpull := (h.after_pull fs).trans hp
  refine ⟨_, hfs.current?, ?_, fun v t ht => ?_, fun v hv => ?_, fun uri later hl => ⟨?_, ?_⟩⟩
  · refine hi.shared_fold (.inr ⟨by simp, by rw [hf]⟩) (fun c _ v hc hd => ?_) hw _ hfs.current?
    exact configure_lastPushed (hc.trans hp) v hd
  · obtain ⟨t', ht', hstep⟩ | ⟨hno, -⟩ := hfs.configure_unpulled hpull v
    · cases ht.unique ht'
      exact ⟨_, hstep, hfs.setCache _⟩
    · exact absurd ht (hno t)
  · obtain ⟨t, ht, -⟩ | ⟨-, hstep⟩ := hfs.configure_unpulled hpull v
    · exact absurd ht (hv t)
    · exact hstep
  · exact hfs.lookup_sent (Host.after_sound hf.sound fs) (Host.after_queued hf fs) hpull uri
  · rw [after_append]
    exact hfs.lookup_served (named_after hf fs) (by rw [hpull, Bool.false_and]) hl

/-- If the server does not ask the client for configuration, the last that is pushed and can be used holds.
If it asks, whatever is pushed only makes it forget the answers. -/
theorem pushed_configuration_settles (hs : s.stopped = false) (id : Scalar) (capabilities : Value)
    (hw : ∀ e ∈ es, e.within = true) :
    let start := (s.step (.request id (.handshake capabilities))).server
    let pulls := (Negotiation.negotiate .camel capabilities).configuration
    (pulls = false → ∃ c, start.KeepsLast es c) ∧ (pulls = true → ∃ c, start.KeepsDefault es c) := by
  intro start pulls
  have hi := handshake_inSession hs id capabilities
  exact ⟨fun hp => hi.keepsLast rfl hp hw, fun hp => hi.keepsDefault rfl hp hw⟩

/-- A number is pushed and looked up; a truth value in its place is refused, and one who asks later is
served with the number too. A client that is asked for its configuration can push the same, to no effect. -/
theorem truth_value_is_no_number :
    let payload (v : Value) : Value := .ofFields [("languageServer", .ofFields [("maxNumberOfProblems", v)])]
    let s := Server.start ⟨[], []⟩
    let es : List Event := [.configure (payload (.int 7)), .lookup "a", .configure (payload (.bool true))]
    let start := (s.step (.request (.int 1) (.handshake .null))).server
    let asked : Value := .ofFields [("workspace", .ofFields [("configuration", .bool true)])]
    s.stopped = false ∧ (∀ e ∈ es, e.within = true) ∧
      (Negotiation.negotiate .camel .null).configuration = false ∧
      (∃ c, start.KeepsLast es c ∧ c.shared = ⟨7⟩) ∧
      (start.after (es ++ [.lookup "b"])).standings = [.done (.settings ⟨7⟩), .done (.settings ⟨7⟩)] ∧
      (Negotiation.negotiate .camel asked).configuration = true ∧
      ∃ c, (s.step (.request (.int 1) (.handshake asked))).server.KeepsDefault es c := by
  intro payload s es start asked
  have hw : ∀ e ∈ es, e.within = true := by simp [es, Event.within]
  have hp : (Negotiation.negotiate .camel .null).configuration = false := by decide +kernel
  obtain ⟨c, hc⟩ := (pushed_configuration_settles (s := s) rfl (.int 1) .null hw).1 hp
  have hq : (Negotiation.negotiate .camel asked).configuration = true := by decide +kernel
  have hd := (pushed_configuration_settles (s := s) rfl (.int 1) asked hw).2 hq
  refine ⟨rfl, hw, hp, ⟨c, hc, ?_⟩, by decide +kernel, hq, hd⟩
  have hshared : (start.after es).current?.map (·.shared) = some ⟨7⟩ := by decide +kernel
  rw [hc.current] at hshared
  exact Option.some.inj hshared

end Server

end DclServer
