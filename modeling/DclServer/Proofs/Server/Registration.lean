import DclServer.Proofs.Server.Registering

namespace DclServer.Server

variable {s : Server} {e : Event} {es a b : List Event} {r : Step} {n : Nat} {sess : Session}

theorem Registering.waits (h : s.Registering e r) :
    r.server.Waits n ↔ s.Waits n ∧ ¬ e.Concludes n ∨ e = .initialized ∧ r.sent = [.request n .register] := by
  cases h with
  | calm hc =>
    have hsent : r.sent ≠ [.request n .register] := by
      intro hr
      have hm := (hc.unrelated (.request n .register) (by simp [hr])).1
      cases hm
    simp [hc.waits, hsent]
  | begins => simp [handshake, Waits, Event.Concludes]
  | asks =>
    rw [waits_register rfl]
    simp [Event.Concludes, eq_comm]
  | refused =>
    rw [waits_set rfl]
    simp [Event.Concludes]

theorem Registering.over (h : s.Registering e r) (hn : n < s.requests.length) (hw : ¬ s.Waits n) :
    n < r.server.requests.length ∧ ¬ r.server.Waits n := by
  cases h with
  | calm hc => exact ⟨Nat.lt_of_lt_of_le hn hc.length, fun h => hw ((hc.waits n).mp h).1⟩
  | begins => exact ⟨hn, hw⟩
  | asks =>
    refine ⟨by simp; omega, ?_⟩
    rw [waits_register rfl]
    rintro (h | rfl)
    · exact hw h
    · exact Nat.lt_irrefl _ hn
  | refused =>
    refine ⟨by simpa using hn, ?_⟩
    rw [waits_set rfl]
    exact fun h => hw h.1

theorem Registering.unasked (h : s.Registering e r) (hs : s.session = some sess) (hn : e.capabilities? = none)
    (hq : e = .initialized → sess.flags.configuration = true → sess.registered = true) :
    r.server.session = some sess ∧ ∀ m ∈ r.sent, m.isRegistration = false := by
  cases h with
  | calm hc => exact ⟨hc.session.trans hs, fun m hm => (hc.unrelated m hm).1⟩
  | begins => cases hn
  | asks hs' hf hr =>
    cases hs.symm.trans hs'
    cases hr.symm.trans (hq rfl hf)
  | refused => exact ⟨hs, by simp [Message.isRegistration, Message.question?]⟩

theorem unasked_run (hs : s.session = some sess) (hh : s.Heard es) (hn : ∀ e ∈ es, e.capabilities? = none)
    (hq : .initialized ∈ es → sess.flags.configuration = true → sess.registered = true) :
    (s.after es).session = some sess ∧ ∀ m ∈ (s.run es).2, m.isRegistration = false := by
  induction es generalizing s with
  | nil => exact ⟨hs, by simp [run]⟩
  | cons e es ih =>
    have hstep : (s.step e).server.session = some sess ∧ ∀ m ∈ (s.step e).sent, m.isRegistration = false := by
      rw [hh.step_eq]
      exact (s.handle_registering e).unasked hs (hn e (by simp)) fun he => hq (by simp [he])
    obtain ⟨hsess, hsent⟩ := ih hstep.1 hh.2 (fun f hf => hn f (by simp [hf])) fun hi => hq (by simp [hi])
    exact ⟨hsess, fun m hm => (List.mem_append.mp hm).elim (hstep.2 m) (hsent m)⟩

theorem initialized_asks (hs : s.session = some sess) (hf : sess.flags.configuration = true)
    (hr : sess.registered = false) : s.initialized =
      ⟨{ s with
        session := some { sess with registered := true }
        requests := s.requests ++ [.registration true] }, [.request s.requests.length .register], .nothing⟩ := by
  simp [initialized, hs, hf, hr]

theorem asked_run (hs : s.session = some sess) (hf : sess.flags.configuration = true) (hr : sess.registered = false)
    (hh : s.Heard es) (hn : ∀ e ∈ es, e.capabilities? = none) (hi : .initialized ∈ es) :
    (s.after es).session = some { sess with registered := true } ∧
      (s.run es).2.countP Message.isRegistration = 1 := by
  obtain ⟨a, b, rfl, hfirst⟩ := List.eq_append_cons_of_mem hi
  obtain ⟨hha, hhb⟩ := heard_append.mp hh
  obtain ⟨hsa, hma⟩ := unasked_run hs hha (fun e he => hn e (by simp [he])) fun h => absurd h hfirst
  have hstep : (s.after a).step .initialized = _ := hhb.step_eq.trans (initialized_asks hsa hf hr)
  have hreg : ((s.after a).step .initialized).server.session = some { sess with registered := true } := by
    rw [hstep]
  have hone : ((s.after a).step .initialized).sent.countP Message.isRegistration = 1 := by
    rw [hstep]
    rfl
  obtain ⟨hsb, hmb⟩ := unasked_run hreg hhb.2 (fun e he => hn e (by simp [he])) fun _ _ => rfl
  have hza : (s.run a).2.countP Message.isRegistration = 0 := List.countP_eq_zero.mpr (by simpa using hma)
  have hzb : (((s.after a).step .initialized).server.run b).2.countP Message.isRegistration = 0 :=
    List.countP_eq_zero.mpr (by simpa using hmb)
  refine ⟨by rw [after_append, after_cons, hsb], ?_⟩
  rw [run_append]
  simp only [run, List.countP_append, hza, hone, hzb]

/-- A request to register was sent in a run, and the wait for the answer has not ended. -/
def Awaits (s : Server) (es : List Event) (n : Nat) : Prop :=
  ∃ a b, es = a ++ .initialized :: b ∧ ((s.after a).step .initialized).sent = [.request n .register] ∧
    ∀ e ∈ b, ¬ e.Concludes n

theorem awaits_concat : s.Awaits (es ++ [e]) n ↔
    s.Awaits es n ∧ ¬ e.Concludes n ∨ e = .initialized ∧ ((s.after es).step e).sent = [.request n .register] := by
  constructor
  · rintro ⟨a, b, hab, hsent, hb⟩
    obtain rfl | ⟨b, f, rfl⟩ := List.eq_nil_or_concat b
    · obtain ⟨rfl, he⟩ := List.append_inj' hab rfl
      cases he
      exact .inr ⟨rfl, hsent⟩
    · rw [List.concat_eq_append, ← List.cons_append, ← List.append_assoc] at hab
      obtain ⟨rfl, he⟩ := List.append_inj' hab rfl
      cases he
      exact .inl ⟨⟨a, b, rfl, hsent, fun f hf => hb f (by simp [hf])⟩, hb e (by simp)⟩
  · rintro (⟨⟨a, b, rfl, hsent, hb⟩, he⟩ | ⟨rfl, hsent⟩)
    · refine ⟨a, b ++ [e], by simp, hsent, fun f hf => ?_⟩
      obtain hf | hf := List.mem_append.mp hf
      · exact hb f hf
      · cases List.mem_singleton.mp hf
        exact he
    · exact ⟨es, [], rfl, hsent, by simp⟩

/-- The server waits for a registration exactly if the run has sent it and not ended the wait. -/
theorem waits_iff_awaits (hs : ∀ n, ¬ s.Waits n) (hh : s.Heard es) : (s.after es).Waits n ↔ s.Awaits es n := by
  induction es using List.reverseRecOn with
  | nil => exact iff_of_false (hs n) (by simp [Awaits])
  | append_singleton es e ih =>
    obtain ⟨hes, he⟩ := heard_append.mp hh
    have hw := ((s.after es).handle_registering e).waits (n := n)
    rw [← he.step_eq, ih hes] at hw
    rw [after_concat, awaits_concat]
    exact hw

theorem over_run (hn : n < s.requests.length) (hw : ¬ s.Waits n) (hh : s.Heard es) : ¬ (s.after es).Waits n := by
  induction es generalizing s with
  | nil => exact hw
  | cons e es ih =>
    have hover := (s.handle_registering e).over hn hw
    rw [← hh.step_eq] at hover
    exact ih hover.1 hover.2 hh.2

structure Unused (s : Server) : Prop where
  documents : s.documents = none
  session : s.session = none
  caches : s.caches = []
  requests : s.requests = []

theorem start_unused (catalogue : Catalogue) : (start catalogue).Unused := ⟨rfl, rfl, rfl, rfl⟩

theorem Unused.handle (h : s.Unused) (he : e.capabilities? = none) :
    (s.handle e).server.Unused ∧ ∀ m ∈ (s.handle e).sent, m.question? = none := by
  cases e with
  | request id c =>
    cases c with
    | handshake => cases he
    | completion p => exact ⟨h, by simp [Server.handle, call, complete, Message.question?]⟩
    | resolve item =>
      refine ⟨h, fun m hm => ?_⟩
      obtain hm | hm := List.mem_append.mp hm
      · obtain ⟨l, -, rfl⟩ := List.mem_map.mp hm
        rfl
      · cases List.mem_singleton.mp hm
        rfl
    | shutdown =>
      simp only [Server.handle, call, shutdown, h.requests]
      exact ⟨⟨h.documents, h.session, h.caches, rfl⟩, by simp [abandonAll, Message.question?]⟩
    | unknown => exact ⟨h, by simp [Server.handle, call, Message.question?]⟩
  | initialized => simp [Server.handle, initialized, h.session, h]
  | configure => simp [Server.handle, configure, h.session, h]
  | folders =>
    simp only [Server.handle, folders, h.session]
    split <;> simp [unavailable, Message.question?, h]
  | opened | changed | closed =>
    simp [Server.handle, opened, changed, closed, h.documents, unavailable, Message.question?, h]
  | reply | fail => simp [Server.handle, answer, h.requests, h]
  | lookup => simp [Server.handle, lookup, h.session, h]
  | cancel caller =>
    simp only [Server.handle, cancel, h.caches]
    split <;> simp [h]
  | abandon => simp [Server.handle, abandon, h.requests, h]
  | hook => exact ⟨⟨h.documents, h.session, h.caches, h.requests⟩, by simp [Server.handle]⟩

theorem Unused.run (h : s.Unused) (hh : s.Heard es) (hn : ∀ e ∈ es, e.capabilities? = none) :
    (s.after es).Unused ∧ ∀ m ∈ (s.run es).2, m.question? = none := by
  induction es generalizing s with
  | nil => exact ⟨h, by simp [Server.run]⟩
  | cons e es ih =>
    have hstep := h.handle (hn e (by simp))
    rw [← hh.step_eq] at hstep
    obtain ⟨hafter, hsent⟩ := ih hstep.1 hh.2 fun f hf => hn f (by simp [hf])
    exact ⟨hafter, fun m hm => (List.mem_append.mp hm).elim (hstep.2 m) (hsent m)⟩

theorem session_run {id : Scalar} {capabilities : Value}
    (hh : (s.handshake id capabilities).server.Heard es) (hn : ∀ e ∈ es, e.capabilities? = none) :
    let flags := Negotiation.negotiate .camel capabilities
    let begun := (s.handshake id capabilities).server
    let count := (begun.run es).2.countP Message.isRegistration
    (∃ sess c, (begun.after es).session = some sess ∧ sess.flags = flags ∧
        (begun.after es).cacheOf? sess = some c ∧ (c.pull = true ↔ sess.flags.configuration = true)) ∧
      count ≤ 1 ∧ (count = 1 ↔ flags.configuration = true ∧ .initialized ∈ es) := by
  intro flags begun count
  have hs : begun.session = some { flags, cache := s.caches.length } := rfl
  -- the cache of the session goes through a run of its host, which keeps how it is served
  have hcache : ∃ c, (begun.after es).caches[s.caches.length]? = some c ∧ c.pull = flags.configuration := by
    have hnew : ∀ id caps, .request id (.handshake caps) ∉ es := fun id caps hm => by cases hn _ hm
    obtain ⟨fs, -, hosts⟩ := run_cacheRun begun hnew _ (s.handshake_hosts id capabilities)
    exact ⟨_, hosts.cache, Host.after_pull _ fs⟩
  obtain ⟨c, hc, hpull⟩ := hcache
  by_cases hask : flags.configuration = true ∧ .initialized ∈ es
  · obtain ⟨hsess, hone⟩ := asked_run hs hask.1 rfl hh hn hask.2
    exact ⟨⟨_, c, hsess, rfl, hc, by rw [hpull]⟩, Nat.le_of_eq hone, iff_of_true hone hask⟩
  · obtain ⟨hsess, hnone⟩ := unasked_run hs hh hn fun hi hf => absurd ⟨hf, hi⟩ hask
    have hzero : count = 0 := List.countP_eq_zero.mpr (by simpa using hnone)
    exact ⟨⟨_, c, hsess, rfl, hc, by rw [hpull]⟩, by omega, iff_of_false (by omega) hask⟩

theorem unrepeated_run (hh : s.Heard (.initialized :: es)) (hn : ∀ e ∈ es, e.capabilities? = none)
    (hsent : (s.step .initialized).sent = [.request n .register]) :
    ∀ m ∈ ((s.step .initialized).server.run es).2, m.isRegistration = false := by
  have hreg : ∃ sess, (s.step .initialized).server.session = some sess ∧ sess.registered = true := by
    have h := s.handle_registering .initialized
    rw [← hh.step_eq] at h
    generalize s.step .initialized = r at h hsent
    cases h with
    | calm hc => cases (hc.unrelated (.request n .register) (by simp [hsent])).1
    | asks => exact ⟨_, rfl, rfl⟩
  obtain ⟨sess, hsess, hr⟩ := hreg
  exact (unasked_run hsess hh.2 hn fun _ _ => hr).2

theorem refused_run {code : Int} {message : String} (hs : ∀ n, ¬ s.Waits n)
    (hh : s.Heard (a ++ .fail n code message :: b)) (hw : s.Awaits a n) :
    ((s.after a).step (.fail n code message)).sent = [.log ⟨.error,
        "Failed to register for configuration changes: " ++ (Fault.ofCode code message).text⟩] ∧
      ¬ s.Awaits (a ++ .fail n code message :: b) n := by
  obtain ⟨ha, hfail⟩ := heard_append.mp hh
  have hwaits : (s.after a).Waits n := (waits_iff_awaits hs ha).mpr hw
  have hstep : (s.after a).step (.fail n code message) = _ := hfail.step_eq.trans (answer_refused hwaits _)
  rw [← waits_iff_awaits hs hh, after_append, after_cons]
  refine ⟨by rw [hstep], over_run ?_ ?_ hfail.2⟩
  · rw [hstep]
    simpa using hwaits.lt
  · rw [hstep, waits_set rfl]
    simp

theorem reported_run (hs : ∀ n, ¬ s.Waits n) (hh : s.Heard (a ++ e :: b)) {m : Message}
    (hm : m ∈ ((s.after a).step e).sent) (href : m.IsRefusal) :
    ∃ n code message, e = .fail n code message ∧ s.Awaits a n := by
  obtain ⟨ha, he⟩ := heard_append.mp hh
  have h := (s.after a).handle_registering e
  rw [← he.step_eq] at h
  generalize (s.after a).step e = r at h hm
  obtain ⟨text, rfl⟩ := href
  cases h with
  | calm hc => exact absurd ⟨text, rfl⟩ (hc.unrelated _ hm).2
  | begins => simp [handshake, greeting, infoLog] at hm
  | asks => simp at hm
  | refused code message hw => exact ⟨_, code, message, rfl, (waits_iff_awaits hs ha).mp hw⟩

/-- How the server registers for changed configuration in a run. It asks nothing before the first session.
From a handshake to the next it holds the flags that were negotiated and a cache that pulls as they say, and
registers once if it has to, when it is first told that the client is initialized. If a registration that is
still waited for is refused, this is reported once, and nothing else is reported so; it is not sent again. -/
structure RegistersOnce (s : Server) (es : List Event) : Prop where
  heard : s.run es = s.run (handled es)
  early : (∀ e ∈ handled es, e.capabilities? = none) →
    (s.after es).session = none ∧ ∀ m ∈ (s.run es).2, m.question? = none
  session : ∀ a e b capabilities, handled es = a ++ e :: b → e.capabilities? = some capabilities →
    (∀ f ∈ b, f.capabilities? = none) →
    let flags := Negotiation.negotiate .camel capabilities
    let count := ((s.after (a ++ [e])).run b).2.countP Message.isRegistration
    (∃ sess c, (s.after es).session = some sess ∧ sess.flags = flags ∧ (s.after es).cacheOf? sess = some c ∧
        (c.pull = true ↔ sess.flags.configuration = true)) ∧
      count ≤ 1 ∧ (count = 1 ↔ flags.configuration = true ∧ .initialized ∈ b)
  refused : ∀ a n code message b c, handled es = a ++ .fail n code message :: (b ++ c) → s.Awaits a n →
    ((s.after a).step (.fail n code message)).sent = [.log ⟨.error,
        "Failed to register for configuration changes: " ++ (Fault.ofCode code message).text⟩] ∧
      ¬ s.Awaits (a ++ .fail n code message :: b) n
  reported : ∀ a e b m, handled es = a ++ e :: b → m ∈ ((s.after a).step e).sent → m.IsRefusal →
    ∃ n code message, e = .fail n code message ∧ s.Awaits a n
  unrepeated : ∀ a n b c, handled es = a ++ .initialized :: (b ++ c) →
    ((s.after a).step .initialized).sent = [.request n .register] → (∀ f ∈ b, f.capabilities? = none) →
    ∀ m ∈ ((s.after (a ++ [.initialized])).run b).2, m.isRegistration = false

/-- Whatever happens to a server, it registers once in each session for which it was negotiated. -/
theorem configuration_registered_once (catalogue : Catalogue) (es : List Event) :
    (start catalogue).RegistersOnce es := by
  have hs : ∀ n, ¬ (start catalogue).Waits n := by simp [Waits, start]
  have hall : (start catalogue).Heard (handled es) := heard_handled rfl es
  have hafter : (start catalogue).after es = (start catalogue).after (handled es) := after_handled rfl es
  refine ⟨run_handled rfl es, ?_, ?_, ?_, ?_, ?_⟩
  · intro hn
    obtain ⟨hafter', hsent⟩ := (start_unused catalogue).run hall hn
    rw [hafter, run_handled rfl es]
    exact ⟨hafter'.session, hsent⟩
  · intro a e b capabilities hsplit he hn
    obtain ⟨id, rfl⟩ := Event.capabilities?_eq_some.mp he
    rw [hsplit] at hall hafter
    obtain ⟨-, hb⟩ := heard_append.mp hall
    have hstep : ((start catalogue).after a).step (.request id (.handshake capabilities)) =
        ((start catalogue).after a).handshake id capabilities := hb.step_eq
    rw [after_concat, hafter, after_append, after_cons, hstep]
    exact session_run (hstep ▸ hb.2) hn
  · intro a n code message b c hsplit hw
    rw [hsplit, ← List.cons_append, ← List.append_assoc] at hall
    exact refused_run hs (heard_append.mp hall).1 hw
  · intro a e b m hsplit hm href
    exact reported_run hs (hsplit ▸ hall) hm href
  · intro a n b c hsplit hsent hn
    rw [hsplit, ← List.cons_append] at hall
    rw [after_concat]
    exact unrepeated_run (heard_append.mp (heard_append.mp hall).2).1 hn hsent

/-- A second session begins while the first waits for its registration, and registers too. The first one is
then refused, which is reported, and nothing is sent again. -/
theorem replaced_session_is_refused :
    let pull : Value := .ofFields [("workspace", .ofFields [("configuration", .bool true)])]
    let begins : Event := .request (.int 0) (.handshake pull)
    let both : List Event := [begins, .initialized, begins, .initialized]
    let refusal : Event := .fail 0 (-32603) ""
    let es := both ++ [refusal, .initialized]
    let s := start ⟨[], []⟩
    handled es = es ∧ s.Awaits both 0 ∧ s.Awaits both 1 ∧
      ((s.after both).step refusal).sent =
        [.log ⟨.error, "Failed to register for configuration changes: Internal Error"⟩] ∧
      ¬ s.Awaits es 0 ∧
      ((s.after [begins, .initialized, begins]).run [.initialized, refusal, .initialized]).2.countP
        Message.isRegistration = 1 := by
  intro pull begins both refusal es s
  have once := configuration_registered_once ⟨[], []⟩ es
  have hfirst : s.Awaits both 0 := ⟨[begins], [begins, .initialized], rfl, rfl, by simp [begins, Event.Concludes]⟩
  have hsecond : s.Awaits both 1 := ⟨[begins, .initialized, begins], [], rfl, rfl, by simp⟩
  obtain ⟨hsent, hover⟩ := once.refused both 0 (-32603) "" [.initialized] [] rfl hfirst
  obtain ⟨-, -, hcount⟩ := once.session [begins, .initialized] begins [.initialized, refusal, .initialized] pull rfl rfl
    (by simp [refusal, Event.capabilities?])
  exact ⟨rfl, hfirst, hsecond, hsent, hover, hcount.mpr ⟨by decide +kernel, by simp⟩⟩

end DclServer.Server
