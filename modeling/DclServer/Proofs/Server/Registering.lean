import DclServer.Proofs.CloseHook
import DclServer.Proofs.Server.Frame

namespace DclServer

namespace Message

def question? : Message → Option Question
  | .request _ q => some q
  | _ => none

def isRegistration (m : Message) : Bool := m.question? == some .register

def IsRefusal (m : Message) : Prop :=
  ∃ text, m = .log ⟨.error, "Failed to register for configuration changes: " ++ text⟩

def Unrelated (m : Message) : Prop := m.isRegistration = false ∧ ¬ m.IsRefusal

theorem unrelated_response (id : Scalar) (r : Response) : (Message.response id r).Unrelated :=
  ⟨rfl, nofun⟩

theorem unrelated_display (l : Log) : (Message.display l).Unrelated := ⟨rfl, nofun⟩

theorem unrelated_configuration (n : Nat) (uri : String) : (Message.request n (.configuration uri)).Unrelated :=
  ⟨rfl, nofun⟩

theorem unrelated_log {l : Log} (h : l.severity ≠ .error) : (Message.log l).Unrelated := by
  refine ⟨rfl, ?_⟩
  rintro ⟨text, ht⟩
  cases ht
  exact h rfl

/-- An error that begins with another letter is no refusal. -/
theorem unrelated_error {text : String} (h : text.toList.head? ≠ some 'F') :
    (Message.log ⟨.error, text⟩).Unrelated := by
  refine ⟨rfl, ?_⟩
  rintro ⟨rest, hrest⟩
  cases hrest
  simp at h

end Message

theorem Registry.resolveAll_failure (cs : List Completer) (item : Item) :
    ∀ l ∈ (resolveAll cs item).1, ∃ c f, l = failure c f := by
  induction cs generalizing item with
  | nil => simp [resolveAll]
  | cons c cs ih =>
    cases hr : (c.resolve item).result with
    | ok next =>
      cases hd : next.documentation with
      | none => simpa [resolveAll, hr, hd] using ih next
      | some => simp [resolveAll, hr, hd]
    | error raised =>
      cases raised with
      | cancelled => simp [resolveAll, hr]
      | fault f =>
        simp only [resolveAll, hr, List.mem_cons, forall_eq_or_imp]
        exact ⟨⟨c, f, rfl⟩, ih _⟩

namespace Message

theorem unrelated_close {α : Type} (h : CloseHook α) (f : Fault) : (Message.log (h.failure f)).Unrelated :=
  unrelated_error (by simp)

theorem unrelated_resolve (c : Completer) (f : Fault) : (Message.log (Registry.failure c f)).Unrelated :=
  unrelated_error (by simp)

end Message

namespace Server

variable {s t u : Server} {e : Event} {es a b : List Event} {n : Nat} {ms ns : List Message} {sess : Session} {r : Request}

/-- The client has not yet answered a request to register. -/
def Waits (s : Server) (n : Nat) : Prop := s.requests[n]? = some (.registration true)

theorem Waits.lt (h : s.Waits n) : n < s.requests.length := (List.getElem?_eq_some_iff.mp h).1

theorem waits_append {more : List Request} (ht : t.requests = s.requests ++ more) : t.Waits n ↔
    s.Waits n ∨ s.requests.length ≤ n ∧ more[n - s.requests.length]? = some (.registration true) := by
  rw [Waits, Waits, ht, List.getElem?_append]
  split
  · rename_i hn
    simp [Nat.not_le_of_lt hn]
  · rename_i hn
    simp [Nat.le_of_not_lt hn]

theorem waits_register (ht : t.requests = s.requests ++ [.registration true]) :
    t.Waits n ↔ s.Waits n ∨ n = s.requests.length := by
  rw [waits_append ht, List.getElem?_singleton]
  apply or_congr_right
  by_cases hn : n - s.requests.length = 0
  · simp only [hn, ↓reduceIte, and_true]
    omega
  · simp only [hn, ↓reduceIte, reduceCtorEq, and_false, false_iff]
    omega

theorem waits_set (ht : t.requests = s.requests.set n (.registration false)) (m : Nat) :
    t.Waits m ↔ s.Waits m ∧ m ≠ n := by
  rw [Waits, Waits, ht, List.getElem?_set]
  split
  · rename_i hm
    subst hm
    split <;> simp
  · rename_i hm
    simp [Ne.symm hm]

/-- What does not touch the session and asks for no registration: some waits end, and nothing is said
about registration. -/
structure Calm (ends : Nat → Prop) (s t : Server) (ms : List Message) : Prop where
  session : t.session = s.session
  waits : ∀ n, t.Waits n ↔ s.Waits n ∧ ¬ ends n
  length : s.requests.length ≤ t.requests.length
  unrelated : ∀ m ∈ ms, m.Unrelated

theorem Calm.frame (hs : t.session = s.session) (hr : t.requests = s.requests) (hm : ∀ m ∈ ms, m.Unrelated) :
    Calm (fun _ => False) s t ms :=
  ⟨hs, fun n => by simp [Waits, hr], Nat.le_of_eq (congrArg List.length hr.symm), hm⟩

theorem Calm.refl (s : Server) : Calm (fun _ => False) s s [] := .frame rfl rfl (by simp)

theorem Calm.say {m : Message} (hm : m.Unrelated) (s : Server) : Calm (fun _ => False) s s [m] :=
  .frame rfl rfl (by simpa using hm)

theorem Calm.trans {p q : Nat → Prop} (hst : Calm p s t ms) (htu : Calm q t u ns) :
    Calm (fun n => p n ∨ q n) s u (ms ++ ns) where
  session := htu.session.trans hst.session
  waits n := by rw [htu.waits, hst.waits, not_or, and_assoc]
  length := Nat.le_trans hst.length htu.length
  unrelated m hm := (List.mem_append.mp hm).elim (hst.unrelated m) (htu.unrelated m)

theorem Calm.congr {p q : Nat → Prop} (h : Calm p s t ms) (hpq : ∀ n, s.Waits n → (p n ↔ q n)) : Calm q s t ms where
  session := h.session
  waits n := by
    rw [h.waits, and_congr_right_iff]
    exact fun hw => not_congr (hpq n hw)
  length := h.length
  unrelated := h.unrelated

theorem Calm.then (hst : Calm (fun _ => False) s t ms) (htu : Calm (fun _ => False) t u ns) :
    Calm (fun _ => False) s u (ms ++ ns) :=
  (hst.trans htu).congr fun _ _ => or_self_iff

theorem Fetches.calm (h : Fetches s t ms) : Calm (fun _ => False) s t ms where
  session := by rw [h.rest]
  waits n := by
    obtain ⟨more, hmore, hm⟩ := h.requests
    rw [waits_append hmore]
    refine ⟨fun hw => ⟨hw.resolve_right fun hnew => ?_, id⟩, fun hw => .inl hw.1⟩
    obtain ⟨i, id, hid⟩ := hm _ (List.mem_of_getElem? hnew.2)
    cases hid
  length := by
    obtain ⟨more, hmore, -⟩ := h.requests
    simp [hmore]
  unrelated m hm := by
    obtain ⟨l, rfl, hl⟩ | ⟨n, uri, rfl⟩ := h.sent m hm
    · exact Message.unrelated_log (by simp [hl])
    · exact Message.unrelated_configuration n uri

theorem Calm.settle (h : Calm (fun _ => False) s t []) (j : Nat) :
    Calm (fun _ => False) s (t.settle j).1 (t.settle j).2 :=
  h.then (settle_fetches t j).calm

theorem ended_calm (s : Server) (n : Nat) :
    Calm (· = n) s { s with requests := s.requests.set n (.registration false) } [] := by
  exact ⟨rfl, fun m => waits_set rfl m, by simp, by simp⟩

theorem Calm.of_not_waits (h : Calm (fun _ => False) s t ms) (hn : ¬ s.Waits n) : Calm (· = n) s t ms := by
  refine h.congr fun m hm => iff_of_false id ?_
  rintro rfl
  exact hn hm

theorem abandon_calm (s : Server) (n : Nat) : Calm (· = n) s (s.abandon n).1 (s.abandon n).2 := by
  unfold abandon
  split
  · exact ended_calm s n
  · rename_i hn
    exact (replyTo_fetches ..).calm.of_not_waits (by simp [Waits, hn])
  · rename_i hn
    exact (Calm.refl s).of_not_waits (by simp [Waits, hn])

theorem abandonAll_calm (s : Server) (ns : List Nat) :
    Calm (· ∈ ns) s (s.abandonAll ns).1 (s.abandonAll ns).2 := by
  induction ns generalizing s with
  | nil => exact (Calm.refl s).congr (by simp)
  | cons n ns ih =>
    refine ((abandon_calm s n).trans (ih _)).congr fun m _ => ?_
    exact List.mem_cons.symm

theorem shutdown_calm (s : Server) (id : Scalar) :
    Calm (fun _ => True) s (s.shutdown id).server (s.shutdown id).sent := by
  have hstop : Calm (fun _ => False) s { s with stopped := true } [.response id .done] :=
    .frame rfl rfl (by simpa using Message.unrelated_response ..)
  refine (hstop.trans (abandonAll_calm _ (List.range s.requests.length))).congr fun n hn => ?_
  simpa using hn.lt

theorem answer_calm {r : Reply} (h : ∀ f, r = .fault f → ¬ s.Waits n) :
    Calm (· = n) s (s.answer n r).server (s.answer n r).sent := by
  unfold answer
  split
  · rename_i hn
    exact (Calm.refl s).of_not_waits (by simp [Waits, hn])
  · rename_i waiting hn
    dsimp only
    split
    · rename_i f
      exact absurd hn (h f rfl)
    · exact ended_calm s n
  · rename_i hn
    exact (replyTo_fetches ..).calm.of_not_waits (by simp [Waits, hn])

theorem answer_refused (h : s.Waits n) (f : Fault) : s.answer n (.fault f) =
    ⟨{ s with requests := s.requests.set n (.registration false) },
      [.log ⟨.error, "Failed to register for configuration changes: " ++ f.text⟩], .nothing⟩ := by
  have hn : s.requests[n]? = some (.registration true) := h
  simp only [answer, hn]
  rfl

/-- The wait for a request ends with an event: the request is answered or abandoned, or the server is
shut down. -/
def Event.Concludes : Event → Nat → Prop
  | .reply n _ | .fail n _ _ | .abandon n => (· = n)
  | .request _ .shutdown => fun _ => True
  | _ => fun _ => False

/-- All that an event can do about registration: a session begins, asks to be registered or is refused, and
other than that waits may end. -/
inductive Registering (s : Server) : Event → Step → Prop where
  | calm {e : Event} {r : Step} (hc : Calm e.Concludes s r.server r.sent) : Registering s e r
  | begins (id : Scalar) (capabilities : Value) :
      Registering s (.request id (.handshake capabilities)) (s.handshake id capabilities)
  | asks {sess : Session} (hs : s.session = some sess) (hf : sess.flags.configuration = true)
      (hr : sess.registered = false) : Registering s .initialized
        ⟨{ s with
          session := some { sess with registered := true }
          requests := s.requests ++ [.registration true] }, [.request s.requests.length .register], .nothing⟩
  | refused {n : Nat} (code : Int) (message : String) (hw : s.Waits n) : Registering s (.fail n code message)
      ⟨{ s with requests := s.requests.set n (.registration false) },
        [.log ⟨.error, "Failed to register for configuration changes: " ++ (Fault.ofCode code message).text⟩], .nothing⟩

theorem call_registering (s : Server) (id : Scalar) (c : Call) : s.Registering (.request id c) (s.call id c) := by
  cases c with
  | handshake capabilities => exact .begins id capabilities
  | completion p => exact .calm (.say (Message.unrelated_response ..) s)
  | resolve item =>
    refine .calm (.frame rfl rfl ?_)
    intro m hm
    obtain hm | hm := List.mem_append.mp hm
    · obtain ⟨l, hl, rfl⟩ := List.mem_map.mp hm
      obtain ⟨c, f, rfl⟩ := Registry.resolveAll_failure _ _ l hl
      exact Message.unrelated_resolve c f
    · cases List.mem_singleton.mp hm
      exact Message.unrelated_response ..
  | shutdown => exact .calm (shutdown_calm s id)
  | unknown => exact .calm (.say (Message.unrelated_response ..) s)

theorem initialized_registering (s : Server) : s.Registering .initialized s.initialized := by
  cases hs : s.session with
  | none =>
    simp only [initialized, hs]
    exact .calm (.refl s)
  | some sess =>
    simp only [initialized, hs]
    split
    · rename_i h
      simp only [Bool.and_eq_true, Bool.not_eq_true'] at h
      exact .asks hs h.1 h.2
    · exact .calm (.refl s)

theorem configure_registering (s : Server) (v : Value) : s.Registering (.configure v) (s.configure v) := by
  refine .calm ?_
  unfold configure
  split
  · exact .refl s
  · split
    · exact .refl s
    · split
      · exact .frame rfl rfl (by simp)
      · exact .say (Message.unrelated_error (by simp)) s

theorem folders_registering (s : Server) (added removed : List String) :
    s.Registering (.folders added removed) (s.folders added removed) := by
  refine .calm ?_
  unfold folders
  split
  · exact .say (Message.unrelated_display _) s
  · split
    · exact .say (Message.unrelated_log (by simp)) s
    · exact .refl s

theorem closed_registering (s : Server) (uri : String) : s.Registering (.closed uri) (s.closed uri) := by
  refine .calm ?_
  unfold closed
  split
  · refine .frame rfl rfl fun m hm => ?_
    obtain rfl | hm := List.mem_cons.mp hm
    · exact Message.unrelated_log (by simp)
    · obtain ⟨l, hl, rfl⟩ := List.mem_map.mp hm
      obtain ⟨h, f, rfl⟩ := broadcast_failure _ l hl
      exact Message.unrelated_close h f
  · exact .say (Message.unrelated_display _) s

theorem lookup_registering (s : Server) (uri : String) : s.Registering (.lookup uri) (s.lookup uri) := by
  refine .calm ?_
  unfold lookup
  split
  · exact .refl s
  · split
    · exact .refl s
    · refine Calm.settle ?_ _
      exact .frame rfl rfl (by simp)

theorem handle_registering (s : Server) (e : Event) : s.Registering e (s.handle e) := by
  cases e with
  | request id c => exact call_registering s id c
  | initialized => exact initialized_registering s
  | configure v => exact configure_registering s v
  | folders added removed => exact folders_registering s added removed
  | opened uri =>
    refine .calm ?_
    simp only [handle, opened]
    split
    · exact .frame rfl rfl (by simp)
    · exact .say (Message.unrelated_display _) s
  | changed uri =>
    refine .calm ?_
    simp only [handle, changed]
    split
    · split
      · exact .refl s
      · exact .say (Message.unrelated_display _) s
    · exact .say (Message.unrelated_display _) s
  | closed uri => exact closed_registering s uri
  | reply n v => exact .calm (answer_calm (by simp))
  | fail n code message =>
    by_cases hw : s.Waits n
    · have hr := Registering.refused code message hw
      rw [← answer_refused hw] at hr
      exact hr
    · exact .calm (answer_calm fun _ _ => hw)
  | lookup uri => exact lookup_registering s uri
  | cancel caller =>
    refine .calm ?_
    simp only [handle, cancel]
    split
    · split
      · exact .frame rfl rfl (by simp)
      · exact .refl s
    · exact .refl s
  | abandon n => exact .calm (abandon_calm s n)
  | hook => exact .calm (.frame rfl rfl (by simp [handle]))

end Server

end DclServer
