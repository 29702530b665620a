import DclServer.Proofs.Server.Handled

namespace DclServer

namespace Cache

variable {c : Cache} {id : FetchId} {o : Outcome} {l : Log}

theorem finish_report (h : .report l ∈ (c.finish id o).2) : l.severity = .warning := by
  cases ho : o.reason? with
  | none => simp [finish, ho] at h
  | some reason =>
    simp only [finish, ho] at h
    split at h
    · cases List.mem_singleton.mp h
      rfl
    · cases h

theorem turn_report (h : .report l ∈ (c.turn id).2) : l.severity = .warning := by
  have hturn := c.turn_turn id
  generalize c.turn id = r at h hturn
  cases hturn with
  | tell => exact finish_report h
  | ask => simp at h
  | rest | default | conclude => cases h

theorem next_report (h : .report l ∈ c.next.2) : l.severity = .warning := by
  cases hq : c.queue with
  | nil => simp [next, hq] at h
  | cons id rest =>
    simp only [next, hq] at h
    exact turn_report h

theorem turns_report {n : Nat} (h : .report l ∈ (c.turns n).2) : l.severity = .warning := by
  induction n generalizing c with
  | zero => cases h
  | succ n ih =>
    obtain h | h := List.mem_append.mp h
    · exact next_report h
    · exact ih h

end Cache

/-- Asks for the settings of a document, or warns that they could not be got. -/
def Message.OfFetch (m : Message) : Prop :=
  (∃ l, m = .log l ∧ l.severity = .warning) ∨ ∃ n uri, m = .request n (.configuration uri)

namespace Server

variable {s t u : Server} {e : Event} {ms ns : List Message}

/-- What the work of fetches does to a server: caches change, and settings are asked for. -/
structure Fetches (s t : Server) (ms : List Message) : Prop where
  rest : t = { s with caches := t.caches, requests := t.requests }
  caches : t.caches.length = s.caches.length
  requests : ∃ more, t.requests = s.requests ++ more ∧ ∀ r ∈ more, ∃ i id, r = .configuration i id
  sent : ∀ m ∈ ms, m.OfFetch

theorem Fetches.setCache (s : Server) (i : Nat) (c : Cache) : Fetches s (s.setCache i c) [] :=
  ⟨rfl, List.length_set, ⟨[], (List.append_nil _).symm, by simp⟩, by simp⟩

theorem Fetches.refl (s : Server) : Fetches s s [] :=
  ⟨rfl, rfl, ⟨[], (List.append_nil _).symm, by simp⟩, by simp⟩

theorem Fetches.trans (hst : Fetches s t ms) (htu : Fetches t u ns) : Fetches s u (ms ++ ns) where
  rest := by rw [htu.rest, hst.rest]
  caches := htu.caches.trans hst.caches
  requests := by
    obtain ⟨more, hmore, hm⟩ := hst.requests
    obtain ⟨last, hlast, hl⟩ := htu.requests
    refine ⟨more ++ last, by rw [hlast, hmore, List.append_assoc], fun r hr => ?_⟩
    exact (List.mem_append.mp hr).elim (hm r) (hl r)
  sent m hm := (List.mem_append.mp hm).elim (hst.sent m) (htu.sent m)

theorem perform_fetches (s : Server) (j : Nat) {es : List Effect}
    (hr : ∀ l, .report l ∈ es → l.severity = .warning) : Fetches s (s.perform j es).1 (s.perform j es).2 := by
  induction es generalizing s with
  | nil => exact .refl s
  | cons e es ih =>
    have hrest := fun l hl => hr l (List.mem_cons_of_mem _ hl)
    cases e with
    | report l =>
      have hlog : Fetches s s [.log l] :=
        ⟨rfl, rfl, ⟨[], (List.append_nil _).symm, by simp⟩, by simpa using .inl ⟨l, rfl, hr l (by simp)⟩⟩
      exact hlog.trans (ih s hrest)
    | ask id =>
      have hask : Fetches s { s with requests := s.requests ++ [.configuration j id] }
          [.request s.requests.length (.configuration id.uri)] :=
        ⟨rfl, rfl, ⟨_, rfl, by simp⟩, by simpa using .inr ⟨_, _, rfl⟩⟩
      exact hask.trans (ih _ hrest)

theorem settle_fetches (s : Server) (j : Nat) : Fetches s (s.settle j).1 (s.settle j).2 := by
  cases hc : s.caches[j]? with
  | none =>
    simp only [settle, hc]
    exact .refl s
  | some c =>
    rw [settle_eq hc]
    exact (Fetches.setCache s j _).trans (perform_fetches _ _ fun l hl => Cache.turns_report hl)

theorem replyTo_fetches (s : Server) (j : Nat) (id : FetchId) (r : Reply) :
    Fetches s (s.replyTo j id r).1 (s.replyTo j id r).2 := by
  simp only [replyTo]
  split
  · exact (Fetches.setCache s j _).trans (settle_fetches ..)
  · exact .refl s

/-- What most events leave as it is: the completers, the close hooks, the number of caches, and whether
there is a workspace. -/
structure Frames (s t : Server) : Prop where
  registry : t.registry = s.registry
  hooks : t.hooks = s.hooks
  caches : t.caches.length = s.caches.length
  documents : t.documents.isNone = s.documents.isNone

theorem Frames.refl (s : Server) : Frames s s := ⟨rfl, rfl, rfl, rfl⟩

theorem Frames.trans (hst : Frames s t) (htu : Frames t u) : Frames s u :=
  ⟨htu.registry.trans hst.registry, htu.hooks.trans hst.hooks, htu.caches.trans hst.caches,
    htu.documents.trans hst.documents⟩

theorem Frames.setCache (s : Server) (i : Nat) (c : Cache) : Frames s (s.setCache i c) :=
  ⟨rfl, rfl, List.length_set, rfl⟩

theorem Fetches.frames (h : Fetches s t ms) : Frames s t := by
  rw [h.rest]
  exact ⟨rfl, rfl, h.caches, rfl⟩

theorem abandon_frames (s : Server) (n : Nat) : Frames s (s.abandon n).1 := by
  simp only [abandon]
  split
  · exact ⟨rfl, rfl, rfl, rfl⟩
  · exact (replyTo_fetches ..).frames
  · exact .refl s

theorem abandonAll_frames (s : Server) (ns : List Nat) : Frames s (s.abandonAll ns).1 := by
  induction ns generalizing s with
  | nil => exact .refl s
  | cons n ns ih => exact (abandon_frames s n).trans (ih _)

theorem shutdown_frames (s : Server) (id : Scalar) : Frames s (s.shutdown id).server := by
  have hstop : Frames s { s with stopped := true } := ⟨rfl, rfl, rfl, rfl⟩
  exact hstop.trans (abandonAll_frames ..)

theorem answer_frames (s : Server) (n : Nat) (r : Reply) : Frames s (s.answer n r).server := by
  simp only [answer]
  split
  · exact .refl s
  · exact ⟨rfl, rfl, rfl, rfl⟩
  · exact (replyTo_fetches ..).frames

theorem configure_frames (s : Server) (v : Value) : Frames s (s.configure v).server := by
  simp only [configure]
  split
  · exact .refl s
  · split
    · exact .refl s
    · split
      · exact .setCache ..
      · exact .refl s

theorem lookup_frames (s : Server) (uri : String) : Frames s (s.lookup uri).server := by
  simp only [lookup]
  split
  · exact .refl s
  · split
    · exact .refl s
    · refine .trans ?_ (settle_fetches ..).frames
      exact ⟨rfl, rfl, List.length_set, rfl⟩

theorem cancel_frames (s : Server) (caller : Nat) : Frames s (s.cancel caller).server := by
  simp only [cancel]
  split
  · split
    · exact .setCache ..
    · exact .refl s
  · exact .refl s

def Event.isAddition : Event → Bool
  | .request _ (.handshake _) | .closed _ | .hook _ => true
  | _ => false

theorem handle_frames (s : Server) (he : e.isAddition = false) : Frames s (s.handle e).server := by
  cases e with
  | request id c =>
    cases c with
    | handshake => cases he
    | shutdown => exact shutdown_frames s id
    | completion | resolve | unknown => exact .refl s
  | initialized =>
    simp only [handle, initialized]
    split
    · split
      · exact ⟨rfl, rfl, rfl, rfl⟩
      · exact .refl s
    · exact .refl s
  | configure v => exact configure_frames s v
  | folders added removed =>
    simp only [handle, folders]
    split
    · exact .refl s
    · split <;> exact .refl s
  | opened uri =>
    cases hd : s.documents with
    | none => simpa only [handle, opened, hd] using .refl s
    | some ds =>
      simp only [handle, opened, hd]
      exact ⟨rfl, rfl, rfl, by simp [hd]⟩
  | changed uri =>
    simp only [handle, changed]
    split <;> exact .refl s
  | closed | hook => cases he
  | reply | fail => exact answer_frames ..
  | lookup uri => exact lookup_frames s uri
  | cancel caller => exact cancel_frames s caller
  | abandon n => exact abandon_frames s n

/-- Nothing that happens to a server changes its completers. -/
theorem handle_registry (s : Server) (e : Event) : (s.handle e).server.registry = s.registry := by
  cases he : e.isAddition with
  | false => exact (handle_frames s he).registry
  | true =>
    cases e with
    | request id c =>
      cases c with
      | handshake => rfl
      | _ => cases he
    | closed =>
      simp only [handle, closed]
      split <;> rfl
    | hook => rfl
    | _ => cases he

end Server

end DclServer
