import DclServer.Proofs.Server.Configuration

namespace DclServer.Server

variable {s : Server} {e : Event} {es fs : List Event}

def Event.isMessage : Event → Bool
  | .lookup _ | .cancel _ | .abandon _ | .hook _ => false
  | _ => true

def Event.isShutdown : Event → Bool
  | .request _ .shutdown => true
  | _ => false

def Event.capabilities? : Event → Option Value
  | .request _ (.handshake capabilities) => some capabilities
  | _ => none

theorem Event.capabilities?_eq_some {v : Value} :
    e.capabilities? = some v ↔ ∃ id, e = .request id (.handshake v) := by
  cases e with
  | request id c => cases c <;> simp [capabilities?]
  | _ => simp [capabilities?]

/-- The events of a run that a server handles: after a shutdown it hears the client no more. -/
def handled : List Event → List Event
  | [] => []
  | e :: es => e :: if e.isShutdown then es.filter (!·.isMessage) else handled es

theorem mem_of_mem_handled (h : e ∈ handled es) : e ∈ es := by
  induction es with
  | nil => exact h
  | cons f es ih =>
    obtain rfl | h := List.mem_cons.mp h
    · exact List.mem_cons_self
    · apply List.mem_cons_of_mem
      split at h
      · exact (List.mem_filter.mp h).1
      · exact ih h

theorem step_unheard (hs : s.stopped = true) (he : e.isMessage = true) : s.step e = ⟨s, [], s.unheard e⟩ := by
  cases e with
  | lookup | cancel | abandon | hook => cases he
  | _ => simp [step, hs]

theorem step_heard (h : s.stopped = false ∨ e.isMessage = false) : s.step e = s.handle e := by
  obtain hs | he := h
  · simp [step, hs]
  · cases e with
    | lookup | cancel | abandon | hook => simp [step]
    | _ => cases he

theorem step_cases (s : Server) (e : Event) : s.step e = s.handle e ∨ s.step e = ⟨s, [], s.unheard e⟩ := by
  by_cases h : s.stopped = false ∨ e.isMessage = false
  · exact .inl (step_heard h)
  · simp only [not_or, Bool.not_eq_false] at h
    exact .inr (step_unheard h.1 h.2)

theorem abandonAll_stays (s : Server) (ns : List Nat) : Stays s (s.abandonAll ns).1 := by
  induction ns generalizing s with
  | nil => exact .refl s
  | cons n ns ih => exact (abandon_stays s n).trans (ih _)

theorem handle_stopped (s : Server) (e : Event) : (s.handle e).server.stopped = (s.stopped || e.isShutdown) := by
  by_cases hw : e.within = true
  · have hshut : e.isShutdown = false := by
      cases e with
      | request id c =>
        cases c with
        | shutdown => cases hw
        | _ => rfl
      | _ => rfl
    rw [(handle_continues s hw).stopped, hshut, Bool.or_false]
  · cases e with
    | request id c =>
      cases c with
      | handshake => exact (Bool.or_false _).symm
      | shutdown => exact (abandonAll_stays _ _).stopped.trans (Bool.or_true _).symm
      | _ => exact absurd rfl hw
    | _ => exact absurd rfl hw

theorem run_append (s : Server) (es fs : List Event) :
    s.run (es ++ fs) = (((s.after es).run fs).1, (s.run es).2 ++ ((s.after es).run fs).2) := by
  induction es generalizing s with
  | nil => rfl
  | cons e es ih => simp only [List.cons_append, run, ih, after_cons, List.append_assoc]

/-- Each event of a run comes while the server still hears it. -/
def Heard (s : Server) : List Event → Prop
  | [] => True
  | e :: es => (s.stopped = false ∨ e.isMessage = false) ∧ (s.step e).server.Heard es

theorem Heard.step_eq (h : s.Heard (e :: es)) : s.step e = s.handle e := step_heard h.1

theorem heard_append : s.Heard (es ++ fs) ↔ s.Heard es ∧ (s.after es).Heard fs := by
  induction es generalizing s with
  | nil => exact ⟨fun h => ⟨trivial, h⟩, fun h => h.2⟩
  | cons e es ih => simp only [List.cons_append, Heard, ih, after_cons, and_assoc]

theorem heard_of_inner (h : ∀ e ∈ es, e.isMessage = false) : s.Heard es := by
  induction es generalizing s with
  | nil => exact trivial
  | cons e es ih => exact ⟨.inr (h e (by simp)), ih fun f hf => h f (by simp [hf])⟩

theorem heard_handled (hs : s.stopped = false) (es : List Event) : s.Heard (handled es) := by
  induction es generalizing s with
  | nil => exact trivial
  | cons e es ih =>
    refine ⟨.inl hs, ?_⟩
    split
    · exact heard_of_inner fun f hf => by simpa using (List.mem_filter.mp hf).2
    · rename_i he
      apply ih
      rw [step_heard (.inl hs), handle_stopped, hs]
      simpa using he

theorem run_of_stopped (hs : s.stopped = true) (es : List Event) : s.run es = s.run (es.filter (!·.isMessage)) := by
  induction es generalizing s with
  | nil => rfl
  | cons e es ih =>
    cases he : e.isMessage with
    | true => simp [run, step_unheard hs he, he, ih hs]
    | false =>
      have hs' : (s.step e).server.stopped = true := by
        rw [step_heard (.inr he), handle_stopped, hs, Bool.true_or]
      simp [run, he, ih hs']

/-- What a server does not hear has no effect. -/
theorem run_handled (hs : s.stopped = false) (es : List Event) : s.run es = s.run (handled es) := by
  induction es generalizing s with
  | nil => rfl
  | cons e es ih =>
    have hstop : (s.step e).server.stopped = e.isShutdown := by
      rw [step_heard (.inl hs), handle_stopped, hs, Bool.false_or]
    cases he : e.isShutdown with
    | true => simp [run, handled, he, run_of_stopped (hstop.trans he) es]
    | false => simp [run, handled, he, ih (hstop.trans he)]

theorem after_handled (hs : s.stopped = false) (es : List Event) : s.after es = s.after (handled es) :=
  congrArg Prod.fst (run_handled hs es)

end DclServer.Server
