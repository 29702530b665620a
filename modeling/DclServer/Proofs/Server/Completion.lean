import DclServer.Proofs.Completion.RoundTrip
import DclServer.Proofs.Server.Frame

namespace DclServer

def Message.isResponse : Message → Bool
  | .response _ _ => true
  | _ => false

namespace Server

variable {s : Server} {e : Event} {es : List Event} {c : Catalogue}

def Event.completes : Event → Bool
  | .request _ (.completion _) | .request _ (.resolve _) => true
  | _ => false

/-- The steps of a run, each with its event. -/
def trace (s : Server) : List Event → List (Event × Step)
  | [] => []
  | e :: es => (e, s.step e) :: (s.step e).server.trace es

def Step.told (r : Step) : List Message × Answer := (r.sent, r.answer)

theorem run_trace (s : Server) (es : List Event) : (s.run es).2 = (s.trace es).flatMap (·.2.sent) := by
  induction es generalizing s with
  | nil => rfl
  | cons e es ih => simp only [run, trace, List.flatMap_cons, ih]

theorem trace_events (s : Server) (es : List Event) : (s.trace es).map Prod.fst = es := by
  induction es generalizing s with
  | nil => rfl
  | cons e es ih => simp only [trace, List.map_cons, ih]

theorem step_registry (s : Server) (e : Event) : (s.step e).server.registry = s.registry := by
  obtain h | h := step_cases s e
  · rw [h, handle_registry]
  · rw [h]

theorem step_of_completes (he : e.completes = true) : (s.step e).server = s := by
  cases e with
  | request id call =>
    cases call with
    | completion | resolve => cases hs : s.stopped <;> simp [step, hs, handle, Server.call, complete, resolve]
    | _ => cases he
  | _ => cases he

theorem trace_others (s : Server) (es : List Event) :
    s.trace (es.filter (!·.completes)) = (s.trace es).filter (!·.1.completes) := by
  induction es generalizing s with
  | nil => rfl
  | cons e es ih =>
    cases he : e.completes with
    | true => simp [trace, he, step_of_completes he, ih]
    | false => simp [trace, he, ih]

theorem after_others (s : Server) (es : List Event) : s.after (es.filter (!·.completes)) = s.after es := by
  induction es generalizing s with
  | nil => rfl
  | cons e es ih =>
    cases he : e.completes with
    | true => simp [he, after_cons, step_of_completes he, ih]
    | false => simp [he, after_cons, ih]

def catalogueAnswer (c : Catalogue) : Event → List Message
  | .request id (.completion _) => [.response id (.list { items := c.entries.map Completer.keywordItem })]
  | .request id (.resolve item) => [.response id (.item (Completer.resolveKeyword c item))]
  | _ => []

theorem catalogueAnswer_isResponse {m : Message} (hm : m ∈ catalogueAnswer c e) : m.isResponse = true := by
  unfold catalogueAnswer at hm
  split at hm
  · rw [List.mem_singleton.mp hm]; rfl
  · rw [List.mem_singleton.mp hm]; rfl
  · cases hm

theorem handle_told (hr : s.registry = .standard (some c)) (he : e.completes = true) :
    (s.handle e).told = (catalogueAnswer c e, .nothing) := by
  cases e with
  | request id call =>
    cases call with
    | completion p => simp [handle, Server.call, complete, hr, Registry.standard_complete, Step.told, catalogueAnswer]
    | resolve item => simp [handle, Server.call, resolve, hr, Registry.standard_resolve, Step.told, catalogueAnswer]
    | _ => cases he
  | _ => cases he

theorem step_completes_sent (hr : s.registry = .standard (some c)) (he : e.completes = true) :
    ∀ m ∈ (s.step e).sent, m.isResponse = true := by
  intro m hm
  obtain h | h := step_cases s e
  · have hsent : (s.step e).sent = catalogueAnswer c e := by
      rw [h]
      exact congrArg Prod.fst (handle_told hr he)
    exact catalogueAnswer_isResponse (hsent ▸ hm)
  · rw [h] at hm
    cases hm

theorem run_others (hr : s.registry = .standard (some c)) (es : List Event) :
    (s.run (es.filter (!·.completes))).2.filter (!·.isResponse) = (s.run es).2.filter (!·.isResponse) := by
  induction es generalizing s with
  | nil => rfl
  | cons e es ih =>
    cases he : e.completes with
    | true =>
      have hnone : (s.step e).sent.filter (!·.isResponse) = [] := by
        simpa using step_completes_sent hr he
      simp [run, he, step_of_completes he, hnone, ih hr]
    | false => simp [run, he, ih ((step_registry s e).trans hr)]

/-- What a request for completion is told depends on the catalogue alone. -/
theorem trace_told (hr : s.registry = .standard (some c)) (hh : s.Heard es) :
    ∀ x ∈ s.trace es, x.1.completes = true → x.2.told = (catalogueAnswer c x.1, .nothing) := by
  induction es generalizing s with
  | nil => simp [trace]
  | cons e es ih =>
    intro x hx hc
    obtain rfl | hx := List.mem_cons.mp hx
    · rw [hh.step_eq]
      exact handle_told hr hc
    · exact ih ((step_registry s e).trans hr) hh.2 x hx hc

theorem trace_completions (hr : s.registry = .standard (some c)) (hh : s.Heard es) :
    ((s.trace es).filter (·.1.completes)).map (fun x => (x.1, x.2.told)) =
      (es.filter Event.completes).map fun e => (e, catalogueAnswer c e, Answer.nothing) := by
  calc ((s.trace es).filter (·.1.completes)).map (fun x => (x.1, x.2.told))
      = ((s.trace es).filter (·.1.completes)).map (fun x => (x.1, catalogueAnswer c x.1, Answer.nothing)) := by
        apply List.map_congr_left
        intro x hx
        obtain ⟨hx, hc⟩ := List.mem_filter.mp hx
        rw [trace_told hr hh x hx hc]
    _ = (((s.trace es).map Prod.fst).filter Event.completes).map
          fun e => (e, catalogueAnswer c e, Answer.nothing) := by
        rw [List.filter_map, List.map_map]
        rfl
    _ = _ := by rw [trace_events]

theorem filter_trace (h : ∀ e ∈ es, e.completes = true) : (s.trace es).filter (·.1.completes) = s.trace es := by
  apply List.filter_eq_self.mpr
  intro x hx
  have hmem : x.1 ∈ (s.trace es).map Prod.fst := List.mem_map_of_mem hx
  rw [trace_events] at hmem
  exact h x.1 hmem

theorem heard_of_completes (hs : s.stopped = false) (h : ∀ e ∈ es, e.completes = true) : s.Heard es := by
  induction es with
  | nil => exact trivial
  | cons e es ih =>
    refine ⟨.inl hs, ?_⟩
    rw [step_of_completes (h e (by simp))]
    exact ih fun f hf => h f (by simp [hf])

/-- Completion and the rest of the server take no notice of each other: without the requests for
completion every other step is the same, as is all that is said beside responses, and alone these
requests are told the same. -/
structure CompletionApart (catalogue : Catalogue) (s : Server) (es : List Event) : Prop where
  heard : s.run es = s.run (handled es)
  sent : ∀ fs, (s.run fs).2 = (s.trace fs).flatMap (·.2.sent)
  others : s.trace (es.filter (!·.completes)) = (s.trace es).filter (!·.1.completes)
  ending : s.after (es.filter (!·.completes)) = s.after es
  said : (s.run (es.filter (!·.completes))).2.filter (!·.isResponse) = (s.run es).2.filter (!·.isResponse)
  alone : (s.trace ((handled es).filter Event.completes)).map (fun x => (x.1, x.2.told)) =
    ((s.trace (handled es)).filter (·.1.completes)).map (fun x => (x.1, x.2.told))
  told : ∀ x ∈ s.trace (handled es), x.1.completes = true → x.2.told = (catalogueAnswer catalogue x.1, .nothing)

theorem completion_apart (catalogue : Catalogue) (es : List Event) :
    CompletionApart catalogue (start catalogue) es where
  heard := run_handled rfl es
  sent := run_trace _
  others := trace_others _ es
  ending := after_others _ es
  said := run_others rfl es
  alone := by
    have hc : ∀ e ∈ (handled es).filter Event.completes, e.completes = true :=
      fun e he => (List.mem_filter.mp he).2
    rw [trace_completions rfl (heard_handled rfl es), ← filter_trace hc, trace_completions rfl (heard_of_completes rfl hc),
      List.filter_filter]
    simp only [Bool.and_self]
  told := trace_told rfl (heard_handled rfl es)

end Server

end DclServer
