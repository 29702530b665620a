import DclServer.Proofs.Cache.Stage

namespace DclServer

def Effect.asked? : Effect → Option FetchId
  | .ask id => some id
  | .report _ => none

namespace Cache

inductive Turn (c : Cache) (id : FetchId) : Cache × List Effect → Prop where
  | rest : Turn c id (c, [])
  | ask (hs : c.stage? id = some .created) :
      Turn c id ({ c.setStage id .asked with calls := c.calls ++ [id] }, [.ask id])
  | default (hs : c.stage? id = some .created) (hp : c.provider = .absent) :
      Turn c id (c.conclude id (c.provider.outcome (.value .null)), [])
  | conclude {r : Reply} (hs : c.stage? id = some (.replied r)) :
      Turn c id (c.conclude id (c.provider.outcome r), [])
  | tell {o : Outcome} (hs : c.stage? id = some (.ended o)) : Turn c id (c.finish id o)

theorem turn_turn (c : Cache) (id : FetchId) : c.Turn id (c.turn id) := by
  unfold turn
  split
  · rename_i hs
    split
    · rename_i hp
      exact .default hs hp
    · exact .ask hs
  · rename_i hs
    exact .conclude hs
  · rename_i hs
    exact .tell hs
  · exact .rest

/-- Every entry is a fetch of its own document, and none is one whose failure has been told. -/
def Stores (c : Cache) : Prop :=
  ∀ e ∈ c.entries, e.2.uri = e.1 ∧ ¬ c.Failed e.2

/-- What turns do to a cache: they move fetches on and ask, but create none, and of the entries they
drop those whose failure they tell. -/
structure Advances (c d : Cache) (es : List Effect) : Prop where
  pull : d.pull = c.pull
  provider : d.provider = c.provider
  callers : d.callers = c.callers
  ids : d.ids = c.ids
  leads : c.Leads d
  calls : d.calls = c.calls ++ es.filterMap Effect.asked?
  asked : ∀ id, .ask id ∈ es → id ∈ c.ids
  entries : d.entries.Sublist c.entries
  kept : ∀ e ∈ c.entries, e ∈ d.entries ∨ ¬ c.Failed e.2 ∧ d.Failed e.2
  stores : c.Stores → d.Stores
  comesFrom : ∀ id heard, (∀ s, c.stage? id = some s → s.ComesFrom c.provider heard) →
    ∀ s, d.stage? id = some s → s.ComesFrom c.provider heard

theorem Advances.queue (c : Cache) (q : List FetchId) : c.Advances { c with queue := q } [] where
  pull := rfl
  provider := rfl
  callers := rfl
  ids := rfl
  leads := .refl c
  calls := by simp
  asked := by simp
  entries := .refl _
  kept := fun _ he => .inl he
  stores := fun h => h
  comesFrom := fun _ _ h => h

theorem Advances.refl (c : Cache) : c.Advances c [] := .queue c c.queue

theorem Advances.trans {c d e : Cache} {es fs : List Effect} (hcd : c.Advances d es)
    (hde : d.Advances e fs) : c.Advances e (es ++ fs) where
  pull := hde.pull.trans hcd.pull
  provider := hde.provider.trans hcd.provider
  callers := hde.callers.trans hcd.callers
  ids := hde.ids.trans hcd.ids
  leads := hcd.leads.trans hde.leads
  calls := by rw [hde.calls, hcd.calls, List.filterMap_append, List.append_assoc]
  asked := by
    intro id hid
    obtain he | hf := List.mem_append.mp hid
    · exact hcd.asked id he
    · exact hcd.ids ▸ hde.asked id hf
  entries := hde.entries.trans hcd.entries
  kept := by
    intro x hx
    obtain hd | ⟨hc, hd⟩ := hcd.kept x hx
    · obtain he | ⟨hn, he⟩ := hde.kept x hd
      · exact .inl he
      · exact .inr ⟨fun hf => hn (hcd.leads.failed hf), he⟩
    · exact .inr ⟨hc, hde.leads.failed hd⟩
  stores := fun h => hde.stores (hcd.stores h)
  comesFrom := by
    intro id heard h
    have hd := hcd.comesFrom id heard h
    rw [← hcd.provider] at hd ⊢
    exact hde.comesFrom id heard hd

theorem setStage_stores {c : Cache} {id : FetchId} {t : Stage} (ht : t.rank < 4) (h : c.Stores) :
    (c.setStage id t).Stores :=
  fun e he => ⟨(h e he).1, fun hf => (h e he).2 (setStage_failed ht hf)⟩

theorem conclude_advances {c : Cache} {id : FetchId} {s : Stage} {o : Outcome}
    (hs : c.stage? id = some s) (hr : s.rank < 3)
    (ho : ∀ heard, s.ComesFrom c.provider heard → (Stage.ended o).ComesFrom c.provider heard) :
    c.Advances (c.conclude id o) [] where
  pull := rfl
  provider := rfl
  callers := rfl
  ids := ids_setStage c id _
  leads := setStage_leads hs (.of_running (Nat.le_of_lt hr)
    (by cases s <;> simp_all [Stage.rank, Stage.outcome?]))
  calls := by simp [conclude, setStage]
  asked := by simp
  entries := .refl _
  kept := fun _ he => .inl he
  stores := setStage_stores (by simp [Stage.rank])
  comesFrom := by
    intro other heard h
    apply setStage_stages h
    rintro rfl
    exact ho heard (h s hs)

theorem ask_advances {c : Cache} {id : FetchId} (hs : c.stage? id = some .created) :
    c.Advances { c.setStage id .asked with calls := c.calls ++ [id] } [.ask id] where
  pull := rfl
  provider := rfl
  callers := rfl
  ids := ids_setStage c id _
  leads := setStage_leads hs (.of_running (by simp [Stage.rank]) rfl)
  calls := rfl
  asked := by
    intro other ho
    cases List.mem_singleton.mp ho
    exact mem_ids_of_stage? hs
  entries := .refl _
  kept := fun _ he => .inl he
  stores := setStage_stores (by simp [Stage.rank])
  comesFrom := fun _ _ h => setStage_stages h (fun _ => trivial)

theorem finish_cache (c : Cache) (id : FetchId) (o : Outcome) :
    (c.finish id o).1 = { c.setStage id (.finished o) with
      entries := if o.reason?.isSome then c.entries.filter (· != (id.uri, id)) else c.entries } := by
  unfold finish
  cases o.reason? <;> rfl

theorem finish_effects (c : Cache) (id : FetchId) (o : Outcome) :
    ∀ e ∈ (c.finish id o).2, e.asked? = none := by
  unfold finish
  split
  · simp
  · dsimp only
    split <;> simp [Effect.asked?]

/-- The entry of a fetch that failed goes; all others stay. -/
theorem finish_kept {c : Cache} {id : FetchId} {o : Outcome} (hs : c.stage? id = some (.ended o))
    (e : String × FetchId) (he : e ∈ c.entries) :
    e ∈ (c.finish id o).1.entries ∨ ¬ c.Failed e.2 ∧ (c.finish id o).1.Failed e.2 := by
  rw [finish_cache]
  by_cases ho : o.reason?.isSome
  · by_cases hid : e = (id.uri, id)
    · subst e
      refine .inr ⟨not_failed_of_stage? hs (by simp [Stage.rank]), o, ?_, Outcome.fails_iff.mpr ho⟩
      change (c.setStage id (.finished o)).stage? id = _
      simp [stage?_setStage, hs]
    · exact .inl (by simp [ho, he, hid])
  · exact .inl (by simpa [ho] using he)

theorem finish_stores {c : Cache} {id : FetchId} {o : Outcome} (h : c.Stores) :
    (c.finish id o).1.Stores := by
  rw [finish_cache]
  intro e he
  have hc : e ∈ c.entries := by
    dsimp only at he
    split at he
    · exact List.mem_of_mem_filter he
    · exact he
  refine ⟨(h e hc).1, ?_⟩
  rintro ⟨q, hq, hr⟩
  change (c.setStage id (.finished o)).stage? e.2 = _ at hq
  rw [stage?_setStage] at hq
  by_cases hid : e.2 = id
  · obtain ⟨u, -, hu⟩ := Option.map_eq_some_iff.mp ((if_pos hid).symm.trans hq)
    cases hu
    -- the entry is that of the failed fetch, which was filtered out
    have hpair : e = (id.uri, id) := Prod.ext ((h e hc).1.symm.trans (congrArg FetchId.uri hid)) hid
    simp [Outcome.fails_iff.mp hr, hpair] at he
  · exact (h e hc).2 ⟨q, (if_neg hid).symm.trans hq, hr⟩

theorem finish_advances {c : Cache} {id : FetchId} {o : Outcome} (hs : c.stage? id = some (.ended o)) :
    c.Advances (c.finish id o).1 (c.finish id o).2 where
  pull := by rw [finish_cache]; rfl
  provider := by rw [finish_cache]; rfl
  callers := by rw [finish_cache]; rfl
  ids := by rw [finish_cache]; exact ids_setStage c id _
  leads := by
    rw [finish_cache]
    exact setStage_leads hs ⟨by simp [Stage.rank], fun _ h => h⟩
  calls := by
    rw [finish_cache, List.filterMap_eq_nil_iff.mpr (finish_effects c id o), List.append_nil]
    rfl
  asked := fun i hi => by simpa [Effect.asked?] using finish_effects c id o _ hi
  entries := by
    rw [finish_cache]
    dsimp only
    split
    · exact List.filter_sublist
    · exact .refl _
  kept := finish_kept hs
  stores := finish_stores
  comesFrom := by
    intro other heard h
    rw [finish_cache]
    apply setStage_stages h
    rintro rfl
    exact h (.ended o) hs

theorem Turn.advances {c : Cache} {id : FetchId} {r : Cache × List Effect} (h : c.Turn id r) :
    c.Advances r.1 r.2 := by
  cases h with
  | rest => exact .refl c
  | ask hs => exact ask_advances hs
  | default hs hp =>
    exact conclude_advances hs (by simp [Stage.rank]) (fun _ _ => .inr ⟨hp, rfl⟩)
  | conclude hs =>
    exact conclude_advances hs (by simp [Stage.rank]) (fun _ hr => .inl ⟨_, hr, rfl⟩)
  | tell hs => exact finish_advances hs

theorem next_advances (c : Cache) : c.Advances c.next.1 c.next.2 := by
  unfold next
  split
  · exact .refl c
  · rename_i id rest _
    exact (Advances.queue c rest).trans (turn_turn { c with queue := rest } id).advances

theorem turns_advances (c : Cache) (n : Nat) : c.Advances (c.turns n).1 (c.turns n).2 := by
  induction n generalizing c with
  | zero => exact .refl c
  | succ n ih => exact c.next_advances.trans (ih c.next.1)

end Cache

end DclServer
