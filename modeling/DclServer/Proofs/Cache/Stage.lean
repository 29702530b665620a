import DclServer.Cache.Basic
import Mathlib.Data.List.Nodup

namespace DclServer

/-- A fetch that failed or was cancelled gives no settings. -/
inductive Outcome.Fails : Outcome → Prop where
  | failed (f : Fault) : Fails (.failed f)
  | cancelled : Fails .cancelled

theorem Outcome.fails_iff {o : Outcome} : o.Fails ↔ o.reason?.isSome = true := by
  constructor
  · rintro (_ | _) <;> rfl
  · intro h
    cases o with
    | settings s => cases h
    | failed f => exact .failed f
    | cancelled => exact .cancelled

namespace Stage

def rank : Stage → Nat
  | .created => 0
  | .asked => 1
  | .replied _ => 2
  | .ended _ => 3
  | .finished _ => 4

theorem outcome?_of_rank {s : Stage} (h : s.rank < 3) : s.outcome? = none := by
  cases s with
  | created | asked | replied => rfl
  | ended | finished => simp [rank] at h

/-- A fetch never goes back, and an outcome never changes. -/
def LeadsTo (s t : Stage) : Prop :=
  s.rank ≤ t.rank ∧ ∀ o, s.outcome? = some o → t.outcome? = some o

theorem LeadsTo.refl (s : Stage) : s.LeadsTo s := ⟨Nat.le_refl _, fun _ h => h⟩

theorem LeadsTo.trans {s t u : Stage} (hst : s.LeadsTo t) (htu : t.LeadsTo u) : s.LeadsTo u :=
  ⟨Nat.le_trans hst.1 htu.1, fun o h => htu.2 o (hst.2 o h)⟩

theorem LeadsTo.of_running {s t : Stage} (hr : s.rank ≤ t.rank) (hs : s.outcome? = none) :
    s.LeadsTo t :=
  ⟨hr, fun o h => by simp [hs] at h⟩

theorem LeadsTo.finished {o : Outcome} {t : Stage} (h : (Stage.finished o).LeadsTo t) :
    t = .finished o := by
  have ho := h.2 o rfl
  have hr := h.1
  cases t with
  | finished p => simp_all [outcome?]
  | _ => simp [rank] at hr

/-- The reply that a stage holds, or the one behind its outcome, is among those heard. Nobody hears
a reply where there is nobody to ask. -/
def ComesFrom (p : Provider) (heard : Reply → Prop) : Stage → Prop
  | .created => True
  | .asked => True
  | .replied r => heard r
  | .ended o => (∃ r, heard r ∧ o = p.outcome r) ∨ p = .absent ∧ o = p.outcome (.value .null)
  | .finished o => (∃ r, heard r ∧ o = p.outcome r) ∨ p = .absent ∧ o = p.outcome (.value .null)

theorem ComesFrom.outcome {p : Provider} {heard : Reply → Prop} {s : Stage} {o : Outcome}
    (h : s.ComesFrom p heard) (ho : s.outcome? = some o) :
    (∃ r, heard r ∧ o = p.outcome r) ∨ p = .absent ∧ o = p.outcome (.value .null) := by
  cases s with
  | ended q | finished q =>
    cases ho
    exact h
  | _ => cases ho

end Stage

namespace Cache

def ids (c : Cache) : List FetchId := c.fetches.map (·.id)

theorem stage?_isSome (c : Cache) (id : FetchId) : (c.stage? id).isSome ↔ id ∈ c.ids := by
  simp [stage?, ids]

theorem stage?_eq_none (c : Cache) (id : FetchId) : c.stage? id = none ↔ id ∉ c.ids := by
  rw [← stage?_isSome, Option.not_isSome_iff_eq_none]

theorem mem_ids_of_stage? {c : Cache} {id : FetchId} {s : Stage} (h : c.stage? id = some s) :
    id ∈ c.ids := by
  rw [← stage?_isSome, h]
  rfl

theorem newFetch_serial (c : Cache) (uri : String) :
    (c.newFetch uri).serial = (c.ids.filter (·.uri == uri)).length := by
  simp [newFetch, ids, List.filter_map, Function.comp_def]

def Leads (c d : Cache) : Prop :=
  ∀ id s, c.stage? id = some s → ∃ t, d.stage? id = some t ∧ s.LeadsTo t

theorem Leads.refl (c : Cache) : c.Leads c := fun _ s h => ⟨s, h, .refl s⟩

theorem Leads.trans {c d e : Cache} (hcd : c.Leads d) (hde : d.Leads e) : c.Leads e := by
  intro id s hs
  obtain ⟨t, ht, hst⟩ := hcd id s hs
  obtain ⟨u, hu, htu⟩ := hde id t ht
  exact ⟨u, hu, hst.trans htu⟩

theorem Leads.mem_ids {c d : Cache} (h : c.Leads d) {id : FetchId} (hc : id ∈ c.ids) : id ∈ d.ids := by
  rw [← stage?_isSome] at hc
  obtain ⟨s, hs⟩ := Option.isSome_iff_exists.mp hc
  obtain ⟨t, ht, _⟩ := h id s hs
  exact mem_ids_of_stage? ht

/-- The failure of a fetch has been told. -/
def Failed (c : Cache) (id : FetchId) : Prop :=
  ∃ o, c.stage? id = some (.finished o) ∧ o.Fails

theorem Leads.failed {c d : Cache} (h : c.Leads d) {id : FetchId} (hf : c.Failed id) : d.Failed id := by
  obtain ⟨o, ho, hr⟩ := hf
  obtain ⟨t, ht, hst⟩ := h id _ ho
  exact ⟨o, by rw [ht, hst.finished], hr⟩

theorem not_failed_of_stage? {c : Cache} {id : FetchId} {s : Stage} (hs : c.stage? id = some s)
    (hr : s.rank < 4) : ¬ c.Failed id := by
  rintro ⟨o, ho, -⟩
  rw [hs] at ho
  cases ho
  simp [Stage.rank] at hr

theorem ids_setStage (c : Cache) (id : FetchId) (s : Stage) : (c.setStage id s).ids = c.ids := by
  simp only [ids, setStage, List.map_map]
  apply List.map_congr_left
  intro f _
  by_cases hf : f.id = id <;> simp [hf]

theorem stage?_setStage (c : Cache) (id other : FetchId) (s : Stage) :
    (c.setStage id s).stage? other =
      if other = id then (c.stage? other).map (fun _ => s) else c.stage? other := by
  have hp : ((fun f : Fetch => f.id == other) ∘ fun f => if f.id = id then { f with stage := s } else f) =
      fun f => f.id == other := by
    funext f
    by_cases hf : f.id = id <;> simp [hf]
  simp only [stage?, setStage, List.find?_map, hp, Option.map_map]
  cases hf : c.fetches.find? (fun f => f.id == other) with
  | none => simp
  | some f =>
    have hid : f.id = other := by simpa using List.find?_some hf
    by_cases ho : other = id <;> simp [ho, hid]

theorem setStage_leads {c : Cache} {id : FetchId} {s t : Stage} (hs : c.stage? id = some s)
    (hst : s.LeadsTo t) : c.Leads (c.setStage id t) := by
  intro other u hu
  by_cases ho : other = id
  · subst other
    rw [hs] at hu
    cases hu
    exact ⟨t, by simp [stage?_setStage, hs], hst⟩
  · exact ⟨u, by simpa [stage?_setStage, ho] using hu, .refl u⟩

/-- What holds of the stage of a fetch holds after a change that keeps it so. -/
theorem setStage_stages {c : Cache} {id other : FetchId} {t : Stage} {P : Stage → Prop}
    (hc : ∀ s, c.stage? other = some s → P s) (ht : other = id → P t) :
    ∀ s, (c.setStage id t).stage? other = some s → P s := by
  intro s hs
  rw [stage?_setStage] at hs
  by_cases ho : other = id
  · obtain ⟨u, -, rfl⟩ := Option.map_eq_some_iff.mp ((if_pos ho).symm.trans hs)
    exact ht ho
  · exact hc s ((if_neg ho).symm.trans hs)

theorem setStage_failed {c : Cache} {id other : FetchId} {t : Stage} (ht : t.rank < 4)
    (hf : (c.setStage id t).Failed other) : c.Failed other := by
  obtain ⟨o, ho, hr⟩ := hf
  rw [stage?_setStage] at ho
  by_cases hid : other = id
  · obtain ⟨u, -, hu⟩ := Option.map_eq_some_iff.mp ((if_pos hid).symm.trans ho)
    rw [hu] at ht
    simp [Stage.rank] at ht
  · exact ⟨o, (if_neg hid).symm.trans ho, hr⟩

theorem ids_addFetch (c : Cache) (uri : String) : (c.addFetch uri).ids = c.ids ++ [c.newFetch uri] := by
  simp [ids, addFetch]

theorem stage?_addFetch (c : Cache) (uri : String) (id : FetchId) :
    (c.addFetch uri).stage? id =
      (c.stage? id).or (if id = c.newFetch uri then some .created else none) := by
  simp only [stage?, addFetch, List.find?_append, Option.map_or]
  congr 1
  by_cases h : c.newFetch uri = id
  · simp [h]
  · simp [h, Ne.symm h]

theorem addFetch_leads (c : Cache) (uri : String) : c.Leads (c.addFetch uri) :=
  fun id s hs => ⟨s, by simp [stage?_addFetch, hs], .refl s⟩

def Numbered (c : Cache) : Prop :=
  ∀ id ∈ c.ids, id.serial < (c.newFetch id.uri).serial

theorem Numbered.newFetch_absent {c : Cache} (h : c.Numbered) (uri : String) :
    c.newFetch uri ∉ c.ids :=
  fun hc => absurd (h _ hc) (Nat.lt_irrefl _)

theorem Numbered.of_ids {c d : Cache} (h : c.Numbered) (hd : d.ids = c.ids) : d.Numbered := by
  intro id hid
  rw [newFetch_serial, hd, ← newFetch_serial]
  exact h id (hd ▸ hid)

theorem Numbered.addFetch {c : Cache} (h : c.Numbered) (uri : String) : (c.addFetch uri).Numbered := by
  intro id hid
  rw [ids_addFetch, List.mem_append, List.mem_singleton] at hid
  rw [newFetch_serial, ids_addFetch, List.filter_append, List.length_append, ← newFetch_serial]
  obtain hc | rfl := hid
  · exact Nat.lt_of_lt_of_le (h id hc) (Nat.le_add_right _ _)
  · simp [newFetch]

end Cache

end DclServer
