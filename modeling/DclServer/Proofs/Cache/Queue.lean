import DclServer.Proofs.Cache.Run
import Mathlib.Data.List.Count

namespace DclServer

def Stage.waits : Stage → Bool
  | .created | .replied _ | .ended _ => true
  | .asked | .finished _ => false

inductive Stage.Steps : Stage → Stage → Prop where
  | ask : Steps .created .asked
  | conclude {s : Stage} (o : Outcome) (hs : s.outcome? = none) : Steps s (.ended o)
  | tell (o : Outcome) : Steps (.ended o) (.finished o)

namespace Cache

variable {c d : Cache} {id : FetchId} {rest : List FetchId}

/-- The queue holds each fetch that waits for a turn once, and no other. -/
structure Queued (c : Cache) : Prop where
  nodup : c.queue.Nodup
  mem_iff : ∀ id, id ∈ c.queue ↔ (c.stage? id).any Stage.waits = true

theorem stage?_setStage_of_ne {other : FetchId} (s : Stage) (h : other ≠ id) :
    (c.setStage id s).stage? other = c.stage? other := by
  rw [stage?_setStage, if_neg h]

theorem stage?_setStage_self {s : Stage} (t : Stage) (h : c.stage? id = some s) :
    (c.setStage id t).stage? id = some t := by
  rw [stage?_setStage, if_pos rfl, h]
  rfl

inductive Moves (c : Cache) : Cache × List Effect → Prop where
  | idle (hq : c.queue = []) : Moves c (c, [])
  | ask {id : FetchId} {rest : List FetchId} (hq : c.queue = id :: rest)
      (hs : c.stage? id = some .created) :
      Moves c ({ c.setStage id .asked with queue := rest, calls := c.calls ++ [id] }, [.ask id])
  | conclude {id : FetchId} {rest : List FetchId} {s : Stage} {o : Outcome} (hq : c.queue = id :: rest)
      (hs : c.stage? id = some s) (hr : s.outcome? = none)
      (ho : (∃ r, s = .replied r ∧ o = c.provider.outcome r) ∨
        s = .created ∧ c.provider = .absent ∧ o = c.provider.outcome (.value .null)) :
      Moves c ({ c.setStage id (.ended o) with queue := rest ++ [id] }, [])
  | tell {id : FetchId} {rest : List FetchId} {o : Outcome} (hq : c.queue = id :: rest)
      (hs : c.stage? id = some (.ended o)) :
      Moves c ({ c with queue := rest }.finish id o)

theorem Queued.next_moves (h : c.Queued) : c.Moves c.next := by
  unfold next
  split
  · rename_i hq
    exact .idle hq
  · rename_i id rest hq
    have hw : (c.stage? id).any Stage.waits = true := (h.mem_iff id).mp (by simp [hq])
    unfold turn
    rw [show ({ c with queue := rest } : Cache).stage? id = c.stage? id from rfl]
    cases hs : c.stage? id with
    | none => simp [hs] at hw
    | some s =>
      cases s with
      | created =>
        dsimp only
        split
        · rename_i hp
          exact .conclude hq hs rfl (.inr ⟨rfl, hp, rfl⟩)
        · exact .ask hq hs
      | replied r => exact .conclude hq hs rfl (.inl ⟨r, rfl, rfl⟩)
      | ended o => exact .tell hq hs
      | asked | finished => simp [hs, Stage.waits] at hw

/-- The fetch that waits longest takes a step, and waits again behind the others or no more. -/
theorem Queued.next_head (h : c.Queued) (hq : c.queue = id :: rest) :
    ∃ s t, c.stage? id = some s ∧ s.Steps t ∧ c.next.1.stage? = (c.setStage id t).stage? ∧
      c.next.1.queue = if t.waits then rest ++ [id] else rest := by
  have hm := h.next_moves
  generalize c.next = r at hm ⊢
  cases hm with
  | idle hn =>
    rw [hn] at hq
    cases hq
  | ask hq' hs =>
    cases hq'.symm.trans hq
    exact ⟨_, _, hs, .ask, rfl, rfl⟩
  | conclude hq' hs hr =>
    cases hq'.symm.trans hq
    exact ⟨_, _, hs, .conclude _ hr, rfl, rfl⟩
  | tell hq' hs =>
    cases hq'.symm.trans hq
    rw [finish_cache]
    exact ⟨_, _, hs, .tell _, rfl, rfl⟩

theorem next_of_queue_nil (h : c.queue = []) : c.next = (c, []) := by
  simp [Cache.next, h]

theorem turns_of_queue_nil (h : c.queue = []) (n : Nat) : c.turns n = (c, []) := by
  induction n with
  | zero => rfl
  | succ n ih => simp [Cache.turns, next_of_queue_nil h, ih]

theorem Queued.update (h : c.Queued) (id : FetchId) (hn : d.queue.Nodup)
    (hs : ∀ other, other ≠ id → d.stage? other = c.stage? other)
    (hq : ∀ other, other ≠ id → (other ∈ d.queue ↔ other ∈ c.queue))
    (hid : id ∈ d.queue ↔ (d.stage? id).any Stage.waits = true) : d.Queued := by
  refine ⟨hn, fun other => ?_⟩
  by_cases ho : other = id
  · subst other
    exact hid
  · rw [hq other ho, h.mem_iff, hs other ho]

theorem Queued.next (h : c.Queued) : c.next.1.Queued := by
  cases hq : c.queue with
  | nil => rwa [next_of_queue_nil hq]
  | cons id rest =>
    obtain ⟨hid, hn⟩ := List.nodup_cons.mp (hq ▸ h.nodup)
    obtain ⟨s, t, hs, -, hf, hd⟩ := h.next_head hq
    have hself : (c.next.1.stage? id).any Stage.waits = t.waits := by
      rw [hf, stage?_setStage_self t hs]
      rfl
    refine h.update id ?_ (fun other ho => ?_) (fun other ho => ?_) ?_
    · rw [hd]
      split
      · simpa using hn.concat hid
      · exact hn
    · rw [hf, stage?_setStage_of_ne t ho]
    · rw [hd, hq]
      split <;> simp [ho]
    · rw [hself, hd]
      cases t.waits <;> simp [hid]

theorem Queued.turns (h : c.Queued) (n : Nat) : (c.turns n).1.Queued := by
  induction n generalizing c with
  | zero => exact h
  | succ n ih => exact ih h.next

/-- The turns that are left: one for each fetch in the queue, and one more if its work is not over. -/
def turnsLeft (c : Cache) : Nat :=
  c.queue.length + c.queue.countP fun id => (c.outcome? id).isNone

theorem Queued.turnsLeft_next (h : c.Queued) (hc : c.queue ≠ []) :
    c.next.1.turnsLeft < c.turnsLeft := by
  obtain ⟨id, rest, hq⟩ := List.exists_cons_of_ne_nil hc
  obtain ⟨hid, -⟩ := List.nodup_cons.mp (hq ▸ h.nodup)
  obtain ⟨s, t, hs, hst, hf, hd⟩ := h.next_head hq
  have hrest : (rest.countP fun other => (c.next.1.outcome? other).isNone) =
      rest.countP fun other => (c.outcome? other).isNone := by
    apply List.countP_congr
    intro other ho
    have hne : other ≠ id := fun he => hid (he ▸ ho)
    rw [outcome?, hf, stage?_setStage_of_ne t hne]
    rfl
  have hbefore : c.outcome? id = s.outcome? := by simp [outcome?, hs]
  have hafter : c.next.1.outcome? id = t.outcome? := by simp [outcome?, hf, stage?_setStage_self t hs]
  -- a fetch that ends goes to the back of the queue, with one turn left in place of two
  unfold turnsLeft
  rw [hd, hq]
  cases hst with
  | ask | tell =>
    simp only [Stage.waits, Bool.false_eq_true, ↓reduceIte, hrest, List.length_cons, List.countP_cons]
    omega
  | conclude o hnone =>
    simp only [Stage.waits, ↓reduceIte, List.length_append, List.countP_append, List.length_cons,
      List.countP_cons, hrest, hbefore, hafter, hnone]
    simp [Stage.outcome?]

theorem Queued.turns_queue (h : c.Queued) {n : Nat} (hn : c.turnsLeft ≤ n) : (c.turns n).1.queue = [] := by
  induction n generalizing c with
  | zero =>
    have hlen : c.queue.length = 0 := by
      unfold turnsLeft at hn
      omega
    exact List.length_eq_zero_iff.mp hlen
  | succ n ih =>
    by_cases hq : c.queue = []
    · rw [turns_of_queue_nil hq]
      exact hq
    · have hlt := h.turnsLeft_next hq
      have hle : c.next.1.turnsLeft ≤ n := by omega
      exact ih h.next hle

theorem turnsLeft_le (c : Cache) : c.turnsLeft ≤ 2 * c.queue.length := by
  have hle : (c.queue.countP fun id => (c.outcome? id).isNone) ≤ c.queue.length := List.countP_le_length
  unfold turnsLeft
  omega

theorem Queued.settle_queue (h : c.Queued) : c.settle.1.queue = [] :=
  h.turns_queue c.turnsLeft_le

def Action.turns (c : Cache) : Action → Nat
  | .next => 1
  | .settle => 2 * c.queue.length
  | _ => 0

def taken? (c : Cache) (id : FetchId) : Action → Option Reply
  | .reply i r => if i = id ∧ (c.reply? i r).isSome then some r else none
  | .abort i => if i = id ∧ (c.abort? i).isSome then some .cancelled else none
  | _ => none

/-- A fetch takes a reply, and waits for a turn if it did not before. -/
def hear (c : Cache) (id : FetchId) (s : Stage) (r : Reply) : Cache :=
  { c.setStage id (.replied r) with queue := if s.waits then c.queue else c.queue ++ [id] }

inductive Works (c : Cache) (a : Action) : Cache × List Effect → Prop where
  | rest (entries : List (String × FetchId)) (callers : List Caller) (shared : Settings)
      (ht : ∀ id, c.taken? id a = none) (hn : a.turns c = 0) :
      Works c a ({ c with entries, callers, shared }, [])
  | create (uri : String) (source : Source) (ht : ∀ id, c.taken? id a = none) (hn : a.turns c = 0) :
      Works c a ((c.addFetch uri).addCaller uri source, [])
  | hear {id : FetchId} {s : Stage} {r : Reply} (hs : c.stage? id = some s) (hr : s.rank < 3)
      (ht : ∀ i, c.taken? i a = if id = i then some r else none) (hn : a.turns c = 0) :
      Works c a (c.hear id s r, [])
  | turns (ht : ∀ id, c.taken? id a = none) : Works c a (c.turns (a.turns c))

theorem idle_works {a : Action} (ht : ∀ id, c.taken? id a = none) (hn : a.turns c = 0) :
    c.Works a (c, []) :=
  .rest c.entries c.callers c.shared ht hn

theorem reply_works (c : Cache) (id : FetchId) (r : Reply) :
    c.Works (.reply id r) ((c.reply? id r).getD c, []) := by
  by_cases hs : c.stage? id = some .asked
  · have hd : c.reply? id r = some (c.hear id .asked r) := by
      simp [reply?, hs, Cache.hear, Stage.waits, setStage]
    rw [hd]
    exact .hear hs (by simp [Stage.rank]) (fun i => by simp [taken?, hd]) rfl
  · have hd : c.reply? id r = none := by
      unfold reply?
      split
      · rename_i ha
        exact absurd ha hs
      · rfl
    rw [hd]
    exact idle_works (fun i => by simp [taken?, hd]) rfl

theorem abort?_of_running {s : Stage} (hs : c.stage? id = some s) (hr : s.rank < 3) :
    c.abort? id = some (c.hear id s .cancelled) := by
  cases s with
  | created | replied => simp [abort?, hs, Cache.hear, Stage.waits, setStage]
  | asked => simp [abort?, reply?, hs, Cache.hear, Stage.waits, setStage]
  | ended | finished => simp [Stage.rank] at hr

theorem abort_works (c : Cache) (id : FetchId) :
    c.Works (.abort id) ((c.abort? id).getD c, []) := by
  by_cases hs : ∃ s, c.stage? id = some s ∧ s.rank < 3
  · obtain ⟨s, hs, hr⟩ := hs
    have hd := abort?_of_running hs hr
    rw [hd]
    exact .hear hs hr (fun i => by simp [taken?, hd]) rfl
  · have hd : c.abort? id = none := by
      unfold abort?
      split
      · rename_i ha
        exact absurd ⟨_, ha, by simp [Stage.rank]⟩ hs
      · rename_i ha
        exact absurd ⟨_, ha, by simp [Stage.rank]⟩ hs
      · rename_i ha
        exact absurd ⟨_, ha, by simp [Stage.rank]⟩ hs
      · rfl
    rw [hd]
    exact idle_works (fun i => by simp [taken?, hd]) rfl

theorem perform_works (c : Cache) (a : Action) : c.Works a (c.perform a) := by
  cases a with
  | idle => exact idle_works (fun _ => rfl) rfl
  | lookup isOpen uri =>
    simp only [perform, Cache.lookup]
    split
    · split
      · exact .rest c.entries _ c.shared (fun _ => rfl) rfl
      · exact .create uri _ (fun _ => rfl) rfl
    · exact .rest c.entries _ c.shared (fun _ => rfl) rfl
  | reply id r => exact c.reply_works id r
  | abort id => exact c.abort_works id
  | cancel uri serial =>
    simp only [perform, cancel?]
    split
    · split
      · exact .rest c.entries _ c.shared (fun _ => rfl) rfl
      · exact idle_works (fun _ => rfl) rfl
    · exact idle_works (fun _ => rfl) rfl
  | close uri => exact .rest _ c.callers c.shared (fun _ => rfl) rfl
  | configure payload =>
    simp only [perform, configure]
    split
    · exact .rest [] c.callers c.shared (fun _ => rfl) rfl
    · cases pushed payload with
      | error => exact idle_works (fun _ => rfl) rfl
      | ok s => exact .rest c.entries c.callers s (fun _ => rfl) rfl
  | next =>
    have hd : c.perform .next = c.turns 1 := by simp [perform, Cache.turns]
    rw [hd]
    exact .turns (fun _ => rfl)
  | settle => exact .turns (fun _ => rfl)

theorem Queued.hear {s : Stage} (h : c.Queued) (hs : c.stage? id = some s) (r : Reply) :
    (c.hear id s r).Queued := by
  have hin : id ∈ c.queue ↔ s.waits = true := by
    rw [h.mem_iff, hs]
    rfl
  refine h.update id ?_ (fun other ho => stage?_setStage_of_ne _ ho) (fun other ho => ?_) ?_
  · simp only [Cache.hear]
    split
    · exact h.nodup
    · rename_i hw
      simpa using h.nodup.concat fun hm => hw (hin.mp hm)
  · simp only [Cache.hear]
    split <;> simp [ho]
  · have hself : ((c.hear id s r).stage? id).any Stage.waits = true := by
      change ((c.setStage id (.replied r)).stage? id).any Stage.waits = true
      rw [stage?_setStage_self _ hs]
      rfl
    refine iff_of_true ?_ hself
    simp only [Cache.hear]
    split
    · rename_i hw
      exact hin.mpr hw
    · simp

theorem Queued.addFetch (h : c.Queued) (hn : c.Numbered) (uri : String) : (c.addFetch uri).Queued := by
  have habsent : c.stage? (c.newFetch uri) = none := (c.stage?_eq_none _).mpr (hn.newFetch_absent uri)
  refine h.update (c.newFetch uri) ?_ (fun other ho => ?_) (fun other ho => ?_) ?_
  · have hout : c.newFetch uri ∉ c.queue := by simp [h.mem_iff, habsent]
    simpa [Cache.addFetch] using h.nodup.concat hout
  · simp [stage?_addFetch, ho]
  · simp [Cache.addFetch, ho]
  · have hself : (c.addFetch uri).stage? (c.newFetch uri) = some .created := by
      simp [stage?_addFetch, habsent]
    rw [hself]
    simp [Cache.addFetch, Stage.waits]

theorem Queued.perform (h : c.Queued) (hn : c.Numbered) (a : Action) : (c.perform a).1.Queued := by
  have hw := c.perform_works a
  generalize c.perform a = r at hw ⊢
  cases hw with
  | rest => exact ⟨h.nodup, h.mem_iff⟩
  | create uri =>
    obtain ⟨hd, hm⟩ := h.addFetch hn uri
    exact ⟨hd, hm⟩
  | hear hs => exact h.hear hs _
  | turns => exact h.turns _

end Cache

namespace Host

theorem after_queued {h : Host} (hf : h.Fresh) (es : List Event) : (h.after es).cache.Queued := by
  refine (after_preserves (P := fun g => g.cache.Sound ∧ g.cache.Queued) ?_ ⟨hf.sound, ?_⟩ es).2
  · rintro g e ⟨hs, hq⟩
    refine ⟨hs.reacts (g.step_reacts e), ?_⟩
    rw [(g.step_performs e).1]
    exact hq.perform hs.numbered _
  · rw [hf]
    exact ⟨.nil, by simp [Cache.stage?]⟩

end Host

end DclServer
