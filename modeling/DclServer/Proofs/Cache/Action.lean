import DclServer.Proofs.Cache.Turns

namespace DclServer.Cache

inductive Action where
  | idle
  | lookup (isOpen : Bool) (uri : String)
  | reply (id : FetchId) (r : Reply)
  | abort (id : FetchId)
  | cancel (uri : String) (serial : Nat)
  | close (uri : String)
  | configure (payload : Value)
  | next
  | settle

def perform (c : Cache) : Action → Cache × List Effect
  | .idle => (c, [])
  | .lookup isOpen uri => (c.lookup isOpen uri, [])
  | .reply id r => ((c.reply? id r).getD c, [])
  | .abort id => ((c.abort? id).getD c, [])
  | .cancel uri serial => ((c.cancel? uri serial).getD c, [])
  | .close uri => (c.close uri, [])
  | .configure payload => ((c.configure payload).toOption.getD c, [])
  | .next => c.next
  | .settle => c.settle

namespace Action

/-- The entry of a document is dropped, whatever its fetch. -/
def Forgets (pull : Bool) (uri : String) (a : Action) : Prop :=
  a = .close uri ∨ pull = true ∧ ∃ payload, a = .configure payload

def Hears (id : FetchId) (r : Reply) (a : Action) : Prop :=
  a = .reply id r ∨ a = .abort id ∧ r = .cancelled

end Action

/-- All that an action can do to a cache. -/
inductive Reacts (c : Cache) (a : Action) : Cache × List Effect → Prop where
  | advance {r : Cache × List Effect} (h : c.Advances r.1 r.2) : Reacts c a r
  | call (uri : String) (source : Source) : Reacts c a (c.addCaller uri source, [])
  | mark (p : Caller → Bool) : Reacts c a
      ({ c with callers := c.callers.map fun k => if p k then { k with cancelled := true } else k }, [])
  | create {uri : String} (source : Source) (ha : a = .lookup true uri) (hp : c.pull = true)
      (hl : c.entries.lookup uri = none) : Reacts c a ((c.addFetch uri).addCaller uri source, [])
  | hear {id : FetchId} {s : Stage} {r : Reply} (q : List FetchId) (hs : c.stage? id = some s)
      (hr : s.rank < 3) (ha : a.Hears id r) :
      Reacts c a ({ c.setStage id (.replied r) with queue := q }, [])
  | forget {p : String × FetchId → Bool} (hp : ∀ e, p e = false → a.Forgets c.pull e.1) :
      Reacts c a ({ c with entries := c.entries.filter p }, [])
  | push (hp : c.pull = false) (s : Settings) : Reacts c a ({ c with shared := s }, [])

theorem lookup_reacts (c : Cache) (isOpen : Bool) (uri : String) :
    c.Reacts (.lookup isOpen uri) (c.lookup isOpen uri, []) := by
  unfold lookup
  split
  · rename_i ho
    obtain ⟨hp, rfl⟩ := Bool.and_eq_true_iff.mp ho
    split
    · exact .call uri _
    · rename_i hl
      exact .create _ rfl hp hl
  · exact .call uri _

theorem idle_reacts (c : Cache) (a : Action) : c.Reacts a (c, []) := .advance (.refl c)

theorem reply_reacts (c : Cache) (id : FetchId) (r : Reply) :
    c.Reacts (.reply id r) ((c.reply? id r).getD c, []) := by
  unfold reply?
  split
  · rename_i hs
    exact .hear _ hs (by simp [Stage.rank]) (.inl rfl)
  · exact idle_reacts ..

theorem abort_reacts (c : Cache) (id : FetchId) :
    c.Reacts (.abort id) ((c.abort? id).getD c, []) := by
  unfold abort?
  split
  · rename_i hs
    exact .hear c.queue hs (by simp [Stage.rank]) (.inr ⟨rfl, rfl⟩)
  · rename_i hs
    rw [reply?, hs]
    exact .hear _ hs (by simp [Stage.rank]) (.inr ⟨rfl, rfl⟩)
  · rename_i hs
    exact .hear c.queue hs (by simp [Stage.rank]) (.inr ⟨rfl, rfl⟩)
  · exact idle_reacts ..

theorem cancel_reacts (c : Cache) (uri : String) (serial : Nat) :
    c.Reacts (.cancel uri serial) ((c.cancel? uri serial).getD c, []) := by
  unfold cancel?
  split
  · split
    · exact .mark (·.hasName uri serial)
    · exact idle_reacts ..
  · exact idle_reacts ..

theorem configure_reacts (c : Cache) (payload : Value) :
    c.Reacts (.configure payload) ((c.configure payload).toOption.getD c, []) := by
  unfold configure
  split
  · rename_i hp
    have hd : { c with entries := [] } = { c with entries := c.entries.filter fun _ => false } := by
      simp
    change c.Reacts _ ({ c with entries := [] }, [])
    rw [hd]
    exact .forget fun _ _ => .inr ⟨hp, payload, rfl⟩
  · rename_i hp
    cases pushed payload with
    | error => exact idle_reacts ..
    | ok s => exact .push (by simpa using hp) s

theorem perform_reacts (c : Cache) (a : Action) : c.Reacts a (c.perform a) := by
  cases a with
  | idle => exact idle_reacts ..
  | lookup isOpen uri => exact c.lookup_reacts isOpen uri
  | reply id r => exact c.reply_reacts id r
  | abort id => exact c.abort_reacts id
  | cancel uri serial => exact c.cancel_reacts uri serial
  | close uri =>
    refine .forget fun e he => .inl ?_
    have hu : e.1 = uri := by simpa using he
    rw [hu]
  | configure payload => exact c.configure_reacts payload
  | next => exact .advance c.next_advances
  | settle => exact .advance (c.turns_advances _)

end DclServer.Cache
