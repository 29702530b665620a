import DclServer.Proofs.Cache.Action

namespace DclServer

namespace Caller

def name (k : Caller) : String × Nat := (k.uri, k.serial)

theorem hasName_iff (k : Caller) (uri : String) (serial : Nat) :
    k.hasName uri serial = true ↔ k.name = (uri, serial) := by
  simp [hasName, name]

theorem hasName_congr {k l : Caller} (h : k.name = l.name) (uri : String) (serial : Nat) :
    k.hasName uri serial = l.hasName uri serial :=
  congrArg (fun n : String × Nat => n.1 == uri && n.2 == serial) h

def restore (who : List (String × Nat)) (k : Caller) : Caller :=
  if k.name ∈ who then { k with cancelled := false } else k

theorem restore_name (who : List (String × Nat)) (k : Caller) : (k.restore who).name = k.name := by
  unfold restore
  split <;> rfl

theorem restore_eq_self {who : List (String × Nat)} {k : Caller}
    (h : k.name ∉ who ∨ k.cancelled = false) : k.restore who = k := by
  unfold restore
  split
  · rename_i hn
    obtain hw | hc := h
    · exact absurd hn hw
    · cases k
      simp_all
  · rfl

end Caller

namespace Cache

variable (who : List (String × Nat)) (c : Cache)

/-- The cache as if none of the callers named had ever been cancelled. -/
def restore : Cache := { c with callers := c.callers.map (Caller.restore who) }

theorem eq_of_restore_eq {who : List (String × Nat)} {c d : Cache} (h : c.restore who = d.restore who) :
    c.entries = d.entries ∧ c.fetches = d.fetches ∧ c.given? = d.given? ∧ c.standing = d.standing :=
  ⟨(congrArg entries h :), (congrArg fetches h :), (congrArg given? h :), (congrArg standing h :)⟩

theorem addCaller_restore (uri : String) (source : Source) :
    (c.restore who).addCaller uri source = (c.addCaller uri source).restore who := by
  have hf : ((fun k : Caller => k.uri == uri) ∘ Caller.restore who) = fun k => k.uri == uri := by
    funext k
    exact congrArg (fun n : String × Nat => n.1 == uri) (k.restore_name who)
  have hserial : (c.restore who).callerSerial uri = c.callerSerial uri := by
    simp [callerSerial, restore, List.filter_map, hf]
  simp only [addCaller, hserial]
  simp [restore, Caller.restore_eq_self]

theorem lookup_restore (isOpen : Bool) (uri : String) :
    (c.restore who).lookup isOpen uri = (c.lookup isOpen uri).restore who := by
  unfold lookup
  rw [show (c.restore who).pull = c.pull from rfl,
    show (c.restore who).entries = c.entries from rfl]
  split
  · split
    · exact addCaller_restore ..
    · exact addCaller_restore who (c.addFetch uri) uri _
  · exact addCaller_restore ..

theorem reply?_restore (id : FetchId) (r : Reply) :
    (c.restore who).reply? id r = (c.reply? id r).map (restore who) := by
  unfold reply?
  rw [show (c.restore who).stage? id = c.stage? id from rfl]
  split <;> rfl

theorem abort?_restore (id : FetchId) :
    (c.restore who).abort? id = (c.abort? id).map (restore who) := by
  unfold abort?
  rw [show (c.restore who).stage? id = c.stage? id from rfl]
  split
  · rfl
  · exact reply?_restore ..
  · rfl
  · rfl

theorem close_restore (uri : String) : (c.restore who).close uri = (c.close uri).restore who := rfl

theorem configure_restore (payload : Value) :
    (c.restore who).configure payload = (c.configure payload).map (restore who) := by
  unfold configure
  rw [show (c.restore who).pull = c.pull from rfl]
  split
  · rfl
  · cases pushed payload <;> rfl

theorem turn_restore (id : FetchId) :
    (c.restore who).turn id = ((c.turn id).1.restore who, (c.turn id).2) := by
  unfold turn
  rw [show (c.restore who).stage? id = c.stage? id from rfl,
    show (c.restore who).provider = c.provider from rfl]
  split
  · split <;> rfl
  · rfl
  · unfold finish
    split <;> rfl
  · rfl

theorem next_restore : (c.restore who).next = (c.next.1.restore who, c.next.2) := by
  unfold next
  rw [show (c.restore who).queue = c.queue from rfl]
  split
  · rfl
  · rename_i id rest _
    exact turn_restore who { c with queue := rest } id

theorem turns_restore (n : Nat) : (c.restore who).turns n = ((c.turns n).1.restore who, (c.turns n).2) := by
  induction n generalizing c with
  | zero => rfl
  | succ n ih =>
    rw [turns, next_restore]
    dsimp only
    rw [ih]
    rfl

theorem settle_restore : (c.restore who).settle = (c.settle.1.restore who, c.settle.2) :=
  turns_restore who c (2 * c.queue.length)

variable {who c} {uri : String} {serial : Nat}

theorem find?_restore :
    (c.restore who).callers.find? (·.hasName uri serial) =
      (c.callers.find? (·.hasName uri serial)).map (Caller.restore who) := by
  have hp : ((fun k : Caller => k.hasName uri serial) ∘ Caller.restore who) =
      fun k => k.hasName uri serial := by
    funext k
    exact Caller.hasName_congr (k.restore_name who) uri serial
  simp only [restore, List.find?_map, hp]

theorem cancel?_restore (hn : (uri, serial) ∉ who) :
    (c.restore who).cancel? uri serial = (c.cancel? uri serial).map (restore who) := by
  have hself : ∀ k : Caller, k.hasName uri serial = true → k.restore who = k := by
    intro k hk
    rw [Caller.hasName_iff] at hk
    exact Caller.restore_eq_self (.inl (hk ▸ hn))
  unfold cancel?
  rw [find?_restore]
  cases hf : c.callers.find? (·.hasName uri serial) with
  | none => rfl
  | some k =>
    have hk : k.hasName uri serial = true := by simpa using List.find?_some hf
    rw [Option.map_some, hself k hk]
    dsimp only
    rw [show (c.restore who).standing k = c.standing k from rfl]
    split
    · simp only [restore, List.map_map, Option.map_some]
      congr 2
      apply List.map_congr_left
      intro l _
      by_cases hl : l.hasName uri serial
      · have hmarked : Caller.restore who { l with cancelled := true } = { l with cancelled := true } :=
          hself _ hl
        simp [hl, hself l hl, hmarked]
      · simp [hl, Caller.hasName_congr (l.restore_name who)]
    · rfl

theorem cancel?_restore_of_mem (hn : (uri, serial) ∈ who) :
    ((c.cancel? uri serial).getD c).restore who = c.restore who := by
  unfold cancel?
  split
  · split
    · simp only [restore, List.map_map, Option.getD_some]
      congr 1
      apply List.map_congr_left
      intro k _
      by_cases hk : k.hasName uri serial
      · have hm := (Caller.hasName_iff k uri serial).mp hk
        simp [Caller.restore, hk, Caller.name] at hm ⊢
        simp [hm, hn]
      · simp [hk]
    · rfl
  · rfl

end Cache

end DclServer
