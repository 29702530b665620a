import DclServer.Proofs.Cache.Cancellation
import DclServer.Proofs.Cache.Outcome

namespace DclServer

inductive Settings.Holds : Value → Settings → Prop where
  | null : Holds .null default
  | unset {fields : List (Scalar × Value)} (hf : (Value.object fields).field? "maxNumberOfProblems" = none) :
      Holds (.object fields) default
  | set {fields : List (Scalar × Value)} {n : Nat}
      (hf : (Value.object fields).field? "maxNumberOfProblems" = some (.int n)) : Holds (.object fields) ⟨n⟩

inductive Settings.Pushes (payload : Value) : Settings → Prop where
  | missing (hp : payload.field? "languageServer" = none) : Pushes payload default
  | held {v : Value} {s : Settings} (hp : payload.field? "languageServer" = some v) (hv : Holds v s) :
      Pushes payload s

/-- The settings of the last configuration that can be used; the default if there is none. -/
def Settings.LastPushed (payloads : List Value) (s : Settings) : Prop :=
  (∃ before v later, payloads = before ++ v :: later ∧ Pushes v s ∧ ∀ w ∈ later, ∀ t, ¬ Pushes w t) ∨
    (∀ w ∈ payloads, ∀ t, ¬ Pushes w t) ∧ s = default

namespace Settings

variable {v : Value} {s t : Settings} {payloads : List Value}

theorem Holds.ofValue (h : Holds v s) : Settings.ofValue v = .ok s := by
  cases h with
  | null => rfl
  | unset hf => simp [Settings.ofValue, hf]
  | set hf => simp [Settings.ofValue, hf]

theorem holds_of_ofValue (h : ofValue v = .ok s) : Holds v s := by
  unfold ofValue at h
  split at h
  · cases h
    exact .null
  · split at h
    · rename_i hf
      cases h
      exact .unset hf
    · rename_i n hf
      split at h
      · rename_i hn
        cases h
        rw [← Int.toNat_of_nonneg hn] at hf
        exact .set hf
      · cases h
    · cases h
  · cases h

theorem pushed_eq_ok_iff : Cache.pushed v = .ok s ↔ Pushes v s := by
  unfold Cache.pushed
  cases hp : v.field? sectionName with
  | none =>
    constructor
    · intro h
      cases h
      exact .missing hp
    · intro h
      cases h with
      | missing => rfl
      | held hp' => cases hp.symm.trans hp'
  | some w =>
    constructor
    · exact fun h => .held hp (holds_of_ofValue h)
    · intro h
      cases h with
      | missing hp' => cases hp.symm.trans hp'
      | held hp' hw =>
        cases hp.symm.trans hp'
        exact hw.ofValue

theorem Pushes.unique (hs : Pushes v s) (ht : Pushes v t) : s = t :=
  Except.ok.inj ((pushed_eq_ok_iff.mpr hs).symm.trans (pushed_eq_ok_iff.mpr ht))

theorem pushed_eq_error_iff : (∃ e, Cache.pushed v = .error e) ↔ ∀ t, ¬ Pushes v t := by
  cases hv : Cache.pushed v with
  | ok s => simpa using ⟨s, pushed_eq_ok_iff.mp hv⟩
  | error e =>
    refine ⟨fun _ t ht => ?_, fun _ => ⟨e, rfl⟩⟩
    cases hv.symm.trans (pushed_eq_ok_iff.mpr ht)

theorem LastPushed.accept (hv : Pushes v s) (payloads : List Value) : LastPushed (payloads ++ [v]) s :=
  .inl ⟨payloads, v, [], rfl, hv, by simp⟩

theorem LastPushed.refuse (h : LastPushed payloads s) (hv : ∀ t, ¬ Pushes v t) : LastPushed (payloads ++ [v]) s := by
  obtain ⟨before, w, later, rfl, hw, hno⟩ | ⟨hno, hs⟩ := h
  · refine .inl ⟨before, w, later ++ [v], by simp, hw, fun x hx => ?_⟩
    obtain hx | hx := List.mem_append.mp hx
    · exact hno x hx
    · cases List.mem_singleton.mp hx
      exact hv
  · refine .inr ⟨fun x hx => ?_, hs⟩
    obtain hx | hx := List.mem_append.mp hx
    · exact hno x hx
    · cases List.mem_singleton.mp hx
      exact hv

end Settings

namespace Cache

variable {c : Cache}

theorem turns_shared (c : Cache) (n : Nat) : (c.turns n).1.shared = c.shared := by
  induction n generalizing c with
  | zero => rfl
  | succ n ih => exact (ih c.next.1).trans c.next_fixed.2

theorem settle_shared (c : Cache) : c.settle.1.shared = c.shared := c.turns_shared _

theorem lookup_shared (c : Cache) (isOpen : Bool) (uri : String) : (c.lookup isOpen uri).shared = c.shared := by
  unfold Cache.lookup
  split
  · split <;> rfl
  · rfl

theorem reply?_shared {d : Cache} {id : FetchId} {r : Reply} (h : c.reply? id r = some d) : d.shared = c.shared := by
  unfold reply? at h
  split at h
  · cases h
    rfl
  · cases h

theorem cancel?_shared {d : Cache} {uri : String} {serial : Nat} (h : c.cancel? uri serial = some d) :
    d.shared = c.shared := by
  unfold cancel? at h
  split at h
  · split at h
    · cases h
      rfl
    · cases h
  · cases h

theorem cancel?_known {i : Nat} {k : Caller} {s : Settings} (hn : c.Named) (hk : c.callers[i]? = some k)
    (hs : k.source = .known s) (uri : String) (serial : Nat) :
    ((c.cancel? uri serial).getD c).callers[i]? = some k := by
  by_cases hname : k.hasName uri serial = true
  · have hdone : c.standing k ≠ .pending := by simp [standing_eq_pending, hs, given?]
    have hnone := hn.cancel?_eq_none hk hdone
    cases (k.hasName_iff uri serial).mp hname
    rw [hnone]
    exact hk
  · unfold cancel?
    split
    · split
      · simp [hk, hname]
      · exact hk
    · exact hk

theorem lookup_callers (c : Cache) (isOpen : Bool) (uri : String) :
    ∃ k, (c.lookup isOpen uri).callers = c.callers ++ [k] := by
  unfold Cache.lookup
  split
  · split <;> exact ⟨_, rfl⟩
  · exact ⟨_, rfl⟩

/-- Whoever knows the settings cannot be cancelled any more. -/
theorem perform_known {i : Nat} {k : Caller} {s : Settings} (hn : c.Named) (hk : c.callers[i]? = some k)
    (hs : k.source = .known s) (a : Action) :
    (c.perform a).1.callers[i]? = some k := by
  by_cases hl : ∃ isOpen uri, a = .lookup isOpen uri
  · obtain ⟨isOpen, uri, rfl⟩ := hl
    obtain ⟨l, hl⟩ := c.lookup_callers isOpen uri
    change (c.lookup isOpen uri).callers[i]? = some k
    rw [hl, List.getElem?_append_left (List.getElem?_eq_some_iff.mp hk).1, hk]
  · by_cases hca : ∃ uri serial, a = .cancel uri serial
    · obtain ⟨uri, serial, rfl⟩ := hca
      exact cancel?_known hn hk hs uri serial
    · rw [perform_callers (fun isOpen uri he => hl ⟨isOpen, uri, he⟩) fun uri serial he => hca ⟨uri, serial, he⟩]
      exact hk

end Cache

theorem Host.after_known {h : Host} {i : Nat} {k : Caller} {s : Settings} (hn : h.cache.Named)
    (hk : h.cache.callers[i]? = some k) (hs : k.source = .known s) (es : List Event) :
    (h.after es).cache.callers[i]? = some k := by
  refine (after_preserves (P := fun g => g.cache.Named ∧ g.cache.callers[i]? = some k) ?_ ⟨hn, hk⟩ es).2
  rintro g e ⟨hn, hk⟩
  refine ⟨hn.reacts (g.step_reacts e), ?_⟩
  rw [(g.step_performs e).1]
  exact Cache.perform_known hn hk hs _

end DclServer
