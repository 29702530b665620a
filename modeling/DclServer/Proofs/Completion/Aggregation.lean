import Mathlib.Data.List.Forall2
import Mathlib.Data.List.Induction
import DclServer.Proofs.Completion.Skipping
import DclServer.Server.Basic

namespace DclServer

namespace Completer

variable {p : Position} {c d : Completer} {e : Raised}

/-- What a completer raises when it is consulted: on the question whether it accepts a position, or over its
items once it has accepted. -/
inductive Raises (c : Completer) (p : Position) : Raised → Prop where
  | asked {e : Raised} (ha : c.accepts p = .error e) : Raises c p e
  | accepted {e : Raised} (ha : c.accepts p = .ok true) (hc : c.complete p = .error e) : Raises c p e

def Quiet (c : Completer) (p : Position) : Prop :=
  ∀ e, ¬ c.Raises p e

def accepting (c : Completer) (p : Position) : Bool :=
  match c.accepts p with
  | .ok b => b
  | .error _ => false

def offered (c : Completer) (p : Position) : List Item :=
  match c.complete p with
  | .ok l => l.items
  | .error _ => []

/-- Two completers cannot be told apart at a position: of one that declines, the items are not asked for. -/
structure Alike (p : Position) (c d : Completer) : Prop where
  accepts : d.accepts p = c.accepts p
  complete : c.accepts p = .ok true → d.complete p = c.complete p

def consult (c : Completer) (p : Position) : Except Raised (List Item) := do
  if ← c.accepts p then (·.items) <$> c.complete p else pure []

theorem consult_declined (ha : c.accepts p = .ok false) : c.consult p = .ok [] := by
  rw [consult, ha]
  rfl

theorem consult_accepted (ha : c.accepts p = .ok true) : c.consult p = (·.items) <$> c.complete p := by
  rw [consult, ha]
  rfl

theorem consult_of_raises (h : c.Raises p e) : c.consult p = .error e := by
  cases h with
  | asked ha =>
    rw [consult, ha]
    rfl
  | accepted ha hc =>
    rw [consult_accepted ha, hc]
    rfl

theorem consult_of_quiet (h : c.Quiet p) : c.consult p = .ok (if c.accepting p then c.offered p else []) := by
  cases ha : c.accepts p with
  | error e => exact absurd (.asked ha) (h e)
  | ok b =>
    cases b with
    | false => simp [consult_declined ha, accepting, ha]
    | true =>
      cases hc : c.complete p with
      | error e => exact absurd (.accepted ha hc) (h e)
      | ok l =>
        rw [consult_accepted ha, hc]
        simp [accepting, offered, ha, hc]

theorem Alike.consult (h : Alike p c d) : d.consult p = c.consult p := by
  cases ha : c.accepts p with
  | error e => rw [consult_of_raises (.asked ha), consult_of_raises (.asked (h.accepts.trans ha))]
  | ok b =>
    have hd : d.accepts p = .ok b := h.accepts.trans ha
    cases b with
    | false => rw [consult_declined ha, consult_declined hd]
    | true => rw [consult_accepted ha, consult_accepted hd, h.complete ha]

end Completer

namespace Registry

open Completer

variable {p : Position} {c : Completer} {cs ds ahead behind : List Completer} {e : Raised}

theorem completeAll_cons (p : Position) (c : Completer) (cs : List Completer) :
    completeAll p (c :: cs) = do
      let items ← c.consult p
      return items ++ (← completeAll p cs) := by
  rw [completeAll, consult]
  cases c.accepts p with
  | error e => rfl
  | ok b => cases b <;> rfl

theorem completeAll_append (p : Position) (cs ds : List Completer) :
    completeAll p (cs ++ ds) = do
      let items ← completeAll p cs
      return items ++ (← completeAll p ds) := by
  induction cs with
  | nil => cases h : completeAll p ds <;> simp [completeAll, h, bind, Except.bind, pure, Except.pure]
  | cons c cs ih =>
    rw [List.cons_append, completeAll_cons, completeAll_cons, ih]
    simp only [bind_assoc, pure_bind, List.append_assoc]

theorem completeAll_of_quiet (h : ∀ c ∈ cs, c.Quiet p) :
    completeAll p cs = .ok ((cs.filter (·.accepting p)).flatMap (·.offered p)) := by
  induction cs with
  | nil => rfl
  | cons c cs ih =>
    rw [completeAll_cons, consult_of_quiet (h c (by simp)), ih fun d hd => h d (by simp [hd])]
    cases ha : c.accepting p <;> simp [ha, bind, Except.bind, pure, Except.pure]

theorem completeAll_of_raises (ha : ∀ d ∈ ahead, d.Quiet p) (hc : c.Raises p e) (behind : List Completer) :
    completeAll p (ahead ++ c :: behind) = .error e := by
  rw [completeAll_append, completeAll_of_quiet ha, completeAll_cons, consult_of_raises hc]
  rfl

theorem quiet_or_raises (p : Position) (cs : List Completer) : (∀ c ∈ cs, c.Quiet p) ∨
    ∃ ahead c behind e, cs = ahead ++ c :: behind ∧ (∀ d ∈ ahead, d.Quiet p) ∧ c.Raises p e := by
  induction cs with
  | nil => exact .inl (by simp)
  | cons c cs ih =>
    by_cases hc : c.Quiet p
    · obtain hquiet | ⟨ahead, d, behind, e, rfl, hahead, hd⟩ := ih
      · exact .inl (List.forall_mem_cons.mpr ⟨hc, hquiet⟩)
      · exact .inr ⟨c :: ahead, d, behind, e, rfl, List.forall_mem_cons.mpr ⟨hc, hahead⟩, hd⟩
    · simp only [Quiet, not_forall, not_not] at hc
      obtain ⟨e, hc⟩ := hc
      exact .inr ⟨[], c, cs, e, rfl, by simp, hc⟩

theorem completeAll_alike (h : List.Forall₂ (Alike p) cs ds) : completeAll p ds = completeAll p cs := by
  induction h with
  | nil => rfl
  | cons hc _ ih => rw [completeAll_cons, completeAll_cons, hc.consult, ih]

theorem complete_of_ok {r : Registry} {items : List Item} (h : completeAll p r.completers = .ok items) :
    r.complete p = .ok { items } := by
  rw [complete, h]
  rfl

theorem complete_of_error {r : Registry} (h : completeAll p r.completers = .error e) : r.complete p = .error e := by
  rw [complete, h]
  rfl

theorem completeAll_of_ok {r : Registry} {l : ItemList} (h : r.complete p = .ok l) :
    completeAll p r.completers = .ok l.items := by
  rw [complete] at h
  cases ha : completeAll p r.completers with
  | error e =>
    rw [ha] at h
    cases h
  | ok items =>
    rw [ha] at h
    cases h
    rfl

section Keys

variable {key : String} {es fs : List (String × Capability)}

theorem register_append (h : key ∉ es.map (·.1)) (c : Capability) (fs : List (String × Capability)) :
    register key c (es ++ fs) = es ++ register key c fs := by
  induction es with
  | nil => rfl
  | cons f es ih =>
    simp only [List.map_cons, List.mem_cons, not_or] at h
    rw [List.cons_append, register, if_neg (Ne.symm h.1), ih h.2, List.cons_append]

theorem mem_keys_register {k : String} {c : Capability} (h : k ∈ (register key c es).map (·.1)) :
    k = key ∨ k ∈ es.map (·.1) := by
  induction es with
  | nil => simpa [register] using h
  | cons f es ih =>
    rw [register] at h
    split_ifs at h with hf
    · simpa [hf] using h
    · obtain rfl | hk := List.mem_cons.mp h
      · exact .inr (by simp)
      · exact (ih hk).imp id (List.mem_cons_of_mem _)

theorem mem_keys_ofList {k : String} (h : k ∈ (ofList es).capabilities.map (·.1)) : k ∈ es.map (·.1) := by
  induction es using List.reverseRecOn with
  | nil => exact h
  | append_singleton es f ih =>
    rw [ofList, List.foldl_append] at h
    rw [List.map_append, List.mem_append]
    obtain rfl | hk := mem_keys_register h
    · exact .inr (by simp)
    · exact .inl (ih hk)

/-- Registering capabilities under new keys puts them behind those that are there. -/
theorem foldl_register (h : ∀ f ∈ fs, f.1 ∉ es.map (·.1)) (gs : List (String × Capability)) :
    fs.foldl (fun es f => register f.1 f.2 es) (es ++ gs) =
      es ++ fs.foldl (fun es f => register f.1 f.2 es) gs := by
  induction fs generalizing gs with
  | nil => rfl
  | cons f fs ih =>
    rw [List.foldl_cons, register_append (h f (by simp)), List.foldl_cons]
    exact ih (fun g hg => h g (by simp [hg])) _

theorem ofList_append (h : ∀ f ∈ fs, f.1 ∉ es.map (·.1)) :
    ofList (es ++ fs) = ⟨(ofList es).capabilities ++ (ofList fs).capabilities⟩ := by
  have hkeys : ∀ f ∈ fs, f.1 ∉ (ofList es).capabilities.map (·.1) := fun f hf hk => h f hf (mem_keys_ofList hk)
  have hfold := foldl_register hkeys []
  rw [List.append_nil] at hfold
  rw [ofList, List.foldl_append]
  exact congrArg Registry.mk hfold

end Keys

/-- What comes of a request for completion, told by the completers of a registry. -/
structure Aggregates (r : Registry) (p : Position) (cs : List Completer) : Prop where
  order : Completers r.capabilities cs
  listed : (∀ c ∈ cs, c.Quiet p) → r.complete p = .ok
    { isIncomplete := false, items := (cs.filter (·.accepting p)).flatMap (·.offered p) }
  raised : ∀ ahead c behind e, cs = ahead ++ c :: behind → (∀ d ∈ ahead, d.Quiet p) → c.Raises p e →
    r.complete p = .error e
  escaped : ∀ e, r.complete p = .error e →
    ∃ ahead c behind, cs = ahead ++ c :: behind ∧ (∀ d ∈ ahead, d.Quiet p) ∧ c.Raises p e
  /-- Of a completer that declines, the items are not asked for; capabilities of other kinds are not asked. -/
  declined : ∀ (other : Registry) ds, Completers other.capabilities ds → List.Forall₂ (Alike p) cs ds →
    other.complete p = r.complete p
  /-- Those behind the first that raises are not asked: there may be any others. -/
  unasked : ∀ ahead c behind e, cs = ahead ++ c :: behind → (∀ d ∈ ahead, d.Quiet p) → c.Raises p e →
    ∀ (other : Registry) ahead' others, Completers other.capabilities (ahead' ++ others) →
    List.Forall₂ (Alike p) (ahead ++ [c]) ahead' → other.complete p = .error e
  /-- The response is all that a server says. -/
  unlogged : ∀ (s : Server) id, s.registry = r → s.stopped = false →
    ∃ response, s.step (.request id (.completion p)) = ⟨s, [.response id response], .nothing⟩ ∧
      (∀ l, r.complete p = .ok l → response = .list l) ∧
        ∀ e, r.complete p = .error e → response = Server.failed e
  joined : ∀ es fs a b, r = ofList es → (∀ f ∈ fs, f.1 ∉ es.map (·.1)) → r.complete p = .ok a →
    (ofList fs).complete p = .ok b → (ofList (es ++ fs)).complete p = .ok { items := a.items ++ b.items }

theorem complete_aggregates (r : Registry) (p : Position) :
    r.Aggregates p r.completers where
  order := r.completers_spec
  listed h := complete_of_ok (completeAll_of_quiet h)
  raised ahead c behind e h ha hc := by
    apply complete_of_error
    rw [h]
    exact completeAll_of_raises ha hc behind
  escaped e h := by
    obtain hquiet | ⟨ahead, c, behind, e', hcs, ha, hc⟩ := quiet_or_raises p r.completers
    · cases h.symm.trans (complete_of_ok (completeAll_of_quiet hquiet))
    · have herror : r.complete p = .error e' := by
        apply complete_of_error
        rw [hcs]
        exact completeAll_of_raises ha hc behind
      cases h.symm.trans herror
      exact ⟨ahead, c, behind, hcs, ha, hc⟩
  declined other ds hds h := by rw [complete, complete, hds.eq_completers, completeAll_alike h]
  unasked ahead c behind e _ ha hc other ahead' others hother halike := by
    apply complete_of_error
    rw [hother.eq_completers, completeAll_append, completeAll_alike halike, completeAll_of_raises ha hc]
    rfl
  unlogged s id hr hs := by
    subst hr
    have hstep : s.step (.request id (.completion p)) = s.complete id p := by
      simp [Server.step, hs, Server.handle, Server.call]
    rw [hstep]
    refine ⟨_, rfl, fun l hl => ?_, fun e he => ?_⟩
    · rw [hl]
    · rw [he]
  joined es fs a b hr hkeys ha hb := by
    subst hr
    apply complete_of_ok
    rw [ofList_append hkeys, completers_append, completeAll_append]
    rw [show completeAll p (completers ⟨(ofList es).capabilities⟩) = .ok a.items from completeAll_of_ok ha,
      show completeAll p (completers ⟨(ofList fs).capabilities⟩) = .ok b.items from completeAll_of_ok hb]
    rfl

/-- The first completer declines, and its items would fail; the second and the third accept. -/
example :
    let giving (name : String) (accepts : Except Raised Bool) (items : Except Raised ItemList) : String × Capability :=
      (name, .completer ⟨name, "", fun _ => accepts, fun _ => items, unchanged⟩)
    let declining := giving "a" (.ok false) (.error (.fault ⟨.runtime, "broken"⟩))
    let two := giving "b" (.ok true) (.ok { isIncomplete := true, items := [{ label := "x" }, { label := "y" }] })
    let one := giving "c" (.ok true) (.ok { items := [{ label := "x" }] })
    let failing := giving "d" (.error .cancelled) (.ok { items := [] })
    complete ⟨[declining, two, ("o", .other "o" ""), one]⟩ ⟨"", 0, 0⟩ =
        .ok { items := [{ label := "x" }, { label := "y" }, { label := "x" }] } ∧
      complete ⟨[declining, two, failing, one]⟩ ⟨"", 0, 0⟩ = .error .cancelled := ⟨rfl, rfl⟩

end Registry

end DclServer
