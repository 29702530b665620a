import DclServer.CloseHook

namespace DclServer

variable {α : Type}

theorem broadcast_of_cancelled {h : CloseHook α} (hr : h.raises = some .cancelled) (rest : List (CloseHook α)) :
    broadcast (h :: rest) = { ran := [h], added := h.child.toList, cancelled := true } := by
  rw [broadcast, hr]

theorem broadcast_of_passed {h : CloseHook α} (hr : h.raises ≠ some .cancelled) (rest : List (CloseHook α)) :
    (broadcast (h :: rest)).ran = h :: (broadcast (rest ++ h.child.toList)).ran ∧
      (broadcast (h :: rest)).added = h.child.toList ++ (broadcast (rest ++ h.child.toList)).added ∧
      (broadcast (h :: rest)).cancelled = (broadcast (rest ++ h.child.toList)).cancelled := by
  rw [broadcast]
  split
  · rename_i hc
    exact absurd hc hr
  · exact ⟨rfl, rfl, rfl⟩
  · exact ⟨rfl, rfl, rfl⟩

/-- The report on a hook that fails: an error with the name of the hook and what it raised. -/
def CloseHook.report? (h : CloseHook α) : Option Log :=
  match h.raises with
  | some (.fault f) => some ⟨.error, "Error in on_close hook " ++ h.name ++ ": " ++ (f.kind.name ++ ": " ++ f.text)⟩
  | _ => none

theorem logs_of_passed {h : CloseHook α} (hr : h.raises ≠ some .cancelled) (rest : List (CloseHook α)) :
    (broadcast (h :: rest)).logs = h.report?.toList ++ (broadcast (rest ++ h.child.toList)).logs := by
  rw [broadcast]
  split
  · rename_i hc
    exact absurd hc hr
  · rename_i f hf
    rw [CloseHook.report?, hf]
    rfl
  · rename_i hn
    rw [CloseHook.report?, hn]
    rfl

theorem broadcast_induction {P : List (CloseHook α) → Prop} (nil : P [])
    (cancelled : ∀ h rest, h.raises = some .cancelled → P (h :: rest))
    (passed : ∀ h rest, h.raises ≠ some .cancelled → P (rest ++ h.child.toList) → P (h :: rest))
    (hooks : List (CloseHook α)) : P hooks := by
  induction hooks using broadcast.induct with
  | case1 => exact nil
  | case2 h rest hr => exact cancelled h rest hr
  | case3 h rest f hr ih => exact passed h rest (by simp [hr]) ih
  | case4 h rest hr ih => exact passed h rest (by simp [hr]) ih

def hooksAfter (hooks : List (CloseHook α)) : List (CloseHook α) := hooks ++ (broadcast hooks).added

theorem hooksAfter_of_passed {h : CloseHook α} (hr : h.raises ≠ some .cancelled) (rest : List (CloseHook α)) :
    hooksAfter (h :: rest) = h :: hooksAfter (rest ++ h.child.toList) := by
  simp [hooksAfter, (broadcast_of_passed hr rest).2.1]

/-- A broadcast runs the hooks that are registered in the end, up to the first that is cancelled. -/
theorem broadcast_ran (hooks : List (CloseHook α)) :
    (broadcast hooks).cancelled = false ∧ (broadcast hooks).ran = hooksAfter hooks ∧
        (∀ x ∈ hooksAfter hooks, x.raises ≠ some .cancelled) ∨
      (broadcast hooks).cancelled = true ∧ ∃ ahead last behind, hooksAfter hooks = ahead ++ last :: behind ∧
        (broadcast hooks).ran = ahead ++ [last] ∧ last.raises = some .cancelled ∧
        ∀ x ∈ ahead, x.raises ≠ some .cancelled := by
  induction hooks using broadcast_induction with
  | nil => simp [broadcast, hooksAfter]
  | cancelled h rest hr =>
    refine .inr ⟨by rw [broadcast_of_cancelled hr], [], h, rest ++ h.child.toList, ?_, ?_, hr, by simp⟩
    · simp [hooksAfter, broadcast_of_cancelled hr]
    · rw [broadcast_of_cancelled hr]
      rfl
  | passed h rest hr ih =>
    obtain ⟨hran, -, hcancelled⟩ := broadcast_of_passed hr rest
    rw [hran, hcancelled, hooksAfter_of_passed hr]
    obtain ⟨hc, heq, hp⟩ | ⟨hc, ahead, last, behind, hsplit, heq, hl, hp⟩ := ih
    · refine .inl ⟨hc, by rw [heq], ?_⟩
      simpa using ⟨hr, hp⟩
    · refine .inr ⟨hc, h :: ahead, last, behind, by rw [hsplit]; rfl, by rw [heq]; rfl, hl, ?_⟩
      simpa using ⟨hr, hp⟩

theorem child_mem_hooksAfter (hooks : List (CloseHook α)) :
    ∀ x ∈ (broadcast hooks).ran, ∀ y ∈ x.child, y ∈ hooksAfter hooks := by
  induction hooks using broadcast_induction with
  | nil => simp [broadcast]
  | cancelled h rest hr =>
    simp only [broadcast_of_cancelled hr, hooksAfter, List.mem_singleton]
    rintro x rfl y hy
    simp [Option.mem_def.mp hy]
  | passed h rest hr ih =>
    intro x hx y hy
    rw [hooksAfter_of_passed hr]
    rw [(broadcast_of_passed hr rest).1] at hx
    refine List.mem_cons_of_mem _ ?_
    obtain rfl | hx := List.mem_cons.mp hx
    · have hy' : y ∈ x.child.toList := by simpa using hy
      simp [hooksAfter, hy']
    · exact ih x hx y hy

theorem broadcast_ran_subset {S : List (CloseHook α)} (hS : ∀ x ∈ S, ∀ y ∈ x.child, y ∈ S)
    (hooks : List (CloseHook α)) (hh : hooks ⊆ S) : (broadcast hooks).ran ⊆ S := by
  induction hooks using broadcast_induction with
  | nil => simp [broadcast]
  | cancelled h rest hr =>
    rw [broadcast_of_cancelled hr]
    simpa using hh (by simp)
  | passed h rest hr ih =>
    rw [(broadcast_of_passed hr rest).1]
    have hhead : h ∈ S := hh (by simp)
    refine List.cons_subset.mpr ⟨hhead, ih ?_⟩
    refine List.append_subset.mpr ⟨fun x hx => hh (by simp [hx]), fun y hy => hS h hhead y (by simpa using hy)⟩

theorem broadcast_ahead {last : CloseHook α} (hl : last.raises = some .cancelled) {ahead : List (CloseHook α)}
    (hp : ∀ x ∈ ahead, x.raises ≠ some .cancelled) (behind : List (CloseHook α)) :
    (broadcast (ahead ++ last :: behind)).ran = ahead ++ [last] := by
  induction ahead generalizing behind with
  | nil =>
    rw [List.nil_append, broadcast_of_cancelled hl]
    rfl
  | cons h ahead ih =>
    have hrest := ih (fun x hx => hp x (by simp [hx])) (behind ++ h.child.toList)
    rw [List.cons_append, (broadcast_of_passed (hp h (by simp)) _).1, List.append_assoc, List.cons_append, hrest]
    rfl

/-- The next broadcast runs the same hooks, whatever this one has registered. -/
theorem mem_broadcast_hooksAfter (hooks : List (CloseHook α)) (x : CloseHook α) :
    x ∈ (broadcast (hooksAfter hooks)).ran ↔ x ∈ (broadcast hooks).ran := by
  obtain ⟨-, heq, hp⟩ | ⟨-, ahead, last, behind, hsplit, heq, hl, hp⟩ := broadcast_ran hooks
  · -- all that are registered ran, so that their children are registered too
    have hclosed : ∀ x ∈ hooksAfter hooks, ∀ y ∈ x.child, y ∈ hooksAfter hooks :=
      fun x hx => child_mem_hooksAfter hooks x (heq ▸ hx)
    have hsub := broadcast_ran_subset hclosed (hooksAfter hooks) (List.Subset.refl _)
    rw [heq]
    refine ⟨fun hx => hsub hx, fun hx => ?_⟩
    obtain ⟨-, hagain, -⟩ | ⟨-, ahead, last, behind, -, hran, hl, -⟩ := broadcast_ran (hooksAfter hooks)
    · rw [hagain]
      exact List.mem_append_left _ hx
    · have hlast : last ∈ hooksAfter hooks := hsub (by simp [hran])
      exact absurd hl (hp last hlast)
  · rw [hsplit, broadcast_ahead hl hp, heq]

theorem filterMap_cons_toList {β : Type} (f : CloseHook α → Option β) (h : CloseHook α) (hooks : List (CloseHook α)) :
    (h :: hooks).filterMap f = (f h).toList ++ hooks.filterMap f := by
  cases hf : f h with
  | none => rw [List.filterMap_cons_none hf, Option.toList_none, List.nil_append]
  | some b => rw [List.filterMap_cons_some hf, Option.toList_some, List.singleton_append]

theorem broadcast_added (hooks : List (CloseHook α)) :
    (broadcast hooks).added = (broadcast hooks).ran.filterMap (·.child) := by
  induction hooks using broadcast_induction with
  | nil => simp [broadcast]
  | cancelled h rest hr =>
    rw [broadcast_of_cancelled hr, filterMap_cons_toList, List.filterMap_nil, List.append_nil]
  | passed h rest hr ih =>
    obtain ⟨hran, hadded, -⟩ := broadcast_of_passed hr rest
    rw [hran, hadded, ih, filterMap_cons_toList]

theorem broadcast_reports (hooks : List (CloseHook α)) :
    (broadcast hooks).logs = (broadcast hooks).ran.filterMap (·.report?) := by
  induction hooks using broadcast_induction with
  | nil => simp [broadcast]
  | cancelled h rest hr =>
    have hnone : h.report? = none := by rw [CloseHook.report?, hr]
    simp [broadcast_of_cancelled hr, hnone]
  | passed h rest hr ih =>
    rw [logs_of_passed hr, (broadcast_of_passed hr rest).1, ih, filterMap_cons_toList]

theorem broadcast_failure (hooks : List (CloseHook α)) (l : Log) (hl : l ∈ (broadcast hooks).logs) :
    ∃ (h : CloseHook α) (f : Fault), l = h.failure f := by
  rw [broadcast_reports] at hl
  obtain ⟨h, -, hreport⟩ := List.mem_filterMap.mp hl
  unfold CloseHook.report? at hreport
  split at hreport
  · rename_i f _
    exact ⟨h, f, (Option.some.inj hreport).symm⟩
  · cases hreport

theorem broadcast_turn (hooks : List (CloseHook α)) (n : Nat) (x : CloseHook α)
    (hx : (broadcast hooks).ran[n]? = some x) :
    (hooks ++ ((broadcast hooks).ran.take n).filterMap (·.child))[n]? = some x := by
  induction hooks using broadcast_induction generalizing n with
  | nil => simp [broadcast] at hx
  | cancelled h rest hr =>
    rw [broadcast_of_cancelled hr] at hx ⊢
    cases n with
    | zero => simpa using hx
    | succ n => simp at hx
  | passed h rest hr ih =>
    rw [(broadcast_of_passed hr rest).1] at hx ⊢
    cases n with
    | zero => simpa using hx
    | succ n =>
      have hnext := ih n (by simpa using hx)
      rw [List.take_succ_cons, filterMap_cons_toList, List.cons_append, List.getElem?_cons_succ,
        ← List.append_assoc]
      exact hnext

theorem broadcast_length (hooks : List (CloseHook α)) :
    (broadcast hooks).ran.length ≤ CloseHook.totalSize hooks ∧
      ((broadcast hooks).cancelled = false → (broadcast hooks).ran.length = CloseHook.totalSize hooks) := by
  induction hooks using broadcast_induction with
  | nil => simp [broadcast, CloseHook.totalSize]
  | cancelled h rest hr =>
    have hsize := h.size_eq_child
    rw [broadcast_of_cancelled hr, CloseHook.totalSize_cons]
    refine ⟨?_, by simp⟩
    simp only [List.length_singleton]
    omega
  | passed h rest hr ih =>
    obtain ⟨hran, -, hcancelled⟩ := broadcast_of_passed hr rest
    have hsize := h.size_eq_child
    rw [CloseHook.totalSize_append] at ih
    rw [hran, hcancelled, CloseHook.totalSize_cons, List.length_cons]
    refine ⟨by omega, fun hc => ?_⟩
    have hall := ih.2 hc
    omega

/-- The course of a broadcast over a list of hooks that grows meanwhile. -/
structure Broadcast.Runs (b : Broadcast α) (hooks : List (CloseHook α)) : Prop where
  turns : ∀ n h, b.ran[n]? = some h → (hooks ++ (b.ran.take n).filterMap (·.child))[n]? = some h
  registered : b.added = b.ran.filterMap (·.child)
  grown : (hooks ++ b.added).length = hooks.length + b.ran.countP (·.child.isSome)
  reported : b.logs = b.ran.filterMap (·.report?)
  bounded : b.ran.length ≤ CloseHook.totalSize hooks
  completed : (∀ h ∈ b.ran, h.raises ≠ some .cancelled) →
    b.cancelled = false ∧ b.ran = hooks ++ b.added ∧ b.ran.length = CloseHook.totalSize hooks
  broken : (∃ h ∈ b.ran, h.raises = some .cancelled) →
    b.cancelled = true ∧ ∃ ahead last behind, hooks ++ b.added = ahead ++ last :: behind ∧
      b.ran = ahead ++ [last] ∧ last.raises = some .cancelled ∧ ∀ h ∈ ahead, h.raises ≠ some .cancelled

theorem broadcast_runs_registered (hooks : List (CloseHook α)) : (broadcast hooks).Runs hooks where
  turns := broadcast_turn hooks
  registered := broadcast_added hooks
  grown := by
    rw [List.length_append, broadcast_added, List.length_filterMap_eq_countP]
  reported := broadcast_reports hooks
  bounded := (broadcast_length hooks).1
  completed hp := by
    obtain ⟨hc, hran, -⟩ | ⟨-, ahead, last, behind, -, hran, hl, -⟩ := broadcast_ran hooks
    · exact ⟨hc, hran, (broadcast_length hooks).2 hc⟩
    · exact absurd hl (hp last (by simp [hran]))
  broken := by
    rintro ⟨x, hx, hr⟩
    obtain ⟨-, hran, hp⟩ | hbroken := broadcast_ran hooks
    · exact absurd hr (hp x (hran ▸ hx))
    · exact hbroken

end DclServer
