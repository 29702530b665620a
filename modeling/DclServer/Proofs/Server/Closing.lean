import DclServer.Proofs.CloseHook
import DclServer.Proofs.Server.Frame

namespace DclServer

namespace CloseHook

variable {h : CloseHook CloseAction} {hooks : List (CloseHook CloseAction)}

def forgets (h : CloseHook CloseAction) : Bool := h.action != .other

/-- A hook that leaves the caches alone and is not cancelled, nor is any that it registers. -/
def foreign : CloseHook CloseAction → Bool
  | .mk _ action raises none => action == .other && raises != some .cancelled
  | .mk _ action raises (some child) => action == .other && raises != some .cancelled && child.foreign

theorem foreign_iff : h.foreign = true ↔
    h.action = .other ∧ h.raises ≠ some .cancelled ∧ ∀ x ∈ h.child, x.foreign = true := by
  obtain ⟨_, _, _, _ | _⟩ := h <;> simp [foreign, action, raises, child, and_assoc]

def Tame (h : CloseHook CloseAction) : Prop := h.foreign = true ∨ ∃ i, h = Server.cacheHook i

theorem Tame.raises (ht : h.Tame) : h.raises ≠ some .cancelled := by
  obtain hf | ⟨i, rfl⟩ := ht
  · exact (foreign_iff.mp hf).2.1
  · simp [Server.cacheHook, CloseHook.raises]

theorem Tame.child (ht : h.Tame) : ∀ x ∈ h.child, x.foreign = true := by
  obtain hf | ⟨i, rfl⟩ := ht
  · exact (foreign_iff.mp hf).2.2
  · simp [Server.cacheHook, CloseHook.child]

theorem added_foreign (hooks : List (CloseHook CloseAction)) (ht : ∀ x ∈ hooks, x.Tame) :
    ∀ x ∈ (broadcast hooks).added, x.foreign = true := by
  induction hooks using broadcast_induction with
  | nil => simp [broadcast]
  | cancelled h rest hr => exact absurd hr (ht h (by simp)).raises
  | passed h rest hr ih =>
    have hchild : ∀ x ∈ h.child.toList, x.foreign = true := by simpa using (ht h (by simp)).child
    rw [(broadcast_of_passed hr rest).2.1]
    intro x hx
    obtain hx | hx := List.mem_append.mp hx
    · exact hchild x hx
    · refine ih (fun y hy => ?_) x hx
      obtain hy | hy := List.mem_append.mp hy
      · exact ht y (by simp [hy])
      · exact .inl (hchild y hy)

theorem ran_of_tame (ht : ∀ x ∈ hooks, x.Tame) : (broadcast hooks).ran = hooks ++ (broadcast hooks).added := by
  obtain ⟨-, hran, -⟩ | ⟨-, ahead, last, behind, hsplit, -, hlast, -⟩ := broadcast_ran hooks
  · exact hran
  · have hmem : last ∈ hooks ++ (broadcast hooks).added := by
      rw [← hooksAfter, hsplit]
      simp
    have htame : last.Tame := (List.mem_append.mp hmem).elim (ht last) fun hx => .inl (added_foreign hooks ht last hx)
    exact absurd hlast htame.raises

end CloseHook

namespace Server

open CloseHook

variable {s t : Server} {e : Event} {es : List Event} {uri : String}

/-- Each cache has its hook, in the order of the caches, and the other hooks are foreign. There is no cache
before there is a workspace. -/
structure Hooked (s : Server) : Prop where
  own : s.hooks.filter forgets = (List.range s.caches.length).map cacheHook
  others : ∀ h ∈ s.hooks, h.forgets = false → h.foreign = true
  documents : s.documents = none → s.caches = []

theorem Hooked.tame (hs : s.Hooked) : ∀ h ∈ s.hooks, h.Tame := by
  intro h hh
  cases hf : h.forgets with
  | false => exact .inl (hs.others h hh hf)
  | true =>
    have hown : h ∈ s.hooks.filter forgets := List.mem_filter.mpr ⟨hh, hf⟩
    rw [hs.own] at hown
    obtain ⟨i, -, rfl⟩ := List.mem_map.mp hown
    exact .inr ⟨i, rfl⟩

theorem Hooked.frames (hs : s.Hooked) (h : Frames s t) : t.Hooked where
  own := by rw [h.hooks, h.caches, hs.own]
  others := by
    rw [h.hooks]
    exact hs.others
  documents hd := by
    have hnone : s.documents = none := by
      rw [← Option.isNone_iff_eq_none, ← h.documents, hd]
      rfl
    rw [← List.length_eq_zero_iff, h.caches, hs.documents hnone]
    rfl

theorem Hooked.append (hs : s.Hooked) {more : List (CloseHook CloseAction)} (hm : ∀ x ∈ more, x.foreign = true)
    (hh : t.hooks = s.hooks ++ more) (hc : t.caches.length = s.caches.length)
    (hd : t.documents = none → s.documents = none) : t.Hooked where
  own := by
    have hnone : more.filter forgets = [] := by
      refine List.filter_eq_nil_iff.mpr fun x hx => ?_
      simp [forgets, (foreign_iff.mp (hm x hx)).1]
    rw [hh, List.filter_append, hnone, List.append_nil, hc, hs.own]
  others := by
    rw [hh]
    intro h hmem hf
    exact (List.mem_append.mp hmem).elim (fun hold => hs.others h hold hf) (hm h)
  documents hnone := by
    rw [← List.length_eq_zero_iff, hc, hs.documents (hd hnone)]
    rfl

theorem Hooked.handshake (hs : s.Hooked) (id : Scalar) (capabilities : Value) :
    (s.handshake id capabilities).server.Hooked where
  own := by
    have hlen : (s.handshake id capabilities).server.caches.length = s.caches.length + 1 := by simp [Server.handshake]
    rw [hlen, List.range_succ, List.map_append, ← hs.own]
    exact List.filter_append ..
  others := by
    intro h hmem hf
    obtain hold | hnew := List.mem_append.mp hmem
    · exact hs.others h hold hf
    · cases List.mem_singleton.mp hnew
      cases hf
  documents := nofun

theorem Hooked.closed_caches (hs : s.Hooked) (uri : String) :
    (s.closed uri).server.caches = s.caches.map (·.close uri) := by
  cases hd : s.documents with
  | none => simp [closed, hd, hs.documents hd]
  | some ds =>
    simp only [closed, hd]
    apply List.ext_getElem?
    intro i
    rw [getElem?_forget, List.getElem?_map]
    cases hc : s.caches[i]? with
    | none => rfl
    | some c =>
      have hran : (broadcast s.hooks).ran.any (·.action == .forget i) = true := by
        have hown : cacheHook i ∈ s.hooks.filter forgets := by
          rw [hs.own]
          exact List.mem_map.mpr ⟨i, List.mem_range.mpr (List.getElem?_eq_some_iff.mp hc).1, rfl⟩
        refine List.any_eq_true.mpr ⟨cacheHook i, ?_, by simp [cacheHook, action]⟩
        rw [ran_of_tame hs.tame]
        exact List.mem_append_left _ (List.mem_filter.mp hown).1
      simp [hran]

theorem Hooked.closed (hs : s.Hooked) (uri : String) : (s.closed uri).server.Hooked := by
  have hlen : (s.closed uri).server.caches.length = s.caches.length := by
    rw [hs.closed_caches, List.length_map]
  cases hd : s.documents with
  | none =>
    have hsame : (s.closed uri).server = s := by simp [Server.closed, hd]
    rw [hsame]
    exact hs
  | some ds =>
    refine hs.append (added_foreign s.hooks hs.tame) ?_ hlen ?_
    · simp [Server.closed, hd]
    · simp [Server.closed, hd]

/-- Hooks that are registered from outside are foreign. -/
def Event.Harmless (e : Event) : Prop := ∀ h, e = .hook h → h.foreign = true

theorem Hooked.handle (hs : s.Hooked) (he : e.Harmless) : (s.handle e).server.Hooked := by
  cases ha : e.isAddition with
  | false => exact hs.frames (handle_frames s ha)
  | true =>
    cases e with
    | request id c =>
      cases c with
      | handshake capabilities => exact hs.handshake id capabilities
      | _ => cases ha
    | closed uri => exact hs.closed uri
    | hook h => exact hs.append (by simpa using he h rfl) rfl rfl id
    | _ => cases ha

theorem Hooked.handle_length (hs : s.Hooked) (e : Event) :
    (s.handle e).server.caches.length = s.caches.length + if e.capabilities?.isSome then 1 else 0 := by
  cases ha : e.isAddition with
  | false =>
    have hnone : e.capabilities? = none := by
      cases hc : e.capabilities? with
      | none => rfl
      | some v =>
        obtain ⟨id, rfl⟩ := Event.capabilities?_eq_some.mp hc
        cases ha
    simp [(handle_frames s ha).caches, hnone]
  | true =>
    cases e with
    | request id c =>
      cases c with
      | handshake => simp [Server.handle, call, Server.handshake, Event.capabilities?]
      | _ => cases ha
    | closed uri => simp [Server.handle, hs.closed_caches, Event.capabilities?]
    | hook => rfl
    | _ => cases ha

theorem Hooked.run (hs : s.Hooked) (hh : s.Heard es) (he : ∀ e ∈ es, e.Harmless) :
    (s.after es).Hooked ∧
      (s.after es).caches.length = s.caches.length + es.countP (·.capabilities?.isSome) := by
  induction es generalizing s with
  | nil => exact ⟨hs, rfl⟩
  | cons e es ih =>
    have hstep := hs.handle (he e (by simp))
    have hlen := hs.handle_length e
    rw [← hh.step_eq] at hstep hlen
    obtain ⟨hafter, hcount⟩ := ih hstep hh.2 fun f hf => he f (by simp [hf])
    refine ⟨hafter, ?_⟩
    rw [after_cons, hcount, hlen, List.countP_cons]
    omega

theorem Hooked.countP_hooks (hs : s.Hooked) : s.hooks.countP forgets = s.caches.length := by
  rw [List.countP_eq_length_filter, hs.own, List.length_map, List.length_range]

theorem start_hooked (catalogue : Catalogue) : (start catalogue).Hooked := ⟨rfl, nofun, fun _ => rfl⟩

structure Forgot (uri : String) (c d : Cache) : Prop where
  gone : ∀ id, (uri, id) ∉ d.entries
  kept : ∀ u id, u ≠ uri → ((u, id) ∈ d.entries ↔ (u, id) ∈ c.entries)
  rest : { d with entries := c.entries } = c

theorem close_forgot (c : Cache) (uri : String) : Forgot uri c (c.close uri) where
  gone id := by simp [Cache.close]
  kept u id hu := by simp [Cache.close, hu]
  rest := rfl

/-- The caches of all sessions hear when a document is closed, those of replaced sessions too, whatever
other hooks stand among theirs and fail. -/
theorem close_reaches_every_cache (catalogue : Catalogue) (he : ∀ e ∈ es, e.Harmless) :
    let s := start catalogue
    let sessions (es : List Event) := es.countP (·.capabilities?.isSome)
    (s.after es).hooks.countP forgets = sessions (handled es) ∧
      ∀ a uri b, handled es = a ++ .closed uri :: b →
        let before := (s.after a).caches
        let after := (s.after (a ++ [.closed uri])).caches
        before.length = sessions a ∧ after.length = sessions a ∧
          ∀ (i : Nat) (c : Cache), before[i]? = some c → ∃ d, after[i]? = some d ∧ Forgot uri c d := by
  intro s sessions
  have hall : s.Heard (handled es) := heard_handled rfl es
  have hharmless : ∀ e ∈ handled es, e.Harmless := fun e hm => he e (mem_of_mem_handled hm)
  constructor
  · obtain ⟨hs, hlen⟩ := (start_hooked catalogue).run hall hharmless
    rw [after_handled rfl es, hs.countP_hooks, hlen]
    exact Nat.zero_add _
  · intro a uri b hsplit before after
    rw [hsplit] at hall hharmless
    obtain ⟨ha, hb⟩ := heard_append.mp hall
    obtain ⟨hs, hlen⟩ := (start_hooked catalogue).run ha fun e hm => hharmless e (by simp [hm])
    have hbefore : before.length = sessions a := hlen.trans (Nat.zero_add _)
    have hafter : after = before.map (·.close uri) := by
      change (s.after (a ++ [.closed uri])).caches = _
      rw [after_concat, hb.step_eq]
      exact hs.closed_caches uri
    rw [hafter, List.length_map]
    refine ⟨hbefore, hbefore, fun i c hc => ⟨c.close uri, ?_, close_forgot c uri⟩⟩
    rw [List.getElem?_map, hc]
    rfl

/-- A document is looked up in two sessions, with a hook among theirs that registers another one and
fails. A close takes it from both caches, and leaves the other document. -/
theorem closed_in_both_sessions :
    let pull : Value := .ofFields [("workspace", .ofFields [("configuration", .bool true)])]
    let begins : Event := .request (.int 0) (.handshake pull)
    let failing : CloseHook CloseAction :=
      .mk "failing" .other (some (.fault ⟨.value, ""⟩)) (some (.mk "child" .other (some (.fault ⟨.os, ""⟩)) none))
    let lookups : List Event := [begins, .opened "a", .lookup "a", .hook failing, begins, .opened "a", .opened "b",
      .lookup "a", .lookup "b"]
    let es := lookups ++ [.closed "a"]
    let s := start ⟨[], []⟩
    (∀ e ∈ es, e.Harmless) ∧ handled es = es ∧ (s.after es).hooks.countP forgets = 2 ∧
      (s.after lookups).caches.map (·.entries.map Prod.fst) = [["a"], ["a", "b"]] ∧
      (s.after es).caches.map (·.entries.map Prod.fst) = [[], ["b"]] ∧
      ∀ (i : Nat) (c : Cache), (s.after lookups).caches[i]? = some c →
        ∃ d, (s.after es).caches[i]? = some d ∧ Forgot "a" c d := by
  intro pull begins failing lookups es s
  have he : ∀ e ∈ es, e.Harmless := by
    simp [es, lookups, begins, Event.Harmless, failing, foreign]
  have hreach := close_reaches_every_cache ⟨[], []⟩ he
  have hcount : (s.after es).hooks.countP forgets = 2 := hreach.1
  exact ⟨he, rfl, hcount, by decide +kernel, by decide +kernel, (hreach.2 lookups "a" [] rfl).2.2⟩

end Server

end DclServer
