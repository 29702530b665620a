import DclServer.Proofs.Server.Hosting

namespace DclServer

theorem broadcast_reaches {α : Type} (ahead behind : List (CloseHook α)) (own : CloseHook α)
    (h : ∀ x ∈ ahead, x.raises ≠ some .cancelled) : own ∈ (broadcast (ahead ++ own :: behind)).ran := by
  induction ahead generalizing behind with
  | nil =>
    rw [List.nil_append, broadcast]
    split <;> simp
  | cons x ahead ih =>
    have hx := h x (by simp)
    have hrest := ih (behind ++ x.child.toList) fun y hy => h y (by simp [hy])
    rw [← List.cons_append, ← List.append_assoc] at hrest
    rw [List.cons_append, broadcast]
    split
    · rename_i hc
      exact absurd hc hx
    · exact List.mem_cons_of_mem _ hrest
    · exact List.mem_cons_of_mem _ hrest

namespace Host

/-- The cache stands in a workspace that knows its open documents, and no hook ahead of its own can
keep a close from it. -/
structure Attached (h : Host) : Prop where
  tracks : h.tracksOpen = true
  hooked : ∃ ahead own behind, h.hooks = ahead ++ own :: behind ∧ own.action = true ∧
    ∀ x ∈ ahead, x.raises ≠ some .cancelled
  documents : h.documents.Nodup

theorem Attached.hears {h : Host} (ha : h.Attached) : h.hears = true := by
  obtain ⟨ahead, own, behind, hh, hown, hx⟩ := ha.hooked
  rw [Host.hears, hh, List.any_eq_true]
  exact ⟨own, broadcast_reaches ahead behind own hx, hown⟩

theorem step_frame (h : Host) (e : Event) :
    (h.step e).host.tracksOpen = h.tracksOpen ∧ (h.step e).host.naming = h.naming ∧
      ∃ more, (h.step e).host.hooks = h.hooks ++ more := by
  cases e with
  | didClose | broadcast => exact ⟨rfl, rfl, _, rfl⟩
  | hook x => exact ⟨rfl, rfl, [x], rfl⟩
  | reply | abort | cancel | configure =>
    simp only [step]
    split <;> exact ⟨rfl, rfl, [], (List.append_nil _).symm⟩
  | _ => exact ⟨rfl, rfl, [], (List.append_nil _).symm⟩

def documentsAfter (h : Host) : Event → List String
  | .opened uri => h.documents.erase (h.naming uri) ++ [h.naming uri]
  | .dropped uri | .didClose uri => h.documents.erase (h.naming uri)
  | _ => h.documents

theorem step_documents (h : Host) (e : Event) : (h.step e).host.documents = h.documentsAfter e := by
  cases e with
  | reply | abort | cancel | configure =>
    simp only [step]
    split <;> rfl
  | _ => rfl

theorem Attached.step {h : Host} (ha : h.Attached) (e : Event) : (h.step e).host.Attached := by
  obtain ⟨ht, -, more, hmore⟩ := h.step_frame e
  obtain ⟨ahead, own, behind, hh, hown⟩ := ha.hooked
  refine ⟨ht.trans ha.tracks, ⟨ahead, own, behind ++ more, ?_, hown⟩, ?_⟩
  · rw [hmore, hh, List.append_assoc, List.cons_append]
  · rw [step_documents]
    cases e with
    | opened uri =>
      refine List.nodup_append.mpr ⟨ha.documents.erase _, by simp, ?_⟩
      rintro u hu v hv rfl
      cases List.mem_singleton.mp hv
      exact ha.documents.not_mem_erase hu
    | dropped | didClose => exact ha.documents.erase _
    | _ => exact ha.documents

theorem after_naming (h : Host) (es : List Event) : (h.after es).naming = h.naming :=
  after_preserves (P := fun g => g.naming = h.naming) (fun g e hg => (g.step_frame e).2.1.trans hg) rfl es

theorem sessionHost_attached {s : Server} (hs : ∀ x ∈ s.hooks, x.raises ≠ some .cancelled)
    (capabilities : Value) : (s.sessionHost capabilities).Attached where
  tracks := rfl
  hooked := by
    refine ⟨s.hooks.map (CloseHook.map _), _, [], List.map_append .., ?_, ?_⟩
    · simp [Server.cacheHook, CloseHook.map, CloseHook.action]
    · intro x hx
      obtain ⟨y, hy, rfl⟩ := List.mem_map.mp hx
      rw [CloseHook.map_raises]
      exact hs y hy
  documents := .nil

theorem Attached.isOpen_iff {h : Host} (ha : h.Attached) (uri : String) :
    h.isOpen uri = true ↔ uri ∈ h.documents := by
  simp [isOpen, ha.tracks]

def KeysOpen (h : Host) : Prop := ∀ e ∈ h.cache.entries, h.isOpen e.1 = true

/-- A close that removes a document under another name than the one the cache is told, while the
cache has an entry for it. -/
def Strands (h : Host) : Event → Prop
  | .didClose uri => h.naming uri ≠ uri ∧ ∃ id, (h.naming uri, id) ∈ h.cache.entries
  | _ => False

theorem didClose_entries {h : Host} (ha : h.Attached) (uri : String) :
    (h.step (.didClose uri)).host.cache.entries = h.cache.entries.filter (·.1 != uri) := by
  rw [(h.step_performs _).1, action, ha.hears]
  rfl

theorem didClose_keysOpen_iff {h : Host} (ha : h.Attached) (hk : h.KeysOpen) (uri : String) :
    (h.step (.didClose uri)).host.KeysOpen ↔ ¬ h.Strands (.didClose uri) := by
  have hopen : ∀ u, (h.step (.didClose uri)).host.isOpen u = true ↔ u ≠ h.naming uri ∧ u ∈ h.documents := by
    intro u
    rw [(ha.step _).isOpen_iff, step_documents]
    exact ha.documents.mem_erase_iff
  constructor
  · rintro hkeys ⟨hne, id, hid⟩
    have hstay : (h.naming uri, id) ∈ (h.step (.didClose uri)).host.cache.entries := by
      rw [didClose_entries ha]
      simp [hid, hne]
    exact ((hopen _).mp (hkeys _ hstay)).1 rfl
  · intro hno e he
    rw [didClose_entries ha, List.mem_filter, bne_iff_ne] at he
    refine (hopen _).mpr ⟨fun hn => hno ⟨fun hs => he.2 (hn.trans hs), e.2, hn ▸ he.1⟩, ?_⟩
    exact (ha.isOpen_iff _).mp (hk e he.1)

theorem keysOpen_of_documents {h : Host} (ha : h.Attached) (hk : h.KeysOpen) {e : Event}
    (hd : ∀ u ∈ h.documents, u ∈ h.documentsAfter e) : (h.step e).host.KeysOpen := by
  have hopen : ∀ u, h.isOpen u = true → (h.step e).host.isOpen u = true := by
    intro u hu
    rw [(ha.step e).isOpen_iff, step_documents]
    exact hd u ((ha.isOpen_iff u).mp hu)
  intro x hx
  obtain hold | ⟨hlook, -⟩ := (h.step_reacts e).mem_entries hx
  · exact hopen _ (hk x hold)
  · exact hopen _ (lookup_of_action hlook).2

theorem step_keysOpen_iff {h : Host} (ha : h.Attached) (hk : h.KeysOpen) {e : Event}
    (hd : ∀ uri, e ≠ .dropped uri) : (h.step e).host.KeysOpen ↔ ¬ h.Strands e := by
  cases e with
  | didClose uri => exact didClose_keysOpen_iff ha hk uri
  | dropped uri => exact absurd rfl (hd uri)
  | opened uri =>
    refine iff_of_true (keysOpen_of_documents ha hk fun u hu => ?_) id
    by_cases hu' : u = h.naming uri
    · simp [documentsAfter, hu']
    · simp [documentsAfter, List.mem_erase_of_ne hu', hu]
  | _ => exact iff_of_true (keysOpen_of_documents ha hk fun _ hu => hu) id

theorem keysOpen_iff {h : Host} (ha : h.Attached) (hk : h.KeysOpen) {es : List Event}
    (hd : ∀ uri, .dropped uri ∉ es) :
    (∀ a b, es = a ++ b → (h.after a).KeysOpen) ↔
      ∀ a e b, es = a ++ e :: b → ¬ (h.after a).Strands e := by
  induction es generalizing h with
  | nil => simp [hk, after, run]
  | cons e es ih =>
    -- the first event decides about the moment after it, the induction about all later ones
    have hstep := step_keysOpen_iff ha hk (e := e) fun uri he => hd uri (by simp [he])
    have hrest := fun hs => ih (ha.step e) hs fun uri hu => hd uri (by simp [hu])
    constructor
    · intro hall a f b hab
      have hs : (h.step e).host.KeysOpen := hall [e] es rfl
      cases a with
      | nil =>
        cases hab
        exact hstep.mp hs
      | cons x a =>
        obtain ⟨rfl, htail⟩ := List.cons.inj hab
        refine (hrest hs).mp (fun c d hcd => ?_) a f b htail
        exact hall (e :: c) d (by rw [hcd]; rfl)
    · intro hno a b hab
      have hs := hstep.mpr (hno [] e es rfl)
      cases a with
      | nil => exact hk
      | cons x a =>
        obtain ⟨rfl, htail⟩ := List.cons.inj hab
        refine (hrest hs).mpr (fun c f d hcd => ?_) a b htail
        exact hno (e :: c) f d (by rw [hcd]; rfl)

theorem created_by_lookup {h : Host} {es : List Event} {id : FetchId} (hold : id ∉ h.cache.ids)
    (hnew : id ∈ (h.after es).cache.ids) :
    ∃ a b, es = a ++ .lookup id.uri :: b ∧ id ∉ (h.after a).cache.ids ∧
      id ∈ (h.after (a ++ [.lookup id.uri])).cache.ids := by
  induction es generalizing h with
  | nil => exact absurd hnew hold
  | cons e es ih =>
    by_cases hstep : id ∈ (h.step e).host.cache.ids
    · obtain hc | ⟨hlook, -⟩ := (h.step_reacts e).mem_ids hstep
      · exact absurd hc hold
      · obtain ⟨rfl, -⟩ := lookup_of_action hlook
        exact ⟨[], es, rfl, hold, hstep⟩
    · obtain ⟨a, b, hes, ha, hb⟩ := ih hstep hnew
      exact ⟨e :: a, b, by rw [hes]; rfl, ha, hb⟩

/-- What the cache of a host holds after a run. The keys are those of open documents exactly as long
as no close strands an entry; each entry is a fetch that a lookup of its document created and whose
failure has not been told; and without pull there is nothing. -/
structure Represents (h : Host) (es : List Event) : Prop where
  keysOpen_iff : (∀ a b, es = a ++ b → (h.after a).KeysOpen) ↔
    ∀ a e b, es = a ++ e :: b → ¬ (h.after a).Strands e
  keysOpen : (∀ uri, .didClose uri ∈ es → h.naming uri = uri) → ∀ a b, es = a ++ b → (h.after a).KeysOpen
  stored : ∀ x ∈ (h.after es).cache.entries, ¬ (h.after es).cache.Failed x.2 ∧
    ∃ a b, es = a ++ .lookup x.1 :: b ∧ x.2 ∉ (h.after a).cache.ids ∧
      x.2 ∈ (h.after (a ++ [.lookup x.1])).cache.ids
  keys : ((h.after es).cache.entries.map Prod.fst).Nodup
  fetches : ((h.after es).cache.entries.map Prod.snd).Nodup
  unpulled : h.cache.pull = false → (h.after es).cache.entries = [] ∧ (h.after es).cache.ids = []

theorem Fresh.represents {h : Host} (hf : h.Fresh) (ha : h.Attached) {es : List Event}
    (hd : ∀ uri, .dropped uri ∉ es) : h.Represents es := by
  have hs := after_sound hf.sound es
  have hempty : h.cache.entries = [] ∧ h.cache.ids = [] := by
    rw [hf]
    exact ⟨rfl, rfl⟩
  have hiff := keysOpen_iff ha (by simp [KeysOpen, hempty.1]) hd
  refine ⟨hiff, ?_, ?_, hs.keys, ?_, ?_⟩
  · intro hn
    refine hiff.mpr fun a e b hab hst => ?_
    cases e with
    | didClose uri =>
      apply hst.1
      rw [after_naming]
      exact hn uri (by simp [hab])
    | _ => exact hst
  · intro x hx
    obtain ⟨hu, hfail⟩ := hs.stores x hx
    refine ⟨hfail, ?_⟩
    rw [← hu]
    exact created_by_lookup (by simp [hempty.2]) (hs.created x hx)
  · have hmap : (h.after es).cache.entries.map Prod.fst =
        ((h.after es).cache.entries.map Prod.snd).map FetchId.uri := by
      rw [List.map_map]
      exact List.map_congr_left fun x hx => (hs.stores x hx).1.symm
    exact List.Nodup.of_map _ (hmap ▸ hs.keys)
  · intro hp
    exact hs.unpulled ((h.after_pull es).trans hp)

/-- A cache that starts fresh with its close hook in place represents its documents in each run in which
documents leave only by being closed. To a cache in a server the run of the server is such a run, until
a new session begins. -/
theorem cache_represents {h : Host} (hf : h.Fresh) (ha : h.Attached) {es : List Event}
    (hd : ∀ uri, .dropped uri ∉ es) :
    h.Represents es ∧
      ∀ (s : Server) (i : Nat) (events : List Server.Event), s.Hosts i h →
        (∀ id caps, .request id (.handshake caps) ∉ events) →
        ∃ fs, (s.run events).1.Hosts i (h.after fs) ∧ h.Represents fs := by
  refine ⟨hf.represents ha hd, fun s i events hs he => ?_⟩
  obtain ⟨fs, hfs, hosts⟩ := Server.run_cacheRun s he h hs
  exact ⟨fs, hosts, hf.represents ha hfs⟩

/-- A hook that fails ahead of the cache's own does not keep a close from the cache of a session. -/
theorem represents_behind_failing_hook :
    let failing : CloseHook CloseAction := .mk "failing" .other (some (.fault ⟨.value, ""⟩)) none
    let s : Server := { Server.start ⟨[], []⟩ with hooks := [failing] }
    let capabilities : Value :=
      .object [(.text "workspace", .object [(.text "configuration", .atom (.bool true))])]
    let h := s.sessionHost capabilities
    let es : List Event := [.opened "file:///a", .lookup "file:///a", .didClose "file:///a"]
    (h.Fresh ∧ h.Attached ∧ (∀ uri, .dropped uri ∉ es) ∧
      (h.after (es.take 2)).cache.entries = [("file:///a", ⟨"file:///a", 0⟩)] ∧ (h.after es).KeysOpen) ∧
      ∃ fs, ((s.handshake (.int 0) capabilities).server.run
        [.opened "file:///a", .lookup "file:///a", .closed "file:///a"]).1.Hosts 0 (h.after fs) ∧
        h.Represents fs := by
  intro failing s capabilities h es
  have ha : h.Attached := sessionHost_attached (by simp [s, failing, CloseHook.raises]) capabilities
  have hd : ∀ uri, .dropped uri ∉ es := by simp [es]
  have hcache := cache_represents (h := h) rfl ha hd
  refine ⟨⟨rfl, ha, hd, by decide +kernel, ?_⟩, ?_⟩
  · refine hcache.1.keysOpen ?_ es [] (List.append_nil _).symm
    intro uri hu
    obtain rfl : uri = "file:///a" := by simpa [es] using hu
    decide +kernel
  · exact hcache.2 _ 0 _ (s.handshake_hosts (.int 0) capabilities) (by simp)

/-- A close under an encoded uri leaves the entry that was made under the name of the document. -/
theorem encoded_close_strands :
    let h := pulling Uri.decode []
    let es : List Event := [.opened "file:///a%20b", .lookup "file:///a b", .didClose "file:///a%20b"]
    let capabilities : Value :=
      .object [(.text "workspace", .object [(.text "configuration", .atom (.bool true))])]
    let s := ((Server.start ⟨[], []⟩).run [.request (.int 0) (.handshake capabilities),
      .opened "file:///a%20b", .lookup "file:///a b", .closed "file:///a%20b"]).1
    (h.Fresh ∧ h.Attached ∧ (∀ uri, .dropped uri ∉ es) ∧ ¬ (h.after es).KeysOpen) ∧
      s.documents = some [] ∧ s.caches.map (·.entries.map Prod.fst) = [["file:///a b"]] := by
  intro h es capabilities s
  have hstays : ("file:///a b", ⟨"file:///a b", 0⟩) ∈ (h.after es).cache.entries := by decide +kernel
  have hclosed : (h.after es).isOpen "file:///a b" = false := by decide +kernel
  refine ⟨⟨rfl, ⟨rfl, ⟨[], cacheHook, [], rfl, rfl, by simp⟩, .nil⟩, by simp [es], fun hk => ?_⟩, ?_⟩
  · rw [hk _ hstays] at hclosed
    cases hclosed
  · decide +kernel

end Host

end DclServer
