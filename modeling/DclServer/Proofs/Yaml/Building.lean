import Mathlib.Data.List.TakeWhile
import DclServer.Yaml.Reader

namespace DclServer.Yaml

variable {ts : List Token} {b b' : Builder} {n : Node}

/-- Tokens that put a node where the builder waits for one. -/
def Builds (ts : List Token) (n : Node) : Prop :=
  ∀ (b : Builder) (us : List Token), b.run (ts ++ us) = (b.put n).bind fun b => b.run us

theorem not_marker_of_run (h : b.run ts = some b') : ∀ t ∈ ts, t ≠ .documentStart ∧ t ≠ .documentEnd := by
  induction ts generalizing b with
  | nil => exact fun t ht => absurd ht List.not_mem_nil
  | cons t ts ih =>
    rw [Builder.run, Option.bind_eq_some_iff] at h
    obtain ⟨c, hc, h⟩ := h
    intro u hu
    obtain rfl | hu := List.mem_cons.mp hu
    · refine ⟨?_, ?_⟩ <;> rintro rfl <;> cases hc
    · exact ih h u hu

theorem Builds.ofTokens? (h : Builds ts n) : Node.ofTokens? ts = some n := by
  have hrun : Builder.run {} ts = some { root := some n } := by
    have hnil := h {} []
    rwa [List.append_nil] at hnil
  have hmarker := not_marker_of_run hrun
  have hstart : (ts.head? == some .documentStart) = false := by
    rw [beq_eq_false_iff_ne]
    exact fun he => (hmarker _ (List.mem_of_mem_head? he)).1 rfl
  have hend : ∀ t ∈ ts, (t != .documentEnd) = true := fun t ht => bne_iff_ne.mpr (hmarker t ht).2
  have htake : ts.takeWhile (· != .documentEnd) = ts := List.takeWhile_eq_self_iff.mpr hend
  have hdrop : ts.dropWhile (· != .documentEnd) = [] := List.dropWhile_eq_nil_iff.mpr hend
  simp [Node.ofTokens?, hstart, htake, hdrop, hrun, Builder.result]

/-- A piece of a document: its tokens, the node they build and the value that the node stands for. -/
structure Block where
  tokens : List Token
  node : Node
  value : Value
  builds : Builds tokens node
  reads : node.value = .ok value

namespace Block

variable {fs : List (String × Block)}

def scalar (a : Atom) (v : Scalar) (h : a.value = .ok v) : Block where
  tokens := [.scalar a]
  node := .scalar a
  value := .atom v
  builds _ _ := rfl
  reads := by rw [Node.value, h]; rfl

def emptyList : Block where
  tokens := [.openList, .closeList]
  node := .sequence []
  value := .list []
  builds _ _ := rfl
  reads := rfl

def itemTokens (bs : List Block) : List Token :=
  bs.flatMap fun x => .entry :: x.tokens

theorem run_itemTokens (root : Option Node) (frames : List Frame) (done : List Node) (bs : List Block) (us : List Token) :
    Builder.run ⟨root, .sequence done false :: frames⟩ (itemTokens bs ++ us) =
      Builder.run ⟨root, .sequence (done ++ bs.map (·.node)) false :: frames⟩ us := by
  induction bs generalizing done with
  | nil =>
    rw [List.map_nil, List.append_nil]
    rfl
  | cons x bs ih =>
    have hrest := ih (done ++ [x.node])
    rw [List.append_assoc, List.singleton_append, ← List.map_cons] at hrest
    have hcons : itemTokens (x :: bs) ++ us = .entry :: (x.tokens ++ (itemTokens bs ++ us)) := by
      simp [itemTokens]
    rw [hcons, Builder.run, ← hrest]
    exact x.builds ⟨root, .sequence done true :: frames⟩ _

theorem itemValues_map (bs : List Block) : itemValues (bs.map (·.node)) = .ok (bs.map (·.value)) := by
  induction bs with
  | nil => rfl
  | cons x bs ih =>
    rw [List.map_cons, itemValues, x.reads, ih]
    rfl

def sequence (bs : List Block) : Block where
  tokens := .openSequence :: (itemTokens bs ++ [.close])
  node := .sequence (bs.map (·.node))
  value := .list (bs.map (·.value))
  builds b us := by
    rw [List.cons_append, List.append_assoc]
    exact run_itemTokens b.root b.frames [] bs (.close :: us)
  reads := by rw [Node.value, itemValues_map]; rfl

def fieldTokens (fs : List (String × Block)) : List Token :=
  fs.flatMap fun f => .key (.plain f.1) :: f.2.tokens

theorem run_fieldTokens (root : Option Node) (frames : List Frame) (done : List (Atom × Node)) (fs : List (String × Block))
    (us : List Token) :
    Builder.run ⟨root, .mapping done .key :: frames⟩ (fieldTokens fs ++ us) =
      Builder.run ⟨root, .mapping (done ++ fs.map fun f => (.plain f.1, f.2.node)) .key :: frames⟩ us := by
  induction fs generalizing done with
  | nil =>
    rw [List.map_nil, List.append_nil]
    rfl
  | cons f fs ih =>
    have hrest := ih (done ++ [(.plain f.1, f.2.node)])
    rw [List.append_assoc, List.singleton_append] at hrest
    have hcons : fieldTokens (f :: fs) ++ us = .key (.plain f.1) :: (f.2.tokens ++ (fieldTokens fs ++ us)) := by
      simp [fieldTokens]
    rw [hcons, Builder.run, List.map_cons, ← hrest]
    exact f.2.builds ⟨root, .mapping done (.value (.plain f.1)) :: frames⟩ _

theorem setField_fresh {k : Scalar} {done : List (Scalar × Value)} (h : ∀ f ∈ done, f.1.sameKey k = false) (v : Value) :
    setField k v done = done ++ [(k, v)] := by
  induction done with
  | nil => rfl
  | cons f done ih =>
    rw [setField, h f List.mem_cons_self, ih fun g hg => h g (List.mem_cons_of_mem f hg)]
    rfl

/-- Fields under different names, each a name that stands for itself. -/
structure Named (fs : List (String × Block)) : Prop where
  names : ∀ f ∈ fs, (Atom.plain f.1).keyValue = .ok (.text f.1)
  distinct : (fs.map Prod.fst).Nodup

theorem sameKey_text {k k' : String} (h : k ≠ k') : (Scalar.text k).sameKey (.text k') = false := by
  have hne : (Scalar.text k == .text k') = false := beq_eq_false_iff_ne.mpr fun he => h (Scalar.text.inj he)
  simp [Scalar.sameKey, Scalar.integer?, hne]

theorem fieldValues_map (h : Named fs) (done : List (Scalar × Value))
    (hd : ∀ g ∈ done, ∀ f ∈ fs, g.1.sameKey (.text f.1) = false) :
    fieldValues done (fs.map fun f => (.plain f.1, f.2.node)) = .ok (done ++ fs.map fun f => (.text f.1, f.2.value)) := by
  induction fs generalizing done with
  | nil =>
    rw [List.map_nil, List.map_nil, List.append_nil]
    rfl
  | cons f fs ih =>
    obtain ⟨hf, hdistinct⟩ := List.nodup_cons.mp h.distinct
    have hset := setField_fresh (fun g hg => hd g hg f List.mem_cons_self) f.2.value
    have hfresh : ∀ g ∈ done ++ [(.text f.1, f.2.value)], ∀ f' ∈ fs, g.1.sameKey (.text f'.1) = false := by
      intro g hg f' hf'
      obtain hg | hg := List.mem_append.mp hg
      · exact hd g hg f' (List.mem_cons_of_mem f hf')
      · rw [List.mem_singleton.mp hg]
        exact sameKey_text fun he => hf (List.mem_map.mpr ⟨f', hf', he.symm⟩)
    have hrest := ih ⟨fun g hg => h.names g (List.mem_cons_of_mem f hg), hdistinct⟩ _ hfresh
    rw [List.append_assoc, List.singleton_append] at hrest
    rw [List.map_cons, List.map_cons, ← hrest, ← hset, fieldValues, h.names f List.mem_cons_self, f.2.reads]
    rfl

def mapping (fs : List (String × Block)) (h : Named fs) : Block where
  tokens := .openMapping :: (fieldTokens fs ++ [.close])
  node := .mapping (fs.map fun f => (.plain f.1, f.2.node))
  value := .ofFields (fs.map fun f => (f.1, f.2.value))
  builds b us := by
    rw [List.cons_append, List.append_assoc]
    exact run_fieldTokens b.root b.frames [] fs (.close :: us)
  reads := by
    rw [Node.value, fieldValues_map h [] (fun g hg => absurd hg List.not_mem_nil), Value.ofFields, List.map_map]
    rfl

theorem parse_eq (x : Block) {s : String} (h : Token.scan? (newlines s.toList) = some x.tokens) :
    parse s = .ok x.value := by
  rw [parse, h, Option.bind_some, x.builds.ofTokens?]
  exact x.reads

end Block

end DclServer.Yaml
