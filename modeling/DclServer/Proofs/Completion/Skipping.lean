import DclServer.Completion.Registry

namespace DclServer

namespace Completer

def Fails (c : Completer) : Prop :=
  ∀ item, ∃ f, (c.resolve item).result = .error (.fault f)

def scripted (name : String) (s : Script) : Completer where
  name
  description := "scripted"
  accepts := fun _ => .ok false
  complete := fun _ => .ok { items := [] }
  resolve := s.run

end Completer

namespace Registry

variable {p : Completer} {cs : List Completer} {item given : Item} {logs : List Log}
  {key : String} {ahead behind : List (String × Capability)}

inductive Completers : List (String × Capability) → List Completer → Prop where
  | nil : Completers [] []
  | completer {es : List (String × Capability)} {cs : List Completer} (key : String) (c : Completer)
      (h : Completers es cs) : Completers ((key, .completer c) :: es) (c :: cs)
  | other {es : List (String × Capability)} {cs : List Completer} (key name description : String)
      (h : Completers es cs) : Completers ((key, .other name description) :: es) cs

theorem completers_spec (r : Registry) : Completers r.capabilities r.completers := by
  obtain ⟨es⟩ := r
  induction es with
  | nil => exact .nil
  | cons e es ih =>
    obtain ⟨key, c | ⟨name, description⟩⟩ := e
    · exact .completer key c ih
    · exact .other key name description ih

theorem Completers.eq_completers {es : List (String × Capability)} (h : Completers es cs) :
    completers ⟨es⟩ = cs := by
  induction h with
  | nil => rfl
  | completer key c _ ih => exact congrArg (c :: ·) ih
  | other key name description _ ih => exact ih

/-- No completer of a chain ends it: the failures that are reported on the way, and the item that is
handed on. -/
inductive Passes : List Completer → Item → List Log → Item → Prop where
  | nil (item : Item) : Passes [] item [] item
  | returned {c : Completer} {cs : List Completer} {item next given : Item} {logs : List Log}
      (hr : (c.resolve item).result = .ok next) (hd : next.documentation = none)
      (hp : Passes cs next logs given) : Passes (c :: cs) item logs given
  | failed {c : Completer} {cs : List Completer} {item given : Item} {f : Fault} {logs : List Log}
      (hr : (c.resolve item).result = .error (.fault f))
      (hp : Passes cs (c.resolve item).left logs given) : Passes (c :: cs) item (failure c f :: logs) given

theorem Passes.resolveAll (hp : Passes cs item logs given) (rest : List Completer) :
    Registry.resolveAll (cs ++ rest) item =
      (logs ++ (Registry.resolveAll rest given).1, (Registry.resolveAll rest given).2) := by
  induction hp with
  | nil => rfl
  | returned hr hd _ ih => simp [Registry.resolveAll, hr, hd, ih]
  | failed hr _ ih => simp [Registry.resolveAll, hr, ih]

theorem resolveAll_of_ended (h : ∀ logs given, ¬ Passes cs item logs given) (rest : List Completer) :
    resolveAll (cs ++ rest) item = resolveAll cs item := by
  induction cs generalizing item with
  | nil => exact absurd (.nil item) (h [] item)
  | cons c cs ih =>
    cases hr : (c.resolve item).result with
    | ok next =>
      cases hd : next.documentation with
      | none =>
        have hrest := ih fun logs given hp => h logs given (.returned hr hd hp)
        simp [resolveAll, hr, hd, hrest]
      | some => simp [resolveAll, hr, hd]
    | error raised =>
      cases raised with
      | fault f =>
        have hrest := ih fun logs given hp => h _ given (.failed hr hp)
        simp [resolveAll, hr, hrest]
      | cancelled => simp [resolveAll, hr]

theorem completers_append (ahead behind : List (String × Capability)) :
    completers ⟨ahead ++ behind⟩ = completers ⟨ahead⟩ ++ completers ⟨behind⟩ :=
  List.filterMap_append

theorem completers_cons (key : String) (p : Completer) (behind : List (String × Capability)) :
    completers ⟨(key, .completer p) :: behind⟩ = p :: completers ⟨behind⟩ := rfl

theorem Passes.resolve (hp : Passes (completers ⟨ahead⟩) item logs given) (behind : List (String × Capability)) :
    Registry.resolve ⟨ahead ++ behind⟩ item =
      (logs ++ (Registry.resolve ⟨behind⟩ given).1, (Registry.resolve ⟨behind⟩ given).2) := by
  rw [Registry.resolve, completers_append]
  exact hp.resolveAll _

theorem resolve_of_ended (h : ∀ logs given, ¬ Passes (completers ⟨ahead⟩) item logs given)
    (behind : List (String × Capability)) : resolve ⟨ahead ++ behind⟩ item = resolve ⟨ahead⟩ item := by
  rw [Registry.resolve, completers_append]
  exact resolveAll_of_ended h _

theorem Passes.resolve_of_fault (hp : Passes (completers ⟨ahead⟩) item logs given) {f : Fault}
    (hf : (p.resolve given).result = .error (.fault f)) :
    Registry.resolve ⟨ahead ++ (key, .completer p) :: behind⟩ item =
      (logs ++ failure p f :: (Registry.resolve ⟨behind⟩ (p.resolve given).left).1,
        (Registry.resolve ⟨behind⟩ (p.resolve given).left).2) := by
  rw [hp.resolve]
  simp only [Registry.resolve, completers_cons, Registry.resolveAll, hf]

/-- The reports of one run are those of another, or have one failure of a completer in addition. -/
def OneFailureMore (p : Completer) (less more : List Log) : Prop :=
  more = less ∨ ∃ (before : List Log) (f : Fault) (after : List Log), less = before ++ after ∧
    more = before ++ ⟨.error, "Completion resolve error in " ++ p.name ++ ": " ++ f.text⟩ :: after

/-- A completer that always fails is passed over: the answer is the one that there is without it exactly
if those behind it make the same of the item as it was left and as it was given. If the item was left as
it was given, then the reports differ at most by the failure. -/
theorem failing_completer_skipped (hf : p.Fails) (key : String) (ahead behind : List (String × Capability))
    (item : Item) :
    let whole : Registry := ⟨ahead ++ (key, .completer p) :: behind⟩
    let without : Registry := ⟨ahead ++ behind⟩
    let Reached (given : Item) := ∃ logs, Passes (completers ⟨ahead⟩) item logs given
    ((whole.resolve item).2 = (without.resolve item).2 ↔ ∀ given, Reached given →
        (resolve ⟨behind⟩ (p.resolve given).left).2 = (resolve ⟨behind⟩ given).2) ∧
      ((∀ given, Reached given → (p.resolve given).left = given) →
        (whole.resolve item).2 = (without.resolve item).2 ∧
          OneFailureMore p (without.resolve item).1 (whole.resolve item).1) := by
  intro whole without Reached
  by_cases hreach : ∃ given, Reached given
  · obtain ⟨given, logs, hp⟩ := hreach
    obtain ⟨f, hfault⟩ := hf given
    have hwhole : whole.resolve item = (logs ++ failure p f :: (resolve ⟨behind⟩ (p.resolve given).left).1,
        (resolve ⟨behind⟩ (p.resolve given).left).2) := hp.resolve_of_fault hfault
    have hwithout : without.resolve item =
        (logs ++ (resolve ⟨behind⟩ given).1, (resolve ⟨behind⟩ given).2) := hp.resolve behind
    have hiff : (whole.resolve item).2 = (without.resolve item).2 ↔ ∀ given, Reached given →
        (resolve ⟨behind⟩ (p.resolve given).left).2 = (resolve ⟨behind⟩ given).2 := by
      constructor
      · rintro h other ⟨logs', hp'⟩
        obtain ⟨f', hfault'⟩ := hf other
        rw [hp'.resolve_of_fault hfault', hp'.resolve] at h
        exact h
      · intro h
        rw [hwhole, hwithout]
        exact h given ⟨logs, hp⟩
    refine ⟨hiff, fun hleft => ⟨hiff.mpr fun other hr => by rw [hleft other hr], .inr ?_⟩⟩
    rw [hwhole, hwithout, hleft given ⟨logs, hp⟩]
    exact ⟨logs, f, _, rfl, rfl⟩
  · have hended : ∀ logs given, ¬ Passes (completers ⟨ahead⟩) item logs given :=
      fun logs given hp => hreach ⟨given, logs, hp⟩
    have hsame : whole.resolve item = without.resolve item := by
      rw [resolve_of_ended hended, resolve_of_ended hended]
    rw [hsame]
    exact ⟨iff_of_true rfl fun given hr => absurd ⟨given, hr⟩ hreach, fun _ => ⟨rfl, .inl rfl⟩⟩

/-- A completer that has begun a new item when it fails leaves the one it was given to the next. -/
theorem begun_replacement_is_lost :
    let failing : Completer := .scripted "failing"
      { replacement := some { label := "new" }
        assignments := [.documentation (some "half")]
        raises := some (.fault ⟨.runtime, "broken"⟩) }
    let five : Entry := ⟨5, "f$five", "Lexical", "five doc"⟩
    let keyword : Completer := .keyword (some ⟨[five], [Catalogue.row five]⟩)
    let ahead : List (String × Capability) := [("other", .other "other" "")]
    let behind : List (String × Capability) := [("keyword", .completer keyword)]
    let whole : Registry := ⟨ahead ++ ("failing", .completer failing) :: behind⟩
    let without : Registry := ⟨ahead ++ behind⟩
    let item : Item := { label := "f$five", data := .int 5 }
    failing.Fails ∧ (whole.resolve item).2 = (without.resolve item).2 ∧
      OneFailureMore failing (without.resolve item).1 (whole.resolve item).1 ∧
      whole.resolve item = ([⟨.error, "Completion resolve error in failing: broken"⟩],
        .ok { item with detail := some "Lexical", documentation := some "five doc" }) := by
  intro failing five keyword ahead behind whole without item
  have hf : failing.Fails := fun item => ⟨⟨.runtime, "broken"⟩, rfl⟩
  have hskip := (failing_completer_skipped hf "failing" ahead behind item).2 fun given _ => rfl
  exact ⟨hf, hskip.1, hskip.2, rfl⟩

/-- A completer that has assigned a documentation when it fails decides the answer: the item goes on with it,
and the keyword completer is not reached. -/
theorem half_filled_item_is_kept :
    let failing : Completer := .scripted "failing"
      { assignments := [.documentation (some "half")], raises := some (.fault ⟨.runtime, "broken"⟩) }
    let plain : Completer := .scripted "plain" {}
    let five : Entry := ⟨5, "f$five", "Lexical", "five doc"⟩
    let keyword : Completer := .keyword (some ⟨[five], [Catalogue.row five]⟩)
    let behind : List (String × Capability) := [("plain", .completer plain), ("keyword", .completer keyword)]
    let whole : Registry := ⟨("failing", .completer failing) :: behind⟩
    let without : Registry := ⟨behind⟩
    let item : Item := { label := "f$five", data := .int 5 }
    failing.Fails ∧ (whole.resolve item).2 ≠ (without.resolve item).2 ∧
      (whole.resolve item).2 = .ok { item with documentation := some "half" } ∧
      (without.resolve item).2 = .ok { item with detail := some "Lexical", documentation := some "five doc" } := by
  intro failing plain five keyword behind whole without item
  have hwhole : (whole.resolve item).2 = .ok { item with documentation := some "half" } := rfl
  have hwithout : (without.resolve item).2 =
      .ok { item with detail := some "Lexical", documentation := some "five doc" } := rfl
  refine ⟨fun item => ⟨⟨.runtime, "broken"⟩, rfl⟩, fun h => ?_, hwhole, hwithout⟩
  rw [hwhole, hwithout] at h
  simp at h

end Registry

end DclServer
