import DclServer.Yaml.Token

namespace DclServer.Yaml

inductive Node where
  | empty
  | scalar (a : Atom)
  | sequence (items : List Node)
  | mapping (fields : List (Atom × Node))
  deriving Repr

/-- What a block mapping waits for: a key, the value of a key, or more entries of a sequence that
stands at the indent of its key. -/
inductive Slot where
  | key
  | value (key : Atom)
  | items (key : Atom) (done : List Node) (waiting : Bool)
  deriving Repr

inductive Place where
  | item
  | comma
  | value (key : Atom)
  deriving Repr

inductive Frame where
  | sequence (done : List Node) (waiting : Bool)
  | mapping (done : List (Atom × Node)) (slot : Slot)
  | list (done : List Node) (place : Place)
  | fields (done : List (Atom × Node)) (place : Place)
  deriving Repr

def withEmpty (done : List Node) (waiting : Bool) : List Node :=
  if waiting then done ++ [.empty] else done

def Slot.finish (done : List (Atom × Node)) : Slot → List (Atom × Node)
  | .key => done
  | .value k => done ++ [(k, .empty)]
  | .items k xs waiting => done ++ [(k, .sequence (withEmpty xs waiting))]

def Place.finishList (done : List Node) : Place → List Node
  | .value k => done ++ [.mapping [(k, .empty)]]
  | _ => done

def Place.finishFields (done : List (Atom × Node)) : Place → List (Atom × Node)
  | .value k => done ++ [(k, .empty)]
  | _ => done

namespace Frame

/-- A node where the collection waits for one. In brackets a key may stand alone, and a pair in a
list is a mapping of its own. -/
def put (n : Node) : Frame → Option Frame
  | .sequence done true => some (.sequence (done ++ [n]) false)
  | .mapping done (.value k) => some (.mapping (done ++ [(k, n)]) .key)
  | .mapping done (.items k xs true) => some (.mapping done (.items k (xs ++ [n]) false))
  | .list done .item => some (.list (done ++ [n]) .comma)
  | .list done (.value k) => some (.list (done ++ [.mapping [(k, n)]]) .comma)
  | .fields done (.value k) => some (.fields (done ++ [(k, n)]) .comma)
  | .fields done .item =>
    match n with
    | .scalar a => some (.fields (done ++ [(a, .empty)]) .comma)
    | _ => none
  | _ => none

def entry : Frame → Option Frame
  | .sequence done waiting => some (.sequence (withEmpty done waiting) true)
  | .mapping done (.value k) => some (.mapping done (.items k [] true))
  | .mapping done (.items k xs waiting) => some (.mapping done (.items k (withEmpty xs waiting) true))
  | _ => none

def key (a : Atom) : Frame → Option Frame
  | .mapping done slot => some (.mapping (slot.finish done) (.value a))
  | .list done .item => some (.list done (.value a))
  | .fields done .item => some (.fields done (.value a))
  | _ => none

def comma : Frame → Option Frame
  | .list _ .item => none
  | .fields _ .item => none
  | .list done place => some (.list (place.finishList done) .item)
  | .fields done place => some (.fields (place.finishFields done) .item)
  | _ => none

def finish : Token → Frame → Option Node
  | .close, .sequence done waiting => some (.sequence (withEmpty done waiting))
  | .close, .mapping done slot => some (.mapping (slot.finish done))
  | .closeList, .list done place => some (.sequence (place.finishList done))
  | .closeFields, .fields done place => some (.mapping (place.finishFields done))
  | _, _ => none

end Frame

structure Builder where
  root : Option Node := none
  frames : List Frame := []

namespace Builder

def put (n : Node) (b : Builder) : Option Builder :=
  match b.frames with
  | [] => if b.root.isNone then some { b with root := some n } else none
  | f :: fs => (f.put n).map fun f => { b with frames := f :: fs }

def update (g : Frame → Option Frame) (b : Builder) : Option Builder :=
  match b.frames with
  | [] => none
  | f :: fs => (g f).map fun f => { b with frames := f :: fs }

def start (f : Frame) (b : Builder) : Option Builder :=
  some { b with frames := f :: b.frames }

def finish (t : Token) (b : Builder) : Option Builder :=
  match b.frames with
  | [] => none
  | f :: fs => (f.finish t).bind fun n => put n { b with frames := fs }

def step (b : Builder) : Token → Option Builder
  | .openSequence => b.start (.sequence [] false)
  | .openMapping => b.start (.mapping [] .key)
  | .openList => b.start (.list [] .item)
  | .openFields => b.start (.fields [] .item)
  | .entry => b.update Frame.entry
  | .key a => b.update (Frame.key a)
  | .comma => b.update Frame.comma
  | .scalar a => b.put (.scalar a)
  | .close => b.finish .close
  | .closeList => b.finish .closeList
  | .closeFields => b.finish .closeFields
  | .documentStart => none
  | .documentEnd => none

def run (b : Builder) : List Token → Option Builder
  | [] => some b
  | t :: ts => (b.step t).bind fun b => run b ts

def result (b : Builder) : Option Node :=
  if b.frames.isEmpty then some (b.root.getD .empty) else none

end Builder

/-- The node of one document: an end marker needs a document before it, and nothing but end markers
may follow one. -/
def Node.ofTokens? (ts : List Token) : Option Node :=
  let explicit := ts.head? == some .documentStart
  let ts := if explicit then ts.tail else ts
  let body := ts.takeWhile (· != .documentEnd)
  let after := ts.dropWhile (· != .documentEnd)
  if (explicit || !body.isEmpty || after.isEmpty) && after.all (· == .documentEnd) then
    (Builder.run {} body).bind Builder.result
  else none

end DclServer.Yaml
