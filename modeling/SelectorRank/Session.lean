import SelectorRank.Datum.Load
import SelectorRank.Store

/-! Sessions: a store whose selectors and declarations go by names. -/
namespace SelectorRank

structure Session where
  store : Store
  names : List (String × Handle)

namespace Session

def start : Session := ⟨.empty, []⟩

def handle? (s : Session) (name : String) : Option Handle := s.names.lookup name

def bind (s : Session) (name : String) (h : Handle) : Session :=
  { s with names := (name, h) :: s.names }

end Session

inductive TokenSource where
  | text (source : String)
  | plain (data : Datum)
  | tokens (data : Datum)

def TokenSource.read : TokenSource → Except Failure Datum
  | .text source => (parseSingle source).map (fun s => .list (tokenData s.tokens))
  | .plain data => (data.load.mapError .token).map (fun tokens => .list (tokenData tokens))
  | .tokens data => .ok data

inductive Step where
  | create (name : String) (source : TokenSource)
  | replace (name : String) (source : TokenSource)
  | declare (name : String) (origin important : Option Datum) (selector : Option String)
  | coerce (name from? : String)
  | show (name : String)
  | equal (x y : String)
  | compare (x y : String)
  | sort (names : List String)

inductive View where
  | selector (s : Selector)
  | declaration (d : Declaration)

inductive Reply where
  | shown (view : View)
  | coerced (view : View) (same : Bool)
  | failed (f : Failure)
  | refused (f : Failure) (view : View)
  | truth (value : Bool)
  | order (value : Ordering)
  | names (list : List String)
  | unknownName (name : String)

namespace Session

def view? (s : Session) : Handle → Option View
  | .selector number => s.store.selectors[number]?.map .selector
  | .declaration number => s.store.entries[number]?.map (fun e => .declaration (s.store.resolve e))

def reply (s : Session) (h : Handle) (name : String) (f : View → Reply) : Session × Reply :=
  match s.view? h with
  | some view => ({ s with store := s.store.keepShown h }, f view)
  | none => (s, .unknownName name)

def covers (s : Session) (target h : Handle) : Bool :=
  h = target || match target with
    | .declaration number => (s.store.entries[number]?.bind (·.selector)) = some h
    | .selector _ => false

/-- Names in cascade order, each the first one given that covers its declaration. -/
def sortNames (s : Session) (given : List (String × Handle)) : Reply :=
  match s.store.rank (given.filterMap (fun g => s.store.entry? g.2)) with
  | .error f => .failed f.failure
  | .ok places =>
      .names (places.filterMap (fun place => do
        let (_, target) ← given[place]?
        let (name, _) ← given.find? (fun g => s.covers target g.2)
        some name))

def declare (s : Session) (name : String) (entry : Entry) (f : View → Reply) : Session × Reply :=
  let (store, h) := s.store.declare entry
  (Session.bind { s with store } name h).reply h name f

def step (s : Session) : Step → Session × Reply
  | .create name source =>
      match source.read with
      | .error f => (s, .failed f)
      | .ok data =>
          match s.store.construct data with
          | .error f => (s, .failed (.token f))
          | .ok (store, h) => (Session.bind { s with store } name h).reply h name .shown
  | .replace name source =>
      match s.handle? name with
      | some (.selector number) =>
          match source.read with
          | .error f => s.reply (.selector number) name (.refused f)
          | .ok data =>
              match s.store.setTokens number data with
              | .error f => s.reply (.selector number) name (.refused (.token f))
              | .ok store => Session.reply { s with store } (.selector number) name .shown
      | _ => (s, .unknownName name)
  | .declare name origin important selector =>
      match selector.filter (fun named => (s.handle? named).isNone) with
      | some unknown => (s, .unknownName unknown)
      | none =>
          s.declare name ⟨.ofDatum (origin.getD (.text "inline")),
            important.getD (.bool false), selector.bind s.handle?⟩ .shown
  | .coerce name source =>
      match s.handle? source with
      | none => (s, .unknownName source)
      | some (.declaration number) =>
          (s.bind name (.declaration number)).reply (.declaration number) name (.coerced · true)
      | some (.selector number) =>
          s.declare name ⟨.known .author, .bool false, some (.selector number)⟩ (.coerced · false)
  | .show name =>
      match s.handle? name with
      | none => (s, .unknownName name)
      | some h => s.reply h name .shown
  | .equal x y =>
      match s.handle? x, s.handle? y with
      | none, _ => (s, .unknownName x)
      | _, none => (s, .unknownName y)
      | some p, some q => (s, .truth (s.store.equalHandles p q))
  | .compare x y =>
      match (s.handle? x).bind s.store.item?, (s.handle? y).bind s.store.item? with
      | none, _ => (s, .unknownName x)
      | _, none => (s, .unknownName y)
      | some p, some q =>
          match p.compare q with
          | .ok order => (s, .order order)
          | .error f => (s, .failed f)
  | .sort names =>
      match names.find? (fun name => (s.handle? name).isNone) with
      | some name => (s, .unknownName name)
      | none => (s, s.sortNames (names.filterMap (fun n => (s.handle? n).map (n, ·))))

def run (s : Session) : List Step → List Reply
  | [] => []
  | x :: xs =>
      let (after, reply) := s.step x
      reply :: after.run xs

end Session

end SelectorRank
