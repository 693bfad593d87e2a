import RamlTypes.Resolution.Load

/-!
# Sessions

A session is a store and the requests that are made of it one after the other. A request that fails
leaves a store with which the session goes on.
-/

namespace RamlTypes

inductive Request where
  /-- Load a fragment and, if loads are eager, resolve everything. -/
  | load (p : Path)
  /-- Load a fragment only. -/
  | parse (p : Path)
  | library (p : Path)
  | dataType (p : Path)
  | resolve (id : ShapeId)
  | resolveNamed (p : Path) (name : String)
  | resolveAll
  /-- Read a declaration as if it stood in a file. -/
  | declare (p : Path) (name : String) (node : Node)
  /-- Add or replace a file. -/
  | write (p : Path) (text : String)

/-- What a request yields. -/
inductive Answer where
  | fragment (f : Fragment)
  | shape (id : ShapeId)
  | done
  | fault (f : Fault)
  /-- A bound on a recursion was reached. -/
  | exhausted

namespace Session

/-- Runs an action; `answer` turns its value into an answer. -/
def perform {α : Type} (x : Store → Except Stop α × Store) (answer : α → Answer) (s : Store) :
    Answer × Store :=
  match x s with
  | (.ok a, s) => (answer a, s)
  | (.error e, s) => ((e.fault?.map .fault).getD .exhausted, s)

/-- Serves one request. -/
def step (s : Store) : Request → Answer × Store
  | .load p => perform (Load.load p) .fragment s
  | .parse p => perform (Load.parse p) .fragment s
  | .library p => perform (Load.library p).run (fun l => .fragment (.library l)) s
  | .dataType p => perform (Load.dataType p).run (fun d => .fragment (.dataType d)) s
  | .resolve id => perform (Load.resolve id).run (fun _ => .shape id) s
  | .resolveNamed p name => perform (Load.resolveNamed p name).run .shape s
  | .resolveAll => perform Load.resolveAll.run (fun _ => .done) s
  | .declare p name node => perform (Load.declare p name node).run .shape s
  | .write p text => (.done, { s with files := s.files.write p text })

/-- The store after a list of requests. -/
def run (s : Store) (requests : List Request) : Store :=
  requests.foldl (fun s r => (step s r).2) s

end Session

end RamlTypes
