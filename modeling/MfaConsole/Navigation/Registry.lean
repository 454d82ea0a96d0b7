import MfaConsole.Navigation.State
import MfaConsole.Text.Form

/-! The table of navigation states: its making and checking, the state a URL leads to and the URL of a state. -/

namespace MfaConsole
namespace Navigation

/-- Why the table does not answer. -/
inductive NavError where
  | noMatch (url : String)
  | unknownState (name : String)
  | missingParameter (state parameter : String)
  | missingParent (state parent : String)
  | invalidDefault (parent child : String)
  deriving DecidableEq, Repr

def NavError.message : NavError → String
  | .noMatch url => "no state matches " ++ url
  | .unknownState name => "unknown state " ++ name
  | .missingParameter state parameter => "state " ++ state ++ " needs parameter " ++ parameter
  | .missingParent state parent => "state " ++ state ++ " has no parent state " ++ parent
  | .invalidDefault parent child => child ++ " cannot be the default child of " ++ parent

/-- A state reached with its parameters. -/
structure StateMatch where
  state : String
  controller : Option Controller
  params : KeyMap String

/-- Where a URL leads: to a state, or from a parent state on to the URL of a state below it. -/
inductive Resolution where
  | matched (m : StateMatch)
  | redirect (source target url : String)

/-- The states in their order, and the default child of each parent that has one. -/
structure Registry where
  states : List State
  defaults : KeyMap String

namespace Registry

/-- The table without states. -/
def empty : Registry := ⟨[], KeyMap.empty⟩

/-- The first state of a name. -/
def find? (states : List State) (name : String) : Option State :=
  states.find? fun s => s.name = name

/-- The state of a declaration, after those already declared. -/
def declare (mount : String) (release : Release) (before : List State) (d : Declaration) : State :=
  let own := Pattern.parse d.url
  let parent := (parentName? d.name).bind (find? before)
  { name := d.name, pattern := parent.elim own fun p => p.pattern.join own,
    template := release.decorate (mount ++ "/static/components/" ++ d.area ++ "/views/" ++ d.view ++ ".html"),
    controller := d.controller }

/-- The table of the declarations. A parent has to be declared before its children; of two defaults of one parent
    the later one counts. -/
def ofDeclarations (mount : String) (release : Release) (ds : List Declaration)
    (defaults : List (String × String)) : Registry :=
  { states := ds.foldl (fun states d => states ++ [declare mount release states d]) [],
    defaults := KeyMap.ofList defaults }

def console (mount : String) (release : Release) : Registry :=
  ofDeclarations mount release declarations defaultChildren

variable (r : Registry)

/-- The first state of a name. -/
def state? (name : String) : Option State := find? r.states name

/-- The template of the first state of a name. -/
def template? (name : String) : Option String := (r.state? name).map (·.template)

def defaultChild? (name : String) : Option String := r.defaults.get? name

def checkParent (s : State) : Except NavError Unit :=
  match s.parent? with
  | none => .ok ()
  | some parent => if (r.state? parent).isSome then .ok () else .error (.missingParent s.name parent)

/-- A default child is a child of its parent, and its URL needs no parameter. -/
def checkDefault (e : String × String) : Except NavError Unit :=
  if (r.state? e.1).isNone then .error (.unknownState e.1)
  else match r.state? e.2 with
    | none => .error (.invalidDefault e.1 e.2)
    | some child =>
      if child.parent? = some e.1 ∧ child.pattern.hasParameters = false then .ok ()
      else .error (.invalidDefault e.1 e.2)

/-- The parents of all states are declared and all defaults are children that need no parameter; if not, the
    first error. -/
def validate : Except NavError Unit := do
  r.states.forM r.checkParent
  r.defaults.entries.forM r.checkDefault

/-- The default child of the default child and so on, at most `steps` times. -/
def followDefaults : (steps : Nat) → (name : String) → String
  | 0, name => name
  | steps + 1, name =>
    match r.defaultChild? name with
    | some child => followDefaults steps child
    | none => name

def defaultTarget? (name : String) : Option String :=
  (r.defaultChild? name).map (r.followDefaults r.defaults.entries.length)

/-- Of the states that fit the pieces, the one with most literal segments, of several the first; with its
    parameters. -/
def mostSpecific? (pieces : List (List Char)) : List State → Option (State × KeyMap String)
  | [] => none
  | s :: ss =>
    match s.pattern.match? pieces, mostSpecific? pieces ss with
    | none, best => best
    | some params, none => some (s, params)
    | some params, some best =>
      if best.1.pattern.literalCount ≤ s.pattern.literalCount then some (s, params) else some best

/-- The value of the first pair of a key, if it is not empty. -/
def given? (params : List (String × String)) (key : String) : Option String :=
  (params.lookup key).filter (· ≠ "")

def fillPath (name : String) (params : List (String × String)) : List Segment → Except NavError (List Char)
  | [] => .ok []
  | .literal text :: ss => do
    let rest ← fillPath name params ss
    pure ('/' :: text.toList ++ rest)
  | .parameter parameter :: ss =>
    match given? params parameter with
    | none => .error (.missingParameter name parameter)
    | some value => do
      let rest ← fillPath name params ss
      pure ('/' :: Text.Percent.segmentChars value.toList ++ rest)

def fillQuery (params : List (String × String)) (names : List String) : List (String × String) :=
  names.filterMap fun key => (given? params key).map fun value => (key, value)

/-- The URL of a state. The parameters of its path are needed, those of its query are not. -/
def href (name : String) (params : List (String × String)) : Except NavError String := do
  match r.state? name with
  | none => .error (.unknownState name)
  | some s =>
    let path ← fillPath name params s.pattern.segments
    let path := if path = [] then ['/'] else path
    .ok (Text.Form.withQuery (String.ofList path) (fillQuery params s.pattern.queryNames))

/-- The parameters with those of the query that the pattern takes; of two of one name the later one counts. -/
def takeQuery (names : List String) (query : List (String × String)) (params : KeyMap String) : KeyMap String :=
  (query.filter fun q => names.contains q.1).foldl (fun found q => found.insert q.1 q.2) params

def resolve (url : String) : Except NavError Resolution :=
  let (path, query) := Text.cutOrAll '?' url.toList
  match mostSpecific? (pathPieces path) r.states with
  | none => .error (.noMatch url)
  | some (s, params) =>
    match r.defaultTarget? s.name with
    | some target => (r.href target []).map fun url => .redirect s.name target url
    | none =>
      .ok (.matched { state := s.name, controller := s.controller,
                      params := takeQuery s.pattern.queryNames (Text.Form.readChars query) params })

end Registry
end Navigation
end MfaConsole
