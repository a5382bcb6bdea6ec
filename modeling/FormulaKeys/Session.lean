import FormulaKeys.Converter

/-!
Sessions: a converter that can be exchanged, and the actions that were read last. The actions stay
when the converter changes, so a script may be asked for that the new registry cannot give.
-/

set_option autoImplicit false

namespace FormulaKeys

structure Session where
  converter : Converter
  actions : List Action

namespace Session

def start : Session := ⟨.standard, []⟩

def load (session : Session) (config : Config) : Except Registry.Error Session :=
  (Converter.ofConfig config).map fun converter => { session with converter }

/-- Read the markup; its actions come behind the stored ones or take their place. -/
def parse (session : Session) (append : Bool) (markup : String) : Session :=
  let read := session.converter.parse markup
  { session with actions := if append then session.actions ++ read else read }

def store (session : Session) (actions : List Action) : Session :=
  { session with actions }

/-- What changes a session. -/
inductive Request where
  | load (config : Config)
  | parse (append : Bool) (markup : String)
  | store (actions : List Action)

def step (session : Session) : Request → Except Registry.Error Session
  | .load config => session.load config
  | .parse append markup => .ok (session.parse append markup)
  | .store actions => .ok (session.store actions)

/-- The session after a request. One that fails changes nothing. -/
def after (session : Session) (request : Request) : Session :=
  (session.step request).toOption.getD session

def run (session : Session) (requests : List Request) : Session :=
  requests.foldl after session

def generate (session : Session) (target : Script.Target) : Except Script.UnknownMapping String :=
  session.converter.generate target session.actions

/-- The script under the default options. -/
def generateDefault (session : Session) (target : Script.Target) :
    Except Script.UnknownMapping String :=
  Script.generate target {} session.converter.registry session.actions

end Session

end FormulaKeys
