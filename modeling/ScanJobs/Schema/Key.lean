import ScanJobs.Schema.Declare

/-! # Reading keys

A key leads down from a scope, one component at a time: a component that names a child of the
current scope leads to the child; any other is taken as the user's name by an umbrella that has none
yet. Nothing leads on from an option. `Node.parse` follows a key to the element at its end and the
user's names on the way.
-/

namespace ScanJobs.Schema

open ScanJobs.Text

/-- Why a key leads nowhere. -/
inductive KeyFault where
  /-- A component is blank. -/
  | malformed (key : String)
  /-- A component follows what is no scope, as messages show it. -/
  | throughOption (key component shown : String)
  /-- A component is neither a child nor taken by an umbrella. -/
  | unknown (key component : String) (scope : Site)
deriving DecidableEq

namespace KeyFault

/-- The key that leads nowhere. -/
def key : KeyFault → String
  | .malformed k | .throughOption k _ _ | .unknown k _ _ => k

/-- What is wrong with the key. -/
def message : KeyFault → String
  | .malformed k => "Invalid configuration key: " ++ quoted k
  | .throughOption k c shown =>
    "Invalid configuration path " ++ k ++ " [" ++ c ++ "]: " ++ shown ++
      " is an option, not a namespace"
  | .unknown _ c scope =>
    "Unknown configuration element in namespace [" ++ scope.display ++ "]: " ++ c

end KeyFault

/-- Where a key leads: the element, and the user's names on the way. -/
structure Target extends Node where
  names : List String

/-- The target with one more name in front. -/
def Target.addName (t : Target) (name : String) : Target :=
  { t with names := name :: t.names }

/-- Follows the components down from an element; `taken` says that it has taken a name of the user
already. -/
def walk (key : String) (site : Site) (e : Element) (taken : Bool) :
    List String → Except KeyFault Target
  | [] => .ok ⟨⟨site, e⟩, []⟩
  | c :: cs =>
    match e with
    | .option .. => .error (.throughOption key c site.display)
    | .scope umbrella _ children =>
      match Element.findChild c children with
      | some (name, e') => walk key (site.child name e') e' false cs
      | none =>
        if umbrella && !taken then (walk key site e true cs).map (·.addName c)
        else .error (.unknown key c site)

/-- The components of a key, none of which may be blank. -/
def components (key : String) : Except KeyFault (List String) :=
  let cs := split '.' key
  if cs.any isBlank then .error (.malformed key) else .ok cs

/-- **Follows a key** from an element to the one at its end. -/
def Node.parse (n : Node) (key : String) : Except KeyFault Target := do
  walk key n.site n.element false (← components key)

/-- Follows a key from what is no element, which leads nowhere. -/
def parseFrom (shown key : String) : Except KeyFault Target := do
  .error (.throughOption key ((← components key).headD "") shown)

end ScanJobs.Schema
