import ScanJobs.Script.Naming
import ScanJobs.Script.Session

/-! # Steps on schemas

Steps that declare elements, look at them, follow keys and write paths. Where an element is meant, any
thing may be given.
-/

namespace ScanJobs.Script.Session

open Schema Config

/-- The text of a name. What does not stand for true is a blank one. -/
def nameText (name : Value) : Except Failure String :=
  if name.truth then name.textFor "strip" else .ok ""

/-- The scope above a new element. What is no element takes none below it, which shows once the name
of the new one is known to be proper. -/
def above (parent : Thing) (name : String) : Except Failure (Option Site) :=
  match parent with
  | .value .none => .ok none
  | .element site => .ok (some site)
  | t =>
    match properName name with
    | .ok _ => .error (t.lacking "_namespace_register_child")
    | .error f => .error (.config (.declaration f))

/-- A refused declaration as a failure. -/
def declared {α : Type} (e : Except DeclarationFault α) : Step α :=
  Act.ofExcept (e.mapError fun f => .config (.declaration f))

/-- **Declares a scope.** -/
def declareScope (parent : Thing) (name : Value) (description : Value) (umbrella : Bool) :
    Step Thing := do
  let name ← Act.ofExcept (nameText name)
  let p ← Act.ofExcept (above parent name)
  let s ← Act.read Session.schema
  let (site, schema) ← declared (s.declareScope p name description umbrella)
  Act.change fun s => { s with schema }
  return .element site

/-- **Declares an option**, and tells its default. There must be a scope above it, before its name is
looked at. -/
def declareOption (parent : Thing) (name : Value) (description : Value) (τ : OptionType)
    (default : Value) : Step (Thing × Value) := do
  if !parent.isSome then throw (.config (.declaration .noScope))
  let name ← Act.ofExcept (nameText name)
  let p ← Act.ofExcept (above parent name)
  let s ← Act.read Session.schema
  let (r, schema) := s.declareOption p name description τ default
  Act.change fun s => { s with schema }
  let site ← declared r
  return (.element site, ((schema.option? site).bind (·.default)).getD .none)

/-- The element that a thing is. -/
def node (part : String) (t : Thing) : Step Node := do
  let site ← use Thing.site? part t
  match (← Act.read Session.schema).node? site with
  | some n => return n
  | none => throw (t.lacking part)

/-- The element to describe. What has a name only lacks a description. -/
def described (t : Thing) : Step Node :=
  node (if t.name?.isSome then "description" else "name") t

/-- The option that a thing is. -/
def option (part : String) (t : Thing) : Step OptionRef := do
  match (← node part t).option? with
  | some o => return o
  | none => throw (t.lacking part)

/-- The child of a scope. -/
def child (scope : Thing) (name : Value) : Step (Option Site) := do
  let n ← node "namespace_child" scope
  if n.element.isOption then throw (scope.lacking "namespace_child")
  else return (← Act.ofExcept name.keyText?).bind n.child?

/-- The default of an option, which has none if the one declared was refused. -/
def default (t : Thing) : Step Value := do
  match (← option "default" t).default with
  | some v => return v
  | none => throw (.config .noDefault)

/-- Follows a key. -/
def parse (root : Thing) (key : Value) : Step Target := do
  let key ← Act.ofExcept (key.textFor "split")
  match root with
  | .element _ => follow ((← node "namespace" root).parse key)
  | t => follow (parseFrom ((← Act.read id).plain t) key)
where
  follow (e : Except KeyFault Target) : Step Target :=
    Act.ofExcept (e.mapError fun f => .config (.strayKey f))

/-- Writes the path of an element from its root, or from an ancestor if one is given. -/
def path (s : Session) (element : Thing) (names : List Value) (ancestor : Thing) :
    Except Failure String :=
  match element, ancestor with
  | .value .none, .value .none => .error (.config (.path .nothing))
  | .element site, .value .none => pathAlong site.way names
  | .element site, .element a => pathAlong (site.wayFrom a) names
  | .element _, a | .value .none, a =>
    .error (.config (.path (.notBelow (s.display element) (s.display a))))
  | t, _ => .error (t.lacking "namespace")

/-- The element whose path is asked for, from its root. -/
def placed (t : Thing) : Step Node :=
  if t.isSome then node "namespace" t else throw (.config (.path .nothing))

end ScanJobs.Script.Session
