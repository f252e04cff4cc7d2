import ScanJobs.Schema.Element
import ScanJobs.Text.Split
import ScanJobs.Text.Quoted
import ScanJobs.Value.Printer

/-! # Sites and their paths

A site says where an element stands: in which tree, and by which links one comes to it from the
root. The path of an element is written with the names of the links, a dot between them; the user's
names follow the umbrellas in turn, from the top down, as far as there are any. The root itself
contributes no name.
-/

namespace ScanJobs.Schema

open ScanJobs.Text

/-- One step down a schema: the name of an element and what it is. -/
structure Link where
  name : Name
  kind : Kind
deriving DecidableEq

/-- Where an element stands. -/
structure Site where
  tree : Nat
  root : Link
  links : List Link
deriving DecidableEq

namespace Site

/-- The site of a child. -/
def child (s : Site) (name : Name) (e : Element) : Site :=
  { s with links := s.links ++ [⟨name, e.kind⟩] }

/-- The link of the element itself. -/
def last (s : Site) : Link :=
  s.links.getLast?.getD s.root

/-- The names from the root down. -/
def names (s : Site) : List Name :=
  s.links.map Link.name

/-- The site of the root of the same tree. -/
def rootSite (s : Site) : Site :=
  { s with links := [] }

/-- How messages name the element: by its path, or by its name if it is a root. -/
def display (s : Site) : String :=
  if s.links.isEmpty then s.root.name.text else join '.' (s.links.map (·.name.text))

/-- The name of the type of the element. -/
def typeName (s : Site) : String :=
  if s.last.kind = .option then "ConfigOption" else "ConfigNamespace"

/-- How messages show the element: its type and its own name. -/
def shown (s : Site) : String :=
  s.typeName ++ "(" ++ quoted s.last.name.text ++ ")"

end Site

/-! ## Paths -/

/-- Why an element has no path. Elements and names are given as messages show them. -/
inductive PathFault where
  | notBelow (element ancestor : String)
  | tooManyNames (element names : String)
  /-- There is no element whose path could be written. -/
  | nothing
deriving DecidableEq

/-- What is wrong with the path. -/
def PathFault.message : PathFault → String
  | .notBelow element ancestor => element ++ " is not declared under " ++ ancestor
  | .tooManyNames element names =>
    "too many umbrella elements for " ++ element ++ ": " ++ names
  | .nothing => "pop from empty list"

/-- The names of the links with the user's names after the umbrellas, and the names left over. -/
def weave : List Link → List String → List String × List String
  | [], names => ([], names)
  | ⟨name, .umbrella⟩ :: ls, user :: names =>
    let w := weave ls names
    (name.text :: user :: w.1, w.2)
  | l :: ls, names =>
    let w := weave ls names
    (l.name.text :: w.1, w.2)

/-- The components of the way from an element of this kind along the links. -/
def weaveFrom (kind : Kind) (ls : List Link) (names : List String) : List String × List String :=
  match kind, names with
  | .umbrella, user :: names =>
    let w := weave ls names
    (user :: w.1, w.2)
  | _, _ => weave ls names

/-- The links that lead from one site to another below it. -/
def linksBelow? : List Link → List Link → Option (List Link)
  | [], ls => some ls
  | a :: as, l :: ls => if a.name = l.name then linksBelow? as ls else none
  | _ :: _, [] => none

namespace Site

/-- The links from an ancestor to the element. -/
def below? (s ancestor : Site) : Option (List Link) :=
  if s.tree = ancestor.tree then linksBelow? ancestor.links s.links else none

/-- The components of the way to the element from an ancestor of the given kind. -/
def components (s : Site) (kind : Kind) (ls : List Link) (names : List String) :
    Except PathFault (List String) :=
  let w := weaveFrom kind ls names
  if w.2.isEmpty then .ok w.1
  else .error (.tooManyNames s.shown (Value.display (.list (names.map .text))))

/-- The components of the way from the root. -/
def way (s : Site) (names : List String) : Except PathFault (List String) :=
  s.components s.root.kind s.links names

/-- The components of the way from an ancestor. -/
def wayFrom (s ancestor : Site) (names : List String) : Except PathFault (List String) :=
  match s.below? ancestor with
  | none => .error (.notBelow s.shown ancestor.shown)
  | some ls => s.components ancestor.last.kind ls names

/-- **The path** of an element from its root. -/
def path (s : Site) (names : List String) : Except PathFault String :=
  (s.way names).map (join '.')

/-- **The path** of an element from an ancestor. -/
def pathFrom (s ancestor : Site) (names : List String) : Except PathFault String :=
  (s.wayFrom ancestor names).map (join '.')

end Site

end ScanJobs.Schema
