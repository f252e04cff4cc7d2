import ScanJobs.Schema.Site
import ScanJobs.OptionType.Flat

/-! # Declaring elements

A schema holds the trees declared so far. A declaration puts an element under a scope, or starts a
tree; it is refused if the name is not proper or taken. An option is put in place before its default
is looked at, so one whose default does not fit stays declared, without a default.
-/

namespace ScanJobs

namespace Schema

/-- A value that an option does not accept, as it was given to its type, and the faults found. -/
structure Unfit where
  option : Site
  value : Value
  faults : Nat

/-- What is wrong with the value. -/
def Unfit.message (u : Unfit) : String :=
  "Invalid value for configuration option " ++ u.option.display ++ ": " ++ u.value.display ++
    " (" ++ toString u.faults ++ " validation errors)"

/-- The value of an option's type that a value stands for, flat text included. -/
def acceptAt (option : Site) (τ : OptionType) (v : Value) : Except Unfit Value :=
  let v := τ.unflatten v
  (τ.accept v).mapError fun n => ⟨option, v, n⟩

/-- Why a declaration is refused. -/
inductive DeclarationFault where
  | noScope
  | name (fault : NameFault)
  /-- An option, which holds no elements, is given as the scope. -/
  | underOption (option : Site)
  | taken (scope : Site) (name : Name)
  | unfitDefault (fault : Unfit)

end Schema

open Schema in
/-- The trees declared so far, each with the name of its root. -/
structure Schema where
  trees : List (Name × Element)
deriving Inhabited

namespace Schema

/-- The schema without elements. -/
def empty : Schema := ⟨[]⟩

/-- The element at a site. -/
def element? (s : Schema) (site : Site) : Option Element :=
  s.trees[site.tree]?.bind fun t => t.2.at? site.names

/-- Changes the element at a site. -/
def modifyAt (s : Schema) (site : Site) (f : Element → Element) : Schema :=
  ⟨s.trees.modify site.tree fun t => (t.1, t.2.modifyAt f site.names)⟩

/-- Starts a tree. -/
def plant (s : Schema) (name : Name) (e : Element) : Site × Schema :=
  (⟨s.trees.length, ⟨name, e.kind⟩, []⟩, ⟨s.trees ++ [(name, e)]⟩)

/-- Puts an element under a scope, unless the name is taken there. -/
def graft (s : Schema) (parent : Site) (name : Name) (e : Element) :
    Except DeclarationFault (Site × Schema) :=
  match s.element? parent with
  | some (.option ..) => .error (.underOption parent)
  | some (.scope _ _ children) =>
    if (Element.findChild name.text children).isSome then .error (.taken parent name)
    else .ok (parent.child name e, s.modifyAt parent (Element.addChild name e))
  | none => .ok (parent.child name e, s)

/-- The name of an element to declare. -/
def properName (name : String) : Except DeclarationFault Name :=
  (Name.ofText name).mapError .name

/-- **Declares a scope** under another, or as the root of a new tree. -/
def declareScope (s : Schema) (parent : Option Site) (name : String) (description : Value)
    (umbrella : Bool) : Except DeclarationFault (Site × Schema) := do
  let n ← properName name
  let e := Element.scope umbrella description []
  match parent with
  | none => return s.plant n e
  | some p => s.graft p n e

/-- Puts an option in place, without a default yet. -/
def placeOption (s : Schema) (parent : Option Site) (name : String) (description : Value)
    (τ : OptionType) : Except DeclarationFault (Site × Schema) :=
  match parent with
  | none => .error .noScope
  | some p => do
    let n ← properName name
    s.graft p n (.option description τ none)

/-- Gives the option at a site its default. -/
def setDefault (s : Schema) (site : Site) (v : Value) : Schema :=
  s.modifyAt site fun
    | .option d τ _ => .option d τ (some v)
    | e => e

/-- The default that a declaration asks for: no value, or one that the type accepts. -/
def defaultFor (site : Site) (τ : OptionType) : Value → Except Unfit Value
  | .none => .ok .none
  | v => acceptAt site τ v

/-- **Declares an option** under a scope. -/
def declareOption (s : Schema) (parent : Option Site) (name : String) (description : Value)
    (τ : OptionType)
    (default : Value) : Except DeclarationFault Site × Schema :=
  match s.placeOption parent name description τ with
  | .error f => (.error f, s)
  | .ok (site, s') =>
    match defaultFor site τ default with
    | .error u => (.error (.unfitDefault u), s')
    | .ok v => (.ok site, s'.setDefault site v)

/-! ## References to declared elements -/

/-- An element of a schema, where it stands. -/
structure Node where
  site : Site
  element : Element

/-- An option of a schema. It has no default if the one declared was refused. -/
structure OptionRef where
  site : Site
  type : OptionType
  default : Option Value

/-- The element at a site. -/
def node? (s : Schema) (site : Site) : Option Node :=
  (s.element? site).map (Node.mk site)

namespace Node

/-- The name of the element itself. -/
def name (n : Node) : String :=
  n.site.last.name.text

/-- The element is a scope that takes a name of the user. -/
def isUmbrella (n : Node) : Bool :=
  n.element.kind == .umbrella

/-- The site of the child of this name. -/
def child? (n : Node) (name : String) : Option Site :=
  (n.element.child? name).map fun c => n.site.child c.1 c.2

/-- The element declares a child of this name. -/
def declares (n : Node) (name : String) : Bool :=
  (n.child? name).isSome

/-- The element, if it is an option. -/
def option? (n : Node) : Option OptionRef :=
  match n.element with
  | .option _ τ default => some ⟨n.site, τ, default⟩
  | .scope .. => none

end Node

/-- The option at a site. -/
def option? (s : Schema) (site : Site) : Option OptionRef :=
  (s.node? site).bind Node.option?

namespace OptionRef

/-- **The value of the option's type** that a value stands for. -/
def accept (o : OptionRef) (v : Value) : Except Unfit Value :=
  acceptAt o.site o.type v

end OptionRef

end Schema

end ScanJobs
