import Mathlib.Data.List.Basic
import Mathlib.Tactic.Common

/-!
# XML elements

An element as a parser hands it over: its namespace and local name, its attributes by qualified
name, the text before its first child, and its children. `select` is the XPath step
`.//*[local-name()="..."]`: every descendant of that local name, in document order, the element
itself left out. `located` keeps with each descendant what it stands in.
-/

namespace ControlPlane

/-- An element. -/
inductive Xml where
  | node (ns tag : String) (attrs : List (String × String)) (text : Option String)
      (children : List Xml)

namespace Xml

/-- `namespace-uri()`. -/
def ns : Xml → String
  | node ns _ _ _ _ => ns

/-- `local-name()`. -/
def tag : Xml → String
  | node _ tag _ _ _ => tag

/-- `elem.text`. -/
def text : Xml → Option String
  | node _ _ _ text _ => text

/-- `elem.get(name)`. -/
def attr? (name : String) : Xml → Option String
  | node _ _ attrs _ _ => attrs.lookup name

/-- `elem.get(name, default)`. -/
def attr (name default : String) : Xml → String
  | node _ _ attrs _ _ => (attrs.lookup name).getD default

mutual

/-- The descendants of an element, in document order. -/
def descendants : Xml → List Xml
  | node _ _ _ _ children => descendantsOf children

/-- The elements of a list, each followed by its descendants. -/
def descendantsOf : List Xml → List Xml
  | [] => []
  | x :: xs => x :: (descendants x ++ descendantsOf xs)

end

/-- `.//*[local-name()="name"]`. -/
def select (name : String) (x : Xml) : List Xml := x.descendants.filter fun y => y.tag == name

/-- `.//*[namespace-uri()="ns" and local-name()="name"]`. -/
def selectNs (ns name : String) (x : Xml) : List Xml :=
  x.descendants.filter fun y => y.ns == ns && y.tag == name

theorem select_ne_nil_iff {name : String} {x : Xml} :
    x.select name ≠ [] ↔ ∃ y ∈ x.descendants, y.tag = name := by
  simp [select]

theorem selectNs_ne_nil_iff {ns name : String} {x : Xml} :
    x.selectNs ns name ≠ [] ↔ ∃ y ∈ x.descendants, y.ns = ns ∧ y.tag = name := by
  simp [selectNs]

mutual

/-- The descendants of an element, each with its ancestors, the nearest first. -/
def located (up : List Xml) : Xml → List (List Xml × Xml)
  | node ns tag attrs text children =>
    locatedOf (node ns tag attrs text children :: up) children

/-- The elements of a list, each followed by its descendants. -/
def locatedOf (up : List Xml) : List Xml → List (List Xml × Xml)
  | [] => []
  | x :: xs => (up, x) :: (located up x ++ locatedOf up xs)

end

end Xml

end ControlPlane
