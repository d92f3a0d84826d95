import Scaffold.Text.Basic

/-! Paths as written: a path is a text, and nothing in it is resolved or tidied up. Its parts
lie between the slashes; an empty part, and a dot that does not come first, count for nothing
when paths are compared or cut. -/

namespace Scaffold

/-- A path as written. -/
structure Path where
  text : Text
  deriving DecidableEq, Repr

instance : Coe String Path := ⟨fun s => ⟨s.toList⟩⟩

namespace Path

/-- A part of a path that counts. -/
inductive Component where
  | root
  | here
  | up
  | name (text : Text)
  deriving DecidableEq, Repr

def isAbsolute (p : Path) : Bool :=
  p.text.head? == some '/'

/-- Write one path behind another: an absolute second path replaces the first. -/
def join (p q : Path) : Path :=
  if q.isAbsolute then q
  else if p.text.isEmpty || p.text.getLast? == some '/' then ⟨p.text ++ q.text⟩
  else ⟨p.text ++ '/' :: q.text⟩

/-! ### Parts -/

/-- Whether a part counts for nothing. -/
def isIdle (part : Text) : Bool :=
  part.isEmpty || part == ['.']

/-- The component of a part between slashes. -/
def component? (part : Text) : Option Component :=
  if isIdle part then none
  else if part = ("..": Text) then some .up
  else some (.name part)

/-- What comes before the parts: the slash of an absolute path, or a dot that comes first. -/
def front (p : Path) : Text :=
  match p.text with
  | '/' :: _ => ['/']
  | ['.'] => ['.']
  | '.' :: '/' :: _ => ['.']
  | _ => []

/-- The parts between the slashes, behind the front. -/
def parts (p : Path) : List Text :=
  Text.splitOn '/' (p.text.drop p.front.length)

/-- The component that the front stands for. -/
def frontComponents (p : Path) : List Component :=
  if p.front = ['/'] then [.root] else if p.front = ['.'] then [.here] else []

/-- The components of a path; two paths are taken for the same if these agree. -/
def components (p : Path) : List Component :=
  p.frontComponents ++ p.parts.filterMap component?

/-- Write parts with slashes between them, without idle parts at the end. -/
def ofParts (front : Text) (parts : List Text) : Path :=
  ⟨front ++ Text.join ['/'] (parts.reverse.dropWhile isIdle).reverse⟩

/-! ### Ancestors -/

/-- The paths above the given parts, which are listed last first. -/
def ancestorsOf (front : Text) : List Text → List Path
  | [] => if front = ['.'] then [⟨[]⟩] else []
  | part :: before =>
    if isIdle part then ancestorsOf front before
    else ofParts front before.reverse :: ancestorsOf front before

/-- The paths above a path, nearest first. -/
def properAncestors (p : Path) : List Path :=
  ancestorsOf p.front p.parts.reverse

/-- The path without its last component. -/
def parent? (p : Path) : Option Path :=
  p.properAncestors.head?

/-- A path and the paths above it, nearest first. -/
def ancestors (p : Path) : List Path :=
  p :: p.properAncestors

/-! ### Relative paths -/

/-- Drop parts up to and with the given number of components. -/
def dropComponents : Nat → List Text → List Text
  | _, [] => []
  | 0, parts => parts
  | n + 1, part :: parts =>
    if isIdle part then dropComponents (n + 1) parts else dropComponents n parts

/-- What is left of a path behind another one, if its components start with those of the
other. Parts that count for nothing are kept inside and dropped at both ends. -/
def stripPrefix? (base p : Path) : Option Path :=
  if base.components.isPrefixOf p.components then
    let n := base.components.length
    if n = 0 then some (ofParts p.front p.parts)
    else
      some (ofParts [] ((dropComponents (n - p.frontComponents.length) p.parts).dropWhile isIdle))
  else none

/-- The path seen from a directory, or the whole path if it does not lie below. -/
def relativeTo (base p : Path) : Path :=
  (stripPrefix? base p).getD p

/-- The text of a component. -/
def Component.text : Component → Text
  | .root => ['/']
  | .here => ['.']
  | .up => ['.', '.']
  | .name t => t

/-- The path as seen from the root, where `here` is the working directory: idle parts go, and
a slash at the end stays. The empty path stays empty. -/
def absolute (here p : Path) : Path :=
  if p.text.isEmpty then p
  else
    let twoSlashes := p.text.take 2 == ['/', '/'] && p.text[2]? != some '/'
    let start : Path := if twoSlashes then "//" else if p.isAbsolute then "/" else here
    let named := p.parts.filterMap component?
    let whole := named.foldl (fun acc c => acc.join ⟨c.text⟩) start
    if p.text.getLast? == some '/' then whole.join ⟨[]⟩ else whole

end Path
end Scaffold
