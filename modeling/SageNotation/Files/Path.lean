/-!
Paths as written and as shown.

A path has an anchor and parts.  Reading one drops empty parts and single dots,
so `a//b/./c/` and `a/b/c` are one path; double dots are kept, because what they
lead to is not known from the path alone.  Exactly two leading slashes form an
anchor of their own.
-/

namespace SageNotation

inductive Anchor where
  | relative | root | doubleRoot
  deriving DecidableEq

namespace Anchor

def text : Anchor → String
  | relative => ""
  | root => "/"
  | doubleRoot => "//"

end Anchor

structure Path where
  anchor : Anchor
  parts : List String
  deriving DecidableEq

namespace Path

def anchorOf : List Char → Anchor
  | '/' :: '/' :: '/' :: _ => .root
  | '/' :: '/' :: _ => .doubleRoot
  | '/' :: _ => .root
  | _ => .relative

def pieces (text : String) : List String :=
  (text.toList.splitOn '/').map String.ofList

def ofString (text : String) : Path :=
  { anchor := anchorOf text.toList
    parts := (pieces text).filter fun piece => piece != "" && piece != "." }

def toString (path : Path) : String :=
  if path.anchor = .relative ∧ path.parts = [] then "."
  else path.anchor.text ++ String.intercalate "/" path.parts

def child (path : Path) (name : String) : Path :=
  { path with parts := path.parts ++ [name] }

/-- What paths are ordered by, part by part: the anchor counts as a part. -/
def sortKey (path : Path) : List String :=
  match path.anchor with
  | .relative => path.parts
  | anchor => anchor.text :: path.parts

def partsPrecede : List String → List String → Bool
  | [], _ => true
  | _ :: _, [] => false
  | left :: lefts, right :: rights => left < right || (left == right && partsPrecede lefts rights)

def precedes (left right : Path) : Bool :=
  partsPrecede left.sortKey right.sortKey

end Path

end SageNotation
