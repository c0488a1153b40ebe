/-!
# Source locations

A location names a line of a source. A line that was pulled in by an `include` directive remembers
where that directive stands, and where the directive that pulled in that file stands, up to the root.
-/

namespace Daybook

/-- A line of a source, by path and number. -/
structure Site where
  path : String
  /-- Counted from one. -/
  line : Nat
  deriving DecidableEq, Repr

/-- The path and the number, with a colon between. -/
def Site.text (s : Site) : String := s.path ++ ":" ++ toString s.line

/-- A site, and the sites of the include directives that lead to it, innermost first. -/
structure Location where
  site : Site
  includedFrom : List Site := []
  deriving DecidableEq, Repr

namespace Location

def line (l : Location) : Nat := l.site.line

/-- The site, and each link of the include chain in brackets. -/
def text (l : Location) : String :=
  l.includedFrom.foldl (fun t s => t ++ " (included from " ++ s.text ++ ")") l.site.text

/-- The include chain of a file that the directive at this location pulls in. -/
def chain (l : Location) : List Site := l.site :: l.includedFrom

end Location

end Daybook
