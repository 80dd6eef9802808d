import Conformance.Invalid

/-! # Leaf failures with their paths -/

namespace Conformance

/-- A path such as `servers[1].host`; the checked value itself has the empty path. -/
structure Issue where
  path : String
  message : String
deriving DecidableEq

def Issue.render (i : Issue) : String :=
  if i.path = "" then i.message else i.path ++ ": " ++ i.message

/-- A textual key is set off by a point unless it begins the path. -/
def joinPath (path : String) : Location → String
  | .key (.str s) => if path = "" then s else path ++ "." ++ s
  | l => path ++ l.render

def extendPath (path : String) : Option Location → String
  | none => path
  | some l => joinPath path l

mutual

def Invalid.issuesAt (path : String) : Invalid → List Issue
  | .mismatch m => [⟨path, m⟩]
  | .simple m => [⟨path, m⟩]
  | .wrapped _ cause => cause.issuesAt path
  | .aggregate _ first rest => first.issuesAt path ++ failureIssues path rest

def Failure.issuesAt (path : String) : Failure → List Issue
  | .leaf l m => [⟨extendPath path l, m⟩]
  | .caused l _ cause => cause.issuesAt (extendPath path l)

def failureIssues (path : String) : List Failure → List Issue
  | [] => []
  | f :: rest => f.issuesAt path ++ failureIssues path rest

end

/-- Failures without a further cause, left to right and depth first. -/
def Invalid.issues (e : Invalid) : List Issue := e.issuesAt ""

end Conformance
