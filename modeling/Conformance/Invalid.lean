import Conformance.Value.Render

/-! # Why a value does not conform

An error carries every failure found during one check. A failure may have a place inside the value
and may be explained by an error further in, so errors and failures form one tree.
-/

namespace Conformance

inductive Location where
  | index (i : Nat)
  | key (k : Value)
deriving DecidableEq

def Location.render : Location → String
  | .index i => "[" ++ toString i ++ "]"
  | .key (.str s) => s
  | .key k => "[" ++ k.render ++ "]"

mutual

inductive Invalid where
  /-- The value is not of the type at all, and a union may try its next member. -/
  | mismatch (message : String)
  | simple (message : String)
  | wrapped (context : String) (cause : Invalid)
  /-- Several failures under one summary; there is at least one. -/
  | aggregate (summary : String) (first : Failure) (rest : List Failure)

inductive Failure where
  | leaf (location : Option Location) (message : String)
  | caused (location : Option Location) (context : String) (cause : Invalid)

end

instance : Inhabited Invalid := ⟨.simple ""⟩

/-- Each line of a failure after its first is set below the first. -/
def indent : List Char → List Char
  | [] => []
  | c :: rest => if c = '\n' then '\n' :: ' ' :: ' ' :: ' ' :: indent rest else c :: indent rest

mutual

def Invalid.render : Invalid → String
  | .mismatch m => m
  | .simple m => m
  | .wrapped context cause => context ++ ": " ++ cause.render
  | .aggregate summary first rest => summary ++ ":" ++ first.bullet ++ bullets rest

def Failure.bullet : Failure → String
  | .leaf _ m => "\n-- " ++ String.ofList (indent m.toList)
  | .caused _ context cause =>
    "\n-- " ++ String.ofList (indent (context ++ ": " ++ cause.render).toList)

def bullets : List Failure → String
  | [] => ""
  | f :: rest => f.bullet ++ bullets rest

end

namespace Failure

def location : Failure → Option Location
  | .leaf l _ => l
  | .caused l _ _ => l

def cause : Failure → Option Invalid
  | .leaf _ _ => none
  | .caused _ _ e => some e

/-- The message of a failure that is explained includes the explanation. -/
def message : Failure → String
  | .leaf _ m => m
  | .caused _ context cause => context ++ ": " ++ cause.render

theorem bullet_eq (f : Failure) :
    f.bullet = "\n-- " ++ String.ofList (indent f.message.toList) := by
  cases f <;> simp [bullet, message]

end Failure

namespace Invalid

/-- Several failures under one summary; with none of them there is only the summary. -/
def ofFailures (summary : String) : List Failure → Invalid
  | [] => .simple summary
  | f :: rest => .aggregate summary f rest

def summary : Invalid → String
  | .aggregate s _ _ => s
  | e => e.render

def failures : Invalid → List Failure
  | .mismatch m => [.leaf none m]
  | .simple m => [.leaf none m]
  | .wrapped context cause => [.caused none context cause]
  | .aggregate _ first rest => first :: rest

def isAggregate : Invalid → Bool
  | .aggregate _ _ _ => true
  | _ => false

def isMismatch : Invalid → Bool
  | .mismatch _ => true
  | _ => false

def messages (e : Invalid) : List String := e.failures.map Failure.message

theorem failures_ne_nil (e : Invalid) : e.failures ≠ [] := by
  cases e <;> simp [failures]

end Invalid

end Conformance
