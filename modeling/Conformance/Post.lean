import Conformance.Callback
import Conformance.Outcome
import Conformance.Value.Collection

/-! # Rules on a mapping whose entries conform -/

namespace Conformance

open Value (Entries)

inductive PostAction where
  /-- The first reference key gets a new value, if the gate is open. -/
  | update (compute : Callback (List Value → Value)) (gate : Option (Callback (List Value → Bool)))
  | test (holds : Callback (List Value → Bool)) (message : String)

/-- A rule has at least one reference key. -/
structure Post where
  first : Value
  others : List Value
  action : PostAction

namespace PostAction

def sameGate : Option (Callback (List Value → Bool)) → Option (Callback (List Value → Bool)) → Bool
  | none, none => true
  | some f, some g => f.same g
  | _, _ => false

def same : PostAction → PostAction → Bool
  | .update f g, .update f' g' => f.same f' && sameGate g g'
  | .test f m, .test f' m' => f.same f' && m == m'
  | _, _ => false

end PostAction

namespace Post

def refKeys (p : Post) : List Value := p.first :: p.others

def same (p q : Post) : Bool := p.refKeys == q.refKeys && p.action.same q.action

def sameAll : List Post → List Post → Bool
  | [], [] => true
  | p :: ps, q :: qs => p.same q && sameAll ps qs
  | _, _ => false

def missing (p : Post) (m : Entries) : List Value :=
  p.refKeys.filter fun k => (Entries.get? k m).isNone

def values (p : Post) (m : Entries) : List Value :=
  p.refKeys.filterMap fun k => Entries.get? k m

def isOpen (gate : Option (Callback (List Value → Bool))) (vs : List Value) : Bool :=
  match gate with
  | none => true
  | some g => g.run vs

def apply (p : Post) (m : Entries) : Except String Entries :=
  if p.missing m ≠ [] then .error ("Missing ref_keys " ++ Value.renderAll (p.missing m))
  else
    match p.action with
    | .update compute gate =>
      if isOpen gate (p.values m) then .ok (Entries.insert p.first (compute.run (p.values m)) m)
      else .ok m
    | .test holds message => if holds.run (p.values m) then .ok m else .error message

/-- All rules one after the other; one that fails leaves the mapping as it is. -/
def applyAll : List Post → Entries → List Failure × Entries
  | [], m => ([], m)
  | p :: rest, m =>
    match p.apply m with
    | .ok m' => applyAll rest m'
    | .error text =>
      let (failures, m') := applyAll rest m
      (.leaf none text :: failures, m')

end Post

end Conformance
