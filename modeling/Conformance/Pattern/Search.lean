import Conformance.Pattern
import Conformance.Pattern.Places

/-! # Searching a text for a pattern

A pattern is laid over a text once, which settles where its characters stand; then whole sets of
places are carried through it. Repetition goes on from the places that are new only, so it ends
after as many rounds as there are places.
-/

namespace Conformance.Pattern

inductive Plan where
  /-- Takes no character, at some places. -/
  | keep (places : Places)
  /-- Takes the character behind a place. -/
  | step (places : Places)
  | seq (a b : Plan)
  | alt (a b : Plan)
  /-- `required` times, then `further` times at most; not to begin at all may be allowed. -/
  | loop (body : Plan) (required further : Nat) (optional : Bool)
deriving DecidableEq

namespace Plan

def iterate (step : Places → Places) : Nat → Places → Places
  | 0, p => p
  | n + 1, p => iterate step n (step p)

/-- The places reached in one to `n` steps, with those `reached` before. No step is made twice from
a place of `tried`. -/
def spread (step : Places → Places) : Nat → (fresh tried reached : Places) → Places
  | 0, _, _, reached => reached
  | n + 1, fresh, tried, reached =>
    let found := step fresh
    let new := found.without tried
    let reached := reached.union found
    if new.isEmpty then reached else spread step n new (tried.union new) reached

/-- The places where a match can end that begins at one of the given places. -/
def advance : Plan → Places → Places
  | .keep m, p => p.inter m
  | .step m, p => (p.inter m).next
  | .seq a b, p => b.advance (a.advance p)
  | .alt a b, p => (a.advance p).union (b.advance p)
  | .loop body required further optional, p =>
    let q := iterate body.advance required p
    spread body.advance further q q (if optional then q else .none)

end Plan

/-- A word, with each of its characters looked for once. -/
def Plan.ofWord (text : List Char) (n : Nat) (word : List Char) : Plan :=
  let found := word.eraseDups.map fun c => (c, Places.before (· == c) text)
  word.foldr (fun c rest => .seq (.step ((found.lookup c).getD .none)) rest) (.keep (.below n))

/-- With the number of places in the text. More steps than that lead nowhere new. -/
def plan (text : List Char) (n : Nat) : Pattern → Plan
  | .empty => .keep (.below n)
  | .start => .keep (.single 0)
  | .finish => .keep (.single (n - 1))
  | .literal word => .ofWord text n word
  | .one k => .step (.before k.mem text)
  | .group _ p => p.plan text n
  | .seq a b => .seq (a.plan text n) (b.plan text n)
  | .alt a b => .alt (a.plan text n) (b.plan text n)
  | .times p least most =>
    let body := p.plan text n
    match least, most with
    | 0, none => .loop body 0 n true
    | least + 1, none => .loop body (min least n) n false
    | least, some most => .loop body (min least n) (min (most - least) n) true

def occursIn (p : Pattern) (s : String) : Bool :=
  let text := s.toList
  let n := text.length + 1
  !((p.plan text n).advance (.below n)).isEmpty

end Conformance.Pattern
