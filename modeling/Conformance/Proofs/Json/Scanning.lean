import Conformance.Proofs.Decimal.Digits
import Conformance.Proofs.Json.Tree

/-! # Written text comes apart into tokens

A number or a word ends only where something else begins, so between two tokens the reader may still
be inside the first of them. Punctuation ends it, and no tree is written without punctuation between
two numbers or words.
-/

namespace Conformance

namespace Json

theorem isWhole_toDigits (n : Nat) : isWhole (Nat.toDigits 10 n) = true := by
  by_cases hn : n = 0
  · subst hn
    rfl
  · have hhead := Decimal.head_toDigits hn
    unfold isWhole
    split
    · next hnil => exact absurd hnil Nat.toDigits_ne_nil
    · next hzero =>
      rw [hzero] at hhead
      exact absurd rfl hhead
    · rfl

/-! ## Integers -/

section Digits

variable {digits : List Char} (digit : ∀ c ∈ digits, Decimal.isAsciiDigit c = true)
  (whole : isWhole digits = true) (fits : Decimal.ofDigits digits < unsignedLimit)
include digit whole fits

theorem Number.read?_minus_digits :
    Number.read? ('-' :: digits) = some (integer true (Decimal.ofDigits digits)) := by
  have htake := List.takeWhile_eq_self_iff.mpr digit
  have hdrop := List.dropWhile_eq_nil_iff.mpr digit
  simp [Number.read?, htake, hdrop, whole, fits]

theorem Number.read?_digits :
    Number.read? digits = some (integer false (Decimal.ofDigits digits)) := by
  have htake := List.takeWhile_eq_self_iff.mpr digit
  have hdrop := List.dropWhile_eq_nil_iff.mpr digit
  have hsign : ∀ rest, digits ≠ '-' :: rest := by
    rintro rest rfl
    exact absurd (digit '-' List.mem_cons_self) (by decide)
  simp [Number.read?, htake, hdrop, whole, fits]

end Digits

theorem intChars_of_neg {i : Int64} (h : i < 0) :
    intChars i = '-' :: Nat.toDigits 10 (-i.toInt).toNat := by
  have hneg : ¬ 0 ≤ i.toInt := by
    rw [Int64.lt_iff_toInt_lt] at h
    exact Int.not_le.mpr h
  have hrepr : toString i.toInt = i.toInt.repr := rfl
  rw [intChars, hrepr, Int.repr_eq_if, if_neg hneg, String.toList_append, Nat.toList_repr]
  rfl

/-- An integer in the one form that it has: a natural, or negative. -/
def Number.IsInteger : Number → Prop
  | .unsigned _ => True
  | .negative i => i < 0
  | .float _ => False

/-- An integer is written as a row of digits, maybe behind a minus sign. -/
theorem Number.exists_digits {n : Number} (h : n.IsInteger) :
    ∃ k, k < unsignedLimit ∧
      ((n.chars = Nat.toDigits 10 k ∧ integer false k = n) ∨
        (n.chars = '-' :: Nat.toDigits 10 k ∧ integer true k = n)) := by
  cases n with
  | unsigned n =>
    refine ⟨n.toNat, n.toNat_lt, .inl ⟨?_, ?_⟩⟩
    · rw [Number.chars, Nat.toString_eq_repr, Nat.toList_repr]
    · simp [integer]
  | negative i =>
    have hlt : i.toInt < 0 := Int64.lt_iff_toInt_lt.mp h
    have hle : -2 ^ 63 ≤ i.toInt := Int64.le_toInt i
    refine ⟨(-i.toInt).toNat, ?_, .inr ⟨intChars_of_neg h, ?_⟩⟩
    · rw [unsignedLimit]
      omega
    · have hback : Int64.ofInt (-((-i.toInt).toNat : Int)) = i := by
        rw [Int.toNat_of_nonneg (by omega), Int.neg_neg, Int64.ofInt_toInt]
      have hzero : (-i.toInt).toNat ≠ 0 := by omega
      have hfits : (-i.toInt).toNat ≤ Decimal.maxInteger + 1 := by
        rw [Decimal.maxInteger]
        omega
      rw [integer, if_neg (by decide), if_neg, hback]
      simp only [Bool.or_eq_true, decide_eq_true_eq]
      omega
  | float x => exact h.elim

theorem Number.read?_chars {n : Number} (h : n.IsInteger) : Number.read? n.chars = some n := by
  obtain ⟨k, hk, ⟨hchars, hn⟩ | ⟨hchars, hn⟩⟩ := exists_digits h
  · rw [hchars, read?_digits (fun _ => Decimal.isAsciiDigit_of_mem) (isWhole_toDigits k)
      (by rwa [Decimal.ofDigits_toDigits]), Decimal.ofDigits_toDigits, hn]
  · rw [hchars, read?_minus_digits (fun _ => Decimal.isAsciiDigit_of_mem) (isWhole_toDigits k)
      (by rwa [Decimal.ofDigits_toDigits]), Decimal.ofDigits_toDigits, hn]

namespace Token

/-! ## Texts -/

theorem hexDigit?_lowHex (n : Nat) : hexDigit? (lowHex n) = some (n % 16) := by
  have hdigits : ∀ d < 16, hexDigit? (Nat.digitChar d) = some d := by decide
  exact hdigits (n % 16) (Nat.mod_lt n (by omega))

theorem mem_of_lookup {α : Type} {c : Char} {a : α} {table : List (Char × α)}
    (h : table.lookup c = some a) : (c, a) ∈ table := by
  obtain ⟨front, rest, rfl, -⟩ := List.lookup_eq_some_iff.mp h
  exact List.mem_append_right front List.mem_cons_self

theorem escape_of_controlEscape {c d : Char} (h : controlEscapes.lookup c = some d) :
    d ≠ 'u' ∧ escapes.lookup d = some c := by
  have hall : ∀ e ∈ controlEscapes, e.2 ≠ 'u' ∧ escapes.lookup e.2 = some e.1 := by decide
  exact hall (c, d) (mem_of_lookup h)

section Texts

variable (tokens : List Token) (read : List Char)

/-- A control character without a letter of its own has four digits, of which two are needed. -/
theorem foldlM_step_hex {c : Char} (h : c.toNat < 0x20) :
    ['\\', 'u', '0', '0', lowHex (c.toNat / 16), lowHex c.toNat].foldlM step ⟨tokens, .text read⟩ =
      some ⟨tokens, .text (c :: read)⟩ := by
  have hvalue : 16 * (c.toNat / 16 % 16) + c.toNat % 16 = c.toNat := by omega
  have hclose : closeHex read none c.toNat = some (.text (c :: read)) := by
    have hhigh : ¬ (0xD800 ≤ c.toNat ∧ c.toNat ≤ 0xDBFF) := by omega
    have hlow : ¬ (0xDC00 ≤ c.toNat ∧ c.toNat ≤ 0xDFFF) := by omega
    simp [closeHex, hhigh, hlow]
  have hthird : step ⟨tokens, .hex read none 2 0⟩ (lowHex (c.toNat / 16)) =
      some ⟨tokens, .hex read none 3 (c.toNat / 16 % 16)⟩ := by
    simp [step, hexDigit?_lowHex]
  have hlast : step ⟨tokens, .hex read none 3 (c.toNat / 16 % 16)⟩ (lowHex c.toNat) =
      some ⟨tokens, .text (c :: read)⟩ := by
    simp [step, hexDigit?_lowHex, hvalue, hclose]
  calc
    _ = [lowHex (c.toNat / 16), lowHex c.toNat].foldlM step ⟨tokens, .hex read none 2 0⟩ := rfl
    _ = some ⟨tokens, .text (c :: read)⟩ := by
      rw [List.foldlM_cons, hthird, Option.bind_eq_bind, Option.bind_some, List.foldlM_cons, hlast]
      rfl

theorem foldlM_step_escapeChar (c : Char) :
    (escapeChar c).foldlM step ⟨tokens, .text read⟩ = some ⟨tokens, .text (c :: read)⟩ := by
  rw [escapeChar]
  by_cases hquote : c = '"'
  · subst hquote
    rfl
  rw [if_neg hquote]
  by_cases hslash : c = '\\'
  · subst hslash
    rfl
  rw [if_neg hslash]
  split
  · next d hd =>
    obtain ⟨hu, hescape⟩ := escape_of_controlEscape hd
    simp [step, inText, inEscape, hu, hescape]
  · by_cases hcontrol : c.toNat < 0x20
    · rw [if_pos hcontrol]
      exact foldlM_step_hex tokens read hcontrol
    · simp [step, inText, hquote, hslash, hcontrol]

theorem foldlM_step_escaped (cs : List Char) :
    (cs.flatMap escapeChar).foldlM step ⟨tokens, .text read⟩ =
      some ⟨tokens, .text (cs.reverse ++ read)⟩ := by
  induction cs generalizing read with
  | nil => rfl
  | cons c rest ih =>
    rw [List.flatMap_cons, List.foldlM_append, foldlM_step_escapeChar, Option.bind_eq_bind,
      Option.bind_some, ih, List.reverse_cons, List.append_assoc, List.singleton_append]

theorem foldlM_step_quote (s : String) :
    (quote s).foldlM step ⟨tokens, .between⟩ = some ⟨.string s :: tokens, .between⟩ := by
  have hopen : step ⟨tokens, .between⟩ '"' = some ⟨tokens, .text []⟩ := rfl
  have hclose : step ⟨tokens, .text (s.toList.reverse ++ [])⟩ '"' =
      some ⟨.string s :: tokens, .between⟩ := by
    simp [step, inText]
  rw [quote, List.cons_append, List.foldlM_cons, hopen, Option.bind_eq_bind, Option.bind_some,
    List.foldlM_append, foldlM_step_escaped, Option.bind_eq_bind, Option.bind_some,
    List.foldlM_cons, hclose]
  rfl

end Texts

/-! ## One token after the other -/

/-- All tokens are complete, and the reader is inside of nothing. -/
def State.Fresh (s : State) (tokens : List Token) : Prop := s = ⟨tokens, .between⟩

/-- All tokens are complete, if the text ends here or goes on with punctuation. -/
structure State.Ends (s : State) (tokens : List Token) : Prop where
  finish : finish s = some tokens.reverse
  next : ∀ c t, punctuation.lookup c = some t → step s c = some ⟨t :: tokens, .between⟩

theorem State.Fresh.ends {s : State} {tokens : List Token} (h : s.Fresh tokens) :
    s.Ends tokens := by
  subst h
  refine ⟨rfl, fun c t hc => ?_⟩
  simp [step, between, hc]

/-- Whatever tokens there are before, the characters add the tokens `ts` to them. -/
def Reads (Before : State → List Token → Prop) (cs : List Char) (ts : List Token) : Prop :=
  ∀ s tokens, Before s tokens →
    ∃ s', cs.foldlM step s = some s' ∧ s'.Ends (ts.reverse ++ tokens)

section Reads

variable {Before : State → List Token → Prop} {cs cs' : List Char} {ts ts' : List Token} {c : Char}
  {t : Token}

theorem reads_nil : Reads State.Ends [] [] := fun s _ h => ⟨s, rfl, h⟩

theorem Reads.fresh (h : Reads State.Ends cs ts) : Reads State.Fresh cs ts :=
  fun s tokens hs => h s tokens hs.ends

theorem Reads.append (h : Reads Before cs ts) (h' : Reads State.Ends cs' ts') :
    Reads Before (cs ++ cs') (ts ++ ts') := by
  intro s tokens hs
  obtain ⟨mid, hmid, hends⟩ := h s tokens hs
  obtain ⟨s', hs', hends'⟩ := h' mid _ hends
  refine ⟨s', ?_, ?_⟩
  · rw [List.foldlM_append, hmid]
    exact hs'
  · rwa [List.reverse_append, List.append_assoc]

theorem Reads.punctuated (h : Reads State.Fresh cs ts) (hc : punctuation.lookup c = some t) :
    Reads State.Ends (c :: cs) (t :: ts) := by
  intro s tokens hs
  obtain ⟨s', hs', hends⟩ := h _ (t :: tokens) rfl
  refine ⟨s', ?_, ?_⟩
  · rw [List.foldlM_cons, hs.next c t hc]
    exact hs'
  · rwa [List.reverse_cons, List.append_assoc]

theorem reads_quote (s : String) : Reads State.Fresh (quote s) [.string s] := by
  rintro _ tokens rfl
  exact ⟨_, foldlM_step_quote tokens s, State.Fresh.ends rfl⟩

end Reads

/-! ## Numbers and words -/

/-- A mode in which characters of one class are collected, for a token that is made of all of
them. -/
structure Collects (mode : List Char → Mode) (isPart : Char → Bool)
    (token? : List Char → Option Token) : Prop where
  stays : ∀ tokens read c, isPart c = true →
    step ⟨tokens, mode read⟩ c = some ⟨tokens, mode (c :: read)⟩
  leaves : ∀ tokens read c, isPart c = false →
    step ⟨tokens, mode read⟩ c = (token? read.reverse).bind fun t => between (t :: tokens) c
  finish : ∀ tokens read,
    finish ⟨tokens, mode read⟩ = (token? read.reverse).map fun t => (t :: tokens).reverse
  apart : ∀ e ∈ punctuation, isPart e.1 = false

theorem collects_number :
    Collects .number isNumeric fun cs => (Number.read? cs).map Token.number where
  stays _ _ _ h := if_pos h
  leaves tokens read c h := by
    have hstep : step ⟨tokens, .number read⟩ c =
        (Number.read? read.reverse).bind fun n => between (.number n :: tokens) c :=
      if_neg (Bool.eq_false_iff.mp h)
    rw [hstep, Option.bind_map]
    rfl
  finish tokens read := by
    rw [Option.map_map]
    rfl
  apart := by decide

theorem collects_word : Collects .word isLetter ofWord? where
  stays _ _ _ h := if_pos h
  leaves _ _ _ h := if_neg (Bool.eq_false_iff.mp h)
  finish _ _ := rfl
  apart := by decide

section Collects

variable {mode : List Char → Mode} {isPart : Char → Bool} {token? : List Char → Option Token}
  {cs : List Char} {t : Token}

theorem Collects.foldlM_step (h : Collects mode isPart token?) (hcs : ∀ c ∈ cs, isPart c = true)
    (tokens : List Token) (read : List Char) :
    cs.foldlM step ⟨tokens, mode read⟩ = some ⟨tokens, mode (cs.reverse ++ read)⟩ := by
  induction cs generalizing read with
  | nil => rfl
  | cons c rest ih =>
    obtain ⟨hc, hrest⟩ := List.forall_mem_cons.mp hcs
    rw [List.foldlM_cons, h.stays tokens read c hc, Option.bind_eq_bind, Option.bind_some,
      ih hrest, List.reverse_cons, List.append_assoc, List.singleton_append]

theorem Collects.ends (h : Collects mode isPart token?) (tokens : List Token)
    (ht : token? cs = some t) : State.Ends ⟨tokens, mode cs.reverse⟩ (t :: tokens) where
  finish := by rw [h.finish, List.reverse_reverse, ht, Option.map_some]
  next c u hc := by
    have hleaves := h.leaves tokens cs.reverse c (h.apart (c, u) (mem_of_lookup hc))
    rw [hleaves, List.reverse_reverse, ht, Option.bind_some, between, hc]

theorem Collects.reads (h : Collects mode isPart token?) {c : Char}
    (first : ∀ tokens, between tokens c = some ⟨tokens, mode [c]⟩)
    (hcs : ∀ d ∈ cs, isPart d = true) (ht : token? (c :: cs) = some t) :
    Reads State.Fresh (c :: cs) [t] := by
  rintro _ tokens rfl
  have hfirst : step ⟨tokens, .between⟩ c = some ⟨tokens, mode [c]⟩ := first tokens
  have hends := h.ends tokens ht
  rw [List.reverse_cons] at hends
  refine ⟨_, ?_, hends⟩
  rw [List.foldlM_cons, hfirst, Option.bind_eq_bind, Option.bind_some, h.foldlM_step hcs]

end Collects

theorem reads_null : Reads State.Fresh "null".toList [.null] := by
  have hletters : ∀ c ∈ ['u', 'l', 'l'], isLetter c = true := List.all_eq_true.mp rfl
  exact collects_word.reads (fun _ => rfl) hletters rfl

theorem reads_bool (b : Bool) : Reads State.Fresh (boolChars b) [.bool b] := by
  cases b with
  | false =>
    have hletters : ∀ c ∈ ['a', 'l', 's', 'e'], isLetter c = true := List.all_eq_true.mp rfl
    exact collects_word.reads (fun _ => rfl) hletters rfl
  | true =>
    have hletters : ∀ c ∈ ['r', 'u', 'e'], isLetter c = true := List.all_eq_true.mp rfl
    exact collects_word.reads (fun _ => rfl) hletters rfl

theorem isNumeric_of_digit {c : Char} (h : Decimal.isAsciiDigit c = true) :
    isNumeric c = true := by
  simp [isNumeric, h]

theorem between_of_digit {c : Char} (h : Decimal.isAsciiDigit c = true) (tokens : List Token) :
    between tokens c = some ⟨tokens, .number [c]⟩ := by
  have hlookup : punctuation.lookup c = none := by
    refine Option.eq_none_iff_forall_ne_some.mpr fun t ht => ?_
    have hapart := collects_number.apart (c, t) (mem_of_lookup ht)
    rw [isNumeric_of_digit h] at hapart
    cases hapart
  have hother : ∀ d, Decimal.isAsciiDigit d = false → c ≠ d := by
    rintro d hd rfl
    rw [h] at hd
    cases hd
  have hblank : isBlank c = false := by
    simp [isBlank, hother ' ' rfl, hother '\t' rfl, hother '\n' rfl, hother '\r' rfl]
  simp [between, hlookup, hblank, hother '"' rfl, h]

theorem reads_number {n : Number} (h : n.IsInteger) : Reads State.Fresh n.chars [.number n] := by
  have hread : (Number.read? n.chars).map Token.number = some (.number n) := by
    rw [Number.read?_chars h]
    rfl
  -- What opens a number is a digit in one form and the minus sign in the other.
  obtain ⟨k, -, ⟨hchars, -⟩ | ⟨hchars, -⟩⟩ := Number.exists_digits h
  · have hdigit : ∀ c ∈ n.chars, Decimal.isAsciiDigit c = true := by
      rw [hchars]
      exact fun _ => Decimal.isAsciiDigit_of_mem
    cases hcs : n.chars with
    | nil => exact absurd (hchars.symm.trans hcs) Nat.toDigits_ne_nil
    | cons c rest =>
      rw [hcs] at hdigit hread
      obtain ⟨hc, hrest⟩ := List.forall_mem_cons.mp hdigit
      exact collects_number.reads (between_of_digit hc)
        (fun d hd => isNumeric_of_digit (hrest d hd)) hread
  · rw [hchars] at hread ⊢
    exact collects_number.reads (fun _ => rfl)
      (fun d hd => isNumeric_of_digit (Decimal.isAsciiDigit_of_mem hd)) hread

end Token

/-! ## Trees -/

/-- The tree itself, whatever its parts are, is no number but an integer. -/
def Whole : Json → Prop
  | .number n => n.IsInteger
  | _ => True

def OnlyIntegers (j : Json) : Prop := ∀ k, j.Reaches k → k.Whole

theorem onlyIntegers_iff {j : Json} :
    j.OnlyIntegers ↔ j.Whole ∧ ∀ k ∈ j.parts, k.OnlyIntegers :=
  Value.forall_reflTransGen_iff

theorem OnlyIntegers.members {members : List (String × Json)}
    (h : (object members).OnlyIntegers) : ∀ m ∈ members, m.2.OnlyIntegers := fun m hm =>
  (onlyIntegers_iff.mp h).2 m.2 (List.mem_map_of_mem hm)

mutual

def tokens : Json → List Token
  | .null => [.null]
  | .bool b => [.bool b]
  | .number n => [.number n]
  | .string s => [.string s]
  | .array items => .openArray :: itemTokens items ++ [.closeArray]
  | .object members => .openObject :: memberTokens members ++ [.closeObject]

def itemTokens : List Json → List Token
  | [] => []
  | j :: rest => tokens j ++ moreItemTokens rest

def moreItemTokens : List Json → List Token
  | [] => []
  | j :: rest => .comma :: tokens j ++ moreItemTokens rest

def memberTokens : List (String × Json) → List Token
  | [] => []
  | (name, j) :: rest => [.string name] ++ .colon :: tokens j ++ moreMemberTokens rest

def moreMemberTokens : List (String × Json) → List Token
  | [] => []
  | (name, j) :: rest => .comma :: [.string name] ++ .colon :: tokens j ++ moreMemberTokens rest

end

open Token (Reads State.Fresh State.Ends reads_nil)

mutual

theorem reads_chars : (j : Json) → j.OnlyIntegers → Reads State.Fresh j.chars j.tokens
  | .null, _ => Token.reads_null
  | .bool b, _ => Token.reads_bool b
  | .number _, h => Token.reads_number (onlyIntegers_iff.mp h).1
  | .string s, _ => Token.reads_quote s
  | .array items, h => by
    have hitems := reads_itemChars items (onlyIntegers_iff.mp h).2
    have hopen : Reads State.Ends ('[' :: itemChars items) (.openArray :: itemTokens items) :=
      hitems.punctuated rfl
    have hclose : Reads State.Ends [']'] [.closeArray] := reads_nil.fresh.punctuated rfl
    exact hopen.fresh.append hclose
  | .object members, h => by
    have hmembers := reads_memberChars members h.members
    have hopen : Reads State.Ends ('\x7b' :: memberChars members)
        (.openObject :: memberTokens members) := hmembers.punctuated rfl
    have hclose : Reads State.Ends ['\x7d'] [.closeObject] := reads_nil.fresh.punctuated rfl
    exact hopen.fresh.append hclose

theorem reads_itemChars : (items : List Json) → (∀ j ∈ items, j.OnlyIntegers) →
    Reads State.Fresh (itemChars items) (itemTokens items)
  | [], _ => reads_nil.fresh
  | j :: rest, h => by
    obtain ⟨hj, hrest⟩ := List.forall_mem_cons.mp h
    exact (reads_chars j hj).append (reads_moreItemChars rest hrest)

theorem reads_moreItemChars : (items : List Json) → (∀ j ∈ items, j.OnlyIntegers) →
    Reads State.Ends (moreItemChars items) (moreItemTokens items)
  | [], _ => reads_nil
  | j :: rest, h => by
    obtain ⟨hj, hrest⟩ := List.forall_mem_cons.mp h
    have hcomma : Reads State.Ends (',' :: j.chars) (.comma :: j.tokens) :=
      (reads_chars j hj).punctuated rfl
    exact hcomma.append (reads_moreItemChars rest hrest)

theorem reads_memberChars : (members : List (String × Json)) →
    (∀ m ∈ members, m.2.OnlyIntegers) →
    Reads State.Fresh (memberChars members) (memberTokens members)
  | [], _ => reads_nil.fresh
  | (name, j) :: rest, h => by
    obtain ⟨hj, hrest⟩ := List.forall_mem_cons.mp h
    have hcolon : Reads State.Ends (':' :: j.chars) (.colon :: j.tokens) :=
      (reads_chars j hj).punctuated rfl
    exact ((Token.reads_quote name).append hcolon).append (reads_moreMemberChars rest hrest)

theorem reads_moreMemberChars : (members : List (String × Json)) →
    (∀ m ∈ members, m.2.OnlyIntegers) →
    Reads State.Ends (moreMemberChars members) (moreMemberTokens members)
  | [], _ => reads_nil
  | (name, j) :: rest, h => by
    obtain ⟨hj, hrest⟩ := List.forall_mem_cons.mp h
    have hname : Reads State.Ends (',' :: quote name) (.comma :: [.string name]) :=
      (Token.reads_quote name).punctuated rfl
    have hcolon : Reads State.Ends (':' :: j.chars) (.colon :: j.tokens) :=
      (reads_chars j hj).punctuated rfl
    exact (hname.append hcolon).append (reads_moreMemberChars rest hrest)

end

/-- The text of a tree whose numbers are integers is read into the tokens of the tree. -/
theorem read?_chars {j : Json} (h : j.OnlyIntegers) : Token.read? j.chars = some j.tokens := by
  obtain ⟨s, hs, hends⟩ := reads_chars j h _ [] rfl
  rw [Token.read?, hs, Option.bind_some, hends.finish, List.append_nil, List.reverse_reverse]

end Json

end Conformance
