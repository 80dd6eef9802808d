import Conformance.Catalog
import Conformance.Proofs.Address.Bits
import Conformance.Proofs.Address.Gaps
import Conformance.Proofs.Union.Ownership

/-! # Internet addresses

A text is accepted if it denotes an address, and what is returned is the text that is written for
this address. It does not depend on how the address has been spelled, so the returned texts tell
addresses apart and are returned unchanged themselves.
-/

namespace Conformance.Catalog

open Address (V4 V6)

/-- A relation between texts and addresses, which are given by their bits. -/
def OnBits {α : Type} {w : Nat} (bits : α → BitVec w) (p : List Char → α → Prop) (s : String)
    (b : BitVec w) : Prop :=
  ∃ x, p s.toList x ∧ bits x = b

/-- Every text of an address becomes the one text that is written for it. -/
structure Canonicalizes {w : Nat} (spec : Spec) (denotes written : String → BitVec w → Prop) :
    Prop where
  denotes_unique : ∀ s b b', denotes s b → denotes s b' → b = b'
  exists_written : ∀ b, ∃! s, written s b
  written_denotes : ∀ s b, written s b → denotes s b
  accepts_iff : ∀ v c, spec.check v = .ok c ↔
    ∃ s t b, v = .str s ∧ c = .str t ∧ denotes s b ∧ written t b
  again : ∀ v c, spec.check v = .ok c → spec.check c = .ok c
  same_iff : ∀ s s' c c', spec.check (.str s) = .ok c → spec.check (.str s') = .ok c' →
    (c = c' ↔ ∃ b, denotes s b ∧ denotes s' b)

section Texts

variable {l : Label} {f : String → Except CanonFault Value} {v c : Value}

def textSpec (l : Label) (f : String → Except CanonFault Value) : Spec :=
  Options.scalar {} (.kind .str) ⟨⟨l, onText expectedText f⟩, false⟩

theorem onText_ok_iff : onText expectedText f v = .ok c ↔ ∃ s, v = .str s ∧ f s = .ok c := by
  cases v with
  | str s => simp [onText, Value.toText?]
  | _ => simp [onText, Value.toText?]

theorem check_textSpec_ok_iff :
    (textSpec l f).check v = .ok c ↔ ∃ s, v = .str s ∧ f s = .ok c := by
  constructor
  · intro h
    rw [textSpec, Spec.check_scalar (by decide), Outcome.bind_ok_iff] at h
    obtain ⟨u, hu, hc⟩ := h
    obtain ⟨u', hu', henforce⟩ := Outcome.bind_ok_iff.mp hu
    obtain ⟨rfl, -⟩ := Atom.check_ok_iff.mp hu'
    obtain ⟨rfl, -⟩ := Constraint.enforce_ok_iff.mp henforce
    exact onText_ok_iff.mp (Canonicalizer.apply_ok_iff.mp hc)
  · rintro ⟨s, rfl, hs⟩
    rw [textSpec, Spec.check_scalar_of_met (by decide) rfl (List.forall_mem_nil _)]
    exact Canonicalizer.apply_ok_iff.mpr (onText_ok_iff.mpr ⟨s, rfl, hs⟩)

end Texts

/-! ## Reading and writing -/

def rewritten {α : Type} (read? : List Char → Option α) (chars : α → List Char) (message : String)
    (s : String) : Except CanonFault Value :=
  match read? s.toList with
  | some x => .ok (.str (String.ofList (chars x)))
  | none => .error (.invalidValue message)

structure Exact {α : Type} {w : Nat} (read? : List Char → Option α) (chars : α → List Char)
    (bits : α → BitVec w) (denotes written : List Char → α → Prop) : Prop where
  read_iff : ∀ cs x, read? cs = some x ↔ denotes cs x
  written_iff : ∀ cs x, written cs x ↔ cs = chars x
  read_chars : ∀ x, read? (chars x) = some x
  bits_bijective : Function.Bijective bits

theorem exact_v4 : Exact V4.read? V4.chars V4.bits V4.Denotes V4.Denotes where
  read_iff _ _ := V4.read?_eq_some_iff
  written_iff _ _ := V4.denotes_iff
  read_chars := V4.read?_chars
  bits_bijective := V4.bits_bijective

theorem exact_v6 : Exact V6.read? V6.chars V6.bits V6.Denotes V6.Written where
  read_iff _ _ := V6.read?_eq_some_iff
  written_iff _ _ := V6.written_iff
  read_chars := V6.read?_chars
  bits_bijective := V6.bits_bijective

section Exact

variable {α : Type} {w : Nat} {read? : List Char → Option α} {chars : α → List Char}
  {bits : α → BitVec w} {denotes written : List Char → α → Prop} {message : String} {l : Label}

theorem rewritten_ok_iff {s : String} {c : Value} :
    rewritten read? chars message s = .ok c ↔
      ∃ x, read? s.toList = some x ∧ c = .str (String.ofList (chars x)) := by
  rw [rewritten]
  cases read? s.toList with
  | none => simp
  | some x => simp [eq_comm]

theorem Exact.denotes_chars (h : Exact read? chars bits denotes written) (x : α) :
    denotes (chars x) x :=
  (h.read_iff _ _).mp (h.read_chars x)

theorem Exact.denotes_unique (h : Exact read? chars bits denotes written) {cs : List Char}
    {x y : α} (hx : denotes cs x) (hy : denotes cs y) : x = y :=
  Option.some.inj (((h.read_iff _ _).mpr hx).symm.trans ((h.read_iff _ _).mpr hy))

theorem Exact.chars_injective (h : Exact read? chars bits denotes written) :
    Function.Injective chars := by
  intro x y hchars
  exact h.denotes_unique (h.denotes_chars x) (hchars ▸ h.denotes_chars y)

theorem Exact.check_ok_iff (h : Exact read? chars bits denotes written) {v c : Value} :
    (textSpec l (rewritten read? chars message)).check v = .ok c ↔
      ∃ s x, v = .str s ∧ denotes s.toList x ∧ c = .str (String.ofList (chars x)) := by
  simp only [check_textSpec_ok_iff, rewritten_ok_iff, h.read_iff, exists_and_left]

theorem Exact.canonicalizes (h : Exact read? chars bits denotes written) :
    Canonicalizes (textSpec l (rewritten read? chars message)) (OnBits bits denotes)
      (OnBits bits written) where
  denotes_unique s b b' := by
    rintro ⟨x, hx, rfl⟩ ⟨y, hy, rfl⟩
    rw [h.denotes_unique hx hy]
  exists_written b := by
    obtain ⟨x, rfl⟩ := h.bits_bijective.surjective b
    refine ⟨String.ofList (chars x), ⟨x, ?_, rfl⟩, ?_⟩
    · rw [h.written_iff, String.toList_ofList]
    · rintro s ⟨y, hy, hbits⟩
      rw [h.written_iff, h.bits_bijective.injective hbits] at hy
      rw [← hy, String.ofList_toList]
  written_denotes s b := by
    rintro ⟨x, hx, rfl⟩
    refine ⟨x, ?_, rfl⟩
    rw [(h.written_iff _ _).mp hx]
    exact h.denotes_chars x
  accepts_iff v c := by
    rw [h.check_ok_iff]
    constructor
    · rintro ⟨s, x, rfl, hx, rfl⟩
      refine ⟨s, _, bits x, rfl, rfl, ⟨x, hx, rfl⟩, x, ?_, rfl⟩
      rw [h.written_iff, String.toList_ofList]
    · rintro ⟨s, t, b, rfl, rfl, ⟨x, hx, rfl⟩, y, hy, hbits⟩
      rw [h.written_iff, h.bits_bijective.injective hbits] at hy
      exact ⟨s, x, rfl, hx, by rw [← hy, String.ofList_toList]⟩
  again v c hc := by
    obtain ⟨s, x, -, -, rfl⟩ := h.check_ok_iff.mp hc
    refine h.check_ok_iff.mpr ⟨_, x, rfl, ?_, rfl⟩
    rw [String.toList_ofList]
    exact h.denotes_chars x
  same_iff s s' c c' hc hc' := by
    obtain ⟨_, x, hs, hx, rfl⟩ := h.check_ok_iff.mp hc
    obtain ⟨_, y, hs', hy, rfl⟩ := h.check_ok_iff.mp hc'
    cases hs
    cases hs'
    constructor
    · intro hsame
      have hxy : x = y := h.chars_injective (String.ofList_inj.mp (Value.str.inj hsame))
      exact ⟨bits x, ⟨x, hx, rfl⟩, y, hy, by rw [hxy]⟩
    · rintro ⟨b, ⟨x', hx', rfl⟩, y', hy', hbits⟩
      rw [h.denotes_unique hx hx', h.denotes_unique hy hy', h.bits_bijective.injective hbits]

end Exact

/-! ## Both versions -/

theorem parseV4_eq : parseV4 = rewritten V4.read? V4.chars "invalid IPv4 address syntax" := by
  funext s
  unfold parseV4 rewritten
  cases V4.read? s.toList <;> rfl

theorem parseV6_eq : parseV6 = rewritten V6.read? V6.chars "invalid IPv6 address syntax" := by
  funext s
  unfold parseV6 rewritten
  cases V6.read? s.toList <;> rfl

/-- Texts of addresses are accepted, of both versions, and nothing else is. What is returned denotes
the same address and is accepted again without a change, and two texts of one address become the
same text. -/
theorem check_addresses (l l' : Label) :
    ∃ v4 v6, ipv4Address l = .ok v4 ∧ ipv6Address l' = .ok v6 ∧
      Canonicalizes v4 (OnBits V4.bits V4.Denotes) (OnBits V4.bits V4.Denotes) ∧
      Canonicalizes v6 (OnBits V6.bits V6.Denotes) (OnBits V6.bits V6.Written) :=
  ⟨textSpec l parseV4, textSpec l' parseV6, rfl, rfl, parseV4_eq ▸ exact_v4.canonicalizes,
    parseV6_eq ▸ exact_v6.canonicalizes⟩

/-- Two spellings of one address, a mapped address, and an octet with a zero in front. -/
theorem check_addresses_spelled :
    ∃ v4 v6, ipv4Address ⟨[0]⟩ = .ok v4 ∧ ipv6Address ⟨[1]⟩ = .ok v6 ∧
      v6.check (.str "1:0:0:2:0:0:0:3") = .ok (.str "1:0:0:2::3") ∧
      v6.check (.str "0001::2:0:0:0:3") = .ok (.str "1:0:0:2::3") ∧
      v6.check (.str "::FFFF:a00:1") = .ok (.str "::ffff:10.0.0.1") ∧
      v4.check (.str "10.0.0.1") = .ok (.str "10.0.0.1") ∧
      ∀ c, v4.check (.str "010.0.0.1") ≠ .ok c := by
  obtain ⟨v4, v6, hv4, hv6, hquads, hgroups⟩ := check_addresses ⟨[0]⟩ ⟨[1]⟩
  have hread : ∀ (s t : String) (x : V6), V6.read? s.toList = some x → t.toList = x.chars →
      v6.check (.str s) = .ok (.str t) := fun s t x hx ht =>
    (hgroups.accepts_iff _ _).mpr ⟨s, t, x.bits, rfl, rfl, ⟨x, V6.read?_eq_some_iff.mp hx, rfl⟩,
      x, V6.written_iff.mpr ht, rfl⟩
  have hquad : V4.Denotes "10.0.0.1".toList ⟨10, 0, 0, 1⟩ := V4.denotes_iff.mpr rfl
  refine ⟨v4, v6, hv4, hv6, hread _ _ ⟨[1, 0, 0, 2, 0, 0, 0, 3], rfl⟩ rfl rfl,
    hread _ _ ⟨[1, 0, 0, 2, 0, 0, 0, 3], rfl⟩ rfl rfl,
    hread _ _ ⟨[0, 0, 0, 0, 0, 0xFFFF, 0xA00, 1], rfl⟩ rfl rfl,
    (hquads.accepts_iff _ _).mpr ⟨_, _, _, rfl, rfl, ⟨_, hquad, rfl⟩, _, hquad, rfl⟩,
    fun c hc => ?_⟩
  obtain ⟨s, t, b, hs, -, ⟨x, hx, -⟩, -⟩ := (hquads.accepts_iff _ _).mp hc
  cases hs
  cases V4.read?_eq_some_iff.mpr hx

end Conformance.Catalog
