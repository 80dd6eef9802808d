import Conformance.Proofs.Stable.Mapping

/-! # The output of a plain specification is stable -/

namespace Conformance

open Value (Entries)

theorem Rule.canonicalize_of_plain {r : Rule} (h : r.Plain) (v : Value) :
    r.canonicalize v = .ok v := by
  cases r with
  | scalar a c =>
    obtain rfl : c = none := h
    rfl
  | enum members c =>
    obtain rfl : c = none := h
    rfl
  | _ => rfl

theorem Rule.union_same {types : List Base} (ht : ∀ b ∈ types, b.IsAtom) {v w : Value}
    (h : (Rule.union types).check v = .ok w) : w = v :=
  Base.checkAny_of_isAtom ht h

/-- What a rule has to provide for the specifications that are made of it. -/
def Rule.Steady (r : Rule) : Prop :=
  r.Stable ∧ ((∀ t, r = .mapping t → t.unhandledOk = false) → r.KeepsSet)

theorem Rule.steady_of_same {r : Rule} (h : ∀ v c, r.check v = .ok c → c = v) : r.Steady :=
  ⟨Rule.stable_of_same h, fun _ => Rule.keepsSet_of_same h⟩

theorem Rule.steady_iter {types : List Base} (container : Container)
    (h : ∀ v c, Base.checkAny types v = .ok c → Base.checkAny types c = .ok c) :
    (Rule.iter types container).Steady :=
  ⟨Rule.stable_iter container h, fun _ => Rule.keepsSet_iter types container⟩

theorem Rule.steady_iter_of_isAtom {types : List Base} (container : Container)
    (ht : ∀ b ∈ types, b.IsAtom) : (Rule.iter types container).Steady := by
  refine Rule.steady_iter container fun v c h => ?_
  obtain rfl := Base.checkAny_of_isAtom ht h
  exact h

/-! ## One induction over the family -/

mutual

theorem Base.stable_of_plain : (b : Base) → b.Plain → b.Stable
  | .atom _, _ => by
    intro v c h
    obtain ⟨rfl, _⟩ := Atom.check_ok_iff.mp h
    exact h
  | .spec s, h => Spec.stable_of_plain s h

theorem Spec.stable_of_plain : (s : Spec) → s.Plain → (Base.spec s).Stable
  | ⟨settings, rule⟩, ⟨hunset, hrule, hleft⟩ => by
    obtain ⟨hstable, hkeeps⟩ := Rule.steady_of_plain rule hrule
    refine Spec.stable_of_rule hunset (Rule.canonicalize_of_plain hrule) hstable fun ho => ?_
    exact hkeeps fun t ht => hleft t ht ho

theorem Rule.steady_of_plain : (r : Rule) → r.Plain → r.Steady
  | .scalar _ _, _ => Rule.steady_of_same fun _ _ => Rule.scalar_same
  | .enum _ _, _ => Rule.steady_of_same fun _ _ => Rule.enum_same
  | .union _, h => Rule.steady_of_same fun _ _ => Rule.union_same h
  | .iter [] container, h => Rule.steady_iter_of_isAtom container h
  | .iter [b] container, h => by
    have hb := Base.stable_of_plain b h
    refine Rule.steady_iter container fun v c hc => ?_
    rw [Base.checkAny_singleton] at hc ⊢
    exact hb hc
  | .iter (_ :: _ :: _) container, h => Rule.steady_iter_of_isAtom container h
  | .seq positions container, ⟨hset, hpositions⟩ => by
    have h := types_stable_of_plain positions hpositions
    exact ⟨Rule.stable_seq hset h, fun _ => Rule.keepsSet_seq positions container⟩
  | .mapping ⟨keys, patterns, post, name, unhandledOk⟩, ⟨hkeys, hpatterns, htests⟩ => by
    have hk := keys_replay_of_plain keys hkeys
    have hp := patterns_stable_of_plain patterns hpatterns
    refine ⟨Rule.stable_mapping hk hp htests, fun hleft => Rule.keepsSet_mapping fun hok => ?_⟩
    exact absurd ((hleft _ rfl).symm.trans hok) Bool.false_ne_true

theorem types_stable_of_plain : (types : List Base) → PlainTypes types → ∀ b ∈ types, b.Stable
  | [], _ => List.forall_mem_nil _
  | b :: rest, ⟨hb, hrest⟩ =>
    List.forall_mem_cons.mpr ⟨Base.stable_of_plain b hb, types_stable_of_plain rest hrest⟩

theorem keys_replay_of_plain : (keys : List KeyRule) → PlainKeys keys →
    Replays (keyNames keys) (WriteAll keys)
  | [], _ => replays_keys_nil
  | ⟨key, slot⟩ :: rest, ⟨hslot, hkey, hdisjoint, hrest⟩ =>
    replays_keys_cons (Slot.replays_of_plain slot hslot key hkey)
      (keys_replay_of_plain rest hrest) hdisjoint

theorem Slot.replays_of_plain : (slot : Slot) → slot.Plain → ∀ key, key ∉ slot.names →
    Replays (key :: slot.names) (⟨key, slot⟩ : KeyRule).Writes
  | .type b, h, _, _ => KeyRule.replays_type (Base.stable_of_plain b h)
  | .conditional ⟨cases, _, _, _⟩, ⟨hcases, hdefault⟩, _, hkey =>
    KeyRule.replays_conditional (cases_replay_of_plain cases hcases) hkey hdefault

theorem cases_replay_of_plain : (cases : List Case) → PlainCases cases → ∀ v,
    Replays (caseNames cases) fun m p p' => runCase cases v m p = some (.ok (none, p'))
  | [], _, v => replays_cases_nil v
  | ⟨_, _, ⟨keys, _, _, _, _⟩⟩ :: rest, ⟨hpatterns, ⟨hkeys, _, htests⟩, hrest⟩, v =>
    replays_cases_cons (Mapping.replays (keys_replay_of_plain keys hkeys) hpatterns htests)
      (cases_replay_of_plain rest hrest v)

theorem patterns_stable_of_plain : (patterns : List PatternRule) → PlainPatterns patterns →
    ∀ r ∈ patterns, r.pattern.IsAtom ∧ r.type.Stable
  | [], _ => List.forall_mem_nil _
  | ⟨_, type⟩ :: rest, ⟨hatom, htype, hrest⟩ =>
    List.forall_mem_cons.mpr
      ⟨⟨hatom, Base.stable_of_plain type htype⟩, patterns_stable_of_plain rest hrest⟩

end

/-- A value that a plain specification has given is accepted again, as it is. -/
theorem Spec.check_stable {s : Spec} (plain : s.Plain) {v c : Value} (h : s.check v = .ok c) :
    s.check c = .ok c :=
  Spec.stable_of_plain s plain h

namespace Order

def card : Mapping := ⟨[⟨.str "number", .type (.atom (.kind .str))⟩], [], [], "card", false⟩

def cash : Mapping :=
  ⟨[⟨.str "change", .type (.spec ⟨⟨true, .value (.bool false), .empty, []⟩,
    .scalar (.kind .bool) none⟩)⟩], [], [], "cash", false⟩

def settings : Settings := ⟨false, .value (.map []), .falsy, []⟩

def payment : Conditional :=
  ⟨[⟨.str "card", settings, card⟩, ⟨.str "cash", settings, cash⟩], true, .str "cash", true⟩

def tags : Spec := ⟨⟨true, .value (.list []), .falsy, []⟩, .iter [.atom (.kind .str)] .set⟩

/-- A way of payment with keys of its own, collected tags, and flags under any other text. -/
def table : Mapping :=
  ⟨[⟨.str "payment", .conditional payment⟩, ⟨.str "tags", .type (.spec tags)⟩],
    [⟨.atom (.kind .str), .atom (.kind .bool)⟩],
    [⟨.str "tags", [], .test ⟨⟨[]⟩, fun vs => !vs.isEmpty⟩ "no tags"⟩], "order", false⟩

def spec : Spec := ⟨settings, .mapping table⟩

def request : Value :=
  .map [(.str "express", .bool true), (.str "tags", .list [.str "new", .str "gift", .str "new"])]

def checked : Value :=
  .map [(.str "change", .bool false), (.str "express", .bool true), (.str "payment", .str "cash"),
    (.str "tags", .set [.str "gift", .str "new"])]

theorem payment_plain : payment.Plain := by
  simp [payment, card, cash, Conditional.Plain, PlainCases, Mapping.Plain, PlainKeys, PlainPatterns,
    Slot.Plain, Slot.names, keyNames, Base.Plain, Spec.Plain, Rule.Plain, Unset.IsPlain]

theorem plain : spec.Plain := by
  have htests : ∀ r ∈ table.post, r.IsTest := List.forall_mem_singleton.mpr ⟨_, _, rfl⟩
  have hkeys : PlainKeys table.keys := by
    refine ⟨payment_plain, by decide, ?_, ?_⟩
    · intro key hpayment htags
      obtain rfl : key = .str "tags" := List.mem_singleton.mp htags
      exact absurd hpayment (by decide)
    · simp [PlainKeys, Slot.Plain, Slot.names, keyNames, tags, Base.Plain, Spec.Plain, Rule.Plain,
        Unset.IsPlain]
  have hleft : ∀ t, Rule.mapping table = .mapping t → settings.optional = true →
      t.unhandledOk = false := fun _ _ ho => absurd ho Bool.false_ne_true
  exact ⟨trivial, ⟨hkeys, ⟨trivial, trivial, trivial⟩, htests⟩, hleft⟩

end Order

theorem check_stable_order :
    Order.spec.check Order.request = .ok Order.checked ∧
      Order.spec.check Order.checked = .ok Order.checked := by
  have h : Order.spec.check Order.request = .ok Order.checked := rfl
  exact ⟨h, Spec.check_stable Order.plain h⟩

end Conformance
