import Reckoner.Proofs.Grammar.Flat
import Reckoner.Proofs.Grammar.Term

/-!
# Every accepted text has a parse tree

The structural check sees a chain of operands; the grammar of expressions sees sums of products of
signed powers.  `Symbol.Grouped` tells, for each part that the check knows, what it is for the
grammar.  The operands of a chain are grouped from the right: a power is joined to the operand
before it (`Powers`), and every other operator starts a new factor (`Factors`).  The factors are
then grouped from the left, with the sum that has been read so far in front (`parses_sum`).

`exists_parses` is the result: a text without a structural problem has a parse tree.
-/

set_option autoImplicit false

namespace Reckoner

/-- Tokens are nothing, or a power sign with a signed power behind it. -/
def Powers (ts : List Placed) : Prop :=
  ts = [] ∨ ∃ position us t, ts = ⟨.operator .pow, position⟩ :: us ∧ Parses .signed us t

/-- Tokens are signed powers, each with an operator before it that is no power. -/
inductive Factors : List Placed → Prop
  | nil : Factors []
  | cons {op : Operator} {position : Nat} {ts us : List Placed} {t : Term} (hop : op ≠ .pow)
    (signed : Parses .signed ts t) (rest : Factors us) :
    Factors (⟨.operator op, position⟩ :: (ts ++ us))

/-- Tokens are nothing, or a sum with an operator behind it that adds or subtracts. -/
def Addends (ts : List Placed) : Prop :=
  ts = [] ∨ ∃ us op position t, ts = us ++ [⟨.operator op, position⟩] ∧ op.level = .sum ∧
    Parses .sum us t

/-! ## Powers -/

/-- An element with powers behind it is a power. -/
theorem Powers.parses_power {ts us : List Placed} {t : Term} (hus : Powers us)
    (hts : Parses .element ts t) : ∃ t, Parses .power (ts ++ us) t := by
  rcases hus with rfl | ⟨position, vs, r, rfl, hvs⟩
  · rw [List.append_nil]
    exact ⟨t, .base hts⟩
  · exact ⟨_, .pow hts hvs⟩

/-! ## Sums -/

theorem Addends.parses_sum {us ts : List Placed} {t : Term} (hus : Addends us)
    (hts : Parses .product ts t) : ∃ t, Parses .sum (us ++ ts) t := by
  rcases hus with rfl | ⟨vs, op, position, l, rfl, hlevel, hvs⟩
  · exact ⟨t, .addend hts⟩
  · rw [List.append_assoc, List.singleton_append]
    exact ⟨_, .plus hlevel hvs hts⟩

/-- **Factors are grouped from the left**, behind the sum that has been read and the product that is
being read. -/
theorem parses_sum {vs : List Placed} (hvs : Factors vs) :
    ∀ {us ts : List Placed} {t : Term}, Addends us → Parses .product ts t →
      ∃ t, Parses .sum (us ++ (ts ++ vs)) t := by
  induction hvs with
  | nil =>
    intro us ts t hus hts
    rw [List.append_nil]
    exact hus.parses_sum hts
  | @cons op position xs ys x hop signed rest ih =>
    intro us ts t hus hts
    cases hlevel : op.level with
    | product =>
      -- The operator goes on with the product.
      obtain ⟨t', ht'⟩ := ih hus (.times hlevel hts signed)
      exact ⟨t', by simpa using ht'⟩
    | sum =>
      -- The operator ends the product, and the sum with it.
      obtain ⟨l, hl⟩ := hus.parses_sum hts
      obtain ⟨t', ht'⟩ := ih (.inr ⟨_, op, position, l, rfl, hlevel, hl⟩) (.factor signed)
      exact ⟨t', by simpa using ht'⟩
    | statement | signed | power | element => cases op <;> simp_all [Operator.level]

/-! ## From the flat grammar to the tree -/

/-- What a part that the structural check knows is for the grammar. -/
def Symbol.Grouped : Symbol → List Placed → Prop
  | .primary, ts => ∃ t, Parses .element ts t
  | .operand, ts => ∀ us, Powers us → ∃ t, Parses .signed (ts ++ us) t
  | .tail, ts => ∃ us vs, ts = us ++ vs ∧ Powers us ∧ Factors vs
  | .chain, ts => ∃ t, Parses .sum ts t
  | .statement, ts => ∃ t, Parses .statement ts t
  | .statements, ts => ∃ script, Script.Parses ts script

theorem Derives.grouped {scope : Scope} {symbol : Symbol} {ts : List Placed}
    (h : Derives scope symbol ts) : symbol.Grouped ts := by
  induction h with
  | number => exact ⟨_, .number⟩
  | name => exact ⟨_, .name⟩
  | group _ ih =>
    obtain ⟨t, ht⟩ := ih
    exact ⟨_, .group ht⟩
  | callNone => exact ⟨_, .callNone⟩
  | call _ _ ih =>
    obtain ⟨_, ⟨hitems, hlast⟩⟩ := ih
    rw [List.append_assoc]
    exact ⟨_, .call hitems hlast⟩
  | plain _ ih =>
    obtain ⟨t, ht⟩ := ih
    intro us hus
    obtain ⟨t', ht'⟩ := hus.parses_power ht
    exact ⟨t', .unsigned ht'⟩
  | signed _ ih =>
    obtain ⟨t, ht⟩ := ih
    intro us hus
    obtain ⟨t', ht'⟩ := hus.parses_power ht
    exact ⟨_, .negate ht'⟩
  | nil => exact ⟨[], [], rfl, .inl rfl, .nil⟩
  | @cons op position ts _ _ _ iho iht =>
    obtain ⟨us, vs, rfl, hus, hvs⟩ := iht
    obtain ⟨t, ht⟩ := iho us hus
    by_cases hop : op = .pow
    · subst hop
      exact ⟨⟨.operator .pow, position⟩ :: (ts ++ us), vs, by simp,
        .inr ⟨position, ts ++ us, t, rfl, ht⟩, hvs⟩
    · exact ⟨[], ⟨.operator op, position⟩ :: (ts ++ us ++ vs), by simp, .inl rfl,
        .cons hop ht hvs⟩
  | @chain ts _ _ _ iho iht =>
    obtain ⟨us, vs, rfl, hus, hvs⟩ := iht
    obtain ⟨t, ht⟩ := iho us hus
    obtain ⟨t', ht'⟩ := parses_sum hvs (.inl rfl) (.factor ht)
    exact ⟨t', by simpa using ht'⟩
  | value _ ih =>
    obtain ⟨t, ht⟩ := ih
    exact ⟨t, .value ht⟩
  | assign _ _ ih =>
    obtain ⟨t, ht⟩ := ih
    exact ⟨_, .assign ht⟩
  | last _ ih =>
    obtain ⟨t, ht⟩ := ih
    have hnone : ∀ i ∈ ([] : List Item), Parses .statement i.tokens i.term := by simp
    exact ⟨_, .intro hnone ht⟩
  | @more position ts _ _ _ iht ihr =>
    obtain ⟨t, ht⟩ := iht
    obtain ⟨_, @⟨items, us, last, hitems, hlast⟩⟩ := ihr
    have hall : ∀ i ∈ (⟨ts, t, position⟩ : Item) :: items, Parses .statement i.tokens i.term :=
      List.forall_mem_cons.2 ⟨ht, hitems⟩
    have hscript := Script.Parses.intro hall hlast
    have hjoined : Item.joined (⟨ts, t, position⟩ :: items) ++ us =
        ts ++ ⟨.comma, position⟩ :: (Item.joined items ++ us) := by simp [Item.joined]
    rw [hjoined] at hscript
    exact ⟨_, hscript⟩

/-- **A text without a structural problem has a parse tree.** -/
theorem Scope.exists_parses {scope : Scope} {text : String} (h : scope.problem? text = none) :
    ∃ script, Script.Parses (Placed.scan 0 text.toList) script :=
  (derives_of_problem? h).grouped

end Reckoner
