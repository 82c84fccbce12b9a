import Reckoner.Proofs.Grammar.Flat
import Reckoner.Proofs.Grammar.Lexeme

/-!
# The structural check accepts its grammar

`Scope.derives_of_problem?` says that a text without a structural problem is in the grammar.  Here
is the other direction.

* `Scope.Accepts` says that the check finds nothing wrong with what follows a state.  The position
  at which the statement began is left open, because it shows in the problems only.
* `Symbol.Passes` is what a part of the grammar does to the check: it takes it from where the part
  may stand to the state behind an operand.  `Derives.passes` goes through the rules.
* A text of the grammar ends in a number, a name or a closing bracket (`Derives.ended`), so that its
  last character is one that an expression may end in, unless it is the point of a number.

`Scope.problem?_eq_none_iff` puts the directions together.
-/

set_option autoImplicit false

namespace Reckoner

open Decimal Text

/-! ## The steps of the check -/

namespace Scope

/-- The check finds no problem in tokens, whatever the position at which the statement began. -/
def Accepts (scope : Scope) (stop : Nat) (brackets : List Bracket) (expected : Expected)
    (ts : List Placed) : Prop :=
  ∀ start, scope.problemFrom stop ⟨brackets, start, expected⟩ ts = none

variable {scope : Scope} {stop : Nat} {brackets : List Bracket} {before : Before} {target : Bool}
  {position : Nat} {text : String} {rest : List Placed}

theorem accepts_nil : scope.Accepts stop [] (.operator target) [] := by
  intro start
  rw [problemFrom]
  rfl

theorem problemFrom_operand {token : Token} {start : Nat} (h : ∀ text, token ≠ .name text) :
    scope.problemFrom stop ⟨brackets, start, .operand before⟩ (⟨token, position⟩ :: rest) =
      match Progress.operandStep ⟨brackets, start, .operand before⟩ before token position with
      | .ok s => scope.problemFrom stop s rest
      | .error problem => some problem := by
  cases token with
  | name text => exact absurd rfl (h text)
  | _ => rfl

theorem problemFrom_operator {token : Token} {start : Nat} :
    scope.problemFrom stop ⟨brackets, start, .operator target⟩ (⟨token, position⟩ :: rest) =
      match Progress.operatorStep ⟨brackets, start, .operator target⟩ target token position with
      | .ok s => scope.problemFrom stop s rest
      | .error problem => some problem := rfl

theorem accepts_number {numeral : List Char}
    (h : scope.Accepts stop brackets (.operator false) rest) :
    scope.Accepts stop brackets (.operand before) (⟨.number numeral, position⟩ :: rest) := by
  intro start
  rw [problemFrom_operand (by simp)]
  exact h start

theorem accepts_opening (h : scope.Accepts stop (.group :: brackets) (.operand .opening) rest) :
    scope.Accepts stop brackets (.operand before) (⟨.opening, position⟩ :: rest) := by
  intro start
  rw [problemFrom_operand (by simp)]
  exact h start

theorem accepts_sign (hbefore : before ≠ .sign)
    (h : scope.Accepts stop brackets (.operand .sign) rest) :
    scope.Accepts stop brackets (.operand before) (⟨.operator .sub, position⟩ :: rest) := by
  intro start
  rw [problemFrom_operand (by simp), Progress.operandStep, if_neg hbefore]
  exact h start

theorem accepts_operator {op : Operator}
    (h : scope.Accepts stop brackets (.operand .operator) rest) :
    scope.Accepts stop brackets (.operator target) (⟨.operator op, position⟩ :: rest) := by
  intro start
  rw [problemFrom_operator]
  exact h start

theorem accepts_equals (h : scope.Accepts stop brackets (.operand .equals) rest) :
    scope.Accepts stop brackets (.operator true) (⟨.equals, position⟩ :: rest) := by
  intro start
  rw [problemFrom_operator]
  cases brackets with
  | nil => exact h (position + 1)
  | cons bracket brackets => exact h start

/-- Whether a comma may stand between such brackets: outside all of them, or between the arguments
of a function. -/
def Separates (brackets : List Bracket) : Prop := ∀ bracket ∈ brackets.head?, bracket = .call

theorem accepts_comma (hbrackets : Separates brackets)
    (h : scope.Accepts stop brackets (.operand .opening) rest) :
    scope.Accepts stop brackets (.operator target) (⟨.comma, position⟩ :: rest) := by
  intro start
  rw [problemFrom_operator]
  cases brackets with
  | nil => exact h (position + 1)
  | cons bracket brackets =>
    obtain rfl : bracket = .call := hbrackets bracket rfl
    exact h start

theorem accepts_closing {bracket : Bracket}
    (h : scope.Accepts stop brackets (.operator false) rest) :
    scope.Accepts stop (bracket :: brackets) (.operator target) (⟨.closing, position⟩ :: rest) := by
  intro start
  rw [problemFrom_operator]
  exact h start

/-- Behind an operand that cannot be assigned to, there is less that may follow. -/
theorem Accepts.of_false (h : scope.Accepts stop brackets (.operator false) rest) :
    scope.Accepts stop brackets (.operator target) rest := by
  intro start
  have hstart := h start
  cases rest with
  | nil =>
    rw [problemFrom] at hstart ⊢
    exact hstart
  | cons t rest =>
    obtain ⟨token, position⟩ := t
    rw [problemFrom_operator] at hstart ⊢
    cases token with
    | equals => cases hstart
    | _ => exact hstart

theorem Accepts.not_opens (h : scope.Accepts stop brackets (.operator target) rest) :
    ∀ position us, rest ≠ ⟨.opening, position⟩ :: us := by
  rintro position us rfl
  have hstart := h 0
  rw [problemFrom_operator] at hstart
  cases hstart

theorem accepts_name (hfree : scope.functions.find? text = none)
    (h : scope.Accepts stop brackets (.operator before.allowsTarget) rest) :
    scope.Accepts stop brackets (.operand before) (⟨.name text, position⟩ :: rest) := by
  intro start
  have hopens := h.not_opens
  simpa [problemFrom, hfree, hopens, Progress.afterOperand] using h start

theorem accepts_callNone {f : Function} {opening closing : Nat}
    (hfind : scope.functions.find? text = some f) (harity : f.arity = 0)
    (h : scope.Accepts stop brackets (.operator false) rest) :
    scope.Accepts stop brackets (.operand before)
      (⟨.name text, position⟩ :: ⟨.opening, opening⟩ :: ⟨.closing, closing⟩ :: rest) := by
  intro start
  simpa [problemFrom, hfind, harity, Progress.afterOperand] using h start

theorem accepts_call {opening : Nat} (hcallable : scope.Callable text)
    (hrest : ∀ position us, rest ≠ ⟨.closing, position⟩ :: us)
    (h : scope.Accepts stop (.call :: brackets) (.operand .opening) rest) :
    scope.Accepts stop brackets (.operand before)
      (⟨.name text, position⟩ :: ⟨.opening, opening⟩ :: rest) := by
  intro start
  rcases hfind : scope.functions.find? text with _ | f
  · have hhas : scope.variables.has text = false := hcallable.resolve_left (by simp [hfind])
    simpa [problemFrom, hfind, hhas, Progress.afterOpening] using h start
  · simpa [problemFrom, hfind, hrest, Progress.afterOpening] using h start

end Scope

/-! ## The parts of the grammar -/

/-- Where the check takes a part of the grammar, it goes on as behind an operand. -/
def Symbol.Passes (scope : Scope) (stop : Nat) (symbol : Symbol) (ts : List Placed) : Prop :=
  ∀ (brackets : List Bracket) (rest : List Placed),
    scope.Accepts stop brackets (.operator false) rest →
      match symbol with
      | .primary =>
        ∀ before, scope.Accepts stop brackets (.operand before) (ts ++ rest)
      | .operand | .chain =>
        ∀ before, before ≠ .sign → scope.Accepts stop brackets (.operand before) (ts ++ rest)
      | .tail => scope.Accepts stop brackets (.operator false) (ts ++ rest)
      | .statement =>
        ∀ before, before.allowsTarget = true →
          scope.Accepts stop brackets (.operand before) (ts ++ rest)
      | .statements =>
        Scope.Separates brackets → scope.Accepts stop brackets (.operand .opening) (ts ++ rest)

variable {scope : Scope} {symbol : Symbol} {ts : List Placed}

/-- A part of the grammar begins with an operand or, behind an operand, with an operator, and never
with a closing bracket. -/
theorem Derives.ne_closing (h : Derives scope symbol ts) (hsymbol : symbol ≠ .tail) :
    ∃ t us, ts = t :: us ∧ t.token ≠ .closing := by
  induction h with
  | number | name | group | callNone | call | signed | assign => exact ⟨_, _, rfl, by simp⟩
  | nil | cons => exact absurd rfl hsymbol
  | plain _ ih | value _ ih | last _ ih => exact ih (by simp)
  | chain _ _ ih _ | more _ _ ih _ =>
    obtain ⟨t, us, rfl, ht⟩ := ih (by simp)
    exact ⟨t, _, rfl, ht⟩

/-- **The check passes every part of the grammar.** -/
theorem Derives.passes (h : Derives scope symbol ts) (stop : Nat) :
    symbol.Passes scope stop ts := by
  induction h with
  | number => exact fun brackets rest hrest before ↦ Scope.accepts_number hrest
  | name hfree => exact fun brackets rest hrest before ↦ Scope.accepts_name hfree hrest.of_false
  | group _ ih =>
    intro brackets rest hrest before
    rw [List.cons_append, List.append_assoc]
    exact Scope.accepts_opening (ih _ _ (Scope.accepts_closing hrest) .opening rfl)
  | callNone hfind harity =>
    exact fun brackets rest hrest before ↦ Scope.accepts_callNone hfind harity hrest
  | call hcallable hts ih =>
    intro brackets rest hrest before
    obtain ⟨t, us, rfl, ht⟩ := hts.ne_closing (by simp)
    have hseparates : Scope.Separates (.call :: brackets) := by simp [Scope.Separates]
    rw [List.cons_append, List.cons_append, List.append_assoc]
    refine Scope.accepts_call hcallable ?_ (ih _ _ (Scope.accepts_closing hrest) hseparates)
    rintro p vs heq
    exact ht (congrArg Placed.token (List.cons.inj heq).1)
  | plain _ ih => exact fun brackets rest hrest before _ ↦ ih brackets rest hrest before
  | signed _ ih =>
    intro brackets rest hrest before hbefore
    exact Scope.accepts_sign hbefore (ih brackets rest hrest .sign)
  | nil => exact fun brackets rest hrest ↦ hrest
  | cons _ _ iho iht =>
    intro brackets rest hrest
    rw [List.cons_append, List.append_assoc]
    exact Scope.accepts_operator (iho _ _ (iht _ _ hrest) .operator (by simp))
  | chain _ _ iho iht =>
    intro brackets rest hrest before hbefore
    rw [List.append_assoc]
    exact iho _ _ (iht _ _ hrest) before hbefore
  | value _ ih =>
    intro brackets rest hrest before hbefore
    refine ih _ _ hrest before ?_
    rintro rfl
    cases hbefore
  | assign hfree _ ih =>
    intro brackets rest hrest before hbefore
    refine Scope.accepts_name hfree ?_
    rw [hbefore]
    exact Scope.accepts_equals (ih _ _ hrest .equals rfl)
  | last _ ih => exact fun brackets rest hrest _ ↦ ih _ _ hrest .opening rfl
  | more _ _ ihs iht =>
    intro brackets rest hrest hseparates
    rw [List.append_assoc]
    exact ihs _ _ (Scope.accepts_comma hseparates (iht _ _ hrest hseparates)) .opening rfl

/-! ## The ends of texts -/

/-- A token in which an operand may end. -/
def Token.Ends : Token → Prop
  | .number _ | .name _ | .closing => True
  | _ => False

/-- Tokens with one of these at their end. -/
def Ended (ts : List Placed) : Prop := ∃ us t, ts = us ++ [t] ∧ t.token.Ends

theorem Ended.append {us : List Placed} (h : Ended us) (ts : List Placed) : Ended (ts ++ us) := by
  obtain ⟨vs, t, rfl, ht⟩ := h
  exact ⟨ts ++ vs, t, (List.append_assoc ..).symm, ht⟩

/-- A part of the grammar ends as an operand does. -/
theorem Derives.ended (h : Derives scope symbol ts) : (symbol = .tail ∧ ts = []) ∨ Ended ts := by
  induction h with
  | number | name => exact .inr ⟨[], _, rfl, trivial⟩
  | group => exact .inr ⟨_ :: _, _, rfl, trivial⟩
  | callNone => exact .inr ⟨[_, _], _, rfl, trivial⟩
  | call => exact .inr ⟨_ :: _ :: _, _, rfl, trivial⟩
  | nil => exact .inl ⟨rfl, rfl⟩
  | plain _ ih | value _ ih | last _ ih => exact .inr (ih.resolve_left (by simp))
  | signed _ ih => exact .inr ((ih.resolve_left (by simp)).append [_])
  | assign _ _ ih => exact .inr ((ih.resolve_left (by simp)).append [_, _])
  | more _ _ _ ih => exact .inr (((ih.resolve_left (by simp)).append [_]).append _)
  | cons _ _ iho iht =>
    rcases iht with ⟨-, rfl⟩ | hus
    · rw [List.append_nil]
      exact .inr ((iho.resolve_left (by simp)).append [_])
    · exact .inr ((hus.append _).append [_])
  | chain _ _ iho iht =>
    rcases iht with ⟨-, rfl⟩ | hus
    · rw [List.append_nil]
      exact .inr (iho.resolve_left (by simp))
    · exact .inr (hus.append _)

theorem Identifier.ne_nil {cs : List Char} (h : Identifier cs) : cs ≠ [] := by
  obtain ⟨_, _⟩ := h
  exact List.cons_ne_nil _ _

/-- The lexeme of a token is of its kind. -/
def Token.WellFormed : Token → Prop
  | .number numeral => Numeral numeral
  | .name text => Identifier text.toList
  | _ => True

theorem Token.WellFormed.chars_ne_nil {t : Token} (h : t.WellFormed) : t.chars ≠ [] := by
  cases t with
  | number => exact Numeral.ne_nil h
  | name => exact Identifier.ne_nil h
  | _ => exact List.cons_ne_nil _ _

theorem Lexes.wellFormed {position : Nat} {cs : List Char} (h : Lexes position cs ts) :
    ∀ t ∈ ts, t.token.WellFormed := by
  induction h with
  | nil => simp
  | number hlongest _ ih => exact List.forall_mem_cons.2 ⟨hlongest.holds, ih⟩
  | name hlongest _ ih =>
    refine List.forall_mem_cons.2 ⟨?_, ih⟩
    show Identifier (String.ofList _).toList
    rw [String.toList_ofList]
    exact hlongest.holds
  | @character position c rest ts _ _ _ ih =>
    refine List.forall_mem_cons.2 ⟨?_, ih⟩
    show (Token.ofChar c).WellFormed
    unfold Token.ofChar
    repeat' split
    all_goals trivial

theorem Digits.getLast {ds : List Char} (h : Digits ds) (cs : List Char) :
    ∀ c ∈ (cs ++ ds).getLast?, isDigit c = true := by
  obtain ⟨es, d, rfl⟩ := (List.eq_nil_or_concat ds).resolve_left h.1
  rw [List.concat_eq_append] at h ⊢
  intro c hc
  rw [← List.append_assoc, List.getLast?_concat] at hc
  exact h.2 c (List.mem_append.2 (.inr (by simpa using hc.symm)))

/-- A numeral ends in a digit or in its point. -/
theorem Numeral.getLast {n : List Char} (h : Numeral n) :
    ∀ c ∈ n.getLast?, isDigit c = true ∨ c = '.' := by
  obtain @⟨m, e, hmantissa, hexponent⟩ := h
  cases hexponent with
  | some _ _ hdigits =>
    rw [← List.cons_append, ← List.append_assoc]
    exact fun c hc ↦ .inl (hdigits.getLast _ c hc)
  | none =>
    rw [List.append_nil]
    cases hmantissa with
    | whole hdigits => exact fun c hc ↦ .inl (hdigits.getLast [] c hc)
    | fraction hdigits => exact fun c hc ↦ .inl (hdigits.getLast ['.'] c hc)
    | @point ds fs _ hfraction =>
      rw [List.append_cons]
      by_cases hempty : fs = []
      · subst hempty
        simp
      · exact fun c hc ↦ .inl (Digits.getLast ⟨hempty, hfraction⟩ _ c hc)

/-- Every character of an identifier is one with which a name may go on. -/
theorem Identifier.isNamePart {cs : List Char} (h : Identifier cs) :
    ∀ c ∈ cs, isNamePart c = true := by
  obtain ⟨hstart, hparts⟩ := h
  refine List.forall_mem_cons.2 ⟨?_, hparts⟩
  rw [isNameStart, Bool.or_eq_true] at hstart
  rw [Reckoner.isNamePart, Char.isAlphanum, Bool.or_eq_true, Bool.or_eq_true]
  exact hstart.imp_left .inl

/-- The letters of names are letters. -/
theorem isAlphanumeric_of_isAlphanum {c : Char} (h : c.isAlphanum = true) :
    isAlphanumeric c = true := by
  rw [Char.isAlphanum, Bool.or_eq_true] at h
  rcases h with halpha | hdigit
  · -- The first letters are the capital ones and then the small ones.
    have hletters : letters.contains c =
        withinBounds false (65 :: 91 :: 97 :: 123 :: letters.bounds.drop 4) c.toNat := rfl
    rw [isAlphanumeric, Bool.or_eq_true, hletters]
    simp only [withinBounds]
    right
    rcases toNat_of_isAlpha halpha with hcode | hcode
    · rw [if_neg (by omega), if_pos (by omega)]
      rfl
    · rw [if_neg (by omega), if_neg (by omega), if_neg (by omega), if_pos (by omega)]
      rfl
  · exact isAlphanumeric_of_isDigit (isDigit_of_ascii hdigit)

/-- An operand ends in a character that an expression may end in, or in a point. -/
theorem Token.mayEnd_of_ends {t : Token} (hends : t.Ends) (h : t.WellFormed) :
    ∀ c ∈ t.chars.getLast?, Scope.mayEnd c = true ∨ c = '.' := by
  intro c hc
  match t, hends with
  | .number numeral, _ =>
    refine (Numeral.getLast h c hc).imp_left fun hdigit ↦ ?_
    simp [Scope.mayEnd, isAlphanumeric_of_isDigit hdigit]
  | .name text, _ =>
    left
    have hpart := Identifier.isNamePart h c (List.mem_of_getLast? hc)
    rw [Reckoner.isNamePart, Bool.or_eq_true] at hpart
    rcases hpart with halphanum | hunderscore
    · simp [Scope.mayEnd, isAlphanumeric_of_isAlphanum halphanum]
    · simp [Scope.mayEnd, hunderscore]
  | .closing, _ =>
    obtain rfl : ')' = c := by simpa [chars] using hc
    exact .inl rfl

namespace Scope

/-- A text of the grammar ends in a character that an expression may end in, or in a point. -/
theorem mayEnd_of_derives {scope : Scope} {text : String}
    (h : Derives scope .statements (Placed.scan 0 text.toList)) :
    ∃ last, text.toList.getLast? = some last ∧ (mayEnd last = true ∨ last = '.') := by
  have hwellFormed := (lexes_iff.2 rfl : Lexes 0 text.toList _).wellFormed
  have hchars := Placed.flatMap_chars_scan 0 text.toList
  obtain ⟨us, t, hts, hends⟩ := h.ended.resolve_left (by simp)
  rw [hts] at hwellFormed hchars
  have hlast := Token.mayEnd_of_ends hends (hwellFormed t (by simp))
  obtain ⟨cs, c, hc⟩ : ∃ cs c, t.token.chars = cs ++ [c] :=
    ⟨_, _, (List.dropLast_concat_getLast (hwellFormed t (by simp)).chars_ne_nil).symm⟩
  rw [List.flatMap_append, List.flatMap_singleton, hc, ← List.append_assoc] at hchars
  rw [hc] at hlast
  exact ⟨c, by rw [← hchars, List.getLast?_concat], hlast c List.getLast?_concat⟩

/-- **The structural check accepts exactly its grammar.**  A text has no structural problem if and
only if it does not end in a point and can be divided, by longest matches, into tokens that are
statements with commas between them.  No rule says that an opening bracket must not follow a name
that stands alone, since nothing in the grammar has one there. -/
theorem problem?_eq_none_iff (scope : Scope) (text : String) :
    scope.problem? text = none ↔
      text.toList.getLast? ≠ some '.' ∧
        ∃ ts, Lexes 0 text.toList ts ∧ Derives scope .statements ts := by
  refine ⟨fun h ↦ ⟨?_, _, lexes_iff.2 rfl, derives_of_problem? h⟩, ?_⟩
  · intro hpoint
    rw [problem?, hpoint] at h
    cases h
  · rintro ⟨hpoint, ts, hlexes, hderives⟩
    obtain rfl := lexes_iff.1 hlexes
    obtain ⟨last, hlast, hmay | rfl⟩ := mayEnd_of_derives hderives
    · have haccepts : scope.Accepts text.length [] (.operand .opening)
          (Placed.scan 0 text.toList ++ []) :=
        hderives.passes text.length [] [] accepts_nil (by simp [Separates])
      rw [List.append_nil] at haccepts
      rw [problem?, hlast]
      exact (if_pos hmay).trans (haccepts 0)
    · exact absurd hlast hpoint

end Scope

end Reckoner
