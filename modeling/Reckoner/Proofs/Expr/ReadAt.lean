import Reckoner.Proofs.Expr.Descent
import Reckoner.Proofs.Expr.Reader
import Mathlib.Data.List.Induction

/-!
# The reader at a place of the text

The reader goes through a list of tokens, and a descent goes through the characters.  This file says
what the reader does at a place when only the character there is known, or the numeral or the name
that starts there.

* `tokensAt` are the tokens from a place on, with an equation for each way they can begin.
* `Frame` is what the reader holds around a term: `Frame.awaits` is its state before the term, and
  `Frame.holds` that behind it.
* `Scope.readAt` is what reading comes to from a state and a place on.  Each of its equations is one
  move of the reader: before a term (`Scope.readAt_opening`, `Scope.readAt_sign`, …) it is under
  `Frame.Admits`, and behind one (`Scope.readAt_binary`, `Scope.readAt_closing`, …) it is under what
  the right edge of the term asks for.
-/

set_option autoImplicit false

namespace Reckoner

open Decimal

/-! ## Tokens from a place on -/

/-- The tokens of a text from a place on. -/
def tokensAt (text : List Char) (index : Nat) : List Placed := Placed.scan index (text.drop index)

section

variable {text : List Char} {index : Nat} {c : Char}

theorem drop_of_getElem? (h : text[index]? = some c) :
    text.drop index = c :: text.drop (index + 1) := by
  obtain ⟨hlt, rfl⟩ := List.getElem?_eq_some_iff.1 h
  exact List.drop_eq_getElem_cons hlt

theorem tokensAt_of_none (h : text[index]? = none) : tokensAt text index = [] := by
  rw [tokensAt, List.drop_eq_nil_of_le (List.getElem?_eq_none_iff.1 h), Placed.scan]

/-- The first token, and those behind it. -/
theorem tokensAt_of_next {token : Token} {rest : List Char} (h : text[index]? = some c)
    (hnext : Token.next c (text.drop (index + 1)) = (token, rest)) :
    tokensAt text index = ⟨token, index⟩ :: tokensAt text (index + token.width) := by
  have happend := Token.next_append c (text.drop (index + 1))
  rw [hnext, ← drop_of_getElem? h] at happend
  have hrest : rest = text.drop (index + token.width) := by
    rw [← List.drop_drop, ← happend, Token.width, List.drop_left]
  rw [tokensAt, drop_of_getElem? h, Placed.scan, hnext]
  show _ :: Placed.scan _ rest = _
  rw [hrest]
  rfl

/-- A character that is a token wherever it stands. -/
theorem tokensAt_of_mark {token : Token} (h : text[index]? = some c)
    (hnext : ∀ cs, Token.next c cs = (token, cs)) :
    tokensAt text index = ⟨token, index⟩ :: tokensAt text (index + 1) := by
  have hwidth : token.width = 1 := by
    have hlength := congrArg List.length (Token.next_append c [])
    rw [hnext, List.append_nil] at hlength
    exact hlength
  rw [tokensAt_of_next h (hnext _), hwidth]

theorem tokensAt_of_operator {op : Operator} (h : text[index]? = some op.symbol) :
    tokensAt text index = ⟨.operator op, index⟩ :: tokensAt text (index + 1) :=
  tokensAt_of_mark h (by cases op <;> exact fun cs ↦ rfl)

theorem tokensAt_of_numeral {numeral rest : List Char}
    (h : takeNumeral? (text.drop index) = some (numeral, rest)) :
    tokensAt text index =
      ⟨.number numeral, index⟩ :: tokensAt text (index + numeral.length) := by
  cases hc : text[index]? with
  | none =>
    rw [List.drop_eq_nil_of_le (List.getElem?_eq_none_iff.1 hc)] at h
    cases h
  | some c =>
    rw [drop_of_getElem? hc] at h
    have hnext : Token.next c (text.drop (index + 1)) = (.number numeral, rest) := by
      rw [Token.next, h]
    exact tokensAt_of_next hc hnext

theorem tokensAt_of_name {name rest : List Char} (hnumeral : takeNumeral? (text.drop index) = none)
    (h : takeName? (text.drop index) = some (name, rest)) :
    tokensAt text index =
      ⟨.name (String.ofList name), index⟩ :: tokensAt text (index + name.length) := by
  cases hc : text[index]? with
  | none =>
    rw [List.drop_eq_nil_of_le (List.getElem?_eq_none_iff.1 hc)] at h
    cases h
  | some c =>
    rw [drop_of_getElem? hc] at h hnumeral
    rw [takeName?] at h
    split at h
    · next hstart =>
      cases h
      have hnext : Token.next c (text.drop (index + 1)) =
          (.name (String.ofList (c :: (text.drop (index + 1)).takeWhile isNamePart)),
            (text.drop (index + 1)).dropWhile isNamePart) := by
        rw [Token.next, hnumeral, if_pos hstart]
      rw [tokensAt_of_next hc hnext, Token.width, Token.chars, String.toList_ofList]
    · cases h

theorem tokensAt_of_char (h : text[index]? = some c)
    (hnumeral : takeNumeral? (text.drop index) = none)
    (hname : takeName? (text.drop index) = none) :
    tokensAt text index = ⟨.ofChar c, index⟩ :: tokensAt text (index + 1) := by
  rw [drop_of_getElem? h] at hnumeral hname
  have hnext : Token.next c (text.drop (index + 1)) = (.ofChar c, text.drop (index + 1)) := by
    rw [Token.next, hnumeral]
    rw [takeName?] at hname
    split at hname
    · cases hname
    · next hstart => exact if_neg hstart
  rw [tokensAt_of_next h hnext, Token.width, Token.chars_ofChar]
  rfl

/-- The token of a single character is neither a number nor a name. -/
theorem Token.ofChar_ne (c : Char) :
    (∀ numeral, Token.ofChar c ≠ .number numeral) ∧ ∀ name, Token.ofChar c ≠ .name name := by
  unfold Token.ofChar
  repeat' split
  all_goals simp

/-- The first token starts with the first character. -/
theorem exists_tokensAt (h : text[index]? = some c) :
    ∃ token, token.chars.head? = some c ∧
      tokensAt text index = ⟨token, index⟩ :: tokensAt text (index + token.width) := by
  refine ⟨(Token.next c (text.drop (index + 1))).1, ?_, tokensAt_of_next h rfl⟩
  have happend := Token.next_append c (text.drop (index + 1))
  have hne := Token.chars_next_ne_nil c (text.drop (index + 1))
  obtain ⟨d, ds, heq⟩ := List.exists_cons_of_ne_nil hne
  rw [heq] at happend ⊢
  rw [(List.cons.inj happend).1]
  rfl

/-- A token does not stand where its first character does not. -/
theorem tokensAt_ne {token : Token} (hchars : token.chars.head? = some c)
    (h : text[index]? ≠ some c) : ∀ position us, tokensAt text index ≠ ⟨token, position⟩ :: us := by
  intro position us heq
  cases hc : text[index]? with
  | none =>
    rw [tokensAt_of_none hc] at heq
    cases heq
  | some d =>
    obtain ⟨token', hchars', htokens⟩ := exists_tokensAt hc
    rw [htokens] at heq
    cases heq
    rw [hchars] at hchars'
    exact h (hc.trans hchars'.symm)

end

/-! ## The reader at a place -/

/-- What the reader holds around a term. -/
structure Frame where
  /-- The statements of the sequence before this one. -/
  finished : List Finished
  /-- The brackets around the term, the innermost first. -/
  enclosures : List Enclosure
  /-- What waits for the term inside the innermost bracket. -/
  pending : List Pending

namespace Frame

/-- The state before a term. -/
def awaits (f : Frame) (signed : Bool) : Reading :=
  ⟨f.finished, f.enclosures, f.pending, .operand signed⟩

/-- The state behind a term. -/
def holds (f : Frame) (e : Expr) : Reading :=
  ⟨f.finished, f.enclosures, e.edge ++ f.pending, .operator e.tip⟩

/-- One thing more that waits for an operand. -/
def waits (f : Frame) (p : Pending) : Frame := { f with pending := p :: f.pending }

/-- Behind an opening bracket. -/
def encloses (f : Frame) (opener : Opener) : Frame :=
  ⟨f.finished, ⟨opener, [], f.pending⟩ :: f.enclosures, []⟩

/-- Behind a statement and its comma. -/
def separates (f : Frame) (s : Finished) : Frame :=
  match f.enclosures with
  | [] => ⟨f.finished ++ [s], [], []⟩
  | c :: cs => ⟨f.finished, { c with items := c.items ++ [s.statement] } :: cs, []⟩

/-- Behind the statements of a sequence that are not the last one. -/
def separatesAll (f : Frame) (ss : List Finished) : Frame := ss.foldl separates f

/-- How deeply operands nest. -/
def depth (f : Frame) : Nat := 1 + Pending.depth f.pending + Enclosure.depth f.enclosures

/-- Where a term of a level may begin.  Operands that have no sign of their own are those of which
it is known that they do not nest too deeply and that no sign stands there. -/
structure Admits (scope : Scope) (text : List Char) (level : Level) (depth index : Nat) (f : Frame)
    (signed : Bool) : Prop where
  /-- The depth is that of the reader. -/
  depth_eq : depth = f.depth
  /-- The reader admits a term of the level. -/
  admits : Reading.Admits scope.limit level f.pending depth signed
  /-- What a signed term has seen to. -/
  operand : level = .power ∨ level = .element →
    (depth : Int) ≤ scope.limit ∧ (signed = false → text[index]? ≠ some '-')

variable {scope : Scope} {text : List Char} {level : Level} {d index : Nat} {f : Frame}
  {signed : Bool}

theorem separatesAll_concat (ss : List Finished) (s : Finished) :
    f.separatesAll (ss ++ [s]) = (f.separatesAll ss).separates s := by
  rw [separatesAll, List.foldl_append]
  rfl

/-- In brackets statements are items. -/
theorem separatesAll_encloses (opener : Opener) (ss : List Finished) :
    (f.encloses opener).separatesAll ss =
      ⟨f.finished, ⟨opener, ss.map (·.statement), f.pending⟩ :: f.enclosures, []⟩ := by
  induction ss using List.reverseRecOn with
  | nil => rfl
  | append_singleton ss s ih =>
    rw [separatesAll_concat, ih, List.map_append]
    rfl

/-- Outside brackets they are finished. -/
theorem separatesAll_outside (fs ss : List Finished) :
    separatesAll ⟨fs, [], []⟩ ss = ⟨fs ++ ss, [], []⟩ := by
  induction ss using List.reverseRecOn with
  | nil => rw [List.append_nil]; rfl
  | append_singleton ss s ih =>
    rw [separatesAll_concat, ih, ← List.append_assoc]
    rfl

theorem depth_separates (s : Finished) (hpending : f.pending = []) :
    (f.separates s).pending = [] ∧ (f.separates s).depth = f.depth := by
  obtain ⟨finished, enclosures, pending⟩ := f
  obtain rfl : pending = [] := hpending
  cases enclosures <;> exact ⟨rfl, rfl⟩

theorem depth_separatesAll (ss : List Finished) (hpending : f.pending = []) :
    (f.separatesAll ss).pending = [] ∧ (f.separatesAll ss).depth = f.depth := by
  induction ss using List.reverseRecOn with
  | nil => exact ⟨hpending, rfl⟩
  | append_singleton ss s ih =>
    rw [separatesAll_concat]
    exact ⟨(depth_separates s ih.1).1, (depth_separates s ih.1).2.trans ih.2⟩

theorem depth_encloses (opener : Opener) : (f.encloses opener).depth = f.depth + 1 :=
  (Pending.depth_enclose rfl opener []).symm

theorem depth_waits (p : Pending) :
    (f.waits p).depth = f.depth + if p.deepens then 1 else 0 := by
  show 1 + Pending.depth (p :: f.pending) + Enclosure.depth f.enclosures = _
  rw [Pending.depth_cons, depth]
  omega

end Frame

/-- Nothing waits inside an operand that ends with a bracket. -/
theorem Reading.edge_of_closeBracket {opener : Opener} {es : List Expr} {e : Expr}
    (h : closeBracket opener es = .ok e) : e.edge = [] ∧ e.tip = e := by
  unfold closeBracket at h
  split at h
  · cases h
    exact ⟨rfl, rfl⟩
  · cases h
  · split at h <;> cases h
    exact ⟨rfl, rfl⟩

namespace Scope

/-- What reading comes to from a state and a place on. -/
def readAt (scope : Scope) (text : List Char) (s : Reading) (index : Nat) :
    Except CompileError Sequence :=
  scope.readFrom text.length s (tokensAt text index)

variable {scope : Scope} {text : List Char} {level : Level} {d index : Nat} {f : Frame}
  {signed : Bool} {e : Expr}

/-! ### Before a term -/

theorem checkDepth_of_le (h : (d : Int) ≤ scope.limit) (position : Nat) :
    scope.checkDepth d position = .ok () :=
  if_neg (Int.not_lt.2 h)

/-- An operand that nests too deeply is refused, whatever it is, and so is the end of the text. -/
theorem readAt_tooDeep {error : CompileError} (h : f.Admits scope text level d index signed)
    (hindex : index ≤ text.length) (hcheck : scope.checkDepth d index = .error error) :
    scope.readAt text (f.awaits signed) index = .error error := by
  have hstep (position : Nat) : (f.awaits signed).checkDepth scope.limit signed position =
      scope.checkDepth d position := checkDepth_eq h.depth_eq h.admits
  rw [readAt]
  cases hc : text[index]? with
  | none =>
    obtain rfl : index = text.length := Nat.le_antisymm hindex (List.getElem?_eq_none_iff.1 hc)
    rw [tokensAt_of_none hc, readFrom]
    simp only [Frame.awaits] at hstep ⊢
    rw [hstep, hcheck]
  | some c =>
    obtain ⟨token, _, htokens⟩ := exists_tokensAt hc
    rw [htokens, readFrom]
    simp only [Frame.awaits] at hstep ⊢
    rw [hstep, hcheck]

section

variable (h : f.Admits scope text level d index signed) (hlimit : (d : Int) ≤ scope.limit)
include h hlimit

/-- Where the depth is within the limit, no token is refused for it. -/
theorem checkDepth_awaits (position : Nat) :
    (f.awaits signed).checkDepth scope.limit signed position = .ok () :=
  (checkDepth_eq h.depth_eq h.admits).trans (checkDepth_of_le hlimit position)

theorem readAt_token {token : Token} {next : Nat} (htoken : ∀ name, token ≠ .name name)
    (htokens : tokensAt text index = ⟨token, index⟩ :: tokensAt text next) :
    scope.readAt text (f.awaits signed) index =
      (f.awaits signed).operandTokenStep signed token index >>= fun s ↦
        scope.readAt text s next := by
  rw [readAt, htokens, Frame.awaits, readFrom_operand h.depth_eq h.admits htoken,
    checkDepth_of_le hlimit, ok_bind]
  rfl

theorem readAt_numeral {numeral rest : List Char}
    (hnumeral : takeNumeral? (text.drop index) = some (numeral, rest)) :
    scope.readAt text (f.awaits signed) index =
      scope.readAt text (f.holds (.number numeral index)) (index + numeral.length) :=
  readAt_token h hlimit (by simp) (tokensAt_of_numeral hnumeral)

theorem readAt_opening (hopening : text[index]? = some '(') :
    scope.readAt text (f.awaits signed) index =
      scope.readAt text ((f.encloses (.group index)).awaits false) (index + 1) := by
  have htokens : tokensAt text index = ⟨.opening, index⟩ :: tokensAt text (index + 1) :=
    tokensAt_of_mark hopening fun _ ↦ rfl
  exact readAt_token h hlimit (by simp) htokens

theorem readAt_sign (hsign : text[index]? = some '-') (hsigned : signed = false) :
    scope.readAt text (f.awaits signed) index =
      scope.readAt text ((f.waits (.sign index)).awaits true) (index + 1) := by
  have htokens : tokensAt text index = ⟨.operator .sub, index⟩ :: tokensAt text (index + 1) :=
    tokensAt_of_mark hsign fun _ ↦ rfl
  subst hsigned
  exact readAt_token h hlimit (by simp) htokens

/-- No operand starts with another character.  A sign is one that is not admitted. -/
theorem readAt_unexpected {c : Char} (hc : text[index]? = some c) (hopening : c ≠ '(')
    (hsign : signed = false → text[index]? ≠ some '-')
    (hnumeral : takeNumeral? (text.drop index) = none)
    (hname : takeName? (text.drop index) = none) :
    scope.readAt text (f.awaits signed) index = .error ⟨.unexpectedCharacter c, index⟩ := by
  have hchars := Token.chars_ofChar c
  rw [readAt_token h hlimit (fun _ ↦ (Token.ofChar_ne c).2 _)
    (tokensAt_of_char hc hnumeral hname)]
  generalize htoken : Token.ofChar c = token at hchars
  cases token with
  | number numeral => exact absurd htoken ((Token.ofChar_ne c).1 numeral)
  | name name => exact absurd htoken ((Token.ofChar_ne c).2 name)
  | opening => exact absurd (List.cons.inj hchars).1.symm hopening
  | operator op =>
    obtain rfl : op.symbol = c := (List.cons.inj hchars).1
    cases op with
    | sub =>
      cases signed with
      | false => exact absurd hc (hsign rfl)
      | true => rfl
    | _ => rfl
  | closing | comma | equals | stray =>
    cases hchars
    rfl

variable {name rest : List Char}
  (hnumeral : takeNumeral? (text.drop index) = none)
  (hname : takeName? (text.drop index) = some (name, rest))
include hnumeral hname

theorem readAt_variable {slot : Nat}
    (hmeaning : scope.meaning (String.ofList name) = .variable slot) :
    scope.readAt text (f.awaits signed) index =
      scope.readAt text (f.holds (.name ⟨String.ofList name, slot, index⟩))
        (index + name.length) := by
  have hfree := (find?_of_meaning_variable hmeaning).1
  rw [readAt, tokensAt_of_name hnumeral hname, Frame.awaits,
    readFrom_name h.depth_eq h.admits hfree, checkDepth_of_le hlimit, ok_bind, refer, hmeaning]
  rfl

theorem readAt_unknown (hmeaning : scope.meaning (String.ofList name) = .unknown) :
    scope.readAt text (f.awaits signed) index =
      .error ⟨.unknownName (String.ofList name) (scope.similar (String.ofList name)), index⟩ := by
  have hstep := checkDepth_awaits h hlimit index
  rw [readAt, tokensAt_of_name hnumeral hname, readFrom]
  simp only [Frame.awaits] at hstep ⊢
  simp only [hstep, hmeaning]

theorem readAt_noBracket {g : Function}
    (hmeaning : scope.meaning (String.ofList name) = .function g)
    (hopening : text[index + name.length]? ≠ some '(') :
    scope.readAt text (f.awaits signed) index =
      .error ⟨.noBracket g.name, index + name.length⟩ := by
  have hstep := checkDepth_awaits h hlimit index
  have hne := tokensAt_ne (show Token.opening.chars.head? = some '(' from rfl) hopening
  have hlength : (String.ofList name).length = name.length := String.length_ofList
  rw [readAt, tokensAt_of_name hnumeral hname, readFrom]
  simp only [Frame.awaits] at hstep ⊢
  simp only [hstep, hmeaning, hlength]
  generalize tokensAt text (index + name.length) = ts at hne
  rcases ts with _ | ⟨⟨token, position⟩, ts⟩
  · rfl
  · cases token with
    | opening => exact absurd rfl (hne position ts)
    | _ => rfl

theorem readAt_callNone {g : Function}
    (hmeaning : scope.meaning (String.ofList name) = .function g)
    (hopening : text[index + name.length]? = some '(')
    (hclosing : text[index + name.length + 1]? = some ')') :
    scope.readAt text (f.awaits signed) index =
      Reading.closeBracket (.call g index) [] >>= fun e ↦
        scope.readAt text (f.holds e) (index + name.length + 2) := by
  have hcallable : scope.Callable (String.ofList name) :=
    .inl (Option.isSome_iff_exists.2 ⟨g, find?_of_meaning_function hmeaning⟩)
  have htokens : tokensAt text (index + name.length) =
      ⟨.opening, index + name.length⟩ :: ⟨.closing, index + name.length + 1⟩ ::
        tokensAt text (index + name.length + 2) := by
    rw [tokensAt_of_mark hopening fun _ ↦ rfl, tokensAt_of_mark hclosing fun _ ↦ rfl]
    rfl
  rw [readAt, tokensAt_of_name hnumeral hname, htokens, Frame.awaits,
    readFrom_callNone h.depth_eq h.admits hcallable, checkDepth_of_le hlimit, ok_bind, callee,
    hmeaning, ok_bind]
  exact (readFrom_closed_call g []).symm

theorem readAt_call {g : Function}
    (hmeaning : scope.meaning (String.ofList name) = .function g)
    (hopening : text[index + name.length]? = some '(')
    (hclosing : text[index + name.length + 1]? ≠ some ')') :
    scope.readAt text (f.awaits signed) index =
      scope.readAt text ((f.encloses (.call g index)).awaits false) (index + name.length + 1) := by
  have hcallable : scope.Callable (String.ofList name) :=
    .inl (Option.isSome_iff_exists.2 ⟨g, find?_of_meaning_function hmeaning⟩)
  have htokens : tokensAt text (index + name.length) =
      ⟨.opening, index + name.length⟩ :: tokensAt text (index + name.length + 1) :=
    tokensAt_of_mark hopening fun _ ↦ rfl
  have hne := tokensAt_ne (show Token.closing.chars.head? = some ')' from rfl) hclosing
  rw [readAt, tokensAt_of_name hnumeral hname, htokens, Frame.awaits,
    readFrom_call h.depth_eq h.admits hcallable hne, checkDepth_of_le hlimit, ok_bind, callee,
    hmeaning, ok_bind]
  rfl

omit hnumeral hname in
theorem readAt_end (hindex : index ≤ text.length) (hend : text[index]? = none) :
    scope.readAt text (f.awaits signed) index = .error ⟨.unexpectedEnd, index⟩ := by
  obtain rfl : index = text.length := Nat.le_antisymm hindex (List.getElem?_eq_none_iff.1 hend)
  have hstep := checkDepth_awaits h hlimit text.length
  rw [readAt, tokensAt_of_none hend, readFrom]
  simp only [Frame.awaits] at hstep ⊢
  rw [hstep]

end

/-! ### Behind a term -/

section

variable (hc : ∀ op : Operator, text[index]? ≠ some op.symbol) (hequals : text[index]? ≠ some '=')
  (hcomma : text[index]? ≠ some ',')
include hc hequals hcomma

/-- Outside brackets the text goes on with nothing else. -/
theorem readAt_outside {c : Char} (hend : text[index]? = some c) (houtside : f.enclosures = []) :
    scope.readAt text (f.holds e) index = .error ⟨.unexpectedCharacter c, index⟩ := by
  obtain ⟨token, hchars, htokens⟩ := exists_tokensAt hend
  obtain ⟨finished, enclosures, pending⟩ := f
  obtain rfl : enclosures = [] := houtside
  rw [readAt, htokens, readFrom_operator rfl]
  have hfirst : token.firstChar = c := by
    rw [Token.firstChar, List.headD_eq_head?_getD, hchars]
    rfl
  rw [hend] at hc hequals hcomma
  cases token with
  | operator op => exact absurd hchars.symm (hc op)
  | equals => exact absurd hchars.symm hequals
  | comma => exact absurd hchars.symm hcomma
  | closing =>
    cases hchars
    rfl
  | number | name | opening | stray =>
    rw [← hfirst]
    rfl

/-- In brackets it goes on with a closing bracket. -/
theorem readAt_unterminated (hindex : index ≤ text.length) (hclosing : text[index]? ≠ some ')')
    (hinside : f.enclosures ≠ []) :
    scope.readAt text (f.holds e) index = .error ⟨.unterminatedBracket, index⟩ := by
  obtain ⟨finished, enclosures, pending⟩ := f
  obtain ⟨enclosure, enclosures, rfl⟩ := List.exists_cons_of_ne_nil hinside
  cases hend : text[index]? with
  | none =>
    obtain rfl : index = text.length := Nat.le_antisymm hindex (List.getElem?_eq_none_iff.1 hend)
    rw [readAt, tokensAt_of_none hend]
    rfl
  | some c =>
    obtain ⟨token, hchars, htokens⟩ := exists_tokensAt hend
    rw [readAt, htokens, readFrom_operator rfl]
    rw [hend] at hc hequals hcomma hclosing
    cases token with
    | operator op => exact absurd hchars.symm (hc op)
    | equals => exact absurd hchars.symm hequals
    | comma => exact absurd hchars.symm hcomma
    | closing => exact absurd hchars.symm hclosing
    | number | name | opening | stray => rfl

end

/-- At the end of the text, nothing may wait to be closed. -/
theorem readAt_holds_end (houtside : f.enclosures = []) (hpending : f.pending = []) :
    scope.readAt text (f.holds e) text.length = .ok ⟨f.finished, e⟩ := by
  obtain ⟨finished, enclosures, pending⟩ := f
  obtain rfl : enclosures = [] := houtside
  obtain rfl : pending = [] := hpending
  rw [readAt, tokensAt_of_none (List.getElem?_eq_none le_rfl), readFrom]
  show Except.ok (Sequence.mk finished (Pending.closeAll (e.edge ++ []) e.tip)) = _
  rw [List.append_nil, Pending.closeAll_edge]

theorem readAt_binary {op : Operator} (hop : text[index]? = some op.symbol)
    (he : ∀ q ∈ e.edge, op.closes ≤ q.strength)
    (hpending : ∀ q ∈ f.pending.head?, q.strength < op.closes) :
    scope.readAt text (f.holds e) index =
      scope.readAt text ((f.waits (.binary op index e)).awaits false) (index + 1) := by
  rw [readAt, tokensAt_of_operator hop, Frame.holds, readFrom_binary he hpending]
  rfl

section

variable (hequals : text[index]? = some '=') (he : ∀ q ∈ e.edge, 1 ≤ q.strength)
  (hpending : ∀ q ∈ f.pending.head?, q.strength < 1)
include hequals he hpending

theorem readAt_holds_equals :
    scope.readAt text (f.holds e) index =
      (match e.target? with
        | some r => Except.ok ((f.waits (.assign r)).awaits false)
        | none => Except.error ⟨.badTarget, e.start⟩) >>= fun s ↦
          scope.readAt text s (index + 1) := by
  have htokens : tokensAt text index = ⟨.equals, index⟩ :: tokensAt text (index + 1) :=
    tokensAt_of_mark hequals fun _ ↦ rfl
  rw [readAt, htokens, readFrom_operator rfl]
  show (Reading.equalsStep (f.holds e) e.tip >>= _) = _
  rw [Reading.equalsStep, Frame.holds, Pending.close_append _ he hpending, Pending.closeAll_edge]
  rfl

/-- What amounts to a variable is assigned to. -/
theorem readAt_assign {r : Reference} (htarget : e.target? = some r) :
    scope.readAt text (f.holds e) index =
      scope.readAt text ((f.waits (.assign r)).awaits false) (index + 1) := by
  rw [readAt_holds_equals hequals he hpending, htarget]
  rfl

theorem readAt_badTarget (htarget : e.target? = none) :
    scope.readAt text (f.holds e) index = .error ⟨.badTarget, e.start⟩ := by
  rw [readAt_holds_equals hequals he hpending, htarget]
  rfl

end

theorem readAt_comma (hcomma : text[index]? = some ',') (hpending : f.pending = []) :
    scope.readAt text (f.holds e) index =
      scope.readAt text ((f.separates ⟨e, index⟩).awaits false) (index + 1) := by
  have htokens : tokensAt text index = ⟨.comma, index⟩ :: tokensAt text (index + 1) :=
    tokensAt_of_mark hcomma fun _ ↦ rfl
  obtain ⟨finished, enclosures, pending⟩ := f
  obtain rfl : pending = [] := hpending
  rw [readAt, htokens, Frame.holds]
  cases enclosures with
  | nil => exact readFrom_comma_outside
  | cons c cs => exact readFrom_comma

/-- A closing bracket makes an operand of the items. -/
theorem readAt_closing (hclosing : text[index]? = some ')') (opener : Opener)
    (ss : List Finished) :
    scope.readAt text (((f.encloses opener).separatesAll ss).holds e) index =
      Reading.closeBracket opener (ss.map (·.statement) ++ [e]) >>= fun operand ↦
        scope.readAt text (f.holds operand) (index + 1) := by
  have htokens : tokensAt text index = ⟨.closing, index⟩ :: tokensAt text (index + 1) :=
    tokensAt_of_mark hclosing fun _ ↦ rfl
  rw [readAt, htokens, Frame.separatesAll_encloses, Frame.holds, readFrom_closing]
  cases hclosed : Reading.closeBracket opener (ss.map (·.statement) ++ [e]) with
  | error error => rfl
  | ok operand =>
    obtain ⟨hedge, htip⟩ := Reading.edge_of_closeBracket hclosed
    have hholds : f.holds operand = ⟨f.finished, f.enclosures, f.pending, .operator operand⟩ := by
      rw [Frame.holds, hedge, htip]
      rfl
    rw [ok_bind, ok_bind, hholds]
    rfl

end Scope

end Reckoner
