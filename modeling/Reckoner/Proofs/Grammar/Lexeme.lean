import Reckoner.Token

/-!
# Tokens are longest matches

The tokens of a text are read by taking characters as long as they fit.  This file says what they
are without saying how they are read.

* `Numeral` and `Identifier` are the two kinds of lexemes that have more than one character.
* `Longest` says that a lexeme at the start of a text is the longest of its kind there.
* `Lexes` divides a text into tokens: a numeral or an identifier that starts at a place is a token,
  and it is the longest that does; every other character is a token of its own.

`lexes_iff` says that a text is divided in one way only, namely by `Placed.scan`.
-/

set_option autoImplicit false

namespace Reckoner

open Decimal Text

/-! ## Lexemes -/

/-- One digit or several. -/
def Digits (cs : List Char) : Prop := cs ≠ [] ∧ ∀ c ∈ cs, isDigit c = true

/-- Digits with an optional point. -/
inductive Mantissa : List Char → Prop
  | whole {ds : List Char} (digits : Digits ds) : Mantissa ds
  | point {ds fs : List Char} (digits : Digits ds) (fraction : ∀ c ∈ fs, isDigit c = true) :
    Mantissa (ds ++ '.' :: fs)
  | fraction {fs : List Char} (digits : Digits fs) : Mantissa ('.' :: fs)

/-- Nothing, or an exponent mark with an optional sign and digits. -/
inductive Exponent : List Char → Prop
  | none : Exponent []
  | some {mark : Char} {sign ds : List Char} (marks : mark = 'e' ∨ mark = 'E')
    (signs : sign = [] ∨ sign = ['+'] ∨ sign = ['-']) (digits : Digits ds) :
    Exponent (mark :: (sign ++ ds))

/-- A mantissa with an optional exponent. -/
inductive Numeral : List Char → Prop
  | intro {m e : List Char} (mantissa : Mantissa m) (exponent : Exponent e) : Numeral (m ++ e)

/-- A letter or underscore, and letters, digits and underscores behind it. -/
inductive Identifier : List Char → Prop
  | intro {c : Char} {cs : List Char} (start : isNameStart c = true)
    (parts : ∀ d ∈ cs, isNamePart d = true) : Identifier (c :: cs)

/-- A lexeme of a kind stands before a text, and no longer lexeme of the kind stands there. -/
structure Longest (P : List Char → Prop) (lexeme rest : List Char) : Prop where
  /-- The lexeme is of the kind. -/
  holds : P lexeme
  /-- No other one is longer. -/
  le : ∀ other, other <+: lexeme ++ rest → P other → other.length ≤ lexeme.length

/-- No lexeme of a kind stands at the start of a text. -/
def Absent (P : List Char → Prop) (cs : List Char) : Prop := ∀ lexeme, lexeme <+: cs → ¬ P lexeme

/-- A text that starts at a position is divided into tokens. -/
inductive Lexes : Nat → List Char → List Placed → Prop
  | nil {position : Nat} : Lexes position [] []
  | number {position : Nat} {numeral rest : List Char} {ts : List Placed}
    (longest : Longest Numeral numeral rest)
    (further : Lexes (position + numeral.length) rest ts) :
    Lexes position (numeral ++ rest) (⟨.number numeral, position⟩ :: ts)
  | name {position : Nat} {identifier rest : List Char} {ts : List Placed}
    (longest : Longest Identifier identifier rest)
    (further : Lexes (position + identifier.length) rest ts) :
    Lexes position (identifier ++ rest) (⟨.name (String.ofList identifier), position⟩ :: ts)
  | character {position : Nat} {c : Char} {rest : List Char} {ts : List Placed}
    (numerals : Absent Numeral (c :: rest)) (identifiers : Absent Identifier (c :: rest))
    (further : Lexes (position + 1) rest ts) :
    Lexes position (c :: rest) (⟨.ofChar c, position⟩ :: ts)

/-- The longest lexeme at a place is the only one. -/
theorem Longest.unique {P : List Char → Prop} {lexeme rest lexeme' rest' : List Char}
    (h : Longest P lexeme rest) (h' : Longest P lexeme' rest')
    (heq : lexeme ++ rest = lexeme' ++ rest') : lexeme = lexeme' ∧ rest = rest' := by
  have hle := h.le lexeme' (heq ▸ List.prefix_append ..) h'.holds
  have hle' := h'.le lexeme (heq ▸ List.prefix_append ..) h.holds
  exact List.append_inj heq (Nat.le_antisymm hle' hle)

theorem Longest.not_absent {P : List Char → Prop} {lexeme rest : List Char}
    (h : Longest P lexeme rest) : ¬ Absent P (lexeme ++ rest) :=
  fun habsent ↦ habsent lexeme (List.prefix_append ..) h.holds

/-! ## Numerals -/

theorem forall_mem_takeWhile (cs : List Char) : ∀ c ∈ cs.takeWhile isDigit, isDigit c = true :=
  List.all_eq_true.1 List.all_takeWhile

theorem mantissa_of_takeMantissa? {cs mantissa rest : List Char}
    (h : takeMantissa? cs = some (mantissa, rest)) : Mantissa mantissa := by
  have hwhole := forall_mem_takeWhile cs
  unfold takeMantissa? at h
  split at h
  · next tail _ =>
    have hfraction := forall_mem_takeWhile tail
    dsimp only at h
    split at h
    · cases h
    · next hne =>
      cases h
      by_cases hempty : cs.takeWhile isDigit = []
      · rw [hempty, List.nil_append]
        exact .fraction ⟨by simpa [hempty] using hne, hfraction⟩
      · exact .point ⟨hempty, hwhole⟩ hfraction
  · dsimp only at h
    split at h
    · cases h
    · next hne =>
      cases h
      exact .whole ⟨by simpa using hne, hwhole⟩

theorem exponent_of_takeExponent (cs : List Char) : Exponent (takeExponent cs).1 := by
  cases cs with
  | nil => exact .none
  | cons mark cs =>
    rw [takeExponent]
    split
    · next hmark =>
      have hsigns : (takeSign cs).1 = [] ∨ (takeSign cs).1 = ['+'] ∨ (takeSign cs).1 = ['-'] := by
        unfold takeSign
        split <;> simp
      dsimp only
      split
      · exact .none
      · next hne =>
        exact .some hmark hsigns ⟨by simpa using hne, forall_mem_takeWhile _⟩
    · exact .none

/-- What is taken off a text is a numeral. -/
theorem numeral_of_takeNumeral? {cs numeral rest : List Char}
    (h : takeNumeral? cs = some (numeral, rest)) : Numeral numeral := by
  obtain ⟨⟨mantissa, tail⟩, hmantissa, heq⟩ := Option.map_eq_some_iff.1 h
  cases heq
  exact .intro (mantissa_of_takeMantissa? hmantissa) (exponent_of_takeExponent tail)

theorem Numeral.ne_nil {n : List Char} (h : Numeral n) : n ≠ [] := by
  obtain ⟨hmantissa, _⟩ := h
  cases hmantissa with
  | whole hdigits => exact List.append_ne_nil_of_left_ne_nil hdigits.1 _
  | point => simp
  | fraction => simp

/-- Neither a digit nor a point stands at the start of a text. -/
def Stops (rest : List Char) : Prop := ∀ c ∈ rest.head?, isDigit c = false ∧ c ≠ '.'

theorem Stops.spans {rest : List Char} (h : Stops rest) :
    rest.takeWhile isDigit = [] ∧ rest.dropWhile isDigit = rest := by
  cases rest with
  | nil => exact ⟨rfl, rfl⟩
  | cons c rest =>
    have hc := (h c rfl).1
    exact ⟨List.takeWhile_cons_of_neg (by simp [hc]), List.dropWhile_cons_of_neg (by simp [hc])⟩

/-- At least a mantissa that stands there is taken, and no more where it stops. -/
theorem Mantissa.taken {m : List Char} (h : Mantissa m) (rest : List Char) :
    ∃ extra rest', takeMantissa? (m ++ rest) = some (m ++ extra, rest') ∧
      (Stops rest → extra = []) := by
  have hpoint : isDigit '.' = false := by decide
  cases h with
  | whole hdigits =>
    have htake : (m ++ rest).takeWhile isDigit = m ++ rest.takeWhile isDigit :=
      List.takeWhile_append_of_pos hdigits.2
    have hdrop : (m ++ rest).dropWhile isDigit = rest.dropWhile isDigit :=
      List.dropWhile_append_of_pos hdigits.2
    unfold takeMantissa?
    rw [htake, hdrop]
    split
    · next tail htail =>
      refine ⟨rest.takeWhile isDigit ++ '.' :: tail.takeWhile isDigit, tail.dropWhile isDigit, ?_,
        fun hstops ↦ ?_⟩
      · simp [hdigits.1]
      · rw [hstops.spans.2] at htail
        exact absurd rfl (hstops '.' (by rw [htail]; rfl)).2
    · refine ⟨rest.takeWhile isDigit, rest.dropWhile isDigit, ?_, fun hstops ↦ hstops.spans.1⟩
      simp [hdigits.1]
  | @point ds fs hdigits hfraction =>
    have htake : (ds ++ '.' :: fs ++ rest).takeWhile isDigit = ds := by
      rw [List.append_assoc, List.takeWhile_append_of_pos hdigits.2, List.cons_append,
        List.takeWhile_cons_of_neg (by simp [hpoint]), List.append_nil]
    have hdrop : (ds ++ '.' :: fs ++ rest).dropWhile isDigit = '.' :: (fs ++ rest) := by
      rw [List.append_assoc, List.dropWhile_append_of_pos hdigits.2, List.cons_append,
        List.dropWhile_cons_of_neg (by simp [hpoint])]
    refine ⟨rest.takeWhile isDigit, rest.dropWhile isDigit, ?_, fun hstops ↦ hstops.spans.1⟩
    unfold takeMantissa?
    rw [htake, hdrop]
    simp [hdigits.1, List.takeWhile_append_of_pos hfraction, List.dropWhile_append_of_pos hfraction]
  | @fraction fs hdigits =>
    refine ⟨rest.takeWhile isDigit, rest.dropWhile isDigit, ?_, fun hstops ↦ hstops.spans.1⟩
    unfold takeMantissa?
    rw [List.cons_append, List.takeWhile_cons_of_neg (by simp [hpoint]),
      List.dropWhile_cons_of_neg (by simp [hpoint])]
    simp [hdigits.1, List.takeWhile_append_of_pos hdigits.2,
      List.dropWhile_append_of_pos hdigits.2]

/-- At least an exponent that stands there is taken. -/
theorem Exponent.taken {e : List Char} (h : Exponent e) (rest : List Char) :
    ∃ extra, (takeExponent (e ++ rest)).1 = e ++ extra := by
  cases h with
  | none => exact ⟨_, rfl⟩
  | @some mark sign ds hmark hsign hdigits =>
    have hsigned : takeSign (sign ++ ds ++ rest) = (sign, ds ++ rest) := by
      rcases hsign with rfl | rfl | rfl
      · obtain ⟨d, ds, rfl⟩ := List.exists_cons_of_ne_nil hdigits.1
        have hd := hdigits.2 d (List.mem_cons_self ..)
        have hplus : isDigit '+' = false := by decide
        have hminus : isDigit '-' = false := by decide
        unfold takeSign
        split <;> simp_all
      · rfl
      · rfl
    refine ⟨rest.takeWhile isDigit, ?_⟩
    rw [List.cons_append, takeExponent, if_pos hmark, hsigned]
    simp [hdigits.1, List.takeWhile_append_of_pos hdigits.2]

theorem Exponent.stops {mark : Char} (h : mark = 'e' ∨ mark = 'E') (rest : List Char) :
    Stops (mark :: rest) := by
  rintro c ⟨⟩
  rcases h with rfl | rfl <;> decide

/-- At least a numeral that stands there is taken. -/
theorem Numeral.taken {n : List Char} (h : Numeral n) (rest : List Char) :
    ∃ numeral rest', takeNumeral? (n ++ rest) = some (numeral, rest') ∧
      n.length ≤ numeral.length := by
  obtain @⟨m, e, hmantissa, hexponent⟩ := h
  obtain ⟨extra, tail, hm, hstops⟩ := hmantissa.taken (e ++ rest)
  have htail := (takeMantissa?_append hm).1
  rw [List.append_assoc, List.append_cancel_left_eq] at htail
  have htaken : takeNumeral? (m ++ e ++ rest) =
      some (m ++ extra ++ (takeExponent tail).1, (takeExponent tail).2) := by
    rw [takeNumeral?, List.append_assoc, hm, Option.map_some]
  refine ⟨_, _, htaken, ?_⟩
  cases hexponent with
  | none =>
    simp only [List.append_nil, List.length_append]
    omega
  | some hmark hsign hdigits =>
    rw [hstops (Exponent.stops hmark _), List.nil_append] at htail
    obtain ⟨more, hmore⟩ := (Exponent.some hmark hsign hdigits).taken rest
    rw [htail, hmore]
    simp only [List.length_append]
    omega

/-- **The numeral that is taken off a text is the longest.** -/
theorem longest_of_takeNumeral? {cs numeral rest : List Char}
    (h : takeNumeral? cs = some (numeral, rest)) : Longest Numeral numeral rest := by
  refine ⟨numeral_of_takeNumeral? h, fun other hprefix hother ↦ ?_⟩
  rw [(takeNumeral?_append h).1] at hprefix
  obtain ⟨more, rfl⟩ := hprefix
  obtain ⟨numeral', rest', htaken, hle⟩ := hother.taken more
  rw [h] at htaken
  cases htaken
  exact hle

theorem absent_of_takeNumeral? {cs : List Char} (h : takeNumeral? cs = none) :
    Absent Numeral cs := by
  rintro lexeme ⟨more, rfl⟩ hlexeme
  obtain ⟨numeral, rest, htaken, _⟩ := hlexeme.taken more
  rw [h] at htaken
  cases htaken

/-! ## Identifiers -/

theorem longest_identifier {c : Char} (h : isNameStart c = true) (cs : List Char) :
    Longest Identifier (c :: cs.takeWhile isNamePart) (cs.dropWhile isNamePart) := by
  refine ⟨.intro h (List.all_eq_true.1 List.all_takeWhile), fun other hprefix hother ↦ ?_⟩
  rw [List.cons_append, List.takeWhile_append_dropWhile] at hprefix
  obtain ⟨_, hparts⟩ := hother
  obtain ⟨more, rfl⟩ := (List.cons_prefix_cons.1 hprefix).2
  rw [List.takeWhile_append_of_pos hparts]
  simp

theorem absent_identifier {c : Char} (h : isNameStart c = false) (cs : List Char) :
    Absent Identifier (c :: cs) := by
  rintro lexeme hprefix ⟨hstart, _⟩
  rw [(List.cons_prefix_cons.1 hprefix).1, h] at hstart
  cases hstart

/-- The ASCII digits are among the digits of all scripts. -/
theorem isDigit_of_ascii {c : Char} (h : c.isDigit = true) : isDigit c = true := by
  have hrange : 48 ≤ c.toNat ∧ c.toNat < 48 + 10 := by
    simp only [Char.isDigit, Bool.and_eq_true, decide_eq_true_eq] at h
    exact ⟨h.1, Nat.lt_succ_of_le h.2⟩
  rw [isDigit, digitValue?, digitZeros, List.find?_cons_of_pos (by simpa using hrange)]
  rfl

/-- Digits are either those of the smallest code points or far beyond the letters of names. -/
theorem toNat_of_isDigit {c : Char} (h : isDigit c = true) : c.toNat < 58 ∨ 1632 ≤ c.toNat := by
  have hzeros : ∀ first ∈ digitZeros, first = 48 ∨ 1632 ≤ first := by decide
  obtain ⟨_, hvalue⟩ := Option.isSome_iff_exists.1 h
  obtain ⟨first, hfind, _⟩ := Option.map_eq_some_iff.1 hvalue
  have hrange := List.find?_some hfind
  rw [decide_eq_true_eq] at hrange
  rcases hzeros first (List.mem_of_find?_eq_some hfind) with rfl | hle
  · exact .inl hrange.2
  · exact .inr (Nat.le_trans hle hrange.1)

theorem toNat_of_isAlpha {c : Char} (h : c.isAlpha = true) :
    (65 ≤ c.toNat ∧ c.toNat < 91) ∨ (97 ≤ c.toNat ∧ c.toNat < 123) := by
  have hletter : (decide (65 ≤ c.val ∧ c.val ≤ 90) ||
      decide (97 ≤ c.val) && decide (c.val ≤ 122)) = true := h
  simp only [Bool.or_eq_true, Bool.and_eq_true, decide_eq_true_eq] at hletter
  exact hletter.imp (fun ⟨hlo, hhi⟩ ↦ ⟨hlo, Nat.lt_succ_of_le hhi⟩)
    fun ⟨hlo, hhi⟩ ↦ ⟨hlo, Nat.lt_succ_of_le hhi⟩

/-- No numeral starts as a name does. -/
theorem takeNumeral?_of_isNameStart {c : Char} (h : isNameStart c = true) (cs : List Char) :
    takeNumeral? (c :: cs) = none := by
  have hcode : 65 ≤ c.toNat ∧ c.toNat < 123 := by
    rw [isNameStart, Bool.or_eq_true, beq_iff_eq] at h
    rcases h with halpha | rfl
    · have := toNat_of_isAlpha halpha
      omega
    · decide
  have hdigit : isDigit c = false := by
    rw [Bool.eq_false_iff]
    intro hdigit
    have := toNat_of_isDigit hdigit
    omega
  have hpoint : c ≠ '.' := by
    rintro rfl
    exact absurd hcode.1 (by decide)
  rw [takeNumeral?, takeMantissa?, List.takeWhile_cons_of_neg (by simp [hdigit]),
    List.dropWhile_cons_of_neg (by simp [hdigit])]
  split
  · next heq => exact absurd (List.cons.inj heq).1 hpoint
  · rfl

/-! ## Tokens -/

namespace Token

variable {c : Char} {cs lexeme rest : List Char}

theorem next_of_longest_numeral (h : Longest Numeral lexeme rest)
    (heq : lexeme ++ rest = c :: cs) : next c cs = (number lexeme, rest) := by
  unfold next
  split
  · next numeral rest' htaken =>
    have happend := (takeNumeral?_append htaken).1
    obtain ⟨rfl, rfl⟩ := h.unique (longest_of_takeNumeral? htaken) (heq.trans happend.symm)
    rfl
  · next hnone => exact absurd (heq ▸ absent_of_takeNumeral? hnone) h.not_absent

theorem next_of_longest_identifier (h : Longest Identifier lexeme rest)
    (heq : lexeme ++ rest = c :: cs) : next c cs = (name (String.ofList lexeme), rest) := by
  have hstart : isNameStart c = true := by
    rw [← Bool.not_eq_false]
    exact fun hstart ↦ h.not_absent (heq ▸ absent_identifier hstart cs)
  have hlongest := longest_identifier hstart cs
  obtain ⟨rfl, rfl⟩ := h.unique hlongest (by rw [heq]; simp [List.takeWhile_append_dropWhile])
  rw [next, takeNumeral?_of_isNameStart hstart, if_pos hstart]

theorem next_of_absent (hnumerals : Absent Numeral (c :: cs))
    (hidentifiers : Absent Identifier (c :: cs)) : next c cs = (ofChar c, cs) := by
  unfold next
  split
  · next numeral rest htaken =>
    have happend := (takeNumeral?_append htaken).1
    exact absurd (happend.symm ▸ hnumerals) (longest_of_takeNumeral? htaken).not_absent
  · split
    · next hstart =>
      have hlongest := longest_identifier hstart cs
      refine absurd hidentifiers ?_
      have hnot := hlongest.not_absent
      rwa [List.cons_append, List.takeWhile_append_dropWhile] at hnot
    · rfl

end Token

/-- The token that is split off a text is the first in its division. -/
theorem Lexes.next {position : Nat} {c : Char} {cs : List Char} {ts : List Placed}
    (h : Lexes (position + (Token.next c cs).1.width) (Token.next c cs).2 ts) :
    Lexes position (c :: cs) (⟨(Token.next c cs).1, position⟩ :: ts) := by
  rcases htaken : takeNumeral? (c :: cs) with _ | ⟨numeral, rest⟩
  · by_cases hstart : isNameStart c = true
    · have hnext : Token.next c cs = (.name (String.ofList (c :: cs.takeWhile isNamePart)),
          cs.dropWhile isNamePart) := by
        rw [Token.next, htaken, if_pos hstart]
      rw [hnext] at h ⊢
      rw [Token.width, Token.chars, String.toList_ofList] at h
      have hlexes := Lexes.name (longest_identifier hstart cs) h
      rwa [List.cons_append, List.takeWhile_append_dropWhile] at hlexes
    · rw [Bool.not_eq_true] at hstart
      have hnext : Token.next c cs = (.ofChar c, cs) := by
        rw [Token.next, htaken, hstart]
        rfl
      rw [hnext] at h ⊢
      rw [Token.width, Token.chars_ofChar] at h
      exact .character (absent_of_takeNumeral? htaken) (absent_identifier hstart cs) h
  · have hnext : Token.next c cs = (.number numeral, rest) := by rw [Token.next, htaken]
    rw [hnext] at h ⊢
    rw [← (takeNumeral?_append htaken).1]
    exact .number (longest_of_takeNumeral? htaken) h

/-- **A text is divided into tokens in one way**, which is the way in which it is scanned. -/
theorem lexes_iff {position : Nat} {cs : List Char} {ts : List Placed} :
    Lexes position cs ts ↔ ts = Placed.scan position cs := by
  refine ⟨fun h ↦ ?_, ?_⟩
  · induction h with
    | nil => rw [Placed.scan]
    | @number position numeral rest ts hlongest _ ih =>
      obtain ⟨c, cs, heq⟩ := List.exists_cons_of_ne_nil
        (List.append_ne_nil_of_left_ne_nil hlongest.holds.ne_nil rest)
      rw [heq, Placed.scan, Token.next_of_longest_numeral hlongest heq, ih]
      rfl
    | @name position identifier rest ts hlongest _ ih =>
      obtain ⟨c, cs, heq⟩ : ∃ c cs, identifier ++ rest = c :: cs := by
        obtain ⟨_, _⟩ := hlongest.holds
        exact ⟨_, _, rfl⟩
      rw [heq, Placed.scan, Token.next_of_longest_identifier hlongest heq, ih, Token.width,
        Token.chars, String.toList_ofList]
    | @character position c rest ts hnumerals hidentifiers _ ih =>
      rw [Placed.scan, Token.next_of_absent hnumerals hidentifiers, ih, Token.width,
        Token.chars_ofChar]
      rfl
  · rintro rfl
    fun_induction Placed.scan position cs with
    | case1 => exact .nil
    | case2 position c cs ih => exact ih.next

end Reckoner
