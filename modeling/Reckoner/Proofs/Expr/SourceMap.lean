import Reckoner.Proofs.Expr.Instructions
import Reckoner.Proofs.Expr.Span
import Reckoner.Proofs.Grammar.Lexeme
import Reckoner.Proofs.Program.Functions
import Reckoner.Proofs.Value.Sign

/-!
# What the text says where an instruction stands

The position of an instruction is all that a user is told about an error in a run.
`Scope.source_map` says that it is the right one: no two instructions of a program have one
position, and the text at the position is what the instruction was made from
(`Operation.MadeFrom`).

* Positions are those of tokens, and every token makes one instruction at most
  (`Expr.Spans.positions_subperm`).  A sign that goes with another sign, or is worked into a
  constant, leaves a position behind that no instruction has.
* What an instruction was made from is seen where its token is (`Expr.Spans.madeFrom`).  Only a
  constant with signs needs more than its first token: the text there is a numeral behind signs and
  opening brackets, which are closed behind it, and no sign has the base of a power for its operand
  (`SignedNumeral`).
-/

set_option autoImplicit false

namespace Reckoner

open Decimal
open scoped List

variable {scope : Scope}

/-! ## What instructions are made from -/

/-- A text starts with a numeral to which so many signs are applied, and a rest follows. -/
inductive SignedNumeral (numeral : List Char) : Nat → List Char → List Char → Prop
  | numeral {rest : List Char} (longest : Longest Numeral numeral rest) :
    SignedNumeral numeral 0 (numeral ++ rest) rest
  | group {signs : Nat} {cs rest : List Char}
    (inner : SignedNumeral numeral signs cs (')' :: rest)) :
    SignedNumeral numeral signs ('(' :: cs) rest
  | sign {signs : Nat} {cs rest : List Char} (operand : SignedNumeral numeral signs cs rest)
    (power : rest.head? ≠ some '^') : SignedNumeral numeral (signs + 1) ('-' :: cs) rest

/-- The float of a numeral, with the other sign if so many signs do not cancel each other. -/
def signedFloat (signs : Nat) (numeral : List Char) : Float :=
  if Even signs then numeralFloat numeral else -numeralFloat numeral

/-- A text starts with what an operation was made from. -/
inductive Operation.MadeFrom (scope : Scope) : Operation → List Char → Prop
  | numeral {numeral rest : List Char} (longest : Longest Numeral numeral rest) :
    MadeFrom scope (.constant (.scalar (numeralFloat numeral))) (numeral ++ rest)
  | signed {numeral cs rest : List Char} {signs : Nat}
    (literal : SignedNumeral numeral signs ('-' :: cs) rest) :
    MadeFrom scope (.constant (.scalar (signedFloat signs numeral))) ('-' :: cs)
  | load {name : String} {rest : List Char} {v : Variable}
    (longest : Longest Identifier name.toList rest)
    (free : scope.functions.find? name = none) (bound : scope.variables.find? name = some v) :
    MadeFrom scope (.load v.slot) (name.toList ++ rest)
  | store {name : String} {rest : List Char} {v : Variable}
    (longest : Longest Identifier name.toList rest)
    (free : scope.functions.find? name = none) (bound : scope.variables.find? name = some v) :
    MadeFrom scope (.store v.slot) (name.toList ++ rest)
  | discard {rest : List Char} : MadeFrom scope .discard (',' :: rest)
  | binary {op : Operator} {rest : List Char} : MadeFrom scope (.binary op) (op.symbol :: rest)
  | negate {rest : List Char} : MadeFrom scope .negate ('-' :: rest)
  | call {name : String} {rest : List Char} {f : Function}
    (longest : Longest Identifier name.toList ('(' :: rest))
    (find : scope.functions.find? name = some f)
    (code : scope.functions.findCode? f.code = some f) :
    MadeFrom scope (.call f.code f.arity) (name.toList ++ '(' :: rest)

/-- An instruction has a position in a text, and the text there is what it was made from. -/
def Instruction.MadeFrom (scope : Scope) (cs : List Char) (i : Instruction) : Prop :=
  ∃ position : Nat, i.position = position ∧ position < cs.length ∧
    i.operation.MadeFrom scope (cs.drop position)

/-! ## Tokens where they stand -/

/-- A token is the longest of its kind before a text. -/
def Token.LongestBefore (rest : List Char) : Token → Prop
  | .number numeral => Longest Numeral numeral rest
  | .name text => Longest Identifier text.toList rest
  | _ => True

/-- What the first token of a text tells about the text. -/
theorem Lexes.of_cons {position : Nat} {cs : List Char} {t : Placed} {ts : List Placed}
    (h : Lexes position cs (t :: ts)) :
    t.position = position ∧ ∃ rest, cs = t.token.chars ++ rest ∧ t.token.LongestBefore rest ∧
      Lexes (position + t.token.width) rest ts := by
  cases h with
  | number hlongest hfurther => exact ⟨rfl, _, rfl, hlongest, hfurther⟩
  | @name _ identifier rest _ hlongest hfurther =>
    refine ⟨rfl, rest, ?_⟩
    simp only [Token.chars, Token.LongestBefore, Token.width, String.toList_ofList]
    exact ⟨trivial, hlongest, hfurther⟩
  | @character _ c rest _ _ _ hfurther =>
    refine ⟨rfl, rest, ?_⟩
    rw [Token.width, Token.chars_ofChar]
    refine ⟨rfl, ?_, hfurther⟩
    show (Token.ofChar c).LongestBefore rest
    unfold Token.ofChar
    repeat' split
    all_goals trivial

/-- The tokens from one token on are those of the text from its position on. -/
theorem Lexes.drop {position : Nat} {cs : List Char} {t : Placed} {ts us : List Placed}
    (h : Lexes position cs us) (hsuffix : t :: ts <:+ us) :
    position ≤ t.position ∧ Lexes t.position (cs.drop (t.position - position)) (t :: ts) := by
  induction us generalizing position cs with
  | nil => exact absurd (List.eq_nil_of_suffix_nil hsuffix) (List.cons_ne_nil _ _)
  | cons u us ih =>
    obtain ⟨hposition, rest, rfl, _, hrest⟩ := h.of_cons
    rcases List.suffix_cons_iff.1 hsuffix with heq | hsuffix
    · obtain ⟨rfl, rfl⟩ := List.cons.inj heq
      rw [hposition, Nat.sub_self]
      exact ⟨Nat.le_refl _, h⟩
    · obtain ⟨hle, hlexes⟩ := ih hrest hsuffix
      rw [Token.width] at hle hlexes
      rw [List.drop_append, List.drop_of_length_le (by omega), List.nil_append, Nat.sub_sub]
      exact ⟨by omega, hlexes⟩

/-- A token of a text stands at its position in the text. -/
theorem Placed.lexes_of_suffix {cs : List Char} {t : Placed} {ts : List Placed}
    (h : t :: ts <:+ scan 0 cs) :
    t.position < cs.length ∧ Lexes t.position (cs.drop t.position) (t :: ts) := by
  have hlexes : Lexes 0 cs (scan 0 cs) := lexes_iff.2 rfl
  have hplace := position_of_mem_scan (h.subset List.mem_cons_self)
  rw [Nat.zero_add] at hplace
  exact ⟨hplace.2, (hlexes.drop h).2⟩

/-- A power sign is a token. -/
theorem Lexes.head?_ne_pow {position : Nat} {cs : List Char} {ts : List Placed}
    (h : Lexes position cs ts) (hts : ∀ t ∈ ts.head?, t.token ≠ .operator .pow) :
    cs.head? ≠ some '^' := by
  intro hhead
  obtain ⟨rest, rfl⟩ := List.head?_eq_some_iff.1 hhead
  have hnext : Token.next '^' rest = (.operator .pow, rest) := rfl
  rw [lexes_iff.1 h, Placed.scan, hnext] at hts
  exact hts _ rfl rfl

/-! ## No two instructions have one position -/

/-- The positions of instructions. -/
def Code.positions (code : Code) : List Int := code.map (·.position)

/-- The positions of tokens. -/
def Placed.positions (ts : List Placed) : List Int := ts.map fun t ↦ (t.position : Int)

/-- A sign adds one position at most. -/
theorem positions_negateCode {code : Code} {ps : List Int} (position : Nat)
    (h : code.positions <+~ ps) :
    (negateCode position code).positions <+~ (position : Int) :: ps := by
  have hdrop : Code.positions code.dropLast <+~ ps :=
    ((List.dropLast_sublist code).map _).subperm.trans h
  have hconcat {code' : Code} (h' : code'.positions <+~ ps) (operation : Operation) :
      Code.positions (code' ++ [⟨operation, position⟩]) <+~ (position : Int) :: ps := by
    rw [Code.positions, List.map_append]
    exact (List.perm_append_singleton ..).subperm.trans ((List.subperm_cons _).2 h')
  unfold negateCode
  split
  · exact hconcat hdrop _
  · exact hdrop.trans (List.sublist_cons_self ..).subperm
  · exact hconcat h _

/-- Pieces of code with the positions of the tokens of items, all together. -/
theorem positions_flatMap {f : Extent → Code} {items : List Extent}
    (h : ∀ i ∈ items, (f i).positions <+~ Placed.positions (i.tokens ++ [⟨.comma, i.comma⟩])) :
    Code.positions (items.flatMap f) <+~ Placed.positions (Extent.joined items) := by
  induction items with
  | nil => exact .refl _
  | cons i items ih =>
    obtain ⟨hi, hitems⟩ := List.forall_mem_cons.1 h
    rw [Extent.joined, List.flatMap_cons, List.flatMap_cons, Code.positions, Placed.positions,
      List.map_append, List.map_append]
    exact hi.append (ih hitems)

namespace Expr

/-- **The positions of the code of an expression are positions of its tokens**, each of them used
once at most. -/
theorem Spans.positions_subperm {e : Expr} {ts : List Placed} (h : e.Spans scope ts) :
    e.code.positions <+~ Placed.positions ts := by
  have hmap {us vs : List Placed} (h : us <+ vs) : Placed.positions us <+~ Placed.positions vs :=
    (h.map _).subperm
  induction h with
  | number | name => exact .refl _
  | callNone => exact List.singleton_subperm_iff.2 List.mem_cons_self
  | @call f text position _ closing items ts e _ _ all last ih ihlast =>
    have hitems : Code.positions (codeOfAll (items.map Extent.expr)) <+~
        Placed.positions (Extent.joined items) := by
      rw [codeOfAll_eq_flatMap, List.flatMap_map]
      exact positions_flatMap fun i hi ↦ (ih i hi).trans (hmap (List.sublist_append_left ..))
    have hclosing : ts <+ ts ++ [⟨.closing, closing⟩] := List.sublist_append_left ..
    have harguments := hitems.append (ihlast.trans (hmap hclosing))
    simp only [code, codeOfAll_eq_flatMap, List.flatMap_append, List.flatMap_singleton,
      Code.positions, Placed.positions, List.map_append, List.map_cons, List.map_nil] at *
    exact (List.perm_append_singleton ..).subperm.trans
      ((List.subperm_cons _).2 (harguments.trans (List.sublist_cons_self ..).subperm))
  | group _ ih =>
    exact ih.trans (hmap ((List.sublist_append_left ..).trans (List.sublist_cons_self ..)))
  | negate _ ih => exact positions_negateCode _ ih
  | binary _ _ _ ihl ihr =>
    simp only [code, Code.positions, Placed.positions, List.map_append, List.map_cons,
      List.map_nil] at *
    exact (List.perm_append_singleton ..).subperm.trans
      (((List.subperm_cons _).2 (ihl.append ihr)).trans List.perm_middle.symm.subperm)
  | @assign r equals ts us e v htarget hspan _ _ ihv =>
    have hname := ((hspan.writtenIn (List.Subset.refl _)).target.1 _ htarget).mem
    have htarget : [(r.position : Int)] <+~ Placed.positions ts :=
      List.singleton_subperm_iff.2 (List.mem_map_of_mem hname)
    have hspan : us <+ ⟨.equals, equals⟩ :: us := List.sublist_cons_self ..
    simp only [code, Code.positions, Placed.positions, List.map_append, List.map_cons,
      List.map_nil] at *
    exact List.perm_append_comm.subperm.trans (htarget.append (ihv.trans (hmap hspan)))

end Expr

/-! ## Signs and constants -/

/-- One sign more turns a signed float over. -/
theorem signedFloat_succ (signs : Nat) (numeral : List Char) :
    signedFloat (signs + 1) numeral = -signedFloat signs numeral := by
  unfold signedFloat
  by_cases heven : Even signs
  · rw [if_pos heven, if_neg (by rwa [Nat.even_add_one, not_not])]
  · rw [if_neg heven, if_pos (Nat.even_add_one.2 heven), float_neg_neg]

/-- Code ends with an instruction that no sign changes or cancels. -/
def Code.Firm (code : Code) : Prop :=
  ∃ init i, code = init ++ [i] ∧ (∀ value, i.operation ≠ .constant value) ∧ i.operation ≠ .negate

/-- Code ends with an instruction that is no constant, and before a sign there is no other. -/
inductive Code.Computed : Code → Prop
  | firm {code : Code} (h : code.Firm) : Computed code
  | negated {code : Code} (position : Int) (h : code.Firm) :
    Computed (code ++ [⟨.negate, position⟩])

theorem Code.Firm.negateCode_eq {code : Code} (h : code.Firm) (position : Nat) :
    negateCode position code = code ++ [⟨.negate, position⟩] := by
  obtain ⟨init, ⟨operation, origin⟩, rfl, hconstant, hnegate⟩ := h
  exact negateCode_other position init origin hconstant hnegate

theorem Code.Computed.negateCode {code : Code} (h : code.Computed) (position : Nat) :
    Code.Computed (negateCode position code) := by
  cases h with
  | firm hfirm =>
    rw [hfirm.negateCode_eq]
    exact .negated _ hfirm
  | negated _ hfirm =>
    rw [negateCode_negate]
    exact .firm hfirm

/-- A sign behind such code is an instruction, or takes one away. -/
theorem Code.Computed.mem_negateCode {code : Code} (h : code.Computed) {position : Nat}
    {i : Instruction} (hi : i ∈ Reckoner.negateCode position code) :
    i ∈ code ∨ i = ⟨.negate, position⟩ := by
  cases h with
  | firm hfirm =>
    rw [hfirm.negateCode_eq] at hi
    simpa using hi
  | negated origin hfirm =>
    rw [negateCode_negate] at hi
    exact .inl (List.mem_append_left _ hi)

/-- Code that ends with an instruction of another kind. -/
theorem Code.computed_concat (init : Code) {i : Instruction}
    (hconstant : ∀ value, i.operation ≠ .constant value) (hnegate : i.operation ≠ .negate) :
    Code.Computed (init ++ [i]) :=
  .firm ⟨init, i, rfl, hconstant, hnegate⟩

namespace Expr

/-- **An expression makes a constant only if it is a numeral with signs.**  The tokens behind it
matter for the last of these, which may be the base of a power. -/
theorem Spans.constant_or_computed {e : Expr} {ts after : List Placed} (h : e.Spans scope ts)
    {position : Nat} {cs : List Char} (hlexes : Lexes position cs (ts ++ after))
    (hafter : e.isElement = true ∨ ∀ t ∈ after.head?, t.token ≠ .operator .pow) :
    (∃ numeral signs rest origin stop,
      e.code = [⟨.constant (.scalar (signedFloat signs numeral)), origin⟩] ∧
        SignedNumeral numeral signs cs rest ∧ Lexes stop rest after) ∨ e.code.Computed := by
  induction h generalizing position cs after with
  | @number numeral origin =>
    obtain ⟨_, rest, rfl, hlongest, hrest⟩ := hlexes.of_cons
    exact .inl ⟨numeral, 0, rest, origin, _, rfl, .numeral hlongest, hrest⟩
  | name => exact .inr (Code.computed_concat [] (by simp) (by simp))
  | callNone | call | binary | assign => exact .inr (Code.computed_concat _ (by simp) (by simp))
  | @group _ closing ts e inner ih =>
    obtain ⟨_, rest, rfl, _, hinner⟩ := hlexes.of_cons
    replace hinner : Lexes (position + Token.opening.width) rest
        (ts ++ ⟨.closing, closing⟩ :: after) := by simpa using hinner
    rcases ih hinner (.inr (by simp)) with ⟨numeral, signs, rest', origin, _, hcode, hs, hrest⟩ | h
    · obtain ⟨_, rest'', rfl, _, hafter⟩ := hrest.of_cons
      exact .inl ⟨numeral, signs, rest'', origin, _, hcode, .group hs, hafter⟩
    · exact .inr h
  | @negate origin ts e operand ih =>
    obtain ⟨_, rest, rfl, _, hoperand⟩ := hlexes.of_cons
    have hafter := hafter.resolve_left (by simp [isElement])
    rcases ih hoperand (.inr hafter) with ⟨numeral, signs, rest', _, _, hcode, hs, hrest⟩ | h
    · refine .inl ⟨numeral, signs + 1, rest', origin, _, ?_, .sign hs ?_, hrest⟩
      · rw [code, hcode]
        exact (negateCode_constant _ [] _ _).trans (by rw [signedFloat_succ]; rfl)
      · exact hrest.head?_ne_pow hafter
    · exact .inr (h.negateCode origin)

end Expr

/-! ## Instructions and the text at their positions -/

/-- The tokens of an item are followed by its comma. -/
theorem Extent.exists_suffix_of_mem {items : List Extent} {i : Extent} (hi : i ∈ items)
    (us : List Placed) :
    ∃ after, i.tokens ++ ⟨.comma, i.comma⟩ :: after <:+ joined items ++ us := by
  obtain ⟨before, behind, rfl⟩ := List.append_of_mem hi
  refine ⟨joined behind ++ us, joined before, ?_⟩
  simp [joined]

section

variable {cs : List Char}

/-- An instruction at a token of a text was made from the text there. -/
theorem Instruction.MadeFrom.of_token {t : Placed} {ts : List Placed} {operation : Operation}
    (h : t :: ts <:+ Placed.scan 0 cs)
    (hmade : ∀ rest, t.token.LongestBefore rest → Lexes (t.position + t.token.width) rest ts →
      operation.MadeFrom scope (t.token.chars ++ rest)) :
    Instruction.MadeFrom scope cs ⟨operation, t.position⟩ := by
  obtain ⟨hlt, hlexes⟩ := Placed.lexes_of_suffix h
  obtain ⟨_, rest, hdrop, hlongest, hrest⟩ := hlexes.of_cons
  exact ⟨t.position, rfl, hlt, hdrop ▸ hmade rest hlongest hrest⟩

/-- The function of a name is the one of its code. -/
theorem FunctionTable.findCode?_of_find? {table : FunctionTable} (h : table.InPlace)
    {name : String} {f : Function} (hfind : table.find? name = some f) :
    table.findCode? f.code = some f := by
  obtain ⟨i, hi⟩ := List.mem_iff_getElem?.1 (List.mem_of_find?_eq_some hfind)
  rw [findCode?, h i f hi, if_pos (Int.natCast_nonneg i), Int.toNat_natCast, hi]

/-- A call stands at the name of its function, before the opening bracket. -/
theorem Instruction.MadeFrom.call (hplace : scope.functions.InPlace) {text : String} {f : Function}
    {position opening : Nat} {ts : List Placed} (hmeaning : scope.meaning text = .function f)
    (h : ⟨.name text, position⟩ :: ⟨.opening, opening⟩ :: ts <:+ Placed.scan 0 cs) :
    Instruction.MadeFrom scope cs ⟨.call f.code f.arity, position⟩ := by
  refine .of_token h fun rest hlongest hrest ↦ ?_
  obtain ⟨_, rest', rfl, _, _⟩ := hrest.of_cons
  have hfind := Scope.find?_of_meaning_function hmeaning
  exact .call hlongest hfind (FunctionTable.findCode?_of_find? hplace hfind)

/-- The instruction of a sign, or the constant it was worked into, stands at the sign. -/
theorem madeFrom_negateCode {e : Expr} {position : Nat} {ts after : List Placed}
    (hspan : e.Spans scope ts) (hafter : ∀ t ∈ after.head?, t.token ≠ .operator .pow)
    (h : ⟨.operator .sub, position⟩ :: (ts ++ after) <:+ Placed.scan 0 cs)
    (hcode : ∀ i ∈ e.code, i.MadeFrom scope cs) :
    ∀ i ∈ negateCode position e.code, i.MadeFrom scope cs := by
  obtain ⟨hlt, hlexes⟩ := Placed.lexes_of_suffix h
  obtain ⟨_, rest, hdrop, _, hoperand⟩ := hlexes.of_cons
  rcases hspan.constant_or_computed hoperand (.inr hafter) with
    ⟨numeral, signs, rest', _, _, heq, hs, hrest⟩ | hcomputed
  · rw [heq]
    refine List.forall_mem_singleton.2 ⟨position, rfl, hlt, ?_⟩
    rw [hdrop, Value.opposite, ← signedFloat_succ]
    exact .signed (.sign hs (hrest.head?_ne_pow hafter))
  · intro i hi
    rcases hcomputed.mem_negateCode hi with hi | rfl
    · exact hcode i hi
    · exact ⟨position, rfl, hlt, hdrop ▸ .negate⟩

/-- **The instructions of an expression stand where the text has what they were made from.** -/
theorem Expr.Spans.madeFrom (hplace : scope.functions.InPlace) {e : Expr}
    {ts after : List Placed} (h : e.Spans scope ts) (hsuffix : ts ++ after <:+ Placed.scan 0 cs)
    (hafter : e.isElement = true ∨ ∀ t ∈ after.head?, t.token ≠ .operator .pow) :
    ∀ i ∈ e.code, i.MadeFrom scope cs := by
  induction h generalizing after with
  | number =>
    refine List.forall_mem_singleton.2 (.of_token hsuffix fun rest hlongest _ ↦ ?_)
    exact .numeral hlongest
  | name hmeaning =>
    refine List.forall_mem_singleton.2 (.of_token hsuffix fun rest hlongest _ ↦ ?_)
    obtain ⟨hfree, v, hbound, hslot⟩ := Scope.find?_of_meaning_variable hmeaning
    rw [← hslot]
    exact .load hlongest hfree hbound
  | callNone hmeaning =>
    exact List.forall_mem_singleton.2 (.call hplace hmeaning hsuffix)
  | @call f text position opening closing items ts e hmeaning _ _ _ ih ihlast =>
    have hitems : Extent.joined items ++ (ts ++ ⟨.closing, closing⟩ :: after) <:+
        Placed.scan 0 cs := by
      refine List.IsSuffix.trans ⟨[⟨.name text, position⟩, ⟨.opening, opening⟩], ?_⟩ hsuffix
      simp
    rw [code, codeOfAll_eq_flatMap, List.flatMap_append, List.flatMap_map]
    refine List.forall_mem_append.2 ⟨List.forall_mem_append.2 ⟨fun j hj ↦ ?_, ?_⟩,
      List.forall_mem_singleton.2 (.call hplace hmeaning hsuffix)⟩
    · obtain ⟨i, hi, hj⟩ := List.mem_flatMap.1 hj
      obtain ⟨after', hitem⟩ := Extent.exists_suffix_of_mem hi (ts ++ ⟨.closing, closing⟩ :: after)
      exact ih i hi (hitem.trans hitems) (.inr (by simp)) j hj
    · rw [List.flatMap_singleton]
      exact ihlast ((List.suffix_append ..).trans hitems) (.inr (by simp))
  | @group position closing ts _ _ ih =>
    have hinner : ts ++ ⟨.closing, closing⟩ :: after <:+ Placed.scan 0 cs := by
      refine List.IsSuffix.trans ⟨[⟨.opening, position⟩], ?_⟩ hsuffix
      simp
    exact ih hinner (.inr (by simp))
  | negate hspan ih =>
    have hafter := hafter.resolve_left (by simp [isElement])
    exact madeFrom_negateCode hspan hafter hsuffix
      (ih ((List.suffix_cons ..).trans hsuffix) (.inr hafter))
  | @binary op position ls rs l r helement _ _ ihl ihr =>
    have hafter := hafter.resolve_left (by simp [isElement])
    have hleft : ls ++ ⟨.operator op, position⟩ :: (rs ++ after) <:+ Placed.scan 0 cs := by
      simpa using hsuffix
    have hoperator := (List.suffix_append ..).trans hleft
    have hbase : l.isElement = true ∨ op ≠ .pow := by
      by_cases hop : op = .pow
      · exact .inl (helement hop)
      · exact .inr hop
    refine List.forall_mem_append.2 ⟨List.forall_mem_append.2 ⟨?_, ?_⟩,
      List.forall_mem_singleton.2 (.of_token hoperator fun _ _ _ ↦ .binary)⟩
    · exact ihl hleft (hbase.imp_right fun hop ↦ by simpa using hop)
    · exact ihr ((List.suffix_cons ..).trans hoperator) (.inr hafter)
  | @assign r equals ts us e v htarget hspan _ _ ihv =>
    have hafter := hafter.resolve_left (by simp [isElement])
    have hspans : ts ++ ⟨.equals, equals⟩ :: (us ++ after) <:+ Placed.scan 0 cs := by
      simpa using hsuffix
    have hvalue := (List.suffix_cons ..).trans ((List.suffix_append ..).trans hspans)
    refine List.forall_mem_append.2 ⟨ihv hvalue (.inr hafter), List.forall_mem_singleton.2 ?_⟩
    have hname := (hspan.writtenIn (List.Subset.refl _)).target.1 _ htarget
    obtain ⟨before, behind, rfl⟩ := List.append_of_mem hname.mem
    have htoken : ⟨.name r.name, r.position⟩ :: (behind ++ ⟨.equals, equals⟩ :: (us ++ after)) <:+
        Placed.scan 0 cs := by
      refine List.IsSuffix.trans ⟨before, ?_⟩ hspans
      simp
    obtain ⟨hfree, w, hbound, hslot⟩ := Scope.find?_of_meaning_variable hname.meaning
    refine .of_token htoken fun rest hlongest _ ↦ ?_
    rw [← hslot]
    exact .store hlongest hfree hbound

theorem Sequence.Spans.madeFrom (hplace : scope.functions.InPlace) {s : Sequence}
    (h : s.Spans scope (Placed.scan 0 cs)) : ∀ i ∈ s.code, i.MadeFrom scope cs := by
  generalize hscan : Placed.scan 0 cs = tokens at h
  obtain @⟨items, ts, e, hall, hlast⟩ := h
  have hsuffix : Extent.joined items ++ ts <:+ Placed.scan 0 cs := hscan ▸ List.suffix_refl _
  refine List.forall_mem_append.2 ⟨fun j hj ↦ ?_, ?_⟩
  · obtain ⟨_, hf, hj⟩ := List.mem_flatMap.1 hj
    obtain ⟨i, hi, rfl⟩ := List.mem_map.1 hf
    obtain ⟨after, hitem⟩ := Extent.exists_suffix_of_mem hi ts
    replace hitem := hitem.trans hsuffix
    rcases List.mem_append.1 hj with hj | hj
    · exact (hall i hi).madeFrom hplace hitem (.inr (by simp)) j hj
    · rw [List.mem_singleton.1 hj]
      exact .of_token ((List.suffix_append ..).trans hitem) fun _ _ _ ↦ .discard
  · have hend : ts ++ [] <:+ Placed.scan 0 cs := by
      rw [List.append_nil]
      exact (List.suffix_append ..).trans hsuffix
    exact hlast.madeFrom hplace hend (.inr (by simp))

end

/-! ## Programs -/

/-- Tokens stand one behind the other. -/
theorem Placed.nodup_positions_scan (position : Nat) (cs : List Char) :
    (positions (scan position cs)).Nodup := by
  fun_induction scan position cs with
  | case1 => exact List.nodup_nil
  | case2 position c cs ih =>
    refine List.nodup_cons.2 ⟨fun hmem ↦ ?_, ih⟩
    obtain ⟨t, ht, heq⟩ := List.mem_map.1 hmem
    have hplace := position_of_mem_scan ht
    have hwidth : 0 < (Token.next c cs).1.width :=
      List.length_pos_iff.2 (Token.chars_next_ne_nil c cs)
    simp only at heq
    omega

theorem Sequence.Spans.positions_subperm {s : Sequence} {ts : List Placed}
    (h : s.Spans scope ts) : s.code.positions <+~ Placed.positions ts := by
  obtain @⟨items, ts, e, hall, hlast⟩ := h
  have hitems : Code.positions (items.flatMap fun i ↦ i.expr.code ++ [⟨.discard, i.comma⟩]) <+~
      Placed.positions (Extent.joined items) := by
    refine positions_flatMap fun i hi ↦ ?_
    rw [Code.positions, Placed.positions, List.map_append, List.map_append]
    exact (hall i hi).positions_subperm.append (.refl _)
  have hall := hitems.append hlast.positions_subperm
  simpa [code, Code.positions, Placed.positions, List.flatMap_map, Extent.finished] using hall

namespace Scope

/-- **The source map is right.**  Let a table of functions be made from any entries, and let a text
compile, whether it has passed the structural check or not.  Then no two instructions of the program
have one position, and each has a position in the text where there stands what it was made from. -/
theorem source_map {entries : List (String × Int)} {text : String} {p : Program}
    (hfunctions : FunctionTable.ofList entries = .ok scope.functions)
    (h : scope.compile text = .ok p) :
    (p.code.map (·.position)).Nodup ∧ ∀ i ∈ p.code, i.MadeFrom scope text.toList := by
  obtain ⟨sequence, hread, rfl⟩ := read_of_compile h
  have hspans := spans_of_read hread
  obtain ⟨positions, hperm, hsublist⟩ := hspans.positions_subperm
  refine ⟨?_, hspans.madeFrom (FunctionTable.inPlace_of_ofList hfunctions)⟩
  exact hperm.nodup_iff.1 (hsublist.nodup (Placed.nodup_positions_scan ..))

/-- Two signs with a bracket between them leave one constant, at the first of them. -/
theorem source_map_signs :
    ∃ p, compile ⟨.standard, Environment.empty.create "x" (.text "a"), 64⟩ "x=-(-2)*abs(x),-x" =
        .ok p ∧
      p.code.map (·.position) = [2, 12, 8, 7, 0, 14, 16, 15] ∧
      (p.code.map (·.position)).Nodup ∧
      ∀ i ∈ p.code, i.MadeFrom ⟨.standard, Environment.empty.create "x" (.text "a"), 64⟩
        "x=-(-2)*abs(x),-x".toList := by
  have hcompile : (compile ⟨.standard, Environment.empty.create "x" (.text "a"), 64⟩
      "x=-(-2)*abs(x),-x").map (fun p ↦ p.code.map (·.position)) =
        .ok [2, 12, 8, 7, 0, 14, 16, 15] := by decide +kernel
  obtain ⟨p, hp, hpositions⟩ := exists_of_map_compile hcompile
  obtain ⟨hnodup, hmade⟩ := source_map FunctionTable.ofList_standard hp
  exact ⟨p, hp, hpositions, hnodup, hmade⟩

end Scope

end Reckoner
