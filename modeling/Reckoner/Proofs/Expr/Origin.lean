import Reckoner.Proofs.Expr.Span

/-!
# Where an expression comes from

The reader puts an expression together from the tokens of a text, and every node of the expression
answers for one of them.  `Expr.WrittenIn` says so for each kind of node: a number, a sign, an
operator and a bracket stand in the text at the position of the node; the name of a variable stands
there, and the node has the slot that the variable had when the text was read; the name of a
function stands there, and the call has as many arguments as the function takes.

This forgets the order of the tokens, which most of what is said about the nodes does not need.  It
holds of every expression that was read from a part of the text (`Expr.Spans.writtenIn`), and so of
what the reader answers (`written_of_read`), whether the text has passed the structural check or
not.
-/

set_option autoImplicit false

namespace Reckoner

variable {scope : Scope} {tokens : List Placed}

/-- The name of a reference stands in the text, and means the variable that owns the slot. -/
structure Reference.WrittenIn (scope : Scope) (tokens : List Placed) (r : Reference) : Prop where
  /-- The name is a token of the text. -/
  mem : ⟨.name r.name, r.position⟩ ∈ tokens
  /-- The name means the variable of the slot. -/
  meaning : scope.meaning r.name = .variable r.slot

/-- Every node of an expression answers for a token of the text. -/
inductive Expr.WrittenIn (scope : Scope) (tokens : List Placed) : Expr → Prop
  | number {numeral : List Char} {position : Nat} (mem : ⟨.number numeral, position⟩ ∈ tokens) :
    WrittenIn scope tokens (.number numeral position)
  | name {r : Reference} (written : r.WrittenIn scope tokens) : WrittenIn scope tokens (.name r)
  | call {f : Function} {position : Nat} {arguments : List Expr} {text : String}
    (mem : ⟨.name text, position⟩ ∈ tokens) (meaning : scope.meaning text = .function f)
    (length : arguments.length = f.arity) (all : ∀ e ∈ arguments, WrittenIn scope tokens e) :
    WrittenIn scope tokens (.call f position arguments)
  | group {position : Nat} {inner : Expr} (mem : ⟨.opening, position⟩ ∈ tokens)
    (written : WrittenIn scope tokens inner) : WrittenIn scope tokens (.group position inner)
  | negate {position : Nat} {operand : Expr} (mem : ⟨.operator .sub, position⟩ ∈ tokens)
    (written : WrittenIn scope tokens operand) :
    WrittenIn scope tokens (.negate position operand)
  | binary {op : Operator} {position : Nat} {left right : Expr}
    (mem : ⟨.operator op, position⟩ ∈ tokens) (left_written : WrittenIn scope tokens left)
    (right_written : WrittenIn scope tokens right) :
    WrittenIn scope tokens (.binary op position left right)
  | assign {target : Reference} {value : Expr} (target_written : target.WrittenIn scope tokens)
    (written : WrittenIn scope tokens value) : WrittenIn scope tokens (.assign target value)

/-- A sequence is made of the tokens of a text. -/
structure Sequence.WrittenIn (scope : Scope) (tokens : List Placed) (s : Sequence) : Prop where
  /-- The statements that are not the last one, and their commas. -/
  finished : ∀ f ∈ s.finished,
    f.statement.WrittenIn scope tokens ∧ ⟨.comma, f.comma⟩ ∈ tokens
  /-- The last statement. -/
  last : s.last.WrittenIn scope tokens

namespace Expr

/-- The variable that an expression amounts to is one that it names. -/
theorem WrittenIn.target {e : Expr} (h : e.WrittenIn scope tokens) :
    (∀ r, e.target? = some r → r.WrittenIn scope tokens) ∧
      ∀ r, e.negatedTarget? = some r → r.WrittenIn scope tokens := by
  induction h with
  | name written => exact ⟨fun _ hr ↦ Option.some.inj hr ▸ written, (fun _ hr ↦ nomatch hr)⟩
  | group _ _ ih => exact ih
  | negate _ _ ih => exact ⟨ih.2, ih.1⟩
  | number | call | binary | assign =>
    exact ⟨(fun _ hr ↦ nomatch hr), (fun _ hr ↦ nomatch hr)⟩

end Expr

/-- What was read from tokens is made of them. -/
theorem Expr.Spans.writtenIn {e : Expr} {ts : List Placed} (h : e.Spans scope ts)
    (hts : ts ⊆ tokens) : e.WrittenIn scope tokens := by
  induction h with
  | number => exact .number (hts (List.mem_singleton_self _))
  | name hmeaning => exact .name ⟨hts (List.mem_singleton_self _), hmeaning⟩
  | callNone hmeaning harity =>
    exact .call (hts List.mem_cons_self) hmeaning harity.symm (by simp)
  | @call _ _ _ _ _ items _ e hmeaning harity _ _ ih ihlast =>
    obtain ⟨hname, hrest⟩ := List.cons_subset.1 hts
    obtain ⟨hitems, hlast⟩ := List.append_subset.1 (List.cons_subset.1 hrest).2
    refine .call hname hmeaning (by simpa using harity) ?_
    refine List.forall_mem_append.2 ⟨List.forall_mem_map.2 fun i hi ↦ ih i hi ?_,
      List.forall_mem_singleton.2 (ihlast (List.append_subset.1 hlast).1)⟩
    exact fun t ht ↦ hitems
      (List.mem_flatMap.2 ⟨i, hi, List.mem_append_left _ ht⟩)
  | group _ ih =>
    obtain ⟨hopening, hrest⟩ := List.cons_subset.1 hts
    exact .group hopening (ih (List.append_subset.1 hrest).1)
  | negate _ ih =>
    obtain ⟨hsign, hoperand⟩ := List.cons_subset.1 hts
    exact .negate hsign (ih hoperand)
  | binary _ _ _ ihl ihr =>
    obtain ⟨hleft, hrest⟩ := List.append_subset.1 hts
    obtain ⟨hop, hright⟩ := List.cons_subset.1 hrest
    exact .binary hop (ihl hleft) (ihr hright)
  | assign htarget _ _ iht ihv =>
    obtain ⟨hspan, hrest⟩ := List.append_subset.1 hts
    exact .assign ((iht hspan).target.1 _ htarget) (ihv (List.cons_subset.1 hrest).2)

theorem Sequence.Spans.writtenIn {s : Sequence} (h : s.Spans scope tokens) :
    s.WrittenIn scope tokens := by
  obtain ⟨hall, hlast⟩ := h
  refine ⟨List.forall_mem_map.2 fun i hi ↦ ?_, hlast.writtenIn (List.subset_append_right ..)⟩
  have hitem : i.tokens ++ [⟨.comma, i.comma⟩] ⊆ Extent.joined _ := fun t ht ↦
    List.mem_flatMap.2 ⟨i, hi, ht⟩
  obtain ⟨htokens, hcomma⟩ :=
    List.append_subset.1 (List.Subset.trans hitem (List.subset_append_left ..))
  exact ⟨(hall i hi).writtenIn htokens, hcomma (List.mem_singleton_self _)⟩

namespace Scope

/-- **What is read from a text is made of its tokens.** -/
theorem written_of_read {text : String} {sequence : Sequence}
    (h : scope.read text = .ok sequence) :
    sequence.WrittenIn scope (Placed.scan 0 text.toList) :=
  (spans_of_read h).writtenIn

/-- A program that was compiled is that of a sequence which was read. -/
theorem read_of_compile {text : String} {p : Program} (h : scope.compile text = .ok p) :
    ∃ sequence, scope.read text = .ok sequence ∧ p = sequence.program text := by
  rw [compile] at h
  cases hread : scope.read text with
  | ok sequence => rw [hread] at h; cases h; exact ⟨sequence, rfl, rfl⟩
  | error e => rw [hread] at h; cases h

/-- What is known of the program of a text shows that there is one. -/
theorem exists_of_map_compile {α : Type} {text : String} {f : Program → α} {a : α}
    (h : (scope.compile text).map f = .ok a) : ∃ p, scope.compile text = .ok p ∧ f p = a := by
  cases hcompile : scope.compile text with
  | ok p => rw [hcompile] at h; exact ⟨p, rfl, Except.ok.inj h⟩
  | error e => rw [hcompile] at h; cases h

end Scope

end Reckoner
