import Reckoner.Proofs.Expr.Balance

/-!
# Where an instruction comes from

Every instruction of compiled code has the position of a token of the text, and it does what this
token says.  `Instruction.WrittenIn` says so for each operation: a constant stands at its numeral or
at the sign that was worked into it, a load or a store at the name of its variable, a call at the
name of its function, an operator and a sign at themselves, and a value is dropped at a comma.  The
operations of which nothing is said here are in no compiled code.

`Scope.instructions_of_compile` is what follows for programs.  As the position of a token is inside
the text (`Placed.position_of_mem_scan`), that of an instruction is.
-/

set_option autoImplicit false

namespace Reckoner

variable {scope : Scope} {tokens : List Placed}

/-- An instruction stands at a token of the text and does what the token says. -/
inductive Instruction.WrittenIn (scope : Scope) (tokens : List Placed) : Instruction → Prop
  | number {value : Value} {numeral : List Char} {position : Nat}
    (mem : ⟨.number numeral, position⟩ ∈ tokens) :
    WrittenIn scope tokens ⟨.constant value, position⟩
  | signed {value : Value} {position : Nat} (mem : ⟨.operator .sub, position⟩ ∈ tokens) :
    WrittenIn scope tokens ⟨.constant value, position⟩
  | load {r : Reference} (written : r.WrittenIn scope tokens) :
    WrittenIn scope tokens ⟨.load r.slot, r.position⟩
  | store {r : Reference} (written : r.WrittenIn scope tokens) :
    WrittenIn scope tokens ⟨.store r.slot, r.position⟩
  | discard {position : Nat} (mem : ⟨.comma, position⟩ ∈ tokens) :
    WrittenIn scope tokens ⟨.discard, position⟩
  | binary {op : Operator} {position : Nat} (mem : ⟨.operator op, position⟩ ∈ tokens) :
    WrittenIn scope tokens ⟨.binary op, position⟩
  | negate {position : Nat} (mem : ⟨.operator .sub, position⟩ ∈ tokens) :
    WrittenIn scope tokens ⟨.negate, position⟩
  | call {f : Function} {text : String} {position : Nat} (mem : ⟨.name text, position⟩ ∈ tokens)
    (meaning : scope.meaning text = .function f) :
    WrittenIn scope tokens ⟨.call f.code f.arity, position⟩

theorem Instruction.WrittenIn.exists_token {i : Instruction} (h : i.WrittenIn scope tokens) :
    ∃ t ∈ tokens, i.position = t.position := by
  cases h with
  | load written | store written => exact ⟨_, written.mem, rfl⟩
  | number mem | signed mem | discard mem | binary mem | negate mem | call mem =>
    exact ⟨_, mem, rfl⟩

/-- A sign leaves the instructions before it as they are, or takes the last of them away. -/
theorem forall_mem_negateCode {position : Nat} {code : Code}
    (hsign : ⟨.operator .sub, position⟩ ∈ tokens)
    (hcode : ∀ i ∈ code, i.WrittenIn scope tokens) :
    ∀ i ∈ negateCode position code, i.WrittenIn scope tokens := by
  unfold negateCode
  split
  · refine List.forall_mem_append.2 ⟨fun i hi ↦ hcode i (List.dropLast_subset _ hi), ?_⟩
    exact List.forall_mem_singleton.2 (.signed hsign)
  · exact fun i hi ↦ hcode i (List.dropLast_subset _ hi)
  · exact List.forall_mem_append.2 ⟨hcode, List.forall_mem_singleton.2 (.negate hsign)⟩

/-- **Every instruction of the code of an expression comes from a token.** -/
theorem Expr.WrittenIn.instructions {e : Expr} (h : e.WrittenIn scope tokens) :
    ∀ i ∈ e.code, i.WrittenIn scope tokens := by
  induction h with
  | number mem => exact List.forall_mem_singleton.2 (.number mem)
  | name written => exact List.forall_mem_singleton.2 (.load written)
  | call mem meaning _ _ ih =>
    rw [code, codeOfAll_eq_flatMap]
    refine List.forall_mem_append.2 ⟨fun i hi ↦ ?_, List.forall_mem_singleton.2 (.call mem meaning)⟩
    obtain ⟨e, he, hi⟩ := List.mem_flatMap.1 hi
    exact ih e he i hi
  | group _ _ ih => exact ih
  | negate mem _ ih => exact forall_mem_negateCode mem ih
  | binary mem _ _ ihl ihr =>
    exact List.forall_mem_append.2
      ⟨List.forall_mem_append.2 ⟨ihl, ihr⟩, List.forall_mem_singleton.2 (.binary mem)⟩
  | assign written _ ih =>
    exact List.forall_mem_append.2 ⟨ih, List.forall_mem_singleton.2 (.store written)⟩

theorem Sequence.WrittenIn.instructions {s : Sequence} (h : s.WrittenIn scope tokens) :
    ∀ i ∈ s.code, i.WrittenIn scope tokens := by
  refine List.forall_mem_append.2 ⟨fun i hi ↦ ?_, h.last.instructions⟩
  obtain ⟨f, hf, hi⟩ := List.mem_flatMap.1 hi
  obtain ⟨hstatement, hcomma⟩ := h.finished f hf
  exact List.forall_mem_append.2
    ⟨hstatement.instructions, List.forall_mem_singleton.2 (.discard hcomma)⟩ i hi

/-- The positions of the tokens of a text are places in it. -/
theorem Placed.position_of_mem_scan {position : Nat} {cs : List Char} {t : Placed}
    (h : t ∈ scan position cs) : position ≤ t.position ∧ t.position < position + cs.length := by
  fun_induction scan position cs with
  | case1 => cases h
  | case2 position c cs ih =>
    have hlength := congrArg List.length (Token.next_append c cs)
    have hne := List.length_pos_iff.2 (Token.chars_next_ne_nil c cs)
    rw [List.length_append] at hlength
    rcases List.mem_cons.1 h with rfl | hrest
    · exact ⟨Nat.le_refl _, Nat.lt_add_of_pos_right (Nat.succ_pos _)⟩
    · have hplace := ih hrest
      rw [Token.width] at hplace
      omega

namespace Scope

/-- **Every instruction of a compiled program comes from a token of its text.** -/
theorem instructions_of_compile {text : String} {p : Program} (h : scope.compile text = .ok p) :
    ∀ i ∈ p.code, i.WrittenIn scope (Placed.scan 0 text.toList) := by
  obtain ⟨sequence, hread, rfl⟩ := read_of_compile h
  exact (written_of_read hread).instructions

/-- Every instruction of a compiled program has a position in its text. -/
theorem position_of_compile {text : String} {p : Program} (h : scope.compile text = .ok p)
    {i : Instruction} (hi : i ∈ p.code) : 0 ≤ i.position ∧ i.position < text.length := by
  obtain ⟨t, ht, hposition⟩ := (instructions_of_compile h i hi).exists_token
  have hplace := Placed.position_of_mem_scan ht
  rw [String.length_toList] at hplace
  omega

end Scope

end Reckoner
