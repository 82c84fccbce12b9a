import Reckoner.Proofs.Program.Arithmetic

/-!
# Kinds decide type errors, but for one pair

An operator takes operands of certain kinds (`Operator.Takes`).  If it takes those of two values,
the kinds also fix the kind of the result (`Kind.join`), and what the values are decides only
whether there is a result: the error, if there is one, is about numbers.  If it does not take them,
the error names both kinds, whatever the values are, but for one exception: where a text is divided
by a vector, a component of the vector that is zero is found before the text is.

`Arithmetic.Lawful.binary_ends` says so of the instruction of an operator on a machine with any
lawful arithmetic, and of `Code.exec`.
-/

set_option autoImplicit false

namespace Reckoner

/-! ## Kinds of operands and results -/

/-- An operator takes operands of two kinds. -/
def Operator.Takes : Operator → Kind → Kind → Prop
  | add, l, r | sub, l, r => l = r ∧ l ≠ .text
  | mul, l, r | div, l, r => l ≠ .text ∧ r ≠ .text
  | mod, l, r | pow, l, r => l = .scalar ∧ r = .scalar

instance (op : Operator) (l r : Kind) : Decidable (op.Takes l r) := by
  cases op <;> unfold Operator.Takes <;> infer_instance

/-- The kind of a result: a vector as soon as one operand is. -/
def Kind.join (l r : Kind) : Kind := if l = .vector ∨ r = .vector then .vector else .scalar

/-- A text is divided by a vector with a component that is zero. -/
def Operator.HidesText (op : Operator) (a b : Value) : Prop :=
  op = .div ∧ a.kind = .text ∧ ∃ w, b = .vector w ∧ hasZeroComponent w = true

/-- An error is about the numbers in the operands. -/
def EvalCause.Numeric (cause : EvalCause) : Prop :=
  cause.kind = .divideByZero ∨ cause.kind = .numericDomain

/-- An outcome is a type error. -/
def Mismatched {α β : Type} (outcome : Except Raised α × β) : Prop :=
  ∃ cause position, outcome.1 = .error (.fault (.eval cause position)) ∧
    cause.kind = .typeMismatch

namespace Operator

variable {op : Operator} {a b : Value} {position : Int} {stack : Stack} {env : Environment}
variable {outcome : Except Raised Stack × Environment}

/-- How the instruction of an operator ends on a stack with two operands on top. -/
structure Ends (op : Operator) (a b : Value) (position : Int) (stack : Stack) (env : Environment)
    (outcome : Except Raised Stack × Environment) : Prop where
  /-- Operands of the right kinds make a value of the kind that they fix, or an error about the
  numbers in them. -/
  taken : op.Takes a.kind b.kind →
    (∃ value, value.kind = a.kind.join b.kind ∧ outcome = (.ok (value :: stack), env)) ∨
      ∃ cause, cause.Numeric ∧ outcome = (.error (.fault (.eval cause (some position))), env)
  /-- Operands of other kinds make an error that names both kinds. -/
  refused : ¬op.Takes a.kind b.kind → ¬op.HidesText a b →
    outcome = (.error (.fault (.eval (.operands op a.kind b.kind) (some position))), env)
  /-- A zero in a vector is found before the text that is divided by it. -/
  hidden : op.HidesText a b → ∃ w, b = .vector w ∧
    outcome = (.error (.fault (.eval (.zeroComponent w) (some position))), env)

/-- **There is a type error if and only if the operator does not take the kinds**, unless a zero
hides a text. -/
theorem Ends.mismatched_iff (h : op.Ends a b position stack env outcome) :
    Mismatched outcome ↔ ¬op.Takes a.kind b.kind ∧ ¬op.HidesText a b := by
  constructor
  · rintro ⟨cause, place, herror, hkind⟩
    refine ⟨fun htakes ↦ ?_, fun hhides ↦ ?_⟩
    · rcases h.taken htakes with ⟨_, _, heq⟩ | ⟨cause', hnumeric, heq⟩
      · rw [heq] at herror
        cases herror
      · rw [heq] at herror
        cases herror
        rcases hnumeric with h | h <;> rw [hkind] at h <;> cases h
    · obtain ⟨w, _, heq⟩ := h.hidden hhides
      rw [heq] at herror
      cases herror
      cases hkind
  · rintro ⟨htakes, hhides⟩
    exact ⟨_, _, congrArg Prod.fst (h.refused htakes hhides), rfl⟩

end Operator

/-! ## Operators on a lawful machine -/

namespace Arithmetic

/-- A computation makes a value of a kind, or an error about numbers. -/
inductive Yields (k : Kind) : Except Raised Value → Prop
  | value {v : Value} (kind : v.kind = k) : Yields k (.ok v)
  | fail {cause : EvalCause} (numeric : cause.Numeric) : Yields k (fail cause)

/-- A primitive that has a result goes before. -/
theorem Yields.bind {α : Type} {k : Kind} {result : Except Trap α} {f : α → Except Raised Value}
    (h : ∃ a, result = .ok a) (hf : ∀ a, Yields k (f a)) : Yields k (unguarded result >>= f) := by
  obtain ⟨a, rfl⟩ := h
  exact hf a

/-- A test for an error about numbers goes before. -/
theorem Yields.test {k : Kind} {test : Prop} [Decidable test] {cause : EvalCause}
    {result : Except Raised Value} (hcause : cause.Numeric) (h : ¬test → Yields k result) :
    Yields k (if test then Arithmetic.fail cause else result) := by
  split
  · exact .fail hcause
  · next htest => exact h htest

variable {A : Arithmetic}

theorem Lawful.quotients (hA : A.Lawful) (v : Vec3) {w : Vec3}
    (h : ¬Operator.hasZeroComponent w = true) : Yields .vector (A.quotients v w) := by
  simp only [Operator.hasZeroComponent, Vec3.components, List.any_cons, List.any_nil,
    Bool.or_false, Bool.or_eq_true, not_or, Bool.not_eq_true] at h
  obtain ⟨hx, hy, hz⟩ := h
  exact .bind (hA.divide _ hx) fun x ↦ .bind (hA.divide _ hy) fun y ↦
    .bind (hA.divide _ hz) fun z ↦ .value rfl

/-- No divisor that passes the test is zero. -/
theorem Lawful.quotient (hA : A.Lawful) {a b : Value} (ha : a.kind ≠ .text)
    (hb : b.kind ≠ .text) : Yields (a.kind.join b.kind) (A.quotient a b) := by
  match a, b with
  | .text _, _ => exact absurd rfl ha
  | _, .text _ => exact absurd rfl hb
  | .scalar x, .scalar y =>
    refine .test (.inl rfl) fun hy ↦ ?_
    exact .bind (hA.divide x (Bool.eq_false_iff.2 hy)) fun z ↦ .value rfl
  | .vector v, .scalar y =>
    refine .test (.inl rfl) fun hy ↦ hA.quotients v ?_
    simpa [Operator.hasZeroComponent, Vec3.components] using hy
  | .scalar x, .vector w => exact .test (.inl rfl) fun hw ↦ hA.quotients ⟨x, x, x⟩ hw
  | .vector v, .vector w => exact .test (.inl rfl) fun hw ↦ hA.quotients v hw

/-- Finite operands have whole parts, and the whole part of a divisor that passes the test is not
zero. -/
theorem Lawful.modulo (hA : A.Lawful) (x y : Float) : Yields .scalar (A.modulo x y) := by
  unfold Arithmetic.modulo
  split
  · next hfinite =>
    rw [Bool.and_eq_true] at hfinite
    exact .bind (hA.truncate hfinite.2) fun m ↦ .test (.inl rfl) fun hm ↦
      .bind (hA.truncate hfinite.1) fun n ↦ .bind (hA.remainder n hm) fun z ↦ .value rfl
  · exact .fail (.inr rfl)

/-- What the tests leave to a power is only that it is out of range. -/
theorem Lawful.exponentiate (hA : A.Lawful) (x y : Float) :
    Yields .scalar (A.exponentiate x y) := by
  refine .test (.inl rfl) fun hzero ↦ .test (.inr rfl) fun hnegative ↦ ?_
  split
  · exact .value rfl
  · exact .fail (.inr rfl)
  · next t hoverflow hpower =>
    rcases hA.power hpower with rfl | h | h
    · exact absurd rfl hoverflow
    · exact absurd h hzero
    · exact absurd h hnegative

/-- **Operands of the right kinds** make a value of the kind that they fix, or an error about
numbers. -/
theorem Lawful.yields (hA : A.Lawful) {op : Operator} {a b : Value}
    (h : op.Takes a.kind b.kind) : Yields (a.kind.join b.kind) (A.binary op a b) := by
  match op, a, b with
  | .add, .scalar _, .scalar _ | .add, .vector _, .vector _ => exact .value rfl
  | .sub, .scalar _, .scalar _ | .sub, .vector _, .vector _ => exact .value rfl
  | .mul, .scalar _, .scalar _ | .mul, .scalar _, .vector _ => exact .value rfl
  | .mul, .vector _, .scalar _ | .mul, .vector _, .vector _ => exact .value rfl
  | .div, _, _ => exact hA.quotient h.1 h.2
  | .mod, .scalar x, .scalar y => exact hA.modulo x y
  | .pow, .scalar x, .scalar y => exact hA.exponentiate x y

/-- **Operands of other kinds** make an error that names both kinds, unless a zero hides a text. -/
theorem binary_of_not_takes (A : Arithmetic) {op : Operator} {a b : Value}
    (h : ¬op.Takes a.kind b.kind) (hhides : ¬op.HidesText a b) :
    A.binary op a b = fail (.operands op a.kind b.kind) := by
  match op, a, b with
  | .div, .text s, .vector w =>
    have hw : ¬Operator.hasZeroComponent w = true := fun hw ↦ hhides ⟨rfl, rfl, w, rfl, hw⟩
    exact congrArg fail (if_neg hw)
  | .div, .text s, .scalar y | .div, .scalar _, .text _ | .div, .vector _, .text _ => rfl
  | .div, .text s, .text t => rfl
  | .div, .scalar _, .scalar _ | .div, .scalar _, .vector _
  | .div, .vector _, .scalar _ | .div, .vector _, .vector _ =>
    simp [Operator.Takes, Value.kind] at h
  | .add, a, b | .sub, a, b | .mul, a, b | .mod, a, b | .pow, a, b =>
    cases a <;> cases b <;> first | rfl | simp [Operator.Takes, Value.kind] at h

theorem binary_of_hidesText (A : Arithmetic) {op : Operator} {a b : Value}
    (h : op.HidesText a b) : ∃ w, b = .vector w ∧ A.binary op a b = fail (.zeroComponent w) := by
  obtain ⟨rfl, ha, w, rfl, hw⟩ := h
  match a with
  | .text s => exact ⟨w, rfl, congrArg fail (if_pos hw)⟩

/-! ## The instruction of an operator -/

/-- What the instruction of an operator leaves. -/
theorem exec_binary (A : Arithmetic) (functions : List Builtin) (op : Operator) (position : Int)
    (a b : Value) (stack : Stack) (env : Environment) :
    A.exec functions [⟨.binary op, position⟩] (b :: a :: stack) env =
      (match A.binary op a b with
      | .ok value => .ok (value :: stack)
      | .error raised => .error (raised.atPosition position), env) := by
  rw [exec, step]
  cases A.binary op a b <;> rfl

theorem exec_binary_fail (A : Arithmetic) (functions : List Builtin) {op : Operator}
    (position : Int) {a b : Value} (stack : Stack) (env : Environment) {cause : EvalCause}
    (h : A.binary op a b = fail cause) :
    A.exec functions [⟨.binary op, position⟩] (b :: a :: stack) env =
      (.error (.fault (.eval cause (some position))), env) := by
  rw [exec_binary, h]
  rfl

/-- The instruction of an operator on a machine with a lawful arithmetic. -/
theorem Lawful.ends (hA : A.Lawful) (functions : List Builtin) (op : Operator) (position : Int)
    (a b : Value) (stack : Stack) (env : Environment) :
    op.Ends a b position stack env
      (A.exec functions [⟨.binary op, position⟩] (b :: a :: stack) env) where
  taken htakes := by
    have hyields := hA.yields htakes
    generalize hresult : A.binary op a b = result at hyields
    cases hyields with
    | @value value hkind => exact .inl ⟨value, hkind, by rw [exec_binary, hresult]⟩
    | fail hnumeric =>
      exact .inr ⟨_, hnumeric, A.exec_binary_fail functions position stack env hresult⟩
  refused htakes hhides :=
    A.exec_binary_fail functions position stack env (A.binary_of_not_takes htakes hhides)
  hidden hhides := by
    obtain ⟨w, hb, hfail⟩ := A.binary_of_hidesText hhides
    exact ⟨w, hb, A.exec_binary_fail functions position stack env hfail⟩

/-- **The kinds of the operands decide type errors**, unless a zero hides a text.  Let an operator
stand in code, on a machine with any lawful arithmetic, and any two values on top of the stack.  If
the operator takes their kinds, the instruction leaves a value of the kind that they fix, or an
error about the numbers in them.  If it does not, there is an error that names both kinds, and this
is the only case of a type error.  Only where a text is divided by a vector with a component that is
zero, the error is about the zero.  The same holds of `Code.exec`, which is the execution of a
machine with the standard arithmetic. -/
theorem Lawful.binary_ends (hA : A.Lawful) (functions : List Builtin) (op : Operator)
    (position : Int) (a b : Value) (stack : Stack) (env : Environment) :
    (op.Ends a b position stack env
        (A.exec functions [⟨.binary op, position⟩] (b :: a :: stack) env) ∧
      (Mismatched (A.exec functions [⟨.binary op, position⟩] (b :: a :: stack) env) ↔
        ¬op.Takes a.kind b.kind ∧ ¬op.HidesText a b)) ∧
    (op.Ends a b position stack env
        ((Code.exec functions [⟨.binary op, position⟩] (b :: a :: stack) env).map total id) ∧
      (Mismatched
          ((Code.exec functions [⟨.binary op, position⟩] (b :: a :: stack) env).map total id) ↔
        ¬op.Takes a.kind b.kind ∧ ¬op.HidesText a b)) := by
  have hends := hA.ends functions op position a b stack env
  have hstandard := lawful_standard.ends functions op position a b stack env
  rw [exec_standard] at hstandard
  exact ⟨⟨hends, hends.mismatched_iff⟩, hstandard, hstandard.mismatched_iff⟩

/-- A text that is divided by a vector fails for the zero in the vector. -/
theorem Lawful.binary_ends_text :
    (Code.exec [] [⟨.binary .div, 1⟩] [.vector ⟨1, 0, 2⟩, .text "abc"] .empty).map total id =
      (.error (.fault (.eval (.zeroComponent ⟨1, 0, 2⟩) (some 1))), .empty) := by
  have hhides : Operator.div.HidesText (.text "abc") (.vector ⟨1, 0, 2⟩) :=
    ⟨rfl, rfl, _, rfl, by decide +kernel⟩
  obtain ⟨_, hends, _⟩ :=
    lawful_standard.binary_ends [] .div 1 (.text "abc") (.vector ⟨1, 0, 2⟩) [] .empty
  obtain ⟨w, hw, houtcome⟩ := hends.hidden hhides
  cases hw
  exact houtcome

/-- The kinds alone do not decide type errors. -/
theorem not_forall_mismatched_iff :
    ¬∀ (functions : List Builtin) (op : Operator) (position : Int) (a b : Value) (stack : Stack)
      (env : Environment),
      Mismatched
          ((Code.exec functions [⟨.binary op, position⟩] (b :: a :: stack) env).map total id) ↔
        ¬op.Takes a.kind b.kind := by
  intro h
  have hoperands : ¬Operator.div.Takes .text .vector := by decide
  obtain ⟨cause, position, herror, hkind⟩ :=
    (h [] .div 1 (.text "abc") (.vector ⟨1, 0, 2⟩) [] .empty).2 hoperands
  have hzero : ((Code.exec [] [⟨.binary .div, 1⟩] [.vector ⟨1, 0, 2⟩, .text "abc"]
      .empty).map total id).1 = .error (.fault (.eval (.zeroComponent ⟨1, 0, 2⟩) (some 1))) := by
    decide +kernel
  rw [hzero] at herror
  cases herror
  cases hkind

end Arithmetic

end Reckoner
